/-
# `Coalesce` — several frames in one chunk

Frames that come in one chunk should do what they do one by one.  They do when each
of them (`Coalescible`), in the state the frames before it lead to,

  * has the fields its case reads in its own payload: the case does not look how long
    the payload is, and takes the next frame for the rest of it;
  * has a case, unless no later one has: a command without a case leaves the loop, and
    the rest of the chunk is lost;
  * does not reset the parser, unless it comes first and its payload has no header in
    it: a reset goes back to offset 8 of the chunk.

If a voice frame is in progress, the chunk first completes it, and a frame in which it
ends must have no header behind the end.
-/
import IntercomSalve.Frames

namespace IntercomSalve

open Goto

/-! ## The condition -/

/-- The bytes the frame in progress is still waiting for. -/
def resumeRest (s : App) : Nat := s.rx.currentDataLength - s.rx.currentDataLengthSave

/-- With no frame in progress: the frame `f` at offset `d`, before the frames `fs`. -/
structure Fresh (d : Nat) (f : Frame) (fs : List Frame) (s : App) : Prop where
  inside : FrameInside f.bytes.length (f.alone s)
  known : f.cmd.hasCase = false → ∀ g ∈ fs, g.cmd.hasCase = false
  reset : Resets (f.alone s) → d = 0 ∧ NoHeader f.bytes 8

/-- With a frame in progress: the frame `f` at offset `d` is taken for voice, at least
at its start. -/
structure Swallowed (d : Nat) (f : Frame) (s : App) : Prop where
  ring : s.play.playDataNum < playDataMax
  whole : resumeRest s ≤ f.bytes.length →
    NoHeader f.bytes (resumeRest s) ∧ (d ≠ 0 → resumeRest s ≠ 1)

/-- Each frame, in the state it finds when the frames come one by one. -/
def Coalescible : Nat → List Frame → App → Prop
  | _, [], _ => True
  | d, f :: fs, s =>
      (s.rx.currentDataLengthSave = 0 → Fresh d f fs s) ∧
        (s.rx.currentDataLengthSave ≠ 0 → Swallowed d f s) ∧
        ∀ n t, f.bytes.length ≤ n → Handles122 n f.bytes s t →
          Coalescible (d + f.bytes.length) fs t

/-- The bytes of the frames, back to back. -/
def chunkOf (fs : List Frame) : List UInt8 := (fs.map Frame.bytes).flatten

@[simp] theorem chunkOf_cons (f : Frame) (fs : List Frame) :
    chunkOf (f :: fs) = f.bytes ++ chunkOf fs := rfl

theorem chunkOf_length_cons (f : Frame) (fs : List Frame) :
    (chunkOf (f :: fs)).length = f.bytes.length + (chunkOf fs).length := by
  rw [chunkOf_cons, List.length_append]

/-- The first frame of a chunk, and the chunk behind it. -/
theorem Holds.of_cons {q : Mem} {d : Nat} {f : Frame} {fs : List Frame}
    (h : Holds q d (chunkOf (f :: fs))) :
    Holds q d f.bytes ∧ Holds q (d + f.bytes.length) (chunkOf fs) := by
  have hlen := chunkOf_length_cons f fs
  have hrest : ∀ k, k < (chunkOf fs).length →
      q (d + f.bytes.length + k) = (chunkOf fs).getD k 0 := by
    intro k hk
    have hb := h.bytes (f.bytes.length + k) (by omega)
    rw [chunkOf_cons, List.getD_eq_getElem?_getD, List.getElem?_append_right (by omega),
      Nat.add_sub_cancel_left, ← List.getD_eq_getElem?_getD, ← Nat.add_assoc] at hb
    exact hb
  have hnext : q (d + f.bytes.length + (chunkOf fs).length) = 0x00 ∨
      q (d + f.bytes.length + (chunkOf fs).length) = 0xAA := by
    rw [Nat.add_assoc, ← hlen]
    exact h.next
  refine ⟨⟨?_, ?_⟩, ⟨hrest, hnext⟩⟩
  · intro k hk
    have hb := h.bytes k (by omega)
    rw [chunkOf_cons, List.getD_eq_getElem?_getD, List.getElem?_append_left hk,
      ← List.getD_eq_getElem?_getD] at hb
    exact hb
  · cases fs with
    | nil => exact hnext
    | cons g gs =>
        -- the next frame starts with `AA`
        refine Or.inr ((hrest 0 ?_).trans rfl)
        rw [chunkOf_length_cons, g.length_bytes]
        omega

/-! ## Frames without a case -/

theorem Frame.inside_noCase {f : Frame} (h : f.cmd.hasCase = false) (s : App) :
    FrameInside f.bytes.length (f.alone s) := by
  have hne : ∀ c : SocketInstruction, c.hasCase = true → cmdAt (f.alone s) ≠ c.code := by
    intro c hc heq
    rw [f.cmdAt_alone] at heq
    rw [SocketInstruction.code_injective heq, hc] at h
    exact nomatch h
  refine ⟨?_, ?_, ?_, ?_⟩
  · have hneeds : frameNeeds (f.alone s) = 8 := by
      rw [frameNeeds, f.caseAt_alone, h]
      rfl
    rw [hneeds, f.length_bytes, show (f.alone s).rx.handleDeviation = 0 from rfl]
    omega
  · intro h5
    exact absurd h5 (hne _ rfl)
  · intro h10
    exact absurd h10 (hne _ rfl)
  · intro h34
    exact absurd h34 (hne _ rfl)

/-- A frame without a case, at any place: the loop is left. -/
theorem Frame.isCmd_noCase {f : Frame} {s : App} (hh : HandleOk s) (hcase : f.cmd.hasCase = false)
    (hlen : f.bytes.length < 65536) {q : Mem} {d ret : Nat} (hq : Holds q d f.bytes)
    (hret : d + f.bytes.length ≤ ret) :
    isCmd ret (s.placed q d) = .leave ((readHeader (f.alone s)).placed q d) := by
  have h8 := f.length_bytes
  have hreset : Resets (f.alone s) → d = 0 := by
    rintro ⟨-, ⟨hc, -⟩ | ⟨hc, -⟩⟩
    · rw [f.cmdAt_alone] at hc
      rw [SocketInstruction.code_injective hc] at hcase
      exact absurd hcase (by decide)
    · rw [f.cmdAt_alone] at hc
      rw [SocketInstruction.code_injective hc] at hcase
      exact absurd hcase (by decide)
  rw [Frame.isCmd_placed hh hlen (f.inside_noCase hcase s) hq.bytes (by omega) hreset
    (f.sameVoice hret), f.isCmd_alone_noCase hh hcase _ (by omega), Jump.map_leave]
  refine congrArg Jump.leave ?_
  show (readHeader (f.alone s)).placed q (0 + d) = _
  rw [Nat.zero_add]

theorem Frame.handles_noCase {f : Frame} {s : App} (hh : HandleOk s)
    (hsave : s.rx.currentDataLengthSave = 0) (hcase : f.cmd.hasCase = false)
    (hlen : f.bytes.length < 65536) {n : Nat} (hn : f.bytes.length ≤ n) :
    Handles122 n f.bytes s ((readHeader (f.alone s)).placed (received n f.bytes s.rx.pRecv) 0) := by
  have h8 := f.length_bytes
  refine (handles122_fresh (by omega) hsave).mpr (.leave ?_)
  exact f.isCmd_noCase hh hcase hlen (holds_received hn) (by omega)

/-- They change nothing but the time since the last frame. -/
theorem noCase_run {fs : List Frame} (hfs : ∀ g ∈ fs, g.cmd.hasCase = false)
    (hlen : (chunkOf fs).length < 65536) :
    ∀ {s : App}, HandleOk s → s.rx.currentDataLengthSave = 0 → s.link.heartbeatTim = 0 →
      (∃ t, Handled (fs.map Frame.bytes) s t) ∧
        ∀ t, Handled (fs.map Frame.bytes) s t → SameEffect s t := by
  induction fs with
  | nil =>
      intro s _ _ _
      exact handled_nil (.refl s)
  | cons f fs ih =>
      intro s hh hsave htim
      rw [chunkOf_length_cons] at hlen
      have hcase := hfs f List.mem_cons_self
      have hstep := fun n hn => f.handles_noCase hh hsave hcase (by omega) (n := n) hn
      have hrun := fun q => ih (fun g hg => hfs g (List.mem_cons_of_mem f hg)) (by omega)
        (s := (readHeader (f.alone s)).placed q 0) hh rfl rfl
      have hsame : ∀ q, SameEffect s ((readHeader (f.alone s)).placed q 0) := by
        intro q
        refine ⟨?_, hsave.symm, fun h => absurd hsave h⟩
        have hlink : { s.link with heartbeatTim := 0 } = s.link := by rw [← htim]
        show _ = { s with link := { s.link with heartbeatTim := 0 }, rx := _ }
        rw [hlink]
        rfl
      refine handled_cons fun n hn => ⟨_, hstep n hn, (hrun _).1, ?_⟩
      intro t ht
      exact (hsame _).trans ((hrun _).2 t ht)

/-! ## No frame in progress -/

/-- A frame with a case, alone in its chunk. -/
theorem Frame.handles {f : Frame} {s w : App}
    (hsave : s.rx.currentDataLengthSave = 0)
    (hv : ∀ q d ret, Holds q d f.bytes → d + f.bytes.length ≤ ret → (Resets (f.alone s) → d = 0) →
      Visits (isCmd ret) (s.placed q d) (w.placed q (d + f.bytes.length)))
    {n : Nat} (hn : f.bytes.length ≤ n) :
    Handles122 n f.bytes s (w.placed (received n f.bytes s.rx.pRecv) f.bytes.length) := by
  have h8 := f.length_bytes
  refine (handles122_fresh (by omega) hsave).mpr (Ends.of_visits ?_ (.leave (isCmd_of_ge ?_)))
  · have hvisit := hv _ 0 f.bytes.length (holds_received (q := s.rx.pRecv) hn) (by omega)
      fun _ => rfl
    rw [Nat.zero_add] at hvisit
    exact hvisit
  · exact Nat.le_refl f.bytes.length

/-- What the frames `fs` do one by one from `s`, the chunk `q` does from offset `d`. -/
def SameFrom (q : Mem) (d ret : Nat) (fs : List Frame) (s : App) : Prop :=
  (∃ t', Handled (fs.map Frame.bytes) s t') ∧
    ∀ t', Handled (fs.map Frame.bytes) s t' →
      ∃ t, Ends (isCmd ret) (s.placed q d) t ∧ SameEffect t t'

theorem fresh_run {q : Mem} {ret : Nat} (hret : ret < 65536) :
    ∀ {fs : List Frame} {s : App} {d : Nat}, HandleOk s → s.rx.currentDataLengthSave = 0 →
      Coalescible d fs s → Holds q d (chunkOf fs) → d + (chunkOf fs).length = ret →
      SameFrom q d ret fs s := by
  intro fs
  induction fs with
  | nil =>
      intro s d _ _ _ _ hd
      exact handled_nil ⟨s.placed q d, .leave (isCmd_of_ge (Nat.le_of_eq hd.symm)), .placed s⟩
  | cons f fs ih =>
      intro s d hh hsave hg hq hd
      rw [chunkOf_length_cons] at hd
      obtain ⟨hfresh, -, hnext⟩ := hg
      have hfr := hfresh hsave
      obtain ⟨hqf, hqfs⟩ := hq.of_cons
      have hlen : f.bytes.length < 65536 := by omega
      cases hcase : f.cmd.hasCase with
      | true =>
          obtain ⟨w, hsw, hhw, hv⟩ := Frame.visits hh hcase hlen hfr.inside
            fun hr => (hfr.reset hr).2
          have hstep := fun n hn => f.handles hsave hv (n := n) hn
          have hrun := fun n hn => ih (s := w.placed (received n f.bytes s.rx.pRecv) f.bytes.length)
            hhw hsw (hnext n _ hn (hstep n hn)) hqfs (by omega)
          refine handled_cons fun n hn => ⟨_, hstep n hn, (hrun n hn).1, ?_⟩
          intro t' ht'
          obtain ⟨t, ht, hsame⟩ := (hrun n hn).2 t' ht'
          refine ⟨t, Ends.of_visits ?_ ht, hsame⟩
          exact hv q d ret hqf (by omega) fun hr => (hfr.reset hr).1
      | false =>
          -- the loop is left here, and nothing more would have come of it
          have hstep := fun n hn => f.handles_noCase hh hsave hcase hlen (n := n) hn
          have hrun := fun q => noCase_run (hfr.known hcase) (by omega)
            (s := (readHeader (f.alone s)).placed q 0) hh rfl rfl
          refine handled_cons fun n hn => ⟨_, hstep n hn, (hrun _).1, ?_⟩
          intro t' ht'
          refine ⟨_, .leave (f.isCmd_noCase hh hcase hlen hqf (by omega)), ?_⟩
          exact ((hrun _).2 t' ht').placed_left

/-! ## A frame in progress -/

/-- `lines` bytes from offset `d` of the buffer `q` are stored. -/
def fillAt (q : Mem) (d lines : Nat) (s : App) : App :=
  { s with play := fillAudio (q.ptr d) lines s.play }

/-- The frame in progress takes `k` bytes from offset `d` of `q`. -/
def takeAt (q : Mem) (d k : Nat) (s : App) : App :=
  setSave (s.rx.currentDataLengthSave + k) (fillAt q d k s)

theorem resumeRest_takeAt (q : Mem) (d k : Nat) (s : App) :
    resumeRest (takeAt q d k s) = resumeRest s - k := by
  show s.rx.currentDataLength - (s.rx.currentDataLengthSave + k) = _
  unfold resumeRest
  omega

theorem save_takeAt (q : Mem) (d : Nat) (s : App) {k : Nat} (hk : 0 < k) :
    (takeAt q d k s).rx.currentDataLengthSave ≠ 0 := by
  show s.rx.currentDataLengthSave + k ≠ 0
  omega

theorem resumeOk_takeAt (q : Mem) (d : Nat) {k : Nat} {s : App}
    (hah : s.rx.analysisHandle = SocketInstruction.instruction10.code)
    (hle : s.rx.currentDataLength ≤ 65535) (hk : k < resumeRest s) :
    ResumeOk (takeAt q d k s).rx := by
  refine fun _ => ⟨hah, ?_, hle⟩
  show s.rx.currentDataLengthSave + k < s.rx.currentDataLength
  unfold resumeRest at hk
  omega

/-- The frame in progress goes on with `m` bytes from offset `d` on. -/
def resumeAt (q : Mem) (d m : Nat) (s : App) : Jump App :=
  if resumeRest s ≤ m then
    .again (setSave 0 ((fillAt q d (resumeRest s) s).placed q (d + resumeRest s)))
  else
    .leave (setSave (s.rx.currentDataLengthSave + m) ((fillAt q d m s).placed q 0))

/-- Where the loop ends that such a jump enters. -/
def Leads (ret : Nat) (j : Jump App) (t : App) : Prop :=
  match j with
  | .again u => Ends (isCmd ret) u t
  | .leave u => t = u

theorem message122_resume {n : Nat} {chunk : List UInt8} {s : App} (hc : 1 ≤ chunk.length)
    (hs : s.rx.currentDataLengthSave ≠ 0) (hok : ResumeOk s.rx) :
    message122 n chunk s = resumeAt (received n chunk s.rx.pRecv) 0 chunk.length s := by
  obtain ⟨hah, hlt, -⟩ := hok hs
  have hvoice : SocketInstruction.ofCode s.rx.analysisHandle = some .instruction10 :=
    SocketInstruction.ofCode_eq_some.mpr hah
  have hrest : sub32 s.rx.currentDataLength s.rx.currentDataLengthSave = resumeRest s :=
    sub32_of_le (Nat.le_of_lt hlt)
  unfold message122
  rw [if_neg (Nat.not_lt.mpr hc), if_pos hs, resumeVoice,
    if_pos (show SocketInstruction.ofCode (rewind (socketRecv n chunk s)).rx.analysisHandle =
      some .instruction10 from hvoice),
    show sub32 (rewind (socketRecv n chunk s)).rx.currentDataLength
      (rewind (socketRecv n chunk s)).rx.currentDataLengthSave = resumeRest s from hrest]
  unfold resumeAt
  by_cases hle : resumeRest s ≤ chunk.length
  · rw [if_pos hle, if_pos hle]
    rfl
  · rw [if_neg hle, if_neg hle]
    rfl

theorem handles122_resume {n : Nat} {chunk : List UInt8} {s t : App} (hc : 1 ≤ chunk.length)
    (hs : s.rx.currentDataLengthSave ≠ 0) (hok : ResumeOk s.rx) :
    Handles122 n chunk s t ↔
      Leads chunk.length (resumeAt (received n chunk s.rx.pRecv) 0 chunk.length s) t := by
  rw [← message122_resume hc hs hok]
  cases hm : message122 n chunk s with
  | again u =>
      constructor
      · rintro (hl | ⟨hu, he⟩)
        · exact nomatch hm.symm.trans hl
        · obtain rfl := Jump.again.inj (hm.symm.trans hu)
          exact he
      · exact fun he => .loop hm he
  | leave u =>
      constructor
      · rintro (hl | ⟨hu, -⟩)
        · exact (Jump.leave.inj (hm.symm.trans hl)).symm
        · exact nomatch hm.symm.trans hu
      · rintro rfl
        exact .noLoop hm

/-- What of a chunk is given to `fill_audio` does not depend on what stands around it. -/
theorem fillAt_congr {q q' : Mem} {d d' lines : Nat} {s : App}
    (hring : s.play.playDataNum < playDataMax) (h : ∀ k, k < lines → q (d + k) = q' (d' + k)) :
    fillAt q d lines s = fillAt q' d' lines s := by
  have hok : RingOk s.play.playDataNum lines := ringOk_of_le (Nat.le_of_lt hring)
  have hfill : fillAudio (q.ptr d) lines s.play = fillAudio (q'.ptr d') lines s.play := by
    refine fillAudio_congr fun k hk => ?_
    unfold RingOk at hok
    exact h k (by omega)
  rw [fillAt, fillAt, hfill]

/-- A chunk that is all of it taken for voice, with more to come. -/
theorem handles122_take {n d : Nat} {m : Mem} {chunk : List UInt8} {s : App}
    (hc : 1 ≤ chunk.length) (hok : ResumeOk s.rx) (hs : s.rx.currentDataLengthSave ≠ 0)
    (hring : s.play.playDataNum < playDataMax) (hlt : chunk.length < resumeRest s)
    (hm : ∀ k, k < chunk.length → m (d + k) = chunk.getD k 0) (hn : chunk.length ≤ n) :
    Handles122 n chunk s
      ((takeAt m d chunk.length s).placed (received n chunk s.rx.pRecv) 0) := by
  have hfill : fillAt (received n chunk s.rx.pRecv) 0 chunk.length s =
      fillAt m d chunk.length s := by
    refine fillAt_congr hring fun k hk => ?_
    rw [(holds_received hn).bytes k hk, hm k hk]
  refine (handles122_resume hc hs hok).mpr ?_
  rw [resumeAt, if_neg (Nat.not_le_of_lt hlt), hfill]
  rfl

/-- The frame in progress takes all of `a` bytes, and goes on behind them. -/
theorem resumeAt_add {q : Mem} {d a m : Nat} {s : App}
    (hring : s.play.playDataNum < playDataMax) (ha : 2 ≤ a) (hlt : a < resumeRest s)
    (hm : m = 0 ∨ 2 ≤ m) (hfit : a + m ≤ playDataMax) (hone : resumeRest s = a + 1 → m = 0) :
    resumeAt q d (a + m) s = resumeAt q (d + a) m (takeAt q d a s) := by
  have hptr : q.ptr (d + a) = (q.ptr d).ptr a := (Mem.ptr_ptr q d a).symm
  unfold resumeAt
  rw [resumeRest_takeAt]
  by_cases hle : resumeRest s ≤ a + m
  · rw [if_pos hle, if_pos (by omega)]
    have hadd : fillAudio (q.ptr (d + a)) (resumeRest s - a) (fillAudio (q.ptr d) a s.play) =
        fillAudio (q.ptr d) (resumeRest s) s.play := by
      rw [hptr, fillAudio_add hring ha (by omega) (by omega)]
      congr 1
      omega
    have hcur : d + a + (resumeRest s - a) = d + resumeRest s := by omega
    simp only [takeAt, fillAt, App.placed, setSave, hadd, hcur]
  · rw [if_neg hle, if_neg (by omega)]
    have hadd : fillAudio (q.ptr (d + a)) m (fillAudio (q.ptr d) a s.play) =
        fillAudio (q.ptr d) (a + m) s.play := by
      rcases hm with rfl | hm
      · rfl
      · rw [hptr, fillAudio_add hring ha hm hfit]
    simp only [takeAt, fillAt, App.placed, setSave, hadd, Nat.add_assoc]

theorem resumeAt_placed (q p : Mem) (d e m : Nat) (s : App) :
    resumeAt q d m (s.placed p e) = resumeAt q d m s := rfl

/-- The frame in progress ends with the first bytes of `f`. -/
def Frame.completes (f : Frame) (s : App) : App :=
  setSave 0 (fillAt (Mem.ofList f.bytes) 0 (resumeRest s) s)

/-- The frame in progress ends in `f`, and the rest of `f` is passed over. -/
theorem Frame.leads {f : Frame} {s : App} (hh : HandleOk s)
    (hring : s.play.playDataNum < playDataMax) (hin : resumeRest s ≤ f.bytes.length)
    (hno : NoHeader f.bytes (resumeRest s)) {q : Mem} {d m ret : Nat} {t : App}
    (hq : Holds q d f.bytes) (hm : f.bytes.length ≤ m) (hret : d + f.bytes.length ≤ ret)
    (he : Ends (isCmd ret) ((f.completes s).placed q (d + f.bytes.length)) t) :
    Leads ret (resumeAt q d m s) t := by
  have hfill : fillAt q d (resumeRest s) s = fillAt (Mem.ofList f.bytes) 0 (resumeRest s) s := by
    refine fillAt_congr hring fun k hk => ?_
    rw [hq.bytes k (by omega), Nat.zero_add]
    rfl
  have hstep : resumeAt q d m s = .again ((f.completes s).placed q (d + resumeRest s)) := by
    rw [resumeAt, if_pos (Nat.le_trans hin hm), hfill]
    rfl
  rw [hstep]
  exact Ends.of_visits (hq.visits (s := f.completes s) hh hret hin hno) he

theorem Frame.handles_completes {f : Frame} {s : App} (hh : HandleOk s) (hok : ResumeOk s.rx)
    (hsave : s.rx.currentDataLengthSave ≠ 0) (hring : s.play.playDataNum < playDataMax)
    (hin : resumeRest s ≤ f.bytes.length) (hno : NoHeader f.bytes (resumeRest s)) {n : Nat}
    (hn : f.bytes.length ≤ n) :
    Handles122 n f.bytes s
      ((f.completes s).placed (received n f.bytes s.rx.pRecv) (0 + f.bytes.length)) := by
  have h8 := f.length_bytes
  refine (handles122_resume (by omega) hsave hok).mpr ?_
  refine Frame.leads hh hring hin hno (holds_received hn) (Nat.le_refl _) (by omega)
    (.leave (isCmd_of_ge ?_))
  show f.bytes.length ≤ 0 + f.bytes.length
  omega

/-- One byte of the frame in progress is not left over for the next frame. -/
theorem Coalescible.none_left {d : Nat} {fs : List Frame} {s : App} (hg : Coalescible d fs s)
    (hd : d ≠ 0) (hsave : s.rx.currentDataLengthSave ≠ 0) (h1 : resumeRest s = 1) : fs = [] := by
  cases fs with
  | nil => rfl
  | cons g gs =>
      refine absurd h1 (((hg.2.1 hsave).whole ?_).2 hd)
      rw [h1, g.length_bytes]
      omega

/-- What the frames `fs` do one by one from `s`, with a frame in progress, the chunk `q`
does from offset `d`. -/
theorem resume_run {q : Mem} {ret : Nat} (hret : ret ≤ 9999) :
    ∀ {fs : List Frame} {s : App} {d : Nat}, HandleOk s → ResumeOk s.rx →
      s.rx.currentDataLengthSave ≠ 0 → Coalescible d fs s → Holds q d (chunkOf fs) →
      d + (chunkOf fs).length = ret →
      (∃ t', Handled (fs.map Frame.bytes) s t') ∧
        ∀ t', Handled (fs.map Frame.bytes) s t' →
          ∃ t, Leads ret (resumeAt q d (chunkOf fs).length s) t ∧ SameEffect t t' := by
  intro fs
  induction fs with
  | nil =>
      intro s d _ hok hsave _ _ _
      refine handled_nil ?_
      have hpos : ¬ resumeRest s ≤ (chunkOf []).length := by
        have hlt := (hok hsave).2.1
        show ¬ s.rx.currentDataLength - s.rx.currentDataLengthSave ≤ 0
        omega
      unfold resumeAt
      rw [if_neg hpos]
      exact ⟨_, rfl, (SameEffect.refl s).placed_left⟩
  | cons f fs ih =>
      intro s d hh hok hsave hg hq hd
      obtain ⟨hah, -, hle⟩ := hok hsave
      obtain ⟨-, hsw, hnext⟩ := hg
      obtain ⟨hring, hwhole⟩ := hsw hsave
      obtain ⟨hqf, hqfs⟩ := hq.of_cons
      have h8 := f.length_bytes
      rw [chunkOf_length_cons] at hd ⊢
      by_cases hin : resumeRest s ≤ f.bytes.length
      · obtain ⟨hno, -⟩ := hwhole hin
        have hstep := fun n hn => f.handles_completes hh hok hsave hring hin hno (n := n) hn
        have hrun : ∀ n, f.bytes.length ≤ n → SameFrom q (d + f.bytes.length) ret fs
            ((f.completes s).placed (received n f.bytes s.rx.pRecv) (0 + f.bytes.length)) := by
          intro n hn
          exact fresh_run (by omega) hh rfl (hnext n _ hn (hstep n hn)) hqfs (by omega)
        refine handled_cons fun n hn => ⟨_, hstep n hn, (hrun n hn).1, ?_⟩
        intro t' ht'
        obtain ⟨t, ht, hsame⟩ := (hrun n hn).2 t' ht'
        exact ⟨t, Frame.leads hh hring hin hno hqf (by omega) (by omega) ht, hsame⟩
      · -- all of `f` is voice
        have hout := Nat.lt_of_not_le hin
        have hpos : 0 < f.bytes.length := by omega
        have hsave' := save_takeAt q d s hpos
        have hstep := fun n hn => handles122_take (n := n) (m := q) (d := d) (by omega) hok hsave
          hring hout hqf.bytes hn
        have hrun := fun n hn =>
          ih (s := (takeAt q d f.bytes.length s).placed (received n f.bytes s.rx.pRecv) 0)
            hh (resumeOk_takeAt q d hah hle hout) hsave' (hnext n _ hn (hstep n hn)) hqfs (by omega)
        have hone : resumeRest s = f.bytes.length + 1 → (chunkOf fs).length = 0 := by
          intro hR
          have hleft : resumeRest (takeAt q d f.bytes.length s) = 1 := by
            rw [resumeRest_takeAt]
            omega
          rw [(hnext _ _ (Nat.le_refl _) (hstep _ (Nat.le_refl _))).none_left (by omega)
            hsave' hleft]
          rfl
        have hm : (chunkOf fs).length = 0 ∨ 2 ≤ (chunkOf fs).length := by
          cases fs with
          | nil => exact Or.inl rfl
          | cons g gs =>
              rw [chunkOf_length_cons, g.length_bytes]
              exact Or.inr (by omega)
        have hjump := resumeAt_add (q := q) (d := d) hring (by omega) hout hm
          (show f.bytes.length + (chunkOf fs).length ≤ playDataMax by unfold playDataMax; omega) hone
        refine handled_cons fun n hn => ⟨_, hstep n hn, (hrun n hn).1, ?_⟩
        intro t' ht'
        obtain ⟨t, ht, hsame⟩ := (hrun n hn).2 t' ht'
        rw [resumeAt_placed, ← hjump] at ht
        exact ⟨t, ht, hsame⟩

/-! ## The law -/

/-- **Frames in one chunk** do what they do one by one, when they are coalescible. -/
theorem coalesced_sameHandling {n : Nat} {fs : List Frame} {s : App} (hr : Receives n s)
    (hlen : (chunkOf fs).length ≤ 9999) (hg : Coalescible 0 fs s) :
    SameHandling [chunkOf fs] (fs.map Frame.bytes) s := by
  have key : ∀ m, (chunkOf fs).length ≤ m →
      (∃ t', Handled (fs.map Frame.bytes) s t') ∧
        ∀ t', Handled (fs.map Frame.bytes) s t' →
          ∃ t, Handles122 m (chunkOf fs) s t ∧ SameEffect t t' := by
    intro m hm
    have hq : Holds (received m (chunkOf fs) s.rx.pRecv) 0 (chunkOf fs) := holds_received hm
    by_cases hc : (chunkOf fs).length < 1
    · cases fs with
      | nil =>
          refine ⟨⟨s, .nil⟩, ?_⟩
          intro t' ht'
          cases ht'
          exact ⟨socketRecv m [] s, .noLoop rfl, .placed s⟩
      | cons f fs =>
          rw [chunkOf_length_cons, f.length_bytes] at hc
          omega
    · by_cases hsave : s.rx.currentDataLengthSave = 0
      · obtain ⟨hends, hsame⟩ := fresh_run (by omega) hr.handleOk hsave hg hq (Nat.zero_add _)
        refine ⟨hends, ?_⟩
        intro t' ht'
        obtain ⟨t, ht, hst⟩ := hsame t' ht'
        exact ⟨t, (handles122_fresh (by omega) hsave).mpr ht, hst⟩
      · obtain ⟨hends, hsame⟩ := resume_run hlen hr.handleOk hr.resumeOk hsave hg hq
          (Nat.zero_add _)
        refine ⟨hends, ?_⟩
        intro t' ht'
        obtain ⟨t, ht, hst⟩ := hsame t' ht'
        exact ⟨t, (handles122_resume (by omega) hsave hr.resumeOk).mpr ht, hst⟩
  obtain ⟨hends, hsame⟩ := key _ (Nat.le_refl _)
  refine ⟨?_, hends, ?_⟩
  · obtain ⟨t', ht'⟩ := hends
    obtain ⟨t, ht, -⟩ := hsame t' ht'
    exact ⟨t, .cons (Nat.le_refl _) ht .nil⟩
  · intro t t' ht ht'
    cases ht with
    | cons hn hf hrest =>
        cases hrest
        obtain ⟨u, hu, hst⟩ := (key _ hn).2 t' ht'
        obtain rfl := hf.det hu
        exact hst

/-- A call from `860000000000001`, on channel 1. -/
def callFrame : Frame where
  cmd := .instruction5
  payload := [0x31, 0x31, 0x38, 0x36, 0x30, 0x30, 0x30, 0x30, 0x30, 0x30, 0x30, 0x30, 0x30, 0x30,
    0x30, 0x30, 0x31]
  length_lt := by decide
  broadcast h := nomatch h

theorem callFrame_fresh (fs : List Frame) (s : App) : Fresh 0 callFrame fs s where
  inside := by
    have hcmd := callFrame.cmdAt_alone s
    refine ⟨?_, fun _ _ => Nat.le_refl 25, ?_, ?_⟩
    · rw [frameNeeds, callFrame.caseAt_alone]
      show 0 + (if s.call.isMailListALL = 0 then 10 else 8) ≤ 25
      split <;> decide
    · intro h
      exact absurd (hcmd.symm.trans h) (by decide)
    · intro h
      exact absurd (hcmd.symm.trans h) (by decide)
  known h := nomatch h
  reset := by
    have hbytes : ∀ i < 25, callFrame.bytes.getD i 0 = 0xAA → i < 8 := by decide
    exact fun _ => ⟨rfl, fun i h8 hlt h => Nat.not_lt.mpr h8 (hbytes i hlt h.1)⟩

/-- A relay is switched. -/
def relayFrame : Frame where
  cmd := .instruction29
  payload := List.replicate 18 0x31
  length_lt := by decide
  broadcast h := nomatch h

theorem relayFrame_fresh (d : Nat) (fs : List Frame) (s : App) : Fresh d relayFrame fs s where
  inside := by
    have hcmd := relayFrame.cmdAt_alone s
    refine ⟨?_, ?_, ?_, ?_⟩
    · rw [frameNeeds, relayFrame.caseAt_alone]
      exact Nat.le_refl 26
    · intro h
      exact absurd (hcmd.symm.trans h) (by decide)
    · intro h
      exact absurd (hcmd.symm.trans h) (by decide)
    · intro h
      exact absurd (hcmd.symm.trans h) (by decide)
  known h := nomatch h
  reset h := absurd h (not_resets_of_cmd (relayFrame.cmdAt_alone s) (by decide) (by decide))

/-- A call that is accepted, and a relay that is switched behind it, as the first bytes after
power-on. -/
theorem callAndRelay_sameHandling :
    ∃ s, Receives 51 s ∧ SameHandling [chunkOf [callFrame, relayFrame]]
      [callFrame.bytes, relayFrame.bytes] s := by
  have hr := Receives.of_runActs (l := [.socketEvent (.readInd 51), .socket Platform.silent])
    rfl rfl rfl
  refine ⟨_, hr, coalesced_sameHandling hr (by decide) ?_⟩
  refine ⟨fun _ => callFrame_fresh _ _, fun h => absurd rfl h, ?_⟩
  intro n t hn ht
  obtain ⟨w, hsave, -, hv⟩ := Frame.visits hr.handleOk rfl (by decide)
    (callFrame_fresh [] _).inside fun h => ((callFrame_fresh [] _).reset h).2
  obtain rfl := ht.det (callFrame.handles rfl hv hn)
  exact ⟨fun _ => relayFrame_fresh _ _ _, fun h => absurd hsave h, fun _ _ _ _ => trivial⟩

/-- The answer to a heartbeat. -/
def heartbeatFrame : Frame where
  cmd := .instruction12
  payload := []
  length_lt := by decide
  broadcast h := nomatch h

/-- Behind a heartbeat answer the call is read twice, the second time as a call that
comes while the first one is on. -/
theorem lateCall_not_sameHandling :
    ∃ s, Receives 33 s ∧ (chunkOf [heartbeatFrame, callFrame]).length = 33 ∧
      ¬ SameHandling [chunkOf [heartbeatFrame, callFrame]]
        [heartbeatFrame.bytes, callFrame.bytes] s := by
  have hr := Receives.of_runActs (l := [.socketEvent (.readInd 33), .socket Platform.silent])
    rfl rfl rfl
  refine ⟨_, hr, rfl, ?_⟩
  intro h
  have hcall := (h.same _ _
    (.cons (n := 33) (by decide) (.loop rfl (ends_of_run (n := 4) rfl)) .nil)
    (.cons (n := 8) (by decide) (.loop rfl (ends_of_run (n := 2) rfl))
      (.cons (n := 25) (by decide) (.loop rfl (ends_of_run (n := 20) rfl)) .nil))).rest
  have hcall := congrArg App.call hcall
  exact absurd (congrArg Call.mailListId hcall) (by decide)

end IntercomSalve
