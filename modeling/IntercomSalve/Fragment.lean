/-
# `Fragment` — one frame in several chunks

A frame that comes in pieces should do what it does in one.  It does under
conditions that differ with the frame (`Fragmentable`):

  * the first piece has the header and the fields the case reads, because nothing of
    a header is kept from one chunk to the next;
  * voice: the first piece has two bytes of it, and each later piece has two, because
    no bytes saved means no frame in progress, and `fill_audio` drops a single byte;
  * another frame is over with its first piece, and the later ones are searched for
    headers like any other chunk, so there must be none in them.
-/
import IntercomSalve.Coalesce

namespace IntercomSalve

open Goto

/-! ## The condition -/

/-- Where the voice of a frame starts, if it has any. -/
def Frame.voiceAt (f : Frame) : Option Nat :=
  match f.cmd with
  | .instruction10 => some 8
  | .instruction34 => if f.payload.getD 0 0 = 1 then some 10 else none
  | _ => none

/-- The frame `f`, of which `p` comes first and then the pieces `ps`. -/
structure Fragmentable (f : Frame) (p : List UInt8) (ps : List (List UInt8)) (s : App) : Prop where
  fits : f.bytes.length < precvMax
  inside : FrameInside p.length (f.alone s)
  voice : ∀ k, f.voiceAt = some k → ps ≠ [] →
    s.play.playDataNum < playDataMax ∧ k + 2 ≤ p.length ∧ ∀ q ∈ ps, 2 ≤ q.length
  other : f.voiceAt = none →
    (∀ q ∈ ps, NoHeader q 0) ∧ (Resets (f.alone s) → NoHeader p 8 ∧ NoHeader f.bytes 8)

theorem Frame.cmd_of_cmdAt {f : Frame} {s : App} {c : SocketInstruction}
    (h : cmdAt (f.alone s) = c.code) : f.cmd = c :=
  SocketInstruction.code_injective ((f.cmdAt_alone s).symm.trans h)

/-- Byte 8 of a frame is the first one of its payload. -/
theorem Frame.byteAt_eight (f : Frame) (s : App) :
    (f.alone s).rx.byteAt 8 = f.payload.getD 0 0 := rfl

/-- What the first piece covers, the frame covers. -/
theorem Frame.inside_whole {f : Frame} {s : App} {m : Nat} (h : FrameInside m (f.alone s))
    (hm : m ≤ f.bytes.length)
    (hring : ∀ k, f.voiceAt = some k → s.play.playDataNum < playDataMax) :
    FrameInside f.bytes.length (f.alone s) := by
  refine ⟨Nat.le_trans h.fields hm, ?_, ?_, ?_⟩
  · intro hc hr
    exact Nat.le_trans (h.answer hc hr) hm
  · intro hc
    refine ringOk_of_le (Nat.le_of_lt (hring 8 ?_))
    rw [Frame.voiceAt, Frame.cmd_of_cmdAt hc]
  · intro hc h1
    refine ringOk_of_le (Nat.le_of_lt (hring 10 ?_))
    rw [Frame.voiceAt, Frame.cmd_of_cmdAt hc]
    exact if_pos h1

/-! ## Frames without voice -/

/-- Only voice looks how much was received. -/
theorem caseOf_ret {c : SocketInstruction} {s : App} (h10 : c ≠ .instruction10)
    (h34 : c = .instruction34 → s.rx.byteAt 8 ≠ 1) (ret ret' : Nat) :
    caseOf ret c s = caseOf ret' c s := by
  cases c with
  | instruction10 => exact absurd rfl h10
  | instruction34 =>
      show broadcastFrame ret s = broadcastFrame ret' s
      rw [broadcastFrame, broadcastFrame, if_neg (h34 rfl), if_neg (h34 rfl)]
  | _ => rfl

theorem Frame.isCmd_ret {f : Frame} {s : App} (hh : HandleOk s) (hv : f.voiceAt = none)
    {m m' : Nat} (hm : 0 < m) (hm' : 0 < m') : isCmd m (f.alone s) = isCmd m' (f.alone s) := by
  have hhead : headerAt (f.alone s) := Frame.headerAt_alone hh
  have h0 : (f.alone s).rx.handleDeviation = 0 := rfl
  rw [isCmd, if_pos (by omega), if_pos hhead, isCmd, if_pos (by omega), if_pos hhead]
  cases hcase : f.cmd.hasCase with
  | true =>
      have hc : caseAt (f.alone s) = some f.cmd := by rw [f.caseAt_alone, if_pos hcase]
      rw [dispatch_some hc, dispatch_some hc]
      refine caseOf_ret ?_ ?_ m m'
      · intro h10
        rw [Frame.voiceAt, h10] at hv
        cases hv
      · intro h34 h1
        rw [Frame.voiceAt, h34] at hv
        have hv' : (if f.payload.getD 0 0 = 1 then some 10 else none) = none := hv
        rw [if_pos ((f.byteAt_eight s).symm.trans h1)] at hv'
        cases hv'
  | false =>
      have hc : caseAt (f.alone s) = none := by
        rw [f.caseAt_alone, hcase]
        rfl
      rw [dispatch_none hc, dispatch_none hc]

/-- Pieces without a header have no effect. -/
theorem noHeader_run {ps : List (List UInt8)} (hne : ∀ q ∈ ps, q ≠ [])
    (hno : ∀ q ∈ ps, NoHeader q 0) :
    ∀ {s : App}, HandleOk s → s.rx.currentDataLengthSave = 0 →
      (∃ t, Handled ps s t) ∧ ∀ t, Handled ps s t → SameEffect s t := by
  induction ps with
  | nil =>
      intro s _ _
      exact handled_nil (.refl s)
  | cons q ps ih =>
      intro s hh hsave
      have hq : 1 ≤ q.length := List.length_pos_of_ne_nil (hne q List.mem_cons_self)
      have hstep : ∀ n, q.length ≤ n →
          Handles122 n q s (s.placed (received n q s.rx.pRecv) q.length) := fun n hn =>
        handled_noHeader hh hq hn hsave (hno q List.mem_cons_self)
      have hrun : ∀ b, (∃ t, Handled ps (s.placed b q.length) t) ∧
          ∀ t, Handled ps (s.placed b q.length) t → SameEffect (s.placed b q.length) t := fun b =>
        ih (fun r hr => hne r (List.mem_cons_of_mem q hr))
          (fun r hr => hno r (List.mem_cons_of_mem q hr)) hh hsave
      refine handled_cons fun n hn => ⟨_, hstep n hn, (hrun _).1, ?_⟩
      intro t ht
      exact ((hrun _).2 t ht).placed_left (q := s.rx.pRecv) (d := s.rx.handleDeviation)

/-- The bytes `p` come first in the frame. -/
structure Frame.Begins (f : Frame) (p : List UInt8) : Prop where
  length_le : p.length ≤ f.bytes.length
  bytes : ∀ k, k < p.length → p.getD k 0 = f.bytes.getD k 0

/-- A chunk that begins the frame, as the parser finds it. -/
theorem Frame.isCmd_begins {f : Frame} {s : App} {p : List UInt8} {n : Nat} (hh : HandleOk s)
    (hp : f.Begins p) (hlen : f.bytes.length < 65536) (hin : FrameInside p.length (f.alone s))
    (hn : p.length ≤ n) :
    isCmd p.length (s.placed (received n p s.rx.pRecv) 0) =
      (isCmd p.length (f.alone s)).map (App.move (received n p s.rx.pRecv) 0 0) := by
  have hq : Holds (received n p s.rx.pRecv) 0 p := holds_received hn
  have h8 := Nat.le_trans (eight_le_frameNeeds (f.alone s))
    (Nat.le_trans (Nat.le_add_left _ _) hin.fields)
  have hpl := hp.length_le
  refine Frame.isCmd_placed hh (by omega) hin ?_ (by omega) (fun _ => rfl)
    ⟨fun _ => Or.inl ⟨rfl, rfl⟩, fun _ _ => Or.inl ⟨rfl, rfl⟩⟩
  intro k hk
  rw [hq.bytes k hk, hp.bytes k hk]

/-- A frame without voice is over with its first piece. -/
theorem Frame.first_piece {f : Frame} {s : App} (hh : HandleOk s)
    (hsave : s.rx.currentDataLengthSave = 0) (hv : f.voiceAt = none)
    (hlen : f.bytes.length < 65536) :
    ∃ w, HandleOk w ∧ w.rx.currentDataLengthSave = 0 ∧
      ∀ p n, f.Begins p → p.length ≤ n → FrameInside p.length (f.alone s) →
        (Resets (f.alone s) → NoHeader p 8) → ∃ q d, Handles122 n p s (w.placed q d) := by
  have hf8 := f.length_bytes
  have h8 : ∀ p : List UInt8, FrameInside p.length (f.alone s) → 8 ≤ p.length := by
    intro p hin
    exact Nat.le_trans (eight_le_frameNeeds (f.alone s))
      (Nat.le_trans (Nat.le_add_left _ _) hin.fields)
  cases hcase : f.cmd.hasCase with
  | true =>
      obtain ⟨w, hpass, hsw, hhw, hcur⟩ := Frame.isCmd_alone hh hcase
      refine ⟨w, hhw, hsw, ?_⟩
      intro p n hp hn hin hscan
      have hp8 := h8 p hin
      have hpass' := Frame.isCmd_begins hh hp hlen hin hn
      rw [Frame.isCmd_ret hh hv (by omega) (show 0 < f.bytes.length by omega), hpass,
        Jump.map_again] at hpass'
      rcases hcur with ⟨hr, hd⟩ | ⟨-, hd⟩
      · -- the piece is searched from offset 8 on
        refine ⟨received n p s.rx.pRecv, 0 + p.length,
          (handles122_fresh (by omega) hsave).mpr (.again hpass' ?_)⟩
        have hq : Holds (received n p s.rx.pRecv) 0 p := holds_received hn
        have hvis := hq.visits hhw (Nat.le_of_eq (Nat.zero_add p.length)) hp8 (hscan hr)
        have hmove : w.move (received n p s.rx.pRecv) 0 0 =
            w.placed (received n p s.rx.pRecv) (0 + 8) := by
          show w.placed _ (w.rx.handleDeviation + 0) = _
          rw [hd]
        rw [hmove]
        exact Ends.of_visits hvis (.leave (isCmd_of_ge (Nat.le_of_eq (Nat.zero_add _).symm)))
      · refine ⟨received n p s.rx.pRecv, w.rx.handleDeviation,
          (handles122_fresh (by omega) hsave).mpr (.again hpass' (.leave (isCmd_of_ge ?_)))⟩
        show p.length ≤ w.rx.handleDeviation
        rw [hd]
        exact hp.length_le
  | false =>
      refine ⟨readHeader (f.alone s), hh, rfl, ?_⟩
      intro p n hp hn hin _
      have hp8 := h8 p hin
      have hpass' := Frame.isCmd_begins hh hp hlen hin hn
      rw [f.isCmd_alone_noCase hh hcase _ (by omega), Jump.map_leave] at hpass'
      exact ⟨received n p s.rx.pRecv, 0, (handles122_fresh (by omega) hsave).mpr (.leave hpass')⟩

/-! ## Voice -/

/-- The state a voice frame is stored from: the voice starts at offset `k`. -/
structure VoiceOpen (f : Frame) (k : Nat) (s b : App) : Prop where
  handle : HandleOk b
  buffer : b.rx.pRecv = Mem.ofList f.bytes
  cursor : b.rx.handleDeviation = 0
  command : b.rx.analysisHandle = SocketInstruction.instruction10.code
  save : b.rx.currentDataLengthSave = 0
  length : b.rx.currentDataLength + k = f.bytes.length
  play : b.play = s.play

/-- All of the voice is there. -/
theorem VoiceOpen.whole {f : Frame} {k : Nat} {s b : App} (h : VoiceOpen f k s b) :
    voiceFrame k f.bytes.length b =
      .again ((fillAt (Mem.ofList f.bytes) k (f.bytes.length - k) b).placed
        (Mem.ofList f.bytes) f.bytes.length) := by
  have hlen := h.length
  have hw : VoiceWhole k f.bytes.length b := by
    unfold VoiceWhole
    rw [h.cursor, sub32_of_le (a := f.bytes.length) (b := k) (by omega), sub32_of_le (by omega)]
    omega
  have hn : f.bytes.length - k = b.rx.currentDataLength := by omega
  rw [voiceFrame_whole hw, hn, ← hlen]
  simp only [advance, fillFrom, fillAt, App.placed, h.buffer, h.cursor, Nat.add_zero, Nat.zero_add]

/-- The first `m` bytes are there. -/
theorem VoiceOpen.part {f : Frame} {k m : Nat} {s b : App} (h : VoiceOpen f k s b)
    (hk : k ≤ m) (hm : m < f.bytes.length) :
    voiceFrame k m b =
      .leave (setSave (m - k) ((fillAt (Mem.ofList f.bytes) k (m - k) b).placed
        (Mem.ofList f.bytes) 0)) := by
  have hlen := h.length
  have hw : ¬ VoiceWhole k m b := by
    unfold VoiceWhole
    rw [h.cursor, sub32_of_le (a := m) (b := k) hk, sub32_of_le (by omega)]
    omega
  have hpart : voicePart k m b = m - k := by
    unfold voicePart
    rw [h.cursor, sub32_of_le (a := m) (b := 0) (by omega), sub32_of_le (by omega)]
    omega
  rw [voiceFrame_part hw, hpart]
  simp only [setSave, fillFrom, fillAt, App.placed, h.buffer, h.cursor, Nat.add_zero]

/-- A voice frame opens with the state after its header, a broadcast with the one after
its start. -/
theorem Frame.voiceOpen {f : Frame} {s : App} {k : Nat} (hh : HandleOk s)
    (hv : f.voiceAt = some k) :
    ∃ b, VoiceOpen f k s b ∧
      isCmd f.bytes.length (f.alone s) = voiceFrame k f.bytes.length b ∧
      ∀ m, k ≤ m → m < f.bytes.length →
        isCmd m (f.alone s) = voiceFrame k m b ∨
          isCmd m (f.alone s) = .again (advance 8 (voiceFrame k m b).state) ∧ k = 10 := by
  have hf8 := f.length_bytes
  have hpass : ∀ c, f.cmd = c → c.hasCase = true → ∀ m, 0 < m →
      isCmd m (f.alone s) = caseOf m c (opened c (f.alone s)) := by
    rintro c rfl hcase m hm
    have hc : caseAt (f.alone s) = some f.cmd := by rw [f.caseAt_alone, if_pos hcase]
    rw [isCmd, if_pos (show (f.alone s).rx.handleDeviation < m from hm),
      if_pos (Frame.headerAt_alone hh), dispatch_some hc]
  unfold Frame.voiceAt at hv
  split at hv
  · next h10 =>
      obtain rfl := Option.some.inj hv
      refine ⟨opened .instruction10 (f.alone s), ⟨hh, rfl, rfl, ?_, rfl, ?_, rfl⟩, ?_, ?_⟩
      · show cmdAt (f.alone s) = _
        rw [f.cmdAt_alone, h10]
      · show lenAt (f.alone s) + 8 = _
        rw [f.lenAt_alone, hf8]
      · exact hpass _ h10 rfl _ (by omega)
      · intro m hm _
        exact Or.inl (hpass _ h10 rfl m (by omega))
  · next h34 =>
      split at hv
      · next h1 =>
          obtain rfl := Option.some.inj hv
          have hlen := f.broadcast h34
          have hrx : (broadcastStart (asVoice (opened .instruction34 (f.alone s)))).rx =
              (asVoice (opened .instruction34 (f.alone s))).rx := broadcastStart_rx _
          have hside := broadcastStart_recvSide (asVoice (opened .instruction34 (f.alone s)))
          have ho : VoiceOpen f 10 s
              (setLength 80 (broadcastStart (asVoice (opened .instruction34 (f.alone s))))) := by
            refine ⟨.of_head hside.head hh, ?_, ?_, ?_, ?_, ?_, broadcastStart_play _⟩
            · show (broadcastStart _).rx.pRecv = _
              rw [hrx]
              rfl
            · show (broadcastStart _).rx.handleDeviation = _
              rw [hrx]
              rfl
            · show (broadcastStart _).rx.analysisHandle = _
              rw [hrx]
              rfl
            · show (broadcastStart _).rx.currentDataLengthSave = _
              rw [hrx]
              rfl
            · show 80 + 10 = _
              omega
          have hcase : ∀ m, 0 < m → isCmd m (f.alone s) =
              broadcastVoice m (broadcastStart (asVoice (opened .instruction34 (f.alone s)))) := by
            intro m hm
            rw [hpass _ h34 rfl m hm]
            exact if_pos h1
          refine ⟨_, ho, ?_, ?_⟩
          · rw [hcase _ (by omega), broadcastVoice, ho.whole]
          · intro m hm hlt
            refine Or.inr ⟨?_, rfl⟩
            rw [hcase m (by omega), broadcastVoice, ho.part hm hlt]
            rfl
      · cases hv
  · cases hv

/-- The frame in progress ends with the chunk. -/
theorem handles122_last {n e : Nat} {m : Mem} {chunk : List UInt8} {y : App}
    (hc : 1 ≤ chunk.length) (hok : ResumeOk y.rx) (hs : y.rx.currentDataLengthSave ≠ 0)
    (hring : y.play.playDataNum < playDataMax) (hR : resumeRest y = chunk.length)
    (hm : ∀ k, k < chunk.length → m (e + k) = chunk.getD k 0) (hn : chunk.length ≤ n) :
    Handles122 n chunk y ((setSave 0 (fillAt m e (resumeRest y) y)).placed
      (received n chunk y.rx.pRecv) (0 + resumeRest y)) := by
  have hfill : fillAt (received n chunk y.rx.pRecv) 0 (resumeRest y) y =
      fillAt m e (resumeRest y) y := by
    refine fillAt_congr hring fun k hk => ?_
    rw [(holds_received hn).bytes k (by omega), hm k (by omega)]
  refine (handles122_resume hc hs hok).mpr ?_
  rw [resumeAt, if_pos (Nat.le_of_eq hR), hfill, hR]
  exact .leave (isCmd_of_ge (Nat.le_of_eq (Nat.zero_add _).symm))

/-- What comes in two parts is stored as it is in one. -/
theorem fillAt_takeAt {m : Mem} {e a b : Nat} {y : App} (hring : y.play.playDataNum < playDataMax)
    (ha : 2 ≤ a) (hb : 2 ≤ b) (hfit : a + b ≤ playDataMax) :
    setSave 0 (fillAt m (e + a) b (takeAt m e a y)) = setSave 0 (fillAt m e (a + b) y) := by
  have hadd : fillAudio (m.ptr (e + a)) b (fillAudio (m.ptr e) a y.play) =
      fillAudio (m.ptr e) (a + b) y.play := by
    rw [← Mem.ptr_ptr, fillAudio_add hring ha hb hfit]
  simp only [takeAt, setSave, fillAt, hadd]

theorem two_le_flatten {ps : List (List UInt8)} (h2 : ∀ q ∈ ps, 2 ≤ q.length) (hps : ps ≠ []) :
    2 ≤ ps.flatten.length := by
  obtain ⟨r, rs, rfl⟩ := List.exists_cons_of_ne_nil hps
  have hr := h2 r List.mem_cons_self
  rw [List.flatten_cons, List.length_append]
  omega

/-- The pieces of a voice frame in progress, together: `m` is the buffer they are cut
from. -/
theorem pieces_run {m : Mem} {ps : List (List UInt8)} (h2 : ∀ q ∈ ps, 2 ≤ q.length) :
    ∀ {y : App} {e : Nat}, HandleOk y → ResumeOk y.rx → y.rx.currentDataLengthSave ≠ 0 →
      y.play.playDataNum < playDataMax → resumeRest y ≤ playDataMax →
      ps.flatten.length = resumeRest y →
      (∀ k, k < ps.flatten.length → m (e + k) = ps.flatten.getD k 0) →
      (∃ t, Handled ps y t) ∧
        ∀ t, Handled ps y t → SameEffect (setSave 0 (fillAt m e (resumeRest y) y)) t := by
  induction ps with
  | nil =>
      intro y e _ hok hsave _ _ hlen _
      have hlt := (hok hsave).2.1
      have h0 : 0 = y.rx.currentDataLength - y.rx.currentDataLengthSave := hlen
      omega
  | cons q ps ih =>
      intro y e hh hok hsave hring hfit hlen hbytes
      obtain ⟨hah, -, hle⟩ := hok hsave
      have hq2 := h2 q List.mem_cons_self
      rw [List.flatten_cons, List.length_append] at hlen hbytes
      have hqm : ∀ k, k < q.length → m (e + k) = q.getD k 0 := by
        intro k hk
        rw [hbytes k (by omega), List.getD_append _ _ _ _ hk]
      by_cases hps : ps = []
      · -- the last piece
        subst hps
        have hstep := fun n hn => handles122_last (n := n) (by omega) hok hsave hring hlen.symm
          hqm hn
        exact handled_cons fun n hn => ⟨_, hstep n hn,
          handled_nil (SameEffect.refl _).placed_right⟩
      · have h2' : ∀ r ∈ ps, 2 ≤ r.length := fun r hr => h2 r (List.mem_cons_of_mem q hr)
        have hpos := two_le_flatten h2' hps
        have hlt : q.length < resumeRest y := by omega
        have hrest : resumeRest (takeAt m e q.length y) = ps.flatten.length := by
          rw [resumeRest_takeAt]
          omega
        have hpsm : ∀ k, k < ps.flatten.length → m (e + q.length + k) = ps.flatten.getD k 0 := by
          intro k hk
          rw [Nat.add_assoc, hbytes (q.length + k) (by omega),
            List.getD_append_right _ _ _ _ (Nat.le_add_right _ _), Nat.add_sub_cancel_left]
        have hstep := fun n hn => handles122_take (n := n) (by omega) hok hsave hring hlt hqm hn
        have hrun := fun b => ih h2' (y := (takeAt m e q.length y).placed b 0)
          (e := e + q.length) hh (resumeOk_takeAt m e hah hle hlt)
          (save_takeAt m e y (by omega))
          (fillAudio_lt hring (by omega)) (Nat.le_trans (Nat.le_of_eq hrest) (by omega))
          hrest.symm hpsm
        refine handled_cons fun n hn => ⟨_, hstep n hn, (hrun _).1, ?_⟩
        intro t ht
        have hsame := (hrun _).2 t ht
        have hwhole := fillAt_takeAt (m := m) (e := e) hring hq2 hpos (by omega)
        rw [show resumeRest ((takeAt m e q.length y).placed _ 0) = ps.flatten.length from hrest]
          at hsame
        rw [← hlen, ← hwhole]
        exact hsame.placed_left (q := y.rx.pRecv) (d := y.rx.handleDeviation)

/-! ## The law -/

theorem Frame.begins_self (f : Frame) : f.Begins f.bytes := ⟨Nat.le_refl _, fun _ _ => rfl⟩

theorem Frame.begins_of_append {f : Frame} {p r : List UInt8} (h : p ++ r = f.bytes) :
    f.Begins p := by
  refine ⟨?_, ?_⟩
  · rw [← h, List.length_append]
    exact Nat.le_add_right _ _
  · intro k hk
    rw [← h, List.getD_append _ _ _ _ hk]

/-- A frame without voice, in pieces. -/
theorem fragmented_noVoice {f : Frame} {p : List UInt8} {ps : List (List UInt8)} {s : App}
    (hh : HandleOk s) (hsave : s.rx.currentDataLengthSave = 0) (hcut : p ++ ps.flatten = f.bytes)
    (hne : ∀ q ∈ ps, q ≠ []) (hg : Fragmentable f p ps s) (hv : f.voiceAt = none) :
    SameHandling [f.bytes] (p :: ps) s := by
  have hfits : f.bytes.length < 10000 := hg.fits
  have hbegins := Frame.begins_of_append hcut
  obtain ⟨hno, hscan⟩ := hg.other hv
  obtain ⟨w, hhw, hsw, hw⟩ := Frame.first_piece hh hsave hv (by omega)
  have hin : FrameInside f.bytes.length (f.alone s) :=
    Frame.inside_whole hg.inside hbegins.length_le fun k hk => by
      rw [hv] at hk
      exact nomatch hk
  have hone : ∀ n, f.bytes.length ≤ n → ∃ q d, Handles122 n f.bytes s (w.placed q d) :=
    fun n hn => hw _ n f.begins_self hn hin fun hr => (hscan hr).2
  have hfirst : ∀ n, p.length ≤ n → ∃ q d, Handles122 n p s (w.placed q d) :=
    fun n hn => hw _ n hbegins hn hg.inside fun hr => (hscan hr).1
  have hrun : ∀ q d, (∃ t, Handled ps (w.placed q d) t) ∧
      ∀ t, Handled ps (w.placed q d) t → SameEffect (w.placed q d) t :=
    fun q d => noHeader_run hne hno hhw hsw
  refine sameHandling_of_effect (w := w) ?_ ?_
  · refine handled_cons fun n hn => ?_
    obtain ⟨q, d, h⟩ := hone n hn
    exact ⟨_, h, handled_nil (.placed w)⟩
  · refine handled_cons fun n hn => ?_
    obtain ⟨q, d, h⟩ := hfirst n hn
    refine ⟨_, h, (hrun q d).1, ?_⟩
    intro t ht
    exact ((hrun q d).2 t ht).placed_left (q := w.rx.pRecv) (d := w.rx.handleDeviation)

/-- The first piece of a voice frame leaves what is there of the voice, and the rest is
awaited. -/
theorem VoiceOpen.first {f : Frame} {k : Nat} {s b : App} {p : List UInt8} {n : Nat}
    (ho : VoiceOpen f k s b) (hh : HandleOk s) (hsave : s.rx.currentDataLengthSave = 0)
    (hbegins : f.Begins p) (hlen : f.bytes.length < 65536)
    (hin : FrameInside p.length (f.alone s)) (hk : k + 2 ≤ p.length)
    (hrest : p.length + 2 ≤ f.bytes.length)
    (hpass : isCmd p.length (f.alone s) = voiceFrame k p.length b ∨
      isCmd p.length (f.alone s) = .again (advance 8 (voiceFrame k p.length b).state) ∧ k = 10)
    (hn : p.length ≤ n) :
    ∃ q d, Handles122 n p s
      ((takeAt (Mem.ofList f.bytes) k (p.length - k) b).placed q d) := by
  have hp := Frame.isCmd_begins hh hbegins hlen hin hn
  have hpart := ho.part (m := p.length) (by omega) (by omega)
  have htake : takeAt (Mem.ofList f.bytes) k (p.length - k) b =
      setSave (p.length - k) (fillAt (Mem.ofList f.bytes) k (p.length - k) b) := by
    rw [takeAt, ho.save, Nat.zero_add]
  rw [htake]
  rcases hpass with hpass | ⟨hpass, rfl⟩
  · rw [hpass, hpart, Jump.map_leave] at hp
    exact ⟨received n p s.rx.pRecv, 0, (handles122_fresh (by omega) hsave).mpr (.leave hp)⟩
  · rw [hpass, hpart, Jump.map_again] at hp
    refine ⟨received n p s.rx.pRecv, 0 + (b.rx.currentDataLength + 8) + 0,
      (handles122_fresh (by omega) hsave).mpr (.again hp (.leave (isCmd_of_ge ?_)))⟩
    -- the cursor goes on by 88, at most two bytes short of the frame
    have hlength := ho.length
    show p.length ≤ 0 + (b.rx.currentDataLength + 8) + 0
    omega

/-- A voice frame, in one piece. -/
theorem VoiceOpen.handles {f : Frame} {k : Nat} {s b : App} {n : Nat} (ho : VoiceOpen f k s b)
    (hh : HandleOk s) (hsave : s.rx.currentDataLengthSave = 0) (hlen : f.bytes.length < 65536)
    (hin : FrameInside f.bytes.length (f.alone s))
    (hpass : isCmd f.bytes.length (f.alone s) = voiceFrame k f.bytes.length b)
    (hn : f.bytes.length ≤ n) :
    ∃ q d, Handles122 n f.bytes s
      ((fillAt (Mem.ofList f.bytes) k (f.bytes.length - k) b).placed q d) := by
  have hf8 := f.length_bytes
  have hp := Frame.isCmd_begins hh f.begins_self hlen hin hn
  rw [hpass, ho.whole, Jump.map_again] at hp
  refine ⟨received n f.bytes s.rx.pRecv, f.bytes.length + 0,
    (handles122_fresh (by omega) hsave).mpr (.again hp (.leave (isCmd_of_ge ?_)))⟩
  exact Nat.le_refl f.bytes.length

/-- The later pieces of a voice frame leave what the whole of it does. -/
theorem VoiceOpen.rest_run {f : Frame} {k : Nat} {s b : App} {p : List UInt8}
    {ps : List (List UInt8)} (ho : VoiceOpen f k s b) (hcut : p ++ ps.flatten = f.bytes)
    (hfits : f.bytes.length < precvMax) (hring : s.play.playDataNum < playDataMax)
    (hk : k + 2 ≤ p.length) (h2 : ∀ q ∈ ps, 2 ≤ q.length) (hps : ps ≠ []) (q : Mem) (d : Nat) :
    (∃ t, Handled ps ((takeAt (Mem.ofList f.bytes) k (p.length - k) b).placed q d) t) ∧
      ∀ t, Handled ps ((takeAt (Mem.ofList f.bytes) k (p.length - k) b).placed q d) t →
        SameEffect (fillAt (Mem.ofList f.bytes) k (f.bytes.length - k) b) t := by
  have hlen : p.length + ps.flatten.length = f.bytes.length := by
    rw [← hcut, List.length_append]
  have hpos := two_le_flatten h2 hps
  have hlength := ho.length
  have hfits' : f.bytes.length < 10000 := hfits
  have hmax : playDataMax = 40000 := rfl
  have hplay : b.play.playDataNum < playDataMax := by
    rw [ho.play]
    exact hring
  have hR : resumeRest b = f.bytes.length - k := by
    rw [resumeRest, ho.save]
    omega
  have hrest : resumeRest (takeAt (Mem.ofList f.bytes) k (p.length - k) b) =
      ps.flatten.length := by
    rw [resumeRest_takeAt]
    omega
  have hbytes : ∀ j, j < ps.flatten.length →
      Mem.ofList f.bytes (p.length + j) = ps.flatten.getD j 0 := by
    intro j _
    show f.bytes.getD (p.length + j) 0 = _
    rw [← hcut, List.getD_append_right _ _ _ _ (Nat.le_add_right _ _), Nat.add_sub_cancel_left]
  have hok : ResumeOk (takeAt (Mem.ofList f.bytes) k (p.length - k) b).rx :=
    resumeOk_takeAt _ _ ho.command (by omega) (by omega)
  have hsave : (takeAt (Mem.ofList f.bytes) k (p.length - k) b).rx.currentDataLengthSave ≠ 0 :=
    save_takeAt _ _ _ (by omega)
  obtain ⟨hends, hrun⟩ := pieces_run h2
    (y := (takeAt (Mem.ofList f.bytes) k (p.length - k) b).placed q d) (e := p.length) ho.handle
    hok hsave (fillAudio_lt hplay (by omega)) (Nat.le_trans (Nat.le_of_eq hrest) (by omega)) hrest.symm
    hbytes
  refine ⟨hends, ?_⟩
  intro t ht
  have hsame := hrun t ht
  rw [show resumeRest ((takeAt (Mem.ofList f.bytes) k (p.length - k) b).placed q d) =
    ps.flatten.length from hrest] at hsame
  have hwhole := fillAt_takeAt (m := Mem.ofList f.bytes) (e := k) (a := p.length - k) hplay
    (by omega) hpos (by omega)
  have hnone : setSave 0 (fillAt (Mem.ofList f.bytes) k (f.bytes.length - k) b) =
      fillAt (Mem.ofList f.bytes) k (f.bytes.length - k) b := by
    rw [← ho.save]
    rfl
  rw [show k + (p.length - k) = p.length by omega,
    show p.length - k + ps.flatten.length = f.bytes.length - k by omega, hnone] at hwhole
  rw [← hwhole]
  exact hsame.placed_left (q := b.rx.pRecv) (d := b.rx.handleDeviation)

/-- A frame with voice, in pieces. -/
theorem fragmented_voice {f : Frame} {p : List UInt8} {ps : List (List UInt8)} {s : App} {k : Nat}
    (hh : HandleOk s) (hsave : s.rx.currentDataLengthSave = 0) (hcut : p ++ ps.flatten = f.bytes)
    (hg : Fragmentable f p ps s) (hv : f.voiceAt = some k) :
    SameHandling [f.bytes] (p :: ps) s := by
  have hfits : f.bytes.length < 10000 := hg.fits
  have hbegins := Frame.begins_of_append hcut
  obtain ⟨b, ho, hwhole, hpart⟩ := Frame.voiceOpen hh hv
  have hone : FrameInside f.bytes.length (f.alone s) →
      (∃ t, Handled [f.bytes] s t) ∧ ∀ t, Handled [f.bytes] s t →
        SameEffect t (fillAt (Mem.ofList f.bytes) k (f.bytes.length - k) b) ∧
          SameEffect (fillAt (Mem.ofList f.bytes) k (f.bytes.length - k) b) t := by
    intro hin
    refine handled_cons fun n hn => ?_
    obtain ⟨q, d, h⟩ := ho.handles hh hsave (by omega) hin hwhole hn
    exact ⟨_, h, handled_nil ⟨.placed _, (SameEffect.refl _).placed_right⟩⟩
  by_cases hps : ps = []
  · -- there is one piece
    subst hps
    have hp : p = f.bytes := by rw [← hcut, List.flatten_nil, List.append_nil]
    subst hp
    obtain ⟨hends, hsame⟩ := hone hg.inside
    exact sameHandling_of_effect ⟨hends, fun t ht => (hsame t ht).1⟩
      ⟨hends, fun t ht => (hsame t ht).2⟩
  · obtain ⟨hring, hk, h2⟩ := hg.voice k hv hps
    have hlen : p.length + ps.flatten.length = f.bytes.length := by
      rw [← hcut, List.length_append]
    have hpos := two_le_flatten h2 hps
    obtain ⟨hends, hsame⟩ := hone (Frame.inside_whole hg.inside hbegins.length_le fun _ _ => hring)
    refine sameHandling_of_effect ⟨hends, fun t ht => (hsame t ht).1⟩ ?_
    refine handled_cons fun n hn => ?_
    obtain ⟨q, d, h⟩ := ho.first hh hsave hbegins (by omega) hg.inside hk (by omega)
      (hpart p.length (by omega) (by omega)) hn
    exact ⟨_, h, ho.rest_run hcut hg.fits hring hk h2 hps q d⟩

/-- **A frame in pieces** does what it does in one, when it is fragmentable. -/
theorem fragmented_sameHandling {n : Nat} {f : Frame} {p : List UInt8} {ps : List (List UInt8)}
    {s : App} (hr : Receives n s) (hsave : s.rx.currentDataLengthSave = 0)
    (hcut : p ++ ps.flatten = f.bytes) (hne : ∀ q ∈ ps, q ≠ []) (hg : Fragmentable f p ps s) :
    SameHandling [f.bytes] (p :: ps) s := by
  cases hv : f.voiceAt with
  | none => exact fragmented_noVoice hr.handleOk hsave hcut hne hg hv
  | some k => exact fragmented_voice hr.handleOk hsave hcut hg hv

/-- Four bytes of voice. -/
def shortVoice : Frame where
  cmd := .instruction10
  payload := [0x11, 0x22, 0x33, 0x44]
  length_lt := by decide
  broadcast h := nomatch h

/-- Cut in the middle of its voice. -/
theorem shortVoice_sameHandling :
    ∃ s, Receives 10 s ∧ SameHandling [shortVoice.bytes]
      [[0xAA, 0xFA, 0x00, 0x00, 0x01, 0x0A, 0x00, 0x04, 0x11, 0x22], [0x33, 0x44]] s := by
  have hr := Receives.of_runActs (l := [.socketEvent (.readInd 10), .socket Platform.silent])
    rfl rfl rfl
  refine ⟨_, hr, fragmented_sameHandling hr rfl (by decide) (by decide) ?_⟩
  refine ⟨by decide, ⟨by decide, fun h => absurd h (by decide),
    fun _ => ringOk_of_le (Nat.zero_le _), fun h => absurd h (by decide)⟩, ?_, fun h => nomatch h⟩
  intro k hk _
  obtain rfl : 8 = k := Option.some.inj hk
  exact ⟨by decide, by decide, by decide⟩

/-- Cut behind the header, it is lost: nothing is saved, so no frame is in progress. -/
theorem cutVoice_not_sameHandling :
    ∃ s, Receives 8 s ∧ s.rx.currentDataLengthSave = 0 ∧
      ¬ SameHandling [shortVoice.bytes]
        [[0xAA, 0xFA, 0x00, 0x00, 0x01, 0x0A, 0x00, 0x04], [0x11, 0x22, 0x33, 0x44]] s := by
  have hr := Receives.of_runActs (l := [.socketEvent (.readInd 8), .socket Platform.silent])
    rfl rfl rfl
  refine ⟨_, hr, rfl, ?_⟩
  intro h
  have hplay := (h.same _ _
    (.cons (n := 12) (by decide) (.loop rfl (ends_of_run (n := 2) rfl)) .nil)
    (.cons (n := 8) (by decide) (.loop rfl (ends_of_run (n := 1) rfl))
      (.cons (n := 4) (by decide) (.loop rfl (ends_of_run (n := 5) rfl)) .nil))).rest
  have hheard := congrArg Play.heard (congrArg App.play hplay)
  exact absurd hheard (by decide)

end IntercomSalve
