/-
# `Beyond` — what a receive takes from beyond the received bytes

Before each receive `uDataSize + 1` bytes of the buffer are cleared, and the rest
keeps what earlier receives left.  The parser compares a position with `ret` only
when it comes to the label: the header compare and the cases read ahead of the
cursor without looking.  So a frame that is cut off, at its header or inside its
fields, is completed with whatever the buffer holds.

`onlyReceived_iff` says that this is the only way: when every frame the parser finds
in the chunk *followed by zeros* has its fields among the received bytes, then the old
contents of the buffer have no effect at all, and conversely.
-/
import IntercomSalve.Reads

namespace IntercomSalve

open Goto

/-- The same globals, with another receive buffer. -/
def App.withBuf (q : Mem) (s : App) : App := { s with rx.pRecv := q }

theorem move_self (q : Mem) (d : Nat) (s : App) : s.move q d d = s.withBuf q := by
  have hcur : s.rx.handleDeviation + d - d = s.rx.handleDeviation := by omega
  unfold App.move App.withBuf
  simp only [hcur]

/-! ## The property -/

/-- A frame is in progress, and its next bytes are read from `pRecv[j]` on. -/
def resumeReads (ret : Nat) (s : App) (j : Nat) : Prop :=
  s.rx.currentDataLengthSave ≠ 0 ∧
    SocketInstruction.ofCode s.rx.analysisHandle = some .instruction10 ∧
    j < fillEnd s.play.playDataNum (resumeLines ret s)

/-- The effect of message 122 comes from the received bytes only. -/
structure OnlyReceived (uDataSize : Nat) (chunk : List UInt8) (s : App) : Prop where
  /-- two runs from states that differ in the old contents of `pRecv` end, if they end,
  in states that differ in `pRecv` at most -/
  effect : ∀ q q' t, Handles122 uDataSize chunk (s.withBuf q) t →
    ∃ r, Handles122 uDataSize chunk (s.withBuf q') (t.withBuf r)
  /-- no voice byte is taken from beyond -/
  resume : ∀ j, 1 ≤ chunk.length → resumeReads chunk.length s j → j < chunk.length
  /-- no byte of a frame is taken from beyond -/
  frames : ∀ q u v, message122 uDataSize chunk (s.withBuf q) = .again u →
    Visits (isCmd chunk.length) u v → v.rx.handleDeviation < chunk.length → headerAt v →
    ReadsInside chunk.length v

/-- Every frame that the parser finds in the chunk followed by zeros is inside the
chunk. -/
structure FramesInside (uDataSize : Nat) (chunk : List UInt8) (s : App) : Prop where
  resume : 1 ≤ chunk.length → s.rx.currentDataLengthSave ≠ 0 →
    SocketInstruction.ofCode s.rx.analysisHandle = some .instruction10 →
    RingOk s.play.playDataNum (resumeLines chunk.length s)
  frames : ∀ u v, message122 uDataSize chunk (s.withBuf fun _ => 0) = .again u →
    Visits (isCmd chunk.length) u v → v.rx.handleDeviation < chunk.length → headerAt v →
    FrameInside chunk.length v

/-! ## Two runs in lockstep -/

/-- The state `z` of the run over zeros, and a state that differs from it beyond the
received bytes. -/
structure Twin (ret : Nat) (z t : App) : Prop where
  handle : HandleOk z
  buf : t = z.withBuf t.rx.pRecv
  zeros : ∀ i, ret ≤ i → z.rx.pRecv i = 0
  same : ∀ i, i < ret → t.rx.pRecv i = z.rx.pRecv i
  /-- one byte behind the received ones is cleared -/
  next : t.rx.pRecv ret = 0

theorem Twin.byteAt {ret : Nat} {z t : App} (h : Twin ret z t) {k : Nat}
    (hk : k + z.rx.handleDeviation ≤ ret) : t.rx.byteAt k = z.rx.byteAt k := by
  have hcur : t.rx.handleDeviation = z.rx.handleDeviation := by
    rw [h.buf]
    rfl
  rw [Rx.byteAt, hcur]
  rcases Nat.lt_or_eq_of_le hk with hlt | heq
  · exact h.same _ hlt
  · rw [heq, h.next, Rx.byteAt, heq]
    exact (h.zeros ret (Nat.le_refl _)).symm

/-- The two find the same headers, when those of the run over zeros are inside. -/
theorem Twin.headerAt_iff {ret : Nat} {z t : App} (h : Twin ret z t)
    (hlt : z.rx.handleDeviation < ret)
    (hin : headerAt z → z.rx.handleDeviation + 8 ≤ ret) : headerAt t ↔ headerAt z := by
  have ht : HandleOk t := by
    rw [h.buf]
    exact h.handle
  rw [IntercomSalve.headerAt_iff ht, IntercomSalve.headerAt_iff h.handle]
  constructor
  · rintro ⟨h0, h1, h2, h3⟩
    rw [h.byteAt (by omega)] at h0 h1
    have hfa : z.rx.handleDeviation + 1 < ret := by
      -- the byte at `ret` is 0, and the second header byte is not
      by_contra hge
      have h1z : z.rx.byteAt 1 = 0 := h.zeros _ (by omega)
      exact absurd (h1.symm.trans h1z) (by decide)
    rw [h.byteAt (by omega)] at h2
    refine ⟨h0, h1, h2, ?_⟩
    by_cases h3r : 3 + z.rx.handleDeviation ≤ ret
    · rw [h.byteAt h3r] at h3
      exact h3
    · exact h.zeros _ (by omega)
  · intro hz
    have h8 := hin ((IntercomSalve.headerAt_iff h.handle).mpr hz)
    obtain ⟨h0, h1, h2, h3⟩ := hz
    rw [h.byteAt (by omega), h.byteAt (by omega), h.byteAt (by omega), h.byteAt (by omega)]
    exact ⟨h0, h1, h2, h3⟩

theorem Twin.withBuf {ret : Nat} {z t z' : App} (h : Twin ret z t) (hh : HandleOk z')
    (hq : z'.rx.pRecv = z.rx.pRecv) : Twin ret z' (z'.withBuf t.rx.pRecv) where
  handle := hh
  buf := rfl
  zeros := by rw [hq]; exact h.zeros
  same := by rw [hq]; exact h.same
  next := h.next

theorem Twin.cursor {ret : Nat} {z t : App} (h : Twin ret z t) :
    t.rx.handleDeviation = z.rx.handleDeviation := by
  rw [h.buf]
  rfl

/-- **In lockstep**: one pass. -/
theorem Twin.isCmd {ret : Nat} {z t : App} (hret : ret < 65536) (h : Twin ret z t)
    (hin : z.rx.handleDeviation < ret → headerAt z → FrameInside ret z) :
    Jump.Rel (Twin ret) (Twin ret) (isCmd ret z) (isCmd ret t) := by
  have hside := isCmd_recvSide ret z
  by_cases hlt : z.rx.handleDeviation < ret
  · have hlt' : t.rx.handleDeviation < ret := by rw [h.cursor]; exact hlt
    have hiff := h.headerAt_iff hlt fun hh => by
      have hf := (hin hlt hh).fields
      have h8 := eight_le_frameNeeds z
      omega
    by_cases hh : headerAt z
    · have hf := hin hlt hh
      have hz : IntercomSalve.isCmd ret z = dispatch ret (readHeader z) := by
        rw [IntercomSalve.isCmd, if_pos hlt, if_pos hh]
      have ht : IntercomSalve.isCmd ret t = dispatch ret (readHeader t) := by
        rw [IntercomSalve.isCmd, if_pos hlt', if_pos (hiff.mpr hh)]
      have hmove : z.move t.rx.pRecv z.rx.handleDeviation z.rx.handleDeviation = t := by
        rw [move_self]
        exact h.buf.symm
      have hrel : ∀ k, frameReads ret z k →
          (z.move t.rx.pRecv z.rx.handleDeviation z.rx.handleDeviation).rx.byteAt k =
            z.rx.byteAt k := by
        intro k hk
        have := frameReads_lt hret hlt hf hk
        rw [hmove]
        exact h.byteAt (by omega)
      have hv : SameVoiceAt ret ret z.rx.handleDeviation z.rx.handleDeviation t.rx.pRecv z :=
        ⟨fun _ => Or.inl ⟨rfl, rfl⟩, fun _ _ => Or.inl ⟨rfl, rfl⟩⟩
      have hd := dispatch_move hh rfl hrel (fun i hi => h.same i (frameAbsReads_lt hf hi))
        (fun _ => rfl) hv
      rw [hmove] at hd
      rw [ht, hd, ← hz]
      cases hj : IntercomSalve.isCmd ret z with
      | again u =>
          rw [hj] at hside
          refine .again ?_
          rw [move_self]
          exact h.withBuf (.of_head hside.head h.handle) hside.pRecv
      | leave u =>
          rw [hj] at hside
          refine .leave ?_
          rw [move_self]
          exact h.withBuf (.of_head hside.head h.handle) hside.pRecv
    · rw [IntercomSalve.isCmd, if_pos hlt, if_neg hh, IntercomSalve.isCmd, if_pos hlt',
        if_neg fun ht => hh (hiff.mp ht), h.cursor]
      refine .again ⟨h.handle, ?_, h.zeros, h.same, h.next⟩
      conv_lhs => rw [h.buf]
      rfl
  · have hlt' : ¬ t.rx.handleDeviation < ret := by rw [h.cursor]; exact hlt
    rw [IntercomSalve.isCmd, if_neg hlt, IntercomSalve.isCmd, if_neg hlt']
    exact .leave h

theorem hostEnd_congr {s t : App} (h23 : t.rx.byteAt 23 = s.rx.byteAt 23)
    (h39 : s.rx.byteAt 23 = 44 → t.rx.byteAt 39 = s.rx.byteAt 39) : hostEnd t = hostEnd s := by
  unfold hostEnd
  rw [h23]
  by_cases hc : s.rx.byteAt 23 = 44
  · rw [if_pos hc, if_pos hc, h39 hc]
  · rw [if_neg hc, if_neg hc]

/-- A frame inside the received bytes is inside in the other run, too. -/
theorem Twin.frameInside {ret : Nat} {z t : App} (h : Twin ret z t) (hf : FrameInside ret z) :
    FrameInside ret t := by
  have hfields := hf.fields
  have h8 := eight_le_frameNeeds z
  have hb : ∀ k, k + z.rx.handleDeviation ≤ ret → t.rx.byteAt k = z.rx.byteAt k :=
    fun k hk => h.byteAt hk
  have hcmd : cmdAt t = cmdAt z := by
    unfold cmdAt
    rw [hb 5 (by omega)]
  have hlen : lenAt t = lenAt z := by
    unfold lenAt
    rw [hb 6 (by omega), hb 7 (by omega)]
  have hb8 : t.rx.byteAt 8 = z.rx.byteAt 8 := hb 8 (by omega)
  have hcase : caseAt t = caseAt z := by
    unfold caseAt
    rw [hcmd]
  have hcall : t.call = z.call := by rw [h.buf]; rfl
  have hplay : t.play = z.play := by rw [h.buf]; rfl
  have hneeds : frameNeeds t = frameNeeds z := by
    unfold frameNeeds at hfields ⊢
    rw [hcase]
    cases hc : caseAt z with
    | none => rfl
    | some c =>
        rw [hc] at hfields
        cases c with
        | instruction21 =>
            have hends := hostEnd_bounds z
            dsimp only at hfields ⊢
            refine hostEnd_congr (hb 23 (by omega)) fun h23 => hb 39 ?_
            have h40 : 40 ≤ hostEnd z := by
              unfold hostEnd
              rw [if_pos h23]
              split <;> omega
            omega
        | instruction5 => rw [hcall]
        | instruction32 => rw [hlen]
        | instruction34 => rw [hb8]
        | _ => rfl
  refine ⟨by rw [h.cursor, hneeds]; exact hfields, ?_, ?_, ?_⟩
  · intro h5 hr
    refine hf.answer (hcmd.symm.trans h5) ⟨by rw [← hcall]; exact hr.1, ?_, ?_⟩
    · rw [← hb 9 ?_]
      · exact hr.2.1
      · have hc := caseAt_eq_some.mpr ⟨hcmd.symm.trans h5, rfl⟩
        unfold frameNeeds at hfields
        rw [hc, ← hcall] at hfields
        dsimp only at hfields
        rw [if_pos hr.1] at hfields
        omega
    · rw [← hcall]
      exact hr.2.2
  · intro h10
    have hring := hf.voice (hcmd.symm.trans h10)
    rw [hplay, voiceLines_congr (t := readHeader t) (s := readHeader z) h.cursor hlen]
    exact hring
  · intro h34 h81
    have hring := hf.broadcast (hcmd.symm.trans h34) (hb8.symm.trans h81)
    rw [hplay, voiceLines_congr (t := setLength 80 t) (s := setLength 80 z) h.cursor rfl]
    exact hring

/-! ## Up to the label -/

/-- The bytes of the frame in progress are taken from the chunk. -/
theorem resumeVoice_withBuf {n : Nat} {chunk : List UInt8} {s : App} {q q' : Mem}
    (hring : SocketInstruction.ofCode s.rx.analysisHandle = some .instruction10 →
      RingOk s.play.playDataNum (resumeLines chunk.length s)) :
    resumeVoice chunk.length (rewind (socketRecv n chunk (s.withBuf q'))) =
      (resumeVoice chunk.length (rewind (socketRecv n chunk (s.withBuf q)))).map
        (App.withBuf (received n chunk q')) := by
  unfold resumeVoice
  by_cases hvoice : SocketInstruction.ofCode s.rx.analysisHandle = some .instruction10
  · have hok := hring hvoice
    have hfill : ∀ lines, lines = resumeLines chunk.length s → lines ≤ chunk.length →
        fillAudio ((received n chunk q').ptr 0) lines s.play =
          fillAudio ((received n chunk q).ptr 0) lines s.play := by
      rintro lines rfl hle
      refine fillAudio_congr fun j hj => ?_
      have : 0 + j < chunk.length := by
        unfold RingOk at hok
        omega
      rw [Mem.ptr_apply, Mem.ptr_apply, received_of_lt this, received_of_lt this]
    by_cases hle : sub32 s.rx.currentDataLength s.rx.currentDataLengthSave ≤ chunk.length
    · have := hfill _ (if_pos hle).symm hle
      simp [rewind, socketRecv, App.withBuf, hvoice, hle, resumeWhole, fillFrom, this]
    · have := hfill _ (if_neg hle).symm (Nat.le_refl _)
      simp [rewind, socketRecv, App.withBuf, hvoice, hle, resumePart, fillFrom, this]
  · simp [rewind, socketRecv, App.withBuf, hvoice]

/-- The part before the label does the same whatever the buffer held. -/
theorem message122_withBuf {n : Nat} {chunk : List UInt8} {s : App}
    (hring : 1 ≤ chunk.length → s.rx.currentDataLengthSave ≠ 0 →
      SocketInstruction.ofCode s.rx.analysisHandle = some .instruction10 →
      RingOk s.play.playDataNum (resumeLines chunk.length s)) (q q' : Mem) :
    message122 n chunk (s.withBuf q') =
      (message122 n chunk (s.withBuf q)).map (App.withBuf (received n chunk q')) := by
  unfold message122
  by_cases hc : chunk.length < 1
  · rw [if_pos hc, if_pos hc]
    rfl
  · rw [if_neg hc, if_neg hc,
      show (s.withBuf q').rx.currentDataLengthSave = s.rx.currentDataLengthSave from rfl,
      show (s.withBuf q).rx.currentDataLengthSave = s.rx.currentDataLengthSave from rfl]
    by_cases hsave : s.rx.currentDataLengthSave ≠ 0
    · rw [if_pos hsave, if_pos hsave]
      exact resumeVoice_withBuf fun hvoice => hring (by omega) hsave hvoice
    · rw [if_neg hsave, if_neg hsave]
      rfl

section Loop

variable {n : Nat} {chunk : List UInt8} {s : App}

/-- At the label, the run over zeros and the run over `q` are twins. -/
theorem twin_of_message122 (hh : HandleOk s) (hle : chunk.length ≤ n)
    (hf : FramesInside n chunk s) {u : App} (q : Mem)
    (hu : message122 n chunk (s.withBuf q) = .again u) :
    ∃ z, message122 n chunk (s.withBuf fun _ => 0) = .again z ∧ Twin chunk.length z u := by
  have heq := message122_withBuf (n := n) hf.resume (fun _ => 0) q
  rw [hu] at heq
  cases hz : message122 n chunk (s.withBuf fun _ => 0) with
  | leave z =>
      rw [hz] at heq
      exact nomatch heq
  | again z =>
      rw [hz] at heq
      obtain rfl := Jump.again.inj heq
      have hside := message122_recvSide n chunk (s.withBuf fun _ => 0)
      rw [hz] at hside
      have hbuf : z.rx.pRecv = received n chunk fun _ => 0 := hside.pRecv
      refine ⟨z, rfl, .of_head hside.head hh, rfl, ?_, ?_, ?_⟩
      · intro i hi
        rw [hbuf, received_of_ge hi]
        split <;> rfl
      · intro i hi
        rw [hbuf, received_of_lt hi]
        exact received_of_lt hi
      · show received n chunk q chunk.length = 0
        rw [received_of_ge (Nat.le_refl _), if_pos hle]

/-- A visited state of the run over zeros, and its twin. -/
def Paired (ret : Nat) (z₀ z t : App) : Prop := Visits (isCmd ret) z₀ z ∧ Twin ret z t

theorem Paired.isCmd {z₀ : App} (hret : chunk.length < 65536) (hf : FramesInside n chunk s)
    (hz : message122 n chunk (s.withBuf fun _ => 0) = .again z₀) :
    ∀ z t, Paired chunk.length z₀ z t →
      Jump.Rel (Paired chunk.length z₀) (Twin chunk.length) (isCmd chunk.length z)
        (isCmd chunk.length t) := by
  rintro z t ⟨hv, htwin⟩
  exact (htwin.isCmd hret fun hlt hh => hf.frames z₀ z hz hv hlt hh).imp
    fun _ _ hb h => ⟨hv.tail hb, h⟩

theorem FramesInside.effect (hh : HandleOk s) (hle : chunk.length ≤ n)
    (hret : chunk.length < 65536) (hf : FramesInside n chunk s) (q q' : Mem) {t : App}
    (ht : Handles122 n chunk (s.withBuf q) t) :
    ∃ r, Handles122 n chunk (s.withBuf q') (t.withBuf r) := by
  have heq := message122_withBuf (n := n) hf.resume q q'
  rcases ht with hl | ⟨hu, hends⟩
  · rw [hl] at heq
    exact ⟨_, .noLoop heq⟩
  · rw [hu] at heq
    obtain ⟨z, hz, htwin⟩ := twin_of_message122 hh hle hf q hu
    obtain ⟨z', hz', htwin'⟩ := twin_of_message122 hh hle hf q' heq
    obtain rfl := Jump.again.inj (hz.symm.trans hz')
    -- from the run over `q` to the one over zeros, and on to the one over `q'`
    obtain ⟨w, hw, hwt⟩ := hends.simulates
      (fun t z h => (Paired.isCmd hret hf hz z t h).flip) ⟨.refl, htwin⟩
    obtain ⟨t', ht', hwt'⟩ := hw.simulates (Paired.isCmd hret hf hz) ⟨.refl, htwin'⟩
    refine ⟨t'.rx.pRecv, .loop heq ?_⟩
    have : t.withBuf t'.rx.pRecv = t' := by
      conv_rhs => rw [hwt'.buf]
      rw [hwt.buf]
      rfl
    rw [this]
    exact ht'

theorem FramesInside.readsInside (hh : HandleOk s) (hle : chunk.length ≤ n)
    (hret : chunk.length < 65536) (hf : FramesInside n chunk s) {q : Mem} {u v : App}
    (hu : message122 n chunk (s.withBuf q) = .again u) (hv : Visits (isCmd chunk.length) u v)
    (hlt : v.rx.handleDeviation < chunk.length) (hhv : headerAt v) :
    ReadsInside chunk.length v := by
  obtain ⟨z₀, hz, htwin⟩ := twin_of_message122 hh hle hf q hu
  obtain ⟨z, -, hvz, hzv⟩ := Visits.simulates
    (fun t z h => (Paired.isCmd hret hf hz z t h).flip) ⟨.refl, htwin⟩ hv
  have hltz : z.rx.handleDeviation < chunk.length := by rw [← hzv.cursor]; exact hlt
  have hiff := hzv.headerAt_iff hltz fun hhz => by
    have hfz := (hf.frames z₀ z hz hvz hltz hhz).fields
    have h8 := eight_le_frameNeeds z
    omega
  exact (readsInside_iff hret hlt).mpr
    (hzv.frameInside (hf.frames z₀ z hz hvz hltz (hiff.mp hhv)))

end Loop

/-! ## The theorem -/

/-- **What a receive depends on.**  The old contents of the buffer have no effect, and
nothing is read from them, exactly when each frame that is found in the chunk followed
by zeros has its fields inside the chunk. -/
theorem onlyReceived_iff {n : Nat} {chunk : List UInt8} {s : App} (hr : Receives n s)
    (hle : chunk.length ≤ n) : OnlyReceived n chunk s ↔ FramesInside n chunk s := by
  have hn := hr.lt
  have hret : chunk.length < 65536 := by omega
  constructor
  · intro h
    refine ⟨?_, ?_⟩
    · intro hc hsave hvoice
      refine (fillEnd_cases _ _).resolve_right fun hbig => ?_
      have := h.resume chunk.length hc ⟨hsave, hvoice, by omega⟩
      omega
    · intro u v hu hv hlt hh
      exact (readsInside_iff hret hlt).mp (h.frames _ u v hu hv hlt hh)
  · intro hf
    refine ⟨fun q q' t ht => hf.effect hr.handleOk hle hret q q' ht, ?_, ?_⟩
    · rintro j hc ⟨hsave, hvoice, hj⟩
      have hring := hf.resume hc hsave hvoice
      have hlines : resumeLines chunk.length s ≤ chunk.length := by
        unfold resumeLines
        split <;> omega
      unfold RingOk at hring
      omega
    · intro q u v hu hv hlt hh
      exact hf.readsInside hr.handleOk hle hret hu hv hlt hh

/-- A heartbeat answer. -/
def heartbeatAnswer : List UInt8 := [0xAA, 0xFA, 0x00, 0x00, 0x01, 0x11, 0x00, 0x00]

/-- All of a frame: the bytes that come first after power-on have the property. -/
theorem heartbeatAnswer_onlyReceived :
    ∃ s, Receives 8 s ∧ OnlyReceived 8 heartbeatAnswer s := by
  have hr := Receives.of_runActs (l := [.socketEvent (.readInd 8), .socket Platform.silent])
    rfl rfl rfl
  refine ⟨_, hr, (onlyReceived_iff hr (by decide)).mpr ⟨fun _ hsave => absurd rfl hsave, ?_⟩⟩
  intro u v hu hv hlt hh
  obtain rfl := Jump.again.inj hu
  rcases Visits.of_again (by rfl) hv with rfl | hv
  · exact ⟨by decide, fun h => absurd h (by decide), fun h => absurd h (by decide),
      fun h => absurd h (by decide)⟩
  · -- behind the frame nothing is left
    obtain rfl := Visits.of_leave (by rfl) hv
    exact absurd hlt (by decide)

/-- The first half of a header. -/
def cutHeader : List UInt8 := [0xAA, 0xFA, 0x00, 0x00]

/-- A heartbeat answer has come, and four more bytes are announced. -/
def staleRun : List Act :=
  [.socketEvent (.readInd 8), .socket Platform.silent, .recv heartbeatAnswer, .isCmd, .isCmd,
    .socketEvent (.readInd 4)]

/-- The four bytes are completed with the rest of the frame before them, or with zeros. -/
theorem cutHeader_outputs :
    ∃ s, Receives 4 s ∧ ∃ t t', Handles122 4 cutHeader (s.withBuf s.rx.pRecv) t ∧
      Handles122 4 cutHeader (s.withBuf fun _ => 0) t' ∧ t.out ≠ t'.out := by
  have hr := Receives.of_runActs (l := staleRun) rfl rfl rfl
  refine ⟨_, hr, _, _, .loop rfl (ends_of_run (n := 3) rfl),
    .loop rfl (ends_of_run (n := 3) rfl), ?_⟩
  decide

theorem cutHeader_not_onlyReceived :
    ∃ s, Receives 4 s ∧ cutHeader.length = 4 ∧ ¬ OnlyReceived 4 cutHeader s := by
  obtain ⟨s, hr, t, t', ht, ht', hne⟩ := cutHeader_outputs
  refine ⟨s, hr, rfl, fun h => ?_⟩
  obtain ⟨r, htr⟩ := h.effect _ (fun _ => 0) t ht
  rw [ht'.det htr] at hne
  exact hne rfl

end IntercomSalve
