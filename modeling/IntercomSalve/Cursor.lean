/-
# `Cursor` — where a pass of the receive loop leaves the cursor

A pass that matches no header moves the cursor by one.  A frame moves it by its
span, the declared length and the header (88 or 90 for the voice of a broadcast),
unless its handler resets the parser: an accepted call and an answered one put
`handle_deviation` and `Current_data_length` to 0 *before* the case advances, so
the cursor stands at 8 afterwards, wherever the frame was.

So a pass goes forward unless a resetting frame stands at 8 or beyond, and that
is the only way the loop can fail to end (`loop_ends_iff`).  It does fail:
a heartbeat answer followed by an accepted call is read for ever.
-/
import IntercomSalve.System

namespace IntercomSalve

open Goto

/-! ## The frames that reset the parser -/

/-- The answer at the cursor accepts our call. -/
def dialResets (s : App) : Prop :=
  s.rx.byteAt 9 = CallReturn.return2.code ∨
    s.rx.byteAt 9 = CallReturn.return4.code

/-- The request at the cursor is a call, and it is answered. -/
def calledResets (s : App) : Prop :=
  s.call.isMailListALL = 0 ∧
    s.rx.byteAt 9 = DialReqReqCall.call1.code ∧
    s.call.callUserOperation = 0

/-- The command byte of the frame at the cursor. -/
def cmdAt (s : App) : Nat := (s.rx.byteAt 5).toNat

/-- The length the frame at the cursor declares. -/
def lenAt (s : App) : Nat :=
  (s.rx.byteAt 6).toNat * 256 + (s.rx.byteAt 7).toNat

/-- The handler of the frame at the cursor resets the parser. -/
def Resets (s : App) : Prop :=
  headerAt s ∧
    (cmdAt s = SocketInstruction.instruction4.code ∧ dialResets s ∨
      cmdAt s = SocketInstruction.instruction5.code ∧ calledResets s)

/-- How far the case of the frame at the cursor moves it, if nothing resets the parser. -/
def spanAt (ret : Nat) (s : App) : Nat :=
  if cmdAt s = SocketInstruction.instruction34.code ∧ s.rx.byteAt 8 = 1 then
    if 80 ≤ sub32 (sub32 ret 10) s.rx.handleDeviation then 90 else 88
  else lenAt s + 8

theorem dial_of_resets {s : App} (h : dialResets s) :
    dialReqReqCallReturnHander s = dialAccepted s := by
  unfold dialReqReqCallReturnHander
  rcases h with h | h <;> rw [CallReturn.ofCode_eq_some.mpr h]

theorem dial_rx_of_resets {s : App} (h : dialResets s) :
    (dialReqReqCallReturnHander s).rx = s.rx.clear := by
  rw [dial_of_resets h]
  rfl

theorem dialRefused_rx (s : App) : (dialRefused s).rx = s.rx := by
  unfold dialRefused
  split <;> rfl

theorem dialBusy_rx (s : App) : (dialBusy s).rx = s.rx := by
  unfold dialBusy
  split
  · split <;> rfl
  · rfl

theorem dial_rx_of_not {s : App} (h : ¬ dialResets s) :
    (dialReqReqCallReturnHander s).rx = s.rx := by
  unfold dialReqReqCallReturnHander
  split
  · exact dialBusy_rx s
  · rfl
  · next hcode => exact absurd (Or.inl (CallReturn.ofCode_eq_some.mp hcode)) h
  · next hcode => exact absurd (Or.inr (CallReturn.ofCode_eq_some.mp hcode)) h
  · exact dialRefused_rx s
  · exact dialRefused_rx s
  · rfl

theorem called_rx_of_resets {s : App} (h : calledResets s) :
    (calledReqReqCallReturnHander s).rx = s.rx.clear := by
  obtain ⟨hall, hcode, hop⟩ := h
  unfold calledReqReqCallReturnHander calledAnswer
  rw [if_neg (not_not.mpr hall), DialReqReqCall.ofCode_eq_some.mpr hcode]
  simp only [if_neg (not_not.mpr hop)]
  rfl

theorem calledHangUp_rx (s : App) : (calledHangUp s).rx = s.rx := by
  unfold calledHangUp
  split <;> rfl

theorem called_rx_of_not {s : App} (h : ¬ calledResets s) :
    (calledReqReqCallReturnHander s).rx = s.rx := by
  unfold calledReqReqCallReturnHander
  split
  · rfl
  · next hall =>
      split
      · next hcode =>
          unfold calledAnswer
          split
          · rfl
          · next hop =>
              exact absurd ⟨not_not.mp hall, DialReqReqCall.ofCode_eq_some.mp hcode,
                not_not.mp hop⟩ h
      · exact calledHangUp_rx s
      · exact calledHangUp_rx s
      · rfl
      · rfl

/-! ## One pass -/

theorem cmdAt_of_readHeader {s : App} {c : SocketInstruction}
    (h : SocketInstruction.ofCode (readHeader s).rx.analysisHandle = some c) :
    cmdAt s = c.code :=
  SocketInstruction.ofCode_eq_some.mp h

theorem not_resets_of_cmd {s : App} {c : SocketInstruction} (hc : cmdAt s = c.code)
    (h4 : c ≠ .instruction4) (h5 : c ≠ .instruction5) : ¬ Resets s := by
  rintro ⟨-, ⟨h, -⟩ | ⟨h, -⟩⟩
  · exact h4 (SocketInstruction.code_injective (hc.symm.trans h))
  · exact h5 (SocketInstruction.code_injective (hc.symm.trans h))

theorem spanAt_of_cmd {ret : Nat} {s : App} {c : SocketInstruction} (hc : cmdAt s = c.code)
    (h34 : c ≠ .instruction34) : spanAt ret s = lenAt s + 8 :=
  if_neg fun h => h34 (SocketInstruction.code_injective (hc.symm.trans h.1))

theorem dial_cursor {ret : Nat} {s : App} (hh : headerAt s)
    (hc : cmdAt s = SocketInstruction.instruction4.code) (o : Out) :
    let t := advance 8 (dialReqReqCallReturnHander ((readHeader s).log o))
    (Resets s ∧ t.rx.handleDeviation = 8) ∨
      (¬ Resets s ∧ t.rx.handleDeviation = s.rx.handleDeviation + spanAt ret s) := by
  intro t
  by_cases hr : dialResets s
  · refine Or.inl ⟨⟨hh, Or.inl ⟨hc, hr⟩⟩, ?_⟩
    simp only [t, advance, dial_rx_of_resets (s := (readHeader s).log o) hr]
    rfl
  · refine Or.inr ⟨?_, ?_⟩
    · rintro ⟨-, ⟨-, h⟩ | ⟨h, -⟩⟩
      · exact hr h
      · exact absurd (hc.symm.trans h) (by decide)
    · simp only [t, advance, dial_rx_of_not (s := (readHeader s).log o) hr,
        spanAt_of_cmd hc (by decide)]
      rfl

theorem called_cursor {ret : Nat} {s : App} (hh : headerAt s)
    (hc : cmdAt s = SocketInstruction.instruction5.code) (o : Out) :
    let t := advance 8 (calledReqReqCallReturnHander ((readHeader s).log o))
    (Resets s ∧ t.rx.handleDeviation = 8) ∨
      (¬ Resets s ∧ t.rx.handleDeviation = s.rx.handleDeviation + spanAt ret s) := by
  intro t
  by_cases hr : calledResets s
  · refine Or.inl ⟨⟨hh, Or.inr ⟨hc, hr⟩⟩, ?_⟩
    simp only [t, advance, called_rx_of_resets (s := (readHeader s).log o) hr]
    rfl
  · refine Or.inr ⟨?_, ?_⟩
    · rintro ⟨-, ⟨h, -⟩ | ⟨-, h⟩⟩
      · exact absurd (hc.symm.trans h) (by decide)
      · exact hr h
    · simp only [t, advance, called_rx_of_not (s := (readHeader s).log o) hr,
        spanAt_of_cmd hc (by decide)]
      rfl

theorem loginReturn_rx (s : App) : (loginReturn s).rx = (advance 8 s).rx := rfl

/-- A voice frame jumps back past its data when the data is there, in `uint32`. -/
theorem voiceFrame_again {n ret : Nat} {s t : App} (h : voiceFrame n ret s = .again t) :
    VoiceWhole n ret s ∧
      t.rx.handleDeviation = s.rx.handleDeviation + (s.rx.currentDataLength + n) := by
  by_cases hw : VoiceWhole n ret s
  · rw [voiceFrame_whole hw] at h
    obtain rfl := Jump.again.inj h
    exact ⟨hw, by rw [advance, fillFrom_rx]⟩
  · rw [voiceFrame_part hw] at h
    exact nomatch h

theorem voiceFrame_leave {n ret : Nat} {s t : App} (h : voiceFrame n ret s = .leave t) :
    ¬ VoiceWhole n ret s ∧ t.rx.handleDeviation = s.rx.handleDeviation ∧
      t.rx.currentDataLength = s.rx.currentDataLength := by
  by_cases hw : VoiceWhole n ret s
  · rw [voiceFrame_whole hw] at h
    exact nomatch h
  · rw [voiceFrame_part hw] at h
    obtain rfl := Jump.leave.inj h
    exact ⟨hw, by rw [setSave, fillFrom_rx], by rw [setSave, fillFrom_rx]⟩

theorem broadcastStart_rx (s : App) : (broadcastStart s).rx = s.rx := by
  unfold broadcastStart
  split <;> rfl

theorem broadcastStop_rx (s : App) : (broadcastStop s).rx = s.rx := by
  unfold broadcastStop
  split <;> rfl

theorem broadcastVoice_cursor {ret : Nat} {s t : App} (h : broadcastVoice ret s = .again t) :
    t.rx.handleDeviation = s.rx.handleDeviation +
      if 80 ≤ sub32 (sub32 ret 10) s.rx.handleDeviation then 90 else 88 := by
  unfold broadcastVoice at h
  split at h
  · next u hu =>
      obtain rfl := Jump.again.inj h
      obtain ⟨hle, hd⟩ := voiceFrame_again hu
      rw [hd, if_pos (show 80 ≤ sub32 (sub32 ret 10) s.rx.handleDeviation from hle)]
      rfl
  · next u hu =>
      obtain rfl := Jump.again.inj h
      obtain ⟨hle, hd, hlen⟩ := voiceFrame_leave hu
      rw [if_neg (show ¬ 80 ≤ sub32 (sub32 ret 10) s.rx.handleDeviation from hle), advance, hd,
        hlen]
      rfl

/-- A broadcast with voice in it moves the cursor whether the voice is complete or not. -/
theorem broadcast_cursor {ret : Nat} {s t : App} (h : broadcastFrame ret s = .again t) :
    t.rx.handleDeviation = s.rx.handleDeviation +
      if s.rx.byteAt 8 = 1 then
        if 80 ≤ sub32 (sub32 ret 10) s.rx.handleDeviation then 90 else 88
      else s.rx.currentDataLength + 8 := by
  unfold broadcastFrame at h
  split at h
  · next h8 =>
      rw [if_pos h8, broadcastVoice_cursor h, broadcastStart_rx]
      rfl
  · next h8 =>
      obtain rfl := Jump.again.inj h
      rw [if_neg h8, advance, broadcastStop_rx]
      rfl

theorem spanAt_broadcast {ret : Nat} {s : App}
    (hc : cmdAt s = SocketInstruction.instruction34.code) :
    spanAt ret s =
      if s.rx.byteAt 8 = 1 then
        if 80 ≤ sub32 (sub32 ret 10) s.rx.handleDeviation then 90 else 88
      else lenAt s + 8 := by
  by_cases h8 : s.rx.byteAt 8 = 1
  · rw [spanAt, if_pos ⟨hc, h8⟩, if_pos h8]
  · rw [spanAt, if_neg (fun h => h8 h.2), if_neg h8]

/-- The commands whose case advances by the declared length, whatever it does. -/
theorem plain_cursor {ret : Nat} {s t : App} {c : SocketInstruction}
    (hc : SocketInstruction.ofCode (readHeader s).rx.analysisHandle = some c)
    (h4 : c ≠ .instruction4) (h5 : c ≠ .instruction5) (h34 : c ≠ .instruction34)
    (ht : t.rx.handleDeviation = s.rx.handleDeviation + (lenAt s + 8)) :
    (Resets s ∧ t.rx.handleDeviation = 8) ∨
      (¬ Resets s ∧ t.rx.handleDeviation = s.rx.handleDeviation + spanAt ret s) := by
  have hc := cmdAt_of_readHeader hc
  refine Or.inr ⟨not_resets_of_cmd hc h4 h5, ?_⟩
  rw [ht, spanAt_of_cmd hc h34]

/-- The cursor after a frame whose case jumps back. -/
theorem dispatch_cursor {ret : Nat} {s t : App} (hh : headerAt s)
    (h : dispatch ret (readHeader s) = .again t) :
    (Resets s ∧ t.rx.handleDeviation = 8) ∨
      (¬ Resets s ∧ t.rx.handleDeviation = s.rx.handleDeviation + spanAt ret s) := by
  rcases dispatch_cases ret (readHeader s) with ⟨c, hc, hcase, heq⟩ | heq
  · rw [heq] at h
    cases c with
    | instruction4 =>
        obtain rfl := Jump.again.inj h
        exact dial_cursor hh (cmdAt_of_readHeader hc) _
    | instruction5 =>
        obtain rfl := Jump.again.inj h
        exact called_cursor hh (cmdAt_of_readHeader hc) _
    | instruction10 =>
        exact plain_cursor hc (by decide) (by decide) (by decide) (voiceFrame_again h).2
    | instruction12 | instruction21 | instruction29 | instruction32 =>
        obtain rfl := Jump.again.inj h
        exact plain_cursor hc (by decide) (by decide) (by decide) rfl
    | instruction2 =>
        obtain rfl := Jump.again.inj h
        refine plain_cursor hc (by decide) (by decide) (by decide) ?_
        rw [loginReturn_rx]
        rfl
    | instruction34 =>
        have hc := cmdAt_of_readHeader hc
        refine Or.inr ⟨not_resets_of_cmd hc (by decide) (by decide), ?_⟩
        rw [broadcast_cursor h, spanAt_broadcast hc]
        rfl
    | _ => exact absurd hcase (by decide)
  · exact nomatch heq.symm.trans h

/-- **One pass.**  A jump back means there was something left to read, and the
cursor goes on by one without a header, to 8 behind a resetting frame, and past
any other frame. -/
theorem isCmd_again {ret : Nat} {s t : App} (h : isCmd ret s = .again t) :
    s.rx.handleDeviation < ret ∧
      (¬ headerAt s ∧ t.rx.handleDeviation = s.rx.handleDeviation + 1 ∨
        Resets s ∧ t.rx.handleDeviation = 8 ∨
        headerAt s ∧ ¬ Resets s ∧
          t.rx.handleDeviation = s.rx.handleDeviation + spanAt ret s) := by
  unfold isCmd at h
  split at h
  · next hlt =>
      refine ⟨hlt, ?_⟩
      split at h
      · next hh =>
          rcases dispatch_cursor hh h with hr | ⟨hr, hd⟩
          · exact Or.inr (Or.inl hr)
          · exact Or.inr (Or.inr ⟨hh, hr, hd⟩)
      · next hh =>
          obtain rfl := Jump.again.inj h
          exact Or.inl ⟨hh, rfl⟩
  · exact nomatch h

theorem spanAt_pos (ret : Nat) (s : App) : 0 < spanAt ret s := by
  unfold spanAt
  split
  · split <;> omega
  · omega

/-- A pass goes forward, unless a resetting frame stands at 8 or beyond. -/
theorem isCmd_forward {ret : Nat} {s t : App} (h : isCmd ret s = .again t) :
    s.rx.handleDeviation < t.rx.handleDeviation ↔
      ¬ (Resets s ∧ 8 ≤ s.rx.handleDeviation) := by
  have hpos := spanAt_pos ret s
  obtain ⟨-, ⟨hh, hd⟩ | ⟨hr, hd⟩ | ⟨-, hr, hd⟩⟩ := isCmd_again h
  · have hnr : ¬ Resets s := fun hr => hh hr.1
    exact ⟨fun _ hr => hnr hr.1, fun _ => by omega⟩
  · constructor
    · rintro hlt ⟨-, h8⟩
      omega
    · intro hn
      have : ¬ 8 ≤ s.rx.handleDeviation := fun h8 => hn ⟨hr, h8⟩
      omega
  · exact ⟨fun _ hn => hr hn.1, fun _ => by omega⟩

/-! ## The loop -/

/-- The loop of message 122 ends, and each jump back to the label is taken with a
larger `handle_deviation`. -/
def LoopEnds (uDataSize : Nat) (chunk : List UInt8) (s : App) : Prop :=
  (∃ t, Handles122 uDataSize chunk s t) ∧
    ∀ u, message122 uDataSize chunk s = .again u →
      ∀ v w, Visits (isCmd chunk.length) u v → isCmd chunk.length v = .again w →
        v.rx.handleDeviation < w.rx.handleDeviation

/-- No pass finds a resetting frame at 8 or beyond. -/
def NoLateReset (uDataSize : Nat) (chunk : List UInt8) (s : App) : Prop :=
  ∀ u, message122 uDataSize chunk s = .again u →
    ∀ v, Visits (isCmd chunk.length) u v → v.rx.handleDeviation < chunk.length →
      Resets v → v.rx.handleDeviation < 8

theorem isCmd_of_case {ret : Nat} {s : App} {c : SocketInstruction}
    (hlt : s.rx.handleDeviation < ret) (hh : headerAt s) (hc : cmdAt s = c.code)
    (hcase : c.hasCase = true) :
    isCmd ret s = caseOf ret c ((readHeader s).log (.instruction c)) := by
  unfold isCmd
  rw [if_pos hlt, if_pos hh]
  exact dispatch_of_case (SocketInstruction.ofCode_eq_some.mpr hc) hcase

theorem isCmd_of_resets {ret : Nat} {s : App} (hlt : s.rx.handleDeviation < ret)
    (hr : Resets s) : ∃ t, isCmd ret s = .again t := by
  rcases hr.2 with ⟨hc, -⟩ | ⟨hc, -⟩
  · exact ⟨_, isCmd_of_case hlt hr.1 hc rfl⟩
  · exact ⟨_, isCmd_of_case hlt hr.1 hc rfl⟩

/-- **The receive loop.**  For every buffer size, every chunk and every state: the
loop ends, going forward at every jump, exactly when no pass finds a resetting
frame behind the first eight bytes. -/
theorem loop_ends_iff (uDataSize : Nat) (chunk : List UInt8) (s : App) :
    LoopEnds uDataSize chunk s ↔ NoLateReset uDataSize chunk s := by
  constructor
  · rintro ⟨-, hfwd⟩ u hu v hv hlt hr
    obtain ⟨w, hw⟩ := isCmd_of_resets hlt hr
    have hnot := (isCmd_forward hw).mp (hfwd u hu v w hv hw)
    exact Nat.lt_of_not_le fun h8 => hnot ⟨hr, h8⟩
  · intro hno
    have hfwd : ∀ u, message122 uDataSize chunk s = .again u →
        ∀ v w, Visits (isCmd chunk.length) u v → isCmd chunk.length v = .again w →
          v.rx.handleDeviation < w.rx.handleDeviation := by
      intro u hu v w hv hw
      rw [isCmd_forward hw]
      rintro ⟨hr, h8⟩
      exact absurd (hno u hu v hv (isCmd_again hw).1 hr) (Nat.not_lt.mpr h8)
    refine ⟨?_, hfwd⟩
    cases hm : message122 uDataSize chunk s with
    | leave t => exact ⟨t, .noLoop hm⟩
    | again u =>
        -- the cursor grows, and a pass that jumps back starts below `ret`
        obtain ⟨t, ht⟩ := ends_of_progress (fun v : App => v.rx.handleDeviation) chunk.length
          (hfwd u hm) (fun v w _ hw => (isCmd_again hw).1)
        exact ⟨t, .loop hm ht⟩

/-- A heartbeat answer, and behind it the answer that a call is accepted. -/
def lateAccept : List UInt8 :=
  [0xAA, 0xFA, 0x00, 0x00, 0x01, 0x11, 0x00, 0x00,
   0xAA, 0xFA, 0x00, 0x00, 0x01, 0x04, 0x00, 0x02, 0x31, 0x32]

/-- The states the loop goes round in: the cursor at the first or at the second frame. -/
structure LateTrap (buf : Mem) (s : App) : Prop where
  handle : HandleOk s
  buffer : s.rx.pRecv = buf
  cursor : s.rx.handleDeviation = 0 ∨ s.rx.handleDeviation = 8

/-- What a state of the trap reads. -/
theorem LateTrap.byteAt {old : Mem} {s : App} (h : LateTrap (received 18 lateAccept old) s)
    {d k : Nat} (hd : s.rx.handleDeviation = d) (hk : k + d < 18) :
    s.rx.byteAt k = lateAccept.getD (k + d) 0 := by
  rw [Rx.byteAt, h.buffer, hd]
  exact received_of_lt hk

theorem LateTrap.again {old : Mem} {s : App} (h : LateTrap (received 18 lateAccept old) s) :
    ∃ t, isCmd 18 s = .again t ∧ LateTrap (received 18 lateAccept old) t := by
  rcases h.cursor with hd | hd
  · -- the heartbeat answer is passed over
    have hh : headerAt s := (headerAt_iff h.handle).mpr
      ⟨h.byteAt hd (by decide), h.byteAt hd (by decide), h.byteAt hd (by decide),
        h.byteAt hd (by decide)⟩
    have hc : cmdAt s = SocketInstruction.instruction12.code :=
      congrArg UInt8.toNat (h.byteAt hd (by decide))
    refine ⟨_, isCmd_of_case (by omega) hh hc rfl, h.handle, h.buffer, Or.inr ?_⟩
    have h6 : s.rx.byteAt 6 = 0 := h.byteAt hd (by decide)
    have h7 : s.rx.byteAt 7 = 0 := h.byteAt hd (by decide)
    show s.rx.handleDeviation + ((s.rx.byteAt 6).toNat * 256 + (s.rx.byteAt 7).toNat + 8) = 8
    rw [hd, h6, h7]
    rfl
  · -- the accepted call puts the cursor where it was
    have hh : headerAt s := (headerAt_iff h.handle).mpr
      ⟨h.byteAt hd (by decide), h.byteAt hd (by decide), h.byteAt hd (by decide),
        h.byteAt hd (by decide)⟩
    have hc : cmdAt s = SocketInstruction.instruction4.code :=
      congrArg UInt8.toNat (h.byteAt hd (by decide))
    have hr : dialResets s := Or.inl (h.byteAt hd (by decide))
    refine ⟨_, isCmd_of_case (by omega) hh hc rfl, ?_⟩
    show LateTrap _ (advance 8 (dialReqReqCallReturnHander _))
    rw [dial_of_resets (s := (readHeader s).log _) hr]
    exact ⟨h.handle, h.buffer, Or.inr rfl⟩

/-- With no frame in progress, the loop reads the second frame again and again. -/
theorem lateAccept_never_ends {s : App} (hs : HandleOk s) (hsave : s.rx.currentDataLengthSave = 0) :
    ¬ ∃ t, Handles122 18 lateAccept s t := by
  have hm := message122_fresh (n := 18) (show 1 ≤ lateAccept.length by decide) hsave
  have htrap : LateTrap (received 18 lateAccept s.rx.pRecv)
      (rewind (socketRecv 18 lateAccept s)) := ⟨hs, rfl, Or.inl rfl⟩
  rintro ⟨t, hl | ⟨hu, hends⟩⟩
  · exact nomatch hm.symm.trans hl
  · obtain rfl := Jump.again.inj (hm.symm.trans hu)
    exact not_ends_of_trap _ (fun v hv => hv.again) htrap ⟨t, hends⟩

/-- The loop need not end, not even right after power-on. -/
theorem lateAccept_not_loopEnds :
    ∃ s, Receives 18 s ∧ lateAccept.length = 18 ∧ ¬ LoopEnds 18 lateAccept s := by
  have hr := Receives.of_runActs (l := [.socketEvent (.readInd 18), .socket Platform.silent])
    rfl rfl rfl
  exact ⟨_, hr, rfl, fun h => lateAccept_never_ends ⟨rfl, rfl, rfl, rfl, rfl⟩ rfl h.1⟩

end IntercomSalve
