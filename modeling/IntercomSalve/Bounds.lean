/-
# `Bounds` — the accesses to the receive buffer, and its end

`accesses` lists the offsets of `pRecv` that a step reads or writes: what is cleared
and received, the header compare, the fields of the frame at the cursor, the voice,
and the road byte that message 124 and the end of a call by the timer read at
`8 + handle_deviation`, wherever the last chunk left the cursor.

Nothing compares an offset with `PRECV_MAX`.  They stay below it in every run in which
the announced length, the received length and the frames found in it leave room
(`accesses_lt`); an announced length of 10000 is enough to write past the end.
-/
import IntercomSalve.Frames

namespace IntercomSalve

open Goto

/-! ## The accesses -/

/-- The header compare at the cursor, which ends at the first difference. -/
def compareReads (s : App) (i : Nat) : Prop :=
  ∃ k, k < 4 ∧ (∀ j, j < k → s.socketDataHandle j = s.rx.byteAt j) ∧
    i = k + s.rx.handleDeviation

/-- One pass of the loop. -/
def loopReads (ret : Nat) (s : App) (i : Nat) : Prop :=
  s.rx.handleDeviation < ret ∧
    (compareReads s i ∨ headerAt s ∧
      ((∃ k, frameReads ret s k ∧ i = k + s.rx.handleDeviation) ∨ frameAbsReads s i))

/-- Message 122 up to the label: `memset`, `KING_SocketRecv`, and a frame in progress. -/
def receiveAccesses (uDataSize : Nat) (chunk : List UInt8) (s : App) (i : Nat) : Prop :=
  i < uDataSize + 1 ∨ i < chunk.length ∨ 1 ≤ chunk.length ∧ resumeReads chunk.length s i

/-- `call_overtime_fun` ends the call, and reads the road byte. -/
def overtimeReads (s : App) (i : Nat) : Prop :=
  i = 8 + s.rx.handleDeviation ∧
    ((s.call.callUserOperation = 1 ∨ s.call.callUserOperation = 2) ∧
        s.call.callUserTim + 1 > callMaxTim ∨
      (s.call.callUserOperation = 3 ∨ s.call.callUserOperation = 5) ∧
        (s.link.heartbeatTim > callReceptionTimeout ∨ s.call.callUserTim + 1 > callMaxTim))

/-- Message 124 without a call reads it, too, the cursor having been reset. -/
def heartbeatReads (s : App) (i : Nat) : Prop := s.call.callUserOperation = 0 ∧ i = 8

/-- The offsets of `pRecv` that a step reads or writes. -/
def accesses (x : Sys) (a : Act) (i : Nat) : Prop :=
  match x.atIsCmd, a with
  | some ret, .isCmd => loopReads ret x.app i
  | none, .recv chunk => ∃ n ms, x.app.socketMsgs = .msg122 n :: ms ∧
      receiveAccesses n chunk x.app i
  | none, .socket _ => (∃ ms, x.app.socketMsgs = .msg124 :: ms ∧ heartbeatReads x.app i) ∨
      ∃ ms, x.app.socketMsgs = .msg126 :: ms ∧ overtimeReads x.app i
  | _, _ => False

/-! ## The timer and the heartbeat read no more -/

theorem relayCmd_withBuf {on : UInt8} {q : Mem} {s : App}
    (h : q (8 + s.rx.handleDeviation) = s.rx.pRecv (8 + s.rx.handleDeviation)) :
    relayCmd on (s.withBuf q) = (relayCmd on s).withBuf q := by
  have hbyte : (s.withBuf q).rx.byteAt 8 = s.rx.byteAt 8 := h
  unfold relayCmd
  rw [hbyte]
  rfl

theorem overtimeIdle_withBuf {q : Mem} {s : App}
    (h : q (8 + s.rx.handleDeviation) = s.rx.pRecv (8 + s.rx.handleDeviation)) :
    overtimeIdle (s.withBuf q) = (overtimeIdle s).withBuf q :=
  congrArg (fun t => clearVars (callOver t))
    (relayCmd_withBuf (s := s.postAudio .hmiNews2) h)

theorem overtimeClose_withBuf {q : Mem} {s : App}
    (h : q (8 + s.rx.handleDeviation) = s.rx.pRecv (8 + s.rx.handleDeviation)) :
    overtimeClose (s.withBuf q) = (overtimeClose s).withBuf q :=
  congrArg clearVars (relayCmd_withBuf (s := callOver s) h)

theorem callingEnd_withBuf {io : Platform} {q : Mem} {s : App}
    (h : s.call.callUserTim > callMaxTim →
      q (8 + s.rx.handleDeviation) = s.rx.pRecv (8 + s.rx.handleDeviation)) :
    callingEnd io (s.withBuf q) = (callingEnd io s).withBuf q := by
  unfold callingEnd
  by_cases ht : s.call.callUserTim > callMaxTim
  · rw [if_pos ht, if_pos (show (s.withBuf q).call.callUserTim > callMaxTim from ht)]
    exact overtimeIdle_withBuf (s := newConnect (io.socketSend 1) (sendCallFrame .instruction3
      s.call.mailListRoad DialReqReqCall.call2.code (s.call.mailList 0) s)) (h ht)
  · rw [if_neg ht, if_neg (show ¬ (s.withBuf q).call.callUserTim > callMaxTim from ht)]

theorem ringingEnd_withBuf {io : Platform} {q : Mem} {s : App}
    (h : s.call.callUserTim > callMaxTim →
      q (8 + s.rx.handleDeviation) = s.rx.pRecv (8 + s.rx.handleDeviation)) :
    ringingEnd io (s.withBuf q) = (ringingEnd io s).withBuf q := by
  unfold ringingEnd
  by_cases ht : s.call.callUserTim > callMaxTim
  · rw [if_pos ht, if_pos (show (s.withBuf q).call.callUserTim > callMaxTim from ht)]
    exact overtimeIdle_withBuf (s := newConnect (io.socketSend 2) (sendCallFrame .instruction3
      s.call.mailListRoad DialReqReqCall.call2.code (s.call.mailList 1) s)) (h ht)
  · rw [if_neg ht, if_neg (show ¬ (s.withBuf q).call.callUserTim > callMaxTim from ht)]

theorem connectedEnd_withBuf {io : Platform} {q : Mem} {s : App}
    (h : s.call.callUserTim > callMaxTim →
      q (8 + s.rx.handleDeviation) = s.rx.pRecv (8 + s.rx.handleDeviation)) :
    connectedEnd io (s.withBuf q) = (connectedEnd io s).withBuf q := by
  unfold connectedEnd
  by_cases ht : s.call.callUserTim > callMaxTim
  · rw [if_pos ht, if_pos (show (s.withBuf q).call.callUserTim > callMaxTim from ht)]
    exact congrArg dropSocket (overtimeClose_withBuf (s := App.postAudio .hmiNews2
      (newConnect (io.socketSend 0) (sendCallFrame .instruction3 s.call.mailListRoad
        DialReqReqCall.call2.code (s.call.mailList 1) s))) (h ht))
  · rw [if_neg ht, if_neg (show ¬ (s.withBuf q).call.callUserTim > callMaxTim from ht)]

theorem calledEnd_withBuf {io : Platform} {q : Mem} {s : App}
    (h : s.call.callUserTim > callMaxTim →
      q (8 + s.rx.handleDeviation) = s.rx.pRecv (8 + s.rx.handleDeviation)) :
    calledEnd io (s.withBuf q) = (calledEnd io s).withBuf q := by
  unfold calledEnd
  by_cases ht : s.call.callUserTim > callMaxTim
  · rw [if_pos ht, if_pos (show (s.withBuf q).call.callUserTim > callMaxTim from ht)]
    exact overtimeClose_withBuf (s := App.postAudio .hmiNews2
      (newConnect (io.socketSend 0) (sendCallFrame .instruction6 s.call.mailListRoad
        CallReturn.return5.code (s.call.mailList 1) s))) (h ht)
  · rw [if_neg ht, if_neg (show ¬ (s.withBuf q).call.callUserTim > callMaxTim from ht)]

theorem callingRepeat_withBuf (io : Platform) (q : Mem) (s : App) :
    callingRepeat io (s.withBuf q) = (callingRepeat io s).withBuf q := by
  unfold callingRepeat
  by_cases ht : s.call.callUserTim % 3 = 0
  · rw [if_pos ht, if_pos (show (s.withBuf q).call.callUserTim % 3 = 0 from ht)]
    rfl
  · rw [if_neg ht, if_neg (show ¬ (s.withBuf q).call.callUserTim % 3 = 0 from ht)]

theorem ringingSwitch_withBuf (io : Platform) (q : Mem) (s : App) :
    ringingSwitch io (s.withBuf q) = (ringingSwitch io s).withBuf q := by
  unfold ringingSwitch
  by_cases ht : s.call.callUserTim = callMaxTim / 2
  · rw [if_pos ht, if_pos (show (s.withBuf q).call.callUserTim = callMaxTim / 2 from ht)]
    rfl
  · rw [if_neg ht, if_neg (show ¬ (s.withBuf q).call.callUserTim = callMaxTim / 2 from ht)]

/-- **Message 126** reads what `overtimeReads` lists. -/
theorem callOvertimeFun_withBuf {io : Platform} {q : Mem} {s : App}
    (h : ∀ i, overtimeReads s i → q i = s.rx.pRecv i) :
    callOvertimeFun io (s.withBuf q) = (callOvertimeFun io s).withBuf q := by
  have hsecond : callSecond (s.withBuf q) = (callSecond s).withBuf q := rfl
  unfold callOvertimeFun overtimeOf
  rw [hsecond]
  by_cases h1 : s.call.callUserOperation = 1
  · rw [if_pos (show ((callSecond s).withBuf q).call.callUserOperation = 1 from h1),
      if_pos (show (callSecond s).call.callUserOperation = 1 from h1), callingRepeat_withBuf]
    refine callingEnd_withBuf fun ht => ?_
    rw [callingRepeat_call] at ht
    rw [callingRepeat_rx]
    exact h _ ⟨rfl, Or.inl ⟨Or.inl h1, ht⟩⟩
  rw [if_neg (show ¬ ((callSecond s).withBuf q).call.callUserOperation = 1 from h1),
    if_neg (show ¬ (callSecond s).call.callUserOperation = 1 from h1)]
  by_cases h2 : s.call.callUserOperation = 2
  · rw [if_pos (show ((callSecond s).withBuf q).call.callUserOperation = 2 from h2),
      if_pos (show (callSecond s).call.callUserOperation = 2 from h2), ringingSwitch_withBuf]
    refine ringingEnd_withBuf fun ht => ?_
    rw [ringingSwitch_call] at ht
    rw [ringingSwitch_rx]
    exact h _ ⟨rfl, Or.inl ⟨Or.inr h2, ht⟩⟩
  rw [if_neg (show ¬ ((callSecond s).withBuf q).call.callUserOperation = 2 from h2),
    if_neg (show ¬ (callSecond s).call.callUserOperation = 2 from h2)]
  by_cases h3 : s.call.callUserOperation = 3
  · rw [if_pos (show ((callSecond s).withBuf q).call.callUserOperation = 3 from h3),
      if_pos (show (callSecond s).call.callUserOperation = 3 from h3)]
    unfold connectedQuiet
    by_cases hq : s.link.heartbeatTim > callReceptionTimeout
    · rw [if_pos (show ((callSecond s).withBuf q).link.heartbeatTim > _ from hq),
        if_pos (show (callSecond s).link.heartbeatTim > _ from hq)]
      have hclose := overtimeClose_withBuf (q := q) (s := (callSecond s).log .socketClose)
        (h _ ⟨rfl, Or.inr ⟨Or.inl h3, Or.inl hq⟩⟩)
      rw [show ((callSecond s).withBuf q).log .socketClose =
        ((callSecond s).log .socketClose).withBuf q from rfl, hclose]
      -- the timer of the call is 0 now
      exact connectedEnd_withBuf fun ht => absurd (show (0 : UInt8) > callMaxTim from ht) (by decide)
    · rw [if_neg (show ¬ ((callSecond s).withBuf q).link.heartbeatTim > _ from hq),
        if_neg (show ¬ (callSecond s).link.heartbeatTim > _ from hq)]
      exact connectedEnd_withBuf fun ht => h _ ⟨rfl, Or.inr ⟨Or.inl h3, Or.inr ht⟩⟩
  rw [if_neg (show ¬ ((callSecond s).withBuf q).call.callUserOperation = 3 from h3),
    if_neg (show ¬ (callSecond s).call.callUserOperation = 3 from h3)]
  by_cases h5 : s.call.callUserOperation = 5
  · rw [if_pos (show ((callSecond s).withBuf q).call.callUserOperation = 5 from h5),
      if_pos (show (callSecond s).call.callUserOperation = 5 from h5)]
    unfold calledQuiet
    by_cases hq : s.link.heartbeatTim > callReceptionTimeout
    · rw [if_pos (show ((callSecond s).withBuf q).link.heartbeatTim > _ from hq),
        if_pos (show (callSecond s).link.heartbeatTim > _ from hq)]
      have hclose := overtimeClose_withBuf (q := q)
        (s := ((callSecond s).log .socketClose).postAudio .hmiNews2)
        (h _ ⟨rfl, Or.inr ⟨Or.inr h5, Or.inl hq⟩⟩)
      rw [show (((callSecond s).withBuf q).log .socketClose).postAudio .hmiNews2 =
        (((callSecond s).log .socketClose).postAudio .hmiNews2).withBuf q from rfl, hclose]
      exact calledEnd_withBuf fun ht => absurd (show (0 : UInt8) > callMaxTim from ht) (by decide)
    · rw [if_neg (show ¬ ((callSecond s).withBuf q).link.heartbeatTim > _ from hq),
        if_neg (show ¬ (callSecond s).link.heartbeatTim > _ from hq)]
      exact calledEnd_withBuf fun ht => h _ ⟨rfl, Or.inr ⟨Or.inr h5, Or.inr ht⟩⟩
  · rw [if_neg (show ¬ ((callSecond s).withBuf q).call.callUserOperation = 5 from h5),
      if_neg (show ¬ (callSecond s).call.callUserOperation = 5 from h5)]

/-- **Message 124** reads what `heartbeatReads` lists. -/
theorem message124_withBuf {io : Platform} {q : Mem} {s : App}
    (h : ∀ i, heartbeatReads s i → q i = s.rx.pRecv i) :
    message124 io (s.withBuf q) = (message124 io s).withBuf q := by
  unfold message124
  by_cases hop : s.call.callUserOperation = 0
  · rw [if_pos hop, if_pos (show (s.withBuf q).call.callUserOperation = 0 from hop)]
    exact relayCmd_withBuf (s := clearVars (sendHeartbeat io s)) (h 8 ⟨hop, rfl⟩)
  · rw [if_neg hop, if_neg (show ¬ (s.withBuf q).call.callUserOperation = 0 from hop)]
    rfl

/-! ## The ring of received voice -/

theorem dial_play (s : App) : (dialReqReqCallReturnHander s).play = s.play := by
  unfold dialReqReqCallReturnHander dialBusy dialRefused
  repeat' split
  all_goals rfl

theorem called_play (s : App) : (calledReqReqCallReturnHander s).play = s.play := by
  unfold calledReqReqCallReturnHander calledAnswer calledHangUp
  repeat' split
  all_goals rfl

theorem broadcastStop_play (s : App) : (broadcastStop s).play = s.play := by
  unfold broadcastStop
  split <;> rfl

theorem voiceFrame_play (n ret : Nat) (s : App) :
    (voiceFrame n ret s).state.play =
      fillAudio (s.rx.pRecv.ptr (n + s.rx.handleDeviation)) (voiceLines n ret s) s.play := by
  by_cases hw : VoiceWhole n ret s
  · rw [voiceFrame_whole hw, voiceLines, if_pos hw]
    rfl
  · rw [voiceFrame_part hw, voiceLines, if_neg hw]
    rfl

/-- The voice is as long as declared, or ends with what was received. -/
theorem voiceLines_le {n ret : Nat} {s : App} (hlen : s.rx.currentDataLength ≤ 65535)
    (hn : n ≤ 10) (hd : s.rx.handleDeviation < ret) (hret : ret < 65536) :
    voiceLines n ret s ≤ s.rx.currentDataLength ∨
      n + s.rx.handleDeviation + voiceLines n ret s ≤ ret := by
  by_cases hw : VoiceWhole n ret s
  · rw [voiceLines, if_pos hw]
    exact Or.inl (Nat.le_refl _)
  · rw [voiceLines, if_neg hw]
    rw [VoiceWhole, le_sub32_iff hlen hn hd hret] at hw
    rw [voicePart, sub32_rest (by omega)]
    exact Or.inr (by omega)

/-- The write position stays in the ring when no more voice comes than it holds. -/
theorem caseOf_ring {ret : Nat} {c : SocketInstruction} {s : App}
    (hs : s.play.playDataNum < playDataMax)
    (h10 : c = .instruction10 → voiceLines 8 ret s ≤ playDataMax)
    (h34 : c = .instruction34 → s.rx.byteAt 8 = 1 →
      voiceLines 10 ret (setLength 80 s) ≤ playDataMax) :
    (caseOf ret c s).state.play.playDataNum < playDataMax := by
  cases c with
  | instruction4 =>
      show (dialReqReqCallReturnHander s).play.playDataNum < _
      rw [dial_play]
      exact hs
  | instruction5 =>
      show (calledReqReqCallReturnHander s).play.playDataNum < _
      rw [called_play]
      exact hs
  | instruction10 =>
      show (voiceFrame 8 ret s).state.play.playDataNum < _
      rw [voiceFrame_play]
      exact fillAudio_lt hs (h10 rfl)
  | instruction34 =>
      show (broadcastFrame ret s).state.play.playDataNum < _
      unfold broadcastFrame
      by_cases h8 : s.rx.byteAt 8 = 1
      · rw [if_pos h8]
        have hplay : (broadcastStart (asVoice s)).play = s.play := broadcastStart_play _
        have hrx : (broadcastStart (asVoice s)).rx = (asVoice s).rx := broadcastStart_rx _
        have hlines : voiceLines 10 ret (setLength 80 (broadcastStart (asVoice s))) ≤
            playDataMax := by
          have hcur : (setLength 80 (broadcastStart (asVoice s))).rx.handleDeviation =
              (setLength 80 s).rx.handleDeviation := by
            show (broadcastStart (asVoice s)).rx.handleDeviation = _
            rw [hrx]
            rfl
          rw [voiceLines_congr hcur rfl]
          exact h34 rfl h8
        have hv := voiceFrame_play 10 ret (setLength 80 (broadcastStart (asVoice s)))
        have hnum : (voiceFrame 10 ret (setLength 80 (broadcastStart (asVoice s)))).state.play.playDataNum
            < playDataMax := by
          rw [hv]
          refine fillAudio_lt ?_ hlines
          show (broadcastStart (asVoice s)).play.playDataNum < _
          rw [hplay]
          exact hs
        unfold broadcastVoice
        split
        · next u hu =>
            rw [hu] at hnum
            exact hnum
        · next u hu =>
            rw [hu] at hnum
            exact hnum
      · rw [if_neg h8]
        show (broadcastStop (asVoice s)).play.playDataNum < _
        rw [broadcastStop_play]
        exact hs
  | _ => exact hs

theorem isCmd_ring {ret : Nat} {s : App} (hs : s.play.playDataNum < playDataMax)
    (h10 : headerAt s → cmdAt s = SocketInstruction.instruction10.code →
      voiceLines 8 ret (readHeader s) ≤ playDataMax)
    (h34 : headerAt s → cmdAt s = SocketInstruction.instruction34.code → s.rx.byteAt 8 = 1 →
      voiceLines 10 ret (setLength 80 s) ≤ playDataMax) :
    (isCmd ret s).state.play.playDataNum < playDataMax := by
  unfold isCmd
  by_cases hlt : s.rx.handleDeviation < ret
  · rw [if_pos hlt]
    by_cases hh : headerAt s
    · rw [if_pos hh]
      cases hc : caseAt s with
      | none =>
          rw [dispatch_none hc]
          exact hs
      | some c =>
          rw [dispatch_some hc]
          have hcmd := (caseAt_eq_some.mp hc).1
          refine caseOf_ring hs ?_ ?_
          · rintro rfl
            exact h10 hh hcmd
          · rintro rfl h8
            exact h34 hh hcmd h8
    · rw [if_neg hh]
      exact hs
  · rw [if_neg hlt]
    exact hs

theorem Does.play_eq {s t : App} (h : Does s t) : t.play = s.play := by
  cases h <;> rfl

theorem Doing.play_eq {s t : App} (h : Doing s t) : t.play = s.play :=
  h.keeps_eq fun _ _ hd => hd.play_eq

theorem socketTestThread_play (io : Platform) {m : SocketMsg} (hm : ∀ n, m ≠ .msg122 n)
    (s : App) : (socketTestThread io m s).play = s.play := by
  obtain ⟨t, r, hdoing, heq⟩ := socketTestThread_eq io hm s
  rw [heq]
  exact hdoing.play_eq

/-! ## Runs -/

/-- A step that leaves room in the buffer: the length announced and the length received,
and of a frame that is found, its fields and its declared end. -/
structure Roomy (e : Run.Step Act Sys) : Prop where
  received : ∀ chunk n ms, e.act = .recv chunk → e.pre.app.socketMsgs = .msg122 n :: ms →
    n < precvMax ∧ chunk.length + 8 < precvMax
  frame : ∀ ret, e.pre.atIsCmd = some ret → e.pre.app.rx.handleDeviation < ret →
    headerAt e.pre.app →
      e.pre.app.rx.handleDeviation + frameNeeds e.pre.app ≤ precvMax ∧
        (¬ Resets e.pre.app →
          e.pre.app.rx.handleDeviation + spanAt ret e.pre.app + 8 < precvMax)

/-- The cursor, the write position of the ring and the received length. -/
structure BufferOk (x : Sys) : Prop where
  cursor : x.app.rx.handleDeviation + 8 < precvMax
  ring : x.app.play.playDataNum < playDataMax
  ret : ∀ ret, x.atIsCmd = some ret → ret + 8 < precvMax

/-- A pass that leaves the loop leaves the cursor. -/
theorem isCmd_leave_cursor {ret : Nat} {s t : App} (h : isCmd ret s = .leave t) :
    t.rx.handleDeviation = s.rx.handleDeviation := by
  unfold isCmd at h
  split at h
  · split at h
    · cases hc : caseAt s with
      | none =>
          rw [dispatch_none hc] at h
          obtain rfl := Jump.leave.inj h
          rfl
      | some c =>
          rw [dispatch_some hc] at h
          have hcase := (caseAt_eq_some.mp hc).2
          cases c with
          | instruction10 => exact (voiceFrame_leave h).2.1
          | instruction34 =>
              have h : broadcastFrame ret (opened .instruction34 s) = .leave t := h
              unfold broadcastFrame broadcastVoice at h
              split at h
              · split at h <;> exact nomatch h
              · exact nomatch h
          | instruction2 | instruction4 | instruction5 | instruction12 | instruction21
          | instruction29 | instruction32 => exact nomatch h
          | _ => exact absurd hcase (by decide)
    · exact nomatch h
  · obtain rfl := Jump.leave.inj h
    rfl

/-- The voice of a frame that leaves room is not more than the ring holds. -/
theorem roomy_lines {ret : Nat} {s : App} (hd : s.rx.handleDeviation < ret)
    (hret : ret + 8 < precvMax)
    (hspan : ¬ Resets s → s.rx.handleDeviation + spanAt ret s + 8 < precvMax) :
    (cmdAt s = SocketInstruction.instruction10.code →
      8 + s.rx.handleDeviation + voiceLines 8 ret (readHeader s) < precvMax) ∧
    (cmdAt s = SocketInstruction.instruction34.code → s.rx.byteAt 8 = 1 →
      10 + s.rx.handleDeviation + voiceLines 10 ret (setLength 80 s) < precvMax) := by
  unfold precvMax at *
  constructor
  · intro hc
    have hs := hspan (not_resets_of_cmd hc (by decide) (by decide))
    rw [spanAt_of_cmd hc (by decide)] at hs
    have hl : voiceLines 8 ret (readHeader s) ≤ lenAt s ∨
        8 + s.rx.handleDeviation + voiceLines 8 ret (readHeader s) ≤ ret :=
      voiceLines_le (lenAt_le s) (by decide) hd (by omega)
    omega
  · intro hc h8
    have hs := hspan (not_resets_of_cmd hc (by decide) (by decide))
    rw [spanAt_broadcast hc, if_pos h8] at hs
    have hl : voiceLines 10 ret (setLength 80 s) ≤ 80 ∨
        10 + s.rx.handleDeviation + voiceLines 10 ret (setLength 80 s) ≤ ret :=
      voiceLines_le (by decide : 80 ≤ 65535) (by decide) hd (by omega)
    split at hs <;> omega

/-- One pass keeps the cursor and the ring in their bounds. -/
theorem isCmd_bounds {ret : Nat} {s : App} (hcur : s.rx.handleDeviation + 8 < precvMax)
    (hring : s.play.playDataNum < playDataMax) (hret : ret + 8 < precvMax)
    (hspan : s.rx.handleDeviation < ret → headerAt s → ¬ Resets s →
      s.rx.handleDeviation + spanAt ret s + 8 < precvMax) :
    (isCmd ret s).state.rx.handleDeviation + 8 < precvMax ∧
      (isCmd ret s).state.play.playDataNum < playDataMax := by
  constructor
  · cases hj : isCmd ret s with
    | leave t =>
        rw [Jump.state_leave, isCmd_leave_cursor hj]
        exact hcur
    | again t =>
        rw [Jump.state_again]
        unfold precvMax at *
        obtain ⟨hlt, ⟨-, hd⟩ | ⟨-, hd⟩ | ⟨hh, hnr, hd⟩⟩ := isCmd_again hj
        · omega
        · omega
        · have := hspan hlt hh hnr
          omega
  · by_cases hlt : s.rx.handleDeviation < ret
    · refine isCmd_ring hring ?_ ?_
      · intro hh hc
        have := (roomy_lines hlt hret (hspan hlt hh)).1 hc
        unfold precvMax playDataMax at *
        omega
      · intro hh hc h8
        have := (roomy_lines hlt hret (hspan hlt hh)).2 hc h8
        unfold precvMax playDataMax at *
        omega
    · rw [isCmd_of_ge (Nat.le_of_not_lt hlt)]
      exact hring

/-- Message 122 up to the label does, too. -/
theorem message122_bounds {n : Nat} {chunk : List UInt8} {s : App}
    (hcur : s.rx.handleDeviation + 8 < precvMax) (hring : s.play.playDataNum < playDataMax)
    (hc : chunk.length + 8 < precvMax) :
    (message122 n chunk s).state.rx.handleDeviation + 8 < precvMax ∧
      (message122 n chunk s).state.play.playDataNum < playDataMax := by
  unfold precvMax at *
  unfold message122
  split
  · exact ⟨hcur, hring⟩
  · split
    · unfold resumeVoice
      split
      · split
        · next hle =>
            have hle : sub32 s.rx.currentDataLength s.rx.currentDataLengthSave ≤ chunk.length := hle
            refine ⟨?_, fillAudio_lt hring ?_⟩
            · show 0 + sub32 s.rx.currentDataLength s.rx.currentDataLengthSave + 8 < 10000
              omega
            · show sub32 s.rx.currentDataLength s.rx.currentDataLengthSave ≤ 40000
              omega
        · refine ⟨by show 0 + 8 < 10000; omega, fillAudio_lt hring ?_⟩
          show chunk.length ≤ 40000
          omega
      · exact ⟨by show 0 + 8 < 10000; omega, hring⟩
    · exact ⟨by show 0 + 8 < 10000; omega, hring⟩

theorem AudioSide.bufferOk {s t : App} (h : AudioSide s t) {pc : Option Nat}
    (hs : BufferOk ⟨s, pc⟩) : BufferOk ⟨t, pc⟩ := by
  refine ⟨?_, ?_, hs.ret⟩
  · show t.rx.handleDeviation + 8 < precvMax
    rw [h.rx]
    exact hs.cursor
  · have hring : s.play.playDataNum < playDataMax := hs.ring
    show t.play.playDataNum < playDataMax
    rcases h.ring with hr | hr
    · rw [hr]
      exact hring
    · rw [hr]
      decide

/-- Outside message 122 the cursor stays, or goes back to the start. -/
theorem Quiets.cursor_le {r r' : Rx} (h : Quiets r r') :
    r'.handleDeviation ≤ r.handleDeviation := by
  rcases h with rfl | rfl | rfl
  · exact Nat.le_refl _
  · exact Nat.zero_le _
  · exact Nat.le_refl _

/-- **One step** that leaves room. -/
theorem BufferOk.step {x y : Sys} {a : Act} (hx : BufferOk x) (h : Steps x a y)
    (hr : Roomy ⟨x, a, y⟩) : BufferOk y := by
  have hquiet : ∀ {s t : App} {pc : Option Nat}, Quiets s.rx t.rx → t.play = s.play →
      BufferOk ⟨s, pc⟩ → BufferOk ⟨t, pc⟩ := by
    intro s t pc hq hp hs
    have hcur : s.rx.handleDeviation + 8 < precvMax := hs.cursor
    have hle := hq.cursor_le
    refine ⟨?_, ?_, hs.ret⟩
    · show t.rx.handleDeviation + 8 < precvMax
      omega
    · show t.play.playDataNum < playDataMax
      rw [hp]
      exact hs.ring
  cases h with
  | @isCmd s ret =>
      have hret := hx.ret ret rfl
      have hb := isCmd_bounds hx.cursor hx.ring hret fun hlt hh => (hr.frame ret rfl hlt hh).2
      refine ⟨by rw [Sys.ofJump_app]; exact hb.1, by rw [Sys.ofJump_app]; exact hb.2, ?_⟩
      intro r hpc
      cases hj : isCmd ret s with
      | again t =>
          rw [hj] at hpc
          obtain rfl := Option.some.inj hpc
          exact hret
      | leave t =>
          rw [hj] at hpc
          exact nomatch hpc
  | @recv s n ms chunk hms hle =>
      have hc := (hr.received chunk n ms rfl hms).2
      have hb := message122_bounds (n := n) (s := { s with socketMsgs := ms }) hx.cursor hx.ring hc
      refine ⟨by rw [Sys.ofJump_app]; exact hb.1, by rw [Sys.ofJump_app]; exact hb.2, ?_⟩
      intro r hpc
      cases hj : message122 n chunk { s with socketMsgs := ms } with
      | again t =>
          rw [hj] at hpc
          obtain rfl := Option.some.inj hpc
          exact hc
      | leave t =>
          rw [hj] at hpc
          exact nomatch hpc
  | @socket s m ms io hms hm =>
      exact hquiet (s := { s with socketMsgs := ms }) (socketTestThread_quiets io hm _)
        (socketTestThread_play io hm _) ⟨hx.cursor, hx.ring, hx.ret⟩
  | @audio s m ms io hms =>
      exact (audioDuplexthread_audioSide io m { s with audioMsgs := ms }).bufferOk
        ⟨hx.cursor, hx.ring, hx.ret⟩
  | @mp3 s m ms io hms =>
      exact (audioPlayMP3Thread_audioSide io m { s with mp3Msgs := ms }).bufferOk
        ⟨hx.cursor, hx.ring, hx.ret⟩
  | @timerHeartbeat s io =>
      have hdoing := timerHeartbeat_doing io s
      exact hquiet hdoing.quiets hdoing.play_eq hx
  | @socketEvent s e =>
      obtain ⟨l, ms, os, -, heq⟩ := socketEventProcessCb_eq e s
      rw [heq]
      exact ⟨hx.cursor, hx.ring, hx.ret⟩
  | @audioRecordCb s buff len => exact (audioRecordCb_audioSide buff len s).bufferOk hx
  | @audioPlayCb s => exact (audioPlayCb_audioSide s).bufferOk hx
  | timerHeartbeat2 _ | uart2Event | uart3Event => exact ⟨hx.cursor, hx.ring, hx.ret⟩

/-- The accesses of one step that leaves room. -/
theorem BufferOk.accesses_inside {x y : Sys} {a : Act} (hx : BufferOk x) (h : Steps x a y)
    (hr : Roomy ⟨x, a, y⟩) {i : Nat} (hi : accesses x a i) : i < precvMax := by
  have hcur := hx.cursor
  cases h with
  | @isCmd s ret =>
      obtain ⟨hlt, ⟨k, hk, -, rfl⟩ | ⟨hh, ⟨k, hk, rfl⟩ | habs⟩⟩ := hi
      · have hret := hx.ret ret rfl
        have hlt : s.rx.handleDeviation < ret := hlt
        show k + s.rx.handleDeviation < precvMax
        omega
      · obtain ⟨hf, hspan⟩ := hr.frame ret rfl hlt hh
        have hlines := roomy_lines hlt (hx.ret ret rfl) hspan
        have hring : ∀ lines, fillEnd s.play.playDataNum lines ≤ lines := fun lines =>
          ringOk_of_le (Nat.le_of_lt hx.ring)
        refine frameReads_lt_of hf ?_ ?_ hk
        · intro hc
          have h1 : 8 + s.rx.handleDeviation + voiceLines 8 ret (readHeader s) < precvMax :=
            hlines.1 hc
          have h2 := hring (voiceLines 8 ret (readHeader s))
          show 8 + s.rx.handleDeviation +
            fillEnd s.play.playDataNum (voiceLines 8 ret (readHeader s)) ≤ precvMax
          omega
        · intro hc h8
          have h1 : 10 + s.rx.handleDeviation + voiceLines 10 ret (setLength 80 s) < precvMax :=
            hlines.2 hc h8
          have h2 := hring (voiceLines 10 ret (setLength 80 s))
          show 10 + s.rx.handleDeviation +
            fillEnd s.play.playDataNum (voiceLines 10 ret (setLength 80 s)) ≤ precvMax
          omega
      · obtain ⟨c, -, -, -, hi⟩ := habs
        unfold precvMax
        omega
  | @recv s n ms chunk hms hle =>
      obtain ⟨n', ms', hms', hi⟩ := hi
      obtain ⟨hn, hc⟩ := hr.received chunk n' ms' rfl hms'
      rcases hi with hi | hi | ⟨-, -, -, hi⟩
      · omega
      · omega
      · have hring : fillEnd s.play.playDataNum (resumeLines chunk.length s) ≤
            resumeLines chunk.length s := ringOk_of_le (Nat.le_of_lt hx.ring)
        have hlines : resumeLines chunk.length s ≤ chunk.length := by
          unfold resumeLines
          split <;> omega
        have hi : i < fillEnd s.play.playDataNum (resumeLines chunk.length s) := hi
        omega
  | @socket s m ms io hms hm =>
      rcases hi with ⟨ms', -, -, rfl⟩ | ⟨ms', -, rfl, -⟩
      · decide
      · have hcur : s.rx.handleDeviation + 8 < precvMax := hcur
        show 8 + s.rx.handleDeviation < precvMax
        omega
  | audio _ | mp3 _ | timerHeartbeat | timerHeartbeat2 _ | socketEvent | uart2Event | uart3Event
  | audioRecordCb | audioPlayCb => exact hi.elim

/-- **Index safety.**  In every run whose steps leave room, every access to the receive
buffer is inside it. -/
theorem accesses_lt {l : List (Run.Step Act Sys)} {y : Sys} (hr : Run.Runs exec Sys.init l y)
    (hroom : ∀ e ∈ l, Roomy e) :
    ∀ e ∈ l, ∀ i, accesses e.pre e.act i → i < precvMax := by
  have hinv := (hr.invariant (I := BufferOk) (P := Roomy) ⟨by decide, by decide, by simp [Sys.init]⟩
    (fun _ _ _ hy he hroom => hy.step (exec_eq_some.mp he) hroom) hroom).2
  intro e he i hi
  obtain ⟨hpre, hexec⟩ := hinv e he
  exact hpre.accesses_inside (exec_eq_some.mp hexec) (hroom e he) hi

/-- A heartbeat answer, received and read: three steps that leave room, and the pass that
reads the frame. -/
theorem heartbeat_accesses_lt :
    ∃ l y, Run.Runs exec Sys.init l y ∧ y.app.rx.handleDeviation = 8 ∧
      ∀ e ∈ l, ∀ i, accesses e.pre e.act i → i < precvMax := by
  have hr := Runs.of_acts (l := [.socketEvent (.readInd 8), .socket Platform.silent,
    .recv [0xAA, 0xFA, 0x00, 0x00, 0x01, 0x11, 0x00, 0x00], .isCmd]) rfl
  refine ⟨_, _, hr, rfl, accesses_lt hr ?_⟩
  simp only [List.forall_mem_cons]
  refine ⟨?_, ?_, ?_, ?_, fun e he => absurd he List.not_mem_nil⟩
  · exact ⟨fun _ _ _ h => (nomatch h), fun _ h => (nomatch h)⟩
  · exact ⟨fun _ _ _ h => (nomatch h), fun _ h => (nomatch h)⟩
  · refine ⟨?_, fun _ h => (nomatch h)⟩
    intro chunk n ms hact hms
    obtain rfl := Act.recv.inj hact
    obtain ⟨hn, -⟩ := List.cons.inj hms
    obtain rfl := SocketMsg.msg122.inj hn
    exact ⟨by decide, by decide⟩
  · refine ⟨fun _ _ _ h => (nomatch h), ?_⟩
    intro ret hpc hlt hh
    obtain rfl := Option.some.inj hpc
    exact ⟨by decide, fun _ => by decide⟩

/-- With 10000 bytes announced, `memset` writes behind the buffer. -/
theorem announced_not_lt :
    ∃ l y, Run.Runs exec Sys.init l y ∧
      ∃ e ∈ l, ∃ i, accesses e.pre e.act i ∧ ¬ i < precvMax := by
  have hr := Runs.of_acts (l := [.socketEvent (.readInd 10000), .socket Platform.silent,
    .recv []]) rfl
  refine ⟨_, _, hr, _, .tail _ (.tail _ (.head _)), 10000, ?_, by decide⟩
  exact ⟨10000, [], rfl, Or.inl (by decide)⟩

end IntercomSalve
