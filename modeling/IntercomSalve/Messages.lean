/-
# `Messages` — what a message of the socket thread leaves

A message other than 122 sends frames, posts messages and commands, and logs.  What it
leaves of the call, the parser, the recorder and the flag of the voice device
(`App.inner`) is much less: five of the messages change something there, and each of
them one thing (`innerAfter`, `socketTestThread_inner`).

The end of a call by `call_overtime_fun` depends on `timesOut` alone, in whichever of its
four states the call is (`callOvertimeFun_inner`).
-/
import IntercomSalve.Handlers

namespace IntercomSalve

/-! ## When the time is over -/

/-- The call has lasted too long, or nothing has come for too long. -/
def timesOut (s : App) : Prop :=
  (s.call.callUserOperation = 1 ∨ s.call.callUserOperation = 2) ∧
      s.call.callUserTim + 1 > callMaxTim ∨
    (s.call.callUserOperation = 3 ∨ s.call.callUserOperation = 5) ∧
      (s.link.heartbeatTim > callReceptionTimeout ∨ s.call.callUserTim + 1 > callMaxTim)

instance (s : App) : Decidable (timesOut s) := by unfold timesOut; infer_instance

/-- A broadcast has lasted too long, or nothing has come for too long. -/
def broadcastTimesOut (s : App) : Prop :=
  s.call.mailListALLTim > callMaxTim ∨ s.link.heartbeatTim > 5

instance (s : App) : Decidable (broadcastTimesOut s) := by
  unfold broadcastTimesOut
  infer_instance

/-! ## What the timer does to the call -/

/-- The call, the parser, the recorder, and the flag of the voice device. -/
def App.inner (s : App) : Call × Rx × Record × UInt8 := (s.call, s.rx, s.record, s.audioEnV2)

theorem call_of_inner {s t : App} (h : s.inner = t.inner) : s.call = t.call :=
  congrArg Prod.fst h

theorem rx_of_inner {s t : App} (h : s.inner = t.inner) : s.rx = t.rx :=
  congrArg (fun i => i.2.1) h

theorem record_of_inner {s t : App} (h : s.inner = t.inner) : s.record = t.record :=
  congrArg (fun i => i.2.2.1) h

theorem audioEnV2_of_inner {s t : App} (h : s.inner = t.inner) : s.audioEnV2 = t.audioEnV2 :=
  congrArg (fun i => i.2.2.2) h

/-- Switching the voice device off is about its flag alone. -/
theorem audioStopV2_eq (s : App) :
    (audioStopV2 s).call = s.call ∧ (audioStopV2 s).rx = s.rx := by
  unfold audioStopV2
  split
  · exact ⟨rfl, rfl⟩
  · exact ⟨rfl, rfl⟩

/-- The end of a call: idle, and the variables cleared. -/
def quit (s : App) : App := clearVars (callOver s)

/-- What `quit` leaves is made of what was there. -/
theorem quit_inner {s t : App} (h : s.inner = t.inner) : (quit s).inner = (quit t).inner := by
  unfold App.inner quit clearVars callOver
  rw [call_of_inner h, rx_of_inner h, record_of_inner h, audioEnV2_of_inner h]

@[simp] theorem log_inner (o : Out) (s : App) : (s.log o).inner = s.inner := rfl

@[simp] theorem postAudio_inner (m : AudioMsg) (s : App) : (s.postAudio m).inner = s.inner := rfl

@[simp] theorem newConnect_inner (ret : Int) (s : App) : (newConnect ret s).inner = s.inner := rfl

@[simp] theorem sendCallFrame_inner (cmd : SocketInstruction) (road code : UInt8) (imei : Mem)
    (s : App) : (sendCallFrame cmd road code imei s).inner = s.inner := rfl

@[simp] theorem poke_inner (i : Nat) (bs : List UInt8) (s : App) : (poke i bs s).inner = s.inner :=
  rfl

@[simp] theorem pokeFrom_inner (i : Nat) (src : Mem) (n : Nat) (s : App) :
    (pokeFrom i src n s).inner = s.inner := rfl

@[simp] theorem socketSend_inner (buf : Mem) (n : Nat) (s : App) :
    (s.socketSend buf n).inner = s.inner := rfl

@[simp] theorem sendHandle_inner (n : Nat) (s : App) : (sendHandle n s).inner = s.inner := rfl

@[simp] theorem relayCmd_inner (on : UInt8) (s : App) : (relayCmd on s).inner = s.inner := rfl

@[simp] theorem dropSocket_inner (s : App) : (dropSocket s).inner = s.inner := rfl

theorem clearVars_inner {s t : App} (h : s.inner = t.inner) :
    (clearVars s).inner = (clearVars t).inner := by
  unfold App.inner clearVars
  rw [call_of_inner h, rx_of_inner h, record_of_inner h, audioEnV2_of_inner h]

theorem overtimeIdle_inner (s : App) : (overtimeIdle s).inner = (quit s).inner := by
  have h : (relayCmd 0 (s.postAudio .hmiNews2)).inner = s.inner := by simp
  exact quit_inner h

theorem overtimeClose_inner (s : App) : (overtimeClose s).inner = (quit s).inner :=
  clearVars_inner (relayCmd_inner 0 (callOver s))

theorem callingRepeat_inner (io : Platform) (s : App) : (callingRepeat io s).inner = s.inner := by
  unfold callingRepeat
  split
  · simp
  · rfl

theorem ringingSwitch_inner (io : Platform) (s : App) : (ringingSwitch io s).inner = s.inner := by
  unfold ringingSwitch
  split
  · simp
  · rfl

theorem callingEnd_inner (io : Platform) (s : App) :
    (callingEnd io s).inner = (if s.call.callUserTim > callMaxTim then quit s else s).inner := by
  unfold callingEnd
  split
  · rw [overtimeIdle_inner]
    exact quit_inner (by simp)
  · rfl

theorem ringingEnd_inner (io : Platform) (s : App) :
    (ringingEnd io s).inner = (if s.call.callUserTim > callMaxTim then quit s else s).inner := by
  unfold ringingEnd
  split
  · rw [overtimeIdle_inner]
    exact quit_inner (by simp)
  · rfl

theorem connectedEnd_inner (io : Platform) (s : App) :
    (connectedEnd io s).inner = (if s.call.callUserTim > callMaxTim then quit s else s).inner := by
  unfold connectedEnd
  split
  · rw [dropSocket_inner, overtimeClose_inner]
    exact quit_inner (by simp)
  · rfl

theorem calledEnd_inner (io : Platform) (s : App) :
    (calledEnd io s).inner = (if s.call.callUserTim > callMaxTim then quit s else s).inner := by
  unfold calledEnd
  split
  · rw [overtimeClose_inner]
    exact quit_inner (by simp)
  · rfl

/-- A call that is over has no time that could be over. -/
theorem overtimeClose_tim (s : App) : ¬ (overtimeClose s).call.callUserTim > callMaxTim := by
  show ¬ (0 : UInt8) > callMaxTim
  decide

/-- After too long a silence the second test finds nothing to do. -/
theorem connectedQuiet_end_inner (io : Platform) (s : App) :
    (connectedEnd io (connectedQuiet s)).inner =
      (if s.link.heartbeatTim > callReceptionTimeout ∨ s.call.callUserTim > callMaxTim then quit s
        else s).inner := by
  rw [connectedEnd_inner]
  by_cases hq : s.link.heartbeatTim > callReceptionTimeout
  · have hquiet : connectedQuiet s = overtimeClose (s.log .socketClose) := if_pos hq
    rw [hquiet, if_pos (Or.inl hq), if_neg (overtimeClose_tim _), overtimeClose_inner]
    exact quit_inner (log_inner _ s)
  · have hquiet : connectedQuiet s = s := if_neg hq
    rw [hquiet]
    simp only [hq, false_or]

theorem calledQuiet_end_inner (io : Platform) (s : App) :
    (calledEnd io (calledQuiet s)).inner =
      (if s.link.heartbeatTim > callReceptionTimeout ∨ s.call.callUserTim > callMaxTim then quit s
        else s).inner := by
  rw [calledEnd_inner]
  by_cases hq : s.link.heartbeatTim > callReceptionTimeout
  · have hquiet : calledQuiet s = overtimeClose ((s.log .socketClose).postAudio .hmiNews2) :=
      if_pos hq
    rw [hquiet, if_pos (Or.inl hq), if_neg (overtimeClose_tim _), overtimeClose_inner]
    exact quit_inner (by simp)
  · have hquiet : calledQuiet s = s := if_neg hq
    rw [hquiet]
    simp only [hq, false_or]

/-- **Message 126.** -/
theorem callOvertimeFun_inner (io : Platform) (s : App) :
    (callOvertimeFun io s).inner =
      (if timesOut s then quit (callSecond s) else callSecond s).inner := by
  have hcond : ∀ {c : Prop} [Decidable c], (c ↔ timesOut s) →
      (if c then quit (callSecond s) else callSecond s).inner =
        (if timesOut s then quit (callSecond s) else callSecond s).inner := by
    intro c _ hc
    simp only [hc]
  have hstart : ∀ {c : Prop} [Decidable c] {t : App}, t.inner = (callSecond s).inner →
      (if c then quit t else t).inner =
        (if c then quit (callSecond s) else callSecond s).inner := by
    intro c _ t ht
    split
    · exact quit_inner ht
    · exact ht
  unfold callOvertimeFun overtimeOf
  split
  · next h1 =>
      have h1 : s.call.callUserOperation = 1 := h1
      rw [callingEnd_inner, hstart (callingRepeat_inner io _), callingRepeat_call]
      exact hcond (by simp [timesOut, callSecond, h1])
  · split
    · next h2 =>
        have h2 : s.call.callUserOperation = 2 := h2
        rw [ringingEnd_inner, hstart (ringingSwitch_inner io _), ringingSwitch_call]
        exact hcond (by simp [timesOut, callSecond, h2])
    · split
      · next h3 =>
          have h3 : s.call.callUserOperation = 3 := h3
          rw [connectedQuiet_end_inner]
          exact hcond (by simp [timesOut, callSecond, h3])
      · split
        · next h5 =>
            have h5 : s.call.callUserOperation = 5 := h5
            rw [calledQuiet_end_inner]
            exact hcond (by simp [timesOut, callSecond, h5])
        · next h1 h2 h3 h5 =>
            have hno : ¬ timesOut s := by
              rintro (⟨h | h, -⟩ | ⟨h | h, -⟩)
              · exact h1 h
              · exact h2 h
              · exact h3 h
              · exact h5 h
            rw [if_neg hno]

/-! ## The other messages -/

/-- The messages that only report change nothing of it. -/
theorem report_inner (io : Platform) (s : App) :
    (message121 io s).inner = s.inner ∧ (message123 io s).inner = s.inner ∧
      (sendHeartbeat io s).inner = s.inner ∧ (message128 io s).inner = s.inner ∧
        (message129 io s).inner = s.inner ∧ (message130 io s).inner = s.inner ∧
          (message131 io s).inner = s.inner ∧ (message132 io s).inner = s.inner := by
  refine ⟨?_, ?_, ?_, ?_, ?_, ?_, ?_, ?_⟩
  · unfold message121
    dsimp only
    split
    · simp
    · simp
  · simp [message123]
  · simp [sendHeartbeat]
  · simp [message128]
  · simp [message129, alarmFrame]
  · show (newDay io s).inner = s.inner
    unfold newDay
    split <;> rfl
  · simp [message131, countFrame]
  · simp [message132]

/-- Message 127 takes the markers. -/
theorem message127_inner (s : App) :
    (message127 s).inner = ({ s with call := (takeMarkers s.call).2 } : App).inner := by
  simp [message127]

/-- What a message makes of it. -/
def innerAfter (m : SocketMsg) (s : App) : App :=
  match m with
  | .msg124 => if s.call.callUserOperation = 0 then clearVars s else s
  | .msg125 => if s.record.audioDataEn = 0 then s else { s with record := voiceSent s.record }
  | .msg126 => if timesOut s then quit (callSecond s) else callSecond s
  | .msg127 => { s with call := (takeMarkers s.call).2 }
  | .msg133 =>
      if broadcastTimesOut s then
        audioStopV2 { s with call.isMailListALL := 0, call.mailListALLTim := 0 }
      else s
  | _ => s

theorem message124_inner (io : Platform) (s : App) :
    (message124 io s).inner = (innerAfter .msg124 s).inner := by
  have hbeat := (report_inner io s).2.2.1
  unfold message124 innerAfter
  dsimp only
  split
  · rw [relayCmd_inner]
    exact clearVars_inner hbeat
  · exact hbeat

theorem message133_inner (s : App) : (message133 s).inner = (innerAfter .msg133 s).inner := by
  by_cases h : broadcastTimesOut s
  · have hover : message133 s = sendUart3Write 0x02 0 0
        (audioStopV2 { s with call.isMailListALL := 0, call.mailListALLTim := 0 }) := if_pos h
    rw [hover, innerAfter, if_pos h]
    rfl
  · have hkeep : message133 s = s := if_neg h
    rw [hkeep, innerAfter, if_neg h]

/-- **A message of the socket thread** other than 122. -/
theorem socketTestThread_inner (io : Platform) (m : SocketMsg) (s : App) :
    (socketTestThread io m s).inner = (innerAfter m s).inner := by
  obtain ⟨h121, h123, -, h128, h129, h130, h131, h132⟩ := report_inner io s
  cases m with
  | msg120 =>
      show (socketEnter io (waitForNet _ _ s)).inner = s.inner
      rw [waitForNet_eq]
      unfold socketEnter
      split <;> rfl
  | msg121 => exact h121
  | msg122 n => rfl
  | msg123 => exact h123
  | msg124 => exact message124_inner io s
  | msg125 =>
      show (message125 io s).inner = (innerAfter .msg125 s).inner
      unfold message125 innerAfter
      dsimp only
      split <;> rfl
  | msg126 => exact callOvertimeFun_inner io s
  | msg127 => exact message127_inner s
  | msg128 => exact h128
  | msg129 => exact h129
  | msg130 => exact h130
  | msg131 => exact h131
  | msg132 => exact h132
  | msg133 => exact message133_inner s

end IntercomSalve
