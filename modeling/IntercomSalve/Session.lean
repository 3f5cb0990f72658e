/-
# `Session` — the call, the broadcast and the voice device as one small machine

Fifteen places in two threads write `call_user_operation`, and the flags around it
(`mail_list_id`, `is_mail_list_ALL`, `audio_en_v2`, the positions of the recorder)
are written in as many.  `Session` is what these flags say, `Event` what can happen
to them, and `Event.after` what each event makes of them.  `eventOf` reads off the
state before a step which event the step is; nothing in it is computed by a handler.

`Steps.session_eq` says that the firmware is this machine, and `Runs.session_eq`
says it of whole runs.  How a call begins, goes on and ends is then a question about
events.
-/
import IntercomSalve.Messages
import IntercomSalve.Reads

namespace IntercomSalve

open Goto

/-- The flags of the call, the broadcast and the voice device. -/
structure Session where
  callUserOperation : UInt8
  mailListId : UInt8
  isMailListALL : UInt8
  audioEnV2 : UInt8
  audioDataNum : Nat
  audioDataNumSend : Nat
  audioDataEn : Nat

/-- What the globals say of them. -/
def App.session (s : App) : Session where
  callUserOperation := s.call.callUserOperation
  mailListId := s.call.mailListId
  isMailListALL := s.call.isMailListALL
  audioEnV2 := s.audioEnV2
  audioDataNum := s.record.audioDataNum
  audioDataNumSend := s.record.audioDataNumSend
  audioDataEn := s.record.audioDataEn

/-- What can happen to a session. -/
inductive Event where
  /-- nothing that concerns it -/
  | nothing
  /-- a button starts a call -/
  | button
  /-- our call rings -/
  | ringing
  /-- a frame is taken for one that accepts our call -/
  | accepted
  /-- a frame is taken for the end of the call (busy, refused, hung up), which may be over already,
  or have never been -/
  | ended
  /-- the call of another is answered -/
  | answered
  /-- the call of another finds us busy -/
  | marked
  /-- the hang-up of the one who found us busy -/
  | unmarked
  /-- the timer ends the call -/
  | timedOut
  /-- a heartbeat without a call clears the variables -/
  | idleHeartbeat
  | broadcastOn
  | broadcastOff
  /-- the timer ends the broadcast -/
  | broadcastOver
  /-- `MSG_EVT_HMI_NEWS`: the voice device starts -/
  | talk
  /-- `audio_stop_v2` -/
  | deviceOff
  /-- a prompt finds the voice device on -/
  | promptStops
  /-- `AudioRecordCb` stores a frame of `len` bytes -/
  | recorded (len : Nat)
  /-- message 125 sends a packet -/
  | voiceSent
  deriving DecidableEq

/-- A position of the recorder, moved on by `n`. -/
def recordWrap (n : Nat) : Nat := if audioDataMax ≤ n then n - audioDataMax else n

/-- What an event makes of a session. -/
def Event.after (e : Event) (s : Session) : Session :=
  match e with
  | nothing => s
  | button => { s with callUserOperation := 1 }
  | ringing => { s with callUserOperation := 2 }
  | accepted => { s with callUserOperation := 3, mailListId := 0, audioDataNumSend := 0 }
  | ended => { s with callUserOperation := 0 }
  | answered => { s with callUserOperation := 5, mailListId := 0, audioDataNumSend := 0 }
  | marked => { s with mailListId := 1 }
  | unmarked => { s with mailListId := 0 }
  | timedOut => { s with callUserOperation := 0, mailListId := 0, audioDataNumSend := 0 }
  | idleHeartbeat => { s with mailListId := 0, audioDataNumSend := 0 }
  | broadcastOn => { s with isMailListALL := 1 }
  | broadcastOff => { s with isMailListALL := 0 }
  | broadcastOver =>
      { s with isMailListALL := 0, audioEnV2 := if s.audioEnV2 = 1 then 0 else s.audioEnV2 }
  | talk => { s with audioEnV2 := 1, audioDataNum := 0, audioDataEn := 0 }
  | deviceOff =>
      { s with audioEnV2 := if s.audioEnV2 = 1 ∨ s.isMailListALL = 1 then 0 else s.audioEnV2 }
  | promptStops => { s with audioEnV2 := 0 }
  | recorded len =>
      { s with audioDataNum := recordWrap (s.audioDataNum + len / 4),
               audioDataEn := s.audioDataEn + 1 }
  | voiceSent =>
      { s with audioDataNumSend := recordWrap (s.audioDataNumSend + audioDataEnMax),
               audioDataEn := s.audioDataEn - 1 }

/-! ## Which event a step is -/

/-- The answer to our call at the cursor. -/
def dialEvent (s : App) : Event :=
  match CallReturn.ofCode (s.rx.byteAt 9) with
  | some .return0 =>
      if s.call.callUserOperation = 1 ∧ (breakOtherChannel s.call).isNone then .ended else .nothing
  | some .return1 => .ringing
  | some .return2 | some .return4 => .accepted
  | some .return3 | some .return5 =>
      if (breakOtherChannel s.call).isNone then .ended else .nothing
  | none => .nothing

/-- The call request at the cursor. -/
def calledEvent (s : App) : Event :=
  if s.call.isMailListALL ≠ 0 then .nothing
  else
    match DialReqReqCall.ofCode (s.rx.byteAt 9) with
    | some .call1 => if s.call.callUserOperation ≠ 0 then .marked else .answered
    | some .call2 | some .call4 => if s.call.mailListId ≠ 0 then .unmarked else .ended
    | some .call3 | none => .nothing

/-- The broadcast frame at the cursor. -/
def broadcastEvent (s : App) : Event :=
  if s.rx.byteAt 8 = 1 then (if s.call.isMailListALL = 0 then .broadcastOn else .nothing)
  else if s.call.isMailListALL = 1 then .broadcastOff
  else .nothing

/-- The frame of command `c` at the cursor. -/
def frameEvent (c : SocketInstruction) (s : App) : Event :=
  match c with
  | .instruction4 => dialEvent s
  | .instruction5 => calledEvent s
  | .instruction34 => broadcastEvent s
  | _ => .nothing

/-- The command of the frame that the next pass of the loop reads, if it reads one. -/
def frameAt (x : Sys) : Option SocketInstruction :=
  match x.atIsCmd with
  | some ret => if x.app.rx.handleDeviation < ret ∧ headerAt x.app then caseAt x.app else none
  | none => none

/-- A message of the socket thread. -/
def messageEvent (m : SocketMsg) (s : App) : Event :=
  match m with
  | .msg124 => if s.call.callUserOperation = 0 then .idleHeartbeat else .nothing
  | .msg125 => if s.record.audioDataEn = 0 then .nothing else .voiceSent
  | .msg126 => if timesOut s then .timedOut else .nothing
  | .msg133 => if broadcastTimesOut s then .broadcastOver else .nothing
  | _ => .nothing

/-- What is read on UART3 is a button frame, and starts a call. -/
def buttonStarts (io : Platform) (s : App) : Prop :=
  s.link.mailListTim = 0 ∧ 2 ≤ io.uartAvailable ∧ isUart3Frame (readTemp io s).uart.temp ∧
    (readTemp io s).uart.temp 4 = 1 ∧ s.call.isHostBusy = 0 ∧ s.call.callUserOperation = 0

instance (io : Platform) (s : App) : Decidable (buttonStarts io s) := by
  unfold buttonStarts
  infer_instance

/-- A message of the audio thread. -/
def audioEvent (io : Platform) (m : AudioMsg) (s : App) : Event :=
  match m with
  | .uart3Read => if buttonStarts io s then .button else .nothing
  | .hmiNews => .talk
  | .hmiNews2 | .hmiNews3 | .hmiNews4 => .deviceOff
  | _ => .nothing

/-- A message of the prompt thread. -/
def promptEvent (m : Mp3Msg) (s : App) : Event :=
  match m with
  | .audio _ | .stop _ => if s.audioEnV2 ≠ 0 then .promptStops else .nothing
  | .stopAudioStart => .nothing

/-- A frame of the microphone. -/
def recordEvent (len : Nat) (s : App) : Event :=
  if s.call.isMailListALL ≠ 0 then .nothing
  else if s.link.socketFd = -1 ∨ s.call.callUserOperation = 0 then .deviceOff
  else .recorded len

/-- **The event of a step.** -/
def eventOf (a : Act) (x : Sys) : Event :=
  match a with
  | .isCmd =>
      match frameAt x with
      | some c => frameEvent c x.app
      | none => .nothing
  | .socket _ =>
      match x.app.socketMsgs with
      | m :: _ => messageEvent m x.app
      | [] => .nothing
  | .audio io =>
      match x.app.audioMsgs with
      | m :: _ => audioEvent io m x.app
      | [] => .nothing
  | .mp3 _ =>
      match x.app.mp3Msgs with
      | m :: _ => promptEvent m x.app
      | [] => .nothing
  | .audioRecordCb _ len => recordEvent len x.app
  | _ => .nothing

/-! ## Which steps make an event -/

/-- The event of a step comes from the frame that the pass reads, from the message that
is taken, or from the frame of the microphone. -/
inductive EventFrom (x : Sys) : Act → Event → Prop
  | nothing {a : Act} : EventFrom x a .nothing
  | frame {c : SocketInstruction} : frameAt x = some c → EventFrom x .isCmd (frameEvent c x.app)
  | message {io : Platform} {m : SocketMsg} {ms : List SocketMsg} :
      x.app.socketMsgs = m :: ms → EventFrom x (.socket io) (messageEvent m x.app)
  | audio {io : Platform} {m : AudioMsg} {ms : List AudioMsg} :
      x.app.audioMsgs = m :: ms → EventFrom x (.audio io) (audioEvent io m x.app)
  | prompt {io : Platform} {m : Mp3Msg} {ms : List Mp3Msg} :
      x.app.mp3Msgs = m :: ms → EventFrom x (.mp3 io) (promptEvent m x.app)
  | record {buff : Mem} {len : Nat} :
      EventFrom x (.audioRecordCb buff len) (recordEvent len x.app)

theorem eventOf_from (a : Act) (x : Sys) : EventFrom x a (eventOf a x) := by
  cases a with
  | isCmd =>
      simp only [eventOf]
      split
      · next hc => exact .frame hc
      · exact .nothing
  | socket io =>
      simp only [eventOf]
      split
      · next hm => exact .message hm
      · exact .nothing
  | audio io =>
      simp only [eventOf]
      split
      · next hm => exact .audio hm
      · exact .nothing
  | mp3 io =>
      simp only [eventOf]
      split
      · next hm => exact .prompt hm
      · exact .nothing
  | audioRecordCb buff len => exact .record
  | _ => exact .nothing

/-- The events that only a frame of the server makes. -/
def Event.ofFrame : Event → Bool
  | ringing | accepted | ended | answered | marked | unmarked | broadcastOn | broadcastOff => true
  | _ => false

theorem messageEvent_ofFrame (m : SocketMsg) (s : App) : (messageEvent m s).ofFrame = false := by
  unfold messageEvent
  repeat' split
  all_goals rfl

theorem audioEvent_ofFrame (io : Platform) (m : AudioMsg) (s : App) :
    (audioEvent io m s).ofFrame = false := by
  unfold audioEvent
  repeat' split
  all_goals rfl

theorem promptEvent_ofFrame (m : Mp3Msg) (s : App) : (promptEvent m s).ofFrame = false := by
  unfold promptEvent
  repeat' split
  all_goals rfl

theorem recordEvent_ofFrame (len : Nat) (s : App) : (recordEvent len s).ofFrame = false := by
  unfold recordEvent
  repeat' split
  all_goals rfl

/-- They are made by the pass that reads the frame. -/
theorem EventFrom.ofFrame {x : Sys} {a : Act} {e : Event} (h : EventFrom x a e)
    (he : e.ofFrame = true) : a = .isCmd ∧ ∃ c, frameAt x = some c ∧ e = frameEvent c x.app := by
  cases h with
  | nothing => exact nomatch he
  | frame hc => exact ⟨rfl, _, hc, rfl⟩
  | message _ =>
      rw [messageEvent_ofFrame] at he
      exact nomatch he
  | audio _ =>
      rw [audioEvent_ofFrame] at he
      exact nomatch he
  | prompt _ =>
      rw [promptEvent_ofFrame] at he
      exact nomatch he
  | record =>
      rw [recordEvent_ofFrame] at he
      exact nomatch he

/-- Which frame makes which event, and when. -/
inductive FrameEvent (s : App) : SocketInstruction → Event → Prop
  | nothing {c : SocketInstruction} : FrameEvent s c .nothing
  | ringing : s.rx.byteAt 9 = CallReturn.return1.code → FrameEvent s .instruction4 .ringing
  | accepted :
      s.rx.byteAt 9 = CallReturn.return2.code ∨ s.rx.byteAt 9 = CallReturn.return4.code →
      FrameEvent s .instruction4 .accepted
  | busy : s.rx.byteAt 9 = CallReturn.return0.code → s.call.callUserOperation = 1 →
      (breakOtherChannel s.call).isNone → FrameEvent s .instruction4 .ended
  | refused : s.rx.byteAt 9 = CallReturn.return3.code ∨ s.rx.byteAt 9 = CallReturn.return5.code →
      (breakOtherChannel s.call).isNone → FrameEvent s .instruction4 .ended
  | answered : s.call.isMailListALL = 0 → s.rx.byteAt 9 = DialReqReqCall.call1.code →
      s.call.callUserOperation = 0 → FrameEvent s .instruction5 .answered
  | marked : s.call.isMailListALL = 0 → s.rx.byteAt 9 = DialReqReqCall.call1.code →
      s.call.callUserOperation ≠ 0 → FrameEvent s .instruction5 .marked
  | unmarked : s.call.isMailListALL = 0 →
      s.rx.byteAt 9 = DialReqReqCall.call2.code ∨ s.rx.byteAt 9 = DialReqReqCall.call4.code →
      s.call.mailListId ≠ 0 → FrameEvent s .instruction5 .unmarked
  | hungUp : s.call.isMailListALL = 0 →
      s.rx.byteAt 9 = DialReqReqCall.call2.code ∨ s.rx.byteAt 9 = DialReqReqCall.call4.code →
      s.call.mailListId = 0 → FrameEvent s .instruction5 .ended
  | broadcastOn : s.rx.byteAt 8 = 1 → s.call.isMailListALL = 0 →
      FrameEvent s .instruction34 .broadcastOn
  | broadcastOff : s.rx.byteAt 8 ≠ 1 → s.call.isMailListALL = 1 →
      FrameEvent s .instruction34 .broadcastOff

theorem dialEvent_is (s : App) : FrameEvent s .instruction4 (dialEvent s) := by
  unfold dialEvent
  split
  · next hc =>
      split
      · next hb => exact .busy (CallReturn.ofCode_eq_some.mp hc) hb.1 hb.2
      · exact .nothing
  · next hc => exact .ringing (CallReturn.ofCode_eq_some.mp hc)
  · next hc => exact .accepted (Or.inl (CallReturn.ofCode_eq_some.mp hc))
  · next hc => exact .accepted (Or.inr (CallReturn.ofCode_eq_some.mp hc))
  · next hc =>
      split
      · next hb => exact .refused (Or.inl (CallReturn.ofCode_eq_some.mp hc)) hb
      · exact .nothing
  · next hc =>
      split
      · next hb => exact .refused (Or.inr (CallReturn.ofCode_eq_some.mp hc)) hb
      · exact .nothing
  · exact .nothing

theorem calledEvent_is (s : App) : FrameEvent s .instruction5 (calledEvent s) := by
  unfold calledEvent
  split
  · exact .nothing
  · next hall =>
      have hall : s.call.isMailListALL = 0 := not_not.mp hall
      split
      · next hc =>
          have hc := DialReqReqCall.ofCode_eq_some.mp hc
          split
          · next hop => exact .marked hall hc hop
          · next hop => exact .answered hall hc (not_not.mp hop)
      · next hc =>
          have hc := DialReqReqCall.ofCode_eq_some.mp hc
          split
          · next hid => exact .unmarked hall (Or.inl hc) hid
          · next hid => exact .hungUp hall (Or.inl hc) (not_not.mp hid)
      · next hc =>
          have hc := DialReqReqCall.ofCode_eq_some.mp hc
          split
          · next hid => exact .unmarked hall (Or.inr hc) hid
          · next hid => exact .hungUp hall (Or.inr hc) (not_not.mp hid)
      · exact .nothing
      · exact .nothing

theorem broadcastEvent_is (s : App) : FrameEvent s .instruction34 (broadcastEvent s) := by
  unfold broadcastEvent
  split
  · next h8 =>
      split
      · next hall => exact .broadcastOn h8 hall
      · exact .nothing
  · next h8 =>
      split
      · next hall => exact .broadcastOff h8 hall
      · exact .nothing

theorem frameEvent_is (c : SocketInstruction) (s : App) : FrameEvent s c (frameEvent c s) := by
  cases c with
  | instruction4 => exact dialEvent_is s
  | instruction5 => exact calledEvent_is s
  | instruction34 => exact broadcastEvent_is s
  | _ => exact .nothing

/-- A call is started by a button frame that the audio thread reads. -/
theorem EventFrom.button {x : Sys} {a : Act} (h : EventFrom x a .button) :
    ∃ io ms, a = .audio io ∧ x.app.audioMsgs = .uart3Read :: ms ∧ buttonStarts io x.app := by
  generalize he : Event.button = e at h
  cases h with
  | nothing => exact nomatch he
  | @frame c hc =>
      have hf := frameEvent_is c x.app
      rw [← he] at hf
      exact nomatch hf
  | message hm =>
      unfold messageEvent at he
      repeat' split at he
      all_goals exact nomatch he
  | @audio io m ms hm =>
      unfold audioEvent at he
      split at he
      · split at he
        · next hb => exact ⟨io, ms, rfl, hm, hb⟩
        · exact nomatch he
      all_goals exact nomatch he
  | prompt hm =>
      unfold promptEvent at he
      repeat' split at he
      all_goals exact nomatch he
  | record =>
      unfold recordEvent at he
      repeat' split at he
      all_goals exact nomatch he

theorem eventOf_isCmd {x : Sys} {c : SocketInstruction} (h : frameAt x = some c) :
    eventOf .isCmd x = frameEvent c x.app := by
  simp only [eventOf, h]

/-! ## Message 122 -/

theorem frameAt_some {ret : Nat} {s : App} (hlt : s.rx.handleDeviation < ret) (hh : headerAt s) :
    frameAt ⟨s, some ret⟩ = caseAt s :=
  if_pos ⟨hlt, hh⟩

/-- A pass reads a frame and runs its case, or does nothing but move. -/
theorem isCmd_frameAt (ret : Nat) (s : App) :
    (∃ c, frameAt ⟨s, some ret⟩ = some c ∧ isCmd ret s = caseOf ret c (opened c s)) ∨
      frameAt ⟨s, some ret⟩ = none ∧
        ∃ r l, (isCmd ret s).state = { s with rx := r, link := l } := by
  unfold isCmd
  split
  · next hlt =>
      split
      · next hh =>
          rw [frameAt_some hlt hh]
          cases hc : caseAt s with
          | some c => exact Or.inl ⟨c, rfl, dispatch_some hc⟩
          | none =>
              rw [dispatch_none hc]
              exact Or.inr ⟨rfl, (readHeader s).rx, (readHeader s).link, rfl⟩
      · next hh => exact Or.inr ⟨if_neg fun h => hh h.2, _, s.link, rfl⟩
  · next hlt => exact Or.inr ⟨if_neg fun h => hlt h.1, s.rx, s.link, rfl⟩

/-- A marker of another channel is taken back; the session does not see it. -/
theorem breakOtherChannel_session {s : App} {c : Call} (h : breakOtherChannel s.call = some c) :
    { s with call := c }.session = s.session := by
  unfold breakOtherChannel at h
  repeat' split at h
  all_goals first | (obtain rfl := Option.some.inj h; rfl) | exact nomatch h

theorem dialBusy_session (s : App) :
    (dialBusy s).session =
      (if s.call.callUserOperation = 1 ∧ (breakOtherChannel s.call).isNone then Event.ended
        else .nothing).after s.session := by
  unfold dialBusy
  split
  · next h1 =>
      cases hb : breakOtherChannel s.call with
      | some c =>
          rw [if_neg (by simp)]
          exact breakOtherChannel_session hb
      | none =>
          rw [if_pos ⟨h1, rfl⟩]
          rfl
  · next h1 =>
      rw [if_neg fun h => h1 h.1]
      rfl

theorem dialRefused_session (s : App) :
    (dialRefused s).session =
      (if (breakOtherChannel s.call).isNone then Event.ended else .nothing).after s.session := by
  unfold dialRefused
  cases hb : breakOtherChannel s.call with
  | some c =>
      rw [if_neg (by simp)]
      exact breakOtherChannel_session hb
  | none => rfl

theorem dial_session (s : App) :
    (dialReqReqCallReturnHander s).session = (dialEvent s).after s.session := by
  unfold dialReqReqCallReturnHander dialEvent
  cases CallReturn.ofCode (s.rx.byteAt 9) with
  | none => rfl
  | some r =>
      cases r with
      | return0 => exact dialBusy_session s
      | return1 => rfl
      | return2 => rfl
      | return3 => exact dialRefused_session s
      | return4 => rfl
      | return5 => exact dialRefused_session s

theorem calledAnswer_session (s : App) :
    (calledAnswer s).session =
      (if s.call.callUserOperation ≠ 0 then Event.marked else .answered).after s.session := by
  unfold calledAnswer
  split <;> rfl

theorem calledHangUp_session (s : App) :
    (calledHangUp s).session =
      (if s.call.mailListId ≠ 0 then Event.unmarked else .ended).after s.session := by
  unfold calledHangUp
  split <;> rfl

theorem called_session (s : App) :
    (calledReqReqCallReturnHander s).session = (calledEvent s).after s.session := by
  unfold calledReqReqCallReturnHander calledEvent
  split
  · rfl
  · cases DialReqReqCall.ofCode (s.rx.byteAt 9) with
    | none => rfl
    | some r =>
        cases r with
        | call1 => exact calledAnswer_session s
        | call2 => exact calledHangUp_session s
        | call3 => rfl
        | call4 => exact calledHangUp_session s

theorem voiceFrame_session (n ret : Nat) (s : App) :
    (voiceFrame n ret s).state.session = s.session := by
  unfold voiceFrame
  split <;> rfl

theorem broadcastStart_session (s : App) :
    (broadcastStart s).session =
      (if s.call.isMailListALL = 0 then Event.broadcastOn else .nothing).after s.session := by
  unfold broadcastStart
  split <;> rfl

theorem broadcastStop_session (s : App) :
    (broadcastStop s).session =
      (if s.call.isMailListALL = 1 then Event.broadcastOff else .nothing).after s.session := by
  unfold broadcastStop
  split <;> rfl

theorem broadcastVoice_session (ret : Nat) (s : App) :
    (broadcastVoice ret s).state.session = s.session := by
  have hv : (voiceFrame 10 ret (setLength 80 s)).state.session = s.session :=
    voiceFrame_session 10 ret (setLength 80 s)
  unfold broadcastVoice
  split
  · next u hu =>
      rw [hu] at hv
      exact hv
  · next u hu =>
      rw [hu] at hv
      exact hv

theorem broadcastFrame_session (ret : Nat) (s : App) :
    (broadcastFrame ret s).state.session = (broadcastEvent s).after s.session := by
  unfold broadcastFrame broadcastEvent
  split
  · rw [broadcastVoice_session, broadcastStart_session]
    rfl
  · exact broadcastStop_session (asVoice s)

theorem hostList_session (s : App) : (hostList s).session = s.session := by
  unfold hostList Call.hosts
  dsimp only
  split
  · split <;> rfl
  · rfl

/-- The case of a frame. -/
theorem caseOf_session (ret : Nat) (c : SocketInstruction) (s : App) :
    (caseOf ret c s).state.session = (frameEvent c s).after s.session := by
  cases c with
  | instruction4 => exact dial_session s
  | instruction5 => exact called_session s
  | instruction10 => exact voiceFrame_session 8 ret s
  | instruction21 => exact hostList_session s
  | instruction34 => exact broadcastFrame_session ret s
  | _ => rfl

/-- **A pass of the loop.** -/
theorem isCmd_session (ret : Nat) (s : App) :
    (isCmd ret s).state.session = (eventOf .isCmd ⟨s, some ret⟩).after s.session := by
  rcases isCmd_frameAt ret s with ⟨c, hc, h⟩ | ⟨hc, r, l, h⟩
  · have hevent : eventOf .isCmd ⟨s, some ret⟩ = frameEvent c (opened c s) := by
      simp only [eventOf, hc]
      rfl
    rw [h, caseOf_session, hevent]
    rfl
  · have hevent : eventOf .isCmd ⟨s, some ret⟩ = .nothing := by
      simp only [eventOf, hc]
    rw [h, hevent]
    rfl

theorem message122_session (n : Nat) (chunk : List UInt8) (s : App) :
    (message122 n chunk s).state.session = s.session := by
  unfold message122
  split
  · rfl
  · split
    · unfold resumeVoice
      split
      · split <;> rfl
      · rfl
    · rfl

/-! ## The other messages of the socket thread -/

theorem audioStopV2_session (s : App) :
    (audioStopV2 s).session = Event.deviceOff.after s.session := by
  unfold audioStopV2
  by_cases h : s.audioEnV2 = 1 ∨ s.call.isMailListALL = 1
  · rw [if_pos h]
    simp [App.session, Event.after, App.log, h]
  · rw [if_neg h]
    simp [App.session, Event.after, h]

/-- `audio_stop_v2` after the broadcast flag is cleared. -/
theorem deviceOff_after_clear (s : Session) :
    Event.deviceOff.after { s with isMailListALL := 0 } = Event.broadcastOver.after s := by
  have h0 : ¬ (0 : UInt8) = 1 := by decide
  simp only [Event.after, h0, or_false]

theorem Tick.session_eq {s t : App} (h : Tick s t) : t.session = s.session := by
  cases h <;> rfl

theorem Ticks.session_eq {s t : App} (h : Ticks s t) : t.session = s.session :=
  h.keeps_eq fun _ _ => Tick.session_eq

theorem session_of_inner {s t : App} (h : s.inner = t.inner) : s.session = t.session := by
  unfold App.session
  rw [call_of_inner h, record_of_inner h, audioEnV2_of_inner h]

/-- **The socket thread**, outside message 122. -/
theorem socketTestThread_session (io : Platform) (m : SocketMsg) (s : App) :
    (socketTestThread io m s).session = (messageEvent m s).after s.session := by
  refine (session_of_inner (socketTestThread_inner io m s)).trans ?_
  unfold innerAfter messageEvent
  cases m with
  | msg124 =>
      dsimp only
      split <;> rfl
  | msg125 =>
      dsimp only
      split <;> rfl
  | msg126 =>
      dsimp only
      split <;> rfl
  | msg133 =>
      dsimp only
      split
      · rw [← deviceOff_after_clear]
        exact audioStopV2_session _
      · rfl
  | _ => rfl

/-! ## The timer, the audio side, and the step -/

theorem buttonFrame_session (s : App) :
    (buttonFrame s).session =
      (if s.call.isHostBusy = 0 ∧ s.call.callUserOperation = 0 then Event.button
        else .nothing).after s.session := by
  unfold buttonFrame
  split
  · next hb =>
      rw [if_neg fun h => hb h.1]
      rfl
  · next hb =>
      split
      · next h0 =>
          rw [if_pos ⟨not_not.mp hb, h0⟩]
          rfl
      · next h0 =>
          simp only [h0, and_false, if_false]
          split
          · rfl
          · unfold buttonBusy
            dsimp only
            repeat' split
            all_goals rfl

theorem uart3Frame_session (s : App) :
    (uart3Frame s).session =
      (if s.uart.temp 4 = 1 ∧ s.call.isHostBusy = 0 ∧ s.call.callUserOperation = 0 then Event.button
        else .nothing).after s.session := by
  unfold uart3Frame
  split
  · next h1 =>
      rw [buttonFrame_session]
      simp only [h1, true_and]
  · next h1 =>
      simp only [h1, false_and, if_false]
      repeat' split
      all_goals rfl

theorem uart3Read_session (io : Platform) (s : App) :
    (uart3Read io s).session =
      (if buttonStarts io s then Event.button else .nothing).after s.session := by
  unfold uart3Read
  by_cases hread : s.link.mailListTim ≠ 0 ∨ io.uartAvailable < 2
  · rw [if_pos hread, if_neg (by rintro ⟨h1, h2, -⟩; rcases hread with h | h <;> [exact h h1; omega])]
    rfl
  · have h1 : s.link.mailListTim = 0 := not_not.mp fun h => hread (Or.inl h)
    have h2 : 2 ≤ io.uartAvailable := Nat.le_of_not_lt fun h => hread (Or.inr h)
    rw [if_neg hread]
    by_cases hf : isUart3Frame (readTemp io s).uart.temp
    · rw [if_pos hf, uart3Frame_session]
      simp only [buttonStarts, h1, h2, hf, true_and]
      rfl
    · rw [if_neg hf, if_neg fun h => hf h.2.2.1]
      rfl

theorem hmiPrompt_session (f : Mp3File) (s : App) :
    (hmiPrompt f s).session = Event.deviceOff.after s.session :=
  audioStopV2_session { s with timerStart := false }

theorem audioDuplexthread_session (io : Platform) (m : AudioMsg) (s : App) :
    (audioDuplexthread io m s).session = (audioEvent io m s).after s.session := by
  cases m with
  | uart3Read => exact uart3Read_session io s
  | hmiNews2 => exact hmiPrompt_session _ s
  | hmiNews3 => exact hmiPrompt_session _ s
  | hmiNews4 => exact hmiPrompt_session _ s
  | _ => rfl

@[simp] theorem log_session (o : Out) (s : App) : (s.log o).session = s.session := rfl

theorem OnlyPlays.session {s t : App} (h : OnlyPlays s t) : t.session = s.session := by
  obtain ⟨f, os, rfl, -⟩ := h
  rfl

theorem mp3Audio_session (io : Platform) (f : Mp3File) (s : App) :
    (mp3Audio io f s).session =
      (if s.audioEnV2 ≠ 0 then Event.promptStops else .nothing).after s.session := by
  unfold mp3Audio
  split
  · rfl
  · exact (audioPlayMP3_onlyPlays io f _).session

theorem audioPlayMP3Thread_session (io : Platform) (m : Mp3Msg) (s : App) :
    (audioPlayMP3Thread io m s).session = (promptEvent m s).after s.session := by
  cases m with
  | audio f => exact mp3Audio_session io f s
  | stop f => exact mp3Audio_session io f s
  | stopAudioStart =>
      unfold audioPlayMP3Thread
      dsimp only
      split <;> rfl

theorem audioRecordCb_session (buff : Mem) (len : Nat) (s : App) :
    (audioRecordCb buff len s).session = (recordEvent len s).after s.session := by
  unfold audioRecordCb recordEvent
  split
  · rfl
  · next hall =>
      have h0 : s.call.isMailListALL = 0 := not_not.mp hall
      by_cases hoff : s.link.socketFd = -1 ∨ s.call.callUserOperation = 0
      · rw [if_pos (hoff.imp_right fun h => ⟨h, h0⟩), if_pos hoff]
        exact audioStopV2_session s
      · rw [if_neg fun h => hoff (h.imp_right And.left), if_neg hoff]
        rfl

theorem audioPlayCb_session (s : App) : (audioPlayCb s).2.session = s.session := by
  unfold audioPlayCb
  split <;> rfl

theorem socketEventProcessCb_session (e : SocketEvent) (s : App) :
    (socketEventProcessCb e s).session = s.session := by
  cases e <;> rfl

/-- **The firmware is the machine.**  A step makes of the session what its event does. -/
theorem Steps.session_eq {x y : Sys} {a : Act} (h : Steps x a y) :
    y.app.session = (eventOf a x).after x.app.session := by
  cases h with
  | isCmd =>
      rw [Sys.ofJump_app]
      exact isCmd_session _ _
  | recv _ _ =>
      rw [Sys.ofJump_app]
      exact message122_session _ _ _
  | @socket s m ms io hms _ =>
      simp only [eventOf, hms]
      exact socketTestThread_session io m { s with socketMsgs := ms }
  | @audio s m ms io hms =>
      simp only [eventOf, hms]
      exact audioDuplexthread_session io m { s with audioMsgs := ms }
  | @mp3 s m ms io hms =>
      simp only [eventOf, hms]
      exact audioPlayMP3Thread_session io m { s with mp3Msgs := ms }
  | @timerHeartbeat s io =>
      dsimp only [eventOf, Event.after]
      exact (timerHeartbeat_ticks io s).session_eq
  | @socketEvent s e => exact socketEventProcessCb_session e s
  | @audioRecordCb s buff len => exact audioRecordCb_session buff len s
  | @audioPlayCb s => exact audioPlayCb_session s
  | timerHeartbeat2 _ | uart2Event | uart3Event => rfl

/-- The events of a run, in order. -/
def eventsOf (l : List (Run.Step Act Sys)) : List Event := l.map fun e => eventOf e.act e.pre

/-- **Runs.**  The session after a run is what its events, in order, make of the first one. -/
theorem Runs.session_eq {x y : Sys} {l : List (Run.Step Act Sys)} (hr : Run.Runs exec x l y) :
    y.app.session = (eventsOf l).foldl (fun s e => e.after s) x.app.session := by
  induction hr with
  | nil => rfl
  | snoc _ he ih =>
      rw [(exec_eq_some.mp he).session_eq, ih, eventsOf, eventsOf, List.map_append,
        List.foldl_append]
      rfl

end IntercomSalve
