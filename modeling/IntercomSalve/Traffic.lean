/-
# `Traffic` — what a step posts

The three threads, the timers and the driver callbacks talk through three queues:
`socketMsgHandle`, `msgHandle_audio` and `MP3_msgHandle`.  Two calls reach beyond
them: `http_startTest`, which starts an upgrade, and `KING_PowerReboot`.

`postsOf` reads off the state before a step what the step posts, to which queue and
in which order; where the step is an event of the session (`eventOf`), what it posts
is a matter of the event (`Event.posts`).  `Steps.traffic_eq` says that the firmware
posts exactly that, and so each queue is a `Run.Fifo`.
-/
import IntercomSalve.Lib.Fifo
import IntercomSalve.Session

namespace IntercomSalve

open Goto

/-! ## Posts -/

/-- The calls that reach beyond the three threads. -/
def Out.isControl : Out → Bool
  | .httpStartTest | .powerReboot => true
  | _ => false

/-- Messages of the three queues, and calls beyond them. -/
@[ext] structure Posts where
  socketMsgs : List SocketMsg
  audioMsgs : List AudioMsg
  mp3Msgs : List Mp3Msg
  control : List Out

namespace Posts

/-- Nothing. -/
def none : Posts := ⟨[], [], [], []⟩

/-- One message of the socket thread. -/
def socket (m : SocketMsg) : Posts := { none with socketMsgs := [m] }

/-- One message of the audio thread. -/
def audio (m : AudioMsg) : Posts := { none with audioMsgs := [m] }

/-- One message of the prompt thread. -/
def mp3 (m : Mp3Msg) : Posts := { none with mp3Msgs := [m] }

/-- One call beyond them. -/
def call (o : Out) : Posts := { none with control := [o] }

/-- What is posted first, and what after it. -/
def append (p q : Posts) : Posts where
  socketMsgs := p.socketMsgs ++ q.socketMsgs
  audioMsgs := p.audioMsgs ++ q.audioMsgs
  mp3Msgs := p.mp3Msgs ++ q.mp3Msgs
  control := p.control ++ q.control

instance : Append Posts := ⟨append⟩

theorem append_eq (p q : Posts) : p ++ q = p.append q := rfl

@[simp] theorem append_socketMsgs (p q : Posts) :
    (p ++ q).socketMsgs = p.socketMsgs ++ q.socketMsgs := rfl

@[simp] theorem append_audioMsgs (p q : Posts) :
    (p ++ q).audioMsgs = p.audioMsgs ++ q.audioMsgs := rfl

@[simp] theorem append_mp3Msgs (p q : Posts) : (p ++ q).mp3Msgs = p.mp3Msgs ++ q.mp3Msgs := rfl

@[simp] theorem append_control (p q : Posts) : (p ++ q).control = p.control ++ q.control := rfl

@[simp] theorem append_none (p : Posts) : p ++ none = p := by
  simp [append_eq, append, none]

@[simp] theorem none_append (p : Posts) : none ++ p = p := by
  simp [append_eq, append, none]

theorem append_assoc (p q r : Posts) : p ++ q ++ r = p ++ (q ++ r) := by
  simp [append_eq, append]

end Posts

/-- What waits in the queues, and the calls made beyond them. -/
def App.traffic (s : App) : Posts where
  socketMsgs := s.socketMsgs
  audioMsgs := s.audioMsgs
  mp3Msgs := s.mp3Msgs
  control := s.out.filter Out.isControl

/-! ## The small calls -/

theorem postSocket_traffic (m : SocketMsg) (s : App) :
    (s.postSocket m).traffic = s.traffic ++ .socket m := by
  simp [Posts.append_eq, Posts.append, App.traffic, App.postSocket, Posts.socket, Posts.none]

theorem postAudio_traffic (m : AudioMsg) (s : App) :
    (s.postAudio m).traffic = s.traffic ++ .audio m := by
  simp [Posts.append_eq, Posts.append, App.traffic, App.postAudio, Posts.audio, Posts.none]

theorem postMp3_traffic (m : Mp3Msg) (s : App) :
    (s.postMp3 m).traffic = s.traffic ++ .mp3 m := by
  simp [Posts.append_eq, Posts.append, App.traffic, App.postMp3, Posts.mp3, Posts.none]

theorem call_traffic {o : Out} (h : o.isControl = true) (s : App) :
    (s.log o).traffic = s.traffic ++ .call o := by
  simp [Posts.append_eq, Posts.append, App.traffic, App.log, Posts.call, Posts.none, h]

/-- Other calls are no traffic. -/
theorem log_traffic {o : Out} (h : o.isControl = false) (s : App) :
    (s.log o).traffic = s.traffic := by
  simp [App.traffic, App.log, h]

@[simp] theorem socketSend_traffic (buf : Mem) (n : Nat) (s : App) :
    (s.socketSend buf n).traffic = s.traffic :=
  log_traffic rfl s

@[simp] theorem newConnect_traffic (ret : Int) (s : App) :
    (newConnect ret s).traffic = s.traffic := by
  by_cases h : ret = -1
  · simp [newConnect, App.traffic, h, Out.isControl]
  · simp [newConnect, App.traffic, h]

@[simp] theorem sendCallFrame_traffic (cmd : SocketInstruction) (road code : UInt8) (imei : Mem)
    (s : App) : (sendCallFrame cmd road code imei s).traffic = s.traffic :=
  socketSend_traffic _ _ _

@[simp] theorem sendHandle_traffic (n : Nat) (s : App) : (sendHandle n s).traffic = s.traffic :=
  socketSend_traffic _ _ _

@[simp] theorem poke_traffic (i : Nat) (bs : List UInt8) (s : App) :
    (poke i bs s).traffic = s.traffic := rfl

@[simp] theorem pokeFrom_traffic (i : Nat) (src : Mem) (n : Nat) (s : App) :
    (pokeFrom i src n s).traffic = s.traffic := rfl

theorem postUart3_traffic (pData : Uart3Buf) (s : App) :
    (s.postUart3 pData).traffic = s.traffic ++ .audio (.uart3Send pData) :=
  (log_traffic rfl _).trans (postAudio_traffic _ s)

theorem sendUart3Write_traffic (cmd a b : UInt8) (s : App) :
    (sendUart3Write cmd a b s).traffic = s.traffic ++ .audio (.uart3Send .uart3Write) :=
  postUart3_traffic _ _

theorem relayCmd_traffic (on : UInt8) (s : App) :
    (relayCmd on s).traffic = s.traffic ++ .audio (.uart3Send .uart3Write) :=
  sendUart3Write_traffic _ _ _ _

theorem dropSocket_traffic (s : App) : (dropSocket s).traffic = s.traffic := log_traffic rfl s

theorem closeAndWait_traffic (s : App) : (closeAndWait s).traffic = s.traffic := log_traffic rfl s

theorem audioStopV2_traffic (s : App) : (audioStopV2 s).traffic = s.traffic := by
  unfold audioStopV2
  split
  · exact (log_traffic rfl _).trans (log_traffic rfl s)
  · rfl

theorem socketEnter_traffic (io : Platform) (s : App) : (socketEnter io s).traffic = s.traffic := by
  unfold socketEnter
  split <;> rfl

/-- Calls of `KING_PowerReboot`, `n` of them. -/
def rebootPosts (n : Nat) : Posts := { Posts.none with control := List.replicate n .powerReboot }

theorem waitForNet_traffic (n num : Nat) (s : App) :
    (waitForNet n num s).traffic = s.traffic ++ rebootPosts (netReboots n num) := by
  rw [waitForNet_eq]
  simp [Posts.append_eq, Posts.append, App.traffic, rebootPosts, Posts.none, Out.isControl]

/-! ## Which posts a step makes -/

/-- A relay command is posted. -/
def relayPosts : Posts := .audio (.uart3Send .uart3Write)

/-- The prompt after a call that a frame ended: busy, too long, over. -/
def endPrompt (s : App) : AudioMsg :=
  if s.rx.byteAt 9 = CallReturn.return0.code then .hmiNews4
  else if s.call.callUserTim > callMaxTim - 2 then .hmiNews3
  else .hmiNews2

/-- The end of a call by the timer.  A call in state 3 that has gone silent ends without a
prompt. -/
def timedOutPosts (s : App) : Posts :=
  if s.call.callUserOperation = 3 ∧ s.link.heartbeatTim > callReceptionTimeout then relayPosts
  else .audio .hmiNews2 ++ relayPosts

/-- What an event of the session posts. -/
def Event.posts (e : Event) (s : App) : Posts :=
  match e with
  | button => .mp3 (.audio .waitConv) ++ .socket .msg123
  | accepted => .mp3 .stopAudioStart
  | ended => .audio (endPrompt s) ++ relayPosts
  | answered | broadcastOn => .mp3 .stopAudioStart ++ relayPosts
  | timedOut => timedOutPosts s
  | idleHeartbeat | broadcastOff | broadcastOver => relayPosts
  | recorded _ => .socket .msg125
  | nothing | ringing | marked | unmarked | talk | deviceOff | promptStops | voiceSent => .none

/-- The frame of command `c` at the cursor. -/
def framePosts (c : SocketInstruction) (s : App) : Posts :=
  match c with
  | .instruction2 => .audio (.uart3Send .uart3Writelogin)
  | .instruction29 => .audio (.uart3Send .uart3Writejdq)
  | .instruction32 => .call .httpStartTest
  | _ => (frameEvent c s).posts s

/-- A message of the socket thread. -/
def messagePosts (io : Platform) (m : SocketMsg) (s : App) : Posts :=
  match m with
  | .msg120 => rebootPosts (netReboots io.netWaits 0)
  | .msg130 =>
      if s.link.isNewDay ≠ 0 ∧ io.dd ≠ s.link.isNewDay then .audio (.uart3Send .uart3Writenewday)
      else .none
  | _ => (messageEvent m s).posts s

/-- A button of another channel during a call. -/
def markerPosts (s : App) : Posts :=
  if s.uart.temp 7 = 1 ∧ s.call.mailListRoad1 = 0 ∨ s.uart.temp 7 = 2 ∧ s.call.mailListRoad2 = 0 ∨
      s.uart.temp 7 = 3 ∧ s.call.mailListRoad3 = 0 ∨ s.uart.temp 7 = 4 ∧ s.call.mailListRoad4 = 0
  then .socket .msg127
  else .none

/-- A frame of the acquisition board. -/
def uart3Posts (s : App) : Posts :=
  if s.uart.temp 4 = 1 then
    if s.call.isHostBusy ≠ 0 then .none
    else if s.call.callUserOperation = 0 then Event.button.posts s
    else if s.call.mailListRoad.toNat = (s.uart.temp 7).toNat + 0x30 then .none
    else markerPosts s
  else if s.uart.temp 4 = 2 then .socket .msg129
  else if s.uart.temp 4 = 3 then .socket .msg131
  else if s.uart.temp 4 = 4 then .socket .msg132
  else .none

/-- A message of the audio thread. -/
def audioPosts (io : Platform) (m : AudioMsg) (s : App) : Posts :=
  match m with
  | .uart3Read =>
      if s.link.mailListTim = 0 ∧ 2 ≤ io.uartAvailable ∧ isUart3Frame (readTemp io s).uart.temp then
        uart3Posts (readTemp io s)
      else .none
  | .hmiNews2 => .mp3 (.audio .endConv)
  | .hmiNews3 => .mp3 (.audio .tim60End)
  | .hmiNews4 => .mp3 (.audio .busy)
  | .time5s => .mp3 (.audio .waitConv)
  | .uart2Read | .uart3Send _ | .hmiNews => .none

/-- A message of the prompt thread. -/
def promptPosts (m : Mp3Msg) : Posts :=
  match m with
  | .stopAudioStart => .audio .hmiNews
  | .audio _ | .stop _ => .none

/-- A log-in is tried again: every 10 s, until there have been four. -/
def loginDue (t : UInt8) : Prop := ¬ t / loginTimTim ≥ loginTimNum ∧ t % loginTimTim = 0

instance (t : UInt8) : Decidable (loginDue t) := by unfold loginDue; infer_instance

/-- The messages of a second: of the call, of a broadcast, of the connection while it is
logged in, and of the log-in. -/
def secondMsgs (s : App) : List SocketMsg :=
  (if s.call.callUserOperation ≠ 0 then [.msg126] else []) ++
  (if s.call.mailListALLTim ≠ 0 then [.msg133] else []) ++
  (if s.link.loginSuccess = 1 ∧ s.link.socketFd > 0 then
    (if s.link.mailListTim = 2 then [.msg128] else []) ++
    (if s.link.logonImei = 1 then
      (if (s.link.isOneDay + 1) % 20 = 0 then [.msg130] else []) ++
      (if (s.link.heartbeatTim + 1) % 60 = 0 then [.msg124] else [])
    else [])
  else []) ++
  (if s.link.socketEn = 1 ∧ s.link.loginSuccess = 0 ∧ s.link.loginTim ≠ 0 ∧
      loginDue (s.link.loginTim + 1) then [.msg121] else [])

/-- A second. -/
def secondPosts (s : App) : Posts where
  socketMsgs := secondMsgs s
  audioMsgs := []
  mp3Msgs := []
  control := if s.link.heartbeatTim + 1 > 130 then [.powerReboot] else []

/-- A socket event. -/
def socketEventPosts (e : SocketEvent) : Posts :=
  match e with
  | .connectRsp => .socket .msg121
  | .readInd availSize => .socket (.msg122 (availSize % 65536))
  | .closeRsp | .errorInd | .unexpected => .none

/-- **What a step posts.** -/
def postsOf (a : Act) (x : Sys) : Posts :=
  match a with
  | .isCmd =>
      match frameAt x with
      | some c => framePosts c x.app
      | none => .none
  | .socket io =>
      match x.app.socketMsgs with
      | m :: _ => messagePosts io m x.app
      | [] => .none
  | .audio io =>
      match x.app.audioMsgs with
      | m :: _ => audioPosts io m x.app
      | [] => .none
  | .mp3 _ =>
      match x.app.mp3Msgs with
      | m :: _ => promptPosts m
      | [] => .none
  | .timerHeartbeat _ => secondPosts x.app
  | .timerHeartbeat2 => .audio .time5s
  | .socketEvent e => socketEventPosts e
  | .uart2Event => .audio .uart2Read
  | .uart3Event => .audio .uart3Read
  | .audioRecordCb _ len => (recordEvent len x.app).posts x.app
  | .recv _ | .audioPlayCb => .none

/-- The message that a step takes is gone from the front of its queue. -/
def taken (a : Act) (s : App) : App :=
  match a with
  | .socket _ | .recv _ => { s with socketMsgs := s.socketMsgs.tail }
  | .audio _ => { s with audioMsgs := s.audioMsgs.tail }
  | .mp3 _ => { s with mp3Msgs := s.mp3Msgs.tail }
  | _ => s

/-! ## Message 122 -/

theorem endByFrame_traffic (s : App) (h : s.rx.byteAt 9 ≠ CallReturn.return0.code) :
    (endByFrame s).traffic = s.traffic ++ Event.ended.posts s := by
  have hprompt : endPrompt s =
      if s.call.callUserTim > callMaxTim - 2 then .hmiNews3 else .hmiNews2 := if_neg h
  have hpost := postAudio_traffic (endPrompt s) s
  show (relayCmd 0 _).traffic = _
  rw [relayCmd_traffic, Event.posts, ← Posts.append_assoc, ← hpost, hprompt]
  rfl

theorem dialBusy_traffic (s : App) (h : s.rx.byteAt 9 = CallReturn.return0.code) :
    (dialBusy s).traffic = s.traffic ++
      (if s.call.callUserOperation = 1 ∧ (breakOtherChannel s.call).isNone then Event.ended
        else .nothing).posts s := by
  have hprompt : endPrompt s = .hmiNews4 := if_pos h
  unfold dialBusy
  split
  · next h1 =>
      cases hb : breakOtherChannel s.call with
      | some c =>
          rw [if_neg (by simp)]
          exact (Posts.append_none _).symm
      | none =>
          rw [if_pos ⟨h1, rfl⟩]
          show (relayCmd 0 _).traffic = _
          rw [relayCmd_traffic, postAudio_traffic, Event.posts, Posts.append_assoc, hprompt]
          rfl
  · next h1 =>
      rw [if_neg fun h => h1 h.1]
      exact (Posts.append_none _).symm

theorem dialRefused_traffic (s : App) (h : s.rx.byteAt 9 ≠ CallReturn.return0.code) :
    (dialRefused s).traffic = s.traffic ++
      (if (breakOtherChannel s.call).isNone then Event.ended else .nothing).posts s := by
  unfold dialRefused
  cases hb : breakOtherChannel s.call with
  | some c =>
      rw [if_neg (by simp)]
      exact (Posts.append_none _).symm
  | none => exact endByFrame_traffic s h

theorem dial_traffic (s : App) :
    (dialReqReqCallReturnHander s).traffic = s.traffic ++ (dialEvent s).posts s := by
  unfold dialReqReqCallReturnHander dialEvent
  cases hc : CallReturn.ofCode (s.rx.byteAt 9) with
  | none => exact (Posts.append_none _).symm
  | some r =>
      have hcode := CallReturn.ofCode_eq_some.mp hc
      cases r with
      | return0 => exact dialBusy_traffic s hcode
      | return1 => exact (Posts.append_none _).symm
      | return2 => exact postMp3_traffic _ s
      | return3 => exact dialRefused_traffic s (by rw [hcode]; decide)
      | return4 => exact postMp3_traffic _ s
      | return5 => exact dialRefused_traffic s (by rw [hcode]; decide)

theorem answerCall_traffic (road : UInt8) (imei : Mem) (s : App) :
    (answerCall road imei s).traffic = s.traffic ++ (.mp3 .stopAudioStart ++ relayPosts) := by
  unfold answerCall
  rw [relayCmd_traffic, postMp3_traffic, sendCallFrame_traffic, Posts.append_assoc]
  rfl

theorem calledAnswer_traffic (s : App) :
    (calledAnswer s).traffic = s.traffic ++
      (if s.call.callUserOperation ≠ 0 then Event.marked else .answered).posts s := by
  unfold calledAnswer
  split
  · exact (Posts.append_none _).symm
  · exact answerCall_traffic _ _ (clearVars s)

theorem calledHangUp_traffic (s : App) (h : s.rx.byteAt 9 ≠ CallReturn.return0.code) :
    (calledHangUp s).traffic = s.traffic ++
      (if s.call.mailListId ≠ 0 then Event.unmarked else .ended).posts s := by
  unfold calledHangUp
  split
  · exact (Posts.append_none _).symm
  · exact endByFrame_traffic s h

theorem called_traffic (s : App) :
    (calledReqReqCallReturnHander s).traffic = s.traffic ++ (calledEvent s).posts s := by
  unfold calledReqReqCallReturnHander calledEvent
  split
  · exact (Posts.append_none _).symm
  · cases hc : DialReqReqCall.ofCode (s.rx.byteAt 9) with
    | none => exact (Posts.append_none _).symm
    | some r =>
        have hcode := DialReqReqCall.ofCode_eq_some.mp hc
        cases r with
        | call1 => exact calledAnswer_traffic s
        | call2 => exact calledHangUp_traffic s (by rw [hcode]; decide)
        | call3 => exact (Posts.append_none _).symm
        | call4 => exact calledHangUp_traffic s (by rw [hcode]; decide)

theorem voiceFrame_traffic (n ret : Nat) (s : App) :
    (voiceFrame n ret s).state.traffic = s.traffic := by
  unfold voiceFrame
  split <;> rfl

theorem broadcastVoice_traffic (ret : Nat) (s : App) :
    (broadcastVoice ret s).state.traffic = s.traffic := by
  have hv : (voiceFrame 10 ret (setLength 80 s)).state.traffic = s.traffic :=
    voiceFrame_traffic 10 ret (setLength 80 s)
  unfold broadcastVoice
  split
  · next u hu =>
      rw [hu] at hv
      exact hv
  · next u hu =>
      rw [hu] at hv
      exact hv

theorem broadcastStart_traffic (s : App) :
    (broadcastStart s).traffic = s.traffic ++
      (if s.call.isMailListALL = 0 then Event.broadcastOn else .nothing).posts s := by
  unfold broadcastStart
  split
  · rw [sendUart3Write_traffic, postMp3_traffic, Posts.append_assoc]
    rfl
  · exact (Posts.append_none _).symm

theorem broadcastStop_traffic (s : App) :
    (broadcastStop s).traffic = s.traffic ++
      (if s.call.isMailListALL = 1 then Event.broadcastOff else .nothing).posts s := by
  unfold broadcastStop
  split
  · rw [log_traffic rfl, log_traffic rfl, sendUart3Write_traffic]
    rfl
  · exact (Posts.append_none _).symm

theorem broadcastFrame_traffic (ret : Nat) (s : App) :
    (broadcastFrame ret s).state.traffic = s.traffic ++ (broadcastEvent s).posts s := by
  unfold broadcastFrame broadcastEvent
  split
  · rw [broadcastVoice_traffic, broadcastStart_traffic]
    show _ ++ (if s.call.isMailListALL = 0 then Event.broadcastOn else .nothing).posts _ = _
    split <;> rfl
  · show (broadcastStop (asVoice s)).traffic = _
    rw [broadcastStop_traffic]
    show _ ++ (if s.call.isMailListALL = 1 then Event.broadcastOff else .nothing).posts _ = _
    split <;> rfl

theorem hostList_traffic (s : App) : (hostList s).traffic = s.traffic := by
  unfold hostList Call.hosts
  dsimp only
  split
  · split <;> rfl
  · rfl

theorem loginCmd_traffic (a b c : UInt8) (s : App) :
    (loginCmd a b c s).traffic = s.traffic ++ .audio (.uart3Send .uart3Writelogin) :=
  postUart3_traffic _ _

theorem jdqCmd_traffic (a b c : UInt8) (s : App) :
    (jdqCmd a b c s).traffic = s.traffic ++ .audio (.uart3Send .uart3Writejdq) :=
  postUart3_traffic _ _

/-- The case of a frame. -/
theorem caseOf_traffic (ret : Nat) (c : SocketInstruction) (s : App) :
    (caseOf ret c s).state.traffic = s.traffic ++ framePosts c s := by
  cases c with
  | instruction2 => exact loginCmd_traffic (s.rx.byteAt 9) (s.rx.byteAt 10) (s.rx.byteAt 11) s
  | instruction4 => exact dial_traffic s
  | instruction5 => exact called_traffic s
  | instruction10 =>
      show _ = s.traffic ++ Posts.none
      rw [Posts.append_none]
      exact voiceFrame_traffic 8 ret s
  | instruction21 =>
      show _ = s.traffic ++ Posts.none
      rw [Posts.append_none]
      exact hostList_traffic s
  | instruction29 => exact jdqCmd_traffic (s.rx.byteAt 23) (s.rx.byteAt 24) (s.rx.byteAt 25) s
  | instruction32 =>
      exact call_traffic (o := .httpStartTest) rfl
        (setUrl (s.rx.bytesAt 10) (sub32 s.rx.currentDataLength 7) s)
  | instruction34 => exact broadcastFrame_traffic ret s
  | _ => exact (Posts.append_none _).symm

/-- Opening a frame moves nothing that its posts depend on but the silence, and no frame
times a call out. -/
theorem FrameEvent.posts_opened {s : App} {c : SocketInstruction} {e : Event}
    (h : FrameEvent s c e) (d : SocketInstruction) : e.posts (opened d s) = e.posts s := by
  cases h <;> rfl

theorem framePosts_opened (c : SocketInstruction) (s : App) :
    framePosts c (opened c s) = framePosts c s := by
  have hevent := (frameEvent_is c s).posts_opened c
  cases c with
  | instruction2 => rfl
  | instruction29 => rfl
  | instruction32 => rfl
  | _ => exact hevent

/-- **A pass of the loop.** -/
theorem isCmd_traffic (ret : Nat) (s : App) :
    (isCmd ret s).state.traffic = s.traffic ++ postsOf .isCmd ⟨s, some ret⟩ := by
  rcases isCmd_frameAt ret s with ⟨c, hc, h⟩ | ⟨hc, r, l, h⟩
  · have hopened : (opened c s).traffic = s.traffic := log_traffic rfl (readHeader s)
    rw [h, caseOf_traffic, hopened, framePosts_opened]
    simp only [postsOf, hc]
  · simp only [postsOf, hc, Posts.append_none]
    rw [h]
    rfl

theorem message122_traffic (n : Nat) (chunk : List UInt8) (s : App) :
    (message122 n chunk s).state.traffic = s.traffic := by
  unfold message122
  split
  · rfl
  · split
    · unfold resumeVoice
      split
      · split <;> rfl
      · rfl
    · rfl

/-! ## The other messages of the socket thread -/

theorem overtimeIdle_traffic (s : App) :
    (overtimeIdle s).traffic = s.traffic ++ (.audio .hmiNews2 ++ relayPosts) := by
  show (relayCmd 0 (s.postAudio .hmiNews2)).traffic = _
  rw [relayCmd_traffic, postAudio_traffic, Posts.append_assoc]
  rfl

theorem overtimeClose_traffic (s : App) : (overtimeClose s).traffic = s.traffic ++ relayPosts :=
  relayCmd_traffic 0 (callOver s)

theorem callingRepeat_traffic (io : Platform) (s : App) :
    (callingRepeat io s).traffic = s.traffic := by
  unfold callingRepeat
  split
  · rw [newConnect_traffic, sendCallFrame_traffic]
  · rfl

theorem ringingSwitch_traffic (io : Platform) (s : App) :
    (ringingSwitch io s).traffic = s.traffic := by
  unfold ringingSwitch
  split
  · rw [newConnect_traffic, sendCallFrame_traffic, sendCallFrame_traffic]
  · rfl

theorem callingEnd_traffic (io : Platform) (s : App) :
    (callingEnd io s).traffic = s.traffic ++
      (if s.call.callUserTim > callMaxTim then .audio .hmiNews2 ++ relayPosts else .none) := by
  unfold callingEnd
  split
  · rw [overtimeIdle_traffic, newConnect_traffic, sendCallFrame_traffic]
  · exact (Posts.append_none _).symm

theorem ringingEnd_traffic (io : Platform) (s : App) :
    (ringingEnd io s).traffic = s.traffic ++
      (if s.call.callUserTim > callMaxTim then .audio .hmiNews2 ++ relayPosts else .none) := by
  unfold ringingEnd
  split
  · rw [overtimeIdle_traffic, newConnect_traffic, sendCallFrame_traffic]
  · exact (Posts.append_none _).symm

theorem connectedEnd_traffic (io : Platform) (s : App) :
    (connectedEnd io s).traffic = s.traffic ++
      (if s.call.callUserTim > callMaxTim then .audio .hmiNews2 ++ relayPosts else .none) := by
  unfold connectedEnd
  split
  · rw [dropSocket_traffic, overtimeClose_traffic, postAudio_traffic, newConnect_traffic,
      sendCallFrame_traffic, Posts.append_assoc]
  · exact (Posts.append_none _).symm

theorem calledEnd_traffic (io : Platform) (s : App) :
    (calledEnd io s).traffic = s.traffic ++
      (if s.call.callUserTim > callMaxTim then .audio .hmiNews2 ++ relayPosts else .none) := by
  unfold calledEnd
  split
  · rw [overtimeClose_traffic, postAudio_traffic, newConnect_traffic, sendCallFrame_traffic,
      Posts.append_assoc]
  · exact (Posts.append_none _).symm

/-- After too long a silence a call in state 3 ends without a prompt. -/
theorem connectedQuiet_end_traffic (io : Platform) (s : App) :
    (connectedEnd io (connectedQuiet s)).traffic = s.traffic ++
      (if s.link.heartbeatTim > callReceptionTimeout then relayPosts
        else if s.call.callUserTim > callMaxTim then .audio .hmiNews2 ++ relayPosts
        else .none) := by
  rw [connectedEnd_traffic]
  by_cases hq : s.link.heartbeatTim > callReceptionTimeout
  · have hquiet : connectedQuiet s = overtimeClose (s.log .socketClose) := if_pos hq
    rw [hquiet, if_neg (overtimeClose_tim _), if_pos hq, overtimeClose_traffic, log_traffic rfl,
      Posts.append_none]
  · have hquiet : connectedQuiet s = s := if_neg hq
    rw [hquiet, if_neg hq]

theorem calledQuiet_end_traffic (io : Platform) (s : App) :
    (calledEnd io (calledQuiet s)).traffic = s.traffic ++
      (if s.link.heartbeatTim > callReceptionTimeout ∨ s.call.callUserTim > callMaxTim then
        .audio .hmiNews2 ++ relayPosts else .none) := by
  rw [calledEnd_traffic]
  by_cases hq : s.link.heartbeatTim > callReceptionTimeout
  · have hquiet : calledQuiet s = overtimeClose ((s.log .socketClose).postAudio .hmiNews2) :=
      if_pos hq
    rw [hquiet, if_neg (overtimeClose_tim _), if_pos (Or.inl hq), overtimeClose_traffic,
      postAudio_traffic, log_traffic rfl, Posts.append_none, Posts.append_assoc]
  · have hquiet : calledQuiet s = s := if_neg hq
    rw [hquiet]
    simp only [hq, false_or]

/-- **Message 126.** -/
theorem callOvertimeFun_traffic (io : Platform) (s : App) :
    (callOvertimeFun io s).traffic = s.traffic ++
      (if timesOut s then Event.timedOut else .nothing).posts s := by
  have hposts : (if timesOut s then Event.timedOut else .nothing).posts s =
      if timesOut s then timedOutPosts s else .none := by
    split <;> rfl
  rw [hposts]
  unfold callOvertimeFun overtimeOf
  split
  · next h1 =>
      have h1 : s.call.callUserOperation = 1 := h1
      rw [callingEnd_traffic, callingRepeat_traffic, callingRepeat_call]
      simp [timesOut, timedOutPosts, callSecond, App.traffic, h1]
  · split
    · next h2 =>
        have h2 : s.call.callUserOperation = 2 := h2
        rw [ringingEnd_traffic, ringingSwitch_traffic, ringingSwitch_call]
        simp [timesOut, timedOutPosts, callSecond, App.traffic, h2]
    · split
      · next h3 =>
          have h3 : s.call.callUserOperation = 3 := h3
          rw [connectedQuiet_end_traffic]
          by_cases hq : callReceptionTimeout < s.link.heartbeatTim
          · simp [timesOut, timedOutPosts, callSecond, App.traffic, h3, hq]
          · simp [timesOut, timedOutPosts, callSecond, App.traffic, h3, hq]
      · split
        · next h5 =>
            have h5 : s.call.callUserOperation = 5 := h5
            rw [calledQuiet_end_traffic]
            simp [timesOut, timedOutPosts, callSecond, App.traffic, h5]
        · next h1 h2 h3 h5 =>
            have hno : ¬ timesOut s := by
              rintro (⟨h | h, -⟩ | ⟨h | h, -⟩)
              · exact h1 h
              · exact h2 h
              · exact h3 h
              · exact h5 h
            rw [if_neg hno, Posts.append_none]
            rfl

theorem message121_traffic (io : Platform) (s : App) : (message121 io s).traffic = s.traffic := by
  unfold message121
  dsimp only
  split
  · rw [dropSocket_traffic, socketSend_traffic, sendHandle_traffic, poke_traffic]
  · rw [socketSend_traffic, sendHandle_traffic, poke_traffic]

theorem sendHeartbeat_traffic (io : Platform) (s : App) :
    (sendHeartbeat io s).traffic = s.traffic := by
  unfold sendHeartbeat
  rw [newConnect_traffic, sendHandle_traffic, poke_traffic]

theorem message124_traffic (io : Platform) (s : App) :
    (message124 io s).traffic = s.traffic ++ (messageEvent .msg124 s).posts s := by
  unfold message124 messageEvent
  dsimp only
  split
  · have hclear : (clearVars (sendHeartbeat io s)).traffic = s.traffic :=
      sendHeartbeat_traffic io s
    rw [relayCmd_traffic, hclear]
    rfl
  · rw [sendHeartbeat_traffic]
    exact (Posts.append_none _).symm

theorem sendVoice_traffic (io : Platform) (s : App) : (sendVoice io s).traffic = s.traffic := by
  unfold sendVoice
  rw [newConnect_traffic, socketSend_traffic, sendHandle_traffic, poke_traffic]

theorem message125_traffic (io : Platform) (s : App) : (message125 io s).traffic = s.traffic := by
  unfold message125
  split
  · rfl
  · exact sendVoice_traffic io s

theorem message127_traffic (s : App) : (message127 s).traffic = s.traffic := by
  unfold message127
  dsimp only
  rw [sendCallFrame_traffic, sendCallFrame_traffic]
  rfl

theorem message129_traffic (io : Platform) (s : App) : (message129 io s).traffic = s.traffic := by
  unfold message129 alarmFrame
  simp only [sendHandle_traffic, poke_traffic, pokeFrom_traffic]

theorem message130_traffic (io : Platform) (s : App) :
    (message130 io s).traffic = s.traffic ++ messagePosts io .msg130 s := by
  show (newDay io s).traffic = s.traffic ++ if _ then _ else _
  unfold newDay
  split
  · exact postUart3_traffic _ _
  · exact (Posts.append_none _).symm

theorem countFrame_traffic (io : Platform) (id : UInt8) (a b : Mem) (s : App) :
    (countFrame io id a b s).traffic = s.traffic := by
  unfold countFrame
  simp only [sendHandle_traffic, poke_traffic, pokeFrom_traffic]

theorem message133_traffic (s : App) :
    (message133 s).traffic = s.traffic ++ (messageEvent .msg133 s).posts s := by
  by_cases h : broadcastTimesOut s
  · have hover : message133 s = sendUart3Write 0x02 0 0
        (audioStopV2 { s with call.isMailListALL := 0, call.mailListALLTim := 0 }) := if_pos h
    rw [hover, sendUart3Write_traffic, audioStopV2_traffic, messageEvent, if_pos h]
    rfl
  · have hkeep : message133 s = s := if_neg h
    rw [hkeep, messageEvent, if_neg h]
    exact (Posts.append_none _).symm

/-- **The socket thread**, outside message 122. -/
theorem socketTestThread_traffic (io : Platform) (m : SocketMsg) (s : App) :
    (socketTestThread io m s).traffic = s.traffic ++ messagePosts io m s := by
  have hnone : s.traffic = s.traffic ++ Posts.none := (Posts.append_none _).symm
  cases m with
  | msg120 => exact (socketEnter_traffic io _).trans (waitForNet_traffic _ _ s)
  | msg121 => exact (message121_traffic io s).trans hnone
  | msg122 n => exact hnone
  | msg123 =>
      refine (newConnect_traffic _ _).trans ((sendCallFrame_traffic _ _ _ _ _).trans hnone)
  | msg124 => exact message124_traffic io s
  | msg125 =>
      have hposts : messagePosts io .msg125 s = .none := by
        show (if s.record.audioDataEn = 0 then Event.nothing else .voiceSent).posts s = _
        split <;> rfl
      rw [hposts, Posts.append_none]
      exact message125_traffic io s
  | msg126 => exact callOvertimeFun_traffic io s
  | msg127 => exact (message127_traffic s).trans hnone
  | msg128 => exact (sendHandle_traffic 23 _).trans hnone
  | msg129 => exact (message129_traffic io s).trans hnone
  | msg130 => exact message130_traffic io s
  | msg131 =>
      exact ((countFrame_traffic io _ _ _ _).trans (countFrame_traffic io _ _ _ s)).trans hnone
  | msg132 => exact (sendHandle_traffic 27 _).trans hnone
  | msg133 => exact message133_traffic s

/-! ## The timer -/

theorem timerCall_traffic (s : App) :
    (timerCall s).traffic = s.traffic ++
      ⟨if s.call.callUserOperation ≠ 0 then [.msg126] else [], [], [], []⟩ := by
  unfold timerCall
  split
  · exact postSocket_traffic _ s
  · exact (Posts.append_none _).symm

theorem timerSilence_traffic (s : App) :
    (timerSilence s).traffic = s.traffic ++
      ⟨[], [], [], if s.link.heartbeatTim > 130 then [.powerReboot] else []⟩ := by
  unfold timerSilence
  split
  · exact call_traffic rfl s
  · exact (Posts.append_none _).symm

theorem timerFrame_traffic (s : App) : (timerFrame s).traffic = s.traffic := by
  unfold timerFrame
  split <;> rfl

theorem timerBroadcast_traffic (s : App) :
    (timerBroadcast s).traffic = s.traffic ++
      ⟨if s.call.mailListALLTim ≠ 0 then [.msg133] else [], [], [], []⟩ := by
  unfold timerBroadcast
  split
  · exact postSocket_traffic _ _
  · exact (Posts.append_none _).symm

/-- The hosts are asked for where the counter stands at 2. -/
theorem timerHosts_traffic (s : App) :
    (timerHosts s).traffic = s.traffic ++
      ⟨if s.link.mailListTim = 2 then [.msg128] else [], [], [], []⟩ := by
  have htwo : s.link.mailListTim + 1 = 3 ↔ s.link.mailListTim = 2 := by
    constructor
    · intro h
      exact (UInt8.add_left_inj 1).mp (h.trans (by decide : (3 : UInt8) = 2 + 1))
    · intro h
      rw [h]
      decide
  unfold timerHosts
  split
  · split
    · next h3 =>
        rw [if_pos (htwo.mp h3)]
        exact postSocket_traffic _ _
    · next h3 =>
        rw [if_neg fun h => h3 (htwo.mpr h)]
        exact (Posts.append_none _).symm
  · next hrange =>
      have hne : s.link.mailListTim ≠ 2 := by
        intro h
        rw [h] at hrange
        exact hrange (by decide)
      rw [if_neg hne]
      exact (Posts.append_none _).symm

/-- Of the connection it moves that counter only. -/
theorem timerHosts_link (s : App) :
    ∃ t, (timerHosts s).link = { s.link with mailListTim := t } := by
  unfold timerHosts
  split
  · split <;> exact ⟨_, rfl⟩
  · exact ⟨_, rfl⟩

theorem timerDay_traffic (s : App) :
    (timerDay s).traffic = s.traffic ++
      ⟨if (s.link.isOneDay + 1) % 20 = 0 then [.msg130] else [], [], [], []⟩ := by
  unfold timerDay
  split
  · exact postSocket_traffic _ _
  · exact (Posts.append_none _).symm

theorem timerDay_link (s : App) : ∃ d, (timerDay s).link = { s.link with isOneDay := d } := by
  unfold timerDay
  split <;> exact ⟨_, rfl⟩

theorem timerBusy_traffic (s : App) : (timerBusy s).traffic = s.traffic := by
  unfold timerBusy
  split <;> rfl

theorem timerBusy_link (s : App) : (timerBusy s).link = s.link := by
  unfold timerBusy
  split <;> rfl

theorem timerAlive_traffic (s : App) :
    (timerAlive s).traffic = s.traffic ++
      ⟨if s.link.heartbeatTim % 60 = 0 then [.msg124] else [], [], [], []⟩ := by
  unfold timerAlive
  split
  · exact postSocket_traffic _ _
  · exact (Posts.append_none _).symm

/-- Messages of the socket thread that are posted one after the other. -/
theorem Posts.socket_append (p : Posts) (ms ms' : List SocketMsg) :
    p ++ ⟨ms, [], [], []⟩ ++ ⟨ms', [], [], []⟩ = p ++ ⟨ms ++ ms', [], [], []⟩ := by
  simp [Posts.append_eq, Posts.append]

theorem timerLoggedIn_traffic (s : App) :
    (timerLoggedIn s).traffic = s.traffic ++
      ⟨if s.link.loginSuccess = 1 ∧ s.link.socketFd > 0 then
        (if s.link.mailListTim = 2 then [.msg128] else []) ++
        (if s.link.logonImei = 1 then
          (if (s.link.isOneDay + 1) % 20 = 0 then [.msg130] else []) ++
          (if s.link.heartbeatTim % 60 = 0 then [.msg124] else [])
        else [])
      else [], [], [], []⟩ := by
  unfold timerLoggedIn
  split
  · split
    · obtain ⟨t, hhosts⟩ := timerHosts_link s
      obtain ⟨d, hday⟩ := timerDay_link (timerHosts s)
      rw [timerAlive_traffic, timerBusy_traffic, timerBusy_link, hday, timerDay_traffic, hhosts,
        timerHosts_traffic, Posts.socket_append, Posts.socket_append]
    · rw [timerHosts_traffic, List.append_nil]
  · exact (Posts.append_none _).symm

theorem loginSecond_traffic (s : App) :
    (loginSecond s).traffic = s.traffic ++
      ⟨if loginDue s.link.loginTim then [.msg121] else [], [], [], []⟩ := by
  unfold loginSecond
  split
  · next hover =>
      rw [if_neg (c := loginDue _) fun h => h.1 hover]
      refine .trans ?_ (Posts.append_none _).symm
      split
      · exact closeAndWait_traffic _
      · rfl
  · next hover =>
      split
      · next hten =>
          rw [if_pos (c := loginDue _) ⟨hover, hten⟩]
          exact postSocket_traffic _ s
      · next hten =>
          rw [if_neg (c := loginDue _) fun h => hten h.2]
          exact (Posts.append_none _).symm

theorem timerLogin_traffic (s : App) :
    (timerLogin s).traffic = s.traffic ++
      ⟨if s.link.socketEn = 1 ∧ s.link.loginSuccess = 0 ∧ s.link.loginTim ≠ 0 ∧
          loginDue (s.link.loginTim + 1) then [.msg121] else [], [], [], []⟩ := by
  unfold timerLogin
  split
  · next h =>
      obtain ⟨hen, hlogin, htim⟩ := h
      rw [loginSecond_traffic]
      simp only [hen, hlogin, htim, ne_eq, not_false_eq_true, true_and]
      rfl
  · next h =>
      rw [if_neg fun ⟨hen, hlogin, htim, _⟩ => h ⟨hen, hlogin, htim⟩]
      exact (Posts.append_none _).symm

theorem timerContent_traffic (s : App) : (timerContent s).traffic = s.traffic := by
  have hover : ∀ t, (contentOver t).traffic = t.traffic := by
    intro t
    unfold contentOver
    split
    · exact log_traffic rfl t
    · split
      · exact closeAndWait_traffic _
      · rfl
  unfold timerContent
  split
  · rfl
  · split
    · exact hover _
    · rfl

theorem timerClose_traffic (io : Platform) (s : App) : (timerClose io s).traffic = s.traffic := by
  have hover : ∀ t, (closeOver io t).traffic = t.traffic := by
    intro t
    unfold closeOver
    split
    · exact socketEnter_traffic io t
    · split
      · exact closeAndWait_traffic _
      · rfl
  unfold timerClose
  split
  · rfl
  · split
    · exact hover _
    · rfl

theorem timerSilence_link_call (s : App) :
    (timerSilence s).link = s.link ∧ (timerSilence s).call = s.call := by
  unfold timerSilence
  split <;> exact ⟨rfl, rfl⟩

theorem timerCall_link_call (s : App) :
    (timerCall s).link = s.link ∧ (timerCall s).call = s.call := by
  unfold timerCall
  split <;> exact ⟨rfl, rfl⟩

theorem timerFrame_link_call (s : App) :
    (timerFrame s).link = s.link ∧ (timerFrame s).call = s.call := by
  unfold timerFrame
  split <;> exact ⟨rfl, rfl⟩

theorem timerBroadcast_link (s : App) : (timerBroadcast s).link = s.link := by
  unfold timerBroadcast
  split <;> rfl

/-- The first half of a second: the silence, the call, and the broadcast. -/
def secondBegun (s : App) : App :=
  timerBroadcast (timerFrame (timerCall (timerSilence (timerSecond s))))

theorem secondBegun_link (s : App) :
    (secondBegun s).link = { s.link with heartbeatTim := s.link.heartbeatTim + 1 } := by
  unfold secondBegun
  rw [timerBroadcast_link, (timerFrame_link_call _).1, (timerCall_link_call _).1,
    (timerSilence_link_call _).1]
  rfl

theorem secondBegun_traffic (s : App) :
    (secondBegun s).traffic = s.traffic ++
      ⟨(if s.call.callUserOperation ≠ 0 then [.msg126] else []) ++
        (if s.call.mailListALLTim ≠ 0 then [.msg133] else []), [], [],
        if s.link.heartbeatTim + 1 > 130 then [.powerReboot] else []⟩ := by
  unfold secondBegun
  rw [timerBroadcast_traffic, (timerFrame_link_call _).2, (timerCall_link_call _).2,
    (timerSilence_link_call _).2, timerFrame_traffic, timerCall_traffic,
    (timerSilence_link_call _).2, timerSilence_traffic]
  simp only [Posts.append_eq, Posts.append, List.append_nil, List.append_assoc]
  rfl

theorem timerAlive_link (s : App) : (timerAlive s).link = s.link := by
  unfold timerAlive
  split <;> rfl

/-- The counters of the hosts and of the day are all that moves while logged in. -/
theorem timerLoggedIn_link (s : App) :
    ∃ t d, (timerLoggedIn s).link = { s.link with mailListTim := t, isOneDay := d } := by
  obtain ⟨t, hhosts⟩ := timerHosts_link s
  obtain ⟨d, hday⟩ := timerDay_link (timerHosts s)
  unfold timerLoggedIn
  split
  · split
    · exact ⟨t, d, by rw [timerAlive_link, timerBusy_link, hday, hhosts]⟩
    · exact ⟨t, s.link.isOneDay, hhosts⟩
  · exact ⟨s.link.mailListTim, s.link.isOneDay, rfl⟩

/-- **The timer.** -/
theorem timerHeartbeat_traffic (io : Platform) (s : App) :
    (timerHeartbeat io s).traffic = s.traffic ++ secondPosts s := by
  obtain ⟨t, d, hlink⟩ := timerLoggedIn_link (secondBegun s)
  show (timerClose io (timerContent (timerLogin (timerLoggedIn (secondBegun s))))).traffic = _
  rw [timerClose_traffic, timerContent_traffic, timerLogin_traffic, hlink, timerLoggedIn_traffic,
    secondBegun_link, secondBegun_traffic]
  simp only [Posts.append_eq, Posts.append, secondPosts, secondMsgs, List.append_nil,
    List.append_assoc]

/-! ## The audio side, and the step -/

theorem buttonBusy_traffic (s : App) : (buttonBusy s).traffic = s.traffic ++ markerPosts s := by
  unfold buttonBusy markerPosts
  dsimp only
  split
  · next h =>
      rw [if_pos (Or.inl h)]
      exact postSocket_traffic _ _
  · next h1 =>
      split
      · next h =>
          rw [if_pos (Or.inr (Or.inl h))]
          exact postSocket_traffic _ _
      · next h2 =>
          split
          · next h =>
              rw [if_pos (Or.inr (Or.inr (Or.inl h)))]
              exact postSocket_traffic _ _
          · next h3 =>
              split
              · next h =>
                  rw [if_pos (Or.inr (Or.inr (Or.inr h)))]
                  exact postSocket_traffic _ _
              · next h4 =>
                  rw [if_neg (by rintro (h | h | h | h) <;> contradiction)]
                  exact (Posts.append_none _).symm

theorem buttonCall_traffic (s : App) :
    (buttonCall s).traffic = s.traffic ++ Event.button.posts s := by
  have hmp3 := postMp3_traffic (.audio .waitConv) { s with call.callUserOperation := 1 }
  show (App.postSocket .msg123 _).traffic = _
  rw [postSocket_traffic, Event.posts, ← Posts.append_assoc]
  exact congrArg (· ++ Posts.socket .msg123) hmp3

theorem uart3Frame_traffic (s : App) : (uart3Frame s).traffic = s.traffic ++ uart3Posts s := by
  unfold uart3Frame uart3Posts
  split
  · unfold buttonFrame
    split
    · exact (Posts.append_none _).symm
    · split
      · exact buttonCall_traffic s
      · split
        · exact (Posts.append_none _).symm
        · exact buttonBusy_traffic s
  · split
    · exact postSocket_traffic _ s
    · split
      · exact postSocket_traffic _ s
      · split
        · exact postSocket_traffic _ s
        · exact (Posts.append_none _).symm

theorem uart3Read_traffic (io : Platform) (s : App) :
    (uart3Read io s).traffic = s.traffic ++ audioPosts io .uart3Read s := by
  unfold uart3Read audioPosts
  dsimp only
  by_cases hread : s.link.mailListTim ≠ 0 ∨ io.uartAvailable < 2
  · have hno : ¬ (s.link.mailListTim = 0 ∧ 2 ≤ io.uartAvailable ∧
        isUart3Frame (readTemp io s).uart.temp) := by
      rintro ⟨h1, h2, -⟩
      rcases hread with h | h
      · exact h h1
      · omega
    rw [if_pos hread, if_neg hno, Posts.append_none]
  · have h1 : s.link.mailListTim = 0 := not_not.mp fun h => hread (Or.inl h)
    have h2 : 2 ≤ io.uartAvailable := Nat.le_of_not_lt fun h => hread (Or.inr h)
    rw [if_neg hread]
    by_cases hf : isUart3Frame (readTemp io s).uart.temp
    · rw [if_pos hf, if_pos ⟨h1, h2, hf⟩]
      exact uart3Frame_traffic (readTemp io s)
    · rw [if_neg hf, if_neg fun h => hf h.2.2]
      exact (Posts.append_none _).symm

theorem hmiPrompt_traffic (f : Mp3File) (s : App) :
    (hmiPrompt f s).traffic = s.traffic ++ .mp3 (.audio f) := by
  unfold hmiPrompt
  rw [postMp3_traffic, audioStopV2_traffic]
  rfl

/-- **The audio thread.** -/
theorem audioDuplexthread_traffic (io : Platform) (m : AudioMsg) (s : App) :
    (audioDuplexthread io m s).traffic = s.traffic ++ audioPosts io m s := by
  cases m with
  | uart2Read => exact (Posts.append_none _).symm
  | uart3Read => exact uart3Read_traffic io s
  | uart3Send pData => exact (log_traffic rfl s).trans (Posts.append_none _).symm
  | hmiNews => exact (log_traffic rfl _).trans (Posts.append_none _).symm
  | hmiNews2 => exact hmiPrompt_traffic _ s
  | hmiNews3 => exact hmiPrompt_traffic _ s
  | hmiNews4 => exact hmiPrompt_traffic _ s
  | time5s => exact postMp3_traffic _ s

theorem OnlyPlays.traffic {s t : App} (h : OnlyPlays s t) : t.traffic = s.traffic := by
  obtain ⟨f, os, rfl, hos⟩ := h
  have hnone : os.filter Out.isControl = [] := by
    refine List.filter_eq_nil_iff.mpr fun o ho => ?_
    have hplayer := hos o ho
    cases o <;> first | exact Bool.false_ne_true | exact absurd hplayer Bool.false_ne_true
  unfold App.traffic
  simp only [List.filter_append, hnone, List.append_nil]

theorem mp3Audio_traffic (io : Platform) (f : Mp3File) (s : App) :
    (mp3Audio io f s).traffic = s.traffic := by
  unfold mp3Audio
  split
  · exact (log_traffic rfl _).trans (log_traffic rfl s)
  · rw [(audioPlayMP3_onlyPlays io f _).traffic, log_traffic rfl, log_traffic rfl]

/-- **The prompt thread.** -/
theorem audioPlayMP3Thread_traffic (io : Platform) (m : Mp3Msg) (s : App) :
    (audioPlayMP3Thread io m s).traffic = s.traffic ++ promptPosts m := by
  cases m with
  | audio f => exact (mp3Audio_traffic io f s).trans (Posts.append_none _).symm
  | stop f => exact (mp3Audio_traffic io f s).trans (Posts.append_none _).symm
  | stopAudioStart =>
      unfold audioPlayMP3Thread
      dsimp only
      split
      · rw [postAudio_traffic, log_traffic rfl, log_traffic rfl]
        rfl
      · exact postAudio_traffic _ s

theorem audioRecordCb_traffic (buff : Mem) (len : Nat) (s : App) :
    (audioRecordCb buff len s).traffic = s.traffic ++ (recordEvent len s).posts s := by
  unfold audioRecordCb recordEvent
  split
  · exact (Posts.append_none _).symm
  · next hall =>
      have h0 : s.call.isMailListALL = 0 := not_not.mp hall
      by_cases hoff : s.link.socketFd = -1 ∨ s.call.callUserOperation = 0
      · rw [if_pos (hoff.imp_right fun h => ⟨h, h0⟩), if_pos hoff]
        exact (audioStopV2_traffic s).trans (Posts.append_none _).symm
      · rw [if_neg fun h => hoff (h.imp_right And.left), if_neg hoff]
        exact postSocket_traffic _ _

theorem audioPlayCb_traffic (s : App) : (audioPlayCb s).2.traffic = s.traffic := by
  unfold audioPlayCb
  split <;> rfl

theorem socketEvent_traffic (e : SocketEvent) (s : App) :
    (socketEventProcessCb e s).traffic = s.traffic ++ socketEventPosts e := by
  cases e with
  | connectRsp => exact postSocket_traffic _ _
  | closeRsp => exact (Posts.append_none _).symm
  | errorInd => exact (dropSocket_traffic s).trans (Posts.append_none _).symm
  | unexpected => exact (dropSocket_traffic s).trans (Posts.append_none _).symm
  | readInd n => exact postSocket_traffic _ s

/-- **The firmware posts what `postsOf` says**, behind what still waits. -/
theorem Steps.traffic_eq {x y : Sys} {a : Act} (h : Steps x a y) :
    y.app.traffic = (taken a x.app).traffic ++ postsOf a x := by
  cases h with
  | isCmd =>
      rw [Sys.ofJump_app]
      exact isCmd_traffic _ _
  | @recv s n ms chunk hms _ =>
      rw [Sys.ofJump_app, message122_traffic, taken, hms]
      exact (Posts.append_none _).symm
  | @socket s m ms io hms _ =>
      simp only [postsOf, taken, hms]
      exact socketTestThread_traffic io m { s with socketMsgs := ms }
  | @audio s m ms io hms =>
      simp only [postsOf, taken, hms]
      exact audioDuplexthread_traffic io m { s with audioMsgs := ms }
  | @mp3 s m ms io hms =>
      simp only [postsOf, taken, hms]
      exact audioPlayMP3Thread_traffic io m { s with mp3Msgs := ms }
  | @timerHeartbeat s io =>
      simp only [postsOf, taken]
      exact timerHeartbeat_traffic io s
  | @socketEvent s e => exact socketEvent_traffic e s
  | @audioRecordCb s buff len => exact audioRecordCb_traffic buff len s
  | @audioPlayCb s => exact (audioPlayCb_traffic s).trans (Posts.append_none _).symm
  | timerHeartbeat2 _ => exact postAudio_traffic _ _
  | uart2Event => exact postAudio_traffic _ _
  | uart3Event => exact postAudio_traffic _ _

end IntercomSalve
