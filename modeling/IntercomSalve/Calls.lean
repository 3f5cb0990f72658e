/-
# `Calls` — the handlers of call frames, and the call timer

`DIAL_REQ_REQ_CALL_RETURN_hander` takes the server's answers to our own calls,
`CALLED_REQ_REQ_CALL_RETURN_hander` the calls of others, `call_overtime_fun` the
seconds of a call.  All three read the frame through `pRecv` and
`handle_deviation`, and two of them set `handle_deviation` on the way.

`call_user_operation`: 0 idle, 1 calling, 2 ringing, 3 connected, 5 called.
-/
import IntercomSalve.Audio

namespace IntercomSalve

/-- Build a call frame (command, road, code, IMEI) in `socket_data_handle` and
send it. -/
def sendCallFrame (cmd : SocketInstruction) (road code : UInt8) (imei : Mem) (s : App) : App :=
  let h := s.socketDataHandle.memcpy 5
    (Mem.ofList [UInt8.ofNat cmd.code, 0, 0x11, road, code]) 5
  let h := h.memcpy 10 imei 15
  App.socketSend h 25 { s with socketDataHandle := h }

/-- `pRecv[k + handle_deviation]`. -/
def Rx.byteAt (r : Rx) (k : Nat) : UInt8 := r.pRecv (k + r.handleDeviation)

/-- `pRecv + k + handle_deviation`. -/
def Rx.bytesAt (r : Rx) (k : Nat) : Mem := r.pRecv.ptr (k + r.handleDeviation)

/-- Reset of the parser in the handlers; the buffer stays. -/
def Rx.clear (r : Rx) : Rx :=
  { r with handleDeviation := 0, currentDataLength := 0, currentDataLengthSave := 0,
           analysisHandle := 0 }

/-- The block the source marks "clear the variables". -/
def clearVars (s : App) : App :=
  { s with
    record.audioDataNumSend := 0
    call.mailListRoad1 := 0, call.mailListRoad2 := 0
    call.mailListRoad3 := 0, call.mailListRoad4 := 0
    call.mailListId := 0
    rx := s.rx.clear }

/-- The relay command with the road byte of the frame at the cursor. -/
def relayCmd (on : UInt8) (s : App) : App :=
  sendUart3Write 0x02 (s.rx.byteAt 8 - 0x30) on s

/-- The markers of the other channels, tested in turn: the first one above 2 is
set to 2, and the answer is taken to be for that channel. -/
def breakOtherChannel (c : Call) : Option Call :=
  if c.mailListRoad1 > 2 then some { c with mailListRoad1 := 2 }
  else if c.mailListRoad2 > 2 then some { c with mailListRoad2 := 2 }
  else if c.mailListRoad3 > 2 then some { c with mailListRoad3 := 2 }
  else if c.mailListRoad4 > 2 then some { c with mailListRoad4 := 2 }
  else none

/-! ## Answers to our own calls -/

/-- `DIAL_REQ_REQ_CALL_RETURN_0`: busy.  The rest of the source's case stands
after a `break`. -/
def dialBusy (s : App) : App :=
  if s.call.callUserOperation = 1 then
    match breakOtherChannel s.call with
    | some c => { s with call := c }
    | none =>
        let s := { s with call.callUserOperation := 0, call.callUserTim := 0, call.isHostBusy := 1 }
        relayCmd 0 (s.postAudio .hmiNews4)
  else s

/-- `DIAL_REQ_REQ_CALL_RETURN_2` and `_4`: accepted. -/
def dialAccepted (s : App) : App :=
  App.postMp3 .stopAudioStart
    { s with
      call.callUserOperation := 3, call.callUserTim := 0, call.mailListId := 0
      record.audioDataNumSend := 0
      rx := s.rx.clear }

/-- End of a call by a frame: the prompt depends on how long the call lasted. -/
def endByFrame (s : App) : App :=
  let s := { s with call.callUserOperation := 0 }
  let s := s.postAudio (if s.call.callUserTim > callMaxTim - 2 then .hmiNews3 else .hmiNews2)
  relayCmd 0 { s with call.callUserTim := 0 }

/-- `DIAL_REQ_REQ_CALL_RETURN_3` and `_5`: refused, hung up. -/
def dialRefused (s : App) : App :=
  match breakOtherChannel s.call with
  | some c => { s with call := c }
  | none => endByFrame s

/-- `DIAL_REQ_REQ_CALL_RETURN_hander ()`. -/
def dialReqReqCallReturnHander (s : App) : App :=
  match CallReturn.ofCode (s.rx.byteAt 9) with
  | some .return0 => dialBusy s
  | some .return1 => { s with call.callUserOperation := 2 }
  | some .return2 | some .return4 => dialAccepted s
  | some .return3 | some .return5 => dialRefused s
  | none => s

/-! ## Calls of others -/

/-- The call of `imei` on channel `road` is taken: the state, and the caller in
`mail_list[3]`. -/
def Call.answered (c : Call) (road : UInt8) (imei : Mem) : Call :=
  { c with
    callUserOperation := 5
    callUserTim := 0
    mailList := Function.update c.mailList 3
      (Function.update ((c.mailList 3).memcpy 0 imei 15) 15 road)
    mailListRoad := road }

/-- The call is answered, the voice device started and the relay closed. -/
def answerCall (road : UInt8) (imei : Mem) (s : App) : App :=
  relayCmd 1 (App.postMp3 .stopAudioStart
    (sendCallFrame .instruction6 road CallReturn.return2.code imei
      { s with call := s.call.answered road imei }))

/-- `DIAL_REQ_REQ_CALL_1`: a call comes in.  The cursor is reset before the frame
is read. -/
def calledAnswer (s : App) : App :=
  if s.call.callUserOperation ≠ 0 then { s with call.mailListId := 1 }
  else
    answerCall ((clearVars s).rx.byteAt 8) ((clearVars s).rx.bytesAt 10) (clearVars s)

/-- `DIAL_REQ_REQ_CALL_2` and `_4`: cancelled, hung up. -/
def calledHangUp (s : App) : App :=
  if s.call.mailListId ≠ 0 then { s with call.mailListId := 0 } else endByFrame s

/-- `CALLED_REQ_REQ_CALL_RETURN_hander ()`. -/
def calledReqReqCallReturnHander (s : App) : App :=
  if s.call.isMailListALL ≠ 0 then s
  else
    match DialReqReqCall.ofCode (s.rx.byteAt 9) with
    | some .call1 => calledAnswer s
    | some .call2 | some .call4 => calledHangUp s
    | some .call3 | none => s

/-! ## The call timer -/

/-- Back to idle, without a word to anybody. -/
def callOver (s : App) : App := { s with call.callUserTim := 0, call.callUserOperation := 0 }

/-- End of a call by the timer, in states 1 and 2. -/
def overtimeIdle (s : App) : App := clearVars (callOver (relayCmd 0 (s.postAudio .hmiNews2)))

/-- State 1: the call is repeated every 3 s. -/
def callingRepeat (io : Platform) (s : App) : App :=
  if s.call.callUserTim % 3 = 0 then
    newConnect (io.socketSend 0) (sendCallFrame .instruction3 s.call.mailListRoad
      DialReqReqCall.call1.code (s.call.mailList 0) s)
  else s

/-- State 1: the first host is told that the call is off. -/
def callingEnd (io : Platform) (s : App) : App :=
  if s.call.callUserTim > callMaxTim then
    overtimeIdle (newConnect (io.socketSend 1) (sendCallFrame .instruction3 s.call.mailListRoad
      DialReqReqCall.call2.code (s.call.mailList 0) s))
  else s

/-- The host that is rung for the second half of the time: the second one, if there
is one. -/
def nextHost (c : Call) : Fin 4 := if c.mailList 1 0 ≠ 0 then 1 else 0

/-- State 2: after half the time the first host is told that the call is off, and the
next one is rung. -/
def ringingSwitch (io : Platform) (s : App) : App :=
  if s.call.callUserTim = callMaxTim / 2 then
    newConnect (io.socketSend 1) (sendCallFrame .instruction3 s.call.mailListRoad
      DialReqReqCall.call1.code (s.call.mailList (nextHost s.call))
      (sendCallFrame .instruction3 s.call.mailListRoad
        DialReqReqCall.call2.code (s.call.mailList 0) s))
  else s

/-- State 2: the second host is told that the call is off. -/
def ringingEnd (io : Platform) (s : App) : App :=
  if s.call.callUserTim > callMaxTim then
    overtimeIdle (newConnect (io.socketSend 2) (sendCallFrame .instruction3 s.call.mailListRoad
      DialReqReqCall.call2.code (s.call.mailList 1) s))
  else s

/-- End of a call by the timer, in states 3 and 5. -/
def overtimeClose (s : App) : App := clearVars (relayCmd 0 (callOver s))

/-- State 3: nothing has come for too long. -/
def connectedQuiet (s : App) : App :=
  if s.link.heartbeatTim > callReceptionTimeout then overtimeClose (s.log .socketClose) else s

/-- The connection is closed for good. -/
def dropSocket (s : App) : App := { s.log .socketClose with link.socketFd := -1 }

/-- State 3: the second host is told that the call is off, and the connection is
closed. -/
def connectedEnd (io : Platform) (s : App) : App :=
  if s.call.callUserTim > callMaxTim then
    dropSocket (overtimeClose (App.postAudio .hmiNews2
      (newConnect (io.socketSend 0) (sendCallFrame .instruction3 s.call.mailListRoad
        DialReqReqCall.call2.code (s.call.mailList 1) s))))
  else s

/-- State 5: nothing has come for too long. -/
def calledQuiet (s : App) : App :=
  if s.link.heartbeatTim > callReceptionTimeout then
    overtimeClose ((s.log .socketClose).postAudio .hmiNews2)
  else s

/-- State 5: the second host is told that the call is off. -/
def calledEnd (io : Platform) (s : App) : App :=
  if s.call.callUserTim > callMaxTim then
    overtimeClose (App.postAudio .hmiNews2
      (newConnect (io.socketSend 0) (sendCallFrame .instruction6 s.call.mailListRoad
        CallReturn.return5.code (s.call.mailList 1) s)))
  else s

/-- `call_user_tim++`. -/
def callSecond (s : App) : App := { s with call.callUserTim := s.call.callUserTim + 1 }

/-- `call_overtime_fun ()` after the count, by the state of the call. -/
def overtimeOf (io : Platform) (s : App) : App :=
  if s.call.callUserOperation = 1 then callingEnd io (callingRepeat io s)
  else if s.call.callUserOperation = 2 then ringingEnd io (ringingSwitch io s)
  else if s.call.callUserOperation = 3 then connectedEnd io (connectedQuiet s)
  else if s.call.callUserOperation = 5 then calledEnd io (calledQuiet s)
  else s

/-- `call_overtime_fun ()`. -/
def callOvertimeFun (io : Platform) (s : App) : App := overtimeOf io (callSecond s)

end IntercomSalve
