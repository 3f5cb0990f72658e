/-
# `Effects` — what a step sends, and what it is made of

`Session` says what a step does to the flags.  This module says what it does to the wires:
the bytes given to `KING_SocketSend`, the relay commands, and the places both are made of,
which are the buffers of the relay commands, `temp`, and the ring of the recorder.

`effectOf` reads off the state before a step which frames it sends and which relay command
it fills in and posts; nothing in it is computed by a handler, and it does not look into
`socket_data_handle`, where the frames are built.  `Steps.wires_eq` says that the firmware
does exactly that.
-/
import IntercomSalve.Frames
import IntercomSalve.Session

namespace IntercomSalve

open Goto

/-! ## The wires -/

/-- A relay command: the buffer it is written into, and its bytes. -/
structure Command where
  pData : Uart3Buf
  bytes : List UInt8

/-- What goes out, and what it is made of. -/
structure Wires where
  /-- the bytes given to `KING_SocketSend`, in order -/
  sent : List UInt8
  /-- the byte strings the buffers held when `MSG_EVT_UART3_SEND` was posted -/
  posted : List (List UInt8)
  /-- the byte strings given to `KING_UartWrite` -/
  written : List (List UInt8)
  /-- the buffers that waiting `MSG_EVT_UART3_SEND` point to -/
  pending : List Uart3Buf
  uart3Bytes : Uart3Buf → List UInt8
  /-- the waiting messages 129, 131 and 132 -/
  reports : List SocketMsg
  /-- `temp + 5`, which they point to -/
  pData : Mem
  audioData : Mem
  encode : Adpcm
  decode : Adpcm

def Out.sent : Out → List UInt8
  | .socketSend buf => buf
  | _ => []

def Out.posted : Out → List (List UInt8)
  | .uart3Posted buf => [buf]
  | _ => []

def Out.written : Out → List (List UInt8)
  | .uartWrite buf => [buf]
  | _ => []

/-- The buffer a message of the audio thread points to. -/
def AudioMsg.pData? : AudioMsg → Option Uart3Buf
  | .uart3Send pData => some pData
  | _ => none

/-- The messages that upload a report. -/
def SocketMsg.isReport : SocketMsg → Bool
  | .msg129 | .msg131 | .msg132 => true
  | _ => false

/-- The wires of the globals. -/
def App.wires (s : App) : Wires where
  sent := s.out.flatMap Out.sent
  posted := s.out.flatMap Out.posted
  written := s.out.flatMap Out.written
  pending := s.audioMsgs.filterMap AudioMsg.pData?
  uart3Bytes := s.uart3Bytes
  reports := s.socketMsgs.filter SocketMsg.isReport
  pData := s.uart.temp.ptr 5
  audioData := s.record.audioData
  encode := s.encode
  decode := s.decode

/-- A command is filled in and posted: what it does not overwrite stays. -/
def Wires.command (c : Command) (w : Wires) : Wires :=
  let bytes := c.bytes ++ (w.uart3Bytes c.pData).drop c.bytes.length
  { w with
    uart3Bytes := Function.update w.uart3Bytes c.pData bytes
    pending := w.pending ++ [c.pData]
    posted := w.posted ++ [bytes] }

/-- What a handler sends. -/
structure Effect where
  frames : List Frame
  command : Option Command

/-- Frames are sent. -/
def Wires.send (fs : List Frame) (w : Wires) : Wires :=
  { w with sent := w.sent ++ fs.flatMap Frame.bytes }

/-- Nothing. -/
def Effect.none : Effect := ⟨[], .none⟩

def Effect.after (e : Effect) (w : Wires) : Wires :=
  match e.command with
  | .none => w.send e.frames
  | some c => (w.send e.frames).command c

@[simp] theorem Wires.send_nil (w : Wires) : w.send [] = w := by
  simp [Wires.send]

theorem Wires.send_send (fs gs : List Frame) (w : Wires) :
    (w.send fs).send gs = w.send (fs ++ gs) := by
  simp [Wires.send, List.flatMap_append]

@[simp] theorem Effect.none_after (w : Wires) : Effect.none.after w = w := Wires.send_nil w

/-! ## The small calls -/

theorem App.log_wires (o : Out) (s : App) :
    (s.log o).wires =
      { s.wires with
        sent := s.wires.sent ++ o.sent
        posted := s.wires.posted ++ o.posted
        written := s.wires.written ++ o.written } := by
  simp [App.wires, App.log, List.flatMap_append]
  rfl

/-- The entries of the log that the wires do not see. -/
def Out.isQuiet : Out → Bool
  | .socketSend _ | .uart3Posted _ | .uartWrite _ => false
  | _ => true

theorem App.log_quiet {o : Out} (h : o.isQuiet = true) (s : App) : (s.log o).wires = s.wires := by
  rw [App.log_wires]
  cases o with
  | socketSend _ => exact nomatch h
  | uart3Posted _ => exact nomatch h
  | uartWrite _ => exact nomatch h
  | _ => simp [Out.sent, Out.posted, Out.written]

theorem App.postAudio_quiet {m : AudioMsg} (h : m.pData? = none) (s : App) :
    (s.postAudio m).wires = s.wires := by
  simp [App.wires, App.postAudio, List.filterMap_append, h]
  rfl

theorem App.postSocket_wires (m : SocketMsg) (s : App) :
    (s.postSocket m).wires =
      { s.wires with reports := s.wires.reports ++ [m].filter SocketMsg.isReport } := by
  simp [App.wires, App.postSocket, List.filter_append]
  rfl

theorem App.postSocket_quiet {m : SocketMsg} (h : m.isReport = false) (s : App) :
    (s.postSocket m).wires = s.wires := by
  rw [App.postSocket_wires]
  simp [h]

@[simp] theorem App.postMp3_wires (m : Mp3Msg) (s : App) : (s.postMp3 m).wires = s.wires := rfl

/-! ## Relay commands -/

/-- `"cmd\xNN"` and its arguments. -/
def uart3Cmd (pData : Uart3Buf) (cmd : UInt8) (args : List UInt8) : Command :=
  ⟨pData, [0x63, 0x6d, 0x64, cmd] ++ args⟩

/-- What a buffer holds once a command is written into it. -/
theorem cmdBytes_slice (b : Uart3Buf) (buf : Mem) (cmd : UInt8) {args : List UInt8}
    (h : args.length ≤ 6) :
    (cmdBytes buf cmd args).slice 0 10 =
      (uart3Cmd b cmd args).bytes ++
        (buf.slice 0 10).drop (uart3Cmd b cmd args).bytes.length := by
  have hlen : 4 + args.length = (uart3Cmd b cmd args).bytes.length := by
    unfold uart3Cmd
    rw [List.length_append]
    rfl
  unfold cmdBytes
  rw [Mem.slice_memcpy_front _ _ (by omega), hlen]
  congr 1
  exact Mem.slice_ofList _

/-- A buffer is filled with a command, and its address posted. -/
theorem App.postUart3_wires {c : Command} {s t : App}
    (hbytes : t.uart3Bytes = Function.update s.uart3Bytes c.pData
      (c.bytes ++ (s.uart3Bytes c.pData).drop c.bytes.length))
    (hrest : { t.wires with uart3Bytes := s.uart3Bytes } = s.wires) :
    (t.postUart3 c.pData).wires = s.wires.command c := by
  have hpost : (t.postAudio (.uart3Send c.pData)).wires =
      { t.wires with pending := t.wires.pending ++ [c.pData] } := by
    simp [App.wires, App.postAudio, List.filterMap_append, AudioMsg.pData?]
    rfl
  have hwires : t.wires = { s.wires with uart3Bytes := t.uart3Bytes } := by
    rw [← hrest]
    rfl
  unfold App.postUart3
  rw [App.log_wires, hpost, hwires, hbytes]
  simp [Wires.command, Out.sent, Out.posted, Out.written, App.wires]

theorem sendUart3Write_wires (cmd a b : UInt8) (s : App) :
    (sendUart3Write cmd a b s).wires = s.wires.command (uart3Cmd .uart3Write cmd [a, b]) := by
  refine App.postUart3_wires (c := uart3Cmd .uart3Write cmd [a, b]) ?_ rfl
  funext k
  cases k with
  | uart3Write => exact cmdBytes_slice _ _ _ (by simp)
  | _ => rfl

theorem relayCmd_wires (on : UInt8) (s : App) :
    (relayCmd on s).wires =
      s.wires.command (uart3Cmd .uart3Write 0x02 [s.rx.byteAt 8 - 0x30, on]) :=
  sendUart3Write_wires _ _ _ s

theorem loginCmd_wires (a b c : UInt8) (s : App) :
    (loginCmd a b c s).wires = s.wires.command (uart3Cmd .uart3Writelogin 0x04 [a, b, c]) := by
  refine App.postUart3_wires (c := uart3Cmd .uart3Writelogin 0x04 [a, b, c]) ?_ rfl
  funext k
  cases k with
  | uart3Writelogin => exact cmdBytes_slice _ _ _ (by simp)
  | _ => rfl

theorem jdqCmd_wires (a b c : UInt8) (s : App) :
    (jdqCmd a b c s).wires = s.wires.command (uart3Cmd .uart3Writejdq 0x06 [a, b, c]) := by
  refine App.postUart3_wires (c := uart3Cmd .uart3Writejdq 0x06 [a, b, c]) ?_ rfl
  funext k
  cases k with
  | uart3Writejdq => exact cmdBytes_slice _ _ _ (by simp)
  | _ => rfl

/-! ## Frames -/

/-- A frame of the device; it has no broadcasts. -/
def Frame.own (cmd : SocketInstruction) (payload : List UInt8) (hcmd : cmd ≠ .instruction34)
    (hlen : payload.length < 65536) : Frame :=
  ⟨cmd, payload, hlen, fun h => absurd h hcmd⟩

/-- A call, or an answer to one: road, code, IMEI. -/
def dialFrame (cmd : SocketInstruction) (hcmd : cmd ≠ .instruction34) (road code : UInt8)
    (imei : Mem) : Frame :=
  .own cmd ([road, code] ++ imei.slice 0 15) hcmd (by simp)

/-- A call of ours. -/
def ringFrame (code : DialReqReqCall) (road : UInt8) (imei : Mem) : Frame :=
  dialFrame .instruction3 (by decide) road code.code imei

/-- The answer to a call of another. -/
def answerFrame (code : CallReturn) (road : UInt8) (imei : Mem) : Frame :=
  dialFrame .instruction6 (by decide) road code.code imei

/-- Message 121. -/
def loginFrame (io : Platform) : Frame :=
  .own .instruction1 (io.sysImei.slice 0 15) (by decide) (by simp)

/-- Message 124. -/
def heartbeatSent (io : Platform) : Frame :=
  .own .instruction11 [io.rsrp, io.rsrq] (by decide) (by simp)

/-- Message 125. -/
def packetFrame (r : Record) : Frame :=
  .own .instruction9 ((r.audioData.ptr r.audioDataNumSend).slice 0 audioDataEnMax) (by decide)
    (by simp [audioDataEnMax])

/-- Message 128. -/
def hostQueryFrame (io : Platform) : Frame :=
  .own .instruction20 (io.sysImei.slice 0 15) (by decide) (by simp)

/-- Message 129: the IMEI, and three bytes behind commas. -/
def alarmReport (io : Platform) (pData : Mem) : Frame :=
  .own .instruction22 (io.sysImei.slice 0 15 ++ [0x2c, pData 0, 0x2c, pData 1, 0x2c, pData 2])
    (by decide) (by simp)

/-- Message 131: the IMEI, the board, and its two counters behind commas. -/
def countReport (io : Platform) (id : UInt8) (a b : Mem) : Frame :=
  .own .instruction25
    (io.sysImei.slice 0 15 ++ [0x2c, id, 0x2c] ++ a.slice 0 2 ++ [0x2c] ++ b.slice 0 2)
    (by decide) (by simp)

/-- Message 132: the IMEI, and four bytes. -/
def relayReport (io : Platform) (pData : Mem) : Frame :=
  .own .instruction30 (io.sysImei.slice 0 15 ++ pData.slice 0 4) (by decide) (by simp)

theorem HandleOk.head_eq {s : App} (h : HandleOk s) : s.head = [0xAA, 0xFA, 0x00, 0x00, 0x01] := by
  obtain ⟨h0, h1, h2, h3, h4⟩ := h
  simp [App.head, Mem.slice, List.range_succ, h0, h1, h2, h3, h4]

theorem App.socketSend_wires (buf : Mem) (n : Nat) (s : App) :
    (s.socketSend buf n).wires = { s.wires with sent := s.wires.sent ++ buf.slice 0 n } := by
  unfold App.socketSend
  rw [App.log_wires]
  simp [Out.sent, Out.posted, Out.written]

/-- A frame that stands in `socket_data_handle` is sent. -/
theorem sendHandle_wires {n : Nat} {f : Frame} {s : App} (h : s.socketDataHandle.slice 0 n = f.bytes) :
    (sendHandle n s).wires = s.wires.send [f] := by
  unfold sendHandle
  rw [App.socketSend_wires, h]
  simp [Wires.send]

/-- What stands in `socket_data_handle` after a copy to the end of what stood there. -/
theorem pokeFrom_built {i : Nat} {bs : List UInt8} {s : App}
    (h : s.socketDataHandle.slice 0 i = bs) (src : Mem) (n : Nat) :
    (pokeFrom i src n s).socketDataHandle.slice 0 (i + n) = bs ++ src.slice 0 n := by
  rw [← h]
  exact Mem.slice_memcpy_end _ _ _ _

theorem poke_built {i : Nat} {bs : List UInt8} {s : App}
    (h : s.socketDataHandle.slice 0 i = bs) (cs : List UInt8) :
    (poke i cs s).socketDataHandle.slice 0 (i + cs.length) = bs ++ cs := by
  have hp := pokeFrom_built h (Mem.ofList cs) cs.length
  rwa [Mem.slice_ofList] at hp

theorem sendCallFrame_wires {cmd : SocketInstruction} (hcmd : cmd ≠ .instruction34)
    (road code : UInt8) (imei : Mem) {s : App} (hs : HandleOk s) :
    (sendCallFrame cmd road code imei s).wires =
      s.wires.send [dialFrame cmd hcmd road code imei] := by
  have hbuilt := pokeFrom_built (poke_built hs.head_eq [UInt8.ofNat cmd.code, 0, 0x11, road, code])
    imei 15
  refine sendHandle_wires (s := pokeFrom 10 imei 15 (poke 5 _ s)) (hbuilt.trans ?_)
  simp [Frame.bytes, dialFrame, Frame.own]

/-! ## The receive loop -/

/-- The relay command with the road byte of the frame. -/
def relayCommand (on : UInt8) (r : Rx) : Command :=
  uart3Cmd .uart3Write 0x02 [r.byteAt 8 - 0x30, on]

/-- The answer to our call at the cursor. -/
def dialEffect (s : App) : Effect :=
  match dialEvent s with
  | .ended => ⟨[], relayCommand 0 s.rx⟩
  | _ => .none

/-- The call request at the cursor; the cursor is reset before it is answered. -/
def calledEffect (s : App) : Effect :=
  match calledEvent s with
  | .ended => ⟨[], relayCommand 0 s.rx⟩
  | .answered =>
      ⟨[answerFrame .return2 (s.rx.clear.byteAt 8) (s.rx.clear.bytesAt 10)],
        relayCommand 1 s.rx.clear⟩
  | _ => .none

/-- The broadcast frame at the cursor. -/
def broadcastEffect (s : App) : Effect :=
  match broadcastEvent s with
  | .broadcastOn => ⟨[], uart3Cmd .uart3Write 0x03 [s.rx.byteAt 9, 0]⟩
  | .broadcastOff => ⟨[], uart3Cmd .uart3Write 0x02 [0, 0]⟩
  | _ => .none

/-- What the frame of command `c` at the cursor makes the device send. -/
def frameEffect (c : SocketInstruction) (s : App) : Effect :=
  match c with
  | .instruction2 =>
      ⟨[], uart3Cmd .uart3Writelogin 0x04 [s.rx.byteAt 9, s.rx.byteAt 10, s.rx.byteAt 11]⟩
  | .instruction4 => dialEffect s
  | .instruction5 => calledEffect s
  | .instruction29 =>
      ⟨[], uart3Cmd .uart3Writejdq 0x06 [s.rx.byteAt 23, s.rx.byteAt 24, s.rx.byteAt 25]⟩
  | .instruction34 => broadcastEffect s
  | _ => .none

theorem Effect.command_after (c : Command) (w : Wires) :
    (⟨[], some c⟩ : Effect).after w = w.command c := by
  show (w.send []).command c = w.command c
  rw [Wires.send_nil]

theorem dialBusy_wires (s : App) :
    (dialBusy s).wires =
      (if s.call.callUserOperation = 1 ∧ (breakOtherChannel s.call).isNone then
        (⟨[], relayCommand 0 s.rx⟩ : Effect) else .none).after s.wires := by
  unfold dialBusy
  split
  · next h1 =>
      cases hb : breakOtherChannel s.call with
      | some c =>
          rw [if_neg (by simp), Effect.none_after]
          rfl
      | none =>
          rw [if_pos ⟨h1, rfl⟩, Effect.command_after]
          exact (relayCmd_wires _ _).trans (by rw [App.postAudio_quiet rfl]; rfl)
  · next h1 =>
      rw [if_neg fun h => h1 h.1, Effect.none_after]

theorem endByFrame_wires (s : App) :
    (endByFrame s).wires = s.wires.command (relayCommand 0 s.rx) := by
  have hpost : ∀ t : App, (t.postAudio
      (if t.call.callUserTim > callMaxTim - 2 then .hmiNews3 else .hmiNews2)).wires = t.wires := by
    intro t
    refine App.postAudio_quiet ?_ t
    split <;> rfl
  unfold endByFrame
  refine (relayCmd_wires _ _).trans ?_
  congr 1
  exact hpost { s with call.callUserOperation := 0 }

theorem dialRefused_wires (s : App) :
    (dialRefused s).wires =
      (if (breakOtherChannel s.call).isNone then (⟨[], relayCommand 0 s.rx⟩ : Effect)
        else .none).after s.wires := by
  unfold dialRefused
  cases hb : breakOtherChannel s.call with
  | some c =>
      rw [if_neg (by simp), Effect.none_after]
      rfl
  | none => exact (endByFrame_wires s).trans (Effect.command_after _ _).symm

theorem dial_wires (s : App) :
    (dialReqReqCallReturnHander s).wires = (dialEffect s).after s.wires := by
  have hended : ∀ (p : Prop) [Decidable p],
      (match (if p then Event.ended else .nothing) with
        | .ended => (⟨[], relayCommand 0 s.rx⟩ : Effect)
        | _ => .none) =
      if p then ⟨[], relayCommand 0 s.rx⟩ else .none := by
    intro p _
    by_cases hp : p <;> simp [hp]
  unfold dialReqReqCallReturnHander dialEffect dialEvent
  cases CallReturn.ofCode (s.rx.byteAt 9) with
  | none => exact (Effect.none_after _).symm
  | some r =>
      cases r with
      | return0 =>
          dsimp only
          rw [hended]
          exact dialBusy_wires s
      | return3 | return5 =>
          dsimp only
          rw [hended]
          exact dialRefused_wires s
      | return1 | return2 | return4 => exact (Effect.none_after _).symm

theorem answerCall_wires (road : UInt8) (imei : Mem) {s : App} (hs : HandleOk s) :
    (answerCall road imei s).wires =
      (⟨[answerFrame .return2 road imei], relayCommand 1 s.rx⟩ : Effect).after s.wires := by
  unfold answerCall
  refine (relayCmd_wires _ _).trans ?_
  show _ = (s.wires.send _).command _
  congr 1
  exact sendCallFrame_wires (s := { s with call := s.call.answered road imei }) (by decide) road _
    imei hs

theorem called_wires {s : App} (hs : HandleOk s) :
    (calledReqReqCallReturnHander s).wires = (calledEffect s).after s.wires := by
  have hup : (calledHangUp s).wires =
      (match (if s.call.mailListId ≠ 0 then Event.unmarked else .ended) with
        | .ended => (⟨[], relayCommand 0 s.rx⟩ : Effect)
        | .answered => ⟨[answerFrame .return2 (s.rx.clear.byteAt 8) (s.rx.clear.bytesAt 10)],
            relayCommand 1 s.rx.clear⟩
        | _ => .none).after s.wires := by
    unfold calledHangUp
    split
    · exact (Effect.none_after _).symm
    · rw [endByFrame_wires, Effect.command_after]
  unfold calledReqReqCallReturnHander calledEffect calledEvent
  split
  · exact (Effect.none_after _).symm
  · cases DialReqReqCall.ofCode (s.rx.byteAt 9) with
    | none => exact (Effect.none_after _).symm
    | some r =>
        cases r with
        | call1 =>
            unfold calledAnswer
            dsimp only
            split
            · exact (Effect.none_after _).symm
            · exact answerCall_wires _ _ (s := clearVars s) hs
        | call2 => exact hup
        | call3 => exact (Effect.none_after _).symm
        | call4 => exact hup

theorem voiceFrame_wires (n ret : Nat) (s : App) : (voiceFrame n ret s).state.wires = s.wires := by
  unfold voiceFrame
  split <;> rfl

theorem broadcastVoice_wires (ret : Nat) (s : App) :
    (broadcastVoice ret s).state.wires = s.wires := by
  have hv : (voiceFrame 10 ret (setLength 80 s)).state.wires = s.wires :=
    voiceFrame_wires 10 ret (setLength 80 s)
  unfold broadcastVoice
  split
  · next u hu =>
      rw [hu] at hv
      exact hv
  · next u hu =>
      rw [hu] at hv
      exact hv

theorem broadcastStart_wires (s : App) :
    (broadcastStart s).wires =
      (if s.call.isMailListALL = 0 then
        (⟨[], uart3Cmd .uart3Write 0x03 [s.rx.byteAt 9, 0]⟩ : Effect) else .none).after s.wires := by
  unfold broadcastStart
  split
  · rw [Effect.command_after]
    exact sendUart3Write_wires _ _ _ _
  · exact (Effect.none_after _).symm

theorem broadcastStop_wires (s : App) :
    (broadcastStop s).wires =
      (if s.call.isMailListALL = 1 then
        (⟨[], uart3Cmd .uart3Write 0x02 [0, 0]⟩ : Effect) else .none).after s.wires := by
  unfold broadcastStop
  split
  · rw [Effect.command_after, App.log_quiet rfl, App.log_quiet rfl]
    exact sendUart3Write_wires _ _ _ _
  · exact (Effect.none_after _).symm

theorem broadcastFrame_wires (ret : Nat) (s : App) :
    (broadcastFrame ret s).state.wires = (broadcastEffect s).after s.wires := by
  have hcall : (asVoice s).call = s.call := rfl
  unfold broadcastFrame broadcastEffect broadcastEvent
  split
  · refine ((broadcastVoice_wires ret _).trans (broadcastStart_wires (asVoice s))).trans ?_
    rw [hcall]
    split <;> rfl
  · refine (broadcastStop_wires (asVoice s)).trans ?_
    rw [hcall]
    split <;> rfl

theorem loginReturn_wires (s : App) :
    (loginReturn s).wires = (frameEffect .instruction2 s).after s.wires :=
  (loginCmd_wires _ _ _ s).trans (Effect.command_after _ _).symm

theorem relayControl_wires (s : App) :
    (relayControl s).wires = (frameEffect .instruction29 s).after s.wires :=
  (jdqCmd_wires _ _ _ s).trans (Effect.command_after _ _).symm

theorem hostList_wires (s : App) : (hostList s).wires = s.wires := by
  unfold hostList Call.hosts
  dsimp only
  split
  · split <;> rfl
  · rfl

theorem upgradeUrl_wires (s : App) : (upgradeUrl s).wires = s.wires := App.log_quiet rfl _

/-- The case of a frame. -/
theorem caseOf_wires (ret : Nat) (c : SocketInstruction) {s : App} (hs : HandleOk s) :
    (caseOf ret c s).state.wires = (frameEffect c s).after s.wires := by
  cases c with
  | instruction2 => exact loginReturn_wires s
  | instruction4 => exact dial_wires s
  | instruction5 => exact called_wires hs
  | instruction10 => exact (voiceFrame_wires 8 ret s).trans (Effect.none_after _).symm
  | instruction21 => exact (hostList_wires s).trans (Effect.none_after _).symm
  | instruction29 => exact relayControl_wires s
  | instruction32 => exact (upgradeUrl_wires s).trans (Effect.none_after _).symm
  | instruction34 => exact broadcastFrame_wires ret s
  | _ => exact (Effect.none_after _).symm

theorem message122_wires (n : Nat) (chunk : List UInt8) (s : App) :
    (message122 n chunk s).state.wires = s.wires := by
  unfold message122
  split
  · rfl
  · split
    · unfold resumeVoice
      split
      · split <;> rfl
      · rfl
    · rfl

/-! ## The socket thread -/

/-- What a second of the call makes the device send. -/
def overtimeFrames (s : App) : List Frame :=
  let tim := s.call.callUserTim + 1
  let road := s.call.mailListRoad
  if s.call.callUserOperation = 1 then
    (if tim % 3 = 0 then [ringFrame .call1 road (s.call.mailList 0)] else []) ++
      (if tim > callMaxTim then [ringFrame .call2 road (s.call.mailList 0)] else [])
  else if s.call.callUserOperation = 2 then
    (if tim = callMaxTim / 2 then
      [ringFrame .call2 road (s.call.mailList 0),
        ringFrame .call1 road (s.call.mailList (nextHost s.call))]
      else []) ++
      (if tim > callMaxTim then [ringFrame .call2 road (s.call.mailList 1)] else [])
  else if s.link.heartbeatTim > callReceptionTimeout then []
  else if s.call.callUserOperation = 3 then
    (if tim > callMaxTim then [ringFrame .call2 road (s.call.mailList 1)] else [])
  else if s.call.callUserOperation = 5 then
    (if tim > callMaxTim then [answerFrame .return5 road (s.call.mailList 1)] else [])
  else []

/-- The frames of a message. -/
def messageFrames (io : Platform) (m : SocketMsg) (s : App) : List Frame :=
  match m with
  | .msg121 => [loginFrame io]
  | .msg123 => [ringFrame .call1 s.call.mailListRoad (s.call.mailList 0)]
  | .msg124 => [heartbeatSent io]
  | .msg125 => if s.record.audioDataEn = 0 then [] else [packetFrame s.record]
  | .msg126 => overtimeFrames s
  | .msg127 =>
      [ringFrame .call1 (takeMarkers s.call).1 (s.call.mailList 0),
        ringFrame .call2 (takeMarkers s.call).1 (s.call.mailList 0)]
  | .msg128 => [hostQueryFrame io]
  | .msg129 => [alarmReport io (s.uart.temp.ptr 5)]
  | .msg131 =>
      [countReport io 0 (s.uart.temp.ptr 5) (s.uart.temp.ptr 7),
        countReport io 1 (s.uart.temp.ptr 9) (s.uart.temp.ptr 11)]
  | .msg132 => [relayReport io (s.uart.temp.ptr 5)]
  | .msg120 | .msg122 _ | .msg130 | .msg133 => []

/-- The relay command of a message. -/
def messageCommand (io : Platform) (m : SocketMsg) (s : App) : Option Command :=
  match m with
  | .msg124 => if s.call.callUserOperation = 0 then some (relayCommand 0 s.rx.clear) else none
  | .msg126 => if timesOut s then some (relayCommand 0 s.rx) else none
  | .msg130 =>
      if s.link.isNewDay ≠ 0 ∧ io.dd ≠ s.link.isNewDay then
        some (uart3Cmd .uart3Writenewday 0x05 [1, 1])
      else none
  | .msg133 => if broadcastTimesOut s then some (uart3Cmd .uart3Write 0x02 [0, 0]) else none
  | _ => none

/-- What a message makes the device send. -/
def messageEffect (io : Platform) (m : SocketMsg) (s : App) : Effect :=
  ⟨messageFrames io m s, messageCommand io m s⟩

theorem Effect.after_send (e : Effect) (fs : List Frame) (w : Wires) :
    e.after (w.send fs) = (⟨fs ++ e.frames, e.command⟩ : Effect).after w := by
  unfold Effect.after
  simp only [Wires.send_send]

theorem newConnect_wires (ret : Int) (s : App) : (newConnect ret s).wires = s.wires := by
  unfold newConnect
  split
  · exact App.log_quiet (o := .socketClose) rfl s
  · rfl

theorem ringFrame_wires (code : DialReqReqCall) (road : UInt8) (imei : Mem) {s : App}
    (hs : HandleOk s) :
    (sendCallFrame .instruction3 road code.code imei s).wires =
      s.wires.send [ringFrame code road imei] :=
  sendCallFrame_wires _ _ _ _ hs

theorem callingRepeat_wires (io : Platform) {s : App} (hs : HandleOk s) :
    (callingRepeat io s).wires =
      s.wires.send (if s.call.callUserTim % 3 = 0 then
        [ringFrame .call1 s.call.mailListRoad (s.call.mailList 0)] else []) := by
  unfold callingRepeat
  split
  · rw [newConnect_wires, ringFrame_wires _ _ _ hs]
  · rw [Wires.send_nil]

theorem ringingSwitch_wires (io : Platform) {s : App} (hs : HandleOk s) :
    (ringingSwitch io s).wires =
      s.wires.send (if s.call.callUserTim = callMaxTim / 2 then
        [ringFrame .call2 s.call.mailListRoad (s.call.mailList 0),
          ringFrame .call1 s.call.mailListRoad (s.call.mailList (nextHost s.call))] else []) := by
  unfold ringingSwitch
  split
  · have hsent : HandleOk (sendCallFrame .instruction3 s.call.mailListRoad
        DialReqReqCall.call2.code (s.call.mailList 0) s) :=
      .of_head (sendCallFrame_doing _ _ _ _ s).head_eq hs
    rw [newConnect_wires, ringFrame_wires _ _ _ hsent, ringFrame_wires _ _ _ hs, Wires.send_send]
    rfl
  · rw [Wires.send_nil]

theorem overtimeIdle_wires (s : App) :
    (overtimeIdle s).wires = s.wires.command (relayCommand 0 s.rx) := by
  refine (relayCmd_wires 0 _).trans ?_
  rw [App.postAudio_quiet rfl]
  rfl

theorem overtimeClose_wires (s : App) :
    (overtimeClose s).wires = s.wires.command (relayCommand 0 s.rx) :=
  relayCmd_wires 0 _

theorem callingEnd_wires (io : Platform) {s : App} (hs : HandleOk s) :
    (callingEnd io s).wires =
      (if s.call.callUserTim > callMaxTim then
        (⟨[ringFrame .call2 s.call.mailListRoad (s.call.mailList 0)], relayCommand 0 s.rx⟩ : Effect)
        else .none).after s.wires := by
  unfold callingEnd
  split
  · rw [overtimeIdle_wires, newConnect_wires, ringFrame_wires _ _ _ hs]
    rfl
  · rw [Effect.none_after]

theorem ringingEnd_wires (io : Platform) {s : App} (hs : HandleOk s) :
    (ringingEnd io s).wires =
      (if s.call.callUserTim > callMaxTim then
        (⟨[ringFrame .call2 s.call.mailListRoad (s.call.mailList 1)], relayCommand 0 s.rx⟩ : Effect)
        else .none).after s.wires := by
  unfold ringingEnd
  split
  · rw [overtimeIdle_wires, newConnect_wires, ringFrame_wires _ _ _ hs]
    rfl
  · rw [Effect.none_after]

theorem dropSocket_wires (s : App) : (dropSocket s).wires = s.wires :=
  App.log_quiet (o := .socketClose) rfl s

theorem connectedEnd_wires (io : Platform) {s : App} (hs : HandleOk s) :
    (connectedEnd io s).wires =
      (if s.call.callUserTim > callMaxTim then
        (⟨[ringFrame .call2 s.call.mailListRoad (s.call.mailList 1)], relayCommand 0 s.rx⟩ : Effect)
        else .none).after s.wires := by
  unfold connectedEnd
  split
  · rw [dropSocket_wires, overtimeClose_wires, App.postAudio_quiet rfl, newConnect_wires,
      ringFrame_wires _ _ _ hs]
    rfl
  · rw [Effect.none_after]

theorem calledEnd_wires (io : Platform) {s : App} (hs : HandleOk s) :
    (calledEnd io s).wires =
      (if s.call.callUserTim > callMaxTim then
        (⟨[answerFrame .return5 s.call.mailListRoad (s.call.mailList 1)],
          relayCommand 0 s.rx⟩ : Effect)
        else .none).after s.wires := by
  unfold calledEnd
  split
  · rw [overtimeClose_wires, App.postAudio_quiet rfl, newConnect_wires,
      sendCallFrame_wires (by decide) _ _ _ hs]
    rfl
  · rw [Effect.none_after]

/-- With nothing heard for too long the call is over, without a word. -/
theorem connectedQuiet_end_wires (io : Platform) {s : App} (hs : HandleOk s) :
    (connectedEnd io (connectedQuiet s)).wires =
      (if s.link.heartbeatTim > callReceptionTimeout then (⟨[], relayCommand 0 s.rx⟩ : Effect)
        else if s.call.callUserTim > callMaxTim then
          ⟨[ringFrame .call2 s.call.mailListRoad (s.call.mailList 1)], relayCommand 0 s.rx⟩
        else .none).after s.wires := by
  by_cases hq : s.link.heartbeatTim > callReceptionTimeout
  · have hquiet : connectedQuiet s = overtimeClose (s.log .socketClose) := if_pos hq
    have hend : connectedEnd io (overtimeClose (s.log .socketClose)) =
        overtimeClose (s.log .socketClose) := if_neg (show ¬ (0 : UInt8) > callMaxTim by decide)
    rw [if_pos hq, Effect.command_after, hquiet, hend, overtimeClose_wires, App.log_quiet rfl]
    rfl
  · have hquiet : connectedQuiet s = s := if_neg hq
    rw [if_neg hq, hquiet, connectedEnd_wires io hs]

theorem calledQuiet_end_wires (io : Platform) {s : App} (hs : HandleOk s) :
    (calledEnd io (calledQuiet s)).wires =
      (if s.link.heartbeatTim > callReceptionTimeout then (⟨[], relayCommand 0 s.rx⟩ : Effect)
        else if s.call.callUserTim > callMaxTim then
          ⟨[answerFrame .return5 s.call.mailListRoad (s.call.mailList 1)], relayCommand 0 s.rx⟩
        else .none).after s.wires := by
  by_cases hq : s.link.heartbeatTim > callReceptionTimeout
  · have hquiet : calledQuiet s = overtimeClose ((s.log .socketClose).postAudio .hmiNews2) :=
      if_pos hq
    have hend : calledEnd io (overtimeClose ((s.log .socketClose).postAudio .hmiNews2)) =
        overtimeClose ((s.log .socketClose).postAudio .hmiNews2) :=
      if_neg (show ¬ (0 : UInt8) > callMaxTim by decide)
    rw [if_pos hq, Effect.command_after, hquiet, hend, overtimeClose_wires, App.postAudio_quiet rfl,
      App.log_quiet rfl]
    rfl
  · have hquiet : calledQuiet s = s := if_neg hq
    rw [if_neg hq, hquiet, calledEnd_wires io hs]

/-- **Message 126.** -/
theorem callOvertimeFun_wires (io : Platform) {s : App} (hs : HandleOk s) :
    (callOvertimeFun io s).wires = (messageEffect io .msg126 s).after s.wires := by
  have h2nd : HandleOk (callSecond s) := hs
  have hwires : (callSecond s).wires = s.wires := rfl
  have hop : (callSecond s).call.callUserOperation = s.call.callUserOperation := rfl
  have htim : (callSecond s).call.callUserTim = s.call.callUserTim + 1 := rfl
  have hbeat : (callSecond s).link.heartbeatTim = s.link.heartbeatTim := rfl
  unfold callOvertimeFun overtimeOf messageEffect messageFrames messageCommand overtimeFrames
  dsimp only
  rw [hop]
  by_cases h1 : s.call.callUserOperation = 1
  · have hrep : HandleOk (callingRepeat io (callSecond s)) :=
      .of_head (callingRepeat_doing io _).head_eq h2nd
    have hout : timesOut s ↔ s.call.callUserTim + 1 > callMaxTim := by simp [timesOut, h1]
    rw [if_pos h1, if_pos h1, callingEnd_wires io hrep, callingRepeat_wires io h2nd,
      callingRepeat_call, callingRepeat_rx, Effect.after_send, htim, hwires]
    simp only [hout]
    by_cases ht : s.call.callUserTim + 1 > callMaxTim
    · simp only [if_pos ht]
      rfl
    · simp only [if_neg ht]
      rfl
  rw [if_neg h1, if_neg h1]
  by_cases h2 : s.call.callUserOperation = 2
  · have hswitch : HandleOk (ringingSwitch io (callSecond s)) :=
      .of_head (ringingSwitch_doing io _).head_eq h2nd
    have hout : timesOut s ↔ s.call.callUserTim + 1 > callMaxTim := by simp [timesOut, h2]
    rw [if_pos h2, if_pos h2, ringingEnd_wires io hswitch, ringingSwitch_wires io h2nd,
      ringingSwitch_call, ringingSwitch_rx, Effect.after_send, htim, hwires]
    simp only [hout]
    by_cases ht : s.call.callUserTim + 1 > callMaxTim
    · simp only [if_pos ht]
      rfl
    · simp only [if_neg ht]
      rfl
  rw [if_neg h2, if_neg h2]
  by_cases h3 : s.call.callUserOperation = 3
  · have hout : timesOut s ↔ s.link.heartbeatTim > callReceptionTimeout ∨
        s.call.callUserTim + 1 > callMaxTim := by simp [timesOut, h3]
    rw [if_pos h3, if_pos h3, connectedQuiet_end_wires io h2nd, htim, hbeat, hwires]
    simp only [hout]
    by_cases hq : s.link.heartbeatTim > callReceptionTimeout
    · simp only [hq, true_or, if_true]
      rfl
    · by_cases ht : s.call.callUserTim + 1 > callMaxTim
      · simp only [hq, ht, or_true, if_true, if_false]
        rfl
      · simp only [hq, ht, or_self, if_false]
        rfl
  rw [if_neg h3, if_neg h3]
  by_cases h5 : s.call.callUserOperation = 5
  · have hout : timesOut s ↔ s.link.heartbeatTim > callReceptionTimeout ∨
        s.call.callUserTim + 1 > callMaxTim := by simp [timesOut, h5]
    rw [if_pos h5, if_pos h5, calledQuiet_end_wires io h2nd, htim, hbeat, hwires]
    simp only [hout]
    by_cases hq : s.link.heartbeatTim > callReceptionTimeout
    · simp only [hq, true_or, if_true]
      rfl
    · by_cases ht : s.call.callUserTim + 1 > callMaxTim
      · simp only [hq, ht, or_true, if_true, if_false]
        rfl
      · simp only [hq, ht, or_self, if_false]
        rfl
  · have hout : ¬ timesOut s := by
      rintro (⟨h | h, -⟩ | ⟨h | h, -⟩)
      · exact h1 h
      · exact h2 h
      · exact h3 h
      · exact h5 h
    rw [if_neg h5, if_neg h5, if_neg hout, ite_self, hwires]
    exact (Effect.none_after _).symm

/-! ## The other messages -/

@[simp] theorem poke_wires (i : Nat) (bs : List UInt8) (s : App) :
    (poke i bs s).wires = s.wires := rfl

@[simp] theorem pokeFrom_wires (i : Nat) (src : Mem) (n : Nat) (s : App) :
    (pokeFrom i src n s).wires = s.wires := rfl

/-- Two sends of one frame: the header, and the payload from elsewhere. -/
theorem sendTwo_wires {f : Frame} {n : Nat} {buf : Mem} {k : Nat} {s : App}
    (h : s.socketDataHandle.slice 0 n ++ buf.slice 0 k = f.bytes) :
    ((sendHandle n s).socketSend buf k).wires = s.wires.send [f] := by
  have hbytes : [f].flatMap Frame.bytes = s.socketDataHandle.slice 0 n ++ buf.slice 0 k := by
    rw [h]
    simp
  unfold sendHandle
  rw [App.socketSend_wires, App.socketSend_wires, Wires.send, hbytes, List.append_assoc]

theorem message121_wires (io : Platform) {s : App} (hs : HandleOk s) :
    (message121 io s).wires = s.wires.send [loginFrame io] := by
  have hbuilt : (poke 5 [0x01, 0, 0x0f] s).socketDataHandle.slice 0 8 = _ :=
    poke_built hs.head_eq [0x01, 0, 0x0f]
  have hsent : ((sendHandle 8 (poke 5 [0x01, 0, 0x0f] s)).socketSend io.sysImei 15).wires =
      s.wires.send [loginFrame io] := by
    refine sendTwo_wires ?_
    rw [hbuilt]
    simp [Frame.bytes, loginFrame, Frame.own, SocketInstruction.code]
  unfold message121
  dsimp only
  split
  · rw [dropSocket_wires, hsent]
  · exact hsent

theorem sendHeartbeat_wires (io : Platform) {s : App} (hs : HandleOk s) :
    (sendHeartbeat io s).wires = s.wires.send [heartbeatSent io] := by
  have hbuilt : (poke 5 [0x10, 0, 2, io.rsrp, io.rsrq] s).socketDataHandle.slice 0 10 = _ :=
    poke_built hs.head_eq [0x10, 0, 2, io.rsrp, io.rsrq]
  unfold sendHeartbeat
  rw [newConnect_wires, sendHandle_wires (f := heartbeatSent io)]
  · rfl
  · rw [hbuilt]
    simp [Frame.bytes, heartbeatSent, Frame.own, SocketInstruction.code]

theorem message124_wires (io : Platform) {s : App} (hs : HandleOk s) :
    (message124 io s).wires = (messageEffect io .msg124 s).after s.wires := by
  unfold message124 messageEffect messageFrames messageCommand
  dsimp only
  split
  · rw [relayCmd_wires]
    show (sendHeartbeat io s).wires.command _ = (s.wires.send [heartbeatSent io]).command _
    rw [sendHeartbeat_wires io hs]
    rfl
  · exact sendHeartbeat_wires io hs

theorem message125_wires (io : Platform) {s : App} (hs : HandleOk s) :
    (message125 io s).wires = (messageEffect io .msg125 s).after s.wires := by
  have hbuilt : (poke 5 [0x09, 0, 0x50] s).socketDataHandle.slice 0 8 = _ :=
    poke_built hs.head_eq [0x09, 0, 0x50]
  have hsent : (sendVoice io s).wires = s.wires.send [packetFrame s.record] := by
    unfold sendVoice
    rw [newConnect_wires, sendTwo_wires (f := packetFrame s.record)]
    · rfl
    · rw [hbuilt]
      simp [Frame.bytes, packetFrame, Frame.own, SocketInstruction.code, audioDataEnMax]
  unfold message125 messageEffect messageFrames messageCommand
  dsimp only
  split
  · exact (Effect.none_after _).symm
  · exact hsent

theorem message127_wires {s : App} (hs : HandleOk s) :
    (message127 s).wires = s.wires.send
      [ringFrame .call1 (takeMarkers s.call).1 (s.call.mailList 0),
        ringFrame .call2 (takeMarkers s.call).1 (s.call.mailList 0)] := by
  let t : App := { s with call := (takeMarkers s.call).2 }
  have ht : HandleOk t := hs
  have hcall := ringFrame_wires .call1 (takeMarkers s.call).1 (t.call.mailList 0) ht
  refine (ringFrame_wires .call2 _ _ (.of_head (sendCallFrame_doing _ _ _ _ t).head_eq ht)).trans ?_
  rw [hcall, Wires.send_send]
  rfl

theorem message128_wires (io : Platform) {s : App} (hs : HandleOk s) :
    (message128 io s).wires = s.wires.send [hostQueryFrame io] := by
  have hbuilt := pokeFrom_built (poke_built hs.head_eq [0x14, 0, 0x0f]) io.sysImei 15
  refine sendHandle_wires (s := pokeFrom 8 io.sysImei 15 (poke 5 [0x14, 0, 0x0f] s))
    (hbuilt.trans ?_)
  simp [Frame.bytes, hostQueryFrame, Frame.own, SocketInstruction.code]

/-- The alarm frame is not built in order; every byte of it is written all the same. -/
theorem alarmFrame_built (io : Platform) (pData : Mem) {s : App} (hs : HandleOk s) :
    (alarmFrame io pData s).socketDataHandle.slice 0 29 = (alarmReport io pData).bytes := by
  obtain ⟨h0, h1, h2, h3, h4⟩ := hs
  simp [alarmFrame, poke, pokeFrom, Mem.slice, List.range_succ, Mem.memcpy, Mem.ofList,
    Frame.bytes, alarmReport, Frame.own, SocketInstruction.code, h0, h1, h2, h3, h4]

theorem alarmFrame_wires (io : Platform) (pData : Mem) (s : App) :
    (alarmFrame io pData s).wires = s.wires := by
  simp only [alarmFrame, poke_wires, pokeFrom_wires]

theorem message129_wires (io : Platform) {s : App} (hs : HandleOk s) :
    (message129 io s).wires = s.wires.send [alarmReport io (s.uart.temp.ptr 5)] := by
  unfold message129
  rw [sendHandle_wires (alarmFrame_built io _ hs), alarmFrame_wires]

/-- One of the two frames of message 131, as it stands in the buffer. -/
theorem countFrame_built (io : Platform) (id : UInt8) (a b : Mem) {s : App} (hs : HandleOk s) :
    (pokeFrom 29 b 2 (poke 28 [0x2c] (pokeFrom 26 a 2 (poke 23 [0x2c, id, 0x2c]
      (pokeFrom 8 io.sysImei 15 (poke 5 [0x18, 0, 0x17] s)))))).socketDataHandle.slice 0 31 =
      (countReport io id a b).bytes := by
  have h8 : (poke 5 [0x18, 0, 0x17] s).socketDataHandle.slice 0 8 = _ := poke_built hs.head_eq _
  have h23 := pokeFrom_built h8 io.sysImei 15
  have h26 := poke_built h23 [0x2c, id, 0x2c]
  have h28 := pokeFrom_built h26 a 2
  have h29 := poke_built h28 [0x2c]
  have h31 := pokeFrom_built h29 b 2
  refine h31.trans ?_
  simp [Frame.bytes, countReport, Frame.own, SocketInstruction.code]

theorem countFrame_wires (io : Platform) (id : UInt8) (a b : Mem) {s : App} (hs : HandleOk s) :
    (countFrame io id a b s).wires = s.wires.send [countReport io id a b] := by
  unfold countFrame
  dsimp only
  rw [sendHandle_wires (countFrame_built io id a b hs)]
  simp only [poke_wires, pokeFrom_wires]

theorem message131_wires (io : Platform) {s : App} (hs : HandleOk s) :
    (message131 io s).wires = s.wires.send
      [countReport io 0 (s.uart.temp.ptr 5) (s.uart.temp.ptr 7),
        countReport io 1 (s.uart.temp.ptr 9) (s.uart.temp.ptr 11)] := by
  unfold message131
  dsimp only
  rw [countFrame_wires io _ _ _ (.of_head (countFrame_doing io _ _ _ s).head_eq hs),
    countFrame_wires io _ _ _ hs, Wires.send_send]
  simp only [Mem.ptr_ptr]
  rfl

theorem message132_wires (io : Platform) {s : App} (hs : HandleOk s) :
    (message132 io s).wires = s.wires.send [relayReport io (s.uart.temp.ptr 5)] := by
  obtain ⟨h0, h1, h2, h3, h4⟩ := hs
  unfold message132
  refine sendHandle_wires ?_
  simp [poke, pokeFrom, Mem.slice, List.range_succ, Mem.memcpy, Mem.ofList, Frame.bytes,
    relayReport, Frame.own, SocketInstruction.code, h0, h1, h2, h3, h4]

theorem newDay_wires (io : Platform) (s : App) :
    (newDay io s).wires = (messageEffect io .msg130 s).after s.wires := by
  unfold newDay messageEffect messageFrames messageCommand
  dsimp only
  split
  · rw [Effect.command_after]
    refine App.postUart3_wires (c := uart3Cmd .uart3Writenewday 0x05 [1, 1]) ?_ rfl
    funext k
    cases k with
    | uart3Writenewday => exact cmdBytes_slice _ _ _ (by simp)
    | _ => rfl
  · exact (Effect.none_after _).symm

theorem audioStopV2_wires (s : App) : (audioStopV2 s).wires = s.wires := by
  unfold audioStopV2
  split
  · exact (App.log_quiet (o := .audioStop) rfl _).trans
      (App.log_quiet (o := .audioDevStopPocMode) rfl s)
  · rfl

theorem message133_wires (io : Platform) (s : App) :
    (message133 s).wires = (messageEffect io .msg133 s).after s.wires := by
  unfold messageEffect messageFrames messageCommand
  dsimp only
  by_cases h : broadcastTimesOut s
  · have hover : message133 s = sendUart3Write 0x02 0 0
        (audioStopV2 { s with call.isMailListALL := 0, call.mailListALLTim := 0 }) := if_pos h
    rw [hover, if_pos h, sendUart3Write_wires, audioStopV2_wires, Effect.command_after]
    rfl
  · have hkeep : message133 s = s := if_neg h
    rw [hkeep, if_neg h]
    exact (Effect.none_after _).symm

theorem waitForNet_wires (n num : Nat) (s : App) : (waitForNet n num s).wires = s.wires := by
  have htry : ∀ num s, (netTry num s).wires = s.wires := by
    intro num s
    unfold netTry
    split
    · exact App.log_quiet rfl s
    · rfl
  induction n generalizing num s with
  | zero => exact htry num s
  | succ n ih => exact (ih _ _).trans (htry num s)

/-- **The socket thread**, outside message 122. -/
theorem socketTestThread_wires (io : Platform) (m : SocketMsg) {s : App} (hs : HandleOk s) :
    (socketTestThread io m s).wires = (messageEffect io m s).after s.wires := by
  cases m with
  | msg120 =>
      have hwait := waitForNet_wires io.netWaits 0 s
      have henter : (socketEnter io (waitForNet io.netWaits 0 s)).wires
          = (waitForNet io.netWaits 0 s).wires := by
        unfold socketEnter
        split <;> rfl
      exact henter.trans (hwait.trans (Effect.none_after _).symm)
  | msg121 => exact message121_wires io hs
  | msg122 _ => exact (Effect.none_after _).symm
  | msg123 => exact (newConnect_wires _ _).trans (ringFrame_wires _ _ _ hs)
  | msg124 => exact message124_wires io hs
  | msg125 => exact message125_wires io hs
  | msg126 => exact callOvertimeFun_wires io hs
  | msg127 => exact message127_wires hs
  | msg128 => exact message128_wires io hs
  | msg129 => exact message129_wires io hs
  | msg130 => exact newDay_wires io s
  | msg131 => exact message131_wires io hs
  | msg132 => exact message132_wires io hs
  | msg133 => exact message133_wires io s

/-! ## The audio side -/

/-- The report that a frame of the acquisition board asks for, by its fifth byte. -/
def reportOf (temp : Mem) : Option SocketMsg :=
  if temp 4 = 2 then some .msg129
  else if temp 4 = 3 then some .msg131
  else if temp 4 = 4 then some .msg132
  else none

/-- UART3 is read. -/
def readsUart3 (io : Platform) (s : App) : Prop := s.link.mailListTim = 0 ∧ 2 ≤ io.uartAvailable

instance (io : Platform) (s : App) : Decidable (readsUart3 io s) := by
  unfold readsUart3
  infer_instance

/-- The report that a read of UART3 posts. -/
def readReport (io : Platform) (s : App) : Option SocketMsg :=
  if readsUart3 io s ∧ isUart3Frame (readTemp io s).uart.temp then reportOf (readTemp io s).uart.temp
  else none

/-- What a message of the audio thread does to the wires. -/
def audioWires (io : Platform) (m : AudioMsg) (s : App) (w : Wires) : Wires :=
  match m with
  | .uart3Send b => { w with written := w.written ++ [w.uart3Bytes b] }
  | .uart3Read =>
      { w with
        pData := if readsUart3 io s then (readTemp io s).uart.temp.ptr 5 else w.pData
        reports := w.reports ++ (readReport io s).toList }
  | _ => w

/-- What a button overwrites in `temp` is not what the reports are made of. -/
theorem buttonCall_wires (s : App) : (buttonCall s).wires = s.wires := by
  have htemp : Mem.ptr (Function.update (Function.update s.uart.temp 0 0) 4 0) 5 =
      s.uart.temp.ptr 5 := by
    funext j
    rw [Mem.ptr_apply, Function.update_of_ne (by omega), Function.update_of_ne (by omega)]
    rfl
  let t : App := App.postMp3 (.audio .waitConv) { s with call.callUserOperation := 1 }
  let u : App := App.postSocket .msg123 { t with call.mailListRoad := t.uart.temp 7 + 0x30 }
  have hu : u.wires = s.wires := App.postSocket_quiet rfl _
  have hcall : (buttonCall s).wires =
      { u.wires with pData := Mem.ptr (Function.update (Function.update s.uart.temp 0 0) 4 0) 5 } := rfl
  rw [hcall, htemp, hu]
  rfl

theorem buttonFrame_wires (s : App) : (buttonFrame s).wires = s.wires := by
  have hpost : ∀ c, (App.postSocket .msg127 { s with call := c }).wires = s.wires :=
    fun c => App.postSocket_quiet rfl _
  unfold buttonFrame
  split
  · rfl
  · split
    · exact buttonCall_wires s
    · split
      · rfl
      · unfold buttonBusy
        dsimp only
        repeat' split
        all_goals first | exact hpost _ | rfl

theorem uart3Frame_wires (s : App) :
    (uart3Frame s).wires =
      { s.wires with reports := s.wires.reports ++ (reportOf s.uart.temp).toList } := by
  unfold uart3Frame reportOf
  split
  · next h1 =>
      rw [h1, buttonFrame_wires, if_neg (by decide), if_neg (by decide), if_neg (by decide)]
      exact (congrArg (fun r => { s.wires with reports := r }) (List.append_nil _)).symm
  · split
    · exact App.postSocket_wires _ s
    · split
      · exact App.postSocket_wires _ s
      · split
        · exact App.postSocket_wires _ s
        · exact (congrArg (fun r => { s.wires with reports := r }) (List.append_nil _)).symm

theorem uart3Read_wires (io : Platform) (s : App) :
    (uart3Read io s).wires = audioWires io .uart3Read s s.wires := by
  have hnone : ∀ w : Wires, { w with reports := w.reports ++ [] } = w :=
    fun w => congrArg (fun r => { w with reports := r }) (List.append_nil _)
  unfold uart3Read audioWires readReport
  dsimp only
  by_cases hread : s.link.mailListTim ≠ 0 ∨ io.uartAvailable < 2
  · have hno : ¬ readsUart3 io s := by
      rintro ⟨h1, h2⟩
      rcases hread with h | h
      · exact h h1
      · omega
    rw [if_pos hread, if_neg hno, if_neg fun h => hno h.1]
    exact (hnone s.wires).symm
  · have hyes : readsUart3 io s :=
      ⟨not_not.mp fun h => hread (Or.inl h), Nat.le_of_not_lt fun h => hread (Or.inr h)⟩
    rw [if_neg hread, if_pos hyes]
    by_cases hf : isUart3Frame (readTemp io s).uart.temp
    · rw [if_pos hf, if_pos ⟨hyes, hf⟩, uart3Frame_wires]
      rfl
    · rw [if_neg hf, if_neg fun h => hf h.2]
      exact (hnone _).symm

theorem hmiPrompt_wires (f : Mp3File) (s : App) : (hmiPrompt f s).wires = s.wires :=
  audioStopV2_wires { s with timerStart := false }

theorem audioDuplexthread_wires (io : Platform) (m : AudioMsg) (s : App) :
    (audioDuplexthread io m s).wires = audioWires io m s s.wires := by
  cases m with
  | uart3Read => exact uart3Read_wires io s
  | uart3Send b =>
      refine (App.log_wires _ s).trans ?_
      simp [audioWires, Out.sent, Out.posted, Out.written]
      rfl
  | hmiNews => exact App.log_quiet (o := .audioDevStartPocMode) rfl _
  | hmiNews2 => exact hmiPrompt_wires _ s
  | hmiNews3 => exact hmiPrompt_wires _ s
  | hmiNews4 => exact hmiPrompt_wires _ s
  | uart2Read | time5s => rfl

theorem OnlyPlays.wires {s t : App} (h : OnlyPlays s t) : t.wires = s.wires := by
  obtain ⟨f, os, rfl, hos⟩ := h
  have hquiet : ∀ o ∈ os, o.sent = [] ∧ o.posted = [] ∧ o.written = [] := by
    intro o ho
    have hplayer := hos o ho
    cases o <;> first | exact ⟨rfl, rfl, rfl⟩ | exact absurd hplayer Bool.false_ne_true
  have hsent : os.flatMap Out.sent = [] := List.flatMap_eq_nil_iff.mpr fun o ho => (hquiet o ho).1
  have hposted : os.flatMap Out.posted = [] :=
    List.flatMap_eq_nil_iff.mpr fun o ho => (hquiet o ho).2.1
  have hwritten : os.flatMap Out.written = [] :=
    List.flatMap_eq_nil_iff.mpr fun o ho => (hquiet o ho).2.2
  unfold App.wires
  simp only [List.flatMap_append, hsent, hposted, hwritten, List.append_nil]
  rfl

theorem mp3Audio_wires (io : Platform) (f : Mp3File) (s : App) :
    (mp3Audio io f s).wires = s.wires := by
  unfold mp3Audio
  split
  · exact (App.log_quiet (o := .audioStop) rfl _).trans
      (App.log_quiet (o := .audioDevStopPocMode) rfl s)
  · rw [(audioPlayMP3_onlyPlays io f _).wires, App.log_quiet rfl, App.log_quiet rfl]

theorem audioPlayMP3Thread_wires (io : Platform) (m : Mp3Msg) (s : App) :
    (audioPlayMP3Thread io m s).wires = s.wires := by
  cases m with
  | audio f => exact mp3Audio_wires io f s
  | stop f => exact mp3Audio_wires io f s
  | stopAudioStart =>
      refine (App.postAudio_quiet rfl _).trans ?_
      split
      · rw [App.log_quiet rfl, App.log_quiet rfl]
      · rfl

theorem Tick.wires_eq {s t : App} (h : Tick s t) : t.wires = s.wires := by
  cases h with
  | log o ho =>
      refine App.log_quiet ?_ s
      rcases ho with rfl | rfl <;> rfl
  | post m hm =>
      refine App.postSocket_quiet ?_ s
      cases m with
      | msg129 | msg131 | msg132 => exact nomatch hm
      | _ => rfl
  | _ => rfl

theorem Ticks.wires_eq {s t : App} (h : Ticks s t) : t.wires = s.wires :=
  h.keeps_eq fun _ _ => Tick.wires_eq

theorem socketEventProcessCb_wires (e : SocketEvent) (s : App) :
    (socketEventProcessCb e s).wires = s.wires := by
  cases e with
  | connectRsp => exact App.postSocket_quiet (m := .msg121) rfl _
  | closeRsp => rfl
  | errorInd => exact dropSocket_wires s
  | readInd n => exact App.postSocket_quiet (m := .msg122 _) rfl s
  | unexpected => exact dropSocket_wires s

/-- `AudioPlayCb` moves the decoder on. -/
theorem audioPlayCb_wires (s : App) :
    (audioPlayCb s).2.wires = { s.wires with decode := (audioPlayCb s).2.decode } := by
  unfold audioPlayCb
  split <;> rfl

/-- `AudioRecordCb` writes the ring, and the encoder moves on. -/
theorem audioRecordCb_wires (buff : Mem) (len : Nat) (s : App) :
    (audioRecordCb buff len s).wires =
      { s.wires with
        audioData := (audioRecordCb buff len s).record.audioData
        encode := (audioRecordCb buff len s).encode } := by
  unfold audioRecordCb
  split
  · rfl
  · split
    · have hstop : (audioStopV2 s).record = s.record ∧ (audioStopV2 s).encode = s.encode := by
        unfold audioStopV2
        split <;> exact ⟨rfl, rfl⟩
      rw [audioStopV2_wires, hstop.1, hstop.2]
      rfl
    · exact App.postSocket_quiet (m := .msg125) rfl _

/-! ## The step -/

/-- What a pass of the loop, or a message of the socket thread, sends. -/
def effectOf (a : Act) (x : Sys) : Effect :=
  match a with
  | .isCmd =>
      match frameAt x with
      | some c => frameEffect c x.app
      | none => .none
  | .socket io =>
      match x.app.socketMsgs with
      | m :: _ => messageEffect io m x.app
      | [] => .none
  | _ => .none

/-- The wires after a step. -/
def wiresAfter (a : Act) (x : Sys) : Wires :=
  match a with
  | .isCmd => (effectOf a x).after x.app.wires
  | .socket _ =>
      (effectOf a x).after
        { x.app.wires with reports := x.app.socketMsgs.tail.filter SocketMsg.isReport }
  | .audio io =>
      match x.app.audioMsgs with
      | m :: ms =>
          audioWires io m x.app { x.app.wires with pending := ms.filterMap AudioMsg.pData? }
      | [] => x.app.wires
  | .audioRecordCb buff len =>
      { x.app.wires with
        audioData := (audioRecordCb buff len x.app).record.audioData
        encode := (audioRecordCb buff len x.app).encode }
  | .audioPlayCb => { x.app.wires with decode := (audioPlayCb x.app).2.decode }
  | _ => x.app.wires

theorem isCmd_wires (ret : Nat) {s : App} (hs : HandleOk s) :
    (isCmd ret s).state.wires = (effectOf .isCmd ⟨s, some ret⟩).after s.wires := by
  rcases isCmd_frameAt ret s with ⟨c, hc, h⟩ | ⟨hc, r, l, h⟩
  · have heffect : effectOf .isCmd ⟨s, some ret⟩ = frameEffect c (opened c s) := by
      simp only [effectOf, hc]
      rfl
    have hopen : (opened c s).wires = s.wires := App.log_quiet rfl (readHeader s)
    rw [h, caseOf_wires ret c (s := opened c s) hs, heffect, hopen]
  · have heffect : effectOf .isCmd ⟨s, some ret⟩ = .none := by
      simp only [effectOf, hc]
    rw [h, heffect, Effect.none_after]
    rfl

/-- **A step does to the wires what can be read off the state before it.** -/
theorem Steps.wires_eq {x y : Sys} {a : Act} (h : Steps x a y) (hx : HandleOk x.app) :
    y.app.wires = wiresAfter a x := by
  cases h with
  | isCmd =>
      rw [Sys.ofJump_app]
      exact isCmd_wires _ hx
  | @recv s n ms chunk hms _ =>
      rw [Sys.ofJump_app, message122_wires]
      have hrep : ms.filter SocketMsg.isReport = s.socketMsgs.filter SocketMsg.isReport := by
        rw [hms]
        rfl
      exact congrArg (fun r => { s.wires with reports := r }) hrep
  | @socket s m ms io hms _ =>
      refine (socketTestThread_wires io m (s := { s with socketMsgs := ms }) hx).trans ?_
      simp only [wiresAfter, effectOf, hms]
      rfl
  | @audio s m ms io hms =>
      refine (audioDuplexthread_wires io m { s with audioMsgs := ms }).trans ?_
      simp only [wiresAfter, hms]
      cases m <;> rfl
  | mp3 _ => exact audioPlayMP3Thread_wires _ _ _
  | @timerHeartbeat s io =>
      dsimp only [wiresAfter]
      exact (timerHeartbeat_ticks io s).wires_eq
  | timerHeartbeat2 _ => exact App.postAudio_quiet (m := .time5s) rfl _
  | @socketEvent s e => exact socketEventProcessCb_wires e s
  | uart2Event => exact App.postAudio_quiet (m := .uart2Read) rfl _
  | uart3Event => exact App.postAudio_quiet (m := .uart3Read) rfl _
  | @audioRecordCb s buff len => exact audioRecordCb_wires buff len s
  | @audioPlayCb s => exact audioPlayCb_wires s

end IntercomSalve
