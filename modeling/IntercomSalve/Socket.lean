/-
# `Socket` — the other messages of the socket thread, and what posts them

`socket_test_thread` takes messages 120 to 133 from `socketMsgHandle`.  All but
122 (`Receive`) build frames in the one buffer `socket_data_handle`, whose first
five bytes are the frame header.  The messages are posted by the 1 s timer
`Timer_heartbeat`, by the socket events, by the recorder and by the audio thread.
-/
import IntercomSalve.Receive

namespace IntercomSalve

/-- `memcpy (socket_data_handle + i, …)` of constant bytes. -/
def poke (i : Nat) (bs : List UInt8) (s : App) : App :=
  { s with socketDataHandle := s.socketDataHandle.memcpy i (Mem.ofList bs) bs.length }

/-- `memcpy (socket_data_handle + i, src, n)`. -/
def pokeFrom (i : Nat) (src : Mem) (n : Nat) (s : App) : App :=
  { s with socketDataHandle := s.socketDataHandle.memcpy i src n }

/-- Send the first `n` bytes of `socket_data_handle`. -/
def sendHandle (n : Nat) (s : App) : App := s.socketSend s.socketDataHandle n

/-! ## Connecting -/

/-- `socket_enter`, as far as the globals go: a socket is created, or not. -/
def socketEnter (io : Platform) (s : App) : App :=
  match io.socketFd with
  | some fd => { s with link.socketFd := fd, link.socketContentTim := socketCloseTimTim }
  | none => s

/-- A try of `socket_startTest` to find the network, with `num` tries before it: from the eleventh
on the device starts again.  The counter is a byte. -/
def netTry (num : Nat) (s : App) : App := if 10 < (num + 1) % 256 then s.log .powerReboot else s

/-- The tries, of which `n` find nothing and the last one does. -/
def waitForNet : Nat → Nat → App → App
  | 0, num, s => netTry num s
  | n + 1, num, s => waitForNet n ((num + 1) % 256) (netTry num s)

/-- `socket_startTest`: the wait for the network, and the first connection.  A wait without
an end has no result here; it starts the device again in its eleventh try, like a longer one that
ends. -/
def socketStartTest (io : Platform) (s : App) : App := socketEnter io (waitForNet io.netWaits 0 s)

/-- How often a wait for the network starts the device again. -/
def netReboots : Nat → Nat → Nat
  | 0, num => if 10 < (num + 1) % 256 then 1 else 0
  | n + 1, num => (if 10 < (num + 1) % 256 then 1 else 0) + netReboots n ((num + 1) % 256)

/-- The wait does nothing else. -/
theorem waitForNet_eq (n num : Nat) (s : App) :
    waitForNet n num s =
      { s with out := s.out ++ List.replicate (netReboots n num) .powerReboot } := by
  induction n generalizing num s with
  | zero =>
      unfold waitForNet netTry netReboots
      split
      · rfl
      · rw [List.replicate_zero, List.append_nil]
  | succ n ih =>
      rw [waitForNet, ih, netReboots]
      unfold netTry
      split
      · rw [Nat.add_comm 1, List.replicate_succ]
        simp only [App.log, List.append_assoc, List.singleton_append]
      · rw [Nat.zero_add]

/-- The eleventh try is one too many. -/
theorem netReboots_pos {n num : Nat} (hnum : num ≤ 10) :
    0 < netReboots n num ↔ 10 ≤ n + num := by
  induction n generalizing num with
  | zero =>
      rw [netReboots, Nat.mod_eq_of_lt (show num + 1 < 256 by omega)]
      split <;> omega
  | succ n ih =>
      rw [netReboots, Nat.mod_eq_of_lt (show num + 1 < 256 by omega)]
      by_cases hlast : 10 < num + 1
      · rw [if_pos hlast]
        omega
      · rw [if_neg hlast, Nat.zero_add, ih (by omega)]
        omega

/-- Message 121: log in, and close the socket when that fails. -/
def message121 (io : Platform) (s : App) : App :=
  let s := (sendHandle 8 (poke 5 [0x01, 0, 0x0f] s)).socketSend io.sysImei 15
  if io.socketSend 1 = -1 ∧ s.link.socketFd ≠ -1 then
    dropSocket s
  else s

/-! ## Calling -/

/-- Message 123: call the first host. -/
def message123 (io : Platform) (s : App) : App :=
  newConnect (io.socketSend 0) (sendCallFrame .instruction3 s.call.mailListRoad
    DialReqReqCall.call1.code (s.call.mailList 0) s)

/-- Message 124: the heartbeat. -/
def sendHeartbeat (io : Platform) (s : App) : App :=
  newConnect (io.socketSend 0) (sendHandle 10 (poke 5 [0x10, 0, 2, io.rsrp, io.rsrq] s))

/-- Message 124; without a call the variables are cleared. -/
def message124 (io : Platform) (s : App) : App :=
  if s.call.callUserOperation = 0 then relayCmd 0 (clearVars (sendHeartbeat io s))
  else sendHeartbeat io s

/-- One voice packet: the header, and 80 bytes of the ring. -/
def sendVoice (io : Platform) (s : App) : App :=
  newConnect (io.socketSend 1)
    ((sendHandle 8 (poke 5 [0x09, 0, 0x50] s)).socketSend
      (s.record.audioData.ptr s.record.audioDataNumSend) audioDataEnMax)

/-- The packet is sent: `audio_data_en--`, and the position moves on. -/
def voiceSent (r : Record) : Record :=
  let num := r.audioDataNumSend + audioDataEnMax
  { r with
    audioDataEn := r.audioDataEn - 1
    audioDataNumSend := if audioDataMax ≤ num then num - audioDataMax else num }

/-- Message 125: send a voice packet, if there is one. -/
def message125 (io : Platform) (s : App) : App :=
  if s.record.audioDataEn = 0 then s
  else { sendVoice io s with record := voiceSent s.record }

/-- The markers message 127 takes: of those above 3 the last one gives the road,
and all are set to 2. -/
def takeMarkers (c : Call) : UInt8 × Call :=
  let t := if c.mailListRoad1 > 3 then c.mailListRoad1 else 0
  let t := if c.mailListRoad2 > 3 then c.mailListRoad2 else t
  let t := if c.mailListRoad3 > 3 then c.mailListRoad3 else t
  let t := if c.mailListRoad4 > 3 then c.mailListRoad4 else t
  (t, { c with
    mailListRoad1 := if c.mailListRoad1 > 3 then 2 else c.mailListRoad1
    mailListRoad2 := if c.mailListRoad2 > 3 then 2 else c.mailListRoad2
    mailListRoad3 := if c.mailListRoad3 > 3 then 2 else c.mailListRoad3
    mailListRoad4 := if c.mailListRoad4 > 3 then 2 else c.mailListRoad4 })

/-- Message 127: a call and its cancellation, so that the host keeps a record. -/
def message127 (s : App) : App :=
  let m := takeMarkers s.call
  let s := { s with call := m.2 }
  let s := sendCallFrame .instruction3 m.1 DialReqReqCall.call1.code (s.call.mailList 0) s
  sendCallFrame .instruction3 m.1 DialReqReqCall.call2.code (s.call.mailList 0) s

/-! ## Reports -/

/-- Message 128: ask for the hosts. -/
def message128 (io : Platform) (s : App) : App :=
  sendHandle 23 (pokeFrom 8 io.sysImei 15 (poke 5 [0x14, 0, 0x0f] s))

/-- The alarm frame; `pData` is `temp + 5`. -/
def alarmFrame (io : Platform) (pData : Mem) (s : App) : App :=
  let s := pokeFrom 5 (fun _ => 0) 30 s
  let s := poke 28 [pData 2] (poke 26 [pData 1] (poke 24 [pData 0] s))
  pokeFrom 8 io.sysImei 15
    (poke 27 [0x2c] (poke 25 [0x2c] (poke 23 [0x2c] (poke 5 [0x16, 0, 0x15] s))))

/-- Message 129: an alarm. -/
def message129 (io : Platform) (s : App) : App :=
  sendHandle 29 (alarmFrame io (s.uart.temp.ptr 5) s)

/-- The acquisition board is told of a new day. -/
def newDay (io : Platform) (s : App) : App :=
  if s.link.isNewDay ≠ 0 ∧ io.dd ≠ s.link.isNewDay then
    App.postUart3 .uart3Writenewday
      { s with uart.uart3Writenewday := cmdBytes s.uart.uart3Writenewday 0x05 [1, 1] }
  else s

/-- Message 130: the date. -/
def message130 (io : Platform) (s : App) : App := { newDay io s with link.isNewDay := io.dd }

/-- One of the two frames of message 131. -/
def countFrame (io : Platform) (id : UInt8) (a b : Mem) (s : App) : App :=
  let s := pokeFrom 8 io.sysImei 15 (poke 5 [0x18, 0, 0x17] s)
  let s := pokeFrom 26 a 2 (poke 23 [0x2c, id, 0x2c] s)
  sendHandle 31 (pokeFrom 29 b 2 (poke 28 [0x2c] s))

/-- Message 131: the counters of the two boards. -/
def message131 (io : Platform) (s : App) : App :=
  let pData := s.uart.temp.ptr 5
  let s := countFrame io 0 pData (pData.ptr 2) s
  countFrame io 1 (pData.ptr 4) (pData.ptr 6) s

/-- Message 132: the state of the relays. -/
def message132 (io : Platform) (s : App) : App :=
  let s := poke 5 [0x21, 0, 19] (pokeFrom 23 (s.uart.temp.ptr 5) 4 s)
  sendHandle 27 (pokeFrom 8 io.sysImei 15 s)

/-- Message 133: a second of a broadcast. -/
def message133 (s : App) : App :=
  if s.call.mailListALLTim > callMaxTim ∨ s.link.heartbeatTim > 5 then
    sendUart3Write 0x02 0 0
      (audioStopV2 { s with call.isMailListALL := 0, call.mailListALLTim := 0 })
  else s

/-- One message of `socket_test_thread`, other than 122. -/
def socketTestThread (io : Platform) (m : SocketMsg) (s : App) : App :=
  match m with
  | .msg120 => socketStartTest io s
  | .msg121 => message121 io s
  | .msg122 _ => s
  | .msg123 => message123 io s
  | .msg124 => message124 io s
  | .msg125 => message125 io s
  | .msg126 => callOvertimeFun io s
  | .msg127 => message127 s
  | .msg128 => message128 io s
  | .msg129 => message129 io s
  | .msg130 => message130 io s
  | .msg131 => message131 io s
  | .msg132 => message132 io s
  | .msg133 => message133 s

/-! ## The timer -/

/-- `heartbeat_tim++`. -/
def timerSecond (s : App) : App := { s with link.heartbeatTim := s.link.heartbeatTim + 1 }

/-- After too long a silence the device starts again. -/
def timerSilence (s : App) : App :=
  if s.link.heartbeatTim > 130 then s.log .powerReboot else s

/-- A second of a call. -/
def timerCall (s : App) : App :=
  if s.call.callUserOperation ≠ 0 then s.postSocket .msg126 else s

/-- A voice frame whose rest does not come is given up. -/
def timerFrame (s : App) : App :=
  if s.rx.currentDataLengthSave ≠ 0 ∧ s.link.heartbeatTim = 3 then
    { s with rx.currentDataLengthSave := 0 }
  else s

/-- A second of a broadcast. -/
def timerBroadcast (s : App) : App :=
  if s.call.mailListALLTim ≠ 0 then
    App.postSocket .msg133 { s with call.mailListALLTim := s.call.mailListALLTim + 1 }
  else s

/-- The hosts are asked for again every 3 s. -/
def timerHosts (s : App) : App :=
  if s.link.mailListTim ≠ 0 ∧ s.link.mailListTim < 3 then
    if s.link.mailListTim + 1 = 3 then App.postSocket .msg128 { s with link.mailListTim := 1 }
    else { s with link.mailListTim := s.link.mailListTim + 1 }
  else s

/-- The date is looked at every 20 s. -/
def timerDay (s : App) : App :=
  if (s.link.isOneDay + 1) % 20 = 0 then App.postSocket .msg130 { s with link.isOneDay := 0 }
  else { s with link.isOneDay := s.link.isOneDay + 1 }

/-- A busy host is free again after 10 s. -/
def timerBusy (s : App) : App :=
  if s.call.isHostBusy ≠ 0 then
    { s with call.isHostBusy := if s.call.isHostBusy + 1 > 10 then 0 else s.call.isHostBusy + 1 }
  else s

/-- A heartbeat every 60 s of silence. -/
def timerAlive (s : App) : App :=
  if s.link.heartbeatTim % 60 = 0 then s.postSocket .msg124 else s

/-- What is done once a second while logged in. -/
def timerLoggedIn (s : App) : App :=
  if s.link.loginSuccess = 1 ∧ s.link.socketFd > 0 then
    if s.link.logonImei = 1 then timerAlive (timerBusy (timerDay (timerHosts s)))
    else timerHosts s
  else s

/-- `KING_SocketClose`, and the pause before the next connection. -/
def closeAndWait (s : App) : App :=
  { s.log .socketClose with
    link.socketCloseTim :=
      if s.link.socketCloseTim = 0 then socketCloseTimTim else s.link.socketCloseTim }

/-- A second of the log-in, tried again every 10 s. -/
def loginSecond (s : App) : App :=
  if s.link.loginTim / loginTimTim ≥ loginTimNum then
    if s.link.newIpSuccess = 1 ∧ s.link.newIpSuccess2 = 0 then
      closeAndWait { s with link.loginTim := 1 }
    else s
  else if s.link.loginTim % loginTimTim = 0 then s.postSocket .msg121
  else s

/-- The log-in. -/
def timerLogin (s : App) : App :=
  if s.link.socketEn = 1 ∧ s.link.loginSuccess = 0 ∧ s.link.loginTim ≠ 0 then
    loginSecond { s with link.loginTim := s.link.loginTim + 1 }
  else s

/-- A connection took too long. -/
def contentOver (s : App) : App :=
  if s.link.socketContentNum < socketCloseNumNum then s.log .socketClose
  else if s.link.newIpSuccess = 1 ∧ s.link.newIpSuccess2 = 0 then
    closeAndWait { s with link.socketContentNum := 0, link.socketCloseNum := 0 }
  else s

/-- The time a connection may take. -/
def timerContent (s : App) : App :=
  if s.link.socketContentTim = 0 then s
  else if s.link.socketContentTim - 1 = 0 then
    contentOver { s with
      link.socketContentTim := 0, link.socketContentNum := s.link.socketContentNum + 1 }
  else { s with link.socketContentTim := s.link.socketContentTim - 1 }

/-- The pause is over: the next connection. -/
def closeOver (io : Platform) (s : App) : App :=
  if s.link.socketCloseNum < socketCloseNumNum then socketEnter io s
  else if s.link.newIpSuccess = 1 ∧ s.link.newIpSuccess2 = 0 then
    closeAndWait { s with link.socketCloseTim := 1, link.socketCloseNum := 0 }
  else s

/-- The pause after a connection was closed. -/
def timerClose (io : Platform) (s : App) : App :=
  if s.link.socketCloseTim = 0 then s
  else if s.link.socketCloseTim - 1 = 0 then
    closeOver io { s with
      link.socketCloseTim := 0, link.socketCloseNum := s.link.socketCloseNum + 1 }
  else { s with link.socketCloseTim := s.link.socketCloseTim - 1 }

/-- `Timer_heartbeat`, once a second. -/
def timerHeartbeat (io : Platform) (s : App) : App :=
  let s := timerBroadcast (timerFrame (timerCall (timerSilence (timerSecond s))))
  timerClose io (timerContent (timerLogin (timerLoggedIn s)))

/-! ## The socket events -/

/-- The events of `socket_eventProcessCb` that do something. -/
inductive SocketEvent where
  | connectRsp | closeRsp | errorInd | readInd (availSize : Nat) | unexpected

/-- `socket_eventProcessCb`. -/
def socketEventProcessCb (e : SocketEvent) (s : App) : App :=
  match e with
  | .connectRsp =>
      App.postSocket .msg121 { s with
        link.loginTim := 1, link.socketEn := 1, link.logonImei := 1, link.socketContentTim := 0 }
  | .closeRsp =>
      { s with
        link.socketFd := -1
        link.socketCloseTim :=
          if s.link.socketCloseTim = 0 then socketCloseTimTim else s.link.socketCloseTim
        link.socketEn := 0, link.loginTim := 0, link.loginSuccess := 0, link.logonImei := 0 }
  | .errorInd | .unexpected => dropSocket s
  | .readInd availSize => s.postSocket (.msg122 (availSize % 65536))

end IntercomSalve
