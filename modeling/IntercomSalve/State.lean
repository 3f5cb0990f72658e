/-
# `State` — the globals of `socket.c`, `AudioPocMode.c` and `AudioPlayMP3.c`

The firmware keeps everything in global variables that three threads, two timers
and three driver callbacks share.  They are one record here, `App`, in groups by
what they are for; the names are the source's.  The three message queues are
part of the record, because what a handler posts is all another thread sees.

Two components are not in the firmware, and nothing reads them: `out`, the
calls into the platform in the order they are made, and `Play.heard`, the voice
bytes stored for playing in the order they are stored.

`uint8` is `UInt8`.  The `uint32` positions and counters are `Nat`; the only
operation on them that can wrap is subtraction, and it is written `sub32`.
-/
import IntercomSalve.Lib.Goto
import IntercomSalve.Lib.Ring
import IntercomSalve.Lib.Run

namespace IntercomSalve

/-- `a - b` in `uint32`. -/
def sub32 (a b : Nat) : Nat := if b ≤ a then a - b else 4294967296 - (b - a)

theorem sub32_of_le {a b : Nat} (h : b ≤ a) : sub32 a b = a - b := if_pos h

/-- How the receive loop asks whether `len` bytes are left `n` behind the cursor `d`:
they are, or even the `n` bytes are not all there. -/
theorem le_sub32_iff {len n ret d : Nat} (hlen : len ≤ 65535) (hn : n ≤ 10) (hd : d < ret)
    (hret : ret < 65536) :
    len ≤ sub32 (sub32 ret n) d ↔ n + d + len ≤ ret ∨ ret < n + d := by
  unfold sub32
  split <;> split <;> omega

/-- How many of them are left, when some are missing. -/
theorem sub32_rest {n ret d : Nat} (h : n + d ≤ ret) : sub32 (sub32 ret d) n = ret - d - n := by
  rw [sub32_of_le (a := ret) (b := d) (by omega), sub32_of_le (by omega)]

/-! ## The `#define`s and the timeouts -/

/-- `AUDIO_DATA_MAX`. -/
def audioDataMax : Nat := 40000
/-- `PLAY_DATA_MAX`. -/
def playDataMax : Nat := 40000
/-- `PRECV_MAX`. -/
def precvMax : Nat := 10000
/-- `AUDIO_DATA_EN_MAX`: bytes of one voice packet. -/
def audioDataEnMax : Nat := 80
/-- `PLAY_DATA_EN_MAX`: bytes of samples one packet decodes to. -/
def playDataEnMax : Nat := 320
/-- `Call_reception_timeout`, in seconds without a frame. -/
def callReceptionTimeout : UInt8 := 3
/-- `Call_max_tim`, in seconds. -/
def callMaxTim : UInt8 := 60
/-- `socket_close_tim_tim`. -/
def socketCloseTimTim : UInt8 := 10
/-- `socket_close_num_num`. -/
def socketCloseNumNum : UInt8 := 4
/-- `login_tim_tim`. -/
def loginTimTim : UInt8 := 10
/-- `login_tim_num`. -/
def loginTimNum : UInt8 := 4

/-! ## The enumerations of the protocol -/

/-- `enum Socket_instruction`: the command byte of a frame. -/
inductive SocketInstruction where
  | instruction1 | instruction2 | instruction3 | instruction4 | instruction5 | instruction6
  | instruction9 | instruction10 | instruction11 | instruction12
  | instruction18 | instruction19 | instruction20 | instruction21 | instruction22 | instruction23
  | instruction25 | instruction29 | instruction30 | instruction31 | instruction32
  | instruction33 | instruction34
  deriving DecidableEq, Repr

/-- The command byte. -/
def SocketInstruction.code : SocketInstruction → Nat
  | instruction1 => 0x01 | instruction2 => 0x02 | instruction3 => 0x03 | instruction4 => 0x04
  | instruction5 => 0x05 | instruction6 => 0x06 | instruction9 => 0x09 | instruction10 => 0x0A
  | instruction11 => 0x10 | instruction12 => 0x11 | instruction18 => 0x12 | instruction19 => 0x13
  | instruction20 => 0x14 | instruction21 => 0x15 | instruction22 => 0x16 | instruction23 => 0x17
  | instruction25 => 0x18 | instruction29 => 0x20 | instruction30 => 0x21 | instruction31 => 0x22
  | instruction32 => 0x23 | instruction33 => 0x24 | instruction34 => 0x25

/-- The enumerator a command byte selects. -/
def SocketInstruction.ofCode : Nat → Option SocketInstruction
  | 0x01 => some instruction1 | 0x02 => some instruction2 | 0x03 => some instruction3
  | 0x04 => some instruction4 | 0x05 => some instruction5 | 0x06 => some instruction6
  | 0x09 => some instruction9 | 0x0A => some instruction10 | 0x10 => some instruction11
  | 0x11 => some instruction12 | 0x12 => some instruction18 | 0x13 => some instruction19
  | 0x14 => some instruction20 | 0x15 => some instruction21 | 0x16 => some instruction22
  | 0x17 => some instruction23 | 0x18 => some instruction25 | 0x20 => some instruction29
  | 0x21 => some instruction30 | 0x22 => some instruction31 | 0x23 => some instruction32
  | 0x24 => some instruction33 | 0x25 => some instruction34
  | _ => none

theorem SocketInstruction.ofCode_eq_some {n : Nat} {c : SocketInstruction} :
    ofCode n = some c ↔ n = c.code := by
  constructor
  · intro h
    unfold ofCode at h
    split at h <;> first | (obtain rfl := Option.some.inj h; rfl) | exact absurd h (by simp)
  · rintro rfl
    cases c <;> rfl

theorem SocketInstruction.code_injective {c d : SocketInstruction} (h : c.code = d.code) :
    c = d := by
  have hc : ofCode c.code = some c := ofCode_eq_some.mpr rfl
  have hd : ofCode d.code = some d := ofCode_eq_some.mpr rfl
  rw [h, hd] at hc
  exact (Option.some.inj hc).symm

/-- `enum DIAL_REQ_REQ_CALL`: what a call request asks for. -/
inductive DialReqReqCall where
  | call1 | call2 | call3 | call4
  deriving DecidableEq, Repr

def DialReqReqCall.code : DialReqReqCall → UInt8
  | call1 => 0x31 | call2 => 0x32 | call3 => 0x33 | call4 => 0x34

def DialReqReqCall.ofCode (b : UInt8) : Option DialReqReqCall :=
  if b = 0x31 then some call1 else if b = 0x32 then some call2
  else if b = 0x33 then some call3 else if b = 0x34 then some call4 else none

/-- `enum DIAL_REQ_REQ_CALL_RETURN`, and `enum SLAVE_REQ_REQ_CALL_RETURN` with the
same values: the answer to a call request. -/
inductive CallReturn where
  | return0 | return1 | return2 | return3 | return4 | return5
  deriving DecidableEq, Repr

def CallReturn.code : CallReturn → UInt8
  | return0 => 0x30 | return1 => 0x31 | return2 => 0x32
  | return3 => 0x33 | return4 => 0x34 | return5 => 0x35

def CallReturn.ofCode (b : UInt8) : Option CallReturn :=
  if b = 0x30 then some return0 else if b = 0x31 then some return1
  else if b = 0x32 then some return2 else if b = 0x33 then some return3
  else if b = 0x34 then some return4 else if b = 0x35 then some return5 else none

theorem DialReqReqCall.ofCode_eq_some {b : UInt8} {c : DialReqReqCall} :
    ofCode b = some c ↔ b = c.code := by
  constructor
  · intro h
    unfold ofCode at h
    repeat' split at h
    all_goals first | (obtain rfl := Option.some.inj h; assumption) | exact absurd h (by simp)
  · rintro rfl
    cases c <;> rfl

theorem CallReturn.ofCode_eq_some {b : UInt8} {c : CallReturn} :
    ofCode b = some c ↔ b = c.code := by
  constructor
  · intro h
    unfold ofCode at h
    repeat' split at h
    all_goals first | (obtain rfl := Option.some.inj h; assumption) | exact absurd h (by simp)
  · rintro rfl
    cases c <;> rfl

/-! ## Messages and platform calls -/

/-- The global buffers a `MSG_EVT_UART3_SEND` may point to, and the constant
command queued at boot. -/
inductive Uart3Buf where
  | uart3Write | uart3Writenewday | uart3Writejdq | uart3Writelogin | boot
  deriving DecidableEq, Repr

/-- Messages of `msgHandle_audio` (`enum Msg_Evt`). -/
inductive AudioMsg where
  | uart2Read | uart3Read | hmiNews | uart3Send (pData : Uart3Buf) | hmiNews2 | time5s
  | hmiNews3 | hmiNews4
  deriving DecidableEq, Repr

/-- The prompts under `/app/system/audio`. -/
inductive Mp3File where
  | waitConv | endConv | tim60End | busy
  deriving DecidableEq, Repr

/-- Messages of `MP3_msgHandle` (`enum Msg_Evt_MP3`). -/
inductive Mp3Msg where
  | audio (pData : Mp3File) | stop (pData : Mp3File) | stopAudioStart
  deriving DecidableEq, Repr

/-- Messages of `socketMsgHandle`, by number; 122 carries `DataLen`, and 129, 131
and 132 the address `temp + 5`. -/
inductive SocketMsg where
  | msg120 | msg121 | msg122 (dataLen : Nat) | msg123 | msg124 | msg125 | msg126 | msg127
  | msg128 | msg129 | msg130 | msg131 | msg132 | msg133
  deriving DecidableEq, Repr

/-- Calls into the platform.  `instruction` marks the entry into a case of the
receive switch, and `uart3Posted` what the buffer of a `MSG_EVT_UART3_SEND` holds
when the message is posted. -/
inductive Out where
  | socketSend (buf : List UInt8) | socketClose | instruction (c : SocketInstruction)
  | uart3Posted (buf : List UInt8) | uartWrite (buf : List UInt8)
  | audioDevStartPocMode | audioDevStopPocMode | audioStop | audioAbort
  | fsFileCreate (fileName : Mp3File) | fsCloseHandle (h : Option Nat)
  | fsFileRead (h : Option Nat) | fsFilePointerSet (h : Option Nat) (pos : Nat)
  | audioStreamPlayExt | httpStartTest | powerReboot
  deriving DecidableEq, Repr

/-! ## The record -/

/-- The receive buffer and the parser's position in it. -/
structure Rx where
  pRecv : Mem
  handleDeviation : Nat
  currentDataLength : Nat
  currentDataLengthSave : Nat
  analysisHandle : Nat

/-- The state of the call and of the broadcast, and the list of hosts. -/
structure Call where
  callUserOperation : UInt8
  callUserTim : UInt8
  mailListId : UInt8
  mailListRoad : UInt8
  mailListRoad1 : UInt8
  mailListRoad2 : UInt8
  mailListRoad3 : UInt8
  mailListRoad4 : UInt8
  isHostBusy : UInt8
  isMailListALL : UInt8
  mailListALLTim : UInt8
  mailList : Fin 4 → Mem

/-- The ring of received voice. -/
structure Play where
  playData : Mem
  playDataNum : Nat
  playDataNew : Nat
  playDataEn : Nat
  audioDataPlay : Nat
  heard : List UInt8

/-- State of one direction of the codec (`static short index`, `static int predsample`). -/
structure Adpcm where
  index : Int
  predsample : Int
  deriving DecidableEq

/-- The ring of recorded voice. -/
structure Record where
  audioData : Mem
  audioDataNum : Nat
  audioDataNew : Nat
  audioDataEn : Nat
  audioDataNumSend : Nat

/-- The connection to the server and its timers. -/
structure Link where
  socketFd : Int
  heartbeatTim : UInt8
  socketEn : UInt8
  loginSuccess : UInt8
  logonImei : UInt8
  socketContentTim : UInt8
  socketContentNum : UInt8
  socketCloseTim : UInt8
  socketCloseNum : UInt8
  loginTim : UInt8
  newIpSuccess : UInt8
  newIpSuccess2 : UInt8
  mailListTim : UInt8
  isOneDay : UInt8
  isNewDay : UInt8

/-- The relay command buffers, and `temp`, the buffer the UART is read into. -/
structure Uart where
  uart3Write : Mem
  uart3Writenewday : Mem
  uart3Writejdq : Mem
  uart3Writelogin : Mem
  temp : Mem

/-- All of it. -/
structure App where
  rx : Rx
  call : Call
  play : Play
  record : Record
  encode : Adpcm
  decode : Adpcm
  link : Link
  uart : Uart
  socketDataHandle : Mem
  httpUrl : Mem
  /-- `audio_en_v2` -/
  audioEnV2 : UInt8
  /-- `mp3_gFileHandle` -/
  mp3GFileHandle : Option Nat
  /-- the 5 s prompt timer of `AudioPocMode.c` is active -/
  timerStart : Bool
  socketMsgs : List SocketMsg
  audioMsgs : List AudioMsg
  mp3Msgs : List Mp3Msg
  out : List Out

/-- What the platform answers during one handler call. -/
structure Platform where
  /-- `KING_GetSysImei` -/
  sysImei : Mem
  /-- the value `KING_SocketSend` returns for the `k`-th send of the call -/
  socketSend : Nat → Int
  /-- `Cesq` of `KING_NetSignalQualityGet` -/
  rsrq : UInt8
  rsrp : UInt8
  /-- `dd` of `KING_LocalTimeGet` -/
  dd : UInt8
  /-- how often `KING_NetStateGet` finds no network before it finds one -/
  netWaits : Nat
  /-- the descriptor `socket_enter` connects, if it creates one -/
  socketFd : Option Int
  /-- the count `KING_UartGetAvailableBytes` gives -/
  uartAvailable : Nat
  /-- the bytes `KING_UartRead` stores -/
  uartRead : List UInt8
  /-- `KING_AudioStatusGet` says `AUDIO_STATE_BUSY` -/
  audioBusy : Bool
  /-- the handle `KING_FsFileCreate` opens, if it opens one -/
  fsFileCreate : Option Nat
  /-- the bytes `KING_FsFileRead` reads -/
  fsFileRead : List UInt8

/-- A call that ends in the log only. -/
def App.log (o : Out) (s : App) : App := { s with out := s.out ++ [o] }

/-- `KING_MsgSend (…, socketMsgHandle)`. -/
def App.postSocket (m : SocketMsg) (s : App) : App := { s with socketMsgs := s.socketMsgs ++ [m] }

/-- `KING_MsgSend (…, msgHandle_audio)`. -/
def App.postAudio (m : AudioMsg) (s : App) : App := { s with audioMsgs := s.audioMsgs ++ [m] }

/-- `KING_MsgSend (…, MP3_msgHandle)`. -/
def App.postMp3 (m : Mp3Msg) (s : App) : App := { s with mp3Msgs := s.mp3Msgs ++ [m] }

/-- `KING_SocketSend (s_socketFd, buf, n, 0)`. -/
def App.socketSend (buf : Mem) (n : Nat) (s : App) : App := s.log (.socketSend (buf.slice 0 n))

/-- `new_connect (ret)`: close the socket when the send failed. -/
def newConnect (ret : Int) (s : App) : App :=
  { s with out := if ret = -1 then s.out ++ [.socketClose] else s.out }

/-- The ten bytes a buffer of `MSG_EVT_UART3_SEND` holds. -/
def App.uart3Bytes (s : App) : Uart3Buf → List UInt8
  | .uart3Write => s.uart.uart3Write.slice 0 10
  | .uart3Writenewday => s.uart.uart3Writenewday.slice 0 10
  | .uart3Writejdq => s.uart.uart3Writejdq.slice 0 10
  | .uart3Writelogin => s.uart.uart3Writelogin.slice 0 10
  | .boot => [0x63, 0x6d, 0x64, 0x02, 0, 0, 0, 0, 0, 0]

/-- Post `MSG_EVT_UART3_SEND` with the address of a buffer. -/
def App.postUart3 (pData : Uart3Buf) (s : App) : App :=
  (s.postAudio (.uart3Send pData)).log (.uart3Posted (s.uart3Bytes pData))

/-- `memcpy (buf, "cmd\xNN", 4)` and the argument bytes after it. -/
def cmdBytes (buf : Mem) (cmd : UInt8) (args : List UInt8) : Mem :=
  buf.memcpy 0 (Mem.ofList ([0x63, 0x6d, 0x64, cmd] ++ args)) (4 + args.length)

/-- Fill `uart3_write` with command `cmd` and two arguments, and post it. -/
def sendUart3Write (cmd a b : UInt8) (s : App) : App :=
  App.postUart3 .uart3Write
    { s with uart.uart3Write := cmdBytes s.uart.uart3Write cmd [a, b] }

instance neZeroHosts : @NeZero Nat Zero.ofOfNat0 4 := ⟨by decide⟩

/-- The first fifteen bytes of `mail_list[k]`. -/
def Call.imei (c : Call) (k : Fin 4) : List UInt8 := (c.mailList k).slice 0 15

/-- `memcpy (mail_list[k], src, 15)`. -/
def Call.setImei (c : Call) (k : Fin 4) (src : Mem) : Call :=
  { c with mailList := Function.update c.mailList k ((c.mailList k).memcpy 0 src 15) }

/-- Everything zero but what the source initialises otherwise; the command that
opens the relays at power-on is queued. -/
def App.init : App where
  rx := ⟨fun _ => 0, 0, 0, 0, 0⟩
  call := ⟨0, 0, 0, 0, 0, 0, 0, 0, 0, 0, 0, fun _ _ => 0⟩
  play := ⟨fun _ => 0, 0, 0, 0, 0, []⟩
  record := ⟨fun _ => 0, 0, 0, 0, 0⟩
  encode := ⟨0, 0⟩
  decode := ⟨0, 0⟩
  link := {
    socketFd := -1, heartbeatTim := 0, socketEn := 0, loginSuccess := 0, logonImei := 0,
    socketContentTim := 0, socketContentNum := 0, socketCloseTim := 0, socketCloseNum := 0,
    loginTim := 0, newIpSuccess := 0, newIpSuccess2 := 0, mailListTim := 1, isOneDay := 0,
    isNewDay := 0 }
  uart := ⟨fun _ => 0, fun _ => 0, fun _ => 0, fun _ => 0, fun _ => 0⟩
  socketDataHandle := Mem.ofList [0xAA, 0xFA, 0x00, 0x00, 0x01]
  httpUrl := fun _ => 0
  audioEnV2 := 0
  mp3GFileHandle := none
  timerStart := false
  socketMsgs := [.msg120]
  audioMsgs := [.uart3Send .boot]
  mp3Msgs := []
  out := [.uart3Posted [0x63, 0x6d, 0x64, 0x02, 0, 0, 0, 0, 0, 0]]

end IntercomSalve
