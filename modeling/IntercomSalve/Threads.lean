/-
# `Threads` — `AudioDuplexthread` and `AudioPlayMP3Thread`

The audio thread reads the acquisition board on UART3, writes the relay commands
the socket thread posted, and starts and stops the voice device.  The prompt
thread plays a file, or hands the device over to the call by posting
`MSG_EVT_HMI_NEWS` back to the audio thread.
-/
import IntercomSalve.Socket

namespace IntercomSalve

/-! ## `AudioDuplexthread` -/

/-- A button while the call is idle: call out on its channel. -/
def buttonCall (s : App) : App :=
  let s := App.postMp3 (.audio .waitConv) { s with call.callUserOperation := 1 }
  let s := App.postSocket .msg123 { s with call.mailListRoad := s.uart.temp 7 + 0x30 }
  { s with
    timerStart := true
    uart.temp := Function.update (Function.update s.uart.temp 0 0) 4 0
    call.mailListRoad1 := 0, call.mailListRoad2 := 0
    call.mailListRoad3 := 0, call.mailListRoad4 := 0 }

/-- A button of another channel during a call: its marker is set, once. -/
def buttonBusy (s : App) : App :=
  let road := s.uart.temp 7 + 0x30
  if s.uart.temp 7 = 1 ∧ s.call.mailListRoad1 = 0 then
    App.postSocket .msg127 { s with call.mailListRoad1 := road }
  else if s.uart.temp 7 = 2 ∧ s.call.mailListRoad2 = 0 then
    App.postSocket .msg127 { s with call.mailListRoad2 := road }
  else if s.uart.temp 7 = 3 ∧ s.call.mailListRoad3 = 0 then
    App.postSocket .msg127 { s with call.mailListRoad3 := road }
  else if s.uart.temp 7 = 4 ∧ s.call.mailListRoad4 = 0 then
    App.postSocket .msg127 { s with call.mailListRoad4 := road }
  else s

/-- A button frame.  The source compares `mail_list_road` with the unreduced
`temp[7] + 0x30`. -/
def buttonFrame (s : App) : App :=
  if s.call.isHostBusy ≠ 0 then s
  else if s.call.callUserOperation = 0 then buttonCall s
  else if s.call.mailListRoad.toNat = (s.uart.temp 7).toNat + 0x30 then s
  else buttonBusy s

/-- A frame of the acquisition board, by its fifth byte. -/
def uart3Frame (s : App) : App :=
  if s.uart.temp 4 = 1 then buttonFrame s
  else if s.uart.temp 4 = 2 then s.postSocket .msg129
  else if s.uart.temp 4 = 3 then s.postSocket .msg131
  else if s.uart.temp 4 = 4 then s.postSocket .msg132
  else s

/-- `KING_UartRead (…, temp, …)`. -/
def readTemp (io : Platform) (s : App) : App :=
  { s with uart.temp := s.uart.temp.memcpy 0 (Mem.ofList io.uartRead) io.uartRead.length }

/-- What was read is a frame. -/
def isUart3Frame (temp : Mem) : Prop :=
  temp 0 = 0x53 ∧ temp 1 = 0x59 ∧ temp 2 = 0 ∧ temp 3 = 0

instance (temp : Mem) : Decidable (isUart3Frame temp) := by unfold isUart3Frame; infer_instance

/-- `MSG_EVT_UART3_READ`. -/
def uart3Read (io : Platform) (s : App) : App :=
  if s.link.mailListTim ≠ 0 ∨ io.uartAvailable < 2 then s
  else if isUart3Frame (readTemp io s).uart.temp then uart3Frame (readTemp io s)
  else readTemp io s

/-- `MSG_EVT_HMI_NEWS`: the call starts; both rings are emptied, but
`audio_data_num_send` stays. -/
def hmiNews (s : App) : App :=
  audioStartV2 { s with
    timerStart := false
    record.audioDataNum := 0, record.audioDataNew := 0, record.audioDataEn := 0
    play.playDataNum := 0, play.playDataNew := 0, play.playDataEn := 0, play.audioDataPlay := 0 }

/-- `MSG_EVT_HMI_NEWS2`, `3`, `4`: the call ends with a prompt. -/
def hmiPrompt (f : Mp3File) (s : App) : App :=
  App.postMp3 (.audio f) (audioStopV2 { s with timerStart := false })

/-- One message of `AudioDuplexthread`. -/
def audioDuplexthread (io : Platform) (m : AudioMsg) (s : App) : App :=
  match m with
  | .uart2Read => s
  | .uart3Read => uart3Read io s
  | .uart3Send pData => s.log (.uartWrite (s.uart3Bytes pData))
  | .hmiNews => hmiNews s
  | .hmiNews2 => hmiPrompt .endConv s
  | .time5s => s.postMp3 (.audio .waitConv)
  | .hmiNews3 => hmiPrompt .tim60End s
  | .hmiNews4 => hmiPrompt .busy s

/-! ## `AudioPlayMP3Thread` -/

/-- `Mp3tagHeaderDecode`: the size of an ID3 tag, -1 without one. -/
def mp3tagHeaderDecode (tag : List UInt8) : Int :=
  if tag.take 3 = [0x49, 0x44, 0x33] then
    let b := fun i => ((tag.getD i 0).toNat % 128 : Int)
    b 6 * 2097152 + b 7 * 16384 + b 8 * 128 + b 9
  else -1

/-- `AudioStopPlay ()`. -/
def audioStopPlay (s : App) : App :=
  let s := s.log .audioAbort
  match s.mp3GFileHandle with
  | some h => { s.log (.fsCloseHandle (some h)) with mp3GFileHandle := none }
  | none => s

/-- The file is open: its tag is read and skipped. -/
def skipTag (io : Platform) (h : Nat) (s : App) : App :=
  let s := { s with mp3GFileHandle := some h }.log (.fsFileRead (some h))
  if io.fsFileRead.length = 10 then
    let headLen := mp3tagHeaderDecode io.fsFileRead
    s.log (.fsFilePointerSet (some h) (if headLen > 0 then headLen.toNat + 10 else 0))
  else s

/-- `AudioPlayMP3 (fileName)`. -/
def audioPlayMP3 (io : Platform) (fileName : Mp3File) (s : App) : App :=
  let s := (if io.audioBusy then audioStopPlay s else s).log (.fsFileCreate fileName)
  match io.fsFileCreate with
  | none => s
  | some h => (skipTag io h s).log .audioStreamPlayExt

/-- `Msg_Evt_MP3_AUDIO` and `Msg_Evt_MP3_STOP`. -/
def mp3Audio (io : Platform) (f : Mp3File) (s : App) : App :=
  if s.audioEnV2 ≠ 0 then
    { (s.log .audioDevStopPocMode).log .audioStop with audioEnV2 := 0 }
  else
    audioPlayMP3 io f ((s.log .audioStop).log (.fsCloseHandle s.mp3GFileHandle))

/-- One message of `AudioPlayMP3Thread`. -/
def audioPlayMP3Thread (io : Platform) (m : Mp3Msg) (s : App) : App :=
  match m with
  | .audio f | .stop f => mp3Audio io f s
  | .stopAudioStart =>
      App.postAudio .hmiNews
        (if s.audioEnV2 = 0 then (s.log .audioStop).log (.fsCloseHandle s.mp3GFileHandle) else s)

/-! ## What a prompt changes -/

/-- The calls that play a file, or stop one. -/
def Out.isPlayer : Out → Bool
  | .audioAbort | .fsFileCreate _ | .fsCloseHandle _ | .fsFileRead _ | .fsFilePointerSet _ _
  | .audioStreamPlayExt => true
  | _ => false

/-- Only such calls are made, and only the handle of the file changes. -/
def OnlyPlays (s t : App) : Prop :=
  ∃ h os, t = { s with mp3GFileHandle := h, out := s.out ++ os } ∧ ∀ o ∈ os, o.isPlayer = true

theorem OnlyPlays.refl (s : App) : OnlyPlays s s :=
  ⟨s.mp3GFileHandle, [], by rw [List.append_nil], fun _ ho => absurd ho List.not_mem_nil⟩

theorem OnlyPlays.trans {s t u : App} (h : OnlyPlays s t) (h' : OnlyPlays t u) :
    OnlyPlays s u := by
  obtain ⟨f, os, rfl, hos⟩ := h
  obtain ⟨f', ps, rfl, hps⟩ := h'
  refine ⟨f', os ++ ps, by rw [List.append_assoc], fun o ho => ?_⟩
  rcases List.mem_append.mp ho with ho | ho
  · exact hos o ho
  · exact hps o ho

theorem OnlyPlays.log {s t : App} (h : OnlyPlays s t) {o : Out} (ho : o.isPlayer = true) :
    OnlyPlays s (t.log o) := by
  refine h.trans ⟨t.mp3GFileHandle, [o], rfl, fun p hp => ?_⟩
  rwa [List.mem_singleton.mp hp]

theorem OnlyPlays.setHandle {s t : App} (h : OnlyPlays s t) (f : Option Nat) :
    OnlyPlays s { t with mp3GFileHandle := f } :=
  h.trans ⟨f, [], by rw [List.append_nil], fun _ ho => absurd ho List.not_mem_nil⟩

theorem audioStopPlay_onlyPlays (s : App) : OnlyPlays s (audioStopPlay s) := by
  have habort : OnlyPlays s (s.log .audioAbort) := (OnlyPlays.refl s).log rfl
  unfold audioStopPlay
  dsimp only
  split
  · exact (habort.log rfl).setHandle none
  · exact habort

theorem skipTag_onlyPlays (io : Platform) (h : Nat) (s : App) : OnlyPlays s (skipTag io h s) := by
  have hread : OnlyPlays s ({ s with mp3GFileHandle := some h }.log (.fsFileRead (some h))) :=
    ((OnlyPlays.refl s).setHandle (some h)).log rfl
  unfold skipTag
  dsimp only
  split
  · exact hread.log rfl
  · exact hread

theorem audioPlayMP3_onlyPlays (io : Platform) (f : Mp3File) (s : App) :
    OnlyPlays s (audioPlayMP3 io f s) := by
  have hopen : OnlyPlays s ((if io.audioBusy then audioStopPlay s else s).log (.fsFileCreate f)) := by
    refine OnlyPlays.log ?_ rfl
    split
    · exact audioStopPlay_onlyPlays s
    · exact .refl s
  unfold audioPlayMP3
  dsimp only
  split
  · exact hopen
  · exact (hopen.trans (skipTag_onlyPlays io _ _)).log rfl

end IntercomSalve
