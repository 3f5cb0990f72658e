/-
# `Audio` — the two voice rings and the audio callbacks

`fill_audio` stores received voice, `AudioPlayCb` decodes it; `AudioRecordCb`
encodes the microphone, and message 125 of the socket thread sends what it
stored.  Each ring has a writer and a reader in different threads, and the
positions of the two are separate globals.
-/
import IntercomSalve.Adpcm

namespace IntercomSalve

/-! ## Received voice -/

/-- `fill_audio (Pdat, lines)`. -/
def fillAudio (pdat : Mem) (lines : Nat) (p : Play) : Play :=
  if lines ≤ 1 then p
  else
    let room := sub32 playDataMax p.playDataNum
    let data :=
      if playDataMax < p.playDataNum + lines then
        (p.playData.memcpy p.playDataNum pdat room).memcpy 0 (pdat.ptr room) (sub32 lines room)
      else p.playData.memcpy p.playDataNum pdat lines
    let num := p.playDataNum + lines
    let new := p.playDataNew + lines
    { p with
      playData := data
      playDataNum := if playDataMax ≤ num then num - playDataMax else num
      playDataEn := if 80 ≤ new then p.playDataEn + new / 80 else p.playDataEn
      playDataNew := if 80 ≤ new then new % 80 else new
      heard := p.heard ++ pdat.slice 0 lines }

/-- Decode the packet of `n` bytes at offset `i`, low nibble first. -/
def decodePacket (data : Mem) : (i n : Nat) → Adpcm → List Int × Adpcm
  | _, 0, st => ([], st)
  | i, n + 1, st =>
      let a := adpcmDecode ((data i).toNat % 16) st
      let b := adpcmDecode ((data i).toNat / 16) a.2
      let rest := decodePacket data (i + 1) n b.2
      (a.1 :: b.1 :: rest.1, rest.2)

/-- `AudioPlayCb (AUDIO_PLAY_FILL_BUFF, …)`: the samples played, none when there
is no packet. -/
def audioPlayCb (s : App) : List Int × App :=
  if s.play.playDataEn = 0 then ([], s)
  else
    let pcm := decodePacket s.play.playData s.play.audioDataPlay 80 s.decode
    let pos := s.play.audioDataPlay + playDataEnMax / 4
    (pcm.1, { s with
      play.playDataEn := s.play.playDataEn - 1
      play.audioDataPlay := if playDataMax ≤ pos then pos - playDataMax else pos
      decode := pcm.2 })

/-! ## Recorded voice -/

/-- `memcpy (&audio_copy, buff + i, 2)`: a little-endian `short`. -/
def shortAt (buff : Mem) (i : Nat) : Int :=
  let v := (buff i).toNat + 256 * (buff (i + 1)).toNat
  if v < 32768 then v else (v : Int) - 65536

/-- The loop of `AudioRecordCb` over the samples `a, a+1, …`: two codes a byte,
the even sample in the low nibble. -/
def recordLoop (buff : Mem) (num : Nat) : (n a b : Nat) → Mem → Adpcm → Mem × Adpcm
  | 0, _, _, data, st => (data, st)
  | n + 1, a, b, data, st =>
      let e := adpcmEncode (shortAt buff (a * 2)) st
      if a % 2 = 0 then
        recordLoop buff num n (a + 1) b (Function.update data (num + b) (UInt8.ofNat e.1)) e.2
      else
        recordLoop buff num n (a + 1) (b + 1)
          (Function.update data (num + b) (data (num + b) ||| UInt8.ofNat (e.1 * 16))) e.2

/-- `audio_start_v2 ()`. -/
def audioStartV2 (s : App) : App := { s with audioEnV2 := 1 }.log .audioDevStartPocMode

/-- `audio_stop_v2 ()`. -/
def audioStopV2 (s : App) : App :=
  if s.audioEnV2 = 1 ∨ s.call.isMailListALL = 1 then
    { (s.log .audioDevStopPocMode).log .audioStop with audioEnV2 := 0 }
  else s

/-- `AudioRecordCb (AUDIO_RECORD_ONE_FRAME, buff, &len)`. -/
def audioRecordCb (buff : Mem) (len : Nat) (s : App) : App :=
  if s.call.isMailListALL ≠ 0 then s
  else if s.link.socketFd = -1 ∨ (s.call.callUserOperation = 0 ∧ s.call.isMailListALL = 0) then
    audioStopV2 s
  else
    let enc := recordLoop buff s.record.audioDataNum (len / 2) 0 0 s.record.audioData s.encode
    let num := s.record.audioDataNum + len / 4
    App.postSocket .msg125 { s with
      record.audioData := enc.1
      record.audioDataNum := if audioDataMax ≤ num then num - audioDataMax else num
      record.audioDataEn := s.record.audioDataEn + 1
      encode := enc.2 }

end IntercomSalve
