/-
# `Fills` — what the receive loop stores for playing

`fill_audio` takes a pointer into the receive buffer and a number of bytes.  Three places
call it: a voice frame, the voice of a broadcast, and the rest of a voice frame that an
earlier receive left incomplete.  `playOp` reads off the state before a step what the
step does with the ring of received voice, and `Steps.play_eq` says that it does that.

The wrap-around subtracts `PLAY_DATA_MAX` once, so `fill_audio` stays inside its ring
exactly if position and length together stay below twice its size (`fillInside_iff`).
Nothing promises that: with fewer than eight bytes left in the chunk, the declared length
is believed whatever it is.
-/
import IntercomSalve.PlayRing
import IntercomSalve.Bounds
import IntercomSalve.Session

namespace IntercomSalve

open Goto

/-! ## What a step does with the ring -/

/-- The `fill_audio` of the frame that a pass finds. -/
def frameFill (ret : Nat) (s : App) : Option PlayOp :=
  match frameAt ⟨s, some ret⟩ with
  | some .instruction10 =>
      some (.fill (s.rx.pRecv.ptr (8 + s.rx.handleDeviation)) (voiceLines 8 ret (readHeader s)))
  | some .instruction34 =>
      if s.rx.byteAt 8 = 1 then
        some (.fill (s.rx.pRecv.ptr (10 + s.rx.handleDeviation))
          (voiceLines 10 ret (setLength 80 s)))
      else none
  | _ => none

/-- The `fill_audio` with which message 122 goes on with a frame. -/
def resumeFill (uDataSize : Nat) (chunk : List UInt8) (s : App) : Option PlayOp :=
  if 1 ≤ chunk.length ∧ s.rx.currentDataLengthSave ≠ 0 ∧
      SocketInstruction.ofCode s.rx.analysisHandle = some .instruction10 then
    some (.fill ((received uDataSize chunk s.rx.pRecv).ptr 0) (resumeLines chunk.length s))
  else none

/-- What a step does with the ring of received voice. -/
def playOp (x : Sys) (a : Act) : Option PlayOp :=
  match x.atIsCmd, a with
  | some ret, .isCmd => frameFill ret x.app
  | none, .recv chunk =>
      match x.app.socketMsgs with
      | .msg122 n :: _ => resumeFill n chunk x.app
      | _ => none
  | none, .audio _ =>
      match x.app.audioMsgs with
      | .hmiNews :: _ => some .hmiNews
      | _ => none
  | none, .audioPlayCb => some .playCb
  | _, _ => none

/-- What the operation makes of the ring. -/
def PlayOp.after (s : App) : PlayOp → Play
  | fill pdat lines => fillAudio pdat lines s.play
  | playCb => (audioPlayCb s).2.play
  | hmiNews => (IntercomSalve.hmiNews s).play

/-- The ring after a step that does `o`. -/
def playAfter (o : Option PlayOp) (s : App) : Play := o.elim s.play (PlayOp.after s)

@[simp] theorem playAfter_none (s : App) : playAfter none s = s.play := rfl

@[simp] theorem playAfter_some (o : PlayOp) (s : App) : playAfter (some o) s = o.after s := rfl

/-- It depends on nothing but the ring. -/
theorem playAfter_congr {s t : App} (h : t.play = s.play) (o : Option PlayOp) :
    playAfter o t = playAfter o s := by
  cases o with
  | none => exact h
  | some o =>
      cases o with
      | fill pdat lines => exact congrArg (fillAudio pdat lines) h
      | playCb =>
          show (audioPlayCb t).2.play = (audioPlayCb s).2.play
          unfold audioPlayCb
          rw [h]
          split
          · exact h
          · rfl
      | hmiNews =>
          show (IntercomSalve.hmiNews t).play = (IntercomSalve.hmiNews s).play
          unfold IntercomSalve.hmiNews
          rw [h]
          rfl

theorem broadcastVoice_play (ret : Nat) (s : App) :
    (broadcastVoice ret s).state.play =
      fillAudio (s.rx.pRecv.ptr (10 + s.rx.handleDeviation)) (voiceLines 10 ret (setLength 80 s))
        s.play := by
  have hv := voiceFrame_play 10 ret (setLength 80 s)
  unfold broadcastVoice
  split
  · next u hu =>
      rw [hu] at hv
      exact hv
  · next u hu =>
      rw [hu] at hv
      exact hv

theorem broadcastFrame_play (ret : Nat) (s : App) :
    (broadcastFrame ret s).state.play =
      if s.rx.byteAt 8 = 1 then
        fillAudio (s.rx.pRecv.ptr (10 + s.rx.handleDeviation))
          (voiceLines 10 ret (setLength 80 s)) s.play
      else s.play := by
  have hplay : (broadcastStart (asVoice s)).play = s.play := broadcastStart_play _
  have hrx : (broadcastStart (asVoice s)).rx = (asVoice s).rx := broadcastStart_rx _
  unfold broadcastFrame
  split
  · have hlines : voiceLines 10 ret (setLength 80 (broadcastStart (asVoice s))) =
        voiceLines 10 ret (setLength 80 s) := by
      refine voiceLines_congr ?_ rfl
      show (broadcastStart (asVoice s)).rx.handleDeviation = _
      rw [hrx]
      rfl
    rw [broadcastVoice_play, hlines, hplay, hrx]
    rfl
  · exact broadcastStop_play (asVoice s)

/-- One pass of the loop. -/
theorem isCmd_play (ret : Nat) (s : App) :
    (isCmd ret s).state.play = playAfter (frameFill ret s) s := by
  unfold frameFill
  rcases isCmd_frameAt ret s with ⟨c, hc, h⟩ | ⟨hc, r, l, h⟩
  · rw [h, hc]
    cases c with
    | instruction4 => exact dial_play _
    | instruction5 => exact called_play _
    | instruction10 => exact voiceFrame_play 8 ret (opened .instruction10 s)
    | instruction34 =>
        show (broadcastFrame ret (opened .instruction34 s)).state.play = _
        rw [broadcastFrame_play]
        dsimp only
        by_cases h8 : s.rx.byteAt 8 = 1
        · rw [if_pos h8, if_pos (show (opened .instruction34 s).rx.byteAt 8 = 1 from h8)]
          rfl
        · rw [if_neg h8, if_neg (show ¬ (opened .instruction34 s).rx.byteAt 8 = 1 from h8)]
          rfl
    | _ => rfl
  · rw [h, hc]
    rfl

/-- Message 122 up to the label. -/
theorem message122_play (n : Nat) (chunk : List UInt8) (s : App) :
    (message122 n chunk s).state.play = playAfter (resumeFill n chunk s) s := by
  unfold message122 resumeFill
  by_cases hc : chunk.length < 1
  · rw [if_pos hc, if_neg (by omega)]
    rfl
  · rw [if_neg hc]
    by_cases hsave : s.rx.currentDataLengthSave = 0
    · rw [if_neg (not_not.mpr hsave), if_neg fun h => h.2.1 hsave]
      rfl
    · rw [if_pos hsave]
      by_cases hcode : SocketInstruction.ofCode s.rx.analysisHandle = some .instruction10
      · rw [if_pos ⟨by omega, hsave, hcode⟩]
        have hcode' : SocketInstruction.ofCode (rewind (socketRecv n chunk s)).rx.analysisHandle =
            some .instruction10 := hcode
        unfold resumeVoice
        rw [if_pos hcode']
        have hlines : resumeLines chunk.length (rewind (socketRecv n chunk s)) =
            resumeLines chunk.length s := rfl
        split
        · next hle =>
            rw [playAfter_some, ← hlines, resumeLines, if_pos hle]
            rfl
        · next hle =>
            rw [playAfter_some, ← hlines, resumeLines, if_neg hle]
            rfl
      · have hcode' : ¬ SocketInstruction.ofCode
            (rewind (socketRecv n chunk s)).rx.analysisHandle = some .instruction10 := hcode
        rw [if_neg fun h => hcode h.2.2]
        unfold resumeVoice
        rw [if_neg hcode']
        rfl

theorem buttonFrame_play (s : App) : (buttonFrame s).play = s.play := by
  unfold buttonFrame buttonBusy
  dsimp only
  repeat' split
  all_goals rfl

theorem uart3Frame_play (s : App) : (uart3Frame s).play = s.play := by
  unfold uart3Frame
  split
  · exact buttonFrame_play s
  · repeat' split
    all_goals rfl

theorem uart3Read_play (io : Platform) (s : App) : (uart3Read io s).play = s.play := by
  unfold uart3Read
  split
  · rfl
  · split
    · exact uart3Frame_play (readTemp io s)
    · rfl

/-- What the audio side shares with the socket thread: the call, the ring of received voice and
the messages. -/
def App.shared (s : App) : Call × Play × List SocketMsg := (s.call, s.play, s.socketMsgs)

theorem audioStopV2_shared (s : App) : (audioStopV2 s).shared = s.shared := by
  unfold audioStopV2
  split <;> rfl

/-- The prompts at the end of a call. -/
theorem hmiPrompt_shared (f : Mp3File) (s : App) : (hmiPrompt f s).shared = s.shared :=
  audioStopV2_shared { s with timerStart := false }

/-- The prompt thread leaves all of it alone. -/
theorem audioPlayMP3Thread_shared (io : Platform) (m : Mp3Msg) (s : App) :
    (audioPlayMP3Thread io m s).shared = s.shared := by
  have hfile : ∀ f (s : App), (audioPlayMP3 io f s).shared = s.shared := by
    intro f s
    obtain ⟨h, os, hplays, -⟩ := audioPlayMP3_onlyPlays io f s
    rw [hplays]
    rfl
  have haudio : ∀ f, (mp3Audio io f s).shared = s.shared := by
    intro f
    unfold mp3Audio
    split
    · rfl
    · exact hfile f _
  cases m with
  | audio f => exact haudio f
  | stop f => exact haudio f
  | stopAudioStart =>
      unfold audioPlayMP3Thread
      dsimp only
      split <;> rfl

theorem play_of_shared {s t : App} (h : t.shared = s.shared) : t.play = s.play :=
  congrArg (fun p => p.2.1) h

/-- The audio thread empties the ring when a call starts, and touches it at no other message. -/
theorem audioDuplexthread_play (io : Platform) (m : AudioMsg) (s : App) :
    (audioDuplexthread io m s).play = if m = .hmiNews then (hmiNews s).play else s.play := by
  cases m with
  | uart3Read => exact uart3Read_play io s
  | hmiNews2 => exact play_of_shared (hmiPrompt_shared .endConv s)
  | hmiNews3 => exact play_of_shared (hmiPrompt_shared .tim60End s)
  | hmiNews4 => exact play_of_shared (hmiPrompt_shared .busy s)
  | _ => rfl

theorem audioRecordCb_play (buff : Mem) (len : Nat) (s : App) :
    (audioRecordCb buff len s).play = s.play := by
  unfold audioRecordCb
  split
  · rfl
  · split
    · exact play_of_shared (audioStopV2_shared s)
    · rfl

/-- **A step does with the ring what `playOp` says.** -/
theorem Steps.play_eq {x y : Sys} {a : Act} (h : Steps x a y) :
    y.app.play = playAfter (playOp x a) x.app := by
  cases h with
  | @isCmd s ret =>
      rw [Sys.ofJump_app]
      exact isCmd_play ret s
  | @recv s n ms chunk hms _ =>
      have hop : playOp ⟨s, none⟩ (.recv chunk) = resumeFill n chunk s := by
        simp only [playOp, hms]
      rw [Sys.ofJump_app, hop]
      exact (message122_play n chunk { s with socketMsgs := ms }).trans
        (playAfter_congr (s := s) (t := { s with socketMsgs := ms }) rfl (resumeFill n chunk s))
  | @socket s m ms io hms hm => exact socketTestThread_play io hm { s with socketMsgs := ms }
  | @audio s m ms io hms =>
      have hop : playOp ⟨s, none⟩ (.audio io) = if m = .hmiNews then some .hmiNews else none := by
        cases m <;> simp [playOp, hms]
      rw [hop]
      refine (audioDuplexthread_play io m { s with audioMsgs := ms }).trans ?_
      split <;> rfl
  | @mp3 s m ms io hms =>
      exact play_of_shared (audioPlayMP3Thread_shared io m { s with mp3Msgs := ms })
  | @timerHeartbeat s io => exact (timerHeartbeat_doing io s).play_eq
  | @socketEvent s e => cases e <;> rfl
  | @audioRecordCb s buff len => exact audioRecordCb_play buff len s
  | timerHeartbeat2 _ | uart2Event | uart3Event | audioPlayCb => rfl

/-! ## Where `fill_audio` writes -/

/-- The places of the ring that `fill_audio` writes. -/
def fillWrites (num lines i : Nat) : Prop :=
  2 ≤ lines ∧
    if playDataMax < num + lines then
      num ≤ i ∧ i < num + sub32 playDataMax num ∨ i < sub32 lines (sub32 playDataMax num)
    else num ≤ i ∧ i < num + lines

/-- It writes no others. -/
theorem fillAudio_of_not_writes {pdat : Mem} {lines i : Nat} {p : Play}
    (h : ¬ fillWrites p.playDataNum lines i) : (fillAudio pdat lines p).playData i = p.playData i := by
  unfold fillAudio
  by_cases h1 : lines ≤ 1
  · rw [if_pos h1]
  · rw [if_neg h1]
    unfold fillWrites at h
    dsimp only
    split
    · next hw =>
        rw [if_pos hw] at h
        have hfirst : ¬ (p.playDataNum ≤ i ∧ i < p.playDataNum + sub32 playDataMax p.playDataNum) :=
          fun hi => h ⟨by omega, Or.inl hi⟩
        have hrest : ¬ i < sub32 lines (sub32 playDataMax p.playDataNum) :=
          fun hi => h ⟨by omega, Or.inr hi⟩
        simp only [Mem.memcpy]
        rw [if_neg (by omega), if_neg hfirst]
    · next hw =>
        rw [if_neg hw] at h
        simp only [Mem.memcpy]
        rw [if_neg fun hi => h ⟨by omega, hi⟩]

/-- `fill_audio` writes inside its ring, and leaves the position in it. -/
structure FillInside (p : Play) (pdat : Mem) (lines : Nat) : Prop where
  writes : ∀ i, fillWrites p.playDataNum lines i → i < playDataMax
  num : (fillAudio pdat lines p).playDataNum < playDataMax

theorem fillAudio_num (pdat : Mem) (lines : Nat) (p : Play) :
    (fillAudio pdat lines p).playDataNum =
      if lines ≤ 1 then p.playDataNum else Mem.ringWrap playDataMax (p.playDataNum + lines) := by
  unfold fillAudio
  split <;> rfl

/-- **The position is wrapped once**, so both together must stay below twice the ring. -/
theorem fillInside_iff {p : Play} {pdat : Mem} {lines : Nat} (hp : p.playDataNum < playDataMax) :
    FillInside p pdat lines ↔ lines < 2 ∨ p.playDataNum + lines < playDataMax + playDataMax := by
  constructor
  · intro h
    have hnum := h.num
    rw [fillAudio_num] at hnum
    split at hnum
    · exact Or.inl (by omega)
    · refine Or.inr ?_
      unfold Mem.ringWrap at hnum
      split at hnum <;> omega
  · intro h
    refine ⟨?_, ?_⟩
    · rintro i ⟨h2, hi⟩
      have hroom : sub32 playDataMax p.playDataNum = playDataMax - p.playDataNum :=
        sub32_of_le (by omega)
      split at hi
      · rw [hroom, sub32_of_le (by omega)] at hi
        omega
      · omega
    · rw [fillAudio_num]
      split
      · exact hp
      · exact Mem.ringWrap_lt (by omega)

/-! ## Every call the receive loop makes -/

/-- Each `fill_audio` of a step stays inside the ring. -/
def FillsInside (e : Run.Step Act Sys) : Prop :=
  ∀ pdat lines, playOp e.pre e.act = some (.fill pdat lines) →
    FillInside e.pre.app.play pdat lines

/-- How many bytes an operation gives to `fill_audio`; 0 where it does not call it. -/
def fillLines : Option PlayOp → Nat
  | some (.fill _ lines) => lines
  | _ => 0

/-- Position and length of the `fill_audio` of a step stay below twice the ring. -/
def WrapsOnce (e : Run.Step Act Sys) : Prop :=
  fillLines (playOp e.pre e.act) < 2 ∨
    e.pre.app.play.playDataNum + fillLines (playOp e.pre e.act) < playDataMax + playDataMax

instance (e : Run.Step Act Sys) : Decidable (WrapsOnce e) := by unfold WrapsOnce; infer_instance

/-- Nothing but `fill_audio` moves the write position, but for the reset. -/
theorem FillsInside.num {x y : Sys} {a : Act} (h : Steps x a y)
    (hx : x.app.play.playDataNum < playDataMax) (hin : FillsInside ⟨x, a, y⟩) :
    y.app.play.playDataNum < playDataMax := by
  rw [h.play_eq]
  cases hop : playOp x a with
  | none => exact hx
  | some o =>
      cases o with
      | fill pdat lines => exact (hin pdat lines hop).num
      | playCb =>
          show (audioPlayCb x.app).2.play.playDataNum < _
          unfold audioPlayCb
          split <;> exact hx
      | hmiNews => exact (by decide : (0 : Nat) < playDataMax)

theorem fillsInside_iff_wrapsOnce {e : Run.Step Act Sys}
    (hnum : e.pre.app.play.playDataNum < playDataMax) : FillsInside e ↔ WrapsOnce e := by
  unfold FillsInside WrapsOnce
  constructor
  · intro h
    cases hop : playOp e.pre e.act with
    | none => exact Or.inl (by decide)
    | some o =>
        cases o with
        | fill pdat lines => exact (fillInside_iff hnum).mp (h pdat lines hop)
        | playCb => exact Or.inl (by decide)
        | hmiNews => exact Or.inl (by decide)
  · intro h pdat lines hop
    rw [hop] at h
    exact (fillInside_iff hnum).mpr h

/-- **`fill_audio` stays inside its ring** in a run exactly if it is always called with a length
that wraps at most once. -/
theorem fillsInside_iff {l : List (Run.Step Act Sys)} {y : Sys}
    (hr : Run.Runs exec Sys.init l y) : (∀ e ∈ l, FillsInside e) ↔ ∀ e ∈ l, WrapsOnce e :=
  hr.forall_iff (I := fun x => x.app.play.playDataNum < playDataMax) (by decide)
    fun _ _ _ _ hx he =>
      ⟨fillsInside_iff_wrapsOnce hx, fun hin => hin.num (exec_eq_some.mp he) hx⟩

/-- The frames that are not cut in their first ten bytes wrap at most once, in a chunk that is
not longer than the ring. -/
theorem fillLines_of_inside {ret : Nat} {s : App} (hret : ret ≤ playDataMax)
    (hin : 10 + s.rx.handleDeviation ≤ ret) : fillLines (frameFill ret s) ≤ playDataMax := by
  have hret' : ret < 65536 := by
    unfold playDataMax at hret
    omega
  unfold frameFill
  split
  · have hlines := voiceLines_inside (n := 8) (s := readHeader s) (lenAt_le s) (by decide)
      (show s.rx.handleDeviation < ret by omega) hret'
      (show 8 + s.rx.handleDeviation ≤ ret by omega)
    show voiceLines 8 ret (readHeader s) ≤ playDataMax
    omega
  · split
    · have hlines := voiceLines_inside (n := 10) (s := setLength 80 s)
        (show 80 ≤ 65535 by decide) (by decide) (show s.rx.handleDeviation < ret by omega) hret' hin
      show voiceLines 10 ret (setLength 80 s) ≤ playDataMax
      omega
    · exact Nat.zero_le _
  · exact Nat.zero_le _

/-- A voice frame of four bytes. -/
theorem voiceFrame_fillsInside :
    ∃ l y, Run.Runs exec Sys.init l y ∧ (∃ e ∈ l, fillLines (playOp e.pre e.act) = 4) ∧
      ∀ e ∈ l, FillsInside e := by
  obtain ⟨l, y, hr, hq⟩ := Runs.of_acts_test
    (l := [.socket Platform.silent, .socketEvent (.readInd 12),
      .recv [0xAA, 0xFA, 0x00, 0x00, 0x01, 0x0A, 0x00, 0x04, 0x11, 0x22, 0x33, 0x44], .isCmd,
      .isCmd])
    (q := fun l _ => (l.any fun e => decide (fillLines (playOp e.pre e.act) = 4)) &&
      l.all fun e => decide (WrapsOnce e))
    (by decide +kernel)
  rw [Bool.and_eq_true, List.any_eq_true, List.all_eq_true] at hq
  obtain ⟨⟨e, he, hlines⟩, hwrap⟩ := hq
  exact ⟨l, y, hr, ⟨e, he, of_decide_eq_true hlines⟩,
    (fillsInside_iff hr).mpr fun e he => of_decide_eq_true (hwrap e he)⟩

/-- A chunk that ends behind the first byte of a length, received twice. -/
theorem cutLength_not_fillsInside :
    ∃ l y, Run.Runs exec Sys.init l y ∧ ¬ ∀ e ∈ l, FillsInside e := by
  obtain ⟨l, y, hr, hq⟩ := Runs.of_acts_test
    (l := [.socket Platform.silent,
      .socketEvent (.readInd 7), .recv [0xAA, 0xFA, 0x00, 0x00, 0x01, 0x0A, 0xFF], .isCmd, .isCmd,
      .socketEvent (.readInd 7), .recv [0xAA, 0xFA, 0x00, 0x00, 0x01, 0x0A, 0xFF], .isCmd])
    (q := fun l _ => l.any fun e => decide (e.pre.app.play.playDataNum < playDataMax ∧
      ¬ e.post.app.play.playDataNum < playDataMax))
    (by decide +kernel)
  obtain ⟨e, he, hnum⟩ := List.any_eq_true.mp hq
  obtain ⟨hpre, hpost⟩ := of_decide_eq_true hnum
  refine ⟨l, y, hr, fun h => hpost ?_⟩
  exact (h e he).num (exec_eq_some.mp (hr.steps e he).2) hpre

end IntercomSalve
