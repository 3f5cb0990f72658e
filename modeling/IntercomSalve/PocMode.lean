/-
# `PocMode` — `audio_en_v2` and the voice device

`audio_en_v2` stands for what the device was told last: `KING_AudioDevStartPocMode` or
`KING_AudioDevStopPocMode`.  Every place that talks to the device keeps the flag, but
one: the end of a broadcast by a frame stops the device and leaves the flag.  So the
flag tells the truth all through a run exactly if no broadcast is ended by a frame
while it is set (`pocMode_iff`); and while it does, a prompt that finds the device
stopped is played.
-/
import IntercomSalve.HangUp
import IntercomSalve.OneSession

namespace IntercomSalve

/-- Whether the device is on after a platform call, if `on` says it before. -/
def Out.device (on : Bool) : Out → Bool
  | .audioDevStartPocMode => true
  | .audioDevStopPocMode => false
  | _ => on

/-- The last of the device calls was the start. -/
def deviceOn (os : List Out) : Bool := os.foldl Out.device false

theorem deviceOn_snoc (os : List Out) (o : Out) :
    deviceOn (os ++ [o]) = o.device (deviceOn os) := by
  simp [deviceOn]

theorem deviceOn_append {os ps : List Out} (h : ∀ o ∈ ps, o.isPlain = true) :
    deviceOn (os ++ ps) = deviceOn os := by
  induction ps generalizing os with
  | nil => rw [List.append_nil]
  | cons o ps ih =>
      rw [List.append_cons, ih fun p hp => h p (List.mem_cons_of_mem _ hp), deviceOn_snoc]
      have ho := h o List.mem_cons_self
      cases o <;> first | rfl | exact absurd ho (by decide)

theorem deviceOn_off (s : App) :
    deviceOn ((s.log .audioDevStopPocMode).log .audioStop).out = false := by
  show deviceOn (s.out ++ [.audioDevStopPocMode] ++ [.audioStop]) = false
  rw [deviceOn_snoc, deviceOn_snoc]
  rfl

/-- The flag tells the truth. -/
def FlagTrue (s : App) : Prop := s.audioEnV2 = 1 ↔ deviceOn s.out = true

instance (s : App) : Decidable (FlagTrue s) := by unfold FlagTrue; infer_instance

/-- Neither the flag nor the device changes. -/
structure SameDevice (s t : App) : Prop where
  flag : t.audioEnV2 = s.audioEnV2
  device : deviceOn t.out = deviceOn s.out

theorem SameDevice.refl (s : App) : SameDevice s s := ⟨rfl, rfl⟩

theorem SameDevice.trans {s t u : App} (h : SameDevice s t) (h' : SameDevice t u) :
    SameDevice s u :=
  ⟨h'.flag.trans h.flag, h'.device.trans h.device⟩

theorem SameDevice.flagTrue {s t : App} (h : SameDevice s t) (hs : FlagTrue s) : FlagTrue t := by
  unfold FlagTrue
  rw [h.flag, h.device]
  exact hs

theorem log_sameDevice {o : Out} (h : ∀ on, o.device on = on) (s : App) :
    SameDevice s (s.log o) :=
  ⟨rfl, (deviceOn_snoc s.out o).trans (h _)⟩

/-- The flag is cleared together with the device. -/
theorem flagTrue_of_off {s : App} (hf : s.audioEnV2 = 0) (hd : deviceOn s.out = false) :
    FlagTrue s := by
  unfold FlagTrue
  rw [hf, hd]
  decide

/-! ## The socket thread and the timer -/

theorem Does.flagTrue {s t : App} (h : Does s t) (hs : FlagTrue s) : FlagTrue t := by
  cases h with
  | out os hos => exact SameDevice.flagTrue (s := s) ⟨rfl, deviceOn_append hos⟩ hs
  | audioOff => exact flagTrue_of_off rfl (deviceOn_off s)
  | uart3Write cmd a b => exact SameDevice.flagTrue (s := s) ⟨rfl, deviceOn_snoc _ _⟩ hs
  | newDay m => exact SameDevice.flagTrue (s := s) ⟨rfl, deviceOn_snoc _ _⟩ hs
  | _ => exact hs

theorem Doing.flagTrue {s t : App} (h : Doing s t) : FlagTrue s → FlagTrue t :=
  h.keeps (R := fun s t => FlagTrue s → FlagTrue t) (fun _ hs => hs)
    (fun _ _ _ h1 h2 hs => h2 (h1 hs)) fun _ _ => Does.flagTrue

/-! ## Message 122 -/

theorem sendUart3Write_sameDevice (cmd a b : UInt8) (s : App) :
    SameDevice s (sendUart3Write cmd a b s) :=
  ⟨rfl, deviceOn_snoc _ _⟩

theorem endByFrame_sameDevice (s : App) : SameDevice s (endByFrame s) :=
  ⟨rfl, deviceOn_snoc _ _⟩

theorem dial_sameDevice (s : App) : SameDevice s (dialReqReqCallReturnHander s) := by
  have hRefused : SameDevice s (dialRefused s) := by
    unfold dialRefused
    split
    · exact ⟨rfl, rfl⟩
    · exact endByFrame_sameDevice s
  unfold dialReqReqCallReturnHander
  split
  · unfold dialBusy
    split
    · split
      · exact ⟨rfl, rfl⟩
      · exact ⟨rfl, deviceOn_snoc _ _⟩
    · exact .refl s
  · exact ⟨rfl, rfl⟩
  · exact ⟨rfl, rfl⟩
  · exact ⟨rfl, rfl⟩
  · exact hRefused
  · exact hRefused
  · exact .refl s

theorem answerCall_sameDevice (road : UInt8) (imei : Mem) (s : App) :
    SameDevice s (answerCall road imei s) := by
  have hsend : ∀ t : App, SameDevice t
      (sendCallFrame .instruction6 road CallReturn.return2.code imei t) :=
    fun t => ⟨rfl, deviceOn_snoc _ _⟩
  have hpost : ∀ t : App, SameDevice t (t.postMp3 .stopAudioStart) := fun t => ⟨rfl, rfl⟩
  have hcall : SameDevice s { s with call := s.call.answered road imei } := ⟨rfl, rfl⟩
  exact ((hcall.trans (hsend _)).trans (hpost _)).trans (sendUart3Write_sameDevice _ _ _ _)

theorem called_sameDevice (s : App) : SameDevice s (calledReqReqCallReturnHander s) := by
  have hHangUp : SameDevice s (calledHangUp s) := by
    unfold calledHangUp
    split
    · exact ⟨rfl, rfl⟩
    · exact endByFrame_sameDevice s
  unfold calledReqReqCallReturnHander
  split
  · exact .refl s
  · split
    · unfold calledAnswer
      split
      · exact ⟨rfl, rfl⟩
      · have hclear : SameDevice s (clearVars s) := ⟨rfl, rfl⟩
        exact hclear.trans (answerCall_sameDevice _ _ _)
    · exact hHangUp
    · exact hHangUp
    · exact .refl s
    · exact .refl s

theorem voiceFrame_sameDevice (n ret : Nat) (s : App) :
    SameDevice s (voiceFrame n ret s).state := by
  unfold voiceFrame
  split <;> exact ⟨rfl, rfl⟩

theorem broadcastStart_sameDevice (s : App) : SameDevice s (broadcastStart s) := by
  unfold broadcastStart
  split
  · exact ⟨rfl, deviceOn_snoc _ _⟩
  · exact .refl s

theorem broadcastVoice_sameDevice (ret : Nat) (s : App) :
    SameDevice s (broadcastVoice ret s).state := by
  have hlen : SameDevice s (setLength 80 s) := ⟨rfl, rfl⟩
  have hv := hlen.trans (voiceFrame_sameDevice 10 ret (setLength 80 s))
  unfold broadcastVoice
  split
  · next u hu =>
      rw [hu] at hv
      exact hv
  · next u hu =>
      rw [hu] at hv
      exact ⟨hv.flag, hv.device⟩

/-- The end of a broadcast by a frame stops the device, and leaves the flag. -/
theorem broadcastStop_device {s : App} (h : s.call.isMailListALL = 1) :
    (broadcastStop s).audioEnV2 = s.audioEnV2 ∧ deviceOn (broadcastStop s).out = false := by
  have hstop : broadcastStop s = App.log .audioStop (App.log .audioDevStopPocMode
      (sendUart3Write 0x02 0 0 { s with call.isMailListALL := 0, call.mailListALLTim := 0 })) :=
    if_pos h
  rw [hstop]
  exact ⟨rfl, deviceOn_off _⟩

/-- What it leaves is the truth exactly if the flag was not set. -/
theorem broadcastStop_flagTrue_iff {s : App} (h : s.call.isMailListALL = 1) :
    FlagTrue (broadcastStop s) ↔ s.audioEnV2 ≠ 1 := by
  obtain ⟨hflag, hdevice⟩ := broadcastStop_device h
  unfold FlagTrue
  rw [hflag, hdevice]
  simp

/-- The next pass reads a frame that ends a broadcast. -/
def endsBroadcast (a : Act) (x : Sys) : Prop :=
  a = .isCmd ∧ frameAt x = some .instruction34 ∧ x.app.rx.byteAt 8 ≠ 1 ∧
    x.app.call.isMailListALL = 1

/-- The case of a frame that ends no broadcast. -/
theorem caseOf_sameDevice {ret : Nat} {c : SocketInstruction} {s : App}
    (h : ¬ (c = .instruction34 ∧ s.rx.byteAt 8 ≠ 1 ∧ s.call.isMailListALL = 1)) :
    SameDevice s (caseOf ret c s).state := by
  cases c with
  | instruction4 => exact ⟨(dial_sameDevice s).flag, (dial_sameDevice s).device⟩
  | instruction5 => exact ⟨(called_sameDevice s).flag, (called_sameDevice s).device⟩
  | instruction10 => exact voiceFrame_sameDevice 8 ret s
  | instruction2 => exact ⟨rfl, deviceOn_snoc _ _⟩
  | instruction29 => exact ⟨rfl, deviceOn_snoc _ _⟩
  | instruction32 => exact ⟨rfl, deviceOn_snoc _ _⟩
  | instruction34 =>
      have hvoice : SameDevice s (asVoice s) := ⟨rfl, rfl⟩
      unfold caseOf
      dsimp only
      unfold broadcastFrame
      split
      · exact (hvoice.trans (broadcastStart_sameDevice _)).trans (broadcastVoice_sameDevice ret _)
      · next h8 =>
          have hall : ¬ (asVoice s).call.isMailListALL = 1 := fun hall => h ⟨rfl, h8, hall⟩
          have hstop : broadcastStop (asVoice s) = asVoice s := if_neg hall
          rw [hstop]
          exact ⟨rfl, rfl⟩
  | _ => exact ⟨rfl, rfl⟩

/-- **A pass of the loop** keeps the flag true, unless it ends a broadcast. -/
theorem isCmd_flagTrue {ret : Nat} {s : App} (h : ¬ endsBroadcast .isCmd ⟨s, some ret⟩)
    (hs : FlagTrue s) : FlagTrue (isCmd ret s).state := by
  rcases isCmd_frameAt ret s with ⟨c, hc, hcase⟩ | ⟨-, r, l, hmove⟩
  · rw [hcase]
    have hopen : SameDevice s (opened c s) := ⟨rfl, deviceOn_snoc _ _⟩
    refine (hopen.trans (caseOf_sameDevice ?_)).flagTrue hs
    rintro ⟨rfl, h8, hall⟩
    exact h ⟨rfl, hc, h8, hall⟩
  · rw [hmove]
    exact hs

/-- A pass that ends a broadcast keeps it true exactly if it is not set. -/
theorem isCmd_flagTrue_iff {ret : Nat} {s : App} (h : endsBroadcast .isCmd ⟨s, some ret⟩) :
    FlagTrue (isCmd ret s).state ↔ s.audioEnV2 ≠ 1 := by
  obtain ⟨-, hc, h8, hall⟩ := h
  rcases isCmd_frameAt ret s with ⟨c, hc', hcase⟩ | ⟨hnone, -⟩
  · obtain rfl := Option.some.inj (hc.symm.trans hc')
    have hstop : caseOf ret .instruction34 (opened .instruction34 s) =
        .again (advance 8 (broadcastStop (asVoice (opened .instruction34 s)))) := if_neg h8
    rw [hcase, hstop]
    exact broadcastStop_flagTrue_iff (s := asVoice (opened .instruction34 s)) hall
  · rw [hnone] at hc
    exact nomatch hc

theorem message122_sameDevice (n : Nat) (chunk : List UInt8) (s : App) :
    SameDevice s (message122 n chunk s).state := by
  unfold message122
  split
  · exact ⟨rfl, rfl⟩
  · split
    · unfold resumeVoice
      split
      · split <;> exact ⟨rfl, rfl⟩
      · exact ⟨rfl, rfl⟩
    · exact ⟨rfl, rfl⟩

/-! ## The audio side -/

theorem audioStopV2_flagTrue {s : App} (hs : FlagTrue s) : FlagTrue (audioStopV2 s) := by
  unfold audioStopV2
  split
  · exact flagTrue_of_off rfl (deviceOn_off s)
  · exact hs

theorem buttonFrame_sameDevice (s : App) : SameDevice s (buttonFrame s) := by
  unfold buttonFrame
  split
  · exact .refl s
  · split
    · exact ⟨rfl, rfl⟩
    · split
      · exact .refl s
      · unfold buttonBusy
        dsimp only
        repeat' split
        all_goals exact ⟨rfl, rfl⟩

theorem uart3Read_sameDevice (io : Platform) (s : App) : SameDevice s (uart3Read io s) := by
  have hread : SameDevice s (readTemp io s) := ⟨rfl, rfl⟩
  unfold uart3Read
  split
  · exact .refl s
  · split
    · unfold uart3Frame
      split
      · exact hread.trans (buttonFrame_sameDevice _)
      · repeat' split
        all_goals exact ⟨rfl, rfl⟩
    · exact hread

/-- `MSG_EVT_HMI_NEWS` sets the flag and starts the device. -/
theorem hmiNews_flagTrue (s : App) : FlagTrue (hmiNews s) := by
  have hflag : (hmiNews s).audioEnV2 = 1 := rfl
  have hdevice : deviceOn (hmiNews s).out = true := deviceOn_snoc _ _
  unfold FlagTrue
  rw [hflag, hdevice]
  exact ⟨fun _ => rfl, fun _ => rfl⟩

theorem audioDuplexthread_flagTrue (io : Platform) (m : AudioMsg) {s : App} (hs : FlagTrue s) :
    FlagTrue (audioDuplexthread io m s) := by
  have hprompt : ∀ f, FlagTrue (hmiPrompt f s) := fun f =>
    audioStopV2_flagTrue (s := { s with timerStart := false }) hs
  cases m with
  | uart2Read => exact hs
  | uart3Read => exact (uart3Read_sameDevice io s).flagTrue hs
  | hmiNews => exact hmiNews_flagTrue s
  | uart3Send pData => exact (log_sameDevice (fun _ => rfl) s).flagTrue hs
  | hmiNews2 => exact hprompt _
  | time5s => exact hs
  | hmiNews3 => exact hprompt _
  | hmiNews4 => exact hprompt _

theorem OnlyPlays.sameDevice {s t : App} (h : OnlyPlays s t) : SameDevice s t := by
  obtain ⟨f, os, rfl, hos⟩ := h
  refine ⟨rfl, deviceOn_append fun o ho => ?_⟩
  have hplayer := hos o ho
  cases o <;> first | rfl | exact absurd hplayer Bool.false_ne_true

theorem audioPlayMP3Thread_flagTrue (io : Platform) (m : Mp3Msg) {s : App} (hs : FlagTrue s) :
    FlagTrue (audioPlayMP3Thread io m s) := by
  have hstop := (log_sameDevice (o := .audioStop) (fun _ => rfl) s).trans
    (log_sameDevice (o := .fsCloseHandle s.mp3GFileHandle) (fun _ => rfl) _)
  have haudio : ∀ f, FlagTrue (mp3Audio io f s) := by
    intro f
    unfold mp3Audio
    split
    · exact flagTrue_of_off rfl (deviceOn_off s)
    · exact (hstop.trans (audioPlayMP3_onlyPlays io f _).sameDevice).flagTrue hs
  cases m with
  | audio f => exact haudio f
  | stop f => exact haudio f
  | stopAudioStart =>
      unfold audioPlayMP3Thread
      dsimp only
      split
      · exact SameDevice.flagTrue (t := App.postAudio _ _) ⟨hstop.flag, hstop.device⟩ hs
      · exact hs

theorem audioRecordCb_flagTrue (buff : Mem) (len : Nat) {s : App} (hs : FlagTrue s) :
    FlagTrue (audioRecordCb buff len s) := by
  unfold audioRecordCb
  split
  · exact hs
  · split
    · exact audioStopV2_flagTrue hs
    · exact hs

theorem audioPlayCb_sameDevice (s : App) : SameDevice s (audioPlayCb s).2 := by
  unfold audioPlayCb
  split <;> exact ⟨rfl, rfl⟩

/-! ## Runs -/

theorem socketTestThread_flagTrue (io : Platform) {m : SocketMsg} (hm : ∀ n, m ≠ .msg122 n)
    {s : App} (hs : FlagTrue s) : FlagTrue (socketTestThread io m s) := by
  obtain ⟨t, r, hdoing, heq⟩ := socketTestThread_eq io hm s
  rw [heq]
  exact hdoing.flagTrue hs

/-- A step keeps the flag true, unless it ends a broadcast by a frame while the flag is
set. -/
theorem Steps.flagTrue {x y : Sys} {a : Act} (h : Steps x a y) (hx : FlagTrue x.app)
    (hend : endsBroadcast a x → x.app.audioEnV2 ≠ 1) : FlagTrue y.app := by
  cases h with
  | @isCmd s ret =>
      rw [Sys.ofJump_app]
      by_cases he : endsBroadcast .isCmd ⟨s, some ret⟩
      · exact (isCmd_flagTrue_iff he).mpr (hend he)
      · exact isCmd_flagTrue he hx
  | @recv s n ms chunk hms _ =>
      rw [Sys.ofJump_app]
      exact (message122_sameDevice n chunk { s with socketMsgs := ms }).flagTrue hx
  | @socket s m ms io hms hm =>
      exact socketTestThread_flagTrue io hm (s := { s with socketMsgs := ms }) hx
  | @audio s m ms io hms =>
      exact audioDuplexthread_flagTrue io m (s := { s with audioMsgs := ms }) hx
  | @mp3 s m ms io hms =>
      exact audioPlayMP3Thread_flagTrue io m (s := { s with mp3Msgs := ms }) hx
  | @timerHeartbeat s io =>
      dsimp only
      exact (timerHeartbeat_doing io s).flagTrue hx
  | @socketEvent s e =>
      obtain ⟨l, ms, os, hos, heq⟩ := socketEventProcessCb_eq e s
      rw [heq]
      exact SameDevice.flagTrue (s := s) ⟨rfl, deviceOn_append hos⟩ hx
  | @audioRecordCb s buff len => exact audioRecordCb_flagTrue buff len hx
  | @audioPlayCb s => exact (audioPlayCb_sameDevice s).flagTrue hx
  | timerHeartbeat2 _ | uart2Event | uart3Event => exact hx

/-- A step that keeps the flag true does not end a broadcast while it is set. -/
theorem Steps.flag_of_true {x y : Sys} {a : Act} (h : Steps x a y) (hy : FlagTrue y.app)
    (hend : endsBroadcast a x) : x.app.audioEnV2 ≠ 1 := by
  cases h with
  | @isCmd s ret =>
      rw [Sys.ofJump_app] at hy
      exact (isCmd_flagTrue_iff hend).mp hy
  | _ => exact nomatch hend.1

/-- A prompt request handled while the device is off opens its file, and plays it if the
file can be opened. -/
def PromptPlays (e : Run.Step Act Sys) : Prop :=
  ∀ io f ms, e.act = .mp3 io → e.pre.app.mp3Msgs = .audio f :: ms →
    deviceOn e.pre.app.out = false →
      ∃ os ps, e.post.app.out = e.pre.app.out ++ os ++ .fsFileCreate f :: ps ∧
        ∀ h, io.fsFileCreate = some h → .audioStreamPlayExt ∈ ps

/-- No broadcast is ended by a frame while the flag is set. -/
def EndsSilent (e : Run.Step Act Sys) : Prop :=
  endsBroadcast e.act e.pre → e.pre.app.audioEnV2 ≠ 1

theorem OnlyPlays.out {s t : App} (h : OnlyPlays s t) : ∃ os, t.out = s.out ++ os := by
  obtain ⟨f, os, rfl, -⟩ := h
  exact ⟨os, rfl⟩

/-- `AudioPlayMP3` opens the file, and plays it. -/
theorem audioPlayMP3_out (io : Platform) (f : Mp3File) (s : App) :
    ∃ os ps, (audioPlayMP3 io f s).out = s.out ++ os ++ .fsFileCreate f :: ps ∧
      ∀ h, io.fsFileCreate = some h → .audioStreamPlayExt ∈ ps := by
  have hstop : ∃ os, (if io.audioBusy then audioStopPlay s else s).out = s.out ++ os := by
    split
    · exact (audioStopPlay_onlyPlays s).out
    · exact (OnlyPlays.refl s).out
  obtain ⟨os, hos⟩ := hstop
  unfold audioPlayMP3
  dsimp only
  cases hf : io.fsFileCreate with
  | none =>
      refine ⟨os, [], ?_, nofun⟩
      simp only [App.log, hos]
  | some h =>
      obtain ⟨ps, hps⟩ := (skipTag_onlyPlays io h
        ((if io.audioBusy then audioStopPlay s else s).log (.fsFileCreate f))).out
      refine ⟨os, ps ++ [.audioStreamPlayExt], ?_, fun _ _ => by simp⟩
      simp only [App.log] at hps ⊢
      rw [hps, hos]
      simp

/-- With the flag true, a prompt that finds the device off plays. -/
theorem Steps.promptPlays {x y : Sys} {a : Act} (h : Steps x a y) (hx : FlagTrue x.app)
    (hpoc : x.app.audioEnV2 = 0 ∨ x.app.audioEnV2 = 1) : PromptPlays ⟨x, a, y⟩ := by
  rintro io f ms rfl hm hoff
  have hzero : x.app.audioEnV2 = 0 := by
    rcases hpoc with h0 | h1
    · exact h0
    · exact absurd ((hx.mp h1).symm.trans hoff) (by decide)
  cases h with
  | @mp3 s m ms' io' hms =>
      obtain ⟨rfl, rfl⟩ := List.cons.inj (hms.symm.trans hm)
      have hplay : audioPlayMP3Thread io (.audio f) { s with mp3Msgs := ms' } =
          audioPlayMP3 io f ((App.log .audioStop { s with mp3Msgs := ms' }).log
            (.fsCloseHandle s.mp3GFileHandle)) := if_neg (not_not.mpr hzero)
      obtain ⟨os, ps, hout, hps⟩ := audioPlayMP3_out io f
        ((App.log .audioStop { s with mp3Msgs := ms' }).log (.fsCloseHandle s.mp3GFileHandle))
      refine ⟨[.audioStop, .fsCloseHandle s.mp3GFileHandle] ++ os, ps, ?_, hps⟩
      rw [hplay, hout]
      simp [App.log]

/-- The flag is 0 or 1. -/
theorem Reachable.audioEnV2_cases {x : Sys} (h : Reachable x) :
    x.app.audioEnV2 = 0 ∨ x.app.audioEnV2 = 1 := by
  refine h.invariant (I := fun x => x.app.audioEnV2 = 0 ∨ x.app.audioEnV2 = 1) (Or.inl rfl) ?_
  intro x a y hx hs
  have hflag : y.app.audioEnV2 = ((eventOf a x).after x.app.session).audioEnV2 :=
    congrArg Session.audioEnV2 hs.session_eq
  have hx' : x.app.session.audioEnV2 = 0 ∨ x.app.session.audioEnV2 = 1 := hx
  rw [hflag]
  cases eventOf a x with
  | talk => exact Or.inr rfl
  | promptStops => exact Or.inl rfl
  | broadcastOver | deviceOff =>
      simp only [Event.after]
      split
      · exact Or.inl rfl
      · exact hx'
  | _ => exact hx'

/-- **The POC-mode flag.**  In a run from power-on the flag says what the device was told
last, and every prompt that finds the device off plays, exactly if no broadcast is ended
by a frame while the flag is set. -/
theorem pocMode_iff {l : List (Run.Step Act Sys)} {y : Sys} (hr : Run.Runs exec Sys.init l y) :
    (∀ e ∈ l, FlagTrue e.post.app ∧ PromptPlays e) ↔ ∀ e ∈ l, EndsSilent e := by
  refine hr.forall_iff (I := fun x => FlagTrue x.app) (by decide)
    fun x a y hreach hx hexec => ⟨?_, fun h => h.1⟩
  have hs := exec_eq_some.mp hexec
  constructor
  · intro h
    exact hs.flag_of_true h.1
  · intro hend
    exact ⟨hs.flagTrue hx hend, hs.promptPlays hx (Reachable.audioEnV2_cases hreach)⟩

/-- A platform on which files can be opened. -/
def Platform.withFiles : Platform := { Platform.silent with fsFileCreate := some 1 }

/-- A call comes in and is hung up before the voice device starts: the prompt plays. -/
theorem hungUpCall_pocMode :
    ∃ l y, Run.Runs exec Sys.init l y ∧ .audioStreamPlayExt ∈ y.app.out ∧
      ∀ e ∈ l, FlagTrue e.post.app ∧ PromptPlays e := by
  obtain ⟨l, y, hr, hplay, hnone⟩ := Runs.of_acts_all (l := [.socketEvent (.readInd 50),
    .socket Platform.silent, .recv (peerFrame 0x31 0x37 ++ peerFrame 0x32 0x37)] ++
      List.replicate 20 .isCmd ++
      [.audio Platform.silent, .audio Platform.silent, .audio Platform.silent,
        .mp3 Platform.withFiles, .mp3 Platform.withFiles])
    (p := fun e => e.pre.app.call.isMailListALL == 0)
    (q := fun y => y.app.out.contains .audioStreamPlayExt) (by rfl)
  refine ⟨l, y, hr, by simpa using hplay, (pocMode_iff hr).mpr ?_⟩
  intro e he hend
  exact absurd (hend.2.2.2.symm.trans (by simpa using hnone e he)) (by decide)

/-- A broadcast starts, the voice device starts, and a frame ends the broadcast: the device
is off, and the flag is set. -/
theorem endedBroadcast_not_pocMode :
    ∃ l y, Run.Runs exec Sys.init l y ∧ ¬ ∀ e ∈ l, FlagTrue e.post.app ∧ PromptPlays e := by
  have hr := Runs.of_acts (l := [.socketEvent (.readInd 90), .socket Platform.silent,
    .recv broadcastVoiceFrame, .isCmd, .isCmd, .mp3 Platform.silent, .audio Platform.silent,
    .audio Platform.silent, .audio Platform.silent, .socketEvent (.readInd 10),
    .recv [0xAA, 0xFA, 0x00, 0x00, 0x01, 0x25, 0x00, 0x02, 0x00, 0x01], .isCmd]) rfl
  refine ⟨_, _, hr, fun h => ?_⟩
  exact absurd (h _ (List.mem_of_getElem? (i := 11) rfl)).1 (by decide)

end IntercomSalve
