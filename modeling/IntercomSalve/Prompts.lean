/-
# `Prompts` — the file of the prompt that is played (`AudioPlayMP3.c`)

`mp3_gFileHandle` is the one handle of a prompt's file.  `AudioPlayMP3Thread` closes it before
it plays the next prompt, and before the microphone starts; the player's callback closes it at
the end of the file.  Some of these places set the handle to `NULL` behind the close, and some
do not.  Then it is stale: it looks open and is closed.

The machine here takes any messages and callbacks in any order, one step each, and any value of
`audio_en_v2` between them.  Beside the globals it has what the file system knows, the handle
that is open; a handle is named in the log, so what a step does with files is read off there.

    every handle is closed once, used only while open, and closed before the next one is opened
      ⟺  no step that uses the handle finds it stale, and no prompt is started over one that
          is still being played                                       (`disciplined_iff`)

The last of the three always holds, for a prompt is opened only behind a close.
-/
import IntercomSalve.System

namespace IntercomSalve.Prompts

/-! ## The player's callback -/

/-- `AUDIO_EVENT_E`, as far as `PlayMP3CB` tells them apart. -/
inductive AudioEvent where
  | playFillBuff
  | playStop
  | other
  deriving DecidableEq

/-- `PlayMP3CB (event, buff, len)`, with `*len` and the buffer; `read` is what
`KING_FsFileRead` reads, `none` when it fails. -/
def playMP3CB (event : AudioEvent) (read : Option (List UInt8)) (len : Nat) (buff : Mem)
    (s : App) : App × Nat × Mem :=
  match event with
  | .playFillBuff =>
      let s := s.log (.fsFileRead s.mp3GFileHandle)
      match read with
      | some (b :: bs) =>
          (s, (b :: bs).length, buff.memcpy 0 (Mem.ofList (b :: bs)) (b :: bs).length)
      | some [] | none =>
          ({ (s.log .audioAbort).log (.fsCloseHandle s.mp3GFileHandle) with
              mp3GFileHandle := none }, 0, buff)
  | .playStop | .other => (s, len, buff)

/-! ## What is done with files -/

/-- A call with a handle that `KING_FsFileCreate` gave; `NULL` is none. -/
inductive FsOp where
  | opened (h : Nat)
  | closed (h : Nat)
  /-- read or seeked -/
  | used (h : Nat)
  deriving DecidableEq

/-- The call with a handle, if it is one; `created` is what `KING_FsFileCreate` gives. -/
def fsOpOf (created : Option Nat) : Out → Option FsOp
  | .fsFileCreate _ => created.map .opened
  | .fsCloseHandle h => h.map .closed
  | .fsFileRead h => h.map .used
  | .fsFilePointerSet h _ => h.map .used
  | _ => none

/-- What the calls since `s` do with handles. -/
def fsOps (created : Option Nat) (s t : App) : List FsOp :=
  (t.out.drop s.out.length).filterMap (fsOpOf created)

/-- The handle that is open afterwards. -/
def FsOp.run : FsOp → Option Nat → Option Nat
  | .opened h, _ => some h
  | .closed h, fs => if fs = some h then none else fs
  | .used _, fs => fs

/-- Nothing is open when a handle is opened, and a handle is open when it is closed or used. -/
def FsOp.Proper : FsOp → Option Nat → Prop
  | .opened _, fs => fs = none
  | .closed h, fs | .used h, fs => fs = some h

instance (o : FsOp) (fs : Option Nat) : Decidable (o.Proper fs) := by
  cases o <;> unfold FsOp.Proper <;> infer_instance

/-- All of them are. -/
def Disciplined : List FsOp → Option Nat → Prop
  | [], _ => True
  | o :: os, fs => o.Proper fs ∧ Disciplined os (o.run fs)

instance decidableDisciplined : (os : List FsOp) → (fs : Option Nat) →
    Decidable (Disciplined os fs)
  | [], _ => isTrue trivial
  | o :: os, fs => by
      have := decidableDisciplined os (o.run fs)
      unfold Disciplined
      infer_instance

/-- The handle that is open after all of them. -/
def runOps (os : List FsOp) (fs : Option Nat) : Option Nat := os.foldl (fun fs o => o.run fs) fs

/-! ## The machine -/

/-- The globals, and the handle that the file system has open. -/
structure Player where
  app : App
  fs : Option Nat

/-- Power-on. -/
def Player.init : Player := ⟨App.init, none⟩

/-- One step: a message of `AudioPlayMP3Thread`, a callback of the player, or another thread
that writes `audio_en_v2`. -/
inductive PlayerAct where
  | message (io : Platform) (m : Mp3Msg)
  | callback (event : AudioEvent) (read : Option (List UInt8)) (len : Nat) (buff : Mem)
  | audioEnV2 (v : UInt8)

/-- The globals after the step. -/
def PlayerAct.app : PlayerAct → App → App
  | .message io m, s => audioPlayMP3Thread io m s
  | .callback event read len buff, s => (playMP3CB event read len buff s).1
  | .audioEnV2 v, s => { s with audioEnV2 := v }

/-- What `KING_FsFileCreate` gives in the step. -/
def PlayerAct.created : PlayerAct → Option Nat
  | .message io _ => io.fsFileCreate
  | .callback .. | .audioEnV2 _ => none

/-- What the step does with handles. -/
def PlayerAct.ops (a : PlayerAct) (s : App) : List FsOp := fsOps a.created s (a.app s)

/-- The machine. -/
def execPlayer (a : PlayerAct) (x : Player) : Option Player :=
  some ⟨a.app x.app, runOps (a.ops x.app) x.fs⟩

/-! ## What each step does with handles -/

/-- The close of a handle that may be `NULL`. -/
def closeOps (h : Option Nat) : List FsOp := (h.map .closed).toList

/-- The use of a handle that may be `NULL`. -/
def useOps (h : Option Nat) : List FsOp := (h.map .used).toList

/-- The open of a prompt, and what is read of its tag. -/
def openOps (io : Platform) : List FsOp :=
  match io.fsFileCreate with
  | none => []
  | some h => .opened h :: .used h :: if io.fsFileRead.length = 10 then [.used h] else []

/-- Only what was added to the log counts. -/
theorem fsOps_of_append {created : Option Nat} {s t : App} {os : List Out}
    (h : t.out = s.out ++ os) : fsOps created s t = os.filterMap (fsOpOf created) := by
  rw [fsOps, h, List.drop_left]

/-- A prompt is started: the handle is closed, once more if the player is busy, and the file is
opened. -/
theorem fsOps_mp3Audio {io : Platform} {f : Mp3File} {s : App} (hv : s.audioEnV2 = 0) :
    fsOps io.fsFileCreate s (mp3Audio io f s) =
      closeOps s.mp3GFileHandle ++
        (if io.audioBusy = true then closeOps s.mp3GFileHandle else []) ++ openOps io := by
  have hplay : mp3Audio io f s =
      audioPlayMP3 io f ((s.log .audioStop).log (.fsCloseHandle s.mp3GFileHandle)) :=
    if_neg (not_not.mpr hv)
  rw [hplay]
  unfold audioPlayMP3 audioStopPlay skipTag openOps closeOps fsOps
  simp only [App.log]
  cases s.mp3GFileHandle <;> cases io.audioBusy <;> cases io.fsFileCreate <;>
    by_cases hlen : io.fsFileRead.length = 10 <;>
    simp [fsOpOf, hlen, List.filterMap_cons]

theorem handle_mp3Audio {io : Platform} {f : Mp3File} {s : App} (hv : s.audioEnV2 = 0)
    {h : Nat} (hopen : io.fsFileCreate = some h) :
    (mp3Audio io f s).mp3GFileHandle = some h := by
  have hplay : mp3Audio io f s =
      audioPlayMP3 io f ((s.log .audioStop).log (.fsCloseHandle s.mp3GFileHandle)) :=
    if_neg (not_not.mpr hv)
  rw [hplay]
  unfold audioPlayMP3 skipTag
  dsimp only
  rw [hopen]
  dsimp only
  split <;> rfl

/-! ## The law -/

/-- A handle that is open is the one in `mp3_gFileHandle`. -/
def Known (x : Player) : Prop := ∀ h, x.fs = some h → x.app.mp3GFileHandle = some h

/-- `mp3_gFileHandle` is not the handle that is open: it has been closed. -/
def Stale (x : Player) : Prop := x.app.mp3GFileHandle ≠ x.fs

/-- The step uses the handle in `mp3_gFileHandle`. -/
def PlayerAct.touches : PlayerAct → App → Prop
  | .message _ _, s => s.audioEnV2 = 0
  | .callback event _ _ _, _ => event = .playFillBuff
  | .audioEnV2 _, _ => False

/-- The step starts a prompt, and the player is busy. -/
def PlayerAct.playsOver : PlayerAct → App → Prop
  | .message io (.audio _), s | .message io (.stop _), s =>
      s.audioEnV2 = 0 ∧ io.audioBusy = true
  | _, _ => False

instance (x : Player) : Decidable (Stale x) := by
  unfold Stale
  infer_instance

instance (a : PlayerAct) (s : App) : Decidable (a.touches s) := by
  cases a <;> unfold PlayerAct.touches <;> infer_instance

instance (a : PlayerAct) (s : App) : Decidable (a.playsOver s) := by
  unfold PlayerAct.playsOver
  split <;> infer_instance

/-- The step does not use a stale handle, and it does not start a prompt while the player is
busy with a file. -/
def Careful (e : Run.Step PlayerAct Player) : Prop :=
  (e.act.touches e.pre.app → ¬ Stale e.pre) ∧
    (e.act.playsOver e.pre.app → e.pre.app.mp3GFileHandle = none)

instance (e : Run.Step PlayerAct Player) : Decidable (Careful e) := by
  unfold Careful
  infer_instance

theorem disciplined_openOps (io : Platform) : Disciplined (openOps io) none := by
  unfold openOps
  split
  · exact trivial
  · split <;> simp [Disciplined, FsOp.Proper, FsOp.run]

theorem runOps_openOps (io : Platform) : runOps (openOps io) none = io.fsFileCreate := by
  unfold openOps
  split
  · next h => rw [h]; rfl
  · next h hopen =>
      rw [hopen]
      split <;> rfl

/-- A step lemma holds: what the step does is proper exactly if it is careful, and afterwards an
open handle is known. -/
def LawOf (x : Player) (a : PlayerAct) (y : Player) : Prop :=
  (Disciplined (a.ops x.app) x.fs ↔ Careful ⟨x, a, y⟩) ∧ Known y

/-- A step that does not concern the file. -/
theorem Known.untouched {x : Player} (hx : Known x) {a : PlayerAct} (hops : a.ops x.app = [])
    (htouch : ¬ a.touches x.app) (hover : ¬ a.playsOver x.app)
    (hsame : (a.app x.app).mp3GFileHandle = x.app.mp3GFileHandle) :
    LawOf x a ⟨a.app x.app, runOps (a.ops x.app) x.fs⟩ := by
  rw [LawOf, hops]
  refine ⟨⟨fun _ => ⟨fun h => absurd h htouch, fun h => absurd h hover⟩, fun _ => trivial⟩, ?_⟩
  intro h hopen
  exact hsame.trans (hx h hopen)

/-- The close of `mp3_gFileHandle` is proper exactly if that is the open handle; nothing is open
behind it in any case. -/
theorem disciplined_close {g fs : Option Nat} (hfs : ∀ h, fs = some h → g = some h)
    (os : List FsOp) :
    (Disciplined (closeOps g ++ os) fs ↔ g = fs ∧ Disciplined os none) ∧
      runOps (closeOps g ++ os) fs = runOps os none := by
  cases g with
  | none =>
      have hnone : fs = none := by
        cases fs with
        | none => rfl
        | some h => exact absurd (hfs h rfl).symm (Option.some_ne_none h)
      rw [hnone]
      exact ⟨⟨fun hd => ⟨rfl, hd⟩, fun hd => hd.2⟩, rfl⟩
  | some h =>
      have hrun : (FsOp.closed h).run fs = none := by
        show (if fs = some h then none else fs) = none
        split
        · rfl
        · next hne =>
            cases fs with
            | none => rfl
            | some h' => exact absurd (hfs h' rfl).symm hne
      refine ⟨?_, ?_⟩
      · show fs = some h ∧ Disciplined os ((FsOp.closed h).run fs) ↔ _
        rw [hrun, eq_comm]
      · show runOps os ((FsOp.closed h).run fs) = _
        rw [hrun]

/-- A prompt is started. -/
theorem Known.play {x : Player} (hx : Known x) (io : Platform) (f : Mp3File)
    (hv : x.app.audioEnV2 = 0) :
    (Disciplined (fsOps io.fsFileCreate x.app (mp3Audio io f x.app)) x.fs ↔
      ¬ Stale x ∧ (io.audioBusy = true → x.app.mp3GFileHandle = none)) ∧
      runOps (fsOps io.fsFileCreate x.app (mp3Audio io f x.app)) x.fs = io.fsFileCreate := by
  rw [fsOps_mp3Audio hv, List.append_assoc]
  obtain ⟨hfirst, hafter⟩ := disciplined_close hx
    ((if io.audioBusy = true then closeOps x.app.mp3GFileHandle else []) ++ openOps io)
  rw [hfirst, hafter, Stale, not_not]
  cases io.audioBusy with
  | false =>
      refine ⟨and_congr_right fun _ => ?_, runOps_openOps io⟩
      exact ⟨fun _ h => absurd h (by decide), fun _ => disciplined_openOps io⟩
  | true =>
      -- the second close is proper only if there is no handle
      have hnone (h : Nat) (hh : (none : Option Nat) = some h) :
          x.app.mp3GFileHandle = some h := absurd hh.symm (Option.some_ne_none h)
      obtain ⟨hsecond, hagain⟩ := disciplined_close hnone (openOps io)
      rw [if_pos rfl, hsecond, hagain]
      refine ⟨and_congr_right fun _ => ?_, runOps_openOps io⟩
      exact ⟨fun h _ => h.1, fun h => ⟨h rfl, disciplined_openOps io⟩⟩

/-- The microphone is to be started: the handle is closed and kept. -/
theorem fsOps_stopAudioStart {io : Platform} {s : App} (hv : s.audioEnV2 = 0) :
    fsOps io.fsFileCreate s (audioPlayMP3Thread io .stopAudioStart s) =
      closeOps s.mp3GFileHandle ++ [] := by
  have hstop : audioPlayMP3Thread io .stopAudioStart s =
      App.postAudio .hmiNews ((s.log .audioStop).log (.fsCloseHandle s.mp3GFileHandle)) := by
    show App.postAudio .hmiNews (if s.audioEnV2 = 0 then _ else s) = _
    rw [if_pos hv]
  have hout : (App.postAudio .hmiNews
      ((s.log .audioStop).log (.fsCloseHandle s.mp3GFileHandle))).out =
        s.out ++ [.audioStop, .fsCloseHandle s.mp3GFileHandle] := by
    simp [App.log, App.postAudio]
  rw [hstop, fsOps_of_append hout]
  unfold closeOps
  cases s.mp3GFileHandle <;> rfl

/-- The callback at the end of the buffer: the file is read, and closed where nothing comes. -/
theorem fsOps_playFillBuff {read : Option (List UInt8)} {len : Nat} {buff : Mem} {s : App} :
    fsOps none s (playMP3CB .playFillBuff read len buff s).1 = useOps s.mp3GFileHandle ++
      if (playMP3CB .playFillBuff read len buff s).2.1 = 0 then closeOps s.mp3GFileHandle ++ []
      else [] := by
  unfold playMP3CB useOps closeOps fsOps
  simp only [App.log]
  split <;> cases s.mp3GFileHandle <;> simp [fsOpOf, List.filterMap_cons]

/-- A use of `mp3_gFileHandle` is proper exactly if that is the open handle. -/
theorem disciplined_use {g fs : Option Nat} (hfs : ∀ h, fs = some h → g = some h)
    (os : List FsOp) :
    (Disciplined (useOps g ++ os) fs ↔ g = fs ∧ Disciplined os fs) ∧
      runOps (useOps g ++ os) fs = runOps os fs := by
  cases g with
  | none =>
      have hnone : fs = none := by
        cases fs with
        | none => rfl
        | some h => exact absurd (hfs h rfl).symm (Option.some_ne_none h)
      rw [hnone]
      exact ⟨⟨fun hd => ⟨rfl, hd⟩, fun hd => hd.2⟩, rfl⟩
  | some h =>
      refine ⟨?_, rfl⟩
      show fs = some h ∧ Disciplined os fs ↔ _
      rw [eq_comm]

theorem Known.playStep {x : Player} (hx : Known x) (io : Platform) (f : Mp3File) {a : PlayerAct}
    (happ : a.app x.app = mp3Audio io f x.app) (hcreated : a.created = io.fsFileCreate)
    (htouch : a.touches x.app ↔ x.app.audioEnV2 = 0)
    (hover : a.playsOver x.app ↔ x.app.audioEnV2 = 0 ∧ io.audioBusy = true) :
    LawOf x a ⟨a.app x.app, runOps (a.ops x.app) x.fs⟩ := by
  have hops : a.ops x.app = fsOps io.fsFileCreate x.app (mp3Audio io f x.app) := by
    unfold PlayerAct.ops
    rw [hcreated, happ]
  by_cases hv : x.app.audioEnV2 = 0
  · obtain ⟨hiff, hrun⟩ := hx.play io f hv
    rw [LawOf, hops, hiff, Careful, htouch, hover]
    refine ⟨⟨fun h => ⟨fun _ => h.1, fun hb => h.2 hb.2⟩,
      fun h => ⟨h.1 hv, fun hb => h.2 ⟨hv, hb⟩⟩⟩, ?_⟩
    intro h hopen
    show (a.app x.app).mp3GFileHandle = some h
    rw [happ]
    exact handle_mp3Audio hv (hrun ▸ hopen)
  · have hmute : mp3Audio io f x.app =
        { (x.app.log .audioDevStopPocMode).log .audioStop with audioEnV2 := 0 } := if_pos hv
    refine hx.untouched ?_ (fun h => hv (htouch.mp h)) (fun h => hv (hover.mp h).1) ?_
    · rw [hops, hmute]
      simp [fsOps, App.log, fsOpOf]
    · rw [happ, hmute]
      rfl

theorem Known.stopStep {x : Player} (hx : Known x) {io : Platform} :
    LawOf x (.message io .stopAudioStart) ⟨audioPlayMP3Thread io .stopAudioStart x.app,
      runOps (PlayerAct.ops (.message io .stopAudioStart) x.app) x.fs⟩ := by
  by_cases hv : x.app.audioEnV2 = 0
  · have hops : PlayerAct.ops (.message io .stopAudioStart) x.app =
        closeOps x.app.mp3GFileHandle ++ [] := fsOps_stopAudioStart hv
    obtain ⟨hiff, hrun⟩ := disciplined_close hx []
    rw [LawOf, hops, hiff, hrun]
    refine ⟨⟨fun h => ⟨fun _ hs => hs h.1, fun h => absurd h not_false⟩,
      fun h => ⟨not_not.mp (h.1 hv), trivial⟩⟩, ?_⟩
    intro h hopen
    exact absurd hopen.symm (Option.some_ne_none h)
  · have hquiet : audioPlayMP3Thread io .stopAudioStart x.app =
        App.postAudio .hmiNews x.app := congrArg (App.postAudio .hmiNews) (if_neg hv)
    refine hx.untouched (a := .message io .stopAudioStart) ?_ hv not_false ?_
    · show fsOps _ x.app (audioPlayMP3Thread io .stopAudioStart x.app) = []
      rw [hquiet]
      simp [fsOps, App.postAudio]
    · show (audioPlayMP3Thread io .stopAudioStart x.app).mp3GFileHandle = _
      rw [hquiet]
      rfl

theorem Known.fillStep {x : Player} (hx : Known x) {read : Option (List UInt8)} {len : Nat}
    {buff : Mem} :
    LawOf x (.callback .playFillBuff read len buff)
      ⟨(playMP3CB .playFillBuff read len buff x.app).1,
        runOps (PlayerAct.ops (.callback .playFillBuff read len buff) x.app) x.fs⟩ := by
  have hops : PlayerAct.ops (.callback .playFillBuff read len buff) x.app =
      useOps x.app.mp3GFileHandle ++
        if (playMP3CB .playFillBuff read len buff x.app).2.1 = 0
        then closeOps x.app.mp3GFileHandle ++ [] else [] := fsOps_playFillBuff
  have hcareful (y : Player) : Careful ⟨x, .callback .playFillBuff read len buff, y⟩ ↔
      x.app.mp3GFileHandle = x.fs :=
    ⟨fun h => not_not.mp (h.1 rfl), fun h => ⟨fun _ hs => hs h, fun hb => absurd hb not_false⟩⟩
  rw [LawOf, hcareful, hops]
  obtain ⟨huse, hafter⟩ := disciplined_use hx
    (if (playMP3CB .playFillBuff read len buff x.app).2.1 = 0
      then closeOps x.app.mp3GFileHandle ++ [] else [])
  obtain ⟨hclose, hend⟩ := disciplined_close hx []
  rw [huse, hafter]
  by_cases hzero : (playMP3CB .playFillBuff read len buff x.app).2.1 = 0
  · rw [if_pos hzero, hclose, hend]
    exact ⟨⟨fun h => h.1, fun h => ⟨h, h, trivial⟩⟩,
      fun h hopen => absurd hopen.symm (Option.some_ne_none h)⟩
  · rw [if_neg hzero]
    refine ⟨⟨fun h => h.1, fun h => ⟨h, trivial⟩⟩, ?_⟩
    have hsame : (playMP3CB .playFillBuff read len buff x.app).1.mp3GFileHandle =
        x.app.mp3GFileHandle := by
      rcases read with _ | _ | ⟨b, bs⟩
      · exact absurd rfl hzero
      · exact absurd rfl hzero
      · rfl
    intro h hopen
    exact hsame.trans (hx h hopen)

/-- **One step.** -/
theorem Known.step {x y : Player} {a : PlayerAct} (hx : Known x) (he : execPlayer a x = some y) :
    LawOf x a y := by
  obtain rfl := Option.some.inj he
  cases a with
  | message io m =>
      cases m with
      | audio f => exact hx.playStep io f rfl rfl Iff.rfl Iff.rfl
      | stop f => exact hx.playStep io f rfl rfl Iff.rfl Iff.rfl
      | stopAudioStart => exact hx.stopStep
  | callback event read len buff =>
      cases event with
      | playFillBuff => exact hx.fillStep
      | playStop =>
          refine hx.untouched (a := .callback .playStop read len buff) ?_ ?_ not_false rfl
          · simp [PlayerAct.ops, fsOps, PlayerAct.app, playMP3CB]
          · exact AudioEvent.noConfusion
      | other =>
          refine hx.untouched (a := .callback .other read len buff) ?_ ?_ not_false rfl
          · simp [PlayerAct.ops, fsOps, PlayerAct.app, playMP3CB]
          · exact AudioEvent.noConfusion
  | audioEnV2 v =>
      refine hx.untouched (a := .audioEnV2 v) ?_ not_false not_false rfl
      simp [PlayerAct.ops, fsOps, PlayerAct.app]

/-- **The file of a prompt.**  In every order of messages and callbacks: every handle is closed at
most once, used only while it is open and closed before the next file is opened, exactly if no
step uses a stale handle and no prompt is started over one that is being played. -/
theorem disciplined_iff {l : List (Run.Step PlayerAct Player)} {x : Player}
    (hr : Run.Runs execPlayer Player.init l x) :
    (∀ e ∈ l, Disciplined (e.act.ops e.pre.app) e.pre.fs) ↔ ∀ e ∈ l, Careful e := by
  have h0 : Known Player.init := fun h hopen => absurd hopen.symm (Option.some_ne_none h)
  exact hr.forall_iff h0 fun y a z _ hy he => ⟨(hy.step he).1, fun _ => (hy.step he).2⟩

/-- The platform opens a file of a few bytes. -/
def opens (h : Nat) : Platform := { Platform.silent with fsFileCreate := some h }

/-- A prompt is played to its end, and the microphone is started. -/
theorem playedPrompt_disciplined :
    ∃ l x, Run.Runs execPlayer Player.init l x ∧ l.length = 4 ∧
      ∀ e ∈ l, Disciplined (e.act.ops e.pre.app) e.pre.fs := by
  have hrun : ∃ l x, Run.Runs execPlayer Player.init l x ∧
      decide (l.length = 4 ∧ ∀ e ∈ l, Careful e) = true :=
    Run.Runs.of_trace_test
      (l := [.message (opens 1) (.audio .waitConv),
        .callback .playFillBuff (some [0]) 4096 (fun _ => 0),
        .callback .playFillBuff none 4096 (fun _ => 0),
        .message Platform.silent .stopAudioStart])
      (q := fun l _ => decide (l.length = 4 ∧ ∀ e ∈ l, Careful e))
      (by decide +kernel)
  obtain ⟨l, x, hr, hq⟩ := hrun
  obtain ⟨hlen, hcareful⟩ := of_decide_eq_true hq
  exact ⟨l, x, hr, hlen, (disciplined_iff hr).mpr hcareful⟩

/-- The second prompt, after the microphone has been started, closes the first one's handle
again. -/
theorem stoppedPrompt_not_disciplined :
    ¬ ∀ l x, Run.Runs execPlayer Player.init l x →
      ∀ e ∈ l, Disciplined (e.act.ops e.pre.app) e.pre.fs := by
  intro h
  have hrun : ∃ l x, Run.Runs execPlayer Player.init l x ∧
      decide (¬ ∀ e ∈ l, Disciplined (e.act.ops e.pre.app) e.pre.fs) = true :=
    Run.Runs.of_trace_test
      (l := ([.message (opens 1) (.audio .waitConv),
        .message Platform.silent .stopAudioStart,
        .message (opens 2) (.audio .endConv)] : List PlayerAct))
      (q := fun (l : List (Run.Step PlayerAct Player)) _ =>
        decide (¬ ∀ e ∈ l, Disciplined (e.act.ops e.pre.app) e.pre.fs))
      (by decide +kernel)
  obtain ⟨l, x, hr, hq⟩ := hrun
  exact of_decide_eq_true hq (h l x hr)

end IntercomSalve.Prompts
