/-
# `Upgrade` — upgrades over many starts (`app_main.c`, `fota_test.c`, `http_test.c`)

An upgrade goes on over several starts of the device: `fota.img` is written by the handler of
message 122, `Fota_test` copies it and sets `FOTA_IMAGE_IS_READY`, the device reboots, the
bootloader installs the image and says so in the flag, and `Fota_test`, which runs first after
every start, clears the flag and deletes the file.  Power may fail between any two calls.

The device keeps the flag, the file and the flash from one start to the next.  What installs an
image is not part of the source: whether it succeeds, and what it leaves in the flash, is given
with each start.

`APP_Main` calls `Fota_test` before there is another thread.  The thread that upgrades calls it
beside the others, and then a frame with a URL can start another thread, which creates
`fota.img` anew while the old one is copied, or in the three seconds between the flag and the
reboot.  That is a step here; that two threads write the file at once, or are both in
`Fota_test`, is not.

In runs without such a step the flash holds the whole of `fota.img` whenever the flag says that
an image is ready (`ready_whole`); with one, it still holds what was copied until `Fota_test` is
called again (`ready_keeps`).  In every run, between two times that the flag is set, a file is
created, or `Fota_test` finds the file of the first time and leaves it (`ready_again`).  It leaves
it after every installation that has failed, so that the same image is installed again and again
(`failed_again`).
-/
import IntercomSalve.FotaCopy

namespace IntercomSalve.Fota

/-! ## The device -/

/-- What an upgrade is about. -/
structure Device where
  flag : FotaFlag
  /-- `fota.img` -/
  file : Option (List UInt8)
  /-- how far the file has been read -/
  filePos : Nat
  /-- the handler of message 122 is at work; `FileHandle` is valid -/
  writing : Option Bool
  /-- the last call of `Fota_test` -/
  fota : FotaTest
  /-- that was a call of the handler, and not one of `APP_Main` -/
  byHandler : Bool

/-- The results that the device gives. -/
def Device.gives (d : Device) : Reply → Prop
  | .flagGet (some flag) => flag = d.flag
  | .fileCreate true => d.file.isSome
  | .fileSizeGet (some flsz) => flsz = (d.file.getD []).length
  | .fileRead (some bs) => bs <+: (d.file.getD []).drop d.filePos
  | _ => True

instance (d : Device) : (r : Reply) → Decidable (d.gives r)
  | .flagGet (some flag) => inferInstanceAs (Decidable (flag = d.flag))
  | .fileCreate true => inferInstanceAs (Decidable (d.file.isSome = true))
  | .fileSizeGet (some flsz) => inferInstanceAs (Decidable (flsz = (d.file.getD []).length))
  | .fileRead (some bs) =>
      decidable_of_iff (bs.isPrefixOf ((d.file.getD []).drop d.filePos))
        List.isPrefixOf_iff_prefix
  | .flagGet none | .fileCreate false | .fileSizeGet none | .memAlloc _ | .fileRead none
  | .flashWrite _ | .imageCheck _ | .flagSet _ => isTrue trivial

/-- What a call changes.  Of the two calls behind `KING_FotaFlagGet` it is said beside whether
they succeed. -/
def Device.called (r : Reply) (cleared deleted : Bool) (d : Device) : Device :=
  match r with
  | .flagGet (some .updateSuccess) =>
      { d with
        flag := if cleared then .clear else d.flag
        file := if deleted then none else d.file }
  | .fileCreate true => { d with filePos := 0 }
  | .fileRead (some bs) => { d with filePos := d.filePos + bs.length }
  | .flagSet true => { d with flag := .imageIsReady }
  | _ => d

/-- `Fota_test` is called; `flsz` and the buffer hold anything. -/
def Device.enter (byHandler : Bool) (flsz : Nat) (pBuf flash : Mem) (d : Device) : Device :=
  { d with
    filePos := 0, writing := none, fota := .start flsz pBuf flash, byHandler := byHandler }

/-- `Fota_test` has returned, and not to `KING_PowerReboot`. -/
def Device.isUp (d : Device) : Prop :=
  d.fota.awaits = .returned ∧ .powerReboot ∉ d.fota.calls

instance (d : Device) : Decidable d.isUp := inferInstanceAs (Decidable (_ ∧ _))

/-- There are other threads: those that `APP_Main` starts behind its call of `Fota_test`. -/
def Device.othersRun (d : Device) : Prop := d.byHandler = true ∨ d.isUp

instance (d : Device) : Decidable d.othersRun := inferInstanceAs (Decidable (_ ∨ _))

/-- What happens to the device. -/
inductive DeviceAct where
  /-- a call of `Fota_test` returns -/
  | reply (r : Reply) (cleared deleted : Bool)
  /-- the handler of message 122 creates `fota.img` -/
  | fileCreate (ok : Bool)
  /-- so much of a block is written -/
  | fileWrite (bs : List UInt8)
  /-- the handler calls `Fota_test`, in which no other thread is -/
  | fotaTest (flsz : Nat) (pBuf : Mem)
  /-- the device starts: it has rebooted, or power has failed.  An image that is ready is
  installed, which succeeds or not. -/
  | boot (installed : Bool) (flsz : Nat) (pBuf flash : Mem)

/-- The bootloader, and `APP_Main`. -/
def Device.boot (installed : Bool) (flsz : Nat) (pBuf flash : Mem) (d : Device) : Device :=
  if d.flag = .imageIsReady then
    { d with flag := if installed then .updateSuccess else .updateFailed }.enter
      false flsz pBuf flash
  else d.enter false flsz pBuf d.fota.flash

def execDevice : DeviceAct → Device → Option Device
  | .reply r cleared deleted, d =>
      if d.gives r then
        (execFota r d.fota).map fun s => { d.called r cleared deleted with fota := s }
      else none
  | .fileCreate ok, d =>
      if d.othersRun ∧ d.writing = none then
        some { d with file := if ok then some [] else d.file, writing := some ok }
      else none
  | .fileWrite bs, d =>
      d.writing.map fun valid =>
        if valid then { d with file := d.file.map (· ++ bs) } else d
  | .fotaTest flsz pBuf, d =>
      if d.writing.isSome ∧ d.fota.awaits = .returned then
        some (d.enter true flsz pBuf d.fota.flash)
      else none
  | .boot installed flsz pBuf flash, d => some (d.boot installed flsz pBuf flash)

/-! ## What holds of the device -/

/-- `Fota_test` holds the file open. -/
def Awaits.hasFile : Awaits → Prop
  | .flagGet | .fileCreate | .returned => False
  | _ => True

/-- `Fota_test` copies the file, and nothing is ready yet. -/
structure Copying (d : Device) : Prop where
  bounded : Bounded d.fota
  copies : Copies (d.file.getD []) ((d.file.getD []).take d.filePos) d.fota
  file : d.fota.awaits.hasFile → d.file.isSome
  calls : .powerReboot ∉ d.fota.calls
  flag : d.flag ≠ .imageIsReady
  writing : d.writing = none

/-- An image is ready, and the device is about to reboot. -/
structure Rebooting (d : Device) : Prop where
  awaits : d.fota.awaits = .returned
  calls : .powerReboot ∈ d.fota.calls
  flag : d.flag = .imageIsReady
  writing : d.writing = none
  whole : ∃ file, d.file = some file ∧ d.fota.flash.slice 0 file.length = file

/-- The other threads run. -/
structure Up (d : Device) : Prop where
  isUp : d.isUp
  flag : d.flag ≠ .imageIsReady

/-- A file is created only when `Fota_test` is through, and not about to reboot. -/
def Alone (e : Run.Step DeviceAct Device) : Prop :=
  match e.act with
  | .fileCreate _ => e.pre.isUp
  | _ => True

instance (e : Run.Step DeviceAct Device) : Decidable (Alone e) :=
  match e with
  | ⟨d, .fileCreate _, _⟩ => inferInstanceAs (Decidable d.isUp)
  | ⟨_, .reply _ _ _, _⟩ | ⟨_, .fileWrite _, _⟩ | ⟨_, .fotaTest _ _, _⟩
  | ⟨_, .boot _ _ _ _, _⟩ => isTrue trivial

/-- Whatever the device does in runs of such steps, it is one of these. -/
inductive Holding (d : Device) : Prop
  | copying : d.fota.awaits ≠ .returned → Copying d → Holding d
  | rebooting : Rebooting d → Holding d
  | up : Up d → Holding d

/-- The device at a start, with nothing to install. -/
structure Fresh (d : Device) : Prop where
  flag : d.flag ≠ .imageIsReady
  fota : ∃ flsz pBuf flash, d.fota = .start flsz pBuf flash
  filePos : d.filePos = 0
  writing : d.writing = none

/-! ## One step -/

theorem execDevice_reply {r : Reply} {cleared deleted : Bool} {d d' : Device}
    (he : execDevice (.reply r cleared deleted) d = some d') :
    d.gives r ∧ ∃ t, execFota r d.fota = some t ∧
      d' = { d.called r cleared deleted with fota := t } := by
  have he : (if d.gives r then (execFota r d.fota).map fun s =>
    { d.called r cleared deleted with fota := s } else none) = some d' := he
  obtain ⟨hgives, he⟩ := Option.ite_none_right_eq_some.mp he
  obtain ⟨t, ht, rfl⟩ := Option.map_eq_some_iff.mp he
  exact ⟨hgives, t, ht, rfl⟩

section Calls

variable {r : Reply} {s t : FotaTest} {d : Device} {cleared deleted : Bool}

/-- Only behind `KING_FotaFlagSet (FOTA_IMAGE_IS_READY)` does `Fota_test` reboot. -/
theorem noReboot_goOn (hr : r ≠ .flagSet true) (hs : .powerReboot ∉ s.calls) :
    .powerReboot ∉ (goOn r s).calls := by
  have hcall {c : FotaCall} {s : FotaTest} (hc : .powerReboot ≠ c)
      (h : .powerReboot ∉ s.calls) : .powerReboot ∉ (s.call c).calls := by
    show .powerReboot ∉ s.calls ++ [c]
    rw [List.mem_append, List.mem_singleton]
    exact not_or.mpr ⟨h, hc⟩
  have hloop {s : FotaTest} (h : .powerReboot ∉ s.calls) : .powerReboot ∉ (loopHead s).calls := by
    unfold loopHead
    split
    · exact h
    · exact hcall (by decide) h
  cases r with
  | flagGet r =>
      show .powerReboot ∉ (if r = some .updateSuccess then
        (s.call (.flagSet .clear)).call .fileDelete else s).calls
      split
      · exact hcall (by decide) (hcall (by decide) hs)
      · exact hs
  | fileCreate ok =>
      cases ok with
      | true => exact hcall (c := .opened) (by decide) hs
      | false => exact hs
  | fileSizeGet r =>
      cases r with
      | none => exact hcall (c := .closeHandle) (by decide) hs
      | some n =>
          show .powerReboot ∉ (fileSizeGet (some n) s).calls
          unfold fileSizeGet
          dsimp only
          split <;> exact hs
  | memAlloc ok =>
      cases ok with
      | true => exact hloop (hcall (by decide) hs)
      | false => exact hcall (c := .closeHandle) (by decide) hs
  | fileRead r =>
      cases r with
      | none =>
          have hclose := hcall (c := .closeHandle) (by decide) hs
          exact hcall (c := .memFree) (by decide) hclose
      | some bs => exact hs
  | flashWrite r =>
      cases r with
      | none => exact hcall (c := .closeHandle) (by decide) hs
      | some n =>
          show .powerReboot ∉ (flashWrite (some n) s).calls
          unfold flashWrite
          dsimp only
          split
          · exact hloop hs
          · exact hs
  | imageCheck ok => cases ok <;> exact hs
  | flagSet ok =>
      cases ok with
      | true => exact absurd rfl hr
      | false => exact hcall (c := .flagSet .imageIsReady) (by decide) hs

/-- The file is open behind a call that has opened it, or that needs it open. -/
theorem hasFile_goOn (he : execFota r s = some t) (h : t.awaits.hasFile) :
    r = .fileCreate true ∨ s.awaits.hasFile := by
  obtain ⟨⟨hat, -⟩, rfl⟩ := execFota_eq_some.mp he
  rw [hat]
  cases r with
  | flagGet r => exact absurd h id
  | fileCreate ok =>
      cases ok with
      | true => exact .inl rfl
      | false => exact absurd h id
  | _ => exact .inr trivial

theorem called_flag (hr : r ≠ .flagSet true) (h : d.flag ≠ .imageIsReady) :
    (d.called r cleared deleted).flag ≠ .imageIsReady := by
  unfold Device.called
  split
  · cases cleared with
    | true => exact fun hc => FotaFlag.noConfusion hc
    | false => exact h
  · exact h
  · exact h
  · exact absurd rfl hr
  · exact h

theorem called_writing : (d.called r cleared deleted).writing = d.writing := by
  unfold Device.called
  split <;> rfl

/-- Only behind `KING_FotaFlagGet` is the file deleted. -/
theorem called_file (hr : ∀ flag, r ≠ .flagGet flag) :
    (d.called r cleared deleted).file = d.file := by
  unfold Device.called
  split
  · exact absurd rfl (hr _)
  all_goals rfl

/-- What has been read of the file, behind a call. -/
theorem called_take (hgives : d.gives r) (hr : ∀ flag, r ≠ .flagGet flag)
    (hpos : r = .fileCreate true → (d.file.getD []).take d.filePos = []) :
    (d.file.getD []).take (d.called r cleared deleted).filePos
      = (d.file.getD []).take d.filePos ++ r.bytes := by
  unfold Device.called
  split
  · exact absurd rfl (hr _)
  · rw [hpos rfl]
    rfl
  · next bs =>
    obtain ⟨rest, hrest⟩ : bs <+: (d.file.getD []).drop d.filePos := hgives
    show (d.file.getD []).take (d.filePos + bs.length) = _ ++ bs
    rw [List.take_add, ← hrest, List.take_left]
  · exact (List.append_nil _).symm
  · have hbytes : r.bytes = [] := by
      unfold Reply.bytes
      split
      · next hread _ => exact (hread _ rfl).elim
      · rfl
    rw [hbytes, List.append_nil]

/-- A call of `Fota_test` that is not the last one of a copy. -/
theorem Copying.goOn (h : Copying d) (hgives : d.gives r) (hr : r ≠ .flagSet true)
    (he : execFota r d.fota = some t) :
    Copying { d.called r cleared deleted with fota := t } := by
  have hcalls : .powerReboot ∉ t.calls := by
    obtain ⟨-, rfl⟩ := execFota_eq_some.mp he
    exact noReboot_goOn hr h.calls
  have hbounded := h.bounded.step he
  obtain ⟨hat, -⟩ := (execFota_eq_some.mp he).1
  by_cases hget : ∃ flag, r = .flagGet flag
  · obtain ⟨flag, rfl⟩ := hget
    -- the file may be gone, but nothing has been read of it
    have hcopies := h.copies
    unfold Copies at hcopies
    rw [hat] at hcopies
    obtain ⟨hset, hnone, hoffset⟩ := hcopies
    have hstep := h.copies.step h.bounded he (fun _ hsize => Reply.noConfusion hsize)
      (by rw [hnone]; exact List.nil_prefix)
    obtain rfl : flagGet flag d.fota = t := (execFota_eq_some.mp he).2
    obtain ⟨hset', -, hoffset'⟩ : ¬ SetsReady (flagGet flag d.fota) ∧ _ ∧
        (flagGet flag d.fota).offset = 0 := hstep
    refine ⟨hbounded, ⟨hset', ?_, hoffset'⟩, fun hfile => absurd hfile id, hcalls,
      called_flag hr h.flag, called_writing.trans h.writing⟩
    show ((d.called (.flagGet flag) cleared deleted).file.getD []).take
      (d.called (.flagGet flag) cleared deleted).filePos = []
    cases flag with
    | none => exact hnone
    | some flag =>
        cases flag with
        | updateSuccess =>
            show ((if deleted then none else d.file).getD []).take d.filePos = []
            split
            · exact List.take_nil
            · exact hnone
        | _ => exact hnone
  · have hget : ∀ flag, r ≠ .flagGet flag := fun flag hf => hget ⟨flag, hf⟩
    have hfile : (d.called r cleared deleted).file = d.file := called_file hget
    have htake : (d.file.getD []).take (d.called r cleared deleted).filePos
        = (d.file.getD []).take d.filePos ++ r.bytes := by
      refine called_take hgives hget fun hc => ?_
      have hcopies := h.copies
      unfold Copies at hcopies
      rw [hat, hc] at hcopies
      exact hcopies.2.1
    refine ⟨hbounded, ?_, ?_, hcalls, called_flag hr h.flag, called_writing.trans h.writing⟩
    · show Copies ((d.called r cleared deleted).file.getD [])
        (((d.called r cleared deleted).file.getD []).take
          (d.called r cleared deleted).filePos) t
      rw [hfile, htake]
      refine h.copies.step h.bounded he (fun n hn => ?_) ?_
      · rw [hn] at hgives
        exact hgives
      · rw [← htake]
        exact List.take_prefix _ _
    · intro hopen
      show (d.called r cleared deleted).file.isSome
      rw [hfile]
      rcases hasFile_goOn he hopen with rfl | hopen
      · exact hgives
      · exact h.file hopen

/-- The last one. -/
theorem Copying.setReady (h : Copying d) (he : execFota (.flagSet true) d.fota = some t) :
    Rebooting { d.called (.flagSet true) cleared deleted with fota := t } := by
  obtain ⟨⟨hat, -⟩, rfl⟩ := execFota_eq_some.mp he
  have hat : d.fota.awaits = .flagSet := hat
  have hfile : d.file.isSome := h.file (by rw [hat]; trivial)
  obtain ⟨file, hfile⟩ := Option.isSome_iff_exists.mp hfile
  have hcopies := h.copies
  unfold Copies at hcopies
  rw [hat, hfile] at hcopies
  exact ⟨rfl, List.mem_append_right _ (List.mem_singleton_self _), rfl, h.writing,
    file, hfile, hcopies.2⟩

/-- **A call of `Fota_test`.** -/
theorem Copying.reply (h : Copying d) (hgives : d.gives r) (he : execFota r d.fota = some t) :
    Holding { d.called r cleared deleted with fota := t } := by
  by_cases hr : r = .flagSet true
  · subst hr
    exact .rebooting (h.setReady he)
  · have hcopying : Copying { d.called r cleared deleted with fota := t } := h.goOn hgives hr he
    by_cases hret : t.awaits = .returned
    · exact .up ⟨⟨hret, hcopying.calls⟩, hcopying.flag⟩
    · exact .copying hret hcopying

end Calls

section Steps

variable {d d' : Device} {a : DeviceAct}

/-- `Fota_test` begins. -/
theorem enter_copying (hflag : d.flag ≠ .imageIsReady) (byHandler : Bool) (flsz : Nat)
    (pBuf flash : Mem) : Holding (d.enter byHandler flsz pBuf flash) := by
  refine .copying (fun hat => Awaits.noConfusion hat) ⟨start_bounded flsz pBuf flash, ?_,
    fun hopen => absurd hopen id, List.not_mem_nil, hflag, rfl⟩
  exact ⟨List.not_mem_nil, rfl, rfl⟩

theorem boot_holding (installed : Bool) (flsz : Nat) (pBuf flash : Mem) :
    Holding (d.boot installed flsz pBuf flash) := by
  unfold Device.boot
  split
  · refine enter_copying ?_ _ _ _ _
    show (if installed then FotaFlag.updateSuccess else .updateFailed) ≠ .imageIsReady
    cases installed <;> decide
  · next hno => exact enter_copying hno _ _ _ _

theorem Holding.isUp (h : Holding d) (hup : d.isUp) : Up d := by
  cases h with
  | copying hrun _ => exact absurd hup.1 hrun
  | rebooting h => exact absurd h.calls hup.2
  | up h => exact h

theorem Holding.writing (h : Holding d) (hw : d.writing.isSome) : Up d := by
  cases h with
  | copying _ h => exact absurd hw (by simp [h.writing])
  | rebooting h => exact absurd hw (by simp [h.writing])
  | up h => exact h

/-- **One step.** -/
theorem Holding.step (h : Holding d) (he : execDevice a d = some d') (halone : Alone ⟨d, a, d'⟩) :
    Holding d' := by
  cases a with
  | reply r cleared deleted =>
      obtain ⟨hgives, t, ht, rfl⟩ := execDevice_reply he
      have hat : d.fota.awaits ≠ .returned := by
        rw [(execFota_eq_some.mp ht).1.1]
        exact r.of_ne_returned
      cases h with
      | copying _ h => exact h.reply hgives ht
      | rebooting h => exact absurd h.awaits hat
      | up h => exact absurd h.isUp.1 hat
  | fileCreate ok =>
      obtain ⟨-, he⟩ := Option.ite_none_right_eq_some.mp he
      obtain rfl := Option.some.inj he
      exact .up ⟨halone, (h.isUp halone).flag⟩
  | fileWrite bs =>
      obtain ⟨valid, hw, rfl⟩ := Option.map_eq_some_iff.mp he
      have hup := h.writing (by rw [hw]; rfl)
      cases valid with
      | true => exact .up ⟨hup.isUp, hup.flag⟩
      | false => exact .up hup
  | fotaTest flsz pBuf =>
      obtain ⟨⟨hw, -⟩, he⟩ := Option.ite_none_right_eq_some.mp he
      obtain rfl := Option.some.inj he
      exact enter_copying (h.writing hw).flag _ _ _ _
  | boot installed flsz pBuf flash =>
      obtain rfl := Option.some.inj he
      exact boot_holding installed flsz pBuf flash

end Steps

/-! ## What is ready is whole -/

section Runs

variable {d d' : Device} {l : List (Run.Step DeviceAct Device)}

theorem Fresh.holding (h : Fresh d) : Holding d := by
  obtain ⟨flsz, pBuf, flash, hfota⟩ := h.fota
  have henter : d = d.enter d.byHandler flsz pBuf flash := by
    obtain ⟨flag, file, filePos, writing, fota, byHandler⟩ := d
    obtain rfl : filePos = 0 := h.filePos
    obtain rfl : writing = none := h.writing
    obtain rfl : fota = .start flsz pBuf flash := hfota
    rfl
  rw [henter]
  exact enter_copying h.flag _ _ _ _

theorem holding_run (h0 : Fresh d) (hr : Run.Runs execDevice d l d') (halone : ∀ e ∈ l, Alone e) :
    Holding d' :=
  (hr.invariant (I := Holding) (P := Alone) h0.holding (fun _ _ _ h he ha => h.step he ha)
    halone).1

/-- **What is ready is whole.**  However often power fails, whatever the calls return and however
many images there have been: where no file is created while another one is copied or waits for
the reboot, the flash begins with all of `fota.img` whenever the flag says that an image is
ready. -/
theorem ready_whole (h0 : Fresh d) (hr : Run.Runs execDevice d l d') (halone : ∀ e ∈ l, Alone e)
    (hready : d'.flag = .imageIsReady) :
    ∃ file, d'.file = some file ∧ d'.fota.flash.slice 0 file.length = file := by
  cases holding_run h0 hr halone with
  | copying _ h => exact absurd hready h.flag
  | up h => exact absurd hready h.flag
  | rebooting h => exact h.whole

/-- Out of the box: there is no file. -/
def newDevice : Device where
  flag := .clear
  file := none
  filePos := 0
  writing := none
  fota := .start 0 (fun _ => 0) fun _ => 0
  byHandler := false

theorem newDevice_fresh : Fresh newDevice := ⟨by decide, ⟨_, _, _, rfl⟩, rfl, rfl⟩

/-- A call of `Fota_test` with a file of two bytes, in which nothing fails. -/
def twoBytesCopied (flag : FotaFlag) : List DeviceAct :=
  [.flagGet (some flag), .fileCreate true, .fileSizeGet (some 2), .memAlloc true,
    .fileRead (some [0x41, 0x42]), .flashWrite (some 2), .imageCheck true,
    .flagSet true].map fun r => .reply r false false

/-- Two bytes are downloaded, and the power fails when one of them is in the flash. -/
def cutUpgrade : List DeviceAct :=
  [.reply (.flagGet (some .clear)) false false, .reply (.fileCreate false) false false,
    .fileCreate true, .fileWrite [0x41], .fileWrite [0x42], .fotaTest 0 fun _ => 0,
    .reply (.flagGet none) false false, .reply (.fileCreate true) false false,
    .reply (.fileSizeGet (some 2)) false false, .reply (.memAlloc true) false false,
    .reply (.fileRead (some [0x41])) false false, .reply (.flashWrite (some 1)) false false,
    .boot true 0 (fun _ => 0) fun _ => 0] ++ twoBytesCopied .clear

theorem cutUpgrade_whole :
    ∃ l d', Run.Runs execDevice newDevice l d' ∧ d'.flag = .imageIsReady ∧
      ∃ file, d'.file = some file ∧ d'.fota.flash.slice 0 file.length = file := by
  obtain ⟨l, d', hr, htest⟩ : ∃ l d', Run.Runs execDevice newDevice l d' ∧
      decide ((∀ e ∈ l, Alone e) ∧ d'.flag = .imageIsReady) = true :=
    Run.Runs.of_trace_test (l := cutUpgrade)
      (q := fun (l : List (Run.Step DeviceAct Device)) d' =>
        decide ((∀ e ∈ l, Alone e) ∧ d'.flag = .imageIsReady)) (by decide +kernel)
  obtain ⟨halone, hready⟩ := of_decide_eq_true htest
  exact ⟨l, d', hr, hready, ready_whole newDevice_fresh hr halone hready⟩

/-- The flag is set. -/
def DeviceAct.setsReady : DeviceAct → Bool
  | .reply (.flagSet true) _ _ => true
  | _ => false

/-- `Fota_test` is called. -/
def DeviceAct.enters : DeviceAct → Bool
  | .fotaTest _ _ | .boot _ _ _ _ => true
  | _ => false

theorem DeviceAct.eq_of_setsReady {a : DeviceAct} (h : a.setsReady = true) :
    ∃ cleared deleted, a = .reply (.flagSet true) cleared deleted := by
  unfold setsReady at h
  split at h
  · exact ⟨_, _, rfl⟩
  · exact absurd h Bool.false_ne_true

theorem Holding.rebooting_of_setsReady {a : DeviceAct} (h : Holding d) (hset : a.setsReady = true)
    (he : execDevice a d = some d') : Rebooting d' := by
  obtain ⟨cleared, deleted, rfl⟩ := DeviceAct.eq_of_setsReady hset
  obtain ⟨-, t, ht, rfl⟩ := execDevice_reply he
  have hat := (execFota_eq_some.mp ht).1.1
  cases h with
  | copying _ h => exact h.setReady ht
  | rebooting h => exact absurd (hat.symm.trans h.awaits) (by decide)
  | up h => exact absurd (hat.symm.trans h.isUp.1) (by decide)

/-- Behind a call of `Fota_test` its variables and the flash stay, until it is called again. -/
theorem fota_eq_of_returned {a : DeviceAct} (hat : d.fota.awaits = .returned)
    (hno : a.enters = false) (he : execDevice a d = some d') : d'.fota = d.fota := by
  cases a with
  | reply r cleared deleted =>
      obtain ⟨-, t, ht, -⟩ := execDevice_reply he
      exact absurd ((execFota_eq_some.mp ht).1.1.symm.trans hat) r.of_ne_returned
  | fileCreate ok =>
      obtain ⟨-, he⟩ := Option.ite_none_right_eq_some.mp he
      obtain rfl := Option.some.inj he
      rfl
  | fileWrite bs =>
      obtain ⟨valid, -, rfl⟩ := Option.map_eq_some_iff.mp he
      cases valid <;> rfl
  | fotaTest flsz pBuf => exact absurd hno.symm Bool.false_ne_true
  | boot installed flsz pBuf flash => exact absurd hno.symm Bool.false_ne_true

/-- **What was copied stays in the flash**, from the time that the flag is set until `Fota_test` is
called again, whatever becomes of `fota.img` meanwhile. -/
theorem ready_keeps {l₁ l₂ : List (Run.Step DeviceAct Device)} {e : Run.Step DeviceAct Device}
    (h0 : Fresh d) (hr : Run.Runs execDevice d (l₁ ++ [e] ++ l₂) d') (halone : ∀ e ∈ l₁, Alone e)
    (hset : e.act.setsReady = true) (hrest : ∀ e ∈ l₂, e.act.enters = false) :
    ∃ file, e.post.file = some file ∧ d'.fota.flash.slice 0 file.length = file := by
  obtain ⟨y, hr₁, hr₂⟩ := hr.split rfl
  obtain ⟨hbefore, he, rfl⟩ := hr₁.of_snoc
  have hready := (holding_run h0 hbefore halone).rebooting_of_setsReady hset he
  have hkeep : d'.fota = e.post.fota :=
    (hr₂.invariant (I := fun d => d.fota = e.post.fota) (P := fun e => e.act.enters = false) rfl
      (fun _ _ _ h he hno => (fota_eq_of_returned (h ▸ hready.awaits) hno he).trans h) hrest).1
  rw [hkeep]
  exact hready.whole

/-- A file that is created in the three seconds before the reboot is not the one in the flash. -/
example : ∃ l d', Run.Runs execDevice newDevice l d' ∧ d'.flag = .imageIsReady ∧
    d'.file = some [0x43] ∧ d'.fota.flash.slice 0 1 = [0x41] := by
  obtain ⟨l, d', hr, htest⟩ : ∃ l d', Run.Runs execDevice newDevice l d' ∧
      decide (d'.flag = .imageIsReady ∧ d'.file = some [0x43] ∧
        d'.fota.flash.slice 0 1 = [0x41]) = true :=
    Run.Runs.of_trace_test
      (l := cutUpgrade.take 6 ++ twoBytesCopied .clear ++ [.fileCreate true, .fileWrite [0x43]])
      (q := fun _ (d' : Device) => decide (d'.flag = .imageIsReady ∧ d'.file = some [0x43] ∧
        d'.fota.flash.slice 0 1 = [0x41])) (by decide +kernel)
  exact ⟨l, d', hr, of_decide_eq_true htest⟩

/-! ## What is ready again -/

/-- `fota.img` is created. -/
def DeviceAct.creates : DeviceAct → Bool
  | .fileCreate true => true
  | _ => false

/-- `Fota_test` does not find the flag of an installation that has succeeded, or it cannot delete
the file. -/
def DeviceAct.leaves : DeviceAct → Bool
  | .reply (.flagGet flag) _ deleted => !(decide (flag = some .updateSuccess) && deleted)
  | _ => false

/-- What `Fota_test` holds open is there. -/
def Opened (d : Device) : Prop := d.fota.awaits.hasFile → d.file.isSome

theorem Opened.step {a : DeviceAct} (h : Opened d) (he : execDevice a d = some d') :
    Opened d' := by
  cases a with
  | reply r cleared deleted =>
      obtain ⟨hgives, t, ht, rfl⟩ := execDevice_reply he
      intro hopen
      show (d.called r cleared deleted).file.isSome
      by_cases hget : ∃ flag, r = .flagGet flag
      · obtain ⟨flag, rfl⟩ := hget
        obtain ⟨-, rfl⟩ := execFota_eq_some.mp ht
        exact absurd hopen id
      · rw [called_file fun flag hf => hget ⟨flag, hf⟩]
        rcases hasFile_goOn ht hopen with rfl | hopen
        · exact hgives
        · exact h hopen
  | fileCreate ok =>
      obtain ⟨-, he⟩ := Option.ite_none_right_eq_some.mp he
      obtain rfl := Option.some.inj he
      intro hopen
      cases ok with
      | true => rfl
      | false => exact h hopen
  | fileWrite bs =>
      obtain ⟨valid, -, rfl⟩ := Option.map_eq_some_iff.mp he
      cases valid with
      | true => exact fun hopen => (Option.isSome_map ..).trans (h hopen)
      | false => exact h
  | fotaTest flsz pBuf =>
      obtain ⟨-, he⟩ := Option.ite_none_right_eq_some.mp he
      obtain rfl := Option.some.inj he
      exact fun hopen => absurd hopen id
  | boot installed flsz pBuf flash =>
      obtain rfl := Option.some.inj he
      unfold Device.boot
      split <;> exact fun hopen => absurd hopen id

/-- The file is gone, or will be before it is opened. -/
def Gone (d : Device) : Prop :=
  d.fota.awaits = .returned ∨ d.fota.awaits = .flagGet ∨ d.file = none

theorem Gone.step {a : DeviceAct} (h : Gone d) (hno : a.creates = false)
    (hdel : a.leaves = false) (he : execDevice a d = some d') : Gone d' := by
  cases a with
  | boot installed flsz pBuf flash =>
      obtain rfl := Option.some.inj he
      refine .inr (.inl ?_)
      unfold Device.boot
      split <;> rfl
  | reply r cleared deleted =>
      obtain ⟨-, t, ht, rfl⟩ := execDevice_reply he
      obtain ⟨hat, -⟩ := (execFota_eq_some.mp ht).1
      refine .inr (.inr ?_)
      by_cases hget : ∃ flag, r = .flagGet flag
      · obtain ⟨flag, rfl⟩ := hget
        have hdel : (!(decide (flag = some .updateSuccess) && deleted)) = false := hdel
        rw [Bool.not_eq_false', Bool.and_eq_true, decide_eq_true_eq] at hdel
        obtain ⟨rfl, rfl⟩ := hdel
        rfl
      · have hget : ∀ flag, r ≠ .flagGet flag := fun flag hf => hget ⟨flag, hf⟩
        show (d.called r cleared deleted).file = none
        rw [called_file hget]
        rcases h with h | h | h
        · exact absurd (hat.symm.trans h) r.of_ne_returned
        · have hof : r.of = .flagGet := hat.symm.trans h
          cases r with
          | flagGet flag => exact absurd rfl (hget flag)
          | _ => exact Awaits.noConfusion hof
        · exact h
  | fileCreate ok =>
      obtain ⟨-, he⟩ := Option.ite_none_right_eq_some.mp he
      obtain rfl := Option.some.inj he
      cases ok with
      | true => exact absurd hno (by decide)
      | false => exact h
  | fileWrite bs =>
      obtain ⟨valid, -, rfl⟩ := Option.map_eq_some_iff.mp he
      cases valid with
      | true =>
          refine h.imp id (Or.imp id fun h => ?_)
          show d.file.map (· ++ bs) = none
          rw [h]
          rfl
      | false => exact h
  | fotaTest flsz pBuf =>
      obtain ⟨-, he⟩ := Option.ite_none_right_eq_some.mp he
      obtain rfl := Option.some.inj he
      exact .inr (.inl rfl)

/-- Nothing is made ready while it is gone. -/
theorem Gone.not_setsReady {a : DeviceAct} (hopened : Opened d) (h : Gone d)
    (he : execDevice a d = some d') : a.setsReady = false := by
  by_contra hset
  obtain ⟨cleared, deleted, rfl⟩ := DeviceAct.eq_of_setsReady (Bool.not_eq_false _ ▸ hset)
  obtain ⟨-, t, ht, -⟩ := execDevice_reply he
  have hat : d.fota.awaits = .flagSet := (execFota_eq_some.mp ht).1.1
  rcases h with h | h | h
  · exact absurd (hat.symm.trans h) (by decide)
  · exact absurd (hat.symm.trans h) (by decide)
  · have hfile := hopened (by rw [hat]; trivial)
    exact absurd hfile (by simp [h])

theorem returned_of_setsReady {a : DeviceAct} (hset : a.setsReady = true)
    (he : execDevice a d = some d') : d'.fota.awaits = .returned := by
  obtain ⟨cleared, deleted, rfl⟩ := DeviceAct.eq_of_setsReady hset
  obtain ⟨-, t, ht, rfl⟩ := execDevice_reply he
  obtain ⟨-, rfl⟩ := execFota_eq_some.mp ht
  rfl

theorem Fresh.opened (h : Fresh d) : Opened d := by
  obtain ⟨flsz, pBuf, flash, hfota⟩ := h.fota
  intro hopen
  rw [hfota] at hopen
  exact absurd hopen id

/-- **What is ready again.**  Between two times that `FOTA_IMAGE_IS_READY` is set, and so between
two reboots for an upgrade, a new `fota.img` is created, or `Fota_test` begins without the flag of
an installation that has succeeded or cannot delete the file: however often power fails. -/
theorem ready_again {l₁ l₂ : List (Run.Step DeviceAct Device)} {e₁ e₂ : Run.Step DeviceAct Device}
    (h0 : Fresh d) (hr : Run.Runs execDevice d (l₁ ++ [e₁] ++ (l₂ ++ [e₂])) d')
    (h₁ : e₁.act.setsReady = true) (h₂ : e₂.act.setsReady = true) :
    ∃ e ∈ l₂, e.act.creates = true ∨ e.act.leaves = true := by
  obtain ⟨y, hr₁, hr₂⟩ := hr.split rfl
  obtain ⟨hbefore, he₁, rfl⟩ := hr₁.of_snoc
  obtain ⟨hbetween, he₂, rfl⟩ := hr₂.of_snoc
  by_contra hnone
  have hopened : Opened e₁.post :=
    (hr₁.invariant (I := Opened) (P := fun _ => True) h0.opened (fun _ _ _ h he _ => h.step he)
      fun _ _ => trivial).1
  obtain ⟨⟨hopened', hgone⟩, -⟩ := hbetween.invariant (I := fun d => Opened d ∧ Gone d)
    (P := fun e => e.act.creates = false ∧ e.act.leaves = false)
    ⟨hopened, .inl (returned_of_setsReady h₁ he₁)⟩
    (fun _ _ _ h he hP => ⟨h.1.step he, h.2.step hP.1 hP.2 he⟩) fun e he => by
      rw [← Bool.not_eq_true, ← Bool.not_eq_true]
      exact not_or.mp fun hor => hnone ⟨e, he, hor⟩
  exact absurd (h₂.symm.trans (hgone.not_setsReady hopened' he₂)) (by decide)

/-- The image is not installed, and made ready a second time. -/
theorem cutUpgrade_readyAgain :
    ∃ l₁ e₁ l₂ e₂ d', Run.Runs execDevice newDevice (l₁ ++ [e₁] ++ (l₂ ++ [e₂])) d' ∧
      e₁.act.setsReady = true ∧ e₂.act.setsReady = true ∧
        ∃ e ∈ l₂, e.act.creates = true ∨ e.act.leaves = true := by
  obtain ⟨l, d', hr, htest⟩ : ∃ l d', Run.Runs execDevice newDevice l d' ∧
      ((l.drop 20).head?.any (fun e => e.act.setsReady) &&
        (l.drop 20).tail.getLast?.any fun e => e.act.setsReady) = true :=
    Run.Runs.of_trace_test
      (l := cutUpgrade ++ .boot false 0 (fun _ => 0) (fun _ => 0) :: twoBytesCopied .updateFailed)
      (q := fun (l : List (Run.Step DeviceAct Device)) _ =>
        (l.drop 20).head?.any (fun e => e.act.setsReady) &&
          (l.drop 20).tail.getLast?.any fun e => e.act.setsReady) (by decide +kernel)
  rw [Bool.and_eq_true, Option.any_eq_true, Option.any_eq_true] at htest
  obtain ⟨⟨e₁, hhead, h₁⟩, e₂, hlast, h₂⟩ := htest
  obtain ⟨rest, hrest⟩ := List.head?_eq_some_iff.mp hhead
  rw [hrest] at hlast
  obtain ⟨l₂, hl₂⟩ := List.getLast?_eq_some_iff.mp hlast
  have hl : l = l.take 20 ++ [e₁] ++ (l₂ ++ [e₂]) := by
    rw [← hl₂, List.append_assoc, List.singleton_append, List.tail_cons, ← hrest,
      List.take_append_drop]
  rw [hl] at hr
  exact ⟨_, e₁, l₂, e₂, d', hr, h₁, h₂, ready_again newDevice_fresh hr h₁ h₂⟩

end Runs

/-! ## An installation that fails -/

/-- A call succeeds. -/
def Reply.succeeds : Reply → Bool
  | .flagGet r => r.isSome
  | .fileSizeGet r => r.isSome
  | .fileRead r => r.isSome
  | .flashWrite r => r.isSome
  | .fileCreate ok | .memAlloc ok | .imageCheck ok | .flagSet ok => ok

/-- Nothing fails but the installation of an image that is ready, and no image is downloaded. -/
def OnlyInstallFails (e : Run.Step DeviceAct Device) : Prop :=
  match e.act with
  | .reply r _ _ => r.succeeds = true
  | .boot installed _ _ _ => e.pre.flag = .imageIsReady ∧ installed = false
  | .fileCreate _ | .fileWrite _ | .fotaTest _ _ => False

/-- `n` images are made ready in between. -/
def Retries (n : Nat) (d d' : Device) : Prop :=
  ∃ l, Run.Runs execDevice d l d' ∧ (∀ e ∈ l, OnlyInstallFails e) ∧
    l.countP (fun e => e.act.setsReady) = n

section Retries

variable {d d' d'' : Device} {file : List UInt8} {k m n : Nat}

theorem Retries.refl (d : Device) : Retries 0 d d :=
  ⟨[], .nil, fun _ he => absurd he List.not_mem_nil, rfl⟩

theorem Retries.trans (h₁ : Retries m d d') (h₂ : Retries n d' d'') : Retries (m + n) d d'' := by
  obtain ⟨l₁, hr₁, hl₁, rfl⟩ := h₁
  obtain ⟨l₂, hr₂, hl₂, rfl⟩ := h₂
  refine ⟨l₁ ++ l₂, hr₁.append hr₂, fun e he => ?_, List.countP_append⟩
  rcases List.mem_append.mp he with he | he
  · exact hl₁ e he
  · exact hl₂ e he

theorem Retries.step {a : DeviceAct} (h : Retries n d d') (he : execDevice a d' = some d'')
    (ha : OnlyInstallFails ⟨d', a, d''⟩) :
    Retries (n + if a.setsReady then 1 else 0) d d'' := by
  refine h.trans ⟨[⟨d', a, d''⟩], Run.Runs.nil.snoc he, fun e hmem => ?_, ?_⟩
  · obtain rfl := List.mem_singleton.mp hmem
    exact ha
  · exact List.countP_singleton

/-- A call of `Fota_test` succeeds. -/
theorem Retries.reply {r : Reply} {t : FotaTest} (h : Retries n d d')
    (hgives : d'.gives r) (he : execFota r d'.fota = some t) (hr : r.succeeds = true)
    (hset : r ≠ .flagSet true) :
    Retries n d { d'.called r false false with fota := t } := by
  have hstep : execDevice (.reply r false false) d'
      = some { d'.called r false false with fota := t } := by
    show (if d'.gives r then (execFota r d'.fota).map fun s =>
      { d'.called r false false with fota := s } else none) = _
    rw [if_pos hgives, he]
    rfl
  have hno : (DeviceAct.reply r false false).setsReady = false := by
    unfold DeviceAct.setsReady
    split
    · next heq => exact absurd (DeviceAct.reply.inj heq).1 hset
    · rfl
  have hall := h.step hstep hr
  rwa [hno] at hall

/-- The head of the copy loop, when `k` bytes have been read and written. -/
structure AtHead (file : List UInt8) (k : Nat) (d : Device) : Prop where
  fota : ∃ s, d.fota = loopHead s ∧ s.offset = k ∧ s.flsz = file.length
  file : d.file = some file
  filePos : d.filePos = k

/-- Once around the loop. -/
theorem AtHead.block (h : AtHead file k d) (hk : k < file.length)
    (hsize : file.length < 4294967296) :
    ∃ k' d', k < k' ∧ k' ≤ file.length ∧ Retries 0 d d' ∧ d'.flag = d.flag ∧
      AtHead file k' d' := by
  obtain ⟨s, hfota, hoffset, hflsz⟩ := h.fota
  obtain ⟨toRead, htoRead, hread⟩ : ∃ toRead, 0 < toRead ∧
      d.fota = { s with toRead := toRead, awaits := .fileRead } := by
    rw [hfota, loopHead, if_pos (by rw [hoffset, hflsz]; exact hk)]
    refine ⟨_, ?_, rfl⟩
    split
    · decide
    · rw [sub32_of_le (by omega)]
      omega
  have hlen : ((file.drop k).take toRead).length = min toRead (file.length - k) := by
    rw [List.length_take, List.length_drop]
  obtain ⟨bs, hbs⟩ : ∃ bs, bs = (file.drop k).take toRead := ⟨_, rfl⟩
  rw [← hbs] at hlen
  have hgives : d.gives (.fileRead (some bs)) := by
    show bs <+: (d.file.getD []).drop d.filePos
    rw [h.file, h.filePos, hbs]
    exact List.take_prefix _ _
  have hfirst : execFota (.fileRead (some bs)) d.fota = some (fileRead (some bs) d.fota) := by
    refine execFota_eq_some.mpr ⟨⟨by rw [hread]; rfl, ?_⟩, rfl⟩
    show bs.length ≤ d.fota.toRead
    rw [hread, hlen]
    exact Nat.min_le_left _ _
  have h₁ := (Retries.refl d).reply hgives hfirst rfl (by simp)
  have hsecond : execFota (.flashWrite (some bs.length)) (fileRead (some bs) d.fota)
      = some (flashWrite (some bs.length) (fileRead (some bs) d.fota)) :=
    execFota_eq_some.mpr ⟨⟨rfl, Nat.le_refl _⟩, rfl⟩
  have h₂ := h₁.reply (r := .flashWrite (some bs.length)) trivial hsecond rfl (by simp)
  refine ⟨k + bs.length, _, by omega, by omega, h₂, rfl, ⟨?_, h.file, ?_⟩⟩
  · have hsum : add32 d.fota.offset bs.length = k + bs.length := by
      rw [hread]
      show add32 s.offset bs.length = _
      rw [hoffset, add32_of_lt (by omega)]
    refine ⟨_, if_pos rfl, hsum, ?_⟩
    show d.fota.flsz = file.length
    rw [hread]
    exact hflsz
  · exact congrArg (· + bs.length) h.filePos

/-- All around it. -/
theorem AtHead.copy (hsize : file.length < 4294967296) (h : AtHead file k d)
    (hk : k ≤ file.length) :
    ∃ d', Retries 0 d d' ∧ d'.fota.awaits = .imageCheck ∧ d'.file = some file ∧
      d'.flag = d.flag := by
  generalize hrest : file.length - k = rest
  induction rest using Nat.strong_induction_on generalizing k d with
  | _ rest ih =>
      by_cases hend : k < file.length
      · obtain ⟨k', d', hlt, hle, hblock, hflag, hhead⟩ := h.block hend hsize
        obtain ⟨d'', hcopy, hat, hfile, hflag'⟩ :=
          ih (file.length - k') (by omega) hhead hle rfl
        exact ⟨d'', hblock.trans hcopy, hat, hfile, hflag'.trans hflag⟩
      · obtain ⟨s, hfota, hoffset, hflsz⟩ := h.fota
        refine ⟨d, .refl d, ?_, h.file, rfl⟩
        rw [hfota, loopHead, if_neg (by rw [hoffset, hflsz]; exact hend)]

/-- After an installation that has failed, `Fota_test` finds the file as it was. -/
theorem Fresh.opens (h0 : Fresh d) (hflag : d.flag = .updateFailed) (hfile : d.file = some file)
    (hne : file ≠ []) (hsize : file.length < 4294967296) :
    ∃ d', Retries 0 d d' ∧ AtHead file 0 d' := by
  obtain ⟨flsz, pBuf, flash, hfota⟩ := h0.fota
  have h₁ := (Retries.refl d).reply (r := .flagGet (some .updateFailed)) hflag.symm
    (execFota_eq_some.mpr ⟨⟨by rw [hfota]; rfl, trivial⟩, rfl⟩) rfl (by simp)
  have hopen : d.file.isSome := by
    rw [hfile]
    rfl
  have h₂ := h₁.reply (r := .fileCreate true) hopen
    (execFota_eq_some.mpr ⟨⟨rfl, trivial⟩, rfl⟩) rfl (by simp)
  have hlen : file.length = (d.file.getD []).length := by
    rw [hfile]
    rfl
  have h₃ := h₂.reply (r := .fileSizeGet (some file.length)) hlen
    (execFota_eq_some.mpr ⟨⟨rfl, hsize⟩, rfl⟩) rfl (by simp)
  have hsome : file.length ≠ 0 := fun h => hne (List.length_eq_zero_iff.mp h)
  have hgoes {s : FotaTest} : fileSizeGet (some file.length) s
      = { s with flsz := file.length, awaits := .memAlloc } := if_neg hsome
  have h₄ := h₃.reply (r := .memAlloc true) trivial
    (execFota_eq_some.mpr ⟨⟨congrArg FotaTest.awaits hgoes, trivial⟩, rfl⟩) rfl (by simp)
  refine ⟨_, h₄, ⟨_, rfl, ?_, ?_⟩, hfile, rfl⟩
  · refine (congrArg FotaTest.offset hgoes).trans ?_
    rw [hfota]
    rfl
  · exact congrArg FotaTest.flsz hgoes

/-- The image is made ready, and is not installed, once more. -/
theorem Fresh.retry (h0 : Fresh d) (hflag : d.flag = .updateFailed) (hfile : d.file = some file)
    (hne : file ≠ []) (hsize : file.length < 4294967296) :
    ∃ d', Retries 1 d d' ∧ Fresh d' ∧ d'.flag = .updateFailed ∧ d'.file = some file := by
  obtain ⟨d₁, hopens, hhead⟩ := h0.opens hflag hfile hne hsize
  obtain ⟨d₂, hcopy, hat, hfile₂, -⟩ := hhead.copy hsize (Nat.zero_le _)
  have hchecked := (hopens.trans hcopy).reply (r := .imageCheck true) trivial
    (execFota_eq_some.mpr ⟨⟨hat, trivial⟩, rfl⟩) rfl (by simp)
  have hset := hchecked.step (a := .reply (.flagSet true) false false) rfl rfl
  have hboot := hset.step (a := .boot false 0 (fun _ => 0) fun _ => 0) rfl ⟨rfl, rfl⟩
  exact ⟨_, hboot, ⟨fun hc => FotaFlag.noConfusion hc, ⟨_, _, _, rfl⟩, rfl, rfl⟩, rfl, hfile₂⟩

/-- **An installation that fails is tried again, without end.**  The flag of an installation that
has failed is not cleared, and the file is not deleted: with nothing else that fails, and nothing
downloaded, the device makes the same image ready as often as there is time for. -/
theorem failed_again (h0 : Fresh d) (hflag : d.flag = .updateFailed) (hfile : d.file = some file)
    (hne : file ≠ []) (hsize : file.length < 4294967296) (n : Nat) :
    ∃ d', Retries n d d' ∧ Fresh d' ∧ d'.flag = .updateFailed ∧ d'.file = some file := by
  induction n with
  | zero => exact ⟨d, .refl d, h0, hflag, hfile⟩
  | succ n ih =>
      obtain ⟨d₁, htried, hfresh, hflag₁, hfile₁⟩ := ih
      obtain ⟨d₂, hretry, hafter⟩ := hfresh.retry hflag₁ hfile₁ hne hsize
      exact ⟨d₂, htried.trans hretry, hafter⟩

theorem twoBytes_failedAgain :
    ∃ d', Retries 2 { newDevice with flag := .updateFailed, file := some [0x41, 0x42] } d' ∧
      Fresh d' ∧ d'.flag = .updateFailed ∧ d'.file = some [0x41, 0x42] :=
  failed_again ⟨by decide, ⟨_, _, _, rfl⟩, rfl, rfl⟩ rfl rfl (by decide) (by decide) 2

end Retries

end IntercomSalve.Fota
