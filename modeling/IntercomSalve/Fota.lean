/-
# `Fota` — the upgrade at boot (`fota_test.c`)

`Fota_test` runs first after every start.  It copies the file `fota.img` to the flash,
block by block through a buffer of `BUF_SIZE` bytes, has the image checked, sets
`FOTA_IMAGE_IS_READY` and reboots.  A read and a write may do less than they are asked to: the
inner loop writes until the block is through, the outer one reads until the size that was asked
for at the start is reached.

The calls into the platform are the steps of a machine, and their results are its actions; a
step runs from the result of one call to the next call.  `calls` is not in the source: the
calls that open, close and set something, in order.  `KING_PowerReboot` is one of them, and
the function returns behind it.

What is opened is closed, and what is allocated is freed, on few of the ways out
(`leakFree_iff`).
-/
import IntercomSalve.Lib.Mem
import IntercomSalve.State

namespace IntercomSalve.Fota

/-- `a + b` in `uint32`. -/
def add32 (a b : Nat) : Nat := (a + b) % 4294967296

theorem add32_of_lt {a b : Nat} (h : a + b < 4294967296) : add32 a b = a + b := Nat.mod_eq_of_lt h

/-- `BUF_SIZE`. -/
def bufSize : Nat := 512

/-- `FOTA_FLAG_E`. -/
inductive FotaFlag where
  | clear
  | imageIsPartial
  | imageIsReady
  | updateSuccess
  | updateFailed
  deriving DecidableEq

/-- The calls that leave something behind. -/
inductive FotaCall where
  | flagSet (flag : FotaFlag)
  | fileDelete
  /-- `KING_FsFileCreate` has given a handle -/
  | opened
  | closeHandle
  /-- `KING_MemAlloc` has given a buffer -/
  | allocated
  | memFree
  | powerReboot
  deriving DecidableEq

/-- The call whose result `Fota_test` waits for. -/
inductive Awaits where
  | flagGet
  | fileCreate
  | fileSizeGet
  | memAlloc
  | fileRead
  | flashWrite
  | imageCheck
  | flagSet
  /-- none: it has returned -/
  | returned
  deriving DecidableEq

/-- The locals of `Fota_test`, the buffer and the flash. -/
structure FotaTest where
  flsz : Nat
  offset : Nat
  toRead : Nat
  bytesRead : Nat
  bytesWr : Nat
  idx : Nat
  pBuf : Mem
  flash : Mem
  calls : List FotaCall
  awaits : Awaits

/-- `Fota_test` is called; `flsz` and the buffer hold anything. -/
def FotaTest.start (flsz : Nat) (pBuf flash : Mem) : FotaTest :=
  ⟨flsz, 0, 0, 0, 0, 0, pBuf, flash, [], .flagGet⟩

/-- `return`. -/
def FotaTest.leave (s : FotaTest) : FotaTest := { s with awaits := .returned }

/-- A call that leaves something behind. -/
def FotaTest.call (c : FotaCall) (s : FotaTest) : FotaTest := { s with calls := s.calls ++ [c] }

/-! ## The parts of `Fota_test` -/

/-- Behind `KING_FotaFlagGet`: the flag of a finished upgrade is cleared. -/
def flagGet (r : Option FotaFlag) (s : FotaTest) : FotaTest :=
  let s := if r = some .updateSuccess then (s.call (.flagSet .clear)).call .fileDelete else s
  { s with awaits := .fileCreate }

/-- Behind `KING_FsFileCreate`. -/
def fileCreate (ok : Bool) (s : FotaTest) : FotaTest :=
  if ok then { s.call .opened with awaits := .fileSizeGet } else s.leave

/-- Behind `KING_FsFileSizeGet`. -/
def fileSizeGet (r : Option Nat) (s : FotaTest) : FotaTest :=
  match r with
  | none => (s.call .closeHandle).leave
  | some flsz =>
      let s := { s with flsz := flsz }
      if flsz = 0 then s.leave else { s with awaits := .memAlloc }

/-- `while (offset < flsz)`, as far as the read. -/
def loopHead (s : FotaTest) : FotaTest :=
  if s.offset < s.flsz then
    { s with
      toRead := if add32 s.offset bufSize < s.flsz then bufSize else sub32 s.flsz s.offset
      awaits := .fileRead }
  else { s.call .closeHandle with awaits := .imageCheck }

/-- Behind `KING_MemAlloc`. -/
def memAlloc (ok : Bool) (s : FotaTest) : FotaTest :=
  if ok then loopHead (s.call .allocated) else (s.call .closeHandle).leave

/-- Behind `KING_FsFileRead`, and into the inner loop. -/
def fileRead (r : Option (List UInt8)) (s : FotaTest) : FotaTest :=
  match r with
  | none => ((s.call .closeHandle).call .memFree).leave
  | some bs =>
      { s with
        pBuf := s.pBuf.memcpy 0 (Mem.ofList bs) bs.length
        bytesRead := bs.length
        idx := 0
        awaits := .flashWrite }

/-- Behind `KING_FotaFlashWrite (offset, pBuf + idx, bytesRead, &bytesWr)`. -/
def flashWrite (r : Option Nat) (s : FotaTest) : FotaTest :=
  match r with
  | none => (s.call .closeHandle).leave
  | some bytesWr =>
      let s := { s with
        flash := s.flash.memcpy s.offset (s.pBuf.ptr s.idx) bytesWr
        bytesWr := bytesWr }
      if bytesWr = s.bytesRead then loopHead { s with offset := add32 s.offset bytesWr }
      else
        { s with
          offset := add32 s.offset bytesWr
          bytesRead := sub32 s.bytesRead bytesWr
          idx := add32 s.idx bytesWr }

/-- Behind `KING_FotaImageCheck`. -/
def imageCheck (ok : Bool) (s : FotaTest) : FotaTest :=
  if ok then { s with awaits := .flagSet } else s.leave

/-- Behind `KING_FotaFlagSet (FOTA_IMAGE_IS_READY)`. -/
def flagSet (ok : Bool) (s : FotaTest) : FotaTest :=
  let s := s.call (.flagSet .imageIsReady)
  if ok then (s.call .powerReboot).leave else s.leave

/-! ## The machine -/

/-- What a call gives back: `none` or `false` when it fails. -/
inductive Reply where
  | flagGet (r : Option FotaFlag)
  | fileCreate (ok : Bool)
  | fileSizeGet (r : Option Nat)
  | memAlloc (ok : Bool)
  | fileRead (r : Option (List UInt8))
  | flashWrite (r : Option Nat)
  | imageCheck (ok : Bool)
  | flagSet (ok : Bool)
  deriving DecidableEq

/-- What the file and flash interface allows: the size is a `uint32`, and no more is read or
written than was asked for. -/
def Allowed (s : FotaTest) : Reply → Prop
  | .fileSizeGet (some flsz) => flsz < 4294967296
  | .fileRead (some bs) => bs.length ≤ s.toRead
  | .flashWrite (some bytesWr) => bytesWr ≤ s.bytesRead
  | _ => True

instance (s : FotaTest) (r : Reply) : Decidable (Allowed s r) := by
  unfold Allowed
  split <;> infer_instance

/-- The call that a result is of. -/
def Reply.of : Reply → Awaits
  | .flagGet _ => .flagGet
  | .fileCreate _ => .fileCreate
  | .fileSizeGet _ => .fileSizeGet
  | .memAlloc _ => .memAlloc
  | .fileRead _ => .fileRead
  | .flashWrite _ => .flashWrite
  | .imageCheck _ => .imageCheck
  | .flagSet _ => .flagSet

theorem Reply.of_ne_returned (r : Reply) : r.of ≠ .returned := by
  cases r <;> simp [Reply.of]

/-- From a result to the next call. -/
def goOn : Reply → FotaTest → FotaTest
  | .flagGet r => flagGet r
  | .fileCreate ok => fileCreate ok
  | .fileSizeGet r => fileSizeGet r
  | .memAlloc ok => memAlloc ok
  | .fileRead r => fileRead r
  | .flashWrite r => flashWrite r
  | .imageCheck ok => imageCheck ok
  | .flagSet ok => flagSet ok

/-- The machine. -/
def execFota (r : Reply) (s : FotaTest) : Option FotaTest :=
  if s.awaits = r.of ∧ Allowed s r then some (goOn r s) else none

theorem execFota_eq_some {r : Reply} {s t : FotaTest} :
    execFota r s = some t ↔ (s.awaits = r.of ∧ Allowed s r) ∧ goOn r s = t := by
  unfold execFota
  rw [Option.ite_none_right_eq_some, Option.some.injEq]

/-! ## Handles and buffers -/

/-- The call is about a handle or a buffer. -/
def FotaCall.holds : FotaCall → Bool
  | .opened | .closeHandle | .allocated | .memFree => true
  | .flagSet _ | .fileDelete | .powerReboot => false

/-- The calls about the handle and the buffer. -/
def held (s : FotaTest) : List FotaCall := s.calls.filter FotaCall.holds

/-- What was opened has been closed once, and what was allocated has been freed once. -/
structure LeakFree (calls : List FotaCall) : Prop where
  closed : .opened ∈ calls → calls.count .closeHandle = 1
  freed : .allocated ∈ calls → calls.count .memFree = 1

instance (calls : List FotaCall) : Decidable (LeakFree calls) :=
  decidable_of_iff ((.opened ∈ calls → calls.count .closeHandle = 1) ∧
      (.allocated ∈ calls → calls.count .memFree = 1))
    ⟨fun h => ⟨h.1, h.2⟩, fun h => ⟨h.closed, h.freed⟩⟩

/-- Only the calls about the two matter. -/
theorem leakFree_filter {calls : List FotaCall} :
    LeakFree (calls.filter FotaCall.holds) ↔ LeakFree calls := by
  have hopened : .opened ∈ calls.filter FotaCall.holds ↔ .opened ∈ calls := by
    exact List.mem_filter.trans (and_iff_left rfl)
  have hallocated : .allocated ∈ calls.filter FotaCall.holds ↔ .allocated ∈ calls := by
    exact List.mem_filter.trans (and_iff_left rfl)
  have hclosed : (calls.filter FotaCall.holds).count .closeHandle = calls.count .closeHandle :=
    List.count_filter rfl
  have hfreed : (calls.filter FotaCall.holds).count .memFree = calls.count .memFree :=
    List.count_filter rfl
  constructor
  · intro h
    exact ⟨fun ho => hclosed ▸ h.closed (hopened.mpr ho),
      fun ha => hfreed ▸ h.freed (hallocated.mpr ha)⟩
  · intro h
    exact ⟨fun ho => hclosed.trans (h.closed (hopened.mp ho)),
      fun ha => hfreed.trans (h.freed (hallocated.mp ha))⟩

/-- The result leads to a way out that cleans up: no file, no size, no memory, or a failed
read. -/
def cleansUp : Reply → Bool
  | .fileCreate false | .fileSizeGet none | .memAlloc false | .fileRead none => true
  | _ => false

/-- What is held where; the flag says whether one of those results has come. -/
inductive Holds : Bool → Awaits → List FotaCall → Prop
  | flagGet : Holds false .flagGet []
  | fileCreate : Holds false .fileCreate []
  | fileSizeGet : Holds false .fileSizeGet [.opened]
  | memAlloc : Holds false .memAlloc [.opened]
  | fileRead : Holds false .fileRead [.opened, .allocated]
  | flashWrite : Holds false .flashWrite [.opened, .allocated]
  | imageCheck : Holds false .imageCheck [.opened, .allocated, .closeHandle]
  | flagSet : Holds false .flagSet [.opened, .allocated, .closeHandle]
  /-- there is no file -/
  | missing : Holds true .returned []
  /-- there is no size, or no memory -/
  | closed : Holds true .returned [.opened, .closeHandle]
  /-- a read has failed -/
  | freed : Holds true .returned [.opened, .allocated, .closeHandle, .memFree]
  /-- the file is empty -/
  | empty : Holds false .returned [.opened]
  /-- a write has failed, or the copy is through -/
  | kept : Holds false .returned [.opened, .allocated, .closeHandle]

theorem held_call_of_holds {c : FotaCall} {s : FotaTest} (h : c.holds = true) :
    held (s.call c) = held s ++ [c] := by
  simp [held, FotaTest.call, h]

theorem held_call_of_not {c : FotaCall} {s : FotaTest} (h : c.holds = false) :
    held (s.call c) = held s := by
  simp [held, FotaTest.call, h]

/-- The head of the loop with the handle open and the buffer allocated. -/
theorem holds_loopHead {s : FotaTest} (h : held s = [.opened, .allocated]) :
    Holds false (loopHead s).awaits (held (loopHead s)) := by
  unfold loopHead
  split
  · show Holds false .fileRead (held s)
    rw [h]
    exact .fileRead
  · show Holds false .imageCheck (held (s.call .closeHandle))
    rw [held_call_of_holds rfl, h]
    exact .imageCheck

/-- Inside the loop. -/
theorem holds_flashWrite {r : Option Nat} {s : FotaTest} (hat : s.awaits = .flashWrite)
    (h : held s = [.opened, .allocated]) :
    Holds false (flashWrite r s).awaits (held (flashWrite r s)) := by
  cases r with
  | none =>
      show Holds false .returned (held (s.call .closeHandle))
      rw [held_call_of_holds rfl, h]
      exact .kept
  | some n =>
      unfold flashWrite
      dsimp only
      split
      · exact holds_loopHead h
      · show Holds false s.awaits (held s)
        rw [hat, h]
        exact .flashWrite

/-- One step. -/
theorem Holds.step {b : Bool} {r : Reply} {s t : FotaTest} (h : Holds b s.awaits (held s))
    (he : execFota r s = some t) : Holds (b || cleansUp r) t.awaits (held t) := by
  obtain ⟨⟨hat, -⟩, rfl⟩ := execFota_eq_some.mp he
  generalize hheld : held s = cs at h
  rw [hat] at h
  cases r with
  | flagGet r =>
      cases h
      show Holds false .fileCreate (held (if r = some .updateSuccess then _ else _))
      split
      · rw [held_call_of_not rfl, held_call_of_not rfl, hheld]
        exact .fileCreate
      · rw [hheld]
        exact .fileCreate
  | fileCreate ok =>
      cases h
      cases ok with
      | true =>
          show Holds false .fileSizeGet (held (s.call .opened))
          rw [held_call_of_holds rfl, hheld]
          exact .fileSizeGet
      | false =>
          show Holds true .returned (held s)
          rw [hheld]
          exact .missing
  | fileSizeGet r =>
      cases h
      cases r with
      | none =>
          show Holds true .returned (held (s.call .closeHandle))
          rw [held_call_of_holds rfl, hheld]
          exact .closed
      | some n =>
          show Holds false (Fota.fileSizeGet (some n) s).awaits (held (Fota.fileSizeGet (some n) s))
          unfold Fota.fileSizeGet
          dsimp only
          split
          · show Holds false .returned (held s)
            rw [hheld]
            exact .empty
          · show Holds false .memAlloc (held s)
            rw [hheld]
            exact .memAlloc
  | memAlloc ok =>
      cases h
      cases ok with
      | true =>
          exact holds_loopHead (by rw [held_call_of_holds rfl, hheld]; rfl)
      | false =>
          show Holds true .returned (held (s.call .closeHandle))
          rw [held_call_of_holds rfl, hheld]
          exact .closed
  | fileRead r =>
      cases h
      cases r with
      | none =>
          show Holds true .returned (held ((s.call .closeHandle).call .memFree))
          rw [held_call_of_holds rfl, held_call_of_holds rfl, hheld]
          exact .freed
      | some bs =>
          show Holds false .flashWrite (held s)
          rw [hheld]
          exact .flashWrite
  | flashWrite r =>
      cases h
      exact holds_flashWrite hat hheld
  | imageCheck ok =>
      cases h
      cases ok with
      | true =>
          show Holds false .flagSet (held s)
          rw [hheld]
          exact .flagSet
      | false =>
          show Holds false .returned (held s)
          rw [hheld]
          exact .kept
  | flagSet ok =>
      cases h
      cases ok with
      | true =>
          show Holds false .returned (held ((s.call (.flagSet .imageIsReady)).call .powerReboot))
          rw [held_call_of_not rfl, held_call_of_not rfl, hheld]
          exact .kept
      | false =>
          show Holds false .returned (held (s.call (.flagSet .imageIsReady)))
          rw [held_call_of_not rfl, hheld]
          exact .kept

/-- A result of the run leads to a way out that cleans up. -/
def runCleansUp (l : List (Run.Step Reply FotaTest)) : Bool := l.any fun e => cleansUp e.act

/-- A whole run. -/
theorem holds_run {flsz : Nat} {pBuf flash : Mem} {l : List (Run.Step Reply FotaTest)}
    {s : FotaTest}
    (hr : Run.Runs execFota (FotaTest.start flsz pBuf flash) l s) :
    Holds (runCleansUp l) s.awaits (held s) := by
  induction hr with
  | nil => exact .flagGet
  | snoc _ he ih =>
      have hsnoc := ih.step he
      rwa [runCleansUp, List.any_append, List.any_cons, List.any_nil, Bool.or_false]

/-- **What `Fota_test` leaves behind.**  When it returns, the file it opened has been closed once
and the buffer it allocated has been freed once, exactly if there was no file, no size or no
memory, or a read has failed. -/
theorem leakFree_iff {flsz : Nat} {pBuf flash : Mem} {l : List (Run.Step Reply FotaTest)}
    {s : FotaTest}
    (hr : Run.Runs execFota (FotaTest.start flsz pBuf flash) l s) (hret : s.awaits = .returned) :
    LeakFree s.calls ↔ runCleansUp l = true := by
  rw [← leakFree_filter]
  show LeakFree (held s) ↔ _
  have h := holds_run hr
  rw [hret] at h
  generalize runCleansUp l = b at h
  generalize held s = cs at h
  cases h <;> decide

/-- A read of one byte fails. -/
theorem failedRead_leakFree :
    ∃ l s, Run.Runs execFota (FotaTest.start 0 (fun _ => 0) fun _ => 0) l s ∧
      s.awaits = .returned ∧ LeakFree s.calls := by
  have hrun : ∃ l s, Run.Runs execFota (FotaTest.start 0 (fun _ => 0) fun _ => 0) l s ∧
      (decide (s.awaits = .returned) && runCleansUp l) = true :=
    Run.Runs.of_trace_test
      (l := [.flagGet none, .fileCreate true, .fileSizeGet (some 1), .memAlloc true,
        .fileRead none])
      (q := fun l s => decide (s.awaits = .returned) && runCleansUp l)
      (by decide +kernel)
  obtain ⟨l, s, hr, hq⟩ := hrun
  obtain ⟨hret, hclean⟩ := Bool.and_eq_true_iff.mp hq
  have hret := of_decide_eq_true hret
  exact ⟨l, s, hr, hret, (leakFree_iff hr hret).mpr hclean⟩

/-- The write of one byte fails: the buffer is not freed. -/
theorem failedWrite_leaks :
    ¬ ∀ flsz pBuf flash l s, Run.Runs execFota (FotaTest.start flsz pBuf flash) l s →
      s.awaits = .returned → LeakFree s.calls := by
  intro h
  have hrun : ∃ l s, Run.Runs execFota (FotaTest.start 0 (fun _ => 0) fun _ => 0) l s ∧
      decide (s.awaits = .returned ∧ ¬ LeakFree s.calls) = true :=
    Run.Runs.of_trace_test
      (l := ([.flagGet none, .fileCreate true, .fileSizeGet (some 1), .memAlloc true,
        .fileRead (some [0]), .flashWrite none] : List Reply))
      (q := fun _ (s : FotaTest) => decide (s.awaits = .returned ∧ ¬ LeakFree s.calls))
      (by decide +kernel)
  obtain ⟨l, s, hr, hq⟩ := hrun
  obtain ⟨hret, hleak⟩ := of_decide_eq_true hq
  exact hleak (h _ _ _ l s hr hret)

end IntercomSalve.Fota
