/-
# `FotaCopy` — the copy loops of the upgrade at boot

Two nested loops share `offset` and `bytesRead`: the outer one counts in `offset` what it has
read, the inner one adds to it what it has written and takes it off `bytesRead`.  They stay in
step for every pattern of short reads and short writes (`Copies`), inside the buffer
(`Bounded`).  So

    `FOTA_IMAGE_IS_READY` is set  ⟹  the flash holds the file            (`fota_exact`)

That the loops end is another matter.  A call that succeeds with nothing read or written is
no error and no progress, and nothing counts such calls:

    they end  ⟺  not every call from some call on is such a call, and only finitely
                  many blocks reach beyond the size                       (`loops_end_iff`)

A block reaches beyond the size only if `offset + BUF_SIZE` wraps and the read gives more than
is left of the file.
-/
import IntercomSalve.Fota
import IntercomSalve.Lib.Settle

namespace IntercomSalve.Fota

/-! ## Inside the buffer -/

/-- The region a call is given lies inside the buffer. -/
structure InBuffer (s : FotaTest) : Prop where
  read : s.awaits = .fileRead → s.toRead ≤ bufSize
  write : s.awaits = .flashWrite → s.idx + s.bytesRead ≤ bufSize

/-- The counters stay inside the buffer and inside `uint32`. -/
structure Bounded (s : FotaTest) : Prop extends InBuffer s where
  offset : s.offset < 4294967296
  flsz : s.awaits = .memAlloc ∨ s.awaits = .fileRead ∨ s.awaits = .flashWrite →
    s.flsz < 4294967296

/-- A state outside the loops. -/
theorem bounded_of_outside {s : FotaTest} (p : Awaits) (hat : s.awaits = p)
    (hoffset : s.offset < 4294967296)
    (hout : p ≠ .memAlloc ∧ p ≠ .fileRead ∧ p ≠ .flashWrite) : Bounded s where
  read h := absurd (hat.symm.trans h) hout.2.1
  write h := absurd (hat.symm.trans h) hout.2.2
  offset := hoffset
  flsz h := by
    rw [hat] at h
    rcases h with h | h | h
    · exact absurd h hout.1
    · exact absurd h hout.2.1
    · exact absurd h hout.2.2

theorem start_bounded (flsz : Nat) (pBuf flash : Mem) :
    Bounded (FotaTest.start flsz pBuf flash) :=
  bounded_of_outside .flagGet rfl (by show 0 < 4294967296; decide) (by decide)

/-- What is asked for is the buffer, or the rest of the file if that is less. -/
theorem bounded_loopHead {s : FotaTest} (hoffset : s.offset < 4294967296)
    (hflsz : s.flsz < 4294967296) : Bounded (loopHead s) := by
  unfold loopHead
  split
  · next hlt =>
      refine ⟨⟨fun _ => ?_, fun h => absurd h (by simp)⟩, hoffset, fun _ => hflsz⟩
      show (if add32 s.offset bufSize < s.flsz then bufSize else sub32 s.flsz s.offset) ≤ bufSize
      split
      · exact Nat.le_refl _
      · next hlast =>
          -- the sum has not wrapped, for then it would be less than `offset`
          rw [sub32_of_le (Nat.le_of_lt hlt)]
          unfold add32 bufSize at *
          omega
  · exact bounded_of_outside .imageCheck rfl hoffset (by decide)

theorem Bounded.fileRead {r : Option (List UInt8)} {s : FotaTest} (h : Bounded s)
    (hat : s.awaits = .fileRead) (hallowed : Allowed s (.fileRead r)) :
    Bounded (fileRead r s) := by
  cases r with
  | none => exact bounded_of_outside .returned rfl h.offset (by decide)
  | some bs =>
      have hle : bs.length ≤ s.toRead := hallowed
      refine ⟨⟨fun hread => absurd hread (by simp [Fota.fileRead]), fun _ => ?_⟩, h.offset,
        fun _ => h.flsz (.inr (.inl hat))⟩
      show 0 + bs.length ≤ bufSize
      rw [Nat.zero_add]
      exact hle.trans (h.read hat)

theorem Bounded.flashWrite {r : Option Nat} {s : FotaTest} (h : Bounded s)
    (hat : s.awaits = .flashWrite) (hallowed : Allowed s (.flashWrite r)) :
    Bounded (flashWrite r s) := by
  cases r with
  | none => exact bounded_of_outside .returned rfl h.offset (by decide)
  | some n =>
      have hn : n ≤ s.bytesRead := hallowed
      have hroom := h.write hat
      have hoffset : add32 s.offset n < 4294967296 := Nat.mod_lt _ (by decide)
      unfold Fota.flashWrite
      dsimp only
      split
      · exact bounded_loopHead hoffset (h.flsz (.inr (.inr hat)))
      · refine ⟨⟨fun hread => absurd (hat.symm.trans hread) (by decide), fun _ => ?_⟩,
          hoffset, fun _ => h.flsz (.inr (.inr hat))⟩
        show add32 s.idx n + sub32 s.bytesRead n ≤ bufSize
        unfold bufSize at *
        rw [add32_of_lt (by omega), sub32_of_le hn]
        omega

/-- One step. -/
theorem Bounded.step {r : Reply} {s t : FotaTest} (h : Bounded s)
    (he : execFota r s = some t) : Bounded t := by
  obtain ⟨⟨hat, hallowed⟩, rfl⟩ := execFota_eq_some.mp he
  cases r with
  | flagGet r =>
      show Bounded { (if r = some .updateSuccess then
        (s.call (.flagSet .clear)).call .fileDelete else s) with awaits := .fileCreate }
      split <;> exact bounded_of_outside .fileCreate rfl h.offset (by decide)
  | fileCreate ok =>
      cases ok with
      | true => exact bounded_of_outside .fileSizeGet rfl h.offset (by decide)
      | false => exact bounded_of_outside .returned rfl h.offset (by decide)
  | fileSizeGet r =>
      cases r with
      | none => exact bounded_of_outside .returned rfl h.offset (by decide)
      | some n =>
          show Bounded (Fota.fileSizeGet (some n) s)
          unfold Fota.fileSizeGet
          dsimp only
          split
          · exact bounded_of_outside .returned rfl h.offset (by decide)
          · exact ⟨⟨fun h => absurd h (by simp), fun h => absurd h (by simp)⟩, h.offset,
              fun _ => hallowed⟩
  | memAlloc ok =>
      cases ok with
      | true => exact bounded_loopHead h.offset (h.flsz (.inl hat))
      | false => exact bounded_of_outside .returned rfl h.offset (by decide)
  | fileRead r => exact h.fileRead hat hallowed
  | flashWrite r => exact h.flashWrite hat hallowed
  | imageCheck ok =>
      cases ok with
      | true => exact bounded_of_outside .flagSet rfl h.offset (by decide)
      | false => exact bounded_of_outside .returned rfl h.offset (by decide)
  | flagSet ok =>
      cases ok <;> exact bounded_of_outside .returned rfl h.offset (by decide)

theorem bounded_run {flsz : Nat} {pBuf flash : Mem} {l : List (Run.Step Reply FotaTest)}
    {s : FotaTest} (hr : Run.Runs execFota (FotaTest.start flsz pBuf flash) l s) :
    Bounded s ∧ ∀ e ∈ l, Bounded e.pre := by
  obtain ⟨hs, hl⟩ := hr.invariant (I := Bounded) (P := fun _ => True)
    (start_bounded flsz pBuf flash) (fun _ _ _ h he _ => h.step he) fun _ _ => trivial
  exact ⟨hs, fun e he => (hl e he).1⟩

/-! ## The copy is exact -/

/-- The bytes that a result brings into the buffer. -/
def Reply.bytes : Reply → List UInt8
  | .fileRead (some bs) => bs
  | _ => []

/-- All bytes that have been read. -/
def readBytes (l : List (Run.Step Reply FotaTest)) : List UInt8 :=
  (l.map fun e => e.act.bytes).flatten

theorem readBytes_snoc (l : List (Run.Step Reply FotaTest)) (e : Run.Step Reply FotaTest) :
    readBytes (l ++ [e]) = readBytes l ++ e.act.bytes := by
  simp [readBytes]

/-- The results are those of a file: its size, and with each read its next bytes. -/
structure ReadsFile (file : List UInt8) (l : List (Run.Step Reply FotaTest)) : Prop where
  size : ∀ e ∈ l, ∀ n, e.act = .fileSizeGet (some n) → n = file.length
  bytes : readBytes l <+: file

/-- `FOTA_IMAGE_IS_READY` has been set. -/
def SetsReady (s : FotaTest) : Prop := .flagSet .imageIsReady ∈ s.calls

theorem setsReady_call {c : FotaCall} {s : FotaTest} (h : c ≠ .flagSet .imageIsReady) :
    SetsReady (s.call c) ↔ SetsReady s := by
  show _ ∈ s.calls ++ [c] ↔ _
  rw [List.mem_append, List.mem_singleton, or_iff_left h.symm]
  rfl

/-- How far the copy is when `R` has been read: what has been written and what is left in the
buffer make up `R`. -/
def Copies (file R : List UInt8) (s : FotaTest) : Prop :=
  match s.awaits with
  | .flagGet | .fileCreate | .fileSizeGet => ¬ SetsReady s ∧ R = [] ∧ s.offset = 0
  | .memAlloc => ¬ SetsReady s ∧ R = [] ∧ s.offset = 0 ∧ s.flsz = file.length
  | .fileRead => ¬ SetsReady s ∧ s.flsz = file.length ∧ s.flash.slice 0 s.offset = R
  | .flashWrite =>
      ¬ SetsReady s ∧ s.flsz = file.length ∧
        s.flash.slice 0 s.offset ++ s.pBuf.slice s.idx s.bytesRead = R
  | .imageCheck | .flagSet => ¬ SetsReady s ∧ s.flash.slice 0 file.length = file
  | .returned => SetsReady s → s.flash.slice 0 file.length = file

/-- A way out on which nothing is set. -/
theorem copies_leave {file R : List UInt8} {s : FotaTest} (h : ¬ SetsReady s) :
    Copies file R s.leave :=
  fun hset => absurd hset h

theorem copies_loopHead {file R : List UInt8} {s : FotaTest} (hset : ¬ SetsReady s)
    (hflsz : s.flsz = file.length) (hR : s.flash.slice 0 s.offset = R) (hfile : R <+: file) :
    Copies file R (loopHead s) := by
  unfold loopHead
  split
  · exact ⟨hset, hflsz, hR⟩
  · next hend =>
      -- as much has been read as the file is long
      have hlen : s.offset = R.length := by rw [← hR, Mem.length_slice]
      have hall : R = file := hfile.eq_of_length_le (by omega)
      refine ⟨mt (setsReady_call (by decide)).mp hset, ?_⟩
      show s.flash.slice 0 file.length = file
      rw [← hall, ← hlen, hR]

theorem copies_fileRead {file R : List UInt8} {r : Option (List UInt8)} {s : FotaTest}
    (hset : ¬ SetsReady s) (hflsz : s.flsz = file.length)
    (hR : s.flash.slice 0 s.offset = R) :
    Copies file (R ++ (Reply.fileRead r).bytes) (fileRead r s) := by
  cases r with
  | none =>
      exact copies_leave (mt (setsReady_call (by decide)).mp
        (mt (setsReady_call (by decide)).mp hset))
  | some bs =>
      refine ⟨hset, hflsz, ?_⟩
      show s.flash.slice 0 s.offset ++ (s.pBuf.memcpy 0 (Mem.ofList bs) bs.length).slice 0 bs.length
        = R ++ bs
      rw [hR, Mem.slice_memcpy, Mem.slice_ofList]

/-- A write moves a front part of the block from the buffer to the flash. -/
theorem slice_write (flash pBuf : Mem) (offset idx : Nat) {n k : Nat} (h : n ≤ k) :
    (flash.memcpy offset (pBuf.ptr idx) n).slice 0 (offset + n) ++ pBuf.slice (idx + n) (k - n) =
      flash.slice 0 offset ++ pBuf.slice idx k := by
  obtain ⟨d, rfl⟩ := Nat.exists_eq_add_of_le h
  have hmoved : (pBuf.ptr idx).slice 0 n = pBuf.slice idx n :=
    Mem.slice_congr fun j _ => by rw [Mem.ptr_apply, Nat.zero_add]
  rw [Mem.slice_memcpy_end, hmoved, Nat.add_sub_cancel_left, Mem.slice_add, List.append_assoc]

theorem copies_flashWrite {file R : List UInt8} {r : Option Nat} {s : FotaTest}
    (hat : s.awaits = .flashWrite) (hallowed : Allowed s (.flashWrite r)) (hs : Bounded s)
    (hset : ¬ SetsReady s) (hflsz : s.flsz = file.length)
    (hR : s.flash.slice 0 s.offset ++ s.pBuf.slice s.idx s.bytesRead = R) (hfile : R <+: file) :
    Copies file R (flashWrite r s) := by
  cases r with
  | none => exact copies_leave (mt (setsReady_call (by decide)).mp hset)
  | some n =>
      have hn : n ≤ s.bytesRead := hallowed
      have hroom := hs.write hat
      have hsmall := hs.flsz (.inr (.inr hat))
      have hlen : s.offset + s.bytesRead = R.length := by
        rw [← hR, List.length_append, Mem.length_slice, Mem.length_slice]
      have hle := hfile.length_le
      have hoffset : add32 s.offset n = s.offset + n := add32_of_lt (by omega)
      have hwrite := slice_write s.flash s.pBuf s.offset s.idx hn
      rw [hR] at hwrite
      unfold flashWrite
      dsimp only
      split
      · next hlast =>
          refine copies_loopHead hset hflsz ?_ hfile
          show (s.flash.memcpy s.offset (s.pBuf.ptr s.idx) n).slice 0 (add32 s.offset n) = R
          rw [hlast, Nat.sub_self] at hwrite
          rw [hoffset, hlast, ← hwrite]
          exact (List.append_nil _).symm
      · unfold Copies
        dsimp only
        rw [hat]
        refine ⟨hset, hflsz, ?_⟩
        unfold bufSize at hroom
        rw [hoffset, sub32_of_le hn, add32_of_lt (by omega)]
        exact hwrite

/-- One step. -/
theorem Copies.step {file R : List UInt8} {r : Reply} {s t : FotaTest} (h : Copies file R s)
    (hs : Bounded s) (he : execFota r s = some t)
    (hsize : ∀ n, r = .fileSizeGet (some n) → n = file.length)
    (hfile : R ++ r.bytes <+: file) : Copies file (R ++ r.bytes) t := by
  obtain ⟨⟨hat, hallowed⟩, rfl⟩ := execFota_eq_some.mp he
  unfold Copies at h
  rw [hat] at h
  cases r with
  | flagGet r =>
      obtain ⟨hset, rfl, hoffset⟩ := h
      show Copies file [] { (if r = some .updateSuccess then
        (s.call (.flagSet .clear)).call .fileDelete else s) with awaits := .fileCreate }
      split
      · exact ⟨mt (setsReady_call (by decide)).mp (mt (setsReady_call (by decide)).mp hset), rfl,
          hoffset⟩
      · exact ⟨hset, rfl, hoffset⟩
  | fileCreate ok =>
      obtain ⟨hset, rfl, hoffset⟩ := h
      cases ok with
      | true => exact ⟨mt (setsReady_call (by decide)).mp hset, rfl, hoffset⟩
      | false => exact copies_leave hset
  | fileSizeGet r =>
      obtain ⟨hset, rfl, hoffset⟩ := h
      cases r with
      | none => exact copies_leave (mt (setsReady_call (by decide)).mp hset)
      | some n =>
          show Copies file [] (fileSizeGet (some n) s)
          unfold fileSizeGet
          dsimp only
          split
          · exact copies_leave hset
          · exact ⟨hset, rfl, hoffset, hsize n rfl⟩
  | memAlloc ok =>
      obtain ⟨hset, rfl, hoffset, hflsz⟩ := h
      cases ok with
      | true =>
          refine copies_loopHead (mt (setsReady_call (by decide)).mp hset) hflsz ?_ hfile
          show s.flash.slice 0 s.offset = []
          rw [hoffset]
          rfl
      | false => exact copies_leave (mt (setsReady_call (by decide)).mp hset)
  | fileRead r =>
      obtain ⟨hset, hflsz, hR⟩ := h
      exact copies_fileRead hset hflsz hR
  | flashWrite r =>
      obtain ⟨hset, hflsz, hR⟩ := h
      have hnone : R ++ (Reply.flashWrite r).bytes = R := List.append_nil R
      rw [hnone] at hfile ⊢
      exact copies_flashWrite hat hallowed hs hset hflsz hR hfile
  | imageCheck ok =>
      obtain ⟨hset, hflash⟩ := h
      cases ok with
      | true => exact ⟨hset, hflash⟩
      | false => exact copies_leave hset
  | flagSet ok =>
      obtain ⟨-, hflash⟩ := h
      cases ok <;> exact fun _ => hflash

theorem copies_run {flsz : Nat} {pBuf flash : Mem} {file : List UInt8}
    {l : List (Run.Step Reply FotaTest)} {s : FotaTest}
    (hr : Run.Runs execFota (FotaTest.start flsz pBuf flash) l s) (hfile : ReadsFile file l) :
    Copies file (readBytes l) s := by
  induction hr with
  | nil => exact ⟨by simp [SetsReady, FotaTest.start], rfl, rfl⟩
  | @snoc l s t r hr he ih =>
      have hbytes := hfile.bytes
      rw [readBytes_snoc] at hbytes ⊢
      have hbefore : ReadsFile file l :=
        ⟨fun e he => hfile.size e (List.mem_append_left _ he),
          (List.prefix_append _ _).trans hbytes⟩
      exact (ih hbefore).step (bounded_run hr).1 he
        (hfile.size _ (List.mem_append_right _ (List.mem_singleton_self _))) hbytes

/-- Once the flag is set, the copy is the file. -/
theorem Copies.of_setsReady {file R : List UInt8} {s : FotaTest} (h : Copies file R s)
    (hset : SetsReady s) : s.flash.slice 0 file.length = file := by
  unfold Copies at h
  cases hat : s.awaits <;> rw [hat] at h
  case returned => exact h hset
  all_goals exact absurd hset h.1

/-- **The copy is exact.**  For every file, every pattern of short reads of it and of short
writes: if `FOTA_IMAGE_IS_READY` has been set, the flash begins with the file.  No call is given
a region beyond the buffer. -/
theorem fota_exact {flsz : Nat} {pBuf flash : Mem} {file : List UInt8}
    {l : List (Run.Step Reply FotaTest)} {s : FotaTest}
    (hr : Run.Runs execFota (FotaTest.start flsz pBuf flash) l s) (hfile : ReadsFile file l) :
    (SetsReady s → s.flash.slice 0 file.length = file) ∧
      InBuffer s ∧ ∀ e ∈ l, InBuffer e.pre := by
  obtain ⟨hs, hl⟩ := bounded_run hr
  exact ⟨(copies_run hr hfile).of_setsReady, hs.toInBuffer, fun e he => (hl e he).toInBuffer⟩

/-- Two bytes, read one after the other, with two writes of nothing before the first. -/
theorem twoBytes_exact :
    ∃ l s, Run.Runs execFota (FotaTest.start 0 (fun _ => 0) fun _ => 0) l s ∧ SetsReady s ∧
      s.flash.slice 0 2 = [0x41, 0x42] := by
  have hrun : ∃ l s, Run.Runs execFota (FotaTest.start 0 (fun _ => 0) fun _ => 0) l s ∧
      (decide ((∀ e ∈ l, e.act ∈ [.fileSizeGet (some 2)] ∨ e.act.of ≠ .fileSizeGet) ∧
        readBytes l <+: [0x41, 0x42]) &&
          decide (.flagSet .imageIsReady ∈ s.calls)) = true :=
    Run.Runs.of_trace_test
      (l := [.flagGet none, .fileCreate true, .fileSizeGet (some 2), .memAlloc true,
        .fileRead (some [0x41]), .flashWrite (some 0), .flashWrite (some 0),
        .flashWrite (some 1), .fileRead (some [0x42]), .flashWrite (some 1), .imageCheck true,
        .flagSet true])
      (q := fun l s =>
        decide ((∀ e ∈ l, e.act ∈ [.fileSizeGet (some 2)] ∨ e.act.of ≠ .fileSizeGet) ∧
          readBytes l <+: [0x41, 0x42]) &&
            decide (.flagSet .imageIsReady ∈ s.calls))
      (by decide +kernel)
  obtain ⟨l, s, hr, hq⟩ := hrun
  obtain ⟨hreads, hset⟩ := Bool.and_eq_true_iff.mp hq
  obtain ⟨hsize, hbytes⟩ := of_decide_eq_true hreads
  have hset := of_decide_eq_true hset
  have hfile : ReadsFile [0x41, 0x42] l := by
    refine ⟨fun e he n hact => ?_, hbytes⟩
    rcases hsize e he with h | h
    · rw [hact, List.mem_singleton] at h
      exact Option.some.inj (Reply.fileSizeGet.inj h)
    · exact absurd (congrArg Reply.of hact) h
  exact ⟨l, s, hr, hset, (fota_exact hr hfile).1 hset⟩

/-! ## The end of the loops -/

/-- The calls of one start, one after the other, with the state before each; after the return
the state stays. -/
structure Follows (replies : Nat → Reply) (states : Nat → FotaTest) : Prop where
  step : ∀ n, (states n).awaits ≠ .returned →
    execFota (replies n) (states n) = some (states (n + 1))
  stays : ∀ n, (states n).awaits = .returned → states (n + 1) = states n

/-- A call that succeeds with nothing read or written. -/
def Reply.idle : Reply → Bool
  | .fileRead (some []) | .flashWrite (some 0) => true
  | _ => false

/-- Such a call is made. -/
def MovesNothing (s : FotaTest) (r : Reply) : Prop := s.awaits ≠ .returned ∧ r.idle = true

/-- The block in the buffer reaches beyond the size. -/
def Beyond (s : FotaTest) : Prop := s.awaits = .flashWrite ∧ s.flsz < s.offset + s.bytesRead

/-- What is left to do: the calls outside the loops, and for each byte a read and a write. -/
def toDo (s : FotaTest) : Nat :=
  match s.awaits with
  | .flagGet => 2 * 4294967296 + 7
  | .fileCreate => 2 * 4294967296 + 6
  | .fileSizeGet => 2 * 4294967296 + 5
  | .memAlloc => 2 * 4294967296 + 4
  | .fileRead => 2 * (4294967296 - s.offset) + 3
  | .flashWrite => 2 * (4294967296 - s.offset) + if s.bytesRead = 0 then 3 else 2
  | .imageCheck => 2
  | .flagSet => 1
  | .returned => 0

theorem toDo_leave (s : FotaTest) : toDo s.leave = 0 := rfl

theorem toDo_loopHead_le (s : FotaTest) :
    toDo (loopHead s) ≤ 2 * (4294967296 - s.offset) + 3 := by
  unfold loopHead
  split
  · exact Nat.le_refl _
  · show 2 ≤ _
    omega

theorem toDo_fileRead {r : Option (List UInt8)} {s : FotaTest} (hat : s.awaits = .fileRead) :
    toDo (fileRead r s) ≤ toDo s ∧
      ((Reply.fileRead r).idle = false → toDo (fileRead r s) < toDo s) := by
  have hs : toDo s = 2 * (4294967296 - s.offset) + 3 := by
    unfold toDo
    rw [hat]
  rw [hs]
  cases r with
  | none =>
      have h : toDo (fileRead none s) = 0 := toDo_leave _
      rw [h]
      exact ⟨Nat.zero_le _, fun _ => by omega⟩
  | some bs =>
      have h : toDo (fileRead (some bs) s) =
          2 * (4294967296 - s.offset) + if bs.length = 0 then 3 else 2 := rfl
      rw [h]
      cases bs with
      | nil => exact ⟨Nat.le_refl _, fun hidle => absurd hidle (by decide)⟩
      | cons b bs =>
          rw [if_neg (by simp)]
          exact ⟨by omega, fun _ => by omega⟩

theorem toDo_flashWrite {r : Option Nat} {s : FotaTest} (hs : Bounded s)
    (hat : s.awaits = .flashWrite) (hallowed : Allowed s (.flashWrite r)) (hin : ¬ Beyond s) :
    toDo (flashWrite r s) ≤ toDo s ∧
      ((Reply.flashWrite r).idle = false → toDo (flashWrite r s) < toDo s) := by
  have htodo : toDo s = 2 * (4294967296 - s.offset) + if s.bytesRead = 0 then 3 else 2 := by
    unfold toDo
    rw [hat]
  cases r with
  | none =>
      have h : toDo (flashWrite none s) = 0 := toDo_leave _
      rw [h, htodo]
      exact ⟨Nat.zero_le _, fun _ => by split <;> omega⟩
  | some n =>
      have hn : n ≤ s.bytesRead := hallowed
      have hsmall := hs.flsz (.inr (.inr hat))
      have hend : s.offset + s.bytesRead ≤ s.flsz := Nat.not_lt.mp fun h => hin ⟨hat, h⟩
      have hoffset : add32 s.offset n = s.offset + n := add32_of_lt (by omega)
      have hidle : (Reply.flashWrite (some n)).idle = false → n ≠ 0 := by
        rintro h rfl
        exact absurd h (by decide)
      unfold flashWrite
      dsimp only
      rw [hoffset]
      split
      · next hlast =>
          have hle := toDo_loopHead_le { s with
            flash := s.flash.memcpy s.offset (s.pBuf.ptr s.idx) n
            bytesWr := n, offset := s.offset + n }
          dsimp only at hle
          rw [htodo]
          refine ⟨?_, fun h => ?_⟩
          · split <;> omega
          · have hne := hidle h
            split <;> omega
      · next hmore =>
          rw [sub32_of_le hn]
          have hafter : toDo { s with
              flash := s.flash.memcpy s.offset (s.pBuf.ptr s.idx) n, bytesWr := n
              offset := s.offset + n, bytesRead := s.bytesRead - n, idx := add32 s.idx n } =
              2 * (4294967296 - (s.offset + n)) + if s.bytesRead - n = 0 then 3 else 2 := by
            unfold toDo
            rw [hat]
          rw [hafter, htodo, if_neg (by omega), if_neg (by omega)]
          refine ⟨by omega, fun h => ?_⟩
          have hne := hidle h
          omega

/-- **One call.**  Every call leaves less to do, unless it succeeds with nothing moved; then it
leaves as much. -/
theorem toDo_step {r : Reply} {s t : FotaTest} (hs : Bounded s) (he : execFota r s = some t)
    (hin : ¬ Beyond s) : toDo t ≤ toDo s ∧ (r.idle = false → toDo t < toDo s) := by
  obtain ⟨⟨hat, hallowed⟩, rfl⟩ := execFota_eq_some.mp he
  -- outside the loops every call goes ahead
  have hless (h : toDo (goOn r s) < toDo s) :
      toDo (goOn r s) ≤ toDo s ∧ (r.idle = false → toDo (goOn r s) < toDo s) :=
    ⟨Nat.le_of_lt h, fun _ => h⟩
  have htodo : toDo s = toDo { s with awaits := r.of } := by rw [← hat]
  cases r with
  | flagGet r =>
      refine hless ?_
      rw [htodo]
      show 2 * 4294967296 + 6 < 2 * 4294967296 + 7
      omega
  | fileCreate ok =>
      refine hless ?_
      rw [htodo]
      cases ok with
      | true => show 2 * 4294967296 + 5 < 2 * 4294967296 + 6; omega
      | false => show 0 < 2 * 4294967296 + 6; omega
  | fileSizeGet r =>
      refine hless ?_
      rw [htodo]
      cases r with
      | none => show 0 < 2 * 4294967296 + 5; omega
      | some n =>
          show toDo (fileSizeGet (some n) s) < 2 * 4294967296 + 5
          unfold fileSizeGet
          dsimp only
          split
          · show 0 < 2 * 4294967296 + 5; omega
          · show 2 * 4294967296 + 4 < 2 * 4294967296 + 5; omega
  | memAlloc ok =>
      refine hless ?_
      rw [htodo]
      cases ok with
      | true =>
          have hle := toDo_loopHead_le (s.call .allocated)
          show toDo (loopHead (s.call .allocated)) < 2 * 4294967296 + 4
          omega
      | false => show 0 < 2 * 4294967296 + 4; omega
  | fileRead r => exact toDo_fileRead hat
  | flashWrite r => exact toDo_flashWrite hs hat hallowed hin
  | imageCheck ok =>
      refine hless ?_
      rw [htodo]
      cases ok with
      | true => show 1 < 2; omega
      | false => show 0 < 2; omega
  | flagSet ok =>
      refine hless ?_
      rw [htodo]
      cases ok <;> (show 0 < 1; omega)

section Sequences

variable {replies : Nat → Reply} {states : Nat → FotaTest}

theorem Follows.bounded (h : Follows replies states) (h0 : Bounded (states 0)) (n : Nat) :
    Bounded (states n) := by
  induction n with
  | zero => exact h0
  | succ n ih =>
      by_cases hret : (states n).awaits = .returned
      · rw [h.stays n hret]
        exact ih
      · exact ih.step (h.step n hret)

theorem Follows.returned (h : Follows replies states) {k n : Nat}
    (hk : (states k).awaits = .returned) (hn : k ≤ n) : (states n).awaits = .returned := by
  induction n, hn using Nat.le_induction with
  | base => exact hk
  | succ n _ ih => rw [h.stays n ih, ih]

/-- **The loops end** exactly if it is not so that from some call on every call succeeds with
nothing moved, and only finitely many blocks reach beyond the size. -/
theorem loops_end_iff {flsz : Nat} {pBuf flash : Mem} (h : Follows replies states)
    (h0 : states 0 = FotaTest.start flsz pBuf flash) :
    (∃ n, (states n).awaits = .returned) ↔
      (¬ ∃ a, ∀ n, a ≤ n → MovesNothing (states n) (replies n)) ∧
        ∃ a, ∀ n, a ≤ n → ¬ Beyond (states n) := by
  have hbounded : ∀ n, Bounded (states n) :=
    h.bounded (by rw [h0]; exact start_bounded flsz pBuf flash)
  constructor
  · rintro ⟨k, hk⟩
    refine ⟨?_, k, fun n hn hbeyond => ?_⟩
    · rintro ⟨a, ha⟩
      exact (ha (max a k) (Nat.le_max_left a k)).1 (h.returned hk (Nat.le_max_right a k))
    · exact absurd ((h.returned hk hn).symm.trans hbeyond.1) (by decide)
  · rintro ⟨hmoves, a, hin⟩
    by_contra hnever
    have hstep (n : Nat) : execFota (replies n) (states n) = some (states (n + 1)) :=
      h.step n fun hret => hnever ⟨n, hret⟩
    -- what is left to do is the same in the end, so that in the end no call moves anything
    have hle (n : Nat) (hn : a ≤ n) : toDo (states (n + 1)) ≤ toDo (states n) :=
      (toDo_step (hbounded n) (hstep n) (hin n hn)).1
    obtain ⟨b, hab, hconst⟩ := Settle.eventually_const (fun n => toDo (states n)) hle
    refine hmoves ⟨b, fun n hn => ⟨fun hret => hnever ⟨n, hret⟩, ?_⟩⟩
    by_contra hidle
    have hless := (toDo_step (hbounded n) (hstep n) (hin n (hab.trans hn))).2
      (Bool.not_eq_true _ ▸ hidle)
    have hsame : toDo (states (n + 1)) = toDo (states n) := hconst n hn
    omega

/-- One more call in front. -/
theorem Follows.cons (h : Follows replies states) {r : Reply} {s : FotaTest}
    (he : execFota r s = some (states 0)) :
    Follows (fun n => if n = 0 then r else replies (n - 1))
      fun n => if n = 0 then s else states (n - 1) where
  step n hn := by
    cases n with
    | zero => exact he
    | succ n => exact h.step n hn
  stays n hn := by
    cases n with
    | zero =>
        have hat : s.awaits = r.of := (execFota_eq_some.mp he).1.1
        have hret : s.awaits = .returned := hn
        exact absurd (hat.symm.trans hret) r.of_ne_returned
    | succ n => exact h.stays n hn

/-- A list of results in front. -/
theorem Follows.append (h : Follows replies states) {l : List Reply} {s : FotaTest}
    (hl : Run.runActs execFota l s = some (states 0)) :
    ∃ replies' states', Follows replies' states' ∧ states' 0 = s ∧
      ∀ n, states' (n + l.length) = states n := by
  induction l generalizing s with
  | nil =>
      obtain rfl := Option.some.inj hl
      exact ⟨replies, states, h, rfl, fun _ => rfl⟩
  | cons r l ih =>
      obtain ⟨u, hu, hl⟩ := Option.bind_eq_some_iff.mp hl
      obtain ⟨replies', states', h', h0', hlater⟩ := ih hl
      exact ⟨_, _, h'.cons (hu.trans (congrArg some h0'.symm)), rfl, hlater⟩

end Sequences

/-- After the return nothing follows. -/
theorem follows_returned {s : FotaTest} (hret : s.awaits = .returned) :
    Follows (fun _ => .flagSet true) fun _ => s where
  step _ h := absurd hret h
  stays _ _ := rfl

/-- The copy of one byte, with a read and a write of nothing before it. -/
theorem oneByte_ends :
    ∃ replies states, Follows replies states ∧
      states 0 = FotaTest.start 0 (fun _ => 0) (fun _ => 0) ∧
        (¬ ∃ a, ∀ n, a ≤ n → MovesNothing (states n) (replies n)) ∧
          ∃ a, ∀ n, a ≤ n → ¬ Beyond (states n) := by
  obtain ⟨t, ht, hret⟩ : ∃ t, Run.runActs execFota
      [.flagGet none, .fileCreate true, .fileSizeGet (some 1), .memAlloc true,
        .fileRead (some []), .flashWrite (some 0), .fileRead (some [0x41]),
        .flashWrite (some 0), .flashWrite (some 1), .imageCheck true, .flagSet true]
      (FotaTest.start 0 (fun _ => 0) fun _ => 0) = some t ∧ t.awaits = .returned := ⟨_, rfl, rfl⟩
  obtain ⟨replies, states, h, h0, hlater⟩ := (follows_returned hret).append ht
  exact ⟨replies, states, h, h0,
    (loops_end_iff h h0).mp ⟨_, (congrArg FotaTest.awaits (hlater 0)).trans hret⟩⟩

/-- The state of a copy that has come to the end of a file shorter than its size. -/
def AtEnd (s : FotaTest) : Prop :=
  s.offset < s.flsz ∧ (s.awaits = .fileRead ∨ s.awaits = .flashWrite ∧ s.bytesRead = 0)

/-- Nothing is read, and nothing is written. -/
def nothing (s : FotaTest) : Reply :=
  if s.awaits = .fileRead then .fileRead (some []) else .flashWrite (some 0)

theorem AtEnd.step {s : FotaTest} (h : AtEnd s) (hs : s.offset < 4294967296) :
    execFota (nothing s) s = some (goOn (nothing s) s) ∧
      (goOn (nothing s) s).offset = s.offset ∧ AtEnd (goOn (nothing s) s) := by
  obtain ⟨hlt, hat | ⟨hat, hnone⟩⟩ := h
  · have hreply : nothing s = .fileRead (some []) := if_pos hat
    rw [hreply]
    exact ⟨execFota_eq_some.mpr ⟨⟨hat, Nat.zero_le _⟩, rfl⟩, rfl, hlt, .inr ⟨rfl, rfl⟩⟩
  · have hreply : nothing s = .flashWrite (some 0) := if_neg (by rw [hat]; decide)
    rw [hreply]
    refine ⟨execFota_eq_some.mpr ⟨⟨hat, Nat.zero_le _⟩, rfl⟩, ?_⟩
    have hsame : add32 s.offset 0 = s.offset := add32_of_lt hs
    show (flashWrite (some 0) s).offset = s.offset ∧ AtEnd (flashWrite (some 0) s)
    unfold flashWrite
    dsimp only
    rw [if_pos hnone.symm, hsame]
    unfold loopHead
    rw [if_pos hlt]
    exact ⟨rfl, hlt, .inl rfl⟩

/-- From there on the calls may go on for ever. -/
theorem AtEnd.follows {s : FotaTest} (h : AtEnd s) (hs : s.offset < 4294967296) :
    ∃ replies states, Follows replies states ∧ states 0 = s ∧
      ∀ n, (states n).awaits ≠ .returned := by
  have hall (n : Nat) : AtEnd ((fun t => goOn (nothing t) t)^[n] s) ∧
      ((fun t => goOn (nothing t) t)^[n] s).offset < 4294967296 := by
    induction n with
    | zero => exact ⟨h, hs⟩
    | succ n ih =>
        rw [Function.iterate_succ_apply']
        obtain ⟨-, hoffset, hend⟩ := ih.1.step ih.2
        exact ⟨hend, by rw [hoffset]; exact ih.2⟩
  have hne (n : Nat) : ((fun t => goOn (nothing t) t)^[n] s).awaits ≠ .returned := by
    intro hret
    rcases (hall n).1.2 with hat | ⟨hat, -⟩ <;> exact absurd (hat.symm.trans hret) (by decide)
  refine ⟨fun n => nothing ((fun t => goOn (nothing t) t)^[n] s),
    fun n => (fun t => goOn (nothing t) t)^[n] s, ⟨fun n _ => ?_, fun n hret => ?_⟩, rfl, hne⟩
  · rw [Function.iterate_succ_apply']
    exact ((hall n).1.step (hall n).2).1
  · exact absurd hret (hne n)

/-- A file of one byte of which nothing can be read is copied for ever. -/
theorem shortFile_notEnds :
    ¬ ∀ flsz pBuf flash replies states, Follows replies states →
      states 0 = FotaTest.start flsz pBuf flash → ∃ n, (states n).awaits = .returned := by
  intro hends
  obtain ⟨t, ht, hend⟩ : ∃ t, Run.runActs execFota
      [.flagGet none, .fileCreate true, .fileSizeGet (some 1), .memAlloc true]
      (FotaTest.start 0 (fun _ => 0) fun _ => 0) = some t ∧
        t.offset = 0 ∧ t.flsz = 1 ∧ t.awaits = .fileRead := ⟨_, rfl, rfl, rfl, rfl⟩
  obtain ⟨hoffset, hflsz, hat⟩ := hend
  obtain ⟨replies, states, h, rfl, hne⟩ :=
    AtEnd.follows (s := t) ⟨by rw [hoffset, hflsz]; decide, .inl hat⟩
      (by rw [hoffset]; decide)
  obtain ⟨replies', states', h', h0', hlater⟩ := h.append ht
  obtain ⟨k, hk⟩ := hends _ _ _ replies' states' h' h0'
  have hret := h'.returned hk (Nat.le_add_right k 4)
  exact hne k ((congrArg FotaTest.awaits (hlater k)).symm.trans hret)

end IntercomSalve.Fota
