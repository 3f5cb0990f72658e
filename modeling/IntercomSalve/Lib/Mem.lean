/-
# `Lib.Mem` — byte memories, and the C library calls on them

A memory is a function from offsets to bytes; a pointer into it is the memory
seen from that offset (`Mem.ptr`).  There is no end: what lies past an array is
memory too, and the question whether an access stays inside the array is asked
of the offsets, not answered by the type.
-/
import Mathlib.Data.List.Range
import Mathlib.Tactic.Common

/-- Bytes by offset. -/
abbrev Mem : Type := Nat → UInt8

namespace Mem

/-- The memory a pointer `m + i` points to. -/
def ptr (m : Mem) (i : Nat) : Mem := fun j => m (i + j)

/-- `memset (m, c, n)`. -/
def memset (m : Mem) (c : UInt8) (n : Nat) : Mem := fun j => if j < n then c else m j

/-- `memcpy (dst + i, src, n)`. -/
def memcpy (dst : Mem) (i : Nat) (src : Mem) (n : Nat) : Mem :=
  fun j => if i ≤ j ∧ j < i + n then src (j - i) else dst j

/-- A constant array. -/
def ofList (bs : List UInt8) : Mem := fun j => bs.getD j 0

/-- The `n` bytes from offset `i` on. -/
def slice (m : Mem) (i n : Nat) : List UInt8 := (List.range n).map fun k => m (i + k)

@[simp] theorem ptr_apply (m : Mem) (i j : Nat) : m.ptr i j = m (i + j) := rfl

theorem ptr_ptr (m : Mem) (i j : Nat) : (m.ptr i).ptr j = m.ptr (i + j) := by
  funext k
  simp [Nat.add_assoc]

@[simp] theorem length_slice (m : Mem) (i n : Nat) : (m.slice i n).length = n := by
  simp [slice]

theorem slice_congr {m m' : Mem} {i i' n : Nat} (h : ∀ k, k < n → m (i + k) = m' (i' + k)) :
    m.slice i n = m'.slice i' n :=
  List.map_congr_left fun k hk => h k (List.mem_range.mp hk)

theorem slice_add (m : Mem) (i a b : Nat) :
    m.slice i (a + b) = m.slice i a ++ m.slice (i + a) b := by
  simp only [slice, List.range_add, List.map_append, List.map_map]
  congr 1
  exact List.map_congr_left fun k _ => by simp [Nat.add_assoc]

theorem slice_succ (m : Mem) (i n : Nat) : m.slice i (n + 1) = m i :: m.slice (i + 1) n := by
  rw [Nat.add_comm n 1, slice_add]
  rfl

/-- A slice of a slice from the start. -/
theorem take_drop_slice (m : Mem) {i k n : Nat} (h : i + k ≤ n) :
    ((m.slice 0 n).drop i).take k = m.slice i k := by
  obtain ⟨d, rfl⟩ := Nat.exists_eq_add_of_le h
  rw [slice_add, slice_add, List.append_assoc, List.drop_left' (length_slice m 0 i), Nat.zero_add,
    List.take_left' (length_slice m i k)]

theorem getD_slice (m : Mem) (i n k : Nat) (hk : k < n) : (m.slice i n).getD k 0 = m (i + k) := by
  simp [slice, List.getD, hk]

/-- A copy only reads the `n` bytes it copies. -/
theorem memcpy_congr (dst : Mem) (i : Nat) {src src' : Mem} {n : Nat}
    (h : ∀ k, k < n → src k = src' k) : memcpy dst i src n = memcpy dst i src' n := by
  funext j
  simp only [memcpy]
  split
  · next hj => exact h _ (by omega)
  · rfl

theorem memcpy_of_lt {dst src : Mem} {i n j : Nat} (h : j < i) : memcpy dst i src n j = dst j := by
  simp only [memcpy]
  exact if_neg (by omega)

theorem memcpy_in {dst src : Mem} {i n k : Nat} (h : k < n) :
    memcpy dst i src n (i + k) = src k := by
  simp only [memcpy]
  rw [if_pos (by omega)]
  congr 1
  omega

/-- Reading back what was just copied. -/
theorem slice_memcpy (dst : Mem) (i : Nat) (src : Mem) (n : Nat) :
    (memcpy dst i src n).slice i n = src.slice 0 n :=
  slice_congr fun k hk => by simpa using memcpy_in hk

/-- Copying on from where a slice ends makes it longer. -/
theorem slice_memcpy_end (m : Mem) (i : Nat) (src : Mem) (n : Nat) :
    (memcpy m i src n).slice 0 (i + n) = m.slice 0 i ++ src.slice 0 n := by
  have hfront : (memcpy m i src n).slice 0 i = m.slice 0 i :=
    slice_congr fun k hk => memcpy_of_lt (by omega)
  have hback : (memcpy m i src n).slice (0 + i) n = src.slice 0 n := by
    rw [Nat.zero_add]
    exact slice_memcpy m i src n
  rw [slice_add, hfront, hback]

/-- A copy to the front of a slice; the rest of the slice stays. -/
theorem slice_memcpy_front (m src : Mem) {n k : Nat} (h : n ≤ k) :
    (memcpy m 0 src n).slice 0 k = src.slice 0 n ++ (m.slice 0 k).drop n := by
  obtain ⟨d, rfl⟩ := Nat.exists_eq_add_of_le h
  have hback : (memcpy m 0 src n).slice (0 + n) d = m.slice (0 + n) d :=
    slice_congr fun j _ => if_neg (by omega)
  rw [slice_add, slice_memcpy, hback, slice_add m, List.drop_left' (length_slice m 0 n)]

theorem slice_ofList (bs : List UInt8) : (ofList bs).slice 0 bs.length = bs := by
  apply List.ext_getElem
  · simp
  · intro k _ hk
    simp [slice, ofList, List.getElem?_eq_getElem hk]

end Mem
