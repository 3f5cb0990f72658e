/-
# `Lib.Ring` — writing into a ring of bytes with two copies

A ring of capacity `cap` is the first `cap` bytes of a memory, with a write
position below `cap`.  A write that would run past the end is done in two
copies: up to the end, and the rest from offset 0.  `ringStore_apply` reads the
result at one offset; from it, storing twice is storing the concatenation
(`ringStore_add`), as long as the two writes together fit the ring.

A ring is used as a queue: `Queued` says which bytes it holds from a position on.
Storing behind them appends to the queue, moving the position drops from it, and what
does not run past the end can be read in one piece.
-/
import Mathlib.Data.List.GetD
import IntercomSalve.Lib.Mem

namespace Mem

/-- The position `x`, taken back into the ring once. -/
def ringWrap (cap x : Nat) : Nat := if cap ≤ x then x - cap else x

/-- Past the others only the last element of a list is left. -/
theorem eq_of_getElem?_concat {α : Type} {l : List α} {x y : α} {j : Nat}
    (h : (l ++ [x])[j]? = some y) (hj : l.length ≤ j) : j = l.length ∧ x = y := by
  rw [List.getElem?_append_right hj] at h
  obtain ⟨hlt, hy⟩ := List.getElem?_eq_some_iff.mp h
  rw [List.length_singleton] at hlt
  have hzero : j - l.length = 0 := by omega
  simp only [hzero] at hy
  exact ⟨by omega, hy⟩

/-- How far the offset `j` lies behind the position `p`, going round. -/
def ringIndex (cap p j : Nat) : Nat := if p ≤ j then j - p else j + cap - p

/-- Store `n` bytes at position `p` of a ring. -/
def ringStore (cap : Nat) (m : Mem) (p : Nat) (src : Mem) (n : Nat) : Mem :=
  if cap < p + n then
    memcpy (memcpy m p src (cap - p)) 0 (src.ptr (cap - p)) (n - (cap - p))
  else memcpy m p src n

theorem ringWrap_lt {cap x : Nat} (h : x < cap + cap) : ringWrap cap x < cap := by
  unfold ringWrap
  split <;> omega

/-- One offset after a store: the stored byte when it lies less than `n` behind
`p`, the old byte otherwise. -/
theorem ringStore_apply {cap p n : Nat} (m src : Mem) (hp : p < cap) (hn : n ≤ cap) (j : Nat) :
    ringStore cap m p src n j =
      if j < cap ∧ ringIndex cap p j < n then src (ringIndex cap p j) else m j := by
  unfold ringStore ringIndex
  by_cases hw : cap < p + n
  · rw [if_pos hw]
    by_cases hlow : j < n - (cap - p)
    · -- the part that went round to offset 0
      have hj : ¬ p ≤ j := by omega
      simp only [memcpy, if_neg hj]
      rw [if_pos (by omega), if_pos (by omega), ptr_apply]
      congr 1
      omega
    · simp only [memcpy]
      rw [if_neg (by omega)]
      by_cases hj : p ≤ j ∧ j < p + (cap - p)
      · rw [if_pos hj, if_pos (by rw [if_pos hj.1]; omega), if_pos hj.1]
      · rw [if_neg hj, if_neg]
        split <;> omega
  · rw [if_neg hw]
    simp only [memcpy]
    by_cases hj : p ≤ j ∧ j < p + n
    · rw [if_pos hj, if_pos (by rw [if_pos hj.1]; omega), if_pos hj.1]
    · rw [if_neg hj, if_neg]
      split <;> omega

/-- **Storing in two pieces.** -/
theorem ringStore_add {cap p a b : Nat} (m src : Mem) (hp : p < cap) (hab : a + b ≤ cap) :
    ringStore cap (ringStore cap m p src a) (ringWrap cap (p + a)) (src.ptr a) b =
      ringStore cap m p src (a + b) := by
  have hq : ringWrap cap (p + a) < cap := ringWrap_lt (by omega)
  funext j
  rw [ringStore_apply _ _ hq (by omega), ringStore_apply _ _ hp (by omega),
    ringStore_apply _ _ hp hab]
  by_cases hj : j < cap
  · -- the second piece starts `a` behind `p`
    have hidx : ringIndex cap (ringWrap cap (p + a)) j < b ↔
        a ≤ ringIndex cap p j ∧ ringIndex cap p j < a + b := by
      simp only [ringIndex, ringWrap]
      split <;> split <;> split <;> omega
    by_cases hb : ringIndex cap (ringWrap cap (p + a)) j < b
    · have hab' := hidx.mp hb
      rw [if_pos ⟨hj, hb⟩, if_pos ⟨hj, hab'.2⟩, ptr_apply]
      congr 1
      simp only [ringIndex, ringWrap] at hb ⊢
      split at hb <;> split at hb <;> split <;> split <;> omega
    · rw [if_neg (fun h => hb h.2)]
      by_cases ha : ringIndex cap p j < a
      · rw [if_pos ⟨hj, ha⟩, if_pos ⟨hj, by omega⟩]
      · rw [if_neg (fun h => ha h.2), if_neg (fun h => hb (hidx.mpr ⟨by omega, h.2⟩))]
  · rw [if_neg (fun h => hj h.1), if_neg (fun h => hj h.1), if_neg (fun h => hj h.1)]

/-! ## The ring as a queue -/

theorem ringWrap_eq_mod {cap x : Nat} (h : x < cap + cap) : ringWrap cap x = x % cap := by
  unfold ringWrap
  split
  · next hle => rw [Nat.mod_eq_sub_mod hle, Nat.mod_eq_of_lt (by omega)]
  · next hlt => rw [Nat.mod_eq_of_lt (by omega)]

theorem ringIndex_add {cap q d : Nat} (hd : d < cap) :
    ringIndex cap (q % cap) ((q + d) % cap) = d := by
  have hq : q % cap < cap := Nat.mod_lt _ (by omega)
  unfold ringIndex
  rw [Nat.add_mod_eq_ite, Nat.mod_eq_of_lt hd]
  split <;> split <;> omega

/-- From position `p` on the ring holds the bytes `bs`, in this order. -/
def Queued (cap : Nat) (m : Mem) (p : Nat) (bs : List UInt8) : Prop :=
  ∀ i, i < bs.length → m ((p + i) % cap) = bs.getD i 0

theorem queued_nil (cap : Nat) (m : Mem) (p : Nat) : Queued cap m p [] :=
  fun _ hi => absurd hi (Nat.not_lt_zero _)

/-- **Storing behind the queue appends to it**, as long as all of it fits the ring. -/
theorem Queued.push {cap p n : Nat} {m : Mem} {bs : List UInt8} (h : Queued cap m p bs) (src : Mem)
    (hfit : bs.length + n ≤ cap) :
    Queued cap (ringStore cap m ((p + bs.length) % cap) src n) p (bs ++ src.slice 0 n) := by
  intro i hi
  rw [List.length_append, length_slice] at hi
  have hcap : 0 < cap := by omega
  have hj : (p + i) % cap < cap := Nat.mod_lt _ hcap
  rw [ringStore_apply m src (Nat.mod_lt _ hcap) (by omega)]
  by_cases hold : i < bs.length
  · -- the old byte lies a whole ring less its distance from the end behind the end
    have hpos : (p + i) % cap = (p + bs.length + (cap - (bs.length - i))) % cap := by
      rw [show p + bs.length + (cap - (bs.length - i)) = p + i + cap by omega, Nat.add_mod_right]
    have hidx : ringIndex cap ((p + bs.length) % cap) ((p + i) % cap) = cap - (bs.length - i) := by
      rw [hpos]
      exact ringIndex_add (by omega)
    rw [if_neg (by omega), h i hold, List.getD_append _ _ _ _ hold]
  · have hpos : p + i = p + bs.length + (i - bs.length) := by omega
    have hidx : ringIndex cap ((p + bs.length) % cap) ((p + i) % cap) = i - bs.length := by
      rw [hpos]
      exact ringIndex_add (by omega)
    rw [if_pos ⟨hj, by omega⟩, hidx, List.getD_append_right _ _ _ _ (by omega),
      getD_slice _ _ _ _ (by omega), Nat.zero_add]

/-- Moving the position drops from the queue. -/
theorem Queued.pop {cap p : Nat} {m : Mem} {bs : List UInt8} (h : Queued cap m p bs) (n : Nat) :
    Queued cap m ((p + n) % cap) (bs.drop n) := by
  intro i hi
  rw [List.length_drop] at hi
  have hget : (bs.drop n).getD i 0 = bs.getD (n + i) 0 := by
    simp [List.getD_eq_getElem?_getD]
  rw [Nat.mod_add_mod, hget, ← h (n + i) (by omega), Nat.add_assoc]

/-- The first `n` bytes of the queue, where they do not run past the end of the ring. -/
theorem Queued.front {cap p n : Nat} {m : Mem} {bs : List UInt8} (h : Queued cap m p bs)
    (hp : p + n ≤ cap) (hn : n ≤ bs.length) : m.slice p n = bs.take n := by
  apply List.ext_getElem
  · simp [hn]
  · intro i hi _
    rw [length_slice] at hi
    have hi' := h i (by omega)
    rw [Nat.mod_eq_of_lt (by omega), List.getD_eq_getElem?_getD,
      List.getElem?_eq_getElem (by omega), Option.getD_some] at hi'
    simp [slice, hi']

end Mem
