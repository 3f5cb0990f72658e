/-
# `Lib.Pointers` — a queue of pointers into memory that is rewritten

A message that carries a pointer carries what stands there when it is handled, not when
it was posted.  Such a queue hands over what was posted as long as the two are the same,
for every pointer in it: `Intact` says so, as a law about everything posted so far.

Three things happen to it.  A rewrite of the memory keeps it intact exactly if what the
waiting pointers point to stays the same (`intact_rewrite`); posting a pointer and taking
the first one change nothing about it (`intact_post`, `intact_take`).
-/
import Mathlib.Tactic.Common

namespace Pointers

variable {K V : Type}

/-- The pointers that wait, what was posted, and what was handed over, in order. -/
structure Queue (K V : Type) where
  pending : List K
  posted : List V
  delivered : List V

/-- What was handed over, and what the waiting pointers point to now, is what was posted. -/
def Intact (view : K → V) (q : Queue K V) : Prop :=
  q.posted = q.delivered ++ q.pending.map view

/-- Post a pointer to `v`. -/
def Queue.post (k : K) (v : V) (q : Queue K V) : Queue K V :=
  { q with pending := q.pending ++ [k], posted := q.posted ++ [v] }

/-- **A rewrite** of what the pointers point to. -/
theorem intact_rewrite {view view' : K → V} {q : Queue K V} (h : Intact view q) :
    Intact view' q ↔ ∀ k ∈ q.pending, view' k = view k := by
  unfold Intact at *
  rw [h, List.append_cancel_left_eq, List.map_inj_left]
  constructor
  · intro heq k hk
    exact (heq k hk).symm
  · intro heq k hk
    exact (heq k hk).symm

/-- **Posting** a pointer. -/
theorem intact_post {view : K → V} {k : K} {v : V} {q : Queue K V} :
    Intact view (q.post k v) ↔ Intact view q ∧ view k = v := by
  have hview : (q.post k v).delivered ++ (q.post k v).pending.map view =
      (q.delivered ++ q.pending.map view) ++ [view k] := by
    simp [Queue.post]
  unfold Intact
  rw [hview]
  show q.posted ++ [v] = _ ↔ _
  constructor
  · intro h
    obtain ⟨hq, hv⟩ := List.append_inj' h rfl
    exact ⟨hq, (List.singleton_inj.mp hv).symm⟩
  · rintro ⟨hq, rfl⟩
    rw [hq]

/-- **Taking** the first pointer. -/
theorem intact_take {view : K → V} {k : K} {ks : List K} {ps ds : List V} :
    Intact view ⟨ks, ps, ds ++ [view k]⟩ ↔ Intact view ⟨k :: ks, ps, ds⟩ := by
  simp [Intact]

end Pointers
