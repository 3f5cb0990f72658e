/-
# `Lib.Settle` — a map that brings its states somewhere within a number of steps

`Within f n P x` says that `f`, applied to `x` at most `n` times, leads to a state
with `P`.  A stay in one phase is bounded by a measure that every step lowers
(`Within.of_measure`), and phases are put one after the other (`Within.trans`).  A measure that
only may be lowered stays where it is in the end (`eventually_const`).
-/
import Mathlib.Logic.Function.Iterate
import Mathlib.Order.OrderIsoNat

namespace Settle

variable {X : Type} {f : X → X} {P Q : X → Prop} {m n : Nat} {x : X}

/-- `f` leads from `x` to a state with `P` in at most `n` steps. -/
def Within (f : X → X) (n : Nat) (P : X → Prop) (x : X) : Prop := ∃ k ≤ n, P (f^[k] x)

theorem Within.now (h : P x) : Within f n P x := ⟨0, Nat.zero_le n, h⟩

theorem Within.step (h : Within f n P (f x)) : Within f (n + 1) P x := by
  obtain ⟨k, hk, hP⟩ := h
  exact ⟨k + 1, Nat.succ_le_succ hk, hP⟩

theorem Within.mono (h : Within f m P x) (hmn : m ≤ n) : Within f n P x := by
  obtain ⟨k, hk, hP⟩ := h
  exact ⟨k, Nat.le_trans hk hmn, hP⟩

/-- One phase after the other. -/
theorem Within.trans (h : Within f m P x) (hPQ : ∀ y, P y → Within f n Q y) :
    Within f (m + n) Q x := by
  obtain ⟨k, hk, hP⟩ := h
  obtain ⟨j, hj, hQ⟩ := hPQ _ hP
  refine ⟨j + k, by omega, ?_⟩
  rwa [Function.iterate_add_apply]

/-- A phase `I` in which every step lowers the measure `μ` ends after `μ x` steps. -/
theorem Within.of_measure (I : X → Prop) (μ : X → Nat)
    (hstep : ∀ y, I y → ¬ P y → I (f y) ∧ μ (f y) < μ y) (hx : I x) :
    Within f (μ x) (fun y => I y ∧ P y) x := by
  generalize hn : μ x = n
  induction n using Nat.strongRecOn generalizing x with
  | _ n ih =>
      by_cases hP : P x
      · exact .now ⟨hx, hP⟩
      · obtain ⟨hI, hlt⟩ := hstep x hx hP
        rw [hn] at hlt
        exact (ih (μ (f x)) hlt hI rfl).step.mono hlt

/-- A fixed point, once reached, is kept. -/
theorem Within.fixed {p : X} (hp : f p = p) (h : Within f n (fun y => y = p) x) :
    ∃ k ≤ n, ∀ j, k ≤ j → f^[j] x = p := by
  obtain ⟨k, hk, hP⟩ := h
  refine ⟨k, hk, ?_⟩
  intro j hj
  obtain ⟨i, rfl⟩ := Nat.exists_eq_add_of_le' hj
  rw [Function.iterate_add_apply, hP]
  exact Function.iterate_fixed hp i

/-- A measure that never grows from some step on is the same from some step on. -/
theorem eventually_const (μ : Nat → Nat) {a : Nat} (h : ∀ n, a ≤ n → μ (n + 1) ≤ μ n) :
    ∃ b, a ≤ b ∧ ∀ n, b ≤ n → μ (n + 1) = μ n := by
  have hanti : Antitone fun n => μ (a + n) :=
    antitone_nat_of_succ_le fun n => h (a + n) (Nat.le_add_right a n)
  obtain ⟨b, hb⟩ := WellFoundedLT.antitone_chain_condition hanti
  refine ⟨a + b, Nat.le_add_right a b, ?_⟩
  intro n hn
  obtain ⟨k, rfl⟩ := Nat.exists_eq_add_of_le hn
  have hnow : μ (a + b) = μ (a + (b + k)) := hb (b + k) (Nat.le_add_right b k)
  have hnext : μ (a + b) = μ (a + (b + k + 1)) := hb (b + k + 1) (by omega)
  rw [Nat.add_assoc a b k, Nat.add_assoc a (b + k) 1, ← hnow, ← hnext]

end Settle
