/-
# `Lib.Goto` — loops written with a label and a jump back to it

A loop of the form

    label:  body;  …  goto label;  …  fall through

is a function `body` from the state at the label to the next one: either the
state at the jump back, or the state with which control leaves the loop.
Nothing here knows what the body does.  Three facts about such loops are
proved, because every argument about one needs exactly these:

  * a measure that grows at every jump back and is bounded at the label ends
    the loop (`ends_of_progress`);
  * a set of states that always jumps back into itself does not end
    (`not_ends_of_trap`);
  * two loops whose bodies agree up to a relation end in related states
    (`Ends.simulates`).
-/
import Mathlib.Logic.Relation

namespace Goto

/-- What one pass through the body ends in. -/
inductive Jump (σ : Type) where
  | again (s : σ)
  | leave (s : σ)

/-- The state, whichever way the pass ends. -/
def Jump.state {σ : Type} : Jump σ → σ
  | .again s => s
  | .leave s => s

@[simp] theorem Jump.state_again {σ : Type} (s : σ) : (Jump.again s).state = s := rfl

@[simp] theorem Jump.state_leave {σ : Type} (s : σ) : (Jump.leave s).state = s := rfl

/-- The outcome with every state mapped. -/
def Jump.map {σ τ : Type} (f : σ → τ) : Jump σ → Jump τ
  | .again s => .again (f s)
  | .leave s => .leave (f s)

@[simp] theorem Jump.map_again {σ τ : Type} (f : σ → τ) (s : σ) :
    (Jump.again s).map f = .again (f s) := rfl

@[simp] theorem Jump.map_leave {σ τ : Type} (f : σ → τ) (s : σ) :
    (Jump.leave s).map f = .leave (f s) := rfl

section Loop

variable {σ : Type} (body : σ → Jump σ)

/-- `s` jumps back to the label with state `t`. -/
def Back (s t : σ) : Prop := body s = .again t

/-- The states the label is visited with, from the first one on. -/
def Visits (s t : σ) : Prop := Relation.ReflTransGen (Back body) s t

/-- The loop entered with the first state is left with the second one. -/
inductive Ends : σ → σ → Prop
  | leave {s t : σ} : body s = .leave t → Ends s t
  | again {s t u : σ} : body s = .again t → Ends t u → Ends s u

/-- The loop, for at most `fuel` passes. -/
def run : Nat → σ → Option σ
  | 0, _ => none
  | fuel + 1, s =>
      match body s with
      | .leave t => some t
      | .again t => run fuel t

end Loop

section Facts

variable {σ : Type} {body : σ → Jump σ}

theorem Visits.head {s t u : σ} (h : body s = .again t) (hv : Visits body t u) :
    Visits body s u :=
  Relation.ReflTransGen.head h hv

/-- Nothing is visited after the pass that leaves. -/
theorem Visits.of_leave {s t v : σ} (h : body s = .leave t) (hv : Visits body s v) : v = s := by
  cases Relation.ReflTransGen.cases_head hv with
  | inl heq => exact heq.symm
  | inr hstep =>
      obtain ⟨c, hc, -⟩ := hstep
      have hc' : body s = .again c := hc
      rw [h] at hc'
      exact nomatch hc'

/-- After a jump back, the visits are the label's own state and the later ones. -/
theorem Visits.of_again {s t v : σ} (h : body s = .again t) (hv : Visits body s v) :
    v = s ∨ Visits body t v := by
  cases Relation.ReflTransGen.cases_head hv with
  | inl heq => exact Or.inl heq.symm
  | inr hstep =>
      obtain ⟨c, hc, hrest⟩ := hstep
      have hc' : body s = .again c := hc
      rw [h] at hc'
      obtain rfl := Jump.again.inj hc'
      exact Or.inr hrest

/-- A property of the first state that every jump back keeps holds at every visit. -/
theorem Visits.invariant {I : σ → Prop} {s v : σ} (hv : Visits body s v) (h0 : I s)
    (hstep : ∀ a b, I a → body a = .again b → I b) : I v := by
  induction hv with
  | refl => exact h0
  | tail _ hlast ih => exact hstep _ _ ih hlast

theorem Ends.det {s t t' : σ} (h : Ends body s t) : Ends body s t' → t = t' := by
  induction h with
  | leave hl =>
      intro h'
      cases h' with
      | leave hl' => exact Jump.leave.inj (hl.symm.trans hl')
      | again ha _ => exact nomatch hl.symm.trans ha
  | again ha _ ih =>
      intro h'
      cases h' with
      | leave hl => exact nomatch ha.symm.trans hl
      | again ha' hrest =>
          obtain rfl := Jump.again.inj (ha.symm.trans ha')
          exact ih hrest

theorem Ends.last {s t : σ} (h : Ends body s t) :
    ∃ v, Visits body s v ∧ body v = .leave t := by
  induction h with
  | leave hl => exact ⟨_, Relation.ReflTransGen.refl, hl⟩
  | again ha _ ih =>
      obtain ⟨v, hv, hl⟩ := ih
      exact ⟨v, hv.head ha, hl⟩

theorem Ends.of_visits {s v t : σ} (hv : Visits body s v) (h : Ends body v t) :
    Ends body s t := by
  induction hv using Relation.ReflTransGen.head_induction_on with
  | refl => exact h
  | head hb _ ih => exact .again hb ih

theorem ends_of_run {s t : σ} : ∀ {n : Nat}, run body n s = some t → Ends body s t
  | 0, h => nomatch h
  | n + 1, h => by
      simp only [run] at h
      cases hb : body s with
      | leave u =>
          rw [hb] at h
          obtain rfl := Option.some.inj h
          exact .leave hb
      | again u =>
          rw [hb] at h
          exact .again hb (ends_of_run h)

/-- **Progress ends the loop.**  The measure grows at every jump back from a
visited state, and a visited state at the bound leaves. -/
theorem ends_of_progress (m : σ → Nat) (bound : Nat) {s : σ}
    (hgrow : ∀ v t, Visits body s v → body v = .again t → m v < m t)
    (hleave : ∀ v t, Visits body s v → body v = .again t → m v < bound) :
    ∃ u, Ends body s u := by
  -- induction on what is left of the bound, at an arbitrary visited state
  suffices H : ∀ n v, Visits body s v → bound - m v ≤ n → ∃ u, Ends body v u from
    H _ s Relation.ReflTransGen.refl (Nat.le_refl _)
  intro n
  induction n with
  | zero =>
      intro v hv hn
      cases hb : body v with
      | leave u => exact ⟨u, .leave hb⟩
      | again t =>
          have := hleave v t hv hb
          omega
  | succ n ih =>
      intro v hv hn
      cases hb : body v with
      | leave u => exact ⟨u, .leave hb⟩
      | again t =>
          have hlt := hgrow v t hv hb
          have hbd := hleave v t hv hb
          obtain ⟨u, hu⟩ := ih t (hv.tail hb) (by omega)
          exact ⟨u, .again hb hu⟩

/-- **A trap does not end.**  Every state of `T` jumps back, and into `T`. -/
theorem not_ends_of_trap (T : σ → Prop) (hT : ∀ v, T v → ∃ t, body v = .again t ∧ T t)
    {s : σ} (hs : T s) : ¬ ∃ u, Ends body s u := by
  rintro ⟨u, hu⟩
  induction hu with
  | leave hl =>
      obtain ⟨t, ht, -⟩ := hT _ hs
      exact nomatch hl.symm.trans ht
  | again ha _ ih =>
      obtain ⟨t, ht, hTt⟩ := hT _ hs
      obtain rfl := Jump.again.inj (ha.symm.trans ht)
      exact ih hTt

end Facts

section Simulation

variable {σ τ : Type} {body : σ → Jump σ} {body' : τ → Jump τ}

/-- Two outcomes of the same kind: jumps back to states related by `R`, or exits to
states related by `Q`. -/
inductive Jump.Rel (R Q : σ → τ → Prop) : Jump σ → Jump τ → Prop
  | again {s : σ} {t : τ} : R s t → Jump.Rel R Q (.again s) (.again t)
  | leave {s : σ} {t : τ} : Q s t → Jump.Rel R Q (.leave s) (.leave t)

theorem Jump.Rel.flip {R Q : σ → τ → Prop} {j : Jump σ} {j' : Jump τ} (h : Jump.Rel R Q j j') :
    Jump.Rel (fun t s => R s t) (fun t s => Q s t) j' j := by
  cases h with
  | again h => exact .again h
  | leave h => exact .leave h

/-- What is known of a jump back may be added to its relation. -/
theorem Jump.Rel.imp {R R' Q : σ → τ → Prop} {j : Jump σ} {j' : Jump τ} (h : Jump.Rel R Q j j')
    (hR : ∀ s t, j = .again s → R s t → R' s t) : Jump.Rel R' Q j j' := by
  cases h with
  | again h => exact .again (hR _ _ rfl h)
  | leave h => exact .leave h

/-- **Lockstep.**  When related states have related outcomes, the second loop
ends whenever the first one does, and the exits are related. -/
theorem Ends.simulates {R Q : σ → τ → Prop}
    (hR : ∀ s t, R s t → Jump.Rel R Q (body s) (body' t)) {s u : σ} (h : Ends body s u) :
    ∀ {t : τ}, R s t → ∃ w, Ends body' t w ∧ Q u w := by
  induction h with
  | leave hl =>
      intro t hst
      have hj := hR _ _ hst
      rw [hl] at hj
      cases hb : body' t with
      | leave w => rw [hb] at hj; cases hj with | leave hr => exact ⟨w, .leave hb, hr⟩
      | again w => rw [hb] at hj; exact nomatch hj
  | again ha _ ih =>
      intro t hst
      have hj := hR _ _ hst
      rw [ha] at hj
      cases hb : body' t with
      | leave w => rw [hb] at hj; exact nomatch hj
      | again w =>
          rw [hb] at hj
          cases hj with
          | again hr =>
              obtain ⟨x, hx, hrx⟩ := ih hr
              exact ⟨x, .again hb hx, hrx⟩

/-- In lockstep, each visit of the first loop has one of the second. -/
theorem Visits.simulates {R Q : σ → τ → Prop}
    (hR : ∀ s t, R s t → Jump.Rel R Q (body s) (body' t)) {s u : σ} {t : τ} (hst : R s t)
    (hv : Visits body s u) : ∃ w, Visits body' t w ∧ R u w := by
  induction hv with
  | refl => exact ⟨t, Relation.ReflTransGen.refl, hst⟩
  | @tail v u _ hlast ih =>
      obtain ⟨w, hw, hvw⟩ := ih
      have hj := hR _ _ hvw
      rw [show body v = .again u from hlast] at hj
      cases hb : body' w with
      | leave x => rw [hb] at hj; exact nomatch hj
      | again x =>
          rw [hb] at hj
          cases hj with
          | again hr => exact ⟨x, hw.tail hb, hr⟩

end Simulation

end Goto
