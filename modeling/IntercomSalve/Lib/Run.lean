/-
# `Lib.Run` — runs of a machine, conditions on their steps, and history

A machine is a partial function `exec` from an action and a state to the next
state.  A run is the list of its steps, each with the state before, the action
and the state after.  A condition or a property of a run is a predicate of a
step, asked of every step in the list; `Runs.invariant` is the induction for "in
every run whose steps all meet …", and `Runs.forall_iff` the one for laws that hold
exactly in such runs.

A history that the machine does not keep is kept beside it, as what `upd` makes of
the steps so far, and a law may be about the state and the history together
(`Runs.forall_history_iff`).
-/
import Mathlib.Tactic.Common

namespace Run

/-- One step of a run: the state before, the action, the state after. -/
structure Step (A X : Type) where
  pre : X
  act : A
  post : X

section Machine

variable {A X : Type} (exec : A → X → Option X)

/-- `Runs exec x l y`: the steps `l` lead from `x` to `y`. -/
inductive Runs (x : X) : List (Step A X) → X → Prop
  | nil : Runs x [] x
  | snoc {l : List (Step A X)} {y z : X} {a : A} :
      Runs x l y → exec a y = some z → Runs x (l ++ [⟨y, a, z⟩]) z

/-- The states that some run leads to. -/
def Reach (x y : X) : Prop := ∃ l, Runs exec x l y

/-- The state after a list of actions. -/
def runActs : List A → X → Option X
  | [], x => some x
  | a :: as, x => (exec a x).bind (runActs as)

/-- The steps that a list of actions takes, and the state after it. -/
def trace : List A → X → Option (List (Step A X) × X)
  | [], x => some ([], x)
  | a :: as, x => (exec a x).bind fun y => (trace as y).map fun p => (⟨x, a, y⟩ :: p.1, p.2)

end Machine

section Facts

variable {A X : Type} {exec : A → X → Option X}

theorem Runs.head {x y z : X} {a : A} {l : List (Step A X)} (he : exec a x = some y)
    (hr : Runs exec y l z) : Runs exec x (⟨x, a, y⟩ :: l) z := by
  induction hr with
  | nil => exact Runs.nil.snoc he
  | snoc _ he' ih => exact ih.snoc he'

/-- Two runs, one after the other. -/
theorem Runs.append {x y z : X} {l₁ l₂ : List (Step A X)} (h₁ : Runs exec x l₁ y)
    (h₂ : Runs exec y l₂ z) : Runs exec x (l₁ ++ l₂) z := by
  induction h₂ with
  | nil => rwa [List.append_nil]
  | snoc _ he ih =>
      rw [← List.append_assoc]
      exact ih.snoc he

theorem Runs.of_trace {x y : X} {l : List A} {t : List (Step A X)}
    (h : trace exec l x = some (t, y)) : Runs exec x t y := by
  induction l generalizing x t with
  | nil =>
      obtain ⟨rfl, rfl⟩ := Prod.mk.inj (Option.some.inj h)
      exact .nil
  | cons a l ih =>
      obtain ⟨w, hw, h⟩ := Option.bind_eq_some_iff.mp h
      obtain ⟨p, hp, heq⟩ := Option.map_eq_some_iff.mp h
      obtain ⟨rfl, rfl⟩ := Prod.mk.inj heq
      exact (ih hp).head hw

/-- The run of a list of actions, with a test of it that can be evaluated. -/
theorem Runs.of_trace_test {x : X} {l : List A} {q : List (Step A X) → X → Bool}
    (h : ((trace exec l x).any fun t => q t.1 t.2) = true) :
    ∃ t y, Runs exec x t y ∧ q t y = true := by
  cases ht : trace exec l x with
  | none =>
      rw [ht] at h
      exact nomatch h
  | some r =>
      rw [ht, Option.any_some] at h
      exact ⟨r.1, r.2, .of_trace ht, h⟩

theorem Reach.refl (x : X) : Reach exec x x := ⟨[], .nil⟩

theorem Reach.snoc {x y z : X} {a : A} (h : Reach exec x y) (he : exec a y = some z) :
    Reach exec x z := by
  obtain ⟨l, hl⟩ := h
  exact ⟨_, hl.snoc he⟩

/-- What a run from a reachable state leads to is reachable. -/
theorem Reach.runs {x y z : X} {l : List (Step A X)} (h : Reach exec x y)
    (hr : Runs exec y l z) : Reach exec x z := by
  induction hr with
  | nil => exact h
  | snoc _ he ih => exact ih.snoc he

theorem Reach.runActs {x y z : X} {as : List A} (h : Reach exec x y)
    (hr : runActs exec as y = some z) : Reach exec x z := by
  induction as generalizing y with
  | nil =>
      obtain rfl := Option.some.inj hr
      exact h
  | cons a as ih =>
      simp only [Run.runActs, Option.bind_eq_some_iff] at hr
      obtain ⟨w, hw, hr⟩ := hr
      exact ih (h.snoc hw) hr

/-- **Invariants of runs.**  `I` holds first and each step that meets `P` keeps
it; then it holds before every step and at the end. -/
theorem Runs.invariant {I : X → Prop} {P : Step A X → Prop} {x y : X} {l : List (Step A X)}
    (h0 : I x) (hstep : ∀ y a z, I y → exec a y = some z → P ⟨y, a, z⟩ → I z)
    (hr : Runs exec x l y) (hok : ∀ e ∈ l, P e) :
    I y ∧ ∀ e ∈ l, I e.pre ∧ exec e.act e.pre = some e.post := by
  induction hr with
  | nil => exact ⟨h0, fun e he => absurd he List.not_mem_nil⟩
  | @snoc l y z a _ he ih =>
      obtain ⟨hy, hl⟩ := ih fun e hm => hok e (List.mem_append_left _ hm)
      have hlast : P ⟨y, a, z⟩ := hok _ (List.mem_append_right _ (List.mem_singleton_self _))
      refine ⟨hstep y a z hy he hlast, ?_⟩
      intro e hm
      rcases List.mem_append.mp hm with hm | hm
      · exact hl e hm
      · obtain rfl := List.mem_singleton.mp hm
        exact ⟨hy, he⟩

theorem Reach.invariant {I : X → Prop} {x y : X} (h : Reach exec x y) (h0 : I x)
    (hstep : ∀ y a z, I y → exec a y = some z → I z) : I y := by
  obtain ⟨l, hl⟩ := h
  exact (hl.invariant (P := fun _ => True) h0 (fun y a z hy he _ => hstep y a z hy he)
    fun _ _ => trivial).1

/-- **Laws with an exact condition**, about the state and the history that `upd` keeps.
Where a step from a good state leads to a good state exactly if it meets `C`, a run stays
good exactly if all its steps meet `C`. -/
theorem Runs.forall_history_iff {H : Type} {C : Step A X → Prop} {x y : X}
    {l : List (Step A X)} (hr : Runs exec x l y) (upd : H → Step A X → H) (h₀ : H)
    (I : H → X → Prop) (h0 : I h₀ x)
    (hstep : ∀ h y a z, Reach exec x y → I h y → exec a y = some z →
      (I (upd h ⟨y, a, z⟩) z ↔ C ⟨y, a, z⟩)) :
    (∀ l₁ e l₂, l = l₁ ++ e :: l₂ → I ((l₁ ++ [e]).foldl upd h₀) e.post) ↔ ∀ e ∈ l, C e := by
  have hboth : ((∀ l₁ e l₂, l = l₁ ++ e :: l₂ → I ((l₁ ++ [e]).foldl upd h₀) e.post) ∨
      ∀ e ∈ l, C e) → I (l.foldl upd h₀) y ∧ (∀ e ∈ l, C e) ∧
        ∀ l₁ e l₂, l = l₁ ++ e :: l₂ → I ((l₁ ++ [e]).foldl upd h₀) e.post := by
    induction hr with
    | nil => exact fun _ => ⟨h0, by simp, by simp⟩
    | @snoc l y z a hr he ih =>
        intro h
        obtain ⟨hy, hC, hI⟩ := ih (h.imp
          (fun h l₁ e l₂ hl => h l₁ e (l₂ ++ [⟨y, a, z⟩]) (by simp [hl]))
          fun h e hm => h e (List.mem_append_left _ hm))
        have hiff := hstep _ y a z ⟨l, hr⟩ hy he
        have hfold : (l ++ [(⟨y, a, z⟩ : Step A X)]).foldl upd h₀ =
            upd (l.foldl upd h₀) ⟨y, a, z⟩ := by simp
        have hz : I ((l ++ [(⟨y, a, z⟩ : Step A X)]).foldl upd h₀) z := by
          rcases h with h | h
          · exact h l ⟨y, a, z⟩ [] rfl
          · rw [hfold]
            exact hiff.mpr (h _ (by simp))
        refine ⟨hz, fun e hm => ?_, fun l₁ e l₂ hl => ?_⟩
        · rcases List.mem_append.mp hm with hm | hm
          · exact hC e hm
          · obtain rfl := List.mem_singleton.mp hm
            exact hiff.mp (hfold ▸ hz)
        · rcases List.eq_nil_or_concat l₂ with rfl | ⟨l₂, e', rfl⟩
          · obtain ⟨rfl, hlast⟩ := List.append_inj' hl rfl
            obtain rfl := List.singleton_inj.mp hlast
            exact hz
          · rw [List.concat_eq_append, ← List.cons_append, ← List.append_assoc] at hl
            exact hI l₁ e l₂ (List.append_inj' hl rfl).1
  exact ⟨fun h => (hboth (Or.inl h)).2.1, fun h => (hboth (Or.inr h)).2.2⟩

/-- The same for a property of the steps: where the steps before have kept `I`, a step has
`P` exactly if it meets `C`, and `P` keeps `I`. -/
theorem Runs.forall_iff {I : X → Prop} {P C : Step A X → Prop} {x y : X} {l : List (Step A X)}
    (h0 : I x) (hr : Runs exec x l y)
    (hstep : ∀ y a z, Reach exec x y → I y → exec a y = some z →
      (P ⟨y, a, z⟩ ↔ C ⟨y, a, z⟩) ∧ (P ⟨y, a, z⟩ → I z)) :
    (∀ e ∈ l, P e) ↔ ∀ e ∈ l, C e := by
  have hboth : ((∀ e ∈ l, P e) ∨ ∀ e ∈ l, C e) → I y ∧ (∀ e ∈ l, P e) ∧ ∀ e ∈ l, C e := by
    induction hr with
    | nil => exact fun _ => ⟨h0, by simp, by simp⟩
    | @snoc l y z a hr he ih =>
        intro h
        obtain ⟨hy, hP, hC⟩ := ih (h.imp (fun h e hm => h e (List.mem_append_left _ hm))
          fun h e hm => h e (List.mem_append_left _ hm))
        obtain ⟨hiff, hkeep⟩ := hstep y a z ⟨l, hr⟩ hy he
        have hlast : P ⟨y, a, z⟩ := by
          rcases h with h | h
          · exact h _ (by simp)
          · exact hiff.mpr (h _ (by simp))
        refine ⟨hkeep hlast, fun e hm => ?_, fun e hm => ?_⟩
        · rcases List.mem_append.mp hm with hm | hm
          · exact hP e hm
          · obtain rfl := List.mem_singleton.mp hm
            exact hlast
        · rcases List.mem_append.mp hm with hm | hm
          · exact hC e hm
          · obtain rfl := List.mem_singleton.mp hm
            exact hiff.mp hlast
  exact ⟨fun h => (hboth (Or.inl h)).2.2, fun h => (hboth (Or.inr h)).2.1⟩

/-- Where the property is that the state after the step is good. -/
theorem Runs.forall_post_iff {I : X → Prop} {C : Step A X → Prop} {x y : X} {l : List (Step A X)}
    (h0 : I x) (hr : Runs exec x l y)
    (hstep : ∀ y a z, Reach exec x y → I y → exec a y = some z → (I z ↔ C ⟨y, a, z⟩)) :
    (∀ e ∈ l, I e.post) ↔ ∀ e ∈ l, C e :=
  hr.forall_iff (P := fun e => I e.post) h0 fun y a z hy hI he => ⟨hstep y a z hy hI he, id⟩

/-- Every step of a run starts in a reachable state and is one of the machine. -/
theorem Runs.steps {x y : X} {l : List (Step A X)} (hr : Runs exec x l y) :
    ∀ e ∈ l, Reach exec x e.pre ∧ exec e.act e.pre = some e.post :=
  (hr.invariant (I := Reach exec x) (P := fun _ => True) (.refl x)
    (fun _ _ _ hy he _ => hy.snoc he) fun _ _ => trivial).2

/-- Where nothing has to be kept, and the property is asked of the steps that have `D`. -/
theorem Runs.forall_where_iff {D P C : Step A X → Prop} {x y : X} {l : List (Step A X)}
    (hr : Runs exec x l y)
    (hstep : ∀ y a z, Reach exec x y → exec a y = some z → D ⟨y, a, z⟩ →
      (P ⟨y, a, z⟩ ↔ C ⟨y, a, z⟩)) :
    (∀ e ∈ l, D e → P e) ↔ ∀ e ∈ l, D e → C e := by
  refine forall₂_congr fun e he => forall_congr' fun hD => ?_
  obtain ⟨hreach, hexec⟩ := hr.steps e he
  exact hstep _ _ _ hreach hexec hD

/-- A run up to one of its steps. -/
theorem Runs.before {x y : X} {l l₁ l₂ : List (Step A X)} {e : Step A X} (hr : Runs exec x l y)
    (hl : l = l₁ ++ e :: l₂) : Runs exec x l₁ e.pre ∧ exec e.act e.pre = some e.post := by
  induction hr generalizing l₂ with
  | nil => exact absurd hl.symm (by simp)
  | @snoc l y z a hr' he ih =>
      rcases List.eq_nil_or_concat l₂ with rfl | ⟨l₂, e', rfl⟩
      · obtain ⟨rfl, hlast⟩ := List.append_inj' hl rfl
        obtain rfl := List.singleton_inj.mp hlast
        exact ⟨hr', he⟩
      · rw [List.concat_eq_append, ← List.cons_append, ← List.append_assoc] at hl
        exact ih (List.append_inj' hl rfl).1

/-- A run up to its last step. -/
theorem Runs.of_snoc {x z : X} {l : List (Step A X)} {e : Step A X}
    (hr : Runs exec x (l ++ [e]) z) :
    Runs exec x l e.pre ∧ exec e.act e.pre = some e.post ∧ e.post = z := by
  generalize hk : l ++ [e] = k at hr
  cases hr with
  | nil => exact absurd hk (by simp)
  | snoc hr' he =>
      obtain ⟨rfl, hlast⟩ := List.append_inj' hk rfl
      obtain rfl := List.singleton_inj.mp hlast
      exact ⟨hr', he, rfl⟩

/-- A run in two parts. -/
theorem Runs.split {x z : X} {l l₁ l₂ : List (Step A X)} (hr : Runs exec x l z)
    (hl : l = l₁ ++ l₂) : ∃ y, Runs exec x l₁ y ∧ Runs exec y l₂ z := by
  induction hr generalizing l₂ with
  | nil =>
      obtain ⟨rfl, rfl⟩ := List.append_eq_nil_iff.mp hl.symm
      exact ⟨x, .nil, .nil⟩
  | @snoc l y z a hr' he ih =>
      rcases List.eq_nil_or_concat l₂ with rfl | ⟨l₂, e, rfl⟩
      · rw [List.append_nil] at hl
        subst hl
        exact ⟨z, hr'.snoc he, .nil⟩
      · rw [List.concat_eq_append] at hl ⊢
        rw [← List.append_assoc] at hl
        obtain ⟨hfront, hlast⟩ := List.append_inj' hl rfl
        obtain rfl := List.singleton_inj.mp hlast
        obtain ⟨w, h₁, h₂⟩ := ih hfront
        exact ⟨w, h₁, h₂.snoc he⟩

/-- A test of every element of a list and the ones before it. -/
def everySplit {α : Type} (q : List α → α → Bool) (l : List α) : Bool :=
  (List.range l.length).all fun k =>
    match l.drop k with
    | e :: _ => q (l.take k) e
    | [] => true

theorem everySplit_iff {α : Type} {q : List α → α → Bool} {l : List α} :
    everySplit q l = true ↔ ∀ l₁ e l₂, l = l₁ ++ e :: l₂ → q l₁ e = true := by
  constructor
  · rintro h l₁ e l₂ rfl
    have hk := List.all_eq_true.mp h l₁.length (List.mem_range.mpr (by simp))
    rw [List.drop_left, List.take_left] at hk
    exact hk
  · intro h
    refine List.all_eq_true.mpr ?_
    intro k hk
    have hlt := List.mem_range.mp hk
    rw [List.drop_eq_getElem_cons hlt]
    refine h _ _ (l.drop (k + 1)) ?_
    rw [← List.drop_eq_getElem_cons hlt, List.take_append_drop]

end Facts

end Run
