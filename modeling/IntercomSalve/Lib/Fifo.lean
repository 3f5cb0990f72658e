/-
# `Lib.Fifo` — queues beside a machine

A machine may work on a queue: a step takes some messages from its front, and
appends some.  `Fifo` is the queue with these two and the law that a step takes
nothing but what is in front and loses nothing of the rest.

From the law of a step follows the one of a run (`Fifo.conserved`): what was
handled, and behind it what still waits, is what waited first, and behind it what
was posted, in the same order.  Counted, it says that nothing is lost and nothing
handled twice (`Fifo.count`).
-/
import IntercomSalve.Lib.Run

namespace Run

/-- A queue of messages of a machine. -/
structure Fifo {A X : Type} (exec : A → X → Option X) (M : Type) where
  /-- what waits -/
  queue : X → List M
  /-- what a step takes -/
  takes : A → X → List M
  /-- what a step appends -/
  posts : A → X → List M
  /-- a step takes from the front, and appends at the end -/
  step : ∀ {a : A} {x y : X}, exec a x = some y →
    queue x ++ posts a x = takes a x ++ queue y

namespace Fifo

variable {A X M : Type} {exec : A → X → Option X} (q : Fifo exec M)

/-- What the steps of a run take. -/
def handled (l : List (Step A X)) : List M := l.flatMap fun e => q.takes e.act e.pre

/-- What they append. -/
def posted (l : List (Step A X)) : List M := l.flatMap fun e => q.posts e.act e.pre

theorem handled_snoc (l : List (Step A X)) (e : Step A X) :
    q.handled (l ++ [e]) = q.handled l ++ q.takes e.act e.pre := by
  simp [handled]

theorem posted_snoc (l : List (Step A X)) (e : Step A X) :
    q.posted (l ++ [e]) = q.posted l ++ q.posts e.act e.pre := by
  simp [posted]

/-- **Nothing is lost, doubled or reordered.** -/
theorem conserved {x y : X} {l : List (Step A X)} (hr : Runs exec x l y) :
    q.queue x ++ q.posted l = q.handled l ++ q.queue y := by
  induction hr with
  | nil => simp [handled, posted]
  | @snoc l y z a _ he ih =>
      have hstep := q.step he
      calc q.queue x ++ q.posted (l ++ [⟨y, a, z⟩])
          = (q.queue x ++ q.posted l) ++ q.posts a y := by rw [posted_snoc, List.append_assoc]
        _ = q.handled l ++ (q.queue y ++ q.posts a y) := by rw [ih, List.append_assoc]
        _ = q.handled l ++ (q.takes a y ++ q.queue z) := by rw [hstep]
        _ = q.handled (l ++ [⟨y, a, z⟩]) ++ q.queue z := by rw [handled_snoc, List.append_assoc]

/-- Of the messages with a property, as many are handled or wait as there were and came. -/
theorem count {x y : X} {l : List (Step A X)} (p : M → Bool) (hr : Runs exec x l y) :
    (q.handled l).countP p + (q.queue y).countP p =
      (q.queue x).countP p + (q.posted l).countP p := by
  rw [← List.countP_append, ← List.countP_append, q.conserved hr]

/-- **Queues in series.**  A message of the first kind, taken from the first queue, makes
one of the second kind in the second queue, and nothing else does. -/
theorem relay {N : Type} (q' : Fifo exec N) {p : M → Bool} {r : N → Bool}
    (hpass : ∀ {a : A} {x y : X}, exec a x = some y →
      (q'.posts a x).countP r = (q.takes a x).countP p)
    {x y : X} {l : List (Step A X)} (hr : Runs exec x l y) :
    (q'.handled l).countP r + (q'.queue y).countP r + (q.queue y).countP p =
      (q'.queue x).countP r + (q.queue x).countP p + (q.posted l).countP p := by
  have hmade : (q'.posted l).countP r = (q.handled l).countP p := by
    induction hr with
    | nil => rfl
    | snoc _ he ih =>
        rw [posted_snoc, handled_snoc, List.countP_append, List.countP_append, ih, hpass he]
  have hfirst := q.count p hr
  have hsecond := q'.count r hr
  omega

end Fifo

/-- Where a step posts one message of a kind or none, they count the steps that do. -/
theorem countP_flatMap_of_test {α β : Type} {p : β → Bool} {f : α → List β} {t : α → Bool}
    {l : List α} (h : ∀ a ∈ l, (f a).countP p = if t a then 1 else 0) :
    (l.flatMap f).countP p = l.countP t := by
  induction l with
  | nil => rfl
  | cons a l ih =>
      rw [List.flatMap_cons, List.countP_append, List.countP_cons,
        ih fun b hb => h b (List.mem_cons_of_mem a hb), h a List.mem_cons_self]
      omega

end Run
