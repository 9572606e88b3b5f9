import Corvus.Library.Dialogue

/-!
# Dialogues that take turns

Several dialogues share one thread of control. A turn takes one of them from the answer it
waits for to the next question that it awaits, or to its end. The questions in between are
answered at once, and no other dialogue has a turn until then.
-/

namespace Corvus.Dialogue

variable {ι Q : Type} {R : Q → Type} {α : Type} {awaited : Q → Bool} {p p' : Dialogue Q R α}
  {u : List (Exchange Q R)} {i j : ι}

/-- A turn of one dialogue. Only its first question may be one that was awaited. -/
structure Turn (awaited : Q → Bool) (p : Dialogue Q R α) (u : List (Exchange Q R))
    (p' : Dialogue Q R α) : Prop where
  follows : Follows p u p'
  runs_on : ∀ x ∈ u.tail, awaited x.question = false
  rests : ∀ q ∈ p'.pending, awaited q = true

theorem rests_ask {q : Q} {k : R q → Dialogue Q R α} (waits : awaited q = true) :
    ∀ q' ∈ (ask q k).pending, awaited q' = true := by
  intro q' mem
  rw [← Option.some.inj mem]
  exact waits

theorem rests_done {a : α} : ∀ q ∈ (done a : Dialogue Q R α).pending, awaited q = true :=
  fun _ mem => nomatch mem

/-- Turns of dialogues, one after the other, with what is left of each of them. -/
inductive Turns [DecidableEq ι] (awaited : Q → Bool) (start : ι → Dialogue Q R α) :
    List (ι × Exchange Q R) → (ι → Dialogue Q R α) → Prop
  | nil : Turns awaited start [] start
  | turn {t : List (ι × Exchange Q R)} {ps : ι → Dialogue Q R α}
      (earlier : Turns awaited start t ps) (i : ι) {u : List (Exchange Q R)}
      {p : Dialogue Q R α} (next : Turn awaited (ps i) u p) :
      Turns awaited start (t ++ u.map (Prod.mk i)) (Function.update ps i p)

variable [DecidableEq ι] {start ps : ι → Dialogue Q R α} {t t' : List (ι × Exchange Q R)}

/-- The exchanges of one of the dialogues. -/
def own (i : ι) (t : List (ι × Exchange Q R)) : List (Exchange Q R) :=
  (t.filter (·.1 = i)).map (·.2)

@[simp] theorem own_append : own i (t ++ t') = own i t ++ own i t' := by simp [own]

@[simp] theorem own_cons_self {x : Exchange Q R} : own i ((i, x) :: t) = x :: own i t := by
  simp [own]

theorem own_turn : own i (u.map (Prod.mk i)) = u := by
  induction u with
  | nil => rfl
  | cons x u ih => rw [List.map_cons, own_cons_self, ih]

theorem own_turn_of_ne (other : j ≠ i) : own i (u.map (Prod.mk j)) = [] := by
  simp [own, other]

/-- However the turns are taken, each dialogue is followed by its own exchanges. -/
theorem Turns.follows (turns : Turns awaited start t ps) (i : ι) :
    Follows (start i) (own i t) (ps i) := by
  induction turns with
  | nil => exact .refl _
  | turn earlier j next ih =>
    rw [own_append]
    by_cases same : j = i
    · subst same
      rw [own_turn, Function.update_self]
      exact ih.trans next.follows
    · rw [own_turn_of_ne same, List.append_nil, Function.update_of_ne (Ne.symm same)]
      exact ih

end Corvus.Dialogue
