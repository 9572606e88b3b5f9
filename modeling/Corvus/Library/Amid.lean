import Corvus.Library.Dialogue
import Mathlib.Logic.Relation

/-!
# Dialogues amid changes

A dialogue that only looks at a world which changes by itself. Before each answer the world may
change any number of times, and the answer is one that the world allows.
-/

namespace Corvus.Dialogue

variable {Q σ : Type} {R : Q → Type} {α β : Type}

section Amid

variable (change : σ → σ → Prop) (answers : (q : Q) → R q → σ → Prop)

/-- The dialogue ends with this value and in this world. -/
inductive Amid : Dialogue Q R α → σ → α → σ → Prop
  | done (a : α) (s : σ) : Amid (done a) s a s
  | ask {q : Q} {k : R q → Dialogue Q R α} {r : R q} {s t u : σ} {a : α}
      (changed : Relation.ReflTransGen change s t) (answered : answers q r t)
      (rest : Amid (k r) t a u) : Amid (ask q k) s a u

end Amid

variable {change : σ → σ → Prop} {answers answers' : (q : Q) → R q → σ → Prop}
  {p : Dialogue Q R α} {f : α → Dialogue Q R β} {s u : σ} {a : α} {b : β}

theorem amid_pure {a' : α} :
    Amid change answers (pure a : Dialogue Q R α) s a' u ↔ a = a' ∧ s = u := by
  constructor
  · intro run
    cases run
    exact ⟨rfl, rfl⟩
  · rintro ⟨rfl, rfl⟩
    exact .done _ _

/-- What an answer goes on with. -/
theorem amid_query {q : Q} {g : R q → Dialogue Q R β} :
    Amid change answers (query q >>= g) s b u ↔
      ∃ t r, Relation.ReflTransGen change s t ∧ answers q r t ∧
        Amid change answers (g r) t b u := by
  constructor
  · intro run
    cases run with
    | ask changed answered rest => exact ⟨_, _, changed, answered, rest⟩
  · rintro ⟨t, r, changed, answered, rest⟩
    exact .ask changed answered rest

theorem amid_bind : Amid change answers (p >>= f) s b u ↔
    ∃ a t, Amid change answers p s a t ∧ Amid change answers (f a) t b u := by
  induction p generalizing s with
  | done a =>
    constructor
    · intro run
      exact ⟨a, s, .done a s, run⟩
    · rintro ⟨a', t, first, second⟩
      cases first
      exact second
  | ask q k ih =>
    constructor
    · intro run
      cases run with
      | ask changed answered rest =>
        obtain ⟨a, t, first, second⟩ := (ih _).mp rest
        exact ⟨a, t, .ask changed answered first, second⟩
    · rintro ⟨a, t, first, second⟩
      cases first with
      | ask changed answered rest => exact .ask changed answered ((ih _).mpr ⟨a, t, rest, second⟩)

theorem keeps_changes {I : σ → Prop} (keeps : ∀ s t, change s t → I s → I t)
    (changed : Relation.ReflTransGen change s u) (holds : I s) : I u := by
  induction changed with
  | refl => exact holds
  | tail _ step ih => exact keeps _ _ step ih

/-- What every change keeps, every run keeps. -/
theorem Amid.keeps {I : σ → Prop} (keeps : ∀ s t, change s t → I s → I t)
    (run : Amid change answers p s a u) (holds : I s) : I u := by
  induction run with
  | done a s => exact holds
  | ask changed _ _ ih => exact ih (keeps_changes keeps changed holds)

end Corvus.Dialogue
