import Mathlib.Data.List.Basic

/-!
# Runs of a deterministic transition function

A run is a list of inputs performed from a start state. `Along step G s is` says
that every input of the run meets the condition `G` at the very state in which it
is performed. The rules below turn facts about one step into facts about a run:
`Along.preserves` carries an invariant through a run whose steps meet a guard, and
`along_iff` exchanges two conditions that agree wherever the invariant holds.
-/

namespace Corvus.Run

variable {σ ι : Type}

/-- The state after the inputs have been performed in order. -/
def exec (step : σ → ι → σ) (s : σ) (is : List ι) : σ := is.foldl step s

@[simp] theorem exec_nil (step : σ → ι → σ) (s : σ) : exec step s [] = s := rfl

@[simp] theorem exec_cons (step : σ → ι → σ) (s : σ) (i : ι) (is : List ι) :
    exec step s (i :: is) = exec step (step s i) is := rfl

@[simp] theorem exec_append (step : σ → ι → σ) (s : σ) (is js : List ι) :
    exec step s (is ++ js) = exec step (exec step s is) js := List.foldl_append

/-- Every input of the run meets `G` at the state in which it is performed. -/
def Along (step : σ → ι → σ) (G : σ → ι → Prop) : σ → List ι → Prop
  | _, [] => True
  | s, i :: is => G s i ∧ Along step G (step s i) is

instance decidableAlong (step : σ → ι → σ) (G : σ → ι → Prop) [∀ s i, Decidable (G s i)] :
    ∀ s is, Decidable (Along step G s is)
  | _, [] => instDecidableTrue
  | s, i :: is => @instDecidableAnd (G s i) _ _ (decidableAlong step G (step s i) is)

/-- States that some run from `init` reaches. -/
def Reachable (step : σ → ι → σ) (init s : σ) : Prop := ∃ is, s = exec step init is

variable {step : σ → ι → σ} {G H P : σ → ι → Prop} {I : σ → Prop} {s init : σ} {is js : List ι}

@[simp] theorem along_nil : Along step G s [] := trivial

@[simp] theorem along_cons {i : ι} :
    Along step G s (i :: is) ↔ G s i ∧ Along step G (step s i) is := Iff.rfl

theorem along_append :
    Along step G s (is ++ js) ↔ Along step G s is ∧ Along step G (exec step s is) js := by
  induction is generalizing s with
  | nil => simp
  | cons i is ih =>
      simp only [List.cons_append, along_cons, exec_cons, ih]
      tauto

theorem Along.mono (h : Along step G s is) (imp : ∀ s i, G s i → H s i) :
    Along step H s is := by
  induction is generalizing s with
  | nil => trivial
  | cons i is ih => exact ⟨imp s i h.1, ih h.2⟩

theorem Along.and (g : Along step G s is) (h : Along step H s is) :
    Along step (fun s i => G s i ∧ H s i) s is := by
  induction is generalizing s with
  | nil => trivial
  | cons i is ih => exact ⟨⟨g.1, h.1⟩, ih g.2 h.2⟩

/-- A condition that the inputs meet in every state. -/
theorem along_of_forall (h : ∀ i ∈ is, ∀ s, G s i) : Along step G s is := by
  induction is generalizing s with
  | nil => trivial
  | cons i is ih =>
      exact ⟨h i List.mem_cons_self s, ih fun j hj => h j (List.mem_cons_of_mem i hj)⟩

/-- The condition read off at one position of a run. -/
theorem Along.at {i : ι} (h : Along step G s (is ++ i :: js)) : G (exec step s is) i :=
  (along_append.mp h).2.1

/-- A condition that holds at every position of a run. -/
theorem along_of_at (h : ∀ js i ks, is = js ++ i :: ks → G (exec step s js) i) :
    Along step G s is := by
  induction is generalizing s with
  | nil => trivial
  | cons i is ih =>
      refine ⟨h [] i is rfl, ih fun js j ks split => ?_⟩
      exact h (i :: js) j ks (by rw [split, List.cons_append])

/-- A guarded step rule gives a guarded run rule. -/
theorem Along.preserves (h : Along step G s is) (start : I s)
    (keep : ∀ s i, I s → G s i → I (step s i)) : I (exec step s is) := by
  induction is generalizing s with
  | nil => exact start
  | cons i is ih => exact ih h.2 (keep s i start h.1)

/-- An invariant that every step keeps holds at the end of every run. -/
theorem preserves (start : I s) (keep : ∀ s i, I s → I (step s i)) (is : List ι) :
    I (exec step s is) := by
  induction is generalizing s with
  | nil => exact start
  | cons i is ih => exact ih (keep s i start)

theorem Reachable.preserves (h : Reachable step init s) (start : I init)
    (keep : ∀ s i, I s → I (step s i)) : I s := by
  obtain ⟨is, rfl⟩ := h
  exact Run.preserves start keep is

/-- What holds at the end of a run and not at its start has come about at some position of it. -/
theorem exists_origin {A : σ → Prop} (start : ¬ A s) (arises : ∀ s i, A (step s i) → A s ∨ P s i)
    (holds : A (exec step s is)) : ∃ js i ks, is = js ++ i :: ks ∧ P (exec step s js) i := by
  induction is generalizing s with
  | nil => exact absurd holds start
  | cons i is ih =>
      by_cases next : A (step s i)
      · exact ⟨[], i, is, rfl, (arises s i next).resolve_left start⟩
      · obtain ⟨js, j, ks, rfl, origin⟩ := ih next holds
        exact ⟨i :: js, j, ks, rfl, origin⟩

/-- Two step conditions that agree wherever an invariant holds, and the first of
which keeps that invariant, hold along the same runs. -/
theorem along_iff (start : I s) (keep : ∀ s i, I s → G s i → I (step s i))
    (agree : ∀ s i, I s → (P s i ↔ G s i)) : Along step P s is ↔ Along step G s is := by
  induction is generalizing s with
  | nil => exact Iff.rfl
  | cons i is ih =>
      simp only [along_cons, agree s i start]
      exact and_congr_right fun guard => ih (keep s i start guard)

/-- A property that an invariant implies holds in every state of a run exactly if the steps meet
the guard that keeps the invariant, provided that a step which does not loses the property. -/
theorem throughout_iff {Q : σ → Prop} (start : I s) (keep : ∀ s i, I s → G s i → I (step s i))
    (holds : ∀ s, I s → Q s) (only : ∀ s i, I s → Q (step s i) → G s i) :
    (∀ before, before <+: is → Q (exec step s before)) ↔ Along step G s is := by
  constructor
  · intro throughout
    induction is generalizing s with
    | nil => trivial
    | cons i is ih =>
        have guard := only s i start (throughout [i] ⟨is, rfl⟩)
        refine ⟨guard, ih (keep s i start guard) fun before within => ?_⟩
        exact throughout (i :: before) (List.cons_prefix_cons.mpr ⟨rfl, within⟩)
  · rintro along before ⟨after, rfl⟩
    exact holds _ ((along_append.mp along).1.preserves start keep)

end Corvus.Run
