import Mathlib.Data.List.Chain
import Corvus.Library.Run

/-!
# Walks through the values of an observation

`trail` lists the values that an observation of the state takes along a run, each one
once for as long as it lasts. Where the steps only allow some successors, the trail is
a chain of the relation that says which; a rank that no successor lowers then bounds
how often a value comes back.
-/

namespace Corvus.Run

section Trail

variable {σ ι β : Type} [DecidableEq β] {step : σ → ι → σ} {obs : σ → Option β}

/-- The values that are observed along a run, without immediate repetition. -/
def trail (step : σ → ι → σ) (obs : σ → Option β) : σ → List ι → List β
  | s, [] => (obs s).toList
  | s, i :: is =>
      if obs s = obs (step s i) then trail step obs (step s i) is
      else (obs s).toList ++ trail step obs (step s i) is

/-- What one more step adds to the trail. -/
def turn (obs : σ → Option β) (s s' : σ) : List β := if obs s = obs s' then [] else (obs s').toList

theorem trail_snoc (s : σ) (is : List ι) (i : ι) :
    trail step obs s (is ++ [i]) =
      trail step obs s is ++ turn obs (exec step s is) (step (exec step s is) i) := by
  induction is generalizing s with
  | nil =>
      by_cases same : obs s = obs (step s i)
      · simp [trail, turn, same]
      · simp [trail, turn, same]
  | cons j is ih =>
      simp only [List.cons_append, trail, ih, exec_cons]
      split
      · rfl
      · rw [List.append_assoc]

end Trail

section Rank

variable {α : Type} {R : α → α → Prop} {a : α} {l : List α}

/-- Along a chain no rank is lower than the first. -/
theorem le_rank_of_isChain (rank : α → Nat) (mono : ∀ a b, R a b → rank a ≤ rank b) (h : (a :: l).IsChain R) :
    ∀ b ∈ l, rank a ≤ rank b := by
  induction l generalizing a with
  | nil => simp
  | cons b l ih =>
      rw [List.isChain_cons_cons] at h
      have first := mono a b h.1
      intro c mem
      rcases List.mem_cons.mp mem with rfl | mem
      · exact first
      · exact first.trans (ih h.2 c mem)

/-- A value all of whose successors have a higher rank occurs at most once. -/
theorem count_le_one_of_rank [DecidableEq α] (rank : α → Nat)
    (mono : ∀ a b, R a b → rank a ≤ rank b)
    (leaves : ∀ b, R a b → rank a < rank b) (h : l.IsChain R) : l.count a ≤ 1 := by
  induction l with
  | nil => simp
  | cons b l ih =>
      rw [List.count_cons]
      by_cases same : b = a
      · subst same
        have absent : b ∉ l := by
          cases l with
          | nil => simp
          | cons c l =>
              rw [List.isChain_cons_cons] at h
              have above := leaves c h.1
              intro mem
              rcases List.mem_cons.mp mem with rfl | mem
              · omega
              · have := le_rank_of_isChain rank mono h.2 b mem
                omega
        rw [List.count_eq_zero_of_not_mem absent]
        simp
      · have := ih h.tail
        simpa [same] using this

end Rank

end Corvus.Run
