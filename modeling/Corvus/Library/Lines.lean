import Mathlib.Data.List.Basic

/-!
# Lines of a stream

The lines that a separator ends, and what follows the last separator. A stream that is read
piece by piece has the lines of the pieces, where each piece continues what the piece before it
has left over.
-/

namespace Corvus.Lines

variable {α : Type} [DecidableEq α] (sep : α)

/-- What stands before each separator. -/
def complete (l : List α) : List (List α) := (l.splitOn sep).dropLast

/-- What stands behind the last separator. -/
def rest (l : List α) : List α := (l.splitOn sep).getLastD []

variable {sep} {l a b u line : List α}

/-- The last separator of a list. -/
theorem exists_last (sep : α) (l : List α) : sep ∉ l ∨ ∃ p q, l = p ++ sep :: q ∧ sep ∉ q := by
  induction l with
  | nil => exact .inl List.not_mem_nil
  | cons x l ih =>
    obtain clean | ⟨p, q, rfl, clean⟩ := ih
    · by_cases same : x = sep
      · exact .inr ⟨[], l, by rw [same, List.nil_append], clean⟩
      · refine .inl fun mem => ?_
        obtain same' | mem := List.mem_cons.mp mem
        · exact same same'.symm
        · exact clean mem
    · exact .inr ⟨x :: p, q, rfl, clean⟩

theorem splitOn_eq : l.splitOn sep = complete sep l ++ [rest sep l] := by
  have some_ := List.splitOn_ne_nil sep l
  rw [complete, rest, List.getLastD_eq_getLast?, List.getLast?_eq_some_getLast some_,
    Option.getD_some, List.dropLast_concat_getLast some_]

theorem complete_append_cons : complete sep (a ++ sep :: b) = a.splitOn sep ++ complete sep b := by
  rw [complete, List.splitOn_append_cons_self,
    List.dropLast_append_of_ne_nil (List.splitOn_ne_nil sep b), complete]

theorem rest_append_cons : rest sep (a ++ sep :: b) = rest sep b := by
  rw [rest, List.splitOn_append_cons_self, splitOn_eq (l := b), ← List.append_assoc,
    List.getLastD_eq_getLast?, List.getLast?_concat, Option.getD_some]

theorem complete_clean (clean : sep ∉ l) : complete sep l = [] := by
  rw [complete, List.splitOn_eq_singleton clean]
  rfl

theorem rest_clean (clean : sep ∉ l) : rest sep l = l := by
  rw [rest, List.splitOn_eq_singleton clean]
  rfl

theorem not_mem_rest : sep ∉ rest sep l := by
  obtain clean | ⟨p, q, rfl, clean⟩ := exists_last sep l
  · rwa [rest_clean clean]
  · rwa [rest_append_cons, rest_clean clean]

theorem rest_suffix : rest sep l <:+ l := by
  obtain clean | ⟨p, q, rfl, clean⟩ := exists_last sep l
  · exact ⟨[], rest_clean clean⟩
  · rw [rest_append_cons, rest_clean clean]
    exact ⟨p ++ [sep], by rw [List.append_assoc, List.singleton_append]⟩

/-- The lines of a stream that goes on. -/
theorem complete_append :
    complete sep (a ++ b) = complete sep a ++ complete sep (rest sep a ++ b) := by
  obtain clean | ⟨p, q, rfl, clean⟩ := exists_last sep a
  · rw [complete_clean clean, rest_clean clean, List.nil_append]
  · rw [List.append_assoc, List.cons_append, complete_append_cons, complete_append_cons,
      complete_clean clean, rest_append_cons, rest_clean clean, List.append_nil]

theorem rest_append : rest sep (a ++ b) = rest sep (rest sep a ++ b) := by
  obtain clean | ⟨p, q, rfl, clean⟩ := exists_last sep a
  · rw [rest_clean clean]
  · rw [List.append_assoc, List.cons_append, rest_append_cons, rest_append_cons, rest_clean clean]

theorem rest_append_clean (clean : sep ∉ u) : rest sep (a ++ u) = rest sep a ++ u := by
  rw [rest_append, rest_clean]
  intro mem
  obtain mem | mem := List.mem_append.mp mem
  · exact not_mem_rest mem
  · exact clean mem

/-- A line is what a separator finds left over. -/
theorem rest_mem_complete : rest sep a ∈ complete sep (a ++ sep :: b) := by
  rw [complete_append_cons, splitOn_eq, List.append_assoc]
  exact List.mem_append_right _ List.mem_cons_self

theorem exists_of_mem_complete (mem : line ∈ complete sep l) :
    ∃ a b, l = a ++ sep :: b ∧ rest sep a = line := by
  induction size : l.length using Nat.strongRecOn generalizing l with
  | _ n ih =>
    obtain clean | ⟨p, q, rfl, clean⟩ := exists_last sep l
    · rw [complete_clean clean] at mem
      exact absurd mem List.not_mem_nil
    · rw [complete_append_cons, complete_clean clean, List.append_nil, splitOn_eq] at mem
      obtain mem | last := List.mem_append.mp mem
      · have less : p.length < n := by
          rw [← size, List.length_append, List.length_cons]
          omega
        obtain ⟨a, b, rfl, left⟩ := ih _ less mem rfl
        exact ⟨a, b ++ sep :: q, by rw [List.append_assoc, List.cons_append], left⟩
      · exact ⟨p, q, rfl, (List.mem_singleton.mp last).symm⟩

/-- What is left over at a point of a stream begins a line, or what is left over at its end. -/
theorem rest_prefix (sep : α) (a b : List α) :
    (∃ u v, b = u ++ sep :: v ∧ rest sep a ++ u ∈ complete sep (a ++ b)) ∨
      rest sep a ++ b = rest sep (a ++ b) := by
  by_cases mem : sep ∈ b
  · obtain ⟨u, v, rfl, clean⟩ := List.eq_append_cons_of_mem mem
    refine .inl ⟨u, v, rfl, ?_⟩
    rw [← rest_append_clean clean, ← List.append_assoc]
    exact rest_mem_complete
  · exact .inr (rest_append_clean mem).symm

end Corvus.Lines
