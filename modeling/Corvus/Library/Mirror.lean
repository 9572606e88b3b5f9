import Corvus.Library.Except
import Mathlib.Data.List.Basic

/-!
# Rows and the records they stand for

A list of rows mirrors a list of records when every row stands for one of the records and every
record has a row. A record may be listed again, and the last one of a key is its latest.
-/

namespace Corvus

variable {ρ α κ : Type} {R R' : ρ → α → Prop} {rows : List ρ} {records : List α} {row : ρ} {a : α}

structure Mirrors (R : ρ → α → Prop) (rows : List ρ) (records : List α) : Prop where
  stands : ∀ row ∈ rows, ∃ a ∈ records, R row a
  kept : ∀ a ∈ records, ∃ row ∈ rows, R row a

namespace Mirrors

theorem nil : Mirrors R [] [] :=
  ⟨fun _ mem => absurd mem List.not_mem_nil, fun _ mem => absurd mem List.not_mem_nil⟩

theorem append (h : Mirrors R rows records) (new : R row a) :
    Mirrors R (rows ++ [row]) (records ++ [a]) := by
  constructor
  · intro r mem
    obtain mem | mem := List.mem_append.mp mem
    · obtain ⟨b, inside, related⟩ := h.stands r mem
      exact ⟨b, List.mem_append_left _ inside, related⟩
    · rw [List.mem_singleton.mp mem]
      exact ⟨a, List.mem_append_right _ (List.mem_singleton_self a), new⟩
  · intro b mem
    obtain mem | mem := List.mem_append.mp mem
    · obtain ⟨r, inside, related⟩ := h.kept b mem
      exact ⟨r, List.mem_append_left _ inside, related⟩
    · rw [List.mem_singleton.mp mem]
      exact ⟨row, List.mem_append_right _ (List.mem_singleton_self row), new⟩

/-- A record is listed again. -/
theorem again (h : Mirrors R rows records) (mem : a ∈ records) :
    Mirrors R rows (records ++ [a]) := by
  constructor
  · intro r there
    obtain ⟨b, inside, related⟩ := h.stands r there
    exact ⟨b, List.mem_append_left _ inside, related⟩
  · intro b there
    obtain there | there := List.mem_append.mp there
    · exact h.kept b there
    · rw [List.mem_singleton.mp there]
      exact h.kept a mem

theorem mono (h : Mirrors R rows records) (imp : ∀ row ∈ rows, ∀ a, R row a → R' row a) :
    Mirrors R' rows records := by
  constructor
  · intro r mem
    obtain ⟨a, inside, related⟩ := h.stands r mem
    exact ⟨a, inside, imp r mem a related⟩
  · intro a mem
    obtain ⟨r, inside, related⟩ := h.kept a mem
    exact ⟨r, inside, imp r inside a related⟩

/-- The records of some of the rows. -/
theorem part {l : List ρ} {P : ρ → Prop} {Q : α → Prop} (h : Mirrors R rows records)
    (mem_iff : ∀ row, row ∈ l ↔ row ∈ rows ∧ P row) (same : ∀ row a, R row a → (P row ↔ Q a))
    (one : ∀ row a b, R row a → R row b → a = b) :
    ∃ part, List.Forall₂ R l part ∧ ∀ a, a ∈ part ↔ a ∈ records ∧ Q a := by
  obtain ⟨part, each⟩ := exists_forall₂ fun row mem => by
    obtain ⟨a, -, related⟩ := h.stands row ((mem_iff row).mp mem).1
    exact ⟨a, related⟩
  refine ⟨part, each, fun a => ⟨fun mem => ?_, fun there => ?_⟩⟩
  · obtain ⟨row, row_mem, related⟩ := exists_left each mem
    obtain ⟨row_mem, holds⟩ := (mem_iff row).mp row_mem
    obtain ⟨b, b_mem, other⟩ := h.stands row row_mem
    obtain rfl := one row a b related other
    exact ⟨b_mem, (same row a related).mp holds⟩
  · obtain ⟨row, row_mem, related⟩ := h.kept a there.1
    have holds := (same row a related).mpr there.2
    obtain ⟨b, b_mem, other⟩ := exists_right each ((mem_iff row).mpr ⟨row_mem, holds⟩)
    obtain rfl := one row a b related other
    exact b_mem

/-- The record of a row that stands for one only. -/
theorem mem_of_row (h : Mirrors R rows records) (mem : row ∈ rows)
    (only : ∀ b, R row b → b = a) : a ∈ records := by
  obtain ⟨b, inside, other⟩ := h.stands row mem
  rw [← only b other]
  exact inside

end Mirrors

/-! ## The latest record of a key -/

section Latest

variable [DecidableEq κ] {key : α → κ} {k : κ}

def latest (key : α → κ) (records : List α) (k : κ) : Option α :=
  (records.filter (key · = k)).getLast?

theorem latest_append_self (same : key a = k) : latest key (records ++ [a]) k = some a := by
  simp [latest, List.filter_append, same]

theorem latest_append_other (other : key a ≠ k) :
    latest key (records ++ [a]) k = latest key records k := by
  simp [latest, List.filter_append, other]

theorem key_of_latest (found : latest key records k = some a) : key a = k := by
  have mem := List.mem_of_getLast? found
  simpa using (List.mem_filter.mp mem).2

/-- Listing the latest record of a key again changes nothing. -/
theorem latest_again (found : latest key records (key a) = some a) :
    latest key (records ++ [a]) k = latest key records k := by
  by_cases same : key a = k
  · rw [latest_append_self same, ← same, found]
  · exact latest_append_other same

end Latest

end Corvus
