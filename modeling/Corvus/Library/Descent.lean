import Mathlib.Data.List.Basic
import Mathlib.Logic.Relation
import Mathlib.Data.Fintype.Sets
import Mathlib.Data.Fintype.EquivFin
import Mathlib.Order.WellFounded

/-!
# Links to what was there before

Keys are listed one after the other, and a new key is linked to listed keys only. Then no chain of
links comes back to where it has begun.
-/

namespace Corvus

open Relation

variable {κ : Type} {link link' : κ → κ → Prop} {keys : List κ} {a b k : κ}

/-- What links keep, all keys that they connect have in common. -/
theorem eq_of_connected {β : Type} {f : κ → β} (keeps : ∀ a b, link a b → f a = f b)
    (connected : EqvGen link a b) : f a = f b := by
  induction connected with
  | rel a b linked => exact keeps a b linked
  | refl => rfl
  | symm _ _ _ ih => exact ih.symm
  | trans _ _ _ _ _ first second => exact first.trans second

variable [DecidableEq κ]

/-- Where no chain of links comes back, some key of a list has no link into the list. -/
theorem exists_unlinked (acyclic : ∀ a, ¬ TransGen link a a) (some_ : keys ≠ []) :
    ∃ a ∈ keys, ∀ b ∈ keys, ¬ link a b := by
  let below : {k // k ∈ keys} → {k // k ∈ keys} → Prop := fun b a => TransGen link a.1 b.1
  have : IsTrans _ below := ⟨fun _ _ _ first second => second.trans first⟩
  have : Std.Irrefl below := ⟨fun a chain => acyclic a.1 chain⟩
  have : Finite {k // k ∈ keys} := Finite.of_fintype _
  have founded : WellFounded below := Finite.wellFounded_of_trans_of_irrefl below
  obtain ⟨k, mem⟩ := List.exists_mem_of_ne_nil keys some_
  obtain ⟨a, -, least⟩ := founded.has_min Set.univ ⟨⟨k, mem⟩, trivial⟩
  exact ⟨a.1, a.2, fun b mem linked => least ⟨b, mem⟩ trivial (.single linked)⟩

/-- Every link leads from a listed key to an earlier one. -/
def Descends (link : κ → κ → Prop) (keys : List κ) : Prop :=
  ∀ a b, link a b → a ∈ keys ∧ keys.idxOf b < keys.idxOf a

namespace Descends

theorem nil (none_ : ∀ a b, ¬ link a b) : Descends link [] :=
  fun a b linked => absurd linked (none_ a b)

/-- A new key with links to listed ones. -/
theorem append (h : Descends link keys) (fresh : k ∉ keys)
    (links : ∀ a b, link' a b → link a b ∨ a = k ∧ b ∈ keys) : Descends link' (keys ++ [k]) := by
  intro a b linked
  obtain old | ⟨rfl, there⟩ := links a b linked
  · obtain ⟨mem, less⟩ := h a b old
    have before : b ∈ keys := by
      apply List.idxOf_lt_length_iff.mp
      exact Nat.lt_trans less (List.idxOf_lt_length_iff.mpr mem)
    rw [List.idxOf_append_of_mem mem, List.idxOf_append_of_mem before]
    exact ⟨List.mem_append_left _ mem, less⟩
  · refine ⟨List.mem_append_right _ (List.mem_singleton_self a), ?_⟩
    rw [List.idxOf_append_of_mem there, List.idxOf_append_of_notMem fresh]
    have := List.idxOf_lt_length_iff.mpr there
    omega

theorem mono (h : Descends link keys) (imp : ∀ a b, link' a b → link a b) :
    Descends link' keys :=
  fun a b linked => h a b (imp a b linked)

theorem idxOf_lt (h : Descends link keys) (chain : TransGen link a b) :
    keys.idxOf b < keys.idxOf a := by
  induction chain with
  | single linked => exact (h _ _ linked).2
  | tail _ linked ih => exact Nat.lt_trans (h _ _ linked).2 ih

theorem acyclic (h : Descends link keys) (a : κ) : ¬ TransGen link a a :=
  fun chain => Nat.lt_irrefl _ (h.idxOf_lt chain)

end Descends

end Corvus
