import Mathlib.Data.List.Basic
import Mathlib.Data.String.Basic

/-!
# Regular expressions with backtracking

The part of Python's `re` in which a repetition is one of a class of characters. `ends`
lists the matches at a position in the order in which backtracking tries them, so that the
first of them is the match.
-/

namespace Corvus

inductive Regex where
  | char (p : Char → Bool)
  | seq (a b : Regex)
  | alt (a b : Regex)
  /-- At least `min` characters of a class, at most `max`, and as many as there are. -/
  | several (min : Nat) (max : Option Nat) (p : Char → Bool)
  /-- The first group. -/
  | group (a : Regex)
  | notAhead (a : Regex)
  | boundary (word : Char → Bool)
  | eos

namespace Regex

structure Match where
  consumed : List Char
  group : Option (List Char)
  rest : List Char

/-- The matches after the character `before`, the preferred ones first. -/
def ends : Regex → Option Char → List Char → List Match
  | char _, _, [] => []
  | char p, _, c :: s => if p c then [⟨[c], none, s⟩] else []
  | seq a b, before, s =>
      (a.ends before s).flatMap fun m =>
        (b.ends (m.consumed.getLast?.or before) m.rest).map fun n =>
          ⟨m.consumed ++ n.consumed, n.group.or m.group, n.rest⟩
  | alt a b, before, s => a.ends before s ++ b.ends before s
  | several min max p, _, s =>
      let most := (s.takeWhile p).length
      let longest := (max.map (Nat.min most)).getD most
      (List.range (longest + 1 - min)).map fun less =>
        ⟨s.take (longest - less), none, s.drop (longest - less)⟩
  | group a, before, s => (a.ends before s).map fun m => { m with group := some m.consumed }
  | notAhead a, before, s => if (a.ends before s).isEmpty then [⟨[], none, s⟩] else []
  | boundary word, before, s =>
      if before.any word ≠ s.head?.any word then [⟨[], none, s⟩] else []
  | eos, _, s => if s = [] ∨ s = ['\n'] then [⟨[], none, s⟩] else []

/-- `re.search`, as a test. -/
def search (r : Regex) : Option Char → List Char → Bool
  | before, [] => !(r.ends before []).isEmpty
  | before, c :: s => !(r.ends before (c :: s)).isEmpty || search r (some c) s

/-- A text of characters that are given up to their case. -/
def word (same : Char → Char → Bool) : List Char → Regex
  | [] => several 0 (some 0) fun _ => false
  | [c] => char (same c)
  | c :: cs => seq (char (same c)) (word same cs)

def alts (r : Regex) : List Regex → Regex
  | [] => r
  | s :: rs => alt r (alts s rs)

/-! ## Texts without a match -/

variable {r a b : Regex} {before : Option Char} {s : List Char} {m : Match}
  {q : Char → Prop} {replacement : Match → List Char}

/-- A match is a part of the text. -/
theorem consumed_append_rest (mem : m ∈ r.ends before s) : m.consumed ++ m.rest = s := by
  induction r generalizing before s m with
  | char p =>
    cases s with
    | nil => nomatch mem
    | cons c s =>
      rw [ends, List.mem_ite_nil_right] at mem
      rw [List.mem_singleton.mp mem.2]
      rfl
  | seq a b iha ihb =>
    obtain ⟨n, first, second⟩ := List.mem_flatMap.mp mem
    obtain ⟨o, last, rfl⟩ := List.mem_map.mp second
    rw [← iha first, ← ihb last, List.append_assoc]
  | alt a b iha ihb =>
    obtain left | right := List.mem_append.mp mem
    · exact iha left
    · exact ihb right
  | several min max p =>
    obtain ⟨less, _, rfl⟩ := List.mem_map.mp mem
    exact List.take_append_drop _ s
  | group a ih =>
    obtain ⟨n, inner, rfl⟩ := List.mem_map.mp mem
    have part : n.consumed ++ n.rest = s := ih inner
    exact part
  | notAhead a ih =>
    rw [ends, List.mem_ite_nil_right] at mem
    rw [List.mem_singleton.mp mem.2]
    rfl
  | boundary word =>
    rw [ends, List.mem_ite_nil_right] at mem
    rw [List.mem_singleton.mp mem.2]
    rfl
  | eos =>
    rw [ends, List.mem_ite_nil_right] at mem
    rw [List.mem_singleton.mp mem.2]
    rfl

/-- The expression consumes a character of a kind wherever it matches. -/
def Needs (q : Char → Prop) : Regex → Prop
  | char p => ∀ c, p c = true → q c
  | seq a b => a.Needs q ∨ b.Needs q
  | alt a b => a.Needs q ∧ b.Needs q
  | several min _ p => 0 < min ∧ ∀ c, p c = true → q c
  | group a => a.Needs q
  | notAhead _ | boundary _ | eos => False

theorem exists_consumed (needs : r.Needs q) (mem : m ∈ r.ends before s) :
    ∃ c ∈ m.consumed, q c := by
  induction r generalizing before s m with
  | char p =>
    cases s with
    | nil => nomatch mem
    | cons c s =>
      rw [ends, List.mem_ite_nil_right] at mem
      rw [List.mem_singleton.mp mem.2]
      exact ⟨c, List.mem_singleton_self c, needs c mem.1⟩
  | seq a b iha ihb =>
    obtain ⟨n, first, second⟩ := List.mem_flatMap.mp mem
    obtain ⟨o, last, rfl⟩ := List.mem_map.mp second
    obtain left | right := needs
    · obtain ⟨c, mem, holds⟩ := iha left first
      exact ⟨c, List.mem_append_left _ mem, holds⟩
    · obtain ⟨c, mem, holds⟩ := ihb right last
      exact ⟨c, List.mem_append_right _ mem, holds⟩
  | alt a b iha ihb =>
    obtain left | right := List.mem_append.mp mem
    · exact iha needs.1 left
    · exact ihb needs.2 right
  | several min max p =>
    obtain ⟨less, short, rfl⟩ := List.mem_map.mp mem
    have enough := List.mem_range.mp short
    have most : (max.map (Nat.min (s.takeWhile p).length)).getD (s.takeWhile p).length ≤
        (s.takeWhile p).length := by
      cases max with
      | none => exact Nat.le_refl _
      | some max => exact Nat.min_le_left _ _
    cases s with
    | nil =>
      have : 0 < min := needs.1
      simp only [List.takeWhile_nil, List.length_nil] at most enough
      omega
    | cons c s =>
      by_cases holds : p c
      · refine ⟨c, ?_, needs.2 c holds⟩
        rw [List.take_cons (by have := needs.1; omega)]
        exact List.mem_cons_self
      · have : 0 < min := needs.1
        simp only [List.takeWhile_cons, holds, Bool.false_eq_true, if_false,
          List.length_nil] at most enough
        omega
  | group a ih =>
    obtain ⟨n, inner, rfl⟩ := List.mem_map.mp mem
    have found : ∃ c ∈ n.consumed, q c := ih needs inner
    exact found
  | notAhead a ih => exact needs.elim
  | boundary word => exact needs.elim
  | eos => exact needs.elim

/-- There is no match in a text without any character that the expression needs. -/
theorem ends_of_absent (needs : r.Needs q) (absent : ∀ c ∈ s, ¬ q c) : r.ends before s = [] := by
  refine List.eq_nil_iff_forall_not_mem.mpr fun m mem => ?_
  obtain ⟨c, consumed, holds⟩ := exists_consumed needs mem
  have within : c ∈ s := by
    rw [← consumed_append_rest mem]
    exact List.mem_append_left _ consumed
  exact absent c within holds

theorem search_of_absent (needs : r.Needs q) (absent : ∀ c ∈ s, ¬ q c) :
    r.search before s = false := by
  induction s generalizing before with
  | nil =>
    rw [search, ends_of_absent needs absent]
    rfl
  | cons c s ih =>
    rw [search, ends_of_absent needs absent, ih fun d later => absent d (List.mem_cons_of_mem c later)]
    rfl

end Regex

end Corvus
