import Mathlib.Data.List.Basic
import Mathlib.Data.String.Basic

/-!
# Texts with lone surrogates

A Python text is a sequence of code points, in which surrogates may stand alone. Such a text
cannot be encoded in UTF-8.
-/

namespace Corvus.Unicode

inductive Code where
  | char (c : Char)
  | surrogate (n : Fin 2048)
deriving DecidableEq

abbrev Str := List Code

namespace Str

def ofString (s : String) : Str := s.toList.map .char

/-- The characters of a text without surrogates. -/
def chars : Str → Option (List Char)
  | [] => some []
  | .char c :: s => (chars s).map (c :: ·)
  | .surrogate _ :: _ => none

/-- The text as one that can be encoded. -/
def toString? (s : Str) : Option String := s.chars.map String.ofList

def isSurrogate : Code → Bool
  | .char _ => false
  | .surrogate _ => true

/-- The message of the `UnicodeEncodeError` of a text with surrogates. -/
def encodeError (s : Str) : String :=
  let start := (s.takeWhile (! isSurrogate ·)).length
  let position := toString start
  match (s.drop start).takeWhile isSurrogate with
  | [.surrogate n] =>
      "'utf-8' codec can't encode character '\\u" ++
        String.ofList (Nat.toDigits 16 (55296 + n.val)) ++ "' in position " ++ position ++
        ": surrogates not allowed"
  | several =>
      "'utf-8' codec can't encode characters in position " ++ position ++ "-" ++
        toString (start + several.length - 1) ++ ": surrogates not allowed"

variable {s t : Str}

@[simp] theorem chars_map {cs : List Char} : chars (cs.map .char) = some cs := by
  induction cs with
  | nil => rfl
  | cons c cs ih =>
    rw [List.map_cons, chars, ih]
    rfl

@[simp] theorem toString?_ofString {text : String} : toString? (ofString text) = some text := by
  rw [toString?, ofString, chars_map, Option.map_some, String.ofList_toList]

/-- What cannot be encoded holds a surrogate. -/
theorem chars_eq_none : chars s = none ↔ ∃ n, .surrogate n ∈ s := by
  induction s with
  | nil => simp [chars]
  | cons c s ih =>
    cases c with
    | char c => simp [chars, ih]
    | surrogate n =>
      refine ⟨fun _ => ⟨n, List.mem_cons_self⟩, fun _ => rfl⟩

theorem toString?_eq_none : toString? s = none ↔ ∃ n, .surrogate n ∈ s := by
  rw [toString?, Option.map_eq_none_iff, chars_eq_none]

/-- The texts that can be encoded are closed under what leaves characters out. -/
theorem toString?_isSome_of_subset (sub : s ⊆ t) (encodes : (toString? t).isSome) :
    (toString? s).isSome := by
  by_contra fails
  obtain ⟨n, mem⟩ := toString?_eq_none.mp (Option.not_isSome_iff_eq_none.mp fails)
  rw [toString?_eq_none.mpr ⟨n, sub mem⟩] at encodes
  exact absurd encodes (by decide)

theorem toString?_isSome_append (first : (toString? s).isSome) (second : (toString? t).isSome) :
    (toString? (s ++ t)).isSome := by
  by_contra fails
  obtain ⟨n, mem⟩ := toString?_eq_none.mp (Option.not_isSome_iff_eq_none.mp fails)
  obtain left | right := List.mem_append.mp mem
  · rw [toString?_eq_none.mpr ⟨n, left⟩] at first
    exact absurd first (by decide)
  · rw [toString?_eq_none.mpr ⟨n, right⟩] at second
    exact absurd second (by decide)

end Str

end Corvus.Unicode
