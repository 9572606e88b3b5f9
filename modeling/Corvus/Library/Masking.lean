import Mathlib.Data.List.Infix
import Mathlib.Data.List.Induction
import Mathlib.Data.List.TakeWhile

/-!
# Values that are masked behind a name

A text is searched for the occurrences of a name, and what stands behind one, up to the next
space, is replaced by a mask. Of a value whose characters occur in no name and in no mask and are
no spaces, exactly those occurrences are left that stand behind no name in their word.
-/

namespace Corvus.Masking

variable {α : Type}

/-! ## Lists with and without a kind of character -/

section Kinds

variable {p q : α → Bool} {value l x y a b : List α} {c : α}

/-- A list with characters of one kind only. -/
structure Solid (p : α → Bool) (value : List α) : Prop where
  some : value ≠ []
  kind : ∀ c ∈ value, p c = true

theorem Solid.not_prefix (solid : Solid p value) (free : p c = false) : ¬ value <+: c :: l := by
  obtain ⟨some_, kind⟩ := solid
  cases value with
  | nil => exact absurd rfl some_
  | cons d value =>
    intro first
    obtain ⟨rfl, -⟩ := List.cons_prefix_cons.mp first
    exact absurd (kind d List.mem_cons_self) (by simp [free])

/-- A value stands before or behind a character of another kind. -/
theorem Solid.split (solid : Solid p value) (free : p c = false)
    (same : x ++ value ++ y = a ++ c :: b) :
    (∃ y', a = x ++ value ++ y' ∧ y = y' ++ c :: b) ∨
      ∃ x', x = a ++ c :: x' ∧ b = x' ++ value ++ y := by
  have outside : c ∉ value := fun mem => absurd (solid.kind c mem) (by simp [free])
  obtain ⟨z, first, rest⟩ | ⟨z, first, rest⟩ := List.append_eq_append_iff.mp same
  · exact .inl ⟨z, first, rest⟩
  · cases z with
    | nil => exact .inl ⟨[], by simpa using first.symm, by simpa using rest.symm⟩
    | cons d z =>
      obtain ⟨rfl, rfl⟩ := List.cons.inj rest
      obtain ⟨u, rfl, rest⟩ | ⟨u, before, rest⟩ := List.append_eq_append_iff.mp first
      · exact absurd (rest ▸ List.mem_append_right u List.mem_cons_self) outside
      · cases u with
        | nil =>
          rw [List.nil_append] at rest
          exact absurd (rest ▸ List.mem_cons_self) outside
        | cons e u =>
          obtain ⟨rfl, rfl⟩ := List.cons.inj rest
          exact .inr ⟨u, before, rfl⟩

theorem Solid.infix_append_cons (solid : Solid p value) (free : p c = false) :
    value <:+: a ++ c :: b ↔ value <:+: a ∨ value <:+: b := by
  constructor
  · rintro ⟨x, y, same⟩
    obtain ⟨y', rfl, -⟩ | ⟨x', -, rfl⟩ := solid.split free same
    · exact .inl ⟨x, y', rfl⟩
    · exact .inr ⟨x', y, rfl⟩
  · rintro (inside | inside)
    · exact inside.trans (List.prefix_append _ _).isInfix
    · exact inside.trans ⟨a ++ [c], [], by simp⟩

theorem Solid.infix_free_append (solid : Solid p value) (free : ∀ c ∈ a, p c = false) :
    value <:+: a ++ l ↔ value <:+: l := by
  induction a with
  | nil => rfl
  | cons c a ih =>
    obtain ⟨first, free⟩ := List.forall_mem_cons.mp free
    rw [List.cons_append, List.infix_cons_iff, ih free]
    exact or_iff_right (solid.not_prefix first)

/-- What replaces other characters makes no difference to a value, as long as something does. -/
theorem Solid.infix_flatMap {f : α → List α} (solid : Solid p value)
    (keeps : ∀ c, p c = true → f c = [c])
    (frees : ∀ c, p c = false → ∃ d r, f c = d :: r ∧ ∀ e ∈ d :: r, p e = false) :
    value <:+: l.flatMap f ↔ value <:+: l := by
  have begins (v : List α) (kind : ∀ c ∈ v, p c = true) (l : List α) :
      v <+: l.flatMap f ↔ v <+: l := by
    induction v generalizing l with
    | nil => simp
    | cons d v ih =>
      obtain ⟨isKind, kind⟩ := List.forall_mem_cons.mp kind
      cases l with
      | nil => rfl
      | cons c l =>
        rw [List.flatMap_cons, List.cons_prefix_cons]
        cases other : p c with
        | true =>
          rw [keeps c other, List.singleton_append, List.cons_prefix_cons, ih kind l]
        | false =>
          obtain ⟨e, r, image, free⟩ := frees c other
          rw [image, List.cons_append, List.cons_prefix_cons]
          constructor
          · rintro ⟨rfl, -⟩
            exact nomatch isKind.symm.trans (free d List.mem_cons_self)
          · rintro ⟨rfl, -⟩
            exact nomatch isKind.symm.trans other
  induction l with
  | nil => rfl
  | cons c l ih =>
    have either : value <:+: (c :: l).flatMap f ↔
        value <+: (c :: l).flatMap f ∨ value <:+: l.flatMap f := by
      rw [List.flatMap_cons]
      cases other : p c with
      | true => rw [keeps c other, List.singleton_append, List.infix_cons_iff]
      | false =>
        obtain ⟨e, r, image, free⟩ := frees c other
        rw [image, solid.infix_free_append free, List.cons_append]
        exact (or_iff_right (solid.not_prefix (free e List.mem_cons_self))).symm
    have first := begins value solid.kind (c :: l)
    exact either.trans ((or_congr first ih).trans List.infix_cons_iff.symm)

/-- Neither do spaces that are left out at an end. -/
theorem Solid.infix_dropWhile {f : α → Bool} (solid : Solid p value)
    (frees : ∀ c, f c = true → p c = false) : value <:+: l.dropWhile f ↔ value <:+: l := by
  induction l with
  | nil => rfl
  | cons c l ih =>
    cases space : f c with
    | true =>
      rw [List.dropWhile_cons_of_pos space, ih, List.infix_cons_iff]
      exact (or_iff_right (solid.not_prefix (frees c space))).symm
    | false => rw [List.dropWhile_cons_of_neg (by simp [space])]

theorem Solid.prefix_append_cons (solid : Solid p value) (free : p c = false) :
    value <+: a ++ c :: b ↔ value <+: a := by
  constructor
  · rintro ⟨y, same⟩
    obtain ⟨y', rfl, -⟩ | ⟨x', none_, -⟩ := solid.split (x := []) free same
    · exact ⟨y', rfl⟩
    · exact absurd none_ (by simp)
  · exact fun first => first.trans (List.prefix_append _ _)

end Kinds

/-! ## Masking -/

section Masking

variable [DecidableEq α] (space : α → Bool) (name mask : List α)

/-- What stands before the first occurrence of a name, and behind it. -/
def find : List α → Option (List α × List α)
  | [] => if name = [] then some ([], []) else none
  | c :: s =>
    if name.isPrefixOf (c :: s) then some ([], (c :: s).drop name.length)
    else (find s).map fun found => (c :: found.1, found.2)

/-- Replaces what stands behind the occurrences of a name, at most a number of them. -/
def maskFrom : Nat → List α → List α
  | 0, l => l
  | n + 1, l =>
    match find name l with
    | none => l
    | some (before, after) =>
      before ++ name ++ mask ++ maskFrom n (after.dropWhile fun c => !space c)

/-- Replaces what stands behind each occurrence of a name, up to the next space. -/
def maskName (l : List α) : List α := maskFrom space name mask l.length l

/-- Replaces what stands behind each of some names. -/
def maskNames (names : List (List α)) (l : List α) : List α :=
  names.foldl (fun l name => maskName space name mask l) l

/-- Behind every name in a text there is a space. -/
def Uncovered (names : List (List α)) (x : List α) : Prop :=
  ∀ name ∈ names, ∀ a b, x = a ++ name ++ b → ∃ c ∈ b, space c = true

variable {space name mask} {p : α → Bool} {value l w x y a b : List α} {names : List (List α)}
  {c : α} {n : Nat}

theorem find_eq_none (found : find name l = none) : ¬ name <:+: l := by
  induction l with
  | nil =>
    intro inside
    rw [find, if_pos (List.infix_nil.mp inside)] at found
    exact nomatch found
  | cons c l ih =>
    rw [find] at found
    by_cases first : name.isPrefixOf (c :: l) = true
    · rw [if_pos first] at found
      exact nomatch found
    · rw [if_neg first, Option.map_eq_none_iff] at found
      rw [List.infix_cons_iff]
      rintro (first' | inside)
      · exact first (List.isPrefixOf_iff_prefix.mpr first')
      · exact ih found inside

/-- The first occurrence. -/
theorem find_eq_some (found : find name l = some (a, b)) :
    l = a ++ name ++ b ∧ ∀ a' b', l = a' ++ name ++ b' → a.length ≤ a'.length := by
  induction l generalizing a b with
  | nil =>
    rw [find] at found
    by_cases none_ : name = []
    · rw [if_pos none_] at found
      cases found
      exact ⟨by simp [none_], fun _ _ _ => Nat.zero_le _⟩
    · rw [if_neg none_] at found
      exact nomatch found
  | cons c l ih =>
    rw [find] at found
    by_cases first : name.isPrefixOf (c :: l) = true
    · rw [if_pos first] at found
      cases found
      obtain ⟨y, same⟩ := List.isPrefixOf_iff_prefix.mp first
      refine ⟨?_, fun _ _ _ => Nat.zero_le _⟩
      rw [← same, List.drop_left, List.nil_append]
    · rw [if_neg first, Option.map_eq_some_iff] at found
      obtain ⟨⟨a, b⟩, found, same⟩ := found
      cases same
      obtain ⟨rfl, earliest⟩ := ih found
      refine ⟨rfl, fun a' b' same => ?_⟩
      cases a' with
      | nil =>
        refine absurd (List.isPrefixOf_iff_prefix.mpr ?_) first
        exact ⟨b', same.symm⟩
      | cons d a' =>
        obtain ⟨-, same⟩ := List.cons.inj same
        exact Nat.succ_le_succ (earliest a' b' same)

/-- A name is searched for word by word. -/
theorem find_append_cons (plain : Solid (fun c => !space c) name) (gap : space c = true) :
    find name (w ++ c :: l) = match find name w with
      | some (before, after) => some (before, after ++ c :: l)
      | none => (find name l).map fun found => (w ++ c :: found.1, found.2) := by
  have free : (!space c) = false := by rw [gap]; rfl
  induction w with
  | nil =>
    have none_ : ¬ name.isPrefixOf (c :: l) = true :=
      fun first => plain.not_prefix free (List.isPrefixOf_iff_prefix.mp first)
    have first : find name (c :: l) = (find name l).map fun found => (c :: found.1, found.2) :=
      if_neg none_
    have nothing : find name ([] : List α) = none := if_neg plain.some
    rw [List.nil_append, nothing, first]
    rfl
  | cons d w ih =>
    rw [List.cons_append, find, find]
    have same : name.isPrefixOf (d :: (w ++ c :: l)) = name.isPrefixOf (d :: w) := by
      rw [Bool.eq_iff_iff, List.isPrefixOf_iff_prefix, List.isPrefixOf_iff_prefix]
      exact plain.prefix_append_cons (a := d :: w) free
    by_cases first : name.isPrefixOf (d :: w) = true
    · rw [same, if_pos first, if_pos first]
      obtain ⟨y, at_⟩ := List.isPrefixOf_iff_prefix.mp first
      have more : d :: (w ++ c :: l) = name ++ (y ++ c :: l) := by
        rw [← List.append_assoc, at_, List.cons_append]
      rw [more, ← at_, List.drop_left, List.drop_left]
    · rw [same, if_neg first, if_neg first, ih]
      cases find name w with
      | none => simp [Option.map_map, Function.comp_def]
      | some found => rfl

/-- As many rounds as there are characters are enough. -/
theorem maskFrom_eq (some_ : name ≠ []) (enough : l.length ≤ n) :
    maskFrom space name mask n l = maskName space name mask l := by
  rw [maskName]
  induction size : l.length using Nat.strongRecOn generalizing l n with
  | _ k ih =>
    cases n with
    | zero =>
      obtain rfl : k = 0 := by omega
      rfl
    | succ n =>
      cases k with
      | zero =>
        obtain rfl := List.length_eq_zero_iff.mp size
        have nothing : find name ([] : List α) = none := if_neg some_
        have done : maskFrom space name mask (n + 1) [] = [] := by rw [maskFrom, nothing]
        exact done
      | succ k =>
        rw [maskFrom, maskFrom]
        cases found : find name l with
        | none => rfl
        | some parts =>
          obtain ⟨before, after⟩ := parts
          have shorter : (after.dropWhile fun c => !space c).length ≤ k := by
            have le := (List.dropWhile_suffix (l := after) fun c => !space c).length_le
            have whole := congrArg List.length (find_eq_some found).1
            have positive := List.length_pos_iff.mpr some_
            simp only [List.length_append] at whole
            omega
          simp only
          rw [ih _ (Nat.lt_succ_of_le shorter) (l := after.dropWhile fun c => !space c) (n := n)
              (by omega) rfl,
            ih _ (Nat.lt_succ_of_le shorter) (l := after.dropWhile fun c => !space c) (n := k)
              (by omega) rfl]

theorem maskName_of_none (found : find name l = none) : maskName space name mask l = l := by
  rw [maskName]
  cases l with
  | nil => rfl
  | cons c l => rw [List.length_cons, maskFrom, found]

theorem maskName_of_some (some_ : name ≠ []) (found : find name l = some (a, b)) :
    maskName space name mask l =
      a ++ name ++ mask ++ maskName space name mask (b.dropWhile fun c => !space c) := by
  have whole := congrArg List.length (find_eq_some found).1
  have positive := List.length_pos_iff.mpr some_
  have le := (List.dropWhile_suffix (l := b) fun c => !space c).length_le
  simp only [List.length_append] at whole
  rw [maskName]
  cases size : l.length with
  | zero => omega
  | succ k =>
    rw [maskFrom, found]
    simp only
    rw [maskFrom_eq some_ (by omega)]

/-- The words of a text are masked one by one. -/
theorem maskName_append_cons (plain : Solid (fun c => !space c) name)
    (word : ∀ d ∈ w, space d = false) (gap : space c = true) :
    maskName space name mask (w ++ c :: l) =
      maskName space name mask w ++ c :: maskName space name mask l := by
  have pass (w : List α) (none_ : find name w = none) :
      maskName space name mask (w ++ c :: l) = w ++ c :: maskName space name mask l := by
    have found := find_append_cons (l := l) (w := w) plain gap
    rw [none_] at found
    cases later : find name l with
    | none =>
      rw [later] at found
      rw [maskName_of_none found, maskName_of_none later]
    | some parts =>
      obtain ⟨before, after⟩ := parts
      rw [later] at found
      rw [maskName_of_some plain.some found, maskName_of_some plain.some later]
      simp
  have nothing : find name ([] : List α) = none := if_neg plain.some
  cases first : find name w with
  | none => rw [pass w first, maskName_of_none first]
  | some parts =>
    obtain ⟨before, after⟩ := parts
    have found := find_append_cons (l := l) (w := w) plain gap
    rw [first] at found
    have whole := (find_eq_some first).1
    have inWord : ∀ d ∈ after, (!space d) = true := by
      intro d mem
      rw [word d (by simp [whole, mem])]
      rfl
    have skip : (after ++ c :: l).dropWhile (fun c => !space c) = c :: l := by
      rw [List.dropWhile_append_of_pos inWord, List.dropWhile_cons_of_neg (by simp [gap])]
    have end_ : after.dropWhile (fun c => !space c) = [] :=
      List.dropWhile_eq_nil_iff.mpr inWord
    rw [maskName_of_some plain.some found, maskName_of_some plain.some first, skip, end_,
      maskName_of_none nothing, ← List.nil_append (c :: l), pass [] nothing]
    simp

/-- A word. -/
theorem maskName_word (mask : List α) (plain : Solid (fun c => !space c) name)
    (word : ∀ d ∈ w, space d = false) :
    ¬ name <:+: w ∧ maskName space name mask w = w ∨
      ∃ a b, w = a ++ name ++ b ∧ (∀ a' b', w = a' ++ name ++ b' → a.length ≤ a'.length) ∧
        maskName space name mask w = a ++ name ++ mask := by
  cases found : find name w with
  | none => exact .inl ⟨find_eq_none found, maskName_of_none found⟩
  | some parts =>
    obtain ⟨before, after⟩ := parts
    obtain ⟨whole, earliest⟩ := find_eq_some found
    refine .inr ⟨before, after, whole, earliest, ?_⟩
    have end_ : after.dropWhile (fun c => !space c) = [] := by
      refine List.dropWhile_eq_nil_iff.mpr fun d mem => ?_
      rw [word d (by simp [whole, mem])]
      rfl
    have nothing : find name ([] : List α) = none := if_neg plain.some
    rw [maskName_of_some plain.some found, end_, maskName_of_none nothing, List.append_nil]

variable {p : α → Bool} {value x y : List α} {names : List (List α)}

/-- Names and a mask that go with a kind of values: they have no characters of a value and no
spaces, and spaces are no characters of a value. -/
structure Plain (space p : α → Bool) (mask : List α) (names : List (List α)) : Prop where
  solid : ∀ name ∈ names, Solid (fun c => !space c) name
  names : ∀ name ∈ names, ∀ c ∈ name, p c = false
  mask : ∀ c ∈ mask, p c = false ∧ space c = false
  spaces : ∀ c, space c = true → p c = false

omit [DecidableEq α] in
theorem Plain.tail (plain : Plain space p mask (name :: names)) : Plain space p mask names where
  solid := fun n mem => plain.solid n (List.mem_cons_of_mem _ mem)
  names := fun n mem => plain.names n (List.mem_cons_of_mem _ mem)
  mask := plain.mask
  spaces := plain.spaces

/-- What is masked in a word leaves a word. -/
theorem Plain.word (plain : Plain space p mask (name :: names)) (word : ∀ d ∈ w, space d = false) :
    ∀ d ∈ maskName space name mask w, space d = false := by
  have solid := plain.solid name List.mem_cons_self
  obtain ⟨-, same⟩ | ⟨a, b, rfl, -, same⟩ := maskName_word mask solid word
  · rwa [same]
  · rw [same]
    intro d mem
    obtain mem | mem := List.mem_append.mp mem
    · exact word d (List.mem_append_left b mem)
    · exact (plain.mask d mem).2

/-- One name in a word: a value is left that does not stand behind it. -/
theorem Plain.split_maskName (plain : Plain space p mask (name :: names))
    (solid : Solid p value) (word : ∀ d ∈ w, space d = false) {P : List α → Prop} :
    (∃ x y, maskName space name mask w = x ++ value ++ y ∧ P x) ↔
      ∃ x y, w = x ++ value ++ y ∧ ¬ name <:+: x ∧ P x := by
  have named := plain.solid name List.mem_cons_self
  have free := plain.names name List.mem_cons_self
  obtain ⟨absent, same⟩ | ⟨a, b, whole, earliest, same⟩ := maskName_word mask named word
  · rw [same]
    constructor
    · rintro ⟨x, y, rfl, holds⟩
      refine ⟨x, y, rfl, fun inside => absent (inside.trans ?_), holds⟩
      exact ((List.prefix_append x value).trans (List.prefix_append _ y)).isInfix
    · rintro ⟨x, y, split, -, holds⟩
      exact ⟨x, y, split, holds⟩
  · obtain ⟨c, rest, rfl⟩ := List.exists_cons_of_ne_nil named.some
    have other : p c = false := free c List.mem_cons_self
    rw [same]
    constructor
    · rintro ⟨x, y, split, holds⟩
      have masked : ∀ d ∈ rest ++ mask, p d = false := by
        intro d mem
        obtain mem | mem := List.mem_append.mp mem
        · exact free d (List.mem_cons_of_mem _ mem)
        · exact (plain.mask d mem).1
      have split' : x ++ value ++ y = a ++ c :: (rest ++ mask) := by
        rw [← split, List.append_assoc, List.cons_append]
      obtain ⟨y', rfl, -⟩ | ⟨x', -, inside⟩ := solid.split other split'
      · refine ⟨x, y' ++ c :: rest ++ b, by rw [whole]; simp, ?_, holds⟩
        rintro ⟨a', b', rfl⟩
        have le := earliest a' (b' ++ value ++ y' ++ c :: rest ++ b) (by rw [whole]; simp)
        simp only [List.length_append, List.length_cons] at le
        omega
      · obtain ⟨d, mem⟩ := List.exists_mem_of_ne_nil _ solid.some
        have kind := solid.kind d mem
        rw [masked d (by simp [inside, mem])] at kind
        exact nomatch kind
    · rintro ⟨x, y, split, absent, holds⟩
      have split' : x ++ value ++ y = a ++ c :: (rest ++ b) := by
        rw [← split, whole, List.append_assoc, List.cons_append]
      obtain ⟨y', rfl, -⟩ | ⟨x', rfl, inside⟩ := solid.split other split'
      · exact ⟨x, y' ++ c :: rest ++ mask, by simp, holds⟩
      · rw [List.append_assoc] at inside
        obtain ⟨z, rfl, -⟩ | ⟨z, rfl, later⟩ := List.append_eq_append_iff.mp inside
        · exact absurd ⟨a, z, by simp⟩ absent
        · cases z with
          | nil => exact absurd ⟨a, [], by simp⟩ absent
          | cons d z =>
            obtain ⟨e, value, rfl⟩ := List.exists_cons_of_ne_nil solid.some
            obtain ⟨rfl, -⟩ := List.cons.inj later
            have kind := solid.kind e List.mem_cons_self
            rw [free e (by simp)] at kind
            exact nomatch kind

/-- The names in a word. -/
theorem Plain.infix_word (plain : Plain space p mask names) (solid : Solid p value)
    (word : ∀ d ∈ w, space d = false) : value <:+: maskNames space mask names w ↔
      ∃ x y, w = x ++ value ++ y ∧ ∀ name ∈ names, ¬ name <:+: x := by
  induction names generalizing w with
  | nil =>
    constructor
    · rintro ⟨x, y, same⟩
      exact ⟨x, y, same.symm, by simp⟩
    · rintro ⟨x, y, same, -⟩
      exact ⟨x, y, same.symm⟩
  | cons name names ih =>
    have first : maskNames space mask (name :: names) w =
        maskNames space mask names (maskName space name mask w) := rfl
    rw [first, ih plain.tail (plain.word word), plain.split_maskName solid word]
    simp only [List.forall_mem_cons]

/-- The words of a text. -/
theorem maskNames_append_cons (plain : Plain space p mask names)
    (word : ∀ d ∈ w, space d = false) (gap : space c = true) :
    maskNames space mask names (w ++ c :: l) =
      maskNames space mask names w ++ c :: maskNames space mask names l := by
  induction names generalizing w l with
  | nil => rfl
  | cons name names ih =>
    have first (l) : maskNames space mask (name :: names) l =
        maskNames space mask names (maskName space name mask l) := rfl
    rw [first, first, first, maskName_append_cons (plain.solid name List.mem_cons_self) word gap,
      ih plain.tail (plain.word word)]

omit [DecidableEq α] in
/-- What holds of words and of a word followed by a text holds of every text. -/
theorem words_induction (space : α → Bool) {P : List α → Prop}
    (single : ∀ w, (∀ d ∈ w, space d = false) → P w)
    (more : ∀ w c l, (∀ d ∈ w, space d = false) → space c = true → P l → P (w ++ c :: l))
    (l : List α) : P l := by
  have from_ (l : List α) : ∀ w, (∀ d ∈ w, space d = false) → P (w ++ l) := by
    induction l with
    | nil =>
      intro w word
      rw [List.append_nil]
      exact single w word
    | cons c l ih =>
      intro w word
      cases gap : space c with
      | true => exact more w c l word gap (ih [] (by simp))
      | false =>
        rw [← List.singleton_append, ← List.append_assoc]
        refine ih (w ++ [c]) fun d mem => ?_
        obtain mem | mem := List.mem_append.mp mem
        · exact word d mem
        · rw [List.mem_singleton.mp mem, gap]
  exact from_ l [] (by simp)

/-- What holds of the characters of a text, of the names and of the mask holds of what is left. -/
theorem Plain.forall_maskNames (plain : Plain space p mask names) {P : α → Prop}
    (named : ∀ name ∈ names, ∀ c ∈ name, P c) (masked : ∀ c ∈ mask, P c) (all : ∀ c ∈ l, P c) :
    ∀ c ∈ maskNames space mask names l, P c := by
  induction names generalizing l with
  | nil => exact all
  | cons name names ih =>
    obtain ⟨here, named⟩ := List.forall_mem_cons.mp named
    have solid := plain.solid name List.mem_cons_self
    refine ih plain.tail named (l := maskName space name mask l) ?_
    induction l using words_induction space with
    | single w word =>
      obtain ⟨-, same⟩ | ⟨a, b, rfl, -, same⟩ := maskName_word mask solid word
      · rwa [same]
      · rw [same]
        intro c mem
        obtain mem | mem := List.mem_append.mp mem
        · exact all c (List.mem_append_left b mem)
        · exact masked c mem
    | more w c l word gap ih' =>
      rw [maskName_append_cons solid word gap]
      intro d mem
      obtain mem | mem := List.mem_append.mp mem
      · obtain ⟨-, same⟩ | ⟨a, b, rfl, -, same⟩ := maskName_word mask solid word
        · exact all d (List.mem_append_left _ (same ▸ mem))
        · obtain mem | mem := List.mem_append.mp (same ▸ mem)
          · exact all d (List.mem_append_left _ (List.mem_append_left b mem))
          · exact masked d mem
      · obtain rfl | mem := List.mem_cons.mp mem
        · exact all d (by simp)
        · exact ih' (fun e inside => all e (by simp [inside])) d mem

omit [DecidableEq α] in
/-- Before the last word of a text nothing matters. -/
theorem uncovered_append_cons (plain : Plain space p mask names) (gap : space c = true) :
    Uncovered space names (w ++ c :: x) ↔ Uncovered space names x := by
  constructor
  · intro uncovered name mem a b same
    exact uncovered name mem (w ++ c :: a) b (by simp [same])
  · intro uncovered name mem a b same
    obtain ⟨y', -, rfl⟩ | ⟨x', -, rfl⟩ :=
      (plain.solid name mem).split (by rw [gap]; rfl) same.symm
    · exact ⟨c, by simp, gap⟩
    · exact uncovered name mem x' b rfl

omit [DecidableEq α] in
theorem uncovered_word (word : ∀ d ∈ x, space d = false) :
    Uncovered space names x ↔ ∀ name ∈ names, ¬ name <:+: x := by
  constructor
  · rintro uncovered name mem ⟨a, b, same⟩
    obtain ⟨c, inside, gap⟩ := uncovered name mem a b same.symm
    rw [word c (by simp [← same, inside])] at gap
    exact nomatch gap
  · intro absent name mem a b same
    exact absurd ⟨a, b, same.symm⟩ (absent name mem)

/-- The values that are left are those that stand behind no name in their word. -/
theorem Plain.infix_maskNames (plain : Plain space p mask names) (solid : Solid p value)
    (l : List α) : value <:+: maskNames space mask names l ↔
      ∃ x y, l = x ++ value ++ y ∧ Uncovered space names x := by
  induction l using words_induction space with
  | single w word =>
    rw [plain.infix_word solid word]
    constructor
    · rintro ⟨x, y, rfl, absent⟩
      exact ⟨x, y, rfl, (uncovered_word fun d mem => word d (by simp [mem])).mpr absent⟩
    · rintro ⟨x, y, rfl, uncovered⟩
      exact ⟨x, y, rfl, (uncovered_word fun d mem => word d (by simp [mem])).mp uncovered⟩
  | more w c l word gap ih =>
    rw [maskNames_append_cons plain word gap, solid.infix_append_cons (plain.spaces c gap), ih,
      plain.infix_word solid word]
    constructor
    · rintro (⟨x, y, rfl, absent⟩ | ⟨x, y, rfl, uncovered⟩)
      · refine ⟨x, y ++ c :: l, by simp, ?_⟩
        exact (uncovered_word fun d mem => word d (by simp [mem])).mpr absent
      · exact ⟨w ++ c :: x, y, by simp, (uncovered_append_cons plain gap).mpr uncovered⟩
    · rintro ⟨x, y, same, uncovered⟩
      obtain ⟨y', rfl, -⟩ | ⟨x', rfl, rfl⟩ := solid.split (plain.spaces c gap) same.symm
      · refine .inl ⟨x, y', rfl, ?_⟩
        exact (uncovered_word fun d mem => word d (by simp [mem])).mp uncovered
      · exact .inr ⟨x', y, rfl, (uncovered_append_cons plain gap).mp uncovered⟩

end Masking

end Corvus.Masking
