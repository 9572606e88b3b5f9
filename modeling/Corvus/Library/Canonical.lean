import Corvus.Library.Json

/-!
# The compact text determines its parts

No text of a value is a proper prefix of the text of another one as long as a separator or
a closing bracket follows. So the text of an array determines those of its items, and the
text of an object determines its names with the texts of their values.
-/

namespace Corvus.Json

/-! ## Numbers -/

/-- The characters of a number. -/
def numeric (c : Char) : Bool := c.isDigit || c ∈ ['-', '+', '.', 'e', 'E']

/-- What follows a value: nothing, or a character that belongs to no number. -/
def Stops (r : List Char) : Prop := ∀ c ∈ r.head?, numeric c = false

theorem stops_nil : Stops [] := nofun

theorem stops_cons {c : Char} {r : List Char} (h : numeric c = false) : Stops (c :: r) := by
  rintro _ ⟨⟩
  exact h

theorem numeric_cancel {t u r s : List Char} (ht : ∀ c ∈ t, numeric c = true)
    (hu : ∀ c ∈ u, numeric c = true) (hr : Stops r) (hs : Stops s) (h : t ++ r = u ++ s) :
    t = u := by
  induction t generalizing u with
  | nil =>
    cases u with
    | nil => rfl
    | cons d u =>
      have stopped := hr d (by rw [List.nil_append] at h; simp [h])
      exact absurd (hu d List.mem_cons_self) (by simp [stopped])
  | cons c t ih =>
    cases u with
    | nil =>
      have stopped := hs c (by rw [List.nil_append] at h; simp [← h])
      exact absurd (ht c List.mem_cons_self) (by simp [stopped])
    | cons d u =>
      obtain ⟨rfl, rest⟩ := List.cons_eq_cons.mp h
      rw [ih (fun c mem => ht c (List.mem_cons_of_mem _ mem))
        (fun c mem => hu c (List.mem_cons_of_mem _ mem)) rest]

theorem natural_numeric {n : Nat} : ∀ c ∈ (toString n).toList, numeric c = true := by
  intro c mem
  rw [Nat.toString_eq_repr, Nat.toList_repr] at mem
  simp [numeric, Nat.isDigit_of_mem_toDigits (by decide) (by decide) mem]

theorem integer_numeric {n : Int} : ∀ c ∈ (toString n).toList, numeric c = true := by
  cases n with
  | ofNat n => exact natural_numeric
  | negSucc n =>
    intro c mem
    have split : (toString (Int.negSucc n)).toList = '-' :: (toString (n + 1)).toList := by
      simp [toString, Int.repr]
    rw [split, List.mem_cons] at mem
    rcases mem with rfl | mem
    · decide
    · exact natural_numeric c mem

/-! ## String literals -/

def hexValue (c : Char) : Nat := if c.isDigit then c.toNat - 48 else c.toNat - 87

theorem hexValue_hexDigit : ∀ n < 16, hexValue (hexDigit n) = n := by decide

/-- Read one character of a string literal. -/
def unescape : List Char → Option (Char × List Char)
  | '\\' :: 'u' :: _ :: _ :: high :: low :: r =>
      some (Char.ofNat (16 * hexValue high + hexValue low), r)
  | '\\' :: 'n' :: r => some ('\n', r)
  | '\\' :: 'r' :: r => some ('\r', r)
  | '\\' :: 't' :: r => some ('\t', r)
  | '\\' :: 'f' :: r => some (Char.ofNat 12, r)
  | '\\' :: 'b' :: r => some (Char.ofNat 8, r)
  | '\\' :: c :: r => some (c, r)
  | c :: r => some (c, r)
  | [] => none

theorem unescape_escapeChar (c : Char) (r : List Char) :
    unescape (escapeChar c ++ r) = some (c, r) := by
  have from_nat : ∀ n, c.toNat = n → Char.ofNat n = c := by
    rintro _ rfl
    exact Char.ofNat_toNat c
  unfold escapeChar
  split_ifs with quoted slash newline ret tab feed back low
  · rw [quoted]; rfl
  · rw [slash]; rfl
  · rw [newline]; rfl
  · rw [ret]; rfl
  · rw [tab]; rfl
  · rw [← from_nat _ feed]; rfl
  · rw [← from_nat _ back]; rfl
  · have high_digit := hexValue_hexDigit (c.toNat / 16) (by omega)
    have low_digit := hexValue_hexDigit (c.toNat % 16) (by omega)
    simp only [List.cons_append, List.nil_append, unescape, high_digit, low_digit]
    rw [Nat.div_add_mod, from_nat _ rfl]
  · rw [List.cons_append, List.nil_append]
    cases r with
    | nil => simp [unescape]
    | cons d r => simp [unescape, slash]

theorem escape_cancel {c d : Char} {r s : List Char}
    (h : escapeChar c ++ r = escapeChar d ++ s) : c = d ∧ r = s := by
  have same := congrArg unescape h
  rw [unescape_escapeChar, unescape_escapeChar] at same
  exact Prod.mk.inj (Option.some.inj same)

/-- A quotation mark starts no escape. -/
theorem escape_ne_quote {c : Char} {r s : List Char} : escapeChar c ++ r ≠ '"' :: s := by
  intro h
  have same := congrArg unescape h
  rw [unescape_escapeChar] at same
  obtain ⟨rfl, -⟩ := Prod.mk.inj (Option.some.inj same)
  exact absurd (List.cons_eq_cons.mp h).1 (by decide)

theorem escapes_cancel {l m r s : List Char}
    (h : l.flatMap escapeChar ++ '"' :: r = m.flatMap escapeChar ++ '"' :: s) :
    l = m ∧ r = s := by
  induction l generalizing m with
  | nil =>
    cases m with
    | nil => exact ⟨rfl, (List.cons_eq_cons.mp h).2⟩
    | cons d m =>
      rw [List.flatMap_cons, List.append_assoc] at h
      exact absurd h.symm escape_ne_quote
  | cons c l ih =>
    cases m with
    | nil =>
      rw [List.flatMap_cons, List.append_assoc] at h
      exact absurd h escape_ne_quote
    | cons d m =>
      rw [List.flatMap_cons, List.flatMap_cons, List.append_assoc, List.append_assoc] at h
      obtain ⟨rfl, rest⟩ := escape_cancel h
      obtain ⟨rfl, rfl⟩ := ih rest
      exact ⟨rfl, rfl⟩

theorem quote_cancel {k l : String} {r s : List Char} (h : quote k ++ r = quote l ++ s) :
    k = l ∧ r = s := by
  simp only [quote, List.cons_append, List.append_assoc, List.cons.injEq, true_and,
    List.nil_append] at h
  obtain ⟨same, rest⟩ := escapes_cancel h
  exact ⟨String.toList_inj.mp same, rest⟩

/-! ## Values -/

mutual

/-- The floats in a value are written with the characters of a number. -/
def Plain : Json → Prop
  | float repr => repr ≠ "" ∧ ∀ c ∈ repr.toList, numeric c = true
  | arr items => PlainItems items
  | obj members => PlainMembers members
  | null | bool _ | int _ | str _ => True

def PlainItems : List Json → Prop
  | [] => True
  | x :: xs => Plain x ∧ PlainItems xs

def PlainMembers : List (String × Json) → Prop
  | [] => True
  | (_, x) :: xs => Plain x ∧ PlainMembers xs

end

/-- The kinds of values that the first character of a text tells apart. -/
def kind : Json → Nat
  | null => 0
  | bool _ => 1
  | int _ | float _ => 2
  | str _ => 3
  | arr _ => 4
  | obj _ => 5

def kindOf (c : Char) : Nat :=
  if c = 'n' then 0 else if c = 'f' ∨ c = 't' then 1 else if numeric c then 2
  else if c = '"' then 3 else if c = '[' then 4 else if c = '{' then 5 else 6

theorem kindOf_numeric {c : Char} (h : numeric c = true) : kindOf c = 2 := by
  rw [kindOf, if_neg, if_neg, if_pos h]
  · rintro (rfl | rfl)
    · exact absurd h (by decide)
    · exact absurd h (by decide)
  · rintro rfl
    exact absurd h (by decide)

theorem number_head {t : List Char} (some_digit : t ≠ []) (digits : ∀ c ∈ t, numeric c = true) :
    ∃ c r, t = c :: r ∧ kindOf c = 2 := by
  obtain ⟨c, r, rfl⟩ := List.exists_cons_of_ne_nil some_digit
  exact ⟨c, r, rfl, kindOf_numeric (digits c List.mem_cons_self)⟩

theorem integer_ne_nil (n : Int) : (toString n).toList ≠ [] := by
  cases n with
  | ofNat n =>
    have digits := Nat.toDigits_ne_nil (n := n) (b := 10)
    simp [toString, Int.repr, digits]
  | negSucc n => simp [toString, Int.repr]

/-- The first character tells the kind. -/
theorem encode_head {v : Json} (plain : Plain v) :
    ∃ c t, encode v = c :: t ∧ kindOf c = kind v := by
  cases v with
  | null => exact ⟨'n', _, rfl, rfl⟩
  | bool value => cases value <;> exact ⟨_, _, rfl, rfl⟩
  | int n => exact number_head (integer_ne_nil n) integer_numeric
  | float repr => exact number_head (fun none => plain.1 (String.toList_eq_nil_iff.mp none)) plain.2
  | str s => exact ⟨'"', _, rfl, rfl⟩
  | arr items => exact ⟨'[', _, rfl, rfl⟩
  | obj members => exact ⟨'{', _, rfl, rfl⟩

theorem kind_cancel {v w : Json} {r s : List Char} (plain : Plain v) (plain' : Plain w)
    (h : encode v ++ r = encode w ++ s) : kind v = kind w := by
  obtain ⟨c, t, text, same⟩ := encode_head plain
  obtain ⟨d, u, text', same'⟩ := encode_head plain'
  rw [text, text'] at h
  rw [← same, ← same', (List.cons_eq_cons.mp h).1]

/-! ## Sequences of texts -/

/-- Where a text of `T` starts like `t`, both followed by a stop, the two are equal. -/
def Cut (T : List Char → Prop) (t : List Char) : Prop :=
  ∀ u, T u → ∀ r s, Stops r → Stops s → t ++ r = u ++ s → t = u

section Sequences

variable {T : List Char → Prop} {ts us : List (List Char)} {c : Char} {r s : List Char}

/-- What follows an item: the next one, or the bracket. -/
theorem stops_tail (separates : numeric c = false) :
    Stops (ts.flatMap (',' :: ·) ++ c :: r) := by
  cases ts with
  | nil => exact stops_cons separates
  | cons t ts => exact stops_cons (by decide)

theorem tail_cancel (cut : ∀ t ∈ ts, Cut T t) (inside : ∀ u ∈ us, T u) (bracket : c ≠ ',')
    (separates : numeric c = false)
    (h : ts.flatMap (',' :: ·) ++ c :: r = us.flatMap (',' :: ·) ++ c :: s) : ts = us := by
  induction ts generalizing us with
  | nil =>
    cases us with
    | nil => rfl
    | cons u us => exact absurd (List.cons_eq_cons.mp h).1 bracket
  | cons t ts ih =>
    cases us with
    | nil => exact absurd (List.cons_eq_cons.mp h).1.symm bracket
    | cons u us =>
      simp only [List.flatMap_cons, List.cons_append, List.append_assoc, List.cons.injEq,
        true_and] at h
      obtain rfl := cut t List.mem_cons_self u (inside u List.mem_cons_self) _ _
        (stops_tail separates) (stops_tail separates) h
      rw [ih (fun t mem => cut t (List.mem_cons_of_mem _ mem))
        (fun u mem => inside u (List.mem_cons_of_mem _ mem)) (List.append_cancel_left h)]

theorem intercalate_eq (t : List Char) (ts : List (List Char)) :
    [','].intercalate (t :: ts) = t ++ ts.flatMap (',' :: ·) := by
  induction ts generalizing t with
  | nil => simp
  | cons u ts ih => rw [List.intercalate_cons_cons, ih]; simp

/-- A text that starts with another character. -/
def Begins (c : Char) (t : List Char) : Prop := ∃ d x, t = d :: x ∧ d ≠ c

theorem Begins.append_ne {t x : List Char} (h : Begins c t) : t ++ x ≠ c :: r := by
  obtain ⟨d, y, rfl, ne⟩ := h
  exact fun same => ne (List.cons_eq_cons.mp same).1

/-- Texts joined by commas up to a bracket that starts none of them. -/
theorem joined_cancel (cut : ∀ t ∈ ts, Cut T t) (inside : ∀ u ∈ us, T u) (bracket : c ≠ ',')
    (separates : numeric c = false) (begins : ∀ t ∈ ts, Begins c t)
    (begins' : ∀ u ∈ us, Begins c u)
    (h : [','].intercalate ts ++ c :: r = [','].intercalate us ++ c :: s) : ts = us := by
  cases ts with
  | nil =>
    cases us with
    | nil => rfl
    | cons u us =>
      rw [intercalate_eq, List.append_assoc] at h
      exact absurd h.symm (begins' u List.mem_cons_self).append_ne
  | cons t ts =>
    cases us with
    | nil =>
      rw [intercalate_eq, List.append_assoc] at h
      exact absurd h (begins t List.mem_cons_self).append_ne
    | cons u us =>
      refine tail_cancel (r := r) (s := s) cut inside bracket separates ?_
      rw [intercalate_eq, intercalate_eq, List.append_assoc, List.append_assoc] at h
      simp only [List.flatMap_cons, List.cons_append, List.append_assoc, h]

end Sequences

/-! ## The text of a value -/

/-- The text of a plain value. -/
def Encoded (t : List Char) : Prop := ∃ v, Plain v ∧ encode v = t

/-- A name with the text of a plain value. -/
def EncodedMember (t : List Char) : Prop := ∃ k u, Encoded u ∧ quote k ++ ':' :: u = t

theorem cut_member {k : String} {t : List Char} (h : Cut Encoded t) :
    Cut EncodedMember (quote k ++ ':' :: t) := by
  rintro _ ⟨l, u, encoded, rfl⟩ r s hr hs same
  rw [List.append_assoc, List.append_assoc] at same
  obtain ⟨rfl, rest⟩ := quote_cancel same
  rw [h u encoded r s hr hs (List.cons_eq_cons.mp rest).2]

theorem Encoded.begins {t : List Char} (h : Encoded t) {c : Char} (closes : kindOf c = 6) :
    Begins c t := by
  obtain ⟨v, plain, rfl⟩ := h
  obtain ⟨d, x, text, same⟩ := encode_head plain
  refine ⟨d, x, text, ?_⟩
  rintro rfl
  rw [closes] at same
  cases v <;> exact absurd same (by simp [kind])

theorem EncodedMember.begins {t : List Char} (h : EncodedMember t) : Begins '}' t := by
  obtain ⟨k, u, -, rfl⟩ := h
  exact ⟨'"', _, rfl, by decide⟩

theorem encodeItems_eq (items : List Json) : encodeItems items = items.map encode := by
  induction items with
  | nil => rfl
  | cons x xs ih => rw [encodeItems, ih, List.map_cons]

theorem encodeMembers_eq (members : List (String × Json)) :
    encodeMembers members = members.map fun m => (m.1, encode m.2) := by
  induction members with
  | nil => rfl
  | cons x xs ih => rw [encodeMembers, ih, List.map_cons]

theorem plainItems_iff {items : List Json} : PlainItems items ↔ ∀ v ∈ items, Plain v := by
  induction items with
  | nil => simp [PlainItems]
  | cons x xs ih => simp [PlainItems, ih]

theorem plainMembers_iff {members : List (String × Json)} :
    PlainMembers members ↔ ∀ m ∈ members, Plain m.2 := by
  induction members with
  | nil => simp [PlainMembers]
  | cons x xs ih => simp [PlainMembers, ih]

theorem cut_number {t : List Char} (some_digit : t ≠ []) (digits : ∀ c ∈ t, numeric c = true) :
    Cut Encoded t := by
  rintro _ ⟨w, plain, rfl⟩ r s hr hs h
  obtain ⟨c, x, text, same⟩ := number_head some_digit digits
  obtain ⟨d, y, text', same'⟩ := encode_head plain
  have number : kind w = 2 := by
    rw [text, text'] at h
    rw [← same', ← (List.cons_eq_cons.mp h).1, same]
  cases w with
  | int n => exact numeric_cancel digits integer_numeric hr hs h
  | float repr => exact numeric_cancel digits plain.2 hr hs h
  | _ => exact absurd number (by simp [kind])

theorem cut_bool (value : Bool) : Cut Encoded (encode (bool value)) := by
  rintro _ ⟨w, plain, rfl⟩ r s - - h
  have same := kind_cancel (v := bool value) trivial plain h
  cases w with
  | bool value' =>
    cases value <;> cases value'
    · rfl
    · exact absurd (List.cons_eq_cons.mp h).1 (by decide)
    · exact absurd (List.cons_eq_cons.mp h).1 (by decide)
    · rfl
  | _ => exact absurd same (by simp [kind])

theorem cut_null : Cut Encoded (encode null) := by
  rintro _ ⟨w, plain, rfl⟩ r s - - h
  have same := kind_cancel (v := null) trivial plain h
  cases w with
  | null => rfl
  | _ => exact absurd same (by simp [kind])

theorem cut_str (text : String) : Cut Encoded (encode (str text)) := by
  rintro _ ⟨w, plain, rfl⟩ r s - - h
  have same := kind_cancel (v := str text) trivial plain h
  cases w with
  | str text' =>
    obtain ⟨rfl, -⟩ := quote_cancel h
    rfl
  | _ => exact absurd same (by simp [kind])

theorem arr_cancel {items items' : List Json} {r s : List Char} (plain : PlainItems items)
    (plain' : PlainItems items') (cut : ∀ t ∈ encodeItems items, Cut Encoded t)
    (h : encode (arr items) ++ r = encode (arr items') ++ s) :
    encodeItems items = encodeItems items' := by
  have encoded : ∀ {items}, PlainItems items → ∀ t ∈ encodeItems items, Encoded t := by
    intro items plain t mem
    rw [encodeItems_eq] at mem
    obtain ⟨v, inside, rfl⟩ := List.mem_map.mp mem
    exact ⟨v, plainItems_iff.mp plain v inside, rfl⟩
  simp only [encode_arr, List.cons_append, List.append_assoc, List.cons.injEq, true_and] at h
  exact joined_cancel cut (encoded plain') (by decide) (by decide)
    (fun t mem => (encoded plain t mem).begins (by decide))
    (fun u mem => (encoded plain' u mem).begins (by decide)) h

theorem cut_arr {items : List Json} (plain : PlainItems items)
    (cut : ∀ t ∈ encodeItems items, Cut Encoded t) : Cut Encoded (encode (arr items)) := by
  rintro _ ⟨w, plain', rfl⟩ r s - - h
  have same := kind_cancel (v := arr items) plain plain' h
  cases w with
  | arr items' => rw [encode_arr, encode_arr, arr_cancel plain plain' cut h]
  | _ => exact absurd same (by simp [kind])

/-- The text of a member of an object. -/
def memberText (m : String × List Char) : List Char := quote m.1 ++ ':' :: m.2

theorem memberText_inj {m m' : String × List Char} (h : memberText m = memberText m') :
    m = m' := by
  obtain ⟨name, rest⟩ := quote_cancel h
  exact Prod.ext name (List.cons_eq_cons.mp rest).2

theorem obj_cancel {members members' : List (String × Json)} {r s : List Char}
    (plain : PlainMembers members) (plain' : PlainMembers members')
    (cut : ∀ m ∈ encodeMembers members, Cut Encoded m.2)
    (h : encode (obj members) ++ r = encode (obj members') ++ s) :
    sortMembers (encodeMembers members) = sortMembers (encodeMembers members') := by
  have encoded : ∀ {members}, PlainMembers members →
      ∀ t ∈ (sortMembers (encodeMembers members)).map memberText, EncodedMember t := by
    intro members plain t mem
    obtain ⟨m, sorted, rfl⟩ := List.mem_map.mp mem
    rw [sortMembers, List.mem_insertionSort, encodeMembers_eq] at sorted
    obtain ⟨v, inside, rfl⟩ := List.mem_map.mp sorted
    exact ⟨v.1, _, ⟨v.2, plainMembers_iff.mp plain v inside, rfl⟩, rfl⟩
  have cut_text : ∀ t ∈ (sortMembers (encodeMembers members)).map memberText,
      Cut EncodedMember t := by
    intro t mem
    obtain ⟨m, sorted, rfl⟩ := List.mem_map.mp mem
    exact cut_member (cut m ((List.mem_insertionSort _).mp sorted))
  simp only [encode_obj, List.cons_append, List.append_assoc, List.cons.injEq, true_and] at h
  refine List.map_injective_iff.mpr (fun _ _ => memberText_inj) ?_
  exact joined_cancel cut_text (encoded plain') (by decide) (by decide)
    (fun t mem => (encoded plain t mem).begins) (fun u mem => (encoded plain' u mem).begins) h

theorem cut_obj {members : List (String × Json)} (plain : PlainMembers members)
    (cut : ∀ m ∈ encodeMembers members, Cut Encoded m.2) :
    Cut Encoded (encode (obj members)) := by
  rintro _ ⟨w, plain', rfl⟩ r s - - h
  have same := kind_cancel (v := obj members) plain plain' h
  cases w with
  | obj members' => rw [encode_obj, encode_obj, obj_cancel plain plain' cut h]
  | _ => exact absurd same (by simp [kind])

mutual

theorem encode_cut : (v : Json) → Plain v → Cut Encoded (encode v)
  | null, _ => cut_null
  | bool value, _ => cut_bool value
  | int n, _ => cut_number (integer_ne_nil n) integer_numeric
  | float _, plain => cut_number (fun empty => plain.1 (String.toList_eq_nil_iff.mp empty)) plain.2
  | str s, _ => cut_str s
  | arr items, plain => cut_arr plain (items_cut items plain)
  | obj members, plain => cut_obj plain (members_cut members plain)

theorem items_cut : (items : List Json) → PlainItems items →
    ∀ t ∈ encodeItems items, Cut Encoded t
  | [], _ => nofun
  | x :: xs, plain => by
      intro t mem
      rw [encodeItems, List.mem_cons] at mem
      obtain rfl | mem := mem
      · exact encode_cut x plain.1
      · exact items_cut xs plain.2 t mem

theorem members_cut : (members : List (String × Json)) → PlainMembers members →
    ∀ m ∈ encodeMembers members, Cut Encoded m.2
  | [], _ => nofun
  | (k, x) :: xs, plain => by
      intro m mem
      rw [encodeMembers, List.mem_cons] at mem
      obtain rfl | mem := mem
      · exact encode_cut x plain.1
      · exact members_cut xs plain.2 m mem

end

/-! ## Parts of equal texts -/

theorem encode_eq_of_dumps_eq {v w : Json} (h : dumps v = dumps w) : encode v = encode w :=
  String.ofList_injective h

theorem str_inj {s t : String} (h : encode (str s) = encode (str t)) : s = t :=
  (quote_cancel (r := []) (s := []) (congrArg (· ++ []) h)).1

theorem int_inj {m n : Int} (h : encode (int m) = encode (int n)) : m = n := by
  have natural : ∀ {i j : Nat}, (toString i).toList = (toString j).toList → i = j := by
    intro i j same
    rw [Nat.toString_eq_repr, Nat.toString_eq_repr, Nat.toList_repr, Nat.toList_repr] at same
    rw [← Nat.ofDigitChars_ten_toDigits (n := i), same, Nat.ofDigitChars_ten_toDigits]
  have positive : ∀ {i : Nat} {t : List Char}, (toString i).toList ≠ '-' :: t := by
    intro i t same
    rw [Nat.toString_eq_repr, Nat.toList_repr] at same
    have digit := Nat.isDigit_of_mem_toDigits (c := '-') (b := 10) (n := i) (by decide) (by decide)
      (by simp [same])
    exact absurd digit (by decide)
  have negative : ∀ i : Nat, encode (int (.negSucc i)) = '-' :: (toString (i + 1)).toList := by
    intro i
    simp [encode, toString, Int.repr]
  cases m with
  | ofNat i =>
    cases n with
    | ofNat j => exact congrArg Int.ofNat (natural h)
    | negSucc j => exact absurd (h.trans (negative j)) positive
  | negSucc i =>
    cases n with
    | ofNat j => exact absurd (h.symm.trans (negative i)) positive
    | negSucc j =>
      rw [negative, negative] at h
      have same := natural (List.cons_eq_cons.mp h).2
      rw [Nat.succ_inj.mp same]

theorem arr_inj {items items' : List Json} (plain : PlainItems items)
    (plain' : PlainItems items') (h : encode (arr items) = encode (arr items')) :
    items.map encode = items'.map encode := by
  rw [← encodeItems_eq, ← encodeItems_eq]
  exact arr_cancel (r := []) (s := []) plain plain' (items_cut items plain) (by rw [h])

/-- An array of written records determines what the text of one record determines. -/
theorem records_inj {α β : Type} {write : α → Json} {content : α → β} {l l' : List α}
    (plain : ∀ a, Plain (write a))
    (determines : ∀ a b, encode (write a) = encode (write b) → content a = content b)
    (h : encode (arr (l.map write)) = encode (arr (l'.map write))) :
    l.map content = l'.map content := by
  have all_plain : ∀ l : List α, PlainItems (l.map write) := by
    intro l
    refine plainItems_iff.mpr fun v mem => ?_
    obtain ⟨a, _, rfl⟩ := List.mem_map.mp mem
    exact plain a
  have texts := arr_inj (all_plain l) (all_plain l') h
  clear h
  induction l generalizing l' with
  | nil =>
    cases l' with
    | nil => rfl
    | cons b l' => exact absurd texts (by simp)
  | cons a l ih =>
    cases l' with
    | nil => exact absurd texts (by simp)
    | cons b l' =>
      obtain ⟨first, rest⟩ := List.cons_eq_cons.mp texts
      rw [List.map_cons, List.map_cons, determines a b first, ih rest]

/-- The members of two objects of one text are the same texts under the same names, in
some order. -/
theorem obj_perm {members members' : List (String × Json)} (plain : PlainMembers members)
    (plain' : PlainMembers members') (h : encode (obj members) = encode (obj members')) :
    (members.map fun m => (m.1, encode m.2)).Perm (members'.map fun m => (m.1, encode m.2)) := by
  have sorted := obj_cancel (r := []) (s := []) plain plain' (members_cut members plain)
    (by rw [h])
  have perm : ∀ members : List (String × List Char), (sortMembers members).Perm members :=
    fun members => List.perm_insertionSort _ members
  rw [← encodeMembers_eq, ← encodeMembers_eq]
  exact (perm _).symm.trans (sorted ▸ perm _)

/-- Objects of one text have values of one text under a name they share. -/
theorem member_inj {members members' : List (String × Json)} {name : String} {v w : Json}
    (h : encode (obj members) = encode (obj members')) (plain : PlainMembers members)
    (plain' : PlainMembers members') (names : (members'.map Prod.fst).Nodup)
    (mem : (name, v) ∈ members) (mem' : (name, w) ∈ members') : encode v = encode w := by
  have moved := (obj_perm plain plain' h).mem_iff.mp (List.mem_map_of_mem mem)
  obtain ⟨m, inside, same⟩ := List.mem_map.mp moved
  obtain ⟨same_name, same_text⟩ := Prod.mk.inj same
  obtain rfl := List.inj_on_of_nodup_map names inside mem' same_name
  exact same_text.symm

/-- Objects of one text with the same names in the same order have values of one text. -/
theorem values_inj {members members' : List (String × Json)}
    (h : encode (obj members) = encode (obj members')) (plain : PlainMembers members)
    (plain' : PlainMembers members') (names : (members'.map Prod.fst).Nodup)
    (same_names : members.map Prod.fst = members'.map Prod.fst) :
    members.map (fun m => encode m.2) = members'.map fun m => encode m.2 := by
  have lengths : members.length = members'.length := by
    simpa using congrArg List.length same_names
  refine List.ext_getElem (by simpa using lengths) fun i bound bound' => ?_
  rw [List.length_map] at bound bound'
  have same_name : members[i].1 = members'[i].1 := by
    have same := congrArg (·[i]?) same_names
    simpa [List.getElem?_map, bound, bound'] using same
  rw [List.getElem_map, List.getElem_map]
  have mem : (members'[i].1, members[i].2) ∈ members := by
    rw [← same_name]
    exact List.getElem_mem bound
  exact member_inj h plain plain' names mem (List.getElem_mem bound')

end Corvus.Json
