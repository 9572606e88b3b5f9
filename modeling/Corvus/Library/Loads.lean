import Corvus.Library.Canonical
import Mathlib.Data.List.Infix

/-!
# Reading compact text

`loads` reads the texts that `dumps` writes. It gives back a value whose objects have their members
in the order of their names, each name once, and whose floats are not written like integers.
-/

namespace Corvus.Json

/-! ## The reader -/

def isInteger : List Char → Bool
  | '-' :: t => t ≠ [] && t.all Char.isDigit
  | t => t ≠ [] && t.all Char.isDigit

def integerOf : List Char → Int
  | '-' :: t => -(Nat.ofDigitChars 10 t 0)
  | t => Nat.ofDigitChars 10 t 0

/-- A number without a fraction and without an exponent is an integer. -/
def readNumber (t : List Char) : Option (Json × List Char) :=
  let digits := t.takeWhile numeric
  let rest := t.dropWhile numeric
  if isInteger digits then some (int (integerOf digits), rest)
  else some (float (String.ofList digits), rest)

/-- The characters of a literal up to its closing quotation mark. -/
def readChars : Nat → List Char → Option (List Char × List Char)
  | 0, _ => none
  | _ + 1, '"' :: r => some ([], r)
  | n + 1, t => do
      let (c, r) ← unescape t
      let (cs, r) ← readChars n r
      return (c :: cs, r)

def readString : List Char → Option (String × List Char)
  | '"' :: r => (readChars r.length r).map fun read => (String.ofList read.1, read.2)
  | _ => none

def readWord (word : List Char) (v : Json) (t : List Char) : Option (Json × List Char) :=
  if word <+: t then some (v, t.drop word.length) else none

section Sequences

variable {α : Type} (item : List Char → Option (α × List Char)) (close : Char)

/-- What follows an item, up to the bracket. -/
def readTail : Nat → List Char → Option (List α × List Char)
  | n + 1, c :: r =>
      if c = close then some ([], r)
      else if c = ',' then do
        let (x, r) ← item r
        let (xs, r) ← readTail n r
        return (x :: xs, r)
      else none
  | _, _ => none

def readSequence (t : List Char) : Option (List α × List Char) :=
  if t.head? = some close then some ([], t.tail)
  else do
    let (x, r) ← item t
    let (xs, r) ← readTail item close r.length r
    return (x :: xs, r)

end Sequences

def readMember (value : List Char → Option (Json × List Char)) (t : List Char) :
    Option ((String × Json) × List Char) := do
  let (name, r) ← readString t
  guard (r.head? = some ':')
  let (v, r) ← value r.tail
  return ((name, v), r)

/-- A value whose arrays and objects are nested less than `depth`. -/
def readValue : Nat → List Char → Option (Json × List Char)
  | depth + 1, c :: r =>
      match kindOf c with
      | 0 => readWord "null".toList null (c :: r)
      | 1 => (readWord "true".toList (bool true) (c :: r)).or
          (readWord "false".toList (bool false) (c :: r))
      | 2 => readNumber (c :: r)
      | 3 => (readString (c :: r)).map fun read => (str read.1, read.2)
      | 4 => (readSequence (readValue depth) ']' r).map fun read => (arr read.1, read.2)
      | 5 =>
          (readSequence (readMember (readValue depth)) '}' r).map fun read => (obj read.1, read.2)
      | _ => none
  | _, _ => none

/-- `json.loads`, of a text without blanks. -/
def loads (text : String) : Option Json :=
  match readValue text.length text.toList with
  | some (v, []) => some v
  | _ => none

example : loads "[1,-2.5,null,[true]]" =
    some (.arr [.int 1, .float "-2.5", .null, .arr [.bool true]]) := by decide +kernel

/-! ## What is read back -/

mutual

/-- The members of objects are in the order of their names, each name once, and no float is written
like an integer. -/
def Canonical : Json → Prop
  | float repr => (repr ≠ "" ∧ ∀ c ∈ repr.toList, numeric c = true) ∧
      isInteger repr.toList = false
  | arr items => CanonicalItems items
  | obj members => (members.map Prod.fst).Pairwise (· < ·) ∧ CanonicalMembers members
  | null | bool _ | int _ | str _ => True

def CanonicalItems : List Json → Prop
  | [] => True
  | x :: xs => Canonical x ∧ CanonicalItems xs

def CanonicalMembers : List (String × Json) → Prop
  | [] => True
  | (_, x) :: xs => Canonical x ∧ CanonicalMembers xs

end

/-! ## Numbers and literals -/

variable {t r : List Char}

theorem takeWhile_numeric (digits : ∀ c ∈ t, numeric c = true) (stops : Stops r) :
    (t ++ r).takeWhile numeric = t ∧ (t ++ r).dropWhile numeric = r := by
  have rest : r.takeWhile numeric = [] ∧ r.dropWhile numeric = r := by
    cases r with
    | nil => exact ⟨rfl, rfl⟩
    | cons c r =>
      have stop : ¬ numeric c = true := by rw [stops c rfl]; exact Bool.false_ne_true
      exact ⟨List.takeWhile_cons_of_neg stop, List.dropWhile_cons_of_neg stop⟩
  rw [List.takeWhile_append_of_pos digits, List.dropWhile_append_of_pos digits, rest.1, rest.2]
  exact ⟨List.append_nil t, rfl⟩

theorem natural_toList (n : Nat) : (toString n).toList = Nat.toDigits 10 n := by
  rw [Nat.toString_eq_repr, Nat.toList_repr]

theorem negative_toList (n : Nat) :
    (toString (Int.negSucc n)).toList = '-' :: Nat.toDigits 10 (n + 1) := by
  rw [← natural_toList]
  simp [toString, Int.repr]

theorem digits_all (n : Nat) : (Nat.toDigits 10 n).all Char.isDigit = true :=
  List.all_eq_true.mpr fun _ mem => Nat.isDigit_of_mem_toDigits (by decide) (by decide) mem

theorem digits_head (n : Nat) : ∀ c ∈ (Nat.toDigits 10 n).head?, c ≠ '-' := by
  rintro c head rfl
  have digit := Nat.isDigit_of_mem_toDigits (by decide) (by decide) (List.mem_of_mem_head? head)
  exact absurd digit (by decide)

/-- An integer without a sign. -/
theorem unsigned (head : ∀ c ∈ t.head?, c ≠ '-') :
    isInteger t = (t ≠ [] && t.all Char.isDigit) ∧ integerOf t = Nat.ofDigitChars 10 t 0 := by
  cases t with
  | nil => exact ⟨rfl, rfl⟩
  | cons c t =>
    have other := head c rfl
    constructor
    · rw [isInteger]
      rintro _ ⟨⟩
      exact other rfl
    · rw [integerOf]
      rintro _ ⟨⟩
      exact other rfl

theorem integer_read (n : Int) :
    isInteger (toString n).toList = true ∧ integerOf (toString n).toList = n := by
  cases n with
  | ofNat n =>
    have text : (toString (Int.ofNat n)).toList = Nat.toDigits 10 n := natural_toList n
    obtain ⟨integer, value⟩ := unsigned (digits_head n)
    rw [text, integer, value, digits_all, Nat.ofDigitChars_ten_toDigits]
    exact ⟨by simp [Nat.toDigits_ne_nil], rfl⟩
  | negSucc n =>
    rw [negative_toList]
    show (Nat.toDigits 10 (n + 1) ≠ [] && (Nat.toDigits 10 (n + 1)).all Char.isDigit) = true ∧
      -(Nat.ofDigitChars 10 (Nat.toDigits 10 (n + 1)) 0 : Int) = Int.negSucc n
    rw [digits_all, Nat.ofDigitChars_ten_toDigits]
    exact ⟨by simp [Nat.toDigits_ne_nil], rfl⟩

theorem readChars_escapes (cs : List Char) (n : Nat) (enough : cs.length < n) :
    readChars n (cs.flatMap escapeChar ++ '"' :: r) = some (cs, r) := by
  induction cs generalizing n with
  | nil =>
    obtain ⟨n, rfl⟩ := Nat.exists_eq_succ_of_ne_zero (Nat.ne_of_gt enough)
    rfl
  | cons c cs ih =>
    obtain ⟨n, rfl⟩ := Nat.exists_eq_succ_of_ne_zero (Nat.ne_of_gt (Nat.zero_lt_of_lt enough))
    rw [List.length_cons, Nat.succ_eq_add_one] at enough
    rw [List.flatMap_cons, List.append_assoc, readChars, unescape_escapeChar]
    · change (readChars n (cs.flatMap escapeChar ++ '"' :: r) >>= _) = _
      rw [ih n (by omega)]
      rfl
    · intro rest same
      exact escape_ne_quote same

theorem length_escapes (cs : List Char) : cs.length ≤ (cs.flatMap escapeChar).length := by
  have some_ : ∀ c, 1 ≤ (escapeChar c).length := by
    intro c
    unfold escapeChar
    split_ifs <;> simp
  induction cs with
  | nil => exact Nat.le_refl 0
  | cons c cs ih =>
    rw [List.flatMap_cons, List.length_append, List.length_cons]
    have := some_ c
    omega

theorem readString_quote (s : String) : readString (quote s ++ r) = some (s, r) := by
  have enough : s.toList.length < (s.toList.flatMap escapeChar ++ '"' :: r).length := by
    have := length_escapes s.toList
    rw [List.length_append, List.length_cons]
    omega
  have text : quote s ++ r = '"' :: (s.toList.flatMap escapeChar ++ '"' :: r) := by
    simp [quote]
  rw [text, readString, readChars_escapes _ _ enough, Option.map_some, String.ofList_toList]

/-! ## Sequences -/

section Sequences

variable {α : Type} {item : List Char → Option (α × List Char)} {close : Char}
  {write : α → List Char}

theorem readTail_flatMap (xs : List α) (n : Nat) (enough : xs.length < n) (bracket : close ≠ ',')
    (separates : numeric close = false)
    (reads : ∀ x ∈ xs, ∀ r, Stops r → item (write x ++ r) = some (x, r)) :
    readTail item close n ((xs.map write).flatMap (',' :: ·) ++ close :: r) = some (xs, r) := by
  induction xs generalizing n with
  | nil =>
    obtain ⟨n, rfl⟩ := Nat.exists_eq_succ_of_ne_zero (Nat.ne_of_gt enough)
    rw [List.map_nil, List.flatMap_nil, List.nil_append, readTail, if_pos rfl]
  | cons x xs ih =>
    obtain ⟨n, rfl⟩ := Nat.exists_eq_succ_of_ne_zero (Nat.ne_of_gt (Nat.zero_lt_of_lt enough))
    rw [List.length_cons, Nat.succ_eq_add_one] at enough
    rw [List.map_cons, List.flatMap_cons, List.append_assoc, List.cons_append, readTail,
      if_neg bracket.symm, if_pos rfl]
    rw [reads x List.mem_cons_self _ (stops_tail separates)]
    change (readTail item close n ((xs.map write).flatMap (',' :: ·) ++ close :: r) >>= _) = _
    rw [ih n (by omega) fun x mem => reads x (List.mem_cons_of_mem _ mem)]
    rfl

theorem length_flatMap (ts : List (List Char)) :
    ts.length ≤ (ts.flatMap (',' :: ·)).length := by
  induction ts with
  | nil => exact Nat.le_refl 0
  | cons t ts ih =>
    rw [List.flatMap_cons, List.length_append, List.length_cons, List.length_cons]
    omega

theorem readSequence_intercalate (xs : List α) (bracket : close ≠ ',')
    (separates : numeric close = false) (begins : ∀ x ∈ xs, Begins close (write x))
    (reads : ∀ x ∈ xs, ∀ r, Stops r → item (write x ++ r) = some (x, r)) :
    readSequence item close ([','].intercalate (xs.map write) ++ close :: r) = some (xs, r) := by
  cases xs with
  | nil =>
    change readSequence item close (close :: r) = _
    rw [readSequence, List.head?_cons, if_pos rfl, List.tail_cons]
  | cons x xs =>
    obtain ⟨d, rest, text, other⟩ := begins x List.mem_cons_self
    have head :
        (write x ++ ((xs.map write).flatMap (',' :: ·) ++ close :: r)).head? ≠ some close := by
      rw [text, List.cons_append, List.head?_cons]
      exact fun same => other (Option.some.inj same)
    rw [List.map_cons, intercalate_eq, List.append_assoc, readSequence, if_neg head,
      reads x List.mem_cons_self _ (stops_tail separates)]
    have enough : xs.length < ((xs.map write).flatMap (',' :: ·) ++ close :: r).length := by
      have := length_flatMap (xs.map write)
      rw [List.length_map] at this
      rw [List.length_append, List.length_cons]
      omega
    change (readTail item close _ _ >>= _) = _
    rw [readTail_flatMap xs _ enough bracket separates fun x mem =>
      reads x (List.mem_cons_of_mem _ mem)]
    rfl

/-- A part of a sequence is shorter than the sequence in its brackets. -/
theorem length_le_intercalate {ts : List (List Char)} (mem : t ∈ ts) :
    t.length ≤ ([','].intercalate ts).length := by
  cases ts with
  | nil => exact absurd mem List.not_mem_nil
  | cons u ts =>
    rw [intercalate_eq, List.length_append]
    obtain rfl | mem := List.mem_cons.mp mem
    · omega
    · have := (List.sublist_flatten_of_mem (List.mem_map_of_mem (f := (',' :: ·)) mem)).length_le
      rw [List.length_cons, ← List.flatMap_def] at this
      omega

end Sequences

/-! ## Values -/

/-- A value is read back from its text. -/
def Reads (v : Json) : Prop :=
  ∀ depth, (encode v).length ≤ depth → ∀ r, Stops r → readValue depth (encode v ++ r) = some (v, r)

mutual

theorem Canonical.plain : (v : Json) → Canonical v → Plain v
  | null, _ | bool _, _ | int _, _ | str _, _ => trivial
  | float _, canonical => canonical.1
  | arr items, canonical => canonicalItems_plain items canonical
  | obj members, canonical => canonicalMembers_plain members canonical.2

theorem canonicalItems_plain : (items : List Json) → CanonicalItems items → PlainItems items
  | [], _ => trivial
  | x :: xs, canonical => ⟨Canonical.plain x canonical.1, canonicalItems_plain xs canonical.2⟩

theorem canonicalMembers_plain : (members : List (String × Json)) → CanonicalMembers members →
    PlainMembers members
  | [], _ => trivial
  | (_, x) :: xs, canonical =>
      ⟨Canonical.plain x canonical.1, canonicalMembers_plain xs canonical.2⟩

end

/-- The members of a canonical object are in the order in which they are written. -/
theorem sortMembers_canonical {members : List (String × Json)}
    (sorted : (members.map Prod.fst).Pairwise (· < ·)) :
    sortMembers (encodeMembers members) = members.map fun m => (m.1, encode m.2) := by
  rw [encodeMembers_eq, sortMembers]
  apply List.Pairwise.insertionSort_eq
  rw [List.pairwise_map] at sorted ⊢
  exact sorted.imp fun less => le_of_lt less

/-- A value is read from a text. -/
def ReadFrom (v : Json) (text : List Char) : Prop :=
  ∀ depth, text.length ≤ depth → ∀ r, Stops r → readValue depth (text ++ r) = some (v, r)

/-- An array is read from the texts of its items. -/
theorem readFrom_arr {items : List Json} {write : Json → List Char}
    (begins : ∀ x ∈ items, Begins ']' (write x)) (reads : ∀ x ∈ items, ReadFrom x (write x)) :
    ReadFrom (arr items) ('[' :: [','].intercalate (items.map write) ++ [']']) := by
  intro depth enough r stops
  cases depth with
  | zero => simp at enough
  | succ depth =>
    rw [List.append_assoc, List.cons_append, List.singleton_append]
    change (readSequence (readValue depth) ']' _).map _ = _
    rw [readSequence_intercalate items (by decide) (by decide) begins]
    · rfl
    · intro x mem r stops
      refine reads x mem depth ?_ r stops
      have := length_le_intercalate (List.mem_map_of_mem (f := write) mem)
      simp only [List.length_append, List.length_cons] at enough
      omega

theorem readMember_text {value : List Char → Option (Json × List Char)} {name : String} {v : Json}
    {t : List Char} (reads : value (t ++ r) = some (v, r)) :
    readMember value (memberText (name, t) ++ r) = some ((name, v), r) := by
  rw [readMember, memberText, List.append_assoc, readString_quote]
  change (value (t ++ r) >>= _) = _
  rw [reads]
  rfl

/-- An object is read from the texts of its members. -/
theorem readFrom_obj {members : List (String × Json)} {write : Json → List Char}
    (reads : ∀ m ∈ members, ReadFrom m.2 (write m.2)) :
    ReadFrom (obj members) ('{' ::
      [','].intercalate (members.map fun m => memberText (m.1, write m.2)) ++ ['}']) := by
  intro depth enough r stops
  cases depth with
  | zero => simp at enough
  | succ depth =>
    rw [List.append_assoc, List.cons_append, List.singleton_append]
    change (readSequence (readMember (readValue depth)) '}' _).map _ = _
    rw [readSequence_intercalate members (by decide) (by decide)]
    · rfl
    · exact fun m _ => ⟨'"', _, rfl, by decide⟩
    · intro m mem r stops
      refine readMember_text (reads m mem depth ?_ r stops)
      have := length_le_intercalate
        (List.mem_map_of_mem (f := fun m => memberText (m.1, write m.2)) mem)
      simp only [List.length_append, List.length_cons, memberText] at enough this
      omega

theorem reads_arr {items : List Json} (plain : PlainItems items) (reads : ∀ x ∈ items, Reads x) :
    Reads (arr items) := by
  have begins : ∀ x ∈ items, Begins ']' (encode x) := fun x mem =>
    Encoded.begins ⟨x, plainItems_iff.mp plain x mem, rfl⟩ (by decide)
  have read : ReadFrom (arr items) _ := readFrom_arr begins reads
  rwa [← encodeItems_eq, ← encode_arr] at read

theorem reads_obj {members : List (String × Json)}
    (sorted : (members.map Prod.fst).Pairwise (· < ·))
    (reads : ∀ m ∈ members, Reads m.2) : Reads (obj members) := by
  have read : ReadFrom (obj members) _ := readFrom_obj reads
  have text : encode (obj members) = '{' ::
      [','].intercalate (members.map fun m => memberText (m.1, encode m.2)) ++ ['}'] := by
    rw [encode_obj, sortMembers_canonical sorted, List.map_map]
    rfl
  rwa [← text] at read

theorem reads_number {v : Json} (text : encode v ≠ [])
    (digits : ∀ c ∈ encode v, numeric c = true)
    (reads : ∀ r, Stops r → readNumber (encode v ++ r) = some (v, r)) : Reads v := by
  intro depth enough r stops
  obtain ⟨c, rest, same, kind⟩ := number_head text digits
  have read := reads r stops
  rw [same] at enough read ⊢
  cases depth with
  | zero => simp at enough
  | succ depth => rwa [List.cons_append, readValue, kind]

theorem reads_int (n : Int) : Reads (int n) := by
  refine reads_number (integer_ne_nil n) integer_numeric fun r stops => ?_
  obtain ⟨integer, value⟩ := integer_read n
  obtain ⟨digits, rest⟩ := takeWhile_numeric (integer_numeric (n := n)) stops
  change readNumber ((toString n).toList ++ r) = _
  rw [readNumber, digits, rest, if_pos integer, value]

theorem reads_float {repr : String} (canonical : Canonical (float repr)) : Reads (float repr) := by
  obtain ⟨⟨some_, numbers⟩, other⟩ := canonical
  refine reads_number (fun none => some_ (String.toList_eq_nil_iff.mp none)) numbers
    fun r stops => ?_
  obtain ⟨digits, rest⟩ := takeWhile_numeric numbers stops
  change readNumber (repr.toList ++ r) = _
  rw [readNumber, digits, rest, other, if_neg Bool.false_ne_true, String.ofList_toList]

theorem reads_str (s : String) : Reads (str s) := by
  intro depth enough r stops
  cases depth with
  | zero => exact absurd enough (Nat.not_succ_le_zero _)
  | succ depth =>
    change (readString (quote s ++ r)).map _ = _
    rw [readString_quote]
    rfl

mutual

theorem Canonical.reads : (v : Json) → Canonical v → Reads v
  | null, _ | bool true, _ | bool false, _ => by
      intro depth enough r stops
      cases depth with
      | zero => exact absurd enough (by decide)
      | succ depth => rfl
  | int n, _ => reads_int n
  | float _, canonical => reads_float canonical
  | str s, _ => reads_str s
  | arr items, canonical =>
      reads_arr (canonicalItems_plain items canonical) (canonicalItems_reads items canonical)
  | obj members, canonical => reads_obj canonical.1 (canonicalMembers_reads members canonical.2)

theorem canonicalItems_reads : (items : List Json) → CanonicalItems items →
    ∀ x ∈ items, Reads x
  | [], _ => fun _ mem => absurd mem List.not_mem_nil
  | x :: xs, canonical => by
      intro y mem
      obtain same | mem := List.mem_cons.mp mem
      · rw [same]
        exact Canonical.reads x canonical.1
      · exact canonicalItems_reads xs canonical.2 y mem

theorem canonicalMembers_reads : (members : List (String × Json)) → CanonicalMembers members →
    ∀ m ∈ members, Reads m.2
  | [], _ => fun _ mem => absurd mem List.not_mem_nil
  | (k, x) :: xs, canonical => by
      intro m mem
      obtain same | mem := List.mem_cons.mp mem
      · rw [same]
        exact Canonical.reads x canonical.1
      · exact canonicalMembers_reads xs canonical.2 m mem

end

/-- A text of ASCII characters needs no escapes of its own. -/
theorem dumpsAscii_eq_dumps {v : Json} (ascii : ∀ c ∈ encode v, c.toNat < 127) :
    dumpsAscii v = dumps v := by
  have kept : ∀ cs : List Char, (∀ c ∈ cs, c.toNat < 127) → cs.flatMap asciiChar = cs := by
    intro cs
    induction cs with
    | nil => exact fun _ => rfl
    | cons c cs ih =>
      intro small
      obtain ⟨first, rest⟩ := List.forall_mem_cons.mp small
      rw [List.flatMap_cons, asciiChar, if_pos first, ih rest, List.singleton_append]
  rw [dumpsAscii, dumps, kept _ ascii]

/-- A canonical value is read back from its text. -/
theorem loads_dumps {v : Json} (canonical : Canonical v) : loads (dumps v) = some v := by
  have reads := canonical.reads v (dumps v).length (by simp [dumps]) [] stops_nil
  rw [List.append_nil] at reads
  rw [loads, dumps, String.toList_ofList]
  rw [dumps] at reads
  rw [reads]

end Corvus.Json
