import Mathlib.Data.List.DropRight

/-!
# Texts for bytes

The URL-safe base64 of `base64.urlsafe_b64encode` with its reader `urlsafe_b64decode`, which
passes over every character that is no digit, and the quoting of `urllib.parse.urlencode`.
-/

namespace Corvus

/-- `str.encode("utf-8")`. -/
def utf8 (text : String) : List UInt8 := text.toUTF8.data.toList

namespace Base64

/-- The digit for six bits. -/
def digit (n : Nat) : Char :=
  if n < 26 then Char.ofNat (n + 65)
  else if n < 52 then Char.ofNat (n + 71)
  else if n < 62 then Char.ofNat (n - 4)
  else if n = 62 then '-' else '_'

/-- The six bits of a digit, of this alphabet or of the one that is not safe in URLs. -/
def value (c : Char) : Option Nat :=
  if 'A' ≤ c ∧ c ≤ 'Z' then some (c.toNat - 65)
  else if 'a' ≤ c ∧ c ≤ 'z' then some (c.toNat - 71)
  else if '0' ≤ c ∧ c ≤ '9' then some (c.toNat + 4)
  else if c = '-' ∨ c = '+' then some 62
  else if c = '_' ∨ c = '/' then some 63
  else none

/-! ## Writing -/

def digits : List UInt8 → List Char
  | [] => []
  | [a] => [digit (a.toNat / 4), digit (a.toNat % 4 * 16)]
  | [a, b] =>
      [digit (a.toNat / 4), digit (a.toNat % 4 * 16 + b.toNat / 16), digit (b.toNat % 16 * 4)]
  | a :: b :: c :: rest =>
      digit (a.toNat / 4) :: digit (a.toNat % 4 * 16 + b.toNat / 16) ::
        digit (b.toNat % 16 * 4 + c.toNat / 64) :: digit (c.toNat % 64) :: digits rest

/-- As many `=` signs as there are missing to a multiple of four. -/
def padding (n : Nat) : List Char := List.replicate ((4 - n % 4) % 4) '='

/-- `base64.urlsafe_b64encode`. -/
def encode (bytes : List UInt8) : List Char := digits bytes ++ padding (digits bytes).length

/-! ## Reading -/

/-- The loop of `binascii.a2b_base64`, with the digits since the last group, the bits that are
left of them, and the `=` signs since the last digit. -/
def decodeFrom : (quad left pads : Nat) → List Char → Option (List UInt8)
  | quad, _, _, [] => if quad = 0 then some [] else none
  | quad, left, pads, c :: r =>
      if c = '=' then
        if 2 ≤ quad then
          if 4 ≤ quad + (pads + 1) then some [] else decodeFrom quad left (pads + 1) r
        else decodeFrom quad left pads r
      else
        match value c with
        | none => decodeFrom quad left pads r
        | some v =>
          match quad with
          | 0 => decodeFrom 1 v 0 r
          | 1 => (decodeFrom 2 (v % 16) 0 r).map (UInt8.ofNat (left * 4 + v / 16) :: ·)
          | 2 => (decodeFrom 3 (v % 4) 0 r).map (UInt8.ofNat (left * 16 + v / 4) :: ·)
          | _ => (decodeFrom 0 0 0 r).map (UInt8.ofNat (left * 64 + v) :: ·)

/-- `base64.urlsafe_b64decode` of a text, which must be ASCII. -/
def decode (text : List Char) : Option (List UInt8) :=
  if text.all (·.toNat < 128) then decodeFrom 0 0 0 text else none

/-! ## What is written is read back -/

theorem value_digit : ∀ n < 64, value (digit n) = some n := by decide

theorem digit_ne_pad : ∀ n < 64, digit n ≠ '=' := by decide

theorem digit_ascii : ∀ n < 64, (digit n).toNat < 127 := by decide

/-- Whatever holds of every digit. -/
theorem forall_digits {P : Char → Prop} (each : ∀ n < 64, P (digit n)) (bytes : List UInt8) :
    ∀ c ∈ digits bytes, P c := by
  induction bytes using digits.induct with
  | case1 => exact fun _ mem => absurd mem List.not_mem_nil
  | case2 a =>
    have := a.toNat_lt
    refine List.forall_mem_cons.mpr ⟨each _ (by omega), ?_⟩
    exact List.forall_mem_singleton.mpr (each _ (by omega))
  | case3 a b =>
    have := a.toNat_lt
    have := b.toNat_lt
    refine List.forall_mem_cons.mpr ⟨each _ (by omega), ?_⟩
    refine List.forall_mem_cons.mpr ⟨each _ (by omega), ?_⟩
    exact List.forall_mem_singleton.mpr (each _ (by omega))
  | case4 a b c rest ih =>
    have := a.toNat_lt
    have := b.toNat_lt
    have := c.toNat_lt
    refine List.forall_mem_cons.mpr ⟨each _ (by omega), ?_⟩
    refine List.forall_mem_cons.mpr ⟨each _ (by omega), ?_⟩
    refine List.forall_mem_cons.mpr ⟨each _ (by omega), ?_⟩
    exact List.forall_mem_cons.mpr ⟨each _ (by omega), ih⟩

section

variable {n left pads : Nat} {r : List Char}

/-- What a digit does with the bits that are left of the digits before it in its group. -/
theorem decodeFrom_digit (lt : n < 64) :
    decodeFrom 0 left pads (digit n :: r) = decodeFrom 1 n 0 r ∧
    decodeFrom 1 left pads (digit n :: r) =
      (decodeFrom 2 (n % 16) 0 r).map (UInt8.ofNat (left * 4 + n / 16) :: ·) ∧
    decodeFrom 2 left pads (digit n :: r) =
      (decodeFrom 3 (n % 4) 0 r).map (UInt8.ofNat (left * 16 + n / 4) :: ·) ∧
    decodeFrom 3 left pads (digit n :: r) =
      (decodeFrom 0 0 0 r).map (UInt8.ofNat (left * 64 + n) :: ·) := by
  simp only [decodeFrom, if_neg (digit_ne_pad n lt), value_digit n lt, and_self]

end

theorem ofNat_eq {a : UInt8} {n : Nat} (same : n = a.toNat) : UInt8.ofNat n = a := by
  rw [same, UInt8.ofNat_toNat]

/-- The digits of a text with its padding are read back, group by group. -/
theorem decodeFrom_digits (bytes : List UInt8) :
    decodeFrom 0 0 0 (digits bytes ++ padding (digits bytes).length) = some bytes := by
  induction bytes using digits.induct with
  | case1 => rfl
  | case2 a =>
    have := a.toNat_lt
    have first : a.toNat / 4 * 4 + a.toNat % 4 * 16 / 16 = a.toNat := by omega
    rw [digits, List.cons_append, (decodeFrom_digit (by omega)).1, List.cons_append,
      (decodeFrom_digit (by omega)).2.1, ofNat_eq first]
    rfl
  | case3 a b =>
    have := a.toNat_lt
    have := b.toNat_lt
    have first : a.toNat / 4 * 4 + (a.toNat % 4 * 16 + b.toNat / 16) / 16 = a.toNat := by omega
    have second : (a.toNat % 4 * 16 + b.toNat / 16) % 16 * 16 + b.toNat % 16 * 4 / 4 = b.toNat := by
      omega
    rw [digits, List.cons_append, (decodeFrom_digit (by omega)).1, List.cons_append,
      (decodeFrom_digit (by omega)).2.1, ofNat_eq first, List.cons_append,
      (decodeFrom_digit (by omega)).2.2.1, ofNat_eq second]
    rfl
  | case4 a b c rest ih =>
    have := a.toNat_lt
    have := b.toNat_lt
    have := c.toNat_lt
    have first : a.toNat / 4 * 4 + (a.toNat % 4 * 16 + b.toNat / 16) / 16 = a.toNat := by omega
    have second : (a.toNat % 4 * 16 + b.toNat / 16) % 16 * 16 +
        (b.toNat % 16 * 4 + c.toNat / 64) / 4 = b.toNat := by omega
    have third : (b.toNat % 16 * 4 + c.toNat / 64) % 4 * 64 + c.toNat % 64 = c.toNat := by omega
    have same : padding (digits (a :: b :: c :: rest)).length = padding (digits rest).length := by
      rw [digits, padding, padding]
      simp only [List.length_cons, Nat.add_assoc, Nat.add_mod_right]
    rw [same, digits, List.cons_append, (decodeFrom_digit (by omega)).1, List.cons_append,
      (decodeFrom_digit (by omega)).2.1, ofNat_eq first, List.cons_append,
      (decodeFrom_digit (by omega)).2.2.1, ofNat_eq second, List.cons_append,
      (decodeFrom_digit (by omega)).2.2.2, ofNat_eq third, ih]
    rfl

theorem decode_digits (bytes : List UInt8) :
    decode (digits bytes ++ padding (digits bytes).length) = some bytes := by
  have ascii : (digits bytes ++ padding (digits bytes).length).all (·.toNat < 128) = true := by
    refine List.all_eq_true.mpr fun c mem => decide_eq_true ?_
    obtain written | added := List.mem_append.mp mem
    · have small := forall_digits (P := fun c => c.toNat < 127) digit_ascii bytes c written
      exact Nat.lt_succ_of_lt small
    · rw [List.eq_of_mem_replicate added]
      decide
  rw [decode, if_pos ascii, decodeFrom_digits]

/-- Without the `=` signs at its end, what is written is its digits. -/
theorem rdropWhile_encode (bytes : List UInt8) :
    (encode bytes).rdropWhile (· = '=') = digits bytes := by
  have added : ∀ c ∈ padding (digits bytes).length, decide (c = '=') = true :=
    fun c mem => decide_eq_true (List.eq_of_mem_replicate mem)
  have kept : ∀ c ∈ digits bytes, ¬ c = '=' := forall_digits digit_ne_pad bytes
  rw [List.rdropWhile, encode, List.reverse_append,
    List.dropWhile_append_of_pos fun c mem => added c (List.mem_reverse.mp mem)]
  cases backwards : (digits bytes).reverse with
  | nil => exact (List.reverse_eq_nil_iff.mp backwards).symm
  | cons c rest =>
    have last : c ∈ digits bytes := List.mem_reverse.mp (backwards ▸ List.mem_cons_self)
    rw [List.dropWhile_cons_of_neg (by simpa using kept c last), ← backwards, List.reverse_reverse]

end Base64

namespace Url

def hexDigit (n : Nat) : Char := if n < 10 then Char.ofNat (n + 48) else Char.ofNat (n + 55)

def quoteByte (b : UInt8) : List Char :=
  let c := Char.ofNat b.toNat
  if c.isAlphanum ∨ c ∈ ['_', '.', '-', '~'] then [c]
  else if c = ' ' then ['+']
  else ['%', hexDigit (b.toNat / 16), hexDigit (b.toNat % 16)]

/-- `urllib.parse.quote_plus`. -/
def quotePlus (text : String) : String := String.ofList ((utf8 text).flatMap quoteByte)

/-- `urllib.parse.urlencode`. -/
def urlencode (query : List (String × String)) : String :=
  "&".intercalate (query.map fun entry => quotePlus entry.1 ++ "=" ++ quotePlus entry.2)

end Url

end Corvus
