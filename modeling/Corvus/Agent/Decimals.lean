import Corvus.Agent.Requests
import Corvus.Library.Loads
import Mathlib.Algebra.Order.Field.Rat
import Mathlib.Data.Nat.Digits.Defs

/-!
# Canonical decimals

The canonical text of a decimal is read back as the same number, so two decimals have one text just
if they are numerically equal.
-/

namespace Corvus.Agent.Decimal

/-- The number that a decimal stands for. -/
def value (d : Decimal) : ℚ :=
  (if d.negative then -(d.coefficient : ℚ) else d.coefficient) * 10 ^ d.exponent

/-! ## The loop over the digits -/

section Digits

variable {fuel c c' : Nat} {e e' : Int}

/-- The loop of `_canonical_decimal` over the digits, the last of them first; `none` where it finds
no digit to look at. -/
def strip : List Nat → Int → Option (List Nat × Int)
  | [], _ => none
  | digit :: digits, exponent =>
      if digit = 0 then strip digits (exponent + 1) else some (digit :: digits, exponent)

/-- The loop ends at a digit other than zero, and what it leaves is what `stripped` computes. -/
theorem strip_digits (pos : c ≠ 0) (enough : c ≤ fuel) :
    strip (Nat.digits 10 c) e =
      some (Nat.digits 10 (stripped fuel c e).1, (stripped fuel c e).2) := by
  induction fuel generalizing c e with
  | zero => omega
  | succ fuel ih =>
    have digits := Nat.digits_def' (b := 10) (by decide) (Nat.pos_of_ne_zero pos)
    rw [digits, strip, stripped]
    by_cases last : c % 10 = 0
    · rw [if_pos last, if_pos last]
      exact ih (by omega) (by omega)
    · rw [if_neg last, if_neg last, ← digits]

/-- What is left of the digits ends in a digit other than zero, and the exponent makes up for the
zeros. -/
theorem stripped_spec (pos : c ≠ 0) (enough : c ≤ fuel) :
    (stripped fuel c e).1 % 10 ≠ 0 ∧
      ∃ k : Nat, c = (stripped fuel c e).1 * 10 ^ k ∧ (stripped fuel c e).2 = e + k := by
  induction fuel generalizing c e with
  | zero => omega
  | succ fuel ih =>
    rw [stripped]
    by_cases last : c % 10 = 0
    · rw [if_pos last]
      obtain ⟨ends, k, coefficient, exponent⟩ :=
        ih (c := c / 10) (e := e + 1) (by omega) (by omega)
      refine ⟨ends, k + 1, ?_, ?_⟩
      · rw [pow_succ, ← mul_assoc, ← coefficient]
        omega
      · rw [exponent]
        push_cast
        omega
    · rw [if_neg last]
      exact ⟨last, 0, by simp, by simp⟩

theorem stripped_ne_zero (pos : c ≠ 0) (enough : c ≤ fuel) : (stripped fuel c e).1 ≠ 0 := by
  intro zero
  obtain ⟨ends, -⟩ := stripped_spec (e := e) pos enough
  rw [zero] at ends
  exact ends rfl

/-- A number is written in one way only with a last digit other than zero. -/
theorem eq_of_scaled (ends : c % 10 ≠ 0) (ends' : c' % 10 ≠ 0)
    (same : (c : ℚ) * 10 ^ e = c' * 10 ^ e') : c = c' ∧ e = e' := by
  wlog le : e ≤ e' generalizing c c' e e'
  · obtain ⟨coefficient, exponent⟩ := this ends' ends same.symm (le_of_not_ge le)
    exact ⟨coefficient.symm, exponent.symm⟩
  obtain ⟨k, rfl⟩ := Int.le.dest le
  have scaled : (c : ℚ) = (c' * 10 ^ k : Nat) := by
    have power : (10 : ℚ) ^ e ≠ 0 := zpow_ne_zero e (by norm_num)
    apply mul_right_cancel₀ power
    rw [same, zpow_add₀ (by norm_num), zpow_natCast]
    push_cast
    ring
  have coefficient : c = c' * 10 ^ k := by exact_mod_cast scaled
  cases k with
  | zero => simpa using coefficient
  | succ k =>
    rw [coefficient, pow_succ, ← mul_assoc] at ends
    omega

end Digits

/-! ## Equal numbers -/

/-- The decimal whose digits the canonical text shows. -/
def normal (d : Decimal) : Decimal :=
  if d.coefficient = 0 then ⟨false, 0, 0⟩
  else ⟨d.negative, (stripped d.coefficient d.coefficient d.exponent).1,
    (stripped d.coefficient d.coefficient d.exponent).2⟩

theorem value_normal (d : Decimal) : d.normal.value = d.value := by
  unfold normal
  by_cases zero : d.coefficient = 0
  · simp [value, zero]
  · obtain ⟨-, k, coefficient, exponent⟩ := stripped_spec (e := d.exponent) zero le_rfl
    rw [if_neg zero]
    have scaled : (d.coefficient : ℚ) * 10 ^ d.exponent =
        (stripped d.coefficient d.coefficient d.exponent).1 *
          10 ^ (stripped d.coefficient d.coefficient d.exponent).2 := by
      rw [exponent, zpow_add₀ (by norm_num), zpow_natCast]
      conv_lhs => rw [coefficient]
      push_cast
      ring
    unfold value
    dsimp only
    cases d.negative
    · exact scaled.symm
    · simpa using congrArg Neg.neg scaled.symm

theorem value_eq_zero (d : Decimal) : d.value = 0 ↔ d.coefficient = 0 := by
  have power : (10 : ℚ) ^ d.exponent ≠ 0 := zpow_ne_zero d.exponent (by norm_num)
  unfold value
  cases d.negative <;> simp [power]

theorem value_neg (d : Decimal) (nonzero : d.coefficient ≠ 0) :
    d.value < 0 ↔ d.negative = true := by
  have power : (0 : ℚ) < 10 ^ d.exponent := zpow_pos (by norm_num) d.exponent
  have pos : (0 : ℚ) < d.coefficient := Nat.cast_pos.mpr (Nat.pos_of_ne_zero nonzero)
  have product := mul_pos pos power
  unfold value
  cases d.negative
  · simpa using product.le
  · simpa using product

theorem normal_eq_of_value {a b : Decimal} (same : a.value = b.value) : a.normal = b.normal := by
  have zeros : a.coefficient = 0 ↔ b.coefficient = 0 := by
    rw [← value_eq_zero, ← value_eq_zero, same]
  by_cases zero : a.coefficient = 0
  · rw [normal, normal, if_pos zero, if_pos (zeros.mp zero)]
  have nonzero : b.coefficient ≠ 0 := fun other => zero (zeros.mpr other)
  have sign : a.negative = b.negative := by
    rw [Bool.eq_iff_iff, ← value_neg a zero, ← value_neg b nonzero, same]
  have scaled := (value_normal a).trans (same.trans (value_normal b).symm)
  rw [normal, normal, if_neg zero, if_neg nonzero, sign] at scaled ⊢
  have unsigned : ((stripped a.coefficient a.coefficient a.exponent).1 : ℚ) *
        10 ^ (stripped a.coefficient a.coefficient a.exponent).2 =
      (stripped b.coefficient b.coefficient b.exponent).1 *
        10 ^ (stripped b.coefficient b.coefficient b.exponent).2 := by
    unfold value at scaled
    dsimp only at scaled
    cases negative : b.negative
    · simpa [negative] using scaled
    · simpa only [negative, if_true, neg_mul, neg_inj] using scaled
  obtain ⟨ends, -⟩ := stripped_spec (e := a.exponent) zero le_rfl
  obtain ⟨ends', -⟩ := stripped_spec (e := b.exponent) nonzero le_rfl
  obtain ⟨coefficient, exponent⟩ := eq_of_scaled ends ends' unsigned
  rw [coefficient, exponent]

/-! ## Reading a number -/

/-- The sign at the beginning of a number, and what follows it. -/
def signOf : List Char → Bool × List Char
  | '-' :: rest => (true, rest)
  | '+' :: rest => (false, rest)
  | rest => (false, rest)

/-- The digits after a point, and what follows them. -/
def fractionOf : List Char → List Char × List Char
  | '.' :: rest => (rest.takeWhile Char.isDigit, rest.dropWhile Char.isDigit)
  | rest => ([], rest)

/-- The exponent at the end of a number: zero where nothing stands there. -/
def exponentOf : List Char → Option Int
  | [] => some 0
  | c :: rest =>
      let (negative, digits) := signOf rest
      if (c = 'e' ∨ c = 'E') ∧ digits ≠ [] ∧ digits.all Char.isDigit then
        let exponent : Int := Nat.ofDigitChars 10 digits 0
        some (if negative then -exponent else exponent)
      else none

/-- `Decimal(text)` of a finite number: its digits, with a sign, a point and an exponent where
there are any. -/
def parse (text : String) : Option Decimal :=
  let (negative, rest) := signOf text.toList
  let whole := rest.takeWhile Char.isDigit
  let (fraction, rest) := fractionOf (rest.dropWhile Char.isDigit)
  if whole = [] ∧ fraction = [] then none
  else (exponentOf rest).map fun exponent =>
    ⟨negative, Nat.ofDigitChars 10 (whole ++ fraction) 0, exponent - fraction.length⟩

example : parse "-12.50e3" = some ⟨true, 1250, 1⟩ := by decide +kernel

section Reading

variable {n : Nat} {t : List Char}

theorem digits_isDigit (n : Nat) : ∀ c ∈ Nat.toDigits 10 n, c.isDigit = true :=
  fun _ mem => Nat.isDigit_of_mem_toDigits (by decide) (by decide) mem

/-- Digits begin with no sign. -/
theorem signOf_digits : signOf (Nat.toDigits 10 n ++ t) = (false, Nat.toDigits 10 n ++ t) := by
  obtain ⟨c, cs, digits⟩ := List.exists_cons_of_ne_nil (Nat.toDigits_ne_nil (n := n) (b := 10))
  have digit := digits_isDigit n c (digits ▸ List.mem_cons_self)
  rw [digits, List.cons_append, signOf]
  · rintro rest same
    obtain ⟨rfl, -⟩ := List.cons.inj same
    exact absurd digit (by decide)
  · rintro rest same
    obtain ⟨rfl, -⟩ := List.cons.inj same
    exact absurd digit (by decide)

/-- The exponent in a canonical text. -/
def exponentText (exponent : Int) : String :=
  if exponent = 0 then "" else (if 0 < exponent then "E+" else "E") ++ toString exponent

theorem exponentText_cases (exponent : Int) :
    (exponent = 0 ∧ (exponentText exponent).toList = []) ∨
      ∃ sign n, (exponentText exponent).toList = 'E' :: sign :: Nat.toDigits 10 n ∧
        (sign = '+' ∧ exponent = n ∨ sign = '-' ∧ exponent = -(n : Int)) := by
  cases exponent with
  | ofNat n =>
    cases n with
    | zero => exact .inl ⟨rfl, rfl⟩
    | succ n =>
      have text : (toString (Int.ofNat (n + 1))).toList = Nat.toDigits 10 (n + 1) :=
        Json.natural_toList (n + 1)
      refine .inr ⟨'+', n + 1, ?_, .inl ⟨rfl, rfl⟩⟩
      have pos : (0 : Int) < Int.ofNat (n + 1) := Int.natCast_pos.mpr n.succ_pos
      rw [exponentText, if_neg pos.ne', if_pos pos, String.toList_append, text]
      rfl
  | negSucc n =>
    refine .inr ⟨'-', n + 1, ?_, .inr ⟨rfl, rfl⟩⟩
    rw [exponentText, if_neg (by simp), if_neg (by simp), String.toList_append,
      Json.negative_toList]
    rfl

theorem exponentOf_text (exponent : Int) :
    exponentOf (exponentText exponent).toList = some exponent := by
  obtain ⟨rfl, text⟩ | ⟨sign, n, text, signed⟩ := exponentText_cases exponent
  · rw [text]
    rfl
  have digits := List.all_eq_true.mpr (digits_isDigit n)
  obtain ⟨rfl, rfl⟩ | ⟨rfl, rfl⟩ := signed <;>
    simp [text, exponentOf, signOf, digits, Nat.toDigits_ne_nil, Nat.ofDigitChars_ten_toDigits]

/-- What follows the digits of a canonical text is no point and no digit. -/
theorem exponentText_rest (exponent : Int) :
    fractionOf (exponentText exponent).toList = ([], (exponentText exponent).toList) ∧
      (exponentText exponent).toList.takeWhile Char.isDigit = [] ∧
      (exponentText exponent).toList.dropWhile Char.isDigit = (exponentText exponent).toList := by
  obtain ⟨-, text⟩ | ⟨sign, n, text, -⟩ := exponentText_cases exponent
  · rw [text]
    exact ⟨rfl, rfl, rfl⟩
  · rw [text]
    exact ⟨rfl, rfl, rfl⟩

/-- The digits of a canonical text, up to its exponent. -/
theorem digits_span (n : Nat) (exponent : Int) :
    (Nat.toDigits 10 n ++ (exponentText exponent).toList).takeWhile Char.isDigit =
        Nat.toDigits 10 n ∧
      (Nat.toDigits 10 n ++ (exponentText exponent).toList).dropWhile Char.isDigit =
        (exponentText exponent).toList := by
  obtain ⟨-, taken, dropped⟩ := exponentText_rest exponent
  rw [List.takeWhile_append_of_pos (digits_isDigit n),
    List.dropWhile_append_of_pos (digits_isDigit n), taken, dropped]
  exact ⟨List.append_nil _, rfl⟩

/-- The text of a decimal is its sign, its digits and its exponent. -/
theorem parse_text {text : String} {negative : Bool} {exponent : Int}
    (shape : text.toList = (if negative then ['-'] else []) ++ (Nat.toDigits 10 n ++
      (exponentText exponent).toList)) :
    parse text = some ⟨negative, n, exponent⟩ := by
  have sign : signOf text.toList =
      (negative, Nat.toDigits 10 n ++ (exponentText exponent).toList) := by
    rw [shape]
    cases negative
    · exact signOf_digits
    · rfl
  obtain ⟨whole, rest⟩ := digits_span n exponent
  obtain ⟨fraction, -⟩ := exponentText_rest exponent
  simp [parse, sign, whole, rest, fraction, Nat.toDigits_ne_nil, exponentOf_text,
    Nat.ofDigitChars_ten_toDigits]

end Reading

/-- The text of a sign, digits and an exponent. -/
def shown (d : Decimal) : String :=
  if d.coefficient = 0 then "0"
  else (if d.negative then "-" else "") ++ toString d.coefficient ++ exponentText d.exponent

theorem canonical_eq (d : Decimal) : d.canonical = d.normal.shown := by
  unfold canonical normal
  by_cases zero : d.coefficient = 0
  · rw [if_pos zero, if_pos zero]
    rfl
  · rw [if_neg zero, if_neg zero, shown, if_neg (stripped_ne_zero zero le_rfl)]
    rfl

/-- The canonical text shows the digits that the loop leaves. -/
theorem parse_canonical (d : Decimal) : parse d.canonical = some d.normal := by
  rw [canonical_eq, shown]
  by_cases zero : d.coefficient = 0
  · rw [normal, if_pos zero]
    decide +kernel
  · rw [normal, if_neg zero, if_neg (stripped_ne_zero zero le_rfl)]
    apply parse_text
    rw [String.toList_append, String.toList_append, Json.natural_toList, List.append_assoc]
    cases d.negative <;> rfl

theorem canonical_eq_iff (a b : Decimal) : a.canonical = b.canonical ↔ a.value = b.value := by
  constructor
  · intro same
    have read := (parse_canonical a).symm.trans (same ▸ parse_canonical b)
    rw [← value_normal a, Option.some.inj read, value_normal b]
  · intro same
    rw [canonical_eq, canonical_eq, normal_eq_of_value same]

/-- Two decimals have one canonical text just if they are numerically equal; the text is read back
as the same number; and the loop over the digits ends, at a digit other than zero. -/
theorem canonical_identifies (a b : Decimal) :
    (a.canonical = b.canonical ↔ a.value = b.value) ∧
    (∃ d, parse a.canonical = some d ∧ d.value = a.value) ∧
    (a.coefficient ≠ 0 →
      strip (Nat.digits 10 a.coefficient) a.exponent =
        some (Nat.digits 10 (stripped a.coefficient a.coefficient a.exponent).1,
          (stripped a.coefficient a.coefficient a.exponent).2) ∧
      (stripped a.coefficient a.coefficient a.exponent).1 % 10 ≠ 0) := by
  refine ⟨canonical_eq_iff a b, ⟨a.normal, parse_canonical a, value_normal a⟩, fun nonzero => ?_⟩
  exact ⟨strip_digits nonzero le_rfl, (stripped_spec nonzero le_rfl).1⟩

/-- `-120.0` and `-12E+1`. -/
theorem canonical_identifies_sample :
    strip (Nat.digits 10 1200) (-1) =
        some (Nat.digits 10 (stripped 1200 1200 (-1)).1, (stripped 1200 1200 (-1)).2) ∧
      (stripped 1200 1200 (-1)).1 % 10 ≠ 0 :=
  (canonical_identifies ⟨true, 1200, -1⟩ ⟨true, 12, 1⟩).2.2 (by decide)

end Corvus.Agent.Decimal
