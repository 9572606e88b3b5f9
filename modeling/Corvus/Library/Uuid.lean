import Corvus.Library.Json
import Mathlib.Data.List.Basic

/-!
# UUIDs

A UUID is a 128-bit value. `text` is its canonical form: thirty-two lower-case
hexadecimal digits, most significant first, in groups of 8, 4, 4, 4 and 12.
-/

namespace Corvus

structure Uuid where
  bits : BitVec 128
deriving DecidableEq, Repr

namespace Uuid

def ofNat (n : Nat) : Uuid := ⟨BitVec.ofNat 128 n⟩

/-- The last `count` hexadecimal digits of a number. -/
def hexDigits : Nat → Nat → List Char
  | 0, _ => []
  | count + 1, n => hexDigits count (n / 16) ++ [Json.hexDigit (n % 16)]

/-- `str(uuid)`. -/
def text (u : Uuid) : String :=
  let d := hexDigits 32 u.bits.toNat
  String.ofList (d.take 8 ++ '-' :: (d.drop 8).take 4 ++ '-' :: (d.drop 12).take 4 ++
    '-' :: (d.drop 16).take 4 ++ '-' :: d.drop 20)

/-! ## The text determines the value -/

theorem hexDigit_inj : ∀ m < 16, ∀ n < 16, Json.hexDigit m = Json.hexDigit n → m = n := by decide

theorem hexDigit_ne_dash : ∀ n < 16, Json.hexDigit n ≠ '-' := by decide

theorem no_dash {count n : Nat} : ∀ c ∈ hexDigits count n, c ≠ '-' := by
  induction count generalizing n with
  | zero => exact fun _ mem => absurd mem List.not_mem_nil
  | succ count ih =>
    intro c mem
    obtain mem | mem := List.mem_append.mp mem
    · exact ih c mem
    · rw [List.mem_singleton.mp mem]
      exact hexDigit_ne_dash _ (Nat.mod_lt _ (by omega))

theorem hexDigits_inj {count m n : Nat} (h : hexDigits count m = hexDigits count n) :
    m % 16 ^ count = n % 16 ^ count := by
  induction count generalizing m n with
  | zero => rw [Nat.pow_zero, Nat.mod_one, Nat.mod_one]
  | succ count ih =>
    obtain ⟨high, low⟩ := List.append_inj' h rfl
    have low := hexDigit_inj _ (Nat.mod_lt m (by omega)) _ (Nat.mod_lt n (by omega))
      (List.cons_eq_cons.mp low).1
    rw [Nat.pow_succ', Nat.mod_mul, Nat.mod_mul, low, ih high]

/-- The digits of a text are what is left without its dashes. -/
theorem digits_of_text (u : Uuid) :
    u.text.toList.filter (· ≠ '-') = hexDigits 32 u.bits.toNat := by
  have all : ∀ d : List Char, d.take 8 ++ ((d.drop 8).take 4 ++ ((d.drop 12).take 4 ++
      ((d.drop 16).take 4 ++ d.drop 20))) = d := by
    intro d
    have step : ∀ k, (d.drop k).take 4 ++ d.drop (k + 4) = d.drop k := fun k => by
      rw [← List.drop_drop, List.take_append_drop]
    rw [step 16, step 12, step 8, List.take_append_drop]
  unfold text
  dsimp only
  rw [String.toList_ofList]
  simp only [List.filter_append, List.filter_cons, ne_eq, not_true_eq_false, decide_false,
    Bool.false_eq_true, if_false, List.append_assoc]
  simp only [← List.filter_append, all]
  exact List.filter_eq_self.mpr fun c mem => decide_eq_true (no_dash c mem)

theorem text_inj {u v : Uuid} (h : u.text = v.text) : u = v := by
  have digits : hexDigits 32 u.bits.toNat = hexDigits 32 v.bits.toNat := by
    rw [← digits_of_text, ← digits_of_text, h]
  have same : u.bits.toNat % 2 ^ 128 = v.bits.toNat % 2 ^ 128 := hexDigits_inj digits
  rw [Nat.mod_eq_of_lt u.bits.isLt, Nat.mod_eq_of_lt v.bits.isLt] at same
  cases u
  cases v
  exact congrArg Uuid.mk (BitVec.eq_of_toNat_eq same)

/-! ## Reading a text -/

/-- The number of a hexadecimal digit, and nothing in particular for another character. -/
def hexValue (c : Char) : Nat := if c.toNat < 58 then c.toNat - 48 else c.toNat - 87

/-- The UUID that a text is the canonical form of. -/
@[irreducible]
def ofText? (text : String) : Option Uuid :=
  let digits := text.toList.filter (· ≠ '-')
  let u := ofNat (digits.foldl (fun n c => 16 * n + hexValue c) 0)
  if u.text = text then some u else none

theorem hexValue_hexDigit : ∀ n < 16, hexValue (Json.hexDigit n) = n := by decide

theorem foldl_hexDigits (count n : Nat) :
    (hexDigits count n).foldl (fun n c => 16 * n + hexValue c) 0 = n % 16 ^ count := by
  induction count generalizing n with
  | zero => rw [Nat.pow_zero, Nat.mod_one, hexDigits, List.foldl_nil]
  | succ count ih =>
    have last : hexValue (Json.hexDigit (n % 16)) = n % 16 :=
      hexValue_hexDigit _ (Nat.mod_lt _ (by omega))
    rw [hexDigits, List.foldl_append, ih, List.foldl_cons, List.foldl_nil, last, Nat.pow_succ',
      Nat.mod_mul]
    omega

theorem ofText?_eq_some {text : String} {u : Uuid} : ofText? text = some u ↔ u.text = text := by
  constructor
  · intro read
    simp only [ofText?] at read
    split at read
    · next same =>
      rw [← Option.some.inj read]
      exact same
    · nomatch read
  · rintro rfl
    have small : u.bits.toNat % 16 ^ 32 = u.bits.toNat := Nat.mod_eq_of_lt u.bits.isLt
    have same : ofNat u.bits.toNat = u := by
      rw [ofNat, BitVec.ofNat_toNat, BitVec.setWidth_eq]
    simp only [ofText?, digits_of_text, foldl_hexDigits, small, same, if_true]

/-! ## The characters of the text -/

theorem mem_hexDigits {count n : Nat} {c : Char} (mem : c ∈ hexDigits count n) :
    ∃ m < 16, c = Json.hexDigit m := by
  induction count generalizing n with
  | zero => exact absurd mem List.not_mem_nil
  | succ count ih =>
    obtain mem | mem := List.mem_append.mp mem
    · exact ih mem
    · exact ⟨n % 16, Nat.mod_lt _ (by omega), List.mem_singleton.mp mem⟩

/-- A text has digits and dashes only. -/
theorem mem_text {u : Uuid} {c : Char} (mem : c ∈ u.text.toList) :
    c = '-' ∨ ∃ m < 16, c = Json.hexDigit m := by
  by_cases dash : c = '-'
  · exact .inl dash
  · have digit : c ∈ u.text.toList.filter (· ≠ '-') :=
      List.mem_filter.mpr ⟨mem, decide_eq_true dash⟩
    rw [digits_of_text] at digit
    exact .inr (mem_hexDigits digit)

theorem length_text (u : Uuid) : u.text.toList.length = 36 := by
  have digits : ∀ count n, (hexDigits count n).length = count := by
    intro count
    induction count with
    | zero => exact fun _ => rfl
    | succ count ih =>
      intro n
      rw [hexDigits, List.length_append, ih, List.length_singleton]
  simp only [text, String.toList_ofList, List.length_append, List.length_cons, List.length_take,
    List.length_drop, digits]
  omega

end Uuid

/-- The digests the code takes from Python's standard library: `hashlib.sha256(...)
.hexdigest()` of a UTF-8 text, and `uuid5` of a name in the service's namespace. -/
structure Digests where
  sha256 : String → String
  uuid5 : String → Uuid

end Corvus
