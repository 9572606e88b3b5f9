import Mathlib.Data.List.Basic
import Mathlib.Tactic.Ring
import Mathlib.Algebra.Order.Ring.Nat

/-!
# Lossy decoding

UTF-8 decoding in which a replacement character stands for whatever is no character: for each byte
that begins no sequence, and for the longest part of a sequence that is broken off. An ASCII
character always stands for itself, whatever is around it.
-/

namespace Corvus.Lossy

/-- A sequence that has begun: its value so far, how many bytes are missing, and the bounds of the
next byte. Its character will not be an ASCII one. -/
structure Pending where
  value : Nat
  missing : Nat
  low : Nat
  high : Nat
  low_le : 0x80 ≤ low
  large : 0x80 ≤ value * 64 ^ missing + (low - 0x80) * 64 ^ (missing - 1)

/-- The replacement character. -/
def replacement : Char := Char.ofNat 0xFFFD

theorem two_large {b : Nat} (le : 0xC2 ≤ b) :
    0x80 ≤ (b - 0xC0) * 64 ^ 1 + (0x80 - 0x80) * 64 ^ (1 - 1) := by
  simp only [pow_one]
  omega

theorem three_large {b : Nat} (le : 0xE1 ≤ b) :
    0x80 ≤ (b - 0xE0) * 64 ^ 2 + (0x80 - 0x80) * 64 ^ (2 - 1) := by
  norm_num
  omega

theorem four_large {b : Nat} (le : 0xF1 ≤ b) :
    0x80 ≤ (b - 0xF0) * 64 ^ 3 + (0x80 - 0x80) * 64 ^ (3 - 1) := by
  norm_num
  omega

theorem low_first : 0x80 ≤ 0x80 := le_rfl

theorem low_three : 0x80 ≤ 0xA0 := by decide

theorem low_four : 0x80 ≤ 0x90 := by decide

theorem short_three : 0x80 ≤ 0 * 64 ^ 2 + (0xA0 - 0x80) * 64 ^ (2 - 1) := by decide

theorem short_four : 0x80 ≤ 0 * 64 ^ 3 + (0x90 - 0x80) * 64 ^ (3 - 1) := by decide

/-- A byte that begins something. -/
def first (b : UInt8) : List Char × Option Pending :=
  let n := b.toNat
  if n < 0x80 then ([Char.ofNat n], none)
  else if h : 0xC2 ≤ n ∧ n ≤ 0xDF then
    ([], some ⟨n - 0xC0, 1, 0x80, 0xBF, low_first, two_large h.1⟩)
  else if n = 0xE0 then ([], some ⟨0, 2, 0xA0, 0xBF, low_three, short_three⟩)
  else if h : 0xE1 ≤ n ∧ n ≤ 0xEF then
    ([], some ⟨n - 0xE0, 2, 0x80, if n = 0xED then 0x9F else 0xBF, low_first, three_large h.1⟩)
  else if n = 0xF0 then ([], some ⟨0, 3, 0x90, 0xBF, low_four, short_four⟩)
  else if h : 0xF1 ≤ n ∧ n ≤ 0xF4 then
    ([], some ⟨n - 0xF0, 3, 0x80, if n = 0xF4 then 0x8F else 0xBF, low_first, four_large h.1⟩)
  else ([replacement], none)

theorem more_large {s : Pending} {n : Nat} (le : s.low ≤ n) (more : 1 < s.missing) :
    0x80 ≤ (s.value * 64 + (n - 0x80)) * 64 ^ (s.missing - 1) +
      (0x80 - 0x80) * 64 ^ (s.missing - 1 - 1) := by
  have large := s.large
  have power : 64 ^ s.missing = 64 * 64 ^ (s.missing - 1) := by
    rw [← pow_succ', Nat.sub_add_cancel more.le]
  have next : (s.low - 0x80) * 64 ^ (s.missing - 1) ≤ (n - 0x80) * 64 ^ (s.missing - 1) :=
    Nat.mul_le_mul_right _ (Nat.sub_le_sub_right le _)
  rw [power] at large
  calc 0x80 ≤ s.value * (64 * 64 ^ (s.missing - 1)) + (s.low - 0x80) * 64 ^ (s.missing - 1) := large
    _ ≤ s.value * (64 * 64 ^ (s.missing - 1)) + (n - 0x80) * 64 ^ (s.missing - 1) :=
      Nat.add_le_add_left next _
    _ = _ := by ring

/-- The character of a sequence, which the bounds of its bytes make a valid one. -/
def charOf (n : Nat) : Char := if n.isValidChar then Char.ofNat n else replacement

/-- The next byte: the characters that it completes, and the sequence that goes on. -/
def feed (state : Option Pending) (b : UInt8) : List Char × Option Pending :=
  match state with
  | none => first b
  | some s =>
    if le : s.low ≤ b.toNat ∧ b.toNat ≤ s.high then
      if more : 1 < s.missing then
        ([], some ⟨s.value * 64 + (b.toNat - 0x80), s.missing - 1, 0x80, 0xBF, low_first,
          more_large le.1 more⟩)
      else ([charOf (s.value * 64 + (b.toNat - 0x80))], none)
    else (replacement :: (first b).1, (first b).2)

/-- What a sequence leaves that is broken off. -/
def flush : Option Pending → List Char
  | none => []
  | some _ => [replacement]

def decodeFrom : Option Pending → List UInt8 → List Char
  | state, [] => flush state
  | state, b :: s => (feed state b).1 ++ decodeFrom (feed state b).2 s

/-- The text of some bytes, whatever they are. -/
def decode (bytes : List UInt8) : List Char := decodeFrom none bytes

/-- The bytes of an ASCII text. -/
def ascii (text : List Char) : List UInt8 := text.map fun c => UInt8.ofNat c.toNat

variable {state : Option Pending} {b : UInt8} {a s : List UInt8} {c : Char} {w x y : List Char}

/-! ## ASCII characters -/

theorem feed_ascii (small : b.toNat < 0x80) :
    feed state b = (flush state ++ [Char.ofNat b.toNat], none) := by
  have alone : first b = ([Char.ofNat b.toNat], none) := if_pos small
  cases state with
  | none => exact alone
  | some s =>
    rw [feed, dif_neg, alone]
    · rfl
    · have le := s.low_le
      omega

theorem toNat_ascii {n : Nat} (small : n < 0x80) : (Char.ofNat n).toNat = n := by
  rw [Char.ofNat, dif_pos (.inl (by omega))]
  rfl

theorem charOf_large {n : Nat} (large : 0x80 ≤ n) : 0x80 ≤ (charOf n).toNat := by
  rw [charOf]
  by_cases valid : n.isValidChar
  · rw [if_pos valid, Char.ofNat, dif_pos valid]
    exact large
  · rw [if_neg valid]
    decide

theorem first_large (large : 0x80 ≤ b.toNat) : ∀ c ∈ (first b).1, 0x80 ≤ c.toNat := by
  intro c mem
  simp only [first, if_neg (not_lt.mpr large)] at mem
  split_ifs at mem
  all_goals simp only [List.not_mem_nil, List.mem_singleton] at mem
  rw [mem]
  decide

/-- The other bytes give no ASCII character. -/
theorem feed_large (large : 0x80 ≤ b.toNat) : ∀ c ∈ (feed state b).1, 0x80 ≤ c.toNat := by
  intro c mem
  cases state with
  | none => exact first_large large c mem
  | some s =>
    simp only [feed] at mem
    split_ifs at mem with inside more
    · exact absurd mem List.not_mem_nil
    · rw [List.mem_singleton.mp mem]
      refine charOf_large ?_
      have big := s.large
      obtain one | none_ : s.missing = 1 ∨ s.missing = 0 := by omega
      · rw [one] at big
        simp only [pow_one, Nat.sub_self, pow_zero] at big
        omega
      · rw [none_] at big
        simp only [pow_zero, Nat.zero_sub] at big
        omega
    · obtain rfl | mem := List.mem_cons.mp mem
      · decide
      · exact first_large large c mem

/-- An ASCII byte in a text. -/
theorem decodeFrom_append_ascii (small : b.toNat < 0x80) :
    decodeFrom state (a ++ b :: s) = decodeFrom state a ++ Char.ofNat b.toNat :: decode s := by
  induction a generalizing state with
  | nil =>
    rw [List.nil_append, show decodeFrom state (b :: s) = (feed state b).1 ++
      decodeFrom (feed state b).2 s from rfl, feed_ascii small, decodeFrom, List.append_assoc]
    rfl
  | cons d a ih => rw [List.cons_append, decodeFrom, decodeFrom, ih, List.append_assoc]

theorem not_mem_flush (state : Option Pending) (small : c.toNat < 0x80) : c ∉ flush state := by
  intro mem
  cases state with
  | none => exact absurd mem List.not_mem_nil
  | some s =>
    rw [List.mem_singleton.mp mem] at small
    exact absurd small (by decide)

/-- The ASCII character that a byte completes is the byte. -/
theorem feed_eq_append (small : c.toNat < 0x80) {z : List Char}
    (same : (feed state b).1 = x ++ c :: z) :
    b.toNat = c.toNat ∧ x = flush state ∧ z = [] ∧ (feed state b).2 = none := by
  by_cases large : 0x80 ≤ b.toNat
  · have mem : c ∈ (feed state b).1 := by
      rw [same]
      exact List.mem_append_right x List.mem_cons_self
    exact absurd small (not_lt.mpr (feed_large large c mem))
  rw [feed_ascii (not_le.mp large)] at same ⊢
  have only : x = flush state ∧ z = [] ∧ c = Char.ofNat b.toNat := by
    obtain ⟨u, rfl, rest⟩ | ⟨u, before, rest⟩ := List.append_eq_append_iff.mp same
    · cases u with
      | nil =>
        obtain ⟨rfl, rfl⟩ := List.cons.inj rest
        exact ⟨by simp, rfl, rfl⟩
      | cons e u => exact absurd (List.cons.inj rest).2 (by simp)
    · cases u with
      | nil =>
        obtain ⟨rfl, rfl⟩ := List.cons.inj rest
        exact ⟨by simpa using before.symm, rfl, rfl⟩
      | cons e u =>
        obtain ⟨rfl, -⟩ := List.cons.inj rest
        exact absurd (by simp [before]) (not_mem_flush state small)
  obtain ⟨before, after, rfl⟩ := only
  exact ⟨(toNat_ascii (not_le.mp large)).symm, before, after, rfl⟩

/-- An ASCII character in a decoded text. -/
theorem decodeFrom_eq_append (small : c.toNat < 0x80) (same : decodeFrom state s = x ++ c :: y) :
    ∃ a d b, s = a ++ d :: b ∧ d.toNat = c.toNat ∧ decodeFrom state a = x ∧ decode b = y := by
  induction s generalizing state x with
  | nil =>
    refine absurd ?_ (not_mem_flush state small)
    rw [show flush state = x ++ c :: y from same]
    exact List.mem_append_right x List.mem_cons_self
  | cons d s ih =>
    rw [decodeFrom] at same
    obtain ⟨z, rfl, rest⟩ | ⟨z, outer, rest⟩ := List.append_eq_append_iff.mp same
    · obtain ⟨a, e, b, rfl, equal, before, after⟩ := ih rest
      exact ⟨d :: a, e, b, rfl, equal, by rw [decodeFrom, before], after⟩
    · cases z with
      | nil =>
        obtain ⟨a, e, b, rfl, equal, before, after⟩ := ih (x := []) rest.symm
        refine ⟨d :: a, e, b, rfl, equal, ?_, after⟩
        rw [decodeFrom, before, outer, List.append_nil, List.append_nil]
      | cons e z =>
        obtain ⟨rfl, after⟩ := List.cons.inj rest
        obtain ⟨equal, rfl, rfl, none_⟩ := feed_eq_append small outer
        exact ⟨[], d, s, rfl, equal, rfl, by rw [after, none_]; rfl⟩

/-- What has begun leaves a character. -/
theorem decodeFrom_some {p : Pending} : decodeFrom (some p) s ≠ [] := by
  induction s generalizing p with
  | nil => exact List.cons_ne_nil _ _
  | cons b s ih =>
    simp only [decodeFrom, feed]
    split_ifs
    · exact ih
    · exact List.cons_ne_nil _ _
    · exact List.cons_ne_nil _ _

theorem decode_eq_nil (nothing : decode s = []) : s = [] := by
  cases s with
  | nil => rfl
  | cons b s =>
    obtain ⟨none_, rest⟩ := List.append_eq_nil_iff.mp nothing
    simp only [feed, first] at none_ rest
    split_ifs at none_ rest
    all_goals first | exact absurd none_ (List.cons_ne_nil _ _) | exact absurd rest decodeFrom_some

/-! ## ASCII texts -/

theorem ascii_cons (c : Char) (w : List Char) :
    ascii (c :: w) = UInt8.ofNat c.toNat :: ascii w := rfl

theorem toNat_byte (small : c.toNat < 0x80) : (UInt8.ofNat c.toNat).toNat = c.toNat := by
  rw [UInt8.toNat_ofNat']
  omega

theorem decode_ascii_append (small : ∀ c ∈ w, c.toNat < 0x80) :
    decode (ascii w ++ s) = w ++ decode s := by
  induction w with
  | nil => rfl
  | cons c w ih =>
    obtain ⟨first, small⟩ := List.forall_mem_cons.mp small
    have byte := toNat_byte first
    rw [ascii_cons, List.cons_append, ← List.nil_append (UInt8.ofNat c.toNat :: _), decode,
      decodeFrom_append_ascii (by omega), ih small, byte, Char.ofNat_toNat]
    rfl

/-- An ASCII text between other bytes. -/
theorem decode_append_ascii (some_ : w ≠ []) (small : ∀ c ∈ w, c.toNat < 0x80) :
    decode (a ++ ascii w ++ s) = decode a ++ w ++ decode s := by
  obtain ⟨c, w, rfl⟩ := List.exists_cons_of_ne_nil some_
  obtain ⟨first, small⟩ := List.forall_mem_cons.mp small
  have byte := toNat_byte first
  rw [ascii_cons, List.append_assoc, List.cons_append, decode, decodeFrom_append_ascii (by omega),
    decode_ascii_append small, byte, Char.ofNat_toNat, List.append_assoc]
  rfl

/-- An ASCII text in a decoded text comes from its bytes. -/
theorem decode_eq_append (some_ : w ≠ []) (small : ∀ c ∈ w, c.toNat < 0x80)
    (same : decode s = x ++ w ++ y) :
    ∃ a b, s = a ++ ascii w ++ b ∧ decode a = x ∧ decode b = y := by
  induction w generalizing s x with
  | nil => exact absurd rfl some_
  | cons c w ih =>
    obtain ⟨first, small⟩ := List.forall_mem_cons.mp small
    rw [List.append_assoc, List.cons_append] at same
    obtain ⟨a, d, b, rfl, equal, before, after⟩ := decodeFrom_eq_append first same
    have byte : d = UInt8.ofNat c.toNat := by rw [← equal, UInt8.ofNat_toNat]
    cases w with
    | nil => exact ⟨a, b, by rw [byte]; simp [ascii], before, after⟩
    | cons e w =>
      obtain ⟨a', b', rfl, none_, rest⟩ := ih (x := []) (List.cons_ne_nil e w) small after
      rw [decode_eq_nil none_, List.nil_append]
      exact ⟨a, b', by rw [byte]; simp [ascii], before, rest⟩

end Corvus.Lossy
