import Corvus.Library.Calendar

/-!
# Timestamps in the order of their texts

Two times in UTC, from year 1 to year 9999, stand in the order of their ISO texts, whether or not
the texts have a fraction: the sign of the offset comes before the point of a fraction, and the
point is never set against a digit.
-/

namespace Corvus.Calendar

/-- What a `datetime` in UTC can be: an instant of the years 1 to 9999. -/
def Representable (t : Int) : Prop := -62135596800000000 ≤ t ∧ t ≤ 253402300799999999

instance : DecidablePred Representable := fun _ => inferInstanceAs (Decidable (_ ∧ _))

/-- The text of a time in UTC, with its offset. -/
def timestamp (t : Int) : String := isoformat t ++ "+00:00"

/-! ## Dates -/

section Dates

variable {days days' : Int} {x y : Int}

/-- The year of an era in which one of its days lies, and the first day of the year from which
days are counted there, the first of March. -/
def yearOfEra (doe : Int) : Int := (doe - doe / 1460 + doe / 36524 - doe / 146096) / 365

def dayOfYear (doe : Int) : Int :=
  doe - (365 * yearOfEra doe + yearOfEra doe / 4 - yearOfEra doe / 100)

theorem yearOfEra_bounds (least : 0 ≤ x) (most : x < 146097) :
    0 ≤ yearOfEra x ∧ yearOfEra x ≤ 399 := by
  simp only [yearOfEra]
  omega

/-- A day lies in the year of the century that it seems to, but for the last of the era. -/
theorem yearOfEra_century (least : 0 ≤ x) (most : x < 146096) :
    yearOfEra x / 100 = x / 36524 := by
  have last : x / 146096 = 0 := by omega
  have century : x / 36524 = 0 ∨ x / 36524 = 1 ∨ x / 36524 = 2 ∨ x / 36524 = 3 := by omega
  simp only [yearOfEra, last]
  rcases century with c | c | c | c
  · rw [c]; omega
  · rw [c]; omega
  · rw [c]; omega
  · rw [c]; omega

theorem dayOfYear_bounds (least : 0 ≤ x) (most : x < 146097) :
    0 ≤ dayOfYear x ∧ dayOfYear x ≤ 365 := by
  by_cases last : x = 146096
  · rw [last]
    decide
  · have century := yearOfEra_century least (by omega)
    simp only [dayOfYear, century]
    simp only [yearOfEra] at century ⊢
    omega

theorem yearOfEra_mono (least : 0 ≤ x) (lt : x < y) (most : y < 146097) :
    yearOfEra x ≤ yearOfEra y := by
  simp only [yearOfEra]
  omega

def eraOf (days : Int) : Int := (days + 719468) / 146097

def dayOfEra (days : Int) : Int := days + 719468 - eraOf days * 146097

/-- The months from March of year 0 to the one of a day, and the day in its month. -/
def monthOfYear (days : Int) : Int := (5 * dayOfYear (dayOfEra days) + 2) / 153

def monthIndex (days : Int) : Int :=
  12 * (yearOfEra (dayOfEra days) + eraOf days * 400) + monthOfYear days

def dayOfMonth (days : Int) : Int :=
  dayOfYear (dayOfEra days) - (153 * monthOfYear days + 2) / 5 + 1

theorem dayOfEra_bounds (days : Int) : 0 ≤ dayOfEra days ∧ dayOfEra days < 146097 := by
  simp only [dayOfEra, eraOf]
  omega

theorem dayOfMonth_bounds (days : Int) :
    0 ≤ monthOfYear days ∧ monthOfYear days ≤ 11 ∧ 1 ≤ dayOfMonth days ∧ dayOfMonth days ≤ 31 := by
  obtain ⟨least, most⟩ := dayOfEra_bounds days
  have bounds := dayOfYear_bounds least most
  simp only [dayOfMonth, monthOfYear]
  omega

/-- A later day has a later month or is a later day of its month. -/
theorem monthIndex_lt (lt : days < days') :
    monthIndex days < monthIndex days' ∨
      monthIndex days = monthIndex days' ∧ dayOfMonth days < dayOfMonth days' := by
  obtain ⟨least, most⟩ := dayOfEra_bounds days
  obtain ⟨least', most'⟩ := dayOfEra_bounds days'
  have months := dayOfMonth_bounds days
  have months' := dayOfMonth_bounds days'
  have eras : eraOf days < eraOf days' ∨
      eraOf days = eraOf days' ∧ dayOfEra days < dayOfEra days' := by
    simp only [dayOfEra, eraOf]
    omega
  rcases eras with earlier | ⟨same, later⟩
  · have years := yearOfEra_bounds least most
    have years' := yearOfEra_bounds least' most'
    simp only [monthIndex]
    omega
  · have years := yearOfEra_mono least later most'
    simp only [monthIndex, dayOfMonth]
    rcases years.lt_or_eq with before | equal
    · omega
    · have shifted : dayOfYear (dayOfEra days) < dayOfYear (dayOfEra days') := by
        simp only [dayOfYear, equal]
        omega
      simp only [monthOfYear] at months months' ⊢
      omega

/-- What `civil` computes, with the months in one count. -/
theorem civil_spec (days : Int) :
    12 * (civil days).1 + (civil days).2.1 = monthIndex days + 3 ∧
    1 ≤ (civil days).2.1 ∧ (civil days).2.1 ≤ 12 ∧ (civil days).2.2 = dayOfMonth days := by
  have months := dayOfMonth_bounds days
  have shape : civil days =
      (yearOfEra (dayOfEra days) + eraOf days * 400 +
          (if (if monthOfYear days < 10 then monthOfYear days + 3 else monthOfYear days - 9) ≤ 2
            then 1 else 0),
        (if monthOfYear days < 10 then monthOfYear days + 3 else monthOfYear days - 9),
        dayOfMonth days) := rfl
  rw [shape]
  simp only [monthIndex]
  by_cases early : monthOfYear days < 10
  · rw [if_pos early, if_neg (by omega)]
    refine ⟨?_, ?_, ?_, trivial⟩ <;> omega
  · rw [if_neg early, if_pos (by omega)]
    refine ⟨?_, ?_, ?_, trivial⟩ <;> omega

/-- The parts of a date of the years 1 to 9999. -/
theorem civil_bounds (days : Int) (least : -719162 ≤ days) (most : days ≤ 2932896) :
    1 ≤ (civil days).1 ∧ (civil days).1 ≤ 9999 ∧ 1 ≤ (civil days).2.1 ∧ (civil days).2.1 ≤ 12 ∧
      1 ≤ (civil days).2.2 ∧ (civil days).2.2 ≤ 31 := by
  have spec := civil_spec days
  have bounds := dayOfMonth_bounds days
  have first : monthIndex (-719162) = 10 := by decide
  have final : monthIndex 2932896 = 119997 := by decide
  have after : monthIndex (-719162) ≤ monthIndex days := by
    rcases least.lt_or_eq with lt | rfl
    · exact (monthIndex_lt lt).elim le_of_lt fun ⟨same, _⟩ => same.le
    · exact le_refl _
  have before : monthIndex days ≤ monthIndex 2932896 := by
    rcases most.lt_or_eq with lt | rfl
    · exact (monthIndex_lt lt).elim le_of_lt fun ⟨same, _⟩ => same.le
    · exact le_refl _
  omega

end Dates

/-! ## Texts -/

section Texts

variable {w m n : Nat} {c : Char} {xs ys s s' : List Char}

theorem append_lt_append (same : xs.length = ys.length) :
    xs ++ s < ys ++ s' ↔ xs < ys ∨ xs = ys ∧ s < s' := by
  induction xs generalizing ys with
  | nil =>
    obtain rfl : ys = [] := List.length_eq_zero_iff.mp same.symm
    simp
  | cons x xs ih =>
    cases ys with
    | nil => simp at same
    | cons y ys =>
      have rest : xs ++ s < ys ++ s' ↔ xs < ys ∨ xs = ys ∧ s < s' := ih (by simpa using same)
      simp only [List.cons_append, List.cons_lt_cons_iff, rest, List.cons.injEq]
      tauto

theorem digits_length (w n : Nat) : (digits w n).length = w := by
  induction w generalizing n with
  | zero => rfl
  | succ w ih => simp [digits, ih]

theorem digit_lt_iff : ∀ m < 10, ∀ n < 10, Char.ofNat (48 + m) < Char.ofNat (48 + n) ↔ m < n := by
  decide

/-- Numbers of one width stand in the order of their digits. -/
theorem digits_lt_iff (m_lt : m < 10 ^ w) (n_lt : n < 10 ^ w) :
    digits w m < digits w n ↔ m < n := by
  induction w generalizing m n with
  | zero =>
    simp only [digits, lt_irrefl, false_iff, not_lt]
    omega
  | succ w ih =>
    have high := ih (m := m / 10) (n := n / 10) (by omega) (by omega)
    have high' := ih (m := n / 10) (n := m / 10) (by omega) (by omega)
    have low := digit_lt_iff (m % 10) (by omega) (n % 10) (by omega)
    have same : digits w (m / 10) = digits w (n / 10) ↔ m / 10 = n / 10 := by
      constructor
      · intro equal
        rw [equal] at high high'
        have above : ¬ m / 10 < n / 10 := fun lt => lt_irrefl _ (high.mpr lt)
        have below : ¬ n / 10 < m / 10 := fun lt => lt_irrefl _ (high'.mpr lt)
        omega
      · intro equal
        rw [equal]
    simp only [digits]
    rw [append_lt_append (by simp only [digits_length]), high, same, List.cons_lt_cons_iff, low]
    simp only [lt_irrefl, and_false, or_false]
    omega

theorem digits_eq_iff (m_lt : m < 10 ^ w) (n_lt : n < 10 ^ w) :
    digits w m = digits w n ↔ m = n := by
  constructor
  · intro same
    have above : ¬ m < n := fun lt => (digits_lt_iff m_lt n_lt).mpr lt |>.ne same
    have below : ¬ n < m := fun lt => (digits_lt_iff n_lt m_lt).mpr lt |>.ne same.symm
    omega
  · intro equal
    rw [equal]

/-- Texts that begin with a number of one width stand in the order of the numbers and, where
these are equal, in the order of what comes after. -/
theorem field_lt_iff (m_lt : m < 10 ^ w) (n_lt : n < 10 ^ w) :
    digits w m ++ c :: s < digits w n ++ c :: s' ↔ m < n ∨ m = n ∧ s < s' := by
  rw [append_lt_append (by simp only [digits_length]), digits_lt_iff m_lt n_lt,
    List.cons_lt_cons_iff]
  simp only [digits_eq_iff m_lt n_lt, lt_irrefl, false_or, true_and]

/-- The fraction of a second in a text, with the offset. -/
def fractionText (n : Nat) : List Char :=
  (if n = 0 then [] else '.' :: digits 6 n) ++ "+00:00".toList

theorem fractionText_lt_iff (m_lt : m < 10 ^ 6) (n_lt : n < 10 ^ 6) :
    fractionText m < fractionText n ↔ m < n := by
  have signs : "+00:00".toList = '+' :: "00:00".toList := by decide
  unfold fractionText
  by_cases whole : m = 0
  · by_cases whole' : n = 0
    · simp [whole, whole']
    · simp only [whole, whole', ↓reduceIte, List.nil_append, List.cons_append, signs,
        List.cons_lt_cons_iff]
      exact iff_of_true (.inl (by decide)) (by omega)
  · by_cases whole' : n = 0
    · simp only [whole, whole', ↓reduceIte, List.nil_append, List.cons_append, signs,
        List.cons_lt_cons_iff]
      refine iff_of_false ?_ (by omega)
      rintro (less | ⟨equal, -⟩)
      · exact absurd less (by decide)
      · exact absurd equal (by decide)
    · rw [if_neg whole, if_neg whole', signs]
      simp only [List.cons_append, List.cons_lt_cons_iff, field_lt_iff m_lt n_lt]
      simp

theorem toList_timestamp (t : Int) :
    (timestamp t).toList =
      digits 4 (civil (t / 86400000000)).1.toNat ++ '-' ::
        (digits 2 (civil (t / 86400000000)).2.1.toNat ++ '-' ::
          (digits 2 (civil (t / 86400000000)).2.2.toNat ++ 'T' ::
            (digits 2 (t % 86400000000 / 1000000 / 3600).toNat ++ ':' ::
              (digits 2 (t % 86400000000 / 1000000 / 60 % 60).toNat ++ ':' ::
                (digits 2 (t % 86400000000 / 1000000 % 60).toNat ++
                  fractionText (t % 86400000000 % 1000000).toNat))))) := by
  have zero : t % 86400000000 % 1000000 = 0 ↔ (t % 86400000000 % 1000000).toNat = 0 := by omega
  simp only [timestamp, isoformat, fractionText, zero, String.toList_append, String.toList_ofList,
    List.append_assoc, List.cons_append]

/-- The times of a day stand in the order of their hours, minutes, seconds and fractions. -/
theorem clock_lt_iff {x y : Int} (least : 0 ≤ x) (least' : 0 ≤ y) :
    ((x / 1000000 / 3600).toNat < (y / 1000000 / 3600).toNat ∨
      (x / 1000000 / 3600).toNat = (y / 1000000 / 3600).toNat ∧
        ((x / 1000000 / 60 % 60).toNat < (y / 1000000 / 60 % 60).toNat ∨
          (x / 1000000 / 60 % 60).toNat = (y / 1000000 / 60 % 60).toNat ∧
            ((x / 1000000 % 60).toNat < (y / 1000000 % 60).toNat ∨
              (x / 1000000 % 60).toNat = (y / 1000000 % 60).toNat ∧
                (x % 1000000).toNat < (y % 1000000).toNat))) ↔ x < y := by
  have hour (z : Int) : z / 3600 = z / 60 / 60 := by omega
  rw [hour, hour]
  omega

/-- Two times in UTC stand in the order of their texts. -/
theorem timestamp_lt_iff {a b : Int} (a_time : Representable a) (b_time : Representable b) :
    timestamp a < timestamp b ↔ a < b := by
  obtain ⟨least, most⟩ := a_time
  obtain ⟨least', most'⟩ := b_time
  have date := civil_bounds (a / 86400000000) (by omega) (by omega)
  have date' := civil_bounds (b / 86400000000) (by omega) (by omega)
  rw [String.lt_iff_toList_lt, toList_timestamp, toList_timestamp,
    field_lt_iff (by omega) (by omega), field_lt_iff (by omega) (by omega),
    field_lt_iff (by omega) (by omega), field_lt_iff (by omega) (by omega),
    field_lt_iff (by omega) (by omega), append_lt_append (by simp only [digits_length]),
    digits_lt_iff (by omega) (by omega), fractionText_lt_iff (by omega) (by omega),
    digits_eq_iff (by omega) (by omega),
    clock_lt_iff (Int.emod_nonneg _ (by decide)) (Int.emod_nonneg _ (by decide))]
  have spec := civil_spec (a / 86400000000)
  have spec' := civil_spec (b / 86400000000)
  rcases lt_trichotomy (a / 86400000000) (b / 86400000000) with earlier | same | later
  · have order := monthIndex_lt earlier
    exact iff_of_true (by omega) (by omega)
  · rw [same]
    omega
  · have order := monthIndex_lt later
    exact iff_of_false (by omega) (by omega)

theorem timestamp_le_iff {a b : Int} (a_time : Representable a) (b_time : Representable b) :
    timestamp a ≤ timestamp b ↔ a ≤ b := by
  rw [← not_lt, ← not_lt, timestamp_lt_iff b_time a_time]

theorem timestamp_inj {a b : Int} (a_time : Representable a) (b_time : Representable b)
    (same : timestamp a = timestamp b) : a = b := by
  apply le_antisymm
  · exact (timestamp_le_iff a_time b_time).mp same.le
  · exact (timestamp_le_iff b_time a_time).mp same.ge

end Texts

end Corvus.Calendar
