import Mathlib.Data.Int.Order.Basic
import Mathlib.Order.MinMax

/-!
# Time zones

A zone is an offset from UTC and the shifts after which others hold. Its clock is read at an
instant; a local time is read back as Python does it with `fold=0`: as the first of the
instants at which the clock shows it, or with the offset before the shift that skips it.
-/

namespace Corvus

/-- From an instant on, another offset holds. -/
structure Shift where
  start : Int
  offset : Int

namespace Zone

/-- The local times that a shift repeats or skips end before those of the next one begin. -/
def Apart : Int → List Shift → Prop
  | before, a :: b :: shifts =>
      a.start + max before a.offset ≤ b.start + min a.offset b.offset ∧
        Apart a.offset (b :: shifts)
  | _, _ => True

instance : (before : Int) → (shifts : List Shift) → Decidable (Apart before shifts)
  | _, [] => .isTrue trivial
  | _, [_] => .isTrue trivial
  | _, a :: b :: shifts =>
      have := instDecidableApart a.offset (b :: shifts)
      inferInstanceAs (Decidable (_ ∧ _))

/-- The offset at an instant. -/
def offsetAt : Int → List Shift → Int → Int
  | before, [], _ => before
  | before, a :: shifts, instant =>
      if instant < a.start then before else offsetAt a.offset shifts instant

/-- A shift skips the local time along with the one before it. -/
def Inside : Int → List Shift → Int → Prop
  | _, [], _ => False
  | before, a :: shifts, time =>
      (a.start + before < time ∧ time < a.start + a.offset) ∨ Inside a.offset shifts time

instance decidableInside : (before : Int) → (shifts : List Shift) → (time : Int) →
    Decidable (Inside before shifts time)
  | _, [], _ => .isFalse id
  | before, a :: shifts, time =>
      @instDecidableOr (a.start + before < time ∧ time < a.start + a.offset)
        (Inside a.offset shifts time) _ (decidableInside a.offset shifts time)

/-- The offset with which a local time is read. -/
def offsetOf : Int → List Shift → Int → Int
  | before, [], _ => before
  | before, a :: shifts, time =>
      if time < a.start + max before a.offset then before else offsetOf a.offset shifts time

end Zone

structure Zone where
  before : Int
  shifts : List Shift
  apart : Zone.Apart before shifts

namespace Zone

/-- What the clock shows at an instant. -/
def clock (z : Zone) (instant : Int) : Int := instant + offsetAt z.before z.shifts instant

/-- The instant of a local time. -/
def utc (z : Zone) (time : Int) : Int := time - offsetOf z.before z.shifts time

section Shifts

variable {before least instant time : Int} {a : Shift} {shifts : List Shift}

/-- The clock does not go back below a time that it has passed before the next shift. -/
theorem le_clock (apart : Apart before shifts) (passed : least ≤ instant + before)
    (next : ∀ b ∈ shifts.head?, least ≤ b.start + min before b.offset) :
    least ≤ instant + offsetAt before shifts instant := by
  induction shifts generalizing before with
  | nil => exact passed
  | cons a shifts ih =>
    have first := next a rfl
    rw [offsetAt]
    split
    · exact passed
    · refine ih ?_ (by omega) fun b head => ?_
      · cases shifts with
        | nil => trivial
        | cons b shifts => exact apart.2
      · cases shifts with
        | nil => nomatch head
        | cons c shifts =>
          obtain rfl : c = b := Option.some.inj head
          have step := apart.1
          omega

theorem Apart.tail (apart : Apart before (a :: shifts)) : Apart a.offset shifts := by
  cases shifts with
  | nil => trivial
  | cons b shifts => exact apart.2

theorem Apart.head (apart : Apart before (a :: shifts)) :
    ∀ b ∈ shifts.head?, a.start + max before a.offset ≤ b.start + min a.offset b.offset := by
  intro b head
  cases shifts with
  | nil => nomatch head
  | cons c shifts =>
    obtain rfl : c = b := Option.some.inj head
    exact apart.1

/-- Before the first shift the first offset holds. -/
theorem offsetAt_of_lt (apart : Apart before (a :: shifts)) (early : instant < a.start) :
    offsetAt a.offset shifts instant = a.offset := by
  cases shifts with
  | nil => rfl
  | cons b shifts =>
    have step := apart.1
    rw [offsetAt, if_pos (by omega)]

/-- After a shift that skips them, the clock shows none of the skipped times. -/
theorem lt_clock_of_skipped (apart : Apart before (a :: shifts)) (late : a.start ≤ instant)
    (skipped : time < a.start + max before a.offset) (forward : before ≤ a.offset) :
    time < instant + offsetAt a.offset shifts instant := by
  have passed : a.start + a.offset ≤ instant + offsetAt a.offset shifts instant := by
    refine le_clock apart.tail (by omega) fun b head => ?_
    have step := apart.head b head
    omega
  omega

/-- A local time is read as an instant no later than those at which the clock shows it. -/
theorem read_le (apart : Apart before shifts)
    (shown : instant + offsetAt before shifts instant = time) :
    time - offsetOf before shifts time ≤ instant := by
  induction shifts generalizing before with
  | nil =>
    rw [offsetAt] at shown
    rw [offsetOf]
    omega
  | cons a shifts ih =>
    rw [offsetAt] at shown
    rw [offsetOf]
    split
    · rename_i early
      split at shown
      · omega
      · rename_i late
        by_contra earlier
        have passed : time < instant + offsetAt a.offset shifts instant :=
          lt_clock_of_skipped apart (by omega) early (by omega)
        omega
    · rename_i late
      split at shown
      · omega
      · exact ih apart.tail shown

/-- The clock shows a local time at the instant as which it is read, or it has passed it there
for good. -/
theorem read_cases (apart : Apart before shifts) :
    (time - offsetOf before shifts time) +
        offsetAt before shifts (time - offsetOf before shifts time) = time ∨
      ∀ instant, time - offsetOf before shifts time ≤ instant →
        time < instant + offsetAt before shifts instant := by
  induction shifts generalizing before with
  | nil =>
    left
    rw [offsetOf, offsetAt]
    omega
  | cons a shifts ih =>
    rw [offsetOf]
    split
    · rename_i early
      by_cases shown : time - before < a.start
      · left
        rw [offsetAt, if_pos shown]
        omega
      · right
        intro instant later
        rw [offsetAt, if_neg (by omega)]
        exact lt_clock_of_skipped apart (by omega) early (by omega)
    · rename_i late
      obtain shown | passed := ih apart.tail
      · left
        rw [offsetAt, if_neg, shown]
        intro early
        rw [offsetAt_of_lt apart early] at shown
        omega
      · right
        intro instant later
        have after := passed instant later
        rw [offsetAt, if_neg]
        · exact after
        · intro early
          rw [offsetAt_of_lt apart early] at after
          omega

/-- What later shifts skip lies past what the shift repeats or skips. -/
theorem le_of_inside (apart : Apart before (a :: shifts)) (inside : Inside a.offset shifts time) :
    a.start + max before a.offset ≤ time := by
  induction shifts generalizing before a with
  | nil => exact inside.elim
  | cons b shifts ih =>
    have step := apart.1
    obtain ⟨after, -⟩ | inside := inside
    · omega
    · have later := ih apart.tail inside
      omega

/-- Where the clock skips a time along with the one before it, it has passed that time by the
instant before the one as which the time is read. -/
theorem lt_clock_of_inside (apart : Apart before shifts) (inside : Inside before shifts time)
    (late : time - offsetOf before shifts time - 1 ≤ instant) :
    time < instant + offsetAt before shifts instant := by
  induction shifts generalizing before with
  | nil => exact inside.elim
  | cons a shifts ih =>
    obtain ⟨after, skipped⟩ | inside := inside
    · rw [offsetOf, if_pos (by omega)] at late
      rw [offsetAt, if_neg (by omega)]
      exact lt_clock_of_skipped apart (by omega) (by omega) (by omega)
    · have past := le_of_inside apart inside
      rw [offsetOf, if_neg (by omega)] at late
      have passed := ih apart.tail inside late
      rw [offsetAt, if_neg]
      · exact passed
      · intro early
        rw [offsetAt_of_lt apart early] at passed
        omega

/-- A time that the clock has reached is read as an instant by then, unless it is skipped along
with the one before it. -/
theorem read_le_of_reached (apart : Apart before shifts) (outside : ¬ Inside before shifts time)
    (reached : time ≤ instant + offsetAt before shifts instant) :
    time - offsetOf before shifts time ≤ instant := by
  induction shifts generalizing before with
  | nil =>
    rw [offsetAt] at reached
    rw [offsetOf]
    omega
  | cons a shifts ih =>
    rw [offsetAt] at reached
    rw [offsetOf]
    split at reached
    · split
      · omega
      · omega
    · split
      · by_contra later
        exact outside (.inl ⟨by omega, by omega⟩)
      · exact ih apart.tail (fun inside => outside (.inr inside)) reached

end Shifts

variable {z : Zone} {instant time limit : Int}

/-- A shift of the zone skips the local time along with the one before it. -/
abbrev Skips (z : Zone) (time : Int) : Prop := Inside z.before z.shifts time

theorem lt_clock_of_skips (skips : z.Skips time) (late : z.utc time - 1 ≤ instant) :
    time < z.clock instant :=
  lt_clock_of_inside z.apart skips late

theorem utc_le_of_reached (outside : ¬ z.Skips time) (reached : time ≤ z.clock instant) :
    z.utc time ≤ instant :=
  read_le_of_reached z.apart outside reached

theorem utc_le (shown : z.clock instant = time) : z.utc time ≤ instant :=
  read_le z.apart shown

theorem clock_utc : z.clock (z.utc time) = time ∨
    ∀ instant, z.utc time ≤ instant → time < z.clock instant :=
  read_cases z.apart

/-- A time that the clock has not passed yet is read as an instant up to a limit just if the
clock has shown it by then. -/
theorem utc_le_iff (future : z.clock instant < time) (before : limit ≤ instant) :
    z.utc time ≤ limit ↔ ∃ earlier ≤ limit, z.clock earlier = time := by
  constructor
  · intro read
    obtain shown | passed := @clock_utc z time
    · exact ⟨_, read, shown⟩
    · have := passed instant (read.trans before)
      omega
  · rintro ⟨earlier, le, shown⟩
    exact (utc_le shown).trans le

/-- The clock shows the local time, for the first time. -/
structure First (z : Zone) (time instant : Int) : Prop where
  shows : z.clock instant = time
  first : ∀ u < instant, z.clock u ≠ time

theorem first_utc (shown : z.clock instant = time) : z.First time (z.utc time) := by
  constructor
  · obtain shows | passed := @clock_utc z time
    · exact shows
    · exact absurd shown (passed instant (utc_le shown)).ne'
  · intro u before again
    exact absurd (utc_le again) (not_le.mpr before)

theorem First.utc_eq (f : z.First time instant) : z.utc time = instant := by
  refine (utc_le f.shows).antisymm (not_lt.mp fun before => ?_)
  exact f.first _ before (first_utc f.shows).shows

theorem not_skips_of_shown (shown : z.clock instant = time) : ¬ z.Skips time := by
  intro skips
  have late : z.utc time - 1 ≤ instant := by
    have := utc_le shown
    omega
  exact absurd shown (lt_clock_of_skips skips late).ne'

/-- Local times are shown for the first time in their order. -/
theorem First.lt {time' instant' : Int} (f : z.First time instant) (f' : z.First time' instant')
    (less : time < time') : instant < instant' := by
  by_contra later
  have reached : z.utc time ≤ instant' := by
    refine utc_le_of_reached (not_skips_of_shown f.shows) ?_
    rw [f'.shows]
    exact less.le
  rw [f.utc_eq] at reached
  have same : instant = instant' := by omega
  have shows := f'.shows
  rw [← same, f.shows] at shows
  omega

end Zone

end Corvus
