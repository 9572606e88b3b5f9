import Corvus.Library.Calendar
import Corvus.Library.Except
import Corvus.Library.Zone

/-!
# Recurrences

`Recurrence.next_after`. Every kind but the hourly one looks for an instant after the given
one; the hourly one takes the full hour that follows on the clock of the zone.
-/

namespace Corvus.Schedules

/-- What the methods raise: a `ScheduleError`, or `OverflowError` for a time that no
`datetime` can have. -/
inductive ScheduleFault where
  | schedule (code : String)
  | overflow
  | integrity (table : String)
deriving DecidableEq, Repr

def HOUR : Int := 3600000000

def DAY : Int := 86400000000

/-- `datetime.min` and `datetime.max`. -/
def MIN : Int := -62135596800000000

def MAX : Int := 253402300799999999

/-- A time as a `datetime`. -/
def ranged (time : Int) : Except ScheduleFault Int := do
  require (MIN ≤ time ∧ time ≤ MAX) .overflow
  return time

inductive RecurrenceKind where
  | once | hourly | daily | weekdays | weekly
deriving DecidableEq, Repr

/-- A `time`: the microseconds of the day, and whether it has an offset of its own. -/
structure LocalTime where
  micros : Int
  zoned : Bool

/-- The requirements of `validate_shape`. -/
structure Shaped (kind : RecurrenceKind) (localTime : Option LocalTime) (weekdays : List Int)
    (onceAt : Option Instant) : Prop where
  once : kind = .once → onceAt.isSome
  timed : kind ≠ .once → kind ≠ .hourly → localTime.isSome
  weekly : kind = .weekly → weekdays ≠ []
  days : ∀ day ∈ weekdays, 0 ≤ day ∧ day ≤ 6

structure Recurrence where
  kind : RecurrenceKind
  localTime : Option LocalTime
  weekdays : List Int
  onceAt : Option Instant
  shaped : Shaped kind localTime weekdays onceAt

/-- The time zones that `ZoneInfo` finds. -/
abbrev Zones := String → Option Zone

/-! ## `_resolve_local` -/

/-- Whether a local time comes back from UTC as it is. -/
def survives (zone : Zone) (zoned : Bool) (time : Int) : Except ScheduleFault Bool := do
  let instant ← ranged (zone.utc time)
  let again ← ranged (zone.clock instant)
  return again = time ∧ ¬ zoned

/-- The first of some minutes after a local time that comes back from UTC. -/
def adjust (zone : Zone) (zoned : Bool) (naive : Int) : List Nat → Except ScheduleFault Int
  | [] => throw (.schedule "schedule_dst_resolution_failed")
  | offset :: offsets => do
      let adjusted ← ranged (naive + offset * 60000000)
      if ← survives zone zoned adjusted then return adjusted else adjust zone zoned naive offsets

def resolveLocal (zone : Zone) (zoned : Bool) (naive : Int) : Except ScheduleFault Int :=
  adjust zone zoned naive (List.range 181)

/-! ## `next_after` -/

/-- `date.weekday()`, of the days since 1970. -/
def weekday (date : Int) : Int := (date + 3) % 7

namespace Recurrence

/-- The weekdays on which the schedule runs. -/
def allowed (r : Recurrence) : List Int :=
  if r.kind = .weekdays then [0, 1, 2, 3, 4]
  else if r.kind = .weekly then r.weekdays
  else [0, 1, 2, 3, 4, 5, 6]

/-- The first of some days after `today` with an occurrence after `instant`. -/
def search (zone : Zone) (allowed : List Int) (time : LocalTime) (instant : Instant) (today : Int) :
    List Nat → Except ScheduleFault Instant
  | [] => throw (.schedule "schedule_next_occurrence_unavailable")
  | offset :: offsets => do
      let midnight ← ranged ((today + offset) * DAY)
      if weekday (today + offset) ∉ allowed then
        search zone allowed time instant today offsets
      else
        let resolved ← resolveLocal zone time.zoned (midnight + time.micros)
        let target ← ranged (zone.utc resolved)
        if instant < target then return target
        else search zone allowed time instant today offsets

/-- The full hour that follows on the clock of a zone. -/
def nextHour (zone : Zone) (instant : Instant) : Int :=
  zone.clock instant / HOUR * HOUR + HOUR

/-- `next_after`. -/
def nextAfter (zones : Zones) (r : Recurrence) (instant : Instant) (timezone : String) :
    Except ScheduleFault (Option Instant) := do
  let zone ← present (zones timezone) (.schedule "schedule_timezone_invalid")
  if once : r.kind = .once then
    let target := r.onceAt.get (r.shaped.once once)
    return if instant < target then some target else none
  else if hourly : r.kind = .hourly then
    let _ ← ranged (zone.clock instant)
    let target ← ranged (nextHour zone instant)
    return some (← ranged (zone.utc target))
  else
    let time := r.localTime.get (r.shaped.timed once hourly)
    let localNow ← ranged (zone.clock instant)
    return some (← search zone r.allowed time instant (localNow / DAY) (List.range 15))

variable {zones : Zones} {r : Recurrence} {zone : Zone} {instant target : Instant}
  {timezone : String} {next : Option Instant}

theorem search_later {allowed : List Int} {time : LocalTime} {today : Int} {offsets : List Nat}
    (found : search zone allowed time instant today offsets = .ok target) : instant < target := by
  induction offsets with
  | nil => nomatch found
  | cons offset offsets ih =>
    rw [search] at found
    obtain ⟨midnight, _, found⟩ := bind_eq_ok.mp found
    split at found
    · exact ih found
    obtain ⟨resolved, _, found⟩ := bind_eq_ok.mp found
    obtain ⟨candidate, _, found⟩ := bind_eq_ok.mp found
    split at found
    · rename_i later
      obtain rfl := Except.ok.inj found
      exact later
    · exact ih found

theorem ranged_eq_ok {time t : Int} (h : ranged time = .ok t) : t = time := by
  obtain ⟨_, _, h⟩ := bind_eq_ok.mp h
  exact (Except.ok.inj h).symm

/-- A recurrence that is not hourly goes on after the instant or not at all. -/
theorem nextAfter_later (other : r.kind ≠ .hourly)
    (found : nextAfter zones r instant timezone = .ok next) : ∀ t ∈ next, instant < t := by
  obtain ⟨zone, _, found⟩ := bind_eq_ok.mp found
  intro t mem
  split at found
  · obtain rfl := Except.ok.inj found
    split at mem
    · obtain rfl := Option.some.inj mem
      assumption
    · nomatch mem
  · dsimp only at found
    obtain ⟨localNow, _, found⟩ := bind_eq_ok.mp found
    obtain ⟨target, searched, found⟩ := bind_eq_ok.mp found
    obtain rfl := Except.ok.inj found
    obtain rfl := Option.some.inj mem
    exact search_later searched

/-- An hourly recurrence goes on at the next full hour of the clock, as it is read back. -/
theorem nextAfter_hourly (hourly : r.kind = .hourly)
    (found : nextAfter zones r instant timezone = .ok next) :
    ∃ zone, zones timezone = some zone ∧ next = some (zone.utc (nextHour zone instant)) := by
  obtain ⟨zone, zoned, found⟩ := bind_eq_ok.mp found
  refine ⟨zone, present_eq_ok.mp zoned, ?_⟩
  rw [dif_neg (by rw [hourly]; decide), dif_pos hourly] at found
  obtain ⟨_, _, found⟩ := bind_eq_ok.mp found
  obtain ⟨target, full, found⟩ := bind_eq_ok.mp found
  obtain ⟨read, back, found⟩ := bind_eq_ok.mp found
  obtain rfl := Except.ok.inj found
  rw [ranged_eq_ok back, ranged_eq_ok full]

theorem clock_lt_nextHour : zone.clock instant < nextHour zone instant := by
  unfold nextHour HOUR
  omega

/-- An hourly recurrence goes on after an earlier instant just if the clock has not shown the
next full hour by then. -/
theorem hourly_later_iff {earlier : Instant} (le : earlier ≤ instant) :
    earlier < zone.utc (nextHour zone instant) ↔
      ∀ u ≤ earlier, zone.clock u ≠ nextHour zone instant := by
  rw [← not_le, Zone.utc_le_iff clock_lt_nextHour le]
  simp only [not_exists, not_and]

end Recurrence

end Corvus.Schedules
