import Corvus.Schedules.Recurrence

/-!
# Hourly recurrences

An hourly recurrence goes on at the full hour that follows the one shown now, as the zone reads it
back. That is the start of the next hour on the clock unless the clock goes back into an hour, or
skips the full hour from before it, in the meantime.
-/

namespace Corvus.Schedules.Recurrence

/-- A local hour begins: the clock shows a full hour, or another hour than it has just shown. -/
def HourBegins (zone : Zone) (instant : Int) : Prop :=
  zone.clock instant % HOUR = 0 ∨ zone.clock instant / HOUR ≠ zone.clock (instant - 1) / HOUR

instance (zone : Zone) (instant : Int) : Decidable (HourBegins zone instant) :=
  inferInstanceAs (Decidable (_ ∨ _))

/-- The first instant after the moment at which a local hour begins. -/
structure NextHourBegins (zone : Zone) (moment target : Int) : Prop where
  later : moment < target
  begins : HourBegins zone target
  first : ∀ u, moment < u → u < target → ¬ HourBegins zone u

/-- The clock runs on from the moment to the end of the hour that it shows: it has not shown the
next full hour yet, does not skip it along with the time before it, and comes to it, or past it,
before any other hour begins; all of this within what a `datetime` can hold. -/
structure RunsOn (zone : Zone) (moment : Int) : Prop where
  fresh : ∀ u ≤ moment, zone.clock u ≠ zone.clock moment / HOUR * HOUR + HOUR
  whole : ¬ zone.Skips (zone.clock moment / HOUR * HOUR + HOUR)
  reaches : ∃ next, moment < next ∧ zone.clock moment / HOUR * HOUR + HOUR ≤ zone.clock next ∧
    (∀ u, moment < u → u < next → zone.clock moment / HOUR * HOUR < zone.clock u ∧
      zone.clock u < zone.clock moment / HOUR * HOUR + HOUR) ∧ MIN ≤ next ∧ next ≤ MAX
  shown : MIN ≤ zone.clock moment
  full : zone.clock moment / HOUR * HOUR + HOUR ≤ MAX

/-! ## Zones whose shifts lie on full hours -/

/-- Each shift takes the clock to a full hour. -/
def OnHours (zone : Zone) : Prop := ∀ shift ∈ zone.shifts, (shift.start + shift.offset) % HOUR = 0

/-! ## The next hour -/

section Hourly

variable {zones : Zones} {r : Recurrence} {zone : Zone} {moment target : Int}
  {timezone : String}

/-- Until another hour begins the clock stays inside the hour that it shows. -/
theorem same_hour (first : ∀ u, moment < u → u < target → ¬ HourBegins zone u) :
    ∀ n : Nat, moment + n < target →
      zone.clock (moment + n) / HOUR = zone.clock moment / HOUR := by
  intro n
  induction n with
  | zero => exact fun _ => congrArg (zone.clock · / HOUR) (by omega)
  | succ n ih =>
    intro before
    have here := ih (by omega)
    have stays : zone.clock (moment + (n + 1 : Nat)) / HOUR =
        zone.clock (moment + (n + 1 : Nat) - 1) / HOUR := by
      by_contra changes
      exact first _ (by omega) before (.inr changes)
    rw [stays, ← here]
    exact congrArg (zone.clock · / HOUR) (by omega)

theorem inside_hour (first : ∀ u, moment < u → u < target → ¬ HourBegins zone u) {u : Int}
    (later : moment < u) (before : u < target) : zone.clock moment / HOUR * HOUR < zone.clock u ∧
      zone.clock u < zone.clock moment / HOUR * HOUR + HOUR := by
  have same := same_hour first (u - moment).toNat (by omega)
  have its : moment + (u - moment).toNat = u := by omega
  rw [its] at same
  have off : zone.clock u % HOUR ≠ 0 := fun on => first u later before (.inl on)
  unfold HOUR at *
  omega

/-- The full hour is read back as the instant at which the clock reaches it. -/
theorem utc_nextHour (runs : RunsOn zone moment) {next : Int}
    (reached : zone.clock moment / HOUR * HOUR + HOUR ≤ zone.clock next)
    (inside : ∀ u, moment < u → u < next → zone.clock u < zone.clock moment / HOUR * HOUR + HOUR) :
    zone.utc (nextHour zone moment) = next := by
  have least : zone.utc (nextHour zone moment) ≤ next := Zone.utc_le_of_reached runs.whole reached
  refine least.antisymm (not_lt.mp fun early => ?_)
  have past : moment < zone.utc (nextHour zone moment) := (hourly_later_iff le_rfl).mpr runs.fresh
  have below := inside _ past early
  obtain shown | passed := @Zone.clock_utc zone (nextHour zone moment)
  · exact absurd shown below.ne
  · exact absurd (passed _ le_rfl) below.not_gt

theorem RunsOn.nextHourBegins (runs : RunsOn zone moment) :
    NextHourBegins zone moment (zone.utc (nextHour zone moment)) := by
  obtain ⟨next, later, reached, inside, -, -⟩ := runs.reaches
  rw [utc_nextHour runs reached fun u after before => (inside u after before).2]
  have hour : ∀ u, moment ≤ u → u < next → zone.clock u / HOUR = zone.clock moment / HOUR := by
    intro u after before
    obtain rfl | after := after.eq_or_lt
    · rfl
    · have within := inside u after before
      unfold HOUR at *
      omega
  refine ⟨later, .inr ?_, fun u after before => ?_⟩
  · have last := hour (next - 1) (by omega) (by omega)
    unfold HOUR at *
    omega
  · have within := inside u after before
    rintro (on | changes)
    · unfold HOUR at *
      omega
    · exact changes ((hour u after.le before).trans (hour (u - 1) (by omega) (by omega)).symm)

theorem NextHourBegins.runsOn
    (next : NextHourBegins zone moment (zone.utc (nextHour zone moment)))
    (shown : MIN ≤ zone.clock moment) (full : nextHour zone moment ≤ MAX)
    (least : MIN ≤ zone.utc (nextHour zone moment)) (most : zone.utc (nextHour zone moment) ≤ MAX) :
    RunsOn zone moment where
  fresh := (hourly_later_iff le_rfl).mp next.later
  whole := by
    intro skips
    have passed : nextHour zone moment < zone.clock (zone.utc (nextHour zone moment) - 1) :=
      Zone.lt_clock_of_skips skips le_rfl
    obtain same | after : zone.utc (nextHour zone moment) - 1 = moment ∨
        moment < zone.utc (nextHour zone moment) - 1 := by
      have := next.later
      omega
    · rw [same] at passed
      exact absurd clock_lt_nextHour passed.not_gt
    · exact absurd (inside_hour next.first after (by omega)).2 passed.not_gt
  reaches := by
    refine ⟨_, next.later, ?_, fun u after before => inside_hour next.first after before,
      least, most⟩
    obtain shown | passed := @Zone.clock_utc zone (nextHour zone moment)
    · exact shown.ge
    · exact (passed _ le_rfl).le
  shown := shown
  full := full

theorem ranged_ok_iff {time t : Int} :
    ranged time = .ok t ↔ MIN ≤ time ∧ time ≤ MAX ∧ t = time := by
  constructor
  · intro holds
    obtain ⟨_, inside, same⟩ := bind_eq_ok.mp holds
    obtain ⟨least, most⟩ := require_eq_ok.mp inside
    exact ⟨least, most, (Except.ok.inj same).symm⟩
  · rintro ⟨least, most, rfl⟩
    exact bind_eq_ok.mpr ⟨⟨⟩, require_of ⟨least, most⟩, rfl⟩

/-- An hourly recurrence returns the instant of the full hour, if all of it is in range. -/
theorem nextAfter_hourly_ok (hourly : r.kind = .hourly) (known : zones timezone = some zone) :
    nextAfter zones r moment timezone = .ok (some target) ↔
      target = zone.utc (nextHour zone moment) ∧ (MIN ≤ zone.clock moment ∧
        zone.clock moment ≤ MAX) ∧ (MIN ≤ nextHour zone moment ∧ nextHour zone moment ≤ MAX) ∧
        MIN ≤ target ∧ target ≤ MAX := by
  have runs : nextAfter zones r moment timezone = (do
      let _ ← ranged (zone.clock moment)
      let hour ← ranged (nextHour zone moment)
      return some (← ranged (zone.utc hour))) := by
    rw [nextAfter, known]
    show (if once : r.kind = .once then _ else if hourly : r.kind = .hourly then _ else _) = _
    rw [dif_neg (by rw [hourly]; decide), dif_pos hourly]
  rw [runs]
  constructor
  · intro found
    obtain ⟨_, now, found⟩ := bind_eq_ok.mp found
    obtain ⟨hour, next, found⟩ := bind_eq_ok.mp found
    obtain ⟨read, back, same⟩ := bind_eq_ok.mp found
    cases Option.some.inj (Except.ok.inj same)
    obtain ⟨least, most, -⟩ := ranged_ok_iff.mp now
    obtain ⟨least', most', rfl⟩ := ranged_ok_iff.mp next
    obtain ⟨least'', most'', rfl⟩ := ranged_ok_iff.mp back
    exact ⟨rfl, ⟨least, most⟩, ⟨least', most'⟩, least'', most''⟩
  · rintro ⟨rfl, ⟨least, most⟩, ⟨least', most'⟩, least'', most''⟩
    refine bind_eq_ok.mpr ⟨_, ranged_ok_iff.mpr ⟨least, most, rfl⟩, ?_⟩
    refine bind_eq_ok.mpr ⟨_, ranged_ok_iff.mpr ⟨least', most', rfl⟩, ?_⟩
    exact bind_eq_ok.mpr ⟨_, ranged_ok_iff.mpr ⟨least'', most'', rfl⟩, rfl⟩

end Hourly

/-! ## Two zones -/

theorem hourly_shaped : Shaped .hourly none [] none where
  once := fun once => absurd once (by decide)
  timed := fun _ other => absurd rfl other
  weekly := fun weekly => absurd weekly (by decide)
  days := fun _ none => absurd none List.not_mem_nil

def hourly : Recurrence := ⟨.hourly, none, [], none, hourly_shaped⟩

/-- A zone five hours behind UTC. -/
def lima : Zone := ⟨-5 * HOUR, [], trivial⟩

/-- A zone that goes back from two hours before UTC to UTC, one hour after the epoch. -/
def troll : Zone := ⟨2 * HOUR, [⟨HOUR, 0⟩], trivial⟩

end Corvus.Schedules.Recurrence
