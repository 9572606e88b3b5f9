import Corvus.Schedules.Hourly
import Mathlib.Data.Nat.Find

/-!
# Daily, weekday and weekly recurrences

A calendar recurrence looks for its next date from the one that the zone shows at the moment. The
time that it finds is the earliest one to come unless a date before that one, put off over midnight
by a gap, is still to come.
-/

namespace Corvus.Schedules.Recurrence

def MINUTE : Int := 60000000

/-- The local time of a date, put off by some minutes. -/
def onDate (micros date : Int) (minutes : Nat) : Int := date * DAY + micros + minutes * MINUTE

/-- The clock never shows the local time. -/
def Missing (zone : Zone) (time : Int) : Prop := ∀ u, zone.clock u ≠ time

/-- The target is what the local time of the date comes to: the instant at which the clock first
shows that time or, where it is missing, the first of the minutes after it that is not. -/
def Resolves (zone : Zone) (micros date target : Int) : Prop :=
  ∃ minutes : Nat, zone.First (onDate micros date minutes) target ∧
    ∀ k < minutes, Missing zone (onDate micros date k)

/-- The target is the earliest instant after the moment to which the local time of an allowed date
comes. -/
structure NextDate (zone : Zone) (allowed : List Int) (micros moment target : Int) : Prop where
  later : moment < target
  dated : ∃ date, weekday date ∈ allowed ∧ Resolves zone micros date target
  least : ∀ date other, weekday date ∈ allowed → Resolves zone micros date other →
    moment < other → target ≤ other

/-- No gap is longer than three hours: from every local time on, one of the next 180 minutes is
shown. -/
def NarrowGaps (zone : Zone) : Prop :=
  ∀ time, ∃ minutes : Nat, minutes ≤ 180 ∧ ∃ u, zone.clock u = time + minutes * MINUTE

/-- No offset is as long as a day. -/
def ShortOffsets (zone : Zone) : Prop := ∀ u, u - DAY < zone.clock u ∧ zone.clock u < u + DAY

/-- The shifts skip three hours at most, each, and lie a minute apart on the clock. -/
def Spaced : Int → List Shift → Prop
  | _, [] => True
  | before, a :: shifts => a.offset - before ≤ 180 * MINUTE ∧
      (∀ b ∈ shifts.head?,
        a.start + max before a.offset + MINUTE ≤ b.start + min a.offset b.offset) ∧
      Spaced a.offset shifts

/-! ## Resolution -/

section Resolution

variable {zone : Zone} {micros date date' target target' moment : Int} {minutes n i : Nat}
  {time x : Int}

theorem onDate_lt (narrow : minutes ≤ 180) :
    onDate micros date minutes < onDate micros (date + 1) 0 := by
  unfold onDate MINUTE DAY
  omega

/-- There is a first minute that the clock shows, among the next 180. -/
theorem exists_first (narrow : NarrowGaps zone) (time : Int) :
    ∃ minutes : Nat, minutes ≤ 180 ∧ zone.First (time + minutes * MINUTE)
      (zone.utc (time + minutes * MINUTE)) ∧ ∀ k < minutes, Missing zone (time + k * MINUTE) := by
  classical
  have some_ : ∃ minutes : Nat, ∃ u, zone.clock u = time + minutes * MINUTE := by
    obtain ⟨minutes, -, shown⟩ := narrow time
    exact ⟨minutes, shown⟩
  obtain ⟨bound, within, reached⟩ := narrow time
  obtain ⟨u, shown⟩ := Nat.find_spec some_
  refine ⟨Nat.find some_, (Nat.find_min' some_ reached).trans within, Zone.first_utc shown, ?_⟩
  intro k before v again
  exact Nat.find_min some_ before ⟨v, again⟩

theorem exists_resolves (narrow : NarrowGaps zone) (micros date : Int) :
    ∃ target, Resolves zone micros date target := by
  obtain ⟨minutes, -, first, missing⟩ := exists_first narrow (date * DAY + micros)
  exact ⟨_, minutes, first, missing⟩

/-- A date is put off by three hours at most. -/
theorem Resolves.minutes_le (narrow : NarrowGaps zone)
    (missing : ∀ k < minutes, Missing zone (onDate micros date k)) : minutes ≤ 180 := by
  obtain ⟨bound, within, u, shown⟩ := narrow (date * DAY + micros)
  by_contra more
  exact missing bound (by omega) u shown

theorem Resolves.clock (narrow : NarrowGaps zone) (resolves : Resolves zone micros date target) :
    onDate micros date 0 ≤ zone.clock target ∧
      zone.clock target < onDate micros (date + 1) 0 := by
  obtain ⟨minutes, first, missing⟩ := resolves
  have within := Resolves.minutes_le narrow missing
  rw [first.shows]
  refine ⟨?_, onDate_lt within⟩
  unfold onDate MINUTE
  omega

/-- Later dates come later. -/
theorem Resolves.lt (narrow : NarrowGaps zone) (resolves : Resolves zone micros date target)
    (resolves' : Resolves zone micros date' target') (before : date < date') :
    target < target' := by
  obtain ⟨-, end_⟩ := resolves.clock narrow
  obtain ⟨start, -⟩ := resolves'.clock narrow
  obtain ⟨minutes, first, -⟩ := resolves
  obtain ⟨minutes', first', -⟩ := resolves'
  rw [first.shows] at end_
  rw [first'.shows] at start
  refine first.lt first' (end_.trans_le (le_trans ?_ start))
  unfold onDate DAY
  omega

theorem Resolves.unique (narrow : NarrowGaps zone) (resolves : Resolves zone micros date target)
    (resolves' : Resolves zone micros date' target) : date = date' := by
  obtain before | same | after := lt_trichotomy date date'
  · exact absurd (resolves.lt narrow resolves' before) (lt_irrefl _)
  · exact same
  · exact absurd (resolves'.lt narrow resolves after) (lt_irrefl _)

theorem Resolves.eq (resolves : Resolves zone micros date target)
    (resolves' : Resolves zone micros date target') : target = target' := by
  obtain ⟨minutes, first, missing⟩ := resolves
  obtain ⟨minutes', first', missing'⟩ := resolves'
  obtain before | rfl | after := lt_trichotomy minutes minutes'
  · exact absurd first.shows (missing' _ before target)
  · exact first.utc_eq.symm.trans first'.utc_eq
  · exact absurd first'.shows (missing _ after target')

/-- A date that lies well past the one of the moment comes after it. -/
theorem Resolves.later (short : ShortOffsets zone) (narrow : NarrowGaps zone)
    (starts : 0 ≤ micros) (resolves : Resolves zone micros date target)
    (past : zone.clock moment / DAY + 3 ≤ date) : moment < target := by
  obtain ⟨start, -⟩ := resolves.clock narrow
  have now := short moment
  have then_ := short target
  unfold onDate MINUTE at start
  unfold DAY at *
  omega

/-! ## What the code computes -/

/-- A local time, its instant and what the clock shows then can be represented. -/
structure Represented (zone : Zone) (time : Int) : Prop where
  itself : MIN ≤ time ∧ time ≤ MAX
  instant : MIN ≤ zone.utc time ∧ zone.utc time ≤ MAX
  again : MIN ≤ zone.clock (zone.utc time) ∧ zone.clock (zone.utc time) ≤ MAX

theorem survives_eq_ok {b : Bool} : survives zone false time = .ok b ↔
    (MIN ≤ zone.utc time ∧ zone.utc time ≤ MAX) ∧
      (MIN ≤ zone.clock (zone.utc time) ∧ zone.clock (zone.utc time) ≤ MAX) ∧
        (b = true ↔ zone.clock (zone.utc time) = time) := by
  constructor
  · intro ends
    obtain ⟨instant, read, ends⟩ := bind_eq_ok.mp ends
    obtain ⟨least, most, rfl⟩ := ranged_ok_iff.mp read
    obtain ⟨again, shown, ends⟩ := bind_eq_ok.mp ends
    obtain ⟨least', most', rfl⟩ := ranged_ok_iff.mp shown
    obtain rfl := Except.ok.inj ends
    exact ⟨⟨least, most⟩, ⟨least', most'⟩, by simp⟩
  · rintro ⟨⟨least, most⟩, ⟨least', most'⟩, same⟩
    refine bind_eq_ok.mpr ⟨_, ranged_ok_iff.mpr ⟨least, most, rfl⟩, ?_⟩
    refine bind_eq_ok.mpr ⟨_, ranged_ok_iff.mpr ⟨least', most', rfl⟩, ?_⟩
    refine congrArg Except.ok (Bool.eq_iff_iff.mpr ?_)
    rw [same]
    simp

theorem missing_iff : Missing zone time ↔ zone.clock (zone.utc time) ≠ time := by
  constructor
  · exact fun missing => missing _
  · intro differs u shown
    exact differs (Zone.first_utc shown).shows

/-- The minutes are tried one after the other, up to one that the clock shows. -/
theorem adjust_eq_ok : adjust zone false time (List.range' i n) = .ok x ↔
    ∃ k, i ≤ k ∧ k < i + n ∧ x = time + k * MINUTE ∧ ¬ Missing zone x ∧
      (∀ j, i ≤ j → j < k → Missing zone (time + j * MINUTE)) ∧
        ∀ j, i ≤ j → j ≤ k → Represented zone (time + j * MINUTE) := by
  induction n generalizing i with
  | zero =>
    constructor
    · intro ends
      cases ends
    · rintro ⟨k, least, most, -⟩
      omega
  | succ n ih =>
    rw [List.range'_succ]
    constructor
    · intro ends
      obtain ⟨adjusted, here, ends⟩ := bind_eq_ok.mp ends
      obtain ⟨least, most, rfl⟩ := ranged_ok_iff.mp here
      obtain ⟨b, tried, ends⟩ := bind_eq_ok.mp ends
      obtain ⟨instant, again, same⟩ := survives_eq_ok.mp tried
      have first : Represented zone (time + i * MINUTE) := ⟨⟨least, most⟩, instant, again⟩
      by_cases back : b = true
      · rw [if_pos back] at ends
        obtain rfl := Except.ok.inj ends
        refine ⟨i, le_rfl, by omega, rfl, fun missing => missing_iff.mp missing (same.mp back),
          fun j from_ to_ => absurd to_ (not_lt.mpr from_), fun j from_ to_ => ?_⟩
        obtain rfl : j = i := by omega
        exact first
      · rw [if_neg back] at ends
        obtain ⟨k, from_, to_, rfl, shown, missing, represented⟩ := ih.mp ends
        refine ⟨k, by omega, by omega, rfl, shown, fun j least' before => ?_,
          fun j least' upto => ?_⟩
        · obtain rfl | later := least'.eq_or_lt
          · exact missing_iff.mpr fun shows => back (same.mpr shows)
          · exact missing j later before
        · obtain rfl | later := least'.eq_or_lt
          · exact first
          · exact represented j later upto
    · rintro ⟨k, from_, to_, rfl, shown, missing, represented⟩
      have first := represented i le_rfl from_
      refine bind_eq_ok.mpr ⟨_, ranged_ok_iff.mpr ⟨first.itself.1, first.itself.2, rfl⟩, ?_⟩
      obtain rfl | later := from_.eq_or_lt
      · refine bind_eq_ok.mpr ⟨true, survives_eq_ok.mpr ⟨first.instant, first.again, ?_⟩, rfl⟩
        exact ⟨fun _ => not_not.mp fun differs => shown (missing_iff.mpr differs), fun _ => rfl⟩
      · refine bind_eq_ok.mpr ⟨false, survives_eq_ok.mpr ⟨first.instant, first.again, ?_⟩, ?_⟩
        · have differs := missing_iff.mp (missing i le_rfl later)
          exact ⟨fun yes => absurd yes Bool.false_ne_true, fun shows => absurd shows differs⟩
        · rw [if_neg Bool.false_ne_true]
          exact ih.mpr ⟨k, later, by omega, rfl, shown,
            fun j least before => missing j (by omega) before,
            fun j least upto => represented j (by omega) upto⟩

/-- Every local time that is tried on the date can be represented, and so can its midnight. -/
structure Tried (zone : Zone) (allowed : List Int) (micros date : Int) : Prop where
  midnight : MIN ≤ date * DAY ∧ date * DAY ≤ MAX
  minutes : weekday date ∈ allowed → ∀ k : Nat, (∀ j < k, Missing zone (onDate micros date j)) →
    Represented zone (onDate micros date k)

theorem resolveLocal_ok (ends : resolveLocal zone false (date * DAY + micros) = .ok x) :
    Resolves zone micros date (zone.utc x) ∧
      ∀ k : Nat, (∀ j < k, Missing zone (onDate micros date j)) →
        Represented zone (onDate micros date k) := by
  rw [resolveLocal, List.range_eq_range'] at ends
  obtain ⟨k, -, -, rfl, shown, missing, represented⟩ := adjust_eq_ok.mp ends
  obtain ⟨u, shows⟩ := not_forall_not.mp shown
  refine ⟨⟨k, Zone.first_utc shows, fun j before => missing j (Nat.zero_le j) before⟩, ?_⟩
  intro k' missing'
  refine represented k' (Nat.zero_le k') (not_lt.mp fun past => ?_)
  exact shown (missing' k past)

theorem exists_resolveLocal (narrow : NarrowGaps zone) (resolves : Resolves zone micros date target)
    (represented : ∀ k : Nat, (∀ j < k, Missing zone (onDate micros date j)) →
      Represented zone (onDate micros date k)) :
    ∃ x, resolveLocal zone false (date * DAY + micros) = .ok x ∧
      ranged (zone.utc x) = .ok target := by
  obtain ⟨k, first, missing⟩ := resolves
  have within := Resolves.minutes_le narrow missing
  have fits := represented k missing
  refine ⟨onDate micros date k, ?_, ?_⟩
  · rw [resolveLocal, List.range_eq_range']
    refine adjust_eq_ok.mpr ⟨k, Nat.zero_le k, by omega, rfl, fun missing => ?_,
      fun j _ before => missing j before, fun j _ upto => ?_⟩
    · exact missing target first.shows
    · exact represented j fun j' before => missing j' (before.trans_le upto)
  · exact ranged_ok_iff.mpr ⟨fits.instant.1, fits.instant.2, first.utc_eq.symm⟩

/-- The search returns the first allowed date, out of those it goes through, that comes after the
moment. -/
theorem search_eq_ok (narrow : NarrowGaps zone) {allowed : List Int} {today : Int} :
    search zone allowed ⟨micros, false⟩ moment today (List.range' i n) = .ok target ↔
      ∃ date, today + i ≤ date ∧ date < today + i + n ∧ weekday date ∈ allowed ∧
        Resolves zone micros date target ∧ moment < target ∧
        (∀ d t, today + i ≤ d → d < date → weekday d ∈ allowed → Resolves zone micros d t →
          t ≤ moment) ∧
        ∀ d, today + i ≤ d → d ≤ date → Tried zone allowed micros d := by
  induction n generalizing i with
  | zero =>
    constructor
    · intro ends
      cases ends
    · rintro ⟨date, least, most, -⟩
      omega
  | succ n ih =>
    rw [List.range'_succ]
    -- What the rest of the search finds, it finds beyond the date at hand.
    have beyond : Tried zone allowed micros (today + i) →
        (∀ t, weekday (today + i) ∈ allowed → Resolves zone micros (today + i) t → t ≤ moment) →
        search zone allowed ⟨micros, false⟩ moment today (List.range' (i + 1) n) = .ok target →
        ∃ date, today + i ≤ date ∧ date < today + i + (n + 1 : Nat) ∧ weekday date ∈ allowed ∧
          Resolves zone micros date target ∧ moment < target ∧
          (∀ d t, today + i ≤ d → d < date → weekday d ∈ allowed → Resolves zone micros d t →
            t ≤ moment) ∧
          ∀ d, today + i ≤ d → d ≤ date → Tried zone allowed micros d := by
      intro tried passed ends
      obtain ⟨date, least, most, day, resolves, later, earlier, all⟩ := ih.mp ends
      refine ⟨date, by omega, by omega, day, resolves, later, fun d t from_ before => ?_,
        fun d from_ upto => ?_⟩
      · obtain rfl | after := from_.eq_or_lt
        · exact passed t
        · exact earlier d t (by omega) before
      · obtain rfl | after := from_.eq_or_lt
        · exact tried
        · exact all d (by omega) upto
    constructor
    · intro ends
      obtain ⟨midnight, here, ends⟩ := bind_eq_ok.mp ends
      obtain ⟨least, most, rfl⟩ := ranged_ok_iff.mp here
      by_cases away : weekday (today + i) ∉ allowed
      · rw [if_pos away] at ends
        exact beyond ⟨⟨least, most⟩, fun day => absurd day away⟩ (fun t day => absurd day away) ends
      · rw [if_neg away] at ends
        obtain ⟨x, resolved, ends⟩ := bind_eq_ok.mp ends
        obtain ⟨candidate, read, ends⟩ := bind_eq_ok.mp ends
        obtain ⟨-, -, rfl⟩ := ranged_ok_iff.mp read
        obtain ⟨resolves, represented⟩ := resolveLocal_ok resolved
        have tried : Tried zone allowed micros (today + i) :=
          ⟨⟨least, most⟩, fun _ => represented⟩
        by_cases later : moment < zone.utc x
        · rw [if_pos later] at ends
          obtain rfl := Except.ok.inj ends
          refine ⟨today + i, le_rfl, by omega, not_not.mp away, resolves, later,
            fun d t from_ before => absurd before (not_lt.mpr from_), fun d from_ upto => ?_⟩
          obtain rfl : d = today + i := by omega
          exact tried
        · rw [if_neg later] at ends
          refine beyond tried (fun t _ again => ?_) ends
          rw [again.eq resolves]
          exact not_lt.mp later
    · rintro ⟨date, least, most, day, resolves, later, earlier, all⟩
      have tried := all (today + i) le_rfl least
      refine bind_eq_ok.mpr ⟨_, ranged_ok_iff.mpr ⟨tried.midnight.1, tried.midnight.2, rfl⟩, ?_⟩
      have rest : today + i < date →
          search zone allowed ⟨micros, false⟩ moment today (List.range' (i + 1) n) = .ok target :=
        fun after => ih.mpr ⟨date, by omega, by omega, day, resolves, later,
          fun d t from_ => earlier d t (by omega), fun d from_ => all d (by omega)⟩
      by_cases away : weekday (today + i) ∉ allowed
      · rw [if_pos away]
        refine rest (lt_of_le_of_ne least fun same => away ?_)
        rwa [same]
      · rw [if_neg away]
        obtain ⟨own, comes⟩ := exists_resolves narrow micros (today + i)
        obtain ⟨x, resolved, read⟩ :=
          exists_resolveLocal narrow comes (tried.minutes (not_not.mp away))
        refine bind_eq_ok.mpr ⟨x, resolved, bind_eq_ok.mpr ⟨own, read, ?_⟩⟩
        obtain rfl | after := least.eq_or_lt
        · cases comes.eq resolves
          rw [if_pos later]
          rfl
        · have past := earlier (today + i) own le_rfl after (not_not.mp away) comes
          rw [if_neg (not_lt.mpr past)]
          exact rest after

end Resolution

/-! ## The next date -/

/-- No allowed date before the one shown at the moment is still to come. -/
def NoneLeftBehind (zone : Zone) (allowed : List Int) (micros moment : Int) : Prop :=
  ∀ date t, date < zone.clock moment / DAY → weekday date ∈ allowed →
    Resolves zone micros date t → t ≤ moment

/-- What the clock shows at the moment, and every local time from that date on up to the first that
is still to come, can be represented. -/
structure Representable (zone : Zone) (allowed : List Int) (micros moment : Int) : Prop where
  now : MIN ≤ zone.clock moment ∧ zone.clock moment ≤ MAX
  dates : ∀ date, zone.clock moment / DAY ≤ date →
    (∀ d t, zone.clock moment / DAY ≤ d → d < date → weekday d ∈ allowed →
      Resolves zone micros d t → t ≤ moment) → Tried zone allowed micros date

section Next

variable {zones : Zones} {r : Recurrence} {zone : Zone} {timezone : String}
  {micros moment target : Int} {allowed targets : List Int}

theorem exists_allowed (r : Recurrence) : ∃ day ∈ r.allowed, 0 ≤ day ∧ day ≤ 6 := by
  unfold allowed
  split
  · exact ⟨0, by simp, by omega, by omega⟩
  split
  · next weekly =>
    obtain ⟨day, mem⟩ := List.exists_mem_of_ne_nil _ (r.shaped.weekly weekly)
    exact ⟨day, mem, r.shaped.days day mem⟩
  · exact ⟨0, by simp, by omega, by omega⟩

/-- Every week has an allowed date. -/
theorem exists_date (r : Recurrence) (first : Int) :
    ∃ date, first ≤ date ∧ date < first + 7 ∧ weekday date ∈ r.allowed := by
  obtain ⟨day, mem, least, most⟩ := exists_allowed r
  refine ⟨first + (day - weekday first) % 7, by omega, by omega, ?_⟩
  have its : weekday (first + (day - weekday first) % 7) = day := by
    unfold weekday
    omega
  rwa [its]

/-- Some date within two weeks is the first of the allowed ones that come after the moment. -/
theorem exists_next_date (short : ShortOffsets zone) (narrow : NarrowGaps zone)
    (starts : 0 ≤ micros) (r : Recurrence) (moment : Int) :
    ∃ date target, zone.clock moment / DAY ≤ date ∧ date < zone.clock moment / DAY + 15 ∧
      weekday date ∈ r.allowed ∧ Resolves zone micros date target ∧ moment < target ∧
      ∀ d t, zone.clock moment / DAY ≤ d → d < date → weekday d ∈ r.allowed →
        Resolves zone micros d t → t ≤ moment := by
  classical
  have some_ : ∃ n : Nat, weekday (zone.clock moment / DAY + n) ∈ r.allowed ∧
      ∃ t, Resolves zone micros (zone.clock moment / DAY + n) t ∧ moment < t := by
    obtain ⟨date, least, -, day⟩ := exists_date r (zone.clock moment / DAY + 3)
    obtain ⟨t, resolves⟩ := exists_resolves narrow micros date
    have its : zone.clock moment / DAY + (date - zone.clock moment / DAY).toNat = date := by omega
    refine ⟨(date - zone.clock moment / DAY).toNat, ?_⟩
    rw [its]
    exact ⟨day, t, resolves, resolves.later short narrow starts least⟩
  have near : Nat.find some_ < 15 := by
    obtain ⟨date, least, most, day⟩ := exists_date r (zone.clock moment / DAY + 3)
    obtain ⟨t, resolves⟩ := exists_resolves narrow micros date
    have its : zone.clock moment / DAY + (date - zone.clock moment / DAY).toNat = date := by omega
    have found : Nat.find some_ ≤ (date - zone.clock moment / DAY).toNat := by
      apply Nat.find_min'
      rw [its]
      exact ⟨day, t, resolves, resolves.later short narrow starts least⟩
    omega
  obtain ⟨day, t, resolves, later⟩ := Nat.find_spec some_
  refine ⟨_, t, by omega, by omega, day, resolves, later, fun d t' from_ before day' again => ?_⟩
  by_contra next
  have its : zone.clock moment / DAY + (d - zone.clock moment / DAY).toNat = d := by omega
  refine Nat.find_min some_ (m := (d - zone.clock moment / DAY).toNat) (by omega) ?_
  rw [its]
  exact ⟨day', t', again, not_le.mp next⟩

/-- A calendar recurrence searches fifteen days from the one shown at the moment. -/
theorem nextAfter_calendar (known : zones timezone = some zone)
    (calendar : r.kind ≠ .once ∧ r.kind ≠ .hourly) (naive : r.localTime = some ⟨micros, false⟩) :
    nextAfter zones r moment timezone = .ok (some target) ↔
      (MIN ≤ zone.clock moment ∧ zone.clock moment ≤ MAX) ∧
        search zone r.allowed ⟨micros, false⟩ moment (zone.clock moment / DAY)
          (List.range' 0 15) = .ok target := by
  have runs : nextAfter zones r moment timezone = (do
      let localNow ← ranged (zone.clock moment)
      return some (← search zone r.allowed ⟨micros, false⟩ moment (localNow / DAY)
        (List.range 15))) := by
    rw [nextAfter, known]
    show (if once : r.kind = .once then _ else if hourly : r.kind = .hourly then _ else _) = _
    rw [dif_neg calendar.1, dif_neg calendar.2]
    simp only [naive, Option.get_some]
  rw [runs, List.range_eq_range']
  constructor
  · intro found
    obtain ⟨localNow, now, found⟩ := bind_eq_ok.mp found
    obtain ⟨least, most, rfl⟩ := ranged_ok_iff.mp now
    obtain ⟨t, searched, same⟩ := bind_eq_ok.mp found
    cases Option.some.inj (Except.ok.inj same)
    exact ⟨⟨least, most⟩, searched⟩
  · rintro ⟨⟨least, most⟩, searched⟩
    refine bind_eq_ok.mpr ⟨_, ranged_ok_iff.mpr ⟨least, most, rfl⟩, ?_⟩
    exact bind_eq_ok.mpr ⟨_, searched, rfl⟩

/-- The next date is found just if no date is left behind and all that is tried fits. -/
theorem nextAfter_next_iff (known : zones timezone = some zone)
    (calendar : r.kind ≠ .once ∧ r.kind ≠ .hourly) (naive : r.localTime = some ⟨micros, false⟩)
    (starts : 0 ≤ micros) (short : ShortOffsets zone) (narrow : NarrowGaps zone) :
    (∃ target, nextAfter zones r moment timezone = .ok (some target) ∧
      NextDate zone r.allowed micros moment target) ↔
    NoneLeftBehind zone r.allowed micros moment ∧ Representable zone r.allowed micros moment := by
  constructor
  · rintro ⟨target, found, next⟩
    obtain ⟨now, found⟩ := (nextAfter_calendar known calendar naive).mp found
    obtain ⟨date, from_, -, day, resolves, later, -, tried⟩ := (search_eq_ok narrow).mp found
    refine ⟨fun d t before day' again => ?_, now, fun d from' earlier => tried d (by omega) ?_⟩
    · by_contra coming
      have least := next.least d t day' again (not_le.mp coming)
      have sooner := again.lt narrow resolves (by omega)
      omega
    · by_contra past
      have passed := earlier date target (by omega) (not_le.mp past) day resolves
      exact absurd passed (not_le.mpr later)
  · rintro ⟨none_left, now, dates⟩
    obtain ⟨date, target, from_, within, day, resolves, later, earlier⟩ :=
      exists_next_date short narrow starts r moment
    refine ⟨target, (nextAfter_calendar known calendar naive).mpr ⟨now, ?_⟩, later,
      ⟨date, day, resolves⟩, fun d t day' again coming => ?_⟩
    · refine (search_eq_ok narrow).mpr ⟨date, by omega, by omega, day, resolves, later,
        fun d t from' => earlier d t (by omega), fun d from' upto => ?_⟩
      refine dates d (by omega) fun d' t from'' before => ?_
      exact earlier d' t from'' (before.trans_le upto)
    · by_contra sooner
      have before : d < date := by
        by_contra after
        obtain rfl | after := (not_lt.mp after).eq_or_lt
        · exact sooner (resolves.eq again).le
        · exact sooner (resolves.lt narrow again after).le
      obtain past | present := lt_or_ge d (zone.clock moment / DAY)
      · exact absurd (none_left d t past day' again) (not_le.mpr coming)
      · exact absurd (earlier d t present before day' again) (not_le.mpr coming)

/-! ## One date after the other -/

/-- The targets are what the calls return, each of them for the target before it, and each call
meets the condition. -/
def Iterates (zones : Zones) (r : Recurrence) (zone : Zone) (timezone : String) (micros : Int) :
    Int → List Int → Prop
  | _, [] => True
  | moment, target :: targets =>
      NoneLeftBehind zone r.allowed micros moment ∧ Representable zone r.allowed micros moment ∧
        nextAfter zones r moment timezone = .ok (some target) ∧
        Iterates zones r zone timezone micros target targets

/-- The targets are those of the allowed dates that come after the start, up to the last of them:
in their order, and each for one date. -/
structure VisitsEach (zone : Zone) (allowed : List Int) (micros start : Int) (targets : List Int) :
    Prop where
  each : ∀ date t, weekday date ∈ allowed → Resolves zone micros date t → start < t →
    (∃ last ∈ targets, t ≤ last) → t ∈ targets
  sorted : (start :: targets).Pairwise (· < ·)
  once : ∀ t ∈ targets, ∃ date, (weekday date ∈ allowed ∧ Resolves zone micros date t) ∧
    ∀ date', weekday date' ∈ allowed ∧ Resolves zone micros date' t → date' = date

theorem VisitsEach.cons (narrow : NarrowGaps zone)
    (next : NextDate zone allowed micros moment target)
    (rest : VisitsEach zone allowed micros target targets) :
    VisitsEach zone allowed micros moment (target :: targets) := by
  constructor
  · rintro date t day resolves coming ⟨last, mem, upto⟩
    have least := next.least date t day resolves coming
    obtain rfl | after := least.eq_or_lt
    · exact List.mem_cons_self
    · refine List.mem_cons_of_mem _ (rest.each date t day resolves after ⟨last, ?_, upto⟩)
      obtain rfl | inside := List.mem_cons.mp mem
      · exact absurd after (not_lt.mpr upto)
      · exact inside
  · refine List.pairwise_cons.mpr ⟨fun t mem => ?_, rest.sorted⟩
    obtain rfl | inside := List.mem_cons.mp mem
    · exact next.later
    · exact next.later.trans ((List.pairwise_cons.mp rest.sorted).1 t inside)
  · intro t mem
    obtain rfl | inside := List.mem_cons.mp mem
    · obtain ⟨date, day, resolves⟩ := next.dated
      exact ⟨date, ⟨day, resolves⟩, fun date' other => other.2.unique narrow resolves⟩
    · exact rest.once t inside

end Next

/-! ## Two zones -/

theorem daily_shaped (micros : Int) : Shaped .daily (some ⟨micros, false⟩) [] none where
  once := fun once => absurd once (by decide)
  timed := fun _ _ => rfl
  weekly := fun weekly => absurd weekly (by decide)
  days := fun _ none => absurd none List.not_mem_nil

/-- Every day at a local time. -/
def daily (micros : Int) : Recurrence :=
  ⟨.daily, some ⟨micros, false⟩, [], none, daily_shaped micros⟩

theorem lima_short : ShortOffsets lima := by
  intro u
  have clock : lima.clock u = u + -5 * HOUR := rfl
  rw [clock]
  unfold HOUR DAY
  omega

theorem lima_narrow : NarrowGaps lima := by
  intro time
  refine ⟨0, by omega, time + 5 * HOUR, ?_⟩
  have clock : lima.clock (time + 5 * HOUR) = time + 5 * HOUR + -5 * HOUR := rfl
  rw [clock]
  unfold HOUR MINUTE
  omega

theorem lima_resolves {micros date target : Int} :
    Resolves lima micros date target ↔ target = date * DAY + micros + 5 * HOUR := by
  have clock : ∀ u, lima.clock u = u + -5 * HOUR := fun _ => rfl
  constructor
  · rintro ⟨minutes, first, missing⟩
    have prompt : minutes = 0 := by
      by_contra put_off
      refine missing 0 (Nat.pos_of_ne_zero put_off) (onDate micros date 0 + 5 * HOUR) ?_
      rw [clock]
      omega
    subst prompt
    have shows := first.shows
    rw [clock] at shows
    unfold onDate at shows
    omega
  · rintro rfl
    refine ⟨0, ⟨?_, fun u before => ?_⟩, fun k none => absurd none (Nat.not_lt_zero k)⟩
    · rw [clock]
      unfold onDate
      omega
    · rw [clock]
      unfold onDate
      omega

/-- A zone that goes forward from two hours behind UTC to one, one hour after the epoch: its clock
skips the last hour of a date. -/
def nuuk : Zone := ⟨-2 * HOUR, [⟨HOUR, -1 * HOUR⟩], trivial⟩

theorem nuuk_clock (u : Int) :
    nuuk.clock u = u + if u < HOUR then -2 * HOUR else -1 * HOUR := rfl

/-- A quarter of an hour and half a minute into the hour that is skipped. -/
def skippedTime : Int := 23 * HOUR + 15 * MINUTE + 30000000

end Corvus.Schedules.Recurrence
