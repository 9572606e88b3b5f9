import Corvus.Schedules.Occurrences

/-!
# Scheduled runs, at most one at a time

What a step of the process has to uphold, whoever interleaves with whom, and the one way in
which it does not: an hourly schedule whose zone sets the clock back over a full hour.
-/

namespace Corvus.Schedules

open Runs (Db RunRow SameRun)

namespace Scheduler

variable {zones : Zones} {notifier : Bool} {w : Scheduler} {claim : ScheduleClaim} {book : Book}
  {i : Nat} {tick : Tick} {claims : List ScheduleClaim} {o : OccurrenceRow} {s : Step}

/-- The claims that a step makes. -/
def claimed (w : Scheduler) (s : Step) : List ScheduleClaim :=
  if w.coordinator.exited then []
  else
    match s with
    | .claim now =>
        match w.book.claimDue w.coordinator.db now LIMIT with
        | .ok (_, claims) => claims
        | .error _ => []
    | _ => []

/-- The claim of an `attach_run` that takes effect, with its occurrence before. -/
def attachment (zones : Zones) (w : Scheduler) (s : Step) : Option (ScheduleClaim × OccurrenceRow) :=
  if w.coordinator.exited then none
  else
    match s with
    | .attach i =>
        match w.tick? i with
        | some (⟨_, .attaching runId status reasonCode⟩, claim, _) =>
            match w.book.waiting claim,
              w.book.attachRun zones w.coordinator.db claim runId status reasonCode with
            | some o, .ok (some _) => some (claim, o)
            | _, _ => none
        | _ => none
    | _ => none

/-- The run of an occurrence is the only one. -/
def Once (w : Scheduler) : Prop :=
  ∀ v ∈ w.book.revisions, ∀ scheduledFor, ∀ r ∈ w.coordinator.db.runs,
    ∀ q ∈ w.coordinator.db.runs,
      r.occurrence = some (v.scheduleId, occurrenceKey v.id scheduledFor) →
        q.occurrence = some (v.scheduleId, occurrenceKey v.id scheduledFor) → r = q

/-- The active run of a schedule is the only one. -/
def Alone (w : Scheduler) : Prop :=
  ∀ r ∈ w.coordinator.db.runs, ∀ q ∈ w.coordinator.db.runs, ∀ scheduleId,
    r.scheduleId = some scheduleId → q.scheduleId = some scheduleId →
      r.status.active → q.status.active → r = q

/-- The schedule goes on after the occurrence that a run has been attached to, or not at all. -/
def Advances (zones : Zones) (notifier : Bool) (w : Scheduler) (s : Step) : Prop :=
  ∀ claim o, w.attachment zones s = some (claim, o) →
    ∀ v ∈ (w.step zones notifier s).book.revisions, v.id = claim.schedule.revision.id →
      ∀ next ∈ v.nextRunAt, claim.scheduledFor < next

/-- What every step upholds. -/
structure Upholds (zones : Zones) (notifier : Bool) (w : Scheduler) (s : Step) : Prop where
  once : (w.step zones notifier s).Once
  stays : ∀ r ∈ w.coordinator.db.runs,
    ∃ r' ∈ (w.step zones notifier s).coordinator.db.runs, SameRun r r'
  alone : (w.step zones notifier s).Alone
  linked : (w.step zones notifier s).Linked
  finished : ∀ o ∈ w.book.occurrences, o.status ≠ .claimed →
    o ∈ (w.step zones notifier s).book.occurrences
  unrepeated : ∀ claim ∈ w.claimed s, ∀ o ∈ w.book.occurrences,
    key o = (claim.schedule.revision.id, claim.scheduledFor) → o.status = .claimed
  advances : Advances zones notifier w s

/-- When a run is attached to an hourly schedule, the clock of the zone has not shown the
full hour that follows the claim by the time of the occurrence. -/
def Steady (zones : Zones) (w : Scheduler) (s : Step) : Prop :=
  ∀ claim o, w.attachment zones s = some (claim, o) →
    claim.schedule.revision.recurrence.kind = .hourly →
      ∀ zone, zones claim.schedule.revision.timezone = some zone →
        ∀ instant ≤ claim.scheduledFor,
          zone.clock instant ≠ Recurrence.nextHour zone o.claimedAt

/-! ## What always holds -/

theorem Consistent.once (h : Consistent w) : w.Once := by
  intro v _ scheduledFor r mem q mem' own own'
  refine Table.eq_of_key mem mem' (h.distinct r mem q mem' ?_ (own.trans own'.symm))
  rw [own]
  rfl

theorem Consistent.alone (h : Consistent w) : w.Alone := by
  intro r mem q mem' scheduleId own own' active active'
  refine Table.eq_of_key mem mem' (h.sound.exclusive r mem q mem' ?_ (own.trans own'.symm)
    active active')
  rw [own]
  rfl

@[simp] theorem goOn_coordinator (phase : Option TickPhase) :
    (w.goOn i tick phase).coordinator = w.coordinator := by
  cases phase <;> rfl

@[simp] theorem goOn_book (phase : Option TickPhase) : (w.goOn i tick phase).book = w.book := by
  cases phase <;> rfl

theorem attach_coordinator {runId : Option String} {status : OccurrenceStatus}
    {reasonCode : Option String} :
    (w.attach zones i claim claims runId status reasonCode).coordinator = w.coordinator := by
  unfold attach
  split <;> rfl

/-- Every step writes the runs by the methods of the run store. -/
theorem step_leads (s : Step) :
    w.coordinator.db.Leads (w.step zones notifier s).coordinator.db := by
  unfold step
  split
  · split
    · exact .refl _
    · exact .refl _
  cases s with
  | create | setStatus | claim =>
    dsimp only
    split <;> exact .refl _
  | runNow tenantId scheduleId manual runId p now =>
    dsimp only
    split
    · split
      · exact .refl _
      · exact w.coordinator.start_leads _ none p
    · exact .refl _
  | start i runId p port now =>
    dsimp only
    split
    · rename_i claims claim _ _
      rw [startClaim]
      dsimp only
      rw [goOn_coordinator]
      exact w.coordinator.start_leads _ none p
    · exact .refl _
  | launch i answer port now =>
    dsimp only
    split
    · rename_i claims runId claim _ _
      rw [launch]
      dsimp only
      rw [goOn_coordinator]
      exact Runs.Coordinator.launch_leads { w.coordinator with
        starting := w.coordinator.starting.erase ⟨claim.tenantId, runId⟩ } _ answer
    · exact .refl _
  | recover i =>
    dsimp only
    split
    · rw [recover, goOn_coordinator]
      exact .refl _
    · exact .refl _
  | attach i =>
    dsimp only
    split
    · rw [attach_coordinator]
      exact .refl _
    · exact .refl _
  | abandon | crash => exact .refl _
  | run a => exact w.coordinator.step_leads notifier a
  | move => exact w.coordinator.transition_leads

/-- `attach_run` leaves an occurrence alone that has been finished. -/
theorem attached_finished {runId : Option String} {status : OccurrenceStatus}
    {reasonCode : Option String} (attached : w.book.attachRun zones w.coordinator.db claim runId
      status reasonCode = .ok (some book)) (mem : o ∈ w.book.occurrences)
    (finished : o.status ≠ .claimed) : o ∈ book.occurrences := by
  obtain ⟨o', next, reason, waits, _, rfl⟩ := Book.attachRun_eq_some attached
  obtain ⟨mem', own, _, claimed⟩ := Book.waiting_eq_some.mp waits
  refine Table.mem_update.mpr ⟨o, mem, if_neg fun same => ?_⟩
  obtain rfl : o = o' := Table.eq_of_key mem mem' ((of_decide_eq_true same).trans own.symm)
  exact finished claimed

/-- An occurrence that has been finished stays as it is. -/
theorem finished_stays (s : Step) (mem : o ∈ w.book.occurrences) (finished : o.status ≠ .claimed) :
    o ∈ (w.step zones notifier s).book.occurrences := by
  unfold step
  split
  · split <;> exact mem
  cases s with
  | create tenantId asked skill scheduleId revisionId now =>
    dsimp only
    split
    · obtain ⟨_, _, same⟩ := Book.create_eq_ok ‹_›
      exact same ▸ mem
    · exact mem
  | setStatus tenantId scheduleId status now =>
    dsimp only
    split
    · rename_i set
      obtain ⟨_, _, set⟩ := bind_eq_ok.mp set
      obtain rfl := Except.ok.inj set
      exact mem
    · exact mem
  | runNow tenantId scheduleId manual runId p now =>
    dsimp only
    split
    · split <;> exact mem
    · exact mem
  | claim now =>
    dsimp only
    split
    · obtain ⟨_, _, evolves, _⟩ := Book.claimDue_eq_ok ‹_›
      obtain ⟨o', mem', rfl | ⟨waits, _⟩⟩ := evolves.forth o mem
      · exact mem'
      · exact absurd waits finished
    · exact mem
  | start | launch | recover =>
    dsimp only
    split
    · exact (goOn_book (w := { w with coordinator := _ }) _).symm ▸ mem
    · exact mem
  | attach i =>
    dsimp only
    split
    · unfold attach
      split
      · exact mem
      · exact mem
      · exact attached_finished ‹_› mem finished
    · exact mem
  | abandon | crash | run | move => exact mem

theorem unfinished_of_claimed (mem : claim ∈ w.claimed s) :
    Book.Unfinished w.book.occurrences claim := by
  unfold claimed at mem
  split at mem
  · exact absurd mem List.not_mem_nil
  split at mem
  · split at mem
    · rename_i made
      exact ((Book.claimDue_eq_ok made).2.2.2 claim mem).2
    · exact absurd mem List.not_mem_nil
  · exact absurd mem List.not_mem_nil

/-! ## When the schedule goes on -/

/-- What an `attach_run` that takes effect has found and written. -/
theorem Consistent.attachment (h : Consistent w) (notifier : Bool)
    (effect : w.attachment zones s = some (claim, o)) :
    claim.scheduledFor ≤ o.claimedAt ∧ w.book.Claims claim ∧
      ∃ next, claim.schedule.revision.recurrence.nextAfter zones o.claimedAt
          claim.schedule.revision.timezone = .ok next ∧
        (w.step zones notifier s).book.revisions = w.book.revisions.update
          (·.id = claim.schedule.revision.id) (Book.scheduled next) := by
  unfold Scheduler.attachment at effect
  split at effect
  · nomatch effect
  rename_i alive
  split at effect
  · rename_i i
    split at effect
    · rename_i runId status reasonCode first claims found
      split at effect
      · rename_i o' book waits attached
        obtain ⟨rfl, rfl⟩ := Prod.mk.inj (Option.some.inj effect)
        obtain ⟨mem, same⟩ := tick?_eq_some found
        obtain ⟨o'', next, reason, waits', later, written⟩ := Book.attachRun_eq_some attached
        obtain rfl := Option.some.inj (waits.symm.trans waits')
        obtain ⟨listed, own, _⟩ := Book.waiting_eq_some.mp waits
        have early := h.early _ listed
        refine ⟨(Prod.mk.inj own).2 ▸ early, h.claims _ mem _ ?_, next, later, ?_⟩
        · rw [same]
          exact List.mem_cons_self
        · unfold Scheduler.step
          rw [if_neg alive]
          dsimp only
          rw [found]
          dsimp only [Scheduler.attach]
          rw [attached, written]
      · nomatch effect
    · nomatch effect
  · nomatch effect

theorem Consistent.advances_iff (h : Consistent w) (s : Step) :
    Advances zones notifier w s ↔ Steady zones w s := by
  constructor
  · intro advances claim o effect hourly zone zoned
    obtain ⟨late, ⟨v, mem, id, _⟩, next, found, written⟩ := h.attachment notifier effect
    obtain ⟨zone', zoned', rfl⟩ := Recurrence.nextAfter_hourly hourly found
    obtain rfl := Option.some.inj (zoned.symm.trans zoned')
    refine (Recurrence.hourly_later_iff late).mp ?_
    refine advances claim o effect
      (Book.scheduled (some (zone.utc (Recurrence.nextHour zone o.claimedAt))) v) ?_ id _ rfl
    rw [written]
    refine Table.mem_update.mpr ⟨v, mem, ?_⟩
    rw [if_pos (decide_eq_true id)]
  · intro steady claim o effect v mem id next planned
    obtain ⟨late, _, next', found, written⟩ := h.attachment notifier effect
    rw [written] at mem
    obtain ⟨before, _, rfl⟩ := Table.mem_update.mp mem
    have own : before.id = claim.schedule.revision.id := by
      rw [← id]
      split <;> rfl
    rw [if_pos (decide_eq_true own)] at planned
    obtain rfl : next' = some next := planned
    by_cases hourly : claim.schedule.revision.recurrence.kind = .hourly
    · obtain ⟨zone, zoned, same⟩ := Recurrence.nextAfter_hourly hourly found
      rw [Option.some.inj same]
      exact (Recurrence.hourly_later_iff late).mpr (steady claim o effect hourly zone zoned)
    · have later := Recurrence.nextAfter_later hourly found next rfl
      exact Int.lt_of_le_of_lt late later

theorem Consistent.upholds_iff (h : Consistent w) (s : Step) :
    Upholds zones notifier w s ↔ Steady zones w s := by
  have after : Consistent (w.step zones notifier s) := h.step s
  constructor
  · intro upholds
    exact (h.advances_iff s).mp upholds.advances
  · intro steady
    exact ⟨after.once, fun r mem => (step_leads s).keeps mem, after.alone, after.linked,
      fun o mem finished => finished_stays s mem finished, fun claim mem => unfinished_of_claimed mem,
      (h.advances_iff s).mpr steady⟩

end Scheduler

open Scheduler

/-- Along every interleaving of ticks, calls of `run_now` and `set_status` and crashes, the
scheduled occurrences run at most once and never overlap, and the schedules move on, just if
no hourly schedule is taken back over a full hour by its clock. -/
theorem occurrences_once_iff (zones : Zones) (notifier : Bool)
    (repositories : Table Runs.RepositoryRow) (steps : List Step) :
    Run.Along (Scheduler.step zones notifier) (Upholds zones notifier) (empty repositories) steps ↔
      Run.Along (Scheduler.step zones notifier) (Steady zones) (empty repositories) steps :=
  Run.along_iff (I := Consistent) (consistent_empty repositories) (fun _ s h _ => h.step s)
    fun _ s h => h.upholds_iff s

namespace Sample

/-- A zone whose clock goes back from three to one o'clock. -/
def zone : Zone := ⟨7200000000, [⟨1824944400000000, 0⟩], by decide⟩

def zones : Zones := fun timezone => if timezone = "Antarctica/Troll" then some zone else none

def hourly : Recurrence where
  kind := .hourly
  localTime := none
  weekdays := []
  onceAt := none
  shaped := ⟨nofun, fun _ other => absurd rfl other, nofun, nofun⟩

def schedule : ScheduleCreateRequest where
  name := "hourly"
  repositoryId := "repository"
  task := "task"
  recurrence := hourly
  timezone := "Antarctica/Troll"
  provider := "codex"
  model := none
  effort := .high
  mode := .build
  safetyDigest := ""
  skillVersionId := none
  outputPolicy := .prepareChanges

/-- A schedule is created ten minutes after the clock went back, and claimed and run. -/
def steps : List Step :=
  [.create "tenant" schedule true "schedule" "revision" 1824945000000000, .claim 1824945060000000,
    .start 0 "run" Runs.Sample.preparation none 1824945060000000,
    .launch 0 (.returned "handle") none 1824945061000000]

def before : Scheduler :=
  Run.exec (Scheduler.step zones false) (empty Runs.Sample.repositories) steps

end Sample

/-- The hourly schedule stays at the occurrence that has just been run. -/
theorem hourly_schedule_stuck :
    ¬ ∀ (zones : Zones) (notifier : Bool) (repositories : Table Runs.RepositoryRow)
      (steps : List Step), Run.Along (Scheduler.step zones notifier) (Upholds zones notifier)
        (empty repositories) steps := by
  intro upheld
  have whole := upheld Sample.zones false Runs.Sample.repositories (Sample.steps ++ [.attach 0])
  have last : Upholds Sample.zones false Sample.before (.attach 0) := whole.at
  have effect : (Sample.before.attachment Sample.zones (.attach 0)).map (fun p =>
      (p.1.scheduledFor, p.1.schedule.revision.id)) = some (1824940800000000, "revision") := by
    decide +kernel
  have stuck : (Sample.before.step Sample.zones false (.attach 0)).book.revisions.rows.map
      (fun v => (v.id, v.nextRunAt)) = [("revision", some 1824940800000000)] := by
    decide +kernel
  obtain ⟨⟨claim, o⟩, found, same⟩ := Option.map_eq_some_iff.mp effect
  obtain ⟨time, id⟩ := Prod.mk.inj same
  have listed := List.mem_singleton_self ("revision", some (1824940800000000 : Instant))
  rw [← stuck] at listed
  obtain ⟨v, mem, own⟩ := List.mem_map.mp listed
  obtain ⟨own, planned⟩ := Prod.mk.inj own
  have later := last.advances claim o found v mem (own.trans id.symm) _ planned
  rw [time] at later
  exact absurd later (by decide)

end Corvus.Schedules
