import Corvus.Runs.Store
import Corvus.Schedules.Recurrence

/-!
# The schedule store

Schedules, their revisions and the occurrences that have been claimed, as the methods of
`ScheduleStore` find and leave them. Every method is one transaction.
-/

namespace Corvus.Schedules

open Runs (Effort Mode OutputPolicy)

/-! ## Tables -/

inductive ScheduleStatus where
  | active | paused | archived
deriving DecidableEq, Repr

inductive OccurrenceStatus where
  | claimed | started | skipped
deriving DecidableEq, Repr

structure ScheduleRow where
  id : String
  tenantId : String
  name : String
  status : ScheduleStatus
  currentRevision : Nat
  createdAt : Instant
  updatedAt : Instant

instance : Keyed ScheduleRow String := ⟨ScheduleRow.id⟩

structure RevisionRow where
  id : String
  scheduleId : String
  version : Nat
  repositoryId : String
  task : String
  recurrence : Recurrence
  timezone : String
  provider : String
  model : Option String
  effort : Effort
  mode : Mode
  safetyDigest : String
  skillVersionId : Option String
  outputPolicy : OutputPolicy
  nextRunAt : Option Instant
  createdAt : Instant

instance : Keyed RevisionRow String := ⟨RevisionRow.id⟩

structure OccurrenceRow where
  scheduleRevisionId : String
  scheduledFor : Instant
  runId : Option String
  status : OccurrenceStatus
  reasonCode : Option String
  claimedAt : Instant

instance : Keyed OccurrenceRow (String × Instant) :=
  ⟨fun o => (o.scheduleRevisionId, o.scheduledFor)⟩

/-- The tables of the store. -/
structure Book where
  schedules : Table ScheduleRow
  revisions : Table RevisionRow
  occurrences : Table OccurrenceRow

structure ScheduleCreateRequest where
  name : String
  repositoryId : String
  task : String
  recurrence : Recurrence
  timezone : String
  provider : String
  model : Option String
  effort : Effort
  mode : Mode
  safetyDigest : String
  skillVersionId : Option String
  outputPolicy : OutputPolicy

/-- The last occurrence of a revision that has been started or skipped. -/
structure LastRun where
  status : OccurrenceStatus
  reason : Option String
  scheduledFor : Instant

/-- `ScheduleRecord`: a schedule with its current revision and its last run. -/
structure ScheduleRecord where
  schedule : ScheduleRow
  revision : RevisionRow
  lastRun : Option LastRun

structure ScheduleClaim where
  schedule : ScheduleRecord
  scheduledFor : Instant

namespace Book

/-! ## `create`, `get` and `set_status` -/

/-- The current revision of a schedule. -/
def current (b : Book) (s : ScheduleRow) : Option RevisionRow :=
  b.revisions.rows.find? fun r => r.scheduleId = s.id ∧ r.version = s.currentRevision

def lastRun (b : Book) (revisionId : String) : Option LastRun :=
  let finished := b.occurrences.rows.filter fun o =>
    o.scheduleRevisionId = revisionId ∧ o.status ≠ .claimed
  (finished.mergeSort fun o o' => o'.scheduledFor ≤ o.scheduledFor).head?.map fun o =>
    ⟨o.status, o.reasonCode, o.scheduledFor⟩

/-- `ScheduleStore.get`. -/
def get (b : Book) (tenantId scheduleId : String) : Except ScheduleFault ScheduleRecord := do
  let schedule ← present ((b.schedules.get? scheduleId).filter (·.tenantId = tenantId))
    (.schedule "schedule_not_found")
  let revision ← present (b.current schedule) (.schedule "schedule_not_found")
  return ⟨schedule, revision, b.lastRun revision.id⟩

/-- `ScheduleStore.create`, with new ids. -/
def create (zones : Zones) (b : Book) (db : Runs.Db) (tenantId : String)
    (request : ScheduleCreateRequest) (skill : Bool) (scheduleId revisionId : String)
    (now : Instant) : Except ScheduleFault Book := do
  let start ← ranged (now - 1)
  let nextRunAt ← request.recurrence.nextAfter zones start request.timezone
  require ((db.repositories.get? request.repositoryId).any (·.tenantId = tenantId))
    (.schedule "repository_not_found")
  require (request.skillVersionId.isSome → skill) (.schedule "schedule_active_skill_required")
  let schedules ← present (b.schedules.insert?
    { id := scheduleId
      tenantId
      name := request.name
      status := .active
      currentRevision := 1
      createdAt := now
      updatedAt := now }) (.integrity "mvp_schedules")
  require (b.revisions.rows.all fun r => ¬ (r.scheduleId = scheduleId ∧ r.version = 1))
    (.integrity "mvp_schedule_revisions")
  let revisions ← present (b.revisions.insert?
    { id := revisionId
      scheduleId
      version := 1
      repositoryId := request.repositoryId
      task := request.task
      recurrence := request.recurrence
      timezone := request.timezone
      provider := request.provider
      model := request.model
      effort := request.effort
      mode := request.mode
      safetyDigest := request.safetyDigest
      skillVersionId := request.skillVersionId
      outputPolicy := request.outputPolicy
      nextRunAt
      createdAt := now }) (.integrity "mvp_schedule_revisions")
  return { b with schedules, revisions }

def withStatus (status : ScheduleStatus) (now : Instant) : Rewrite ScheduleRow where
  apply s := { s with status, updatedAt := now }
  keeps _ := rfl

/-- `ScheduleStore.set_status`. -/
def setStatus (b : Book) (tenantId scheduleId : String) (status : ScheduleStatus) (now : Instant) :
    Except ScheduleFault Book := do
  require ((b.schedules.get? scheduleId).any (·.tenantId = tenantId))
    (.schedule "schedule_not_found")
  return { b with schedules := b.schedules.update (·.id = scheduleId) (withStatus status now) }

/-! ## `claim_due` -/

/-- `_CLAIM_LEASE`. -/
def CLAIM_LEASE : Int := 300000000

/-- A row of the query of `claim_due`. -/
structure Due where
  tenantId : String
  scheduleId : String
  revisionId : String
  nextRunAt : Instant

/-- The revision of a schedule that is due. -/
def due? (b : Book) (db : Runs.Db) (now : Instant) (s : ScheduleRow) : Option Due := do
  let revision ← b.current s
  let nextRunAt ← revision.nextRunAt
  if s.status = .active ∧ nextRunAt ≤ now ∧
      ¬ db.runs.rows.any (fun r => r.scheduleId = some s.id ∧ r.status.active) then
    some ⟨s.tenantId, s.id, revision.id, nextRunAt⟩
  else none

/-- The rows of the query, the earliest first. -/
def dueRows (b : Book) (db : Runs.Db) (now : Instant) (limit : Nat) : List Due :=
  ((b.schedules.rows.filterMap (b.due? db now)).mergeSort
    fun d d' => d.nextRunAt ≤ d'.nextRunAt).take limit

def reclaimed (now : Instant) : Rewrite OccurrenceRow where
  apply o := { o with claimedAt := now }
  keeps _ := rfl

/-- An occurrence whose claim may be taken over. -/
def expired (now : Instant) (o : OccurrenceRow) : Bool :=
  o.runId = none ∧ o.status = .claimed ∧ o.claimedAt ≤ now - CLAIM_LEASE

/-- The occurrences with a claim of one row, unless the row is passed over. -/
def claimRow (now : Instant) (occurrences : Table OccurrenceRow) (d : Due) :
    Option (Table OccurrenceRow) :=
  match occurrences.insert? ⟨d.revisionId, d.nextRunAt, none, .claimed, none, now⟩ with
  | some occurrences => some occurrences
  | none =>
      if (occurrences.get? (d.revisionId, d.nextRunAt)).any (expired now) then
        some (occurrences.update (fun o => key o = (d.revisionId, d.nextRunAt)) (reclaimed now))
      else none

/-- The loop of `claim_due`. The record of a schedule is read beside the transaction. -/
def claimRows (b : Book) (now : Instant) : Table OccurrenceRow → List Due →
    Except ScheduleFault (Table OccurrenceRow × List ScheduleClaim)
  | occurrences, [] => return (occurrences, [])
  | occurrences, d :: rows =>
      match claimRow now occurrences d with
      | none => claimRows b now occurrences rows
      | some occurrences => do
          let schedule ← b.get d.tenantId d.scheduleId
          let rest ← claimRows b now occurrences rows
          return (rest.1, ⟨schedule, d.nextRunAt⟩ :: rest.2)

/-- `ScheduleStore.claim_due`. -/
def claimDue (b : Book) (db : Runs.Db) (now : Instant) (limit : Nat) :
    Except ScheduleFault (Book × List ScheduleClaim) := do
  let claimed ← claimRows b now b.occurrences (b.dueRows db now limit)
  return ({ b with occurrences := claimed.1 }, claimed.2)

/-! ## `attach_run` -/

def attached (runId : Option String) (status : OccurrenceStatus) (reasonCode : Option String) :
    Rewrite OccurrenceRow where
  apply o := { o with runId, status, reasonCode }
  keeps _ := rfl

def scheduled (nextRunAt : Option Instant) : Rewrite RevisionRow where
  apply r := { r with nextRunAt }
  keeps _ := rfl

/-- The occurrence of a claim, while it waits for a run. -/
def waiting (b : Book) (claim : ScheduleClaim) : Option OccurrenceRow :=
  (b.occurrences.get? (claim.schedule.revision.id, claim.scheduledFor)).filter fun o =>
    o.runId = none ∧ o.status = .claimed

/-- `ScheduleStore.attach_run`: `none` where it returns without an effect. -/
def attachRun (zones : Zones) (b : Book) (db : Runs.Db) (claim : ScheduleClaim)
    (runId : Option String) (status : OccurrenceStatus) (reasonCode : Option String) :
    Except ScheduleFault (Option Book) :=
  let reason := reasonCode.bind fun code =>
    if code = "" then none else some (String.ofList (code.toList.take 100))
  match b.waiting claim with
  | none => return none
  | some o => do
      require (runId.all fun id => (db.runs.get? id).isSome)
        (.integrity "mvp_schedule_occurrences")
      let nextRunAt ← claim.schedule.revision.recurrence.nextAfter zones o.claimedAt
        claim.schedule.revision.timezone
      return some { b with
        occurrences := b.occurrences.update (fun o =>
          key o = (claim.schedule.revision.id, claim.scheduledFor)) (attached runId status reason)
        revisions := b.revisions.update (·.id = claim.schedule.revision.id) (scheduled nextRunAt) }

end Book

end Corvus.Schedules
