import Corvus.Runs.Writes
import Corvus.Schedules.Store

/-!
# The local scheduler

The tasks of `tick` in one process, cut where `claim_due`, the creation of a run, the answer
of the backend, the search for the run of an occurrence and `attach_run` end, so that other
tasks can come in between. A tick that raises is gone, with the claims it still has.
-/

namespace Corvus.Schedules

open Runs (Answer Coordinator CoordinatorError Db Preparation Reply RunRow RunStatus
  StartRunRequest Starting)

/-! ## Claims and their runs -/

/-- `_occurrence_key`. -/
def occurrenceKey (revisionId : String) (scheduledFor : Instant) : String :=
  revisionId ++ ":" ++ Calendar.isoformat scheduledFor ++ "+00:00"

/-- `_request`. -/
def request (s : ScheduleRecord) (occurrenceKey : Option String) : StartRunRequest where
  repositoryId := s.revision.repositoryId
  task := s.revision.task
  provider := "codex"
  model := s.revision.model
  effort := s.revision.effort
  mode := s.revision.mode
  safetyDigest := s.revision.safetyDigest
  skillVersionId := s.revision.skillVersionId
  scheduleId := if occurrenceKey.isSome then some s.schedule.id else none
  occurrenceKey := occurrenceKey
  outputPolicy := s.revision.outputPolicy

namespace ScheduleClaim

def key (claim : ScheduleClaim) : String :=
  occurrenceKey claim.schedule.revision.id claim.scheduledFor

def tenantId (claim : ScheduleClaim) : String := claim.schedule.schedule.tenantId

/-- `RunStore.for_occurrence` for a claim. -/
def run? (claim : ScheduleClaim) (db : Db) : Option RunRow :=
  db.runs.rows.find? fun r => r.tenantId = claim.tenantId ∧
    r.scheduleId = some claim.schedule.schedule.id ∧ r.occurrenceKey = some claim.key

end ScheduleClaim

/-! ## Ticks -/

/-- Where a tick is with the first of its claims. -/
inductive TickPhase where
  | starting
  /-- In `start`, awaiting the backend. -/
  | launching (runId : String)
  /-- An occurrence exists, whose run is looked for. -/
  | recovering
  | attaching (runId : Option String) (status : OccurrenceStatus) (reasonCode : Option String)

structure Tick where
  claims : List ScheduleClaim
  phase : TickPhase

structure Scheduler where
  coordinator : Coordinator
  book : Book
  ticks : List Tick

namespace Scheduler

/-- The handlers of `tick`: where it goes on after an exception of `_start_claim`, if it
catches it. An exception of a port may be one of those that it catches, with its text. -/
def caught (port : Option String) : CoordinatorError → Option TickPhase
  | .store (.conflict code) =>
      if code = "run_occurrence_exists" then some .recovering
      else some (.attaching none .skipped (some code))
  | .conflict code | .store (.notFound code) => some (.attaching none .skipped (some code))
  | .store (.integrity _) => none
  | .port => port.map fun code => .attaching none .skipped (some code)

/-- A tick goes on in another phase, or is gone. -/
def goOn (w : Scheduler) (i : Nat) (tick : Tick) : Option TickPhase → Scheduler
  | some phase => { w with ticks := w.ticks.set i { tick with phase } }
  | none => { w with ticks := w.ticks.eraseIdx i }

/-- Where a tick goes on once `start` awaits the backend or has ended. -/
def answered (runId : String) (port : Option String) : Reply → Option TickPhase
  | .awaits => some (.launching runId)
  | .returns run => some (.attaching (some run.id) .started none)
  | .raises e => caught port e

/-- `_start_claim`, up to the await of the backend. -/
def startClaim (w : Scheduler) (i : Nat) (tick : Tick) (claim : ScheduleClaim) (runId : String)
    (p : Preparation) (port : Option String) (now : Instant) : Scheduler :=
  let (reply, coordinator) := w.coordinator.start claim.tenantId
    (request claim.schedule (some claim.key)) none runId p now
  { w with coordinator }.goOn i tick (answered runId port reply)

/-- `_start_claim`, from the answer of the backend on. -/
def launch (w : Scheduler) (i : Nat) (tick : Tick) (claim : ScheduleClaim) (runId : String)
    (answer : Answer String) (port : Option String) (now : Instant) : Scheduler :=
  let s : Starting := ⟨claim.tenantId, runId⟩
  let (reply, coordinator) :=
    { w.coordinator with starting := w.coordinator.starting.erase s }.launch s answer now
  { w with coordinator }.goOn i tick (answered runId port reply)

/-- The search for the run of an occurrence that exists. -/
def recover (w : Scheduler) (i : Nat) (tick : Tick) (claim : ScheduleClaim) : Scheduler :=
  w.goOn i tick <| some <|
    match claim.run? w.coordinator.db with
    | some run => .attaching (some run.id) .started none
    | none => .attaching none .skipped (some "scheduled_run_recovery_failed")

/-- `attach_run`, after which the tick goes on with its next claim. -/
def attach (zones : Zones) (w : Scheduler) (i : Nat) (claim : ScheduleClaim)
    (claims : List ScheduleClaim) (runId : Option String) (status : OccurrenceStatus)
    (reasonCode : Option String) : Scheduler :=
  match w.book.attachRun zones w.coordinator.db claim runId status reasonCode with
  | .error _ => { w with ticks := w.ticks.eraseIdx i }
  | .ok none => { w with ticks := w.ticks.set i ⟨claims, .starting⟩ }
  | .ok (some book) => { w with book, ticks := w.ticks.set i ⟨claims, .starting⟩ }

inductive Step where
  | create (tenantId : String) (request : ScheduleCreateRequest) (skill : Bool)
      (scheduleId revisionId : String) (now : Instant)
  | setStatus (tenantId scheduleId : String) (status : ScheduleStatus) (now : Instant)
  /-- `run_now`, up to the await of the backend. -/
  | runNow (tenantId scheduleId manual runId : String) (p : Preparation) (now : Instant)
  /-- A call of `tick`, up to the claims. -/
  | claim (now : Instant)
  | start (tick : Nat) (runId : String) (p : Preparation) (port : Option String) (now : Instant)
  | launch (tick : Nat) (answer : Answer String) (port : Option String) (now : Instant)
  | recover (tick : Nat)
  | attach (tick : Nat)
  /-- A tick is cancelled. -/
  | abandon (tick : Nat)
  /-- The process ends and another one is started. -/
  | crash
  /-- The coordinator goes on with a run. -/
  | run (a : Coordinator.Action)
  /-- Another service moves a run. -/
  | move (tenantId runId : String) (target : RunStatus) (now : Instant)

/-- The default of `claim_due`. -/
def LIMIT : Nat := 10

/-- A tick with the first of its claims and the others. -/
def tick? (w : Scheduler) (i : Nat) : Option (Tick × ScheduleClaim × List ScheduleClaim) :=
  match w.ticks[i]? with
  | some ⟨claim :: claims, phase⟩ => some (⟨claim :: claims, phase⟩, claim, claims)
  | _ => none

/-- One step of the process; after it has ended there is only another one to be started. -/
def step (zones : Zones) (notifier : Bool) (w : Scheduler) (s : Step) : Scheduler :=
  if w.coordinator.exited then
    match s with
    | .crash =>
        let fresh := Coordinator.empty w.coordinator.db.repositories
        { w with coordinator := { fresh with db := w.coordinator.db }, ticks := [] }
    | _ => w
  else
    match s with
    | .create tenantId request skill scheduleId revisionId now =>
        match w.book.create zones w.coordinator.db tenantId request skill scheduleId revisionId
            now with
        | .ok book => { w with book }
        | .error _ => w
    | .setStatus tenantId scheduleId status now =>
        match w.book.setStatus tenantId scheduleId status now with
        | .ok book => { w with book }
        | .error _ => w
    | .runNow tenantId scheduleId manual runId p now =>
        match w.book.get tenantId scheduleId with
        | .ok schedule =>
            if schedule.schedule.status = .archived then w
            else { w with coordinator := (w.coordinator.start tenantId
              (request schedule (some ("manual:" ++ manual))) none runId p now).2 }
        | .error _ => w
    | .claim now =>
        match w.book.claimDue w.coordinator.db now LIMIT with
        | .ok (book, claims) => { w with book, ticks := w.ticks ++ [⟨claims, .starting⟩] }
        | .error _ => w
    | .start i runId p port now =>
        match w.tick? i with
        | some (⟨claims, .starting⟩, claim, _) =>
            w.startClaim i ⟨claims, .starting⟩ claim runId p port now
        | _ => w
    | .launch i answer port now =>
        match w.tick? i with
        | some (⟨claims, .launching runId⟩, claim, _) =>
            w.launch i ⟨claims, .launching runId⟩ claim runId answer port now
        | _ => w
    | .recover i =>
        match w.tick? i with
        | some (⟨claims, .recovering⟩, claim, _) => w.recover i ⟨claims, .recovering⟩ claim
        | _ => w
    | .attach i =>
        match w.tick? i with
        | some (⟨_, .attaching runId status reasonCode⟩, claim, claims) =>
            w.attach zones i claim claims runId status reasonCode
        | _ => w
    | .abandon i => { w with ticks := w.ticks.eraseIdx i }
    | .crash =>
        let fresh := Coordinator.empty w.coordinator.db.repositories
        { w with coordinator := { fresh with db := w.coordinator.db }, ticks := [] }
    | .run a => { w with coordinator := w.coordinator.step notifier a }
    | .move tenantId runId target now =>
        { w with coordinator := (w.coordinator.transition tenantId runId target now).2 }

/-- A process with no schedules and no runs. -/
def empty (repositories : Table Runs.RepositoryRow) : Scheduler :=
  ⟨Coordinator.empty repositories, ⟨∅, ∅, ∅⟩, []⟩

end Scheduler

end Corvus.Schedules
