import Corvus.Library.Calendar
import Corvus.Library.Except
import Corvus.Library.Json
import Corvus.Library.Table

/-!
# The durable run store

The tables of `mvp/store.py` that hold durable runs and their events, and the methods
of `mvp/run_store.py` that write them. `RunStore.transition` opens three connections,
one after the other: it is cut here at them into `check`, `write` and the `get` that
it ends with, so that other writers may come in between.
-/

namespace Corvus.Runs

inductive RunStatus where
  | preparing | running | reviewRequired | contributionReady | publishing | published
  | completed | cancelled | interrupted | failed | discarded
deriving DecidableEq, Repr

inductive RunStoreError where
  | conflict (code : String)
  | notFound (code : String)
  | integrity (constraint : String)
deriving DecidableEq, Repr

/-! ## The transition table -/

/-- `_TERMINAL`. -/
def TERMINAL : List RunStatus :=
  [.published, .completed, .cancelled, .interrupted, .failed, .discarded]

/-- `_TRANSITIONS`. -/
def TRANSITIONS : RunStatus → List RunStatus
  | .preparing => [.running, .cancelled, .interrupted, .failed]
  | .running => [.reviewRequired, .completed, .cancelled, .interrupted, .failed]
  | .reviewRequired => [.contributionReady, .completed, .discarded, .failed]
  | .contributionReady => [.publishing, .discarded]
  | .publishing => [.published, .contributionReady, .failed]
  | .completed => [.discarded]
  | .cancelled => [.discarded]
  | .interrupted => [.discarded]
  | .failed => [.discarded]
  | .published => []
  | .discarded => []

/-! ## The tables -/

inductive Effort where
  | low | medium | high | xhigh
deriving DecidableEq, Repr

inductive Mode where
  | chat | build
deriving DecidableEq, Repr

inductive OutputPolicy where
  | reportOnly | prepareChanges | prepareContribution
deriving DecidableEq, Repr

structure StartRunRequest where
  repositoryId : String
  task : String
  provider : String
  model : Option String
  effort : Effort
  mode : Mode
  safetyDigest : String
  skillVersionId : Option String
  scheduleId : Option String
  occurrenceKey : Option String
  outputPolicy : OutputPolicy

structure RepositoryRow where
  id : String
  tenantId : String

instance : Keyed RepositoryRow String := ⟨RepositoryRow.id⟩

structure RunRow where
  id : String
  tenantId : String
  repositoryId : String
  baseSha : String
  task : String
  provider : String
  model : Option String
  effort : Effort
  mode : Mode
  safetyDigest : String
  skillVersionId : Option String
  scheduleId : Option String
  occurrenceKey : Option String
  outputPolicy : OutputPolicy
  retryOfRunId : Option String
  status : RunStatus
  createdAt : Instant
  updatedAt : Instant
  startedAt : Option Instant
  finishedAt : Option Instant
deriving DecidableEq, Repr

instance : Keyed RunRow String := ⟨RunRow.id⟩

structure RunEventRow where
  runId : String
  sequence : Nat
  eventType : String
  payloadJson : String
  createdAt : Instant

instance : Keyed RunEventRow (String × Nat) := ⟨fun e => (e.runId, e.sequence)⟩

structure Db where
  repositories : Table RepositoryRow
  runs : Table RunRow
  events : Table RunEventRow

/-- The statuses that the index `mvp_runs_schedule_active_idx` covers. -/
def RunStatus.active : RunStatus → Bool
  | preparing | running | reviewRequired | contributionReady | publishing => true
  | _ => false

namespace Db

/-- `RunStore.get`. -/
def get (db : Db) (tenantId runId : String) : Except RunStoreError RunRow :=
  match (db.runs.get? runId).filter fun r => r.tenantId = tenantId with
  | some row => .ok row
  | none => .error (.notFound "run_not_found")

/-! ## `create` -/

def hexadecimal : List Char := "0123456789abcdef".toList

/-- Another active run of the schedule of this one, which the partial index refuses. -/
def rival (db : Db) (r : RunRow) : Bool :=
  r.scheduleId.isSome && r.status.active &&
    db.runs.rows.any fun s => s.id ≠ r.id && s.scheduleId = r.scheduleId && s.status.active

/-- The `INSERT`, which the constraints of the table may refuse. -/
def insertRun (db : Db) (r : RunRow) : Option Db :=
  if (db.repositories.get? r.repositoryId).isNone then none
  else if r.retryOfRunId.any fun id => (db.runs.get? id).isNone then none
  else if r.scheduleId.isSome && r.occurrenceKey.isSome && db.runs.rows.any fun s =>
      s.scheduleId = r.scheduleId && s.occurrenceKey = r.occurrenceKey then none
  else if db.rival r then none
  else (db.runs.insert? r).map fun runs => { db with runs }

/-- The row that `create` inserts. -/
def preparing (tenantId : String) (request : StartRunRequest) (baseSha runId : String)
    (retryOfRunId : Option String) (now : Instant) : RunRow where
  id := runId
  tenantId := tenantId
  repositoryId := request.repositoryId
  baseSha := baseSha
  task := request.task
  provider := request.provider
  model := request.model
  effort := request.effort
  mode := request.mode
  safetyDigest := request.safetyDigest
  skillVersionId := request.skillVersionId
  scheduleId := request.scheduleId
  occurrenceKey := request.occurrenceKey
  outputPolicy := request.outputPolicy
  retryOfRunId := retryOfRunId
  status := .preparing
  createdAt := now
  updatedAt := now
  startedAt := none
  finishedAt := none

/-- `RunStore.create`, whose `run_id` is the one given or a new one. -/
def create (db : Db) (tenantId : String) (request : StartRunRequest) (baseSha runId : String)
    (retryOfRunId : Option String) (now : Instant) : Except RunStoreError Db := do
  require ((baseSha.length = 40 ∨ baseSha.length = 64) ∧ baseSha.toList.all (· ∈ hexadecimal))
    (.conflict "run_base_sha_invalid")
  require (retryOfRunId.all fun source => (db.get tenantId source).isOk) (.notFound "run_not_found")
  require ((db.repositories.get? request.repositoryId).any fun r => r.tenantId = tenantId)
    (.notFound "repository_not_found")
  match db.insertRun (preparing tenantId request baseSha runId retryOfRunId now) with
  | some after => return after
  | none =>
      throw (.conflict (if request.scheduleId.isSome then "run_occurrence_exists"
        else "run_already_exists"))

/-! ## `transition` -/

/-- The first part of `transition`: the current record, whose status allows the target. -/
def check (db : Db) (tenantId runId : String) (target : RunStatus) :
    Except RunStoreError RunRow := do
  let current ← db.get tenantId runId
  require (target ∈ TRANSITIONS current.status) (.conflict "run_transition_invalid")
  return current

/-- The columns that the `UPDATE` sets. -/
def moved (target : RunStatus) (now : Instant) (startedAt finishedAt : Option Instant) :
    Rewrite RunRow where
  apply r := { r with
    status := target
    updatedAt := now
    startedAt := r.startedAt <|> startedAt
    finishedAt := r.finishedAt <|> finishedAt }
  keeps _ := rfl

/-- The second part of `transition`: the `UPDATE` of the row that still has the status of
the record that was read. -/
def write (db : Db) (tenantId runId : String) (target : RunStatus) (current : RunRow)
    (now : Instant) : Except RunStoreError Db :=
  let startedAt := if target = .running ∧ current.startedAt = none then some now else none
  let finishedAt := if target ∈ TERMINAL then some now else none
  let found := fun r : RunRow => r.id = runId ∧ r.tenantId = tenantId ∧ r.status = current.status
  if db.runs.rows.any fun r => found r && db.rival { r with status := target } then
    .error (.integrity "mvp_runs_schedule_active_idx")
  else if (db.runs.rows.filter fun r => found r).length ≠ 1 then
    .error (.conflict "run_transition_conflict")
  else .ok { db with
    runs := db.runs.update (fun r => found r) (moved target now startedAt finishedAt) }

/-! ## `append_event` -/

/-- The escapes of `json.dumps` for characters outside printable ASCII. -/
def asciiChar (c : Char) : List Char :=
  let unit := fun n : Nat => ['\\', 'u', Json.hexDigit (n / 4096), Json.hexDigit (n / 256 % 16),
    Json.hexDigit (n / 16 % 16), Json.hexDigit (n % 16)]
  if c.toNat < 127 then [c]
  else if c.toNat < 65536 then unit c.toNat
  else
    unit (0xD800 + (c.toNat - 65536) / 1024) ++ unit (0xDC00 + (c.toNat - 65536) % 1024)

/-- `json.dumps(payload, sort_keys=True, separators=(",", ":"))`. -/
def encoded (payload : List (String × Json)) : String :=
  String.ofList ((Json.obj payload).encode.flatMap asciiChar)

/-- `COALESCE(MAX(sequence), 0) + 1`. -/
def nextSequence (db : Db) (runId : String) : Nat :=
  ((db.events.rows.filter (·.runId = runId)).map (·.sequence)).foldr max 0 + 1

/-- `RunStore.append_event`. -/
def appendEvent (db : Db) (runId eventType : String) (payload : List (String × Json))
    (now : Instant) : Except RunStoreError Db := do
  require (eventType ≠ "" ∧ eventType.length ≤ 100) (.conflict "run_event_type_invalid")
  require ((encoded payload).utf8ByteSize ≤ 64 * 1024) (.conflict "run_event_payload_too_large")
  require (db.runs.get? runId).isSome (.notFound "run_not_found")
  match db.events.insert? ⟨runId, db.nextSequence runId, eventType, encoded payload, now⟩ with
  | some events => return { db with events }
  | none => throw (.integrity "mvp_run_events")

/-- `RunStore.events`. -/
def readEvents (db : Db) (tenantId runId : String) (after limit : Int) :
    Except RunStoreError (List RunEventRow) := do
  require (1 ≤ limit ∧ limit ≤ 1000) (.conflict "run_event_limit_invalid")
  let _ ← db.get tenantId runId
  let rows := db.events.rows.filter fun e => e.runId = runId ∧ after < e.sequence
  return (rows.mergeSort fun e f => e.sequence ≤ f.sequence).take limit.toNat

end Db

/-! ## Interleavings -/

/-- Where a call of `transition` is, with the values it holds. -/
inductive Phase where
  | checked (current : RunRow)
  | written (current : RunRow)
  | returned (current result : RunRow)
  | refused (error : RunStoreError)
  | raised (current : RunRow) (error : RunStoreError)

/-- A call of `transition`, made by any task. -/
structure Transition where
  tenantId : String
  runId : String
  target : RunStatus
  phase : Phase

/-- The store with the calls of `transition` made so far, the first call first. -/
structure RunStore where
  db : Db
  calls : List Transition

/-- What one task does between two points where others may come in. -/
inductive Action where
  | create (tenantId : String) (request : StartRunRequest) (baseSha runId : String)
      (retryOfRunId : Option String) (now : Instant)
  | transition (tenantId runId : String) (target : RunStatus)
  | write (call : Nat) (now : Instant)
  | get (call : Nat)
  | appendEvent (runId eventType : String) (payload : List (String × Json)) (now : Instant)

/-- A transaction commits what it wrote when it returns, and nothing when it raises. -/
def committed (db : Db) : Except RunStoreError Db → Db
  | .ok after => after
  | .error _ => db

namespace Transition

/-- A call up to its check. -/
def start (db : Db) (tenantId runId : String) (target : RunStatus) : Transition where
  tenantId := tenantId
  runId := runId
  target := target
  phase := match db.check tenantId runId target with
    | .ok current => .checked current
    | .error e => .refused e

/-- The database that a call leaves after its write. -/
def write (db : Db) (now : Instant) (t : Transition) : Db :=
  match t.phase with
  | .checked current => committed db (db.write t.tenantId t.runId t.target current now)
  | _ => db

/-- A call after its write. -/
def afterWrite (db : Db) (now : Instant) (t : Transition) : Transition :=
  match t.phase with
  | .checked current =>
      { t with
        phase := match db.write t.tenantId t.runId t.target current now with
          | .ok _ => .written current
          | .error e => .raised current e }
  | _ => t

/-- A call after the `get` that it ends with. -/
def afterGet (db : Db) (t : Transition) : Transition :=
  match t.phase with
  | .written current =>
      { t with
        phase := match db.get t.tenantId t.runId with
          | .ok result => .returned current result
          | .error e => .raised current e }
  | _ => t

end Transition

namespace RunStore

/-- Before the first run. -/
def empty (repositories : Table RepositoryRow) : RunStore := ⟨⟨repositories, ∅, ∅⟩, []⟩

def step (s : RunStore) : Action → RunStore
  | .create tenantId request baseSha runId retryOfRunId now =>
      { s with db := committed s.db (s.db.create tenantId request baseSha runId retryOfRunId now) }
  | .transition tenantId runId target =>
      { s with calls := s.calls ++ [.start s.db tenantId runId target] }
  | .write call now =>
      { db := (s.calls[call]?.map (Transition.write s.db now)).getD s.db
        calls := s.calls.modify call (Transition.afterWrite s.db now) }
  | .get call => { s with calls := s.calls.modify call (Transition.afterGet s.db) }
  | .appendEvent runId eventType payload now =>
      { s with db := committed s.db (s.db.appendEvent runId eventType payload now) }

end RunStore

end Corvus.Runs
