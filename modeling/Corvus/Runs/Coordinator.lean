import Corvus.Runs.Steps

/-!
# The run coordinator

`RunCoordinator` of `mvp/run_coordinator.py` as a set of coroutines that are cut at
their awaits. Everything between two awaits happens at once, with one reading of the
clock. A lock of the coordinator is never held over an await, so it is free whenever it
is asked for, and it has no part in the state.

What a port answers is an argument of the step that resumes the coroutine. A task is
interrupted at its awaits only; a `KeyboardInterrupt` or `SystemExit` ends the process.
-/

namespace Corvus.Runs

/-- How the call of a port ends: `CancelledError`, the two exceptions that end the
process, and every other exception are told apart. -/
inductive Answer (α : Type) where
  | returned (value : α)
  | raised
  | cancelled
  | exited

/-- What a coroutine raises: a `RunCoordinatorConflict`, an error of the run store, or
what a port has raised. -/
inductive CoordinatorError where
  | conflict (code : String)
  | store (e : RunStoreError)
  | port
deriving DecidableEq, Repr

/-- Where a coroutine of `start` or `cancel` is after one of its parts. -/
inductive Reply where
  | awaits
  | returns (record : RunRow)
  | raises (e : CoordinatorError)
deriving DecidableEq, Repr

structure ProviderRunEvent where
  eventType : String
  payload : List (String × Json)

/-- What `start` finds before it awaits the backend. -/
structure Preparation where
  policyDigest : String
  /-- Whether the skill provider gives the instructions of the skill. -/
  skill : Bool
  /-- The head of the repository, if it is healthy and has one. -/
  headSha : Option String
  /-- Whether the evidence of the run can be added. -/
  evidence : Bool
  worktree : Answer Unit

/-- What the pump finds when the provider has completed. -/
structure Review where
  /-- Whether the worktree has changed files, if it can be looked at. -/
  changes : Option Bool
  evidence : Bool

/-- A coroutine of `start` that awaits `backend.start`. -/
structure Starting where
  tenantId : String
  runId : String
deriving DecidableEq

/-- A coroutine of `cancel` that awaits `backend.cancel`. -/
structure Cancelling where
  tenantId : String
  runId : String
  handle : String

inductive PumpPhase where
  | created
  | reading (handle : String) (sawTerminal : Bool)
  | notifying (handle : String) (sawTerminal : Bool) (event : ProviderRunEvent)
  /-- Cancelled, with `_stop_and_terminalize` scheduled behind `asyncio.shield`. -/
  | interrupted (handle : String)
  /-- In `_stop_and_terminalize`, awaiting `backend.cancel`. -/
  | stopping (handle : String) (target : RunStatus) (reasonCode : String)

/-- A task of `_pump` that has not ended. -/
structure Pump where
  tenantId : String
  run : RunRow
  phase : PumpPhase

/-- What the backend has seen: the handles it returned and for which run, the handles on
which `cancel` has been called, and those whose event stream has ended. -/
structure Backend where
  launched : List (String × String)
  stopped : List String
  ended : List String

structure Coordinator where
  db : Db
  handles : List (String × String)
  starting : List Starting
  cancelling : List Cancelling
  pumps : List Pump
  backend : Backend
  exited : Bool

/-- The check and the write of `RunStore.transition`, without anybody in between. -/
def Db.transition (db : Db) (tenantId runId : String) (target : RunStatus) (now : Instant) :
    Except RunStoreError Db := do
  let current ← db.check tenantId runId target
  db.write tenantId runId target current now

/-- `_terminalize`. -/
def Db.terminalize (db : Db) (tenantId runId : String) (target : RunStatus) (now : Instant) :
    Except RunStoreError Db := do
  let current ← db.get tenantId runId
  if current.status = target then return db
  if current.status ∉ [RunStatus.preparing, .running] then return db
  db.transition tenantId runId target now

/-- `recover_interrupted`, over the rows that were selected. -/
def Db.recoverAll (db : Db) (now : Instant) : List RunRow → Db
  | [] => db
  | row :: rows =>
      match db.transition row.tenantId row.id .interrupted now with
      | .ok after => after.recoverAll now rows
      | .error _ => db

namespace Coordinator

def empty (repositories : Table RepositoryRow) : Coordinator where
  db := ⟨repositories, ∅, ∅⟩
  handles := []
  starting := []
  cancelling := []
  pumps := []
  backend := ⟨[], [], []⟩
  exited := false

/-- `RunStore.transition` with the record that it returns. -/
def transition (c : Coordinator) (tenantId runId : String) (target : RunStatus) (now : Instant) :
    Reply × Coordinator :=
  match c.db.transition tenantId runId target now with
  | .error e => (.raises (.store e), c)
  | .ok db =>
      match db.get tenantId runId with
      | .error e => (.raises (.store e), { c with db })
      | .ok record => (.returns record, { c with db })

/-- A transition on the way of an exception, which its own error replaces. -/
def settle (c : Coordinator) (tenantId runId : String) (target : RunStatus)
    (e : CoordinatorError) (now : Instant) : Reply × Coordinator :=
  match c.transition tenantId runId target now with
  | (.raises raised, c) => (.raises raised, c)
  | (_, c) => (.raises e, c)

/-- `backend.cancel` has been called. -/
def stop (c : Coordinator) (handle : String) : Coordinator :=
  { c with backend := { c.backend with stopped := handle :: c.backend.stopped } }

/-! ## `start` -/

/-- `start`, up to its await. -/
def start (c : Coordinator) (tenantId : String) (request : StartRunRequest)
    (retryOfRunId : Option String) (runId : String) (p : Preparation) (now : Instant) :
    Reply × Coordinator :=
  if p.policyDigest ≠ request.safetyDigest then
    (.raises (.conflict "run_safety_digest_mismatch"), c)
  else if request.skillVersionId.isSome ∧ ¬ p.skill then
    (.raises (.conflict "run_skill_unavailable"), c)
  else
    match p.headSha with
    | none => (.raises (.conflict "run_repository_unavailable"), c)
    | some baseSha =>
        match c.db.create tenantId request baseSha runId retryOfRunId now with
        | .error e => (.raises (.store e), c)
        | .ok db =>
            let c := { c with db }
            if ¬ p.evidence then (.raises .port, c)
            else
              match p.worktree with
              | .returned _ => (.awaits, { c with starting := c.starting ++ [⟨tenantId, runId⟩] })
              | .cancelled => c.settle tenantId runId .interrupted .port now
              | .raised =>
                  c.settle tenantId runId .failed (.conflict "run_provider_start_failed") now
              | .exited => (.raises .port, { c with exited := true })

/-- `start`, from the answer of `backend.start` on. -/
def launch (c : Coordinator) (s : Starting) (answer : Answer String) (now : Instant) :
    Reply × Coordinator :=
  match answer with
  | .cancelled => c.settle s.tenantId s.runId .interrupted .port now
  | .raised => c.settle s.tenantId s.runId .failed (.conflict "run_provider_start_failed") now
  | .exited => (.raises .port, { c with exited := true })
  | .returned handle =>
      let c := { c with
        handles := (s.runId, handle) :: c.handles
        backend := { c.backend with launched := (s.runId, handle) :: c.backend.launched } }
      match c.transition s.tenantId s.runId .running now with
      | (.returns running, c) =>
          (.returns running, { c with pumps := c.pumps ++ [⟨s.tenantId, running, .created⟩] })
      | (reply, c) => (reply, c)

/-! ## `cancel` and `recover_interrupted` -/

/-- `cancel`, up to its await. -/
def cancel (c : Coordinator) (tenantId runId : String) (now : Instant) : Reply × Coordinator :=
  match c.db.get tenantId runId with
  | .error e => (.raises (.store e), c)
  | .ok current =>
      if current.status ∈ [RunStatus.cancelled, .completed, .failed, .interrupted, .published,
          .discarded] then (.returns current, c)
      else
        match c.handles.lookup runId with
        | none => c.transition tenantId runId .interrupted now
        | some handle =>
            (.awaits,
              { c.stop handle with cancelling := c.cancelling ++ [⟨tenantId, runId, handle⟩] })

/-- `cancel`, from the answer of `backend.cancel` on. -/
def conclude (c : Coordinator) (k : Cancelling) (answer : Answer Bool) (now : Instant) :
    Reply × Coordinator :=
  match answer with
  | .raised | .cancelled => (.raises .port, c)
  | .exited => (.raises .port, { c with exited := true })
  | .returned accepted =>
      match c.db.get k.tenantId k.runId with
      | .error e => (.raises (.store e), c)
      | .ok current =>
          if accepted ∧ current.status ∈ [RunStatus.preparing, .running] then
            c.transition k.tenantId k.runId .cancelled now
          else (.returns current, c)

def recoverInterrupted (c : Coordinator) (now : Instant) : Coordinator :=
  { c with
    db := c.db.recoverAll now
      (c.db.runs.rows.filter fun r => r.status ∈ [RunStatus.preparing, .running]) }

/-! ## The event pump -/

/-- The pump leaves its loop with an exception: `backend.cancel` is called. -/
def fail (c : Coordinator) (i : Nat) (p : Pump) (handle : String) : Coordinator :=
  { c.stop handle with
    pumps := c.pumps.set i { p with phase := .stopping handle .failed "run_event_pump_failed" } }

/-- The status that an event of the provider leads to: `none` where it raises, and
`some none` where it leaves the run alone. -/
def outcome (p : Pump) (event : ProviderRunEvent) (review : Review) : Option (Option RunStatus) :=
  if event.eventType = "provider.completed" then
    match review.changes with
    | none => none
    | some changed =>
        if ¬ review.evidence then none
        else if p.run.mode = .build ∧ ¬ changed then some (some .failed)
        else if p.run.mode = .build then some (some .reviewRequired)
        else some (some .completed)
  else if event.eventType = "provider.failed" then some (some .failed)
  else if event.eventType = "provider.cancelled" then some (some .cancelled)
  else some none

/-- The loop body, once the event has been stored and announced. -/
def deliver (c : Coordinator) (i : Nat) (p : Pump) (handle : String) (sawTerminal : Bool)
    (event : ProviderRunEvent) (review : Review) (now : Instant) : Coordinator :=
  match outcome p event review with
  | none => c.fail i p handle
  | some none => { c with pumps := c.pumps.set i { p with phase := .reading handle sawTerminal } }
  | some (some target) =>
      match c.db.terminalize p.tenantId p.run.id target now with
      | .error _ => c.fail i p handle
      | .ok db => { c with db, pumps := c.pumps.set i { p with phase := .reading handle true } }

/-- The loop body, up to the announcement of the event. -/
def receive (c : Coordinator) (notifier : Bool) (i : Nat) (p : Pump) (handle : String)
    (sawTerminal : Bool) (event : ProviderRunEvent) (review : Review) (now : Instant) :
    Coordinator :=
  match c.db.appendEvent p.run.id event.eventType event.payload now with
  | .error _ => c.fail i p handle
  | .ok db =>
      let c := { c with db }
      if notifier then
        { c with pumps := c.pumps.set i { p with phase := .notifying handle sawTerminal event } }
      else c.deliver i p handle sawTerminal event review now

/-- The end of the event stream. -/
def finish (c : Coordinator) (i : Nat) (p : Pump) (handle : String) (sawTerminal : Bool)
    (now : Instant) : Coordinator :=
  let c := { c with backend := { c.backend with ended := handle :: c.backend.ended } }
  if sawTerminal then { c with pumps := c.pumps.eraseIdx i }
  else
    match c.db.appendEvent p.run.id "runtime.interrupted"
        [("reason_code", .str "provider_stream_closed_without_terminal")] now with
    | .error _ => c.fail i p handle
    | .ok db =>
        match db.terminalize p.tenantId p.run.id .interrupted now with
        | .error _ => { c with db }.fail i p handle
        | .ok db => { c with db, pumps := c.pumps.eraseIdx i }

/-- The pump is cancelled at an await of its loop. -/
def interrupt (c : Coordinator) (i : Nat) (p : Pump) (handle : String) : Coordinator :=
  { c with pumps := c.pumps.set i { p with phase := .interrupted handle } }

/-- `_stop_and_terminalize`, from the answer of `backend.cancel` on. -/
def stopAndTerminalize (c : Coordinator) (i : Nat) (p : Pump) (target : RunStatus)
    (reasonCode : String) (answer : Answer Bool) (now : Instant) : Coordinator :=
  let done := { c with pumps := c.pumps.eraseIdx i }
  let record := fun accepted : Bool =>
    match done.db.appendEvent p.run.id
        (if target = .interrupted then "runtime.interrupted" else "runtime.failed")
        [("reason_code", .str reasonCode), ("provider_stop_accepted", .bool accepted)] now with
    | .error _ => done
    | .ok db => { done with db := committed db (db.terminalize p.tenantId p.run.id target now) }
  match answer with
  | .returned accepted => record accepted
  | .raised => record false
  | .cancelled => done
  | .exited => { c with exited := true }

/-! ## Interleavings -/

/-- What happens between two points where others may come in. -/
inductive Action where
  | start (tenantId : String) (request : StartRunRequest) (retryOfRunId : Option String)
      (runId : String) (p : Preparation) (now : Instant)
  | launch (start : Nat) (answer : Answer String) (now : Instant)
  | cancel (tenantId runId : String) (now : Instant)
  | conclude (cancel : Nat) (answer : Answer Bool) (now : Instant)
  | recoverInterrupted (now : Instant)
  | begin (pump : Nat)
  | receive (pump : Nat) (event : ProviderRunEvent) (review : Review) (now : Instant)
  | notified (pump : Nat) (answer : Answer Unit) (review : Review) (now : Instant)
  | close (pump : Nat) (answer : Answer Unit) (now : Instant)
  | shield (pump : Nat)
  | stopped (pump : Nat) (answer : Answer Bool) (now : Instant)

/-- What a pump does when it goes on. -/
def pump (c : Coordinator) (notifier : Bool) (i : Nat) (p : Pump) : Action → Coordinator
  | .begin _ =>
      match p.phase, c.handles.lookup p.run.id with
      | .created, some handle =>
          { c with pumps := c.pumps.set i { p with phase := .reading handle false } }
      | .created, none => { c with pumps := c.pumps.eraseIdx i }
      | _, _ => c
  | .receive _ event review now =>
      match p.phase with
      | .reading handle sawTerminal => c.receive notifier i p handle sawTerminal event review now
      | _ => c
  | .notified _ answer review now =>
      match p.phase, answer with
      | .notifying handle sawTerminal event, .returned _ =>
          c.deliver i p handle sawTerminal event review now
      | .notifying handle _ _, .raised => c.fail i p handle
      | .notifying handle _ _, .cancelled => c.interrupt i p handle
      | .notifying .., .exited => { c with exited := true }
      | _, _ => c
  | .close _ answer now =>
      match p.phase, answer with
      | .reading handle sawTerminal, .returned _ => c.finish i p handle sawTerminal now
      | .reading handle _, .raised => c.fail i p handle
      | .reading handle _, .cancelled => c.interrupt i p handle
      | .reading .., .exited => { c with exited := true }
      | _, _ => c
  | .shield _ =>
      match p.phase with
      | .interrupted handle =>
          { c.stop handle with
            pumps := c.pumps.set i
              { p with phase := .stopping handle .interrupted "run_event_pump_cancelled" } }
      | _ => c
  | .stopped _ answer now =>
      match p.phase with
      | .stopping _ target reasonCode => c.stopAndTerminalize i p target reasonCode answer now
      | _ => c
  | _ => c

/-- One step of the process; a step that names a coroutine that does not exist, or is
elsewhere, does nothing, and so does every step after the process has ended. -/
def step (notifier : Bool) (c : Coordinator) (a : Action) : Coordinator :=
  if c.exited then c
  else
    match a with
    | .start tenantId request retryOfRunId runId p now =>
        (c.start tenantId request retryOfRunId runId p now).2
    | .launch i answer now =>
        match c.starting[i]? with
        | some s => { c with starting := c.starting.eraseIdx i }.launch s answer now |>.2
        | none => c
    | .cancel tenantId runId now => (c.cancel tenantId runId now).2
    | .conclude i answer now =>
        match c.cancelling[i]? with
        | some k => { c with cancelling := c.cancelling.eraseIdx i }.conclude k answer now |>.2
        | none => c
    | .recoverInterrupted now => c.recoverInterrupted now
    | .begin i | .receive i _ _ _ | .notified i _ _ _ | .close i _ _ | .shield i
    | .stopped i _ _ =>
        match c.pumps[i]? with
        | some p => c.pump notifier i p a
        | none => c

end Coordinator

end Corvus.Runs
