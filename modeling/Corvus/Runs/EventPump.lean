import Corvus.Library.Dialogue
import Corvus.Library.Uuid
import Corvus.Runs.Coordinator

/-!
# The event pump as a procedure

`RunCoordinator._pump`, with everything that it stores, as a dialogue with the provider, the
review and the run store. Where the coordinator tells apart only what a pump does to its run,
the log and the evidence of the run are kept here too. Calls of `cancel` come in between any
two of its questions.
-/

namespace Corvus.Runs

/-! ## Evidence -/

structure RunEvidenceRow where
  id : String
  runId : String
  kind : String
  summary : String
  digest : String
  createdAt : Instant

instance : Keyed RunEvidenceRow String := ⟨RunEvidenceRow.id⟩

/-- `RunStore.add_evidence`, with a new id. -/
def addEvidence (db : Db) (evidence : Table RunEvidenceRow) (id runId kind summary digest : String)
    (now : Instant) : Except RunStoreError (Table RunEvidenceRow) := do
  require (kind ≠ "" ∧ summary ≠ "" ∧ summary.length ≤ 2000) (.conflict "run_evidence_invalid")
  require (digest.length = 64 ∧ digest.toList.all (· ∈ Db.hexadecimal))
    (.conflict "run_evidence_digest_invalid")
  require (db.runs.get? runId).isSome (.notFound "run_not_found")
  present (evidence.insert? ⟨id, runId, kind, summary, digest, now⟩) (.notFound "run_not_found")

/-! ## Questions -/

/-- An event of the provider. A payload may have no JSON text. -/
structure Delivery where
  eventType : String
  payload : Option (List (String × Json))

/-- `ChangeSet`, as far as the pump looks at it. -/
structure ChangeSet where
  files : List String
  digest : String

inductive Operation where
  /-- The next event of the stream, or its end. -/
  | next
  | announce (event : Delivery)
  | snapshot
  /-- `backend.cancel`. -/
  | stop
  | append (event : Delivery)
  | addEvidence (kind summary digest : String)
  | terminalize (target : RunStatus)

/-- What a method of the run store raises: an error of its own, or that of encoding. -/
inductive Fault where
  | store (e : RunStoreError)
  | encoding

def Operation.Answer : Operation → Type
  | next => Runs.Answer Unit
  | announce _ => Runs.Answer Unit
  | snapshot => Runs.Answer ChangeSet
  | stop => Runs.Answer Bool
  | append _ => Except Fault Unit
  | addEvidence .. => Except Fault Unit
  | terminalize _ => Except Fault Unit

/-- A part of the pump, which may raise. -/
abbrev PumpPart (α : Type) := Dialogue Operation Operation.Answer (Answer α)

namespace EventPump

/-! ## The procedure -/

/-- Go on after a method of the run store, unless it raises. -/
def afterStore {α : Type} (next : PumpPart α) : Except Fault Unit → PumpPart α
  | .ok () => next
  | .error _ => .done .raised

/-- `_terminalize` on an event of the provider, after which the stream has a terminal. -/
def settle (target : RunStatus) : PumpPart Bool :=
  .ask (.terminalize target) (afterStore (.done (.returned true)))

/-- The summary of the change set. -/
def observed (files : Nat) : String :=
  "Observed " ++ toString files ++ " changed file" ++ (if files = 1 then "" else "s") ++
    " in the isolated worktree"

/-- The completion of a run, with the changes that were found. -/
def complete (D : Digests) (mode : Mode) (event : Delivery) (changes : ChangeSet) :
    PumpPart Bool :=
  .ask (.addEvidence "provider_completion" "Codex reported that the provider run completed"
      (D.sha256 (Db.encoded (event.payload.getD [])))) <| afterStore <|
    .ask (.addEvidence "change_set" (observed changes.files.length) changes.digest) <| afterStore <|
      if mode = .build ∧ changes.files = [] then
        .ask (.addEvidence "runtime_validation"
            "Build run completed without producing any reviewable file changes"
            (D.sha256 "build_completed_without_changes")) <| afterStore <| settle .failed
      else if mode = .build then settle .reviewRequired
      else settle .completed

/-- What an event that has been stored and announced leads to: whether it was a terminal. -/
def deliver (D : Digests) (mode : Mode) (event : Delivery) : PumpPart Bool :=
  if event.eventType = "provider.completed" then
    .ask .snapshot fun
      | .returned changes => complete D mode event changes
      | .raised => .done .raised
      | .cancelled => .done .cancelled
      | .exited => .done .exited
  else if event.eventType = "provider.failed" then settle .failed
  else if event.eventType = "provider.cancelled" then settle .cancelled
  else .done (.returned false)

/-- Go on after an await, unless it raises. -/
def afterAwait {α : Type} (next : PumpPart α) : Answer Unit → PumpPart α
  | .returned () => next
  | .raised => .done .raised
  | .cancelled => .done .cancelled
  | .exited => .done .exited

/-- The announcement of an event. -/
def announce {α : Type} (notifier : Bool) (event : Delivery) (next : PumpPart α) : PumpPart α :=
  if notifier then .ask (.announce event) (afterAwait next) else next

def streamClosed : Delivery :=
  ⟨"runtime.interrupted", some [("reason_code", .str "provider_stream_closed_without_terminal")]⟩

/-- The loop over the events that the stream still has, and the end of the stream. An await
of the stream may raise instead, before each of the events or at the end. -/
def loop (D : Digests) (notifier : Bool) (mode : Mode) : List Delivery → Bool → PumpPart Unit
  | [], sawTerminal =>
      .ask .next <| afterAwait <|
        if sawTerminal then .done (.returned ())
        else .ask (.append streamClosed) <| afterStore <|
          .ask (.terminalize .interrupted) <| afterStore <| .done (.returned ())
  | event :: events, sawTerminal =>
      .ask .next <| afterAwait <| .ask (.append event) <| afterStore <|
        announce notifier event <| (deliver D mode event).bind fun
          | .returned terminal => loop D notifier mode events (sawTerminal || terminal)
          | .raised => .done .raised
          | .cancelled => .done .cancelled
          | .exited => .done .exited

/-- The event that `_stop_and_terminalize` stores. -/
def stopped (target : RunStatus) (reasonCode : String) (accepted : Bool) : Delivery where
  eventType := if target = .interrupted then "runtime.interrupted" else "runtime.failed"
  payload := some [("reason_code", .str reasonCode), ("provider_stop_accepted", .bool accepted)]

/-- Go on after a method of the run store, under the second `try` of
`_stop_and_terminalize`. -/
def caught (next : PumpPart Unit) : Except Fault Unit → PumpPart Unit
  | .ok () => next
  | .error (.store (.conflict _)) | .error (.store (.notFound _)) => .done (.returned ())
  | .error _ => .done .raised

/-- The statements of `_stop_and_terminalize` under its second `try`. -/
def recordStop (target : RunStatus) (reasonCode : String) (accepted : Bool) : PumpPart Unit :=
  .ask (.append (stopped target reasonCode accepted)) <| caught <|
    .ask (.terminalize target) <| caught <| .done (.returned ())

/-- `_stop_and_terminalize`. -/
def stopAndTerminalize (target : RunStatus) (reasonCode : String) : PumpPart Unit :=
  .ask .stop fun
    | .returned accepted => recordStop target reasonCode accepted
    | .raised => recordStop target reasonCode false
    | .cancelled => .done .cancelled
    | .exited => .done .exited

/-- The handlers of `_pump`. -/
def handled : Answer Unit → PumpPart Unit
  | .returned () => .done (.returned ())
  | .raised => stopAndTerminalize .failed "run_event_pump_failed"
  | .cancelled =>
      (stopAndTerminalize .interrupted "run_event_pump_cancelled").bind fun
        | .returned () => .done .cancelled
        | answer => .done answer
  | .exited => .done .exited

/-- `_pump`, for the events that the stream of its handle gives. -/
def pump (D : Digests) (notifier : Bool) (mode : Mode) (events : List Delivery) : PumpPart Unit :=
  (loop D notifier mode events false).bind handled

end EventPump

/-! ## The process -/

/-- The coordinator, the evidence, and a task of `_pump`: what it has asked and what is left
of it. -/
structure PumpWorld where
  coordinator : Coordinator
  evidence : Table RunEvidenceRow
  asked : List (Exchange Operation Operation.Answer)
  left : PumpPart Unit

/-- What the parties other than the run store answer, and what the store asks the system
for. -/
structure Readings where
  awaited : Answer Unit
  changes : Answer ChangeSet
  accepted : Answer Bool
  evidenceId : String
  now : Instant

namespace PumpWorld

def withDb (w : PumpWorld) (db : Db) : PumpWorld :=
  { w with coordinator := { w.coordinator with db } }

/-- The answer to a question of the pump for a run. -/
def perform (w : PumpWorld) (tenantId runId : String) (r : Readings) :
    (q : Operation) → PumpWorld × q.Answer
  | .next => (w, r.awaited)
  | .announce _ => (w, r.awaited)
  | .snapshot => (w, r.changes)
  | .stop => (w, r.accepted)
  | .append event =>
      match event.payload with
      | none => (w, .error .encoding)
      | some payload =>
          match w.coordinator.db.appendEvent runId event.eventType payload r.now with
          | .ok db => (w.withDb db, .ok ())
          | .error e => (w, .error (.store e))
  | .addEvidence kind summary digest =>
      match addEvidence w.coordinator.db w.evidence r.evidenceId runId kind summary digest r.now with
      | .ok evidence => ({ w with evidence }, .ok ())
      | .error e => (w, .error (.store e))
  | .terminalize target =>
      match w.coordinator.db.terminalize tenantId runId target r.now with
      | .ok db => (w.withDb db, .ok ())
      | .error e => (w, .error (.store e))

inductive Step where
  | pump (r : Readings)
  | cancel (tenantId runId : String) (now : Instant)
  | conclude (cancel : Nat) (answer : Answer Bool) (now : Instant)

/-- One step of the process; nothing happens after the process has ended. -/
def step (tenantId runId : String) (w : PumpWorld) (s : Step) : PumpWorld :=
  if w.coordinator.exited then w
  else
    match s with
    | .pump r =>
        match w.left with
        | .done _ => w
        | .ask q next =>
            let (after, answer) := w.perform tenantId runId r q
            { after with asked := w.asked ++ [⟨q, answer⟩], left := next answer }
    | .cancel tenant run now =>
        { w with coordinator := w.coordinator.step false (.cancel tenant run now) }
    | .conclude i answer now =>
        { w with coordinator := w.coordinator.step false (.conclude i answer now) }

/-- The task as `start` creates it. -/
def created (D : Digests) (notifier : Bool) (c : Coordinator) (evidence : Table RunEvidenceRow)
    (run : RunRow) (events : List Delivery) : PumpWorld where
  coordinator := c
  evidence := evidence
  asked := []
  left := EventPump.pump D notifier run.mode events

end PumpWorld

end Corvus.Runs
