import Corvus.Agent.Events
import Corvus.Process.Session

/-!
# The stream of a provider's adapter

`events` and `cancel` are the same code in `codex.py` and in `claude.py`, around the generator
`_stream_events`, which reads the events of the provider's process. The generator stops where it
yields an event and where it awaits the process; a subscription that is abandoned there drops what
the generator had still to do.
-/

namespace Corvus.Adapters

open Agent Process

abbrev Payload := List (String × Json)

/-- What the generator has still to do about an event of the process. -/
inductive Effect where
  /-- `yield event(..)`. -/
  | say (eventType : AgentRunEventType) (payload : Payload)
  /-- `await session.process.cancel()`: the call, and what comes after its answer. -/
  | cancelProcess
  | answered
  /-- `session.terminal_state = ..` and `terminal = True`. -/
  | conclude (state : AgentRunState)
  /-- `session.workspace_access_task = None`. -/
  | dismiss
  /-- An exception. -/
  | raise

def Effect.isSay : Effect → Bool
  | .say .. => true
  | _ => false

/-- `LocalBuildArtifact`, as far as events tell of it. -/
structure LocalBuildArtifact where
  downloadName : String
  sha256Digest : String
  sizeBytes : Nat

/-- How `_package_workspace` ends: with an artifact, with the reason code of an error of the
adapter, or with any other exception. -/
inductive Packaged where
  | artifact (artifact : LocalBuildArtifact)
  | error (reasonCode : String)
  | raised

/-- What the generator finds outside of the session when it goes on. -/
structure Surroundings where
  now : Instant
  packaged : Packaged

/-- What the two adapters do not have in common. `X` is what a session keeps for one of them. -/
structure Adapter (X : Type) where
  /-- The body of the loop of `_stream_events`, with the flag `started`. -/
  read : X → (terminal started : Bool) → Surroundings → SessionEvent → X × Bool × List Effect
  /-- The reason code for a stream without a terminal event. -/
  incomplete : String
  /-- What runs beside the stream has come to its end, well or not. -/
  background : X → Bool → X
  /-- The stream needs it no longer. -/
  dismiss : X → X

/-- What is taken from elsewhere: digests, the limits and the parts of process sessions, and
whether `AgentRunEvent` lets a payload pass as free of secrets. -/
structure Parts where
  digests : Digests
  codec : Codec
  limits : Limits
  admits : Payload → Bool

/-! ## State -/

/-- A consumer, who asks for the events after a sequence and later for those after the last one it
has got. -/
structure Consumer where
  start : Nat
  received : List AgentRunEvent
  ended : Bool

def Consumer.cursor (c : Consumer) : Nat :=
  match c.received.getLast? with
  | some e => e.sequence
  | none => c.start

def Consumer.given (c : Consumer) (e : AgentRunEvent) : Consumer :=
  { c with received := c.received ++ [e] }

/-- `_stream_events` at a point where it has stopped. -/
structure Stream where
  terminal : Bool
  started : Bool
  /-- The subscription to the process. -/
  source : Subscriber
  rest : List Effect
  /-- The loop is left. -/
  drained : Bool
  /-- The consumer has got an event and has not asked for the next one. -/
  yielded : Bool

inductive Phase where
  /-- In the loop over the events of the session. -/
  | replaying (position : Nat)
  | streaming (stream : Stream)

structure Subscription where
  consumer : Consumer
  afterSequence : Nat
  phase : Phase

/-- `CancellationResult`. -/
structure CancellationResult where
  accepted : Bool
  state : AgentRunState
  terminal : Bool
  reasonCode : String

/-- `_RunSession`, with those who use it. -/
structure RunSession (X : Type) where
  runId : Uuid
  handleId : Uuid
  process : Session
  own : X
  events : List AgentRunEvent
  terminalState : Option AgentRunState
  processSequence : Nat
  streamComplete : Bool
  /-- The subscription that holds the lock. -/
  subscription : Option Subscription
  /-- Consumers without a subscription. -/
  consumers : List Consumer
  /-- Calls of `cancel` that await the process. -/
  cancelling : Nat
  answers : List CancellationResult
  /-- A history: the events that abandoned subscriptions have not come to yield. -/
  lost : List Effect

namespace RunSession

variable {X : Type} (A : Adapter X) (P : Parts)

/-- `event`. -/
def event (s : RunSession X) (now : Instant) (eventType : AgentRunEventType)
    (payload : Payload) : AgentRunEvent :=
  let e : AgentRunEvent := {
    runId := s.runId
    handleId := s.handleId
    sequence := s.events.length + 1
    timestamp := now
    eventType := eventType
    redactedPayload := payload
    providerEventId := none
    toolCallId := none
    effectAuthorizationDecisionId := none
    effectAuthorizationDecisionDigest := none
    previousEventDigest := (s.events.getLast?.map (·.eventDigest)).getD GENESIS_EVENT_DIGEST
    eventDigest := "" }
  { e with eventDigest := e.computeDigest P.digests }

/-- `session.process.cancel()`, which has to wait for the terminal lock. -/
def cancelProcess (s : RunSession X) : RunSession X :=
  { s with process.waiting := s.process.waiting ++ [Closing.cancel "process_cancelled"] }

/-! ## The generator -/

/-- The subscription has come to its end. -/
def finish (s : RunSession X) (sub : Subscription) : RunSession X :=
  { s with
    streamComplete := true
    subscription := none
    consumers := s.consumers ++ [{ sub.consumer with ended := true }] }

/-- The subscription is dropped, with what its generator had still to do. -/
def drop (s : RunSession X) (sub : Subscription) (rest : List Effect) : RunSession X :=
  { s with
    subscription := none
    consumers := s.consumers ++ [sub.consumer]
    lost := s.lost ++ rest.filter (·.isSay) }

/-- The generator has stopped. -/
def stop (s : RunSession X) (sub : Subscription) (stream : Stream) : RunSession X :=
  { s with subscription := some { sub with phase := .streaming stream } }

/-- `yield event(..)`, which appends the event and gives it to the consumer unless its sequence is
not behind the cursor. -/
def say (s : RunSession X) (sub : Subscription) (stream : Stream) (e : AgentRunEvent) :
    RunSession X :=
  let yielded := sub.afterSequence < e.sequence
  { s with
    events := s.events ++ [e]
    subscription := some {
      consumer := if yielded then sub.consumer.given e else sub.consumer
      afterSequence := sub.afterSequence
      phase := .streaming { stream with yielded := yielded } } }

/-- The generator does what it has to do about an event of the process, up to the next event that
it yields. -/
def perform (now : Instant) : RunSession X → Subscription → Stream → List Effect → RunSession X
  | s, sub, stream, [] =>
    if stream.drained then s.finish sub else s.stop sub { stream with rest := [], yielded := false }
  | s, sub, stream, .say eventType payload :: rest =>
    if P.admits payload then
      s.say sub { stream with rest := rest } (s.event P now eventType payload)
    else s.drop sub (.say eventType payload :: rest)
  | s, sub, stream, .cancelProcess :: rest =>
    s.cancelProcess.stop sub { stream with rest := .answered :: rest, yielded := false }
  | s, sub, stream, .answered :: rest =>
    -- Whoever calls `cancel` of the process gets an answer once the session has ended.
    if s.process.terminal then perform now s sub stream rest
    else s.stop sub { stream with rest := .answered :: rest, yielded := false }
  | s, sub, stream, .conclude state :: rest =>
    perform now { s with terminalState := some state } sub { stream with terminal := true } rest
  | s, sub, stream, .dismiss :: rest =>
    perform now { s with own := A.dismiss s.own } sub stream rest
  | s, sub, _, .raise :: rest => s.drop sub rest

/-- What follows the loop. -/
def epilogue (stream : Stream) : List Effect :=
  if stream.terminal then [.dismiss]
  else [.say .failed [("reason_code", .str A.incomplete)], .conclude .failed, .dismiss]

/-- The process has an event for its subscriber, or the end. -/
def pull (s : RunSession X) (stream : Stream) : Option (Subscriber × Option SessionEvent) :=
  let source := s.process.pulled stream.source
  if source.ended then some (source, none)
  else
    match source.received.drop stream.source.received.length with
    | [] => none
    | e :: _ => some (source, some e)

/-- `_stream_events` goes on. -/
def advance (s : RunSession X) (around : Surroundings) (sub : Subscription) (stream : Stream) :
    RunSession X :=
  if stream.rest = [] then
    match s.pull stream with
    | none => s.stop sub { stream with yielded := false }
    | some (source, none) =>
      perform A P around.now s sub { stream with source := source, drained := true }
        (epilogue A stream)
    | some (source, some e) =>
      let (own, started, effects) := A.read s.own stream.terminal stream.started around e
      perform A P around.now
        { s with own := own, processSequence := max s.processSequence e.sequence } sub
        { stream with source := source, started := started } effects
  else perform A P around.now s sub stream stream.rest

/-- `_stream_events` begins. -/
def begin_ (s : RunSession X) : Stream where
  terminal := false
  started := s.events ≠ []
  source := ⟨s.processSequence, s.processSequence, [], false, [], false⟩
  rest := []
  drained := false
  yielded := false

/-- The loop over the events of the session goes on. -/
def replay (s : RunSession X) (sub : Subscription) (position : Nat) : RunSession X :=
  match (s.events.drop position).dropWhile (·.sequence ≤ sub.afterSequence) with
  | e :: more =>
    { s with
      subscription := some {
        consumer := sub.consumer.given e
        afterSequence := sub.afterSequence
        phase := .replaying (s.events.length - more.length) } }
  | [] =>
    if s.streamComplete then s.finish sub else s.stop sub s.begin_

/-- The consumer asks for its next event. -/
def next (s : RunSession X) (around : Surroundings) : RunSession X :=
  match s.subscription with
  | none => s
  | some sub =>
    match sub.phase with
    | .replaying position => s.replay sub position
    | .streaming stream => s.advance A P around sub stream

/-- The subscription is abandoned where it has stopped. -/
def abandon (s : RunSession X) : RunSession X :=
  match s.subscription with
  | none => s
  | some sub =>
    match sub.phase with
    | .replaying _ => s.drop sub []
    | .streaming stream => s.drop sub stream.rest

/-- A subscription takes the lock. -/
def subscribe (s : RunSession X) (c : Consumer) : RunSession X :=
  { s with subscription := some ⟨{ c with ended := false }, c.cursor, .replaying 0⟩ }

/-! ## Cancellation -/

/-- `cancel` and `cancel_local`, up to the answer of the process. -/
def cancel (s : RunSession X) : RunSession X :=
  match s.terminalState with
  | some state =>
    { s with answers := s.answers ++ [⟨false, state, true, "agent_run_already_terminal"⟩] }
  | none => { s.cancelProcess with cancelling := s.cancelling + 1 }

/-- The process has answered a call of `cancel`. -/
def cancelReturns (s : RunSession X) : RunSession X :=
  if 0 < s.cancelling ∧ s.process.terminal = true then
    { s with
      cancelling := s.cancelling - 1
      terminalState := some .cancelled
      answers := s.answers ++ [⟨true, .cancelled, true, "agent_run_cancelled"⟩] }
  else s

/-! ## Steps -/

/-- What may happen. A consumer that is cancelled while it waits abandons its subscription, and the
process gets a call of `cancel` of its own. -/
inductive Input where
  /-- A consumer subscribes for the first time, with any cursor. -/
  | join (afterSequence : Nat)
  /-- A consumer subscribes again, behind the last event it has got. -/
  | resume (index : Nat)
  | next (around : Surroundings)
  | abandon
  | cancel
  | cancelReturns
  /-- A call of `cancel` is cancelled while it awaits the process. -/
  | cancelDropped
  | background (ok : Bool)
  | process (i : Session.Input)

/-- The generator runs: it is not where it has yielded, and what it awaits is there. -/
def Busy (s : RunSession X) : Prop :=
  match s.subscription with
  | some ⟨_, _, .streaming stream⟩ =>
    stream.yielded = false ∧
      match stream.rest with
      | [] => (s.pull stream).isSome
      | .answered :: _ => s.process.terminal = true
      | _ => True
  | _ => False

instance (s : RunSession X) : Decidable s.Busy := by
  unfold Busy
  split
  · split
    · infer_instance
    · infer_instance
    · infer_instance
  · infer_instance

/-- What others do while the generator has stopped. -/
def other (s : RunSession X) : Input → RunSession X
  | .join afterSequence =>
    if s.subscription.isNone then s.subscribe ⟨afterSequence, [], false⟩ else s
  | .resume index =>
    match s.subscription, s.consumers[index]? with
    | none, some c => { s with consumers := s.consumers.eraseIdx index }.subscribe c
    | _, _ => s
  | .next _ => s
  | .abandon => s.abandon
  | .cancel => s.cancel
  | .cancelReturns => s.cancelReturns
  | .cancelDropped => { s with cancelling := s.cancelling - 1 }
  | .background ok => { s with own := A.background s.own ok }
  | .process i => { s with process := s.process.step P.codec P.limits i }

def step (s : RunSession X) : Input → RunSession X
  | .next around => s.next A P around
  | i => if s.Busy then s else s.other A P i

/-- The session of a run whose process has just been started. -/
def start (runId handleId : Uuid) (own : X) : RunSession X where
  runId := runId
  handleId := handleId
  process := .start
  own := own
  events := []
  terminalState := none
  processSequence := 0
  streamComplete := false
  subscription := none
  consumers := []
  cancelling := 0
  answers := []
  lost := []

end RunSession

end Corvus.Adapters
