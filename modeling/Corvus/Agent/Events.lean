import Corvus.Library.Calendar
import Corvus.Library.Uuid

/-!
# Events of an agent run

The events of `domain/agent_runtime.py` and the validator of their chain, one pass
that keeps what it has seen of the stream. A copy of an event is not validated
again by the source, so an event here is plain data, whose digest may be wrong.
-/

namespace Corvus.Agent

inductive AgentRunEventType where
  | started | reasoningDelta | messageDelta | toolRequested | toolBlocked | toolStarted
  | toolResult | usage | approvalRequired | checkpoint | artifact | completed | failed | cancelled
deriving DecidableEq, Repr

def AgentRunEventType.value : AgentRunEventType → String
  | started => "started"
  | reasoningDelta => "reasoning_delta"
  | messageDelta => "message_delta"
  | toolRequested => "tool_requested"
  | toolBlocked => "tool_blocked"
  | toolStarted => "tool_started"
  | toolResult => "tool_result"
  | usage => "usage"
  | approvalRequired => "approval_required"
  | checkpoint => "checkpoint"
  | artifact => "artifact"
  | completed => "completed"
  | failed => "failed"
  | cancelled => "cancelled"

inductive AgentRunState where
  | running | completed | failed | cancelled
deriving DecidableEq, Repr

/-- `terminal_states`. -/
def AgentRunEventType.terminalState : AgentRunEventType → Option AgentRunState
  | completed => some .completed
  | failed => some .failed
  | cancelled => some .cancelled
  | _ => none

/-- The id and the digest of the decision that authorized an effect. -/
abbrev DecisionReference := Uuid × String

structure AgentRunEvent where
  runId : Uuid
  handleId : Uuid
  sequence : Nat
  timestamp : Instant
  eventType : AgentRunEventType
  redactedPayload : List (String × Json)
  providerEventId : Option String
  toolCallId : Option String
  effectAuthorizationDecisionId : Option Uuid
  effectAuthorizationDecisionDigest : Option String
  previousEventDigest : String
  eventDigest : String
deriving DecidableEq

def GENESIS_EVENT_DIGEST : String := String.ofList (List.replicate 64 '0')

/-- `_canonical_datetime`. -/
def canonicalDatetime (t : Instant) : String := Calendar.isoformat t ++ "Z"

def optional {α : Type} (f : α → String) (a : Option α) : Json := (a.map fun a => .str (f a)).getD .null

/-- `compute_agent_run_event_digest`, of the fields of an event. -/
def AgentRunEvent.computeDigest (D : Digests) (e : AgentRunEvent) : String :=
  D.sha256 (Json.dumps (.obj [
    ("event_type", .str e.eventType.value),
    ("effect_authorization_decision_digest", optional id e.effectAuthorizationDecisionDigest),
    ("effect_authorization_decision_id", optional Uuid.text e.effectAuthorizationDecisionId),
    ("handle_id", .str e.handleId.text),
    ("previous_event_digest", .str e.previousEventDigest),
    ("provider_event_id", optional id e.providerEventId),
    ("tool_call_id", optional id e.toolCallId),
    ("redacted_payload", .obj e.redactedPayload),
    ("run_id", .str e.runId.text),
    ("sequence", .int e.sequence),
    ("timestamp", .str (canonicalDatetime e.timestamp))]))

/-- `AgentRunEventChainError`, with its reason code. -/
structure AgentRunEventChainError where
  reasonCode : String

/-- The decision reference of an event that has both of its parts. -/
def AgentRunEvent.reference (e : AgentRunEvent) : Option DecisionReference :=
  match e.effectAuthorizationDecisionId, e.effectAuthorizationDecisionDigest with
  | some id, some digest => some (id, digest)
  | _, _ => none

/-- `_effect_authorization_reference`. -/
def effectAuthorizationReference (e : AgentRunEvent) :
    Except AgentRunEventChainError DecisionReference :=
  match e.reference with
  | some reference => .ok reference
  | none => .error ⟨"effect_authorization_decision_required"⟩

/-! ## The validator -/

/-- What `validate_agent_run_event_chain` keeps of the events it has passed. A
dictionary is the list of its entries, the newest first. -/
structure Seen where
  previousDigest : String
  providerEventIds : List String
  requestedTools : List (String × DecisionReference)
  decisionToolCalls : List (DecisionReference × String)
  startedTools : List String
  finishedTools : List String
  state : AgentRunState
  terminalSeen : Bool
  startedSeen : Bool

namespace Seen

/-- Before the first event. -/
def nothing : Seen := ⟨GENESIS_EVENT_DIGEST, [], [], [], [], [], .running, false, false⟩

/-- The digest and the place of an event in the chain. -/
def bound (D : Digests) (runId handleId : Uuid) (expectedSequence : Nat) (s : Seen)
    (e : AgentRunEvent) : Except AgentRunEventChainError Unit := do
  if s.terminalSeen then throw ⟨"event_after_terminal"⟩
  if e.eventDigest ≠ e.computeDigest D then throw ⟨"agent_run_event_digest_mismatch"⟩
  if e.sequence ≠ expectedSequence ∨ e.runId ≠ runId ∨ e.handleId ≠ handleId ∨
      e.previousEventDigest ≠ s.previousDigest then
    throw ⟨"event_chain_binding_mismatch"⟩

/-- A start, and the identity that the provider gave an event. -/
def identified (s : Seen) (e : AgentRunEvent) : Except AgentRunEventChainError Seen := do
  if e.eventType = .started ∧ s.startedSeen then throw ⟨"duplicate_started_event"⟩
  let s := { s with startedSeen := s.startedSeen || e.eventType = .started }
  match e.providerEventId with
  | none => return s
  | some id =>
      if id ∈ s.providerEventIds then throw ⟨"duplicate_provider_event_id"⟩
      return { s with providerEventIds := id :: s.providerEventIds }

/-- The reference of an event on a tool call that was requested and is not finished. -/
def onOpenCall (s : Seen) (call : String) (e : AgentRunEvent) :
    Except AgentRunEventChainError Unit := do
  match s.requestedTools.lookup call with
  | none => throw ⟨"tool_event_prerequisite_missing"⟩
  | some requested =>
      if call ∈ s.finishedTools then throw ⟨"tool_event_prerequisite_missing"⟩
      let reference ← effectAuthorizationReference e
      if reference ≠ requested then throw ⟨"tool_effect_authorization_mismatch"⟩

/-- The events of tool calls. -/
def tool (s : Seen) (e : AgentRunEvent) : Except AgentRunEventChainError Seen := do
  match e.eventType, e.toolCallId with
  | .toolRequested, none => throw ⟨"tool_event_prerequisite_missing"⟩
  | .toolRequested, some call =>
      if (s.requestedTools.lookup call).isSome then throw ⟨"tool_event_prerequisite_missing"⟩
      let reference ← effectAuthorizationReference e
      match s.decisionToolCalls.lookup reference with
      | none => pure ()
      | some prior => if prior ≠ call then throw ⟨"tool_effect_authorization_reused"⟩
      return { s with
        requestedTools := (call, reference) :: s.requestedTools
        decisionToolCalls := (reference, call) :: s.decisionToolCalls }
  | .toolBlocked, none | .toolStarted, none | .toolResult, none =>
      throw ⟨"tool_event_prerequisite_missing"⟩
  | .toolStarted, some call =>
      s.onOpenCall call e
      if call ∈ s.startedTools then throw ⟨"tool_event_prerequisite_missing"⟩
      return { s with startedTools := call :: s.startedTools }
  | .toolBlocked, some call =>
      s.onOpenCall call e
      if call ∈ s.startedTools then throw ⟨"tool_event_prerequisite_missing"⟩
      return { s with finishedTools := call :: s.finishedTools }
  | .toolResult, some call =>
      s.onOpenCall call e
      if call ∉ s.startedTools then throw ⟨"tool_event_prerequisite_missing"⟩
      return { s with finishedTools := call :: s.finishedTools }
  | .approvalRequired, some call =>
      s.onOpenCall call e
      return s
  | _, _ => return s

/-- The end of the loop body: the digest is chained, and a terminal event ends the run. -/
def closed (s : Seen) (e : AgentRunEvent) : Except AgentRunEventChainError Seen := do
  let s := { s with previousDigest := e.eventDigest }
  match e.eventType.terminalState with
  | none => return s
  | some state =>
      if s.requestedTools.any fun entry => entry.1 ∉ s.finishedTools then
        throw ⟨"terminal_with_unresolved_tool_call"⟩
      return { s with state, terminalSeen := true }

/-- The loop body. -/
def pass (D : Digests) (runId handleId : Uuid) (expectedSequence : Nat) (s : Seen)
    (e : AgentRunEvent) : Except AgentRunEventChainError Seen := do
  s.bound D runId handleId expectedSequence e
  let s ← s.identified e
  let s ← s.tool e
  s.closed e

/-- The loop, over the events from a sequence on. -/
def passAll (D : Digests) (runId handleId : Uuid) :
    Nat → Seen → List AgentRunEvent → Except AgentRunEventChainError Seen
  | _, s, [] => return s
  | expectedSequence, s, e :: events => do
      let s ← s.pass D runId handleId expectedSequence e
      passAll D runId handleId (expectedSequence + 1) s events

end Seen

/-- `validate_agent_run_event_chain`. -/
def validateAgentRunEventChain (D : Digests) (events : List AgentRunEvent) :
    Except AgentRunEventChainError AgentRunState :=
  match events with
  | [] => .error ⟨"event_stream_requires_started"⟩
  | first :: _ =>
      if first.eventType ≠ .started then .error ⟨"event_stream_requires_started"⟩
      else (·.state) <$> Seen.passAll D first.runId first.handleId 1 Seen.nothing events

end Corvus.Agent
