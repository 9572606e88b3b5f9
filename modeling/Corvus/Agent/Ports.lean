import Corvus.Agent.Requests
import Corvus.Library.Dialogue

/-!
# Ports of the run coordinator

The contracts of `application/ports.py` for agent runs: what the coordinator asks the
authorization, the audit, the runtime and the clock, and what each of them may answer. An
answer is plain data, which the coordinator has to check itself.
-/

namespace Corvus.Agent

open Authorization (ClientSurface ScopeKind jsonTime)

inductive AgentRunOperation where
  | start | resume | cancel
deriving DecidableEq, Repr

def AgentRunOperation.value : AgentRunOperation → String
  | start => "agent_run.start"
  | resume => "agent_run.resume"
  | cancel => "agent_run.cancel"

/-! ## The authorization request -/

structure AgentRunAuthorizationRequest where
  context : RequestContext
  clientSurface : ClientSurface
  operation : AgentRunOperation
  request : AgentRunRequest
  handle : Option AgentRunHandle
  canonicalRequestDigest : String
  currentKillSwitchProofId : Option Uuid
  currentKillSwitchProofDigest : Option String

namespace AgentRunAuthorizationRequest

def validateAuthorityBinding (r : AgentRunAuthorizationRequest) : Except String Unit := do
  refuse (r.context.workspaceId ≠ r.request.workspaceId) "agent_run_workspace_mismatch"
  match r.context.scopeKind with
  | .project =>
      refuse (some r.context.scopeId ≠ r.request.projectId) "agent_run_project_scope_mismatch"
  | .workspace =>
      refuse (r.context.scopeId ≠ r.context.workspaceId ∨ r.request.projectId.isSome)
        "agent_run_workspace_scope_mismatch"
  | .channel | .thread | .conversation => .error "agent_run_scope_kind_unsupported"
  refuse (r.context.idempotencyKey ≠ r.request.idempotencyKey)
    "agent_run_idempotency_key_mismatch"
  refuse (r.context.authorizationSnapshotId ≠ r.request.authorizationProofId ∨
      r.context.authorizationSnapshotDigest ≠ r.request.authorizationProofDigest)
    "agent_run_authorization_snapshot_mismatch"

def validateOperationBinding (D : Digests) (r : AgentRunAuthorizationRequest) :
    Except String Unit := do
  refuse (r.canonicalRequestDigest ≠ computeAgentRunRequestDigest D r.request)
    "agent_run_request_digest_mismatch"
  refuse (r.handle.any (·.runId ≠ r.request.runId)) "agent_run_handle_run_mismatch"
  refuse (r.handle.any (·.providerBindingId ≠ r.request.providerBindingId))
    "agent_run_handle_provider_mismatch"
  match r.operation with
  | .start =>
      refuse (r.handle.isSome = true) "agent_run_handle_unsolicited"
      refuse (r.request.resumeHandleId.isSome = true) "agent_run_resume_handle_unsolicited"
      refuse (r.currentKillSwitchProofId.isSome ∨ r.currentKillSwitchProofDigest.isSome)
        "agent_run_current_kill_switch_proof_unsolicited"
  | .resume =>
      refuse (r.handle = none ∨ r.request.resumeHandleId ≠ r.handle.map (·.id))
        "agent_run_resume_handle_mismatch"
      refuse (r.currentKillSwitchProofId.isSome ∨ r.currentKillSwitchProofDigest.isSome)
        "agent_run_current_kill_switch_proof_unsolicited"
  | .cancel =>
      refuse (r.request.resumeHandleId.isSome = true) "agent_run_resume_handle_unsolicited"
      refuse (r.handle = none) "agent_run_handle_run_mismatch"
      refuse (r.currentKillSwitchProofId = none ∨ ¬ r.currentKillSwitchProofDigest.any isSha256)
        "agent_run_current_kill_switch_proof_required"

/-- The two validators of the model, of which the first to raise gives the reason. -/
def validate (D : Digests) (r : AgentRunAuthorizationRequest) : Except String Unit := do
  r.validateAuthorityBinding
  r.validateOperationBinding D

end AgentRunAuthorizationRequest

/-! ## The decision -/

/-- `^[a-z][a-z0-9]*(?:_[a-z0-9]+)*$`. -/
def isReasonCode (s : String) : Bool :=
  let word (cs : List Char) : Bool := !cs.isEmpty && cs.all fun c => c.isLower || c.isDigit
  s.toList.head?.any Char.isLower && (s.toList.splitOn '_').all word

/-- The pattern and the length that a reason code of a record must have. -/
def validReasonCode (s : String) : Bool := isReasonCode s && s.length ≤ 200

structure AgentRunAuthorizationDecision where
  allowed : Bool
  reasonCode : String
  authorizationSnapshotId : Uuid
  canonicalRequestDigest : String
  immutableRequestDigest : String
  providerBindingVersion : Nat
  providerBindingDigest : String
  autonomyGrantDigest : String
  credentialProofDigest : Option String
  budgetProofDigest : Option String
  killSwitchProofId : Uuid
  killSwitchProofDigest : String
  evaluatedAt : Instant

def AgentRunAuthorizationDecision.valid (d : AgentRunAuthorizationDecision) : Bool :=
  validReasonCode d.reasonCode && isSha256 d.canonicalRequestDigest &&
    isSha256 d.immutableRequestDigest && 1 ≤ d.providerBindingVersion &&
    isSha256 d.providerBindingDigest && isSha256 d.autonomyGrantDigest &&
    d.credentialProofDigest.all isSha256 && d.budgetProofDigest.all isSha256 &&
    isSha256 d.killSwitchProofDigest

/-! ## The audit event -/

inductive AuditPhase where
  | authorization | outcome

def AuditPhase.value : AuditPhase → String
  | authorization => "authorization"
  | outcome => "outcome"

inductive AuditOutcome where
  | allow | deny | success | failure
deriving DecidableEq, Repr

def AuditOutcome.value : AuditOutcome → String
  | allow => "allow"
  | deny => "deny"
  | success => "success"
  | failure => "failure"

/-- `valid_phase_outcomes`. -/
def AuditPhase.outcomes : AuditPhase → List AuditOutcome
  | authorization => [.allow, .deny]
  | outcome => [.success, .failure]

structure AgentRunAuditEvent where
  context : RequestContext
  clientSurface : ClientSurface
  operation : AgentRunOperation
  runId : Uuid
  handleId : Option Uuid
  providerBindingId : Uuid
  providerBindingVersion : Nat
  providerBindingDigest : String
  authorizationSnapshotId : Uuid
  authorizationSnapshotDigest : String
  canonicalRequestDigest : String
  immutableRequestDigest : String
  autonomyGrantId : Uuid
  autonomyGrantDigest : String
  credentialProofId : Option Uuid
  credentialProofDigest : Option String
  budgetProofId : Option Uuid
  budgetProofDigest : Option String
  killSwitchProofId : Uuid
  killSwitchProofDigest : String
  phase : AuditPhase
  outcome : AuditOutcome
  reasonCode : String
  timestamp : Instant

def AgentRunAuditEvent.valid (e : AgentRunAuditEvent) : Bool :=
  1 ≤ e.providerBindingVersion && isSha256 e.providerBindingDigest &&
    isSha256 e.authorizationSnapshotDigest && isSha256 e.canonicalRequestDigest &&
    isSha256 e.immutableRequestDigest && isSha256 e.autonomyGrantDigest &&
    e.credentialProofDigest.all isSha256 && e.budgetProofDigest.all isSha256 &&
    isSha256 e.killSwitchProofDigest && validReasonCode e.reasonCode &&
    e.authorizationSnapshotId = e.context.authorizationSnapshotId &&
    e.authorizationSnapshotDigest = e.context.authorizationSnapshotDigest &&
    e.outcome ∈ e.phase.outcomes &&
    e.credentialProofId.isNone = e.credentialProofDigest.isNone &&
    e.budgetProofId.isNone = e.budgetProofDigest.isNone

/-- `compute_agent_run_audit_event_digest`. -/
def computeAgentRunAuditEventDigest (D : Digests) (e : AgentRunAuditEvent) : String :=
  D.sha256 (Json.dumps (.obj [
    ("context", e.context.json),
    ("client_surface", .str (ClientSurface.value e.clientSurface)),
    ("operation", .str e.operation.value),
    ("run_id", .str e.runId.text),
    ("handle_id", optional Uuid.text e.handleId),
    ("provider_binding_id", .str e.providerBindingId.text),
    ("provider_binding_version", .int e.providerBindingVersion),
    ("provider_binding_digest", .str e.providerBindingDigest),
    ("authorization_snapshot_id", .str e.authorizationSnapshotId.text),
    ("authorization_snapshot_digest", .str e.authorizationSnapshotDigest),
    ("canonical_request_digest", .str e.canonicalRequestDigest),
    ("immutable_request_digest", .str e.immutableRequestDigest),
    ("autonomy_grant_id", .str e.autonomyGrantId.text),
    ("autonomy_grant_digest", .str e.autonomyGrantDigest),
    ("credential_proof_id", optional Uuid.text e.credentialProofId),
    ("credential_proof_digest", optional id e.credentialProofDigest),
    ("budget_proof_id", optional Uuid.text e.budgetProofId),
    ("budget_proof_digest", optional id e.budgetProofDigest),
    ("kill_switch_proof_id", .str e.killSwitchProofId.text),
    ("kill_switch_proof_digest", .str e.killSwitchProofDigest),
    ("phase", .str e.phase.value),
    ("outcome", .str e.outcome.value),
    ("reason_code", .str e.reasonCode),
    ("timestamp", jsonTime e.timestamp)]))

/-! ## The audit receipt -/

/-- A receipt as the port hands it over: nothing in it has been checked. -/
structure AgentRunAuditReceipt where
  sequence : Int
  previousReceiptDigest : String
  eventDigest : String
  receiptDigest : String
  acknowledged : Bool

/-- `compute_agent_run_audit_receipt_digest`, of a text that is ASCII throughout. -/
def computeAgentRunAuditReceiptDigest (D : Digests) (sequence : Int)
    (previousReceiptDigest eventDigest : String) (acknowledged : Bool) : String :=
  D.sha256 (Json.dumpsAscii (.obj [
    ("event_digest", .str eventDigest),
    ("previous_receipt_digest", .str previousReceiptDigest),
    ("sequence", .int sequence),
    ("acknowledged", .bool acknowledged)]))

/-! ## The ports -/

/-- An exception of the runtime, with what the coordinator reads of it. -/
structure Fault where
  reasonCode : Option String
  cancellationHandleIdMismatch : Bool

/-- Everything that the coordinator asks of others. -/
inductive Port where
  | authorize (request : AgentRunAuthorizationRequest)
  | clock
  | record (event : AgentRunAuditEvent)
  | discover (query : ProviderDiscoveryQuery)
  | capabilities (binding : ProviderBinding)
  | health (binding : ProviderBinding)
  | start (request : AgentRunRequest)
  | resume (handle : AgentRunHandle) (requestWithFreshProofs : AgentRunRequest)
  | cancel (handle : AgentRunHandle) (currentKillSwitchProofId : Uuid)
      (currentKillSwitchProofDigest : String)

namespace Port

/-- What may come back: a value of the type that the port promises, or an exception or a
value of another type. A time without a zone counts among the latter. -/
def Answer : Port → Type
  | authorize _ => Option AgentRunAuthorizationDecision
  | clock => Option Instant
  | record _ => Option AgentRunAuditReceipt
  | discover _ => Option (List ProviderCandidate)
  | capabilities _ => Option AgentCapabilities
  | health _ => Option ProviderHealth
  | start _ => Except Fault AgentRunStartResult
  | resume _ _ => Option AgentRunHandle
  | cancel _ _ _ => Except Fault CancellationResult

/-- The calls that act on a run. -/
def sideEffect : Port → Bool
  | start _ | resume _ _ | cancel _ _ _ => true
  | authorize _ | clock | record _ | discover _ | capabilities _ | health _ => false

def isRecord : Port → Bool
  | record _ => true
  | _ => false

/-- The calls of the runtime that the coordinator awaits. -/
def awaited : Port → Bool
  | discover _ | health _ | start _ | resume _ _ | cancel _ _ _ => true
  | authorize _ | clock | record _ | capabilities _ => false

end Port

/-- A procedure that consults the ports. -/
abbrev Consult (α : Type) := Dialogue Port Port.Answer α

namespace Consult

variable (request : AgentRunRequest) (handle : AgentRunHandle) (binding : ProviderBinding)

abbrev authorize (request : AgentRunAuthorizationRequest) :
    Consult (Option AgentRunAuthorizationDecision) := Dialogue.query (Port.authorize request)

abbrev clock : Consult (Option Instant) := Dialogue.query Port.clock

abbrev record (event : AgentRunAuditEvent) : Consult (Option AgentRunAuditReceipt) :=
  Dialogue.query (Port.record event)

abbrev discover (discovery : ProviderDiscoveryQuery) : Consult (Option (List ProviderCandidate)) :=
  Dialogue.query (Port.discover discovery)

abbrev capabilities : Consult (Option AgentCapabilities) := Dialogue.query (Port.capabilities binding)

abbrev health : Consult (Option ProviderHealth) := Dialogue.query (Port.health binding)

abbrev start : Consult (Except Fault AgentRunStartResult) := Dialogue.query (Port.start request)

abbrev resume : Consult (Option AgentRunHandle) := Dialogue.query (Port.resume handle request)

abbrev cancel (proofId : Uuid) (proofDigest : String) :
    Consult (Except Fault CancellationResult) := Dialogue.query (Port.cancel handle proofId proofDigest)

end Consult

end Corvus.Agent
