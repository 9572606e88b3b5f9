import Corvus.Agent.Providers
import Corvus.Authorization.Records

/-!
# Requests for agent runs

The request, the handle and the results of `domain/agent_runtime.py`, and the context of
`domain/request.py`, with the digests that bind them.
-/

namespace Corvus.Agent

open Authorization (ClientSurface ScopeKind jsonTime)

/-! ## Decimals -/

/-- A finite `Decimal`: its sign, its digits and its exponent. -/
structure Decimal where
  negative : Bool
  coefficient : Nat
  exponent : Int
deriving DecidableEq, Repr

namespace Decimal

/-- The digits without the zeros at their end, of at most so many of them. -/
def stripped : Nat → Nat → Int → Nat × Int
  | 0, coefficient, exponent => (coefficient, exponent)
  | fuel + 1, coefficient, exponent =>
      if coefficient % 10 = 0 then stripped fuel (coefficient / 10) (exponent + 1)
      else (coefficient, exponent)

/-- `_canonical_decimal`. -/
def canonical (d : Decimal) : String :=
  if d.coefficient = 0 then "0"
  else
    let (coefficient, exponent) := stripped d.coefficient d.coefficient d.exponent
    (if d.negative then "-" else "") ++ toString coefficient ++
      if exponent = 0 then "" else (if 0 < exponent then "E+" else "E") ++ toString exponent

example : canonical ⟨false, 1200, -1⟩ = "12E+1" := by decide +kernel

/-- Whether the number is greater than zero. -/
def positive (d : Decimal) : Bool := 0 < d.coefficient && !d.negative

end Decimal

/-! ## The request -/

structure AgentRunRequest where
  runId : Uuid
  workspaceId : Uuid
  projectId : Option Uuid
  workflowId : Option Uuid
  workItemId : Option Uuid
  providerBindingId : Uuid
  providerBindingVersion : Nat
  providerBindingDigest : String
  model : String
  effort : String
  messages : Option (List String)
  prompt : Option String
  untrustedContextRefIds : List Uuid
  authorizationProofId : Uuid
  authorizationProofDigest : String
  autonomyGrantId : Uuid
  autonomyGrantDigest : String
  credentialGrantIds : List Uuid
  credentialProofId : Option Uuid
  credentialProofDigest : Option String
  budgetProofId : Option Uuid
  budgetProofDigest : Option String
  killSwitchProofId : Uuid
  killSwitchProofDigest : String
  sandboxProfile : String
  filesystemEnvelope : List String
  networkEnvelope : List String
  toolEnvelope : List String
  requestedEffectClasses : List String
  providerSpendLimit : Decimal
  corvusBudgetLimit : Decimal
  budgetUnit : String
  budgetRequestedAmount : Nat
  approvalLimit : Nat
  maxRetries : Nat
  maxTurns : Nat
  deadline : Instant
  maxOutputTokens : Nat
  maxOutputBytes : Nat
  idempotencyKey : String
  resumeHandleId : Option Uuid

/-- The elements of a set in the order of their JSON texts. -/
def jsonSet (items : List String) : Json :=
  .arr ((items.map Json.str).insertionSort fun a b => Json.dumps a ≤ Json.dumps b)

def jsonTexts (items : List String) : Json := .arr (items.map .str)

def jsonIds (ids : List Uuid) : Json := .arr (ids.map fun id => .str id.text)

/-- The fields that a resumption may not change. -/
def AgentRunRequest.immutableFields (r : AgentRunRequest) : List (String × Json) := [
  ("run_id", .str r.runId.text),
  ("workspace_id", .str r.workspaceId.text),
  ("project_id", optional Uuid.text r.projectId),
  ("workflow_id", optional Uuid.text r.workflowId),
  ("work_item_id", optional Uuid.text r.workItemId),
  ("provider_binding_id", .str r.providerBindingId.text),
  ("provider_binding_version", .int r.providerBindingVersion),
  ("provider_binding_digest", .str r.providerBindingDigest),
  ("model", .str r.model),
  ("effort", .str r.effort),
  ("messages", (r.messages.map jsonTexts).getD .null),
  ("prompt", optional id r.prompt),
  ("untrusted_context_ref_ids", jsonIds r.untrustedContextRefIds),
  ("sandbox_profile", .str r.sandboxProfile),
  ("filesystem_envelope", jsonTexts r.filesystemEnvelope),
  ("network_envelope", jsonTexts r.networkEnvelope),
  ("tool_envelope", jsonTexts r.toolEnvelope),
  ("requested_effect_classes", jsonSet r.requestedEffectClasses),
  ("provider_spend_limit", .str r.providerSpendLimit.canonical),
  ("corvus_budget_limit", .str r.corvusBudgetLimit.canonical),
  ("budget_unit", .str r.budgetUnit),
  ("budget_requested_amount", .int r.budgetRequestedAmount),
  ("approval_limit", .int r.approvalLimit),
  ("max_retries", .int r.maxRetries),
  ("max_turns", .int r.maxTurns),
  ("deadline", .str (canonicalDatetime r.deadline)),
  ("max_output_tokens", .int r.maxOutputTokens),
  ("max_output_bytes", .int r.maxOutputBytes),
  ("idempotency_key", .str r.idempotencyKey)]

/-- `_REFRESHABLE_AGENT_RUN_FIELDS`. -/
def AgentRunRequest.refreshableFields (r : AgentRunRequest) : List (String × Json) := [
  ("authorization_proof_id", .str r.authorizationProofId.text),
  ("authorization_proof_digest", .str r.authorizationProofDigest),
  ("autonomy_grant_id", .str r.autonomyGrantId.text),
  ("autonomy_grant_digest", .str r.autonomyGrantDigest),
  ("credential_grant_ids", jsonIds r.credentialGrantIds),
  ("credential_proof_id", optional Uuid.text r.credentialProofId),
  ("credential_proof_digest", optional id r.credentialProofDigest),
  ("budget_proof_id", optional Uuid.text r.budgetProofId),
  ("budget_proof_digest", optional id r.budgetProofDigest),
  ("kill_switch_proof_id", .str r.killSwitchProofId.text),
  ("kill_switch_proof_digest", .str r.killSwitchProofDigest),
  ("resume_handle_id", optional Uuid.text r.resumeHandleId)]

/-- `compute_agent_run_immutable_digest`. -/
def AgentRunRequest.immutableRequestDigest (D : Digests) (r : AgentRunRequest) : String :=
  D.sha256 (Json.dumps (.obj r.immutableFields))

/-- `compute_agent_run_request_digest`, of every field and of the computed one. -/
def computeAgentRunRequestDigest (D : Digests) (r : AgentRunRequest) : String :=
  D.sha256 (Json.dumps (.obj (r.immutableFields ++ r.refreshableFields ++
    [("immutable_request_digest", .str (r.immutableRequestDigest D))])))

/-! ## Handles and results -/

structure AgentRunHandle where
  id : Uuid
  runId : Uuid
  providerBindingId : Uuid
  createdAt : Instant
  providerSessionRef : Option String
  state : AgentRunState

def AgentRunHandle.valid (h : AgentRunHandle) : Bool := h.providerSessionRef.all (bounded 2048)

structure AgentRunStartResult where
  handle : AgentRunHandle
  replayed : Bool

structure CancellationResult where
  handleId : Uuid
  handle : Option AgentRunHandle
  accepted : Bool
  terminal : Bool
  reasonCode : String
  timestamp : Instant

/-- The terminal states of a run. -/
def AgentRunState.terminal : AgentRunState → Bool
  | running => false
  | completed | failed | cancelled => true

/-! ## The context -/

def ScopeKind.value : ScopeKind → String
  | .workspace => "workspace"
  | .project => "project"
  | .channel => "channel"
  | .thread => "thread"
  | .conversation => "conversation"

def ClientSurface.value : ClientSurface → String
  | .cli => "cli"
  | .desktop => "desktop"
  | .web => "web"
  | .channel => "channel"

structure RequestContext where
  id : Uuid
  deploymentProfileId : Uuid
  deploymentInstanceId : Uuid
  workspaceId : Uuid
  workspaceAuthorityEpoch : Nat
  workspaceAuthorityGeneration : Nat
  authorityStateRoot : String
  authorityEpochCredentialId : Uuid
  authorityCommitReceiptId : Uuid
  authorityProofDigest : String
  scopeKind : ScopeKind
  scopeId : Uuid
  scopeDigest : String
  audiencePolicySnapshotId : Uuid
  audiencePolicyDigest : String
  requesterId : Uuid
  clientContextId : Uuid
  transportPrincipalId : Option Uuid
  agentId : Uuid
  agentGrantId : Uuid
  accessBundleId : Uuid
  executionPlacementId : Option Uuid
  policyDigest : String
  authorizationSnapshotId : Uuid
  authorizationSnapshotDigest : String
  authorizationSigningKeyVersionId : Uuid
  idempotencyKey : String
  correlationId : Uuid

def RequestContext.json (c : RequestContext) : Json :=
  .obj [
    ("id", .str c.id.text),
    ("deployment_profile_id", .str c.deploymentProfileId.text),
    ("deployment_instance_id", .str c.deploymentInstanceId.text),
    ("workspace_id", .str c.workspaceId.text),
    ("workspace_authority_epoch", .int c.workspaceAuthorityEpoch),
    ("workspace_authority_generation", .int c.workspaceAuthorityGeneration),
    ("authority_state_root", .str c.authorityStateRoot),
    ("authority_epoch_credential_id", .str c.authorityEpochCredentialId.text),
    ("authority_commit_receipt_id", .str c.authorityCommitReceiptId.text),
    ("authority_proof_digest", .str c.authorityProofDigest),
    ("scope_kind", .str (ScopeKind.value c.scopeKind)),
    ("scope_id", .str c.scopeId.text),
    ("scope_digest", .str c.scopeDigest),
    ("audience_policy_snapshot_id", .str c.audiencePolicySnapshotId.text),
    ("audience_policy_digest", .str c.audiencePolicyDigest),
    ("requester_id", .str c.requesterId.text),
    ("client_context_id", .str c.clientContextId.text),
    ("transport_principal_id", optional Uuid.text c.transportPrincipalId),
    ("agent_id", .str c.agentId.text),
    ("agent_grant_id", .str c.agentGrantId.text),
    ("access_bundle_id", .str c.accessBundleId.text),
    ("execution_placement_id", optional Uuid.text c.executionPlacementId),
    ("policy_digest", .str c.policyDigest),
    ("authorization_snapshot_id", .str c.authorizationSnapshotId.text),
    ("authorization_snapshot_digest", .str c.authorizationSnapshotDigest),
    ("authorization_signing_key_version_id", .str c.authorizationSigningKeyVersionId.text),
    ("idempotency_key", .str c.idempotencyKey),
    ("correlation_id", .str c.correlationId.text)]

end Corvus.Agent
