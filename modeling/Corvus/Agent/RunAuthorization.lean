import Corvus.Agent.Coordinator
import Corvus.Agent.Snapshots
import Corvus.Authorization.Evaluator

/-!
# The authorization of runs

`VerifiedAgentRunAuthorizationAdapter` of `infrastructure/agent_run_authorization.py`, with the
autonomy grants of `domain/agent_runtime.py` and the receipts of the evidence. One predicate
binds the verified inputs to a start, a resumption or a cancellation; then the capabilities are
evaluated, and the snapshot of that decision has to be the signed one.
-/

namespace Corvus.Agent

open Authorization

/-! ## Autonomy grants -/

inductive AutonomyProfile where
  | reviewFirst | autoWithinLimits | fullAutoWhileAway

def AutonomyProfile.value : AutonomyProfile → String
  | reviewFirst => "review_first"
  | autoWithinLimits => "auto_within_limits"
  | fullAutoWhileAway => "full_auto_while_away"

structure AutonomyGrant where
  id : Uuid
  workspaceId : Uuid
  projectId : Option Uuid
  profile : AutonomyProfile
  allowedRoots : List String
  allowedEffectClasses : List String
  deniedEffectClasses : List String
  allowedSandboxProfiles : List String
  allowedToolIds : List String
  allowedNetworkDestinations : List String
  credentialGrantIds : List Uuid
  wallClockDeadline : Instant
  providerSpendCeiling : Decimal
  corvusBudgetCeiling : Decimal
  maxTurns : Nat
  maxOutputTokens : Nat
  maxOutputBytes : Nat
  maxRetries : Nat
  approvalCeiling : Nat
  alwaysBlockEffects : List String
  notificationPolicy : String
  summaryPolicy : String
  issuerPrincipalId : Uuid
  issuedAt : Instant
  expiresAt : Instant
  policyDigest : String
  revokedAt : Option Instant

/-- `compute_autonomy_grant_digest`. -/
def computeAutonomyGrantDigest (D : Digests) (g : AutonomyGrant) : String :=
  D.sha256 (Json.dumps (.obj [
    ("id", .str g.id.text),
    ("workspace_id", .str g.workspaceId.text),
    ("project_id", optional Uuid.text g.projectId),
    ("profile", .str g.profile.value),
    ("allowed_roots", jsonTexts g.allowedRoots),
    ("allowed_effect_classes", jsonSet g.allowedEffectClasses),
    ("denied_effect_classes", jsonSet g.deniedEffectClasses),
    ("allowed_sandbox_profiles", jsonSet g.allowedSandboxProfiles),
    ("allowed_tool_ids", jsonSet g.allowedToolIds),
    ("allowed_network_destinations", jsonTexts g.allowedNetworkDestinations),
    ("credential_grant_ids", jsonIds g.credentialGrantIds),
    ("wall_clock_deadline", .str (canonicalDatetime g.wallClockDeadline)),
    ("provider_spend_ceiling", .str g.providerSpendCeiling.canonical),
    ("corvus_budget_ceiling", .str g.corvusBudgetCeiling.canonical),
    ("max_turns", .int g.maxTurns),
    ("max_output_tokens", .int g.maxOutputTokens),
    ("max_output_bytes", .int g.maxOutputBytes),
    ("max_retries", .int g.maxRetries),
    ("approval_ceiling", .int g.approvalCeiling),
    ("always_block_effects", jsonSet g.alwaysBlockEffects),
    ("notification_policy", .str g.notificationPolicy),
    ("summary_policy", .str g.summaryPolicy),
    ("issuer_principal_id", .str g.issuerPrincipalId.text),
    ("issued_at", .str (canonicalDatetime g.issuedAt)),
    ("expires_at", .str (canonicalDatetime g.expiresAt)),
    ("policy_digest", .str g.policyDigest),
    ("revoked_at", optional canonicalDatetime g.revokedAt)]))

/-- `compute_agent_run_runtime_limit_digest`. -/
def computeAgentRunRuntimeLimitDigest (D : Digests) (r : AgentRunRequest) : String :=
  D.sha256 (Json.dumps (.obj [
    ("model", .str r.model),
    ("effort", .str r.effort),
    ("provider_spend_limit", .str r.providerSpendLimit.canonical),
    ("corvus_budget_limit", .str r.corvusBudgetLimit.canonical),
    ("deadline", .str (canonicalDatetime r.deadline)),
    ("max_turns", .int r.maxTurns),
    ("max_retries", .int r.maxRetries),
    ("approval_limit", .int r.approvalLimit),
    ("max_output_tokens", .int r.maxOutputTokens),
    ("max_output_bytes", .int r.maxOutputBytes),
    ("sandbox_profile", .str r.sandboxProfile),
    ("filesystem_envelope", jsonTexts r.filesystemEnvelope),
    ("network_envelope", jsonTexts r.networkEnvelope),
    ("tool_envelope", jsonTexts r.toolEnvelope),
    ("requested_effect_classes", jsonSet r.requestedEffectClasses)]))

/-- A decimal in units of ten to the power of an exponent that is not greater than its own. -/
def Decimal.scaled (d : Decimal) (exponent : Int) : Int :=
  (if d.negative then -1 else 1) * (d.coefficient * Nat.pow 10 (d.exponent - exponent).toNat : Nat)

def Decimal.exceeds (a b : Decimal) : Bool :=
  let exponent := min a.exponent b.exponent
  b.scaled exponent < a.scaled exponent

example : Decimal.exceeds ⟨false, 12, -1⟩ ⟨false, 1, 0⟩ = true := by decide

/-! ## Paths -/

/-- The root of a POSIX path. -/
def pathAnchor (path : String) : String :=
  match path.toList with
  | '/' :: '/' :: '/' :: _ => "/"
  | '/' :: '/' :: _ => "//"
  | '/' :: _ => "/"
  | _ => ""

def pathParts (path : String) : List (List Char) :=
  (path.toList.splitOn '/').filter fun part => part ≠ [] ∧ part ≠ ['.']

/-- `PurePath.is_relative_to`. -/
def isRelativeTo (path root : String) : Bool :=
  pathAnchor path = pathAnchor root ∧ pathParts root <+: pathParts path

/-! ## The inputs -/

inductive CredentialKind where
  | osKeyring | cloudVault | providerOauth | localConnector

def CredentialKind.value : CredentialKind → String
  | osKeyring => "os_keyring"
  | cloudVault => "cloud_vault"
  | providerOauth => "provider_oauth"
  | localConnector => "local_connector"

/-- The fields of a credential reference and of a budget proof that only the receipts read. -/
structure EvidenceFields where
  kind : CredentialKind
  opaqueLocator : String
  scopes : List String
  canonicalAccountClosureDigest : String

structure RequesterBundle extends AccessBundle where
  policyDigest : String

structure VerifiedAgentRunAuthorizationInputs where
  request : AuthorizationRequest
  authorityContext : Option AuthorityEvaluationContext
  evidenceFields : EvidenceFields
  requesterBundle : RequesterBundle
  requesterGrants : List CapabilityGrant
  agentGrant : Option AgentGrant
  agentBundle : AccessBundle
  agentCapabilities : List CapabilityGrant
  delegationGrants : List DelegationGrant
  snapshot : AuthorizationDecisionSnapshot
  snapshotExpected : AuthorizationSnapshotExpectedInputs
  snapshotVerification : AuthorizationSnapshotVerificationProof
  signingKey : WorkspaceSigningKeyVersion
  autonomyGrant : AutonomyGrant
  providerBinding : ProviderBinding
  killSwitchProofId : Uuid
  killSwitchProofDigest : String

/-! ## Receipts -/

def CredentialStatus.value : CredentialStatus → String
  | .active => "active"
  | .revoked => "revoked"
  | .expired => "expired"

def credentialRefJson (f : EvidenceFields) (r : CredentialRef) : Json := .obj [
  ("id", .str r.id.text),
  ("workspace_id", .str r.workspaceId.text),
  ("owner_principal_id", optional Uuid.text r.ownerPrincipalId),
  ("provider_connection_id", .str r.providerConnectionId.text),
  ("kind", .str f.kind.value),
  ("opaque_locator", .str f.opaqueLocator),
  ("scopes", jsonSet f.scopes),
  ("status", .str (CredentialStatus.value r.status)),
  ("expires_at", optional canonicalDatetime r.expiresAt),
  ("version", .int r.version),
  ("created_at", .str (canonicalDatetime r.createdAt)),
  ("updated_at", .str (canonicalDatetime r.updatedAt))]

def credentialProofJson (p : CredentialVerificationProof) : Json := .obj [
  ("request_context_id", .str p.requestContextId.text),
  ("workspace_id", .str p.workspaceId.text),
  ("provider_connection_id", .str p.providerConnectionId.text),
  ("credential_ref_id", .str p.credentialRefId.text),
  ("credential_ref_version", .int p.credentialRefVersion),
  ("credential_version_id", .str p.credentialVersionId.text),
  ("credential_grant_id", .str p.credentialGrantId.text),
  ("acting_agent_id", .str p.actingAgentId.text),
  ("execution_placement_id", .str p.executionPlacementId.text),
  ("operation", .str p.operation),
  ("rotation_epoch", .int p.rotationEpoch),
  ("nonce_digest", .str p.nonceDigest),
  ("use_limit", .int p.useLimit),
  ("use_count", .int p.useCount),
  ("issued_at", .str (canonicalDatetime p.issuedAt)),
  ("expires_at", .str (canonicalDatetime p.expiresAt)),
  ("credential_version_active", .bool p.credentialVersionActive),
  ("credential_grant_active", .bool p.credentialGrantActive),
  ("finalized", .bool p.finalized)]

def budgetProofJson (f : EvidenceFields) (p : BudgetRuntimeVerificationProof) : Json := .obj [
  ("request_context_id", .str p.requestContextId.text),
  ("workspace_id", .str p.workspaceId.text),
  ("scope_kind", .str (ScopeKind.value p.scopeKind)),
  ("scope_id", .str p.scopeId.text),
  ("action", .str p.action),
  ("budget_snapshot_ids", jsonIds p.budgetSnapshotIds),
  ("budget_snapshot_digest", .str p.budgetSnapshotDigest),
  ("runtime_limit_digest", .str p.runtimeLimitDigest),
  ("unit", .str p.unit),
  ("requested_amount", .int p.requestedAmount),
  ("canonical_account_ids", jsonIds p.canonicalAccountIds),
  ("canonical_account_closure_digest", .str f.canonicalAccountClosureDigest),
  ("expected_account_count", .int p.expectedAccountCount),
  ("minimum_remaining_amount", .int p.minimumRemainingAmount),
  ("runtime_limit_ms", .int p.runtimeLimitMs),
  ("runtime_consumed_ms", .int p.runtimeConsumedMs),
  ("period_starts_at", .str (canonicalDatetime p.periodStartsAt)),
  ("period_ends_at", .str (canonicalDatetime p.periodEndsAt)),
  ("observed_at", .str (canonicalDatetime p.observedAt)),
  ("expires_at", .str (canonicalDatetime p.expiresAt)),
  ("hierarchy_verified", .bool p.hierarchyVerified),
  ("period_non_overlapping_verified", .bool p.periodNonOverlappingVerified),
  ("all_accounts_active", .bool p.allAccountsActive),
  ("finalized", .bool p.finalized)]

section Receipts

variable (D : Digests) (f : EvidenceFields) (request : AuthorizationRequest)
  (context : Option AuthorityEvaluationContext)

def canonicalEvidenceReceipt (kind : String) (payload : Json) : Uuid × String :=
  let digest := D.sha256 (Json.dumps payload)
  (D.uuid5 ("corvus:" ++ kind ++ "-evidence:" ++ digest), digest)

/-- Whether a context comes with any credential evidence. -/
def credentialEvidencePresent : Bool :=
  context.any fun c => c.credentialRef.isSome || c.credentialVerificationProof.isSome ||
    c.expectedCredentialRotationEpoch.isSome || c.expectedCredentialNonceDigest.isSome

/-- Whether the evidence is about the credential that a request claims. -/
def CredentialEvidenceMatches (c : AuthorityEvaluationContext) (ref : CredentialRef)
    (proof : CredentialVerificationProof) : Prop :=
  some ref.id = request.credentialRefId ∧
    some ref.providerConnectionId = request.providerConnectionId ∧
    proof.requestContextId = request.requestContextId ∧
    proof.workspaceId = request.workspaceId ∧
    some proof.providerConnectionId = request.providerConnectionId ∧
    some proof.credentialRefId = request.credentialRefId ∧
    proof.credentialRefVersion = ref.version ∧
    some proof.credentialVersionId = request.credentialVersionId ∧
    some proof.credentialGrantId = request.credentialGrantId ∧
    proof.actingAgentId = request.actingAgentId ∧
    some proof.executionPlacementId = request.executionPlacementId ∧
    proof.operation = request.action ∧
    some proof.rotationEpoch = c.expectedCredentialRotationEpoch ∧
    some proof.nonceDigest = c.expectedCredentialNonceDigest

instance (c : AuthorityEvaluationContext) (ref : CredentialRef)
    (proof : CredentialVerificationProof) :
    Decidable (CredentialEvidenceMatches request c ref proof) := by
  unfold CredentialEvidenceMatches
  infer_instance

def canonicalCredentialEvidenceReceipt : Except String (Option (Uuid × String)) :=
  match request.providerConnectionId, request.credentialRefId, request.credentialVersionId,
    request.credentialGrantId with
  | none, none, none, none => do
    refuse (credentialEvidencePresent context) "credential_evidence_mismatch"
    return none
  | some connection, some refId, some version, some grant => do
    let placement ← present request.executionPlacementId "credential_evidence_mismatch"
    let c ← present context "credential_evidence_mismatch"
    let ref ← present c.credentialRef "credential_evidence_mismatch"
    let proof ← present c.credentialVerificationProof "credential_evidence_mismatch"
    require (CredentialEvidenceMatches request c ref proof) "credential_evidence_mismatch"
    return canonicalEvidenceReceipt D "credential" (.obj [
      ("claims", .obj [
        ("execution_placement_id", .str placement.text),
        ("provider_connection_id", .str connection.text),
        ("credential_ref_id", .str refId.text),
        ("credential_version_id", .str version.text),
        ("credential_grant_id", .str grant.text)]),
      ("credential_ref", credentialRefJson f ref),
      ("verification_proof", credentialProofJson proof),
      ("expected_rotation_epoch", .int proof.rotationEpoch),
      ("expected_nonce_digest", .str proof.nonceDigest)])
  | _, _, _, _ => .error "credential_evidence_mismatch"

/-- Whether a proof is about the budget that a request claims. -/
def BudgetEvidenceMatches (proof : BudgetRuntimeVerificationProof) : Prop :=
  proof.requestContextId = request.requestContextId ∧
    proof.workspaceId = request.workspaceId ∧
    proof.scopeKind = request.scopeKind ∧
    proof.scopeId = request.scopeId ∧
    proof.action = request.action ∧
    proof.budgetSnapshotIds = request.budgetSnapshotIds ∧
    some proof.budgetSnapshotDigest = request.budgetSnapshotDigest ∧
    some proof.runtimeLimitDigest = request.runtimeLimitDigest ∧
    some proof.unit = request.budgetUnit ∧
    some proof.requestedAmount = request.budgetRequestedAmount

instance (proof : BudgetRuntimeVerificationProof) :
    Decidable (BudgetEvidenceMatches request proof) := by
  unfold BudgetEvidenceMatches
  infer_instance

def canonicalBudgetEvidenceReceipt : Except String (Option (Uuid × String)) :=
  let proof := context.bind (·.budgetRuntimeVerificationProof)
  match request.budgetSnapshotIds, request.budgetSnapshotDigest, request.runtimeLimitDigest,
    request.budgetUnit, request.budgetRequestedAmount with
  | [], none, none, none, none => do
    refuse (proof.isSome = true) "budget_evidence_mismatch"
    return none
  | id :: ids, some digest, some limit, some unit, some amount => do
    let proof ← present proof "budget_evidence_mismatch"
    require (BudgetEvidenceMatches request proof) "budget_evidence_mismatch"
    return canonicalEvidenceReceipt D "budget" (.obj [
      ("claims", .obj [
        ("budget_snapshot_ids", jsonIds (id :: ids)),
        ("budget_snapshot_digest", .str digest),
        ("runtime_limit_digest", .str limit),
        ("budget_unit", .str unit),
        ("budget_requested_amount", .int amount)]),
      ("verification_proof", budgetProofJson f proof)])
  | _, _, _, _, _ => .error "budget_evidence_mismatch"

end Receipts

/-- A proof of a request that is there with its id and with its digest. -/
def proofPair : Option Uuid → Option String → Option (Uuid × String)
  | some id, some digest => some (id, digest)
  | _, _ => none

/-! ## The binding -/

section Binding

variable (D : Digests) (resolves : String → Bool) (r : AgentRunAuthorizationRequest)
  (i : VerifiedAgentRunAuthorizationInputs)

/-- The verified request is about this request, in its context. -/
def InputsMatch : Prop :=
  let context := r.context
  let request := i.request
  request.workspaceId = context.workspaceId ∧
    request.requestContextId = context.id ∧
    request.deploymentInstanceId = context.deploymentInstanceId ∧
    request.workspaceAuthorityEpoch = context.workspaceAuthorityEpoch ∧
    request.workspaceAuthorityGeneration = context.workspaceAuthorityGeneration ∧
    request.authorityStateRoot = context.authorityStateRoot ∧
    request.authorityEpochCredentialId = context.authorityEpochCredentialId ∧
    request.authorityCommitReceiptId = context.authorityCommitReceiptId ∧
    request.authorityProofDigest = context.authorityProofDigest ∧
    request.scopeKind = context.scopeKind ∧
    request.scopeId = context.scopeId ∧
    request.scopeDigest = context.scopeDigest ∧
    request.audiencePolicySnapshotId = context.audiencePolicySnapshotId ∧
    request.audiencePolicyDigest = context.audiencePolicyDigest ∧
    request.requesterId = context.requesterId ∧
    request.clientContextId = context.clientContextId ∧
    request.clientSurface = r.clientSurface ∧
    some request.transportPrincipalId = context.transportPrincipalId ∧
    request.actingAgentId = context.agentId ∧
    request.resourceKind = "agent_run" ∧
    request.resourceId = r.request.runId ∧
    request.action = r.operation.value ∧
    i.requesterBundle.id = context.accessBundleId ∧
    i.requesterBundle.policyDigest = context.policyDigest

def FilesystemAuthorized : Prop :=
  ∀ path ∈ r.request.filesystemEnvelope, pathAnchor path ≠ "" ∧ resolves path = true ∧
    ∃ root ∈ i.autonomyGrant.allowedRoots, isRelativeTo path root = true

/-- The grant is the one of the request. -/
def AutonomyNamed : Prop :=
  i.autonomyGrant.id = r.request.autonomyGrantId ∧
    i.autonomyGrant.workspaceId = r.request.workspaceId ∧
    i.autonomyGrant.projectId = r.request.projectId ∧
    computeAutonomyGrantDigest D i.autonomyGrant = r.request.autonomyGrantDigest

/-- The grant is in force: at a cancellation, its time and that of the run may be over. -/
def AutonomyInForce : Prop :=
  i.autonomyGrant.revokedAt = none ∧
    i.autonomyGrant.issuedAt ≤ i.request.evaluatedAt ∧
    (r.operation = .cancel ∨ i.request.evaluatedAt < i.autonomyGrant.expiresAt) ∧
    (r.operation = .cancel ∨ i.request.evaluatedAt < r.request.deadline)

/-- The grant covers all that the request asks for. -/
def AutonomyCovers (grant : AutonomyGrant) (request : AgentRunRequest) : Prop :=
  request.deadline ≤ grant.wallClockDeadline ∧
    request.deadline ≤ grant.expiresAt ∧
    grant.credentialGrantIds = request.credentialGrantIds ∧
    request.sandboxProfile ∈ grant.allowedSandboxProfiles ∧
    (∀ destination ∈ request.networkEnvelope,
      destination ∈ grant.allowedNetworkDestinations) ∧
    (∀ tool ∈ request.toolEnvelope, tool ∈ grant.allowedToolIds) ∧
    (∀ effect ∈ request.requestedEffectClasses, effect ∈ grant.allowedEffectClasses) ∧
    (∀ effect ∈ request.requestedEffectClasses,
      effect ∉ grant.deniedEffectClasses ∧ effect ∉ grant.alwaysBlockEffects) ∧
    request.providerSpendLimit.exceeds grant.providerSpendCeiling = false ∧
    request.corvusBudgetLimit.exceeds grant.corvusBudgetCeiling = false ∧
    request.approvalLimit ≤ grant.approvalCeiling ∧
    request.maxRetries ≤ grant.maxRetries ∧
    request.maxTurns ≤ grant.maxTurns ∧
    request.maxOutputTokens ≤ grant.maxOutputTokens ∧
    request.maxOutputBytes ≤ grant.maxOutputBytes

def ProviderBound (binding : ProviderBinding) (request : AgentRunRequest) : Prop :=
  binding.id = request.providerBindingId ∧
    binding.workspaceId = request.workspaceId ∧
    binding.projectId = request.projectId ∧
    binding.model = request.model ∧
    binding.version = request.providerBindingVersion ∧
    computeProviderBindingDigest D binding = request.providerBindingDigest

/-- The credential that the verified request claims is the one of the run and of its provider. -/
def CredentialBound (binding : ProviderBinding) (request : AgentRunRequest)
    (credentialRefId credentialGrantId : Option Uuid) : Prop :=
  request.credentialGrantIds = credentialGrantId.toList ∧
    (binding.transport = .httpApi → binding.credentialRefId ≠ none ∧
      binding.credentialRefId = credentialRefId ∧ credentialGrantId ≠ none) ∧
    (binding.transport = .localCli → credentialRefId = none ∧ credentialGrantId = none)

def WithinBudget : Prop :=
  some r.request.budgetUnit = i.request.budgetUnit ∧
    some r.request.budgetRequestedAmount = i.request.budgetRequestedAmount ∧
    some (computeAgentRunRuntimeLimitDigest D r.request) = i.request.runtimeLimitDigest

instance : Decidable (InputsMatch r i) := by
  unfold InputsMatch
  infer_instance

instance : Decidable (FilesystemAuthorized resolves r i) := by
  unfold FilesystemAuthorized
  infer_instance

instance : Decidable (AutonomyNamed D r i) := by
  unfold AutonomyNamed
  infer_instance

instance : Decidable (AutonomyInForce r i) := by
  unfold AutonomyInForce
  infer_instance

instance (grant : AutonomyGrant) (request : AgentRunRequest) :
    Decidable (AutonomyCovers grant request) := by
  unfold AutonomyCovers
  infer_instance

instance (binding : ProviderBinding) (request : AgentRunRequest) :
    Decidable (ProviderBound D binding request) := by
  unfold ProviderBound
  infer_instance

instance (binding : ProviderBinding) (request : AgentRunRequest)
    (credentialRefId credentialGrantId : Option Uuid) :
    Decidable (CredentialBound binding request credentialRefId credentialGrantId) := by
  unfold CredentialBound
  infer_instance

instance : Decidable (WithinBudget D r i) := by
  unfold WithinBudget
  infer_instance

/-- `_binding_denial`. -/
def bindingDenial : Except String Unit := do
  require (r.context.transportPrincipalId.isSome = true)
    "agent_run_transport_principal_missing"
  require (InputsMatch r i) "agent_run_authorization_input_mismatch"
  require (∀ grant ∈ i.agentGrant, grant.id = r.context.agentGrantId)
    "agent_run_agent_grant_mismatch"
  require (AutonomyNamed D r i ∧ AutonomyInForce r i ∧
      AutonomyCovers i.autonomyGrant r.request ∧ FilesystemAuthorized resolves r i)
    "stale_autonomy_grant"
  require (ProviderBound D i.providerBinding r.request) "provider_binding_digest_mismatch"
  require (r.operation = .cancel ∨ i.providerBinding.status = .available)
    "agent_run_provider_unavailable"
  require (r.operation = .cancel →
      i.providerBinding.capabilities.providerSideCancellation = .supported)
    "agent_run_capability_unavailable"
  require (CredentialBound i.providerBinding r.request i.request.credentialRefId
      i.request.credentialGrantId) "stale_credential_proof"
  require (r.operation = .cancel ∨ WithinBudget D r i) "agent_run_over_budget"
  require (canonicalCredentialEvidenceReceipt D i.evidenceFields i.request i.authorityContext =
      .ok (proofPair r.request.credentialProofId r.request.credentialProofDigest))
    "stale_credential_proof"
  require (r.operation = .cancel ∨
      canonicalBudgetEvidenceReceipt D i.evidenceFields i.request i.authorityContext =
        .ok (proofPair r.request.budgetProofId r.request.budgetProofDigest))
    "agent_run_over_budget"
  require (i.killSwitchProofId = r.killSwitchProofId ∧
      i.killSwitchProofDigest = r.killSwitchProofDigest) "agent_run_kill_switch_active"

end Binding

/-! ## The adapter -/

section Adapter

variable (V : Verification) (resolves : String → Bool)
  (getSnapshot : (workspaceId snapshotId : Uuid) → Option AuthorizationDecisionSnapshot)
  (r : AgentRunAuthorizationRequest) (i : VerifiedAgentRunAuthorizationInputs)

/-- `_snapshot_denial`. -/
def snapshotDenial (currentReasonCode : String) : Except String Unit := do
  let snapshot := i.snapshot
  let context := r.context
  require (getSnapshot context.workspaceId context.authorizationSnapshotId = some snapshot)
    "authorization_snapshot_missing"
  require (snapshot.id = context.authorizationSnapshotId ∧
      i.snapshotExpected.authorizationSnapshotDigest = context.authorizationSnapshotDigest ∧
      i.signingKey.id = context.authorizationSigningKeyVersionId ∧
      snapshot.requestContextId = context.id ∧
      snapshot.workspaceId = context.workspaceId ∧
      snapshot.scopeKind = context.scopeKind ∧
      snapshot.scopeId = context.scopeId ∧
      snapshot.requesterId = context.requesterId ∧
      some snapshot.transportPrincipalId = context.transportPrincipalId ∧
      snapshot.decision = .allow ∧
      snapshot.reasonCode = currentReasonCode)
    "authorization_snapshot_decision_mismatch"
  let verification := verifyAuthorizationDecisionSnapshot V snapshot i.snapshotExpected
    i.signingKey i.snapshotVerification i.snapshotExpected.verifiedAt
  require (verification.decision = .allow) verification.reasonCode

/-- The evaluation of the capabilities. -/
def VerifiedAgentRunAuthorizationInputs.evaluated : AuthorizationResult :=
  evaluateCapabilityIntersection V i.request i.authorityContext i.requesterBundle.toAccessBundle
    i.requesterGrants i.agentGrant i.agentBundle i.agentCapabilities i.delegationGrants

/-- The reason for which a request is allowed, or that for which it is not. -/
def verdict : Except String String := do
  bindingDenial V.toDigests resolves r i
  let result := i.evaluated V
  require (result.decision = .allow) result.reasonCode
  snapshotDenial V getSnapshot r i result.reasonCode
  return result.reasonCode

/-- `_decision`. -/
def decisionOn (allowed : Bool) (reasonCode : String) : AgentRunAuthorizationDecision where
  allowed := allowed
  reasonCode := reasonCode
  authorizationSnapshotId := r.context.authorizationSnapshotId
  canonicalRequestDigest := r.canonicalRequestDigest
  immutableRequestDigest := r.request.immutableRequestDigest V.toDigests
  providerBindingVersion := r.request.providerBindingVersion
  providerBindingDigest := r.request.providerBindingDigest
  autonomyGrantDigest := r.request.autonomyGrantDigest
  credentialProofDigest := r.request.credentialProofDigest
  budgetProofDigest := r.request.budgetProofDigest
  killSwitchProofId := r.killSwitchProofId
  killSwitchProofDigest := r.killSwitchProofDigest
  evaluatedAt := i.request.evaluatedAt

/-- `authorize`, of inputs that have been resolved. -/
def authorize : AgentRunAuthorizationDecision :=
  match verdict V resolves getSnapshot r i with
  | .ok reasonCode => decisionOn V r i true reasonCode
  | .error reasonCode => decisionOn V r i false reasonCode

end Adapter

end Corvus.Agent
