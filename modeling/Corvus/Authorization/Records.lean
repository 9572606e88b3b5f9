import Corvus.Library.Calendar
import Corvus.Library.Except
import Corvus.Library.Uuid

/-!
# The records of an authorization

The request, the evidence and the grants that `application/authorization.py` compares,
with the fields it reads or digests. A digest is the text of its hexadecimal digits,
every time is in UTC, and a set is the list of its members.
-/

namespace Corvus.Authorization

/-! ## Kinds and statuses -/

inductive ScopeKind where
  | workspace | project | channel | thread | conversation
deriving DecidableEq, Repr

inductive ClientSurface where
  | cli | desktop | web | channel
deriving DecidableEq, Repr

inductive KillSwitchScope where
  | workspace | agent | workflow | run
deriving DecidableEq, Repr

inductive KillSwitchState where
  | armed | stopping | stopped | clear
deriving DecidableEq, Repr

def KillSwitchState.value : KillSwitchState → String
  | armed => "armed"
  | stopping => "stopping"
  | stopped => "stopped"
  | clear => "clear"

inductive DeploymentInstanceStatus where
  | active | revoked | retired
deriving DecidableEq, Repr

inductive WorkspaceAuthorityState where
  | active | handoffPending | closed | restoreQuarantine
deriving DecidableEq, Repr

inductive AuthorityEpochCredentialStatus where
  | active | revoked | destroyed
deriving DecidableEq, Repr

inductive AuthorityTrustAnchorKind where
  | registryGeneration | sealedLocalGeneration
deriving DecidableEq, Repr

inductive AuthorityTrustAnchorStatus where
  | active | revoked | retired
deriving DecidableEq, Repr

inductive RegistryVerifierKeyStatus where
  | active | rotated | revoked | compromised
deriving DecidableEq, Repr

inductive ManifestStatus where
  | active | retired
deriving DecidableEq, Repr

inductive CoverageKind where
  | inRoot | externalProof

def CoverageKind.value : CoverageKind → String
  | inRoot => "in_root"
  | externalProof => "external_proof"

inductive ExecutionStatus where
  | active | unavailable | revoked
deriving DecidableEq, Repr

inductive CredentialStatus where
  | active | revoked | expired
deriving DecidableEq, Repr

inductive Visibility where
  | personal | explicitPrincipals | role | project | channel | thread | workspace

inductive CapabilityEffect where
  | allow | deny
deriving DecidableEq, Repr

/-! ## The request -/

structure KillSwitchScopeBinding where
  scopeKind : KillSwitchScope
  scopeId : Uuid
deriving DecidableEq, Repr

structure AuthorizationRequest where
  workspaceId : Uuid
  requestContextId : Uuid
  deploymentInstanceId : Uuid
  workspaceAuthorityEpoch : Nat
  workspaceAuthorityGeneration : Nat
  authorityStateRoot : String
  authorityEpochCredentialId : Uuid
  authorityCommitReceiptId : Uuid
  authorityProofDigest : String
  trustAnchorId : Uuid
  registryTrustMetadataVersion : Option Nat
  registryHistoryHeadDigest : Option String
  registryFreshnessProofId : Option Uuid
  registryFreshnessSequence : Option Nat
  authorityManifestVersionId : Uuid
  authorityManifestDigest : String
  executionPlacementId : Option Uuid
  providerConnectionId : Option Uuid
  credentialRefId : Option Uuid
  credentialVersionId : Option Uuid
  credentialGrantId : Option Uuid
  budgetSnapshotIds : List Uuid
  budgetSnapshotDigest : Option String
  runtimeLimitDigest : Option String
  budgetUnit : Option String
  budgetRequestedAmount : Option Nat
  killSwitchSnapshotIds : List Uuid
  killSwitchSnapshotDigest : String
  killSwitchScopeBindings : List KillSwitchScopeBinding
  audiencePolicySnapshotId : Uuid
  audiencePolicyDigest : String
  scopeDigest : String
  clientContextId : Uuid
  clientSurface : ClientSurface
  transportPrincipalId : Uuid
  requesterId : Uuid
  actingAgentId : Uuid
  scopeKind : ScopeKind
  scopeId : Uuid
  resourceKind : String
  resourceId : Uuid
  action : String
  evaluatedAt : Instant
  /-- `Field(ge=1)`: the name of the workspace lock asks for it. -/
  epoch_pos : 0 < workspaceAuthorityEpoch

/-! ## The authority context -/

structure DeploymentInstance where
  id : Uuid
  deploymentProfileId : Uuid
  instancePublicKey : String
  deviceBindingDigest : String
  status : DeploymentInstanceStatus

structure WorkspaceAuthority where
  workspaceId : Uuid
  deploymentProfileId : Uuid
  deploymentInstanceId : Uuid
  epoch : Nat
  authorityGeneration : Nat
  authorityStateRoot : String
  authorityEpochCredentialId : Uuid
  trustAnchorId : Uuid
  activeLeaseId : Option Uuid
  state : WorkspaceAuthorityState
  activatedAt : Instant

structure AuthorityEpochCredential where
  id : Uuid
  workspaceId : Uuid
  authorityEpoch : Nat
  deploymentInstanceId : Uuid
  publicKey : String
  deviceBindingDigest : String
  status : AuthorityEpochCredentialStatus

structure DeploymentInstanceLease where
  id : Uuid
  workspaceId : Uuid
  authorityEpoch : Nat
  deploymentInstanceId : Uuid
  acquiredAt : Instant
  releasedAt : Option Instant

structure AuthorityCommitProof where
  workspaceId : Uuid
  deploymentInstanceId : Uuid
  authorityEpochCredentialId : Uuid
  authorityEpoch : Nat
  authorityGeneration : Nat
  authorityStateRoot : String
  authorityCommitReceiptId : Uuid
  authorityProofDigest : String
  finalized : Bool

structure AuthorityTrustAnchor where
  id : Uuid
  workspaceId : Uuid
  kind : AuthorityTrustAnchorKind
  anchorRegistryId : Option Uuid
  pinnedRegistryRootDigest : Option String
  localLockName : Option String
  sealedGenerationRef : Option String
  deviceBindingDigest : Option String
  status : AuthorityTrustAnchorStatus
  createdAt : Instant

structure AuthorityRegistryTrustState where
  registryId : Uuid
  metadataVersion : Nat
  latestVerifierKeyVersion : Nat
  completeHistoryHeadDigest : String
  issuedAt : Instant
  expiresAt : Instant
  offlineRootVersion : Nat
  thresholdSignatureSetDigest : String
  previousMetadataDigest : Option String

structure AuthorityRegistryVerifierKeyVersion where
  id : Uuid
  registryId : Uuid
  keyVersion : Nat
  algorithm : String
  publicKey : String
  status : RegistryVerifierKeyStatus
  validFrom : Instant
  validUntil : Option Instant
  revokedAt : Option Instant
  compromiseEffectiveAt : Option Instant

structure AuthorityRegistryFreshnessProof where
  id : Uuid
  registryId : Uuid
  trustStateMetadataVersion : Nat
  completeHistoryHeadDigest : String
  registrySequence : Nat
  challengeNonceDigest : String
  responseDigest : String
  issuedAt : Instant
  expiresAt : Instant
  verifierKeyVersionId : Uuid
  registrySignature : String

structure RegistryVerificationProof where
  registryId : Uuid
  trustStateDigest : String
  freshnessProofId : Uuid
  freshnessResponseDigest : String
  verifierKeyVersionId : Uuid
  offlineRootPublicKeys : List String
  trustStateSignatures : List String
  signatureThreshold : Nat
  finalized : Bool

structure AuthorityStateRootManifestVersion where
  id : Uuid
  schemaVersion : Nat
  canonicalizationVersion : Nat
  manifestDigest : String
  status : ManifestStatus
  createdAt : Instant

structure AuthorityStateRootLeafFamily where
  manifestVersionId : Uuid
  ordinal : Nat
  familyName : String
  coverageKind : CoverageKind
  externalProofKind : Option String
  canonicalizationVersion : Nat

structure AuthorityRuntimePossessionProof where
  requestContextId : Uuid
  workspaceId : Uuid
  deploymentInstanceId : Uuid
  authorityEpochCredentialId : Uuid
  authorityEpoch : Nat
  authorityGeneration : Nat
  authorityStateRoot : String
  deviceBindingDigest : String
  lockName : String
  nonceDigest : String
  issuedAt : Instant
  expiresAt : Instant
  deploymentInstanceSignature : String
  epochCredentialSignature : String

structure ExecutionPlacement where
  id : Uuid
  status : ExecutionStatus
  createdAt : Instant

structure CredentialRef where
  id : Uuid
  workspaceId : Uuid
  ownerPrincipalId : Option Uuid
  providerConnectionId : Uuid
  status : CredentialStatus
  expiresAt : Option Instant
  version : Nat
  createdAt : Instant
  updatedAt : Instant

structure CredentialVerificationProof where
  requestContextId : Uuid
  workspaceId : Uuid
  providerConnectionId : Uuid
  credentialRefId : Uuid
  credentialRefVersion : Nat
  credentialVersionId : Uuid
  credentialGrantId : Uuid
  actingAgentId : Uuid
  executionPlacementId : Uuid
  operation : String
  rotationEpoch : Nat
  nonceDigest : String
  useLimit : Nat
  useCount : Nat
  issuedAt : Instant
  expiresAt : Instant
  credentialVersionActive : Bool
  credentialGrantActive : Bool
  finalized : Bool

structure BudgetRuntimeVerificationProof where
  requestContextId : Uuid
  workspaceId : Uuid
  scopeKind : ScopeKind
  scopeId : Uuid
  action : String
  budgetSnapshotIds : List Uuid
  budgetSnapshotDigest : String
  runtimeLimitDigest : String
  unit : String
  requestedAmount : Nat
  canonicalAccountIds : List Uuid
  expectedAccountCount : Nat
  minimumRemainingAmount : Nat
  runtimeLimitMs : Nat
  runtimeConsumedMs : Nat
  periodStartsAt : Instant
  periodEndsAt : Instant
  observedAt : Instant
  expiresAt : Instant
  hierarchyVerified : Bool
  periodNonOverlappingVerified : Bool
  allAccountsActive : Bool
  finalized : Bool

structure KillSwitchSnapshotEntry where
  snapshotId : Uuid
  workspaceId : Uuid
  scopeKind : KillSwitchScope
  scopeId : Uuid
  state : KillSwitchState
  updatedAt : Instant

structure KillSwitchVerificationProof where
  requestContextId : Uuid
  workspaceId : Uuid
  actingAgentId : Uuid
  action : String
  killSwitchSnapshotIds : List Uuid
  killSwitchSnapshotDigest : String
  requiredScopeBindings : List KillSwitchScopeBinding
  entries : List KillSwitchSnapshotEntry
  observedAt : Instant
  expiresAt : Instant
  hierarchyExhaustive : Bool
  finalized : Bool

structure AudiencePolicySnapshot where
  id : Uuid
  workspaceId : Uuid
  visibility : Visibility
  ownerPrincipalId : Option Uuid
  principalIds : List Uuid
  roleIds : List Uuid
  scopeDigest : String
  policyDigest : String
  createdAt : Instant

structure ClientContext where
  id : Uuid
  surface : ClientSurface
  transportPrincipalId : Option Uuid
  issuedAt : Instant
  expiresAt : Option Instant

structure AuthorityEvaluationContext where
  deploymentInstance : Option DeploymentInstance
  workspaceAuthority : WorkspaceAuthority
  epochCredential : Option AuthorityEpochCredential
  activeLease : Option DeploymentInstanceLease
  commitProof : Option AuthorityCommitProof
  trustAnchor : Option AuthorityTrustAnchor
  previousRegistryTrustState : Option AuthorityRegistryTrustState
  registryTrustState : Option AuthorityRegistryTrustState
  registryFreshnessProof : Option AuthorityRegistryFreshnessProof
  registryVerifierKey : Option AuthorityRegistryVerifierKeyVersion
  registryVerificationProof : Option RegistryVerificationProof
  minimumRegistrySequence : Nat
  expectedRegistryNonceDigest : Option String
  authorityManifest : Option AuthorityStateRootManifestVersion
  authorityManifestFamilies : List AuthorityStateRootLeafFamily
  mutableAuthorityFamilies : List String
  executionPlacement : Option ExecutionPlacement
  credentialRef : Option CredentialRef
  credentialVerificationProof : Option CredentialVerificationProof
  budgetRuntimeVerificationProof : Option BudgetRuntimeVerificationProof
  killSwitchVerificationProof : Option KillSwitchVerificationProof
  audiencePolicySnapshot : Option AudiencePolicySnapshot
  requesterRoleIds : List Uuid
  clientContext : Option ClientContext
  enabledClientSurfaces : List ClientSurface
  expectedCredentialRotationEpoch : Option Nat
  expectedCredentialNonceDigest : Option String
  runtimePossessionProof : Option AuthorityRuntimePossessionProof

/-! ## Bundles and grants -/

structure AccessBundle where
  id : Uuid
  workspaceId : Uuid
  principalId : Uuid
  scopeKind : ScopeKind
  scopeId : Uuid
  expiresAt : Option Instant
  revokedAt : Option Instant

structure CapabilityGrant where
  bundleId : Uuid
  workspaceId : Uuid
  resourceKind : String
  resourceId : Uuid
  action : String
  effect : CapabilityEffect

structure AgentGrant where
  id : Uuid
  workspaceId : Uuid
  agentId : Uuid
  capabilityBundleId : Uuid
  expiresAt : Option Instant
  revokedAt : Option Instant

structure DelegationGrant where
  parentAgentGrantId : Uuid
  childAgentId : Uuid
  capabilities : List String
  depthLimit : Nat
  issuedAt : Instant
  expiresAt : Instant
  revokedAt : Option Instant

/-! ## The result -/

inductive AuthorizationDecision where
  | allow | deny
deriving DecidableEq, Repr

structure AuthorizationResult where
  decision : AuthorizationDecision
  reasonCode : String
  actions : List String

def AuthorizationResult.deny (reasonCode : String) : AuthorizationResult := ⟨.deny, reasonCode, []⟩

/-! ## Digests and signatures -/

/-- What is taken from outside: the digests, and whether a signature of a message, which
is given by its hexadecimal digits, verifies under an Ed25519 public key. -/
structure Verification extends Digests where
  verifySignature : (publicKey signature message : String) → Bool

/-- A time as `model_dump(mode="json")` writes it. -/
def jsonTime (t : Instant) : Json := .str (Calendar.isoformat t ++ "Z")

/-- `fixed_workspace_lock_name`, for an epoch that is positive. -/
def fixedWorkspaceLockName (D : Digests) (workspaceId : Uuid) : String :=
  "corvus-workspace-" ++ D.sha256 ("corvus-workspace-lock-v1:" ++ workspaceId.text)

/-- `AuthorityRegistryTrustState.canonical_digest`. -/
def AuthorityRegistryTrustState.canonicalDigest (D : Digests) (s : AuthorityRegistryTrustState) :
    String :=
  D.sha256 (Json.dumps (.obj ([
    ("registry_id", .str s.registryId.text),
    ("metadata_version", .int s.metadataVersion),
    ("latest_verifier_key_version", .int s.latestVerifierKeyVersion),
    ("complete_history_head_digest", .str s.completeHistoryHeadDigest),
    ("issued_at", jsonTime s.issuedAt),
    ("expires_at", jsonTime s.expiresAt),
    ("offline_root_version", .int s.offlineRootVersion),
    ("threshold_signature_set_digest", .str s.thresholdSignatureSetDigest)] ++
    (s.previousMetadataDigest.map fun d => ("previous_metadata_digest", Json.str d)).toList)))

/-- `authority_runtime_possession_digest`. -/
def AuthorityRuntimePossessionProof.digest (D : Digests) (p : AuthorityRuntimePossessionProof) :
    String :=
  D.sha256 (Json.dumps (.obj [
    ("request_context_id", .str p.requestContextId.text),
    ("workspace_id", .str p.workspaceId.text),
    ("deployment_instance_id", .str p.deploymentInstanceId.text),
    ("authority_epoch_credential_id", .str p.authorityEpochCredentialId.text),
    ("authority_epoch", .int p.authorityEpoch),
    ("authority_generation", .int p.authorityGeneration),
    ("authority_state_root", .str p.authorityStateRoot),
    ("device_binding_digest", .str p.deviceBindingDigest),
    ("lock_name", .str p.lockName),
    ("nonce_digest", .str p.nonceDigest),
    ("issued_at", jsonTime p.issuedAt),
    ("expires_at", jsonTime p.expiresAt)]))

/-- `authority_public_key_set_digest`, of keys that are pairwise different. -/
def authorityPublicKeySetDigest (D : Digests) (values : List String) : String :=
  D.sha256 (Json.dumps (.arr ((values.insertionSort (· ≤ ·)).map .str)))

/-- `canonical_authority_manifest_digest`. -/
def canonicalAuthorityManifestDigest (D : Digests) (schemaVersion canonicalizationVersion : Nat)
    (families : List AuthorityStateRootLeafFamily) : String :=
  D.sha256 (Json.dumps (.obj [
    ("schema_version", .int schemaVersion),
    ("canonicalization_version", .int canonicalizationVersion),
    ("families", .arr ((families.insertionSort fun f g => f.ordinal ≤ g.ordinal).map fun f =>
      .obj [
        ("ordinal", .int f.ordinal),
        ("family_name", .str f.familyName),
        ("coverage_kind", .str f.coverageKind.value),
        ("external_proof_kind", (f.externalProofKind.map Json.str).getD .null),
        ("canonicalization_version", .int f.canonicalizationVersion)]))]))

end Corvus.Authorization
