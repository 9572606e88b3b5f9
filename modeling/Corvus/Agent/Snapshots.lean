import Corvus.Agent.Requests

/-!
# Signed snapshots of decisions

The record of an authorization decision of `domain/audit.py`, the key that signs it, and
`verify_authorization_decision_snapshot` of `application/authorization.py`. Times carry a zone.
-/

namespace Corvus.Agent

open Authorization (ScopeKind AuthorizationDecision AuthorizationResult Verification jsonTime)

/-! ## The signing key -/

inductive SigningKeyStatus where
  | active | rotated | revoked | compromised
deriving DecidableEq, Repr

structure WorkspaceSigningKeyVersion where
  id : Uuid
  workspaceId : Uuid
  algorithm : String
  publicKey : String
  status : SigningKeyStatus
  validFrom : Instant
  validUntil : Option Instant
  revokedAt : Option Instant
  compromiseEffectiveAt : Option Instant

/-- Whether a time has come, if it is set. -/
def reached (limit : Option Instant) (time : Instant) : Bool := limit.any (· ≤ time)

def validateSigningTime (key : WorkspaceSigningKeyVersion) (signingTime : Instant) :
    Except String Unit := do
  refuse (signingTime < key.validFrom) "signing_key_not_yet_valid"
  refuse (reached key.validUntil signingTime) "signing_key_expired_at_signing_time"
  refuse (key.status = .rotated ∧ key.validUntil = none) "signing_key_rotation_cutoff_missing"
  refuse (key.status = .revoked ∧ key.revokedAt = none) "signing_key_revocation_time_missing"
  refuse (key.status = .revoked ∧ reached key.revokedAt signingTime)
    "signing_key_revoked_at_signing_time"
  refuse (key.status = .compromised ∧ key.compromiseEffectiveAt = none)
    "signing_key_compromise_time_missing"
  refuse (key.status = .compromised ∧ reached key.compromiseEffectiveAt signingTime)
    "signing_key_compromised_at_signing_time"

/-! ## The snapshot -/

structure AuthorizationDecisionSnapshot where
  id : Uuid
  workspaceId : Uuid
  requestContextId : Uuid
  deploymentInstanceId : Uuid
  authorityEpochCredentialId : Uuid
  authorityGeneration : Nat
  authorityStateRoot : String
  authorityCommitReceiptId : Uuid
  authorityProofDigest : String
  membershipVersionIds : List Uuid
  membershipDigest : String
  scopeKind : ScopeKind
  scopeId : Uuid
  scopeDigest : String
  audiencePolicySnapshotId : Uuid
  audienceDigest : String
  requesterId : Uuid
  transportPrincipalId : Uuid
  accessBundleId : Uuid
  accessBundleVersionDigest : String
  agentGrantId : Uuid
  delegationGrantIds : List Uuid
  agentDelegationDigest : String
  executionPlacementId : Option Uuid
  providerConnectionId : Option Uuid
  credentialGrantId : Option Uuid
  credentialVersionId : Option Uuid
  policyDigest : String
  autonomyPolicyDigest : String
  budgetSnapshotIds : List Uuid
  budgetSnapshotDigest : String
  killSwitchSnapshotIds : List Uuid
  killSwitchSnapshotDigest : String
  decision : AuthorizationDecision
  reasonCode : String
  canonicalInputsJson : List (String × Json)
  sourceRecordVersionMap : List (String × Int)
  canonicalDigest : String
  signingKeyVersionId : Uuid
  snapshotSignature : String
  createdAt : Instant
deriving DecidableEq

def AuthorizationDecision.value : AuthorizationDecision → String
  | .allow => "allow"
  | .deny => "deny"

namespace AuthorizationDecisionSnapshot

variable (D : Digests) (s : AuthorizationDecisionSnapshot)

def versionMapJson : Json := .obj (s.sourceRecordVersionMap.map fun e => (e.1, .int e.2))

/-- The fields that are bound by every digest of a snapshot. -/
def boundFields : List (String × Json) := [
  ("workspace_id", .str s.workspaceId.text),
  ("request_context_id", .str s.requestContextId.text),
  ("deployment_instance_id", .str s.deploymentInstanceId.text),
  ("authority_epoch_credential_id", .str s.authorityEpochCredentialId.text),
  ("authority_generation", .int s.authorityGeneration),
  ("authority_state_root", .str s.authorityStateRoot),
  ("authority_commit_receipt_id", .str s.authorityCommitReceiptId.text),
  ("authority_proof_digest", .str s.authorityProofDigest),
  ("membership_version_ids", jsonIds s.membershipVersionIds),
  ("membership_digest", .str s.membershipDigest),
  ("scope_kind", .str (ScopeKind.value s.scopeKind)),
  ("scope_id", .str s.scopeId.text),
  ("scope_digest", .str s.scopeDigest),
  ("audience_policy_snapshot_id", .str s.audiencePolicySnapshotId.text),
  ("audience_digest", .str s.audienceDigest),
  ("requester_id", .str s.requesterId.text),
  ("transport_principal_id", .str s.transportPrincipalId.text),
  ("access_bundle_id", .str s.accessBundleId.text),
  ("access_bundle_version_digest", .str s.accessBundleVersionDigest),
  ("agent_grant_id", .str s.agentGrantId.text),
  ("delegation_grant_ids", jsonIds s.delegationGrantIds),
  ("agent_delegation_digest", .str s.agentDelegationDigest),
  ("execution_placement_id", optional Uuid.text s.executionPlacementId),
  ("provider_connection_id", optional Uuid.text s.providerConnectionId),
  ("credential_grant_id", optional Uuid.text s.credentialGrantId),
  ("credential_version_id", optional Uuid.text s.credentialVersionId),
  ("policy_digest", .str s.policyDigest),
  ("autonomy_policy_digest", .str s.autonomyPolicyDigest),
  ("budget_snapshot_ids", jsonIds s.budgetSnapshotIds),
  ("budget_snapshot_digest", .str s.budgetSnapshotDigest),
  ("kill_switch_snapshot_ids", jsonIds s.killSwitchSnapshotIds),
  ("kill_switch_snapshot_digest", .str s.killSwitchSnapshotDigest),
  ("decision", .str (AuthorizationDecision.value s.decision)),
  ("reason_code", .str s.reasonCode),
  ("canonical_inputs_json", .obj s.canonicalInputsJson),
  ("source_record_version_map", s.versionMapJson),
  ("canonical_digest", .str s.canonicalDigest)]

/-- `authorization_snapshot_digest`. -/
def inputsDigest : String :=
  D.sha256 (Json.dumps (.obj [
    ("canonical_inputs_json", .obj s.canonicalInputsJson),
    ("source_record_version_map", s.versionMapJson)]))

/-- `authorization_snapshot_record_digest`. -/
def recordDigest : String :=
  D.sha256 (Json.dumps (.obj (s.boundFields ++ [
    ("id", .str s.id.text),
    ("signing_key_version_id", .str s.signingKeyVersionId.text),
    ("created_at", jsonTime s.createdAt)])))

/-- `authorization_snapshot_bound_input_digest`. -/
def boundInputDigest : String := D.sha256 (Json.dumps (.obj s.boundFields))

end AuthorizationDecisionSnapshot

/-! ## Verification -/

structure AuthorizationSnapshotExpectedInputs where
  authorizationSnapshotId : Uuid
  authorizationSnapshotDigest : String
  boundInputDigest : String
  signingKeyVersionId : Uuid
  verifiedAt : Instant

structure AuthorizationSnapshotVerificationProof where
  authorizationSnapshotId : Uuid
  authorizationSnapshotDigest : String
  boundInputDigest : String
  signingKeyVersionId : Uuid
  finalized : Bool

/-- What the verification denies a snapshot for. -/
def snapshotVerificationDenial (V : Verification) (snapshot : AuthorizationDecisionSnapshot)
    (expected : AuthorizationSnapshotExpectedInputs) (signingKey : WorkspaceSigningKeyVersion)
    (proof : AuthorizationSnapshotVerificationProof) (verifiedAt : Instant) :
    Except String Unit := do
  let recordDigest := snapshot.recordDigest V.toDigests
  let boundInputDigest := snapshot.boundInputDigest V.toDigests
  require (snapshot.inputsDigest V.toDigests = snapshot.canonicalDigest)
    "authorization_snapshot_digest_mismatch"
  require (expected.verifiedAt = verifiedAt) "authorization_snapshot_expected_time_mismatch"
  refuse (verifiedAt < snapshot.createdAt) "authorization_snapshot_not_yet_current"
  require (snapshot.id = expected.authorizationSnapshotId ∧
      snapshot.signingKeyVersionId = expected.signingKeyVersionId ∧
      signingKey.id = expected.signingKeyVersionId ∧
      signingKey.workspaceId = snapshot.workspaceId)
    "authorization_snapshot_signing_key_mismatch"
  require ((validateSigningTime signingKey snapshot.createdAt).isOk = true)
    "authorization_snapshot_signing_key_invalid"
  require (recordDigest = expected.authorizationSnapshotDigest)
    "authorization_snapshot_record_digest_mismatch"
  require (boundInputDigest = expected.boundInputDigest)
    "authorization_snapshot_bound_inputs_mismatch"
  require (proof.authorizationSnapshotId = snapshot.id ∧
      proof.authorizationSnapshotDigest = recordDigest ∧
      proof.boundInputDigest = boundInputDigest ∧ proof.signingKeyVersionId = signingKey.id)
    "authorization_snapshot_verification_proof_mismatch"
  require (proof.finalized = true) "authorization_snapshot_verification_not_finalized"
  require (signingKey.algorithm.toLower = "ed25519" ∧
      V.verifySignature signingKey.publicKey snapshot.snapshotSignature recordDigest = true)
    "authorization_snapshot_signature_invalid"

def verifyAuthorizationDecisionSnapshot (V : Verification)
    (snapshot : AuthorizationDecisionSnapshot) (expected : AuthorizationSnapshotExpectedInputs)
    (signingKey : WorkspaceSigningKeyVersion) (proof : AuthorizationSnapshotVerificationProof)
    (verifiedAt : Instant) : AuthorizationResult :=
  match snapshotVerificationDenial V snapshot expected signingKey proof verifiedAt with
  | .ok () => ⟨.allow, "authorization_snapshot_verified", []⟩
  | .error reasonCode => .deny reasonCode

end Corvus.Agent
