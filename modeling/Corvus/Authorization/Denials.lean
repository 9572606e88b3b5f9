import Corvus.Authorization.Records

/-!
# The denial reasons

The checks of `application/authorization.py` in their order. Where the source returns
the first reason that applies, or none, a check here raises the reason or returns; the
long ones are cut where the source turns to the next piece of evidence.
-/

namespace Corvus.Authorization

variable (V : Verification)

abbrev Check := Except String Unit

/-! ## The registry -/

/-- `validate_registry_trust_transition`. -/
def validateRegistryTrustTransition (previous current : AuthorityRegistryTrustState)
    (now : Instant) : Check := do
  refuse (current.registryId ≠ previous.registryId) "registry_identity_mismatch"
  refuse (current.metadataVersion ≠ previous.metadataVersion + 1)
    "registry_metadata_version_skipped"
  refuse (current.previousMetadataDigest ≠ some (previous.canonicalDigest V.toDigests))
    "registry_metadata_prefix_mismatch"
  refuse (current.completeHistoryHeadDigest = previous.completeHistoryHeadDigest)
    "registry_history_head_frozen"
  refuse (current.issuedAt ≤ previous.issuedAt) "registry_metadata_time_not_advanced"
  refuse (current.latestVerifierKeyVersion < previous.latestVerifierKeyVersion)
    "registry_verifier_version_rollback"
  refuse (current.latestVerifierKeyVersion > previous.latestVerifierKeyVersion + 1)
    "registry_verifier_version_skipped"
  refuse (current.expiresAt ≤ now) "registry_trust_state_expired"

/-- `validate_registry_verifier_time`. -/
def validateRegistryVerifierTime (verifier : AuthorityRegistryVerifierKeyVersion)
    (now : Instant) : Check := do
  refuse (now < verifier.validFrom) "registry_verifier_not_yet_valid"
  refuse (∃ until_ ∈ verifier.validUntil, until_ ≤ now) "registry_verifier_expired"
  refuse (verifier.status = .revoked ∧ ∃ at_ ∈ verifier.revokedAt, at_ ≤ now)
    "registry_verifier_revoked_at_verification_time"
  refuse (verifier.status = .compromised ∧ ∃ at_ ∈ verifier.compromiseEffectiveAt, at_ ≤ now)
    "registry_verifier_compromised_at_verification_time"

/-- `validate_registry_freshness_proof`. -/
def validateRegistryFreshnessProof (proof : AuthorityRegistryFreshnessProof)
    (minimumSequence : Nat) (expectedNonceDigest : String) : Check := do
  refuse (proof.registrySequence ≤ minimumSequence) "registry_sequence_replay"
  refuse (proof.challengeNonceDigest ≠ expectedNonceDigest) "registry_nonce_mismatch"

/-- The trust state of the context, against the claims of the request. -/
def trustStateDenial (request : AuthorizationRequest) (context : AuthorityEvaluationContext)
    (anchor : AuthorityTrustAnchor) : Except String AuthorityRegistryTrustState := do
  refuse (anchor.anchorRegistryId = none ∨ anchor.pinnedRegistryRootDigest = none)
    "registry_trust_anchor_incomplete"
  refuse (request.registryTrustMetadataVersion = none ∨ request.registryHistoryHeadDigest = none ∨
      request.registryFreshnessProofId = none ∨ request.registryFreshnessSequence = none)
    "registry_authority_claims_missing"
  let trustState ← present context.registryTrustState "registry_trust_state_missing"
  refuse (some trustState.registryId ≠ anchor.anchorRegistryId) "registry_identity_mismatch"
  refuse (∃ version ∈ request.registryTrustMetadataVersion, trustState.metadataVersion < version)
    "stale_registry_trust_state"
  refuse (some trustState.metadataVersion ≠ request.registryTrustMetadataVersion ∨
      some trustState.completeHistoryHeadDigest ≠ request.registryHistoryHeadDigest)
    "registry_trust_state_mismatch"
  refuse (trustState.issuedAt > request.evaluatedAt) "registry_trust_state_not_yet_valid"
  refuse (trustState.expiresAt ≤ request.evaluatedAt) "registry_trust_state_expired"
  return trustState

/-- The predecessor of the trust state. -/
def predecessorDenial (request : AuthorizationRequest) (context : AuthorityEvaluationContext)
    (trustState : AuthorityRegistryTrustState) : Check :=
  if trustState.metadataVersion > 1 then do
    let previous ← present context.previousRegistryTrustState
      "registry_trust_state_predecessor_missing"
    validateRegistryTrustTransition V previous trustState request.evaluatedAt
  else refuse (trustState.previousMetadataDigest ≠ none) "registry_metadata_prefix_mismatch"

/-- The verifier key. -/
def verifierDenial (request : AuthorizationRequest) (context : AuthorityEvaluationContext)
    (trustState : AuthorityRegistryTrustState) :
    Except String AuthorityRegistryVerifierKeyVersion := do
  let verifier ← present context.registryVerifierKey "registry_verifier_missing"
  refuse (verifier.registryId ≠ trustState.registryId) "registry_verifier_registry_mismatch"
  refuse (verifier.keyVersion < trustState.latestVerifierKeyVersion)
    "registry_verifier_version_rollback"
  refuse (verifier.keyVersion ≠ trustState.latestVerifierKeyVersion)
    "registry_verifier_version_mismatch"
  validateRegistryVerifierTime verifier request.evaluatedAt
  return verifier

/-- The freshness proof, up to the nonce that is expected. -/
def freshnessDenial (request : AuthorizationRequest) (context : AuthorityEvaluationContext)
    (trustState : AuthorityRegistryTrustState) (verifier : AuthorityRegistryVerifierKeyVersion) :
    Except String (AuthorityRegistryFreshnessProof × String) := do
  let freshness ← present context.registryFreshnessProof "registry_freshness_proof_missing"
  refuse (some freshness.id ≠ request.registryFreshnessProofId) "registry_freshness_proof_mismatch"
  refuse (freshness.registryId ≠ trustState.registryId) "registry_freshness_registry_mismatch"
  refuse (freshness.trustStateMetadataVersion < trustState.metadataVersion)
    "stale_registry_freshness_proof"
  refuse (freshness.trustStateMetadataVersion ≠ trustState.metadataVersion)
    "registry_freshness_trust_state_mismatch"
  refuse (freshness.completeHistoryHeadDigest ≠ trustState.completeHistoryHeadDigest)
    "registry_freshness_history_prefix_mismatch"
  refuse (freshness.verifierKeyVersionId ≠ verifier.id) "registry_freshness_verifier_mismatch"
  refuse (some freshness.registrySequence ≠ request.registryFreshnessSequence)
    "registry_freshness_sequence_mismatch"
  refuse (freshness.issuedAt > request.evaluatedAt) "registry_freshness_proof_not_yet_valid"
  refuse (freshness.expiresAt ≤ request.evaluatedAt) "registry_freshness_proof_expired"
  let nonce ← present context.expectedRegistryNonceDigest "registry_freshness_nonce_missing"
  return (freshness, nonce)

/-- The verification proof, and the signatures of the offline roots. -/
def signatureDenial (context : AuthorityEvaluationContext) (anchor : AuthorityTrustAnchor)
    (trustState : AuthorityRegistryTrustState) (verifier : AuthorityRegistryVerifierKeyVersion)
    (freshness : AuthorityRegistryFreshnessProof) : Check := do
  let verification ← present context.registryVerificationProof "registry_verification_proof_missing"
  refuse (¬ verification.finalized) "registry_verification_not_finalized"
  refuse (verification.registryId ≠ trustState.registryId ∨
      verification.trustStateDigest ≠ trustState.canonicalDigest V.toDigests ∨
      verification.freshnessProofId ≠ freshness.id ∨
      verification.freshnessResponseDigest ≠ freshness.responseDigest ∨
      verification.verifierKeyVersionId ≠ verifier.id) "registry_verification_proof_mismatch"
  let keys := verification.offlineRootPublicKeys
  refuse (¬ keys.Nodup ∨ keys.length ≠ verification.trustStateSignatures.length)
    "registry_trust_signature_set_invalid"
  let keysetDigest := authorityPublicKeySetDigest V.toDigests keys
  refuse (some keysetDigest ≠ anchor.pinnedRegistryRootDigest ∨
      keysetDigest ≠ trustState.thresholdSignatureSetDigest ∨
      verification.signatureThreshold ≠ keys.length / 2 + 1) "registry_trust_signature_set_invalid"
  refuse ((keys.zip verification.trustStateSignatures).countP (fun signed =>
      V.verifySignature signed.1 signed.2 (trustState.canonicalDigest V.toDigests)) <
        verification.signatureThreshold) "registry_trust_signatures_unverified"
  refuse (verifier.algorithm.toLower ≠ "ed25519" ∨
      ¬ V.verifySignature verifier.publicKey freshness.registrySignature freshness.responseDigest)
    "registry_freshness_signature_unverified"

/-- `_registry_denial_reason`. -/
def registryDenialReason (request : AuthorizationRequest) (context : AuthorityEvaluationContext)
    (anchor : AuthorityTrustAnchor) : Check :=
  if anchor.kind ≠ .registryGeneration then .ok ()
  else do
    let trustState ← trustStateDenial request context anchor
    predecessorDenial V request context trustState
    let verifier ← verifierDenial request context trustState
    let (freshness, nonce) ← freshnessDenial request context trustState verifier
    signatureDenial V context anchor trustState verifier freshness
    validateRegistryFreshnessProof freshness context.minimumRegistrySequence nonce

/-! ## The manifest -/

/-- `validate_authority_root_manifest`. -/
def validateAuthorityRootManifest (families : List AuthorityStateRootLeafFamily)
    (mutableAuthorityFamilies : List String) : Check :=
  refuse (∃ name ∈ mutableAuthorityFamilies, name ∉ families.map (·.familyName))
    "unlisted_authority_family"

/-- `_manifest_denial_reason`. -/
def manifestDenialReason (request : AuthorizationRequest) (context : AuthorityEvaluationContext) :
    Check := do
  let manifest ← present context.authorityManifest "authority_manifest_missing"
  refuse (manifest.id ≠ request.authorityManifestVersionId ∨
      manifest.manifestDigest ≠ request.authorityManifestDigest) "authority_manifest_mismatch"
  refuse (manifest.status ≠ .active) "authority_manifest_inactive"
  refuse (manifest.createdAt > request.evaluatedAt) "authority_manifest_not_yet_active"
  let families := context.authorityManifestFamilies
  refuse (∃ family ∈ families, family.manifestVersionId ≠ manifest.id ∨
      family.canonicalizationVersion ≠ manifest.canonicalizationVersion)
    "authority_manifest_family_binding_mismatch"
  refuse (¬ (families.map (·.familyName)).Nodup ∨ ¬ (families.map (·.ordinal)).Nodup)
    "authority_manifest_family_set_ambiguous"
  validateAuthorityRootManifest families context.mutableAuthorityFamilies

/-! ## The authority -/

/-- `_runtime_possession_denial_reason`. -/
def runtimePossessionDenialReason (request : AuthorizationRequest)
    (context : AuthorityEvaluationContext) (instance_ : DeploymentInstance)
    (credential : AuthorityEpochCredential) (anchor : AuthorityTrustAnchor) : Check := do
  let proof ← present context.runtimePossessionProof "authority_runtime_possession_proof_missing"
  refuse (proof.requestContextId ≠ request.requestContextId ∨
      proof.workspaceId ≠ request.workspaceId ∨
      proof.deploymentInstanceId ≠ instance_.id ∨
      proof.authorityEpochCredentialId ≠ credential.id ∨
      proof.authorityEpoch ≠ request.workspaceAuthorityEpoch ∨
      proof.authorityGeneration ≠ request.workspaceAuthorityGeneration ∨
      proof.authorityStateRoot ≠ request.authorityStateRoot ∨
      proof.deviceBindingDigest ≠ instance_.deviceBindingDigest)
    "authority_runtime_possession_proof_mismatch"
  refuse (proof.lockName ≠ fixedWorkspaceLockName V.toDigests request.workspaceId)
    "workspace_os_lock_not_held"
  refuse (anchor.kind = .sealedLocalGeneration ∧ anchor.localLockName ≠ some proof.lockName)
    "workspace_os_lock_not_held"
  refuse (proof.issuedAt > request.evaluatedAt ∨ proof.expiresAt ≤ request.evaluatedAt ∨
      proof.expiresAt ≤ proof.issuedAt ∨ proof.expiresAt - proof.issuedAt > 30 * 1000000)
    "authority_runtime_possession_proof_expired"
  let message := proof.digest V.toDigests
  refuse (¬ V.verifySignature instance_.instancePublicKey proof.deploymentInstanceSignature message)
    "deployment_instance_key_unavailable"
  refuse (¬ V.verifySignature credential.publicKey proof.epochCredentialSignature message)
    "authority_epoch_key_unavailable"

/-- The workspace authority, and the claims of the request about it. -/
def workspaceAuthorityDenial (request : AuthorizationRequest) (authority : WorkspaceAuthority)
    (instance_ : DeploymentInstance) : Check := do
  refuse (authority.workspaceId ≠ request.workspaceId) "cross_workspace_authority"
  refuse (authority.state = .restoreQuarantine) "restore_quarantine"
  refuse (authority.state ≠ .active) "workspace_authority_inactive"
  refuse (instance_.status ≠ .active) "deployment_instance_inactive"
  refuse (authority.deploymentProfileId ≠ instance_.deploymentProfileId ∨
      authority.deploymentInstanceId ≠ instance_.id ∨
      request.deploymentInstanceId ≠ instance_.id) "deployment_instance_mismatch"
  refuse (request.workspaceAuthorityEpoch < authority.epoch) "stale_authority_epoch"
  refuse (request.workspaceAuthorityEpoch ≠ authority.epoch) "authority_epoch_mismatch"
  refuse (request.workspaceAuthorityGeneration < authority.authorityGeneration)
    "stale_authority_generation"
  refuse (request.workspaceAuthorityGeneration ≠ authority.authorityGeneration)
    "authority_generation_mismatch"
  refuse (request.authorityStateRoot ≠ authority.authorityStateRoot)
    "authority_state_root_mismatch"
  refuse (request.authorityEpochCredentialId ≠ authority.authorityEpochCredentialId)
    "authority_epoch_credential_mismatch"

/-- The epoch credential. -/
def epochCredentialDenial (request : AuthorizationRequest) (context : AuthorityEvaluationContext)
    (instance_ : DeploymentInstance) : Except String AuthorityEpochCredential := do
  let authority := context.workspaceAuthority
  let credential ← present context.epochCredential "authority_epoch_credential_missing"
  refuse (credential.status = .revoked) "authority_epoch_credential_revoked"
  refuse (credential.status = .destroyed) "authority_epoch_credential_destroyed"
  refuse (credential.id ≠ authority.authorityEpochCredentialId ∨
      credential.workspaceId ≠ request.workspaceId ∨
      credential.authorityEpoch ≠ authority.epoch ∨
      credential.deploymentInstanceId ≠ instance_.id) "authority_epoch_credential_mismatch"
  refuse (credential.deviceBindingDigest ≠ instance_.deviceBindingDigest)
    "authority_device_binding_mismatch"
  return credential

/-- The commit proof. -/
def commitProofDenial (request : AuthorizationRequest) (context : AuthorityEvaluationContext)
    (instance_ : DeploymentInstance) (credential : AuthorityEpochCredential) : Check := do
  let authority := context.workspaceAuthority
  let proof ← present context.commitProof "authority_commit_proof_missing"
  refuse (¬ proof.finalized) "authority_commit_not_finalized"
  refuse (proof.workspaceId ≠ request.workspaceId) "cross_workspace_authority_proof"
  refuse (proof.deploymentInstanceId ≠ instance_.id) "authority_proof_instance_mismatch"
  refuse (proof.authorityEpochCredentialId ≠ credential.id) "authority_proof_credential_mismatch"
  refuse (proof.authorityEpoch < authority.epoch) "stale_authority_epoch"
  refuse (proof.authorityEpoch ≠ authority.epoch) "authority_epoch_mismatch"
  refuse (proof.authorityGeneration < authority.authorityGeneration) "stale_authority_generation"
  refuse (proof.authorityGeneration ≠ authority.authorityGeneration)
    "authority_generation_mismatch"
  refuse (proof.authorityStateRoot ≠ authority.authorityStateRoot) "authority_state_root_mismatch"
  refuse (proof.authorityCommitReceiptId ≠ request.authorityCommitReceiptId)
    "authority_commit_receipt_mismatch"
  refuse (proof.authorityProofDigest ≠ request.authorityProofDigest)
    "authority_proof_digest_mismatch"

/-- The trust anchor. -/
def trustAnchorDenial (request : AuthorizationRequest) (context : AuthorityEvaluationContext) :
    Except String AuthorityTrustAnchor := do
  let anchor ← present context.trustAnchor "authority_trust_anchor_missing"
  refuse (context.workspaceAuthority.trustAnchorId ≠ request.trustAnchorId ∨
      anchor.id ≠ request.trustAnchorId) "authority_trust_anchor_mismatch"
  refuse (anchor.workspaceId ≠ request.workspaceId) "cross_workspace_trust_anchor"
  refuse (anchor.status ≠ .active) "authority_trust_anchor_inactive"
  refuse (anchor.createdAt > request.evaluatedAt) "authority_trust_anchor_not_yet_active"
  refuse (anchor.kind = .sealedLocalGeneration ∧ (anchor.localLockName = none ∨
      anchor.sealedGenerationRef = none ∨ anchor.deviceBindingDigest = none))
    "sealed_local_trust_anchor_incomplete"
  return anchor

/-- The lease, and the time of the authority. -/
def leaseDenial (request : AuthorizationRequest) (context : AuthorityEvaluationContext)
    (instance_ : DeploymentInstance) : Check := do
  let authority := context.workspaceAuthority
  let lease ← present context.activeLease "authority_lease_missing"
  refuse (authority.activeLeaseId ≠ some lease.id) "authority_lease_mismatch"
  refuse (lease.releasedAt ≠ none) "authority_lease_released"
  refuse (lease.acquiredAt > request.evaluatedAt) "authority_lease_not_yet_active"
  refuse (lease.workspaceId ≠ request.workspaceId ∨ lease.authorityEpoch ≠ authority.epoch ∨
      lease.deploymentInstanceId ≠ instance_.id) "authority_lease_mismatch"
  refuse (authority.activatedAt > request.evaluatedAt) "workspace_authority_not_yet_active"

/-- `_authority_denial_reason`. -/
def authorityDenialReason (request : AuthorizationRequest)
    (context : Option AuthorityEvaluationContext) : Check := do
  let context ← present context "authority_context_missing"
  let instance_ ← present context.deploymentInstance "deployment_instance_missing"
  workspaceAuthorityDenial request context.workspaceAuthority instance_
  let credential ← epochCredentialDenial request context instance_
  commitProofDenial request context instance_ credential
  let anchor ← trustAnchorDenial request context
  registryDenialReason V request context anchor
  manifestDenialReason request context
  runtimePossessionDenialReason V request context instance_ credential anchor
  leaseDenial request context instance_

/-! ## Placement, credential and budget -/

/-- `_placement_denial_reason`. -/
def placementDenialReason (request : AuthorizationRequest)
    (context : Option AuthorityEvaluationContext) : Check := do
  let context ← present context "authority_context_missing"
  match request.executionPlacementId with
  | none => refuse context.executionPlacement.isSome "execution_placement_unsolicited"
  | some executionPlacementId =>
      let placement ← present context.executionPlacement "execution_placement_missing"
      refuse (placement.id ≠ executionPlacementId) "execution_placement_mismatch"
      refuse (placement.status = .revoked) "execution_placement_revoked"
      refuse (placement.status = .unavailable) "execution_placement_unavailable"
      refuse (placement.createdAt > request.evaluatedAt) "execution_placement_not_yet_active"

/-- The reference of the credential. -/
def credentialRefDenial (request : AuthorizationRequest) (context : AuthorityEvaluationContext)
    (providerConnectionId credentialRefId : Uuid) : Except String CredentialRef := do
  let credentialRef ← present context.credentialRef "credential_ref_missing"
  refuse (credentialRef.id ≠ credentialRefId ∨ credentialRef.workspaceId ≠ request.workspaceId ∨
      credentialRef.providerConnectionId ≠ providerConnectionId) "credential_ref_mismatch"
  refuse (∃ owner ∈ credentialRef.ownerPrincipalId, owner ≠ request.requesterId)
    "credential_owner_mismatch"
  refuse (credentialRef.status = .revoked) "credential_ref_revoked"
  refuse (credentialRef.status = .expired) "credential_ref_expired"
  refuse (∃ expiry ∈ credentialRef.expiresAt, expiry ≤ request.evaluatedAt)
    "credential_ref_expired"
  refuse (credentialRef.createdAt > request.evaluatedAt ∨
      credentialRef.updatedAt > request.evaluatedAt) "credential_ref_not_yet_current"
  return credentialRef

/-- The verification proof of the credential. -/
def credentialProofDenial (request : AuthorizationRequest) (context : AuthorityEvaluationContext)
    (credentialRef : CredentialRef) (providerConnectionId credentialRefId credentialVersionId
      credentialGrantId : Uuid) : Check := do
  let proof ← present context.credentialVerificationProof "credential_verification_proof_missing"
  refuse (proof.requestContextId ≠ request.requestContextId ∨
      proof.workspaceId ≠ request.workspaceId ∨
      proof.providerConnectionId ≠ providerConnectionId ∨
      proof.credentialRefId ≠ credentialRefId ∨
      proof.credentialRefVersion ≠ credentialRef.version ∨
      proof.credentialVersionId ≠ credentialVersionId ∨
      proof.credentialGrantId ≠ credentialGrantId ∨
      proof.actingAgentId ≠ request.actingAgentId ∨
      some proof.executionPlacementId ≠ request.executionPlacementId ∨
      proof.operation ≠ request.action) "credential_verification_proof_mismatch"
  refuse (¬ proof.finalized) "credential_verification_not_finalized"
  refuse (¬ proof.credentialVersionActive) "credential_version_inactive"
  refuse (¬ proof.credentialGrantActive) "credential_grant_inactive"
  refuse (proof.issuedAt > request.evaluatedAt) "credential_verification_proof_not_yet_valid"
  refuse (proof.expiresAt ≤ request.evaluatedAt) "credential_verification_proof_expired"
  refuse (context.expectedCredentialRotationEpoch = none ∨
      context.expectedCredentialNonceDigest = none) "credential_verification_expectations_missing"
  refuse (some proof.rotationEpoch ≠ context.expectedCredentialRotationEpoch)
    "credential_rotation_epoch_mismatch"
  refuse (some proof.nonceDigest ≠ context.expectedCredentialNonceDigest)
    "credential_nonce_mismatch"
  refuse (proof.useCount ≥ proof.useLimit) "credential_grant_use_limit_exhausted"

/-- `_credential_denial_reason`. -/
def credentialDenialReason (request : AuthorizationRequest)
    (context : Option AuthorityEvaluationContext) : Check := do
  let context ← present context "authority_context_missing"
  match request.providerConnectionId, request.credentialRefId, request.credentialVersionId,
    request.credentialGrantId with
  | none, none, none, none =>
      refuse (context.credentialRef.isSome ∨ context.credentialVerificationProof.isSome ∨
          context.expectedCredentialRotationEpoch.isSome ∨
          context.expectedCredentialNonceDigest.isSome) "credential_evidence_unsolicited"
  | some providerConnectionId, some credentialRefId, some credentialVersionId,
    some credentialGrantId =>
      refuse (request.executionPlacementId = none) "credential_placement_missing"
      let credentialRef ← credentialRefDenial request context providerConnectionId credentialRefId
      credentialProofDenial request context credentialRef providerConnectionId credentialRefId
        credentialVersionId credentialGrantId
  | _, _, _, _ => throw "credential_claims_incomplete"

/-- The verification proof of the budget. -/
def budgetProofDenial (request : AuthorizationRequest) (context : AuthorityEvaluationContext)
    (budgetSnapshotDigest runtimeLimitDigest budgetUnit : String) (budgetRequestedAmount : Nat) :
    Check := do
  let proof ← present context.budgetRuntimeVerificationProof
    "budget_runtime_verification_proof_missing"
  refuse (proof.requestContextId ≠ request.requestContextId ∨
      proof.workspaceId ≠ request.workspaceId ∨
      proof.scopeKind ≠ request.scopeKind ∨
      proof.scopeId ≠ request.scopeId ∨
      proof.action ≠ request.action ∨
      proof.budgetSnapshotIds ≠ request.budgetSnapshotIds ∨
      proof.budgetSnapshotDigest ≠ budgetSnapshotDigest ∨
      proof.runtimeLimitDigest ≠ runtimeLimitDigest ∨
      proof.unit ≠ budgetUnit ∨
      proof.requestedAmount ≠ budgetRequestedAmount) "budget_runtime_verification_proof_mismatch"
  refuse (¬ proof.finalized) "budget_runtime_verification_not_finalized"
  refuse (proof.observedAt > request.evaluatedAt)
    "budget_runtime_verification_proof_not_yet_valid"
  refuse (proof.expiresAt ≤ request.evaluatedAt) "budget_runtime_verification_proof_expired"
  refuse (¬ proof.hierarchyVerified) "budget_hierarchy_unverified"
  refuse (¬ proof.periodNonOverlappingVerified) "budget_period_overlap_unverified"
  refuse (¬ proof.allAccountsActive) "budget_account_inactive"
  refuse (¬ ((proof.periodStartsAt ≤ request.evaluatedAt ∧
      request.evaluatedAt < proof.periodEndsAt) ∧ proof.periodStartsAt < proof.periodEndsAt))
    "budget_period_inactive"
  refuse (proof.canonicalAccountIds.length ≠ proof.expectedAccountCount)
    "budget_account_closure_incomplete"
  refuse (¬ proof.canonicalAccountIds.Nodup) "budget_account_closure_ambiguous"
  refuse (proof.minimumRemainingAmount < budgetRequestedAmount) "budget_exhausted"
  refuse (proof.runtimeConsumedMs ≥ proof.runtimeLimitMs) "runtime_exhausted"

/-- `_budget_runtime_denial_reason`. -/
def budgetRuntimeDenialReason (request : AuthorizationRequest)
    (context : Option AuthorityEvaluationContext) : Check := do
  let context ← present context "authority_context_missing"
  match request.budgetSnapshotIds, request.budgetSnapshotDigest, request.runtimeLimitDigest,
    request.budgetUnit, request.budgetRequestedAmount with
  | [], none, none, none, none =>
      refuse context.budgetRuntimeVerificationProof.isSome "budget_runtime_evidence_unsolicited"
  | _ :: _, some budgetSnapshotDigest, some runtimeLimitDigest, some budgetUnit,
    some budgetRequestedAmount =>
      refuse (¬ request.budgetSnapshotIds.Nodup) "budget_snapshot_set_ambiguous"
      budgetProofDenial request context budgetSnapshotDigest runtimeLimitDigest budgetUnit
        budgetRequestedAmount
  | _, _, _, _, _ => throw "budget_runtime_claims_incomplete"

/-! ## Kill switches -/

/-- The loop over the snapshots of the switches, each with its binding and its entry. -/
def killSwitchEntriesDenial (request : AuthorizationRequest) :
    List (Uuid × KillSwitchScopeBinding × KillSwitchSnapshotEntry) → Check
  | [] => return ()
  | (snapshotId, binding, entry) :: rest => do
      refuse (entry.snapshotId ≠ snapshotId ∨ entry.workspaceId ≠ request.workspaceId ∨
          entry.scopeKind ≠ binding.scopeKind ∨ entry.scopeId ≠ binding.scopeId)
        "kill_switch_snapshot_binding_mismatch"
      refuse (entry.updatedAt > request.evaluatedAt) "kill_switch_snapshot_not_yet_current"
      refuse (entry.state ≠ .clear) ("kill_switch_" ++ entry.state.value)
      killSwitchEntriesDenial request rest

/-- `_kill_switch_denial_reason`. -/
def killSwitchDenialReason (request : AuthorizationRequest)
    (context : Option AuthorityEvaluationContext) : Check := do
  let context ← present context "authority_context_missing"
  let snapshotIds := request.killSwitchSnapshotIds
  let bindings := request.killSwitchScopeBindings
  refuse (snapshotIds = [] ∨ bindings = [] ∨ snapshotIds.length ≠ bindings.length)
    "kill_switch_claims_incomplete"
  refuse (¬ snapshotIds.Nodup) "kill_switch_snapshot_set_ambiguous"
  refuse (¬ bindings.Nodup) "kill_switch_scope_set_ambiguous"
  refuse (⟨.workspace, request.workspaceId⟩ ∉ bindings ∨ ⟨.agent, request.actingAgentId⟩ ∉ bindings)
    "kill_switch_hierarchy_incomplete"
  let proof ← present context.killSwitchVerificationProof "kill_switch_verification_proof_missing"
  refuse (proof.requestContextId ≠ request.requestContextId ∨
      proof.workspaceId ≠ request.workspaceId ∨
      proof.actingAgentId ≠ request.actingAgentId ∨
      proof.action ≠ request.action ∨
      proof.killSwitchSnapshotIds ≠ snapshotIds ∨
      proof.killSwitchSnapshotDigest ≠ request.killSwitchSnapshotDigest ∨
      proof.requiredScopeBindings ≠ bindings) "kill_switch_verification_proof_mismatch"
  refuse (¬ proof.finalized) "kill_switch_verification_not_finalized"
  refuse (proof.observedAt > request.evaluatedAt) "kill_switch_verification_proof_not_yet_valid"
  refuse (proof.expiresAt ≤ request.evaluatedAt) "kill_switch_verification_proof_expired"
  refuse (¬ proof.hierarchyExhaustive) "kill_switch_hierarchy_unverified"
  refuse (proof.entries.length ≠ snapshotIds.length) "kill_switch_snapshot_set_incomplete"
  refuse (¬ (proof.entries.map (·.snapshotId)).Nodup) "kill_switch_snapshot_set_ambiguous"
  killSwitchEntriesDenial request (snapshotIds.zip (bindings.zip proof.entries))

/-! ## Audience and client -/

/-- Whether the audience takes in the requester; a scope of another kind raises. -/
def audienceAllows (request : AuthorizationRequest) (context : AuthorityEvaluationContext)
    (audience : AudiencePolicySnapshot) : Except String Bool :=
  let ofScope := fun kind : ScopeKind =>
    if kind ≠ request.scopeKind then .error "audience_scope_mismatch" else .ok true
  match audience.visibility with
  | .personal => .ok (audience.ownerPrincipalId = some request.requesterId)
  | .explicitPrincipals => .ok (request.requesterId ∈ audience.principalIds)
  | .role => .ok (audience.roleIds.any (· ∈ context.requesterRoleIds))
  | .project => ofScope .project
  | .channel => ofScope .channel
  | .thread => ofScope .thread
  | .workspace => .ok true

/-- `_audience_client_denial_reason`. -/
def audienceClientDenialReason (request : AuthorizationRequest)
    (context : Option AuthorityEvaluationContext) : Check := do
  let context ← present context "authority_context_missing"
  let audience ← present context.audiencePolicySnapshot "audience_policy_snapshot_missing"
  let client ← present context.clientContext "client_context_missing"
  refuse (audience.id ≠ request.audiencePolicySnapshotId ∨
      audience.workspaceId ≠ request.workspaceId ∨
      audience.policyDigest ≠ request.audiencePolicyDigest ∨
      audience.scopeDigest ≠ request.scopeDigest) "audience_policy_snapshot_mismatch"
  refuse (audience.createdAt > request.evaluatedAt) "audience_policy_snapshot_not_yet_current"
  let allows ← audienceAllows request context audience
  refuse (¬ allows) "audience_principal_denied"
  refuse (request.clientSurface ∉ context.enabledClientSurfaces) "client_surface_disabled"
  refuse (client.id ≠ request.clientContextId) "client_context_mismatch"
  refuse (client.surface ≠ request.clientSurface) "client_surface_mismatch"
  refuse (client.transportPrincipalId ≠ some request.transportPrincipalId)
    "transport_principal_mismatch"
  refuse (client.issuedAt > request.evaluatedAt) "client_context_not_yet_active"
  refuse (∃ expiry ∈ client.expiresAt, request.evaluatedAt ≥ expiry) "client_context_expired"

end Corvus.Authorization
