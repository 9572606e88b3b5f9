import Corvus.Authorization.Capability

/-!
# What an allowed request under a registry rests on

The registry anchor asks for a trust state, a verifier key, a freshness proof and the
signatures of the offline roots. All of it holds of an allowed request but one thing: the
validity check of the verifier key asks for the time of a revocation only where one is
recorded, so a key that is revoked without a time passes.
-/

namespace Corvus.Authorization

/-! ## The evidence -/

/-- The verifier key is the latest one, within its window, and neither revoked nor
compromised unless that lies in the future. -/
structure LiveKey (state : AuthorityRegistryTrustState)
    (verifier : AuthorityRegistryVerifierKeyVersion) (now : Instant) : Prop where
  latest : verifier.keyVersion = state.latestVerifierKeyVersion
  started : verifier.validFrom ≤ now
  running : ∀ until_ ∈ verifier.validUntil, now < until_
  revoked : verifier.status = .revoked → ∃ at_ ∈ verifier.revokedAt, now < at_
  compromised : verifier.status = .compromised →
    ∃ at_ ∈ verifier.compromiseEffectiveAt, now < at_

/-- The trust state and its freshness proof are unexpired and agree, and the proof answers
the nonce with a new sequence number. -/
structure Fresh (state : AuthorityRegistryTrustState) (proof : AuthorityRegistryFreshnessProof)
    (minimumSequence : Nat) (nonce : Option String) (now : Instant) : Prop where
  state_unexpired : now < state.expiresAt
  proof_unexpired : now < proof.expiresAt
  version : proof.trustStateMetadataVersion = state.metadataVersion
  head : proof.completeHistoryHeadDigest = state.completeHistoryHeadDigest
  sequence : minimumSequence < proof.registrySequence
  nonce : nonce = some proof.challengeNonceDigest

/-- A strict majority of the keys, which are pairwise different and pinned by the anchor,
has signed the digest of the trust state. -/
structure SignedByMajority (V : Verification) (anchor : AuthorityTrustAnchor)
    (state : AuthorityRegistryTrustState) (keys signatures : List String) : Prop where
  distinct : keys.Nodup
  pinned : anchor.pinnedRegistryRootDigest = some (authorityPublicKeySetDigest V.toDigests keys)
  signers : ∃ signers : List String, signers.Nodup ∧ signers ⊆ keys ∧
    keys.length < 2 * signers.length ∧
    ∀ key ∈ signers, ∃ signature ∈ signatures,
      V.verifySignature key signature (state.canonicalDigest V.toDigests) = true

/-- The evidence of a registry anchor, apart from the status of the verifier key. -/
structure RegistryEvidence (V : Verification) (request : AuthorizationRequest)
    (context : AuthorityEvaluationContext) (anchor : AuthorityTrustAnchor)
    (state : AuthorityRegistryTrustState) (verifier : AuthorityRegistryVerifierKeyVersion)
    (freshness : AuthorityRegistryFreshnessProof) (proof : RegistryVerificationProof) :
    Prop where
  anchor_held : context.trustAnchor = some anchor
  state_held : context.registryTrustState = some state
  verifier_held : context.registryVerifierKey = some verifier
  freshness_held : context.registryFreshnessProof = some freshness
  proof_held : context.registryVerificationProof = some proof
  fresh : Fresh state freshness context.minimumRegistrySequence
    context.expectedRegistryNonceDigest request.evaluatedAt
  signed : SignedByMajority V anchor state proof.offlineRootPublicKeys proof.trustStateSignatures

/-- The request rests on a live key and on a signed threshold. -/
def RestsOnLiveKeys (V : Verification) (request : AuthorizationRequest)
    (context : AuthorityEvaluationContext) : Prop :=
  ∃ anchor state verifier freshness proof,
    RegistryEvidence V request context anchor state verifier freshness proof ∧
    LiveKey state verifier request.evaluatedAt

/-- A verifier key that is revoked or compromised has the time of it. -/
def CutoffRecorded (context : AuthorityEvaluationContext) : Prop :=
  ∀ verifier ∈ context.registryVerifierKey,
    (verifier.status = .revoked → verifier.revokedAt ≠ none) ∧
    (verifier.status = .compromised → verifier.compromiseEffectiveAt ≠ none)

/-! ## What each check establishes -/

section Checks

variable {V : Verification} {request : AuthorizationRequest}
  {context : AuthorityEvaluationContext} {anchor : AuthorityTrustAnchor}
  {state : AuthorityRegistryTrustState} {verifier : AuthorityRegistryVerifierKeyVersion}
  {freshness : AuthorityRegistryFreshnessProof} {u : Unit}

theorem trust_state_of_ok (ok : trustStateDenial request context anchor = .ok state) :
    context.registryTrustState = some state ∧ request.evaluatedAt < state.expiresAt := by
  simp only [trustStateDenial, bind_eq_ok, refuse_eq_ok, present_eq_ok, pure_eq_ok] at ok
  obtain ⟨_, _, _, _, _, found, _, _, _, _, _, _, _, _, _, unexpired, same⟩ := ok
  obtain rfl := Except.ok.inj same
  exact ⟨found, not_le.mp unexpired⟩

/-- What the validity check asks of the key: a time of revocation that is recorded must
lie in the future. -/
theorem verifier_time_of_ok {now : Instant}
    (ok : validateRegistryVerifierTime verifier now = .ok u) :
    verifier.validFrom ≤ now ∧ (∀ until_ ∈ verifier.validUntil, now < until_) ∧
      (verifier.status = .revoked → ∀ at_ ∈ verifier.revokedAt, now < at_) ∧
      (verifier.status = .compromised → ∀ at_ ∈ verifier.compromiseEffectiveAt, now < at_) := by
  simp only [validateRegistryVerifierTime, bind_eq_ok, refuse_eq_ok] at ok
  obtain ⟨_, started, _, running, _, revoked, compromised⟩ := ok
  refine ⟨not_lt.mp started, fun until_ mem => ?_, fun status at_ mem => ?_,
    fun status at_ mem => ?_⟩
  · exact not_le.mp fun reached => running ⟨until_, mem, reached⟩
  · exact not_le.mp fun reached => revoked ⟨status, at_, mem, reached⟩
  · exact not_le.mp fun reached => compromised ⟨status, at_, mem, reached⟩

theorem verifier_of_ok (ok : verifierDenial request context state = .ok verifier) :
    context.registryVerifierKey = some verifier ∧
      verifier.keyVersion = state.latestVerifierKeyVersion ∧
      validateRegistryVerifierTime verifier request.evaluatedAt = .ok () := by
  simp only [verifierDenial, bind_eq_ok, refuse_eq_ok, present_eq_ok, pure_eq_ok] at ok
  obtain ⟨_, found, _, _, _, _, _, version, _, valid, same⟩ := ok
  obtain rfl := Except.ok.inj same
  exact ⟨found, not_not.mp version, valid⟩

theorem freshness_of_ok {nonce : String}
    (ok : freshnessDenial request context state verifier = .ok (freshness, nonce)) :
    context.registryFreshnessProof = some freshness ∧
      context.expectedRegistryNonceDigest = some nonce ∧
      freshness.trustStateMetadataVersion = state.metadataVersion ∧
      freshness.completeHistoryHeadDigest = state.completeHistoryHeadDigest ∧
      request.evaluatedAt < freshness.expiresAt := by
  simp only [freshnessDenial, bind_eq_ok, refuse_eq_ok, present_eq_ok, pure_eq_ok] at ok
  obtain ⟨_, found, _, _, _, _, _, _, _, version, _, head, _, _, _, _, _, _, _, unexpired, _,
    nonce_found, same⟩ := ok
  obtain ⟨rfl, rfl⟩ := Prod.mk.inj (Except.ok.inj same)
  exact ⟨found, nonce_found, not_not.mp version, not_not.mp head, not_le.mp unexpired⟩

/-- The keys whose signature verifies, picked from a list of keys and a list of signatures. -/
theorem signers_of_countP {keys signatures : List String} (verifies : String → String → Bool)
    (distinct : keys.Nodup) (lengths : keys.length = signatures.length) :
    ∃ signers : List String, signers.Nodup ∧ signers ⊆ keys ∧
      signers.length = (keys.zip signatures).countP (fun signed => verifies signed.1 signed.2) ∧
      ∀ key ∈ signers, ∃ signature ∈ signatures, verifies key signature = true := by
  let verified := (keys.zip signatures).filter fun signed => verifies signed.1 signed.2
  have zipped : (keys.zip signatures).map Prod.fst = keys :=
    List.map_fst_zip (le_of_eq lengths)
  have inside : (verified.map Prod.fst).Sublist keys := by
    rw [← zipped]
    exact List.filter_sublist.map Prod.fst
  refine ⟨verified.map Prod.fst, inside.nodup distinct, inside.subset, ?_, ?_⟩
  · rw [List.length_map, List.countP_eq_length_filter]
  · intro key mem
    obtain ⟨⟨key, signature⟩, signed, rfl⟩ := List.mem_map.mp mem
    obtain ⟨paired, holds⟩ := List.mem_filter.mp signed
    exact ⟨signature, (List.of_mem_zip paired).2, holds⟩

theorem signed_of_ok
    (ok : signatureDenial V context anchor state verifier freshness = .ok u) :
    ∃ proof, context.registryVerificationProof = some proof ∧
      SignedByMajority V anchor state proof.offlineRootPublicKeys
        proof.trustStateSignatures := by
  simp only [signatureDenial, bind_eq_ok, refuse_eq_ok, present_eq_ok, not_or, not_not] at ok
  obtain ⟨proof, found, _, _, _, _, _, ⟨distinct, lengths⟩, _, ⟨pinned, _, threshold⟩, _,
    enough, _⟩ := ok
  obtain ⟨signers, nodup, subset, length, signed⟩ := signers_of_countP
    (fun key signature => V.verifySignature key signature (state.canonicalDigest V.toDigests))
    distinct lengths
  refine ⟨proof, found, distinct, pinned.symm, signers, nodup, subset, ?_, signed⟩
  omega

theorem freshness_proof_of_ok {minimum : Nat} {nonce : String}
    (ok : validateRegistryFreshnessProof freshness minimum nonce = .ok u) :
    minimum < freshness.registrySequence ∧ nonce = freshness.challengeNonceDigest := by
  simp only [validateRegistryFreshnessProof, bind_eq_ok, refuse_eq_ok, not_not] at ok
  obtain ⟨_, advanced, same⟩ := ok
  exact ⟨not_le.mp advanced, same.symm⟩

/-! ## The evidence of an allowed request -/

theorem evidence_of_registry_ok (held : context.trustAnchor = some anchor)
    (kind : anchor.kind = .registryGeneration)
    (ok : registryDenialReason V request context anchor = .ok u) :
    ∃ state verifier freshness proof,
      RegistryEvidence V request context anchor state verifier freshness proof ∧
      verifier.keyVersion = state.latestVerifierKeyVersion ∧
      validateRegistryVerifierTime verifier request.evaluatedAt = .ok () := by
  rw [registryDenialReason, if_neg (not_not.mpr kind)] at ok
  simp only [bind_eq_ok] at ok
  obtain ⟨state, state_ok, _, _, verifier, verifier_ok, ⟨freshness, nonce⟩, freshness_ok, _,
    signed_ok, sequence_ok⟩ := ok
  obtain ⟨state_found, state_unexpired⟩ := trust_state_of_ok state_ok
  obtain ⟨verifier_found, latest, valid⟩ := verifier_of_ok verifier_ok
  obtain ⟨freshness_found, nonce_found, version, head, unexpired⟩ := freshness_of_ok freshness_ok
  obtain ⟨proof, proof_found, signed⟩ := signed_of_ok signed_ok
  obtain ⟨sequence, answered⟩ := freshness_proof_of_ok sequence_ok
  refine ⟨state, verifier, freshness, proof, ?_, latest, valid⟩
  exact ⟨held, state_found, verifier_found, freshness_found, proof_found,
    ⟨state_unexpired, unexpired, version, head, sequence,
      nonce_found.trans (congrArg some answered)⟩, signed⟩

theorem authority_of_ok {held : Option AuthorityEvaluationContext}
    (ok : authorityDenialReason V request held = .ok u) :
    ∃ context anchor, held = some context ∧ context.trustAnchor = some anchor ∧
      registryDenialReason V request context anchor = .ok () ∧
      manifestDenialReason request context = .ok () := by
  simp only [authorityDenialReason, bind_eq_ok, present_eq_ok] at ok
  obtain ⟨context, rfl, _, _, _, _, _, _, _, _, anchor, anchor_ok, _, registry, _, manifest, _⟩ :=
    ok
  simp only [trustAnchorDenial, bind_eq_ok, present_eq_ok, pure_eq_ok] at anchor_ok
  obtain ⟨_, found, _, _, _, _, _, _, _, _, _, _, same⟩ := anchor_ok
  obtain rfl := Except.ok.inj same
  exact ⟨context, _, rfl, found, registry, manifest⟩

theorem evidence_of_allow {held : Option AuthorityEvaluationContext}
    {requesterBundle agentBundle : AccessBundle} {agentGrant : Option AgentGrant}
    {requesterGrants agentCapabilities : List CapabilityGrant}
    {delegationGrants : List DelegationGrant}
    (allow : (evaluateCapabilityIntersection V request held requesterBundle requesterGrants
      agentGrant agentBundle agentCapabilities delegationGrants).decision = .allow) :
    ∃ context anchor, held = some context ∧ context.trustAnchor = some anchor ∧
      registryDenialReason V request context anchor = .ok () ∧
      manifestDenialReason request context = .ok () := by
  obtain ⟨⟨_, _, _, grounded⟩, _⟩ := allow_iff.mp allow
  have evidence := grounded.evidence
  simp only [evidenceDenial, bind_eq_ok] at evidence
  obtain ⟨_, authority, _⟩ := evidence
  exact authority_of_ok authority

end Checks

/-- An allowed request under a registry anchor has the evidence, with a live key exactly if
a key that is revoked or compromised has the time of it. -/
theorem allow_rests_on_live_keys_iff (V : Verification) (request : AuthorizationRequest)
    (context : AuthorityEvaluationContext) (requesterBundle agentBundle : AccessBundle)
    (requesterGrants agentCapabilities : List CapabilityGrant) (agentGrant : Option AgentGrant)
    (delegationGrants : List DelegationGrant)
    (registry : ∃ anchor ∈ context.trustAnchor, anchor.kind = .registryGeneration)
    (allow : (evaluateCapabilityIntersection V request (some context) requesterBundle
      requesterGrants agentGrant agentBundle agentCapabilities delegationGrants).decision =
        .allow) :
    RestsOnLiveKeys V request context ↔ CutoffRecorded context := by
  obtain ⟨_, anchor, same, held, registry_ok, -⟩ := evidence_of_allow allow
  obtain rfl := Option.some.inj same
  obtain ⟨_, found, kind⟩ := registry
  obtain rfl := Option.some.inj (held.symm.trans found)
  obtain ⟨state, verifier, freshness, proof, evidence, latest, valid⟩ :=
    evidence_of_registry_ok held kind registry_ok
  constructor
  · rintro ⟨_, _, live_verifier, _, _, live_evidence, live⟩ verifier' mem
    obtain rfl := Option.some.inj (live_evidence.verifier_held.symm.trans mem)
    refine ⟨fun status missing => ?_, fun status missing => ?_⟩
    · obtain ⟨_, recorded, _⟩ := live.revoked status
      rw [missing] at recorded
      exact nomatch recorded
    · obtain ⟨_, recorded, _⟩ := live.compromised status
      rw [missing] at recorded
      exact nomatch recorded
  · intro recorded
    obtain ⟨revoked_at, compromised_at⟩ := recorded verifier evidence.verifier_held
    obtain ⟨started, running, revoked, compromised⟩ := verifier_time_of_ok valid
    refine ⟨anchor, state, verifier, freshness, proof, evidence, latest, started, running,
      fun status => ?_, fun status => ?_⟩
    · obtain ⟨at_, known⟩ := Option.ne_none_iff_exists'.mp (revoked_at status)
      exact ⟨at_, known, revoked status at_ known⟩
    · obtain ⟨at_, known⟩ := Option.ne_none_iff_exists'.mp (compromised_at status)
      exact ⟨at_, known, compromised status at_ known⟩

/-! ## An allowed request -/

namespace Sample

variable (D : Digests)

/-- A signature is the key followed by the message. -/
def verification : Verification :=
  { D with verifySignature := fun publicKey signature message => signature = publicKey ++ message }

def hex (digit : Char) : String := String.ofList (List.replicate 64 digit)

def workspace : Uuid := .ofNat 1
def requester : Uuid := .ofNat 2
def agent : Uuid := .ofNat 3
def registryId : Uuid := .ofNat 4
def manifestId : Uuid := .ofNat 5
def roots : List String := ["root a", "root b", "root c"]

def families : List AuthorityStateRootLeafFamily :=
  [⟨manifestId, 1, "grants", .inRoot, none, 1⟩]

def state : AuthorityRegistryTrustState where
  registryId := registryId
  metadataVersion := 1
  latestVerifierKeyVersion := 2
  completeHistoryHeadDigest := hex '1'
  issuedAt := 0
  expiresAt := 200
  offlineRootVersion := 1
  thresholdSignatureSetDigest := authorityPublicKeySetDigest D roots
  previousMetadataDigest := none

/-- A verifier key of the given status, without the time of it. -/
def verifier (status : RegistryVerifierKeyStatus) : AuthorityRegistryVerifierKeyVersion where
  id := .ofNat 6
  registryId := registryId
  keyVersion := 2
  algorithm := "ed25519"
  publicKey := "verifier"
  status := status
  validFrom := 0
  validUntil := none
  revokedAt := none
  compromiseEffectiveAt := none

def freshness : AuthorityRegistryFreshnessProof where
  id := .ofNat 7
  registryId := registryId
  trustStateMetadataVersion := 1
  completeHistoryHeadDigest := hex '1'
  registrySequence := 9
  challengeNonceDigest := hex '2'
  responseDigest := hex '3'
  issuedAt := 0
  expiresAt := 200
  verifierKeyVersionId := .ofNat 6
  registrySignature := "verifier" ++ hex '3'

def possession : AuthorityRuntimePossessionProof where
  requestContextId := .ofNat 8
  workspaceId := workspace
  deploymentInstanceId := .ofNat 9
  authorityEpochCredentialId := .ofNat 10
  authorityEpoch := 1
  authorityGeneration := 1
  authorityStateRoot := hex '4'
  deviceBindingDigest := hex '5'
  lockName := fixedWorkspaceLockName D workspace
  nonceDigest := hex '6'
  issuedAt := 90
  expiresAt := 110
  deploymentInstanceSignature := ""
  epochCredentialSignature := ""

def instance_ : DeploymentInstance := ⟨.ofNat 9, .ofNat 18, "instance", hex '5', .active⟩

def credential : AuthorityEpochCredential :=
  ⟨.ofNat 10, workspace, 1, .ofNat 9, "epoch", hex '5', .active⟩

/-- The possession proof with its two signatures. -/
def signedPossession : AuthorityRuntimePossessionProof :=
  { possession D with
    deploymentInstanceSignature := "instance" ++ (possession D).digest D
    epochCredentialSignature := "epoch" ++ (possession D).digest D }

def anchor : AuthorityTrustAnchor where
  id := .ofNat 12
  workspaceId := workspace
  kind := .registryGeneration
  anchorRegistryId := some registryId
  pinnedRegistryRootDigest := some (authorityPublicKeySetDigest D roots)
  localLockName := none
  sealedGenerationRef := none
  deviceBindingDigest := none
  status := .active
  createdAt := 0

/-- A request to read a document, under a manifest of the given digest. -/
def request (manifestDigest : String) : AuthorizationRequest where
  workspaceId := workspace
  requestContextId := .ofNat 8
  deploymentInstanceId := .ofNat 9
  workspaceAuthorityEpoch := 1
  workspaceAuthorityGeneration := 1
  authorityStateRoot := hex '4'
  authorityEpochCredentialId := .ofNat 10
  authorityCommitReceiptId := .ofNat 11
  authorityProofDigest := hex '7'
  trustAnchorId := .ofNat 12
  registryTrustMetadataVersion := some 1
  registryHistoryHeadDigest := some (hex '1')
  registryFreshnessProofId := some (.ofNat 7)
  registryFreshnessSequence := some 9
  authorityManifestVersionId := manifestId
  authorityManifestDigest := manifestDigest
  executionPlacementId := none
  providerConnectionId := none
  credentialRefId := none
  credentialVersionId := none
  credentialGrantId := none
  budgetSnapshotIds := []
  budgetSnapshotDigest := none
  runtimeLimitDigest := none
  budgetUnit := none
  budgetRequestedAmount := none
  killSwitchSnapshotIds := [.ofNat 13, .ofNat 14]
  killSwitchSnapshotDigest := hex '8'
  killSwitchScopeBindings := [⟨.workspace, workspace⟩, ⟨.agent, agent⟩]
  audiencePolicySnapshotId := .ofNat 15
  audiencePolicyDigest := hex '9'
  scopeDigest := hex 'a'
  clientContextId := .ofNat 16
  clientSurface := .cli
  transportPrincipalId := requester
  requesterId := requester
  actingAgentId := agent
  scopeKind := .workspace
  scopeId := workspace
  resourceKind := "document"
  resourceId := .ofNat 17
  action := "document.read"
  evaluatedAt := 100
  epoch_pos := by decide

def switches : KillSwitchVerificationProof where
  requestContextId := .ofNat 8
  workspaceId := workspace
  actingAgentId := agent
  action := "document.read"
  killSwitchSnapshotIds := [.ofNat 13, .ofNat 14]
  killSwitchSnapshotDigest := hex '8'
  requiredScopeBindings := [⟨.workspace, workspace⟩, ⟨.agent, agent⟩]
  entries := [⟨.ofNat 13, workspace, .workspace, workspace, .clear, 50⟩,
    ⟨.ofNat 14, workspace, .agent, agent, .clear, 50⟩]
  observedAt := 90
  expiresAt := 200
  hierarchyExhaustive := true
  finalized := true

/-- The context of the request, whose verifier key has the given status. -/
def context (status : RegistryVerifierKeyStatus) (manifestDigest : String) :
    AuthorityEvaluationContext where
  deploymentInstance := some instance_
  workspaceAuthority := {
    workspaceId := workspace, deploymentProfileId := .ofNat 18
    deploymentInstanceId := .ofNat 9, epoch := 1, authorityGeneration := 1
    authorityStateRoot := hex '4', authorityEpochCredentialId := .ofNat 10
    trustAnchorId := .ofNat 12, activeLeaseId := some (.ofNat 19), state := .active
    activatedAt := 0 }
  epochCredential := some credential
  activeLease := some ⟨.ofNat 19, workspace, 1, .ofNat 9, 0, none⟩
  commitProof := some ⟨workspace, .ofNat 9, .ofNat 10, 1, 1, hex '4', .ofNat 11, hex '7', true⟩
  trustAnchor := some (anchor D)
  previousRegistryTrustState := none
  registryTrustState := some (state D)
  registryFreshnessProof := some freshness
  registryVerifierKey := some (verifier status)
  registryVerificationProof := some {
    registryId := registryId
    trustStateDigest := (state D).canonicalDigest D
    freshnessProofId := .ofNat 7
    freshnessResponseDigest := hex '3'
    verifierKeyVersionId := .ofNat 6
    offlineRootPublicKeys := roots
    trustStateSignatures := roots.map (· ++ (state D).canonicalDigest D)
    signatureThreshold := 2
    finalized := true }
  minimumRegistrySequence := 8
  expectedRegistryNonceDigest := some (hex '2')
  authorityManifest := some ⟨manifestId, 1, 1, manifestDigest, .active, 0⟩
  authorityManifestFamilies := families
  mutableAuthorityFamilies := ["grants"]
  executionPlacement := none
  credentialRef := none
  credentialVerificationProof := none
  budgetRuntimeVerificationProof := none
  killSwitchVerificationProof := some switches
  audiencePolicySnapshot :=
    some ⟨.ofNat 15, workspace, .workspace, none, [], [], hex 'a', hex '9', 0⟩
  requesterRoleIds := []
  clientContext := some ⟨.ofNat 16, .cli, some requester, 0, none⟩
  enabledClientSurfaces := [.cli]
  expectedCredentialRotationEpoch := none
  expectedCredentialNonceDigest := none
  runtimePossessionProof := some (signedPossession D)

/-- The bundle of a principal in the workspace. -/
def bundle (id principal : Uuid) : AccessBundle :=
  ⟨id, workspace, principal, .workspace, workspace, none, none⟩

def requesterBundle : AccessBundle := bundle (.ofNat 20) requester
def agentBundle : AccessBundle := bundle (.ofNat 21) agent
def agentGrant : AgentGrant := ⟨.ofNat 22, workspace, agent, .ofNat 21, none, none⟩

/-- The right to read the document, in a bundle. -/
def mayRead (bundle : AccessBundle) : CapabilityGrant :=
  ⟨bundle.id, workspace, "document", .ofNat 17, "document.read", .allow⟩

def result (status : RegistryVerifierKeyStatus) (manifestDigest : String) : AuthorizationResult :=
  evaluateCapabilityIntersection (verification D) (request manifestDigest)
    (some (context D status manifestDigest)) requesterBundle [mayRead requesterBundle]
    (some agentGrant) agentBundle [mayRead agentBundle] []


variable (status : RegistryVerifierKeyStatus) (manifestDigest : String)

theorem registry_anchored :
    ∃ anchor ∈ (context D status manifestDigest).trustAnchor, anchor.kind = .registryGeneration :=
  ⟨anchor D, rfl, rfl⟩

theorem verifier_held :
    (context D status manifestDigest).registryVerifierKey = some (verifier status) := rfl

theorem signed : signatureDenial (verification D) (context D status manifestDigest) (anchor D)
    (state D) (verifier status) freshness = .ok () := by
  have distinct : roots.Nodup := by decide
  have lower : "ed25519".toLower = "ed25519" := by decide +kernel
  simp [signatureDenial, bind_eq_ok, refuse_eq_ok, context, present, ok_bind, anchor, distinct]
  simp [state, freshness, verifier, verification, roots, lower]

theorem possessed : runtimePossessionDenialReason (verification D) (request manifestDigest)
    (context D status manifestDigest) instance_ credential (anchor D) = .ok () := by
  simp [runtimePossessionDenialReason, bind_eq_ok, refuse_eq_ok, context, present, ok_bind,
    anchor]
  simp [signedPossession, possession, request, verification, instance_, credential,
    AuthorityRuntimePossessionProof.digest]

theorem registry_ok : registryDenialReason (verification D) (request manifestDigest)
    (context D status manifestDigest) (anchor D) = .ok () := by
  rw [registryDenialReason, if_neg (by simp [anchor])]
  simp only [bind_eq_ok]
  refine ⟨state D, by rfl, (), rfl, verifier status, ?_, (freshness, hex '2'), by rfl, (),
    signed D status manifestDigest, by rfl⟩
  cases status <;> rfl

theorem manifest_ok :
    manifestDenialReason (request manifestDigest) (context D status manifestDigest) = .ok () := by
  simp [manifestDenialReason, bind_eq_ok, refuse_eq_ok, context, present, ok_bind, request,
    families, validateAuthorityRootManifest]

theorem authority_ok : authorityDenialReason (verification D) (request manifestDigest)
    (some (context D status manifestDigest)) = .ok () := by
  simp only [authorityDenialReason, bind_eq_ok]
  exact ⟨_, rfl, instance_, rfl, (), by rfl, credential, by rfl, (), by rfl, anchor D, by rfl, (),
    registry_ok D status manifestDigest, (), manifest_ok D status manifestDigest, (),
    possessed D status manifestDigest, by rfl⟩

theorem allowed : (result D status manifestDigest).decision = .allow := by
  have home : ∀ id ∈ [requesterBundle.workspaceId, agentBundle.workspaceId,
      agentGrant.workspaceId], id = (request manifestDigest).workspaceId := by
    rintro _ (_ | ⟨_, _ | ⟨_, _ | ⟨_, ⟨⟩⟩⟩⟩) <;> rfl
  have free : ∀ bundle : AccessBundle,
      ∀ g ∈ [mayRead bundle], ¬ Blocks bundle (request manifestDigest) g := by
    rintro bundle _ (_ | ⟨_, ⟨⟩⟩) (foreign | denies)
    · exact foreign rfl
    · simp [grantDenies, mayRead] at denies
  rw [result, allow_iff]
  refine ⟨⟨agentGrant, none, rfl, ?_, home, by rfl, by rfl, by rfl, by rfl, by rfl⟩,
    ⟨_, List.mem_singleton_self _, by rfl⟩, ⟨_, List.mem_singleton_self _, by rfl⟩, free _, free _⟩
  simp only [evidenceDenial, bind_eq_ok]
  exact ⟨(), authority_ok D status manifestDigest, (), by rfl, (), by rfl, by rfl⟩

/-- Every text is its own digest. -/
def digests : Digests := ⟨id, fun _ => .ofNat 0⟩

end Sample

/-- A verifier key that is revoked without a time is no live key, and its request is
allowed. -/
theorem revoked_key_allowed :
    (Sample.result Sample.digests .revoked (Sample.hex 'e')).decision = .allow ∧
      (∃ anchor ∈ (Sample.context Sample.digests .revoked (Sample.hex 'e')).trustAnchor,
        anchor.kind = .registryGeneration) ∧
      ¬ RestsOnLiveKeys (Sample.verification Sample.digests) (Sample.request (Sample.hex 'e'))
        (Sample.context Sample.digests .revoked (Sample.hex 'e')) := by
  refine ⟨Sample.allowed _ _ _, Sample.registry_anchored _ _ _, ?_⟩
  rintro ⟨_, _, verifier, _, _, evidence, live⟩
  have found := evidence.verifier_held
  rw [Sample.verifier_held] at found
  obtain rfl := Option.some.inj found
  obtain ⟨_, recorded, _⟩ := live.revoked rfl
  exact nomatch recorded

theorem allow_rests_on_live_keys_sample :
    RestsOnLiveKeys (Sample.verification Sample.digests) (Sample.request (Sample.hex 'e'))
      (Sample.context Sample.digests .active (Sample.hex 'e')) := by
  have allowed := Sample.allowed Sample.digests .active (Sample.hex 'e')
  rw [Sample.result] at allowed
  refine (allow_rests_on_live_keys_iff _ _ _ _ _ _ _ _ _ (Sample.registry_anchored _ _ _)
    allowed).mpr ?_
  intro verifier found
  rw [Sample.verifier_held] at found
  obtain rfl := Option.some.inj found
  exact ⟨nofun, nofun⟩

end Corvus.Authorization
