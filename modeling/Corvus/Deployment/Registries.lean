import Corvus.Authorization.Denials
import Corvus.Library.Log
import Corvus.Library.Run
import Corvus.Projects.Records

/-!
# The history of a registry

The verifier keys and the trust states of a registry are logs, each entry with the digest of
the one before it, and its freshness proofs are numbered. A proof names any trust state that
has not expired, so that a later proof may name an older one.
-/

namespace Corvus.Deployment

open Authorization (jsonTime Verification RegistryVerifierKeyStatus AuthorityRegistryTrustState
  AuthorityRegistryFreshnessProof validateRegistryTrustTransition validateRegistryVerifierTime
  validateRegistryFreshnessProof)
open Projects (Members someMembers canonicalDigest)
open Run

/-! ## Records -/

inductive AuthorityRegistryStatus where
  | active | revoked | retired
deriving DecidableEq, Repr

structure AuthorityRegistry where
  id : Uuid
  endpointDigest : String
  status : AuthorityRegistryStatus

def verifierKeyStatusValue : RegistryVerifierKeyStatus → String
  | .active => "active"
  | .rotated => "rotated"
  | .revoked => "revoked"
  | .compromised => "compromised"

/-- A version of a verifier key, with what links it to its predecessor. -/
structure AuthorityRegistryVerifierKeyVersion extends
    Authorization.AuthorityRegistryVerifierKeyVersion where
  predecessorDigest : Option String
  predecessorSignature : Option String
  offlineRootRecoverySignature : Option String
  thresholdAttestationDigest : String

/-- `model_dump(mode="json", exclude_none=True)`. -/
def AuthorityRegistryVerifierKeyVersion.members (k : AuthorityRegistryVerifierKeyVersion) :
    Members := someMembers [
  ("id", some (.str k.id.text)),
  ("registry_id", some (.str k.registryId.text)),
  ("key_version", some (.int k.keyVersion)),
  ("algorithm", some (.str k.algorithm)),
  ("public_key", some (.str k.publicKey)),
  ("status", some (.str (verifierKeyStatusValue k.status))),
  ("valid_from", some (jsonTime k.validFrom)),
  ("valid_until", k.validUntil.map jsonTime),
  ("revoked_at", k.revokedAt.map jsonTime),
  ("compromise_effective_at", k.compromiseEffectiveAt.map jsonTime),
  ("predecessor_digest", k.predecessorDigest.map .str),
  ("predecessor_signature", k.predecessorSignature.map .str),
  ("offline_root_recovery_signature", k.offlineRootRecoverySignature.map .str),
  ("threshold_attestation_digest", some (.str k.thresholdAttestationDigest))]

/-- `_canonical_digest`. -/
def AuthorityRegistryVerifierKeyVersion.digest (D : Digests)
    (k : AuthorityRegistryVerifierKeyVersion) : String :=
  canonicalDigest D k.members

instance : Keyed AuthorityRegistry Uuid := ⟨AuthorityRegistry.id⟩
instance : Keyed AuthorityRegistryVerifierKeyVersion Uuid := ⟨fun k => k.id⟩
instance : Keyed AuthorityRegistryTrustState (Uuid × Nat) :=
  ⟨fun t => (t.registryId, t.metadataVersion)⟩
instance : Keyed AuthorityRegistryFreshnessProof Uuid := ⟨AuthorityRegistryFreshnessProof.id⟩

/-! ## The repository -/

/-- The tables of the registries. -/
structure Registries where
  registries : Table AuthorityRegistry
  keys : Table AuthorityRegistryVerifierKeyVersion
  trustStates : Table AuthorityRegistryTrustState
  proofs : Table AuthorityRegistryFreshnessProof

namespace Registries

def bare : Registries where
  registries := ∅
  keys := ∅
  trustStates := ∅
  proofs := ∅

/-- `add_registry`. No other registry has its endpoint. -/
def addRegistry (s : Registries) (r : AuthorityRegistry) : Except String Registries := do
  refuse (∃ q ∈ s.registries.rows, q.endpointDigest = r.endpointDigest)
    "authority_registry_identity_conflict"
  let registries ← present (s.registries.insert? r) "authority_registry_identity_conflict"
  return { s with registries := registries }

/-- The keys of a registry, as they have been appended. -/
def keysOf (s : Registries) (registryId : Uuid) : List AuthorityRegistryVerifierKeyVersion :=
  s.keys.rows.filter (·.registryId = registryId)

/-- The trust states of a registry, as they have been appended. -/
def trustStatesOf (s : Registries) (registryId : Uuid) : List AuthorityRegistryTrustState :=
  s.trustStates.rows.filter (·.registryId = registryId)

/-- The proofs of a registry, as they have been appended. -/
def proofsOf (s : Registries) (registryId : Uuid) : List AuthorityRegistryFreshnessProof :=
  s.proofs.rows.filter (·.registryId = registryId)

/-- The registry is there and active. -/
def requireActive (s : Registries) (registryId : Uuid) : Except String Unit := do
  let r ← present (s.registries.get? registryId) "authority_registry_not_active"
  require (r.status = .active) "authority_registry_not_active"

/-- What a key has to be after the latest one of its registry. -/
def validateSuccessor (D : Digests) (latest : Option AuthorityRegistryVerifierKeyVersion)
    (k : AuthorityRegistryVerifierKeyVersion) : Except String Unit :=
  match latest with
  | none => do
    require (k.keyVersion = 1) "registry_verifier_version_skipped"
    require (k.predecessorDigest = none ∧ k.predecessorSignature = none ∧
      k.offlineRootRecoverySignature = none) "registry_verifier_prefix_mismatch"
  | some previous => do
    require (k.keyVersion = previous.keyVersion + 1) "registry_verifier_version_skipped"
    require (k.predecessorDigest = some (previous.digest D)) "registry_verifier_prefix_mismatch"
    require k.predecessorSignature.isSome "registry_verifier_predecessor_signature_missing"
    require (previous.status = .compromised ↔ k.offlineRootRecoverySignature.isSome)
      "registry_verifier_recovery_authorization_mismatch"

/-- `append_verifier_key`. -/
def appendVerifierKey (D : Digests) (s : Registries) (k : AuthorityRegistryVerifierKeyVersion) :
    Except String Registries := do
  s.requireActive k.registryId
  validateSuccessor D ((s.keysOf k.registryId).argmax (·.keyVersion)) k
  refuse (∃ j ∈ s.keysOf k.registryId, j.keyVersion = k.keyVersion)
    "registry_verifier_identity_conflict"
  let keys ← present (s.keys.insert? k) "registry_verifier_identity_conflict"
  return { s with keys := keys }

/-- What a trust state has to be after the latest one of its registry. -/
def validateTransition (V : Verification) (latest : Option AuthorityRegistryTrustState)
    (t : AuthorityRegistryTrustState) (now : Instant) : Except String Unit :=
  match latest with
  | none => do
    require (t.metadataVersion = 1) "registry_metadata_version_skipped"
    require (t.previousMetadataDigest = none) "registry_metadata_prefix_mismatch"
    refuse (t.expiresAt ≤ now) "registry_trust_state_expired"
  | some previous => validateRegistryTrustTransition V previous t now

/-- `append_trust_state`. -/
def appendTrustState (V : Verification) (s : Registries) (t : AuthorityRegistryTrustState)
    (now : Instant) : Except String Registries := do
  s.requireActive t.registryId
  let k ← present ((s.keysOf t.registryId).find? (·.keyVersion = t.latestVerifierKeyVersion))
    "registry_trust_verifier_history_incomplete"
  require (k.status = .active) "registry_trust_latest_verifier_not_active"
  validateRegistryVerifierTime k.toAuthorityRegistryVerifierKeyVersion t.issuedAt
  validateTransition V ((s.trustStatesOf t.registryId).argmax (·.metadataVersion)) t now
  let trustStates ← present (s.trustStates.insert? t) "registry_trust_state_identity_conflict"
  return { s with trustStates := trustStates }

/-- `append_freshness_proof`. -/
def appendFreshnessProof (s : Registries) (p : AuthorityRegistryFreshnessProof) (now : Instant)
    (minimumSequence : Int) (expectedNonceDigest : String) : Except String Registries := do
  let t ← present (s.trustStates.get? (p.registryId, p.trustStateMetadataVersion))
    "registry_freshness_trust_state_missing"
  require (p.completeHistoryHeadDigest = t.completeHistoryHeadDigest)
    "registry_freshness_history_head_mismatch"
  let k ← present ((s.keys.get? p.verifierKeyVersionId).filter (·.registryId = p.registryId))
    "registry_freshness_verifier_missing"
  require (k.keyVersion = t.latestVerifierKeyVersion ∧ k.status = .active)
    "registry_freshness_verifier_mismatch"
  validateRegistryVerifierTime k.toAuthorityRegistryVerifierKeyVersion p.issuedAt
  refuse (p.issuedAt < t.issuedAt ∨ p.expiresAt ≤ now ∨ t.expiresAt < p.expiresAt)
    "registry_freshness_time_invalid"
  let persistedMinimum : Nat := ((s.proofsOf p.registryId).map (·.registrySequence)).max?.getD 0
  let effectiveMinimum := (max minimumSequence (persistedMinimum : Int)).toNat
  validateRegistryFreshnessProof p effectiveMinimum expectedNonceDigest
  require (p.registrySequence = persistedMinimum + 1) "registry_freshness_sequence_skipped"
  refuse (∃ q ∈ s.proofsOf p.registryId, q.challengeNonceDigest = p.challengeNonceDigest)
    "registry_nonce_replay"
  let proofs ← present (s.proofs.insert? p) "registry_freshness_identity_conflict"
  return { s with proofs := proofs }

end Registries

/-- A call of a method that writes. -/
inductive RegistryCall where
  | addRegistry (r : AuthorityRegistry)
  | appendVerifierKey (k : AuthorityRegistryVerifierKeyVersion)
  | appendTrustState (t : AuthorityRegistryTrustState) (now : Instant)
  | appendFreshnessProof (p : AuthorityRegistryFreshnessProof) (now : Instant)
      (minimumSequence : Int) (expectedNonceDigest : String)

namespace RegistryCall

def perform (V : Verification) (s : Registries) : RegistryCall → Except String Registries
  | addRegistry r => s.addRegistry r
  | appendVerifierKey k => s.appendVerifierKey V.toDigests k
  | appendTrustState t now => s.appendTrustState V t now
  | appendFreshnessProof p now minimum nonce => s.appendFreshnessProof p now minimum nonce

/-- The tables after a call. One that raises has changed nothing. -/
def step (V : Verification) (s : Registries) (call : RegistryCall) : Registries :=
  match call.perform V s with
  | .ok s' => s'
  | .error _ => s

end RegistryCall

/-! ## The histories of a registry -/

variable {V : Verification} {s s' : Registries} {registry : Uuid}

/-- A key has the digest of the one before it, and the first has none. -/
def KeyLink (D : Digests) (last : Option AuthorityRegistryVerifierKeyVersion)
    (k : AuthorityRegistryVerifierKeyVersion) : Prop :=
  k.predecessorDigest = last.map (·.digest D)

/-- A trust state has the digest of the one before it, and the first has none. Its verifier key
is not older. -/
structure TrustLink (D : Digests) (last : Option AuthorityRegistryTrustState)
    (t : AuthorityRegistryTrustState) : Prop where
  digest : t.previousMetadataDigest = last.map (·.canonicalDigest D)
  key : ∀ u ∈ last, u.latestVerifierKeyVersion ≤ t.latestVerifierKeyVersion

/-- The trust state and the verifier key that a proof has been checked against. -/
structure Names (s : Registries) (p : AuthorityRegistryFreshnessProof)
    (t : AuthorityRegistryTrustState) (k : AuthorityRegistryVerifierKeyVersion) : Prop where
  trust : t ∈ s.trustStatesOf p.registryId ∧ t.metadataVersion = p.trustStateMetadataVersion
  key : k ∈ s.keysOf p.registryId ∧ k.id = p.verifierKeyVersionId
  head : p.completeHistoryHeadDigest = t.completeHistoryHeadDigest
  version : k.keyVersion = t.latestVerifierKeyVersion

/-- What holds of the histories of a registry. -/
structure RegistryHistory (V : Verification) (s : Registries) (registry : Uuid) : Prop where
  keys : Log (·.keyVersion) (KeyLink V.toDigests) (s.keysOf registry)
  trustStates : Log (·.metadataVersion) (TrustLink V.toDigests) (s.trustStatesOf registry)
  proofs : Log (·.registrySequence) (fun _ _ => True) (s.proofsOf registry)
  nonces : ((s.proofsOf registry).map (·.challengeNonceDigest)).Nodup
  named : ∀ p ∈ s.proofsOf registry, ∃ t k, Names s p t k

theorem mem_keysOf {k : AuthorityRegistryVerifierKeyVersion} :
    k ∈ s.keysOf registry ↔ k ∈ s.keys ∧ k.registryId = registry := by
  rw [Registries.keysOf, List.mem_filter, decide_eq_true_iff, Table.mem_iff]

theorem mem_trustStatesOf {t : AuthorityRegistryTrustState} :
    t ∈ s.trustStatesOf registry ↔ t ∈ s.trustStates ∧ t.registryId = registry := by
  rw [Registries.trustStatesOf, List.mem_filter, decide_eq_true_iff, Table.mem_iff]

theorem mem_proofsOf {p : AuthorityRegistryFreshnessProof} :
    p ∈ s.proofsOf registry ↔ p ∈ s.proofs ∧ p.registryId = registry := by
  rw [Registries.proofsOf, List.mem_filter, decide_eq_true_iff, Table.mem_iff]

/-- Nothing that a proof names is lost. -/
theorem Names.mono {p : AuthorityRegistryFreshnessProof} {t : AuthorityRegistryTrustState}
    {k : AuthorityRegistryVerifierKeyVersion} (names : Names s p t k)
    (keys : ∀ k ∈ s.keys, k ∈ s'.keys) (trustStates : ∀ t ∈ s.trustStates, t ∈ s'.trustStates) :
    Names s' p t k := by
  obtain ⟨t_mem, its⟩ := mem_trustStatesOf.mp names.trust.1
  obtain ⟨k_mem, its'⟩ := mem_keysOf.mp names.key.1
  exact { names with
    trust := ⟨mem_trustStatesOf.mpr ⟨trustStates t t_mem, its⟩, names.trust.2⟩
    key := ⟨mem_keysOf.mpr ⟨keys k k_mem, its'⟩, names.key.2⟩ }

theorem validateSuccessor_ok {D : Digests} {latest : Option AuthorityRegistryVerifierKeyVersion}
    {k : AuthorityRegistryVerifierKeyVersion}
    (ok : Registries.validateSuccessor D latest k = .ok ()) :
    k.keyVersion = (latest.map (·.keyVersion)).getD 0 + 1 ∧ KeyLink D latest k := by
  cases latest with
  | none =>
    obtain ⟨_, first, rest⟩ := bind_eq_ok.mp ok
    exact ⟨require_eq_ok.mp first, (require_eq_ok.mp rest).1⟩
  | some previous =>
    obtain ⟨_, next, rest⟩ := bind_eq_ok.mp ok
    obtain ⟨_, digest, rest⟩ := bind_eq_ok.mp rest
    have digest := require_eq_ok.mp digest
    exact ⟨require_eq_ok.mp next, digest⟩

theorem validateTransition_ok {latest : Option AuthorityRegistryTrustState}
    {t : AuthorityRegistryTrustState} {now : Instant}
    (ok : Registries.validateTransition V latest t now = .ok ()) :
    t.metadataVersion = (latest.map (·.metadataVersion)).getD 0 + 1 ∧
      TrustLink V.toDigests latest t := by
  cases latest with
  | none =>
    obtain ⟨_, first, rest⟩ := bind_eq_ok.mp ok
    obtain ⟨_, digest, rest⟩ := bind_eq_ok.mp rest
    exact ⟨require_eq_ok.mp first, require_eq_ok.mp digest, fun u mem => absurd mem (by simp)⟩
  | some previous =>
    obtain ⟨_, -, rest⟩ := bind_eq_ok.mp ok
    obtain ⟨_, next, rest⟩ := bind_eq_ok.mp rest
    obtain ⟨_, digest, rest⟩ := bind_eq_ok.mp rest
    obtain ⟨_, -, rest⟩ := bind_eq_ok.mp rest
    obtain ⟨_, -, rest⟩ := bind_eq_ok.mp rest
    obtain ⟨_, key, rest⟩ := bind_eq_ok.mp rest
    refine ⟨not_not.mp (refuse_eq_ok.mp next), not_not.mp (refuse_eq_ok.mp digest), ?_⟩
    intro u mem
    obtain rfl := Option.some_inj.mp (Option.mem_def.mp mem)
    exact Nat.le_of_not_lt (refuse_eq_ok.mp key)

theorem history_appendVerifierKey {k : AuthorityRegistryVerifierKeyVersion}
    (ok : s.appendVerifierKey V.toDigests k = .ok s') (h : RegistryHistory V s registry) :
    RegistryHistory V s' registry := by
  obtain ⟨_, -, rest⟩ := bind_eq_ok.mp ok
  obtain ⟨_, valid, rest⟩ := bind_eq_ok.mp rest
  obtain ⟨_, -, rest⟩ := bind_eq_ok.mp rest
  obtain ⟨keys, inserted, rest⟩ := bind_eq_ok.mp rest
  obtain rfl := Except.ok.inj rest
  have appended := (Table.insert?_eq_some.mp (present_eq_ok.mp inserted)).2
  refine { h with keys := ?_, named := fun p mem => ?_ }
  · rw [Registries.keysOf, appended]
    refine h.keys.filter_append fun its => ?_
    obtain rfl := of_decide_eq_true its
    rw [h.keys.argmax] at valid
    obtain ⟨next, link⟩ := validateSuccessor_ok valid
    rw [h.keys.number_getLast?] at next
    exact ⟨next, link⟩
  · obtain ⟨t, k, names⟩ := h.named p mem
    exact ⟨t, k, names.mono (fun k mem => Table.mem_append_of_mem appended mem) fun t mem => mem⟩

theorem history_appendTrustState {t : AuthorityRegistryTrustState} {now : Instant}
    (ok : s.appendTrustState V t now = .ok s') (h : RegistryHistory V s registry) :
    RegistryHistory V s' registry := by
  obtain ⟨_, -, rest⟩ := bind_eq_ok.mp ok
  obtain ⟨_, -, rest⟩ := bind_eq_ok.mp rest
  obtain ⟨_, -, rest⟩ := bind_eq_ok.mp rest
  obtain ⟨_, -, rest⟩ := bind_eq_ok.mp rest
  obtain ⟨_, valid, rest⟩ := bind_eq_ok.mp rest
  obtain ⟨trustStates, inserted, rest⟩ := bind_eq_ok.mp rest
  obtain rfl := Except.ok.inj rest
  have appended := (Table.insert?_eq_some.mp (present_eq_ok.mp inserted)).2
  refine { h with trustStates := ?_, named := fun p mem => ?_ }
  · rw [Registries.trustStatesOf, appended]
    refine h.trustStates.filter_append fun its => ?_
    obtain rfl := of_decide_eq_true its
    rw [h.trustStates.argmax] at valid
    obtain ⟨next, link⟩ := validateTransition_ok valid
    rw [h.trustStates.number_getLast?] at next
    exact ⟨next, link⟩
  · obtain ⟨t, k, names⟩ := h.named p mem
    exact ⟨t, k, names.mono (fun k mem => mem) fun t mem => Table.mem_append_of_mem appended mem⟩

theorem history_appendFreshnessProof {p : AuthorityRegistryFreshnessProof} {now : Instant}
    {minimum : Int} {nonce : String} (ok : s.appendFreshnessProof p now minimum nonce = .ok s')
    (h : RegistryHistory V s registry) : RegistryHistory V s' registry := by
  obtain ⟨t, found, rest⟩ := bind_eq_ok.mp ok
  obtain ⟨_, head, rest⟩ := bind_eq_ok.mp rest
  obtain ⟨k, verifier, rest⟩ := bind_eq_ok.mp rest
  obtain ⟨_, version, rest⟩ := bind_eq_ok.mp rest
  obtain ⟨_, -, rest⟩ := bind_eq_ok.mp rest
  obtain ⟨_, -, rest⟩ := bind_eq_ok.mp rest
  obtain ⟨_, -, rest⟩ := bind_eq_ok.mp rest
  obtain ⟨_, next, rest⟩ := bind_eq_ok.mp rest
  obtain ⟨_, fresh, rest⟩ := bind_eq_ok.mp rest
  obtain ⟨proofs, inserted, rest⟩ := bind_eq_ok.mp rest
  obtain rfl := Except.ok.inj rest
  have appended := (Table.insert?_eq_some.mp (present_eq_ok.mp inserted)).2
  have next := require_eq_ok.mp next
  have fresh := refuse_eq_ok.mp fresh
  refine { h with proofs := ?_, nonces := ?_, named := ?_ }
  · rw [Registries.proofsOf, appended]
    refine h.proofs.filter_append fun its => ?_
    obtain rfl := of_decide_eq_true its
    have greatest := h.proofs.max?
    have counted : p.registrySequence = (s.proofsOf p.registryId).length + 1 := by
      rw [← greatest]
      exact next
    exact ⟨counted, trivial⟩
  · rw [Registries.proofsOf, appended, List.filter_append]
    by_cases its : p.registryId = registry
    · obtain rfl := its
      rw [List.filter_cons_of_pos (by simp), List.filter_nil, List.map_append, List.map_singleton,
        List.nodup_append]
      refine ⟨h.nonces, List.nodup_singleton _, ?_⟩
      intro nonce used nonce' new same
      obtain ⟨q, mem, rfl⟩ := List.mem_map.mp used
      exact fresh ⟨q, mem, same.trans (List.mem_singleton.mp new)⟩
    · rw [List.filter_cons_of_neg (by simpa using its), List.filter_nil, List.append_nil]
      exact h.nonces
  · intro q mem
    rw [mem_proofsOf, Table.mem_iff, appended, List.mem_append, List.mem_singleton] at mem
    obtain ⟨mem | rfl, its⟩ := mem
    · obtain ⟨t, k, names⟩ := h.named q (mem_proofsOf.mpr ⟨mem, its⟩)
      exact ⟨t, k, names.mono (fun _ => id) fun _ => id⟩
    · obtain ⟨t_mem, t_key⟩ := Table.get?_eq_some.mp (present_eq_ok.mp found)
      obtain ⟨k_found, k_its⟩ := Option.filter_eq_some_iff.mp (present_eq_ok.mp verifier)
      obtain ⟨k_mem, k_key⟩ := Table.get?_eq_some.mp k_found
      obtain ⟨t_its, t_version⟩ := Prod.mk.inj t_key
      refine ⟨t, k, ⟨mem_trustStatesOf.mpr ⟨t_mem, t_its⟩, t_version⟩, ?_,
        require_eq_ok.mp head, (require_eq_ok.mp version).1⟩
      exact ⟨mem_keysOf.mpr ⟨k_mem, of_decide_eq_true k_its⟩, k_key⟩

theorem history_step (h : RegistryHistory V s registry) (call : RegistryCall) :
    RegistryHistory V (call.step V s) registry := by
  cases performed : call.perform V s with
  | error e =>
    rw [RegistryCall.step, performed]
    exact h
  | ok s' =>
    have stepped : call.step V s = s' := by rw [RegistryCall.step, performed]
    rw [stepped]
    cases call with
    | addRegistry r =>
      obtain ⟨_, -, rest⟩ := bind_eq_ok.mp performed
      obtain ⟨_, -, rest⟩ := bind_eq_ok.mp rest
      obtain rfl := Except.ok.inj rest
      refine ⟨h.keys, h.trustStates, h.proofs, h.nonces, fun p mem => ?_⟩
      obtain ⟨t, k, names⟩ := h.named p mem
      exact ⟨t, k, names.mono (fun _ => id) fun _ => id⟩
    | appendVerifierKey k => exact history_appendVerifierKey performed h
    | appendTrustState t now => exact history_appendTrustState performed h
    | appendFreshnessProof p now minimum nonce => exact history_appendFreshnessProof performed h

/-! ## Runs -/

/-- The histories that are kept in every run, and what follows for the proofs. -/
structure NoRollback (V : Verification) (s : Registries) (registry : Uuid) : Prop extends
    RegistryHistory V s registry where
  /-- A proof that names no older trust state uses no older verifier key. -/
  key : ∀ p ∈ s.proofsOf registry, ∀ q ∈ s.proofsOf registry,
    p.trustStateMetadataVersion ≤ q.trustStateMetadataVersion →
      ∀ t k, Names s p t k → ∀ u l, Names s q u l → k.keyVersion ≤ l.keyVersion

namespace OlderTrustState

def digest : String := "1111111111111111111111111111111111111111111111111111111111111111"

def other : String := "2222222222222222222222222222222222222222222222222222222222222222"

def verification : Verification where
  sha256 _ := digest
  uuid5 _ := Uuid.ofNat 0
  verifySignature _ _ _ := true

def registryId : Uuid := Uuid.ofNat 1

def key (version : Nat) (predecessor signature : Option String) :
    AuthorityRegistryVerifierKeyVersion where
  id := Uuid.ofNat (1 + version)
  registryId := registryId
  keyVersion := version
  algorithm := "ed25519"
  publicKey := "public"
  status := .active
  validFrom := 0
  validUntil := none
  revokedAt := none
  compromiseEffectiveAt := none
  predecessorDigest := predecessor
  predecessorSignature := signature
  offlineRootRecoverySignature := none
  thresholdAttestationDigest := digest

def trustState (version : Nat) (head : String) (previous : Option String) :
    AuthorityRegistryTrustState where
  registryId := registryId
  metadataVersion := version
  latestVerifierKeyVersion := version
  completeHistoryHeadDigest := head
  issuedAt := version
  expiresAt := 10
  offlineRootVersion := 1
  thresholdSignatureSetDigest := digest
  previousMetadataDigest := previous

def proof (sequence version : Nat) (head nonce : String) : AuthorityRegistryFreshnessProof where
  id := Uuid.ofNat (3 + sequence)
  registryId := registryId
  trustStateMetadataVersion := version
  completeHistoryHeadDigest := head
  registrySequence := sequence
  challengeNonceDigest := nonce
  responseDigest := digest
  issuedAt := 2
  expiresAt := 10
  verifierKeyVersionId := Uuid.ofNat (1 + version)
  registrySignature := "signature"

/-- The key has been rotated, and the trust state has followed it, before the first proof. -/
def calls : List RegistryCall := [
  .addRegistry ⟨registryId, digest, .active⟩,
  .appendVerifierKey (key 1 none none),
  .appendTrustState (trustState 1 digest none) 2,
  .appendVerifierKey (key 2 (some digest) (some "signature")),
  .appendTrustState (trustState 2 other (some digest)) 2,
  .appendFreshnessProof (proof 1 2 other digest) 2 0 digest,
  .appendFreshnessProof (proof 2 1 digest other) 2 1 other]

def tables : Registries := exec (RegistryCall.step verification) .bare calls

theorem proofs_rows :
    tables.proofsOf registryId = [proof 1 2 other digest, proof 2 1 digest other] := by
  rfl

theorem trustStates_rows : tables.trustStatesOf registryId =
    [trustState 1 digest none, trustState 2 other (some digest)] := by
  rfl

theorem keys_rows : tables.keysOf registryId =
    [key 1 none none, key 2 (some digest) (some "signature")] := by
  rfl

theorem first_names : Names tables (proof 1 2 other digest) (trustState 2 other (some digest))
    (key 2 (some digest) (some "signature")) where
  trust := ⟨trustStates_rows ▸ List.mem_cons_of_mem _ (List.mem_singleton_self _), rfl⟩
  key := ⟨keys_rows ▸ List.mem_cons_of_mem _ (List.mem_singleton_self _), rfl⟩
  head := rfl
  version := rfl

theorem second_names : Names tables (proof 2 1 digest other) (trustState 1 digest none)
    (key 1 none none) where
  trust := ⟨trustStates_rows ▸ List.mem_cons_self, rfl⟩
  key := ⟨keys_rows ▸ List.mem_cons_self, rfl⟩
  head := rfl
  version := rfl

end OlderTrustState

end Corvus.Deployment
