import Corvus.Library.Run
import Corvus.Projects.Records

/-!
# Handoffs of an authority

The close certificates of the epochs of a workspace, the handoffs to the next epoch and their
activations. A handoff is activated by a call of its own, before it becomes active; nothing
keeps it from being aborted in between.
-/

namespace Corvus.Deployment

open Authorization (jsonTime)
open Projects (Members someMembers canonicalDigest)
open Run

/-! ## Records -/

inductive EpochKeyDisposition where
  | pending | destroyed | revoked
deriving DecidableEq, Repr

def EpochKeyDisposition.value : EpochKeyDisposition → String
  | pending => "pending"
  | destroyed => "destroyed"
  | revoked => "revoked"

structure AuthorityCloseCertificate where
  id : Uuid
  workspaceId : Uuid
  closedEpoch : Nat
  sourceDeploymentId : Uuid
  sourceDeploymentInstanceId : Uuid
  targetDeploymentId : Uuid
  epochCredentialDigest : String
  destructionOrRevocationAttestationDigest : Option String
  finalAuthorityGeneration : Nat
  finalStateRoot : String
  workspaceSigningKeyVersionId : Uuid
  workspaceSignature : String
  anchorRegistryId : Option Uuid
  registrySequence : Option Nat
  registrySigningKeyVersionId : Option Uuid
  registrySignature : Option String
  localAnchorReceiptDigest : Option String
  anchorReceiptDigest : Option String
  epochKeyDisposition : EpochKeyDisposition
  externallyAnchoredAt : Option Instant

/-- `model_dump(mode="json", exclude_none=True)`. -/
def AuthorityCloseCertificate.members (c : AuthorityCloseCertificate) : Members := someMembers [
  ("id", some (.str c.id.text)),
  ("workspace_id", some (.str c.workspaceId.text)),
  ("closed_epoch", some (.int c.closedEpoch)),
  ("source_deployment_id", some (.str c.sourceDeploymentId.text)),
  ("source_deployment_instance_id", some (.str c.sourceDeploymentInstanceId.text)),
  ("target_deployment_id", some (.str c.targetDeploymentId.text)),
  ("epoch_credential_digest", some (.str c.epochCredentialDigest)),
  ("destruction_or_revocation_attestation_digest",
    c.destructionOrRevocationAttestationDigest.map .str),
  ("final_authority_generation", some (.int c.finalAuthorityGeneration)),
  ("final_state_root", some (.str c.finalStateRoot)),
  ("workspace_signing_key_version_id", some (.str c.workspaceSigningKeyVersionId.text)),
  ("workspace_signature", some (.str c.workspaceSignature)),
  ("anchor_registry_id", c.anchorRegistryId.map fun u => .str u.text),
  ("registry_sequence", c.registrySequence.map fun n => .int n),
  ("registry_signing_key_version_id", c.registrySigningKeyVersionId.map fun u => .str u.text),
  ("registry_signature", c.registrySignature.map .str),
  ("local_anchor_receipt_digest", c.localAnchorReceiptDigest.map .str),
  ("anchor_receipt_digest", c.anchorReceiptDigest.map .str),
  ("epoch_key_disposition", some (.str c.epochKeyDisposition.value)),
  ("externally_anchored_at", c.externallyAnchoredAt.map jsonTime)]

/-- `_canonical_digest`. -/
def AuthorityCloseCertificate.digest (D : Digests) (c : AuthorityCloseCertificate) : String :=
  canonicalDigest D c.members

structure AuthorityHandoffActivation where
  id : Uuid
  workspaceId : Uuid
  targetDeploymentInstanceId : Uuid
  authorityEpoch : Nat
  sourceCloseCertificateId : Uuid
  sourceCloseCertificateDigest : String
  authorityEpochCredentialId : Uuid
  exclusiveLeaseOrLocalAnchorReceiptDigest : String
  activatedAt : Instant

inductive AuthorityHandoffState where
  | prepared | sourceClosedAnchored | targetActive | aborted
deriving DecidableEq, Repr

structure AuthorityHandoff where
  id : Uuid
  workspaceId : Uuid
  fromDeploymentId : Uuid
  fromDeploymentInstanceId : Uuid
  toDeploymentId : Uuid
  toDeploymentInstanceId : Uuid
  fromEpoch : Nat
  toEpoch : Nat
  exportArtifactDigest : String
  sourceCheckpointDigest : String
  authorizationSnapshotId : Uuid
  authorizationSnapshotDigest : String
  sourceSigningKeyVersionId : Uuid
  closeCertificateId : Uuid
  targetEpochCredentialId : Uuid
  state : AuthorityHandoffState
  preparedAt : Instant
  completedAt : Option Instant
deriving DecidableEq

instance : Keyed AuthorityCloseCertificate Uuid := ⟨AuthorityCloseCertificate.id⟩
instance : Keyed AuthorityHandoff Uuid := ⟨AuthorityHandoff.id⟩
instance : Keyed AuthorityHandoffActivation Uuid := ⟨AuthorityHandoffActivation.id⟩

/-- `validate_handoff_activation`. -/
def validateHandoffActivation (c : AuthorityCloseCertificate) (a : AuthorityHandoffActivation) :
    Except String Unit := do
  require (a.workspaceId = c.workspaceId) "handoff_workspace_mismatch"
  require (a.sourceCloseCertificateId = c.id) "handoff_close_certificate_mismatch"
  require (a.authorityEpoch = c.closedEpoch + 1) "handoff_epoch_not_advanced"
  let _ ← present c.anchorReceiptDigest "handoff_close_not_anchored"
  let anchoredAt ← present c.externallyAnchoredAt "handoff_close_not_anchored"
  require ((c.epochKeyDisposition = .destroyed ∨ c.epochKeyDisposition = .revoked) ∧
    c.destructionOrRevocationAttestationDigest.isSome) "handoff_old_epoch_key_still_active"
  refuse (a.activatedAt ≤ anchoredAt) "handoff_activation_precedes_close"

/-! ## The repository -/

/-- The tables of the handoffs. -/
structure Handoffs where
  closes : Table AuthorityCloseCertificate
  handoffs : Table AuthorityHandoff
  activations : Table AuthorityHandoffActivation

namespace Handoffs

def bare : Handoffs where
  closes := ∅
  handoffs := ∅
  activations := ∅

/-- `append_close_certificate`. A workspace has one certificate for an epoch. -/
def appendCloseCertificate (s : Handoffs) (c : AuthorityCloseCertificate) :
    Except String Handoffs := do
  require (c.anchorReceiptDigest.isSome ∧ c.externallyAnchoredAt.isSome)
    "handoff_close_not_anchored"
  refuse (∃ d ∈ s.closes.rows, d.workspaceId = c.workspaceId ∧ d.closedEpoch = c.closedEpoch)
    "close_certificate_identity_conflict"
  let closes ← present (s.closes.insert? c) "close_certificate_identity_conflict"
  return { s with closes := closes }

/-- `_close`. -/
def close (s : Handoffs) (workspaceId certificateId : Uuid) : Option AuthorityCloseCertificate :=
  (s.closes.get? certificateId).filter (·.workspaceId = workspaceId)

/-- The handoff is one for the close of its epoch. -/
def ForClose (c : AuthorityCloseCertificate) (h : AuthorityHandoff) : Prop :=
  c.closedEpoch = h.fromEpoch ∧ c.sourceDeploymentId = h.fromDeploymentId ∧
    c.sourceDeploymentInstanceId = h.fromDeploymentInstanceId ∧
    c.targetDeploymentId = h.toDeploymentId ∧
    c.workspaceSigningKeyVersionId = h.sourceSigningKeyVersionId

instance (c : AuthorityCloseCertificate) (h : AuthorityHandoff) : Decidable (ForClose c h) := by
  unfold ForClose
  infer_instance

/-- `prepare_handoff`. A workspace has one handoff from an epoch. -/
def prepareHandoff (s : Handoffs) (h : AuthorityHandoff) : Except String Handoffs := do
  require (h.state = .prepared) "handoff_initial_state_invalid"
  let c ← present (s.close h.workspaceId h.closeCertificateId) "handoff_close_certificate_mismatch"
  require (ForClose c h) "handoff_close_certificate_mismatch"
  refuse (∃ g ∈ s.handoffs.rows, g.workspaceId = h.workspaceId ∧ g.fromEpoch = h.fromEpoch)
    "handoff_identity_conflict"
  require (h.toEpoch = h.fromEpoch + 1) "handoff_identity_conflict"
  let handoffs ← present (s.handoffs.insert? h) "handoff_identity_conflict"
  return { s with handoffs := handoffs }

/-- `_ALLOWED_TRANSITIONS`. -/
def allowedTransitions : AuthorityHandoffState → List AuthorityHandoffState
  | .prepared => [.sourceClosedAnchored, .aborted]
  | .sourceClosedAnchored => [.targetActive, .aborted]
  | .targetActive => []
  | .aborted => []

/-- Move a handoff to a state. -/
def toState (state : AuthorityHandoffState) (completedAt : Option Instant) :
    Rewrite AuthorityHandoff where
  apply h := { h with state := state, completedAt := completedAt }
  keeps _ := rfl

/-- The handoffs, with one of them moved to the state of `h`. -/
def moved (s : Handoffs) (h : AuthorityHandoff) : Table AuthorityHandoff :=
  s.handoffs.update (·.id = h.id) (toState h.state h.completedAt)

/-- `advance_handoff`. -/
def advanceHandoff (s : Handoffs) (h : AuthorityHandoff) (expected : AuthorityHandoffState) :
    Except String Handoffs := do
  require (h.state ∈ allowedTransitions expected) "handoff_transition_invalid"
  let current ← present ((s.handoffs.get? h.id).filter (·.workspaceId = h.workspaceId))
    "handoff_state_conflict"
  require (current.state = expected) "handoff_state_conflict"
  require (h = { current with state := h.state, completedAt := h.completedAt })
    "handoff_identity_mismatch"
  refuse (h.state = .targetActive ∧ ¬ ∃ a ∈ s.activations.rows,
    a.workspaceId = h.workspaceId ∧ a.authorityEpoch = h.toEpoch) "handoff_activation_missing"
  return { s with handoffs := s.moved h }

/-- `append_activation`. A workspace has one activation of an epoch. -/
def appendActivation (D : Digests) (s : Handoffs) (a : AuthorityHandoffActivation) :
    Except String Handoffs := do
  let h ← present (s.handoffs.rows.find? fun h =>
    h.workspaceId = a.workspaceId ∧ h.closeCertificateId = a.sourceCloseCertificateId)
    "handoff_source_not_closed"
  require (h.state = .sourceClosedAnchored) "handoff_source_not_closed"
  let c ← present (s.close a.workspaceId a.sourceCloseCertificateId)
    "handoff_close_certificate_digest_mismatch"
  require (a.sourceCloseCertificateDigest = c.digest D) "handoff_close_certificate_digest_mismatch"
  require (a.targetDeploymentInstanceId = h.toDeploymentInstanceId ∧
      a.authorityEpochCredentialId = h.targetEpochCredentialId)
    "handoff_activation_target_mismatch"
  validateHandoffActivation c a
  refuse (∃ b ∈ s.activations.rows, b.workspaceId = a.workspaceId ∧
    b.authorityEpoch = a.authorityEpoch) "handoff_activation_identity_conflict"
  let activations ← present (s.activations.insert? a) "handoff_activation_identity_conflict"
  return { s with activations := activations }

end Handoffs

/-- A call of a method that writes. -/
inductive HandoffCall where
  | appendCloseCertificate (c : AuthorityCloseCertificate)
  | prepareHandoff (h : AuthorityHandoff)
  | advanceHandoff (h : AuthorityHandoff) (expected : AuthorityHandoffState)
  | appendActivation (a : AuthorityHandoffActivation)

namespace HandoffCall

def perform (D : Digests) (s : Handoffs) : HandoffCall → Except String Handoffs
  | appendCloseCertificate c => s.appendCloseCertificate c
  | prepareHandoff h => s.prepareHandoff h
  | advanceHandoff h expected => s.advanceHandoff h expected
  | appendActivation a => s.appendActivation D a

/-- The tables after a call. One that raises has changed nothing. -/
def step (D : Digests) (s : Handoffs) (call : HandoffCall) : Handoffs :=
  match call.perform D s with
  | .ok s' => s'
  | .error _ => s

end HandoffCall

/-! ## What a call does -/

/-- The activation is that of the handoff. -/
def ActivationOf (a : AuthorityHandoffActivation) (h : AuthorityHandoff) : Prop :=
  a.workspaceId = h.workspaceId ∧ a.sourceCloseCertificateId = h.closeCertificateId

/-- The activation names the target of its handoff and the certificate that closes the epoch
before its own, the key of which is destroyed or revoked. -/
structure Activates (D : Digests) (a : AuthorityHandoffActivation) (h : AuthorityHandoff)
    (c : AuthorityCloseCertificate) : Prop where
  of : ActivationOf a h
  instance_eq : a.targetDeploymentInstanceId = h.toDeploymentInstanceId
  credential : a.authorityEpochCredentialId = h.targetEpochCredentialId
  close : c.id = h.closeCertificateId ∧ c.workspaceId = h.workspaceId
  digest : a.sourceCloseCertificateDigest = c.digest D
  epoch : a.authorityEpoch = c.closedEpoch + 1
  key_gone : (c.epochKeyDisposition = .destroyed ∨ c.epochKeyDisposition = .revoked) ∧
    c.destructionOrRevocationAttestationDigest.isSome

/-- One call, by what it does. -/
inductive HandoffEffect (D : Digests) (s : Handoffs) : HandoffCall → Handoffs → Prop
  | nothing {call} : HandoffEffect D s call s
  | close {c closes} (free : ∀ d ∈ s.closes, d.workspaceId = c.workspaceId →
        d.closedEpoch ≠ c.closedEpoch)
      (appended : closes.rows = s.closes.rows ++ [c]) :
      HandoffEffect D s (.appendCloseCertificate c) { s with closes := closes }
  | prepare {h c handoffs} (prepared : h.state = .prepared)
      (closed : c ∈ s.closes ∧ c.id = h.closeCertificateId ∧ c.workspaceId = h.workspaceId)
      (fits : Handoffs.ForClose c h) (next : h.toEpoch = h.fromEpoch + 1)
      (free : ∀ g ∈ s.handoffs, g.workspaceId = h.workspaceId → g.fromEpoch ≠ h.fromEpoch)
      (appended : handoffs.rows = s.handoffs.rows ++ [h]) :
      HandoffEffect D s (.prepareHandoff h) { s with handoffs := handoffs }
  | advance {h g} (mem : g ∈ s.handoffs)
      (allowed : h.state ∈ Handoffs.allowedTransitions g.state)
      (same : h = { g with state := h.state, completedAt := h.completedAt })
      (activated : h.state = .targetActive → ∃ a ∈ s.activations,
        a.workspaceId = h.workspaceId ∧ a.authorityEpoch = h.toEpoch) :
      HandoffEffect D s (.advanceHandoff h g.state)
        { s with handoffs := s.moved h }
  | activate {a h c activations} (mem : h ∈ s.handoffs) (closed : h.state = .sourceClosedAnchored)
      (certified : c ∈ s.closes) (activates : Activates D a h c)
      (free : ∀ b ∈ s.activations, b.workspaceId = a.workspaceId →
        b.authorityEpoch ≠ a.authorityEpoch)
      (appended : activations.rows = s.activations.rows ++ [a]) :
      HandoffEffect D s (.appendActivation a) { s with activations := activations }

variable {D : Digests} {s s' : Handoffs} {h : AuthorityHandoff} {c : AuthorityCloseCertificate}
  {a : AuthorityHandoffActivation} {expected : AuthorityHandoffState} {call : HandoffCall}

theorem close_eq_some {ws id : Uuid} :
    s.close ws id = some c ↔ c ∈ s.closes ∧ c.id = id ∧ c.workspaceId = ws := by
  rw [Handoffs.close, Option.filter_eq_some_iff, Table.get?_eq_some]
  simp [key, and_assoc]

theorem handoff_effect (D : Digests) (s : Handoffs) (call : HandoffCall) :
    HandoffEffect D s call (call.step D s) := by
  unfold HandoffCall.step
  cases performed : call.perform D s with
  | error e => exact .nothing
  | ok s' =>
    cases call with
    | appendCloseCertificate c =>
      obtain ⟨_, -, rest⟩ := bind_eq_ok.mp performed
      obtain ⟨_, free, rest⟩ := bind_eq_ok.mp rest
      obtain ⟨closes, inserted, rest⟩ := bind_eq_ok.mp rest
      obtain rfl := Except.ok.inj rest
      refine .close (fun d mem its same => refuse_eq_ok.mp free ⟨d, mem, its, same⟩) ?_
      exact (Table.insert?_eq_some.mp (present_eq_ok.mp inserted)).2
    | prepareHandoff h =>
      obtain ⟨_, prepared, rest⟩ := bind_eq_ok.mp performed
      obtain ⟨c, found, rest⟩ := bind_eq_ok.mp rest
      obtain ⟨_, fits, rest⟩ := bind_eq_ok.mp rest
      obtain ⟨_, free, rest⟩ := bind_eq_ok.mp rest
      obtain ⟨_, next, rest⟩ := bind_eq_ok.mp rest
      obtain ⟨handoffs, inserted, rest⟩ := bind_eq_ok.mp rest
      obtain rfl := Except.ok.inj rest
      refine .prepare (require_eq_ok.mp prepared) (close_eq_some.mp (present_eq_ok.mp found))
        (require_eq_ok.mp fits) (require_eq_ok.mp next) ?_ ?_
      · exact fun g mem its same => refuse_eq_ok.mp free ⟨g, mem, its, same⟩
      · exact (Table.insert?_eq_some.mp (present_eq_ok.mp inserted)).2
    | advanceHandoff h expected =>
      obtain ⟨_, allowed, rest⟩ := bind_eq_ok.mp performed
      obtain ⟨g, found, rest⟩ := bind_eq_ok.mp rest
      obtain ⟨_, state, rest⟩ := bind_eq_ok.mp rest
      obtain ⟨_, same, rest⟩ := bind_eq_ok.mp rest
      obtain ⟨_, activated, rest⟩ := bind_eq_ok.mp rest
      obtain rfl := Except.ok.inj rest
      obtain rfl := require_eq_ok.mp state
      obtain ⟨found, -⟩ := Option.filter_eq_some_iff.mp (present_eq_ok.mp found)
      refine .advance (Table.get?_eq_some.mp found).1 (require_eq_ok.mp allowed)
        (require_eq_ok.mp same) fun active => ?_
      by_contra missing
      exact refuse_eq_ok.mp activated ⟨active, missing⟩
    | appendActivation a =>
      obtain ⟨h, found, rest⟩ := bind_eq_ok.mp performed
      obtain ⟨_, closed, rest⟩ := bind_eq_ok.mp rest
      obtain ⟨c, certified, rest⟩ := bind_eq_ok.mp rest
      obtain ⟨_, digest, rest⟩ := bind_eq_ok.mp rest
      obtain ⟨_, target, rest⟩ := bind_eq_ok.mp rest
      obtain ⟨_, valid, rest⟩ := bind_eq_ok.mp rest
      obtain ⟨_, free, rest⟩ := bind_eq_ok.mp rest
      obtain ⟨activations, inserted, rest⟩ := bind_eq_ok.mp rest
      obtain rfl := Except.ok.inj rest
      have found := present_eq_ok.mp found
      have its : h.workspaceId = a.workspaceId ∧
          h.closeCertificateId = a.sourceCloseCertificateId := by
        have chosen := List.find?_some found
        exact of_decide_eq_true chosen
      obtain ⟨there, here, workspace⟩ := close_eq_some.mp (present_eq_ok.mp certified)
      obtain ⟨_, -, valid⟩ := bind_eq_ok.mp valid
      obtain ⟨_, -, valid⟩ := bind_eq_ok.mp valid
      obtain ⟨_, epoch, valid⟩ := bind_eq_ok.mp valid
      obtain ⟨_, -, valid⟩ := bind_eq_ok.mp valid
      obtain ⟨_, -, valid⟩ := bind_eq_ok.mp valid
      obtain ⟨_, gone, -⟩ := bind_eq_ok.mp valid
      refine .activate (h := h) (c := c) (List.mem_of_find?_eq_some found)
        (require_eq_ok.mp closed) there ?_ ?_ ?_
      · exact {
          of := ⟨its.1.symm, its.2.symm⟩
          instance_eq := (require_eq_ok.mp target).1
          credential := (require_eq_ok.mp target).2
          close := ⟨here.trans its.2.symm, workspace.trans its.1.symm⟩
          digest := require_eq_ok.mp digest
          epoch := require_eq_ok.mp epoch
          key_gone := require_eq_ok.mp gone }
      · exact fun b mem its same => refuse_eq_ok.mp free ⟨b, mem, its, same⟩
      · exact (Table.insert?_eq_some.mp (present_eq_ok.mp inserted)).2

/-! ## The invariant -/

/-- What couples the four tables, whatever is aborted. -/
structure Coupled (D : Digests) (s : Handoffs) : Prop where
  closes : ∀ c ∈ s.closes, ∀ d ∈ s.closes, c.workspaceId = d.workspaceId →
    c.closedEpoch = d.closedEpoch → c = d
  handoffs : ∀ g ∈ s.handoffs, ∀ h ∈ s.handoffs, g.workspaceId = h.workspaceId →
    g.fromEpoch = h.fromEpoch → g = h
  closed : ∀ h ∈ s.handoffs, h.toEpoch = h.fromEpoch + 1 ∧
    ∃ c ∈ s.closes, c.id = h.closeCertificateId ∧ c.workspaceId = h.workspaceId ∧
      Handoffs.ForClose c h
  activations : ∀ a ∈ s.activations, ∀ b ∈ s.activations, a.workspaceId = b.workspaceId →
    a.authorityEpoch = b.authorityEpoch → a = b
  refers : ∀ a ∈ s.activations, ∃ h ∈ s.handoffs, ∃ c ∈ s.closes, Activates D a h c
  active : ∀ h ∈ s.handoffs, h.state = .targetActive → ∃ a ∈ s.activations, ActivationOf a h

/-- What the rows of a table have two by two, they have with a row that is new in this respect. -/
theorem unique_append {α κ : Type} [Keyed α κ] {t u : Table α} {r : α} (same : α → α → Prop)
    (symm : ∀ x y, same x y → same y x) (unique : ∀ x ∈ t, ∀ y ∈ t, same x y → x = y)
    (free : ∀ x ∈ t, ¬ same x r) (appended : u.rows = t.rows ++ [r]) :
    ∀ x ∈ u, ∀ y ∈ u, same x y → x = y := by
  have split : ∀ x ∈ u, x ∈ t ∨ x = r := by
    intro x mem
    rwa [Table.mem_iff, appended, List.mem_append, List.mem_singleton] at mem
  intro x hx y hy alike
  obtain hx | rfl := split x hx
  · obtain hy | rfl := split y hy
    · exact unique x hx y hy alike
    · exact absurd alike (free x hx)
  · obtain hy | rfl := split y hy
    · exact absurd (symm x y alike) (free y hy)
    · rfl

/-- The handoffs after one of them has moved. -/
theorem mem_moved_handoff {g j : AuthorityHandoff} (mem : g ∈ s.handoffs)
    (same : h = { g with state := h.state, completedAt := h.completedAt }) :
    j ∈ s.moved h ↔ (j ∈ s.handoffs ∧ j.id ≠ h.id) ∨ j = h := by
  have image : Handoffs.toState h.state h.completedAt g = h := same.symm
  have named : g.id = h.id := (congrArg (·.id) same).symm
  constructor
  · intro inside
    obtain ⟨there, other⟩ | ⟨k, there, its, rfl⟩ := Table.of_mem_update inside
    · exact .inl ⟨there, of_decide_eq_false other⟩
    · obtain rfl : k = g := Table.eq_of_key there mem ((of_decide_eq_true its).trans named.symm)
      exact .inr image
  · rintro (⟨there, other⟩ | rfl)
    · have kept := Table.mem_update_of_mem (p := (·.id = h.id))
        (f := Handoffs.toState h.state h.completedAt) there
      rwa [if_neg (by simpa using other)] at kept
    · have moved := Table.mem_update_of_mem (p := (·.id = j.id))
        (f := Handoffs.toState j.state j.completedAt) mem
      rwa [if_pos (by simpa using named), image] at moved

/-- A handoff after a call is one from before it, but for its state and its completion. -/
theorem exists_unmoved {j : AuthorityHandoff} (mem : j ∈ s.moved h) :
    ∃ i ∈ s.handoffs, ∃ state at_, j = { i with state := state, completedAt := at_ } := by
  obtain ⟨there, -⟩ | ⟨i, there, -, rfl⟩ := Table.of_mem_update mem
  · exact ⟨j, there, j.state, j.completedAt, rfl⟩
  · exact ⟨i, there, h.state, h.completedAt, rfl⟩

theorem exists_moved {i : AuthorityHandoff} (mem : i ∈ s.handoffs) :
    ∃ j ∈ s.moved h, ∃ state at_, j = { i with state := state, completedAt := at_ } := by
  refine ⟨_, Table.mem_update_of_mem mem, ?_⟩
  split
  · exact ⟨h.state, h.completedAt, rfl⟩
  · exact ⟨i.state, i.completedAt, rfl⟩

/-- An activation of the epoch that a handoff leads to is the activation of that handoff. -/
theorem Coupled.activationOf (coupled : Coupled D s) (mem : h ∈ s.handoffs)
    (inside : a ∈ s.activations) (workspace : a.workspaceId = h.workspaceId)
    (epoch : a.authorityEpoch = h.toEpoch) : ActivationOf a h := by
  obtain ⟨g, -, d, there, activates⟩ := coupled.refers a inside
  obtain ⟨next, c, closed, named, its, fits⟩ := coupled.closed h mem
  have ours : d.workspaceId = c.workspaceId := by
    rw [its, ← workspace, activates.of.1]
    exact activates.close.2
  obtain rfl : d = c := by
    refine coupled.closes d there c closed ours ?_
    have counted := activates.epoch
    have leads := fits.1
    omega
  refine ⟨workspace, ?_⟩
  rw [activates.of.2, ← activates.close.1]
  exact named

/-- A handoff with the certificate of another of its workspace is the same handoff. -/
theorem Coupled.eq_of_certificate (coupled : Coupled D s) {g h : AuthorityHandoff}
    (hg : g ∈ s.handoffs) (hh : h ∈ s.handoffs) (workspace : g.workspaceId = h.workspaceId)
    (certificate : g.closeCertificateId = h.closeCertificateId) : g = h := by
  obtain ⟨-, c, hc, named, -, fits⟩ := coupled.closed g hg
  obtain ⟨-, d, hd, named', -, fits'⟩ := coupled.closed h hh
  obtain rfl : c = d := Table.eq_of_key hc hd (named.trans (certificate.trans named'.symm))
  exact coupled.handoffs g hg h hh workspace (fits.1.symm.trans fits'.1)

theorem HandoffEffect.coupled (effect : HandoffEffect D s call s') (coupled : Coupled D s) :
    Coupled D s' := by
  cases effect with
  | nothing => exact coupled
  | @close c closes free appended =>
    refine { coupled with closes := ?_, closed := ?_, refers := ?_ }
    · intro d hd e he workspace epoch
      exact unique_append (fun d e : AuthorityCloseCertificate =>
        d.workspaceId = e.workspaceId ∧ d.closedEpoch = e.closedEpoch)
        (fun _ _ same => ⟨same.1.symm, same.2.symm⟩)
        (fun d hd e he same => coupled.closes d hd e he same.1 same.2)
        (fun d hd same => free d hd same.1 same.2) appended d hd e he ⟨workspace, epoch⟩
    · intro h mem
      obtain ⟨next, d, hd, fits⟩ := coupled.closed h mem
      exact ⟨next, d, Table.mem_append_of_mem appended hd, fits⟩
    · intro a mem
      obtain ⟨h, hh, d, hd, activates⟩ := coupled.refers a mem
      exact ⟨h, hh, d, Table.mem_append_of_mem appended hd, activates⟩
  | @prepare h c handoffs prepared closed fits next free appended =>
    have split : ∀ g ∈ handoffs, g ∈ s.handoffs ∨ g = h := by
      intro g mem
      rwa [Table.mem_iff, appended, List.mem_append, List.mem_singleton] at mem
    refine { coupled with handoffs := ?_, closed := ?_, refers := ?_, active := ?_ }
    · intro g hg k hk workspace epoch
      exact unique_append (fun g k : AuthorityHandoff =>
        g.workspaceId = k.workspaceId ∧ g.fromEpoch = k.fromEpoch)
        (fun _ _ same => ⟨same.1.symm, same.2.symm⟩)
        (fun g hg k hk same => coupled.handoffs g hg k hk same.1 same.2)
        (fun g hg same => free g hg same.1 same.2) appended g hg k hk ⟨workspace, epoch⟩
    · intro g mem
      obtain mem | rfl := split g mem
      · exact coupled.closed g mem
      · exact ⟨next, c, closed.1, closed.2.1, closed.2.2, fits⟩
    · intro a mem
      obtain ⟨g, hg, rest⟩ := coupled.refers a mem
      exact ⟨g, Table.mem_append_of_mem appended hg, rest⟩
    · intro g mem active
      obtain mem | rfl := split g mem
      · exact coupled.active g mem active
      · rw [prepared] at active
        exact absurd active (by simp)
  | @advance h g mem allowed same activated =>
    refine { coupled with handoffs := ?_, closed := ?_, refers := ?_, active := ?_ }
    · intro j hj k hk workspace epoch
      obtain ⟨j', hj', _, _, old⟩ := exists_unmoved hj
      obtain ⟨k', hk', _, _, old'⟩ := exists_unmoved hk
      have unmoved : j' = k' := by
        refine coupled.handoffs j' hj' k' hk' ?_ ?_
        · rw [old, old'] at workspace
          exact workspace
        · rw [old, old'] at epoch
          exact epoch
      refine Table.eq_of_key hj hk ?_
      rw [old, old', unmoved]
      rfl
    · intro j hj
      obtain ⟨j', hj', _, _, rfl⟩ := exists_unmoved hj
      exact coupled.closed j' hj'
    · intro a inside
      obtain ⟨j, hj, c, hc, activates⟩ := coupled.refers a inside
      obtain ⟨k, hk, _, _, rfl⟩ := exists_moved (h := h) hj
      exact ⟨_, hk, c, hc, { activates with }⟩
    · intro j hj active
      obtain ⟨hj, -⟩ | rfl := (mem_moved_handoff mem same).mp hj
      · exact coupled.active j hj active
      · obtain ⟨a, inside, workspace, epoch⟩ := activated active
        rw [same] at workspace epoch
        have of := coupled.activationOf mem inside workspace epoch
        refine ⟨a, inside, ?_⟩
        rw [same]
        exact of
  | @activate a h c activations mem closed certified activates free appended =>
    refine { coupled with activations := ?_, refers := ?_, active := ?_ }
    · intro b hb d hd workspace epoch
      exact unique_append (fun b d : AuthorityHandoffActivation =>
        b.workspaceId = d.workspaceId ∧ b.authorityEpoch = d.authorityEpoch)
        (fun _ _ same => ⟨same.1.symm, same.2.symm⟩)
        (fun b hb d hd same => coupled.activations b hb d hd same.1 same.2)
        (fun b hb same => free b hb same.1 same.2) appended b hb d hd ⟨workspace, epoch⟩
    · intro b inside
      rw [Table.mem_iff, appended, List.mem_append, List.mem_singleton] at inside
      obtain inside | rfl := inside
      · exact coupled.refers b inside
      · exact ⟨h, mem, c, certified, activates⟩
    · intro g hg active
      obtain ⟨b, inside, of⟩ := coupled.active g hg active
      exact ⟨b, Table.mem_append_of_mem appended inside, of⟩

/-! ## Aborting -/

/-- A call aborts a handoff that it may abort, and that has been activated. -/
def AbortsActivated (s : Handoffs) : HandoffCall → Prop
  | .advanceHandoff h expected => h.state = .aborted ∧
      .aborted ∈ Handoffs.allowedTransitions expected ∧ ∃ g ∈ s.handoffs, g.state = expected ∧
        h = { g with state := h.state, completedAt := h.completedAt } ∧
        ∃ a ∈ s.activations, ActivationOf a g
  | _ => False

/-- No handoff is aborted that has been activated. -/
def RespectsActivation (s : Handoffs) (call : HandoffCall) : Prop := ¬ AbortsActivated s call

/-- No handoff that has been activated is aborted. -/
def NoneLost (s : Handoffs) : Prop :=
  ∀ h ∈ s.handoffs, ∀ a ∈ s.activations, ActivationOf a h → h.state ≠ .aborted

theorem none_lost_step (coupled : Coupled D s) (none_lost : NoneLost s)
    (respects : RespectsActivation s call) : NoneLost (call.step D s) := by
  have effect := handoff_effect D s call
  generalize call.step D s = s' at effect
  cases effect with
  | nothing => exact none_lost
  | close free appended => exact none_lost
  | @prepare h c handoffs prepared closed fits next free appended =>
    intro g hg a inside of
    rw [Table.mem_iff, appended, List.mem_append, List.mem_singleton] at hg
    obtain hg | rfl := hg
    · exact none_lost g hg a inside of
    · rw [prepared]
      nofun
  | @advance h g mem allowed same activated =>
    intro j hj a inside of aborted
    obtain ⟨hj, -⟩ | rfl := (mem_moved_handoff mem same).mp hj
    · exact none_lost j hj a inside of aborted
    · rw [same] at of
      exact respects ⟨aborted, aborted ▸ allowed, g, mem, rfl, same, a, inside, of⟩
  | @activate a h c activations mem closed certified activates free appended =>
    intro g hg b inside of aborted
    rw [Table.mem_iff, appended, List.mem_append, List.mem_singleton] at inside
    obtain inside | rfl := inside
    · exact none_lost g hg b inside of aborted
    · obtain rfl : g = h := coupled.eq_of_certificate hg mem
        (of.1.symm.trans activates.of.1) (of.2.symm.trans activates.of.2)
      rw [aborted] at closed
      exact absurd closed (by simp)

/-- A handoff is aborted and activated. -/
def Lost (s : Handoffs) : Prop :=
  ∃ h ∈ s.handoffs, h.state = .aborted ∧ ∃ a ∈ s.activations, ActivationOf a h

theorem lost_of_aborts (aborts : AbortsActivated s call) : Lost (call.step D s) := by
  cases call with
  | advanceHandoff h expected =>
    obtain ⟨aborted, allowed, g, mem, rfl, same, a, inside, of⟩ := aborts
    have found : s.handoffs.get? h.id = some g :=
      Table.get?_eq_some.mpr ⟨mem, (congrArg (·.id) same).symm⟩
    have workspace : g.workspaceId = h.workspaceId := (congrArg (·.workspaceId) same).symm
    have performed : s.advanceHandoff h g.state = .ok { s with handoffs := s.moved h } := by
      refine bind_eq_ok.mpr ⟨(), require_of (aborted ▸ allowed), ?_⟩
      refine bind_eq_ok.mpr ⟨g, present_eq_ok.mpr ?_, ?_⟩
      · exact Option.filter_eq_some_iff.mpr ⟨found, decide_eq_true workspace⟩
      refine bind_eq_ok.mpr ⟨(), require_of rfl, ?_⟩
      refine bind_eq_ok.mpr ⟨(), require_of same, ?_⟩
      refine bind_eq_ok.mpr ⟨(), refuse_eq_ok.mpr fun active => ?_, rfl⟩
      rw [aborted] at active
      exact absurd active.1 (by simp)
    have called : (HandoffCall.advanceHandoff h g.state).perform D s = _ := performed
    rw [HandoffCall.step, called]
    refine ⟨h, (mem_moved_handoff mem same).mpr (.inr rfl), aborted, a, inside, ?_⟩
    rw [same]
    exact of
  | _ => exact absurd aborts id

/-- What is aborted stays so, and what is activated. -/
theorem lost_step (lost : Lost s) (call : HandoffCall) : Lost (call.step D s) := by
  obtain ⟨h, mem, aborted, a, inside, of⟩ := lost
  have effect := handoff_effect D s call
  generalize call.step D s = s' at effect
  cases effect with
  | nothing => exact ⟨h, mem, aborted, a, inside, of⟩
  | close free appended => exact ⟨h, mem, aborted, a, inside, of⟩
  | prepare prepared closed fits next free appended =>
    exact ⟨h, Table.mem_append_of_mem appended mem, aborted, a, inside, of⟩
  | @advance j g there allowed same activated =>
    have other : h.id ≠ j.id := by
      intro its
      have named : j.id = g.id := congrArg (·.id) same
      obtain rfl : h = g := Table.eq_of_key mem there (its.trans named)
      rw [aborted] at allowed
      exact absurd allowed List.not_mem_nil
    exact ⟨h, (mem_moved_handoff there same).mpr (.inl ⟨mem, other⟩), aborted, a, inside, of⟩
  | activate there closed certified activates free appended =>
    exact ⟨h, mem, aborted, a, Table.mem_append_of_mem appended inside, of⟩

/-! ## Runs -/

/-- What holds of the handoffs after a run from tables without rows. -/
structure HandoffSafety (D : Digests) (calls : List HandoffCall) : Prop where
  coupled : Coupled D (exec (HandoffCall.step D) .bare calls)
  none_lost : NoneLost (exec (HandoffCall.step D) .bare calls)

theorem coupled_exec (D : Digests) (calls : List HandoffCall) :
    Coupled D (exec (HandoffCall.step D) .bare calls) := by
  refine preserves (I := Coupled D) ?_ (fun s call => (handoff_effect D s call).coupled) calls
  constructor
  all_goals exact fun _ mem => absurd mem Table.not_mem_empty

/-- Handoffs are safe in exactly the runs that abort none that has been activated. -/
theorem handoff_safety_iff (D : Digests) (calls : List HandoffCall) :
    HandoffSafety D calls ↔ Along (HandoffCall.step D) RespectsActivation .bare calls := by
  constructor
  · intro safe
    refine along_of_at fun before call after split aborts => ?_
    have lost := preserves (I := Lost) (lost_of_aborts (D := D) aborts)
      (fun s call lost => lost_step (D := D) lost call) after
    obtain ⟨h, mem, aborted, a, inside, of⟩ := lost
    have none_lost := safe.none_lost
    rw [split, exec_append, exec_cons] at none_lost
    exact none_lost h mem a inside of aborted
  · intro respects
    refine ⟨coupled_exec D calls, ?_⟩
    have both := respects.preserves (I := fun s => Coupled D s ∧ NoneLost s)
      ⟨coupled_exec D [], fun h mem => absurd mem Table.not_mem_empty⟩
      fun s call holds respects =>
        ⟨(handoff_effect D s call).coupled holds.1, none_lost_step holds.1 holds.2 respects⟩
    exact both.2

/-! ## A handoff that is aborted after its activation -/

namespace AbortedHandoff

def digest : String := "1111111111111111111111111111111111111111111111111111111111111111"

def digests : Digests where
  sha256 _ := digest
  uuid5 _ := Uuid.ofNat 0

def workspace : Uuid := Uuid.ofNat 1

def certificate : AuthorityCloseCertificate where
  id := Uuid.ofNat 2
  workspaceId := workspace
  closedEpoch := 1
  sourceDeploymentId := Uuid.ofNat 3
  sourceDeploymentInstanceId := Uuid.ofNat 4
  targetDeploymentId := Uuid.ofNat 5
  epochCredentialDigest := digest
  destructionOrRevocationAttestationDigest := some digest
  finalAuthorityGeneration := 4
  finalStateRoot := digest
  workspaceSigningKeyVersionId := Uuid.ofNat 6
  workspaceSignature := "signature"
  anchorRegistryId := none
  registrySequence := none
  registrySigningKeyVersionId := none
  registrySignature := none
  localAnchorReceiptDigest := none
  anchorReceiptDigest := some digest
  epochKeyDisposition := .revoked
  externallyAnchoredAt := some 1

def handoff (state : AuthorityHandoffState) (completedAt : Option Instant) : AuthorityHandoff where
  id := Uuid.ofNat 7
  workspaceId := workspace
  fromDeploymentId := Uuid.ofNat 3
  fromDeploymentInstanceId := Uuid.ofNat 4
  toDeploymentId := Uuid.ofNat 5
  toDeploymentInstanceId := Uuid.ofNat 8
  fromEpoch := 1
  toEpoch := 2
  exportArtifactDigest := digest
  sourceCheckpointDigest := digest
  authorizationSnapshotId := Uuid.ofNat 9
  authorizationSnapshotDigest := digest
  sourceSigningKeyVersionId := Uuid.ofNat 6
  closeCertificateId := Uuid.ofNat 2
  targetEpochCredentialId := Uuid.ofNat 10
  state := state
  preparedAt := 0
  completedAt := completedAt

def activation : AuthorityHandoffActivation where
  id := Uuid.ofNat 11
  workspaceId := workspace
  targetDeploymentInstanceId := Uuid.ofNat 8
  authorityEpoch := 2
  sourceCloseCertificateId := Uuid.ofNat 2
  sourceCloseCertificateDigest := digest
  authorityEpochCredentialId := Uuid.ofNat 10
  exclusiveLeaseOrLocalAnchorReceiptDigest := digest
  activatedAt := 2

def calls : List HandoffCall := [
  .appendCloseCertificate certificate,
  .prepareHandoff (handoff .prepared none),
  .advanceHandoff (handoff .sourceClosedAnchored none) .prepared,
  .appendActivation activation,
  .advanceHandoff (handoff .aborted (some 3)) .sourceClosedAnchored]

theorem rows : (exec (HandoffCall.step digests) .bare calls).handoffs.rows =
      [handoff .aborted (some 3)] ∧
    (exec (HandoffCall.step digests) .bare calls).activations.rows = [activation] := by
  exact ⟨rfl, rfl⟩

/-- The source can take the workspace back after the target has been activated. -/
theorem activated_handoff_aborted : ¬ HandoffSafety digests calls := by
  intro safe
  refine safe.none_lost (handoff .aborted (some 3)) ?_ activation ?_ ⟨rfl, rfl⟩ rfl
  · rw [Table.mem_iff, rows.1]
    exact List.mem_singleton_self _
  · rw [Table.mem_iff, rows.2]
    exact List.mem_singleton_self _

end AbortedHandoff

end Corvus.Deployment
