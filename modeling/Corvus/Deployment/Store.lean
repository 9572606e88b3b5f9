import Corvus.Library.Run
import Corvus.Projects.Store

/-!
# The repository of the authorities

The profiles, the instances, the credentials and the anchors of a deployment, the leases of
its instances on workspaces, and the authorities and their commit intents. A method is one
transaction: it returns the new store or, having changed nothing, the reason of its error.
-/

namespace Corvus.Deployment

open Authorization (DeploymentInstanceStatus AuthorityEpochCredentialStatus
  AuthorityTrustAnchorStatus)
open Projects (WorkspaceAuthority AuthorityCommitIntent AuthorityCommitState)

/-! ## Records -/

/-- A deployment profile, of which only the id is read. -/
structure DeploymentProfile where
  id : Uuid

structure DeploymentInstance where
  id : Uuid
  deploymentProfileId : Uuid
  deviceBindingDigest : String
  status : DeploymentInstanceStatus

structure AuthorityEpochCredential where
  id : Uuid
  workspaceId : Uuid
  authorityEpoch : Nat
  deploymentInstanceId : Uuid
  deviceBindingDigest : String
  status : AuthorityEpochCredentialStatus

structure AuthorityTrustAnchor where
  id : Uuid
  workspaceId : Uuid
  status : AuthorityTrustAnchorStatus

/-- What the digest in a lock name is of. -/
def lockMaterial (workspaceId : Uuid) : String := "corvus-workspace-lock-v1:" ++ workspaceId.text

/-- `fixed_workspace_lock_name`. The name is that of the workspace, whatever the epoch. -/
def fixedWorkspaceLockName (D : Digests) (workspaceId : Uuid) (authorityEpoch : Nat) :
    Except String String := do
  refuse (authorityEpoch < 1) "invalid_authority_epoch"
  return "corvus-workspace-" ++ D.sha256 (lockMaterial workspaceId)

/-- A lease, which names the lock of its workspace. -/
@[ext] structure DeploymentInstanceLease (D : Digests) where
  id : Uuid
  workspaceId : Uuid
  authorityEpoch : Nat
  deploymentInstanceId : Uuid
  lockName : String
  fencingToken : Nat
  acquiredAt : Instant
  releasedAt : Option Instant
  /-- `validate_fixed_lock_name`. -/
  named : fixedWorkspaceLockName D workspaceId authorityEpoch = .ok lockName
  /-- `Field(ge=1)`. -/
  token_pos : 1 ≤ fencingToken

instance {D : Digests} : DecidableEq (DeploymentInstanceLease D) := fun _ _ =>
  decidable_of_iff _ DeploymentInstanceLease.ext_iff.symm

/-- A row of `deployment_instance_leases`: the record in `payload_json` and the column
`released_at`, which is empty at first whatever the record says. -/
structure LeaseRow (D : Digests) where
  lease : DeploymentInstanceLease D
  releasedAt : Option Instant

namespace LeaseRow

variable {D : Digests}

/-- `released_at IS NULL`. -/
abbrev Unreleased (r : LeaseRow D) : Prop := r.releasedAt = none

/-- `workspace_id = ? AND authority_epoch = ?`. -/
abbrev Of (r : LeaseRow D) (workspaceId : Uuid) (authorityEpoch : Nat) : Prop :=
  r.lease.workspaceId = workspaceId ∧ r.lease.authorityEpoch = authorityEpoch

end LeaseRow

instance : Keyed DeploymentProfile Uuid := ⟨DeploymentProfile.id⟩
instance : Keyed DeploymentInstance Uuid := ⟨DeploymentInstance.id⟩
instance : Keyed AuthorityEpochCredential Uuid := ⟨AuthorityEpochCredential.id⟩
instance : Keyed AuthorityTrustAnchor Uuid := ⟨AuthorityTrustAnchor.id⟩
instance {D : Digests} : Keyed (LeaseRow D) Uuid := ⟨fun r => r.lease.id⟩

structure Store (D : Digests) where
  profiles : Table DeploymentProfile
  instances : Table DeploymentInstance
  credentials : Table AuthorityEpochCredential
  anchors : Table AuthorityTrustAnchor
  leases : Table (LeaseRow D)
  /-- The authorities and their commit intents, among the tables of the projects. -/
  database : Projects.Database

namespace Store

variable {D : Digests}

/-- A store without rows. -/
def bare : Store D where
  profiles := ∅
  instances := ∅
  credentials := ∅
  anchors := ∅
  leases := ∅
  database := .bare

/-! ## Deployments -/

def addDeploymentProfile (store : Store D) (p : DeploymentProfile) : Except String (Store D) := do
  let profiles ← present (store.profiles.insert? p) "deployment_profile_identity_conflict"
  return { store with profiles := profiles }

def addDeploymentInstance (store : Store D) (i : DeploymentInstance) :
    Except String (Store D) := do
  let _ ← present (store.profiles.get? i.deploymentProfileId) "deployment_instance_profile_missing"
  let instances ← present (store.instances.insert? i) "deployment_instance_identity_conflict"
  return { store with instances := instances }

/-- `add_epoch_credential`. A workspace has one credential for an epoch. -/
def addEpochCredential (store : Store D) (c : AuthorityEpochCredential) :
    Except String (Store D) := do
  let i ← present (store.instances.get? c.deploymentInstanceId) "epoch_credential_instance_missing"
  require (c.deviceBindingDigest = i.deviceBindingDigest) "epoch_credential_device_binding_mismatch"
  refuse (∃ d ∈ store.credentials.rows, d.workspaceId = c.workspaceId ∧
    d.authorityEpoch = c.authorityEpoch) "epoch_credential_identity_conflict"
  let credentials ← present (store.credentials.insert? c) "epoch_credential_identity_conflict"
  return { store with credentials := credentials }

def addTrustAnchor (store : Store D) (a : AuthorityTrustAnchor) : Except String (Store D) := do
  let anchors ← present (store.anchors.insert? a) "authority_trust_anchor_identity_conflict"
  return { store with anchors := anchors }

/-! ## Leases -/

/-- A lease of the workspace and the epoch is unreleased. -/
def Held (store : Store D) (workspaceId : Uuid) (authorityEpoch : Nat) : Prop :=
  ∃ r ∈ store.leases.rows, r.Of workspaceId authorityEpoch ∧ r.Unreleased

instance (store : Store D) (workspaceId : Uuid) (authorityEpoch : Nat) :
    Decidable (store.Held workspaceId authorityEpoch) := by
  unfold Held
  infer_instance

/-- The tokens that have been granted for a workspace and an epoch, in the order of the grants. -/
def tokens (store : Store D) (workspaceId : Uuid) (authorityEpoch : Nat) : List Nat :=
  (store.leases.rows.filter fun r => r.Of workspaceId authorityEpoch).map (·.lease.fencingToken)

/-- `MAX(fencing_token)`, or 0. -/
def latestToken (store : Store D) (workspaceId : Uuid) (authorityEpoch : Nat) : Nat :=
  (store.tokens workspaceId authorityEpoch).max?.getD 0

/-- `acquire_lease`. -/
def acquireLease (store : Store D) (l : DeploymentInstanceLease D) : Except String (Store D) := do
  let i ← present (store.instances.get? l.deploymentInstanceId) "lease_instance_not_active"
  require (i.status = .active) "lease_instance_not_active"
  refuse (store.Held l.workspaceId l.authorityEpoch) "same_epoch_instance_lease_conflict"
  let latest := store.latestToken l.workspaceId l.authorityEpoch
  refuse (l.fencingToken ≤ latest) "lease_fencing_token_not_advanced"
  require (l.fencingToken = latest + 1) "lease_fencing_token_skipped"
  let leases ← present (store.leases.insert? ⟨l, none⟩) "same_epoch_instance_lease_conflict"
  return { store with leases := leases }

/-- Release a lease, of which only the time of the release changes. -/
def released (at_ : Instant) : Rewrite (LeaseRow D) where
  apply r := { lease := { r.lease with releasedAt := some at_ }, releasedAt := some at_ }
  keeps _ := rfl

/-- `release_lease`. -/
def releaseLease (store : Store D) (l : DeploymentInstanceLease D) (expectedFencingToken : Nat) :
    Except String (Store D) := do
  let at_ ← present l.releasedAt "lease_release_time_invalid"
  refuse (at_ < l.acquiredAt) "lease_release_time_invalid"
  let row ← present ((store.leases.get? l.id).filter (·.lease.workspaceId = l.workspaceId))
    "lease_release_state_conflict"
  require row.Unreleased "lease_release_state_conflict"
  require (row.lease.fencingToken = expectedFencingToken ∧
      l.fencingToken = expectedFencingToken ∧
      l = { row.lease with releasedAt := l.releasedAt }) "lease_fencing_token_mismatch"
  return { store with leases := store.leases.update (·.lease.id = l.id) (released at_) }

/-- `get_active_lease`. -/
def getActiveLease (store : Store D) (workspaceId : Uuid) (authorityEpoch : Nat) :
    Option (DeploymentInstanceLease D) :=
  (store.leases.rows.find? fun r => r.Of workspaceId authorityEpoch ∧ r.Unreleased).map (·.lease)

/-! ## Authorities -/

/-- `_validate_authority_references`. -/
def validateAuthorityReferences (store : Store D) (a : WorkspaceAuthority) :
    Except String Unit := do
  let _ ← present (store.profiles.get? a.deploymentProfileId)
    "authority_deployment_instance_mismatch"
  let i ← present (store.instances.get? a.deploymentInstanceId)
    "authority_deployment_instance_mismatch"
  require (i.deploymentProfileId = a.deploymentProfileId ∧ i.status = .active)
    "authority_deployment_instance_mismatch"
  let c ← present (store.credentials.get? a.authorityEpochCredentialId)
    "authority_epoch_credential_mismatch"
  require (c.workspaceId = a.workspaceId ∧ c.authorityEpoch = a.epoch ∧
      c.deploymentInstanceId = a.deploymentInstanceId ∧
      c.deviceBindingDigest = i.deviceBindingDigest ∧ c.status = .active)
    "authority_epoch_credential_mismatch"
  let anchor ← present (store.anchors.get? a.trustAnchorId) "authority_trust_anchor_mismatch"
  require (anchor.workspaceId = a.workspaceId ∧ anchor.status = .active)
    "authority_trust_anchor_mismatch"
  match a.activeLeaseId with
  | none => return ()
  | some leaseId =>
    let row ← present ((store.leases.get? leaseId).filter (·.Unreleased))
      "authority_active_lease_mismatch"
    require (row.Of a.workspaceId a.epoch ∧ row.lease.deploymentInstanceId = a.deploymentInstanceId)
      "authority_active_lease_mismatch"

/-- `add_workspace_authority`. -/
def addWorkspaceAuthority (store : Store D) (a : WorkspaceAuthority) :
    Except String (Store D) := do
  store.validateAuthorityReferences a
  refuse (∃ b ∈ store.database.authorities.rows, b.id = a.id)
    "workspace_authority_identity_conflict"
  let authorities ← present (store.database.authorities.insert? a)
    "workspace_authority_identity_conflict"
  return { store with database := { store.database with authorities := authorities } }

end Store

/-! ## Calls -/

/-- A call of a method that writes. -/
inductive Operation (D : Digests) where
  | addDeploymentProfile (p : DeploymentProfile)
  | addDeploymentInstance (i : DeploymentInstance)
  | addEpochCredential (c : AuthorityEpochCredential)
  | addTrustAnchor (a : AuthorityTrustAnchor)
  | acquireLease (l : DeploymentInstanceLease D)
  | releaseLease (l : DeploymentInstanceLease D) (expectedFencingToken : Nat)
  | addWorkspaceAuthority (a : WorkspaceAuthority)
  | prepareCommit (i : AuthorityCommitIntent)
  | advanceCommit (i : AuthorityCommitIntent) (expected : AuthorityCommitState)
  | quarantineWorkspaceAuthority (workspaceId : Uuid) (expectedGeneration : Nat)
      (expectedStateRoot : String)

variable {D : Digests}

/-- The transaction of a call. -/
def Operation.perform (store : Store D) : Operation D → Except String (Store D)
  | addDeploymentProfile p => store.addDeploymentProfile p
  | addDeploymentInstance i => store.addDeploymentInstance i
  | addEpochCredential c => store.addEpochCredential c
  | addTrustAnchor a => store.addTrustAnchor a
  | acquireLease l => store.acquireLease l
  | releaseLease l token => store.releaseLease l token
  | addWorkspaceAuthority a => store.addWorkspaceAuthority a
  | prepareCommit i => do
    let database ← store.database.prepareCommit i
    return { store with database := database }
  | advanceCommit i expected => do
    let database ← store.database.advanceCommit i expected
    return { store with database := database }
  | quarantineWorkspaceAuthority ws generation root => do
    let database ← store.database.quarantineWorkspaceAuthority ws generation root
    return { store with database := database }

/-- The store after a call. One that raises has changed nothing. -/
def step (store : Store D) (op : Operation D) : Store D :=
  match op.perform store with
  | .ok store' => store'
  | .error _ => store

end Corvus.Deployment
