import Corvus.Projects.Records

/-!
# The database of project creations

The tables that a project creation writes, with the methods of the repositories on them.
A method is one transaction: it returns the new state or, having changed nothing, the
reason of its error. The rows that only a root covers are kept as they are read.
-/

namespace Corvus.Projects

open Authorization (AuthorityStateRootManifestVersion AuthorityStateRootLeafFamily CoverageKind
  WorkspaceAuthorityState)

instance : Keyed Project Uuid := ⟨Project.id⟩
/-- A workspace has one authority: `uq_workspace_authorities_workspace_id`. -/
instance : Keyed WorkspaceAuthority Uuid := ⟨WorkspaceAuthority.workspaceId⟩
instance : Keyed AuthorityCommitIntent Uuid := ⟨AuthorityCommitIntent.id⟩
instance : Keyed AuthorizationDecisionSnapshot Uuid := ⟨AuthorizationDecisionSnapshot.id⟩
instance : Keyed AuditReceipt Uuid := ⟨AuditReceipt.id⟩
instance : Keyed AuditResultBinding Uuid := ⟨AuditResultBinding.id⟩
instance : Keyed AuditAnchorRecoveryCheckpoint Uuid := ⟨AuditAnchorRecoveryCheckpoint.id⟩
instance : Keyed AuthorityStateRootManifestVersion Uuid := ⟨AuthorityStateRootManifestVersion.id⟩

deriving instance DecidableEq for AuthorityStateRootManifestVersion

/-- A row of a table as a root covers it. Where the table has a column `payload_json`, its
text is given by the object that it parses to, if it does. -/
structure Row where
  columns : Members
  payload : Option (Option Members)

/-- A table that no creation writes. -/
structure RawTable where
  columns : List String
  rows : List Row

structure Database where
  projects : Table Project
  authorities : Table WorkspaceAuthority
  intents : Table AuthorityCommitIntent
  snapshots : Table AuthorizationDecisionSnapshot
  receipts : Table AuditReceipt
  bindings : Table AuditResultBinding
  checkpoints : Table AuditAnchorRecoveryCheckpoint
  /-- The leaf commitments of the workspaces. -/
  commitments : List (Uuid × AuthorityStateRootLeafCommitment)
  manifests : Table AuthorityStateRootManifestVersion
  families : List AuthorityStateRootLeafFamily
  /-- The other tables, by their names. -/
  others : String → RawTable

namespace Database

/-- A database without rows. -/
def bare : Database where
  projects := ∅
  authorities := ∅
  intents := ∅
  snapshots := ∅
  receipts := ∅
  bindings := ∅
  checkpoints := ∅
  commitments := []
  manifests := ∅
  families := []
  others _ := { columns := [], rows := [] }

/-! ## `AuthorityRepository` -/

def getWorkspaceAuthority (db : Database) (workspaceId : Uuid) : Option WorkspaceAuthority :=
  db.authorities.get? workspaceId

def getCommitIntent (db : Database) (workspaceId intentId : Uuid) :
    Option AuthorityCommitIntent :=
  (db.intents.get? intentId).filter (·.workspaceId = workspaceId)

/-- The authority of the workspace stands where the intent starts from. -/
def AtPrior (a : WorkspaceAuthority) (i : AuthorityCommitIntent) : Prop :=
  a.epoch = i.epoch ∧ a.deploymentInstanceId = i.deploymentInstanceId ∧
    a.authorityGeneration = i.priorGeneration ∧ a.authorityStateRoot = i.priorStateRoot

instance (a : WorkspaceAuthority) (i : AuthorityCommitIntent) : Decidable (AtPrior a i) := by
  unfold AtPrior
  infer_instance

/-- An intent of the workspace is in flight. -/
def InFlight (db : Database) (workspaceId : Uuid) : Prop :=
  ∃ i ∈ db.intents.rows, i.workspaceId = workspaceId ∧ i.state.ended = false

instance (db : Database) (workspaceId : Uuid) : Decidable (db.InFlight workspaceId) := by
  unfold InFlight
  infer_instance

/-- `prepare_commit`. The instance of an intent is that of an authority, which is there. -/
def prepareCommit (db : Database) (i : AuthorityCommitIntent) : Except String Database := do
  require (i.state = .prepared) "authority_commit_initial_state_invalid"
  let a ← present (db.authorities.get? i.workspaceId) "authority_commit_prior_state_mismatch"
  require (AtPrior a i) "authority_commit_prior_state_mismatch"
  refuse (db.InFlight i.workspaceId) "authority_commit_in_progress"
  let intents ← present (db.intents.insert? i) "authority_commit_in_progress"
  require (i.nextGeneration = i.priorGeneration + 1) "authority_commit_in_progress"
  return { db with intents := intents }

/-- `_ALLOWED_COMMIT_TRANSITIONS`. -/
def allowedCommitTransitions : AuthorityCommitState → List AuthorityCommitState
  | .prepared => [.anchorReserved, .quarantined]
  | .anchorReserved => [.dbCommitted, .quarantined]
  | .dbCommitted => [.anchorFinalized, .quarantined]
  | .anchorFinalized => []
  | .quarantined => []

/-- Move an intent to a state. -/
def toState (state : AuthorityCommitState) : Rewrite AuthorityCommitIntent where
  apply i := { i with state := state }
  keeps _ := rfl

/-- Move an authority to where an intent leads. -/
def advanced (i : AuthorityCommitIntent) : Rewrite WorkspaceAuthority where
  apply a :=
    { a with
      authorityGeneration := i.nextGeneration
      authorityStateRoot := i.proposedStateRoot
      version := a.version + 1 }
  keeps _ := rfl

/-- `_advance_workspace_authority`. -/
def advanceWorkspaceAuthority (db : Database) (i : AuthorityCommitIntent) :
    Except String Database := do
  let a ← present (db.authorities.get? i.workspaceId) "authority_commit_prior_state_mismatch"
  require (AtPrior a i) "authority_commit_prior_state_mismatch"
  return { db with authorities := db.authorities.update (·.workspaceId = i.workspaceId) (advanced i) }

/-- `advance_commit`. -/
def advanceCommit (db : Database) (i : AuthorityCommitIntent) (expected : AuthorityCommitState) :
    Except String Database := do
  require (i.state ∈ allowedCommitTransitions expected) "authority_commit_transition_invalid"
  let current ← present (db.getCommitIntent i.workspaceId i.id) "authority_commit_state_conflict"
  require (current.state = expected) "authority_commit_state_conflict"
  require ({ current with state := i.state } = i) "authority_commit_identity_mismatch"
  let db ← if i.state = .dbCommitted then db.advanceWorkspaceAuthority i else pure db
  return { db with intents := db.intents.update (·.id = i.id) (toState i.state) }

/-- Put an authority into quarantine. -/
def quarantined : Rewrite WorkspaceAuthority where
  apply a := { a with state := .restoreQuarantine, version := a.version + 1 }
  keeps _ := rfl

/-- `quarantine_workspace_authority`. -/
def quarantineWorkspaceAuthority (db : Database) (workspaceId : Uuid) (expectedGeneration : Nat)
    (expectedStateRoot : String) : Except String Database := do
  let a ← present (db.authorities.get? workspaceId) "workspace_authority_quarantine_state_mismatch"
  require (a.authorityGeneration = expectedGeneration ∧ a.authorityStateRoot = expectedStateRoot)
    "workspace_authority_quarantine_state_mismatch"
  if a.state = .restoreQuarantine then
    return db
  require (a.state = .active) "workspace_authority_quarantine_state_invalid"
  return { db with authorities := db.authorities.update (·.workspaceId = workspaceId) quarantined }

/-! ## `AuditRepository` -/

def getSnapshot (db : Database) (workspaceId snapshotId : Uuid) :
    Option AuthorizationDecisionSnapshot :=
  (db.snapshots.get? snapshotId).filter (·.workspaceId = workspaceId)

/-- `list_receipts`, in the order of their sequence numbers. -/
def listReceipts (db : Database) (workspaceId : Uuid) : List AuditReceipt :=
  (db.receipts.rows.filter (·.workspaceId = workspaceId)).insertionSort
    fun r s => r.workspaceSequence ≤ s.workspaceSequence

/-- No receipt of the workspace has the sequence number or the hash. -/
def ReceiptFree (db : Database) (r : AuditReceipt) : Prop :=
  ∀ s ∈ db.receipts.rows, s.workspaceId = r.workspaceId →
    s.workspaceSequence ≠ r.workspaceSequence ∧ s.receiptHash ≠ r.receiptHash

instance (db : Database) (r : AuditReceipt) : Decidable (db.ReceiptFree r) := by
  unfold ReceiptFree
  infer_instance

/-- `append_receipt`. -/
def appendReceipt (db : Database) (r : AuditReceipt) : Except String Database := do
  let snapshot ← present (db.getSnapshot r.workspaceId r.authorizationSnapshotId)
    "audit_receipt_snapshot_mismatch"
  require (snapshot.canonicalDigest = r.authorizationSnapshotDigest)
    "audit_receipt_snapshot_mismatch"
  let latest := (db.listReceipts r.workspaceId).getLast?
  let expected := (latest.map (·.workspaceSequence)).getD 0 + 1
  require (r.workspaceSequence = expected) ("audit_sequence_mismatch:expected=" ++ toString expected)
  require (∀ s ∈ latest, r.previousHash = s.receiptHash) "audit_previous_hash_mismatch"
  require (db.ReceiptFree r) "audit_receipt_identity_conflict"
  let receipts ← present (db.receipts.insert? r) "audit_receipt_identity_conflict"
  return { db with receipts := receipts }

/-- No binding of the workspace has the receipt or the hash. -/
def BindingFree (db : Database) (b : AuditResultBinding) : Prop :=
  ∀ c ∈ db.bindings.rows, c.workspaceId = b.workspaceId →
    c.auditReceiptId ≠ b.auditReceiptId ∧ c.bindingHash ≠ b.bindingHash

instance (db : Database) (b : AuditResultBinding) : Decidable (db.BindingFree b) := by
  unfold BindingFree
  infer_instance

/-- The receipt of an id in a workspace. -/
def receiptOf (db : Database) (workspaceId receiptId : Uuid) : Option AuditReceipt :=
  (db.receipts.get? receiptId).filter (·.workspaceId = workspaceId)

/-- `append_result_binding`. -/
def appendResultBinding (db : Database) (b : AuditResultBinding) : Except String Database := do
  let r ← present (db.receiptOf b.workspaceId b.auditReceiptId)
    "audit_result_binding_receipt_mismatch"
  require (r.receiptHash = b.auditReceiptHash ∧ r.authorityCommitIntentId = b.authorityCommitIntentId)
    "audit_result_binding_receipt_mismatch"
  require (db.BindingFree b) "audit_result_binding_identity_conflict"
  let bindings ← present (db.bindings.insert? b) "audit_result_binding_identity_conflict"
  return { db with bindings := bindings }

def getResultBinding (db : Database) (workspaceId bindingId : Uuid) : Option AuditResultBinding :=
  (db.bindings.get? bindingId).filter (·.workspaceId = workspaceId)

/-- No checkpoint of the workspace has the receipt. -/
def CheckpointFree (db : Database) (c : AuditAnchorRecoveryCheckpoint) : Prop :=
  ∀ d ∈ db.checkpoints.rows, d.workspaceId = c.workspaceId → d.auditReceiptId ≠ c.auditReceiptId

instance (db : Database) (c : AuditAnchorRecoveryCheckpoint) : Decidable (db.CheckpointFree c) := by
  unfold CheckpointFree
  infer_instance

/-- `prepare_recovery`. -/
def prepareRecovery (db : Database) (c : AuditAnchorRecoveryCheckpoint) :
    Except String Database := do
  require (c.state = .prepared) "audit_recovery_initial_state_invalid"
  require (c.resultBindingId = none) "audit_recovery_binding_before_persistence"
  let r ← present (db.receiptOf c.workspaceId c.auditReceiptId) "audit_recovery_receipt_mismatch"
  require (r.authorityCommitIntentId = c.authorityCommitIntentId) "audit_recovery_receipt_mismatch"
  require (db.CheckpointFree c) "audit_recovery_identity_conflict"
  let checkpoints ← present (db.checkpoints.insert? c) "audit_recovery_identity_conflict"
  return { db with checkpoints := checkpoints }

def getRecoveryCheckpoint (db : Database) (workspaceId checkpointId : Uuid) :
    Option AuditAnchorRecoveryCheckpoint :=
  (db.checkpoints.get? checkpointId).filter (·.workspaceId = workspaceId)

/-- `_ALLOWED_RECOVERY_TRANSITIONS`. -/
def allowedRecoveryTransitions : AuditAnchorBindingState → List AuditAnchorBindingState
  | .prepared => [.authorityFinalized, .quarantined]
  | .authorityFinalized => [.bindingPersisted, .quarantined]
  | .bindingPersisted => [.complete, .quarantined]
  | .complete => []
  | .quarantined => []

/-- `binding_required`, of `_validate_recovery_binding`. -/
def bindingRequired (c : AuditAnchorRecoveryCheckpoint) : Bool :=
  if c.state = .quarantined then c.resultBindingId.isSome
  else c.state = .bindingPersisted || c.state = .complete

/-- `_validate_recovery_binding`. -/
def validateRecoveryBinding (db : Database) (c : AuditAnchorRecoveryCheckpoint) :
    Except String Unit := do
  if bindingRequired c then
    let bindingId ← present c.resultBindingId "audit_recovery_binding_missing"
    let b ← present (db.getResultBinding c.workspaceId bindingId) "audit_recovery_binding_mismatch"
    require (b.auditReceiptId = c.auditReceiptId ∧
        b.authorityCommitIntentId = c.authorityCommitIntentId ∧
        b.preparedResultDigest = c.preparedResultDigest) "audit_recovery_binding_mismatch"
  else
    require (c.resultBindingId = none) "audit_recovery_binding_too_early"

/-- Put a checkpoint in the place of the stored one, of which it has the id. -/
def replaced (c : AuditAnchorRecoveryCheckpoint) : Rewrite AuditAnchorRecoveryCheckpoint where
  apply d :=
    { d with state := c.state, resultBindingId := c.resultBindingId, updatedAt := c.updatedAt }
  keeps _ := rfl

/-- `advance_recovery`. -/
def advanceRecovery (db : Database) (c : AuditAnchorRecoveryCheckpoint)
    (expected : AuditAnchorBindingState) : Except String Database := do
  require (c.state ∈ allowedRecoveryTransitions expected) "audit_recovery_transition_invalid"
  let current ← present (db.getRecoveryCheckpoint c.workspaceId c.id)
    "audit_recovery_state_conflict"
  require (current.state = expected) "audit_recovery_state_conflict"
  require (current.auditReceiptId = c.auditReceiptId ∧
      current.authorityCommitIntentId = c.authorityCommitIntentId ∧
      current.preparedResultDigest = c.preparedResultDigest) "audit_recovery_identity_mismatch"
  db.validateRecoveryBinding c
  return { db with checkpoints := db.checkpoints.update (·.id = c.id) (replaced c) }

end Database

end Corvus.Projects
