import Corvus.Authorization.Records
import Corvus.Library.Canonical
import Corvus.Library.Table

/-!
# The records of a project creation

The project, the event that authorizes it and the records that its creation leaves behind:
the intent to advance the authority, the audit receipt, the recovery checkpoint and the
result binding. A digest is the text of its hexadecimal digits, and every time is in UTC.
-/

namespace Corvus.Projects

open Authorization (jsonTime AuthorizationDecision WorkspaceAuthorityState)

/-- A name with the value that it has in a record. -/
abbrev Members := List (String × Json)

/-- The members that are there, as `exclude_none` leaves them. -/
def someMembers (members : List (String × Option Json)) : Members :=
  members.filterMap fun m => m.2.map (m.1, ·)

/-- `_canonical_json` under SHA-256. -/
def canonicalDigest (D : Digests) (members : Members) : String := D.sha256 (Json.dumps (.obj members))

/-! ## Projects -/

inductive RecordStatus where
  | active | suspended | revoked | archived
deriving DecidableEq, Repr

structure Project where
  id : Uuid
  workspaceId : Uuid
  name : String
  rootLocator : String
  privacy : String
  status : RecordStatus
  createdAt : Instant
  updatedAt : Instant
  version : Nat

namespace ProjectAuditEvent

end ProjectAuditEvent

/-! ## Authority -/

structure WorkspaceAuthority where
  id : Uuid
  workspaceId : Uuid
  deploymentProfileId : Uuid
  deploymentInstanceId : Uuid
  epoch : Nat
  authorityGeneration : Nat
  authorityStateRoot : String
  authorityEpochCredentialId : Uuid
  trustAnchorId : Uuid
  activeLeaseId : Option Uuid
  state : WorkspaceAuthorityState
  previousEpochDigest : Option String
  activatedAt : Instant
  closedAt : Option Instant
  version : Nat

inductive AuthorityCommitState where
  | prepared | anchorReserved | dbCommitted | anchorFinalized | quarantined
deriving DecidableEq, Repr

/-- The states that are not in flight: `('anchor_finalized', 'quarantined')`. -/
def AuthorityCommitState.ended (s : AuthorityCommitState) : Bool :=
  s = anchorFinalized || s = quarantined

structure AuthorityCommitIntent where
  id : Uuid
  workspaceId : Uuid
  epoch : Nat
  deploymentInstanceId : Uuid
  priorGeneration : Nat
  nextGeneration : Nat
  priorStateRoot : String
  mutationDigest : String
  proposedStateRoot : String
  state : AuthorityCommitState
  createdAt : Instant
deriving DecidableEq

/-! ## Audit -/

/-- The snapshot of an authorization decision, with its other members, which only a root
covers. -/
structure AuthorizationDecisionSnapshot where
  id : Uuid
  workspaceId : Uuid
  requestContextId : Uuid
  authorityGeneration : Nat
  authorityStateRoot : String
  authorityCommitReceiptId : Uuid
  scopeKind : String
  scopeId : Uuid
  requesterId : Uuid
  policyDigest : String
  decision : AuthorizationDecision
  reasonCode : String
  canonicalInputsJson : Members
  canonicalDigest : String
  signingKeyVersionId : Uuid
  createdAt : Instant
  rest : Members

/-- Members of a record whose floats are written as numbers. -/
abbrev WrittenMembers := { members : Members // Json.PlainMembers members }

/-- An audit receipt. `rest` are the members of its output, its effects, its cost and its
evidence, which a receipt of a project has at their defaults. -/
structure AuditReceipt where
  id : Uuid
  workspaceId : Uuid
  workspaceSequence : Nat
  schemaVersion : Nat
  priorAuthorityEpoch : Nat
  priorAuthorityGeneration : Nat
  priorAuthorityStateRoot : String
  priorAuthorityCommitReceiptId : Uuid
  authorityCommitIntentId : Uuid
  intendedMutationDigest : String
  requestContextId : Uuid
  authorizationSnapshotId : Uuid
  authorizationSnapshotDigest : String
  action : String
  resource : String
  decision : AuthorizationDecision
  reasonCode : String
  policyDigest : String
  sanitizedInputDigest : String
  rest : WrittenMembers
  signingKeyVersionId : Uuid
  previousHash : String
  receiptHash : String
  receiptSignature : String
  createdAt : Instant

/-- The defaults of the members of a receipt that a project does not set. -/
def AuditReceipt.defaults : WrittenMembers where
  val := [
    ("output_digest", .null),
    ("effect_payload_version_ids", .arr []),
    ("effect_payload_commitment_digests", .arr []),
    ("effect_attempt_ids", .arr []),
    ("cost_json", .obj []),
    ("evidence_ids", .arr [])]
  property := by simp [Json.PlainMembers, Json.Plain, Json.PlainItems]

structure AuditResultBinding where
  id : Uuid
  workspaceId : Uuid
  auditReceiptId : Uuid
  auditReceiptHash : String
  authorityCommitIntentId : Uuid
  preparedResultDigest : String
  finalizedAuthorityEpoch : Nat
  finalizedAuthorityGeneration : Nat
  finalizedAuthorityStateRoot : String
  authorityCommitReceiptId : Uuid
  authorityCommitReceiptDigest : String
  signingKeyVersionId : Uuid
  bindingHash : String
  bindingSignature : String
  createdAt : Instant

inductive AuditAnchorBindingState where
  | prepared | authorityFinalized | bindingPersisted | complete | quarantined
deriving DecidableEq, Repr

structure AuditAnchorRecoveryCheckpoint where
  id : Uuid
  workspaceId : Uuid
  auditReceiptId : Uuid
  authorityCommitIntentId : Uuid
  preparedResultDigest : String
  state : AuditAnchorBindingState
  resultBindingId : Option Uuid
  updatedAt : Instant

/-! ## Roots -/

structure AuthorityStateRootLeafCommitment where
  manifestVersionId : Uuid
  authorityGeneration : Nat
  ordinal : Nat
  familyName : String
  recordVersion : Int
  leafDigest : String
  externalProofDigest : Option String

end Corvus.Projects
