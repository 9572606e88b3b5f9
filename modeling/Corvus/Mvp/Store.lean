import Corvus.Library.Table
import Corvus.Mvp.Models

/-!
# The SQLite tables of the service

One record per table of `mvp/store.py` that the workflow service uses, and the
database they form. Primary keys are part of `Table`; the two remaining `UNIQUE`
constraints and the `CHECK`s that a statement can violate are enforced where rows
are written. A column with `CHECK (x >= 0)` is a natural number. Foreign keys
need no check of their own: every referenced row is read in the same transaction,
or is named by a claim that an earlier transaction handed out.
-/

namespace Corvus.Mvp

structure ProjectRow where
  id : Uuid
  tenantId : String
  name : String
  createdAt : Instant

instance : Keyed ProjectRow Uuid := ⟨ProjectRow.id⟩

structure OutcomeRow where
  id : Uuid
  projectId : Uuid
  version : Nat
  title : String
  acceptanceCriteria : List String
  createdAt : Instant

instance : Keyed OutcomeRow Uuid := ⟨OutcomeRow.id⟩

structure WorkflowRow where
  id : Uuid
  outcomeId : Uuid
  name : String
  status : WorkflowStatus
  createdAt : Instant
  updatedAt : Instant
deriving DecidableEq

instance : Keyed WorkflowRow Uuid := ⟨WorkflowRow.id⟩

structure WorkItemRow where
  id : Uuid
  workflowId : Uuid
  itemKey : String
  title : String
  status : WorkItemStatus
  dependsOn : List String
  costUnits : Nat
  requiresApproval : Bool
  effect : Option EffectBinding
  leaseOwner : Option String
  leaseExpiresAt : Option Instant
  leaseFence : Nat
  attemptCount : Nat
  result : Option Json
  error : Option String
deriving DecidableEq

instance : Keyed WorkItemRow Uuid := ⟨WorkItemRow.id⟩

structure AttemptRow where
  id : Uuid
  workItemId : Uuid
  workerId : String
  leaseFence : Nat
  status : AttemptStatus
  result : Option Json
  error : Option String
  startedAt : Instant
  finishedAt : Option Instant
deriving DecidableEq

instance : Keyed AttemptRow Uuid := ⟨AttemptRow.id⟩

structure CheckpointRow where
  id : Uuid
  workflowId : Uuid
  workItemId : Uuid
  state : String
  createdAt : Instant

instance : Keyed CheckpointRow Uuid := ⟨CheckpointRow.id⟩

structure ArtifactRow where
  id : Uuid
  workflowId : Uuid
  workItemId : Uuid
  digest : String
  mediaType : String
  content : Json
  createdAt : Instant

instance : Keyed ArtifactRow Uuid := ⟨ArtifactRow.id⟩

structure LineageRow where
  id : Uuid
  workflowId : Uuid
  sourceType : String
  sourceId : Uuid
  targetType : String
  targetId : Uuid
  createdAt : Instant

instance : Keyed LineageRow Uuid := ⟨LineageRow.id⟩

structure ConversationRow where
  id : Uuid
  workflowId : Uuid
  workItemId : Uuid
  role : String
  content : String
  createdAt : Instant

instance : Keyed ConversationRow Uuid := ⟨ConversationRow.id⟩

structure EffectRow where
  id : Uuid
  workflowId : Uuid
  workItemId : Uuid
  idempotencyKey : String
  binding : EffectBinding
  status : EffectStatus
  approvalId : Option Uuid
  executionCount : Nat
  result : Option Json
deriving DecidableEq

instance : Keyed EffectRow Uuid := ⟨EffectRow.id⟩

structure ApprovalRow where
  id : Uuid
  effectId : Uuid
  actorId : String
  status : ApprovalStatus
  createdAt : Instant
  consumedAt : Option Instant

instance : Keyed ApprovalRow Uuid := ⟨ApprovalRow.id⟩

structure BudgetRow where
  projectId : Uuid
  limitUnits : Nat
  reservedUnits : Nat
  settledUnits : Nat

instance : Keyed BudgetRow Uuid := ⟨BudgetRow.projectId⟩

/-- `BudgetAccount.available_units`. -/
def BudgetRow.availableUnits (b : BudgetRow) : Int :=
  b.limitUnits - b.reservedUnits - b.settledUnits

structure ReservationRow where
  id : Uuid
  effectId : Uuid
  projectId : Uuid
  amountUnits : Nat
  status : ReservationStatus
deriving DecidableEq

instance : Keyed ReservationRow Uuid := ⟨ReservationRow.id⟩

structure KillSwitchRow where
  scopeKind : ScopeKind
  scopeId : String
  enabled : Bool
deriving DecidableEq

instance : Keyed KillSwitchRow (ScopeKind × String) := ⟨fun k => (k.scopeKind, k.scopeId)⟩

structure EventRow where
  workflowId : Uuid
  eventType : String
  payload : Json

structure Db where
  projects : Table ProjectRow
  outcomes : Table OutcomeRow
  workflows : Table WorkflowRow
  workItems : Table WorkItemRow
  attempts : Table AttemptRow
  checkpoints : Table CheckpointRow
  artifacts : Table ArtifactRow
  lineage : Table LineageRow
  conversationEntries : Table ConversationRow
  effects : Table EffectRow
  approvals : Table ApprovalRow
  budgets : Table BudgetRow
  reservations : Table ReservationRow
  killSwitches : Table KillSwitchRow
  events : List EventRow

/-- The database after the migrations: every table is empty. -/
def Db.empty : Db where
  projects := ∅
  outcomes := ∅
  workflows := ∅
  workItems := ∅
  attempts := ∅
  checkpoints := ∅
  artifacts := ∅
  lineage := ∅
  conversationEntries := ∅
  effects := ∅
  approvals := ∅
  budgets := ∅
  reservations := ∅
  killSwitches := ∅
  events := []

/-- A row that a statement must find. -/
def found {α : Type} (code : String) : Option α → Except Error α
  | some a => .ok a
  | none => .error (.notFound code)

/-- A write that a `PRIMARY KEY`, `UNIQUE` or `CHECK` constraint may refuse. -/
def admitted {α : Type} (constraint : String) : Option α → Except Error α
  | some a => .ok a
  | none => .error (.integrity constraint)

end Corvus.Mvp
