import Corvus.Library.Except
import Corvus.Mvp.Store

/-!
# The statements of the service

The SQL statements that the transactions of `mvp/core.py` share: one `INSERT` for
each table, the `UPDATE`s by id, and the helpers that only read. A statement that a
constraint may refuse, or that must find its row, raises in `Except`; the others are
plain functions on the database.
-/

namespace Corvus.Mvp

/-! ## Reading a statement that may raise -/

theorem found_eq_ok {α : Type} {code : String} {o : Option α} {a : α} :
    found code o = .ok a ↔ o = some a := by
  cases o with
  | none => simp [found]
  | some b => simp [found]

theorem admitted_eq_ok {α : Type} {constraint : String} {o : Option α} {a : α} :
    admitted constraint o = .ok a ↔ o = some a := by
  cases o with
  | none => simp [admitted]
  | some b => simp [admitted]

/-! ## The columns that an `UPDATE` sets -/

namespace WorkItemRow

def withStatus (status : WorkItemStatus) : Rewrite WorkItemRow where
  apply r := { r with status }
  keeps _ := rfl

/-- `claim_next`. -/
def claim (workerId : String) (expiresAt : Instant) (fence : Nat) : Rewrite WorkItemRow where
  apply r := { r with
    status := .running, leaseOwner := some workerId, leaseExpiresAt := some expiresAt
    leaseFence := fence, attemptCount := r.attemptCount + 1 }
  keeps _ := rfl

/-- `complete_claim`. -/
def succeed (output : Json) : Rewrite WorkItemRow where
  apply r := { r with
    status := .succeeded, result := some output, error := none
    leaseOwner := none, leaseExpiresAt := none }
  keeps _ := rfl

/-- `heartbeat`. -/
def renew (expiresAt : Instant) : Rewrite WorkItemRow where
  apply r := { r with leaseExpiresAt := some expiresAt }
  keeps _ := rfl

/-- `fail_claim`. -/
def fail (error : String) : Rewrite WorkItemRow where
  apply r := { r with
    status := .failed, error := some error, leaseOwner := none, leaseExpiresAt := none }
  keeps _ := rfl

/-- `retry_work_item`. -/
def retry (status : WorkItemStatus) : Rewrite WorkItemRow where
  apply r := { r with status, error := none }
  keeps _ := rfl

/-- `recover_workflow`. -/
def recover : Rewrite WorkItemRow where
  apply r := { r with
    status := .ready, leaseOwner := none, leaseExpiresAt := none
    error := some "stale_lease_recovered" }
  keeps _ := rfl

/-- `_wait_for_approval`. -/
def await : Rewrite WorkItemRow where
  apply r := { r with status := .waitingApproval, leaseOwner := none, leaseExpiresAt := none }
  keeps _ := rfl

/-- `cancel_workflow`. -/
def cancel : Rewrite WorkItemRow where
  apply r := { r with status := .cancelled, leaseOwner := none, leaseExpiresAt := none }
  keeps _ := rfl

end WorkItemRow

namespace AttemptRow

def succeed (output : Json) (now : Instant) : Rewrite AttemptRow where
  apply a := { a with status := .succeeded, result := some output, finishedAt := some now }
  keeps _ := rfl

def fail (error : String) (now : Instant) : Rewrite AttemptRow where
  apply a := { a with status := .failed, error := some error, finishedAt := some now }
  keeps _ := rfl

def await (now : Instant) : Rewrite AttemptRow where
  apply a := { a with status := .waitingApproval, finishedAt := some now }
  keeps _ := rfl

def interrupt (now : Instant) : Rewrite AttemptRow where
  apply a := { a with
    status := .interrupted, error := some "stale_lease_recovered", finishedAt := some now }
  keeps _ := rfl

end AttemptRow

def WorkflowRow.withStatus (status : WorkflowStatus) (now : Instant) : Rewrite WorkflowRow where
  apply w := { w with status, updatedAt := now }
  keeps _ := rfl

/-- `approve_effect` and `reject_effect`. -/
def EffectRow.decided (approvalId : Uuid) (status : EffectStatus) : Rewrite EffectRow where
  apply e := { e with approvalId := some approvalId, status }
  keeps _ := rfl

/-- `_execute_effect_for_claim`. -/
def EffectRow.execute (result : Json) : Rewrite EffectRow where
  apply e := { e with status := .executed, executionCount := 1, result := some result }
  keeps _ := rfl

def ApprovalRow.consume (now : Instant) : Rewrite ApprovalRow where
  apply a := { a with consumedAt := some now }
  keeps _ := rfl

def BudgetRow.reserve (amount : Nat) : Rewrite BudgetRow where
  apply b := { b with reservedUnits := b.reservedUnits + amount }
  keeps _ := rfl

/-- Units that leave the reserved balance, with those among them that are settled. -/
def BudgetRow.debit (amount settled : Nat) : Rewrite BudgetRow where
  apply b := { b with
    reservedUnits := b.reservedUnits - amount
    settledUnits := b.settledUnits + settled }
  keeps _ := rfl

def BudgetRow.withLimit (limitUnits : Nat) : Rewrite BudgetRow where
  apply b := { b with limitUnits }
  keeps _ := rfl

def ReservationRow.withStatus (status : ReservationStatus) : Rewrite ReservationRow where
  apply r := { r with status }
  keeps _ := rfl

def KillSwitchRow.withEnabled (enabled : Bool) : Rewrite KillSwitchRow where
  apply k := { k with enabled }
  keeps _ := rfl

namespace Db

/-! ## Rows that must exist -/

def requireProject (db : Db) (id : Uuid) : Except Error ProjectRow :=
  found "project_not_found" (db.projects.get? id)

def requireOutcome (db : Db) (id : Uuid) : Except Error OutcomeRow :=
  found "outcome_not_found" (db.outcomes.get? id)

def requireWorkflow (db : Db) (id : Uuid) : Except Error WorkflowRow :=
  found "workflow_not_found" (db.workflows.get? id)

def requireEffect (db : Db) (id : Uuid) : Except Error EffectRow :=
  found "effect_not_found" (db.effects.get? id)

/-- `_budget`. -/
def budget (db : Db) (projectId : Uuid) : Except Error BudgetRow :=
  found "budget_not_found" (db.budgets.get? projectId)

/-- The project of a workflow, through its outcome. -/
def projectOf (db : Db) (workflowId : Uuid) : Option Uuid :=
  (db.workflows.get? workflowId).bind fun w =>
    (db.outcomes.get? w.outcomeId).map (·.projectId)

/-- The approval of an effect. -/
def approvalOf (db : Db) (effectId : Uuid) : Option ApprovalRow :=
  db.approvals.rows.find? fun a => decide (a.effectId = effectId)

/-! ## Insertions -/

def insertAttempt (db : Db) (row : AttemptRow) : Except Error Db := do
  let attempts ← admitted "mvp_attempts.id" (db.attempts.insert? row)
  return { db with attempts }

def insertCheckpoint (db : Db) (row : CheckpointRow) : Except Error Db := do
  let checkpoints ← admitted "mvp_checkpoints.id" (db.checkpoints.insert? row)
  return { db with checkpoints }

def insertArtifact (db : Db) (row : ArtifactRow) : Except Error Db := do
  let artifacts ← admitted "mvp_artifacts.id" (db.artifacts.insert? row)
  return { db with artifacts }

def insertLineage (db : Db) (row : LineageRow) : Except Error Db := do
  let lineage ← admitted "mvp_lineage.id" (db.lineage.insert? row)
  return { db with lineage }

def insertConversation (db : Db) (row : ConversationRow) : Except Error Db := do
  let conversationEntries ← admitted "mvp_conversation_entries.id"
    (db.conversationEntries.insert? row)
  return { db with conversationEntries }

/-- A work item has one effect, and idempotency keys are unique. -/
def insertEffect (db : Db) (row : EffectRow) : Except Error Db := do
  if db.effects.rows.any fun e =>
      decide (e.workItemId = row.workItemId) || decide (e.idempotencyKey = row.idempotencyKey) then
    throw (.integrity "mvp_effects")
  let effects ← admitted "mvp_effects.id" (db.effects.insert? row)
  return { db with effects }

/-- An effect has one approval. -/
def insertApproval (db : Db) (row : ApprovalRow) : Except Error Db := do
  if db.approvals.rows.any fun a => decide (a.effectId = row.effectId) then
    throw (.integrity "mvp_approvals.effect_id")
  let approvals ← admitted "mvp_approvals.id" (db.approvals.insert? row)
  return { db with approvals }

/-- An effect has one reservation. -/
def insertReservation (db : Db) (row : ReservationRow) : Except Error Db := do
  if db.reservations.rows.any fun r => decide (r.effectId = row.effectId) then
    throw (.integrity "mvp_budget_reservations.effect_id")
  let reservations ← admitted "mvp_budget_reservations.id" (db.reservations.insert? row)
  return { db with reservations }

/-! ## Updates -/

/-- `_append_event`. -/
def appendEvent (db : Db) (workflowId : Uuid) (eventType : String)
    (payload : List (String × Json)) : Db :=
  { db with events := db.events ++ [⟨workflowId, eventType, .obj payload⟩] }

/-- `UPDATE mvp_workflows SET status = ?, updated_at = ? WHERE id = ?`. -/
def setStatus (db : Db) (workflowId : Uuid) (status : WorkflowStatus) (now : Instant) : Db :=
  { db with
    workflows := db.workflows.update (fun w => decide (w.id = workflowId))
      (WorkflowRow.withStatus status now) }

/-- `UPDATE mvp_work_items SET ... WHERE id = ?`. -/
def setItem (db : Db) (itemId : Uuid) (f : Rewrite WorkItemRow) : Db :=
  { db with workItems := db.workItems.update (fun r => decide (r.id = itemId)) f }

/-- `UPDATE mvp_attempts SET ... WHERE id = ?`. -/
def setAttempt (db : Db) (attemptId : Uuid) (f : Rewrite AttemptRow) : Db :=
  { db with attempts := db.attempts.update (fun a => decide (a.id = attemptId)) f }

/-- `UPDATE mvp_effects SET ... WHERE id = ?`. -/
def setEffect (db : Db) (effectId : Uuid) (f : Rewrite EffectRow) : Db :=
  { db with effects := db.effects.update (fun e => decide (e.id = effectId)) f }

/-- `UPDATE mvp_budgets SET ... WHERE project_id = ?`. -/
def setBudgetRow (db : Db) (projectId : Uuid) (f : Rewrite BudgetRow) : Db :=
  { db with budgets := db.budgets.update (fun b => decide (b.projectId = projectId)) f }

/-- `UPDATE mvp_budget_reservations SET status = ? WHERE id = ?`. -/
def setReservation (db : Db) (reservationId : Uuid) (status : ReservationStatus) : Db :=
  { db with
    reservations := db.reservations.update (fun r => decide (r.id = reservationId))
      (ReservationRow.withStatus status) }

/-- `UPDATE mvp_approvals SET consumed_at = ? WHERE id = ? AND consumed_at IS NULL`. -/
def consumeApproval (db : Db) (approvalId : Uuid) (now : Instant) : Db :=
  { db with
    approvals := db.approvals.update
      (fun a => decide (a.id = approvalId) && a.consumedAt.isNone) (ApprovalRow.consume now) }

/-! ## Readiness -/

/-- The keys of the items of a workflow that have succeeded. -/
def succeededKeys (db : Db) (workflowId : Uuid) : List String :=
  (db.workItems.rows.filter fun r =>
    decide (r.workflowId = workflowId) && decide (r.status = .succeeded)).map (·.itemKey)

/-- `dependencies.issubset(succeeded)`. -/
def dependenciesMet (db : Db) (workflowId : Uuid) (dependsOn : List String) : Bool :=
  dependsOn.all fun d => decide (d ∈ db.succeededKeys workflowId)

/-- `_refresh_ready_items`. The set of succeeded keys is read once, before the loop. -/
def refreshReadyItems (db : Db) (workflowId : Uuid) : Db :=
  { db with
    workItems := db.workItems.update
      (fun r => decide (r.workflowId = workflowId) && decide (r.status = .pending) &&
        db.dependenciesMet workflowId r.dependsOn)
      (WorkItemRow.withStatus .ready) }

end Db

end Corvus.Mvp
