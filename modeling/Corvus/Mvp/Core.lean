import Corvus.Mvp.Graph
import Corvus.Mvp.Statements

/-!
# Transactions of the workflow service

The body of each transaction of `CorvusService` (`mvp/core.py`), in the order of its
statements. A body reads the database, and returns its result with the database it
would commit; a raised error is `Except.error`, after which nothing is kept. Fresh
`uuid4()` values and readings of the clock are arguments. An `Except` bind is one
statement that may raise, a `let` is one that may not.
-/

namespace Corvus.Mvp

/-- The ids that `_complete_claim` draws for the rows it adds. -/
structure CompletionIds where
  artifact : Uuid
  checkpoint : Uuid
  lineage : Uuid
  conversation : Uuid

namespace Db

/-! ## Budget -/

/-- `UPDATE mvp_budgets SET reserved_units = reserved_units - ?`, with the units that
are settled at the same time. The `CHECK` refuses a negative balance. -/
def debitReserved (db : Db) (projectId : Uuid) (amount settled : Nat) : Except Error Db :=
  match db.budgets.get? projectId with
  | none => .ok db
  | some b =>
      if amount ≤ b.reservedUnits then
        .ok (db.setBudgetRow projectId (BudgetRow.debit amount settled))
      else .error (.integrity "mvp_budgets.reserved_units")

/-- `_reserve_budget`. -/
def reserveBudget (db : Db) (reservationId effectId workflowId : Uuid) (costUnits : Nat) :
    Except Error Db := do
  let projectId ← found "project_not_found" (db.projectOf workflowId)
  let budget ← db.budget projectId
  if (costUnits : Int) > budget.availableUnits then
    throw (.budgetExceeded "budget_reservation_exceeds_available")
  let db ← db.insertReservation ⟨reservationId, effectId, projectId, costUnits, .reserved⟩
  return db.setBudgetRow projectId (BudgetRow.reserve costUnits)

/-- `_settle_budget`. Every reservation that is not settled yet is settled here,
whatever its status is. -/
def settleBudget (db : Db) (effectId : Uuid) : Except Error Db :=
  match db.reservations.rows.find? fun r => decide (r.effectId = effectId) with
  | none => .ok db
  | some r =>
      if r.status = .settled then .ok db
      else
        (db.setReservation r.id .settled).debitReserved r.projectId r.amountUnits r.amountUnits

/-- The open reservations of the effects of a workflow. -/
def openReservations (db : Db) (workflowId : Uuid) : List ReservationRow :=
  db.reservations.rows.filter fun r =>
    decide (r.status = .reserved) &&
      db.effects.rows.any fun e => decide (e.id = r.effectId) && decide (e.workflowId = workflowId)

/-- One round of the loop of `_release_open_reservations`. -/
def releaseReservation (db : Db) (r : ReservationRow) : Except Error Db :=
  (db.setReservation r.id .released).debitReserved r.projectId r.amountUnits 0

/-- `_release_open_reservations`. -/
def releaseOpenReservations (db : Db) (workflowId : Uuid) : Except Error Db :=
  (db.openReservations workflowId).foldlM releaseReservation db

/-! ## Projects, outcomes and workflows -/

def createProject (db : Db) (id : Uuid) (name tenantId : String) (now : Instant) :
    Except Error (ProjectRow × Db) := do
  if Text.strip name = "" then throw (.value "project_name_required")
  let project : ProjectRow := ⟨id, tenantId, Text.strip name, now⟩
  let projects ← admitted "mvp_projects.id" (db.projects.insert? project)
  let budgets ← admitted "mvp_budgets.project_id" (db.budgets.insert? ⟨id, 0, 0, 0⟩)
  return (project, { db with projects, budgets })

/-- `COALESCE(MAX(version), 0)` over the outcomes of a project with a title. -/
def lastVersion (db : Db) (projectId : Uuid) (title : String) : Nat :=
  ((db.outcomes.rows.filter fun o =>
    decide (o.projectId = projectId) && decide (o.title = title)).map (·.version)).foldl max 0

def createOutcome (db : Db) (id projectId : Uuid) (title : String)
    (acceptanceCriteria : List String) (now : Instant) : Except Error (OutcomeRow × Db) := do
  let criteria := (acceptanceCriteria.map Text.strip).filter fun c => decide (c ≠ "")
  if Text.strip title = "" ∨ criteria = [] then
    throw (.value "outcome_title_and_criteria_required")
  let _ ← db.requireProject projectId
  let outcome : OutcomeRow :=
    ⟨id, projectId, db.lastVersion projectId (Text.strip title) + 1, Text.strip title, criteria, now⟩
  let outcomes ← admitted "mvp_outcomes.id" (db.outcomes.insert? outcome)
  return (outcome, { db with outcomes })

/-- The row of a definition, with the id drawn for it. -/
def newItem (workflowId : Uuid) (item : Uuid × WorkItemDefinition) : WorkItemRow where
  id := item.1
  workflowId := workflowId
  itemKey := item.2.key
  title := item.2.title
  status := .pending
  dependsOn := item.2.dependsOn
  costUnits := item.2.costUnits
  requiresApproval := item.2.requiresApproval
  effect := item.2.effect
  leaseOwner := none
  leaseExpiresAt := none
  leaseFence := 0
  attemptCount := 0
  result := none
  error := none

/-- One round of the loop that stores the definitions of a workflow. -/
def insertItem (workflowId : Uuid) (items : Table WorkItemRow)
    (item : Uuid × WorkItemDefinition) : Except Error (Table WorkItemRow) := do
  if items.rows.any fun r =>
      decide (r.workflowId = workflowId) && decide (r.itemKey = item.2.key) then
    throw (.integrity "mvp_work_items.item_key")
  admitted "mvp_work_items.id" (items.insert? (newItem workflowId item))

/-- `create_workflow`; every definition comes with the id drawn for its row. -/
def createWorkflow (db : Db) (id outcomeId : Uuid) (name : String)
    (items : List (Uuid × WorkItemDefinition)) (now : Instant) :
    Except Error (WorkflowRow × Db) := do
  validateGraph (items.map (·.2))
  let workflow : WorkflowRow := ⟨id, outcomeId, Text.strip name, .draft, now, now⟩
  let _ ← db.requireOutcome outcomeId
  let workflows ← admitted "mvp_workflows.id" (db.workflows.insert? workflow)
  let workItems ← items.foldlM (insertItem id) db.workItems
  return (workflow,
    { db with workflows, workItems }.appendEvent id "workflow.created" [("name", .str name)])

def startWorkflow (db : Db) (workflowId : Uuid) (now : Instant) : Except Error (Unit × Db) := do
  let workflow ← db.requireWorkflow workflowId
  if workflow.status ≠ .draft ∧ workflow.status ≠ .paused then
    throw (.conflict ("workflow_cannot_start:" ++ workflow.status.value))
  return ((), (db.setStatus workflowId .running now).refreshReadyItems workflowId
    |>.appendEvent workflowId "workflow.started" [])

/-- `_set_workflow_status`, whatever the current status is. -/
def setWorkflowStatus (db : Db) (workflowId : Uuid) (status : WorkflowStatus) (now : Instant) :
    Except Error (Unit × Db) := do
  let _ ← db.requireWorkflow workflowId
  return ((), (db.setStatus workflowId status now).appendEvent workflowId
    ("workflow." ++ status.value) [])

def pauseWorkflow (db : Db) (workflowId : Uuid) (now : Instant) : Except Error (Unit × Db) :=
  db.setWorkflowStatus workflowId .paused now

/-- The statement of `cancel_workflow` on the work items of the workflow. -/
def cancelItems (db : Db) (workflowId : Uuid) : Db :=
  { db with
    workItems := db.workItems.update
      (fun r => decide (r.workflowId = workflowId) && decide (r.status ≠ .succeeded) &&
        decide (r.status ≠ .cancelled))
      WorkItemRow.cancel }

def cancelWorkflow (db : Db) (workflowId : Uuid) (now : Instant) : Except Error (Unit × Db) := do
  let _ ← db.requireWorkflow workflowId
  let db ← ((db.setStatus workflowId .cancelled now).cancelItems workflowId
    ).releaseOpenReservations workflowId
  return ((), db.appendEvent workflowId "workflow.cancelled" [])

/-! ## Claims -/

/-- `_kill_switch_enabled`: the global switch and the switches of the workflow. The
row of highest `enabled` is enabled exactly when some selected row is. -/
def killSwitchEnabled (db : Db) (workflowId : Uuid) : Bool :=
  db.killSwitches.rows.any fun k =>
    ((decide (k.scopeKind = .global) && decide (k.scopeId = "global")) ||
      (decide (k.scopeKind = .workflow) && decide (k.scopeId = workflowId.text))) && k.enabled

/-- `ORDER BY item_key LIMIT 1`. -/
def firstByKey : List WorkItemRow → Option WorkItemRow
  | [] => none
  | r :: rows =>
      match firstByKey rows with
      | none => some r
      | some s => if s.itemKey < r.itemKey then some s else some r

/-- The items of a workflow that are ready. -/
def readyItems (db : Db) (workflowId : Uuid) : List WorkItemRow :=
  db.workItems.rows.filter fun r =>
    decide (r.workflowId = workflowId) && decide (r.status = .ready)

def claimNext (db : Db) (attemptId workflowId : Uuid) (workerId : String)
    (leaseDuration : Int) (now : Instant) : Except Error (Option WorkClaim × Db) := do
  let workflow ← db.requireWorkflow workflowId
  if workflow.status ≠ .running then return (none, db)
  if db.killSwitchEnabled workflowId then throw (.conflict "workflow_kill_switch_enabled")
  let db := db.refreshReadyItems workflowId
  match firstByKey (db.readyItems workflowId) with
  | none => return (none, db)
  | some row =>
      let fence := row.leaseFence + 1
      let claim : WorkClaim :=
        ⟨attemptId, row.id, workflowId, row.itemKey, workerId, fence, now + leaseDuration⟩
      let db := db.setItem row.id (WorkItemRow.claim workerId (now + leaseDuration) fence)
      let db ← db.insertAttempt
        ⟨attemptId, row.id, workerId, fence, .running, none, none, now, none⟩
      return (some claim, db.appendEvent workflowId "work_item.claimed"
        [("key", .str row.itemKey), ("worker_id", .str workerId), ("lease_fence", .int fence)])

/-- `_require_claim`. -/
def requireClaim (db : Db) (claim : WorkClaim) : Except Error WorkItemRow := do
  let row ← found "work_item_not_found" (db.workItems.get? claim.workItemId)
  if row.leaseFence ≠ claim.leaseFence then throw (.conflict "stale_lease_fence")
  if row.leaseOwner ≠ some claim.workerId ∨ row.status ≠ .running then
    throw (.conflict "lease_not_owned")
  return row

/-- The result that `complete_claim` stores for a claim without an output of its own. -/
def completionOutput (claim : WorkClaim) (result : Option (List (String × Json))) : Json :=
  match result with
  | some (m :: ms) => .obj (m :: ms)
  | _ => .obj [("executor", .str "deterministic-local"), ("key", .str claim.key)]

/-- The rows that `_complete_claim` adds for a finished item. -/
def recordCompletion (D : Digests) (db : Db) (ids : CompletionIds) (row : WorkItemRow)
    (claim : WorkClaim) (output : Json) (now : Instant) : Except Error Db := do
  let db ← db.insertCheckpoint ⟨ids.checkpoint, claim.workflowId, row.id, "succeeded", now⟩
  let db ← db.insertArtifact
    ⟨ids.artifact, claim.workflowId, row.id, D.sha256 output.dumps, "application/json", output, now⟩
  let db ← db.insertLineage
    ⟨ids.lineage, claim.workflowId, "attempt", claim.attemptId, "artifact", ids.artifact, now⟩
  db.insertConversation
    ⟨ids.conversation, claim.workflowId, row.id, "assistant", "Completed " ++ row.itemKey, now⟩

/-- The workflow succeeds when none of its items is in another status. -/
def finishWorkflow (db : Db) (workflowId : Uuid) (now : Instant) : Db :=
  if db.workItems.rows.any fun r =>
      decide (r.workflowId = workflowId) && decide (r.status ≠ .succeeded) then db
  else (db.setStatus workflowId .succeeded now).appendEvent workflowId "workflow.succeeded" []

/-- `complete_claim` with `_complete_claim`. -/
def completeClaim (D : Digests) (db : Db) (ids : CompletionIds) (claim : WorkClaim)
    (result : Option (List (String × Json))) (now : Instant) : Except Error (Unit × Db) := do
  let output := completionOutput claim result
  let row ← db.requireClaim claim
  let db := db.setItem row.id (WorkItemRow.succeed output)
  let db := db.setAttempt claim.attemptId (AttemptRow.succeed output now)
  let db ← recordCompletion D db ids row claim output now
  let db := db.appendEvent claim.workflowId "work_item.succeeded"
    [("key", .str row.itemKey), ("artifact_id", .str ids.artifact.text)]
  return ((), (db.refreshReadyItems claim.workflowId).finishWorkflow claim.workflowId now)

def heartbeat (db : Db) (claim : WorkClaim) (leaseDuration : Int) (now : Instant) :
    Except Error (WorkClaim × Db) := do
  let _ ← db.requireClaim claim
  let db := db.setItem claim.workItemId (WorkItemRow.renew (now + leaseDuration))
  return ({ claim with leaseExpiresAt := now + leaseDuration },
    db.appendEvent claim.workflowId "work_item.lease_renewed"
      [("key", .str claim.key), ("lease_fence", .int claim.leaseFence)])

def failClaim (db : Db) (claim : WorkClaim) (error : String) (now : Instant) :
    Except Error (Unit × Db) := do
  if Text.strip error = "" then throw (.value "attempt_error_required")
  let _ ← db.requireClaim claim
  let db := db.setItem claim.workItemId (WorkItemRow.fail (Text.strip error))
  let db := db.setAttempt claim.attemptId (AttemptRow.fail (Text.strip error) now)
  return ((), db.appendEvent claim.workflowId "work_item.failed"
    [("key", .str claim.key), ("error", .str (Text.strip error))])

def retryWorkItem (db : Db) (workflowId : Uuid) (key : String) : Except Error (Unit × Db) := do
  let row ← found "work_item_not_found" (db.workItems.rows.find? fun r =>
    decide (r.workflowId = workflowId) && decide (r.itemKey = key))
  if row.status ≠ .failed then throw (.conflict "work_item_not_failed")
  let status : WorkItemStatus :=
    if db.dependenciesMet workflowId row.dependsOn then .ready else .pending
  let db := db.setItem row.id (WorkItemRow.retry status)
  return ((), db.appendEvent workflowId "work_item.retried" [("key", .str key)])

/-- Whether `recover_workflow` selects an item: it runs under a lease that is over. -/
def staleLease (workflowId : Uuid) (now : Instant) (r : WorkItemRow) : Bool :=
  decide (r.workflowId = workflowId) && decide (r.status = .running) &&
    r.leaseExpiresAt.any fun expires => decide (expires < now)

/-- The loop of `recover_workflow`: the selected items are ready again, and the
attempts that ran on them are interrupted. -/
def recoverItems (db : Db) (workflowId : Uuid) (now : Instant) (rows : List WorkItemRow) : Db :=
  { db with
    workItems := db.workItems.update (staleLease workflowId now) WorkItemRow.recover
    attempts := db.attempts.update
      (fun a => decide (a.status = .running) && rows.any fun r => decide (r.id = a.workItemId))
      (AttemptRow.interrupt now)
    events := db.events ++ rows.map fun r =>
      ⟨workflowId, "work_item.recovered",
        .obj [("key", .str r.itemKey), ("prior_lease_fence", .int r.leaseFence)]⟩ }

/-- `recover_workflow`; its result is the number of recovered items. -/
def recoverWorkflow (db : Db) (workflowId : Uuid) (now : Instant) : Except Error (Nat × Db) := do
  let _ ← db.requireWorkflow workflowId
  let rows := db.workItems.rows.filter (staleLease workflowId now)
  return (rows.length, (db.recoverItems workflowId now rows).refreshReadyItems workflowId)

/-! ## Effects -/

/-- The id of the effect of a work item. -/
def effectId (D : Digests) (workflowId itemId : Uuid) : Uuid :=
  D.uuid5 ("effect:" ++ workflowId.text ++ ":" ++ itemId.text)

/-- The idempotency key of the effect of a work item. -/
def idempotencyKey (D : Digests) (workflowId itemId : Uuid) (binding : EffectBinding) : String :=
  D.sha256 (Json.dumps (.obj [("workflow_id", .str workflowId.text),
    ("work_item_id", .str itemId.text), ("binding", binding.dump)]))

def reservationId (D : Digests) (effectId : Uuid) : Uuid :=
  D.uuid5 ("budget:" ++ effectId.text)

/-- The effect that `_ensure_effect` stores for an item. -/
def proposedEffect (D : Digests) (item : WorkItemRow) (binding : EffectBinding) : EffectRow where
  id := effectId D item.workflowId item.id
  workflowId := item.workflowId
  workItemId := item.id
  idempotencyKey := idempotencyKey D item.workflowId item.id binding
  binding := binding
  status := if item.requiresApproval then .pendingApproval else .ready
  approvalId := none
  executionCount := 0
  result := none

/-- `_ensure_effect`, for an item that the worker has read before. -/
def ensureEffect (D : Digests) (db : Db) (item : WorkItemRow) :
    Except Error (EffectRow × Db) := do
  let binding ← match item.effect with
    | some binding => Except.ok binding
    | none => Except.error (.value "effect_required")
  match db.effects.rows.find? fun e => decide (e.workItemId = item.id) with
  | some existing => return (existing, db)
  | none =>
      let effect := proposedEffect D item binding
      let db ← db.insertEffect effect
      let db ← db.reserveBudget (reservationId D effect.id) effect.id item.workflowId item.costUnits
      return (effect, db.appendEvent item.workflowId "effect.proposed"
        [("effect_id", .str effect.id.text), ("idempotency_key", .str effect.idempotencyKey)])

/-- `_wait_for_approval`. -/
def waitForApproval (db : Db) (claim : WorkClaim) (effectId : Uuid) (now : Instant) :
    Except Error (Unit × Db) := do
  let _ ← db.requireClaim claim
  let db := db.setItem claim.workItemId WorkItemRow.await
  let db := db.setAttempt claim.attemptId (AttemptRow.await now)
  return ((), db.appendEvent claim.workflowId "effect.approval_required"
    [("effect_id", .str effectId.text), ("key", .str claim.key)])

def approveEffect (db : Db) (approvalId effectId : Uuid) (actorId : String) (now : Instant) :
    Except Error (ApprovalRow × Db) := do
  let effect ← db.requireEffect effectId
  match db.approvalOf effectId with
  | some existing => return (existing, db)
  | none =>
      let approval : ApprovalRow := ⟨approvalId, effectId, actorId, .approved, now, none⟩
      let db ← db.insertApproval approval
      let db := db.setEffect effectId (EffectRow.decided approvalId .approved)
      let db := db.setItem effect.workItemId (WorkItemRow.withStatus .ready)
      return (approval, db.appendEvent effect.workflowId "effect.approved"
        [("effect_id", .str effectId.text), ("actor_id", .str actorId)])

def rejectEffect (db : Db) (approvalId effectId : Uuid) (actorId : String) (now : Instant) :
    Except Error (ApprovalRow × Db) := do
  let effect ← db.requireEffect effectId
  match db.approvalOf effectId with
  | some existing =>
      if existing.status ≠ .rejected then throw (.conflict "effect_approval_already_decided")
      return (existing, db)
  | none =>
      let approval : ApprovalRow := ⟨approvalId, effectId, actorId, .rejected, now, none⟩
      let db ← db.insertApproval approval
      let db := db.setEffect effectId (EffectRow.decided approvalId .rejected)
      let db := db.setItem effect.workItemId (WorkItemRow.withStatus .failed)
      let db ← (db.setStatus effect.workflowId .failed now).releaseOpenReservations
        effect.workflowId
      return (approval, db.appendEvent effect.workflowId "effect.rejected"
        [("effect_id", .str effectId.text), ("actor_id", .str actorId)])

/-- What the local adapter reports for a binding. -/
def effectResult (D : Digests) (binding : EffectBinding) : List (String × Json) :=
  [("adapter", .str ("local-" ++ binding.kind.value)), ("target", .str binding.target),
    ("payload_digest", .str (D.sha256 (Json.dumps (.obj binding.payload))))]

/-- `_execute_effect_for_claim`. The update that requires `execution_count = 0` always
finds its row here: the count was read in the same transaction. -/
def executeEffect (D : Digests) (db : Db) (effectId : Uuid) (now : Instant) :
    Except Error (List (String × Json) × Db) := do
  let effect ← db.requireEffect effectId
  if effect.executionCount ≠ 0 then throw (.conflict "effect_already_executed")
  let item ← found "work_item_not_found" (db.workItems.get? effect.workItemId)
  let approval := db.approvalOf effectId
  if item.requiresApproval ∧ ¬ approval.any fun a => decide (a.status = .approved) then
    throw (.conflict "effect_approval_required")
  let result := effectResult D effect.binding
  let db := db.setEffect effectId (EffectRow.execute (.obj result))
  let db := match approval with
    | none => db
    | some a => db.consumeApproval a.id now
  let db ← db.settleBudget effectId
  return (result, db.appendEvent effect.workflowId "effect.executed"
    [("effect_id", .str effectId.text), ("result", .obj result)])

/-! ## Controls -/

def setBudget (db : Db) (projectId : Uuid) (limitUnits : Int) : Except Error (Unit × Db) := do
  if limitUnits < 0 then throw (.value "budget_limit_must_be_non_negative")
  let current ← db.budget projectId
  if (current.reservedUnits : Int) + current.settledUnits > limitUnits then
    throw (.budgetExceeded "budget_limit_below_committed_amount")
  return ((), db.setBudgetRow projectId (BudgetRow.withLimit limitUnits.toNat))

/-- The scope kinds that `set_kill_switch` accepts. -/
def scopeKindOf (scopeKind : String) : Option ScopeKind :=
  if scopeKind = "global" then some .global
  else if scopeKind = "project" then some .project
  else if scopeKind = "workflow" then some .workflow
  else none

def setKillSwitch (db : Db) (scopeKind scopeId : String) (enabled : Bool) :
    Except Error (Unit × Db) :=
  match scopeKindOf scopeKind with
  | none => .error (.value "invalid_kill_switch_scope")
  | some kind =>
      if kind = .global ∧ scopeId ≠ "global" then
        .error (.value "global_kill_switch_scope_id_invalid")
      else
        match db.killSwitches.insert? ⟨kind, scopeId, enabled⟩ with
        | some killSwitches => .ok ((), { db with killSwitches })
        | none => .ok ((), { db with
            killSwitches := db.killSwitches.update
              (fun k => decide (k.scopeKind = kind) && decide (k.scopeId = scopeId))
              (KillSwitchRow.withEnabled enabled) })

end Db

end Corvus.Mvp
