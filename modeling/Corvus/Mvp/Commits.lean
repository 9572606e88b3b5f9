import Corvus.Mvp.Service

/-!
# What a transaction commits

One inversion for each transaction body: which rows it found, which checks they
passed, and the database it commits, written as the tables it changes. No other
module unfolds a transaction.
-/

namespace Corvus.Mvp

namespace Db

variable {db after : Db} {D : Digests} {now : Instant}

/-! ## Insertions -/

theorem insertAttempt_ok {row : AttemptRow} (h : db.insertAttempt row = .ok after) :
    ∃ attempts, db.attempts.insert? row = some attempts ∧ after = { db with attempts } := by
  unfold insertAttempt at h
  simp only [bind_eq_ok, admitted_eq_ok, pure_eq_ok, Except.ok.injEq] at h
  obtain ⟨attempts, inserted, rfl⟩ := h
  exact ⟨attempts, inserted, rfl⟩

theorem insertEffect_ok {row : EffectRow} (h : db.insertEffect row = .ok after) :
    (∀ e ∈ db.effects, e.workItemId ≠ row.workItemId ∧ e.idempotencyKey ≠ row.idempotencyKey) ∧
    ∃ effects, db.effects.insert? row = some effects ∧ after = { db with effects } := by
  unfold insertEffect at h
  simp only [throw_bind, ite_error_eq_ok, bind_eq_ok, admitted_eq_ok, pure_eq_ok, Except.ok.injEq,
    List.any_eq_true, Bool.or_eq_true, decide_eq_true_eq, not_exists, not_and, not_or] at h
  obtain ⟨free, effects, inserted, rfl⟩ := h
  exact ⟨free, effects, inserted, rfl⟩

theorem insertApproval_ok {row : ApprovalRow} (h : db.insertApproval row = .ok after) :
    (∀ a ∈ db.approvals, a.effectId ≠ row.effectId) ∧
    ∃ approvals, db.approvals.insert? row = some approvals ∧ after = { db with approvals } := by
  unfold insertApproval at h
  simp only [throw_bind, ite_error_eq_ok, bind_eq_ok, admitted_eq_ok, pure_eq_ok, Except.ok.injEq,
    List.any_eq_true, decide_eq_true_eq, not_exists, not_and] at h
  obtain ⟨free, approvals, inserted, rfl⟩ := h
  exact ⟨free, approvals, inserted, rfl⟩

theorem insertReservation_ok {row : ReservationRow} (h : db.insertReservation row = .ok after) :
    (∀ r ∈ db.reservations, r.effectId ≠ row.effectId) ∧
    ∃ reservations, db.reservations.insert? row = some reservations ∧
      after = { db with reservations } := by
  unfold insertReservation at h
  simp only [throw_bind, ite_error_eq_ok, bind_eq_ok, admitted_eq_ok, pure_eq_ok, Except.ok.injEq,
    List.any_eq_true, decide_eq_true_eq, not_exists, not_and] at h
  obtain ⟨free, reservations, inserted, rfl⟩ := h
  exact ⟨free, reservations, inserted, rfl⟩

/-! ## Budget -/

theorem debitReserved_ok {p : Uuid} {amount settled : Nat}
    (h : db.debitReserved p amount settled = .ok after) :
    (∀ b ∈ db.budgets, b.projectId = p → amount ≤ b.reservedUnits) ∧
      after = db.setBudgetRow p (BudgetRow.debit amount settled) := by
  unfold debitReserved at h
  split at h
  · rename_i absent
    cases h
    have other : ∀ b ∈ db.budgets, b.projectId ≠ p := Table.get?_eq_none.mp absent
    refine ⟨fun b hb hp => absurd hp (other b hb), ?_⟩
    rw [setBudgetRow, Table.update_of_none fun b hb => decide_eq_false (other b hb)]
  · rename_i b found
    obtain ⟨hb, rfl⟩ := Table.get?_eq_some.mp found
    by_cases enough : amount ≤ b.reservedUnits
    · rw [if_pos enough] at h
      cases h
      refine ⟨fun c hc same => ?_, rfl⟩
      rwa [Table.eq_of_key hc hb same]
    · rw [if_neg enough] at h
      cases h

theorem reserveBudget_ok {reservationId effectId w : Uuid} {cost : Nat}
    (h : db.reserveBudget reservationId effectId w cost = .ok after) :
    ∃ p b reservations, db.projectOf w = some p ∧ db.budgets.get? p = some b ∧
      (cost : Int) ≤ b.availableUnits ∧ (∀ r ∈ db.reservations, r.effectId ≠ effectId) ∧
      db.reservations.insert? ⟨reservationId, effectId, p, cost, .reserved⟩ = some reservations ∧
      after = { db with reservations }.setBudgetRow p (BudgetRow.reserve cost) := by
  unfold reserveBudget budget at h
  simp only [bind_eq_ok, found_eq_ok, throw_bind, ite_error_eq_ok, pure_eq_ok, Except.ok.injEq,
    gt_iff_lt, not_lt] at h
  obtain ⟨p, project, b, found, enough, db', reserved, rfl⟩ := h
  obtain ⟨free, reservations, inserted, rfl⟩ := insertReservation_ok reserved
  exact ⟨p, b, _, project, found, enough, free, inserted, rfl⟩

theorem reserveBudget_frame {reservationId effectId w : Uuid} {cost : Nat}
    (h : db.reserveBudget reservationId effectId w cost = .ok after) :
    ∃ budgets reservations, after = { db with budgets, reservations } := by
  obtain ⟨p, b, reservations, -, -, -, -, -, rfl⟩ := reserveBudget_ok h
  exact ⟨_, reservations, rfl⟩

theorem settleBudget_ok {e : Uuid} (h : db.settleBudget e = .ok after) :
    ((∀ r ∈ db.reservations, r.effectId = e → ∃ s ∈ db.reservations, s.effectId = e ∧
        s.status = .settled) ∧ after = db) ∨
    ∃ r ∈ db.reservations, r.effectId = e ∧ r.status ≠ .settled ∧
      (∀ b ∈ db.budgets, b.projectId = r.projectId → r.amountUnits ≤ b.reservedUnits) ∧
      after = (db.setReservation r.id .settled).setBudgetRow r.projectId
        (BudgetRow.debit r.amountUnits r.amountUnits) := by
  unfold settleBudget at h
  split at h
  · rename_i absent
    cases h
    refine .inl ⟨fun r hr same => ?_, rfl⟩
    simpa [same] using List.find?_eq_none.mp absent r hr
  · rename_i r found
    have hr : r ∈ db.reservations := List.mem_of_find?_eq_some found
    have he : r.effectId = e := by simpa using List.find?_some found
    by_cases settled : r.status = .settled
    · rw [if_pos settled] at h
      cases h
      exact .inl ⟨fun _ _ _ => ⟨r, hr, he, settled⟩, rfl⟩
    · rw [if_neg settled] at h
      obtain ⟨enough, rfl⟩ := debitReserved_ok h
      exact .inr ⟨r, hr, he, settled, enough, rfl⟩

theorem settleBudget_frame {e : Uuid} (h : db.settleBudget e = .ok after) :
    ∃ budgets reservations, after = { db with budgets, reservations } := by
  obtain ⟨-, rfl⟩ | ⟨r, -, -, -, -, rfl⟩ := settleBudget_ok h
  · exact ⟨_, _, rfl⟩
  · exact ⟨_, _, rfl⟩

theorem releaseReservation_ok {r : ReservationRow} (h : db.releaseReservation r = .ok after) :
    (∀ b ∈ db.budgets, b.projectId = r.projectId → r.amountUnits ≤ b.reservedUnits) ∧
      after = (db.setReservation r.id .released).setBudgetRow r.projectId
        (BudgetRow.debit r.amountUnits 0) :=
  debitReserved_ok h

/-! ## Projects, outcomes and workflows -/

theorem createProject_ok {id : Uuid} {name tenantId : String} {row : ProjectRow}
    (h : db.createProject id name tenantId now = .ok (row, after)) :
    ∃ projects budgets, db.projects.insert? row = some projects ∧
      db.budgets.insert? ⟨id, 0, 0, 0⟩ = some budgets ∧
      after = { db with projects, budgets } := by
  unfold createProject at h
  simp only [bind_eq_ok, admitted_eq_ok, throw_bind, ite_error_eq_ok, pure_eq_ok, Except.ok.injEq,
    Prod.mk.injEq] at h
  obtain ⟨-, projects, project, budgets, budget, rfl, rfl⟩ := h
  exact ⟨projects, budgets, project, budget, rfl⟩

theorem createOutcome_ok {id p : Uuid} {title : String} {criteria : List String} {row : OutcomeRow}
    (h : db.createOutcome id p title criteria now = .ok (row, after)) :
    ∃ project outcomes, db.projects.get? p = some project ∧ row.id = id ∧ row.projectId = p ∧
      db.outcomes.insert? row = some outcomes ∧ after = { db with outcomes } := by
  unfold createOutcome requireProject at h
  simp only [bind_eq_ok, admitted_eq_ok, found_eq_ok, throw_bind, ite_error_eq_ok, pure_eq_ok,
    Except.ok.injEq, Prod.mk.injEq] at h
  obtain ⟨-, project, found, outcomes, inserted, rfl, rfl⟩ := h
  exact ⟨project, outcomes, found, rfl, rfl, inserted, rfl⟩

theorem insertItem_ok {w : Uuid} {t u : Table WorkItemRow} {item : Uuid × WorkItemDefinition}
    (h : insertItem w t item = .ok u) :
    (∀ r ∈ t, r.workflowId = w → r.itemKey ≠ item.2.key) ∧ t.insert? (newItem w item) = some u := by
  unfold insertItem at h
  simp only [throw_bind, ite_error_eq_ok, admitted_eq_ok, List.any_eq_true, Bool.and_eq_true,
    decide_eq_true_eq, not_exists, not_and] at h
  exact h

theorem insertItems_ok {w : Uuid} {items : List (Uuid × WorkItemDefinition)}
    {t u : Table WorkItemRow} (h : items.foldlM (insertItem w) t = .ok u) :
    u.rows = t.rows ++ items.map (newItem w) := by
  induction items generalizing t with
  | nil =>
      cases h
      simp
  | cons item items ih =>
      rw [List.foldlM_cons, bind_eq_ok] at h
      obtain ⟨mid, first, rest⟩ := h
      obtain ⟨-, inserted⟩ := insertItem_ok first
      rw [ih rest, (Table.insert?_eq_some.mp inserted).2, List.append_assoc]
      rfl

theorem createWorkflow_ok {id o : Uuid} {name : String} {items : List (Uuid × WorkItemDefinition)}
    {row : WorkflowRow} (h : db.createWorkflow id o name items now = .ok (row, after)) :
    ∃ outcome workflows workItems events,
      validateGraph (items.map (·.2)) = .ok () ∧ db.outcomes.get? o = some outcome ∧
      row = ⟨id, o, Text.strip name, .draft, now, now⟩ ∧
      db.workflows.insert? row = some workflows ∧
      items.foldlM (insertItem id) db.workItems = .ok workItems ∧
      after = { db with workflows, workItems, events } := by
  unfold createWorkflow requireOutcome at h
  simp only [bind_eq_ok, admitted_eq_ok, found_eq_ok, pure_eq_ok, Except.ok.injEq,
    Prod.mk.injEq] at h
  obtain ⟨⟨⟩, valid, outcome, found, workflows, inserted, workItems, rows, rfl, rfl⟩ := h
  exact ⟨outcome, workflows, workItems, _, valid, found, rfl, inserted, rows, rfl⟩

theorem startWorkflow_ok {w : Uuid} {u : Unit} (h : db.startWorkflow w now = .ok (u, after)) :
    ∃ workflow events, db.workflows.get? w = some workflow ∧
      (workflow.status = .draft ∨ workflow.status = .paused) ∧
      after = { db with
        workflows := (db.setStatus w .running now).workflows
        workItems := (db.refreshReadyItems w).workItems
        events } := by
  unfold startWorkflow requireWorkflow at h
  simp only [bind_eq_ok, found_eq_ok, throw_bind, ite_error_eq_ok, pure_eq_ok, Except.ok.injEq,
    Prod.mk.injEq, true_and] at h
  obtain ⟨workflow, found, status, rfl⟩ := h
  refine ⟨workflow, _, found, ?_, rfl⟩
  tauto

theorem pauseWorkflow_ok {w : Uuid} {u : Unit} (h : db.pauseWorkflow w now = .ok (u, after)) :
    ∃ workflow events, db.workflows.get? w = some workflow ∧
      after = { db with workflows := (db.setStatus w .paused now).workflows, events } := by
  unfold pauseWorkflow setWorkflowStatus requireWorkflow at h
  simp only [bind_eq_ok, found_eq_ok, pure_eq_ok, Except.ok.injEq, Prod.mk.injEq, true_and] at h
  obtain ⟨workflow, found, rfl⟩ := h
  exact ⟨workflow, _, found, rfl⟩

theorem releaseOpenReservations_frame {w : Uuid} (h : db.releaseOpenReservations w = .ok after) :
    ∃ budgets reservations, after = { db with budgets, reservations } := by
  unfold releaseOpenReservations at h
  generalize db.openReservations w = rows at h
  induction rows generalizing db with
  | nil =>
      cases h
      exact ⟨_, _, rfl⟩
  | cons r rows ih =>
      rw [List.foldlM_cons, bind_eq_ok] at h
      obtain ⟨mid, first, rest⟩ := h
      obtain ⟨-, rfl⟩ := releaseReservation_ok first
      obtain ⟨budgets, reservations, rfl⟩ := ih rest
      exact ⟨budgets, reservations, rfl⟩

theorem cancelWorkflow_ok {w : Uuid} {u : Unit} (h : db.cancelWorkflow w now = .ok (u, after)) :
    ∃ workflow released events, db.workflows.get? w = some workflow ∧
      ((db.setStatus w .cancelled now).cancelItems w).releaseOpenReservations w = .ok released ∧
      after = { db with
        workflows := (db.setStatus w .cancelled now).workflows
        workItems := (db.cancelItems w).workItems
        budgets := released.budgets
        reservations := released.reservations
        events } := by
  unfold cancelWorkflow requireWorkflow at h
  simp only [bind_eq_ok, found_eq_ok, pure_eq_ok, Except.ok.injEq, Prod.mk.injEq, true_and] at h
  obtain ⟨workflow, found, released, release, rfl⟩ := h
  obtain ⟨budgets, reservations, rfl⟩ := releaseOpenReservations_frame release
  exact ⟨workflow, _, _, found, release, rfl⟩

/-! ## Claims -/

theorem claimNext_ok {attemptId w : Uuid} {worker : String} {duration : Int}
    {claim : Option WorkClaim} (h : db.claimNext attemptId w worker duration now = .ok (claim, after)) :
    ∃ workflow, db.workflows.get? w = some workflow ∧
      ((workflow.status ≠ .running ∧ claim = none ∧ after = db) ∨
      (workflow.status = .running ∧ db.killSwitchEnabled w = false ∧
        firstByKey ((db.refreshReadyItems w).readyItems w) = none ∧ claim = none ∧
        after = { db with workItems := (db.refreshReadyItems w).workItems }) ∨
      ∃ row attempts events,
        workflow.status = .running ∧ db.killSwitchEnabled w = false ∧
        firstByKey ((db.refreshReadyItems w).readyItems w) = some row ∧
        claim = some ⟨attemptId, row.id, w, row.itemKey, worker, row.leaseFence + 1,
          now + duration⟩ ∧
        db.attempts.insert? ⟨attemptId, row.id, worker, row.leaseFence + 1, .running, none, none,
          now, none⟩ = some attempts ∧
        after = { db with
          workItems := ((db.refreshReadyItems w).setItem row.id
            (WorkItemRow.claim worker (now + duration) (row.leaseFence + 1))).workItems
          attempts, events }) := by
  unfold claimNext requireWorkflow at h
  simp only [bind_eq_ok, found_eq_ok] at h
  obtain ⟨workflow, found, h⟩ := h
  refine ⟨workflow, found, ?_⟩
  by_cases running : workflow.status = .running
  · rw [if_neg (not_not.mpr running)] at h
    simp only [throw_bind, ite_error_eq_ok, Bool.not_eq_true] at h
    obtain ⟨off, h⟩ := h
    split at h
    · rename_i empty
      cases h
      exact .inr (.inl ⟨running, off, empty, rfl, rfl⟩)
    · rename_i row first
      simp only [bind_eq_ok, pure_eq_ok, Except.ok.injEq, Prod.mk.injEq] at h
      obtain ⟨mid, added, rfl, rfl⟩ := h
      obtain ⟨attempts, inserted, rfl⟩ := insertAttempt_ok added
      exact .inr (.inr ⟨row, attempts, _, running, off, first, rfl, inserted, rfl⟩)
  · rw [if_pos running] at h
    cases h
    exact .inl ⟨running, rfl, rfl⟩

/-- `claim` is the running claim of the item `row`. -/
structure Current (db : Db) (claim : WorkClaim) (row : WorkItemRow) : Prop where
  mem : row ∈ db.workItems
  id : row.id = claim.workItemId
  fence : row.leaseFence = claim.leaseFence
  owner : row.leaseOwner = some claim.workerId
  running : row.status = .running

/-- A transaction that requires a claim goes on exactly with the current one. -/
theorem requireClaim_eq_ok {claim : WorkClaim} {row : WorkItemRow} :
    db.requireClaim claim = .ok row ↔ db.Current claim row := by
  unfold requireClaim
  simp only [bind_eq_ok, found_eq_ok, throw_bind, ite_error_eq_ok, pure_eq_ok, Except.ok.injEq,
    Table.get?_eq_some, not_or, not_not]
  constructor
  · rintro ⟨r, ⟨mem, id⟩, fence, ⟨owner, running⟩, rfl⟩
    exact ⟨mem, id, fence, owner, running⟩
  · rintro ⟨mem, id, fence, owner, running⟩
    exact ⟨row, ⟨mem, id⟩, fence, ⟨owner, running⟩, rfl⟩

theorem Current.unique {claim : WorkClaim} {row r : WorkItemRow} (h : db.Current claim row)
    (hr : r ∈ db.workItems) (id : r.id = claim.workItemId) : r = row :=
  Table.eq_of_key hr h.mem (id.trans h.id.symm)

theorem recordCompletion_ok {ids : CompletionIds} {row : WorkItemRow} {claim : WorkClaim}
    {output : Json} (h : recordCompletion D db ids row claim output now = .ok after) :
    ∃ checkpoints artifacts lineage conversationEntries,
      db.artifacts.insert? ⟨ids.artifact, claim.workflowId, row.id, D.sha256 output.dumps,
        "application/json", output, now⟩ = some artifacts ∧
      after = { db with checkpoints, artifacts, lineage, conversationEntries } := by
  unfold recordCompletion insertCheckpoint insertArtifact insertLineage insertConversation at h
  simp only [bind_eq_ok, admitted_eq_ok, pure_eq_ok, Except.ok.injEq] at h
  obtain ⟨_, ⟨checkpoints, -, rfl⟩, _, ⟨artifacts, inserted, rfl⟩, _, ⟨lineage, -, rfl⟩,
    conversationEntries, -, rfl⟩ := h
  exact ⟨checkpoints, artifacts, lineage, conversationEntries, inserted, rfl⟩

theorem finishWorkflow_cases (db : Db) (w : Uuid) (now : Instant) :
    ((∃ r ∈ db.workItems, r.workflowId = w ∧ r.status ≠ .succeeded) ∧ db.finishWorkflow w now = db) ∨
    (∀ r ∈ db.workItems, r.workflowId = w → r.status = .succeeded) ∧
      ∃ events, db.finishWorkflow w now =
        { db with workflows := (db.setStatus w .succeeded now).workflows, events } := by
  unfold finishWorkflow
  split
  · rename_i open_
    simp only [List.any_eq_true, Bool.and_eq_true, decide_eq_true_eq] at open_
    exact .inl ⟨open_, rfl⟩
  · rename_i done
    simp only [List.any_eq_true, Bool.and_eq_true, decide_eq_true_eq, not_exists, not_and,
      not_not] at done
    exact .inr ⟨done, _, rfl⟩

theorem completeClaim_ok {ids : CompletionIds} {claim : WorkClaim}
    {result : Option (List (String × Json))} {u : Unit}
    (h : db.completeClaim D ids claim result now = .ok (u, after)) :
    ∃ row workflows workItems checkpoints artifacts lineage conversationEntries events,
      db.Current claim row ∧
      workItems = ((db.setItem row.id (WorkItemRow.succeed (completionOutput claim result))
        ).refreshReadyItems claim.workflowId).workItems ∧
      db.artifacts.insert? ⟨ids.artifact, claim.workflowId, row.id,
        D.sha256 (completionOutput claim result).dumps, "application/json",
        completionOutput claim result, now⟩ = some artifacts ∧
      ((∃ r ∈ workItems, r.workflowId = claim.workflowId ∧ r.status ≠ .succeeded) ∧
          workflows = db.workflows ∨
        (∀ r ∈ workItems, r.workflowId = claim.workflowId → r.status = .succeeded) ∧
          workflows = (db.setStatus claim.workflowId .succeeded now).workflows) ∧
      after = { db with
        workflows, workItems, checkpoints, artifacts, lineage, conversationEntries, events
        attempts := (db.setAttempt claim.attemptId
          (AttemptRow.succeed (completionOutput claim result) now)).attempts } := by
  unfold completeClaim at h
  simp only [bind_eq_ok, requireClaim_eq_ok, pure_eq_ok, Except.ok.injEq, Prod.mk.injEq,
    true_and] at h
  obtain ⟨row, current, mid, recorded, rfl⟩ := h
  obtain ⟨checkpoints, artifacts, lineage, conversationEntries, inserted, rfl⟩ :=
    recordCompletion_ok recorded
  obtain ⟨left, same⟩ | ⟨done, events, all⟩ := finishWorkflow_cases _ claim.workflowId now
  · rw [same]
    exact ⟨row, _, _, checkpoints, artifacts, lineage, conversationEntries, _, current, rfl,
      inserted, .inl ⟨left, rfl⟩, rfl⟩
  · rw [all]
    exact ⟨row, _, _, checkpoints, artifacts, lineage, conversationEntries, _, current, rfl,
      inserted, .inr ⟨done, rfl⟩, rfl⟩

theorem heartbeat_ok {claim renewed : WorkClaim} {duration : Int}
    (h : db.heartbeat claim duration now = .ok (renewed, after)) :
    ∃ row events, db.Current claim row ∧
      renewed = { claim with leaseExpiresAt := now + duration } ∧
      after = { db with
        workItems := (db.setItem claim.workItemId (WorkItemRow.renew (now + duration))).workItems
        events } := by
  unfold heartbeat at h
  simp only [bind_eq_ok, requireClaim_eq_ok, pure_eq_ok, Except.ok.injEq, Prod.mk.injEq] at h
  obtain ⟨row, current, rfl, rfl⟩ := h
  exact ⟨row, _, current, rfl, rfl⟩

theorem failClaim_ok {claim : WorkClaim} {error : String} {u : Unit}
    (h : db.failClaim claim error now = .ok (u, after)) :
    ∃ row events, db.Current claim row ∧
      after = { db with
        workItems := (db.setItem claim.workItemId (WorkItemRow.fail (Text.strip error))).workItems
        attempts := (db.setAttempt claim.attemptId
          (AttemptRow.fail (Text.strip error) now)).attempts
        events } := by
  unfold failClaim at h
  simp only [throw_bind, ite_error_eq_ok, bind_eq_ok, requireClaim_eq_ok, pure_eq_ok,
    Except.ok.injEq, Prod.mk.injEq, true_and] at h
  obtain ⟨-, row, current, rfl⟩ := h
  exact ⟨row, _, current, rfl⟩

theorem retryWorkItem_ok {w : Uuid} {itemKey : String} {u : Unit}
    (h : db.retryWorkItem w itemKey = .ok (u, after)) :
    ∃ row ∈ db.workItems, ∃ status events, row.workflowId = w ∧ row.itemKey = itemKey ∧
      row.status = .failed ∧
      status = (if db.dependenciesMet w row.dependsOn then .ready else .pending) ∧
      after = { db with
        workItems := (db.setItem row.id (WorkItemRow.retry status)).workItems, events } := by
  unfold retryWorkItem at h
  simp only [throw_bind, ite_error_eq_ok, bind_eq_ok, found_eq_ok, pure_eq_ok, Except.ok.injEq,
    Prod.mk.injEq, true_and, not_not] at h
  obtain ⟨row, found, failed, rfl⟩ := h
  have named := List.find?_some found
  simp only [Bool.and_eq_true, decide_eq_true_eq] at named
  exact ⟨row, List.mem_of_find?_eq_some found, _, _, named.1, named.2, failed, rfl, rfl⟩

theorem recoverWorkflow_ok {w : Uuid} {n : Nat} (h : db.recoverWorkflow w now = .ok (n, after)) :
    ∃ workflow rows events, db.workflows.get? w = some workflow ∧
      rows = db.workItems.rows.filter (staleLease w now) ∧ n = rows.length ∧
      after = { db with
        workItems := ((db.recoverItems w now rows).refreshReadyItems w).workItems
        attempts := (db.recoverItems w now rows).attempts
        events } := by
  unfold recoverWorkflow requireWorkflow at h
  simp only [bind_eq_ok, found_eq_ok, pure_eq_ok, Except.ok.injEq, Prod.mk.injEq] at h
  obtain ⟨workflow, found, rfl, rfl⟩ := h
  exact ⟨workflow, _, _, found, rfl, rfl, rfl⟩

/-! ## Effects -/

theorem ensureEffect_ok {item : WorkItemRow} {effect : EffectRow}
    (h : db.ensureEffect D item = .ok (effect, after)) :
    ∃ binding, item.effect = some binding ∧
      ((effect ∈ db.effects ∧ effect.workItemId = item.id ∧ after = db) ∨
      ∃ effects proposed reserved events, effect = proposedEffect D item binding ∧
        (∀ e ∈ db.effects, e.workItemId ≠ item.id ∧ e.idempotencyKey ≠ effect.idempotencyKey) ∧
        db.effects.insert? effect = some effects ∧ proposed = { db with effects } ∧
        proposed.reserveBudget (reservationId D effect.id) effect.id item.workflowId
          item.costUnits = .ok reserved ∧
        after = { db with
          effects, events, reservations := reserved.reservations, budgets := reserved.budgets }) := by
  unfold ensureEffect at h
  cases bound : item.effect with
  | none =>
      rw [bound] at h
      cases h
  | some binding =>
      refine ⟨binding, rfl, ?_⟩
      rw [bound] at h
      simp only [bind_eq_ok, Except.ok.injEq, exists_eq_left'] at h
      split at h
      · rename_i existing found
        cases h
        exact .inl ⟨List.mem_of_find?_eq_some found, by simpa using List.find?_some found, rfl⟩
      · simp only [bind_eq_ok, pure_eq_ok, Except.ok.injEq, Prod.mk.injEq] at h
        obtain ⟨proposed, stored, reserved, reserve, rfl, rfl⟩ := h
        obtain ⟨free, effects, inserted, rfl⟩ := insertEffect_ok stored
        obtain ⟨budgets, reservations, rfl⟩ := reserveBudget_frame reserve
        exact .inr ⟨effects, _, _, _, rfl, free, inserted, rfl, reserve, rfl⟩

theorem waitForApproval_ok {claim : WorkClaim} {e : Uuid} {u : Unit}
    (h : db.waitForApproval claim e now = .ok (u, after)) :
    ∃ row events, db.Current claim row ∧
      after = { db with
        workItems := (db.setItem claim.workItemId WorkItemRow.await).workItems
        attempts := (db.setAttempt claim.attemptId (AttemptRow.await now)).attempts
        events } := by
  unfold waitForApproval at h
  simp only [bind_eq_ok, requireClaim_eq_ok, pure_eq_ok, Except.ok.injEq, Prod.mk.injEq,
    true_and] at h
  obtain ⟨row, current, rfl⟩ := h
  exact ⟨row, _, current, rfl⟩

theorem approveEffect_ok {approvalId e : Uuid} {actor : String} {row : ApprovalRow}
    (h : db.approveEffect approvalId e actor now = .ok (row, after)) :
    ∃ effect ∈ db.effects, effect.id = e ∧
      ((db.approvalOf e = some row ∧ after = db) ∨
      ∃ approvals events, db.approvalOf e = none ∧
        row = ⟨approvalId, e, actor, .approved, now, none⟩ ∧
        db.approvals.insert? row = some approvals ∧
        after = { db with
          approvals, events
          effects := (db.setEffect e (EffectRow.decided approvalId .approved)).effects
          workItems := (db.setItem effect.workItemId (WorkItemRow.withStatus .ready)).workItems }) := by
  unfold approveEffect requireEffect at h
  simp only [bind_eq_ok, found_eq_ok, Table.get?_eq_some] at h
  obtain ⟨effect, ⟨mem, id⟩, h⟩ := h
  refine ⟨effect, mem, id, ?_⟩
  split at h
  · rename_i existing found
    cases h
    exact .inl ⟨found, rfl⟩
  · rename_i fresh
    simp only [bind_eq_ok, pure_eq_ok, Except.ok.injEq, Prod.mk.injEq] at h
    obtain ⟨mid, stored, rfl, rfl⟩ := h
    obtain ⟨-, approvals, inserted, rfl⟩ := insertApproval_ok stored
    exact .inr ⟨approvals, _, fresh, rfl, inserted, rfl⟩

theorem rejectEffect_ok {approvalId e : Uuid} {actor : String} {row : ApprovalRow}
    (h : db.rejectEffect approvalId e actor now = .ok (row, after)) :
    ∃ effect ∈ db.effects, effect.id = e ∧
      ((db.approvalOf e = some row ∧ after = db) ∨
      ∃ approvals mid released events, db.approvalOf e = none ∧
        row = ⟨approvalId, e, actor, .rejected, now, none⟩ ∧
        db.approvals.insert? row = some approvals ∧
        mid = { db with
          approvals
          effects := (db.setEffect e (EffectRow.decided approvalId .rejected)).effects
          workItems := (db.setItem effect.workItemId (WorkItemRow.withStatus .failed)).workItems
          workflows := (db.setStatus effect.workflowId .failed now).workflows } ∧
        mid.releaseOpenReservations effect.workflowId = .ok released ∧
        after = { mid with
          events, budgets := released.budgets, reservations := released.reservations }) := by
  unfold rejectEffect requireEffect at h
  simp only [bind_eq_ok, found_eq_ok, Table.get?_eq_some] at h
  obtain ⟨effect, ⟨mem, id⟩, h⟩ := h
  refine ⟨effect, mem, id, ?_⟩
  split at h
  · rename_i existing found
    simp only [throw_bind, ite_error_eq_ok, pure_eq_ok, Except.ok.injEq, Prod.mk.injEq] at h
    obtain ⟨-, rfl, rfl⟩ := h
    exact .inl ⟨found, rfl⟩
  · rename_i fresh
    simp only [bind_eq_ok, pure_eq_ok, Except.ok.injEq, Prod.mk.injEq] at h
    obtain ⟨stored, insert, released, release, rfl, rfl⟩ := h
    obtain ⟨-, approvals, inserted, rfl⟩ := insertApproval_ok insert
    obtain ⟨budgets, reservations, rfl⟩ := releaseOpenReservations_frame release
    exact .inr ⟨approvals, _, _, _, fresh, rfl, inserted, rfl, release, rfl⟩

theorem executeEffect_ok {e : Uuid} {result : List (String × Json)}
    (h : db.executeEffect D e now = .ok (result, after)) :
    ∃ effect ∈ db.effects, ∃ item ∈ db.workItems, ∃ approvals executed settled events,
      effect.id = e ∧ effect.executionCount = 0 ∧ item.id = effect.workItemId ∧
      (item.requiresApproval = true → ∃ a, db.approvalOf e = some a ∧ a.status = .approved) ∧
      result = effectResult D effect.binding ∧
      ((db.approvalOf e = none ∧ approvals = db.approvals) ∨
        ∃ a, db.approvalOf e = some a ∧ approvals = (db.consumeApproval a.id now).approvals) ∧
      executed = { db with
        approvals, effects := (db.setEffect e (EffectRow.execute (.obj result))).effects } ∧
      executed.settleBudget e = .ok settled ∧
      after = { executed with
        events, budgets := settled.budgets, reservations := settled.reservations } := by
  unfold executeEffect requireEffect at h
  simp only [bind_eq_ok, found_eq_ok, Table.get?_eq_some, throw_bind, ite_error_eq_ok, pure_eq_ok,
    Except.ok.injEq, Prod.mk.injEq, not_not] at h
  obtain ⟨effect, ⟨mem, id⟩, fresh, item, ⟨item_mem, item_id⟩, approved, settled, settle, rfl,
    rfl⟩ := h
  have granted : item.requiresApproval = true →
      ∃ a, db.approvalOf e = some a ∧ a.status = .approved := by
    intro required
    have := not_and.mp approved required
    rw [not_not, Option.any_eq_true] at this
    obtain ⟨a, found, status⟩ := this
    exact ⟨a, found, of_decide_eq_true status⟩
  obtain ⟨budgets, reservations, rfl⟩ := settleBudget_frame settle
  cases decision : db.approvalOf e with
  | none =>
      rw [decision] at settle
      exact ⟨effect, mem, item, item_mem, _, _, _, _, id, fresh, item_id, decision ▸ granted, rfl,
        .inl ⟨rfl, rfl⟩, rfl, settle, rfl⟩
  | some a =>
      rw [decision] at settle
      exact ⟨effect, mem, item, item_mem, _, _, _, _, id, fresh, item_id, decision ▸ granted, rfl,
        .inr ⟨a, rfl, rfl⟩, rfl, settle, rfl⟩

/-! ## Controls -/

theorem setBudget_ok {p : Uuid} {limit : Int} {u : Unit} (h : db.setBudget p limit = .ok (u, after)) :
    ∃ b, 0 ≤ limit ∧ db.budgets.get? p = some b ∧
      (b.reservedUnits : Int) + b.settledUnits ≤ limit ∧
      after = { db with
        budgets := (db.setBudgetRow p (BudgetRow.withLimit limit.toNat)).budgets } := by
  unfold setBudget budget at h
  simp only [throw_bind, ite_error_eq_ok, bind_eq_ok, found_eq_ok, pure_eq_ok, Except.ok.injEq,
    Prod.mk.injEq, true_and, gt_iff_lt, not_lt] at h
  obtain ⟨nonneg, b, found, room, rfl⟩ := h
  exact ⟨b, nonneg, found, room, rfl⟩

theorem setKillSwitch_ok {kind id : String} {enabled : Bool} {u : Unit}
    (h : db.setKillSwitch kind id enabled = .ok (u, after)) :
    ∃ killSwitches, after = { db with killSwitches } := by
  unfold setKillSwitch at h
  split at h
  · cases h
  · simp only [ite_error_eq_ok] at h
    obtain ⟨-, h⟩ := h
    split at h
    · cases h
      exact ⟨_, rfl⟩
    · cases h
      exact ⟨_, rfl⟩

end Db

end Corvus.Mvp
