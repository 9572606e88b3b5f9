import Corvus.Mvp.Frame

/-!
# What a transaction may do to one row

Four relations say how a committed transaction may move a work item, an attempt, an
effect or a workflow, with the checks that were made on the way. Each table evolves by
its relation, so an invariant about rows is shown move by move and no longer
transaction by transaction.
-/

namespace Corvus.Mvp

open Db

/-! ## Readiness -/

namespace Db

variable {db after : Db} {w : Uuid}

theorem mem_succeededKeys {k : String} :
    k ∈ db.succeededKeys w ↔
      ∃ r ∈ db.workItems, r.workflowId = w ∧ r.status = .succeeded ∧ r.itemKey = k := by
  simp only [succeededKeys, List.mem_map, List.mem_filter, Bool.and_eq_true, decide_eq_true_eq,
    Table.mem_iff, and_assoc]

theorem dependenciesMet_iff {keys : List String} :
    db.dependenciesMet w keys = true ↔ ∀ k ∈ keys, k ∈ db.succeededKeys w := by
  simp only [dependenciesMet, List.all_eq_true, decide_eq_true_eq]

/-- Met dependencies stay met as long as no succeeded item is lost. -/
theorem dependenciesMet_mono {keys : List String}
    (keep : ∀ r ∈ db.workItems, r.workflowId = w → r.status = .succeeded →
      ∃ s ∈ after.workItems, s.workflowId = w ∧ s.status = .succeeded ∧ s.itemKey = r.itemKey)
    (met : db.dependenciesMet w keys = true) : after.dependenciesMet w keys = true := by
  rw [dependenciesMet_iff] at met ⊢
  intro k hk
  obtain ⟨r, hr, flow, done, rfl⟩ := mem_succeededKeys.mp (met k hk)
  obtain ⟨s, hs, h⟩ := keep r hr flow done
  exact mem_succeededKeys.mpr ⟨s, hs, h⟩

theorem setItem_evolves (db : Db) (id : Uuid) (f : Rewrite WorkItemRow) :
    db.workItems.Evolves (db.setItem id f).workItems
      (fun r s => r.id ≠ id ∧ s = r ∨ r.id = id ∧ s = f r) fun _ => False :=
  .update (fun _ _ other => .inl ⟨of_decide_eq_false other, rfl⟩)
    fun _ _ hit => .inr ⟨of_decide_eq_true hit, rfl⟩

theorem refreshReadyItems_evolves (db : Db) (w : Uuid) :
    db.workItems.Evolves (db.refreshReadyItems w).workItems
      (fun r s => s = r ∨ r.workflowId = w ∧ r.status = .pending ∧
        db.dependenciesMet w r.dependsOn = true ∧ s = WorkItemRow.withStatus .ready r)
      fun _ => False := by
  refine .update (fun _ _ _ => .inl rfl) fun r _ hit => .inr ?_
  simp only [Bool.and_eq_true, decide_eq_true_eq] at hit
  exact ⟨hit.1.1, hit.1.2, hit.2, rfl⟩

/-- The refresh does not touch succeeded items. -/
theorem mem_refreshReadyItems {r : WorkItemRow} (hr : r ∈ db.workItems)
    (other : r.status ≠ .pending) : r ∈ (db.refreshReadyItems w).workItems := by
  obtain ⟨s, hs, rfl | ⟨-, pending, -⟩⟩ := (refreshReadyItems_evolves db w).forth r hr
  · exact hs
  · exact absurd pending other

theorem dependenciesMet_refresh {v : Uuid} {keys : List String}
    (met : db.dependenciesMet v keys = true) :
    (db.refreshReadyItems w).dependenciesMet v keys = true := by
  refine dependenciesMet_mono (fun r hr flow done => ⟨r, ?_, flow, done, rfl⟩) met
  exact mem_refreshReadyItems hr (by simp [done])

/-- Dependencies read only the work items. -/
theorem dependenciesMet_of_eq {keys : List String} (same : after.workItems = db.workItems)
    (met : db.dependenciesMet w keys = true) : after.dependenciesMet w keys = true := by
  refine dependenciesMet_mono (fun r hr flow done => ⟨r, ?_, flow, done, rfl⟩) met
  rwa [same]

theorem dependenciesMet_setItem {keys : List String} {id : Uuid} {f : Rewrite WorkItemRow}
    (other : ∀ r ∈ db.workItems, r.id = id → r.status ≠ .succeeded)
    (met : db.dependenciesMet w keys = true) : (db.setItem id f).dependenciesMet w keys = true := by
  refine dependenciesMet_mono (fun r hr flow done => ?_) met
  obtain ⟨s, hs, ⟨-, rfl⟩ | ⟨hit, -⟩⟩ := (setItem_evolves db id f).forth r hr
  · exact ⟨s, hs, flow, done, rfl⟩
  · exact absurd done (other r hr hit)

theorem firstByKey_mem {rows : List WorkItemRow} {r : WorkItemRow} (h : firstByKey rows = some r) :
    r ∈ rows := by
  induction rows generalizing r with
  | nil => cases h
  | cons x rows ih =>
      unfold firstByKey at h
      cases rest : firstByKey rows with
      | none =>
          rw [rest] at h
          cases h
          exact List.mem_cons_self
      | some y =>
          rw [rest] at h
          simp only at h
          split at h
          · cases h
            exact List.mem_cons_of_mem _ (ih rest)
          · cases h
            exact List.mem_cons_self

theorem mem_readyItems {r : WorkItemRow} :
    r ∈ db.readyItems w ↔ r ∈ db.workItems ∧ r.workflowId = w ∧ r.status = .ready := by
  simp only [readyItems, List.mem_filter, Bool.and_eq_true, decide_eq_true_eq, Table.mem_iff]

theorem get?_workflow {row : WorkflowRow} (h : db.workflows.get? w = some row) :
    row ∈ db.workflows ∧ row.id = w := Table.get?_eq_some.mp h

end Db

/-! ## Work items -/

/-- The moves of a work item under the transaction `t` from `db` to `after`. -/
inductive ItemMove (db after : Db) (t : Transaction) : WorkItemRow → WorkItemRow → Prop where
  | keep (r)
      (open_ : ∀ now, t = .cancelWorkflow r.workflowId now →
        r.status = .succeeded ∨ r.status = .cancelled) :
      ItemMove db after t r r
  | refresh (r) (pending : r.status = .pending)
      (met : after.dependenciesMet r.workflowId r.dependsOn = true) :
      ItemMove db after t r (WorkItemRow.withStatus .ready r)
  | claim (r) {attemptId worker duration now}
      (call : t = .claimNext attemptId r.workflowId worker duration now)
      (running : ∃ w ∈ db.workflows, w.id = r.workflowId ∧ w.status = .running)
      (off : db.killSwitchEnabled r.workflowId = false)
      (ready : r.status = .ready ∨
        r.status = .pending ∧ db.dependenciesMet r.workflowId r.dependsOn = true) :
      ItemMove db after t r (WorkItemRow.claim worker (now + duration) (r.leaseFence + 1) r)
  | complete (r) {ids claim result now} (call : t = .completeClaim ids claim result now)
      (current : db.Current claim r) :
      ItemMove db after t r (WorkItemRow.succeed (completionOutput claim result) r)
  | renew (r) {claim duration now} (call : t = .heartbeat claim duration now)
      (current : db.Current claim r) :
      ItemMove db after t r (WorkItemRow.renew (now + duration) r)
  | fail (r) {claim error now} (call : t = .failClaim claim error now)
      (current : db.Current claim r) :
      ItemMove db after t r (WorkItemRow.fail (Text.strip error) r)
  | retry (r) {status} (call : t = .retryWorkItem r.workflowId r.itemKey)
      (failed : r.status = .failed)
      (next : status = .pending ∨
        status = .ready ∧ after.dependenciesMet r.workflowId r.dependsOn = true) :
      ItemMove db after t r (WorkItemRow.retry status r)
  | recover (r) {now} (call : t = .recoverWorkflow r.workflowId now)
      (stale : staleLease r.workflowId now r = true) :
      ItemMove db after t r (WorkItemRow.recover r)
  | await (r) {claim effectId now} (call : t = .waitForApproval claim effectId now)
      (current : db.Current claim r) :
      ItemMove db after t r (WorkItemRow.await r)
  | approve (r) {approvalId effect actor now}
      (call : t = .approveEffect approvalId effect.id actor now) (mem : effect ∈ db.effects)
      (first : db.approvalOf effect.id = none) (item : r.id = effect.workItemId) :
      ItemMove db after t r (WorkItemRow.withStatus .ready r)
  | reject (r) {approvalId effect actor now}
      (call : t = .rejectEffect approvalId effect.id actor now) (mem : effect ∈ db.effects)
      (first : db.approvalOf effect.id = none) (item : r.id = effect.workItemId) :
      ItemMove db after t r (WorkItemRow.withStatus .failed r)
  | cancel (r) {now} (call : t = .cancelWorkflow r.workflowId now)
      (unfinished : r.status ≠ .succeeded ∧ r.status ≠ .cancelled) :
      ItemMove db after t r (WorkItemRow.cancel r)

/-- The columns of an item that no transaction changes. -/
structure SameDefinition (r s : WorkItemRow) : Prop where
  id : s.id = r.id
  workflowId : s.workflowId = r.workflowId
  itemKey : s.itemKey = r.itemKey
  dependsOn : s.dependsOn = r.dependsOn
  costUnits : s.costUnits = r.costUnits
  requiresApproval : s.requiresApproval = r.requiresApproval
  effect : s.effect = r.effect

theorem SameDefinition.refl (r : WorkItemRow) : SameDefinition r r :=
  ⟨rfl, rfl, rfl, rfl, rfl, rfl, rfl⟩

theorem SameDefinition.trans {r s u : WorkItemRow} (h : SameDefinition r s)
    (k : SameDefinition s u) : SameDefinition r u :=
  ⟨k.id.trans h.id, k.workflowId.trans h.workflowId, k.itemKey.trans h.itemKey,
    k.dependsOn.trans h.dependsOn, k.costUnits.trans h.costUnits,
    k.requiresApproval.trans h.requiresApproval, k.effect.trans h.effect⟩

theorem ItemMove.sameDefinition {db after : Db} {t : Transaction} {r s : WorkItemRow}
    (m : ItemMove db after t r s) : SameDefinition r s := by
  cases m <;> exact ⟨rfl, rfl, rfl, rfl, rfl, rfl, rfl⟩

/-- The rows that `create_workflow` adds, under a workflow id that was free. -/
def NewItem (db : Db) (t : Transaction) (r : WorkItemRow) : Prop :=
  ∃ id outcomeId name items now, ∃ item ∈ items,
    t = .createWorkflow id outcomeId name items now ∧
    validateGraph (items.map (·.2)) = .ok () ∧
    (∀ w ∈ db.workflows, w.id ≠ id) ∧ r = newItem id item

section Transactions

variable {D : Digests} {db after : Db} {t : Transaction} {reply : Reply}

/-- A table that the transaction does not touch. -/
theorem items_kept (same : after.workItems = db.workItems)
    (open_ : ∀ w now, t ≠ .cancelWorkflow w now) :
    db.workItems.Evolves after.workItems (ItemMove db after t) (NewItem db t) := by
  rw [same]
  exact .refl fun r _ => .keep r fun now call => absurd call (open_ _ now)

/-- A table in which one row is rewritten. -/
theorem items_set {id : Uuid} {f : Rewrite WorkItemRow}
    (same : after.workItems = (db.setItem id f).workItems)
    (open_ : ∀ w now, t ≠ .cancelWorkflow w now)
    (move : ∀ r ∈ db.workItems, r.id = id → ItemMove db after t r (f r)) :
    db.workItems.Evolves after.workItems (ItemMove db after t) (NewItem db t) := by
  rw [same]
  refine (setItem_evolves db id f).mono (fun r hr s _ h => ?_) fun _ _ h => h.elim
  rcases h with ⟨-, rfl⟩ | ⟨hit, rfl⟩
  · exact .keep s fun now call => absurd call (open_ _ now)
  · exact move r hr hit

theorem transact_items (h : t.run D db = .ok (reply, after)) :
    db.workItems.Evolves after.workItems (ItemMove db after t) (NewItem db t) := by
  cases t with
  | createProject id name tenantId now =>
      obtain ⟨⟨_, _⟩, ok, eq⟩ := map_ok h
      cases eq
      obtain ⟨projects, budgets, -, -, rfl⟩ := createProject_ok ok
      exact items_kept rfl (by simp)
  | createOutcome id p title criteria now =>
      obtain ⟨⟨_, _⟩, ok, eq⟩ := map_ok h
      cases eq
      obtain ⟨project, outcomes, -, -, -, -, rfl⟩ := createOutcome_ok ok
      exact items_kept rfl (by simp)
  | createWorkflow id o name items now =>
      obtain ⟨⟨_, _⟩, ok, eq⟩ := map_ok h
      cases eq
      obtain ⟨outcome, workflows, workItems, events, valid, -, rfl, inserted, rows, rfl⟩ :=
        createWorkflow_ok ok
      have added : workItems.rows = db.workItems.rows ++ items.map (newItem id) :=
        insertItems_ok rows
      have free : ∀ w ∈ db.workflows, w.id ≠ id := by
        intro w hw same
        exact (Table.insert?_eq_some.mp inserted).1 (List.mem_map.mpr ⟨w, hw, same⟩)
      refine ⟨fun s hs => ?_, fun r hr => ⟨r, ?_, .keep r (by simp)⟩⟩
      · change s ∈ workItems.rows at hs
        rw [added, List.mem_append, List.mem_map] at hs
        rcases hs with hs | ⟨item, hitem, rfl⟩
        · exact .inl ⟨s, hs, .keep s (by simp)⟩
        · exact .inr ⟨id, o, name, items, now, item, hitem, rfl, valid, free, rfl⟩
      · change r ∈ workItems.rows
        rw [added]
        exact List.mem_append_left _ hr
  | startWorkflow w now =>
      obtain ⟨⟨_, _⟩, ok, eq⟩ := map_ok h
      cases eq
      obtain ⟨workflow, events, -, -, rfl⟩ := startWorkflow_ok ok
      refine (refreshReadyItems_evolves db w).mono (fun r hr s _ m => ?_) fun _ _ h => h.elim
      rcases m with rfl | ⟨rfl, pending, met, rfl⟩
      · exact .keep s (by simp)
      · exact .refresh r pending (dependenciesMet_refresh met)
  | pauseWorkflow w now =>
      obtain ⟨⟨_, _⟩, ok, eq⟩ := map_ok h
      cases eq
      obtain ⟨workflow, events, -, rfl⟩ := pauseWorkflow_ok ok
      exact items_kept rfl (by simp)
  | cancelWorkflow w now =>
      obtain ⟨⟨_, _⟩, ok, eq⟩ := map_ok h
      cases eq
      obtain ⟨workflow, released, events, -, -, rfl⟩ := cancelWorkflow_ok ok
      refine .update (fun r _ spared => .keep r ?_) fun r _ hit => ?_
      · intro now' call
        cases call
        by_cases done : r.status = .succeeded
        · exact .inl done
        · exact .inr (by simpa [done] using spared)
      · simp only [Bool.and_eq_true, decide_eq_true_eq] at hit
        obtain ⟨⟨rfl, unfinished⟩, uncancelled⟩ := hit
        exact .cancel r rfl ⟨unfinished, uncancelled⟩
  | claimNext attemptId w worker duration now =>
      obtain ⟨⟨_, _⟩, ok, eq⟩ := map_ok h
      cases eq
      obtain ⟨workflow, found, ⟨-, -, rfl⟩ | ⟨-, -, -, -, rfl⟩ |
        ⟨row, attempts, events, running, off, first, -, -, rfl⟩⟩ := claimNext_ok ok
      · exact items_kept rfl (by simp)
      · refine (refreshReadyItems_evolves db w).mono (fun r hr s _ m => ?_) fun _ _ h => h.elim
        rcases m with rfl | ⟨rfl, pending, met, rfl⟩
        · exact .keep s (by simp)
        · exact .refresh r pending (dependenciesMet_refresh met)
      · obtain ⟨flow_mem, flow_id⟩ := get?_workflow found
        obtain ⟨row_mem, row_flow, row_ready⟩ := mem_readyItems.mp (firstByKey_mem first)
        -- a row is refreshed before it is claimed, so both moves compose here
        have only : ∀ r ∈ (db.refreshReadyItems w).workItems, r.id = row.id → r = row :=
          fun r hr id => Table.eq_of_key hr row_mem id
        have kept : ∀ keys, db.dependenciesMet w keys = true →
            ((db.refreshReadyItems w).setItem row.id (WorkItemRow.claim worker (now + duration)
              (row.leaseFence + 1))).dependenciesMet w keys = true := by
          refine fun keys met => dependenciesMet_setItem (fun r hr id => ?_)
            (dependenciesMet_refresh met)
          rw [only r hr id, row_ready]
          simp
        refine (refreshReadyItems_evolves db w).trans (setItem_evolves _ row.id _) ?_
        intro r hr s hs s' hs' m₁ m₂
        rcases m₂ with ⟨-, rfl⟩ | ⟨hit, rfl⟩
        · rcases m₁ with rfl | ⟨rfl, pending, met, rfl⟩
          · exact .keep s' (by simp)
          · exact .refresh r pending (kept _ met)
        · obtain rfl := only s hs hit
          have running' : ∃ v ∈ db.workflows, v.id = r.workflowId ∧ v.status = .running := by
            refine ⟨workflow, flow_mem, ?_, running⟩
            rcases m₁ with rfl | ⟨rfl, -⟩
            · exact flow_id.trans row_flow.symm
            · exact flow_id
          rcases m₁ with rfl | ⟨rfl, pending, met, rfl⟩
          · subst row_flow
            exact .claim s rfl running' off (.inl row_ready)
          · exact .claim r rfl running' off (.inr ⟨pending, met⟩)
  | readItem id =>
      obtain ⟨_, ok, eq⟩ := map_ok h
      cases eq
      exact items_kept rfl (by simp)
  | completeClaim ids claim result now =>
      obtain ⟨⟨_, _⟩, ok, eq⟩ := map_ok h
      cases eq
      obtain ⟨row, workflows, workItems, _, artifacts, _, _, _, current, rfl, -, -, rfl⟩ :=
        completeClaim_ok ok
      refine (setItem_evolves db row.id _).trans (refreshReadyItems_evolves _ claim.workflowId) ?_
      intro r hr s hs s' hs' m₁ m₂
      rcases m₁ with ⟨-, rfl⟩ | ⟨hit, rfl⟩
      · rcases m₂ with rfl | ⟨flow, pending, met, rfl⟩
        · exact .keep s' (by simp)
        · refine .refresh s pending (dependenciesMet_of_eq rfl (dependenciesMet_refresh ?_))
          rwa [flow]
      · obtain rfl := current.unique hr (hit.trans current.id)
        rcases m₂ with rfl | ⟨-, pending, -⟩
        · exact .complete r rfl current
        · cases pending
  | heartbeat claim duration now =>
      obtain ⟨⟨_, _⟩, ok, eq⟩ := map_ok h
      cases eq
      obtain ⟨row, events, current, -, rfl⟩ := heartbeat_ok ok
      refine items_set rfl (by simp) fun r hr id => .renew r rfl ?_
      rwa [current.unique hr id]
  | failClaim claim error now =>
      obtain ⟨⟨_, _⟩, ok, eq⟩ := map_ok h
      cases eq
      obtain ⟨row, events, current, rfl⟩ := failClaim_ok ok
      refine items_set rfl (by simp) fun r hr id => .fail r rfl ?_
      rwa [current.unique hr id]
  | retryWorkItem w itemKey =>
      obtain ⟨⟨_, _⟩, ok, eq⟩ := map_ok h
      cases eq
      obtain ⟨row, mem, status, events, rfl, rfl, failed, next, rfl⟩ := retryWorkItem_ok ok
      refine items_set rfl (by simp) fun r hr id => ?_
      obtain rfl := Table.eq_of_key hr mem id
      refine .retry r rfl failed ?_
      split at next
      · rename_i met
        refine .inr ⟨next, dependenciesMet_of_eq rfl (dependenciesMet_setItem ?_ met)⟩
        intro s hs same
        rw [Table.eq_of_key hs mem same, failed]
        simp
      · exact .inl next
  | recoverWorkflow w now =>
      obtain ⟨⟨_, _⟩, ok, eq⟩ := map_ok h
      cases eq
      obtain ⟨workflow, rows, events, -, -, -, rfl⟩ := recoverWorkflow_ok ok
      have recovered : db.workItems.Evolves (db.recoverItems w now rows).workItems
          (fun r s => s = r ∨ staleLease w now r = true ∧ s = WorkItemRow.recover r)
          fun _ => False :=
        .update (fun _ _ _ => .inl rfl) fun _ _ hit => .inr ⟨hit, rfl⟩
      refine recovered.trans (refreshReadyItems_evolves _ w) ?_
      intro r hr s hs s' hs' m₁ m₂
      rcases m₁ with rfl | ⟨stale, rfl⟩
      · rcases m₂ with rfl | ⟨rfl, pending, met, rfl⟩
        · exact .keep s' (by simp)
        · exact .refresh s pending (dependenciesMet_of_eq rfl (dependenciesMet_refresh met))
      · rcases m₂ with rfl | ⟨-, pending, -⟩
        · have flow : r.workflowId = w := by
            simp only [staleLease, Bool.and_eq_true, decide_eq_true_eq] at stale
            exact stale.1.1
          subst flow
          exact .recover r rfl stale
        · cases pending
  | ensureEffect item =>
      obtain ⟨⟨_, _⟩, ok, eq⟩ := map_ok h
      cases eq
      obtain ⟨binding, -, ⟨-, -, rfl⟩ | ⟨effects, proposed, reserved, events, -, -, -, -, -, rfl⟩⟩ :=
        ensureEffect_ok ok
      · exact items_kept rfl (by simp)
      · exact items_kept rfl (by simp)
  | waitForApproval claim e now =>
      obtain ⟨⟨_, _⟩, ok, eq⟩ := map_ok h
      cases eq
      obtain ⟨row, events, current, rfl⟩ := waitForApproval_ok ok
      refine items_set rfl (by simp) fun r hr id => .await r rfl ?_
      rwa [current.unique hr id]
  | approveEffect approvalId e actor now =>
      obtain ⟨⟨_, _⟩, ok, eq⟩ := map_ok h
      cases eq
      obtain ⟨effect, mem, rfl, ⟨-, rfl⟩ | ⟨approvals, events, first, -, -, rfl⟩⟩ :=
        approveEffect_ok ok
      · exact items_kept rfl (by simp)
      · exact items_set rfl (by simp) fun r hr id => .approve r rfl mem first id
  | rejectEffect approvalId e actor now =>
      obtain ⟨⟨_, _⟩, ok, eq⟩ := map_ok h
      cases eq
      obtain ⟨effect, mem, rfl, ⟨-, rfl⟩ |
        ⟨approvals, mid, released, events, first, -, -, rfl, -, rfl⟩⟩ := rejectEffect_ok ok
      · exact items_kept rfl (by simp)
      · exact items_set rfl (by simp) fun r hr id => .reject r rfl mem first id
  | executeEffect e now =>
      obtain ⟨⟨_, _⟩, ok, eq⟩ := map_ok h
      cases eq
      obtain ⟨effect, -, item, -, approvals, executed, settled, events, -, -, -, -, -, -, rfl, -,
        rfl⟩ := executeEffect_ok ok
      exact items_kept rfl (by simp)
  | setBudget p limit =>
      obtain ⟨⟨_, _⟩, ok, eq⟩ := map_ok h
      cases eq
      obtain ⟨b, -, -, -, rfl⟩ := setBudget_ok ok
      exact items_kept rfl (by simp)
  | setKillSwitch kind id enabled =>
      obtain ⟨⟨_, _⟩, ok, eq⟩ := map_ok h
      cases eq
      obtain ⟨killSwitches, rfl⟩ := setKillSwitch_ok ok
      exact items_kept rfl (by simp)

/-! ## Workflows -/

/-- The moves of a workflow. -/
inductive WorkflowMove (db after : Db) (t : Transaction) : WorkflowRow → WorkflowRow → Prop where
  | keep (w) : WorkflowMove db after t w w
  | start (w) {now} (call : t = .startWorkflow w.id now)
      (stopped : w.status = .draft ∨ w.status = .paused) :
      WorkflowMove db after t w (WorkflowRow.withStatus .running now w)
  | pause (w) {now} (call : t = .pauseWorkflow w.id now) :
      WorkflowMove db after t w (WorkflowRow.withStatus .paused now w)
  | cancel (w) {now} (call : t = .cancelWorkflow w.id now) :
      WorkflowMove db after t w (WorkflowRow.withStatus .cancelled now w)
  | succeed (w) {ids claim result now r} (call : t = .completeClaim ids claim result now)
      (current : db.Current claim r) (flow : w.id = claim.workflowId)
      (finished : ∀ r ∈ after.workItems, r.workflowId = w.id → r.status = .succeeded) :
      WorkflowMove db after t w (WorkflowRow.withStatus .succeeded now w)
  | reject (w) {approvalId effect actor now}
      (call : t = .rejectEffect approvalId effect.id actor now) (mem : effect ∈ db.effects)
      (first : db.approvalOf effect.id = none) (flow : w.id = effect.workflowId) :
      WorkflowMove db after t w (WorkflowRow.withStatus .failed now w)

/-- The row that `create_workflow` adds. -/
def NewWorkflow (db : Db) (t : Transaction) (w : WorkflowRow) : Prop :=
  ∃ outcomeId name items now outcome, t = .createWorkflow w.id outcomeId name items now ∧
    db.outcomes.get? outcomeId = some outcome ∧ w.outcomeId = outcomeId ∧ w.status = .draft ∧
    ∀ v ∈ db.workflows, v.id ≠ w.id

theorem setStatus_evolves (db : Db) (id : Uuid) (status : WorkflowStatus) (now : Instant) :
    db.workflows.Evolves (db.setStatus id status now).workflows
      (fun w v => w.id ≠ id ∧ v = w ∨ w.id = id ∧ v = WorkflowRow.withStatus status now w)
      fun _ => False :=
  .update (fun _ _ other => .inl ⟨of_decide_eq_false other, rfl⟩)
    fun _ _ hit => .inr ⟨of_decide_eq_true hit, rfl⟩

/-- A status is set, so one workflow moves. -/
theorem workflows_set {id : Uuid} {status : WorkflowStatus} {now : Instant}
    (same : after.workflows = (db.setStatus id status now).workflows)
    (move : ∀ w ∈ db.workflows, w.id = id →
      WorkflowMove db after t w (WorkflowRow.withStatus status now w)) :
    db.workflows.Evolves after.workflows (WorkflowMove db after t) (NewWorkflow db t) := by
  rw [same]
  refine (setStatus_evolves db id status now).mono (fun w hw v _ h => ?_) fun _ _ h => h.elim
  rcases h with ⟨-, rfl⟩ | ⟨hit, rfl⟩
  · exact .keep v
  · exact move w hw hit

theorem transact_workflows (h : t.run D db = .ok (reply, after)) :
    db.workflows.Evolves after.workflows (WorkflowMove db after t) (NewWorkflow db t) := by
  rcases (run_frame h).workflows with written | same
  · cases t with
    | createWorkflow id o name items now =>
        obtain ⟨⟨_, _⟩, ok, eq⟩ := map_ok h
        cases eq
        obtain ⟨outcome, workflows, workItems, events, -, found, rfl, inserted, -, rfl⟩ :=
          createWorkflow_ok ok
        obtain ⟨free, rows⟩ := Table.insert?_eq_some.mp inserted
        refine .insert rows (fun w _ => .keep w) ?_
        refine ⟨o, name, items, now, outcome, rfl, found, rfl, rfl, fun v hv same => ?_⟩
        exact free (List.mem_map.mpr ⟨v, hv, same⟩)
    | startWorkflow w now =>
        obtain ⟨⟨_, _⟩, ok, eq⟩ := map_ok h
        cases eq
        obtain ⟨workflow, events, found, stopped, rfl⟩ := startWorkflow_ok ok
        obtain ⟨mem, rfl⟩ := get?_workflow found
        refine workflows_set rfl fun v hv id => ?_
        obtain rfl := Table.eq_of_key hv mem id
        exact .start v rfl stopped
    | pauseWorkflow w now =>
        obtain ⟨⟨_, _⟩, ok, eq⟩ := map_ok h
        cases eq
        obtain ⟨workflow, events, -, rfl⟩ := pauseWorkflow_ok ok
        exact workflows_set rfl fun v _ id => .pause v (by rw [id])
    | cancelWorkflow w now =>
        obtain ⟨⟨_, _⟩, ok, eq⟩ := map_ok h
        cases eq
        obtain ⟨workflow, released, events, -, -, rfl⟩ := cancelWorkflow_ok ok
        exact workflows_set rfl fun v _ id => .cancel v (by rw [id])
    | completeClaim ids claim result now =>
        obtain ⟨⟨_, _⟩, ok, eq⟩ := map_ok h
        cases eq
        obtain ⟨row, workflows, workItems, _, artifacts, _, _, _, current, -, -, finish, rfl⟩ :=
          completeClaim_ok ok
        rcases finish with ⟨-, rfl⟩ | ⟨finished, rfl⟩
        · exact .refl fun v _ => .keep v
        · refine workflows_set rfl fun v _ id => .succeed v rfl current id ?_
          rwa [id]
    | rejectEffect approvalId e actor now =>
        obtain ⟨⟨_, _⟩, ok, eq⟩ := map_ok h
        cases eq
        obtain ⟨effect, mem, rfl, ⟨-, rfl⟩ |
          ⟨approvals, mid, released, events, first, -, -, rfl, -, rfl⟩⟩ := rejectEffect_ok ok
        · exact .refl fun v _ => .keep v
        · exact workflows_set rfl fun v _ id => .reject v rfl mem first id
    | _ => simp [Transaction.writes] at written
  · rw [same]
    exact .refl fun w _ => .keep w

/-! ## Effects -/

/-- `_execute_effect_for_claim` passes its checks on this effect: it is not executed yet,
and approved where its item requires that. -/
def Db.AdmitsExecution (db : Db) (effect : EffectRow) : Prop :=
  effect.executionCount = 0 ∧
    ∀ item ∈ db.workItems, item.id = effect.workItemId → item.requiresApproval = true →
      ∃ a, db.approvalOf effect.id = some a ∧ a.status = .approved

/-- The moves of an effect. -/
inductive EffectMove (D : Digests) (db : Db) (t : Transaction) : EffectRow → EffectRow → Prop where
  | keep (e) : EffectMove D db t e e
  | approve (e) {approvalId actor now} (call : t = .approveEffect approvalId e.id actor now)
      (first : db.approvalOf e.id = none) :
      EffectMove D db t e (EffectRow.decided approvalId .approved e)
  | reject (e) {approvalId actor now} (call : t = .rejectEffect approvalId e.id actor now)
      (first : db.approvalOf e.id = none) :
      EffectMove D db t e (EffectRow.decided approvalId .rejected e)
  | execute (e) {now} (call : t = .executeEffect e.id now) (admitted : db.AdmitsExecution e) :
      EffectMove D db t e (EffectRow.execute (.obj (effectResult D e.binding)) e)

/-- The columns of an effect that no transaction changes. -/
structure SameProposal (e f : EffectRow) : Prop where
  id : f.id = e.id
  workflowId : f.workflowId = e.workflowId
  workItemId : f.workItemId = e.workItemId
  idempotencyKey : f.idempotencyKey = e.idempotencyKey
  binding : f.binding = e.binding

theorem EffectMove.sameProposal {e f : EffectRow} (m : EffectMove D db t e f) :
    SameProposal e f := by
  cases m <;> exact ⟨rfl, rfl, rfl, rfl, rfl⟩

/-- The row that `_ensure_effect` adds for an item without an effect. -/
def NewEffect (D : Digests) (db : Db) (t : Transaction) (e : EffectRow) : Prop :=
  ∃ item binding, t = .ensureEffect item ∧ item.effect = some binding ∧
    e = proposedEffect D item binding ∧ (∀ f ∈ db.effects, f.workItemId ≠ item.id) ∧
    ∀ f ∈ db.effects, f.id ≠ e.id

theorem setEffect_evolves (db : Db) (id : Uuid) (f : Rewrite EffectRow) :
    db.effects.Evolves (db.setEffect id f).effects
      (fun e e' => e.id ≠ id ∧ e' = e ∨ e.id = id ∧ e' = f e) fun _ => False :=
  .update (fun _ _ other => .inl ⟨of_decide_eq_false other, rfl⟩)
    fun _ _ hit => .inr ⟨of_decide_eq_true hit, rfl⟩

theorem effects_set {id : Uuid} {f : Rewrite EffectRow}
    (same : after.effects = (db.setEffect id f).effects)
    (move : ∀ e ∈ db.effects, e.id = id → EffectMove D db t e (f e)) :
    db.effects.Evolves after.effects (EffectMove D db t) (NewEffect D db t) := by
  rw [same]
  refine (setEffect_evolves db id f).mono (fun e he e' _ h => ?_) fun _ _ h => h.elim
  rcases h with ⟨-, rfl⟩ | ⟨hit, rfl⟩
  · exact .keep e'
  · exact move e he hit

theorem transact_effects (h : t.run D db = .ok (reply, after)) :
    db.effects.Evolves after.effects (EffectMove D db t) (NewEffect D db t) := by
  rcases (run_frame h).effects with written | same
  · cases t with
    | ensureEffect item =>
        obtain ⟨⟨_, _⟩, ok, eq⟩ := map_ok h
        cases eq
        obtain ⟨binding, bound, ⟨-, -, rfl⟩ |
          ⟨effects, proposed, reserved, events, rfl, free, inserted, -, -, rfl⟩⟩ :=
          ensureEffect_ok ok
        · exact .refl fun e _ => .keep e
        · obtain ⟨fresh, rows⟩ := Table.insert?_eq_some.mp inserted
          refine .insert rows (fun e _ => .keep e) ⟨item, binding, rfl, bound, rfl, ?_, ?_⟩
          · exact fun f hf => (free f hf).1
          · exact fun f hf same => fresh (List.mem_map.mpr ⟨f, hf, same⟩)
    | approveEffect approvalId e actor now =>
        obtain ⟨⟨_, _⟩, ok, eq⟩ := map_ok h
        cases eq
        obtain ⟨effect, -, rfl, ⟨-, rfl⟩ | ⟨approvals, events, first, -, -, rfl⟩⟩ :=
          approveEffect_ok ok
        · exact .refl fun e _ => .keep e
        · exact effects_set rfl fun e _ id => .approve e (by rw [id]) (by rwa [id])
    | rejectEffect approvalId e actor now =>
        obtain ⟨⟨_, _⟩, ok, eq⟩ := map_ok h
        cases eq
        obtain ⟨effect, -, rfl, ⟨-, rfl⟩ |
          ⟨approvals, mid, released, events, first, -, -, rfl, -, rfl⟩⟩ := rejectEffect_ok ok
        · exact .refl fun e _ => .keep e
        · exact effects_set rfl fun e _ id => .reject e (by rw [id]) (by rwa [id])
    | executeEffect e now =>
        obtain ⟨⟨_, _⟩, ok, eq⟩ := map_ok h
        cases eq
        obtain ⟨effect, mem, item, item_mem, approvals, executed, settled, events, rfl, once,
          item_id, approved, rfl, -, rfl, -, rfl⟩ := executeEffect_ok ok
        refine effects_set rfl fun e he id => ?_
        obtain rfl := Table.eq_of_key he mem id
        refine .execute e rfl ⟨once, fun r hr id => ?_⟩
        rwa [Table.eq_of_key hr item_mem (id.trans item_id.symm)]
    | _ => simp [Transaction.writes] at written
  · rw [same]
    exact .refl fun e _ => .keep e

/-! ## Attempts -/

/-- The moves of an attempt. -/
inductive AttemptMove (db : Db) (t : Transaction) : AttemptRow → AttemptRow → Prop where
  | keep (a) : AttemptMove db t a a
  | complete (a) {ids claim result now r} (call : t = .completeClaim ids claim result now)
      (current : db.Current claim r) (id : a.id = claim.attemptId) :
      AttemptMove db t a (AttemptRow.succeed (completionOutput claim result) now a)
  | fail (a) {claim error now r} (call : t = .failClaim claim error now)
      (current : db.Current claim r) (id : a.id = claim.attemptId) :
      AttemptMove db t a (AttemptRow.fail (Text.strip error) now a)
  | await (a) {claim effectId now r} (call : t = .waitForApproval claim effectId now)
      (current : db.Current claim r) (id : a.id = claim.attemptId) :
      AttemptMove db t a (AttemptRow.await now a)
  | interrupt (a) {w now r} (call : t = .recoverWorkflow w now) (running : a.status = .running)
      (mem : r ∈ db.workItems) (stale : staleLease w now r = true) (id : r.id = a.workItemId) :
      AttemptMove db t a (AttemptRow.interrupt now a)

/-- The row that `claim_next` adds for the item it hands out. -/
def NewAttempt (db after : Db) (t : Transaction) (a : AttemptRow) : Prop :=
  ∃ w worker duration now, ∃ r ∈ db.workItems,
    t = .claimNext a.id w worker duration now ∧
    a = ⟨a.id, r.id, worker, r.leaseFence + 1, .running, none, none, now, none⟩ ∧
    (r.status = .ready ∨ r.status = .pending) ∧
    WorkItemRow.claim worker (now + duration) (r.leaseFence + 1) r ∈ after.workItems ∧
    ∀ b ∈ db.attempts, b.id ≠ a.id

/-- The columns of an attempt that no transaction changes. -/
structure SameAttempt (a b : AttemptRow) : Prop where
  id : b.id = a.id
  workItemId : b.workItemId = a.workItemId
  workerId : b.workerId = a.workerId
  leaseFence : b.leaseFence = a.leaseFence

theorem AttemptMove.sameAttempt {a b : AttemptRow} (m : AttemptMove db t a b) :
    SameAttempt a b := by
  cases m <;> exact ⟨rfl, rfl, rfl, rfl⟩

theorem setAttempt_evolves (db : Db) (id : Uuid) (f : Rewrite AttemptRow) :
    db.attempts.Evolves (db.setAttempt id f).attempts
      (fun a b => a.id ≠ id ∧ b = a ∨ a.id = id ∧ b = f a) fun _ => False :=
  .update (fun _ _ other => .inl ⟨of_decide_eq_false other, rfl⟩)
    fun _ _ hit => .inr ⟨of_decide_eq_true hit, rfl⟩

theorem attempts_set {id : Uuid} {f : Rewrite AttemptRow}
    (same : after.attempts = (db.setAttempt id f).attempts)
    (move : ∀ a ∈ db.attempts, a.id = id → AttemptMove db t a (f a)) :
    db.attempts.Evolves after.attempts (AttemptMove db t) (NewAttempt db after t) := by
  rw [same]
  refine (setAttempt_evolves db id f).mono (fun a ha b _ h => ?_) fun _ _ h => h.elim
  rcases h with ⟨-, rfl⟩ | ⟨hit, rfl⟩
  · exact .keep b
  · exact move a ha hit

/-- What `claim_next` does when it hands out the claim `c`: an item that was ready, or is
found ready by the refresh, is claimed, and an attempt is added for it. -/
theorem claimNext_claimed {attemptId w : Uuid} {worker : String} {duration : Int} {now : Instant}
    {c : WorkClaim}
    (h : db.claimNext attemptId w worker duration now = .ok (some c, after)) :
    ∃ r ∈ db.workItems, ∃ attempts, r.workflowId = w ∧
      c = ⟨attemptId, r.id, w, r.itemKey, worker, r.leaseFence + 1, now + duration⟩ ∧
      (r.status = .ready ∨ r.status = .pending ∧ db.dependenciesMet w r.dependsOn = true) ∧
      (∃ v ∈ db.workflows, v.id = w ∧ v.status = .running) ∧ db.killSwitchEnabled w = false ∧
      WorkItemRow.claim worker (now + duration) (r.leaseFence + 1) r ∈ after.workItems ∧
      db.attempts.insert? ⟨attemptId, r.id, worker, r.leaseFence + 1, .running, none, none, now,
        none⟩ = some attempts ∧ after.attempts = attempts := by
  obtain ⟨workflow, found, ⟨-, ⟨⟩, -⟩ | ⟨-, -, -, ⟨⟩, -⟩ |
    ⟨row, attempts, events, running, off, first, same, inserted, rfl⟩⟩ := claimNext_ok h
  cases same
  obtain ⟨row_mem, row_flow, row_ready⟩ := mem_readyItems.mp (firstByKey_mem first)
  obtain ⟨flow_mem, flow_id⟩ := get?_workflow found
  have claimed : WorkItemRow.claim worker (now + duration) (row.leaseFence + 1) row ∈
      ((db.refreshReadyItems w).setItem row.id
        (WorkItemRow.claim worker (now + duration) (row.leaseFence + 1))).workItems := by
    obtain ⟨s, hs, ⟨other, -⟩ | ⟨-, rfl⟩⟩ := (setItem_evolves _ row.id _).forth row row_mem
    · exact absurd rfl other
    · exact hs
  obtain ⟨r, hr, rfl | ⟨rfl, pending, met, rfl⟩⟩ :=
    ((refreshReadyItems_evolves db w).back row row_mem).resolve_right id
  · exact ⟨row, hr, attempts, row_flow, rfl, .inl row_ready,
      ⟨workflow, flow_mem, flow_id, running⟩, off, claimed, inserted, rfl⟩
  · exact ⟨r, hr, attempts, rfl, rfl, .inr ⟨pending, met⟩,
      ⟨workflow, flow_mem, flow_id, running⟩, off, claimed, inserted, rfl⟩

theorem transact_attempts (h : t.run D db = .ok (reply, after)) :
    db.attempts.Evolves after.attempts (AttemptMove db t) (NewAttempt db after t) := by
  rcases (run_frame h).attempts with written | same
  · cases t with
    | claimNext attemptId w worker duration now =>
        obtain ⟨⟨claim, _⟩, ok, eq⟩ := map_ok h
        cases eq
        cases claim with
        | none =>
            obtain ⟨workflow, -, ⟨-, -, rfl⟩ | ⟨-, -, -, -, rfl⟩ |
              ⟨row, attempts, events, -, -, -, ⟨⟩, -⟩⟩ := claimNext_ok ok
            · exact .refl fun a _ => .keep a
            · exact .refl fun a _ => .keep a
        | some c =>
            obtain ⟨r, hr, attempts, rfl, rfl, ready, -, -, claimed, inserted, rfl⟩ :=
              claimNext_claimed ok
            obtain ⟨fresh, rows⟩ := Table.insert?_eq_some.mp inserted
            refine .insert rows (fun a _ => .keep a) ?_
            refine ⟨_, worker, duration, now, r, hr, rfl, rfl, ready.imp_right (·.1), claimed, ?_⟩
            exact fun b hb same => fresh (List.mem_map.mpr ⟨b, hb, same⟩)
    | completeClaim ids claim result now =>
        obtain ⟨⟨_, _⟩, ok, eq⟩ := map_ok h
        cases eq
        obtain ⟨row, workflows, workItems, _, artifacts, _, _, _, current, -, -, -, rfl⟩ :=
          completeClaim_ok ok
        exact attempts_set rfl fun a _ id => .complete a rfl current id
    | failClaim claim error now =>
        obtain ⟨⟨_, _⟩, ok, eq⟩ := map_ok h
        cases eq
        obtain ⟨row, events, current, rfl⟩ := failClaim_ok ok
        exact attempts_set rfl fun a _ id => .fail a rfl current id
    | recoverWorkflow w now =>
        obtain ⟨⟨_, _⟩, ok, eq⟩ := map_ok h
        cases eq
        obtain ⟨workflow, rows, events, -, rfl, -, rfl⟩ := recoverWorkflow_ok ok
        refine .update (fun a _ _ => .keep a) fun a _ hit => ?_
        simp only [Bool.and_eq_true, decide_eq_true_eq, List.any_eq_true, List.mem_filter] at hit
        obtain ⟨running, r, ⟨mem, stale⟩, id⟩ := hit
        exact .interrupt a rfl running mem stale id
    | waitForApproval claim e now =>
        obtain ⟨⟨_, _⟩, ok, eq⟩ := map_ok h
        cases eq
        obtain ⟨row, events, current, rfl⟩ := waitForApproval_ok ok
        exact attempts_set rfl fun a _ id => .await a rfl current id
    | _ => simp [Transaction.writes] at written
  · rw [same]
    exact .refl fun a _ => .keep a

/-! ## Artifacts -/

/-- The artifact that `_complete_claim` adds. -/
def NewArtifact (db : Db) (t : Transaction) (x : ArtifactRow) : Prop :=
  ∃ ids claim result now row, t = .completeClaim ids claim result now ∧ db.Current claim row ∧
    x.id = ids.artifact ∧ x.workItemId = row.id ∧ x.content = completionOutput claim result

theorem transact_artifacts (h : t.run D db = .ok (reply, after)) :
    db.artifacts.Evolves after.artifacts (fun x y => y = x) (NewArtifact db t) := by
  rcases (run_frame h).artifacts with written | same
  · cases t with
    | completeClaim ids claim result now =>
        obtain ⟨⟨_, _⟩, ok, eq⟩ := map_ok h
        cases eq
        obtain ⟨row, workflows, workItems, _, artifacts, _, _, _, current, -, inserted, -, rfl⟩ :=
          completeClaim_ok ok
        refine .insert (Table.insert?_eq_some.mp inserted).2 (fun _ _ => rfl) ?_
        exact ⟨ids, claim, result, now, row, rfl, current, rfl, rfl, rfl⟩
    | _ => simp [Transaction.writes] at written
  · rw [same]
    exact .refl fun _ _ => rfl

/-- The item of a completed claim has succeeded. -/
theorem completeClaim_succeeds {ids : CompletionIds} {claim : WorkClaim}
    {result : Option (List (String × Json))} {now : Instant} {row : WorkItemRow}
    (h : (Transaction.completeClaim ids claim result now).run D db = .ok (reply, after))
    (current : db.Current claim row) :
    WorkItemRow.succeed (completionOutput claim result) row ∈ after.workItems := by
  obtain ⟨⟨_, _⟩, ok, eq⟩ := map_ok h
  cases eq
  obtain ⟨row', workflows, workItems, _, artifacts, _, _, _, current', rfl, -, -, rfl⟩ :=
    completeClaim_ok ok
  obtain rfl := current'.unique current.mem current.id
  refine mem_refreshReadyItems ?_ (by simp [WorkItemRow.succeed])
  obtain ⟨s, hs, ⟨other, -⟩ | ⟨-, rfl⟩⟩ := (setItem_evolves db row.id _).forth row current.mem
  · exact absurd rfl other
  · exact hs

/-! ## Replies -/

theorem run_claimed {claim : WorkClaim} (h : t.run D db = .ok (.claimed claim, after)) :
    ∃ attemptId w worker duration now, t = .claimNext attemptId w worker duration now ∧
      db.claimNext attemptId w worker duration now = .ok (some claim, after) := by
  cases t with
  | claimNext attemptId w worker duration now =>
      obtain ⟨⟨claim', _⟩, ok, eq⟩ := map_ok h
      cases claim' with
      | none => cases eq
      | some claim' =>
          cases eq
          exact ⟨attemptId, w, worker, duration, now, rfl, ok⟩
  | _ =>
      obtain ⟨_, _, eq⟩ := map_ok h
      cases eq

theorem run_renewed {claim : WorkClaim} (h : t.run D db = .ok (.renewed claim, after)) :
    ∃ claim' duration now, t = .heartbeat claim' duration now ∧
      claim = { claim' with leaseExpiresAt := now + duration } := by
  cases t with
  | heartbeat claim' duration now =>
      obtain ⟨⟨_, _⟩, ok, eq⟩ := map_ok h
      cases eq
      obtain ⟨row, events, -, rfl, -⟩ := heartbeat_ok ok
      exact ⟨claim', duration, now, rfl, rfl⟩
  | claimNext attemptId w worker duration now =>
      obtain ⟨⟨claim', _⟩, ok, eq⟩ := map_ok h
      cases claim' <;> cases eq
  | _ =>
      obtain ⟨_, _, eq⟩ := map_ok h
      cases eq

/-- The effect that `_ensure_effect` returns is stored, and belongs to the item. -/
theorem run_effect {effect : EffectRow} (h : t.run D db = .ok (.effect effect, after)) :
    ∃ item, t = .ensureEffect item ∧ effect ∈ after.effects ∧ effect.workItemId = item.id := by
  cases t with
  | ensureEffect item =>
      obtain ⟨⟨_, _⟩, ok, eq⟩ := map_ok h
      cases eq
      refine ⟨item, rfl, ?_⟩
      obtain ⟨binding, -, ⟨mem, owner, rfl⟩ |
        ⟨effects, proposed, reserved, events, rfl, -, inserted, -, -, rfl⟩⟩ := ensureEffect_ok ok
      · exact ⟨mem, owner⟩
      · refine ⟨?_, rfl⟩
        rw [Table.mem_iff, (Table.insert?_eq_some.mp inserted).2]
        exact List.mem_append_right _ (List.mem_singleton.mpr rfl)
  | claimNext attemptId w worker duration now =>
      obtain ⟨⟨claim', _⟩, ok, eq⟩ := map_ok h
      cases claim' <;> cases eq
  | _ =>
      obtain ⟨_, _, eq⟩ := map_ok h
      cases eq

end Transactions

end Corvus.Mvp
