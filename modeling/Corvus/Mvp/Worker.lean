import Corvus.Mvp.Approval
import Corvus.Mvp.Ledger

/-!
# Running a worker to the end

`run_next` as one procedure: a claim, and the task that it leads to resumed until
nothing is left of it. What it does is a run of the service, so every invariant of
the steps is one of the procedure; and each of its transactions goes through when the
rows it looks for are there.
-/

namespace Corvus.Mvp

open Db

/-- What `uuid4()` and the clock give during one `run_next`, with an approval before it. -/
structure Draw where
  attempt : Uuid
  approval : Uuid
  completion : CompletionIds
  clock : Nat → Instant

/-- How many transactions are left of a task at most. -/
def Task.stages : Task → Nat
  | claimed _ => 4
  | holding _ _ => 3
  | proposed _ _ _ => 2
  | executed _ _ => 1

theorem Task.after_stages {task next : Task} {reply : Reply} (h : task.after reply = some next) :
    next.claim = task.claim ∧ next.stages < task.stages := by
  unfold Task.after at h
  split at h <;> cases h <;> exact ⟨rfl, by simp [stages]⟩

/-- The next transaction of a task. -/
def Draw.call (draw : Draw) (task : Task) : Call :=
  .resume task draw.completion (draw.clock task.stages)

/-- The claim of `run_next`. -/
def Draw.claiming (draw : Draw) (w : Uuid) (worker : String) (lease : Int) : Call :=
  .make (.claimNext draw.attempt w worker lease (draw.clock 5))

namespace Service

/-- The task is resumed until nothing is left of it, in at most `n` transactions. -/
def follow (D : Digests) (draw : Draw) : Nat → Task → Service → Service
  | 0, _, s => s
  | n + 1, task, s =>
      match (draw.call task).transaction.run D s.db with
      | .error _ => step D s (draw.call task)
      | .ok (reply, _) =>
          match task.after reply with
          | none => step D s (draw.call task)
          | some next => follow D draw n next (step D s (draw.call task))

/-- `run_next`. -/
def runNext (D : Digests) (draw : Draw) (w : Uuid) (worker : String) (lease : Int)
    (s : Service) : Service :=
  match (draw.claiming w worker lease).transaction.run D s.db with
  | .ok (.claimed claim, _) =>
      follow D draw 4 (.claimed claim) (step D s (draw.claiming w worker lease))
  | _ => step D s (draw.claiming w worker lease)

variable {D : Digests} {draw : Draw} {s : Service} {task next : Task} {reply : Reply} {db : Db}
  {w : Uuid} {worker : String} {lease : Int} {n : Nat}

theorem follow_next (ok : (draw.call task).transaction.run D s.db = .ok (reply, db))
    (after : task.after reply = some next) :
    follow D draw (n + 1) task s = follow D draw n next (step D s (draw.call task)) := by
  rw [follow, ok]
  simp only [after]

theorem follow_last (ok : (draw.call task).transaction.run D s.db = .ok (reply, db))
    (after : task.after reply = none) :
    follow D draw (n + 1) task s = step D s (draw.call task) := by
  rw [follow, ok]
  simp only [after]

/-- What holds of a task and the state, and passes on to the rest of the task, gives what
holds when nothing is left of it. -/
theorem follow_rule {P : Task → Service → Prop} {Q : Service → Prop} (stop : ∀ t s, P t s → Q s)
    (done : ∀ t s, P t s → Q (step D s (draw.call t)))
    (next : ∀ t s reply db u, P t s → (draw.call t).transaction.run D s.db = .ok (reply, db) →
      t.after reply = some u → P u (step D s (draw.call t)))
    (start : P task s) : Q (follow D draw n task s) := by
  induction n generalizing task s with
  | zero => exact stop task s start
  | succ n ih =>
      rw [follow]
      split
      · exact done task s start
      · rename_i reply db ok
        split
        · exact done task s start
        · rename_i after
          exact ih (next task s reply db _ start ok after)

/-- A fact that every transaction under the claim keeps holds when the task is done. -/
theorem follow_preserves {P : Service → Prop}
    (keep : ∀ s t, t.claim = task.claim → P s → P (step D s (draw.call t))) (start : P s) :
    P (follow D draw n task s) := by
  refine follow_rule (P := fun t s => t.claim = task.claim ∧ P s) (fun _ _ h => h.2)
    (fun t s h => keep s t h.1 h.2) (fun t s _ _ u h _ after => ⟨?_, keep s t h.1 h.2⟩) ⟨rfl, start⟩
  exact (Task.after_stages after).1.trans h.1

theorem runNext_claimed {claim : WorkClaim}
    (ok : s.db.claimNext draw.attempt w worker lease (draw.clock 5) = .ok (some claim, db)) :
    runNext D draw w worker lease s =
      follow D draw 4 (.claimed claim) (step D s (draw.claiming w worker lease)) := by
  have run : (draw.claiming w worker lease).transaction.run D s.db = .ok (.claimed claim, db) := by
    change (_ <$> s.db.claimNext _ _ _ _ _) = _
    rw [ok]
    rfl
  rw [runNext, run]

/-- The effect of a held call whose transaction commits. -/
theorem step_ok {c : Call} (held : c.held s = true)
    (ok : c.transaction.run D s.db = .ok (reply, db)) :
    step D s c = ⟨db, s.claims ++ Call.claims reply, (s.take c).tasks ++ c.tasks reply⟩ := by
  rw [step, if_pos held, ok]

end Service

/-! ## Transactions that go through -/

namespace Db

variable {db : Db} {D : Digests} {now : Instant} {w : Uuid}

theorem firstByKey_eq_none {rows : List WorkItemRow} (h : firstByKey rows = none) : rows = [] := by
  cases rows with
  | nil => rfl
  | cons r rows =>
      unfold firstByKey at h
      split at h
      · cases h
      · split at h <;> cases h

theorem claimNext_enabled {attemptId : Uuid} {worker : String} {duration : Int}
    (running : ∃ v ∈ db.workflows, v.id = w ∧ v.status = .running)
    (off : db.killSwitchEnabled w = false) {r : WorkItemRow} (mem : r ∈ db.workItems)
    (flow : r.workflowId = w) (ready : r.status = .ready)
    (fresh : ∀ a ∈ db.attempts, a.id ≠ attemptId) :
    ∃ claim after, db.claimNext attemptId w worker duration now = .ok (some claim, after) := by
  obtain ⟨v, hv, rfl, status⟩ := running
  have found_ : db.workflows.get? v.id = some v := Table.get?_of_mem hv
  have still : r ∈ (db.refreshReadyItems v.id).readyItems v.id :=
    mem_readyItems.mpr ⟨mem_refreshReadyItems mem (by simp [ready]), flow, ready⟩
  cases first : firstByKey ((db.refreshReadyItems v.id).readyItems v.id) with
  | none =>
      rw [firstByKey_eq_none first] at still
      cases still
  | some row =>
      obtain ⟨attempts, inserted⟩ := Table.exists_insert? (t := db.attempts)
        (r := ⟨attemptId, row.id, worker, row.leaseFence + 1, .running, none, none, now, none⟩) fresh
      have same : ((db.refreshReadyItems v.id).setItem row.id (WorkItemRow.claim worker
        (now + duration) (row.leaseFence + 1))).attempts = db.attempts := rfl
      unfold claimNext requireWorkflow insertAttempt
      simp only [found_, found, status, off, first, same, inserted, admitted, bind, Except.bind, pure,
        Except.pure, not_true, if_false, ne_eq, Bool.false_eq_true]
      exact ⟨_, _, rfl⟩

theorem ensureEffect_stored {item : WorkItemRow} {e : EffectRow} {binding : EffectBinding}
    (bound : item.effect = some binding)
    (single : ∀ e ∈ db.effects, ∀ f ∈ db.effects, e.workItemId = f.workItemId → e = f)
    (mem : e ∈ db.effects) (owner : e.workItemId = item.id) :
    db.ensureEffect D item = .ok (e, db) := by
  have first : db.effects.rows.find? (fun f => decide (f.workItemId = item.id)) = some e := by
    obtain ⟨f, found⟩ := Option.isSome_iff_exists.mp
      (List.find?_isSome (p := fun f : EffectRow => decide (f.workItemId = item.id)).mpr
        ⟨e, mem, by simp [owner]⟩)
    have f_owner : f.workItemId = item.id := by simpa using List.find?_some found
    rw [found, single f (List.mem_of_find?_eq_some found) e mem (f_owner.trans owner.symm)]
  unfold ensureEffect
  simp only [bound, first, bind, Except.bind, pure, Except.pure]

/-- An effect is proposed when its keys are free and the budget has room for it. -/
theorem ensureEffect_enabled {item : WorkItemRow} {binding : EffectBinding} {p : Uuid} {a : BudgetRow}
    (bound : item.effect = some binding) (absent : ∀ e ∈ db.effects, e.workItemId ≠ item.id)
    (keys : ∀ e ∈ db.effects, e.id ≠ effectId D item.workflowId item.id ∧
      e.idempotencyKey ≠ idempotencyKey D item.workflowId item.id binding)
    (undrawn : ∀ r ∈ db.reservations, r.effectId ≠ effectId D item.workflowId item.id ∧
      r.id ≠ reservationId D (effectId D item.workflowId item.id))
    (project : db.projectOf item.workflowId = some p) (account : a ∈ db.budgets)
    (of_project : a.projectId = p) (room : (item.costUnits : Int) ≤ a.availableUnits) :
    ∃ e after, db.ensureEffect D item = .ok (e, after) := by
  subst of_project
  have none_ : db.effects.rows.find? (fun e => decide (e.workItemId = item.id)) = none := by
    simp only [List.find?_eq_none, decide_eq_true_eq]
    exact absent
  obtain ⟨effects, inserted⟩ := Table.exists_insert? (t := db.effects)
    (r := proposedEffect D item binding) fun e he => (keys e he).1
  obtain ⟨reservations, reserved⟩ := Table.exists_insert? (t := db.reservations)
    (r := ⟨reservationId D (proposedEffect D item binding).id, (proposedEffect D item binding).id,
      a.projectId, item.costUnits, .reserved⟩) fun r hr => (undrawn r hr).2
  have distinct : ¬ db.effects.rows.any (fun e =>
      decide (e.workItemId = (proposedEffect D item binding).workItemId) ||
        decide (e.idempotencyKey = (proposedEffect D item binding).idempotencyKey)) = true := by
    simp only [List.any_eq_true, Bool.or_eq_true, decide_eq_true_eq, not_exists, not_and, not_or]
    exact fun e he => ⟨absent e he, (keys e he).2⟩
  have open_ : ¬ db.reservations.rows.any (fun r =>
      decide (r.effectId = (proposedEffect D item binding).id)) = true := by
    simp only [List.any_eq_true, decide_eq_true_eq, not_exists, not_and]
    exact fun r hr => (undrawn r hr).1
  have same : ({ db with effects } : Db).projectOf item.workflowId = some a.projectId := project
  have budget_ : db.budgets.get? a.projectId = some a := Table.get?_of_mem account
  have within : ¬ (item.costUnits : Int) > a.availableUnits := by omega
  unfold ensureEffect insertEffect reserveBudget budget insertReservation
  simp only [bound, none_, if_neg distinct, inserted, same, budget_, if_neg within, if_neg open_,
    reserved, found, admitted, bind, Except.bind, pure, Except.pure]
  exact ⟨_, _, rfl⟩

theorem waitForApproval_enabled {claim : WorkClaim} {r : WorkItemRow} {e : Uuid}
    (current : db.Current claim r) : ∃ after, db.waitForApproval claim e now = .ok ((), after) := by
  unfold waitForApproval
  simp only [requireClaim_eq_ok.mpr current, bind, Except.bind, pure, Except.pure]
  exact ⟨_, rfl⟩

theorem settleBudget_enabled (db : Db) {e : Uuid} (sound : db.books.Sound)
    (open_ : ∀ r ∈ db.reservations, r.effectId = e → r.status ≠ .released) :
    ∃ after, db.settleBudget e = .ok after := by
  unfold settleBudget
  split
  · exact ⟨_, rfl⟩
  · rename_i r first
    have hr : r ∈ db.reservations := List.mem_of_find?_eq_some first
    have drawn : r.effectId = e := by simpa using List.find?_some first
    split
    · exact ⟨_, rfl⟩
    · rename_i unsettled
      have reserved : r.status = .reserved := by
        cases status : r.status with
        | reserved => rfl
        | settled => exact absurd status unsettled
        | released => exact absurd status (open_ r hr drawn)
      obtain ⟨a, ha, project⟩ := sound.funded r hr
      -- a reserved amount is part of the reserved units
      have enough : r.amountUnits ≤ a.reservedUnits := by
        rw [sound.reserved a ha]
        exact Table.le_total hr (by simp [project, reserved]) (·.amountUnits)
      have account : (db.setReservation r.id .settled).budgets.get? r.projectId = some a := by
        rw [← project]
        exact Table.get?_of_mem ha
      unfold debitReserved
      simp only [account, if_pos enough]
      exact ⟨_, rfl⟩

theorem executeEffect_enabled {effect : EffectRow} {item : WorkItemRow} (mem : effect ∈ db.effects)
    (once : effect.executionCount = 0) (item_mem : item ∈ db.workItems)
    (owner : item.id = effect.workItemId)
    (approved : item.requiresApproval = true →
      ∃ a, db.approvalOf effect.id = some a ∧ a.status = .approved)
    (sound : db.books.Sound)
    (open_ : ∀ r ∈ db.reservations, r.effectId = effect.id → r.status ≠ .released) :
    ∃ result after, db.executeEffect D effect.id now = .ok (result, after) := by
  have effect_ : db.effects.get? effect.id = some effect := Table.get?_of_mem mem
  have row_ : db.workItems.get? effect.workItemId = some item := by
    rw [← owner]
    exact Table.get?_of_mem item_mem
  unfold executeEffect requireEffect
  cases decision : db.approvalOf effect.id with
  | none =>
      have free : item.requiresApproval = false := by
        cases required : item.requiresApproval with
        | false => rfl
        | true =>
            obtain ⟨a, found, -⟩ := approved required
            rw [decision] at found
            cases found
      obtain ⟨after, settled⟩ := settleBudget_enabled (db.setEffect effect.id
        (EffectRow.execute (.obj (effectResult D effect.binding)))) (e := effect.id) sound open_
      simp only [effect_, row_, found, once, free, settled, bind, Except.bind, pure, Except.pure,
        not_true, if_false, ne_eq, Bool.false_eq_true, false_and]
      exact ⟨_, _, rfl⟩
  | some a =>
      have granted : ¬ (item.requiresApproval = true ∧
          ¬ (some a).any (fun a => decide (a.status = .approved)) = true) := by
        rintro ⟨required, unapproved⟩
        obtain ⟨b, found, status⟩ := approved required
        rw [decision] at found
        cases found
        exact unapproved (by simp [status])
      obtain ⟨after, settled⟩ := settleBudget_enabled ((db.setEffect effect.id
        (EffectRow.execute (.obj (effectResult D effect.binding)))).consumeApproval a.id now)
        (e := effect.id) sound open_
      simp only [effect_, row_, found, once, if_neg granted, settled, bind, Except.bind, pure,
        Except.pure, not_true, if_false, ne_eq]
      exact ⟨_, _, rfl⟩

/-- The ids that a completion draws are free. -/
structure Unused (db : Db) (ids : CompletionIds) : Prop where
  checkpoint : ∀ r ∈ db.checkpoints, r.id ≠ ids.checkpoint
  artifact : ∀ r ∈ db.artifacts, r.id ≠ ids.artifact
  lineage : ∀ r ∈ db.lineage, r.id ≠ ids.lineage
  conversation : ∀ r ∈ db.conversationEntries, r.id ≠ ids.conversation

theorem completeClaim_enabled {ids : CompletionIds} {claim : WorkClaim} {r : WorkItemRow}
    {result : Option (List (String × Json))} (current : db.Current claim r) (free : db.Unused ids) :
    ∃ after, db.completeClaim D ids claim result now = .ok ((), after) := by
  obtain ⟨checkpoints, checkpoint⟩ := Table.exists_insert? (t := db.checkpoints)
    (r := ⟨ids.checkpoint, claim.workflowId, r.id, "succeeded", now⟩) free.checkpoint
  obtain ⟨artifacts, artifact⟩ := Table.exists_insert? (t := db.artifacts)
    (r := ⟨ids.artifact, claim.workflowId, r.id, D.sha256 (completionOutput claim result).dumps,
      "application/json", completionOutput claim result, now⟩) free.artifact
  obtain ⟨lineage, line⟩ := Table.exists_insert? (t := db.lineage)
    (r := ⟨ids.lineage, claim.workflowId, "attempt", claim.attemptId, "artifact", ids.artifact, now⟩)
    free.lineage
  obtain ⟨entries, entry⟩ := Table.exists_insert? (t := db.conversationEntries)
    (r := ⟨ids.conversation, claim.workflowId, r.id, "assistant", "Completed " ++ r.itemKey, now⟩)
    free.conversation
  unfold completeClaim recordCompletion insertCheckpoint insertArtifact insertLineage
    insertConversation setItem setAttempt
  simp only [requireClaim_eq_ok.mpr current, checkpoint, artifact, line, entry, admitted, bind,
    Except.bind, pure, Except.pure]
  exact ⟨_, rfl⟩

theorem approveEffect_enabled {effect : EffectRow} {approvalId : Uuid} {actor : String}
    (mem : effect ∈ db.effects) (first : db.approvalOf effect.id = none)
    (fresh : ∀ a ∈ db.approvals, a.id ≠ approvalId) :
    ∃ row after, db.approveEffect approvalId effect.id actor now = .ok (row, after) := by
  obtain ⟨approvals, inserted⟩ := Table.exists_insert? (t := db.approvals)
    (r := ⟨approvalId, effect.id, actor, .approved, now, none⟩) fresh
  have effect_ : db.effects.get? effect.id = some effect := Table.get?_of_mem mem
  have free : ¬ db.approvals.rows.any (fun a => decide (a.effectId = effect.id)) = true := by
    simpa [approvalOf] using first
  unfold approveEffect requireEffect insertApproval
  simp only [effect_, first, if_neg free, inserted, found, admitted, bind, Except.bind, pure,
    Except.pure]
  exact ⟨_, _, rfl⟩

theorem recoverWorkflow_enabled {v : WorkflowRow} (mem : v ∈ db.workflows) :
    ∃ n after, db.recoverWorkflow v.id now = .ok (n, after) := by
  have workflow_ : db.workflows.get? v.id = some v := Table.get?_of_mem mem
  unfold recoverWorkflow requireWorkflow
  simp only [workflow_, found, bind, Except.bind, pure, Except.pure]
  exact ⟨_, _, rfl⟩

end Db

end Corvus.Mvp
