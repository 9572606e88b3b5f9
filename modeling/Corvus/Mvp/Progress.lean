import Corvus.Mvp.Recovery

/-!
# Progress of one worker

Between two rounds of the recovery the item is ready or waits. A worker that takes
another item leaves this one as it is and one item less to take; a worker that takes
this one executes its effect and completes it, or leaves it waiting for an approval.
-/

namespace Corvus.Mvp

open Db Service

/-! ## The transactions of a task -/

/-- The transactions of `run_next` after its claim. -/
def Transaction.works : Transaction → Bool
  | readItem .. | completeClaim .. | ensureEffect .. | waitForApproval .. | executeEffect .. => true
  | _ => false

section Task

variable {D : Digests} {s : Service} {task : Task} {ids : CompletionIds} {now : Instant}

theorem Task.next_works (task : Task) (ids : CompletionIds) (now : Instant) :
    (task.next ids now).works = true := by
  unfold Task.next
  split
  · rfl
  · split <;> rfl
  · split <;> rfl
  · rfl

theorem Transaction.drives_of_works {t : Transaction} (h : t.works = true) : t.drives = true := by
  cases t <;> first | rfl | cases h

theorem Task.next_executeEffect {e : Uuid} {at_ : Instant}
    (h : task.next ids now = .executeEffect e at_) :
    ∃ claim item effect, task = .proposed claim item effect ∧ effect.id = e := by
  unfold Task.next at h
  split at h
  · cases h
  · split at h <;> cases h
  · split at h
    · cases h
    · cases h
      exact ⟨_, _, _, rfl, rfl⟩
  · cases h

/-- The item of a task, in the workflow that its claim names. -/
theorem task_item (int : Integrity D s) (mem : task ∈ s.tasks) :
    ∃ r ∈ s.db.workItems, r.id = task.claim.workItemId ∧ r.workflowId = task.claim.workflowId := by
  obtain ⟨r, hr, id, flow, -⟩ := (int.claims _ (int.tasks task mem).1).item
  exact ⟨r, hr, id, flow⟩

theorem task_proposes (int : Integrity D s) (mem : task ∈ s.tasks) {item : WorkItemRow}
    (call : task.next ids now = .ensureEffect item) :
    item.id = task.claim.workItemId ∧ item.workflowId = task.claim.workflowId ∧
      ∃ r ∈ s.db.workItems, SameDefinition r item := by
  obtain ⟨q, hq, q_id, q_flow⟩ := task_item int mem
  obtain ⟨claim, rfl⟩ := Task.next_ensureEffect call
  obtain ⟨-, id, r, hr, same⟩ := int.tasks _ mem
  obtain rfl := Table.eq_of_key hr hq (same.id.symm.trans (id.trans q_id.symm))
  exact ⟨id, same.workflowId.trans q_flow, r, hr, same⟩

theorem task_executes (int : Integrity D s) (mem : task ∈ s.tasks) {e : EffectRow} {at_ : Instant}
    (he : e ∈ s.db.effects) (call : task.next ids now = .executeEffect e.id at_) :
    e.workItemId = task.claim.workItemId ∧ e.workflowId = task.claim.workflowId := by
  obtain ⟨q, hq, q_id, q_flow⟩ := task_item int mem
  obtain ⟨claim, item, effect, rfl, id⟩ := Task.next_executeEffect call
  obtain ⟨-, owner, -, f, hf, same, of_item⟩ := int.tasks _ mem
  obtain rfl := Table.eq_of_key hf he (same.id.symm.trans id)
  obtain ⟨r, hr, r_id, flow, -⟩ := int.effects f hf
  have of_claim : f.workItemId = claim.workItemId := of_item.trans owner
  obtain rfl := Table.eq_of_key hr hq (r_id.trans (of_claim.trans q_id.symm))
  exact ⟨of_claim, flow.symm.trans q_flow⟩

/-- A task leaves the items of others alone, but for pending ones, which it may make ready. -/
theorem works_move {db after : Db} {r r' : WorkItemRow}
    (m : ItemMove db after (task.next ids now) r r') (other : r.id ≠ task.claim.workItemId) :
    r' = r ∨ r.status = .pending := by
  have works := task.next_works ids now
  cases m with
  | keep => exact .inl rfl
  | refresh pending => exact .inr pending
  | complete call current =>
      rw [Task.next_completeClaim call] at other
      exact absurd current.id other
  | await call current =>
      obtain ⟨item, effect, rfl, -⟩ := Task.next_waitForApproval call
      exact absurd current.id other
  | claim call | renew call | fail call | retry call | recover call | approve call
  | reject call | cancel call =>
      rw [call] at works
      cases works

/-- A completion ends the workflow of its claim only when all its items have succeeded. -/
theorem works_workflows {db after : Db} {reply : Reply}
    (h : (task.next ids now).run D db = .ok (reply, after)) {r : WorkItemRow}
    (mem : r ∈ after.workItems) (flow : r.workflowId = task.claim.workflowId)
    (unfinished : r.status ≠ .succeeded) : after.workflows = db.workflows := by
  by_cases completes : ∃ ids' claim result at_, task.next ids now = .completeClaim ids' claim result at_
  · obtain ⟨ids', claim, result, at_, call⟩ := completes
    rw [Task.next_completeClaim call] at flow
    rw [call] at h
    obtain ⟨⟨_, _⟩, ok, eq⟩ := map_ok h
    cases eq
    obtain ⟨row, workflows, workItems, _, _, _, _, _, -, -, -, ⟨-, same⟩ | ⟨done, -⟩, rfl⟩ :=
      completeClaim_ok ok
    · exact same
    · exact absurd (done r mem flow) unfinished
  · refine (run_frame h).workflows.resolve_left ?_
    have works := task.next_works ids now
    generalize task.next ids now = t at works completes
    cases t with
    | completeClaim ids' claim result at_ => exact absurd ⟨ids', claim, result, at_, rfl⟩ completes
    | _ => simp [Transaction.writes, Transaction.works] at works ⊢

end Task

/-! ## The state between two rounds -/

/-- The item may still be claimed. -/
def WorkItemRow.Open (r : WorkItemRow) : Prop := r.status = .pending ∨ r.status = .ready

/-- Every other item of the workflow that may still be claimed is in the list. -/
def Listed (i : WorkItemRow) (db : Db) (left : List Uuid) : Prop :=
  ∀ q ∈ db.workItems, q.workflowId = i.workflowId → q.id ≠ i.id → q.Open → q.id ∈ left

/-- The effect of the item needs no decision any more. -/
def Decided (i : WorkItemRow) (db : Db) : Prop :=
  i.requiresApproval = true → ∃ e ∈ db.effects, e.workItemId = i.id ∧ e.approvalId ≠ none

structure Underway (D : Digests) (i : WorkItemRow) (s : Service) : Prop where
  integrity : Integrity D s
  decisions : Decisions s
  drawn : s.db.Drawn
  passable : Passable D i s.db

/-- The row `r` of the item is stored, and the others that may be claimed are listed. -/
structure Resting (D : Digests) (i r : WorkItemRow) (left : List Uuid) (decided : Prop)
    (s : Service) : Prop extends Underway D i s where
  mem : r ∈ s.db.workItems
  listed : Listed i s.db left
  decided : decided → Decided i s.db

section Step

variable {D : Digests} {i r : WorkItemRow} {s : Service} {c : Call} {reply : Reply} {db : Db}
  {left : List Uuid} {decided : Prop}

theorem decided_kept (h : c.transaction.run D s.db = .ok (reply, db)) (d : Decided i s.db) :
    Decided i db := by
  intro required
  obtain ⟨e, he, owner, set⟩ := d required
  obtain ⟨f, hf, m⟩ := (transact_effects h).forth e he
  refine ⟨f, hf, m.sameProposal.workItemId.trans owner, ?_⟩
  cases m with
  | keep => exact set
  | approve => exact Option.some_ne_none _
  | reject => exact Option.some_ne_none _
  | execute => exact set

theorem Underway.stepped (u : Underway D i s)
    (aside : ∀ reply db, c.held s = true → c.transaction.run D s.db = .ok (reply, db) →
      Aside i s.db db c.transaction) : Underway D i (Service.step D s c) where
  integrity := u.integrity.step c
  decisions := u.decisions.step u.integrity c
  drawn := Service.step_db u.drawn fun _ _ _ ok => u.drawn.kept ok
  passable := Service.step_db u.passable fun reply db held ok =>
    u.passable.kept ok (aside reply db held ok)

/-- A transaction of a task on another item of the workflow. -/
theorem Resting.other {task : Task} {ids : CompletionIds} {now : Instant}
    (h : Resting D i r left decided s) (own : SameDefinition i r) (ready : r.status = .ready)
    (flow : task.claim.workflowId = i.workflowId) (other : task.claim.workItemId ≠ i.id) :
    Resting D i r left decided (Service.step D s (.resume task ids now)) := by
  have works := task.next_works ids now
  have stays : ∀ reply db, (task.next ids now).run D s.db = .ok (reply, db) → r ∈ db.workItems := by
    intro reply db ok
    obtain ⟨r', hr', m⟩ := (transact_items ok).forth r h.mem
    rcases works_move m fun same => other (same.symm.trans own.id) with rfl | pending
    · exact hr'
    · rw [ready] at pending
      cases pending
  have underway : Underway D i (Service.step D s (.resume task ids now)) := by
    refine h.toUnderway.stepped fun reply db held ok => ?_
    have mem := of_decide_eq_true held
    refine ⟨Transaction.drives_of_works works, ?_, fun item call => ?_, fun e he at_ call => ?_⟩
    · refine works_workflows ok (stays reply db ok) (own.workflowId.trans flow.symm) ?_
      rw [ready]
      nofun
    · obtain ⟨-, in_flow, stored⟩ := task_proposes h.integrity mem call
      exact ⟨in_flow.trans flow, stored⟩
    · obtain ⟨of_claim, in_flow⟩ := task_executes h.integrity mem he call
      exact ⟨in_flow.trans flow, fun same => other (of_claim.symm.trans same)⟩
  refine ⟨underway, ?_, ?_, fun d => ?_⟩
  · exact Service.step_db (P := fun db => r ∈ db.workItems) h.mem fun reply db _ ok => stays reply db ok
  · refine Service.step_db (P := fun db => Listed i db left) h.listed fun reply db _ ok => ?_
    intro q' hq' q_flow q_other open_
    obtain ⟨q, hq, m⟩ | ⟨_, _, _, _, _, _, -, call, -⟩ := (transact_items ok).back q' hq'
    · have same := m.sameDefinition
      rw [same.id] at q_other ⊢
      refine h.listed q hq (same.workflowId.symm.trans q_flow) q_other ?_
      have works := task.next_works ids now
      cases m with
      | keep => exact open_
      | refresh pending => exact .inl pending
      | complete call current => rcases open_ with h | h <;> cases h
      | await call current => rcases open_ with h | h <;> cases h
      | claim call | renew call | fail call | retry call | recover call | approve call
      | reject call | cancel call =>
        rw [show (Call.resume task ids now).transaction = task.next ids now from rfl] at call
        rw [call] at works
        cases works
    · rw [show (Call.resume task ids now).transaction = task.next ids now from rfl] at call
      rw [call] at works
      cases works
  · exact Service.step_db (P := fun db => Decided i db) (h.decided d) fun reply db _ ok =>
      decided_kept ok (h.decided d)

end Step

/-! ## The claim of a round -/

section Claim

variable {D : Digests} {i r : WorkItemRow} {s : Service} {db after : Db} {draw : Draw}
  {left : List Uuid} {decided : Prop} {claim : WorkClaim} {worker : String} {lease : Int}

/-- A claim takes one open item, and the others stay as they are or become ready. -/
theorem claim_rows {attemptId w : Uuid} {now : Instant}
    (h : db.claimNext attemptId w worker lease now = .ok (some claim, after)) :
    ∃ r ∈ db.workItems, r.Open ∧ r.workflowId = w ∧ r.id = claim.workItemId ∧
      claim.workflowId = w ∧ (∃ r', SameDefinition r r' ∧ after.Current claim r') ∧
      (∀ q ∈ db.workItems, q.status ≠ .pending → q.id ≠ r.id → q ∈ after.workItems) ∧
      ∀ q' ∈ after.workItems, q'.Open →
        q'.id ≠ r.id ∧ ∃ q ∈ db.workItems, SameDefinition q q' ∧ q.Open := by
  obtain ⟨r, hr, attempts, flow, same, ready, -, -, claimed, -, -⟩ := claimNext_claimed h
  obtain ⟨workflow, -, ⟨-, ⟨⟩, -⟩ | ⟨-, -, -, ⟨⟩, -⟩ |
    ⟨row, attempts', events, -, -, -, same', -, rfl⟩⟩ := claimNext_ok h
  subst same
  have id : row.id = r.id := (congrArg WorkClaim.workItemId (Option.some.inj same')).symm
  rw [id] at claimed ⊢
  refine ⟨r, hr, ?_, flow, rfl, rfl, ⟨WorkItemRow.claim worker (now + lease) (r.leaseFence + 1) r,
    ⟨rfl, rfl, rfl, rfl, rfl, rfl, rfl⟩, claimed, rfl, rfl, rfl, rfl⟩,
    fun q hq started other => ?_, fun q' hq' open_ => ?_⟩
  · rcases ready with ready | ⟨pending, -⟩
    · exact .inr ready
    · exact .inl pending
  · have kept := mem_refreshReadyItems (w := w) hq started
    obtain ⟨q', hq', ⟨-, rfl⟩ | ⟨hit, -⟩⟩ := (setItem_evolves (db.refreshReadyItems w) r.id
      (WorkItemRow.claim worker (now + lease) (row.leaseFence + 1))).forth q kept
    · exact hq'
    · exact absurd hit other
  · rcases Table.of_mem_update hq' with ⟨mid, other⟩ | ⟨p, -, -, rfl⟩
    · refine ⟨of_decide_eq_false other, ?_⟩
      obtain ⟨q, hq, rfl | ⟨-, pending, -, rfl⟩⟩ :=
        ((refreshReadyItems_evolves db w).back q' mid).resolve_right fun none => none
      · exact ⟨q', hq, .refl q', open_⟩
      · exact ⟨q, hq, ⟨rfl, rfl, rfl, rfl, rfl, rfl, rfl⟩, .inl pending⟩
    · rcases open_ with h | h <;> cases h

/-- A transaction of the recovery that completes and executes nothing. -/
theorem aside_of_frame {t : Transaction} {reply : Reply} (h : t.run D db = .ok (reply, after))
    (drives : t.drives = true)
    (completes : ∀ ids claim result now, t ≠ .completeClaim ids claim result now)
    (executes : ∀ e now, t ≠ .executeEffect e now)
    (proposes : ∀ item, t = .ensureEffect item → item.workflowId = i.workflowId ∧
      ∃ r ∈ db.workItems, SameDefinition r item) : Aside i db after t where
  drives := drives
  workflows := by
    refine (run_frame h).workflows.resolve_left ?_
    cases t with
    | completeClaim ids claim result now => exact absurd rfl (completes ids claim result now)
    | _ => simp [Transaction.writes, Transaction.drives] at drives ⊢
  proposes := proposes
  executes e _ now call := absurd call (executes e.id now)

/-- What a worker on this item holds between two transactions. -/
structure Owning (D : Digests) (i r : WorkItemRow) (left : List Uuid) (decided : Prop)
    (claim : WorkClaim) (task : Task) (s : Service) : Prop extends Underway D i s where
  current : s.db.Current claim r
  listed : Listed i s.db left
  decided : decided → Decided i s.db
  held : task ∈ s.tasks

theorem Underway.claimed (u : Underway D i s)
    (ok : s.db.claimNext draw.attempt i.workflowId worker lease (draw.clock 5) =
      .ok (some claim, db)) :
    Underway D i (step D s (draw.claiming i.workflowId worker lease)) ∧
      (step D s (draw.claiming i.workflowId worker lease)).db = db ∧
      .claimed claim ∈ (step D s (draw.claiming i.workflowId worker lease)).tasks := by
  have run : (draw.claiming i.workflowId worker lease).transaction.run D s.db =
      .ok (.claimed claim, db) := by
    change (_ <$> s.db.claimNext _ _ _ _ _) = _
    rw [ok]
    rfl
  refine ⟨u.stepped fun reply db _ ok => aside_of_frame ok rfl ?_ ?_ ?_, ?_, ?_⟩
  · simp [Draw.claiming, Call.transaction]
  · simp [Draw.claiming, Call.transaction]
  · simp [Draw.claiming, Call.transaction]
  · rw [step_ok rfl run]
  · rw [step_ok rfl run]
    exact List.mem_append_right _ (List.mem_singleton.mpr rfl)

theorem Resting.claim_other (h : Resting D i r left decided s) (own : SameDefinition i r)
    (ready : r.status = .ready)
    (ok : s.db.claimNext draw.attempt i.workflowId worker lease (draw.clock 5) =
      .ok (some claim, db)) (other : claim.workItemId ≠ i.id) :
    claim.workItemId ∈ left ∧ claim.workflowId = i.workflowId ∧
      Resting D i r (left.erase claim.workItemId) decided
        (step D s (draw.claiming i.workflowId worker lease)) := by
  obtain ⟨q, hq, open_, flow, id, in_flow, -, kept, rest⟩ := claim_rows ok
  obtain ⟨underway, same, -⟩ := h.toUnderway.claimed ok
  rw [← id] at other ⊢
  refine ⟨h.listed q hq flow other open_, in_flow, underway, ?_, ?_, fun d => ?_⟩
  · rw [same]
    refine kept r h.mem ?_ fun same => other (same.symm.trans own.id)
    rw [ready]
    nofun
  · rw [same]
    intro p hp p_flow p_other p_open
    obtain ⟨p_id, p', hp', def_, open'⟩ := rest p hp p_open
    refine (List.mem_erase_of_ne p_id).mpr ?_
    rw [def_.id] at p_other ⊢
    exact h.listed p' hp' (def_.workflowId.symm.trans p_flow) p_other open'
  · exact Service.step_db (P := fun db => Decided i db) (h.decided d) fun reply db _ ok =>
      decided_kept ok (h.decided d)

theorem Resting.claim_own (h : Resting D i r left decided s) (own : SameDefinition i r)
    (ok : s.db.claimNext draw.attempt i.workflowId worker lease (draw.clock 5) =
      .ok (some claim, db)) (mine : claim.workItemId = i.id) :
    claim.workflowId = i.workflowId ∧ ∃ r', SameDefinition i r' ∧
      Owning D i r' left decided claim (.claimed claim)
        (step D s (draw.claiming i.workflowId worker lease)) := by
  obtain ⟨q, hq, open_, flow, id, in_flow, ⟨r', def_, current⟩, -, rest⟩ := claim_rows ok
  obtain ⟨underway, same, held⟩ := h.toUnderway.claimed ok
  obtain rfl := Table.eq_of_key hq h.mem (id.trans (mine.trans own.id.symm))
  refine ⟨in_flow, r', own.trans def_, underway, ?_, ?_, fun d => ?_, held⟩
  · rw [same]
    exact current
  · rw [same]
    intro p hp p_flow p_other p_open
    obtain ⟨-, p', hp', def', open'⟩ := rest p hp p_open
    rw [def'.id] at p_other ⊢
    exact h.listed p' hp' (def'.workflowId.symm.trans p_flow) p_other open'
  · exact Service.step_db (P := fun db => Decided i db) (h.decided d) fun reply db _ ok =>
      decided_kept ok (h.decided d)

end Claim

/-! ## The item itself -/

section Own

variable {D : Digests} {i r : WorkItemRow} {s : Service} {db : Db} {draw : Draw} {task next : Task}
  {left : List Uuid} {decided : Prop} {claim : WorkClaim} {reply : Reply} {e : EffectRow} {after : Db}

theorem Draw.held_call (draw : Draw) (mem : task ∈ s.tasks) : (draw.call task).held s = true :=
  decide_eq_true mem

theorem Owning.run (o : Owning D i r left decided claim task s)
    (ok : (draw.call task).transaction.run D s.db = .ok (reply, db)) :
    (step D s (draw.call task)).db = db ∧
      ∀ next, task.after reply = some next → next ∈ (step D s (draw.call task)).tasks := by
  rw [step_ok (draw.held_call o.held) ok]
  refine ⟨rfl, fun next after => List.mem_append_right _ ?_⟩
  exact Option.mem_toList.mpr after

/-- A transaction that only reads the item, or proposes its effect. -/
theorem Owning.onward (o : Owning D i r left decided claim task s)
    (flow : task.claim.workflowId = i.workflowId)
    (ok : (draw.call task).transaction.run D s.db = .ok (reply, db))
    (after : task.after reply = some next)
    (reads : (∃ id, (draw.call task).transaction = .readItem id) ∨
      ∃ item, (draw.call task).transaction = .ensureEffect item) :
    Owning D i r left decided claim next (step D s (draw.call task)) := by
  obtain ⟨same, held⟩ := o.run ok
  have items : db.workItems = s.db.workItems := by
    refine (run_frame ok).workItems.resolve_left ?_
    rcases reads with ⟨id, call⟩ | ⟨item, call⟩ <;> simp [call, Transaction.writes]
  refine ⟨o.toUnderway.stepped fun reply db mem ok => ?_, ?_, ?_, fun d => ?_, held next after⟩
  · refine aside_of_frame ok (Transaction.drives_of_works (task.next_works _ _)) ?_ ?_ fun item call => ?_
    · rcases reads with ⟨id, call⟩ | ⟨item, call⟩ <;> simp [call]
    · rcases reads with ⟨id, call⟩ | ⟨item, call⟩ <;> simp [call]
    · obtain ⟨-, in_flow, stored⟩ := task_proposes o.integrity (of_decide_eq_true mem) call
      exact ⟨in_flow.trans flow, stored⟩
  · rw [same]
    obtain ⟨mem, id, fence, owner, running⟩ := o.current
    exact ⟨items ▸ mem, id, fence, owner, running⟩
  · rw [same, Listed, items]
    exact o.listed
  · rw [same]
    exact decided_kept ok (o.decided d)

theorem Owning.read (o : Owning D i r left decided claim (.claimed claim) s)
    (flow : claim.workflowId = i.workflowId) :
    follow D draw 4 (.claimed claim) s =
        follow D draw 3 (.holding claim r) (step D s (draw.call (.claimed claim))) ∧
      (step D s (draw.call (.claimed claim))).db = s.db ∧
      Owning D i r left decided claim (.holding claim r) (step D s (draw.call (.claimed claim))) := by
  have ok : (draw.call (.claimed claim)).transaction.run D s.db = .ok (.item r, s.db) := by
    change _ <$> found _ (s.db.workItems.get? claim.workItemId) = _
    rw [Table.get?_eq_some.mpr ⟨o.current.mem, o.current.id⟩]
    rfl
  exact ⟨follow_next ok rfl, (o.run ok).1, o.onward flow ok rfl (.inl ⟨_, rfl⟩)⟩

theorem Owning.propose (o : Owning D i r left decided claim (.holding claim r) s)
    (own : SameDefinition i r) (flow : claim.workflowId = i.workflowId) (bound : i.effect ≠ none)
    (undigested : Undigested D i s.db) :
    ∃ e, follow D draw 3 (.holding claim r) s =
        follow D draw 2 (.proposed claim r e) (step D s (draw.call (.holding claim r))) ∧
      Owning D i r left decided claim (.proposed claim r e)
        (step D s (draw.call (.holding claim r))) ∧
      (∀ ids, s.db.Unused ids → (step D s (draw.call (.holding claim r))).db.Unused ids) ∧
      e ∈ (step D s (draw.call (.holding claim r))).db.effects ∧ e.workItemId = i.id := by
  obtain ⟨binding, has⟩ := Option.ne_none_iff_exists'.mp bound
  have r_has : r.effect = some binding := own.effect.trans has
  -- the effect is stored already, or there is room for it
  obtain ⟨e, db, ensured⟩ : ∃ e db, s.db.ensureEffect D r = .ok (e, db) := by
    by_cases stored : ∃ e ∈ s.db.effects, e.workItemId = r.id
    · obtain ⟨e, he, owner⟩ := stored
      exact ⟨e, s.db, ensureEffect_stored r_has o.integrity.single he owner⟩
    · have absent : ∀ e ∈ s.db.effects, e.workItemId ≠ r.id := fun e he owner => stored ⟨e, he, owner⟩
      rcases o.passable.room with ⟨e, he, owner⟩ | ⟨p, a, ha, project, of_project, left, fits, covers⟩
      · exact absurd (owner.trans own.id.symm) (absent e he)
      · have listed := covers r o.current.mem own.workflowId (own.effect ▸ bound) absent
        have cost : r.costUnits ≤ (left.map Prod.snd).sum :=
          List.single_le_sum (by simp) _ (List.mem_map.mpr ⟨_, listed, rfl⟩)
        refine ensureEffect_enabled r_has absent (fun e he => ?_) (fun q hq => ?_)
          (own.workflowId ▸ project) ha of_project (by omega)
        · rw [own.workflowId, own.id]
          obtain ⟨id, key_⟩ := undigested.effect e he (own.id ▸ absent e he)
          exact ⟨id, key_ binding has⟩
        · have other : q.effectId ≠ effectId D r.workflowId r.id := by
            intro same
            obtain ⟨e, he, id⟩ := o.drawn q hq
            refine (undigested.effect e he (own.id ▸ absent e he)).1 ?_
            rw [id, same, own.workflowId, own.id]
          refine ⟨other, ?_⟩
          rw [own.workflowId, own.id] at other ⊢
          exact undigested.reservation q hq other
  have reads : (draw.call (.holding claim r)).transaction = .ensureEffect r := by
    simp only [Draw.call, Call.transaction, Task.next, r_has]
  have ok : (draw.call (.holding claim r)).transaction.run D s.db = .ok (.effect e, db) := by
    rw [reads]
    change _ <$> s.db.ensureEffect D r = _
    rw [ensured]
    rfl
  obtain ⟨same, -⟩ := o.run ok
  obtain ⟨item, call, mem, owner⟩ := run_effect ok
  refine ⟨e, follow_next ok rfl, o.onward flow ok rfl (.inr ⟨_, reads⟩), fun ids unused => ?_, ?_, ?_⟩
  · rw [same]
    refine unused.kept ok ?_
    simp [reads]
  · rw [same]
    exact mem
  · rw [reads] at call
    cases call
    exact owner.trans own.id

/-- An item that needs a decision on its effect, and has none, waits for it. -/
theorem Owning.wait (o : Owning D i r left decided claim (.proposed claim r e) s)
    (own : SameDefinition i r) (required : r.requiresApproval = true) (undecided : e.approvalId = none) :
    ∃ r', SameDefinition i r' ∧ r'.status = .waitingApproval ∧
      Resting D i r' left False (follow D draw 2 (.proposed claim r e) s) := by
  have waits : (draw.call (.proposed claim r e)).transaction =
      .waitForApproval claim e.id (draw.clock 2) := by
    simp only [Draw.call, Call.transaction, Task.next, Task.stages, required, undecided, and_self,
      if_true]
  obtain ⟨db, waited⟩ := @waitForApproval_enabled _ (draw.clock 2) _ _ e.id o.current
  have ok : (draw.call (.proposed claim r e)).transaction.run D s.db = .ok (.done, db) := by
    rw [waits]
    change _ <$> s.db.waitForApproval _ _ _ = _
    rw [waited]
    rfl
  obtain ⟨same, -⟩ := o.run ok
  rw [follow_last ok rfl]
  obtain ⟨row, events, -, rfl⟩ := waitForApproval_ok waited
  have moved := Table.mem_update_of_mem (p := fun q => decide (q.id = claim.workItemId))
    (f := WorkItemRow.await) o.current.mem
  rw [if_pos (decide_eq_true o.current.id)] at moved
  refine ⟨WorkItemRow.await r, own.trans ⟨rfl, rfl, rfl, rfl, rfl, rfl, rfl⟩, rfl, ?_, ?_, ?_, False.elim⟩
  · refine o.toUnderway.stepped fun reply db _ ok => aside_of_frame ok ?_ ?_ ?_ ?_
    all_goals simp [waits, Transaction.drives]
  · rw [same]
    exact moved
  · rw [same]
    intro q' hq' flow other open_
    rcases Table.of_mem_update hq' with ⟨old, -⟩ | ⟨q, -, -, rfl⟩
    · exact o.listed q' old flow other open_
    · rcases open_ with h | h <;> cases h

theorem executeEffect_stores {now : Instant} {result : List (String × Json)} (mem : e ∈ db.effects)
    (h : db.executeEffect D e.id now = .ok (result, after)) :
    result = effectResult D e.binding ∧ after.workItems = db.workItems ∧
      EffectRow.execute (.obj result) e ∈ after.effects := by
  obtain ⟨f, hf, item, -, approvals, mid, settled, events, id, -, -, -, rfl, -, rfl, -, rfl⟩ :=
    executeEffect_ok h
  obtain rfl := Table.eq_of_key hf mem id
  have moved := Table.mem_update_of_mem (p := fun g => decide (g.id = f.id))
    (f := EffectRow.execute (.obj (effectResult D f.binding))) mem
  rw [if_pos (decide_eq_true rfl)] at moved
  exact ⟨rfl, rfl, moved⟩

theorem Db.Current.of_items (current : db.Current claim r) (items : after.workItems = db.workItems) :
    after.Current claim r := by
  obtain ⟨mem, id, fence, owner, running⟩ := current
  exact ⟨items ▸ mem, id, fence, owner, running⟩

/-- The last two transactions execute the effect and complete the item. -/
theorem Owning.execute (o : Owning D i r left decided claim (.proposed claim r e) s)
    (own : SameDefinition i r) (mem : e ∈ s.db.effects) (owner : e.workItemId = i.id)
    (unused : s.db.Unused draw.completion)
    (passes : ¬ (r.requiresApproval = true ∧ e.approvalId = none)) :
    Completed D i (follow D draw 2 (.proposed claim r e) s).db := by
  have executes : (draw.call (.proposed claim r e)).transaction =
      .executeEffect e.id (draw.clock 2) := by
    simp only [Draw.call, Call.transaction, Task.next, Task.stages, if_neg passes]
  obtain ⟨q, hq, q_id, flow, -, key⟩ := o.integrity.effects e mem
  have same : SameDefinition q r := by
    rw [Table.eq_of_key hq o.current.mem (q_id.trans (owner.trans own.id.symm))]
    exact .refl r
  have in_flow : e.workflowId = i.workflowId :=
    flow.symm.trans (same.workflowId.symm.trans own.workflowId)
  -- the decision on the effect is an approval
  have approved : r.requiresApproval = true →
      ∃ a, s.db.approvalOf e.id = some a ∧ a.status = .approved := by
    intro required
    have set : e.approvalId ≠ none := fun undecided => passes ⟨required, undecided⟩
    obtain ⟨a, found⟩ := Option.ne_none_iff_exists'.mp fun none_ =>
      set ((o.decisions.recorded e mem).mpr none_)
    obtain ⟨ha, of_effect⟩ := approvalOf_eq_some found
    refine ⟨a, found, o.passable.approved (own.requiresApproval.symm.trans required) a ha ?_⟩
    rw [of_effect, key, flow, q_id, in_flow, owner]
  obtain ⟨result, db, executed⟩ := @executeEffect_enabled _ D (draw.clock 2) _ _ mem
    (o.passable.unexecuted e mem owner) o.current.mem (own.id.trans owner.symm) approved
    o.passable.sound (o.passable.unreleased e mem in_flow)
  have ok : (draw.call (.proposed claim r e)).transaction.run D s.db = .ok (.result result, db) := by
    rw [executes]
    change _ <$> s.db.executeEffect _ _ _ = _
    rw [executed]
    rfl
  obtain ⟨stored, held⟩ := o.run ok
  have held := held (.executed claim result) rfl
  have free : db.Unused draw.completion := unused.kept ok (by simp [executes])
  obtain ⟨rfl, items, moved⟩ := executeEffect_stores mem executed
  rw [follow_next ok rfl]
  generalize step D s (draw.call (.proposed claim r e)) = s' at stored held
  subst stored
  have current := o.current.of_items items
  obtain ⟨db', completed⟩ := @completeClaim_enabled _ D (draw.clock 1) _ _ _
    (some (effectResult D e.binding)) current free
  have ok' : (draw.call (.executed claim (effectResult D e.binding))).transaction.run D s'.db =
      .ok (.done, db') := by
    change _ <$> s'.db.completeClaim _ _ _ _ (draw.clock 1) = _
    rw [completed]
    rfl
  have effects : db'.effects = s'.db.effects := by
    refine (run_frame ok').effects.resolve_left ?_
    simp [Draw.call, Call.transaction, Task.next, Transaction.writes]
  rw [follow_last ok' rfl, step_ok (draw.held_call held) ok']
  exact ⟨_, completeClaim_succeeds ok' current, own.id, rfl,
    EffectRow.execute (.obj (effectResult D e.binding)) e, effects.symm ▸ moved, owner, rfl, rfl, rfl⟩

/-- A worker completes the item, or leaves it waiting while nothing is decided. -/
theorem Owning.finish (o : Owning D i r left decided claim (.claimed claim) s)
    (own : SameDefinition i r) (flow : claim.workflowId = i.workflowId) (bound : i.effect ≠ none)
    (undigested : Undigested D i s.db) (unused : s.db.Unused draw.completion) :
    Completed D i (follow D draw 4 (.claimed claim) s).db ∨
      ¬ decided ∧ ∃ r', SameDefinition i r' ∧ r'.status = .waitingApproval ∧
        Resting D i r' left False (follow D draw 4 (.claimed claim) s) := by
  obtain ⟨read, same, o⟩ := @Owning.read _ _ _ _ draw _ _ _ o flow
  rw [read]
  rw [← same] at undigested unused
  obtain ⟨e, proposed, o, kept, mem, owner⟩ :=
    @Owning.propose _ _ _ _ draw _ _ _ o own flow bound undigested
  rw [proposed]
  by_cases waits : r.requiresApproval = true ∧ e.approvalId = none
  · refine .inr ⟨fun d => ?_, o.wait own waits.1 waits.2⟩
    obtain ⟨f, hf, of_item, set⟩ := o.decided d (own.requiresApproval.symm.trans waits.1)
    rw [o.integrity.single f hf e mem (of_item.trans owner.symm)] at set
    exact set waits.2
  · exact .inl (o.execute own mem owner (kept _ unused) waits)

end Own

end Corvus.Mvp
