import Corvus.Mvp.Moves

/-!
# Referential integrity of every reachable state

Facts about keys and references between the tables, the claims and the tasks that
hold in every state of every run, whatever the calls are. Each field is kept by a
committed transaction because rows keep their definition and nothing is deleted.
-/

namespace Corvus.Mvp

open Db

/-- A claim that `claim_next` handed out: its attempt and its item are stored. -/
structure Issued (db : Db) (c : WorkClaim) : Prop where
  attempt : ∃ a ∈ db.attempts, a.id = c.attemptId ∧ a.workItemId = c.workItemId ∧
    a.leaseFence = c.leaseFence ∧ a.workerId = c.workerId
  item : ∃ r ∈ db.workItems, r.id = c.workItemId ∧ r.workflowId = c.workflowId ∧
    r.itemKey = c.key

/-- The rows that a task read are still stored with the definitions it read. -/
def Task.Sound (db : Db) : Task → Prop
  | claimed _ => True
  | holding claim item => item.id = claim.workItemId ∧ ∃ r ∈ db.workItems, SameDefinition r item
  | proposed claim item effect =>
      item.id = claim.workItemId ∧ (∃ r ∈ db.workItems, SameDefinition r item) ∧
        ∃ e ∈ db.effects, SameProposal e effect ∧ e.workItemId = item.id
  | executed _ _ => True

structure Integrity (D : Digests) (s : Service) : Prop where
  keys : ∀ r ∈ s.db.workItems, ∀ r' ∈ s.db.workItems,
    r.workflowId = r'.workflowId → r.itemKey = r'.itemKey → r = r'
  flows : ∀ r ∈ s.db.workItems, ∃ w ∈ s.db.workflows, w.id = r.workflowId
  attempts : ∀ a ∈ s.db.attempts, ∃ r ∈ s.db.workItems, r.id = a.workItemId ∧
    a.leaseFence ≤ r.leaseFence
  fences : ∀ a ∈ s.db.attempts, ∀ b ∈ s.db.attempts,
    a.workItemId = b.workItemId → a.leaseFence = b.leaseFence → a = b
  effects : ∀ e ∈ s.db.effects, ∃ r ∈ s.db.workItems, r.id = e.workItemId ∧
    r.workflowId = e.workflowId ∧ r.effect = some e.binding ∧ e.id = effectId D r.workflowId r.id
  single : ∀ e ∈ s.db.effects, ∀ f ∈ s.db.effects, e.workItemId = f.workItemId → e = f
  claims : ∀ c ∈ s.claims, Issued s.db c
  tasks : ∀ t ∈ s.tasks, t.claim ∈ s.claims ∧ t.Sound s.db

/-! ## What one transaction keeps -/

section Transaction

variable {D : Digests} {db after : Db} {t : Transaction} {reply : Reply}

theorem ItemMove.fence_le {r s : WorkItemRow} (m : ItemMove db after t r s) :
    r.leaseFence ≤ s.leaseFence := by
  cases m with
  | claim => exact Nat.le_succ r.leaseFence
  | _ => exact Nat.le_refl r.leaseFence

theorem item_forth (h : t.run D db = .ok (reply, after)) {r : WorkItemRow}
    (hr : r ∈ db.workItems) :
    ∃ s ∈ after.workItems, SameDefinition r s ∧ r.leaseFence ≤ s.leaseFence := by
  obtain ⟨s, hs, m⟩ := (transact_items h).forth r hr
  exact ⟨s, hs, m.sameDefinition, m.fence_le⟩

theorem item_back (h : t.run D db = .ok (reply, after)) {s : WorkItemRow}
    (hs : s ∈ after.workItems) :
    (∃ r ∈ db.workItems, SameDefinition r s) ∨ NewItem db t s := by
  obtain ⟨r, hr, m⟩ | new := (transact_items h).back s hs
  · exact .inl ⟨r, hr, m.sameDefinition⟩
  · exact .inr new

theorem workflow_forth (h : t.run D db = .ok (reply, after)) {w : WorkflowRow}
    (hw : w ∈ db.workflows) : ∃ v ∈ after.workflows, v.id = w.id := by
  obtain ⟨v, hv, m⟩ := (transact_workflows h).forth w hw
  refine ⟨v, hv, ?_⟩
  cases m <;> rfl

theorem attempt_forth (h : t.run D db = .ok (reply, after)) {a : AttemptRow}
    (ha : a ∈ db.attempts) : ∃ b ∈ after.attempts, SameAttempt a b := by
  obtain ⟨b, hb, m⟩ := (transact_attempts h).forth a ha
  exact ⟨b, hb, m.sameAttempt⟩

theorem effect_forth (h : t.run D db = .ok (reply, after)) {e : EffectRow}
    (he : e ∈ db.effects) : ∃ f ∈ after.effects, SameProposal e f := by
  obtain ⟨f, hf, m⟩ := (transact_effects h).forth e he
  exact ⟨f, hf, m.sameProposal⟩

theorem Issued.kept (h : t.run D db = .ok (reply, after)) {c : WorkClaim} (issued : Issued db c) :
    Issued after c := by
  obtain ⟨⟨a, ha, id, item, fence, worker⟩, r, hr, r_id, flow, key⟩ := issued
  obtain ⟨b, hb, same⟩ := attempt_forth h ha
  obtain ⟨s, hs, def_, -⟩ := item_forth h hr
  refine ⟨⟨b, hb, ?_, ?_, ?_, ?_⟩, s, hs, ?_, ?_, ?_⟩
  · exact same.id.trans id
  · exact same.workItemId.trans item
  · exact same.leaseFence.trans fence
  · exact same.workerId.trans worker
  · exact def_.id.trans r_id
  · exact def_.workflowId.trans flow
  · exact def_.itemKey.trans key

theorem SameProposal.symm_trans {e f g : EffectRow} (h : SameProposal e f)
    (k : SameProposal e g) : SameProposal f g :=
  ⟨k.id.trans h.id.symm, k.workflowId.trans h.workflowId.symm,
    k.workItemId.trans h.workItemId.symm, k.idempotencyKey.trans h.idempotencyKey.symm,
    k.binding.trans h.binding.symm⟩

theorem SameDefinition.symm_trans {r s u : WorkItemRow} (h : SameDefinition r s)
    (k : SameDefinition r u) : SameDefinition s u :=
  ⟨k.id.trans h.id.symm, k.workflowId.trans h.workflowId.symm, k.itemKey.trans h.itemKey.symm,
    k.dependsOn.trans h.dependsOn.symm, k.costUnits.trans h.costUnits.symm,
    k.requiresApproval.trans h.requiresApproval.symm, k.effect.trans h.effect.symm⟩

theorem Task.Sound.kept (h : t.run D db = .ok (reply, after)) {task : Task}
    (sound : task.Sound db) : task.Sound after := by
  have stored : ∀ {item : WorkItemRow}, (∃ r ∈ db.workItems, SameDefinition r item) →
      ∃ r ∈ after.workItems, SameDefinition r item := by
    rintro item ⟨r, hr, same⟩
    obtain ⟨s, hs, kept, -⟩ := item_forth h hr
    exact ⟨s, hs, kept.symm_trans same⟩
  cases task with
  | claimed claim => trivial
  | holding claim item => exact ⟨sound.1, stored sound.2⟩
  | proposed claim item effect =>
      obtain ⟨id, read, e, he, same, owner⟩ := sound
      obtain ⟨f, hf, kept⟩ := effect_forth h he
      exact ⟨id, stored read, f, hf, kept.symm_trans same, kept.workItemId.trans owner⟩
  | executed claim result => trivial

/-- The definitions of one workflow have distinct keys. -/
theorem NewItem.eq_of_key {r s : WorkItemRow} (hr : NewItem db t r) (hs : NewItem db t s)
    (same : r.itemKey = s.itemKey) : r = s := by
  obtain ⟨id, o, name, items, now, i, hi, call, valid, -, rfl⟩ := hr
  obtain ⟨id', o', name', items', now', j, hj, call', -, -, rfl⟩ := hs
  rw [call] at call'
  cases call'
  have distinct : (items.map fun item => item.2.key).Nodup := by
    simpa [Function.comp_def] using (validateGraph_ok valid).2.1
  rw [List.inj_on_of_nodup_map distinct hi hj same]

theorem NewItem.other_workflow {r s : WorkItemRow} (hs : NewItem db t s)
    (flow : ∃ w ∈ db.workflows, w.id = r.workflowId) : r.workflowId ≠ s.workflowId := by
  obtain ⟨id, o, name, items, now, i, -, -, -, free, rfl⟩ := hs
  obtain ⟨w, hw, same⟩ := flow
  intro eq
  exact free w hw (same.trans eq)

end Transaction

/-! ## What one step keeps -/

namespace Integrity

variable {D : Digests} {s : Service} {c : Call} {reply : Reply} {db : Db}

theorem keys_after (i : Integrity D s) {t : Transaction} (h : t.run D s.db = .ok (reply, db)) :
    ∀ r ∈ db.workItems, ∀ r' ∈ db.workItems,
      r.workflowId = r'.workflowId → r.itemKey = r'.itemKey → r = r' := by
  intro r hr r' hr' flow key_
  obtain ⟨p, hp, same⟩ | new := item_back h hr
  · obtain ⟨p', hp', same'⟩ | new' := item_back h hr'
    · refine Table.eq_of_key hr hr' ?_
      have eq : p = p' := by
        refine i.keys p hp p' hp' ?_ ?_
        · rw [← same.workflowId, ← same'.workflowId, flow]
        · rw [← same.itemKey, ← same'.itemKey, key_]
      subst eq
      exact same.id.trans same'.id.symm
    · have old := i.flows p hp
      rw [← same.workflowId] at old
      exact absurd flow (new'.other_workflow old)
  · obtain ⟨p', hp', same'⟩ | new' := item_back h hr'
    · have old := i.flows p' hp'
      rw [← same'.workflowId] at old
      exact absurd flow.symm (new.other_workflow old)
    · exact new.eq_of_key new' key_

theorem flows_after (i : Integrity D s) {t : Transaction} (h : t.run D s.db = .ok (reply, db)) :
    ∀ r ∈ db.workItems, ∃ w ∈ db.workflows, w.id = r.workflowId := by
  intro r hr
  obtain ⟨p, hp, same⟩ | new := item_back h hr
  · obtain ⟨w, hw, id⟩ := i.flows p hp
    obtain ⟨v, hv, kept⟩ := workflow_forth h hw
    exact ⟨v, hv, (kept.trans id).trans same.workflowId.symm⟩
  · obtain ⟨id, o, name, items, now, item, -, rfl, -, -, rfl⟩ := new
    obtain ⟨⟨_, _⟩, ok, eq⟩ := map_ok h
    cases eq
    obtain ⟨outcome, workflows, workItems, events, -, -, rfl, inserted, -, rfl⟩ :=
      createWorkflow_ok ok
    refine ⟨⟨id, o, Text.strip name, .draft, now, now⟩, ?_, rfl⟩
    change _ ∈ workflows.rows
    rw [(Table.insert?_eq_some.mp inserted).2]
    exact List.mem_append_right _ (List.mem_singleton.mpr rfl)

theorem attempts_after (i : Integrity D s) {t : Transaction} (h : t.run D s.db = .ok (reply, db)) :
    ∀ a ∈ db.attempts, ∃ r ∈ db.workItems, r.id = a.workItemId ∧ a.leaseFence ≤ r.leaseFence := by
  intro a ha
  obtain ⟨b, hb, m⟩ | ⟨w, worker, duration, now, r, hr, -, same, -, claimed, -⟩ :=
    (transact_attempts h).back a ha
  · obtain ⟨r, hr, id, le⟩ := i.attempts b hb
    obtain ⟨r', hr', kept, le'⟩ := item_forth h hr
    refine ⟨r', hr', ?_, ?_⟩
    · rw [kept.id, id, m.sameAttempt.workItemId]
    · rw [m.sameAttempt.leaseFence]
      exact le.trans le'
  · rw [same]
    exact ⟨_, claimed, rfl, Nat.le_refl _⟩

theorem fences_after (i : Integrity D s) {t : Transaction} (h : t.run D s.db = .ok (reply, db)) :
    ∀ a ∈ db.attempts, ∀ b ∈ db.attempts,
      a.workItemId = b.workItemId → a.leaseFence = b.leaseFence → a = b := by
  -- a new attempt has a fence above that of every earlier attempt on its item
  have above : ∀ a ∈ s.db.attempts, ∀ b, NewAttempt s.db db t b →
      a.workItemId = b.workItemId → a.leaseFence < b.leaseFence := by
    rintro a ha b ⟨w, worker, duration, now, r, hr, -, same, -, -, -⟩ owner
    obtain ⟨r', hr', id, le⟩ := i.attempts a ha
    rw [same] at owner ⊢
    rw [Table.eq_of_key hr' hr (id.trans owner)] at le
    exact Nat.lt_succ_of_le le
  intro a ha b hb owner fence
  obtain ⟨p, hp, m⟩ | new := (transact_attempts h).back a ha
  · obtain ⟨q, hq, m'⟩ | new' := (transact_attempts h).back b hb
    · refine Table.eq_of_key ha hb ?_
      have eq : p = q := by
        refine i.fences p hp q hq ?_ ?_
        · rw [← m.sameAttempt.workItemId, ← m'.sameAttempt.workItemId, owner]
        · rw [← m.sameAttempt.leaseFence, ← m'.sameAttempt.leaseFence, fence]
      subst eq
      exact m.sameAttempt.id.trans m'.sameAttempt.id.symm
    · have lt := above p hp b new' (m.sameAttempt.workItemId.symm.trans owner)
      rw [← m.sameAttempt.leaseFence] at lt
      omega
  · obtain ⟨q, hq, m'⟩ | new' := (transact_attempts h).back b hb
    · have lt := above q hq a new (m'.sameAttempt.workItemId.symm.trans owner.symm)
      rw [← m'.sameAttempt.leaseFence] at lt
      omega
    · obtain ⟨w, worker, duration, now, r, hr, call, same, -⟩ := new
      obtain ⟨w', worker', duration', now', r', hr', call', same', -⟩ := new'
      rw [call] at call'
      refine Table.eq_of_key ha hb ?_
      exact (Transaction.claimNext.inj call').1

theorem effects_after (i : Integrity D s) (held : c.held s = true)
    (h : c.transaction.run D s.db = .ok (reply, db)) :
    ∀ e ∈ db.effects, ∃ r ∈ db.workItems, r.id = e.workItemId ∧ r.workflowId = e.workflowId ∧
      r.effect = some e.binding ∧ e.id = effectId D r.workflowId r.id := by
  intro e he
  obtain ⟨f, hf, m⟩ | ⟨item, binding, call, bound, rfl, -⟩ := (transact_effects h).back e he
  · obtain ⟨r, hr, id, flow, bound, eff⟩ := i.effects f hf
    obtain ⟨r', hr', kept, -⟩ := item_forth h hr
    have same := m.sameProposal
    refine ⟨r', hr', ?_, ?_, ?_, ?_⟩
    · rw [kept.id, id, same.workItemId]
    · rw [kept.workflowId, flow, same.workflowId]
    · rw [kept.effect, bound, same.binding]
    · rw [same.id, eff, kept.workflowId, kept.id]
  · -- only a task proposes an effect, for the row it has read
    obtain ⟨r, hr, read⟩ : ∃ r ∈ s.db.workItems, SameDefinition r item := by
      cases c with
      | make t =>
          change t = .ensureEffect item at call
          subst call
          cases held
      | resume task ids now =>
          have sound := (i.tasks task (of_decide_eq_true held)).2
          obtain ⟨claim, rfl⟩ := Task.next_ensureEffect call
          exact sound.2
    obtain ⟨r', hr', kept, -⟩ := item_forth h hr
    have same := kept.symm_trans read
    exact ⟨r', hr', same.id.symm, same.workflowId.symm, same.effect.symm.trans bound,
      by rw [← same.workflowId, ← same.id]; rfl⟩

theorem single_after (i : Integrity D s) {t : Transaction} (h : t.run D s.db = .ok (reply, db)) :
    ∀ e ∈ db.effects, ∀ f ∈ db.effects, e.workItemId = f.workItemId → e = f := by
  intro e he f hf owner
  obtain ⟨p, hp, m⟩ | new := (transact_effects h).back e he
  · obtain ⟨q, hq, m'⟩ | new' := (transact_effects h).back f hf
    · refine Table.eq_of_key he hf ?_
      have eq : p = q := by
        refine i.single p hp q hq ?_
        rw [← m.sameProposal.workItemId, ← m'.sameProposal.workItemId, owner]
      subst eq
      exact m.sameProposal.id.trans m'.sameProposal.id.symm
    · obtain ⟨item, binding, -, -, rfl, free, -⟩ := new'
      exact absurd (m.sameProposal.workItemId.symm.trans owner) (free p hp)
  · obtain ⟨q, hq, m'⟩ | new' := (transact_effects h).back f hf
    · obtain ⟨item, binding, -, -, rfl, free, -⟩ := new
      exact absurd (m'.sameProposal.workItemId.symm.trans owner.symm) (free q hq)
    · obtain ⟨item, binding, call, bound, rfl, -⟩ := new
      obtain ⟨item', binding', call', bound', rfl, -⟩ := new'
      rw [call] at call'
      cases call'
      rw [bound] at bound'
      cases bound'
      rfl

theorem claims_after (i : Integrity D s) (held : c.held s = true)
    (h : c.transaction.run D s.db = .ok (reply, db)) :
    ∀ claim ∈ s.claims ++ Call.claims reply, Issued db claim := by
  intro claim mem
  rcases List.mem_append.mp mem with old | new
  · exact (i.claims claim old).kept h
  · cases reply with
    | claimed claim' =>
        obtain rfl := List.mem_singleton.mp new
        obtain ⟨a, w, worker, duration, now, call, ok⟩ := run_claimed h
        obtain ⟨r, hr, attempts, rfl, rfl, -, -, -, claimed, inserted, rfl⟩ := claimNext_claimed ok
        refine ⟨⟨⟨a, r.id, worker, r.leaseFence + 1, .running, none, none, now, none⟩, ?_, rfl, rfl,
          rfl, rfl⟩, _, claimed, rfl, rfl, rfl⟩
        rw [Table.mem_iff, (Table.insert?_eq_some.mp inserted).2]
        exact List.mem_append_right _ (List.mem_singleton.mpr rfl)
    | renewed claim' =>
        obtain rfl := List.mem_singleton.mp new
        obtain ⟨claim', duration, now, call, rfl⟩ := run_renewed h
        have mem : claim' ∈ s.claims :=
          Service.held_claim (fun t ht => (i.tasks t ht).1) held (.inr (.inl ⟨_, _, call⟩))
        obtain ⟨attempt, item⟩ := (i.claims claim' mem).kept h
        exact ⟨attempt, item⟩
    | _ => cases new

theorem tasks_after (i : Integrity D s) (held : c.held s = true)
    (h : c.transaction.run D s.db = .ok (reply, db)) :
    ∀ t ∈ (s.take c).tasks ++ c.tasks reply,
      t.claim ∈ s.claims ++ Call.claims reply ∧ t.Sound db := by
  intro t mem
  rcases List.mem_append.mp mem with old | new
  · obtain ⟨claim, sound⟩ := i.tasks t (Service.mem_of_mem_take old)
    exact ⟨List.mem_append_left _ claim, sound.kept h⟩
  · cases c with
    | make t' =>
        cases reply with
        | claimed claim =>
            obtain rfl := List.mem_singleton.mp new
            exact ⟨List.mem_append_right _ (List.mem_singleton.mpr rfl), trivial⟩
        | _ => cases new
    | resume task ids now =>
        obtain ⟨claim, sound⟩ := i.tasks task (of_decide_eq_true held)
        have follows : task.after reply = some t := Option.mem_toList.mp new
        cases task with
        | claimed claim' =>
            cases reply with
            | item row =>
                cases follows
                obtain ⟨row', found, eq⟩ := map_ok h
                cases eq
                obtain ⟨row_mem, id⟩ := Table.get?_eq_some.mp (found_eq_ok.mp found)
                exact ⟨List.mem_append_left _ claim, id, row, row_mem, .refl row⟩
            | _ => cases follows
        | holding claim' item =>
            cases reply with
            | effect effect =>
                cases follows
                obtain ⟨id, read⟩ := sound.kept h
                obtain ⟨item', call, stored, owner⟩ := run_effect h
                have next : (Task.holding claim' item).next ids now = .ensureEffect item' := call
                obtain ⟨_, same⟩ := Task.next_ensureEffect next
                cases same
                exact ⟨List.mem_append_left _ claim, id, read, effect, stored,
                  ⟨rfl, rfl, rfl, rfl, rfl⟩, owner⟩
            | _ => cases follows
        | proposed claim' item effect =>
            cases reply with
            | result result =>
                cases follows
                exact ⟨List.mem_append_left _ claim, trivial⟩
            | _ => cases follows
        | executed claim' result => cases reply <;> cases follows

theorem step (i : Integrity D s) (c : Call) : Integrity D (Service.step D s c) := by
  obtain ⟨reply, db, held, ok, eq⟩ | ⟨db, claims, tasks⟩ := Service.step_cases D s c
  · rw [eq]
    exact ⟨i.keys_after ok, i.flows_after ok, i.attempts_after ok, i.fences_after ok,
      i.effects_after held ok, i.single_after ok, i.claims_after held ok, i.tasks_after held ok⟩
  · refine ⟨?_, ?_, ?_, ?_, ?_, ?_, ?_, ?_⟩
    all_goals rw [db]
    · exact i.keys
    · exact i.flows
    · exact i.attempts
    · exact i.fences
    · exact i.effects
    · exact i.single
    · rw [claims]
      exact i.claims
    · rw [claims]
      exact fun t ht => i.tasks t (tasks t ht)

theorem init (D : Digests) : Integrity D Service.init := by
  refine ⟨?_, ?_, ?_, ?_, ?_, ?_, ?_, ?_⟩
  all_goals intro x hx
  all_goals cases hx

end Integrity

section Claims

variable {D : Digests} {s : Service} {c : Call} {claim : WorkClaim} {r : WorkItemRow}

/-- The item of a held claim belongs to the workflow that the claim names. -/
theorem Integrity.claim_flow (i : Integrity D s) (mem : claim ∈ s.claims)
    (current : s.db.Current claim r) : r.workflowId = claim.workflowId := by
  obtain ⟨q, hq, id, flow, -⟩ := (i.claims claim mem).item
  rwa [← current.unique hq id]

/-- The attempt of a held claim that is current. -/
theorem Integrity.claim_attempt (i : Integrity D s) (mem : claim ∈ s.claims)
    (current : s.db.Current claim r) :
    ∃ a ∈ s.db.attempts, a.id = claim.attemptId ∧ a.workItemId = r.id ∧
      a.leaseFence = r.leaseFence ∧ r.leaseOwner = some a.workerId := by
  obtain ⟨a, ha, id, item, fence, worker⟩ := (i.claims claim mem).attempt
  refine ⟨a, ha, id, item.trans current.id.symm, fence.trans current.fence.symm, ?_⟩
  rw [current.owner, worker]

theorem Integrity.held (i : Integrity D s) (held : c.held s = true)
    (call : (∃ ids result now, c.transaction = .completeClaim ids claim result now) ∨
      (∃ duration now, c.transaction = .heartbeat claim duration now) ∨
      (∃ error now, c.transaction = .failClaim claim error now) ∨
      ∃ e now, c.transaction = .waitForApproval claim e now) : claim ∈ s.claims :=
  Service.held_claim (fun t ht => (i.tasks t ht).1) held call

end Claims

theorem integrity {D : Digests} {s : Service} (h : Service.Reachable D s) : Integrity D s :=
  Run.Reachable.preserves h (.init D) fun _ c i => i.step c

end Corvus.Mvp
