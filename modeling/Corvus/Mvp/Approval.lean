import Corvus.Mvp.Integrity

/-!
# Decisions on effects

The first decision on an effect is stored twice, as a row of the approvals and as the
id in the row of the effect. The two copies agree in every reachable state, and an
item that waits for a decision has an effect without one: a worker that read the
effect before it was decided has lost its lease by then.
-/

namespace Corvus.Mvp

open Db

theorem approvalOf_eq_none {db : Db} {e : Uuid} :
    db.approvalOf e = none ↔ ∀ a ∈ db.approvals, a.effectId ≠ e := by
  simp only [approvalOf, List.find?_eq_none, decide_eq_true_eq, Table.mem_iff, ne_eq]

theorem approvalOf_eq_some {db : Db} {e : Uuid} {a : ApprovalRow} (h : db.approvalOf e = some a) :
    a ∈ db.approvals ∧ a.effectId = e :=
  ⟨List.mem_of_find?_eq_some h, by simpa using List.find?_some h⟩

/-! ## One transaction -/

section Transaction

variable {D : Digests} {db after : Db} {t : Transaction} {reply : Reply} {e : Uuid}

/-- An approval keeps everything but the time at which it was consumed. -/
structure SameDecision (a b : ApprovalRow) : Prop where
  id : b.id = a.id
  effectId : b.effectId = a.effectId
  status : b.status = a.status

/-- `effect` is decided for the first time, by the row `a`, and its item is taken out of
its status. -/
structure FirstDecision (db after : Db) (t : Transaction) (effect : EffectRow)
    (a : ApprovalRow) : Prop where
  call : (∃ actor now, t = .approveEffect a.id effect.id actor now ∧ a.status = .approved) ∨
    ∃ actor now, t = .rejectEffect a.id effect.id actor now ∧ a.status = .rejected
  mem : effect ∈ db.effects
  first : db.approvalOf effect.id = none
  effectId : a.effectId = effect.id
  approvals : after.approvals.rows = db.approvals.rows ++ [a]
  effects : ∃ status,
    after.effects = (db.setEffect effect.id (EffectRow.decided a.id status)).effects
  items : ∃ status : WorkItemStatus, status ≠ .running ∧ status ≠ .waitingApproval ∧
    after.workItems = (db.setItem effect.workItemId (WorkItemRow.withStatus status)).workItems

/-- The approvals stay what they are, and no effect is decided. -/
structure NoDecision (D : Digests) (db after : Db) (t : Transaction) : Prop where
  approvals : db.approvals.Evolves after.approvals SameDecision fun _ => False
  effects : db.effects.Evolves after.effects
    (fun e f => SameProposal e f ∧ f.approvalId = e.approvalId) (NewEffect D db t)

/-- Every transaction decides one effect or none. -/
theorem transact_decides (h : t.run D db = .ok (reply, after)) :
    NoDecision D db after t ∨ ∃ effect a, FirstDecision db after t effect a := by
  have kept : db.approvals.Evolves db.approvals SameDecision fun _ => False :=
    .refl fun a _ => ⟨rfl, rfl, rfl⟩
  have unmoved : NoDecision D db db t := ⟨kept, .refl fun e _ => ⟨⟨rfl, rfl, rfl, rfl, rfl⟩, rfl⟩⟩
  have undecided : (∀ a e actor now, t ≠ .approveEffect a e actor now) →
      (∀ a e actor now, t ≠ .rejectEffect a e actor now) → db.effects.Evolves after.effects
        (fun e f => SameProposal e f ∧ f.approvalId = e.approvalId) (NewEffect D db t) := by
    intro approve reject
    refine (transact_effects h).mono (fun e _ f _ m => ⟨m.sameProposal, ?_⟩) fun _ _ new => new
    cases m with
    | keep => rfl
    | approve call => exact absurd call (approve _ _ _ _)
    | reject call => exact absurd call (reject _ _ _ _)
    | execute => rfl
  cases t with
  | approveEffect approvalId e actor now =>
      obtain ⟨⟨_, _⟩, ok, eq⟩ := map_ok h
      cases eq
      obtain ⟨effect, mem, rfl, ⟨-, rfl⟩ | ⟨approvals, events, first, rfl, inserted, rfl⟩⟩ :=
        approveEffect_ok ok
      · exact .inl unmoved
      · refine .inr ⟨effect, _, .inl ⟨actor, now, rfl, rfl⟩, mem, first, rfl,
          (Table.insert?_eq_some.mp inserted).2, ⟨_, rfl⟩, .ready, by decide, by decide, rfl⟩
  | rejectEffect approvalId e actor now =>
      obtain ⟨⟨_, _⟩, ok, eq⟩ := map_ok h
      cases eq
      obtain ⟨effect, mem, rfl, ⟨-, rfl⟩ |
        ⟨approvals, mid, released, events, first, rfl, inserted, rfl, -, rfl⟩⟩ := rejectEffect_ok ok
      · exact .inl unmoved
      · refine .inr ⟨effect, _, .inr ⟨actor, now, rfl, rfl⟩, mem, first, rfl,
          (Table.insert?_eq_some.mp inserted).2, ⟨_, rfl⟩, .failed, by decide, by decide, rfl⟩
  | executeEffect e now =>
      refine .inl ⟨?_, undecided (fun _ _ _ _ => by simp) fun _ _ _ _ => by simp⟩
      obtain ⟨⟨_, _⟩, ok, eq⟩ := map_ok h
      cases eq
      obtain ⟨effect, -, item, -, approvals, executed, settled, events, -, -, -, -, -,
        ⟨-, rfl⟩ | ⟨a, -, rfl⟩, rfl, -, rfl⟩ := executeEffect_ok ok
      · exact kept
      · exact .update (fun _ _ _ => ⟨rfl, rfl, rfl⟩) fun _ _ _ => ⟨rfl, rfl, rfl⟩
  | _ =>
      have same := (run_frame h).approvals.resolve_left (by simp [Transaction.writes])
      exact .inl ⟨same ▸ kept, undecided (fun _ _ _ _ => by simp) fun _ _ _ _ => by simp⟩

theorem NoDecision.approvalOf (n : NoDecision D db after t) :
    after.approvalOf e = none ↔ db.approvalOf e = none := by
  simp only [approvalOf_eq_none]
  constructor
  · intro free a ha
    obtain ⟨b, hb, same⟩ := n.approvals.forth a ha
    exact fun id => free b hb (same.effectId.trans id)
  · intro free b hb
    obtain ⟨a, ha, same⟩ := (n.approvals.back b hb).resolve_right fun none => none
    exact fun id => free a ha (same.effectId.symm.trans id)

theorem FirstDecision.approvalOf {effect : EffectRow} {a : ApprovalRow}
    (f : FirstDecision db after t effect a) :
    after.approvalOf e = none ↔ db.approvalOf e = none ∧ e ≠ effect.id := by
  simp only [approvalOf_eq_none, Table.mem_iff, f.approvals, List.mem_append, List.mem_singleton]
  constructor
  · intro free
    exact ⟨fun b hb => free b (.inl hb), fun same => free a (.inr rfl) (f.effectId.trans same.symm)⟩
  · rintro ⟨free, other⟩ b (hb | rfl)
    · exact free b hb
    · exact fun same => other (same.symm.trans f.effectId)

/-- A decision takes the item of the effect out of the statuses of a worker. -/
theorem FirstDecision.ended {effect : EffectRow} {a : ApprovalRow}
    (f : FirstDecision db after t effect a) {r : WorkItemRow} (hr : r ∈ after.workItems)
    (id : r.id = effect.workItemId) : r.status ≠ .running ∧ r.status ≠ .waitingApproval := by
  obtain ⟨status, running, waiting, items⟩ := f.items
  rw [items] at hr
  rcases Table.of_mem_update hr with ⟨-, other⟩ | ⟨q, -, -, rfl⟩
  · exact absurd id (of_decide_eq_false other)
  · exact ⟨running, waiting⟩

end Transaction

/-! ## The invariant -/

/-- The claim is not current any more, and never will be again. -/
def Overtaken (db : Db) (claim : WorkClaim) : Prop :=
  ∀ r ∈ db.workItems, r.id = claim.workItemId → r.status = .running →
    claim.leaseFence < r.leaseFence

structure Decisions (s : Service) : Prop where
  recorded : ∀ e ∈ s.db.effects, e.approvalId = none ↔ s.db.approvalOf e.id = none
  referenced : ∀ a ∈ s.db.approvals, ∃ e ∈ s.db.effects, e.id = a.effectId
  single : ∀ a ∈ s.db.approvals, ∀ b ∈ s.db.approvals, a.effectId = b.effectId → a = b
  tasks : ∀ claim item effect, Task.proposed claim item effect ∈ s.tasks →
    effect.approvalId = none → s.db.approvalOf effect.id = none ∨ Overtaken s.db claim
  waiting : ∀ r ∈ s.db.workItems, r.status = .waitingApproval →
    ∃ e ∈ s.db.effects, e.workItemId = r.id ∧ s.db.approvalOf e.id = none

namespace Decisions

variable {D : Digests} {s : Service} {c : Call} {reply : Reply} {db : Db}

theorem recorded_after (d : Decisions s) (h : c.transaction.run D s.db = .ok (reply, db)) :
    ∀ e ∈ db.effects, e.approvalId = none ↔ db.approvalOf e.id = none := by
  intro f hf
  obtain n | ⟨effect, a, n⟩ := transact_decides h
  · rw [n.approvalOf]
    obtain ⟨e, he, same, kept⟩ | ⟨item, binding, -, -, rfl, -, fresh⟩ := n.effects.back f hf
    · rw [kept, same.id]
      exact d.recorded e he
    · -- no approval refers to an effect that was not there
      refine iff_of_true rfl (approvalOf_eq_none.mpr fun a ha same => ?_)
      obtain ⟨e, he, id⟩ := d.referenced a ha
      exact fresh e he (id.trans same)
  · rw [n.approvalOf]
    obtain ⟨status, effects⟩ := n.effects
    rw [effects] at hf
    rcases Table.of_mem_update hf with ⟨he, other⟩ | ⟨e, he, same, rfl⟩
    · have other := of_decide_eq_false other
      rw [d.recorded f he]
      exact (and_iff_left other).symm
    · have same := of_decide_eq_true same
      exact iff_of_false nofun fun undecided => undecided.2 same

theorem referenced_after (d : Decisions s) (h : c.transaction.run D s.db = .ok (reply, db)) :
    ∀ a ∈ db.approvals, ∃ e ∈ db.effects, e.id = a.effectId := by
  intro b hb
  obtain ⟨e, he, id⟩ : ∃ e ∈ s.db.effects, e.id = b.effectId := by
    obtain n | ⟨effect, a, n⟩ := transact_decides h
    · obtain ⟨a, ha, same⟩ := (n.approvals.back b hb).resolve_right fun none => none
      rw [same.effectId]
      exact d.referenced a ha
    · rw [Table.mem_iff, n.approvals, List.mem_append, List.mem_singleton] at hb
      rcases hb with old | rfl
      · exact d.referenced b old
      · exact ⟨effect, n.mem, n.effectId.symm⟩
  obtain ⟨f, hf, same⟩ := effect_forth h he
  exact ⟨f, hf, same.id.trans id⟩

theorem single_after (d : Decisions s) (h : c.transaction.run D s.db = .ok (reply, db)) :
    ∀ a ∈ db.approvals, ∀ b ∈ db.approvals, a.effectId = b.effectId → a = b := by
  intro a' ha' b' hb' same
  obtain n | ⟨effect, new, n⟩ := transact_decides h
  · obtain ⟨a, ha, of_a⟩ := (n.approvals.back a' ha').resolve_right fun none => none
    obtain ⟨b, hb, of_b⟩ := (n.approvals.back b' hb').resolve_right fun none => none
    have := d.single a ha b hb (of_a.effectId.symm.trans (same.trans of_b.effectId))
    exact Table.eq_of_key ha' hb' (of_a.id.trans (this ▸ of_b.id.symm))
  · have free := approvalOf_eq_none.mp n.first
    rw [Table.mem_iff, n.approvals, List.mem_append, List.mem_singleton] at ha' hb'
    rcases ha' with ha' | rfl <;> rcases hb' with hb' | rfl
    · exact d.single a' ha' b' hb' same
    · exact absurd (same.trans n.effectId) (free a' ha')
    · exact absurd (same.symm.trans n.effectId) (free b' hb')
    · rfl

/-- An item runs afterwards under its old lease or under a new one. -/
theorem running_move {t : Transaction} {r r' : WorkItemRow} (m : ItemMove s.db db t r r')
    (running : r'.status = .running) :
    (r.status = .running ∧ r'.leaseFence = r.leaseFence) ∨ r'.leaseFence = r.leaseFence + 1 := by
  cases m with
  | keep => exact .inl ⟨running, rfl⟩
  | claim => exact .inr rfl
  | renew call current => exact .inl ⟨current.running, rfl⟩
  | retry call failed next => rcases next with rfl | ⟨rfl, -⟩ <;> cases running
  | _ => cases running

theorem overtaken_kept (i : Integrity D s) (h : c.transaction.run D s.db = .ok (reply, db))
    {claim : WorkClaim} (mem : claim ∈ s.claims) (lapsed : Overtaken s.db claim) :
    Overtaken db claim := by
  intro r' hr' id running
  obtain ⟨r, hr, m⟩ | ⟨_, _, _, _, _, item, -, -, -, -, rfl⟩ := (transact_items h).back r' hr'
  · have same : r.id = claim.workItemId := m.sameDefinition.id.symm.trans id
    rcases running_move m running with ⟨old, fence⟩ | fence
    · rw [fence]
      exact lapsed r hr same old
    · obtain ⟨a, ha, -, owner, a_fence, -⟩ := (i.claims claim mem).attempt
      obtain ⟨q, hq, q_id, le⟩ := i.attempts a ha
      rw [Table.eq_of_key hq hr (q_id.trans (owner.trans same.symm)), a_fence] at le
      omega
  · cases running

theorem tasks_after (d : Decisions s) (i : Integrity D s) (held : c.held s = true)
    (h : c.transaction.run D s.db = .ok (reply, db)) {claim : WorkClaim} {item : WorkItemRow}
    {effect : EffectRow} (mem : Task.proposed claim item effect ∈ (s.take c).tasks ++ c.tasks reply)
    (read : effect.approvalId = none) : db.approvalOf effect.id = none ∨ Overtaken db claim := by
  rcases List.mem_append.mp mem with old | new
  · have old := Service.mem_of_mem_take old
    obtain ⟨held_claim, owner, -, e, he, same, of_item⟩ := i.tasks _ old
    rcases d.tasks _ _ _ old read with free | lapsed
    · obtain n | ⟨effect', a, n⟩ := transact_decides h
      · exact .inl (n.approvalOf.mpr free)
      · by_cases decided : effect.id = effect'.id
        · refine .inr fun r hr id running => absurd running (n.ended hr ?_).1
          obtain rfl := Table.eq_of_key he n.mem (same.id.symm.trans decided)
          rw [id, of_item, owner]
        · exact .inl (n.approvalOf.mpr ⟨free, decided⟩)
    · exact .inr (overtaken_kept i h held_claim lapsed)
  · -- the effect of a new task was read in this transaction
    cases c with
    | make t => cases reply <;> simp [Call.tasks] at new
    | resume task ids now =>
        have follows : task.after reply = some (.proposed claim item effect) :=
          Option.mem_toList.mp new
        cases task with
        | holding claim' item' =>
            cases reply with
            | effect effect' =>
                cases follows
                obtain ⟨_, -, stored, -⟩ := run_effect h
                exact .inl ((d.recorded_after h _ stored).mp read)
            | _ => cases follows
        | _ => cases reply <;> cases follows

theorem waiting_after (d : Decisions s) (i : Integrity D s) (held : c.held s = true)
    (h : c.transaction.run D s.db = .ok (reply, db)) :
    ∀ r ∈ db.workItems, r.status = .waitingApproval →
      ∃ e ∈ db.effects, e.workItemId = r.id ∧ db.approvalOf e.id = none := by
  intro r' hr' waits
  obtain ⟨r, hr, m⟩ | ⟨_, _, _, _, _, item, -, -, -, -, rfl⟩ := (transact_items h).back r' hr'
  · have before : ∃ e ∈ s.db.effects, e.workItemId = r.id ∧ s.db.approvalOf e.id = none := by
      cases m with
      | keep => exact d.waiting _ hr waits
      | retry call failed next => rcases next with rfl | ⟨rfl, -⟩ <;> cases waits
      | renew call current =>
          have running := current.running.symm.trans waits
          cases running
      | await call current =>
          cases c with
          | make t =>
              change t = _ at call
              subst call
              cases held
          | resume task ids now =>
              have mem := of_decide_eq_true held
              obtain ⟨item, effect, rfl, -, read, id⟩ := Task.next_waitForApproval call
              obtain ⟨-, owner, -, e, he, same, of_item⟩ := i.tasks _ mem
              rcases d.tasks _ _ _ mem read with free | lapsed
              · refine ⟨e, he, of_item.trans (owner.trans current.id.symm), ?_⟩
                rwa [← same.id]
              · have lt := lapsed _ hr current.id current.running
                rw [current.fence] at lt
                exact absurd lt (Nat.lt_irrefl _)
      | _ => cases waits
    obtain ⟨e, he, owner, free⟩ := before
    obtain ⟨f, hf, same⟩ := effect_forth h he
    refine ⟨f, hf, same.workItemId.trans (owner.trans m.sameDefinition.id.symm), ?_⟩
    rw [same.id]
    obtain n | ⟨effect, a, n⟩ := transact_decides h
    · exact n.approvalOf.mpr free
    · refine n.approvalOf.mpr ⟨free, fun decided => ?_⟩
      obtain rfl := Table.eq_of_key he n.mem decided
      exact (n.ended hr' (m.sameDefinition.id.trans owner.symm)).2 waits
  · cases waits

theorem step (d : Decisions s) (i : Integrity D s) (c : Call) : Decisions (Service.step D s c) := by
  obtain ⟨reply, db, held, ok, eq⟩ | ⟨db, -, tasks⟩ := Service.step_cases D s c
  · rw [eq]
    exact ⟨d.recorded_after ok, d.referenced_after ok, d.single_after ok,
      fun _ _ _ mem read => d.tasks_after i held ok mem read, d.waiting_after i held ok⟩
  · refine ⟨?_, ?_, ?_, ?_, ?_⟩
    all_goals rw [db]
    · exact d.recorded
    · exact d.referenced
    · exact d.single
    · exact fun claim item effect mem => d.tasks claim item effect (tasks _ mem)
    · exact d.waiting

theorem init : Decisions Service.init := by
  refine ⟨?_, ?_, ?_, ?_, ?_⟩
  · intro x hx
    cases hx
  · intro x hx
    cases hx
  · intro x hx
    cases hx
  · intro claim item effect mem
    cases mem
  · intro x hx
    cases hx

end Decisions

theorem decisions {D : Digests} {s : Service} (h : Service.Reachable D s) : Decisions s :=
  (Run.Reachable.preserves (I := fun s => Integrity D s ∧ Decisions s) h ⟨.init D, .init⟩
    fun _ c k => ⟨k.1.step c, k.2.step k.1 c⟩).2

/-! ## What every run keeps -/

/-- No row is lost. A workflow keeps its outcome and its name, an item its definition, an attempt
its worker and its fence, an effect its proposal; the decision on an effect stands. -/
structure Stands (db after : Db) : Prop where
  workflows : ∀ w ∈ db.workflows, ∃ v ∈ after.workflows, v.id = w.id ∧ v.outcomeId = w.outcomeId ∧
    v.name = w.name
  items : ∀ r ∈ db.workItems, ∃ s ∈ after.workItems, SameDefinition r s ∧ r.leaseFence ≤ s.leaseFence
  attempts : ∀ a ∈ db.attempts, ∃ b ∈ after.attempts, SameAttempt a b
  effects : ∀ e ∈ db.effects, ∃ f ∈ after.effects, SameProposal e f
  approvals : ∀ a ∈ db.approvals, ∃ b ∈ after.approvals, SameDecision a b

theorem Stands.refl (db : Db) : Stands db db where
  workflows w hw := ⟨w, hw, rfl, rfl, rfl⟩
  items r hr := ⟨r, hr, .refl r, Nat.le_refl _⟩
  attempts a ha := ⟨a, ha, rfl, rfl, rfl, rfl⟩
  effects e he := ⟨e, he, rfl, rfl, rfl, rfl, rfl⟩
  approvals a ha := ⟨a, ha, rfl, rfl, rfl⟩

theorem Stands.transact {D : Digests} {db mid after : Db} {t : Transaction} {reply : Reply}
    (k : Stands db mid) (h : t.run D mid = .ok (reply, after)) : Stands db after where
  workflows w hw := by
    obtain ⟨v, hv, id, outcome, name⟩ := k.workflows w hw
    obtain ⟨u, hu, m⟩ := (transact_workflows h).forth v hv
    refine ⟨u, hu, ?_⟩
    cases m <;> exact ⟨id, outcome, name⟩
  items r hr := by
    obtain ⟨s, hs, same, le⟩ := k.items r hr
    obtain ⟨u, hu, same', le'⟩ := item_forth h hs
    exact ⟨u, hu, same.trans same', le.trans le'⟩
  attempts a ha := by
    obtain ⟨b, hb, same⟩ := k.attempts a ha
    obtain ⟨c, hc, m⟩ := (transact_attempts h).forth b hb
    refine ⟨c, hc, ?_⟩
    cases m <;> exact ⟨same.id, same.workItemId, same.workerId, same.leaseFence⟩
  effects e he := by
    obtain ⟨f, hf, same⟩ := k.effects e he
    obtain ⟨g, hg, m⟩ := (transact_effects h).forth f hf
    refine ⟨g, hg, ?_⟩
    cases m <;> exact ⟨same.id, same.workflowId, same.workItemId, same.idempotencyKey, same.binding⟩
  approvals a ha := by
    obtain ⟨b, hb, same⟩ := k.approvals a ha
    obtain n | ⟨effect, new, n⟩ := transact_decides h
    · obtain ⟨c, hc, same'⟩ := n.approvals.forth b hb
      exact ⟨c, hc, same'.id.trans same.id, same'.effectId.trans same.effectId,
        same'.status.trans same.status⟩
    · refine ⟨b, ?_, same⟩
      rw [Table.mem_iff, n.approvals]
      exact List.mem_append_left _ hb

end Corvus.Mvp
