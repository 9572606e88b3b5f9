import Corvus.Mvp.Integrity

/-!
# Dependency order

An item becomes ready when the items it depends on have succeeded, and whatever
brings it back to that status later finds it with its dependencies still met, as
long as no succeeded item is taken back. Only the first approval or rejection of
the effect of a succeeded item does that.
-/

namespace Corvus.Mvp

open Db

/-- The transactions that rewrite the status of a succeeded item. -/
inductive TakesBack (db : Db) : Transaction → Prop where
  | approve (approvalId effect actor now r) (mem : effect ∈ db.effects)
      (first : db.approvalOf effect.id = none) (item_mem : r ∈ db.workItems)
      (id : r.id = effect.workItemId) (done : r.status = .succeeded) :
      TakesBack db (.approveEffect approvalId effect.id actor now)
  | reject (approvalId effect actor now r) (mem : effect ∈ db.effects)
      (first : db.approvalOf effect.id = none) (item_mem : r ∈ db.workItems)
      (id : r.id = effect.workItemId) (done : r.status = .succeeded) :
      TakesBack db (.rejectEffect approvalId effect.id actor now)

/-- The step takes no success back. -/
def RespectsSuccess (s : Service) (c : Call) : Prop := ¬ TakesBack s.db c.transaction

/-- The two decisions on an effect. -/
def Transaction.decides : Transaction → Bool
  | approveEffect .. | rejectEffect .. => true
  | _ => false

theorem respectsSuccess_of_other {s : Service} {c : Call} (h : c.transaction.decides = false) :
    RespectsSuccess s c := by
  intro takes
  generalize c.transaction = t at h takes
  cases takes <;> cases h

/-- An item that is ready, has been claimed or has succeeded. -/
def Started (status : WorkItemStatus) : Prop :=
  status = .ready ∨ status = .running ∨ status = .waitingApproval ∨ status = .succeeded

/-- What holds of the items, attempts and artifacts in one state. -/
structure InOrder (db : Db) : Prop where
  dependencies : ∀ r ∈ db.workItems, Started r.status → ∀ k ∈ r.dependsOn,
    (∃ q ∈ db.workItems, q.workflowId = r.workflowId ∧ q.itemKey = k) ∧
      ∀ q ∈ db.workItems, q.workflowId = r.workflowId → q.itemKey = k → q.status = .succeeded
  attempts : ∀ a ∈ db.attempts, ∀ b ∈ db.attempts, a.status = .succeeded →
    b.status = .succeeded → a.workItemId = b.workItemId → a = b
  artifacts : ∀ x ∈ db.artifacts, ∀ y ∈ db.artifacts, x.workItemId = y.workItemId → x = y
  workflows : ∀ w ∈ db.workflows, w.status = .succeeded →
    ∀ r ∈ db.workItems, r.workflowId = w.id → r.status = .succeeded

/-- A succeeded item of an earlier state is succeeded in the later one. -/
def SuccessPermanent (s s' : Service) : Prop :=
  ∀ r ∈ s.db.workItems, r.status = .succeeded →
    ∀ r' ∈ s'.db.workItems, r'.id = r.id → r'.status = .succeeded

/-- The dependencies of an item are met. -/
def Db.Met (db : Db) (r : WorkItemRow) : Prop :=
  db.dependenciesMet r.workflowId r.dependsOn = true

/-- The invariant. What has an effect or a claim once was ready, and its dependencies
stay met whatever becomes of it. -/
structure Ordered (s : Service) : Prop where
  started : ∀ r ∈ s.db.workItems, Started r.status → s.db.Met r
  effects : ∀ e ∈ s.db.effects, ∀ r ∈ s.db.workItems, r.id = e.workItemId → s.db.Met r
  claims : ∀ c ∈ s.claims, ∀ r ∈ s.db.workItems, r.id = c.workItemId → s.db.Met r
  attempts : ∀ a ∈ s.db.attempts, a.status = .succeeded →
    ∀ r ∈ s.db.workItems, r.id = a.workItemId → r.status = .succeeded
  artifacts : ∀ x ∈ s.db.artifacts, ∃ r ∈ s.db.workItems, r.id = x.workItemId ∧
    r.status = .succeeded
  oneAttempt : ∀ a ∈ s.db.attempts, ∀ b ∈ s.db.attempts, a.status = .succeeded →
    b.status = .succeeded → a.workItemId = b.workItemId → a = b
  oneArtifact : ∀ x ∈ s.db.artifacts, ∀ y ∈ s.db.artifacts, x.workItemId = y.workItemId → x = y
  workflows : ∀ w ∈ s.db.workflows, w.status = .succeeded →
    ∀ r ∈ s.db.workItems, r.workflowId = w.id → r.status = .succeeded

section Step

variable {D : Digests} {s : Service} {c : Call} {reply : Reply} {db : Db}

/-- The move of a succeeded item. -/
theorem succeeded_kept (respects : RespectsSuccess s c) {r r' : WorkItemRow}
    (hr : r ∈ s.db.workItems) (done : r.status = .succeeded)
    (m : ItemMove s.db db c.transaction r r') : r'.status = .succeeded := by
  cases m with
  | keep => exact done
  | refresh pending met => simp [done] at pending
  | claim call running off ready => simp [done] at ready
  | complete => rfl
  | renew call current => exact done
  | fail call current =>
      rw [current.running] at done
      cases done
  | retry call failed next => simp [done] at failed
  | recover call stale => simp [staleLease, done] at stale
  | await call current =>
      rw [current.running] at done
      cases done
  | approve call mem first id =>
      refine absurd ?_ respects
      rw [call]
      exact .approve _ _ _ _ r mem first hr id done
  | reject call mem first id =>
      refine absurd ?_ respects
      rw [call]
      exact .reject _ _ _ _ r mem first hr id done
  | cancel call unfinished => exact absurd done unfinished.1

theorem succeeded_forth (h : c.transaction.run D s.db = .ok (reply, db))
    (respects : RespectsSuccess s c) {r : WorkItemRow} (hr : r ∈ s.db.workItems)
    (done : r.status = .succeeded) :
    ∃ r' ∈ db.workItems, SameDefinition r r' ∧ r'.status = .succeeded := by
  obtain ⟨r', hr', m⟩ := (transact_items h).forth r hr
  exact ⟨r', hr', m.sameDefinition, succeeded_kept respects hr done m⟩

/-- Met dependencies stay met. -/
theorem met_kept (h : c.transaction.run D s.db = .ok (reply, db)) (respects : RespectsSuccess s c)
    {r r' : WorkItemRow} (same : SameDefinition r r') (met : s.db.Met r) : db.Met r' := by
  unfold Db.Met at met ⊢
  rw [same.workflowId, same.dependsOn]
  refine dependenciesMet_mono (fun q hq flow done => ?_) met
  obtain ⟨q', hq', same', done'⟩ := succeeded_forth h respects hq done
  exact ⟨q', hq', same'.workflowId.trans flow, done', same'.itemKey⟩

/-- A property of the item with a given id, carried from the state before. -/
theorem met_of_id (h : c.transaction.run D s.db = .ok (reply, db)) (respects : RespectsSuccess s c)
    {id : Uuid} (stored : ∃ r ∈ s.db.workItems, r.id = id)
    (met : ∀ r ∈ s.db.workItems, r.id = id → s.db.Met r) :
    ∀ r' ∈ db.workItems, r'.id = id → db.Met r' := by
  intro r' hr' same
  obtain ⟨r, hr, r_id⟩ := stored
  obtain ⟨p, hp, kept, -⟩ := item_forth h hr
  obtain rfl := Table.eq_of_key hr' hp (same.trans (r_id.symm.trans kept.id.symm))
  exact met_kept h respects kept (met r hr r_id)

theorem started_after (o : Ordered s)
    (h : c.transaction.run D s.db = .ok (reply, db)) (respects : RespectsSuccess s c) :
    ∀ r ∈ db.workItems, Started r.status → db.Met r := by
  intro r' hr' now_
  obtain ⟨r, hr, m⟩ | ⟨id, o', name, items, now, item, -, -, -, -, rfl⟩ :=
    (transact_items h).back r' hr'
  · have same := m.sameDefinition
    have before : Started r.status → db.Met r' := fun st => met_kept h respects same (o.started r hr st)
    cases m with
    | keep => exact before now_
    | refresh pending met => exact met
    | claim call running off ready =>
        rcases ready with ready | ⟨-, met⟩
        · exact before (.inl ready)
        · exact met_kept h respects same met
    | complete call current => exact before (.inr (.inl current.running))
    | renew call current => exact before (.inr (.inl current.running))
    | fail call current => simp [Started, WorkItemRow.fail] at now_
    | retry call failed next =>
        rcases next with rfl | ⟨rfl, met⟩
        · simp [Started, WorkItemRow.retry] at now_
        · exact met
    | recover call stale =>
        simp only [staleLease, Bool.and_eq_true, decide_eq_true_eq] at stale
        exact before (.inr (.inl stale.1.2))
    | await call current => exact before (.inr (.inl current.running))
    | approve call mem first id => exact met_kept h respects same (o.effects _ mem r hr id)
    | reject call mem first id => simp [Started, WorkItemRow.withStatus] at now_
    | cancel call unfinished => simp [Started, WorkItemRow.cancel] at now_
  · simp [Started, newItem] at now_

theorem effects_met (o : Ordered s) (i : Integrity D s) (held : c.held s = true)
    (h : c.transaction.run D s.db = .ok (reply, db)) (respects : RespectsSuccess s c) :
    ∀ e ∈ db.effects, ∀ r ∈ db.workItems, r.id = e.workItemId → db.Met r := by
  intro e he
  obtain ⟨f, hf, m⟩ | ⟨item, binding, call, bound, rfl, -⟩ := (transact_effects h).back e he
  · rw [m.sameProposal.workItemId]
    obtain ⟨r, hr, id, -⟩ := i.effects f hf
    exact met_of_id h respects ⟨r, hr, id⟩ (o.effects f hf)
  · cases c with
    | make t =>
        change t = .ensureEffect item at call
        subst call
        cases held
    | resume task ids now =>
        obtain ⟨mem, sound⟩ := i.tasks task (of_decide_eq_true held)
        obtain ⟨claim, rfl⟩ := Task.next_ensureEffect call
        obtain ⟨id, r, hr, same⟩ := sound
        refine met_of_id h respects ⟨r, hr, same.id.symm⟩ fun q hq q_id => ?_
        exact o.claims claim mem q hq (q_id.trans id)

theorem claims_met (o : Ordered s) (i : Integrity D s) (held : c.held s = true)
    (h : c.transaction.run D s.db = .ok (reply, db)) (respects : RespectsSuccess s c) :
    ∀ claim ∈ s.claims ++ Call.claims reply, ∀ r ∈ db.workItems, r.id = claim.workItemId →
      db.Met r := by
  intro claim mem
  have old : ∀ claim' ∈ s.claims, claim.workItemId = claim'.workItemId →
      ∀ r ∈ db.workItems, r.id = claim.workItemId → db.Met r := by
    intro claim' mem' same
    obtain ⟨r, hr, id, -⟩ := (i.claims claim' mem').item
    rw [same]
    exact met_of_id h respects ⟨r, hr, id⟩ (o.claims claim' mem')
  rcases List.mem_append.mp mem with before | new
  · exact old claim before rfl
  · cases reply with
    | claimed claim' =>
        obtain rfl := List.mem_singleton.mp new
        obtain ⟨a, w, worker, duration, now, call, ok⟩ := run_claimed h
        obtain ⟨r, hr, attempts, rfl, rfl, ready, -⟩ := claimNext_claimed ok
        refine met_of_id h respects ⟨r, hr, rfl⟩ fun q hq id => ?_
        rw [Table.eq_of_key hq hr id]
        rcases ready with ready | ⟨-, met⟩
        · exact o.started r hr (.inl ready)
        · exact met
    | renewed claim' =>
        obtain rfl := List.mem_singleton.mp new
        obtain ⟨claim', duration, now, call, rfl⟩ := run_renewed h
        exact old claim' (i.held held (.inr (.inl ⟨duration, now, call⟩))) rfl
    | _ => cases new

/-- The attempt of a completed claim, and the item it ran on. -/
theorem completed_attempt (i : Integrity D s) (held : c.held s = true) {ids : CompletionIds}
    {claim : WorkClaim} {result : Option (List (String × Json))} {now : Instant}
    {row : WorkItemRow} {a : AttemptRow} (ha : a ∈ s.db.attempts)
    (call : c.transaction = .completeClaim ids claim result now)
    (current : s.db.Current claim row) (id : a.id = claim.attemptId) : a.workItemId = row.id := by
  obtain ⟨b, hb, b_id, item, -⟩ :=
    i.claim_attempt (i.held held (.inl ⟨ids, result, now, call⟩)) current
  rw [Table.eq_of_key ha hb (id.trans b_id.symm), item]

theorem attempts_succeeded (o : Ordered s) (i : Integrity D s) (held : c.held s = true)
    (h : c.transaction.run D s.db = .ok (reply, db)) (respects : RespectsSuccess s c) :
    ∀ a ∈ db.attempts, a.status = .succeeded →
      ∀ r ∈ db.workItems, r.id = a.workItemId → r.status = .succeeded := by
  intro a ha done r' hr' id
  obtain ⟨b, hb, m⟩ | ⟨w, worker, duration, now, r, hr, -, same, -⟩ :=
    (transact_attempts h).back a ha
  · cases m with
    | keep =>
        obtain ⟨r, hr, r_id, -⟩ := i.attempts a hb
        obtain ⟨p, hp, kept, p_done⟩ :=
          succeeded_forth h respects hr (o.attempts a hb done r hr r_id)
        rwa [Table.eq_of_key hr' hp (id.trans (r_id.symm.trans kept.id.symm))]
    | complete call current b_id =>
        have item : b.workItemId = _ := completed_attempt i held hb call current b_id
        rw [call] at h
        rw [Table.eq_of_key hr' (completeClaim_succeeds h current) (id.trans item)]
        rfl
    | fail => cases done
    | await => cases done
    | interrupt => cases done
  · rw [same] at done
    cases done

theorem oneAttempt_after (o : Ordered s) (i : Integrity D s) (held : c.held s = true)
    (h : c.transaction.run D s.db = .ok (reply, db)) :
    ∀ a ∈ db.attempts, ∀ b ∈ db.attempts, a.status = .succeeded → b.status = .succeeded →
      a.workItemId = b.workItemId → a = b := by
  -- a succeeded attempt is an old one, or belongs to the claim that is completed
  have origin : ∀ a ∈ db.attempts, a.status = .succeeded →
      (a ∈ s.db.attempts ∧ ∀ r ∈ s.db.workItems, r.id = a.workItemId → r.status ≠ .running) ∨
      ∃ ids claim result now row, c.transaction = .completeClaim ids claim result now ∧
        s.db.Current claim row ∧ a.id = claim.attemptId ∧ a.workItemId = row.id := by
    intro a ha done
    obtain ⟨b, hb, m⟩ | ⟨w, worker, duration, now, r, hr, -, same, -⟩ :=
      (transact_attempts h).back a ha
    · cases m with
      | keep => exact .inl ⟨hb, fun r hr id => by simp [o.attempts a hb done r hr id]⟩
      | complete call current id =>
          have item : b.workItemId = _ := completed_attempt i held hb call current id
          exact .inr ⟨_, _, _, _, _, call, current, id, item⟩
      | fail => cases done
      | await => cases done
      | interrupt => cases done
    · rw [same] at done
      cases done
  intro a ha b hb a_done b_done same
  rcases origin a ha a_done with ⟨old, idle⟩ | ⟨ids, claim, result, now, row, call, current, id, item⟩
  · rcases origin b hb b_done with ⟨old', -⟩ | ⟨_, _, _, _, row', -, current', -, item'⟩
    · exact o.oneAttempt a old b old' a_done b_done same
    · exact absurd current'.running (idle row' current'.mem (item'.symm.trans same.symm))
  · rcases origin b hb b_done with ⟨-, idle⟩ | ⟨_, _, _, _, row', call', -, id', -⟩
    · exact absurd current.running (idle row current.mem (item.symm.trans same))
    · rw [call] at call'
      cases call'
      exact Table.eq_of_key ha hb (id.trans id'.symm)

theorem artifacts_succeeded (o : Ordered s) (h : c.transaction.run D s.db = .ok (reply, db))
    (respects : RespectsSuccess s c) :
    ∀ x ∈ db.artifacts, ∃ r ∈ db.workItems, r.id = x.workItemId ∧ r.status = .succeeded := by
  intro x hx
  obtain ⟨y, hy, rfl⟩ | ⟨ids, claim, result, now, row, call, current, -, item, -⟩ :=
    (transact_artifacts h).back x hx
  · obtain ⟨r, hr, id, done⟩ := o.artifacts x hy
    obtain ⟨r', hr', kept, done'⟩ := succeeded_forth h respects hr done
    exact ⟨r', hr', kept.id.trans id, done'⟩
  · rw [call] at h
    exact ⟨_, completeClaim_succeeds h current, item.symm, rfl⟩

theorem oneArtifact_after (o : Ordered s) (h : c.transaction.run D s.db = .ok (reply, db)) :
    ∀ x ∈ db.artifacts, ∀ y ∈ db.artifacts, x.workItemId = y.workItemId → x = y := by
  -- the artifact of a completion belongs to an item that had none
  have other : ∀ x ∈ s.db.artifacts, ∀ y, NewArtifact s.db c.transaction y →
      x.workItemId ≠ y.workItemId := by
    rintro x hx y ⟨ids, claim, result, now, row, -, current, -, item, -⟩ same
    obtain ⟨r, hr, id, done⟩ := o.artifacts x hx
    rw [Table.eq_of_key hr current.mem (id.trans (same.trans item)), current.running] at done
    cases done
  intro x hx y hy same
  obtain ⟨x', hx', rfl⟩ | new := (transact_artifacts h).back x hx
  · obtain ⟨y', hy', rfl⟩ | new' := (transact_artifacts h).back y hy
    · exact o.oneArtifact x hx' y hy' same
    · exact absurd same (other x hx' y new')
  · obtain ⟨y', hy', rfl⟩ | new' := (transact_artifacts h).back y hy
    · exact absurd same.symm (other y hy' x new)
    · obtain ⟨ids, claim, result, now, row, call, -, id, -⟩ := new
      obtain ⟨ids', claim', result', now', row', call', -, id', -⟩ := new'
      rw [call] at call'
      cases call'
      exact Table.eq_of_key hx hy (id.trans id'.symm)

theorem workflows_succeeded (o : Ordered s) (h : c.transaction.run D s.db = .ok (reply, db))
    (respects : RespectsSuccess s c) :
    ∀ w ∈ db.workflows, w.status = .succeeded →
      ∀ r ∈ db.workItems, r.workflowId = w.id → r.status = .succeeded := by
  intro w hw done r' hr' flow
  obtain ⟨v, hv, m⟩ | ⟨o', name, items, now, outcome, -, -, -, draft, -⟩ :=
    (transact_workflows h).back w hw
  · cases m with
    | keep =>
        obtain ⟨r, hr, m⟩ | ⟨id, o', name, items, now, item, -, -, -, free, rfl⟩ :=
          (transact_items h).back r' hr'
        · refine succeeded_kept respects hr (o.workflows w hv done r hr ?_) m
          rw [← m.sameDefinition.workflowId, flow]
        · exact absurd flow.symm (free w hv)
    | succeed call current flow' finished => exact finished r' hr' flow
    | start => cases done
    | pause => cases done
    | cancel => cases done
    | reject => cases done
  · rw [draft] at done
    cases done

theorem ordered_step (i : Integrity D s) (o : Ordered s) (respects : RespectsSuccess s c) :
    Ordered (Service.step D s c) := by
  obtain ⟨reply, db, held, ok, eq⟩ | ⟨db, claims, -⟩ := Service.step_cases D s c
  · rw [eq]
    exact ⟨started_after o ok respects, effects_met o i held ok respects,
      claims_met o i held ok respects, attempts_succeeded o i held ok respects,
      artifacts_succeeded o ok respects, oneAttempt_after o i held ok, oneArtifact_after o ok,
      workflows_succeeded o ok respects⟩
  · obtain ⟨started, effects, claims', attempts, artifacts, one, one', workflows⟩ := o
    rw [← db] at started effects claims' attempts artifacts one one' workflows
    rw [← claims] at claims'
    exact ⟨started, effects, claims', attempts, artifacts, one, one', workflows⟩

theorem Ordered.inOrder (i : Integrity D s) (o : Ordered s) : InOrder s.db where
  dependencies r hr now_ k hk := by
    have met := o.started r hr now_
    unfold Db.Met at met
    rw [dependenciesMet_iff] at met
    obtain ⟨q, hq, flow, done, key_⟩ := mem_succeededKeys.mp (met k hk)
    refine ⟨⟨q, hq, flow, key_⟩, fun q' hq' flow' key' => ?_⟩
    rwa [i.keys q' hq' q hq (flow'.trans flow.symm) (key'.trans key_.symm)]
  attempts := o.oneAttempt
  artifacts := o.oneArtifact
  workflows := o.workflows

theorem permanent_step {s' : Service} (respects : RespectsSuccess s' c)
    (kept : ∀ r ∈ s.db.workItems, r.status = .succeeded →
      ∃ r' ∈ s'.db.workItems, r'.id = r.id ∧ r'.status = .succeeded) :
    ∀ r ∈ s.db.workItems, r.status = .succeeded →
      ∃ r' ∈ (Service.step D s' c).db.workItems, r'.id = r.id ∧ r'.status = .succeeded := by
  intro r hr done
  obtain ⟨p, hp, id, p_done⟩ := kept r hr done
  refine Service.step_db
    (P := fun db => ∃ r' ∈ db.workItems, r'.id = r.id ∧ r'.status = .succeeded)
    ⟨p, hp, id, p_done⟩ fun reply db _ ok => ?_
  obtain ⟨q, hq, same, q_done⟩ := succeeded_forth ok respects hp p_done
  exact ⟨q, hq, same.id.trans id, q_done⟩

end Step

/-! ## Runs -/

/-- Along a run that takes no success back, items run in dependency order, nothing is
done twice, and success is permanent. -/
theorem dependency_order (D : Digests) (before later : List Call)
    (respects : Run.Along (Service.step D) RespectsSuccess Service.init (before ++ later)) :
    InOrder (Run.exec (Service.step D) Service.init (before ++ later)).db ∧
      SuccessPermanent (Run.exec (Service.step D) Service.init before)
        (Run.exec (Service.step D) Service.init (before ++ later)) := by
  have start : Integrity D Service.init ∧ Ordered Service.init := by
    refine ⟨.init D, ⟨?_, ?_, ?_, ?_, ?_, ?_, ?_, ?_⟩⟩
    all_goals intro x hx
    all_goals cases hx
  have kept := respects.preserves (I := fun s => Integrity D s ∧ Ordered s) start
    fun s c h guard => ⟨h.1.step c, ordered_step h.1 h.2 guard⟩
  refine ⟨kept.2.inOrder kept.1, fun r hr done r' hr' id => ?_⟩
  have first : ∀ r ∈ (Run.exec (Service.step D) Service.init before).db.workItems,
      r.status = .succeeded → ∃ r' ∈ (Run.exec (Service.step D) Service.init before).db.workItems,
        r'.id = r.id ∧ r'.status = .succeeded := fun r hr done => ⟨r, hr, rfl, done⟩
  have permanent := (Run.along_append.mp respects).2.preserves
    (I := fun s' => ∀ r ∈ (Run.exec (Service.step D) Service.init before).db.workItems,
      r.status = .succeeded → ∃ r' ∈ s'.db.workItems, r'.id = r.id ∧ r'.status = .succeeded)
    first fun s' c h guard => permanent_step guard h
  rw [← Run.exec_append] at permanent
  obtain ⟨q, hq, q_id, q_done⟩ := permanent r hr done
  rwa [Table.eq_of_key hr' hq (id.trans q_id.symm)]

namespace Sample

/-- The item that writes without approval, run by a worker to its end. -/
def written : List Call :=
  started [(Uuid.ofNat 4, writing false)] ++
    .make (.claimNext (Uuid.ofNat 10) workflow "worker" 30 1) ::
      work false (firstClaim (Uuid.ofNat 10) (Uuid.ofNat 4) workflow 1) 2

/-- The first approval of its effect. -/
def approval : Call :=
  .make (.approveEffect (Uuid.ofNat 11) (effectId digests workflow (Uuid.ofNat 4)) "actor" 6)

end Sample

/-- The approval of the effect of a succeeded item makes the item ready again. -/
theorem succeeded_approved :
    ¬ SuccessPermanent (Sample.run Sample.written) (Sample.run (Sample.written ++ [Sample.approval])) := by
  intro permanent
  have done : ∃ r ∈ (Sample.run Sample.written).db.workItems.rows,
      r.id = Uuid.ofNat 4 ∧ r.status = .succeeded := by decide +kernel
  have again : ∃ r ∈ (Sample.run (Sample.written ++ [Sample.approval])).db.workItems.rows,
      r.id = Uuid.ofNat 4 ∧ r.status = .ready := by decide +kernel
  obtain ⟨r, hr, id, r_done⟩ := done
  obtain ⟨r', hr', id', ready⟩ := again
  have kept := permanent r hr r_done r' hr' (id'.trans id.symm)
  rw [ready] at kept
  cases kept

/-- The item succeeds, and a cancellation leaves it so. -/
theorem dependency_order_sample :
    InOrder (Sample.run (Sample.written ++ [.make (.cancelWorkflow Sample.workflow 6)])).db ∧
      SuccessPermanent (Sample.run Sample.written)
        (Sample.run (Sample.written ++ [.make (.cancelWorkflow Sample.workflow 6)])) := by
  refine dependency_order Sample.digests _ _
    (Run.along_of_forall fun c hc s => respectsSuccess_of_other ?_)
  revert c
  decide +kernel

end Corvus.Mvp
