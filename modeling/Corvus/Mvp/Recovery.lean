import Corvus.Mvp.Worker

/-!
# Recovery after a crash

A worker may stop between any two of its transactions. Once its lease is over,
`recover_workflow` and further calls of `run_next`, with the approval that the effect
may wait for, bring its item to its end, as long as the effect was not executed: an
effect without its completion is refused for ever after, because the count is never
taken back and the result is never read from the effect.
-/

namespace Corvus.Mvp

open Db

/-! ## The recovery -/

section Recovery

variable (D : Digests) (draws : Nat → Draw) (worker : String) (lease : Int) (actor : String)
  (i : WorkItemRow)

/-- The effect of the item is approved, if the item waits. -/
def Service.approveWaiting (draw : Draw) (s : Service) : Service :=
  if s.db.workItems.rows.any fun r =>
      decide (r.id = i.id) && decide (r.status = .waitingApproval) then
    step D s (.make (.approveEffect draw.approval (effectId D i.workflowId i.id) actor
      (draw.clock 6)))
  else s

/-- `recover_workflow`. -/
def Service.recovered (now : Instant) (s : Service) : Service :=
  step D s (.make (.recoverWorkflow i.workflowId now))

/-- So many calls of `run_next`, each after the approval that the item may wait for. -/
def Service.rounds (s : Service) : Nat → Service
  | 0 => s
  | n + 1 => runNext D (draws n) i.workflowId worker lease
      (approveWaiting D actor i (draws n) (rounds s n))

end Recovery

/-- The item has succeeded, with the result of the one execution of its effect. -/
def Completed (D : Digests) (i : WorkItemRow) (db : Db) : Prop :=
  ∃ r ∈ db.workItems, r.id = i.id ∧ r.status = .succeeded ∧
    ∃ e ∈ db.effects, e.workItemId = i.id ∧ e.executionCount = 1 ∧ e.result = r.result ∧
      r.result = some (.obj (effectResult D e.binding))

/-- A worker on the item of an effect has stopped, and its lease is over or given back; the
workflow is running. -/
structure Stopped (db : Db) (i : WorkItemRow) (now : Instant) : Prop where
  mem : i ∈ db.workItems
  workflow : ∃ w ∈ db.workflows, w.id = i.workflowId ∧ w.status = .running
  effect : i.effect ≠ none
  lapsed : staleLease i.workflowId now i = true ∨ i.status = .waitingApproval

/-- The units that the items of a workflow without a proposed effect may still reserve. -/
def Db.unproposedUnits (db : Db) (w : Uuid) : Nat :=
  db.workItems.total (fun r => decide (r.workflowId = w) && r.effect.isSome &&
    db.effects.rows.all fun e => decide (e.workItemId ≠ r.id)) (·.costUnits)

/-- The ledger holds with nothing of the workflow released, and the budget has room for what
is left. -/
structure Funded (db : Db) (i : WorkItemRow) : Prop where
  sound : db.books.Sound
  unreleased : ∀ e ∈ db.effects, e.workflowId = i.workflowId →
    ∀ r ∈ db.reservations, r.effectId = e.id → r.status ≠ .released
  room : (∃ e ∈ db.effects, e.workItemId = i.id) ∨ ∃ p, ∃ a ∈ db.budgets,
    db.projectOf i.workflowId = some p ∧ a.projectId = p ∧
      (db.unproposedUnits i.workflowId : Int) ≤ a.availableUnits

/-- Nothing stands in the way of the item: no kill switch is on, and its effect is neither
rejected, where that matters, nor executed. -/
structure Unhindered (D : Digests) (db : Db) (i : WorkItemRow) : Prop where
  off : db.killSwitchEnabled i.workflowId = false
  approved : i.requiresApproval = true →
    ∀ a ∈ db.approvals, a.effectId = effectId D i.workflowId i.id → a.status = .approved
  unexecuted : ∀ e ∈ db.effects, e.workItemId = i.id → e.executionCount = 0

/-- What is digested for the item is not in use for another one. -/
structure Undigested (D : Digests) (i : WorkItemRow) (db : Db) : Prop where
  effect : ∀ e ∈ db.effects, e.workItemId ≠ i.id → e.id ≠ effectId D i.workflowId i.id ∧
    ∀ binding, i.effect = some binding →
      e.idempotencyKey ≠ idempotencyKey D i.workflowId i.id binding
  reservation : ∀ r ∈ db.reservations, r.effectId ≠ effectId D i.workflowId i.id →
    r.id ≠ reservationId D (effectId D i.workflowId i.id)

/-- What is drawn in a round is not in use yet. -/
structure Fresh (D : Digests) (i : WorkItemRow) (db : Db) (draw : Draw) : Prop where
  attempt : ∀ a ∈ db.attempts, a.id ≠ draw.attempt
  approval : ∀ a ∈ db.approvals, a.id ≠ draw.approval
  completion : db.Unused draw.completion
  undigested : Undigested D i db

/-! ## What stays true on the way -/

/-- The budget has room for the effect of the item, whichever of the others are proposed
before it: the list holds the id and the cost of every item that may still propose one. -/
def Room (i : WorkItemRow) (db : Db) : Prop :=
  (∃ e ∈ db.effects, e.workItemId = i.id) ∨
  ∃ p, ∃ a ∈ db.budgets, db.projectOf i.workflowId = some p ∧ a.projectId = p ∧
    ∃ left : List (Uuid × Nat), ((left.map Prod.snd).sum : Int) ≤ a.availableUnits ∧
      ∀ r ∈ db.workItems, r.workflowId = i.workflowId → r.effect ≠ none →
        (∀ e ∈ db.effects, e.workItemId ≠ r.id) → (r.id, r.costUnits) ∈ left

/-- The item may still be brought to its end. -/
structure Passable (D : Digests) (i : WorkItemRow) (db : Db) : Prop where
  workflow : ∃ w ∈ db.workflows, w.id = i.workflowId ∧ w.status = .running
  off : db.killSwitchEnabled i.workflowId = false
  approved : i.requiresApproval = true →
    ∀ a ∈ db.approvals, a.effectId = effectId D i.workflowId i.id → a.status = .approved
  sound : db.books.Sound
  unreleased : ∀ e ∈ db.effects, e.workflowId = i.workflowId →
    ∀ r ∈ db.reservations, r.effectId = e.id → r.status ≠ .released
  room : Room i db
  unexecuted : ∀ e ∈ db.effects, e.workItemId = i.id → e.executionCount = 0

/-- The transactions of a recovery. -/
def Transaction.drives : Transaction → Bool
  | claimNext .. | readItem .. | completeClaim .. | recoverWorkflow .. | ensureEffect ..
  | waitForApproval .. | approveEffect .. | executeEffect .. => true
  | _ => false

/-- A transaction of the recovery that neither executes the effect of the item nor ends
the workflow. -/
structure Aside (i : WorkItemRow) (db after : Db) (t : Transaction) : Prop where
  drives : t.drives = true
  workflows : after.workflows = db.workflows
  proposes : ∀ item, t = .ensureEffect item → item.workflowId = i.workflowId ∧
    ∃ r ∈ db.workItems, SameDefinition r item
  executes : ∀ e ∈ db.effects, ∀ now, t = .executeEffect e.id now →
    e.workflowId = i.workflowId ∧ e.workItemId ≠ i.id

section Transaction

variable {D : Digests} {i : WorkItemRow} {db after : Db} {t : Transaction} {reply : Reply}

theorem projectOf_kept (h : t.run D db = .ok (reply, after)) (drives : t.drives = true)
    (workflows : after.workflows = db.workflows) (w : Uuid) :
    after.projectOf w = db.projectOf w := by
  have outcomes : after.outcomes = db.outcomes := by
    refine (run_frame h).outcomes.resolve_left ?_
    revert drives
    cases t <;> simp [Transaction.writes, Transaction.drives]
  rw [projectOf, projectOf, workflows, outcomes]

theorem switch_kept (h : t.run D db = .ok (reply, after)) (drives : t.drives = true) (w : Uuid) :
    after.killSwitchEnabled w = db.killSwitchEnabled w := by
  have switches : after.killSwitches = db.killSwitches := by
    refine (run_frame h).killSwitches.resolve_left ?_
    revert drives
    cases t <;> simp [Transaction.writes, Transaction.drives]
  rw [killSwitchEnabled, killSwitchEnabled, switches]

/-- The books are written by proposals and executions alone. -/
theorem books_kept (h : t.run D db = .ok (reply, after)) (drives : t.drives = true)
    (proposes : ∀ item, t ≠ .ensureEffect item) (executes : ∀ e now, t ≠ .executeEffect e now) :
    after.budgets = db.budgets ∧ after.reservations = db.reservations := by
  have unwritten : .budgets ∉ t.writes ∧ .reservations ∉ t.writes := by
    cases t with
    | ensureEffect item => exact absurd rfl (proposes item)
    | executeEffect e now => exact absurd rfl (executes e now)
    | _ => simp [Transaction.writes, Transaction.drives] at drives ⊢
  exact ⟨(run_frame h).budgets.resolve_left unwritten.1,
    (run_frame h).reservations.resolve_left unwritten.2⟩

theorem approved_kept (p : Passable D i db) (h : t.run D db = .ok (reply, after))
    (drives : t.drives = true) : i.requiresApproval = true →
    ∀ a ∈ after.approvals, a.effectId = effectId D i.workflowId i.id → a.status = .approved := by
  intro required b hb drawn
  obtain n | ⟨effect, a, n⟩ := transact_decides h
  · obtain ⟨a, ha, same⟩ := (n.approvals.back b hb).resolve_right fun none => none
    rw [same.status]
    exact p.approved required a ha (same.effectId.symm.trans drawn)
  · rw [Table.mem_iff, n.approvals, List.mem_append, List.mem_singleton] at hb
    rcases hb with old | rfl
    · exact p.approved required b old drawn
    · obtain ⟨actor, now, -, status⟩ | ⟨actor, now, rfl, -⟩ := n.call
      · exact status
      · cases drives

/-- A reservation afterwards is reserved, or was there and not released since; an effect
afterwards was there, or had no reservation. -/
theorem reservations_back (h : t.run D db = .ok (reply, after)) (drives : t.drives = true) :
    (∀ r' ∈ after.reservations, r'.status = .reserved ∨
      ∃ r ∈ db.reservations, r'.effectId = r.effectId ∧
        (r'.status = .released → r.status = .released)) ∧
    ∀ e' ∈ after.effects, (∃ e ∈ db.effects, SameProposal e e') ∨
      ∀ r ∈ db.reservations, r.effectId ≠ e'.id := by
  have same : ∀ r ∈ db.reservations, r.status = .reserved ∨ ∃ q ∈ db.reservations,
      r.effectId = q.effectId ∧ (r.status = .released → q.status = .released) :=
    fun r hr => .inr ⟨r, hr, rfl, fun released => released⟩
  have stored : (∀ item, t ≠ .ensureEffect item) → ∀ e' ∈ after.effects,
      (∃ e ∈ db.effects, SameProposal e e') ∨ ∀ r ∈ db.reservations, r.effectId ≠ e'.id := by
    intro other e' he'
    obtain ⟨e, he, m⟩ | ⟨item, binding, call, -⟩ := (transact_effects h).back e' he'
    · exact .inl ⟨e, he, m.sameProposal⟩
    · exact absurd call (other item)
  by_cases proposes : ∃ item, t = .ensureEffect item
  · obtain ⟨item, rfl⟩ := proposes
    obtain ⟨⟨_, _⟩, ok, eq⟩ := map_ok h
    cases eq
    obtain ⟨binding, -, ⟨-, -, rfl⟩ |
      ⟨effects, proposed, reserved, events, rfl, -, inserted, rfl, reserve, rfl⟩⟩ :=
      ensureEffect_ok ok
    · exact ⟨same, fun e he => .inl ⟨e, he, ⟨rfl, rfl, rfl, rfl, rfl⟩⟩⟩
    · obtain ⟨p, a, reservations, -, -, -, free, drawn, rfl⟩ := reserveBudget_ok reserve
      refine ⟨fun r hr => ?_, fun e he => ?_⟩
      · have hr : r ∈ reservations := hr
        rw [Table.mem_iff, (Table.insert?_eq_some.mp drawn).2, List.mem_append,
          List.mem_singleton] at hr
        rcases hr with old | rfl
        · exact same r old
        · exact .inl rfl
      · have he : e ∈ effects := he
        rw [Table.mem_iff, (Table.insert?_eq_some.mp inserted).2, List.mem_append,
          List.mem_singleton] at he
        rcases he with old | rfl
        · exact .inl ⟨e, old, ⟨rfl, rfl, rfl, rfl, rfl⟩⟩
        · exact .inr free
  · have proposes : ∀ item, t ≠ .ensureEffect item := fun item call => proposes ⟨item, call⟩
    refine ⟨fun r hr => ?_, stored proposes⟩
    by_cases executes : ∃ e now, t = .executeEffect e now
    · obtain ⟨e, now, rfl⟩ := executes
      obtain ⟨⟨_, _⟩, ok, eq⟩ := map_ok h
      cases eq
      obtain ⟨_, -, _, -, _, _, settled, _, -, -, -, -, -, -, rfl, settle, rfl⟩ :=
        executeEffect_ok ok
      have hr : r ∈ settled.reservations := hr
      obtain ⟨-, rfl⟩ | ⟨q, hq, -, -, -, rfl⟩ := settleBudget_ok settle
      · exact same r hr
      · rcases Table.of_mem_update hr with ⟨old, -⟩ | ⟨r', hr', -, rfl⟩
        · exact same r old
        · exact .inr ⟨r', hr', rfl, nofun⟩
    · rw [(books_kept h drives proposes fun e now call => executes ⟨e, now, call⟩).2] at hr
      exact same r hr

theorem unreleased_kept (p : Passable D i db) (h : t.run D db = .ok (reply, after))
    (drives : t.drives = true) : ∀ e ∈ after.effects, e.workflowId = i.workflowId →
    ∀ r ∈ after.reservations, r.effectId = e.id → r.status ≠ .released := by
  intro e' he' flow r' hr' drawn released
  obtain ⟨reservations, effects⟩ := reservations_back h drives
  rcases reservations r' hr' with reserved | ⟨r, hr, of_effect, before⟩
  · rw [reserved] at released
    cases released
  · rcases effects e' he' with ⟨e, he, same⟩ | free
    · refine p.unreleased e he (same.workflowId.symm.trans flow) r hr ?_ (before released)
      rw [← of_effect, drawn, same.id]
    · exact free r hr (of_effect.symm.trans drawn)

theorem sound_kept (p : Passable D i db) (h : t.run D db = .ok (reply, after))
    (aside : Aside i db after t) : after.books.Sound := by
  refine (transact_posts h fun settles => ?_).sound p.sound
  cases settles with
  | execute e now r mem admitted drawn of_effect released debited =>
      have flow := (aside.executes e mem now rfl).1
      exact p.unreleased e mem flow r drawn of_effect released

/-- The account of a project keeps what is available on it, unless an effect is proposed. -/
theorem available_kept (h : t.run D db = .ok (reply, after)) (drives : t.drives = true)
    (proposes : ∀ item, t ≠ .ensureEffect item) {a : BudgetRow} (ha : a ∈ db.budgets) :
    ∃ a' ∈ after.budgets, a'.projectId = a.projectId ∧ a.availableUnits ≤ a'.availableUnits := by
  by_cases executes : ∃ e now, t = .executeEffect e now
  · obtain ⟨e, now, rfl⟩ := executes
    obtain ⟨⟨_, _⟩, ok, eq⟩ := map_ok h
    cases eq
    obtain ⟨_, -, _, -, _, _, settled, _, -, -, -, -, -, -, rfl, settle, rfl⟩ :=
      executeEffect_ok ok
    change ∃ a' ∈ settled.budgets, _
    obtain ⟨-, rfl⟩ | ⟨r, -, -, -, enough, rfl⟩ := settleBudget_ok settle
    · exact ⟨a, ha, rfl, le_rfl⟩
    · refine ⟨_, Table.mem_update_of_mem ha, ?_⟩
      split
      · rename_i same
        have covered := enough a ha (of_decide_eq_true same)
        refine ⟨rfl, ?_⟩
        simp only [BudgetRow.availableUnits, BudgetRow.debit]
        omega
      · exact ⟨rfl, le_rfl⟩
  · rw [(books_kept h drives proposes fun e now call => executes ⟨e, now, call⟩).1]
    exact ⟨a, ha, rfl, le_rfl⟩

theorem items_back (h : t.run D db = .ok (reply, after)) (drives : t.drives = true) :
    ∀ r' ∈ after.workItems, ∃ r ∈ db.workItems, SameDefinition r r' := by
  intro r' hr'
  obtain old | ⟨_, _, _, _, _, _, -, rfl, -⟩ := item_back h hr'
  · exact old
  · cases drives

theorem room_kept (p : Passable D i db) (h : t.run D db = .ok (reply, after))
    (aside : Aside i db after t) : Room i after := by
  have stored : ∀ e ∈ db.effects, ∃ f ∈ after.effects, f.workItemId = e.workItemId := by
    intro e he
    obtain ⟨f, hf, same⟩ := effect_forth h he
    exact ⟨f, hf, same.workItemId⟩
  rcases p.room with ⟨e, he, owner⟩ | ⟨q, a, ha, project, of_project, left, fits, covers⟩
  · obtain ⟨f, hf, same⟩ := stored e he
    exact .inl ⟨f, hf, same.trans owner⟩
  · have covered : ∀ r ∈ after.workItems, r.workflowId = i.workflowId → r.effect ≠ none →
        (∀ e ∈ after.effects, e.workItemId ≠ r.id) → (r.id, r.costUnits) ∈ left := by
      intro r' hr' flow bound absent
      obtain ⟨r, hr, same⟩ := items_back h aside.drives r' hr'
      rw [same.id, same.costUnits]
      rw [same.workflowId] at flow
      rw [same.effect] at bound
      refine covers r hr flow bound fun e he owner => ?_
      obtain ⟨f, hf, of_item⟩ := stored e he
      exact absent f hf (of_item.trans (owner.trans same.id.symm))
    have project' : after.projectOf i.workflowId = some q :=
      (projectOf_kept h aside.drives aside.workflows _).trans project
    by_cases proposes : ∃ item, t = .ensureEffect item
    · obtain ⟨item, rfl⟩ := proposes
      obtain ⟨flow, r, hr, read⟩ := aside.proposes item rfl
      obtain ⟨⟨_, _⟩, ok, eq⟩ := map_ok h
      cases eq
      obtain ⟨binding, bound, ⟨-, -, rfl⟩ |
        ⟨effects, proposed, reserved, events, rfl, free, inserted, rfl, reserve, rfl⟩⟩ :=
        ensureEffect_ok ok
      · exact p.room
      · -- the cost leaves the list together with the item
        have new : proposedEffect D item binding ∈ effects := by
          rw [Table.mem_iff, (Table.insert?_eq_some.mp inserted).2]
          exact List.mem_append_right _ (List.mem_singleton.mpr rfl)
        obtain ⟨q', b, reservations, project_, account, room, -, -, rfl⟩ := reserveBudget_ok reserve
        have same : db.projectOf item.workflowId = some q' := project_
        rw [flow, project] at same
        cases same
        obtain ⟨hb, of_project'⟩ := Table.get?_eq_some.mp account
        have same : b = a := Table.eq_of_key hb ha (of_project'.trans of_project.symm)
        subst same
        have listed : (item.id, item.costUnits) ∈ left := by
          rw [read.id, read.costUnits]
          refine covers r hr (read.workflowId.symm.trans flow) ?_ fun e he owner => ?_
          · rw [← read.effect, bound]
            exact Option.some_ne_none _
          · exact (free e he).1 (owner.trans read.id.symm)
        refine .inr ⟨q, BudgetRow.reserve item.costUnits b, ?_, project', of_project,
          left.erase (item.id, item.costUnits), ?_, ?_⟩
        · have moved := Table.mem_update_of_mem (p := fun a => decide (a.projectId = q))
            (f := BudgetRow.reserve item.costUnits) hb
          rwa [if_pos (decide_eq_true of_project)] at moved
        · have sum := ((List.perm_cons_erase listed).map Prod.snd).sum_eq
          rw [List.map_cons, List.sum_cons] at sum
          simp only [BudgetRow.availableUnits, BudgetRow.reserve] at fits ⊢
          omega
        · intro r' hr' flow' bound' absent
          refine (List.mem_erase_of_ne fun same => ?_).mpr (covered r' hr' flow' bound' absent)
          exact absent _ new (congrArg Prod.fst same).symm
    · obtain ⟨a', ha', same, more⟩ := available_kept h aside.drives
        (fun item call => proposes ⟨item, call⟩) ha
      exact .inr ⟨q, a', ha', project', same.trans of_project, left, fits.trans more, covered⟩

theorem unexecuted_kept (p : Passable D i db) (h : t.run D db = .ok (reply, after))
    (aside : Aside i db after t) :
    ∀ e ∈ after.effects, e.workItemId = i.id → e.executionCount = 0 := by
  intro f hf owner
  obtain ⟨e, he, m⟩ | ⟨item, binding, -, -, rfl, -⟩ := (transact_effects h).back f hf
  · have of_item : e.workItemId = i.id := m.sameProposal.workItemId.symm.trans owner
    have before := p.unexecuted e he of_item
    cases m with
    | execute call => exact absurd of_item (aside.executes _ he _ call).2
    | _ => exact before
  · rfl

theorem Passable.kept (p : Passable D i db) (h : t.run D db = .ok (reply, after))
    (aside : Aside i db after t) : Passable D i after where
  workflow := by
    rw [aside.workflows]
    exact p.workflow
  off := (switch_kept h aside.drives _).trans p.off
  approved := approved_kept p h aside.drives
  sound := sound_kept p h aside
  unreleased := unreleased_kept p h aside.drives
  room := room_kept p h aside
  unexecuted := unexecuted_kept p h aside

theorem Undigested.kept (u : Undigested D i db) (h : t.run D db = .ok (reply, after))
    (drives : t.drives = true) (proposes : ∀ item, t ≠ .ensureEffect item)
    (executes : ∀ e now, t ≠ .executeEffect e now) : Undigested D i after where
  effect f hf other := by
    obtain ⟨e, he, m⟩ | ⟨item, binding, call, -⟩ := (transact_effects h).back f hf
    · have same := m.sameProposal
      rw [same.id, same.idempotencyKey]
      exact u.effect e he fun owner => other (same.workItemId.trans owner)
    · exact absurd call (proposes item)
  reservation := by
    rw [(books_kept h drives proposes executes).2]
    exact u.reservation

theorem Db.Unused.kept {ids : CompletionIds} (u : db.Unused ids)
    (h : t.run D db = .ok (reply, after))
    (completes : ∀ ids claim result now, t ≠ .completeClaim ids claim result now) :
    after.Unused ids := by
  have frame := run_frame h
  have unwritten : .checkpoints ∉ t.writes ∧ .artifacts ∉ t.writes ∧ .lineage ∉ t.writes ∧
      .conversationEntries ∉ t.writes := by
    cases t with
    | completeClaim ids claim result now => exact absurd rfl (completes ids claim result now)
    | _ => simp [Transaction.writes]
  constructor
  · rw [frame.checkpoints.resolve_left unwritten.1]
    exact u.checkpoint
  · rw [frame.artifacts.resolve_left unwritten.2.1]
    exact u.artifact
  · rw [frame.lineage.resolve_left unwritten.2.2.1]
    exact u.lineage
  · rw [frame.conversationEntries.resolve_left unwritten.2.2.2]
    exact u.conversation

end Transaction

end Corvus.Mvp
