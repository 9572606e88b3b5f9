import Corvus.Mvp.Integrity

/-!
# Cancelled workflows

`cancel_workflow` ends every item that has not succeeded, and no lease survives it.
Four transactions do not look at the status of the workflow and reach into a
cancelled one: a pause, the first approval or rejection of one of its effects, and
an execution. Along runs without such a step, cancellation is final.
-/

namespace Corvus.Mvp

open Db

/-- The workflow with this id is cancelled. -/
def Db.IsCancelled (db : Db) (id : Uuid) : Prop :=
  ∃ w ∈ db.workflows, w.id = id ∧ w.status = .cancelled

/-- The transactions that act on a workflow whatever its status is. -/
inductive Revives (db : Db) : Transaction → Uuid → Prop where
  | pause (w now) : Revives db (.pauseWorkflow w now) w
  | approve (approvalId effect actor now item) (mem : effect ∈ db.effects)
      (first : db.approvalOf effect.id = none) (item_mem : item ∈ db.workItems)
      (id : item.id = effect.workItemId) (unfinished : item.status ≠ .succeeded) :
      Revives db (.approveEffect approvalId effect.id actor now) effect.workflowId
  | reject (approvalId effect actor now) (mem : effect ∈ db.effects)
      (first : db.approvalOf effect.id = none) :
      Revives db (.rejectEffect approvalId effect.id actor now) effect.workflowId
  | execute (effect now) (mem : effect ∈ db.effects) (admitted : db.AdmitsExecution effect) :
      Revives db (.executeEffect effect.id now) effect.workflowId

/-- The step leaves every cancelled workflow alone. -/
def RespectsCancellation (s : Service) (c : Call) : Prop :=
  ∀ w, s.db.IsCancelled w → ¬ Revives s.db c.transaction w

/-- The transactions that do not look at the status of the workflow they act on. -/
def Transaction.ignoresStatus : Transaction → Bool
  | pauseWorkflow .. | approveEffect .. | rejectEffect .. | executeEffect .. => true
  | _ => false

theorem respectsCancellation_of_checked {s : Service} {c : Call}
    (h : c.transaction.ignoresStatus = false) : RespectsCancellation s c := by
  intro w _ revives
  generalize c.transaction = t at h revives
  cases revives <;> cases h

/-- What cancellation promises about the workflows that are cancelled in `s`, in a
state `s'` that is reached later. -/
structure CancellationFinal (s s' : Service) : Prop where
  status : ∀ w, s.db.IsCancelled w → s'.db.IsCancelled w
  items : ∀ r ∈ s.db.workItems, s.db.IsCancelled r.workflowId → r.status ≠ .succeeded →
    ∀ r' ∈ s'.db.workItems, r'.id = r.id →
      r'.status ≠ .running ∧ (r'.status = .ready → r.status = .ready)
  claims : ∀ c ∈ s'.claims, s.db.IsCancelled c.workflowId → c ∈ s.claims
  effects : ∀ e ∈ s.db.effects, s.db.IsCancelled e.workflowId →
    ∀ e' ∈ s'.db.effects, e'.id = e.id → e'.executionCount = e.executionCount

/-- The items of a cancelled workflow have succeeded or are cancelled. A succeeded one
may be made ready by the approval of its effect, and is then never claimed. -/
def Quiet (s : Service) : Prop :=
  ∀ r ∈ s.db.workItems, s.db.IsCancelled r.workflowId →
    r.status = .succeeded ∨ r.status = .cancelled ∨ r.status = .ready

/-! ## One step -/

section Step

variable {D : Digests} {s s' : Service} {c : Call} {reply : Reply} {db : Db} {id : Uuid}

theorem Db.IsCancelled.status_eq (h : db.IsCancelled id) {w : WorkflowRow} (hw : w ∈ db.workflows)
    (same : w.id = id) : w.status = .cancelled := by
  obtain ⟨v, hv, v_id, status⟩ := h
  rwa [Table.eq_of_key hw hv (same.trans v_id.symm)]

/-- No lease is held in a cancelled workflow. -/
theorem Quiet.not_running (q : Quiet s) {r : WorkItemRow} (hr : r ∈ s.db.workItems)
    (cancelled : s.db.IsCancelled r.workflowId) : r.status ≠ .running := by
  rcases q r hr cancelled with h | h | h <;> simp [h]

theorem isCancelled_kept (i : Integrity D s) (q : Quiet s) (held : c.held s = true)
    (h : c.transaction.run D s.db = .ok (reply, db)) (respects : RespectsCancellation s c)
    (cancelled : s.db.IsCancelled id) : db.IsCancelled id := by
  have alone := respects id cancelled
  have ⟨w, hw, w_id, status⟩ := cancelled
  subst w_id
  obtain ⟨v, hv, m⟩ := (transact_workflows h).forth w hw
  cases m with
  | keep => exact ⟨w, hv, rfl, status⟩
  | start call stopped => simp [status] at stopped
  | pause call =>
      rw [call] at alone
      exact absurd (.pause w.id _) alone
  | cancel call => exact ⟨_, hv, rfl, rfl⟩
  | @succeed ids claim result now r call current flow finished =>
      have mem := i.held held (.inl ⟨ids, result, now, call⟩)
      have same : r.workflowId = w.id := (i.claim_flow mem current).trans flow.symm
      rw [← same] at cancelled
      exact absurd current.running (q.not_running current.mem cancelled)
  | reject call mem first flow =>
      rw [call, flow] at alone
      exact absurd (.reject _ _ _ _ mem first) alone

/-- A move of an item of a cancelled workflow, under a transaction that respects it. -/
theorem item_move_cancelled (i : Integrity D s) (respects : RespectsCancellation s c) {r r' : WorkItemRow} (hr : r ∈ s.db.workItems)
    (cancelled : s.db.IsCancelled r.workflowId)
    (still : r.status = .succeeded ∨ r.status = .cancelled ∨ r.status = .ready)
    (m : ItemMove s.db db c.transaction r r') :
    r'.status = r.status ∨ r'.status = .cancelled ∨ r.status = .succeeded ∧ r'.status = .ready := by
  have alone := respects r.workflowId cancelled
  have idle : r.status ≠ .running := by
    rcases still with h | h | h <;> simp [h]
  have owner : ∀ e ∈ s.db.effects, r.id = e.workItemId → e.workflowId = r.workflowId := by
    intro e he id
    obtain ⟨q, hq, q_id, flow, -⟩ := i.effects e he
    rw [← flow, Table.eq_of_key hq hr (q_id.trans id.symm)]
  cases m with
  | keep => exact .inl rfl
  | refresh pending met => simp [pending] at still
  | claim call running off ready =>
      obtain ⟨w, hw, id, status⟩ := running
      rw [cancelled.status_eq hw id] at status
      cases status
  | complete call current => exact absurd current.running idle
  | renew call current => exact absurd current.running idle
  | fail call current => exact absurd current.running idle
  | retry call failed next => simp [failed] at still
  | recover call stale =>
      simp only [staleLease, Bool.and_eq_true, decide_eq_true_eq] at stale
      exact absurd stale.1.2 idle
  | await call current => exact absurd current.running idle
  | approve call mem first item =>
      by_cases done : r.status = .succeeded
      · exact .inr (.inr ⟨done, rfl⟩)
      · rw [call, ← owner _ mem item] at alone
        exact absurd (.approve _ _ _ _ r mem first hr item done) alone
  | reject call mem first item =>
      rw [call, ← owner _ mem item] at alone
      exact absurd (.reject _ _ _ _ mem first) alone
  | cancel call unfinished => exact .inr (.inl rfl)

theorem quiet_commit (i : Integrity D s) (q : Quiet s)
    (h : c.transaction.run D s.db = .ok (reply, db)) (respects : RespectsCancellation s c)
    {r' : WorkItemRow} (hr' : r' ∈ db.workItems) (cancelled : db.IsCancelled r'.workflowId) :
    r'.status = .succeeded ∨ r'.status = .cancelled ∨ r'.status = .ready := by
  obtain ⟨v, hv, v_id, status⟩ := cancelled
  obtain ⟨r, hr, m⟩ | ⟨id, o, name, items, now, item, -, call, -, free, rfl⟩ :=
    (transact_items h).back r' hr'
  · obtain ⟨w, hw, mw⟩ | ⟨o, name, items, now, outcome, -, -, -, draft, -⟩ :=
      (transact_workflows h).back v hv
    · have id : w.id = r.workflowId := by
        have same := m.sameDefinition.workflowId
        cases mw <;> exact v_id.trans same
      cases mw with
      | keep =>
          have before : s.db.IsCancelled r.workflowId := ⟨v, hw, id, status⟩
          have still := q r hr before
          rcases item_move_cancelled i respects hr before still m with same | same | ⟨-, same⟩
          · rwa [same]
          · exact .inr (.inl same)
          · exact .inr (.inr same)
      | cancel call =>
          cases m with
          | keep open_ =>
              rw [id] at call
              exact (open_ _ call).imp_right .inl
          | refresh pending met => exact .inr (.inr rfl)
          | cancel => exact .inr (.inl rfl)
          | claim call' => simp [call] at call'
          | complete call' => simp [call] at call'
          | renew call' => simp [call] at call'
          | fail call' => simp [call] at call'
          | retry call' => simp [call] at call'
          | recover call' => simp [call] at call'
          | await call' => simp [call] at call'
          | approve call' => simp [call] at call'
          | reject call' => simp [call] at call'
      | start => cases status
      | pause => cases status
      | succeed => cases status
      | reject => cases status
    · rw [draft] at status
      cases status
  · -- the workflow of a new item is new as well, and a draft
    obtain ⟨w, hw, mw⟩ | ⟨o, name, items, now, outcome, -, -, -, draft, -⟩ :=
      (transact_workflows h).back v hv
    · have same : w.id = id := by
        cases mw <;> exact v_id
      exact absurd same (free w hw)
    · rw [draft] at status
      cases status

theorem quiet_step (i : Integrity D s) (q : Quiet s) (respects : RespectsCancellation s c) :
    Quiet (Service.step D s c) := by
  obtain ⟨reply, db, held, ok, eq⟩ | ⟨db, -, -⟩ := Service.step_cases D s c
  · rw [eq]
    exact fun r' hr' cancelled => quiet_commit i q ok respects hr' cancelled
  · unfold Quiet
    rw [db]
    exact q

/-- What a run that respects cancellation keeps of the workflows cancelled in `s`. -/
structure Settled (s s' : Service) : Prop where
  status : ∀ w, s.db.IsCancelled w → s'.db.IsCancelled w
  items : ∀ r ∈ s.db.workItems, s.db.IsCancelled r.workflowId → r.status ≠ .succeeded →
    ∃ r' ∈ s'.db.workItems, r'.id = r.id ∧ r'.workflowId = r.workflowId ∧
      (r'.status = .cancelled ∨ r'.status = .ready ∧ r.status = .ready)
  claims : ∀ c ∈ s'.claims, s.db.IsCancelled c.workflowId → c ∈ s.claims
  effects : ∀ e ∈ s.db.effects, s.db.IsCancelled e.workflowId →
    ∃ e' ∈ s'.db.effects, e'.id = e.id ∧ e'.workflowId = e.workflowId ∧
      e'.executionCount = e.executionCount

theorem Settled.refl (q : Quiet s) : Settled s s where
  status _ h := h
  items r hr cancelled unfinished := by
    refine ⟨r, hr, rfl, rfl, ?_⟩
    rcases q r hr cancelled with h | h | h
    · exact absurd h unfinished
    · exact .inl h
    · exact .inr ⟨h, h⟩
  claims _ h _ := h
  effects e he _ := ⟨e, he, rfl, rfl, rfl⟩

theorem Settled.final (S : Settled s s') : CancellationFinal s s' where
  status := S.status
  items r hr cancelled unfinished r' hr' id := by
    obtain ⟨p, hp, p_id, -, still⟩ := S.items r hr cancelled unfinished
    obtain rfl := Table.eq_of_key hr' hp (id.trans p_id.symm)
    rcases still with h | ⟨h, ready⟩
    · simp [h]
    · simp [h, ready]
  claims := S.claims
  effects e he cancelled e' he' id := by
    obtain ⟨f, hf, f_id, -, same⟩ := S.effects e he cancelled
    rwa [Table.eq_of_key he' hf (id.trans f_id.symm)]

/-- No claim is handed out or renewed in a cancelled workflow. -/
theorem claims_kept (i : Integrity D s) (q : Quiet s) (held : c.held s = true)
    (h : c.transaction.run D s.db = .ok (reply, db)) {claim : WorkClaim}
    (new : claim ∈ Call.claims reply) : ¬ s.db.IsCancelled claim.workflowId := by
  intro cancelled
  cases reply with
  | claimed claim' =>
      obtain rfl := List.mem_singleton.mp new
      obtain ⟨a, w, worker, duration, now, call, ok⟩ := run_claimed h
      obtain ⟨r, hr, attempts, rfl, rfl, -, ⟨v, hv, id, running⟩, -⟩ := claimNext_claimed ok
      rw [cancelled.status_eq hv id] at running
      cases running
  | renewed claim' =>
      obtain rfl := List.mem_singleton.mp new
      obtain ⟨claim', duration, now, call, rfl⟩ := run_renewed h
      have mem := i.held held (.inr (.inl ⟨duration, now, call⟩))
      rw [call] at h
      obtain ⟨⟨_, _⟩, ok, -⟩ := map_ok h
      obtain ⟨row, events, current, -⟩ := heartbeat_ok ok
      have flow : row.workflowId = claim'.workflowId := i.claim_flow mem current
      have cancelled' : s.db.IsCancelled row.workflowId := flow ▸ cancelled
      exact q.not_running current.mem cancelled' current.running
  | _ => cases new

theorem Settled.step (i : Integrity D s') (q : Quiet s') (respects : RespectsCancellation s' c)
    (S : Settled s s') : Settled s (Service.step D s' c) := by
  obtain ⟨reply, db, held, ok, eq⟩ | ⟨db, claims, -⟩ := Service.step_cases D s' c
  · rw [eq]
    refine ⟨fun w cancelled => ?_, fun r hr cancelled unfinished => ?_,
      fun claim mem cancelled => ?_, fun e he cancelled => ?_⟩
    · exact isCancelled_kept i q held ok respects (S.status w cancelled)
    · obtain ⟨p, hp, id, flow, still⟩ := S.items r hr cancelled unfinished
      obtain ⟨p', hp', m⟩ := (transact_items ok).forth p hp
      have cancelled' : s'.db.IsCancelled p.workflowId := flow ▸ S.status _ cancelled
      have same := m.sameDefinition
      refine ⟨p', hp', same.id.trans id, same.workflowId.trans flow, ?_⟩
      have now_ : p.status = .succeeded ∨ p.status = .cancelled ∨ p.status = .ready :=
        .inr (still.imp_right (·.1))
      rcases item_move_cancelled i respects hp cancelled' now_ m with h | h | ⟨done, -⟩
      · rwa [h]
      · exact .inl h
      · simp [done] at still
    · rcases List.mem_append.mp mem with old | new
      · exact S.claims claim old cancelled
      · exact absurd (S.status _ cancelled) (claims_kept i q held ok new)
    · obtain ⟨f, hf, id, flow, count⟩ := S.effects e he cancelled
      obtain ⟨f', hf', m⟩ := (transact_effects ok).forth f hf
      have same := m.sameProposal
      refine ⟨f', hf', same.id.trans id, same.workflowId.trans flow, ?_⟩
      cases m with
      | keep => exact count
      | approve => exact count
      | reject => exact count
      | execute call admitted =>
          have alone := respects _ (S.status _ cancelled)
          rw [call, ← flow] at alone
          exact absurd (.execute f _ hf admitted) alone
  · refine ⟨?_, ?_, ?_, ?_⟩
    · rw [db]
      exact S.status
    · rw [db]
      exact S.items
    · rw [claims]
      exact S.claims
    · rw [db]
      exact S.effects

end Step

/-! ## Runs -/

section Run

variable (D : Digests)

theorem quiet_run {calls : List Call} {s : Service} (i : Integrity D s) (q : Quiet s)
    (respects : Run.Along (Service.step D) RespectsCancellation s calls) :
    Integrity D (Run.exec (Service.step D) s calls) ∧ Quiet (Run.exec (Service.step D) s calls) :=
  respects.preserves (I := fun s => Integrity D s ∧ Quiet s) ⟨i, q⟩
    fun _ c h guard => ⟨h.1.step c, quiet_step h.1 h.2 guard⟩

/-- Along a run whose steps respect cancellation, every workflow that is cancelled at
some point stays cancelled, and nothing in it runs again. -/
theorem cancellation_final (before later : List Call)
    (respects : Run.Along (Service.step D) RespectsCancellation Service.init (before ++ later)) :
    CancellationFinal (Run.exec (Service.step D) Service.init before)
      (Run.exec (Service.step D) Service.init (before ++ later)) := by
  obtain ⟨first, second⟩ := Run.along_append.mp respects
  have start : Integrity D Service.init ∧ Quiet Service.init :=
    ⟨.init D, fun r hr => by cases hr⟩
  obtain ⟨i, q⟩ := quiet_run D start.1 start.2 first
  rw [Run.exec_append]
  have kept := second.preserves
    (I := fun s' => (Integrity D s' ∧ Quiet s') ∧ Settled _ s') ⟨⟨i, q⟩, .refl q⟩
    fun s' c h guard => ⟨⟨h.1.1.step c, quiet_step h.1.1 h.1.2 guard⟩, h.2.step h.1.1 h.1.2 guard⟩
  exact kept.2.final

end Run

namespace Sample

/-- A workflow with one plain item is cancelled. -/
def cancelled : List Call :=
  started [(Uuid.ofNat 4, plain)] ++ [.make (.cancelWorkflow workflow 1)]

/-- The cancelled workflow is paused and started again. -/
def restart : List Call := [.make (.pauseWorkflow workflow 2), .make (.startWorkflow workflow 3)]

end Sample

/-- A pause takes a cancelled workflow out of its status, after which it can be started. -/
theorem cancelled_restarted :
    ¬ CancellationFinal (Sample.run Sample.cancelled)
      (Sample.run (Sample.cancelled ++ Sample.restart)) := by
  intro final
  have before : (Sample.run Sample.cancelled).db.IsCancelled Sample.workflow :=
    ⟨⟨Sample.workflow, Sample.outcome, "Workflow", .cancelled, 0, 1⟩, by decide, rfl, rfl⟩
  have after := final.status _ before
  have row : (⟨Sample.workflow, Sample.outcome, "Workflow", .running, 0, 3⟩ : WorkflowRow) ∈
      (Sample.run (Sample.cancelled ++ Sample.restart)).db.workflows := by decide
  cases after.status_eq row rfl

/-- The run up to the cancellation, and three calls that are refused or find nothing after it. -/
theorem cancellation_final_sample :
    CancellationFinal (Sample.run Sample.cancelled)
      (Sample.run (Sample.cancelled ++ [.make (.startWorkflow Sample.workflow 2),
        .make (.claimNext (Uuid.ofNat 10) Sample.workflow "worker" 30 3),
        .make (.retryWorkItem Sample.workflow "plan")])) := by
  refine cancellation_final Sample.digests Sample.cancelled _
    (Run.along_of_forall fun c hc s => respectsCancellation_of_checked ?_)
  revert c
  decide

end Corvus.Mvp
