import Corvus.Mvp.Integrity

/-!
# Kill switches

`set_kill_switch` accepts three scopes, `claim_next` reads two of them, and an
execution reads none. Along runs in which no covered workflow is claimed from under a
project switch alone and none of its effects is executed, every switch stops its
whole scope; a workflow that no switch covers is never refused.
-/

namespace Corvus.Mvp

open Db

/-- The switch is meant for this workflow: for everything, for its project or for itself. -/
def Db.InScope (db : Db) (k : KillSwitchRow) (w : Uuid) : Prop :=
  (k.scopeKind = .global ∧ k.scopeId = "global") ∨
  (k.scopeKind = .project ∧ ∃ p, db.projectOf w = some p ∧ k.scopeId = p.text) ∨
  (k.scopeKind = .workflow ∧ k.scopeId = w.text)

/-- An enabled switch covers the workflow. -/
def Db.Covered (db : Db) (w : Uuid) : Prop :=
  ∃ k ∈ db.killSwitches, k.enabled = true ∧ db.InScope k w

/-- The transactions that pass a switch of the workflow: a claim that finds a ready item
and none of the switches it reads, and an execution. -/
inductive Passes (db : Db) : Transaction → Uuid → Prop where
  | claim (attemptId w worker duration now r)
      (unread : db.killSwitchEnabled w = false)
      (running : ∃ v ∈ db.workflows, v.id = w ∧ v.status = .running)
      (mem : r ∈ db.workItems) (flow : r.workflowId = w)
      (ready : r.status = .ready ∨
        r.status = .pending ∧ db.dependenciesMet w r.dependsOn = true) :
      Passes db (.claimNext attemptId w worker duration now) w
  | execute (effect now) (mem : effect ∈ db.effects) (admitted : db.AdmitsExecution effect) :
      Passes db (.executeEffect effect.id now) effect.workflowId

/-- The step passes no switch that covers a workflow. -/
def RespectsKillSwitches (s : Service) (c : Call) : Prop :=
  ∀ w, s.db.Covered w → ¬ Passes s.db c.transaction w

/-- The transactions that a kill switch is to stop. -/
def Transaction.stoppable : Transaction → Bool
  | claimNext .. | executeEffect .. => true
  | _ => false

theorem respectsKillSwitches_of_other {s : Service} {c : Call}
    (h : c.transaction.stoppable = false) : RespectsKillSwitches s c := by
  intro w _ passes
  generalize c.transaction = t at h passes
  cases passes <;> cases h

/-- What the switches that cover a workflow promise about one step, and what the others
leave possible. -/
structure KillSwitchesHold (D : Digests) (s : Service) (c : Call) : Prop where
  items : ∀ r ∈ s.db.workItems, s.db.Covered r.workflowId →
    ∀ r' ∈ (Service.step D s c).db.workItems, r'.id = r.id →
      r'.status = .running → r.status = .running ∧ r'.leaseFence = r.leaseFence
  effects : ∀ e ∈ s.db.effects, s.db.Covered e.workflowId →
    ∀ e' ∈ (Service.step D s c).db.effects, e'.id = e.id → e'.executionCount = e.executionCount
  uncovered : ∀ w, ¬ s.db.Covered w → ∀ attemptId worker duration now,
    s.db.claimNext attemptId w worker duration now ≠
      .error (.conflict "workflow_kill_switch_enabled")

section Step

variable {D : Digests} {s : Service} {c : Call} {db : Db} {w : Uuid}

/-- `_kill_switch_enabled` finds only switches that cover the workflow. -/
theorem covered_of_enabled (h : db.killSwitchEnabled w = true) : db.Covered w := by
  simp only [killSwitchEnabled, List.any_eq_true, Bool.and_eq_true, Bool.or_eq_true,
    decide_eq_true_eq] at h
  obtain ⟨k, hk, scope, enabled⟩ := h
  refine ⟨k, hk, enabled, ?_⟩
  rcases scope with h | h
  · exact .inl h
  · exact .inr (.inr h)

theorem claimNext_not_refused (uncovered : ¬ db.Covered w) (attemptId : Uuid) (worker : String)
    (duration : Int) (now : Instant) :
    db.claimNext attemptId w worker duration now ≠
      .error (.conflict "workflow_kill_switch_enabled") := by
  have off : db.killSwitchEnabled w = false := by
    by_contra on
    exact uncovered (covered_of_enabled (by simpa using on))
  intro h
  unfold claimNext requireWorkflow at h
  cases present : db.workflows.get? w with
  | none => simp [present, found, bind, Except.bind] at h
  | some workflow =>
      simp only [present, found, off, bind, Except.bind, Bool.false_eq_true, if_false] at h
      split at h
      · cases h
      · split at h
        · cases h
        · -- what is left to raise is a taken attempt id
          split at h
          · rename_i e raised
            cases h
            unfold insertAttempt admitted at raised
            split at raised
            · cases raised
            · cases raised
          · cases h

theorem step_holds (respects : RespectsKillSwitches s c) : KillSwitchesHold D s c where
  items r hr covered r' hr' id running := by
    obtain ⟨reply, db, -, ok, eq⟩ | ⟨db, -, -⟩ := Service.step_cases D s c
    · rw [eq] at hr'
      obtain ⟨p, hp, m⟩ := (transact_items ok).forth r hr
      have same : r' = p := Table.eq_of_key hr' hp (id.trans m.sameDefinition.id.symm)
      subst same
      cases m with
      | keep => exact ⟨running, rfl⟩
      | claim call flow off ready =>
          have alone := respects r.workflowId covered
          rw [call] at alone
          exact absurd (.claim _ _ _ _ _ r off flow hr rfl ready) alone
      | renew call current => exact ⟨current.running, rfl⟩
      | retry call failed next => rcases next with rfl | ⟨rfl, -⟩ <;> cases running
      | _ => cases running
    · rw [db] at hr'
      obtain rfl := Table.eq_of_key hr' hr id
      exact ⟨running, rfl⟩
  effects e he covered e' he' id := by
    obtain ⟨reply, db, -, ok, eq⟩ | ⟨db, -, -⟩ := Service.step_cases D s c
    · rw [eq] at he'
      obtain ⟨f, hf, m⟩ := (transact_effects ok).forth e he
      have same : e' = f := Table.eq_of_key he' hf (id.trans m.sameProposal.id.symm)
      subst same
      cases m with
      | execute call admitted =>
          have alone := respects e.workflowId covered
          rw [call] at alone
          exact absurd (.execute e _ he admitted) alone
      | _ => rfl
    · rw [db] at he'
      rw [Table.eq_of_key he' he id]
  uncovered w uncovered attemptId worker duration now :=
    claimNext_not_refused uncovered attemptId worker duration now

end Step

/-- Along a run whose steps pass no switch, the switches that are enabled at each step
stop their whole scope, and the other workflows are not refused. -/
theorem kill_switches_hold (D : Digests) (calls : List Call)
    (respects : Run.Along (Service.step D) RespectsKillSwitches Service.init calls) :
    Run.Along (Service.step D) (KillSwitchesHold D) Service.init calls :=
  respects.mono fun _ _ guard => step_holds guard

namespace Sample

/-- A started workflow with one plain item, after a switch is set. -/
def switched (scopeKind scopeId : String) : List Call :=
  started [(Uuid.ofNat 4, plain)] ++ [.make (.setKillSwitch scopeKind scopeId true)]

def claiming : Call := .make (.claimNext (Uuid.ofNat 10) workflow "worker" 30 1)

/-- The row of the item before it is claimed. -/
def readyItem : WorkItemRow := WorkItemRow.withStatus .ready (newItem workflow (Uuid.ofNat 4, plain))

end Sample

/-- A claim does not see the switch of the project. -/
theorem project_switch_passed :
    ¬ KillSwitchesHold Sample.digests (Sample.run (Sample.switched "project" Sample.project.text))
      Sample.claiming := by
  intro hold
  have covered : (Sample.run (Sample.switched "project" Sample.project.text)).db.Covered
      Sample.workflow :=
    ⟨⟨.project, Sample.project.text, true⟩, by decide, rfl,
      .inr (.inl ⟨rfl, Sample.project, by decide, rfl⟩)⟩
  have kept := hold.items Sample.readyItem (by decide) covered
    (WorkItemRow.claim "worker" 31 1 Sample.readyItem) (by decide) rfl rfl
  cases kept.1

/-- Under the global switch the claim is refused, and nothing else of the run is stopped. -/
theorem kill_switches_hold_sample :
    Run.Along (Service.step Sample.digests) (KillSwitchesHold Sample.digests) Service.init
      (Sample.switched "global" "global" ++ [Sample.claiming]) := by
  refine kill_switches_hold Sample.digests _ (Run.along_append.mpr
    ⟨Run.along_of_forall fun c hc s => respectsKillSwitches_of_other ?_, ?_, trivial⟩)
  · revert c
    decide
  · intro w _ passes
    cases passes with
    | claim _ _ _ _ _ _ unread =>
        revert unread
        decide

end Corvus.Mvp
