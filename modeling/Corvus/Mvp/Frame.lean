import Corvus.Mvp.Commits

/-!
# What a transaction leaves alone

The tables that each transaction writes; every other table is as it was. A proof
about one table has to look only at the transactions that write it.
-/

namespace Corvus.Mvp

open Db

inductive TableName where
  | projects | outcomes | workflows | workItems | attempts | checkpoints | artifacts | lineage
  | conversationEntries | effects | approvals | budgets | reservations | killSwitches

open TableName in
/-- The tables a transaction may write; the events are not followed. -/
def Transaction.writes : Transaction → List TableName
  | createProject .. => [projects, budgets]
  | createOutcome .. => [outcomes]
  | createWorkflow .. => [workflows, workItems]
  | startWorkflow .. => [workflows, workItems]
  | pauseWorkflow .. => [workflows]
  | cancelWorkflow .. => [workflows, workItems, budgets, reservations]
  | claimNext .. => [workItems, attempts]
  | readItem .. => []
  | completeClaim .. =>
      [workflows, workItems, attempts, checkpoints, artifacts, lineage, conversationEntries]
  | heartbeat .. => [workItems]
  | failClaim .. => [workItems, attempts]
  | retryWorkItem .. => [workItems]
  | recoverWorkflow .. => [workItems, attempts]
  | ensureEffect .. => [effects, budgets, reservations]
  | waitForApproval .. => [workItems, attempts]
  | approveEffect .. => [workItems, effects, approvals]
  | rejectEffect .. => [workflows, workItems, effects, approvals, budgets, reservations]
  | executeEffect .. => [effects, approvals, budgets, reservations]
  | setBudget .. => [budgets]
  | setKillSwitch .. => [killSwitches]

/-- Every table outside `written` is as it was. -/
structure Frame (db after : Db) (written : List TableName) : Prop where
  projects : .projects ∈ written ∨ after.projects = db.projects
  outcomes : .outcomes ∈ written ∨ after.outcomes = db.outcomes
  workflows : .workflows ∈ written ∨ after.workflows = db.workflows
  workItems : .workItems ∈ written ∨ after.workItems = db.workItems
  attempts : .attempts ∈ written ∨ after.attempts = db.attempts
  checkpoints : .checkpoints ∈ written ∨ after.checkpoints = db.checkpoints
  artifacts : .artifacts ∈ written ∨ after.artifacts = db.artifacts
  lineage : .lineage ∈ written ∨ after.lineage = db.lineage
  conversationEntries : .conversationEntries ∈ written ∨
    after.conversationEntries = db.conversationEntries
  effects : .effects ∈ written ∨ after.effects = db.effects
  approvals : .approvals ∈ written ∨ after.approvals = db.approvals
  budgets : .budgets ∈ written ∨ after.budgets = db.budgets
  reservations : .reservations ∈ written ∨ after.reservations = db.reservations
  killSwitches : .killSwitches ∈ written ∨ after.killSwitches = db.killSwitches

theorem Frame.refl (db : Db) (written : List TableName) : Frame db db written :=
  ⟨.inr rfl, .inr rfl, .inr rfl, .inr rfl, .inr rfl, .inr rfl, .inr rfl, .inr rfl, .inr rfl,
    .inr rfl, .inr rfl, .inr rfl, .inr rfl, .inr rfl⟩

theorem run_frame {D : Digests} {db after : Db} {t : Transaction} {reply : Reply}
    (h : t.run D db = .ok (reply, after)) : Frame db after t.writes := by
  cases t with
  | createProject id name tenantId now =>
      obtain ⟨⟨_, _⟩, ok, eq⟩ := map_ok h
      cases eq
      obtain ⟨projects, budgets, -, -, rfl⟩ := createProject_ok ok
      constructor <;> simp [Transaction.writes]
  | createOutcome id p title criteria now =>
      obtain ⟨⟨_, _⟩, ok, eq⟩ := map_ok h
      cases eq
      obtain ⟨project, outcomes, -, -, -, -, rfl⟩ := createOutcome_ok ok
      constructor <;> simp [Transaction.writes]
  | createWorkflow id o name items now =>
      obtain ⟨⟨_, _⟩, ok, eq⟩ := map_ok h
      cases eq
      obtain ⟨outcome, workflows, workItems, events, -, -, -, -, -, rfl⟩ := createWorkflow_ok ok
      constructor <;> simp [Transaction.writes]
  | startWorkflow w now =>
      obtain ⟨⟨_, _⟩, ok, eq⟩ := map_ok h
      cases eq
      obtain ⟨workflow, events, -, -, rfl⟩ := startWorkflow_ok ok
      constructor <;> simp [Transaction.writes]
  | pauseWorkflow w now =>
      obtain ⟨⟨_, _⟩, ok, eq⟩ := map_ok h
      cases eq
      obtain ⟨workflow, events, -, rfl⟩ := pauseWorkflow_ok ok
      constructor <;> simp [Transaction.writes]
  | cancelWorkflow w now =>
      obtain ⟨⟨_, _⟩, ok, eq⟩ := map_ok h
      cases eq
      obtain ⟨workflow, released, events, -, -, rfl⟩ := cancelWorkflow_ok ok
      constructor <;> simp [Transaction.writes]
  | claimNext attemptId w worker duration now =>
      obtain ⟨⟨_, _⟩, ok, eq⟩ := map_ok h
      cases eq
      obtain ⟨workflow, -, ⟨-, -, rfl⟩ | ⟨-, -, -, -, rfl⟩ |
        ⟨row, attempts, events, -, -, -, -, -, rfl⟩⟩ := claimNext_ok ok
      · exact .refl _ _
      · constructor <;> simp [Transaction.writes]
      · constructor <;> simp [Transaction.writes]
  | readItem id =>
      obtain ⟨_, ok, eq⟩ := map_ok h
      cases eq
      exact .refl _ _
  | completeClaim ids claim result now =>
      obtain ⟨⟨_, _⟩, ok, eq⟩ := map_ok h
      cases eq
      obtain ⟨row, workflows, workItems, _, artifacts, _, _, _, -, -, -, -, rfl⟩ :=
        completeClaim_ok ok
      constructor <;> simp [Transaction.writes]
  | heartbeat claim duration now =>
      obtain ⟨⟨_, _⟩, ok, eq⟩ := map_ok h
      cases eq
      obtain ⟨row, events, -, -, rfl⟩ := heartbeat_ok ok
      constructor <;> simp [Transaction.writes]
  | failClaim claim error now =>
      obtain ⟨⟨_, _⟩, ok, eq⟩ := map_ok h
      cases eq
      obtain ⟨row, events, -, rfl⟩ := failClaim_ok ok
      constructor <;> simp [Transaction.writes]
  | retryWorkItem w itemKey =>
      obtain ⟨⟨_, _⟩, ok, eq⟩ := map_ok h
      cases eq
      obtain ⟨row, -, status, events, -, -, -, -, rfl⟩ := retryWorkItem_ok ok
      constructor <;> simp [Transaction.writes]
  | recoverWorkflow w now =>
      obtain ⟨⟨_, _⟩, ok, eq⟩ := map_ok h
      cases eq
      obtain ⟨workflow, rows, events, -, -, -, rfl⟩ := recoverWorkflow_ok ok
      constructor <;> simp [Transaction.writes]
  | ensureEffect item =>
      obtain ⟨⟨_, _⟩, ok, eq⟩ := map_ok h
      cases eq
      obtain ⟨binding, -, ⟨-, -, rfl⟩ | ⟨effects, proposed, reserved, events, -, -, -, -, -, rfl⟩⟩ :=
        ensureEffect_ok ok
      · exact .refl _ _
      · constructor <;> simp [Transaction.writes]
  | waitForApproval claim e now =>
      obtain ⟨⟨_, _⟩, ok, eq⟩ := map_ok h
      cases eq
      obtain ⟨row, events, -, rfl⟩ := waitForApproval_ok ok
      constructor <;> simp [Transaction.writes]
  | approveEffect approvalId e actor now =>
      obtain ⟨⟨_, _⟩, ok, eq⟩ := map_ok h
      cases eq
      obtain ⟨effect, -, -, ⟨-, rfl⟩ | ⟨approvals, events, -, -, -, rfl⟩⟩ := approveEffect_ok ok
      · exact .refl _ _
      · constructor <;> simp [Transaction.writes]
  | rejectEffect approvalId e actor now =>
      obtain ⟨⟨_, _⟩, ok, eq⟩ := map_ok h
      cases eq
      obtain ⟨effect, -, -, ⟨-, rfl⟩ | ⟨approvals, mid, released, events, -, -, -, rfl, -, rfl⟩⟩ :=
        rejectEffect_ok ok
      · exact .refl _ _
      · constructor <;> simp [Transaction.writes]
  | executeEffect e now =>
      obtain ⟨⟨_, _⟩, ok, eq⟩ := map_ok h
      cases eq
      obtain ⟨effect, -, item, -, approvals, executed, settled, events, -, -, -, -, -, -, rfl, -,
        rfl⟩ := executeEffect_ok ok
      constructor <;> simp [Transaction.writes]
  | setBudget p limit =>
      obtain ⟨⟨_, _⟩, ok, eq⟩ := map_ok h
      cases eq
      obtain ⟨b, -, -, -, rfl⟩ := setBudget_ok ok
      constructor <;> simp [Transaction.writes]
  | setKillSwitch kind id enabled =>
      obtain ⟨⟨_, _⟩, ok, eq⟩ := map_ok h
      cases eq
      obtain ⟨killSwitches, rfl⟩ := setKillSwitch_ok ok
      constructor <;> simp [Transaction.writes]

end Corvus.Mvp
