import Corvus.Mvp.Core
import Corvus.Library.Run

/-!
# Runs of the service

`run_next` is cut here at its transactions. A `Task` is a worker between two of
them, with the values it holds; a worker that stops leaves its task unresumed. The
state of the system is the database with the claims that workers have been handed
and the tasks they are in, and a `Call` is one transaction of anybody. A call with
a claim or a task that nobody holds is not made: it leaves the state alone.
-/

namespace Corvus.Mvp

/-- One transaction of the service, with its arguments, its fresh ids and its reading
of the clock. -/
inductive Transaction where
  | createProject (id : Uuid) (name tenantId : String) (now : Instant)
  | createOutcome (id projectId : Uuid) (title : String) (criteria : List String) (now : Instant)
  | createWorkflow (id outcomeId : Uuid) (name : String)
      (items : List (Uuid × WorkItemDefinition)) (now : Instant)
  | startWorkflow (workflowId : Uuid) (now : Instant)
  | pauseWorkflow (workflowId : Uuid) (now : Instant)
  | cancelWorkflow (workflowId : Uuid) (now : Instant)
  | claimNext (attemptId workflowId : Uuid) (workerId : String) (leaseDuration : Int)
      (now : Instant)
  | readItem (itemId : Uuid)
  | completeClaim (ids : CompletionIds) (claim : WorkClaim)
      (result : Option (List (String × Json))) (now : Instant)
  | heartbeat (claim : WorkClaim) (leaseDuration : Int) (now : Instant)
  | failClaim (claim : WorkClaim) (error : String) (now : Instant)
  | retryWorkItem (workflowId : Uuid) (key : String)
  | recoverWorkflow (workflowId : Uuid) (now : Instant)
  | ensureEffect (item : WorkItemRow)
  | waitForApproval (claim : WorkClaim) (effectId : Uuid) (now : Instant)
  | approveEffect (approvalId effectId : Uuid) (actorId : String) (now : Instant)
  | rejectEffect (approvalId effectId : Uuid) (actorId : String) (now : Instant)
  | executeEffect (effectId : Uuid) (now : Instant)
  | setBudget (projectId : Uuid) (limitUnits : Int)
  | setKillSwitch (scopeKind scopeId : String) (enabled : Bool)

/-- What a transaction returns, as far as a worker goes on with it. -/
inductive Reply where
  | done
  | claimed (claim : WorkClaim)
  | renewed (claim : WorkClaim)
  | item (row : WorkItemRow)
  | effect (row : EffectRow)
  | result (value : List (String × Json))

/-- A reply that nobody goes on with. -/
def Reply.finish {α : Type} (out : α × Db) : Reply × Db := (.done, out.2)

/-- The body of a transaction. -/
def Transaction.run (D : Digests) (db : Db) : Transaction → Except Error (Reply × Db)
  | createProject id name tenantId now => Reply.finish <$> db.createProject id name tenantId now
  | createOutcome id projectId title criteria now =>
      Reply.finish <$> db.createOutcome id projectId title criteria now
  | createWorkflow id outcomeId name items now =>
      Reply.finish <$> db.createWorkflow id outcomeId name items now
  | startWorkflow workflowId now => Reply.finish <$> db.startWorkflow workflowId now
  | pauseWorkflow workflowId now => Reply.finish <$> db.pauseWorkflow workflowId now
  | cancelWorkflow workflowId now => Reply.finish <$> db.cancelWorkflow workflowId now
  | claimNext attemptId workflowId workerId leaseDuration now =>
      (fun out => (out.1.elim .done .claimed, out.2)) <$>
        db.claimNext attemptId workflowId workerId leaseDuration now
  | readItem itemId =>
      (fun row => (.item row, db)) <$> found "work_item_not_found" (db.workItems.get? itemId)
  | completeClaim ids claim result now => Reply.finish <$> db.completeClaim D ids claim result now
  | heartbeat claim leaseDuration now =>
      (fun out => (.renewed out.1, out.2)) <$> db.heartbeat claim leaseDuration now
  | failClaim claim error now => Reply.finish <$> db.failClaim claim error now
  | retryWorkItem workflowId key => Reply.finish <$> db.retryWorkItem workflowId key
  | recoverWorkflow workflowId now => Reply.finish <$> db.recoverWorkflow workflowId now
  | ensureEffect item => (fun out => (.effect out.1, out.2)) <$> db.ensureEffect D item
  | waitForApproval claim effectId now => Reply.finish <$> db.waitForApproval claim effectId now
  | approveEffect approvalId effectId actorId now =>
      Reply.finish <$> db.approveEffect approvalId effectId actorId now
  | rejectEffect approvalId effectId actorId now =>
      Reply.finish <$> db.rejectEffect approvalId effectId actorId now
  | executeEffect effectId now =>
      (fun out => (.result out.1, out.2)) <$> db.executeEffect D effectId now
  | setBudget projectId limitUnits => Reply.finish <$> db.setBudget projectId limitUnits
  | setKillSwitch scopeKind scopeId enabled =>
      Reply.finish <$> db.setKillSwitch scopeKind scopeId enabled

/-- A worker inside `run_next`, before its next transaction. -/
inductive Task where
  /-- The claim was handed out, its row is not read yet. -/
  | claimed (claim : WorkClaim)
  /-- The row was read. -/
  | holding (claim : WorkClaim) (item : WorkItemRow)
  /-- `_ensure_effect` returned the effect of the item. -/
  | proposed (claim : WorkClaim) (item : WorkItemRow) (effect : EffectRow)
  /-- The effect was executed. -/
  | executed (claim : WorkClaim) (result : List (String × Json))
deriving DecidableEq

namespace Task

/-- The claim a task works under. -/
def claim : Task → WorkClaim
  | claimed claim => claim
  | holding claim _ => claim
  | proposed claim _ _ => claim
  | executed claim _ => claim

/-- The next transaction of `run_next`. -/
def next (ids : CompletionIds) (now : Instant) : Task → Transaction
  | claimed claim => .readItem claim.workItemId
  | holding claim item =>
      match item.effect with
      | none => .completeClaim ids claim none now
      | some _ => .ensureEffect item
  | proposed claim item effect =>
      if item.requiresApproval = true ∧ effect.approvalId = none then
        .waitForApproval claim effect.id now
      else .executeEffect effect.id now
  | executed claim result => .completeClaim ids claim (some result) now

/-- What is left of `run_next` after the reply of that transaction. -/
def after : Task → Reply → Option Task
  | claimed claim, .item row => some (holding claim row)
  | holding claim item, .effect effect => some (proposed claim item effect)
  | proposed claim _ _, .result result => some (executed claim result)
  | _, _ => none

variable {task : Task} {ids : CompletionIds} {now : Instant}

theorem next_ensureEffect {item : WorkItemRow} (h : task.next ids now = .ensureEffect item) :
    ∃ claim, task = holding claim item := by
  unfold next at h
  split at h
  · cases h
  · split at h
    · cases h
    · cases h
      exact ⟨_, rfl⟩
  · split at h
    · cases h
    · cases h
  · cases h

theorem next_waitForApproval {claim : WorkClaim} {e : Uuid} {at_ : Instant}
    (h : task.next ids now = .waitForApproval claim e at_) :
    ∃ item effect, task = proposed claim item effect ∧ item.requiresApproval = true ∧
      effect.approvalId = none ∧ effect.id = e := by
  unfold next at h
  split at h
  · cases h
  · split at h
    · cases h
    · cases h
  · split at h
    · rename_i waits
      cases h
      exact ⟨_, _, rfl, waits.1, waits.2, rfl⟩
    · cases h
  · cases h

theorem next_completeClaim {ids' : CompletionIds} {claim : WorkClaim}
    {result : Option (List (String × Json))} {at_ : Instant}
    (h : task.next ids now = .completeClaim ids' claim result at_) : task.claim = claim := by
  unfold next at h
  split at h
  · cases h
  · split at h
    · cases h
      rfl
    · cases h
  · split at h
    · cases h
    · cases h
  · cases h
    rfl

/-- A task never makes these calls. -/
theorem next_ne (task : Task) (ids : CompletionIds) (now : Instant) :
    (∀ a w worker duration at_, task.next ids now ≠ .claimNext a w worker duration at_) ∧
    (∀ claim duration at_, task.next ids now ≠ .heartbeat claim duration at_) ∧
    (∀ claim error at_, task.next ids now ≠ .failClaim claim error at_) := by
  unfold next
  split
  · simp
  · split <;> simp
  · split <;> simp
  · simp

end Task

/-- The database, the claims that have been handed out, and the running tasks. -/
structure Service where
  db : Db
  claims : List WorkClaim
  tasks : List Task

/-- One step of anybody: a method of the service, or the next transaction of a task. -/
inductive Call where
  | make (t : Transaction)
  | resume (task : Task) (ids : CompletionIds) (now : Instant)

namespace Call

def transaction : Call → Transaction
  | make t => t
  | resume task ids now => task.next ids now

/-- Whether somebody holds what the call is made with. The transactions that only
`run_next` contains are made by resuming a task. -/
def held (s : Service) : Call → Bool
  | make (.completeClaim _ claim _ _) => decide (claim ∈ s.claims)
  | make (.heartbeat claim _ _) => decide (claim ∈ s.claims)
  | make (.failClaim claim _ _) => decide (claim ∈ s.claims)
  | make (.readItem _) => false
  | make (.ensureEffect _) => false
  | make (.waitForApproval _ _ _) => false
  | make _ => true
  | resume task _ _ => decide (task ∈ s.tasks)

/-- The claims that the caller holds after the reply. -/
def claims : Reply → List WorkClaim
  | .claimed claim => [claim]
  | .renewed claim => [claim]
  | _ => []

/-- The tasks that go on after the reply. The receiver of a claim may go on as
`run_next` does. -/
def tasks : Call → Reply → List Task
  | make _, .claimed claim => [.claimed claim]
  | make _, _ => []
  | resume task _ _, reply => (task.after reply).toList

end Call

namespace Service

/-- A service on a fresh database. -/
def init : Service := ⟨Db.empty, [], []⟩

/-- The task that a call resumes is taken up, whether its transaction raises or not. -/
def take (s : Service) : Call → Service
  | .make _ => s
  | .resume task _ _ => { s with tasks := s.tasks.erase task }

/-- One call of anybody. -/
def step (D : Digests) (s : Service) (c : Call) : Service :=
  if c.held s then
    match c.transaction.run D s.db with
    | .ok (reply, db) => ⟨db, s.claims ++ Call.claims reply, (s.take c).tasks ++ c.tasks reply⟩
    | .error _ => s.take c
  else s

/-- The states of the service that some run from a fresh database reaches. -/
def Reachable (D : Digests) (s : Service) : Prop := Run.Reachable (step D) init s

variable {D : Digests} {s : Service} {c : Call}

@[simp] theorem take_db : (s.take c).db = s.db := by
  cases c <;> rfl

@[simp] theorem take_claims : (s.take c).claims = s.claims := by
  cases c <;> rfl

theorem mem_of_mem_take {t : Task} (h : t ∈ (s.take c).tasks) : t ∈ s.tasks := by
  cases c with
  | make t => exact h
  | resume task ids now => exact List.mem_of_mem_erase h

/-- A step either commits the transaction of a held call, or leaves the database and
the claims as they are and adds no task. -/
theorem step_cases (D : Digests) (s : Service) (c : Call) :
    (∃ reply db, c.held s = true ∧ c.transaction.run D s.db = .ok (reply, db) ∧
      step D s c = ⟨db, s.claims ++ Call.claims reply, (s.take c).tasks ++ c.tasks reply⟩) ∨
    ((step D s c).db = s.db ∧ (step D s c).claims = s.claims ∧
      ∀ t ∈ (step D s c).tasks, t ∈ s.tasks) := by
  unfold step
  by_cases held : c.held s = true
  · rw [if_pos held]
    cases h : c.transaction.run D s.db with
    | ok out => exact .inl ⟨out.1, out.2, held, rfl, rfl⟩
    | error e => exact .inr ⟨take_db, take_claims, fun t ht => mem_of_mem_take ht⟩
  · rw [if_neg held]
    exact .inr ⟨rfl, rfl, fun t ht => ht⟩

/-- Every claim that a transaction is made with has been handed out. -/
theorem held_claim {claim : WorkClaim} (tasks : ∀ t ∈ s.tasks, t.claim ∈ s.claims)
    (held : c.held s = true)
    (call : (∃ ids result now, c.transaction = .completeClaim ids claim result now) ∨
      (∃ duration now, c.transaction = .heartbeat claim duration now) ∨
      (∃ error now, c.transaction = .failClaim claim error now) ∨
      ∃ e now, c.transaction = .waitForApproval claim e now) : claim ∈ s.claims := by
  cases c with
  | make t =>
      obtain ⟨ids, result, now, call⟩ | ⟨duration, now, call⟩ | ⟨error, now, call⟩ |
        ⟨e, now, call⟩ := call
      · change t = _ at call
        subst call
        exact of_decide_eq_true held
      · change t = _ at call
        subst call
        exact of_decide_eq_true held
      · change t = _ at call
        subst call
        exact of_decide_eq_true held
      · change t = _ at call
        subst call
        cases held
  | resume task ids now =>
      have mem := tasks task (of_decide_eq_true held)
      obtain ⟨-, beat, fail⟩ := task.next_ne ids now
      obtain ⟨ids', result, now', call⟩ | ⟨duration, now', call⟩ | ⟨error, now', call⟩ |
        ⟨e, now', call⟩ := call
      · rwa [Task.next_completeClaim call] at mem
      · exact absurd call (beat _ _ _)
      · exact absurd call (fail _ _ _)
      · obtain ⟨item, effect, rfl, -⟩ := Task.next_waitForApproval call
        exact mem

/-- The rule for facts about the database: it is enough that a committed transaction
brings them about. -/
theorem step_db {P : Db → Prop} (same : P s.db)
    (commit : ∀ reply db, c.held s = true → c.transaction.run D s.db = .ok (reply, db) → P db) :
    P (step D s c).db := by
  obtain ⟨reply, db, held, ok, after⟩ | ⟨after, -, -⟩ := step_cases D s c
  · rw [after]
    exact commit reply db held ok
  · rw [after]
    exact same

end Service

/-! ## Small runs

Digests and definitions for runs on concrete inputs. -/

namespace Sample

/-- Every text is its own digest, and ids are a polynomial of the bytes. -/
def digests : Digests where
  sha256 text := text
  uuid5 name := Uuid.ofNat
    (name.toUTF8.data.toList.foldl (fun h c => (h * 257 + c.toNat) % 2 ^ 127) 7)

def binding : EffectBinding where
  kind := .filesystem
  target := "report.md"
  payload := []
  target_length := by decide

/-- An item without an effect. -/
def plain : WorkItemDefinition where
  key := "plan"
  title := "Plan"
  dependsOn := []
  costUnits := 0
  requiresApproval := false
  effect := none
  key_pattern := by decide
  title_length := by decide
  approval_requires_effect := by decide
  budget_cost_requires_effect := by decide
  not_self_dependent := by decide

/-- An item with an effect that costs two units. -/
def writing (requiresApproval : Bool) : WorkItemDefinition where
  key := "write"
  title := "Write"
  dependsOn := []
  costUnits := 2
  requiresApproval := requiresApproval
  effect := some binding
  key_pattern := by decide
  title_length := by decide
  approval_requires_effect := fun _ => rfl
  budget_cost_requires_effect := fun _ => rfl
  not_self_dependent := by decide

def project : Uuid := Uuid.ofNat 1
def outcome : Uuid := Uuid.ofNat 2
def workflow : Uuid := Uuid.ofNat 3

/-- A started workflow in a project with ten units. -/
def started (items : List (Uuid × WorkItemDefinition)) : List Call :=
  [.make (.createProject project "Project" "local" 0),
    .make (.createOutcome outcome project "Outcome" ["done"] 0),
    .make (.createWorkflow workflow outcome "Workflow" items 0),
    .make (.setBudget project 10),
    .make (.startWorkflow workflow 0)]

/-- The state after a run of the sample service. -/
def run (calls : List Call) : Service := Run.exec (Service.step digests) Service.init calls

/-- The ids that a completion draws. -/
def ids : CompletionIds := ⟨Uuid.ofNat 20, Uuid.ofNat 21, Uuid.ofNat 22, Uuid.ofNat 23⟩

/-- The first claim of an item that writes. -/
def firstClaim (attemptId itemId workflowId : Uuid) (now : Instant) : WorkClaim :=
  ⟨attemptId, itemId, workflowId, "write", "worker", 1, now + 30⟩

/-- The row of the item under that claim. -/
def claimedRow (requiresApproval : Bool) (claim : WorkClaim) : WorkItemRow :=
  WorkItemRow.claim "worker" claim.leaseExpiresAt 1 (WorkItemRow.withStatus .ready
    (Db.newItem claim.workflowId (claim.workItemId, writing requiresApproval)))

/-- The transactions of a worker that runs the item without a break. -/
def work (requiresApproval : Bool) (claim : WorkClaim) (now : Instant) : List Call :=
  let row := claimedRow requiresApproval claim
  [.resume (.claimed claim) ids now, .resume (.holding claim row) ids now,
    .resume (.proposed claim row (Db.proposedEffect digests row binding)) ids now,
    .resume (.executed claim (Db.effectResult digests binding)) ids now]

theorem reachable (calls : List Call) : Service.Reachable digests (run calls) := ⟨calls, rfl⟩

end Sample

end Corvus.Mvp
