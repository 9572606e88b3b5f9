import Corvus.Library.Log
import Corvus.Library.Run
import Corvus.Projects.Writes

/-!
# The audit chain and the recovery checkpoints

The receipts of a workspace are numbered from one and each later one has the hash of the one
before it. A checkpoint moves along the allowed transitions, and the binding that it names is
one for its receipt, its intent and its result.
-/

namespace Corvus.Projects

open Database (allowedRecoveryTransitions replaced)
open Run

variable {db db' : Database}

/-- `append_snapshot`. No snapshot of the workspace has the digest. -/
def Database.appendSnapshot (db : Database) (s : AuthorizationDecisionSnapshot) :
    Except String Database := do
  refuse (∃ t ∈ db.snapshots.rows, t.workspaceId = s.workspaceId ∧
    t.canonicalDigest = s.canonicalDigest) "authorization_snapshot_identity_conflict"
  let snapshots ← present (db.snapshots.insert? s) "authorization_snapshot_identity_conflict"
  return { db with snapshots := snapshots }

/-- A call of a method of the audit repository that writes. -/
inductive AuditCall where
  | appendSnapshot (s : AuthorizationDecisionSnapshot)
  | appendReceipt (r : AuditReceipt)
  | appendResultBinding (b : AuditResultBinding)
  | prepareRecovery (c : AuditAnchorRecoveryCheckpoint)
  | advanceRecovery (c : AuditAnchorRecoveryCheckpoint) (expected : AuditAnchorBindingState)

namespace AuditCall

def perform (db : Database) : AuditCall → Except String Database
  | appendSnapshot s => db.appendSnapshot s
  | appendReceipt r => db.appendReceipt r
  | appendResultBinding b => db.appendResultBinding b
  | prepareRecovery c => db.prepareRecovery c
  | advanceRecovery c expected => db.advanceRecovery c expected

/-- The database after a call. One that raises has changed nothing. -/
def step (db : Database) (call : AuditCall) : Database :=
  match call.perform db with
  | .ok db' => db'
  | .error _ => db

end AuditCall

/-! ## The invariant -/

/-- A receipt has the hash of the one before it, if there is one. -/
def FollowsHash (last : Option AuditReceipt) (r : AuditReceipt) : Prop :=
  ∀ s ∈ last, r.previousHash = s.receiptHash

/-- The receipts of a workspace, as they have been appended. -/
def receiptsOf (db : Database) (ws : Uuid) : List AuditReceipt :=
  db.receipts.rows.filter (·.workspaceId = ws)

/-- The binding that a checkpoint names is one for its receipt, its intent and its result. It
names one once its binding has been persisted, and none before. -/
structure Bound (bindings : Table AuditResultBinding) (c : AuditAnchorRecoveryCheckpoint) :
    Prop where
  late : c.state = .bindingPersisted ∨ c.state = .complete → c.resultBindingId.isSome
  early : c.state = .prepared ∨ c.state = .authorityFinalized → c.resultBindingId = none
  fits : ∀ id ∈ c.resultBindingId, ∃ b ∈ bindings, b.id = id ∧ b.workspaceId = c.workspaceId ∧
    b.auditReceiptId = c.auditReceiptId ∧
    b.authorityCommitIntentId = c.authorityCommitIntentId ∧
    b.preparedResultDigest = c.preparedResultDigest

/-- What holds of the receipts and the checkpoints. -/
structure Audited (db : Database) : Prop where
  receipts : ∀ ws, Log (·.workspaceSequence) FollowsHash (receiptsOf db ws)
  bound : ∀ c ∈ db.checkpoints, Bound db.bindings c

/-- A checkpoint after a call: as before, or in a state that the one before allows. -/
def Proceeds (c d : AuditAnchorRecoveryCheckpoint) : Prop :=
  d = c ∨ d.state ∈ allowedRecoveryTransitions c.state ∧
    d = { c with state := d.state, resultBindingId := d.resultBindingId, updatedAt := d.updatedAt }

theorem Bound.mono {bindings bindings' : Table AuditResultBinding}
    {c : AuditAnchorRecoveryCheckpoint} (h : Bound bindings c)
    (kept : ∀ b ∈ bindings, b ∈ bindings') : Bound bindings' c := by
  refine { h with fits := fun id named => ?_ }
  obtain ⟨b, mem, fits⟩ := h.fits id named
  exact ⟨b, kept b mem, fits⟩

theorem listReceipts_eq (h : Audited db) (ws : Uuid) : db.listReceipts ws = receiptsOf db ws :=
  (h.receipts ws).insertionSort

theorem audited_appendReceipt {r : AuditReceipt} (appends : db.Appends r db') (h : Audited db) :
    Audited db' := by
  obtain ⟨receipts, inserted, rfl⟩ := appends.stored
  refine ⟨fun ws => ?_, h.bound⟩
  rw [receiptsOf, (Table.insert?_eq_some.mp inserted).2]
  refine (h.receipts ws).filter_append fun its => ?_
  obtain rfl := of_decide_eq_true its
  have sequence := appends.sequence
  have previous := appends.previous
  rw [listReceipts_eq h] at sequence previous
  rw [(h.receipts _).number_getLast?] at sequence
  exact ⟨sequence, previous⟩

theorem audited_appendResultBinding {b : AuditResultBinding} (binds : db.Binds b db')
    (h : Audited db) : Audited db' := by
  obtain ⟨bindings, inserted, rfl⟩ := binds.stored
  refine ⟨h.receipts, fun c mem => (h.bound c mem).mono fun d there => ?_⟩
  exact Table.mem_append_of_mem (Table.insert?_eq_some.mp inserted).2 there

theorem audited_prepareRecovery {c : AuditAnchorRecoveryCheckpoint} (recovers : db.Recovers c db')
    (h : Audited db) : Audited db' := by
  obtain ⟨checkpoints, inserted, rfl⟩ := recovers.stored
  refine ⟨h.receipts, fun d mem => ?_⟩
  rw [Table.mem_iff, (Table.insert?_eq_some.mp inserted).2, List.mem_append,
    List.mem_singleton] at mem
  obtain mem | rfl := mem
  · exact h.bound d mem
  · refine ⟨fun late => ?_, fun _ => recovers.unbound, fun id named => ?_⟩
    · rw [recovers.prepared] at late
      exact absurd late (by simp)
    · rw [recovers.unbound] at named
      exact absurd named (by simp)

/-- What passes the check of its binding is bound. -/
theorem bound_of_validated {c : AuditAnchorRecoveryCheckpoint}
    (ok : db.validateRecoveryBinding c = .ok ()) : Bound db.bindings c := by
  unfold Database.validateRecoveryBinding at ok
  by_cases required : Database.bindingRequired c = true
  · rw [if_pos required] at ok
    obtain ⟨id, named, rest⟩ := bind_eq_ok.mp ok
    obtain ⟨b, found, rest⟩ := bind_eq_ok.mp rest
    have named := present_eq_ok.mp named
    obtain ⟨mem, here, its⟩ := Database.getResultBinding_eq_some.mp (present_eq_ok.mp found)
    refine ⟨fun _ => named ▸ rfl, fun early => ?_, fun id' named' => ?_⟩
    · obtain at_ | at_ := early
      all_goals
        rw [Database.bindingRequired, at_] at required
        exact absurd required (by simp)
    · obtain rfl := Option.some_inj.mp (named.symm.trans named')
      exact ⟨b, mem, here, its, require_eq_ok.mp rest⟩
  · rw [if_neg required] at ok
    have unnamed := require_eq_ok.mp ok
    refine ⟨fun late => ?_, fun _ => unnamed, fun id named => ?_⟩
    · obtain at_ | at_ := late
      all_goals
        rw [Database.bindingRequired, at_] at required
        exact absurd required (by simp)
    · rw [unnamed] at named
      exact absurd named (by simp)

/-- The row that takes the place of the stored checkpoint is what the call carries. -/
theorem replaced_eq {c d : AuditAnchorRecoveryCheckpoint} (same : d.id = c.id)
    (workspace : d.workspaceId = c.workspaceId) (receipt : d.auditReceiptId = c.auditReceiptId)
    (intent : d.authorityCommitIntentId = c.authorityCommitIntentId)
    (digest : d.preparedResultDigest = c.preparedResultDigest) : replaced c d = c := by
  cases c
  cases d
  subst same workspace receipt intent digest
  rfl

/-- The checkpoints after one of them has moved, and how it has. -/
theorem of_mem_replaced {c e : AuditAnchorRecoveryCheckpoint} {expected : AuditAnchorBindingState}
    (h : db.Checkpoints c expected db') (mem : e ∈ db.checkpoints) :
    replaced c e = c ∧ Proceeds e c ∨ e.id ≠ c.id := by
  by_cases its : e.id = c.id
  · obtain ⟨d, found, state, receipt, intent, digest⟩ := h.current
    obtain ⟨there, here, workspace⟩ := Database.getRecoveryCheckpoint_eq_some.mp found
    obtain rfl : e = d := Table.eq_of_key mem there (its.trans here.symm)
    have row := replaced_eq here workspace receipt intent digest
    refine .inl ⟨row, .inr ⟨state ▸ h.allowed, ?_⟩⟩
    exact row.symm
  · exact .inr its

theorem audited_advanceRecovery {c : AuditAnchorRecoveryCheckpoint}
    {expected : AuditAnchorBindingState} (checkpoints : db.Checkpoints c expected db')
    (h : Audited db) : Audited db' := by
  obtain rfl := checkpoints.stored
  refine ⟨h.receipts, fun d mem => ?_⟩
  obtain ⟨mem, -⟩ | ⟨e, there, its, rfl⟩ := Table.of_mem_update mem
  · exact h.bound d mem
  · obtain ⟨row, -⟩ | other := of_mem_replaced checkpoints there
    · rw [row]
      exact bound_of_validated checkpoints.binding
    · exact absurd (of_decide_eq_true its) other

/-! ## Runs -/

theorem audited_step (h : Audited db) (call : AuditCall) : Audited (call.step db) := by
  unfold AuditCall.step
  cases performed : call.perform db with
  | error e => exact h
  | ok db' =>
    cases call with
    | appendSnapshot s =>
      obtain ⟨_, -, rest⟩ := bind_eq_ok.mp performed
      obtain ⟨_, -, rest⟩ := bind_eq_ok.mp rest
      obtain rfl := Except.ok.inj rest
      exact ⟨h.receipts, h.bound⟩
    | appendReceipt r => exact audited_appendReceipt (Database.appendReceipt_eq_ok.mp performed) h
    | appendResultBinding b =>
      exact audited_appendResultBinding (Database.appendResultBinding_eq_ok.mp performed) h
    | prepareRecovery c =>
      exact audited_prepareRecovery (Database.prepareRecovery_eq_ok.mp performed) h
    | advanceRecovery c expected =>
      exact audited_advanceRecovery (Database.advanceRecovery_eq_ok.mp performed) h

theorem proceeds_step (db : Database) (call : AuditCall) :
    Table.Evolves db.checkpoints (call.step db).checkpoints Proceeds (·.state = .prepared) := by
  unfold AuditCall.step
  cases performed : call.perform db with
  | error e => exact .refl fun c _ => .inl rfl
  | ok db' =>
    cases call with
    | appendSnapshot s =>
      obtain ⟨_, -, rest⟩ := bind_eq_ok.mp performed
      obtain ⟨_, -, rest⟩ := bind_eq_ok.mp rest
      obtain rfl := Except.ok.inj rest
      exact .refl fun c _ => .inl rfl
    | appendReceipt r =>
      obtain ⟨_, -, rfl⟩ := (Database.appendReceipt_eq_ok.mp performed).stored
      exact .refl fun c _ => .inl rfl
    | appendResultBinding b =>
      obtain ⟨_, -, rfl⟩ := (Database.appendResultBinding_eq_ok.mp performed).stored
      exact .refl fun c _ => .inl rfl
    | prepareRecovery c =>
      have recovers := Database.prepareRecovery_eq_ok.mp performed
      obtain ⟨_, inserted, rfl⟩ := recovers.stored
      exact .insert (Table.insert?_eq_some.mp inserted).2 (fun c _ => .inl rfl) recovers.prepared
    | advanceRecovery c expected =>
      have checkpoints := Database.advanceRecovery_eq_ok.mp performed
      rw [checkpoints.stored]
      refine .update (fun c _ _ => .inl rfl) fun e mem its => ?_
      obtain ⟨row, proceeds⟩ | other := of_mem_replaced checkpoints mem
      · rw [row]
        exact proceeds
      · exact absurd (of_decide_eq_true its) other

/-- What holds of the receipts and the checkpoints after a run. -/
structure AuditConsistency (start : Database) (calls : List AuditCall) : Prop where
  receipts : ∀ ws, Log (·.workspaceSequence) FollowsHash
    (receiptsOf (exec AuditCall.step start calls) ws)
  path : ∀ before call after, calls = before ++ call :: after →
    Table.Evolves (exec AuditCall.step start before).checkpoints
      (exec AuditCall.step start (before ++ [call])).checkpoints Proceeds (·.state = .prepared)
  bound : ∀ c ∈ (exec AuditCall.step start calls).checkpoints,
    Bound (exec AuditCall.step start calls).bindings c
  failed : ∀ before call after e, calls = before ++ call :: after →
    call.perform (exec AuditCall.step start before) = .error e →
      exec AuditCall.step start (before ++ [call]) = exec AuditCall.step start before

/-- The audit stays consistent in every run from a database without receipts and checkpoints. -/
theorem audit_consistent {start : Database} (receipts : start.receipts = ∅)
    (checkpoints : start.checkpoints = ∅) (calls : List AuditCall) :
    AuditConsistency start calls := by
  have audited : Audited (exec AuditCall.step start calls) := by
    refine preserves (I := Audited) ⟨fun ws => ?_, fun c mem => ?_⟩
      (fun _ call h => audited_step h call) calls
    · rw [receiptsOf, receipts]
      exact Log.nil
    · rw [checkpoints] at mem
      exact absurd mem Table.not_mem_empty
  refine ⟨audited.receipts, ?_, audited.bound, ?_⟩
  · intro before call after _
    rw [exec_append]
    exact proceeds_step _ call
  · intro before call after e _ failed
    rw [exec_append, exec_cons, exec_nil, AuditCall.step, failed]

/-! ## A checkpoint that is quarantined with its binding -/

namespace QuarantinedCheckpoint

def workspace : Uuid := Uuid.ofNat 1

def digest : String := "1111111111111111111111111111111111111111111111111111111111111111"

def snapshot : AuthorizationDecisionSnapshot where
  id := Uuid.ofNat 2
  workspaceId := workspace
  requestContextId := Uuid.ofNat 3
  authorityGeneration := 0
  authorityStateRoot := digest
  authorityCommitReceiptId := Uuid.ofNat 4
  scopeKind := "workspace"
  scopeId := workspace
  requesterId := Uuid.ofNat 5
  policyDigest := digest
  decision := .allow
  reasonCode := "allowed"
  canonicalInputsJson := []
  canonicalDigest := digest
  signingKeyVersionId := Uuid.ofNat 6
  createdAt := 0
  rest := []

def receipt : AuditReceipt where
  id := Uuid.ofNat 7
  workspaceId := workspace
  workspaceSequence := 1
  schemaVersion := 1
  priorAuthorityEpoch := 1
  priorAuthorityGeneration := 0
  priorAuthorityStateRoot := digest
  priorAuthorityCommitReceiptId := Uuid.ofNat 4
  authorityCommitIntentId := Uuid.ofNat 8
  intendedMutationDigest := digest
  requestContextId := Uuid.ofNat 3
  authorizationSnapshotId := Uuid.ofNat 2
  authorizationSnapshotDigest := digest
  action := "project.create"
  resource := "project"
  decision := .allow
  reasonCode := "allowed"
  policyDigest := digest
  sanitizedInputDigest := digest
  rest := AuditReceipt.defaults
  signingKeyVersionId := Uuid.ofNat 6
  previousHash := digest
  receiptHash := digest
  receiptSignature := "signature"
  createdAt := 0

def binding : AuditResultBinding where
  id := Uuid.ofNat 9
  workspaceId := workspace
  auditReceiptId := Uuid.ofNat 7
  auditReceiptHash := digest
  authorityCommitIntentId := Uuid.ofNat 8
  preparedResultDigest := digest
  finalizedAuthorityEpoch := 1
  finalizedAuthorityGeneration := 1
  finalizedAuthorityStateRoot := digest
  authorityCommitReceiptId := Uuid.ofNat 4
  authorityCommitReceiptDigest := digest
  signingKeyVersionId := Uuid.ofNat 6
  bindingHash := digest
  bindingSignature := "signature"
  createdAt := 0

def checkpoint (state : AuditAnchorBindingState) (bound : Option Uuid) :
    AuditAnchorRecoveryCheckpoint where
  id := Uuid.ofNat 10
  workspaceId := workspace
  auditReceiptId := Uuid.ofNat 7
  authorityCommitIntentId := Uuid.ofNat 8
  preparedResultDigest := digest
  state := state
  resultBindingId := bound
  updatedAt := 0

def calls : List AuditCall := [
  .appendSnapshot snapshot,
  .appendReceipt receipt,
  .prepareRecovery (checkpoint .prepared none),
  .advanceRecovery (checkpoint .authorityFinalized none) .prepared,
  .appendResultBinding binding,
  .advanceRecovery (checkpoint .bindingPersisted (some (Uuid.ofNat 9))) .authorityFinalized,
  .advanceRecovery (checkpoint .quarantined (some (Uuid.ofNat 9))) .bindingPersisted]

theorem checkpoint_rows : (exec AuditCall.step .bare calls).checkpoints.rows =
    [checkpoint .quarantined (some (Uuid.ofNat 9))] := by
  rfl

/-- A checkpoint names its binding in another state as well. -/
theorem quarantined_checkpoint_is_bound :
    ¬ ∀ c ∈ (exec AuditCall.step .bare calls).checkpoints,
      c.resultBindingId.isSome ↔ c.state = .bindingPersisted ∨ c.state = .complete := by
  intro exactly
  have mem : checkpoint .quarantined (some (Uuid.ofNat 9)) ∈
      (exec AuditCall.step .bare calls).checkpoints := by
    rw [Table.mem_iff, checkpoint_rows]
    exact List.mem_singleton_self _
  exact absurd ((exactly _ mem).mp rfl) (by decide)

/-- The same run, in which the audit is consistent all the same. -/
theorem calls_consistent : AuditConsistency .bare calls := audit_consistent rfl rfl calls

end QuarantinedCheckpoint

end Corvus.Projects
