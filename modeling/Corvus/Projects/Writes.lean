import Corvus.Projects.Store

/-!
# What the writes of a creation do

For each method that writes, what it takes for it to go through and what it leaves behind.
-/

namespace Corvus.Projects

variable {db db' : Database}

namespace Database

/-! ## Authority -/

theorem getCommitIntent_eq_some {ws id : Uuid} {i : AuthorityCommitIntent} :
    db.getCommitIntent ws id = some i ↔ i ∈ db.intents ∧ i.id = id ∧ i.workspaceId = ws := by
  rw [getCommitIntent, Option.filter_eq_some_iff, Table.get?_eq_some]
  simp [key, and_assoc]

theorem getWorkspaceAuthority_eq_some {ws : Uuid} {a : WorkspaceAuthority} :
    db.getWorkspaceAuthority ws = some a ↔ a ∈ db.authorities ∧ a.workspaceId = ws :=
  Table.get?_eq_some

/-- When an intent is stored, and how. -/
structure Prepares (db : Database) (i : AuthorityCommitIntent) (db' : Database) : Prop where
  prepared : i.state = .prepared
  prior : ∃ a, db.getWorkspaceAuthority i.workspaceId = some a ∧ AtPrior a i
  free : ¬ db.InFlight i.workspaceId
  next : i.nextGeneration = i.priorGeneration + 1
  stored : ∃ intents, db.intents.insert? i = some intents ∧ db' = { db with intents := intents }

theorem prepareCommit_eq_ok {i : AuthorityCommitIntent} :
    db.prepareCommit i = .ok db' ↔ db.Prepares i db' := by
  constructor
  · intro ok
    obtain ⟨_, prepared, rest⟩ := bind_eq_ok.mp ok
    obtain ⟨a, found, rest⟩ := bind_eq_ok.mp rest
    obtain ⟨_, prior, rest⟩ := bind_eq_ok.mp rest
    obtain ⟨_, free, rest⟩ := bind_eq_ok.mp rest
    obtain ⟨intents, inserted, rest⟩ := bind_eq_ok.mp rest
    obtain ⟨_, next, rest⟩ := bind_eq_ok.mp rest
    exact ⟨require_eq_ok.mp prepared, ⟨a, present_eq_ok.mp found, require_eq_ok.mp prior⟩,
      refuse_eq_ok.mp free, require_eq_ok.mp next,
      ⟨intents, present_eq_ok.mp inserted, (Except.ok.inj rest).symm⟩⟩
  · rintro ⟨prepared, ⟨a, found, prior⟩, free, next, ⟨intents, inserted, rfl⟩⟩
    refine bind_eq_ok.mpr ⟨(), require_of prepared, ?_⟩
    refine bind_eq_ok.mpr ⟨a, present_eq_ok.mpr found, ?_⟩
    refine bind_eq_ok.mpr ⟨(), require_of prior, ?_⟩
    refine bind_eq_ok.mpr ⟨(), refuse_eq_ok.mpr free, ?_⟩
    refine bind_eq_ok.mpr ⟨intents, present_eq_ok.mpr inserted, ?_⟩
    exact bind_eq_ok.mpr ⟨(), require_of next, rfl⟩

theorem advanceWorkspaceAuthority_eq_ok {i : AuthorityCommitIntent} :
    db.advanceWorkspaceAuthority i = .ok db' ↔
      (∃ a, db.getWorkspaceAuthority i.workspaceId = some a ∧ AtPrior a i) ∧
      db' = { db with
        authorities := db.authorities.update (·.workspaceId = i.workspaceId) (advanced i) } := by
  constructor
  · intro ok
    obtain ⟨a, found, rest⟩ := bind_eq_ok.mp ok
    obtain ⟨_, prior, rest⟩ := bind_eq_ok.mp rest
    exact ⟨⟨a, present_eq_ok.mp found, require_eq_ok.mp prior⟩, (Except.ok.inj rest).symm⟩
  · rintro ⟨⟨a, found, prior⟩, rfl⟩
    refine bind_eq_ok.mpr ⟨a, present_eq_ok.mpr found, ?_⟩
    exact bind_eq_ok.mpr ⟨(), require_of prior, rfl⟩

/-- The intents, with one of them moved to a state. -/
def moved (db : Database) (i : AuthorityCommitIntent) : Table AuthorityCommitIntent :=
  db.intents.update (·.id = i.id) (toState i.state)

/-- The authorities, with that of an intent where it leads. -/
def led (db : Database) (i : AuthorityCommitIntent) : Table WorkspaceAuthority :=
  db.authorities.update (·.workspaceId = i.workspaceId) (advanced i)

/-- When an intent moves to its next state, and what moves with it. -/
structure Advances (db : Database) (i : AuthorityCommitIntent) (expected : AuthorityCommitState)
    (db' : Database) : Prop where
  allowed : i.state ∈ allowedCommitTransitions expected
  current : { i with state := expected } ∈ db.intents
  stored : i.state ≠ .dbCommitted ∧ db' = { db with intents := db.moved i } ∨
    i.state = .dbCommitted ∧
      (∃ a, db.getWorkspaceAuthority i.workspaceId = some a ∧ AtPrior a i) ∧
      db' = { db with intents := db.moved i, authorities := db.led i }

theorem advanceCommit_eq_ok {i : AuthorityCommitIntent} {expected : AuthorityCommitState} :
    db.advanceCommit i expected = .ok db' ↔ db.Advances i expected db' := by
  constructor
  · intro ok
    obtain ⟨_, allowed, rest⟩ := bind_eq_ok.mp ok
    obtain ⟨current, found, rest⟩ := bind_eq_ok.mp rest
    obtain ⟨_, state, rest⟩ := bind_eq_ok.mp rest
    obtain ⟨_, same, rest⟩ := bind_eq_ok.mp rest
    obtain ⟨mem, -, -⟩ := getCommitIntent_eq_some.mp (present_eq_ok.mp found)
    have same := require_eq_ok.mp same
    have old : { i with state := expected } = current := by
      rw [← same, ← require_eq_ok.mp state]
    refine ⟨require_eq_ok.mp allowed, old ▸ mem, ?_⟩
    dsimp only at rest
    by_cases committed : i.state = .dbCommitted
    · rw [if_pos committed] at rest
      obtain ⟨_, led, rest⟩ := bind_eq_ok.mp rest
      obtain ⟨prior, rfl⟩ := advanceWorkspaceAuthority_eq_ok.mp led
      exact .inr ⟨committed, prior, (Except.ok.inj rest).symm⟩
    · rw [if_neg committed] at rest
      exact .inl ⟨committed, (Except.ok.inj rest).symm⟩
  · rintro ⟨allowed, current, stored⟩
    refine bind_eq_ok.mpr ⟨(), require_of allowed, ?_⟩
    refine bind_eq_ok.mpr ⟨_, present_eq_ok.mpr (getCommitIntent_eq_some.mpr ⟨current, rfl, rfl⟩), ?_⟩
    refine bind_eq_ok.mpr ⟨(), require_of rfl, ?_⟩
    refine bind_eq_ok.mpr ⟨(), require_of rfl, ?_⟩
    dsimp only
    obtain ⟨early, rfl⟩ | ⟨committed, prior, rfl⟩ := stored
    · rw [if_neg early]
      rfl
    · rw [if_pos committed]
      exact bind_eq_ok.mpr ⟨_, advanceWorkspaceAuthority_eq_ok.mpr ⟨prior, rfl⟩, rfl⟩

/-- What quarantines an authority. -/
theorem quarantineWorkspaceAuthority_ok {ws : Uuid} {generation : Nat} {root : String}
    (ok : db.quarantineWorkspaceAuthority ws generation root = .ok db') :
    db' = db ∨
      db' = { db with authorities := db.authorities.update (·.workspaceId = ws) quarantined } := by
  obtain ⟨a, -, rest⟩ := bind_eq_ok.mp ok
  obtain ⟨_, -, rest⟩ := bind_eq_ok.mp rest
  by_cases already : a.state = .restoreQuarantine
  · rw [if_pos already] at rest
    exact .inl (Except.ok.inj rest).symm
  · rw [if_neg already] at rest
    obtain ⟨_, -, rest⟩ := bind_eq_ok.mp rest
    exact .inr (Except.ok.inj rest).symm

/-! ## Audit -/

/-- When a receipt is appended, and how. -/
structure Appends (db : Database) (r : AuditReceipt) (db' : Database) : Prop where
  snapshot : ∃ s, db.getSnapshot r.workspaceId r.authorizationSnapshotId = some s ∧
    s.canonicalDigest = r.authorizationSnapshotDigest
  sequence : r.workspaceSequence =
    ((db.listReceipts r.workspaceId).getLast?.map (·.workspaceSequence)).getD 0 + 1
  previous : ∀ s ∈ (db.listReceipts r.workspaceId).getLast?, r.previousHash = s.receiptHash
  free : db.ReceiptFree r
  stored : ∃ receipts, db.receipts.insert? r = some receipts ∧
    db' = { db with receipts := receipts }

theorem appendReceipt_eq_ok {r : AuditReceipt} : db.appendReceipt r = .ok db' ↔ db.Appends r db' := by
  constructor
  · intro ok
    obtain ⟨s, found, rest⟩ := bind_eq_ok.mp ok
    obtain ⟨_, digest, rest⟩ := bind_eq_ok.mp rest
    obtain ⟨_, sequence, rest⟩ := bind_eq_ok.mp rest
    obtain ⟨_, previous, rest⟩ := bind_eq_ok.mp rest
    obtain ⟨_, free, rest⟩ := bind_eq_ok.mp rest
    obtain ⟨receipts, inserted, rest⟩ := bind_eq_ok.mp rest
    exact ⟨⟨s, present_eq_ok.mp found, require_eq_ok.mp digest⟩, require_eq_ok.mp sequence,
      require_eq_ok.mp previous, require_eq_ok.mp free,
      ⟨receipts, present_eq_ok.mp inserted, (Except.ok.inj rest).symm⟩⟩
  · rintro ⟨⟨s, found, digest⟩, sequence, previous, free, ⟨receipts, inserted, rfl⟩⟩
    refine bind_eq_ok.mpr ⟨s, present_eq_ok.mpr found, ?_⟩
    refine bind_eq_ok.mpr ⟨(), require_of digest, ?_⟩
    refine bind_eq_ok.mpr ⟨(), require_of sequence, ?_⟩
    refine bind_eq_ok.mpr ⟨(), require_of previous, ?_⟩
    refine bind_eq_ok.mpr ⟨(), require_of free, ?_⟩
    exact bind_eq_ok.mpr ⟨receipts, present_eq_ok.mpr inserted, rfl⟩

/-- When a binding is appended, and how. -/
structure Binds (db : Database) (b : AuditResultBinding) (db' : Database) : Prop where
  receipt : ∃ r, db.receiptOf b.workspaceId b.auditReceiptId = some r ∧
    r.receiptHash = b.auditReceiptHash ∧ r.authorityCommitIntentId = b.authorityCommitIntentId
  free : db.BindingFree b
  stored : ∃ bindings, db.bindings.insert? b = some bindings ∧
    db' = { db with bindings := bindings }

theorem appendResultBinding_eq_ok {b : AuditResultBinding} :
    db.appendResultBinding b = .ok db' ↔ db.Binds b db' := by
  constructor
  · intro ok
    obtain ⟨r, found, rest⟩ := bind_eq_ok.mp ok
    obtain ⟨_, same, rest⟩ := bind_eq_ok.mp rest
    obtain ⟨_, free, rest⟩ := bind_eq_ok.mp rest
    obtain ⟨bindings, inserted, rest⟩ := bind_eq_ok.mp rest
    exact ⟨⟨r, present_eq_ok.mp found, require_eq_ok.mp same⟩, require_eq_ok.mp free,
      ⟨bindings, present_eq_ok.mp inserted, (Except.ok.inj rest).symm⟩⟩
  · rintro ⟨⟨r, found, same⟩, free, ⟨bindings, inserted, rfl⟩⟩
    refine bind_eq_ok.mpr ⟨r, present_eq_ok.mpr found, ?_⟩
    refine bind_eq_ok.mpr ⟨(), require_of same, ?_⟩
    refine bind_eq_ok.mpr ⟨(), require_of free, ?_⟩
    exact bind_eq_ok.mpr ⟨bindings, present_eq_ok.mpr inserted, rfl⟩

theorem getResultBinding_eq_some {ws id : Uuid} {b : AuditResultBinding} :
    db.getResultBinding ws id = some b ↔ b ∈ db.bindings ∧ b.id = id ∧ b.workspaceId = ws := by
  rw [getResultBinding, Option.filter_eq_some_iff, Table.get?_eq_some]
  simp [key, and_assoc]

theorem getRecoveryCheckpoint_eq_some {ws id : Uuid} {c : AuditAnchorRecoveryCheckpoint} :
    db.getRecoveryCheckpoint ws id = some c ↔
      c ∈ db.checkpoints ∧ c.id = id ∧ c.workspaceId = ws := by
  rw [getRecoveryCheckpoint, Option.filter_eq_some_iff, Table.get?_eq_some]
  simp [key, and_assoc]

/-- When a checkpoint is stored, and how. -/
structure Recovers (db : Database) (c : AuditAnchorRecoveryCheckpoint) (db' : Database) : Prop where
  prepared : c.state = .prepared
  unbound : c.resultBindingId = none
  receipt : ∃ r, db.receiptOf c.workspaceId c.auditReceiptId = some r ∧
    r.authorityCommitIntentId = c.authorityCommitIntentId
  free : db.CheckpointFree c
  stored : ∃ checkpoints, db.checkpoints.insert? c = some checkpoints ∧
    db' = { db with checkpoints := checkpoints }

theorem prepareRecovery_eq_ok {c : AuditAnchorRecoveryCheckpoint} :
    db.prepareRecovery c = .ok db' ↔ db.Recovers c db' := by
  constructor
  · intro ok
    obtain ⟨_, prepared, rest⟩ := bind_eq_ok.mp ok
    obtain ⟨_, unbound, rest⟩ := bind_eq_ok.mp rest
    obtain ⟨r, found, rest⟩ := bind_eq_ok.mp rest
    obtain ⟨_, same, rest⟩ := bind_eq_ok.mp rest
    obtain ⟨_, free, rest⟩ := bind_eq_ok.mp rest
    obtain ⟨checkpoints, inserted, rest⟩ := bind_eq_ok.mp rest
    exact ⟨require_eq_ok.mp prepared, require_eq_ok.mp unbound,
      ⟨r, present_eq_ok.mp found, require_eq_ok.mp same⟩, require_eq_ok.mp free,
      ⟨checkpoints, present_eq_ok.mp inserted, (Except.ok.inj rest).symm⟩⟩
  · rintro ⟨prepared, unbound, ⟨r, found, same⟩, free, ⟨checkpoints, inserted, rfl⟩⟩
    refine bind_eq_ok.mpr ⟨(), require_of prepared, ?_⟩
    refine bind_eq_ok.mpr ⟨(), require_of unbound, ?_⟩
    refine bind_eq_ok.mpr ⟨r, present_eq_ok.mpr found, ?_⟩
    refine bind_eq_ok.mpr ⟨(), require_of same, ?_⟩
    refine bind_eq_ok.mpr ⟨(), require_of free, ?_⟩
    exact bind_eq_ok.mpr ⟨checkpoints, present_eq_ok.mpr inserted, rfl⟩

/-- When a checkpoint moves to its next state, and how. -/
structure Checkpoints (db : Database) (c : AuditAnchorRecoveryCheckpoint)
    (expected : AuditAnchorBindingState) (db' : Database) : Prop where
  allowed : c.state ∈ allowedRecoveryTransitions expected
  current : ∃ d, db.getRecoveryCheckpoint c.workspaceId c.id = some d ∧ d.state = expected ∧
    d.auditReceiptId = c.auditReceiptId ∧
    d.authorityCommitIntentId = c.authorityCommitIntentId ∧
    d.preparedResultDigest = c.preparedResultDigest
  binding : db.validateRecoveryBinding c = .ok ()
  stored : db' = { db with checkpoints := db.checkpoints.update (·.id = c.id) (replaced c) }

theorem advanceRecovery_eq_ok {c : AuditAnchorRecoveryCheckpoint}
    {expected : AuditAnchorBindingState} :
    db.advanceRecovery c expected = .ok db' ↔ db.Checkpoints c expected db' := by
  constructor
  · intro ok
    obtain ⟨_, allowed, rest⟩ := bind_eq_ok.mp ok
    obtain ⟨d, found, rest⟩ := bind_eq_ok.mp rest
    obtain ⟨_, state, rest⟩ := bind_eq_ok.mp rest
    obtain ⟨_, same, rest⟩ := bind_eq_ok.mp rest
    obtain ⟨⟨⟩, binding, rest⟩ := bind_eq_ok.mp rest
    exact ⟨require_eq_ok.mp allowed,
      ⟨d, present_eq_ok.mp found, require_eq_ok.mp state, require_eq_ok.mp same⟩, binding,
      (Except.ok.inj rest).symm⟩
  · rintro ⟨allowed, ⟨d, found, state, same⟩, binding, rfl⟩
    refine bind_eq_ok.mpr ⟨(), require_of allowed, ?_⟩
    refine bind_eq_ok.mpr ⟨d, present_eq_ok.mpr found, ?_⟩
    refine bind_eq_ok.mpr ⟨(), require_of state, ?_⟩
    refine bind_eq_ok.mpr ⟨(), require_of same, ?_⟩
    exact bind_eq_ok.mpr ⟨(), binding, rfl⟩

end Database

end Corvus.Projects
