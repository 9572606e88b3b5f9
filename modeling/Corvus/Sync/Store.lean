import Corvus.Library.Log
import Corvus.Sync.Records

/-!
# The repositories of workspaces and of their changes

`apply` and `page` of the repository of the sync protocol, and `update_workspace` of the
repository of identities. A method is one transaction: it returns what it answers with the new
tables or, having changed nothing, the reason of its error. Every row that a foreign key refers
to has been read in the transaction, and a version that was inserted in the meantime is found by
the primary key.
-/

namespace Corvus.Sync

open Accounts (DeviceRegistration DeviceStatus)
open Agent (isSha256)

/-! ## The tables -/

structure SyncHead where
  workspaceId : Uuid
  workspaceVersion : Nat
  currentSequence : Nat
  retentionFloor : Nat
  chainDigest : String
  version : Nat
  updatedAt : Instant

structure OutboxEvent where
  workspaceId : Uuid
  sequence : Nat
  changeDigest : String
  payload : Json
  createdAt : Instant

structure Acknowledgement where
  workspaceId : Uuid
  workspaceVersion : Nat
  deviceId : Uuid
  version : Nat
  accountId : Uuid
  principalId : Uuid
  membershipVersion : Nat
  deviceVersion : Nat
  acknowledgedSequence : Nat
  createdAt : Instant

/-- A row of `platform_idempotency` in the scope of a workspace and a device. -/
structure IdempotencyRecord where
  accountId : Uuid
  principalId : Uuid
  scopeKey : String
  workspaceId : Uuid
  workspaceVersion : Nat
  membershipVersion : Nat
  deviceId : Uuid
  deviceVersion : Nat
  operation : String
  idempotencyKey : String
  requestDigest : String
  result : SyncMutationResult
  createdAt : Instant

instance : Keyed Account Uuid := ⟨Account.id⟩
instance : Keyed OnboardingVersion (Uuid × Nat) := ⟨fun v => (v.accountId, v.version)⟩
instance : Keyed WorkspaceMembership (Uuid × Uuid × Nat) :=
  ⟨fun m => (m.workspaceId, m.principalId, m.version)⟩
instance : Keyed Workspace (Uuid × Nat) := ⟨fun w => (w.id, w.version)⟩
instance : Keyed SyncHead Uuid := ⟨SyncHead.workspaceId⟩
instance : Keyed WorkspaceChange (Uuid × Nat) := ⟨fun c => (c.workspaceId, c.sequence)⟩
instance : Keyed OutboxEvent (Uuid × Nat) := ⟨fun e => (e.workspaceId, e.sequence)⟩
instance : Keyed Acknowledgement (Uuid × Uuid × Nat) :=
  ⟨fun a => (a.workspaceId, a.deviceId, a.version)⟩
instance : Keyed IdempotencyRecord (Uuid × String × String × String) :=
  ⟨fun r => (r.accountId, r.scopeKey, r.operation, r.idempotencyKey)⟩

/-- What other repositories write: the accounts, and who belongs to a workspace. -/
structure Authority where
  accounts : Table Account
  onboarding : Table OnboardingVersion
  devices : Table DeviceRegistration
  memberships : Table WorkspaceMembership

structure Tables extends Authority where
  workspaces : Table Workspace
  heads : Table SyncHead
  changes : Table WorkspaceChange
  outbox : Table OutboxEvent
  acknowledgements : Table Acknowledgement
  idempotency : Table IdempotencyRecord

/-- The workspace of a request and who makes it, on which device. -/
structure Caller where
  workspaceId : Uuid
  accountId : Uuid
  principalId : Uuid
  deviceId : Uuid
  deviceVersion : Nat

namespace Tables

def bare : Tables where
  accounts := ∅
  onboarding := ∅
  devices := ∅
  memberships := ∅
  workspaces := ∅
  heads := ∅
  changes := ∅
  outbox := ∅
  acknowledgements := ∅
  idempotency := ∅

/-! ## Looking up -/

/-- The versions of a workspace. -/
def versionsOf (s : Tables) (workspaceId : Uuid) : List Workspace :=
  s.workspaces.rows.filter (·.id = workspaceId)

def latestWorkspace (s : Tables) (workspaceId : Uuid) : Option Workspace :=
  (s.versionsOf workspaceId).argmax (·.version)

def latestDevice (s : Tables) (accountId deviceId : Uuid) : Option DeviceRegistration :=
  (s.devices.rows.filter fun d => d.accountId = accountId ∧ d.id = deviceId).argmax (·.version)

def latestMembership (s : Tables) (workspaceId principalId : Uuid) : Option WorkspaceMembership :=
  (s.memberships.rows.filter fun m => m.workspaceId = workspaceId ∧
    m.principalId = principalId).argmax (·.version)

/-- The changes of a workspace. -/
def changesOf (s : Tables) (workspaceId : Uuid) : List WorkspaceChange :=
  s.changes.rows.filter (·.workspaceId = workspaceId)

/-- The role of a member without regard to the cases of its letters. -/
def caseless (role : String) : String := String.ofList (Text.lower role.toList)

def updateRoles : List String := ["owner", "admin", "manager"]

/-- `_authorize`: the workspace, the role and the version of the membership. -/
def authorize (s : Tables) (caller : Caller) : Except SyncError (Workspace × String × Nat) := do
  require ((s.accounts.get? caller.accountId).map (·.principalId) = some caller.principalId)
    (.protocol "workspace_not_found")
  let device ← present (s.latestDevice caller.accountId caller.deviceId)
    (.protocol "device_not_found")
  require (device.status = .active ∧ device.version = caller.deviceVersion)
    (.protocol "device_not_found")
  let membership ← present (s.latestMembership caller.workspaceId caller.principalId)
    (.protocol "workspace_not_found")
  require (membership.status = .active) (.protocol "workspace_not_found")
  let workspace ← present (s.latestWorkspace caller.workspaceId) (.protocol "workspace_not_found")
  require workspace.Valid .invalid
  return (workspace, caseless membership.role, membership.version)

/-! ## The head of the log -/

/-- `_has_workspace_sync_history`. -/
def HasWorkspaceSyncHistory (s : Tables) (workspaceId : Uuid) : Prop :=
  (∃ c ∈ s.changes.rows, c.workspaceId = workspaceId) ∨
    (∃ e ∈ s.outbox.rows, e.workspaceId = workspaceId) ∨
    (∃ a ∈ s.acknowledgements.rows, a.workspaceId = workspaceId) ∨
    ∃ r ∈ s.idempotency.rows, r.workspaceId = workspaceId

instance (s : Tables) (workspaceId : Uuid) : Decidable (s.HasWorkspaceSyncHistory workspaceId) := by
  unfold HasWorkspaceSyncHistory
  infer_instance

def integrityInvalid : SyncError := .protocol "sync_change_integrity_invalid"

structure Head where
  currentSequence : Nat
  retentionFloor : Nat
  chainDigest : String
  version : Nat

/-- The insertion of `_head`, which does nothing when there is a head. -/
def createHead (s : Tables) (workspace : Workspace) (now : Instant) : Tables :=
  let created := s.heads.insert?
    { workspaceId := workspace.id
      workspaceVersion := workspace.version
      currentSequence := 0
      retentionFloor := 0
      chainDigest := genesisDigest
      version := 1
      updatedAt := now }
  { s with heads := created.getD s.heads }

/-- `_head` without `create`. -/
def head (s : Tables) (workspaceId : Uuid) : Except SyncError Head :=
  match s.heads.get? workspaceId with
  | some row => .ok ⟨row.currentSequence, row.retentionFloor, row.chainDigest, row.version⟩
  | none =>
    if s.HasWorkspaceSyncHistory workspaceId then .error integrityInvalid
    else .ok ⟨0, 0, genesisDigest, 0⟩

/-- The payload is of the kind of the change, and about the entity and the version it names. -/
def Matches (c : WorkspaceChange) : Prop :=
  (match c.payload with
    | .account _ => c.kind = .accountProfile ∧ c.operation = .setExperience ∧
        c.entityId = c.accountId
    | .workspace _ => c.kind = .workspaceProfile ∧ c.operation = .update ∧
        c.entityId = c.workspaceId ∧ c.entityVersion = c.workspaceVersion) ∧
    c.payload.entityId = c.entityId ∧ c.payload.version = c.entityVersion

instance (c : WorkspaceChange) : Decidable (Matches c) := by
  unfold Matches
  cases c.payload <;> infer_instance

/-- `_validated_change`, every reason of which becomes one error. -/
def validatedChange (S : Security) (row : WorkspaceChange) (expectedPrevious : Option String) :
    Except SyncError WorkspaceChange := do
  refuse (∃ t ∈ row.payload.texts, S.redact t ≠ t) integrityInvalid
  require row.payload.Valid integrityInvalid
  require (Matches row) integrityInvalid
  require (row.digest S.toDigests = row.changeDigest) integrityInvalid
  require (∀ expected ∈ expectedPrevious, row.previousDigest = expected) integrityInvalid
  require row.Valid integrityInvalid
  return row

/-- The digest of the change of a sequence. -/
def digestAt (s : Tables) (workspaceId : Uuid) (sequence : Nat) : Except SyncError String :=
  present ((s.changes.get? (workspaceId, sequence)).map (·.changeDigest)) integrityInvalid

/-- The digest to which the change of a sequence is to be linked. -/
def digestBefore (s : Tables) (workspaceId : Uuid) (sequence : Nat) : Except SyncError String :=
  if sequence = 1 then .ok genesisDigest else s.digestAt workspaceId (sequence - 1)

/-- `_validate_head_tail`. -/
def validateHeadTail (S : Security) (s : Tables) (workspaceId : Uuid) (currentSequence : Nat)
    (chainDigest : String) : Except SyncError Unit :=
  if currentSequence = 0 then
    require (chainDigest = genesisDigest ∧ ¬ s.HasWorkspaceSyncHistory workspaceId)
      integrityInvalid
  else do
    let tail ← present (s.changes.get? (workspaceId, currentSequence)) integrityInvalid
    require (tail.changeDigest = chainDigest) integrityInvalid
    let expectedPrevious ← s.digestBefore workspaceId currentSequence
    let _ ← validatedChange S tail (some expectedPrevious)
    return ()

/-! ## Acknowledgements -/

/-- What a device has acknowledged last, and the version of that. -/
structure Acknowledged where
  version : Nat
  sequence : Nat

/-- `_latest_ack`. -/
def latestAck (s : Tables) (workspaceId deviceId : Uuid) : Acknowledged :=
  match (s.acknowledgements.rows.filter fun a => a.workspaceId = workspaceId ∧
      a.deviceId = deviceId).argmax (·.version) with
  | some a => ⟨a.version, a.acknowledgedSequence⟩
  | none => ⟨0, 0⟩

/-- `_acknowledge`. -/
def acknowledge (s : Tables) (workspace : Workspace) (caller : Caller) (membershipVersion : Nat)
    (acknowledgedCursor highWatermark : Nat) (now : Instant) : Except SyncError Tables := do
  let current := s.latestAck workspace.id caller.deviceId
  refuse (highWatermark < acknowledgedCursor) (.protocol "sync_acknowledgement_ahead")
  refuse (acknowledgedCursor < current.sequence) (.protocol "sync_acknowledgement_rewind")
  if current.sequence < acknowledgedCursor then
    let acknowledgements ← present (s.acknowledgements.insert?
      { workspaceId := workspace.id
        workspaceVersion := workspace.version
        deviceId := caller.deviceId
        version := current.version + 1
        accountId := caller.accountId
        principalId := caller.principalId
        membershipVersion := membershipVersion
        deviceVersion := caller.deviceVersion
        acknowledgedSequence := acknowledgedCursor
        createdAt := now }) .integrity
    return { s with acknowledgements := acknowledgements }
  else
    return s

/-! ## Idempotency -/

/-- `_idempotency_scope`. -/
def idempotencyScope (workspaceId deviceId : Uuid) : String :=
  workspaceId.text ++ ":" ++ deviceId.text

def operationKey (m : SyncMutation) : String := m.kind.value ++ "." ++ m.operation.value

def requestDigest (D : Digests) (caller : Caller) (membershipVersion : Nat) (m : SyncMutation) :
    String :=
  D.sha256 (Json.obj [("workspace_id", .str caller.workspaceId.text),
    ("account_id", .str caller.accountId.text), ("principal_id", .str caller.principalId.text),
    ("membership_version", .int membershipVersion), ("device_id", .str caller.deviceId.text),
    ("device_version", .int caller.deviceVersion), ("mutation", m.json)]).dumps

/-- `_replay`. -/
def replay (s : Tables) (caller : Caller) (membershipVersion : Nat) (m : SyncMutation)
    (digest : String) : Except SyncError (Option SyncMutationResult) :=
  match s.idempotency.get? (caller.accountId,
      idempotencyScope caller.workspaceId caller.deviceId, operationKey m, m.idempotencyKey) with
  | none => .ok none
  | some row =>
    if row.requestDigest ≠ digest ∨ row.principalId ≠ caller.principalId ∨
        row.membershipVersion ≠ membershipVersion ∨ row.deviceVersion ≠ caller.deviceVersion then
      .error (.protocol "idempotency_payload_mismatch")
    else .ok (some row.result)

/-- `_record_idempotency`. -/
def recordIdempotency (s : Tables) (workspace : Workspace) (caller : Caller)
    (membershipVersion : Nat) (m : SyncMutation) (digest : String) (result : SyncMutationResult)
    (now : Instant) : Except SyncError Tables := do
  let idempotency ← present (s.idempotency.insert?
    { accountId := caller.accountId
      principalId := caller.principalId
      scopeKey := idempotencyScope workspace.id caller.deviceId
      workspaceId := workspace.id
      workspaceVersion := workspace.version
      membershipVersion := membershipVersion
      deviceId := caller.deviceId
      deviceVersion := caller.deviceVersion
      operation := operationKey m
      idempotencyKey := m.idempotencyKey
      requestDigest := digest
      result := result
      createdAt := now }) .integrity
  return { s with idempotency := idempotency }

/-! ## Applying -/

/-- `_account_profile`. -/
def accountProfile (s : Tables) (accountId : Uuid) : Except SyncError AccountProfile :=
  match (s.onboarding.rows.filter (·.accountId = accountId)).argmax (·.version) with
  | some v => .ok ⟨accountId, v.experienceKind, v.version⟩
  | none => do
    let account ← present (s.accounts.get? accountId) (.protocol "account_profile_not_found")
    return ⟨accountId, account.experienceKind, account.version⟩

/-- The next version of a workspace by a mutation; the name of a payload is not empty. -/
def updatedBy (workspace : Workspace) (p : WorkspaceProfilePayload) (now : Instant) : Workspace :=
  { workspace with
    name := p.name.getD workspace.name
    workspaceKind := p.workspaceKind.getD workspace.workspaceKind
    version := workspace.version + 1
    updatedAt := now }

/-- `_apply_entity`: the profile after the mutation, and the workspace with the new tables. -/
def applyEntity (s : Tables) (m : SyncMutation) (mutationIndex : Nat) (workspace : Workspace)
    (role : String) (accountId : Uuid) (now : Instant) :
    Except SyncError (Profile × Workspace × Tables) :=
  match m.payload with
  | .account p => do
    require (m.entityId = accountId) (.protocol "account_profile_not_found")
    let current ← s.accountProfile accountId
    require (current.version = m.expectedVersion) (.conflict
      ⟨mutationIndex, m.expectedVersion, current.version, .account current⟩)
    let onboarding ← present (s.onboarding.insert?
      ⟨accountId, m.expectedVersion + 1, p.experienceKind, now⟩) .integrity
    return (.account ⟨accountId, p.experienceKind, m.expectedVersion + 1⟩, workspace,
      { s with onboarding := onboarding })
  | .workspace p => do
    require (m.entityId = workspace.id) (.protocol "workspace_not_found")
    require (workspace.version = m.expectedVersion) (.conflict
      ⟨mutationIndex, m.expectedVersion, workspace.version, .workspace workspace.profile⟩)
    require (role ∈ updateRoles) (.protocol "workspace_update_forbidden")
    let updated := updatedBy workspace p now
    let workspaces ← present (s.workspaces.insert? updated) .integrity
    return (.workspace updated.profile, updated, { s with workspaces := workspaces })

/-- The change that `_append_change` appends. -/
def changeOf (D : Digests) (workspace : Workspace) (caller : Caller) (membershipVersion : Nat)
    (sequence : Nat) (previousDigest : String) (m : SyncMutation) (profile : Profile)
    (now : Instant) : WorkspaceChange :=
  let unsigned : WorkspaceChange :=
    { workspaceId := workspace.id
      workspaceVersion := workspace.version
      sequence := sequence
      previousDigest := previousDigest
      changeDigest := ""
      kind := m.kind
      operation := m.operation
      entityId := m.entityId
      entityVersion := profile.version
      payload := profile
      accountId := caller.accountId
      principalId := caller.principalId
      membershipVersion := membershipVersion
      deviceId := caller.deviceId
      deviceVersion := caller.deviceVersion
      createdAt := now }
  { unsigned with changeDigest := unsigned.digest D }

/-- `_append_change`. -/
def appendChange (D : Digests) (s : Tables) (workspace : Workspace) (caller : Caller)
    (membershipVersion : Nat) (sequence : Nat) (previousDigest : String) (m : SyncMutation)
    (profile : Profile) (now : Instant) :
    Except SyncError (SyncMutationResult × String × Tables) := do
  let change := changeOf D workspace caller membershipVersion sequence previousDigest m profile now
  let changes ← present (s.changes.insert? change) .integrity
  let outbox ← present (s.outbox.insert?
    { workspaceId := workspace.id
      sequence := sequence
      changeDigest := change.changeDigest
      payload := .obj (change.body ++ [("change_digest", .str change.changeDigest)])
      createdAt := now }) .integrity
  require profile.Valid .invalid
  return (⟨m.idempotencyKey, m.kind, m.operation, m.entityId, profile.version, sequence, profile⟩,
    change.changeDigest, { s with changes := changes, outbox := outbox })

/-- Where the loop of `apply` is: the workspace as it is now, with the last sequence and its
digest. -/
structure Progress where
  tables : Tables
  workspace : Workspace
  sequence : Nat
  chainDigest : String

/-- One round of the loop of `apply`. -/
def applyMutation (D : Digests) (caller : Caller) (role : String) (membershipVersion : Nat)
    (now : Instant) (index : Nat) (p : Progress) (m : SyncMutation) :
    Except SyncError (SyncMutationResult × Progress) := do
  let digest := requestDigest D caller membershipVersion m
  match ← p.tables.replay caller membershipVersion m digest with
  | some result => return (result, p)
  | none => do
    let (profile, workspace, s) ←
      p.tables.applyEntity m index p.workspace role caller.accountId now
    let (result, chainDigest, s) ←
      appendChange D s workspace caller membershipVersion (p.sequence + 1) p.chainDigest m profile
        now
    let s ← s.recordIdempotency workspace caller membershipVersion m digest result now
    return (result, ⟨s, workspace, p.sequence + 1, chainDigest⟩)

/-- The loop of `apply`. -/
def applyMutations (D : Digests) (caller : Caller) (role : String) (membershipVersion : Nat)
    (now : Instant) : Nat → Progress → List SyncMutation →
      Except SyncError (List SyncMutationResult × Progress)
  | _, p, [] => .ok ([], p)
  | index, p, m :: rest => do
    let (result, p) ← applyMutation D caller role membershipVersion now index p m
    let (results, p) ← applyMutations D caller role membershipVersion now (index + 1) p rest
    return (result :: results, p)

/-- The head is moved to the last change; its floor stays where it was. -/
def moveHead (p : Progress) (version : Nat) (now : Instant) : Rewrite SyncHead where
  apply := fun h =>
    { h with
      workspaceVersion := p.workspace.version
      currentSequence := p.sequence
      chainDigest := p.chainDigest
      version := version
      updatedAt := now }
  keeps := fun _ => rfl

/-- `SyncRepository.apply`. -/
def apply (S : Security) (s : Tables) (caller : Caller) (acknowledgedCursor : Nat)
    (mutations : List SyncMutation) (now : Instant) :
    Except SyncError (SyncApplyResult × Tables) := do
  refuse (∃ m ∈ mutations, ∃ t ∈ m.texts, S.redact t ≠ t) .sensitive
  let (workspace, role, membershipVersion) ← s.authorize caller
  let head ← s.head workspace.id
  let s := if mutations ≠ [] ∧ head.version = 0 then s.createHead workspace now else s
  let head ← s.head workspace.id
  s.validateHeadTail S caller.workspaceId head.currentSequence head.chainDigest
  let s ← s.acknowledge workspace caller membershipVersion acknowledgedCursor
    head.currentSequence now
  let (results, p) ← applyMutations S.toDigests caller role membershipVersion now 0
    ⟨s, workspace, head.currentSequence, head.chainDigest⟩ mutations
  let heads := if head.currentSequence < p.sequence then
    p.tables.heads.update (·.workspaceId = p.workspace.id) (moveHead p (head.version + 1) now)
    else p.tables.heads
  return (⟨acknowledgedCursor, results⟩, { p.tables with heads := heads })

/-! ## Reading -/

/-- Rows that are validated one after the other, each against the digest of the one before. -/
def validatedChanges (S : Security) : Option String → List WorkspaceChange →
    Except SyncError (List WorkspaceChange)
  | _, [] => .ok []
  | expectedPrevious, row :: rows => do
    let change ← validatedChange S row expectedPrevious
    let changes ← validatedChanges S (some change.changeDigest) rows
    return change :: changes

/-- The rows between two sequences, in their order. -/
def changesBetween (s : Tables) (workspaceId : Uuid) (cursor highWatermark : Nat) :
    List WorkspaceChange :=
  ((s.changesOf workspaceId).filter fun c => cursor < c.sequence ∧
    c.sequence ≤ highWatermark).insertionSort fun a b => a.sequence ≤ b.sequence

/-- The digest to which the first change after a cursor is to be linked, if it is known. -/
def expectedPrevious (s : Tables) (workspaceId : Uuid) (cursor retentionFloor : Nat) :
    Except SyncError (Option String) :=
  if cursor = 0 ∧ retentionFloor = 0 then .ok (some genesisDigest)
  else if retentionFloor < cursor then some <$> s.digestAt workspaceId cursor
  else .ok none

/-- `SyncRepository.page`. -/
def page (S : Security) (s : Tables) (caller : Caller) (cursor limit : Nat) :
    Except SyncError SyncPage := do
  let (workspace, _, _) ← s.authorize caller
  let head ← s.head workspace.id
  s.validateHeadTail S caller.workspaceId head.currentSequence head.chainDigest
  refuse (head.currentSequence < cursor) (.protocol "sync_cursor_ahead")
  refuse (cursor < head.retentionFloor) (.resyncRequired
    ⟨head.retentionFloor + 1, head.currentSequence, head.retentionFloor,
      ["/api/v2/session", "/api/v2/workspaces/" ++ caller.workspaceId.text]⟩)
  let rows := (s.changesBetween caller.workspaceId cursor head.currentSequence).take limit
  let expectedPrevious ← s.expectedPrevious caller.workspaceId cursor head.retentionFloor
  let changes ← validatedChanges S expectedPrevious rows
  let nextCursor := (changes.getLast?.map (·.sequence)).getD cursor
  return ⟨cursor, nextCursor, head.currentSequence, head.retentionFloor + 1, changes,
    nextCursor < head.currentSequence⟩

/-! ## The repository of identities -/

/-- `_membership_role`. -/
def membershipRole (s : Tables) (workspaceId principalId : Uuid) : Option String :=
  match s.latestMembership workspaceId principalId with
  | none => none
  | some m => if m.status = .active then some (caseless (Text.strip m.role)) else none

/-- `_workspace_for_update`. -/
def workspaceForUpdate (s : Tables) (principalId workspaceId : Uuid) :
    Except SyncError Workspace := do
  let role ← present (s.membershipRole workspaceId principalId) (.protocol "workspace_not_found")
  require (role ∈ updateRoles) (.protocol "workspace_update_forbidden")
  let workspace ← present (s.latestWorkspace workspaceId) (.protocol "workspace_not_found")
  require workspace.Valid .invalid
  return workspace

/-- `PlatformIdentityRepository.update_workspace`. -/
def updateWorkspace (s : Tables) (principalId workspaceId : Uuid) (name : String)
    (expectedVersion : Nat) (now : Instant) : Except SyncError (Workspace × Tables) := do
  let current ← s.workspaceForUpdate principalId workspaceId
  require (current.version = expectedVersion) (.protocol "workspace_version_conflict")
  let updated := { current with
    name := Text.strip name, version := current.version + 1, updatedAt := now }
  let workspaces ← present (s.workspaces.insert? updated) .integrity
  return (updated, { s with workspaces := workspaces })

end Tables

/-! ## Runs -/

/-- What may happen to the tables. Other repositories make the first version of a workspace and
write the tables of the authority in any way; an operator may raise what is retained. -/
inductive Action where
  | begin (workspace : Workspace)
  | authorities (authority : Authority)
  | retain (workspaceId : Uuid) (floor : Nat)
  | updateWorkspace (principalId workspaceId : Uuid) (name : String) (expectedVersion : Nat)
      (now : Instant)
  | apply (caller : Caller) (acknowledgedCursor : Nat) (mutations : List SyncMutation)
      (now : Instant)

/-- Another floor, which `ck_sync_head_retention` bounds by the current sequence. -/
def moveFloor (floor : Nat) : Rewrite SyncHead where
  apply := fun h => { h with retentionFloor := min floor h.currentSequence }
  keeps := fun _ => rfl

/-- An action, which changes nothing when it is refused. -/
def step (S : Security) (s : Tables) : Action → Tables
  | .begin workspace =>
    if s.versionsOf workspace.id = [] then
      { s with workspaces := (s.workspaces.insert? workspace).getD s.workspaces }
    else s
  | .authorities authority => { s with toAuthority := authority }
  | .retain workspaceId floor =>
    { s with heads := s.heads.update (·.workspaceId = workspaceId) (moveFloor floor) }
  | .updateWorkspace principalId workspaceId name expectedVersion now =>
    match s.updateWorkspace principalId workspaceId name expectedVersion now with
    | .ok (_, s') => s'
    | .error _ => s
  | .apply caller acknowledgedCursor mutations now =>
    match s.apply S caller acknowledgedCursor mutations now with
    | .ok (_, s') => s'
    | .error _ => s

end Corvus.Sync
