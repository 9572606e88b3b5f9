import Corvus.Conversations.Records
import Corvus.Library.Log
import Corvus.Library.Table
import Mathlib.Data.List.MinMax

/-!
# The tables of conversations

The rows that `ConversationRepository` writes, and the records that it reads from them. A column of
ids holds the ids themselves, a column of times their texts, and a payload is the text of a JSON
object. The ids that belong to a message or to an artifact are rows of their own.
-/

namespace Corvus.Conversations

open Agent (AgentRunEvent AgentRunEventType)

/-! ## Numbered items -/

/-- A row that gives its owner an item, under an ordinal. -/
structure Entry (κ : Type) where
  owner : κ
  item : Uuid
  ordinal : Nat

section Entries

variable {κ : Type}

/-- `enumerate(items, start=1)`. -/
def entries (owner : κ) (items : List Uuid) : List (Entry κ) :=
  (items.zipIdx 1).map fun i => ⟨owner, i.1, i.2⟩

theorem owner_of_entries {owner : κ} {ids : List Uuid} {e : Entry κ}
    (mem : e ∈ entries owner ids) : e.owner = owner := by
  obtain ⟨i, -, rfl⟩ := List.mem_map.mp mem
  rfl

variable [DecidableEq κ]

/-- `ORDER BY ordinal`. -/
def items (rows : List (Entry κ)) (owner : κ) : List Uuid :=
  ((rows.filter (·.owner = owner)).insertionSort (·.ordinal ≤ ·.ordinal)).map (·.item)

variable {rows : List (Entry κ)} {owner other : κ} {ids : List Uuid}

theorem items_append_other (differs : other ≠ owner) :
    items (rows ++ entries other ids) owner = items rows owner := by
  have none_ : (entries other ids).filter (·.owner = owner) = [] := by
    refine List.filter_eq_nil_iff.mpr fun e mem => ?_
    simpa [owner_of_entries mem] using differs
  rw [items, items, List.filter_append, none_, List.append_nil]

/-- The items of a new owner. -/
theorem items_append_self (fresh : ∀ e ∈ rows, e.owner ≠ owner) :
    items (rows ++ entries owner ids) owner = ids := by
  have before : rows.filter (·.owner = owner) = [] :=
    List.filter_eq_nil_iff.mpr fun e mem => by simpa using fresh e mem
  have all : (entries owner ids).filter (·.owner = owner) = entries owner ids :=
    List.filter_eq_self.mpr fun e mem => decide_eq_true (owner_of_entries mem)
  have sorted : (entries owner ids).Pairwise (·.ordinal ≤ ·.ordinal) := by
    rw [entries, List.pairwise_map]
    have numbers : ((ids.zipIdx 1).map Prod.snd).Pairwise (· ≤ ·) := by
      rw [List.zipIdx_map_snd]
      exact List.pairwise_le_range'
    exact List.pairwise_map.mp numbers
  rw [items, List.filter_append, before, all, List.nil_append, sorted.insertionSort_eq, entries,
    List.map_map]
  exact List.zipIdx_map_fst 1 ids

end Entries

/-! ## Rows -/

structure ThreadRow where
  workspaceId : Uuid
  id : Uuid
  workspaceVersion : Nat
  projectId : Option Uuid
  creatorPrincipalId : Uuid
  creatorMembershipVersion : Nat
  createdAt : String

instance : Keyed ThreadRow (Uuid × Uuid) := ⟨fun r => (r.workspaceId, r.id)⟩

structure ThreadVersionRow where
  workspaceId : Uuid
  threadId : Uuid
  version : Nat
  title : String
  status : ThreadStatus
  updatedAt : String

instance : Keyed ThreadVersionRow (Uuid × Uuid × Nat) :=
  ⟨fun r => (r.workspaceId, r.threadId, r.version)⟩

structure MessageRow where
  workspaceId : Uuid
  threadId : Uuid
  sequence : Nat
  id : Uuid
  content : String
  contentDigest : String
  idempotencyKey : String
  requestDigest : String
  producingRunId : Option Uuid
  authorKind : MessageAuthorKind
  authorPrincipalId : Option Uuid
  authorMembershipVersion : Option Nat
  authorAgentId : Option Uuid
  authorAgentVersion : Option Nat
  createdAt : String

instance : Keyed MessageRow (Uuid × Uuid × Nat) :=
  ⟨fun r => (r.workspaceId, r.threadId, r.sequence)⟩

structure RunRow where
  workspaceId : Uuid
  id : Uuid
  threadId : Uuid
  messageSequence : Nat
  requesterPrincipalId : Uuid
  requesterMembershipVersion : Nat
  authorizationSnapshotId : Uuid
  authorizationSnapshotDigest : String
  providerBindingId : Uuid
  providerBindingVersion : Nat
  providerBindingDigest : String
  canonicalRequestDigest : String
  idempotencyKey : String
  requestDigest : String
  parentRunId : Option Uuid
  rootRunId : Option Uuid
  createdAt : String
deriving DecidableEq

instance : Keyed RunRow (Uuid × Uuid) := ⟨fun r => (r.workspaceId, r.id)⟩

structure EventRow where
  workspaceId : Uuid
  threadId : Uuid
  runId : Uuid
  sequence : Nat
  handleId : Uuid
  timestamp : String
  eventType : AgentRunEventType
  payloadJson : String
  providerEventId : Option String
  toolCallId : Option String
  effectAuthorizationDecisionId : Option Uuid
  effectAuthorizationDecisionDigest : Option String
  previousEventDigest : String
  eventDigest : String
deriving DecidableEq

instance : Keyed EventRow (Uuid × Uuid × Nat) := ⟨fun r => (r.workspaceId, r.runId, r.sequence)⟩

structure ArtifactRow where
  workspaceId : Uuid
  id : Uuid
  runId : Uuid
  producingEventSequence : Nat
  displayName : String
  mediaType : String
  byteSize : Nat
  contentDigest : String
  lineageDigest : String
  createdAt : String

instance : Keyed ArtifactRow (Uuid × Uuid) := ⟨fun r => (r.workspaceId, r.id)⟩

structure Store where
  threads : Table ThreadRow
  threadVersions : Table ThreadVersionRow
  messages : Table MessageRow
  messageAttachments : List (Entry (Uuid × Uuid × Nat))
  runs : Table RunRow
  events : Table EventRow
  artifacts : Table ArtifactRow
  lineage : List (Entry (Uuid × Uuid))

/-- Before the first thread. -/
def Store.empty : Store := ⟨∅, ∅, ∅, [], ∅, ∅, ∅, []⟩

/-- What the tables of other repositories hold: the newest version of a membership and whether it is
active, and the rows to which those of conversations refer. -/
structure Directory where
  membership : (workspaceId principalId : Uuid) → Option (Nat × Bool)
  workspaces : (workspaceId : Uuid) → (version : Nat) → Bool
  memberships : (workspaceId principalId : Uuid) → (version : Nat) → Bool
  projects : (workspaceId projectId : Uuid) → Bool
  agents : (workspaceId agentId : Uuid) → (version : Nat) → Bool
  attachments : (workspaceId attachmentId : Uuid) → Bool

/-- `_current_membership`. -/
def Directory.currentMembership (d : Directory) (workspaceId principalId : Uuid) : Option Nat :=
  match d.membership workspaceId principalId with
  | some (version, true) => some version
  | _ => none

/-- `_require_membership`. -/
def Directory.requireMembership (d : Directory) (workspaceId principalId : Uuid)
    (membershipVersion : Nat) : Except Raised Unit := do
  let current ← present (d.currentMembership workspaceId principalId)
    (.repository "conversation_membership_inactive")
  require (current = membershipVersion) (.repository "conversation_membership_stale")

/-! ## Threads -/

/-- `length(trim(title)) >= 1`. SQLite trims blanks, and counts the characters before a zero. -/
def titleStands (title : String) : Bool :=
  match title.toList.dropWhile (· = ' ') with
  | [] => false
  | c :: _ => c.toNat ≠ 0

def Thread.row (t : Thread) : ThreadRow where
  workspaceId := t.workspaceId
  id := t.id
  workspaceVersion := t.workspaceVersion
  projectId := t.projectId
  creatorPrincipalId := t.creatorPrincipalId
  creatorMembershipVersion := t.creatorMembershipVersion
  createdAt := t.createdAt.isoformat

def Thread.versionRow (t : Thread) : ThreadVersionRow where
  workspaceId := t.workspaceId
  threadId := t.id
  version := t.version
  title := t.title
  status := t.status
  updatedAt := t.updatedAt.isoformat

/-- `_thread_from_row`. -/
def threadFromRow (M : Models) (row : ThreadRow × ThreadVersionRow) : Except Raised Thread := do
  let createdAt ← M.datetime row.1.createdAt
  let updatedAt ← M.datetime row.2.updatedAt
  Thread.validate {
    id := row.1.id
    workspaceId := row.1.workspaceId
    workspaceVersion := row.1.workspaceVersion
    projectId := row.1.projectId
    creatorPrincipalId := row.1.creatorPrincipalId
    creatorMembershipVersion := row.1.creatorMembershipVersion
    title := row.2.title
    status := row.2.status
    createdAt := createdAt
    updatedAt := updatedAt
    version := row.2.version }

instance : Keyed Thread (Uuid × Uuid) := ⟨fun t => (t.workspaceId, t.id)⟩

/-- The versions of a thread. -/
def versionsOf (versions : List ThreadVersionRow) (thread : Uuid × Uuid) : List ThreadVersionRow :=
  versions.filter fun v => (v.workspaceId, v.threadId) = thread

/-- `_thread_row`: a thread with the newest of its versions. -/
def Store.threadRow (s : Store) (workspaceId threadId : Uuid) :
    Option (ThreadRow × ThreadVersionRow) := do
  let row ← s.threads.get? (workspaceId, threadId)
  let version ← (versionsOf s.threadVersions.rows (workspaceId, threadId)).argmax (·.version)
  return (row, version)

/-! ## Messages -/

def Message.row (m : Message) (requestDigest : String) : MessageRow where
  workspaceId := m.workspaceId
  threadId := m.threadId
  sequence := m.sequence
  id := m.id
  content := m.content
  contentDigest := m.contentDigest
  idempotencyKey := m.idempotencyKey
  requestDigest := requestDigest
  producingRunId := m.producingRunId
  authorKind := m.authorKind
  authorPrincipalId := m.authorPrincipalId
  authorMembershipVersion := m.authorMembershipVersion
  authorAgentId := m.authorAgentId
  authorAgentVersion := m.authorAgentVersion
  createdAt := m.createdAt.isoformat

/-- `_message_from_row`. -/
def messageFromRow (M : Models) (s : Store) (row : MessageRow) : Except Raised Message := do
  let attachmentIds := items s.messageAttachments (row.workspaceId, row.threadId, row.sequence)
  let createdAt ← M.time row.createdAt
  Message.validate M.toDigests {
    id := row.id
    workspaceId := row.workspaceId
    threadId := row.threadId
    sequence := row.sequence
    content := row.content
    contentDigest := row.contentDigest
    idempotencyKey := row.idempotencyKey
    producingRunId := row.producingRunId
    attachmentIds := attachmentIds
    authorKind := row.authorKind
    authorPrincipalId := row.authorPrincipalId
    authorMembershipVersion := row.authorMembershipVersion
    authorAgentId := row.authorAgentId
    authorAgentVersion := row.authorAgentVersion
    createdAt := createdAt }

/-- The messages of a thread, as they were inserted. -/
def Store.messageRows (s : Store) (workspaceId threadId : Uuid) : List MessageRow :=
  s.messages.rows.filter fun r => r.workspaceId = workspaceId ∧ r.threadId = threadId

/-! ## Runs -/

def AgentRunRecord.row (r : AgentRunRecord) (requestDigest : String) : RunRow where
  workspaceId := r.workspaceId
  id := r.id
  threadId := r.threadId
  messageSequence := r.messageSequence
  requesterPrincipalId := r.requesterPrincipalId
  requesterMembershipVersion := r.requesterMembershipVersion
  authorizationSnapshotId := r.authorizationSnapshotId
  authorizationSnapshotDigest := r.authorizationSnapshotDigest
  providerBindingId := r.providerBindingId
  providerBindingVersion := r.providerBindingVersion
  providerBindingDigest := r.providerBindingDigest
  canonicalRequestDigest := r.canonicalRequestDigest
  idempotencyKey := r.idempotencyKey
  requestDigest := requestDigest
  parentRunId := r.parentRunId
  rootRunId := r.rootRunId
  createdAt := r.createdAt.isoformat

/-- `_run_from_row`. -/
def runFromRow (M : Models) (row : RunRow) : Except Raised AgentRunRecord := do
  let createdAt ← M.time row.createdAt
  AgentRunRecord.validate {
    id := row.id
    workspaceId := row.workspaceId
    threadId := row.threadId
    messageSequence := row.messageSequence
    requesterPrincipalId := row.requesterPrincipalId
    requesterMembershipVersion := row.requesterMembershipVersion
    authorizationSnapshotId := row.authorizationSnapshotId
    authorizationSnapshotDigest := row.authorizationSnapshotDigest
    providerBindingId := row.providerBindingId
    providerBindingVersion := row.providerBindingVersion
    providerBindingDigest := row.providerBindingDigest
    canonicalRequestDigest := row.canonicalRequestDigest
    idempotencyKey := row.idempotencyKey
    parentRunId := row.parentRunId
    rootRunId := row.rootRunId
    createdAt := createdAt }

/-! ## Events -/

def RunEventRecord.row (r : RunEventRecord) : EventRow where
  workspaceId := r.workspaceId
  threadId := r.threadId
  runId := r.runId
  sequence := r.event.sequence
  handleId := r.event.handleId
  timestamp := r.timestamp.isoformat
  eventType := r.event.eventType
  payloadJson := Json.dumps (.obj r.event.redactedPayload)
  providerEventId := r.event.providerEventId
  toolCallId := r.event.toolCallId
  effectAuthorizationDecisionId := r.event.effectAuthorizationDecisionId
  effectAuthorizationDecisionDigest := r.event.effectAuthorizationDecisionDigest
  previousEventDigest := r.event.previousEventDigest
  eventDigest := r.event.eventDigest

/-- `json.loads` of a payload, which has to be an object. -/
def payloadFrom (text : String) : Except Raised (List (String × Json)) :=
  match Json.loads text with
  | some (.obj members) => .ok members
  | _ => .error (.validation "redacted_payload")

/-- `_validated_event_from_row`. -/
def validatedEventFromRow (M : Models) (row : EventRow) : Except Raised RunEventRecord := do
  let timestamp ← M.time row.timestamp
  let payload ← payloadFrom row.payloadJson
  let event ← validateEvent M {
    runId := row.runId
    handleId := row.handleId
    sequence := row.sequence
    timestamp := timestamp.instant
    eventType := row.eventType
    redactedPayload := payload
    providerEventId := row.providerEventId
    toolCallId := row.toolCallId
    effectAuthorizationDecisionId := row.effectAuthorizationDecisionId
    effectAuthorizationDecisionDigest := row.effectAuthorizationDecisionDigest
    previousEventDigest := row.previousEventDigest
    eventDigest := row.eventDigest }
  RunEventRecord.validate ⟨row.workspaceId, row.threadId, row.runId, event, timestamp.offset⟩

/-- `_event_from_row`. -/
def eventFromRow (M : Models) (row : EventRow) : Except Raised RunEventRecord :=
  match validatedEventFromRow M row with
  | .ok record => .ok record
  | .error _ => .error (.repository "run_event_integrity_invalid")

/-- The events of a run, as they were inserted. -/
def Store.eventRows (s : Store) (workspaceId runId : Uuid) : List EventRow :=
  s.events.rows.filter fun r => r.workspaceId = workspaceId ∧ r.runId = runId

/-- `ORDER BY sequence`. -/
def bySequence (rows : List EventRow) : List EventRow :=
  rows.insertionSort (·.sequence ≤ ·.sequence)

/-! ## Artifacts -/

def RunArtifact.row (a : RunArtifact) : ArtifactRow where
  workspaceId := a.workspaceId
  id := a.id
  runId := a.runId
  producingEventSequence := a.producingEventSequence
  displayName := a.displayName
  mediaType := a.mediaType
  byteSize := a.byteSize
  contentDigest := a.contentDigest
  lineageDigest := a.lineageDigest
  createdAt := a.createdAt.isoformat

/-- `_artifact_from_row`. -/
def artifactFromRow (M : Models) (s : Store) (row : ArtifactRow) : Except Raised RunArtifact := do
  let parents := items s.lineage (row.workspaceId, row.id)
  let createdAt ← M.time row.createdAt
  RunArtifact.validate M.toDigests {
    id := row.id
    workspaceId := row.workspaceId
    runId := row.runId
    producingEventSequence := row.producingEventSequence
    displayName := row.displayName
    mediaType := row.mediaType
    byteSize := row.byteSize
    contentDigest := row.contentDigest
    parentArtifactIds := parents
    lineageDigest := row.lineageDigest
    createdAt := createdAt }

end Corvus.Conversations
