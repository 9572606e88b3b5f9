import Corvus.Agent.Chain
import Corvus.Agent.Providers
import Corvus.Library.Loads
import Corvus.Library.Text

/-!
# The records of conversations

Threads, messages, runs, events and artifacts, with what their models ask of them. A `validate` is
the constructor of a model: it gives the record back, or raises the first of its errors.
-/

namespace Corvus.Conversations

open Agent (AgentRunEvent AgentRunEventType isSha256 bounded)

/-! ## Times -/

/-- An aware `datetime`: its instant, and the offset from UTC with which it is written, in
microseconds. -/
structure Aware where
  instant : Instant
  offset : Int
deriving DecidableEq

/-- A `datetime`. One without an offset is what the clock shows. -/
inductive Datetime where
  | naive (wall : Instant)
  | aware (time : Aware)
deriving DecidableEq

/-- The offset in `isoformat`: hours and minutes, and seconds where there are any. -/
def offsetText (offset : Int) : String :=
  let micros := offset.natAbs
  let seconds := micros / 1000000
  String.ofList ((if offset < 0 then '-' else '+') :: Calendar.digits 2 (seconds / 3600) ++
    ':' :: Calendar.digits 2 (seconds / 60 % 60) ++
    (if micros % 60000000 = 0 then [] else ':' :: Calendar.digits 2 (seconds % 60)) ++
    if micros % 1000000 = 0 then [] else '.' :: Calendar.digits 6 (micros % 1000000))

def Aware.isoformat (t : Aware) : String :=
  Calendar.isoformat (t.instant + t.offset) ++ offsetText t.offset

def Datetime.isoformat : Datetime → String
  | naive wall => Calendar.isoformat wall
  | aware time => time.isoformat

/-- The same instant in UTC. -/
def Datetime.utc : Datetime → Datetime
  | naive wall => naive wall
  | aware time => aware { time with offset := 0 }

example : Aware.isoformat ⟨0, 1172000000⟩ = "1970-01-01T00:19:32+00:19:32" := by decide +kernel

/-- What is taken from elsewhere: the digests, whether `AgentRunEvent` lets a payload pass as free
of secrets, and the time that a model reads from a text. -/
structure Models extends Digests where
  admits : List (String × Json) → Bool
  parse : String → Option Datetime

/-- What the repository may raise. -/
inductive Raised where
  /-- `ConversationRepositoryError`, with its reason code. -/
  | repository (reasonCode : String)
  | validation (reason : String)
  | integrity
  | overflow
deriving DecidableEq

/-- `_aware`. -/
def awareOf : Datetime → Except Raised Aware
  | .aware time => .ok time
  | .naive _ => .error (.validation "conversation_timestamp_must_be_timezone_aware")

/-- The time that a model reads from a column. -/
def Models.datetime (M : Models) (text : String) : Except Raised Datetime :=
  present (M.parse text) (.validation "datetime_parsing")

def Models.time (M : Models) (text : String) : Except Raised Aware := do
  awareOf (← M.datetime text)

/-- `value.astimezone(UTC).isoformat()`. -/
def canonicalTime (t : Aware) : Json := .str (Calendar.isoformat t.instant ++ "+00:00")

/-- `str(uuid)`, or nothing. -/
def optionalId (id : Option Uuid) : Json := (id.map fun u => Json.str u.text).getD .null

def optionalNat (n : Option Nat) : Json := (n.map fun n => Json.int n).getD .null

/-! ## Fields -/

/-- `Field(ge=1)`. -/
def positive (n : Nat) : Except Raised Unit := require (1 ≤ n) (.validation "greater_than_equal")

/-- `Field(pattern=SHA256_PATTERN)`. -/
def digestField (digest : String) : Except Raised Unit :=
  require (isSha256 digest = true) (.validation "string_pattern_mismatch")

def MAX_IDEMPOTENCY_KEY_CHARACTERS : Nat := 512

/-- The key of a message or of a run, which is named by the prefix. -/
def idempotencyKey (subject key : String) : Except Raised Unit := do
  require (1 ≤ key.length) (.validation "string_too_short")
  require (key.length ≤ MAX_IDEMPOTENCY_KEY_CHARACTERS) (.validation "string_too_long")
  require (Text.strip key ≠ "") (.validation (subject ++ "_idempotency_key_blank"))

/-! ## Threads -/

inductive ThreadStatus where
  | active | archived
deriving DecidableEq, Repr

/-- `Thread`. A copy of a thread is not validated, so that its times may be any. -/
structure Thread where
  id : Uuid
  workspaceId : Uuid
  workspaceVersion : Nat
  projectId : Option Uuid
  creatorPrincipalId : Uuid
  creatorMembershipVersion : Nat
  title : String
  status : ThreadStatus
  createdAt : Datetime
  updatedAt : Datetime
  version : Nat
deriving DecidableEq

def MAX_THREAD_TITLE_CHARACTERS : Nat := 200

def Thread.validate (t : Thread) : Except Raised Thread := do
  positive t.workspaceVersion
  positive t.creatorMembershipVersion
  require (Text.strip t.title ≠ "") (.validation "thread_title_blank")
  require (t.title.length ≤ MAX_THREAD_TITLE_CHARACTERS) (.validation "thread_title_too_long")
  let createdAt ← awareOf t.createdAt
  let updatedAt ← awareOf t.updatedAt
  positive t.version
  require (createdAt.instant ≤ updatedAt.instant) (.validation "thread_updated_before_creation")
  return t

/-- Two threads are equal if they differ in the offsets of their times only. -/
def Thread.same (t u : Thread) : Prop :=
  { t with createdAt := t.createdAt.utc, updatedAt := t.updatedAt.utc } =
    { u with createdAt := u.createdAt.utc, updatedAt := u.updatedAt.utc }

instance (t u : Thread) : Decidable (t.same u) := inferInstanceAs (Decidable (_ = _))

/-! ## Messages -/

inductive MessageAuthorKind where
  | principal | agent | system
deriving DecidableEq, Repr

def MessageAuthorKind.value : MessageAuthorKind → String
  | principal => "principal"
  | agent => "agent"
  | system => "system"

structure Message where
  id : Uuid
  workspaceId : Uuid
  threadId : Uuid
  sequence : Nat
  content : String
  contentDigest : String
  idempotencyKey : String
  producingRunId : Option Uuid
  attachmentIds : List Uuid
  authorKind : MessageAuthorKind
  authorPrincipalId : Option Uuid
  authorMembershipVersion : Option Nat
  authorAgentId : Option Uuid
  authorAgentVersion : Option Nat
  createdAt : Aware
deriving DecidableEq

def MAX_MESSAGE_CONTENT_CHARACTERS : Nat := 100000

/-- `compute_content_digest`. -/
def computeContentDigest (D : Digests) (content : String) : String := D.sha256 content

/-- Whether the author of a message is of its kind, and nobody in part. -/
def Message.authored (m : Message) : Bool :=
  let principalShape := m.authorPrincipalId.isSome && m.authorMembershipVersion.isSome
  let agentShape := m.authorAgentId.isSome && m.authorAgentVersion.isSome
  let partialShape := m.authorPrincipalId.isSome != m.authorMembershipVersion.isSome ||
    m.authorAgentId.isSome != m.authorAgentVersion.isSome
  let valid := match m.authorKind with
    | .principal => principalShape && !agentShape
    | .agent => agentShape && !principalShape
    | .system => !principalShape && !agentShape
  !partialShape && valid

def Message.validate (D : Digests) (m : Message) : Except Raised Message := do
  positive m.sequence
  require (Text.strip m.content ≠ "") (.validation "message_content_blank")
  require (m.content.length ≤ MAX_MESSAGE_CONTENT_CHARACTERS)
    (.validation "message_content_too_long")
  digestField m.contentDigest
  Conversations.idempotencyKey "message" m.idempotencyKey
  require (∀ version ∈ m.authorMembershipVersion, 1 ≤ version) (.validation "greater_than_equal")
  require (∀ version ∈ m.authorAgentVersion, 1 ≤ version) (.validation "greater_than_equal")
  require (m.contentDigest = computeContentDigest D m.content)
    (.validation "message_digest_mismatch")
  require m.attachmentIds.Nodup (.validation "message_attachment_ids_duplicate")
  require (m.authored = true) (.validation "message_author_binding_invalid")
  return m

/-- `_message_request_digest`. -/
def Message.requestDigest (D : Digests) (m : Message) : String :=
  D.sha256 (Json.dumps (.obj [
    ("id", .str m.id.text),
    ("workspace_id", .str m.workspaceId.text),
    ("thread_id", .str m.threadId.text),
    ("content", .str m.content),
    ("content_digest", .str m.contentDigest),
    ("idempotency_key", .str m.idempotencyKey),
    ("producing_run_id", optionalId m.producingRunId),
    ("attachment_ids", .arr (m.attachmentIds.map fun u => .str u.text)),
    ("author_kind", .str m.authorKind.value),
    ("author_principal_id", optionalId m.authorPrincipalId),
    ("author_membership_version", optionalNat m.authorMembershipVersion),
    ("author_agent_id", optionalId m.authorAgentId),
    ("author_agent_version", optionalNat m.authorAgentVersion),
    ("created_at", canonicalTime m.createdAt)]))

/-! ## Runs -/

structure AgentRunRecord where
  id : Uuid
  workspaceId : Uuid
  threadId : Uuid
  messageSequence : Nat
  requesterPrincipalId : Uuid
  requesterMembershipVersion : Nat
  authorizationSnapshotId : Uuid
  authorizationSnapshotDigest : String
  providerBindingId : Uuid
  providerBindingVersion : Nat
  providerBindingDigest : String
  canonicalRequestDigest : String
  idempotencyKey : String
  parentRunId : Option Uuid
  rootRunId : Option Uuid
  createdAt : Aware
deriving DecidableEq

def AgentRunRecord.validate (r : AgentRunRecord) : Except Raised AgentRunRecord := do
  positive r.messageSequence
  positive r.requesterMembershipVersion
  digestField r.authorizationSnapshotDigest
  positive r.providerBindingVersion
  digestField r.providerBindingDigest
  digestField r.canonicalRequestDigest
  Conversations.idempotencyKey "run" r.idempotencyKey
  require (r.parentRunId ≠ some r.id) (.validation "run_parent_cannot_equal_run")
  require (r.parentRunId.isSome → r.rootRunId.isSome) (.validation "run_root_required_for_parent")
  return r

/-- `_run_request_digest`. -/
def AgentRunRecord.requestDigest (D : Digests) (r : AgentRunRecord) : String :=
  D.sha256 (Json.dumps (.obj [
    ("id", .str r.id.text),
    ("workspace_id", .str r.workspaceId.text),
    ("thread_id", .str r.threadId.text),
    ("message_sequence", .int r.messageSequence),
    ("requester_principal_id", .str r.requesterPrincipalId.text),
    ("requester_membership_version", .int r.requesterMembershipVersion),
    ("authorization_snapshot_id", .str r.authorizationSnapshotId.text),
    ("authorization_snapshot_digest", .str r.authorizationSnapshotDigest),
    ("provider_binding_id", .str r.providerBindingId.text),
    ("provider_binding_version", .int r.providerBindingVersion),
    ("provider_binding_digest", .str r.providerBindingDigest),
    ("canonical_request_digest", .str r.canonicalRequestDigest),
    ("idempotency_key", .str r.idempotencyKey),
    ("parent_run_id", optionalId r.parentRunId),
    ("root_run_id", optionalId r.rootRunId),
    ("created_at", canonicalTime r.createdAt)]))

/-! ## Events -/

/-- An event of a run of a thread. `AgentRunEvent` keeps its timestamp as an instant, and `offset`
is the one with which it is written. -/
structure RunEventRecord where
  workspaceId : Uuid
  threadId : Uuid
  runId : Uuid
  event : AgentRunEvent
  offset : Int
deriving DecidableEq

def RunEventRecord.timestamp (r : RunEventRecord) : Aware := ⟨r.event.timestamp, r.offset⟩

/-- `Field(min_length=1, max_length=512)` of a text that may be missing. -/
def identifierField (id : Option String) : Except Raised Unit :=
  require (∀ text ∈ id, bounded 512 text = true) (.validation "string_length")

/-- The constructor of an `AgentRunEvent`. A payload is held as the list of its members in the
order of their names. -/
def validateEvent (M : Models) (e : AgentRunEvent) : Except Raised AgentRunEvent := do
  positive e.sequence
  identifierField e.providerEventId
  identifierField e.toolCallId
  require (∀ digest ∈ e.effectAuthorizationDecisionDigest, isSha256 digest = true)
    (.validation "string_pattern_mismatch")
  digestField e.previousEventDigest
  digestField e.eventDigest
  require (M.admits e.redactedPayload = true)
    (.validation "agent_run_event_payload_contains_secret")
  require (e.eventType.isTool = true → e.toolCallId ≠ none)
    (.validation "agent_run_tool_call_id_required")
  let effect := e.eventType.isTool || e.eventType = .approvalRequired
  require (effect = true → e.effectAuthorizationDecisionId ≠ none ∧
      e.effectAuthorizationDecisionDigest ≠ none)
    (.validation "effect_authorization_decision_required")
  require (effect = false → e.effectAuthorizationDecisionId = none ∧
      e.effectAuthorizationDecisionDigest = none)
    (.validation "effect_authorization_decision_unsolicited")
  require (e.eventDigest = e.computeDigest M.toDigests)
    (.validation "agent_run_event_digest_mismatch")
  return e

def RunEventRecord.validate (r : RunEventRecord) : Except Raised RunEventRecord := do
  require (r.event.runId = r.runId) (.validation "run_event_run_mismatch")
  require (r.event.sequence = 1 → r.event.eventType = .started)
    (.validation "run_event_stream_must_start")
  return r

/-- `_event_replay_body`. -/
def eventReplayBody (e : AgentRunEvent) : AgentRunEvent :=
  { e with sequence := 0, previousEventDigest := "", eventDigest := "" }

/-! ## Artifacts -/

structure RunArtifact where
  id : Uuid
  workspaceId : Uuid
  runId : Uuid
  producingEventSequence : Nat
  displayName : String
  mediaType : String
  byteSize : Nat
  contentDigest : String
  parentArtifactIds : List Uuid
  lineageDigest : String
  createdAt : Aware
deriving DecidableEq

def MAX_SAFE_NAME_CHARACTERS : Nat := 255

def MAX_MEDIA_TYPE_CHARACTERS : Nat := 255

def MAX_ARTIFACT_BYTES : Nat := 100 * 1024 * 1024 * 1024

/-- `_safe_leaf_name`. A name without separators, colons and zeros that is neither `.` nor `..` is
the only part of its path, on either system. -/
def safeLeafName (value : String) : Bool :=
  Text.strip value ≠ "" && value = Text.strip value && value.length ≤ MAX_SAFE_NAME_CHARACTERS &&
    value ∉ [".", ".."] && value.toList.all fun c => c ∉ ['/', '\\', ':', Char.ofNat 0]

def alphanumeric (c : Char) : Bool := c.isAlphanum

/-- One of the two names in `_MEDIA_TYPE_PATTERN`. -/
def mediaName : List Char → Bool
  | [] => false
  | c :: r => alphanumeric c && r.length ≤ 126 &&
      r.all fun c => alphanumeric c || c ∈ "!#$&^_.+-".toList

def mediaTypeMatches (value : String) : Bool :=
  mediaName (value.toList.takeWhile (· ≠ '/')) &&
    mediaName (value.toList.dropWhile (· ≠ '/')).tail

/-- `str.casefold` of a text that matches. -/
def casefold (value : String) : String := String.ofList (value.toList.map Text.lowerAscii)

/-- `compute_lineage_digest`, of the fields of an artifact. -/
def RunArtifact.computeLineageDigest (D : Digests) (a : RunArtifact) : String :=
  D.sha256 (Json.dumps (.obj [
    ("artifact_id", .str a.id.text),
    ("content_digest", .str a.contentDigest),
    ("parent_artifact_ids", .arr (((a.parentArtifactIds.map Uuid.text).insertionSort (· ≤ ·)).map
      Json.str)),
    ("producing_event_sequence", .int a.producingEventSequence),
    ("run_id", .str a.runId.text),
    ("workspace_id", .str a.workspaceId.text)]))

def RunArtifact.validate (D : Digests) (a : RunArtifact) : Except Raised RunArtifact := do
  positive a.producingEventSequence
  require (safeLeafName a.displayName = true) (.validation "artifact_name_must_be_safe_leaf")
  require (a.mediaType.length ≤ MAX_MEDIA_TYPE_CHARACTERS ∧ mediaTypeMatches a.mediaType = true)
    (.validation "artifact_media_type_invalid")
  require (a.byteSize ≤ MAX_ARTIFACT_BYTES) (.validation "less_than_equal")
  digestField a.contentDigest
  digestField a.lineageDigest
  require (a.id ∉ a.parentArtifactIds) (.validation "artifact_lineage_self_cycle")
  require a.parentArtifactIds.Nodup (.validation "artifact_parent_ids_duplicate")
  require (a.lineageDigest = a.computeLineageDigest D)
    (.validation "artifact_lineage_digest_mismatch")
  return { a with mediaType := casefold a.mediaType }

/-- Two artifacts are equal if they differ in the offset of their time only. -/
def RunArtifact.same (a b : RunArtifact) : Prop :=
  { a with createdAt.offset := 0 } = { b with createdAt.offset := 0 }

instance (a b : RunArtifact) : Decidable (a.same b) := inferInstanceAs (Decidable (_ = _))

end Corvus.Conversations
