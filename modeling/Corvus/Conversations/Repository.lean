import Corvus.Conversations.Store

/-!
# The repository of conversations

A method that writes is one transaction: it gives what it returns with the new tables or, having
written nothing, what it raises.
-/

namespace Corvus.Conversations

open Agent (AgentRunEvent AgentRunEventType GENESIS_EVENT_DIGEST)

variable (M : Models) (d : Directory) (s : Store)

/-- The integers of SQLite. -/
def integer (n : Nat) : Except Raised Unit := require (n < 2 ^ 63) .overflow

/-! ## Threads -/

/-- The rows to which a thread refers are there. -/
def Directory.ThreadBinds (t : Thread) : Prop :=
  d.workspaces t.workspaceId t.workspaceVersion = true ∧
    d.memberships t.workspaceId t.creatorPrincipalId t.creatorMembershipVersion = true ∧
    (∀ project ∈ t.projectId, d.projects t.workspaceId project = true) ∧
    titleStands t.title = true

instance (t : Thread) : Decidable (d.ThreadBinds t) :=
  inferInstanceAs (Decidable (_ ∧ _ ∧ _ ∧ _))

/-- `create_thread`. -/
def createThread (thread : Thread) : Except Raised (Store × Thread) := do
  d.requireMembership thread.workspaceId thread.creatorPrincipalId thread.creatorMembershipVersion
  match s.threadRow thread.workspaceId thread.id with
  | some row =>
      let existing ← threadFromRow M row
      require (existing.same thread) (.repository "thread_identity_conflict")
      return (s, existing)
  | none =>
      integer thread.version
      require (d.ThreadBinds thread) (.repository "thread_binding_invalid")
      let threads ← present (s.threads.insert? thread.row) (.repository "thread_binding_invalid")
      let versions ← present (s.threadVersions.insert? thread.versionRow)
        (.repository "thread_binding_invalid")
      return ({ s with threads := threads, threadVersions := versions }, thread)

/-- `get_thread`. -/
def getThread (workspaceId threadId requesterPrincipalId : Uuid) :
    Except Raised (Option Thread) :=
  match d.currentMembership workspaceId requesterPrincipalId, s.threadRow workspaceId threadId with
  | some _, some row => some <$> threadFromRow M row
  | _, _ => .ok none

/-- `ORDER BY created_at, id`. -/
def byCreation {α : Type} (createdAt : α → String) (id : α → Uuid) (rows : List α) : List α :=
  rows.insertionSort fun a b =>
    createdAt a < createdAt b ∨ createdAt a = createdAt b ∧ (id a).text ≤ (id b).text

/-- `list_threads`. -/
def listThreads (workspaceId requesterPrincipalId : Uuid) : Except Raised (List Thread) :=
  match d.currentMembership workspaceId requesterPrincipalId with
  | none => .ok []
  | some _ =>
      let ids := (byCreation (·.createdAt) (·.id)
        (s.threads.rows.filter (·.workspaceId = workspaceId))).map (·.id)
      (ids.filterMap fun id => s.threadRow workspaceId id).mapM (threadFromRow M)

/-- `archive_thread`. -/
def archiveThread (workspaceId threadId : Uuid) (expectedVersion : Nat)
    (requesterPrincipalId : Uuid) (requesterMembershipVersion : Nat) (updatedAt : Datetime) :
    Except Raised (Store × Thread) := do
  d.requireMembership workspaceId requesterPrincipalId requesterMembershipVersion
  let row ← present (s.threadRow workspaceId threadId) (.repository "thread_not_found")
  let current ← threadFromRow M row
  require (current.version = expectedVersion) (.repository "thread_version_conflict")
  let archived : Thread := { current with
    status := .archived
    version := current.version + 1
    updatedAt := updatedAt }
  integer archived.version
  require (titleStands archived.title = true) .integrity
  let versions ← present (s.threadVersions.insert?
    { archived.versionRow with workspaceId := workspaceId, threadId := threadId }) .integrity
  return ({ s with threadVersions := versions }, archived)

/-! ## Messages -/

/-- The rows to which a new message refers are there, and no other message has its id. -/
def MessageBinds (m : Message) : Prop :=
  (∀ r ∈ s.messages.rows, ¬ (r.workspaceId = m.workspaceId ∧ r.id = m.id)) ∧
    (∀ principal ∈ m.authorPrincipalId, ∀ version ∈ m.authorMembershipVersion,
      d.memberships m.workspaceId principal version = true) ∧
    ∀ agent ∈ m.authorAgentId, ∀ version ∈ m.authorAgentVersion,
      d.agents m.workspaceId agent version = true

instance (m : Message) : Decidable (MessageBinds d s m) :=
  inferInstanceAs (Decidable (_ ∧ _ ∧ _))

/-- The message of a thread under an idempotency key. -/
def Store.messageUnder (workspaceId threadId : Uuid) (key : String) : Option MessageRow :=
  s.messages.rows.find? fun r =>
    r.workspaceId = workspaceId ∧ r.threadId = threadId ∧ r.idempotencyKey = key

/-- `COALESCE(MAX(sequence), 0) + 1`. -/
def Store.nextSequence (workspaceId threadId : Uuid) : Nat :=
  (((s.messageRows workspaceId threadId).map (·.sequence)).max?).getD 0 + 1

/-- `append_message`. -/
def appendMessage (message : Message) (requesterPrincipalId : Uuid)
    (requesterMembershipVersion : Nat) : Except Raised (Store × Message) := do
  let requestDigest := message.requestDigest M.toDigests
  d.requireMembership message.workspaceId requesterPrincipalId requesterMembershipVersion
  let _ ← present (s.threadRow message.workspaceId message.threadId)
    (.repository "thread_not_found")
  match s.messageUnder message.workspaceId message.threadId message.idempotencyKey with
  | some existing =>
      require (existing.requestDigest = requestDigest)
        (.repository "conversation_idempotency_payload_mismatch")
      let stored ← messageFromRow M s existing
      return (s, stored)
  | none =>
      require (∀ id ∈ message.attachmentIds, d.attachments message.workspaceId id = true)
        (.repository "attachment_not_found")
      let sequence := s.nextSequence message.workspaceId message.threadId
      let stored ← { message with sequence := sequence }.validate M.toDigests
      require (MessageBinds d s stored) (.repository "message_binding_invalid")
      let messages ← present (s.messages.insert? (stored.row requestDigest))
        (.repository "message_binding_invalid")
      return ({ s with
        messages := messages
        messageAttachments := s.messageAttachments ++
          entries (stored.workspaceId, stored.threadId, sequence) stored.attachmentIds }, stored)

/-- `list_messages`. -/
def listMessages (workspaceId threadId requesterPrincipalId : Uuid) :
    Except Raised (List Message) :=
  match d.currentMembership workspaceId requesterPrincipalId with
  | none => .ok []
  | some _ =>
      ((s.messageRows workspaceId threadId).insertionSort (·.sequence ≤ ·.sequence)).mapM
        (messageFromRow M s)

/-! ## Runs -/

/-- The rows to which a new run refers are there. A run may be its own root. -/
def RunBinds (r : AgentRunRecord) : Prop :=
  s.messages.get? (r.workspaceId, r.threadId, r.messageSequence) ≠ none ∧
    d.memberships r.workspaceId r.requesterPrincipalId r.requesterMembershipVersion = true ∧
    (∀ parent ∈ r.parentRunId, parent = r.id ∨ s.runs.get? (r.workspaceId, parent) ≠ none) ∧
    ∀ root ∈ r.rootRunId, root = r.id ∨ s.runs.get? (r.workspaceId, root) ≠ none

instance (r : AgentRunRecord) : Decidable (RunBinds d s r) :=
  inferInstanceAs (Decidable (_ ∧ _ ∧ _ ∧ _))

/-- The run of a thread under an idempotency key. -/
def Store.runUnder (workspaceId threadId : Uuid) (key : String) : Option RunRow :=
  s.runs.rows.find? fun r =>
    r.workspaceId = workspaceId ∧ r.threadId = threadId ∧ r.idempotencyKey = key

/-- `create_run`. -/
def createRun (run : AgentRunRecord) : Except Raised (Store × AgentRunRecord) := do
  let requestDigest := run.requestDigest M.toDigests
  d.requireMembership run.workspaceId run.requesterPrincipalId run.requesterMembershipVersion
  match s.runUnder run.workspaceId run.threadId run.idempotencyKey with
  | some existing =>
      require (existing.requestDigest = requestDigest)
        (.repository "conversation_idempotency_payload_mismatch")
      let stored ← runFromRow M existing
      return (s, stored)
  | none =>
      integer run.providerBindingVersion
      require (RunBinds d s run) (.repository "run_binding_invalid")
      let runs ← present (s.runs.insert? (run.row requestDigest))
        (.repository "run_binding_invalid")
      return ({ s with runs := runs }, run)

/-- `get_run`. -/
def getRun (workspaceId runId requesterPrincipalId : Uuid) :
    Except Raised (Option AgentRunRecord) :=
  match d.currentMembership workspaceId requesterPrincipalId,
      s.runs.get? (workspaceId, runId) with
  | some _, some row => some <$> runFromRow M row
  | _, _ => .ok none

/-! ## Events -/

/-- The event of a run that a provider has given an id. -/
def Store.eventUnder (workspaceId runId : Uuid) (providerEventId : String) : Option EventRow :=
  s.events.rows.find? fun r =>
    r.workspaceId = workspaceId ∧ r.runId = runId ∧ r.providerEventId = some providerEventId

/-- `ORDER BY sequence DESC LIMIT 1`. -/
def Store.lastEvent (workspaceId runId : Uuid) : Option EventRow :=
  (bySequence (s.eventRows workspaceId runId)).getLast?

/-- A given event as the next one after `last`. -/
def nextEvent (last : Option EventRow) (e : AgentRunEvent) : AgentRunEvent :=
  let next := { e with
    sequence := (last.map EventRow.sequence).getD 0 + 1
    previousEventDigest := (last.map EventRow.eventDigest).getD GENESIS_EVENT_DIGEST }
  { next with eventDigest := next.computeDigest M.toDigests }

/-- What follows when `append_event` has found no event to replay. -/
def appendNewEvent (record : RunEventRecord) : Except Raised (Store × RunEventRecord) := do
  let last := s.lastEvent record.workspaceId record.runId
  require (∀ row ∈ last, row.eventType.terminalState = none)
    (.repository "run_event_after_terminal")
  let next := nextEvent M last record.event
  require (next.sequence = 1 → next.eventType = .started)
    (.repository "run_event_stream_must_start")
  let event ← validateEvent M next
  let stored ← RunEventRecord.validate { record with event := event }
  let prior ← (bySequence (s.eventRows record.workspaceId record.runId)).mapM (eventFromRow M)
  match Agent.validateAgentRunEventChain M.toDigests (prior.map (·.event) ++ [event]) with
  | .error e => throw (.repository e.reasonCode)
  | .ok _ =>
      let events ← present (s.events.insert? stored.row) (.repository "run_event_binding_invalid")
      return ({ s with events := events }, stored)

/-- `append_event`. -/
def appendEvent (record : RunEventRecord) (requesterPrincipalId : Uuid)
    (requesterMembershipVersion : Nat) : Except Raised (Store × RunEventRecord) := do
  d.requireMembership record.workspaceId requesterPrincipalId requesterMembershipVersion
  let run ← present (s.runs.get? (record.workspaceId, record.runId)) (.repository "run_not_found")
  require (run.threadId = record.threadId) (.repository "run_not_found")
  match record.event.providerEventId.bind (s.eventUnder record.workspaceId record.runId) with
  | some row =>
      let replay ← eventFromRow M row
      require (eventReplayBody replay.event = eventReplayBody record.event)
        (.repository "conversation_idempotency_payload_mismatch")
      return (s, replay)
  | none => appendNewEvent M s record

/-! ## Pages -/

structure RunEventPage where
  workspaceId : Uuid
  runId : Uuid
  requestedAfter : Nat
  nextAfter : Nat
  highWatermark : Nat
  earliestSequence : Nat
  events : List RunEventRecord
  hasMore : Bool
deriving DecidableEq

/-- `validate_page`. -/
def RunEventPage.validate (p : RunEventPage) : Except Raised RunEventPage := do
  positive p.earliestSequence
  let sequences := p.events.map (·.event.sequence)
  require (sequences.Pairwise (· < ·)) (.validation "run_event_page_order_invalid")
  require (∀ r ∈ p.events, r.workspaceId = p.workspaceId ∧ r.runId = p.runId)
    (.validation "run_event_page_binding_mismatch")
  require (∀ last ∈ sequences.getLast?, p.nextAfter = last)
    (.validation "run_event_page_next_invalid")
  return p

/-- What a call of `page_events` has learned before it reads the events. -/
structure Bounds where
  threadId : Uuid
  earliest : Nat
  high : Nat

/-- The first part of `page_events`, up to the statement that gives the bounds of the run. -/
def pageBounds (workspaceId runId requesterPrincipalId : Uuid) (afterSequence limit : Nat) :
    Except Raised Bounds := do
  require (1 ≤ limit ∧ limit ≤ 1000) (.repository "conversation_cursor_invalid")
  let _ ← present (d.currentMembership workspaceId requesterPrincipalId)
    (.repository "run_not_found")
  let run ← present (s.runs.get? (workspaceId, runId)) (.repository "run_not_found")
  let sequences := (s.eventRows workspaceId runId).map (·.sequence)
  let earliest := sequences.min?.getD 1
  let high := sequences.max?.getD 0
  require (afterSequence ≤ high) (.repository "conversation_cursor_invalid")
  require (earliest ≤ afterSequence + 1) (.repository "conversation_cursor_resync_required")
  return ⟨run.threadId, earliest, high⟩

/-- What the events of a page, with all before them, have to be. -/
def checkChain (workspaceId runId : Uuid) (b : Bounds) (chain : List RunEventRecord) :
    Except Raised Unit :=
  if chain = [] then require (b.high = 0) (.repository "run_event_integrity_invalid")
  else do
    require (chain.length = b.high ∧ b.earliest = 1 ∧ ∀ r ∈ chain, r.workspaceId = workspaceId ∧
        r.threadId = b.threadId ∧ r.runId = runId)
      (.repository "run_event_integrity_invalid")
    match Agent.validateAgentRunEventChain M.toDigests (chain.map (·.event)) with
    | .error _ => throw (.repository "run_event_integrity_invalid")
    | .ok _ => return

/-- The second part of `page_events`, which reads the events within the bounds. -/
def pageWithin (workspaceId runId : Uuid) (afterSequence limit : Nat) (b : Bounds) :
    Except Raised RunEventPage := do
  let rows := bySequence ((s.eventRows workspaceId runId).filter (·.sequence ≤ b.high))
  let chain ← rows.mapM (eventFromRow M)
  checkChain M workspaceId runId b chain
  let events := (chain.filter fun r => afterSequence < r.event.sequence).take limit
  let nextAfter := (events.getLast?.map (·.event.sequence)).getD afterSequence
  RunEventPage.validate {
    workspaceId := workspaceId
    runId := runId
    requestedAfter := afterSequence
    nextAfter := nextAfter
    highWatermark := b.high
    earliestSequence := b.earliest
    events := events
    hasMore := nextAfter < b.high }

/-- `page_events`. -/
def pageEvents (workspaceId runId requesterPrincipalId : Uuid) (afterSequence limit : Nat) :
    Except Raised RunEventPage := do
  let b ← pageBounds d s workspaceId runId requesterPrincipalId afterSequence limit
  pageWithin M s workspaceId runId afterSequence limit b

/-! ## Artifacts -/

/-- `record_artifact`. -/
def recordArtifact (artifact : RunArtifact) (requesterPrincipalId : Uuid)
    (requesterMembershipVersion : Nat) : Except Raised (Store × RunArtifact) := do
  d.requireMembership artifact.workspaceId requesterPrincipalId requesterMembershipVersion
  let _ ← present (s.runs.get? (artifact.workspaceId, artifact.runId))
    (.repository "run_not_found")
  match s.artifacts.get? (artifact.workspaceId, artifact.id) with
  | some existing =>
      let value ← artifactFromRow M s existing
      require (value.same artifact) (.repository "artifact_identity_conflict")
      return (s, value)
  | none =>
      let _ ← present
        (s.events.get? (artifact.workspaceId, artifact.runId, artifact.producingEventSequence))
        (.repository "artifact_producing_event_not_found")
      require (∀ parent ∈ artifact.parentArtifactIds,
          s.artifacts.get? (artifact.workspaceId, parent) ≠ none)
        (.repository "artifact_parent_not_found")
      let artifacts ← present (s.artifacts.insert? artifact.row)
        (.repository "artifact_binding_invalid")
      return ({ s with
        artifacts := artifacts
        lineage := s.lineage ++
          entries (artifact.workspaceId, artifact.id) artifact.parentArtifactIds }, artifact)

/-- `list_artifacts`. -/
def listArtifacts (workspaceId runId requesterPrincipalId : Uuid) :
    Except Raised (List RunArtifact) :=
  match d.currentMembership workspaceId requesterPrincipalId with
  | none => .ok []
  | some _ =>
      (byCreation (·.createdAt) (·.id) (s.artifacts.rows.filter fun r =>
        r.workspaceId = workspaceId ∧ r.runId = runId)).mapM (artifactFromRow M s)

end Corvus.Conversations
