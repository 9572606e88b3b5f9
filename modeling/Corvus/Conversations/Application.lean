import Corvus.Agent.Requests
import Corvus.Conversations.Attachments
import Corvus.Conversations.Calls

/-!
# The service of conversations

`ConversationService` in front of the repository. Who may do what is decided by the authorization,
and a write is carried out by the lifecycle of mutations; both are given. The service compares the
records that it is handed with the context of the request before it asks either.
-/

namespace Corvus.Conversations

open Agent (RequestContext)
open Authorization (ScopeKind ClientSurface)

/-! ## What the service asks for -/

structure ConversationAuthorizationRequest where
  context : RequestContext
  clientSurface : ClientSurface
  action : String
  workspaceId : Uuid
  resourceId : Uuid

structure ConversationAuthorizationDecision where
  allowed : Bool
  reasonCode : String
  authorizationSnapshotId : Uuid
  authorizationSnapshotDigest : String
deriving DecidableEq

/-- A decision, or nothing where `authorize` raises. -/
abbrev AuthorizationPort :=
  ConversationAuthorizationRequest → Option ConversationAuthorizationDecision

structure ConversationMutationRequest where
  context : RequestContext
  clientSurface : ClientSurface
  action : String
  workspaceId : Uuid
  resourceId : Uuid
  authorizationSnapshotId : Uuid
  authorizationSnapshotDigest : String
  payloadDigest : String

inductive ConversationMutationResult where
  | entity (e : Entity)
  | attachment (a : AttachmentRef)
deriving DecidableEq

structure ConversationMutationReceipt where
  priorStateRoot : String
  proposedStateRoot : String
  auditReceiptId : Uuid
  auditReceiptDigest : String
  finalizedResultDigest : String
  result : ConversationMutationResult
deriving DecidableEq

/-- What `execute` raises: the reason code of the exception if it has one, and its text. -/
structure LifecycleError where
  reasonCode : Option String
  text : String

/-- `execute`, in two parts: it raises before it calls the mutation, or calls it and makes a receipt
of what this has returned or raises. -/
structure MutationLifecycle where
  refuses : ConversationMutationRequest → Option LifecycleError
  conclude : ConversationMutationRequest → Except Raised ConversationMutationResult →
    Except LifecycleError ConversationMutationReceipt
  /-- The result in a receipt is that of the mutation. -/
  returns : ∀ request outcome receipt, conclude request outcome = .ok receipt →
    outcome = .ok receipt.result

/-! ## Responses -/

structure ConversationResponse where
  requestId : Uuid
  ok : Bool
  reasonCode : String
  thread : Option Thread := none
  threads : List Thread := []
  attachment : Option AttachmentRef := none
  message : Option Message := none
  messages : List Message := []
  run : Option AgentRunRecord := none
  event : Option RunEventRecord := none
  eventPage : Option RunEventPage := none
  artifact : Option RunArtifact := none
  artifacts : List RunArtifact := []
  mutationReceipt : Option ConversationMutationReceipt := none
deriving DecidableEq

/-- `_failure`. -/
def failure (context : RequestContext) (reasonCode : String) : ConversationResponse where
  requestId := context.id
  ok := false
  reasonCode := reasonCode

/-- A response without contents, to which these are added. -/
def success (context : RequestContext) (reasonCode : String) : ConversationResponse where
  requestId := context.id
  ok := true
  reasonCode := reasonCode

/-- The response with what a mutation has returned. -/
def ConversationResponse.returning (r : ConversationResponse) :
    ConversationMutationResult → ConversationResponse
  | .entity (.thread t) => { r with thread := some t }
  | .entity (.message m) => { r with message := some m }
  | .entity (.run run) => { r with run := some run }
  | .entity (.event record) => { r with event := some record }
  | .entity (.artifact a) => { r with artifact := some a }
  | .attachment a => { r with attachment := some a }

/-! ## Digests of payloads -/

/-- What the service lets escape: the `SecurityError` of `canonical_json_bytes`. -/
inductive Uncaught where
  | naiveDatetime
deriving DecidableEq, Repr

def Datetime.canonical : Datetime → Except Uncaught Json
  | naive _ => .error .naiveDatetime
  | aware time => .ok (canonicalTime time)

def ThreadStatus.value : ThreadStatus → String
  | active => "active"
  | archived => "archived"

section Digests

variable (D : Digests)

def Thread.digest (t : Thread) : Except Uncaught String := do
  let createdAt ← t.createdAt.canonical
  let updatedAt ← t.updatedAt.canonical
  return D.sha256 (Json.dumps (.obj [
    ("id", .str t.id.text),
    ("workspace_id", .str t.workspaceId.text),
    ("workspace_version", .int t.workspaceVersion),
    ("project_id", optionalId t.projectId),
    ("creator_principal_id", .str t.creatorPrincipalId.text),
    ("creator_membership_version", .int t.creatorMembershipVersion),
    ("title", .str t.title),
    ("status", .str t.status.value),
    ("created_at", createdAt),
    ("updated_at", updatedAt),
    ("version", .int t.version)]))

/-- Of the payload of `archive_thread`. -/
def archiveDigest (threadId : Uuid) (expectedVersion membershipVersion : Nat)
    (updatedAt : Datetime) : Except Uncaught String := do
  let updatedAt ← updatedAt.canonical
  return D.sha256 (Json.dumps (.obj [
    ("thread_id", .str threadId.text),
    ("expected_version", .int expectedVersion),
    ("membership_version", .int membershipVersion),
    ("updated_at", updatedAt)]))

def AttachmentRef.digest (a : AttachmentRef) : String :=
  D.sha256 (Json.dumps (.obj [
    ("id", .str a.id.text),
    ("workspace_id", .str a.workspaceId.text),
    ("owner_principal_id", .str a.ownerPrincipalId.text),
    ("owner_membership_version", .int a.ownerMembershipVersion),
    ("display_name", .str a.displayName),
    ("media_type", .str a.mediaType),
    ("byte_size", .int a.byteSize),
    ("content_digest", .str a.contentDigest),
    ("metadata", .obj a.metadata),
    ("created_at", canonicalTime a.createdAt)]))

def Message.digest (m : Message) : String :=
  D.sha256 (Json.dumps (.obj [
    ("id", .str m.id.text),
    ("workspace_id", .str m.workspaceId.text),
    ("thread_id", .str m.threadId.text),
    ("sequence", .int m.sequence),
    ("content", .str m.content),
    ("content_digest", .str m.contentDigest),
    ("idempotency_key", .str m.idempotencyKey),
    ("producing_run_id", optionalId m.producingRunId),
    ("attachment_ids", .arr (m.attachmentIds.map fun u => .str u.text)),
    ("author_kind", .str m.authorKind.value),
    ("author_principal_id", optionalId m.authorPrincipalId),
    ("author_membership_version", optionalNat m.authorMembershipVersion),
    ("author_agent_id", optionalId m.authorAgentId),
    ("author_agent_version", optionalNat m.authorAgentVersion),
    ("created_at", canonicalTime m.createdAt)]))

def RunEventRecord.digest (r : RunEventRecord) : String :=
  D.sha256 (Json.dumps (.obj [
    ("workspace_id", .str r.workspaceId.text),
    ("thread_id", .str r.threadId.text),
    ("run_id", .str r.runId.text),
    ("event", .obj [
      ("run_id", .str r.event.runId.text),
      ("handle_id", .str r.event.handleId.text),
      ("sequence", .int r.event.sequence),
      ("timestamp", canonicalTime r.timestamp),
      ("event_type", .str r.event.eventType.value),
      ("redacted_payload", .obj r.event.redactedPayload),
      ("provider_event_id", Agent.optional id r.event.providerEventId),
      ("tool_call_id", Agent.optional id r.event.toolCallId),
      ("effect_authorization_decision_id", optionalId r.event.effectAuthorizationDecisionId),
      ("effect_authorization_decision_digest",
        Agent.optional id r.event.effectAuthorizationDecisionDigest),
      ("previous_event_digest", .str r.event.previousEventDigest),
      ("event_digest", .str r.event.eventDigest)])]))

def RunArtifact.digest (a : RunArtifact) : String :=
  D.sha256 (Json.dumps (.obj [
    ("id", .str a.id.text),
    ("workspace_id", .str a.workspaceId.text),
    ("run_id", .str a.runId.text),
    ("producing_event_sequence", .int a.producingEventSequence),
    ("display_name", .str a.displayName),
    ("media_type", .str a.mediaType),
    ("byte_size", .int a.byteSize),
    ("content_digest", .str a.contentDigest),
    ("parent_artifact_ids", .arr (a.parentArtifactIds.map fun u => .str u.text)),
    ("lineage_digest", .str a.lineageDigest),
    ("created_at", canonicalTime a.createdAt)]))

end Digests

/-! ## The service -/

/-- The tables of the repository. -/
structure Tables where
  store : Store
  attachments : Table AttachmentRow

def Tables.empty : Tables := ⟨.empty, ∅⟩

structure ConversationService where
  authorization : AuthorizationPort
  mutationLifecycle : Option MutationLifecycle

/-- Whether the scope of a context is a thread. -/
def threadScoped (context : RequestContext) : Bool :=
  context.scopeKind = .thread || context.scopeKind = .conversation

/-- `_thread_scope_matches`. -/
def threadScopeMatches (context : RequestContext) (threadId : Uuid) : Bool :=
  threadScoped context && context.scopeId = threadId

/-- `_workspace_scope_matches`. -/
def workspaceScopeMatches (context : RequestContext) : Bool :=
  context.scopeKind = .workspace && context.scopeId = context.workspaceId

/-- Whether a message is by who it says. -/
def authorMatches (context : RequestContext) (m : Message) (membershipVersion : Nat) : Bool :=
  match m.authorKind with
  | .principal => m.authorPrincipalId = some context.requesterId &&
      m.authorMembershipVersion = some membershipVersion
  | .agent => m.authorAgentId = some context.agentId
  | .system => true

section Requests

variable {S : ServiceModels} (service : ConversationService) (d : Directory) (s : Tables)
  (context : RequestContext) (surface : ClientSurface)

/-- `_authorize`: the decision, or the response of a request that is not let through. -/
def ConversationService.authorize (action : String) (resourceId : Uuid) (nonEnumerating : Bool) :
    Except ConversationResponse ConversationAuthorizationDecision :=
  let refused (reason : String) := failure context
    (if nonEnumerating then "conversation_not_found" else reason)
  match service.authorization ⟨context, surface, action, context.workspaceId, resourceId⟩ with
  | none => .error (refused "authorization_unavailable")
  | some decision =>
      if decision.authorizationSnapshotId ≠ context.authorizationSnapshotId ∨
          decision.authorizationSnapshotDigest ≠ context.authorizationSnapshotDigest then
        .error (refused "conversation_authorization_snapshot_mismatch")
      else if decision.allowed = false then .error (refused decision.reasonCode)
      else .ok decision

/-- The reason of a failure for what `execute` has raised. -/
def LifecycleError.reason (e : LifecycleError) : String :=
  let reason := e.reasonCode.getD
    (if "conversation_".toList <+: e.text.toList then e.text else "")
  if reason = "" then "conversation_persistence_failed" else reason

/-- `_mutate`, of a mutation in the tables as they are. -/
def ConversationService.mutate (action : String) (resourceId : Uuid)
    (payloadDigest : Except Uncaught String)
    (mutation : Except Raised (Tables × ConversationMutationResult)) (reasonCode : String) :
    Tables × Except Uncaught ConversationResponse :=
  match service.mutationLifecycle with
  | none => (s, .ok (failure context "conversation_authority_lifecycle_unavailable"))
  | some lifecycle =>
    match service.authorize context surface action resourceId false, payloadDigest with
    | .error response, _ => (s, .ok response)
    | .ok _, .error e => (s, .error e)
    | .ok decision, .ok payloadDigest =>
      let request : ConversationMutationRequest :=
        { context := context
          clientSurface := surface
          action := action
          workspaceId := context.workspaceId
          resourceId := resourceId
          authorizationSnapshotId := decision.authorizationSnapshotId
          authorizationSnapshotDigest := decision.authorizationSnapshotDigest
          payloadDigest := payloadDigest }
      match lifecycle.refuses request with
      | some e => (s, .ok (failure context e.reason))
      | none =>
        let tables := match mutation with
          | .ok (tables, _) => tables
          | .error _ => s
        match lifecycle.conclude request (Prod.snd <$> mutation) with
        | .error e => (tables, .ok (failure context e.reason))
        | .ok receipt =>
          if receipt.priorStateRoot ≠ context.authorityStateRoot ∨
              receipt.finalizedResultDigest ≠ payloadDigest then
            (tables, .ok (failure context "conversation_authority_receipt_mismatch"))
          else
            let response := success context reasonCode
            (tables, .ok ({ response with
              mutationReceipt := some receipt }.returning receipt.result))

/-- A call of the repository as a mutation. -/
def Tables.call (call : Call S.toModels) :
    Except Raised (Tables × ConversationMutationResult) :=
  (fun r => ({ s with store := r.1 }, .entity r.2)) <$>
    call.result (d.attaching s.attachments) s.store

/-! ### Writes -/

def ConversationService.createThread (thread : Thread) (valid : thread.validate = .ok thread) :
    Tables × Except Uncaught ConversationResponse :=
  if thread.workspaceId ≠ context.workspaceId ∨ threadScopeMatches context thread.id = false then
    (s, .ok (failure context "conversation_request_scope_mismatch"))
  else service.mutate s context surface "conversation.create_thread" thread.id
    (thread.digest S.toDigests) (s.call d (S := S) (.createThread thread valid)) "thread_created"

def ConversationService.archiveThread (threadId : Uuid) (expectedVersion membershipVersion : Nat)
    (updatedAt : Datetime) : Tables × Except Uncaught ConversationResponse :=
  service.mutate s context surface "conversation.archive_thread" threadId
    (archiveDigest S.toDigests threadId expectedVersion membershipVersion updatedAt)
    (s.call d (S := S) (.archiveThread context.workspaceId threadId expectedVersion
      context.requesterId membershipVersion updatedAt)) "thread_archived"

def ConversationService.registerAttachment (S : ServiceModels) (attachment : AttachmentRef) :
    Tables × Except Uncaught ConversationResponse :=
  if attachment.workspaceId ≠ context.workspaceId ∨
      attachment.ownerPrincipalId ≠ context.requesterId ∨ workspaceScopeMatches context = false then
    (s, .ok (failure context "conversation_authority_binding_mismatch"))
  else service.mutate s context surface "conversation.register_attachment" attachment.id
    (.ok (attachment.digest S.toDigests))
    ((fun r => ({ s with attachments := r.1 }, .attachment r.2)) <$>
      Conversations.registerAttachment S d s.attachments attachment) "attachment_registered"

def ConversationService.appendMessage (message : Message)
    (valid : message.validate S.toDigests = .ok message) (membershipVersion : Nat) :
    Tables × Except Uncaught ConversationResponse :=
  if message.workspaceId ≠ context.workspaceId ∨
      threadScopeMatches context message.threadId = false ∨
      authorMatches context message membershipVersion = false then
    (s, .ok (failure context "conversation_authority_binding_mismatch"))
  else service.mutate s context surface "conversation.append_message" message.threadId
    (.ok (message.digest S.toDigests))
    (s.call d (S := S) (.appendMessage message valid context.requesterId membershipVersion))
    "message_appended"

def ConversationService.createRun (run : AgentRunRecord) (valid : run.validate = .ok run) :
    Tables × Except Uncaught ConversationResponse :=
  if run.workspaceId ≠ context.workspaceId ∨ threadScopeMatches context run.threadId = false ∨
      run.requesterPrincipalId ≠ context.requesterId ∨
      run.authorizationSnapshotId ≠ context.authorizationSnapshotId ∨
      run.authorizationSnapshotDigest ≠ context.authorizationSnapshotDigest then
    (s, .ok (failure context "conversation_authority_binding_mismatch"))
  else service.mutate s context surface "conversation.create_run" run.id
    (.ok (run.requestDigest S.toDigests)) (s.call d (S := S) (.createRun run valid)) "run_created"

def ConversationService.appendEvent (record : RunEventRecord) (valid : record.Valid S.toModels)
    (membershipVersion : Nat) : Tables × Except Uncaught ConversationResponse :=
  if record.workspaceId ≠ context.workspaceId ∨
      threadScopeMatches context record.threadId = false then
    (s, .ok (failure context "conversation_authority_binding_mismatch"))
  else service.mutate s context surface "conversation.append_event" record.runId
    (.ok (record.digest S.toDigests))
    (s.call d (S := S) (.appendEvent record valid context.requesterId membershipVersion))
    "event_appended"

def ConversationService.recordArtifact (artifact : RunArtifact)
    (valid : artifact.validate S.toDigests = .ok artifact) (membershipVersion : Nat) :
    Tables × Except Uncaught ConversationResponse :=
  if artifact.workspaceId ≠ context.workspaceId ∨ workspaceScopeMatches context = false then
    (s, .ok (failure context "conversation_authority_binding_mismatch"))
  else service.mutate s context surface "conversation.record_artifact" artifact.id
    (.ok (artifact.digest S.toDigests))
    (s.call d (S := S) (.recordArtifact artifact valid context.requesterId membershipVersion))
    "artifact_recorded"

/-! ### Reads -/

/-- The answer to a request that is let through. -/
def ConversationService.read (action : String) (resourceId : Uuid)
    (answer : ConversationResponse) : ConversationResponse :=
  match service.authorize context surface action resourceId true with
  | .error response => response
  | .ok _ => answer

/-- What a method of the repository gives, or that nothing was found. -/
def answered {α : Type} (result : Except Raised α) (contents : α → ConversationResponse) :
    ConversationResponse :=
  match result with
  | .ok a => contents a
  | .error _ => failure context "conversation_not_found"

def ConversationService.getThread (S : ServiceModels) (threadId : Uuid) : ConversationResponse :=
  if threadScoped context = true ∧ context.scopeId ≠ threadId then
    failure context "conversation_not_found"
  else service.read context surface "conversation.read_thread" threadId
    (answered context
      (Conversations.getThread S.toModels d s.store context.workspaceId threadId
        context.requesterId)
      fun thread => match thread with
        | none => failure context "conversation_not_found"
        | some thread => { success context "thread_found" with thread := some thread })

def ConversationService.listThreads (S : ServiceModels) : ConversationResponse :=
  service.read context surface "conversation.list_threads" context.workspaceId
    (answered context
      (Conversations.listThreads S.toModels d s.store context.workspaceId context.requesterId)
      fun threads => { success context "threads_listed" with threads })

def ConversationService.listMessages (S : ServiceModels) (threadId : Uuid) :
    ConversationResponse :=
  service.read context surface "conversation.list_messages" threadId
    (answered context
      (Conversations.listMessages S.toModels d s.store context.workspaceId threadId
        context.requesterId)
      fun messages => { success context "messages_listed" with messages })

def ConversationService.getRun (S : ServiceModels) (runId : Uuid) : ConversationResponse :=
  service.read context surface "conversation.read_run" runId
    (answered context
      (Conversations.getRun S.toModels d s.store context.workspaceId runId context.requesterId)
      fun run => match run with
        | none => failure context "conversation_not_found"
        | some run => { success context "run_found" with run := some run })

/-- `page_events` of the repository, of any integers. -/
def pageEventsOf (M : Models) (s : Store) (workspaceId runId requesterPrincipalId : Uuid)
    (afterSequence limit : Int) : Except Raised RunEventPage :=
  if afterSequence < 0 ∨ limit < 0 then .error (.repository "conversation_cursor_invalid")
  else Conversations.pageEvents M d s workspaceId runId requesterPrincipalId afterSequence.toNat
    limit.toNat

/-- The reason code of what the repository raises, where it has one. -/
def Raised.reasonCode : Raised → Option String
  | .repository reasonCode => some reasonCode
  | _ => none

def ConversationService.pageEvents (S : ServiceModels) (runId : Uuid)
    (afterSequence limit : Int) : ConversationResponse :=
  service.read context surface "conversation.page_events" runId
    (match pageEventsOf d S.toModels s.store context.workspaceId runId context.requesterId
        afterSequence limit with
    | .error e => failure context (e.reasonCode.getD "conversation_not_found")
    | .ok page => { success context "events_paged" with eventPage := some page })

def ConversationService.listArtifacts (S : ServiceModels) (runId : Uuid) : ConversationResponse :=
  service.read context surface "conversation.list_artifacts" runId
    (answered context
      (Conversations.listArtifacts S.toModels d s.store context.workspaceId runId
        context.requesterId)
      fun artifacts => { success context "artifacts_listed" with artifacts })

end Requests

/-! ## Requests -/

inductive Operation (S : ServiceModels) where
  | createThread (thread : Thread) (valid : thread.validate = .ok thread)
  | getThread (threadId : Uuid)
  | listThreads
  | archiveThread (threadId : Uuid) (expectedVersion membershipVersion : Nat)
      (updatedAt : Datetime)
  | registerAttachment (attachment : AttachmentRef)
  | appendMessage (message : Message) (valid : message.validate S.toDigests = .ok message)
      (membershipVersion : Nat)
  | listMessages (threadId : Uuid)
  | createRun (run : AgentRunRecord) (valid : run.validate = .ok run)
  | getRun (runId : Uuid)
  | appendEvent (record : RunEventRecord) (valid : record.Valid S.toModels)
      (membershipVersion : Nat)
  | pageEvents (runId : Uuid) (afterSequence limit : Int)
  | recordArtifact (artifact : RunArtifact)
      (valid : artifact.validate S.toDigests = .ok artifact) (membershipVersion : Nat)
  | listArtifacts (runId : Uuid)

/-- A request with what the ports and the tables of other repositories have for it. -/
structure ServiceRequest (S : ServiceModels) where
  service : ConversationService
  directory : Directory
  context : RequestContext
  surface : ClientSurface
  operation : Operation S

/-- What a request leaves, and the response to it. -/
def Tables.serve {S : ServiceModels} (s : Tables) (r : ServiceRequest S) :
    Tables × Except Uncaught ConversationResponse :=
  let { service, directory := d, context, surface, operation } := r
  match operation with
  | .createThread thread valid => service.createThread (S := S) d s context surface thread valid
  | .getThread threadId => (s, .ok (service.getThread d s context surface S threadId))
  | .listThreads => (s, .ok (service.listThreads d s context surface S))
  | .archiveThread threadId expectedVersion membershipVersion updatedAt =>
      service.archiveThread (S := S) d s context surface threadId expectedVersion
        membershipVersion updatedAt
  | .registerAttachment attachment =>
      service.registerAttachment d s context surface S attachment
  | .appendMessage message valid membershipVersion =>
      service.appendMessage d s context surface message valid membershipVersion
  | .listMessages threadId => (s, .ok (service.listMessages d s context surface S threadId))
  | .createRun run valid => service.createRun (S := S) d s context surface run valid
  | .getRun runId => (s, .ok (service.getRun d s context surface S runId))
  | .appendEvent record valid membershipVersion =>
      service.appendEvent d s context surface record valid membershipVersion
  | .pageEvents runId afterSequence limit =>
      (s, .ok (service.pageEvents d s context surface S runId afterSequence limit))
  | .recordArtifact artifact valid membershipVersion =>
      service.recordArtifact d s context surface artifact valid membershipVersion
  | .listArtifacts runId => (s, .ok (service.listArtifacts d s context surface S runId))

def Tables.step {S : ServiceModels} (s : Tables) (r : ServiceRequest S) : Tables := (s.serve r).1

end Corvus.Conversations
