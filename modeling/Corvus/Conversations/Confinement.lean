import Corvus.Conversations.Application
import Corvus.Conversations.Reading

/-!
# What stays in the scope of a thread

A request whose context is scoped to a thread is to change and to be given what belongs to this
thread only. The writes that are handed a record compare its thread with the scope, and so does
`get_thread`. The others go to the repository with the identifiers that they are given; they stay in
the scope as long as what these address belongs to it.
-/

namespace Corvus.Conversations

open Run
open Agent (RequestContext)

variable {S : ServiceModels} {M : Models} {d : Directory} {s s' : Store} {tables : Tables}
  {e : Entity} {workspaceId threadId runId principal T : Uuid} {context : RequestContext}
  {request : ServiceRequest S} {response : ConversationResponse}

/-! ## What belongs to a thread -/

/-- A run that is stored is one of a thread. -/
def Store.RunIn (s : Store) (workspaceId threadId runId : Uuid) : Prop :=
  ∃ run, s.runs.get? (workspaceId, runId) = some run ∧ run.threadId = threadId

def Entity.Within (s : Store) (workspaceId threadId : Uuid) : Entity → Prop
  | .thread t => t.workspaceId = workspaceId ∧ t.id = threadId
  | .message m => m.workspaceId = workspaceId ∧ m.threadId = threadId
  | .run r => r.workspaceId = workspaceId ∧ r.threadId = threadId
  | .event r => r.workspaceId = workspaceId ∧ r.threadId = threadId
  | .artifact a => a.workspaceId = workspaceId ∧ s.RunIn workspaceId threadId a.runId

def ConversationMutationReceipt.entity (receipt : ConversationMutationReceipt) : Option Entity :=
  match receipt.result with
  | .entity e => some e
  | .attachment _ => none

/-- All that a response tells of. -/
def ConversationResponse.entities (r : ConversationResponse) : List Entity :=
  r.thread.toList.map .thread ++ r.threads.map .thread ++ r.message.toList.map .message ++
    r.messages.map .message ++ r.run.toList.map .run ++ r.event.toList.map .event ++
    (r.eventPage.toList.flatMap (·.events)).map .event ++ r.artifact.toList.map .artifact ++
    r.artifacts.map .artifact ++ r.mutationReceipt.toList.filterMap (·.entity)

/-- All that a response tells of belongs to a thread, and so does the run of its page. -/
structure ConversationResponse.Within (s : Store) (workspaceId threadId : Uuid)
    (r : ConversationResponse) : Prop where
  entities : ∀ e ∈ r.entities, e.Within s workspaceId threadId
  page : ∀ p ∈ r.eventPage, p.workspaceId = workspaceId ∧ s.RunIn workspaceId threadId p.runId

/-- The rows that do not meet a condition are the same. -/
def SameBut {α : Type} (own : α → Bool) (before after : List α) : Prop :=
  after.filter (fun a => !own a) = before.filter fun a => !own a

/-- Only rows of a thread are changed. Artifacts are recorded in the scope of a workspace. -/
structure ChangedWithin (workspaceId threadId : Uuid) (s s' : Store) : Prop where
  threads : SameBut (fun r => r.workspaceId = workspaceId && r.id = threadId)
    s.threads.rows s'.threads.rows
  versions : SameBut (fun r => r.workspaceId = workspaceId && r.threadId = threadId)
    s.threadVersions.rows s'.threadVersions.rows
  messages : SameBut (fun r => r.workspaceId = workspaceId && r.threadId = threadId)
    s.messages.rows s'.messages.rows
  attached : SameBut (fun entry => entry.owner.1 = workspaceId && entry.owner.2.1 = threadId)
    s.messageAttachments s'.messageAttachments
  runs : SameBut (fun r => r.workspaceId = workspaceId && r.threadId = threadId)
    s.runs.rows s'.runs.rows
  events : SameBut (fun r => r.workspaceId = workspaceId && r.threadId = threadId)
    s.events.rows s'.events.rows
  artifacts : s'.artifacts = s.artifacts
  lineage : s'.lineage = s.lineage

/-- What a request leaves and what is told to it belong to a thread, as far as they are new. -/
structure Kept (workspaceId threadId : Uuid) (tables : Tables)
    (outcome : Tables × Except Uncaught ConversationResponse) : Prop where
  changed : ChangedWithin workspaceId threadId tables.store outcome.1.store
  told : ∀ response, outcome.2 = .ok response →
    response.Within outcome.1.store workspaceId threadId

/-- A request in the scope of a thread changes and tells of what belongs to it. -/
def Confined (tables : Tables) (request : ServiceRequest S) : Prop :=
  threadScoped request.context = true →
    Kept request.context.workspaceId request.context.scopeId tables (tables.serve request)

/-! ## What a request addresses -/

/-- The authorization lets a read through. -/
def ConversationService.Lets (service : ConversationService) (context : RequestContext)
    (surface : Authorization.ClientSurface) (action : String) (resourceId : Uuid) : Prop :=
  ∃ decision, service.authorize context surface action resourceId true = .ok decision

/-- The lifecycle carries out a mutation that the authorization lets through. -/
def ConversationService.Carries (service : ConversationService) (context : RequestContext)
    (surface : Authorization.ClientSurface) (action : String) (resourceId : Uuid)
    (payloadDigest : Except Uncaught String) : Prop :=
  ∃ lifecycle decision digest, service.mutationLifecycle = some lifecycle ∧
    service.authorize context surface action resourceId false = .ok decision ∧
    payloadDigest = .ok digest ∧
    lifecycle.refuses ⟨context, surface, action, context.workspaceId, resourceId,
      decision.authorizationSnapshotId, decision.authorizationSnapshotDigest, digest⟩ = none

/-- A request that is not compared with the scope is let through, and the repository answers it. -/
def Answered (tables : Tables) (request : ServiceRequest S) : Prop :=
  let { service, directory := d, context, surface, operation } := request
  match operation with
  | .listThreads =>
      service.Lets context surface "conversation.list_threads" context.workspaceId ∧
        ∃ threads, listThreads S.toModels d tables.store context.workspaceId context.requesterId =
          .ok threads
  | .archiveThread threadId expectedVersion membershipVersion updatedAt =>
      service.Carries context surface "conversation.archive_thread" threadId
          (archiveDigest S.toDigests threadId expectedVersion membershipVersion updatedAt) ∧
        ∃ result, archiveThread S.toModels (d.attaching tables.attachments) tables.store
          context.workspaceId threadId expectedVersion context.requesterId membershipVersion
          updatedAt = .ok result
  | .listMessages threadId =>
      service.Lets context surface "conversation.list_messages" threadId ∧
        ∃ messages, listMessages S.toModels d tables.store context.workspaceId threadId
          context.requesterId = .ok messages
  | .getRun runId =>
      service.Lets context surface "conversation.read_run" runId ∧
        ∃ run, getRun S.toModels d tables.store context.workspaceId runId context.requesterId =
          .ok run
  | .pageEvents runId afterSequence limit =>
      service.Lets context surface "conversation.page_events" runId ∧
        ∃ page, pageEventsOf d S.toModels tables.store context.workspaceId runId
          context.requesterId afterSequence limit = .ok page
  | .listArtifacts runId =>
      service.Lets context surface "conversation.list_artifacts" runId ∧
        ∃ artifacts, listArtifacts S.toModels d tables.store context.workspaceId runId
          context.requesterId = .ok artifacts
  | _ => False

/-- The threads to which belongs what such a request addresses for its requester. -/
def Addresses (d : Directory) (s : Store) (workspaceId requester : Uuid) :
    Operation S → Uuid → Prop
  | .listThreads, T => d.Member workspaceId requester ∧ s.threadRow workspaceId T ≠ none
  | .archiveThread threadId _ _ _, T => threadId = T
  | .listMessages threadId, T =>
      d.Member workspaceId requester ∧ s.messageRows workspaceId threadId ≠ [] ∧ threadId = T
  | .getRun runId, T => d.Member workspaceId requester ∧ s.RunIn workspaceId T runId
  | .pageEvents runId _ _, T => s.RunIn workspaceId T runId
  | .listArtifacts runId, T =>
      (d.Member workspaceId requester ∧
        ∃ row ∈ s.artifacts, row.workspaceId = workspaceId ∧ row.runId = runId) ∧
        s.RunIn workspaceId T runId
  | _, _ => False

/-- What a request in the scope of a thread addresses belongs to it, if the request is answered. -/
def AddressesScope (tables : Tables) (request : ServiceRequest S) : Prop :=
  threadScoped request.context = true → Answered tables request →
    ∀ T, Addresses request.directory tables.store request.context.workspaceId
      request.context.requesterId request.operation T → T = request.context.scopeId

/-! ## Rows that are linked -/

/-- Events and artifacts are those of runs. -/
structure Linked (s : Store) : Prop where
  events : ∀ row ∈ s.events.rows, s.RunIn row.workspaceId row.threadId row.runId
  artifacts : ∀ row ∈ s.artifacts.rows, ∃ T, s.RunIn row.workspaceId T row.runId

theorem linked_empty : Linked .empty where
  events := fun _ mem => absurd mem List.not_mem_nil
  artifacts := fun _ mem => absurd mem List.not_mem_nil

theorem Store.RunIn.unique {T' : Uuid} (first : s.RunIn workspaceId T runId)
    (second : s.RunIn workspaceId T' runId) : T = T' := by
  obtain ⟨run, there, rfl⟩ := first
  obtain ⟨run', there', rfl⟩ := second
  rw [Option.some.inj (there.symm.trans there')]

theorem Store.RunIn.persists {call : Call M} (there : s.RunIn workspaceId T runId)
    (change : Change d s call s' e) : s'.RunIn workspaceId T runId := by
  obtain ⟨run, found, thread⟩ := there
  exact ⟨run, run_persists found change, thread⟩

/-- An event is appended to a run of its thread. -/
theorem appendEvent_run {record stored : RunEventRecord} {version : Nat}
    (result : appendEvent M d s record principal version = .ok (s', stored)) :
    s.RunIn record.workspaceId record.threadId record.runId := by
  simp only [appendEvent, bind_eq_ok, present_eq_ok, require_eq_ok] at result
  obtain ⟨_, -, run, there, _, same, -⟩ := result
  exact ⟨run, there, same⟩

/-- An artifact is recorded for a run. -/
theorem recordArtifact_run {artifact stored : RunArtifact} {version : Nat}
    (result : recordArtifact M d s artifact principal version = .ok (s', stored)) :
    ∃ T, s.RunIn artifact.workspaceId T artifact.runId := by
  simp only [recordArtifact, bind_eq_ok, present_eq_ok] at result
  obtain ⟨_, -, run, there, -⟩ := result
  exact ⟨run.threadId, run, there, rfl⟩

theorem Linked.call (linked : Linked s) {call : Call M} (result : call.result d s = .ok (s', e)) :
    Linked s' := by
  have change := Call.change result
  have events : ∀ row ∈ s.events.rows, s'.RunIn row.workspaceId row.threadId row.runId :=
    fun row mem => (linked.events row mem).persists change
  have artifacts : ∀ row ∈ s.artifacts.rows, ∃ T, s'.RunIn row.workspaceId T row.runId := by
    intro row mem
    obtain ⟨T, there⟩ := linked.artifacts row mem
    exact ⟨T, there.persists change⟩
  cases change with
  | @event record _ _ _ run stored _ _ table run_there same_thread _ copy _ _ _ _ row =>
    refine ⟨fun r mem => ?_, artifacts⟩
    have mem : r ∈ table.rows := mem
    rw [row] at mem
    obtain old | new := List.mem_append.mp mem
    · exact events r old
    · rw [List.mem_singleton.mp new, copy]
      exact ⟨run, run_there, same_thread⟩
  | @artifact artifact valid requester version table _ row =>
    refine ⟨events, fun r mem => ?_⟩
    have mem : r ∈ table.rows := mem
    rw [row] at mem
    obtain old | new := List.mem_append.mp mem
    · exact artifacts r old
    · rw [List.mem_singleton.mp new]
      obtain ⟨⟨_, _⟩, recorded, -⟩ := map_ok result
      obtain ⟨T, run, there, thread⟩ := recordArtifact_run recorded
      exact ⟨T, run, there, thread⟩
  | _ => exact ⟨events, artifacts⟩

/-! ## Writes -/

section

variable {α : Type} {own : α → Bool} {before after new : List α}

theorem sameBut_append (rows : after = before ++ new) (owned : ∀ a ∈ new, own a = true) :
    SameBut own before after := by
  have none_ : new.filter (fun a => !own a) = [] :=
    List.filter_eq_nil_iff.mpr fun a mem => by simp [owned a mem]
  rw [SameBut, rows, List.filter_append, none_, List.append_nil]

/-- What has been added and is not a row of the thread is found out. -/
theorem SameBut.owned {a : α} (same : SameBut own before (before ++ [a])) : own a = true := by
  by_contra other
  rw [SameBut, List.filter_append, List.filter_singleton, Bool.eq_false_iff.mpr other] at same
  exact absurd (List.append_right_eq_self.mp same) (List.cons_ne_nil _ _)

end

theorem ChangedWithin.refl : ChangedWithin workspaceId threadId s s :=
  ⟨rfl, rfl, rfl, rfl, rfl, rfl, rfl, rfl⟩

/-- The thread of a call, unless it records an artifact. -/
def Call.thread : Call M → Option (Uuid × Uuid)
  | createThread thread _ => some (thread.workspaceId, thread.id)
  | archiveThread workspaceId threadId .. => some (workspaceId, threadId)
  | appendMessage message .. => some (message.workspaceId, message.threadId)
  | createRun run _ => some (run.workspaceId, run.threadId)
  | appendEvent record .. => some (record.workspaceId, record.threadId)
  | recordArtifact .. => none

theorem ChangedWithin.of_change {call : Call M} (change : Change d s call s' e)
    (own : call.thread = some (workspaceId, threadId)) :
    ChangedWithin workspaceId threadId s s' := by
  cases change with
  | thread _ row version =>
    obtain ⟨rfl, rfl⟩ := Prod.mk.inj (Option.some.inj own)
    refine { ChangedWithin.refl with
      threads := sameBut_append row ?_, versions := sameBut_append version ?_ }
    · simp [Thread.row]
    · simp [Thread.versionRow]
  | archive _ _ _ version =>
    obtain ⟨rfl, rfl⟩ := Prod.mk.inj (Option.some.inj own)
    refine { ChangedWithin.refl with versions := sameBut_append version ?_ }
    simp
  | message _ _ copy _ row =>
    obtain ⟨rfl, rfl⟩ := Prod.mk.inj (Option.some.inj own)
    refine { ChangedWithin.refl with
      messages := sameBut_append row ?_, attached := sameBut_append rfl ?_ }
    · simp [Message.row, copy]
    · intro entry mem
      rw [owner_of_entries mem, copy]
      simp
  | run _ _ row =>
    obtain ⟨rfl, rfl⟩ := Prod.mk.inj (Option.some.inj own)
    refine { ChangedWithin.refl with runs := sameBut_append row ?_ }
    simp [AgentRunRecord.row]
  | event _ _ _ copy _ _ _ _ row =>
    obtain ⟨rfl, rfl⟩ := Prod.mk.inj (Option.some.inj own)
    refine { ChangedWithin.refl with events := sameBut_append row ?_ }
    simp [RunEventRecord.row, copy]
  | artifact => cases own
  | _ => exact .refl

theorem runFromRow_thread {row : RunRow} {r : AgentRunRecord} (read : runFromRow M row = .ok r) :
    r.workspaceId = row.workspaceId ∧ r.threadId = row.threadId := by
  simp only [runFromRow, AgentRunRecord.validate, bind_eq_ok] at read
  obtain ⟨time, -, _, -, _, -, _, -, _, -, _, -, _, -, _, -, _, -, _, -, same⟩ := read
  rw [← Except.ok.inj same]
  exact ⟨rfl, rfl⟩

theorem threadFromRow_id {row : ThreadRow × ThreadVersionRow} {t : Thread}
    (found : s.threadRow workspaceId threadId = some row) (read : threadFromRow M row = .ok t) :
    t.workspaceId = workspaceId ∧ t.id = threadId := by
  obtain ⟨workspace, id⟩ := Prod.mk.inj (Table.get?_eq_some.mp (threadRow_eq_some.mp found).1).2
  rw [(threadFromRow_ok.mp read).2.2.2]
  exact ⟨workspace, id⟩

theorem messageFromRow_thread {row : MessageRow} {m : Message}
    (read : messageFromRow M s row = .ok m) :
    m.workspaceId = row.workspaceId ∧ m.threadId = row.threadId := by
  have same := (messageFromRow_ok read).2
  exact ⟨(congrArg Prod.fst same).symm, (congrArg (·.2.1) same).symm⟩

theorem eventFromRow_thread {row : EventRow} {r : RunEventRecord}
    (read : eventFromRow M row = .ok r) :
    r.workspaceId = row.workspaceId ∧ r.threadId = row.threadId ∧ r.runId = row.runId := by
  rw [eventFromRow] at read
  split at read
  · next record validated =>
    obtain rfl := Except.ok.inj read
    simp only [validatedEventFromRow, bind_eq_ok] at validated
    obtain ⟨time, -, payload, -, event, -, built⟩ := validated
    rw [RunEventRecord.validate_eq built]
    exact ⟨rfl, rfl, rfl⟩
  · cases read

/-- What a call returns belongs to its thread. -/
theorem Linked.within (linked : Linked s) {call : Call M}
    (result : call.result d s = .ok (s', e)) (own : call.thread = some (workspaceId, threadId)) :
    e.Within s' workspaceId threadId := by
  have change := Call.change result
  cases change with
  | threadAgain found read =>
    obtain ⟨rfl, rfl⟩ := Prod.mk.inj (Option.some.inj own)
    exact threadFromRow_id found read
  | thread => exact Prod.mk.inj (Option.some.inj own)
  | @archive _ _ _ _ _ _ row current archived _ found read copy =>
    obtain ⟨rfl, rfl⟩ := Prod.mk.inj (Option.some.inj own)
    have same := threadFromRow_id found read
    rw [copy]
    exact same
  | messageAgain found read =>
    obtain ⟨rfl, rfl⟩ := Prod.mk.inj (Option.some.inj own)
    obtain ⟨workspace, thread⟩ := messageFromRow_thread read
    have kind := List.find?_some found
    rw [decide_eq_true_eq] at kind
    exact ⟨workspace.trans kind.1, thread.trans kind.2.1⟩
  | message _ _ copy =>
    rw [copy]
    exact Prod.mk.inj (Option.some.inj own)
  | runAgain found read =>
    obtain ⟨rfl, rfl⟩ := Prod.mk.inj (Option.some.inj own)
    obtain ⟨workspace, thread⟩ := runFromRow_thread read
    have kind := List.find?_some found
    rw [decide_eq_true_eq] at kind
    exact ⟨workspace.trans kind.1, thread.trans kind.2.1⟩
  | run => exact Prod.mk.inj (Option.some.inj own)
  | @eventAgain record valid requester version row replay found read =>
    obtain ⟨rfl, rfl⟩ := Prod.mk.inj (Option.some.inj own)
    obtain ⟨⟨_, _⟩, appended, -⟩ := map_ok result
    obtain ⟨workspace, thread, -⟩ := eventFromRow_thread read
    obtain ⟨id, -, found⟩ := Option.bind_eq_some_iff.mp found
    have kind := List.find?_some found
    rw [decide_eq_true_eq] at kind
    have there := linked.events row (List.mem_of_find?_eq_some found)
    rw [kind.1, kind.2.1] at there
    exact ⟨workspace.trans kind.1, thread.trans (there.unique (appendEvent_run appended))⟩
  | event _ _ _ copy =>
    rw [copy]
    exact Prod.mk.inj (Option.some.inj own)
  | artifactAgain => cases own
  | artifact => cases own

/-! ## Reads -/

/-- The rows of a table that belong to a thread, as their reader gives them. -/
theorem getThread_id {found : Option Thread}
    (got : getThread M d s workspaceId threadId principal = .ok found) :
    ∀ t ∈ found, t.workspaceId = workspaceId ∧ t.id = threadId := by
  intro t mem
  rw [getThread] at got
  split at got
  · next row _ there =>
    obtain ⟨read, is_read, rfl⟩ := map_ok got
    obtain rfl := Option.some.inj mem
    exact threadFromRow_id there is_read
  · rw [← Except.ok.inj got] at mem
    cases mem

theorem listThreads_ids {threads : List Thread}
    (listed : listThreads M d s workspaceId principal = .ok threads) :
    (∀ t ∈ threads, t.workspaceId = workspaceId) ∧ ∀ T, (∃ t ∈ threads, t.id = T) ↔
      d.Member workspaceId principal ∧ s.threadRow workspaceId T ≠ none := by
  rw [listThreads] at listed
  split at listed
  · next none_ =>
    obtain rfl := Except.ok.inj listed
    refine ⟨fun t mem => absurd mem List.not_mem_nil, fun T => ⟨?_, fun there => ?_⟩⟩
    · rintro ⟨t, mem, -⟩
      exact absurd mem List.not_mem_nil
    · exact absurd none_ there.1
  · next version member =>
    have is_member : d.Member workspaceId principal := .of_some member
    have each := mapM_eq_ok.mp listed
    have row_of : ∀ t ∈ threads, t.workspaceId = workspaceId ∧
        s.threadRow workspaceId t.id ≠ none := by
      intro t mem
      obtain ⟨row, row_mem, read⟩ := exists_left each mem
      obtain ⟨id, -, found⟩ := List.mem_filterMap.mp row_mem
      obtain ⟨workspace, same⟩ := threadFromRow_id found read
      rw [same, found]
      exact ⟨workspace, Option.some_ne_none row⟩
    refine ⟨fun t mem => (row_of t mem).1, fun T => ⟨?_, ?_⟩⟩
    · rintro ⟨t, mem, rfl⟩
      exact ⟨is_member, (row_of t mem).2⟩
    · rintro ⟨-, there⟩
      obtain ⟨row, found⟩ := Option.ne_none_iff_exists'.mp there
      obtain ⟨mem, same⟩ := Table.get?_eq_some.mp (threadRow_eq_some.mp found).1
      obtain ⟨workspace, id⟩ := Prod.mk.inj same
      obtain ⟨t, inside, read⟩ := exists_right each (List.mem_filterMap.mpr ⟨T,
        List.mem_map.mpr ⟨row.1, mem_byCreation.mpr
          (List.mem_filter.mpr ⟨mem, decide_eq_true workspace⟩), id⟩, found⟩)
      exact ⟨t, inside, (threadFromRow_id found read).2⟩

theorem listMessages_threads {messages : List Message}
    (listed : listMessages M d s workspaceId threadId principal = .ok messages) :
    (∀ m ∈ messages, m.workspaceId = workspaceId) ∧ ∀ T, (∃ m ∈ messages, m.threadId = T) ↔
      d.Member workspaceId principal ∧ s.messageRows workspaceId threadId ≠ [] ∧
        threadId = T := by
  rw [listMessages] at listed
  split at listed
  · next none_ =>
    obtain rfl := Except.ok.inj listed
    refine ⟨fun m mem => absurd mem List.not_mem_nil, fun T => ⟨?_, fun there => ?_⟩⟩
    · rintro ⟨m, mem, -⟩
      exact absurd mem List.not_mem_nil
    · exact absurd none_ there.1
  · next version member =>
    have is_member : d.Member workspaceId principal := .of_some member
    have each := mapM_eq_ok.mp listed
    have row_of : ∀ m ∈ messages, m.workspaceId = workspaceId ∧ m.threadId = threadId ∧
        s.messageRows workspaceId threadId ≠ [] := by
      intro m mem
      obtain ⟨row, row_mem, read⟩ := exists_left each mem
      have there := (List.perm_insertionSort _ _).mem_iff.mp row_mem
      obtain ⟨-, workspace, thread⟩ := mem_messageRows.mp there
      obtain ⟨same_workspace, same_thread⟩ := messageFromRow_thread read
      exact ⟨same_workspace.trans workspace, same_thread.trans thread,
        List.ne_nil_of_mem there⟩
    refine ⟨fun m mem => (row_of m mem).1, fun T => ⟨?_, ?_⟩⟩
    · rintro ⟨m, mem, rfl⟩
      exact ⟨is_member, (row_of m mem).2.2, (row_of m mem).2.1.symm⟩
    · rintro ⟨-, some_, rfl⟩
      obtain ⟨row, there⟩ := List.exists_mem_of_ne_nil _ some_
      obtain ⟨m, inside, -⟩ := exists_right each
        ((List.perm_insertionSort _ _).mem_iff.mpr there)
      exact ⟨m, inside, (row_of m inside).2.1⟩

theorem getRun_threads {found : Option AgentRunRecord}
    (got : getRun M d s workspaceId runId principal = .ok found) :
    (∀ r ∈ found, r.workspaceId = workspaceId) ∧ ∀ T, (∃ r ∈ found, r.threadId = T) ↔
      d.Member workspaceId principal ∧ s.RunIn workspaceId T runId := by
  rw [getRun] at got
  split at got
  · next version row member there =>
    obtain ⟨run, read, rfl⟩ := map_ok got
    have is_member : d.Member workspaceId principal := .of_some member
    obtain ⟨workspace, thread⟩ := runFromRow_thread read
    have row_workspace : row.workspaceId = workspaceId :=
      (Prod.mk.inj (Table.get?_eq_some.mp there).2).1
    refine ⟨fun r mem => ?_, fun T => ⟨?_, ?_⟩⟩
    · rw [← Option.some.inj mem]
      exact workspace.trans row_workspace
    · rintro ⟨r, mem, rfl⟩
      rw [← Option.some.inj mem]
      exact ⟨is_member, row, there, thread.symm⟩
    · rintro ⟨-, row', there', rfl⟩
      rw [Option.some.inj (there'.symm.trans there)]
      exact ⟨run, rfl, thread⟩
  · next other =>
    obtain rfl := Except.ok.inj got
    refine ⟨fun r mem => absurd mem (Option.not_mem_none r), fun T => ⟨?_, ?_⟩⟩
    · rintro ⟨r, mem, -⟩
      exact absurd mem (Option.not_mem_none r)
    · rintro ⟨member, row, there, -⟩
      obtain ⟨version, is_member⟩ := Option.ne_none_iff_exists'.mp member
      exact absurd there (other version row is_member)

theorem RunEventPage.validate_eq {p page : RunEventPage} (built : p.validate = .ok page) :
    page = p := by
  simp only [RunEventPage.validate, bind_eq_ok] at built
  obtain ⟨_, -, _, -, _, -, _, -, same⟩ := built
  exact (Except.ok.inj same).symm

/-- The records of a chain that is checked are those of one thread. -/
theorem checkChain_within {b : Bounds} {chain : List RunEventRecord}
    (checked : checkChain M workspaceId runId b chain = .ok ()) :
    ∀ r ∈ chain, r.workspaceId = workspaceId ∧ r.threadId = b.threadId := by
  intro r mem
  rw [checkChain, if_neg (List.ne_nil_of_mem mem)] at checked
  obtain ⟨_, bound, -⟩ := bind_eq_ok.mp checked
  obtain ⟨workspace, thread, -⟩ := (require_eq_ok.mp bound).2.2 r mem
  exact ⟨workspace, thread⟩

theorem pageEvents_threads {page : RunEventPage} {afterSequence limit : Int}
    (paged : pageEventsOf d M s workspaceId runId principal afterSequence limit = .ok page) :
    page.workspaceId = workspaceId ∧ page.runId = runId ∧ ∃ T, s.RunIn workspaceId T runId ∧
      ∀ r ∈ page.events, r.workspaceId = workspaceId ∧ r.threadId = T := by
  rw [pageEventsOf] at paged
  split at paged
  · cases paged
  · obtain ⟨b, bounded, within⟩ := bind_eq_ok.mp paged
    simp only [pageBounds, bind_eq_ok, present_eq_ok] at bounded
    obtain ⟨_, -, _, -, run, there, _, -, _, -, same⟩ := bounded
    obtain ⟨chain, -, rest⟩ := bind_eq_ok.mp within
    obtain ⟨_, checked, built⟩ := bind_eq_ok.mp rest
    have thread : run.threadId = b.threadId := by rw [← Except.ok.inj same]
    rw [RunEventPage.validate_eq built]
    refine ⟨rfl, rfl, run.threadId, ⟨run, there, rfl⟩, fun r mem => ?_⟩
    rw [thread]
    exact checkChain_within checked r (List.mem_of_mem_filter (List.mem_of_mem_take mem))

theorem artifactFromRow_run {row : ArtifactRow} {a : RunArtifact}
    (read : artifactFromRow M s row = .ok a) :
    a.workspaceId = row.workspaceId ∧ a.runId = row.runId := by
  simp only [artifactFromRow, RunArtifact.validate, bind_eq_ok] at read
  obtain ⟨time, -, _, -, _, -, _, -, _, -, _, -, _, -, _, -, _, -, _, -, same⟩ := read
  rw [← Except.ok.inj same]
  exact ⟨rfl, rfl⟩

theorem listArtifacts_runs {artifacts : List RunArtifact}
    (listed : listArtifacts M d s workspaceId runId principal = .ok artifacts) :
    (∀ a ∈ artifacts, a.workspaceId = workspaceId ∧ a.runId = runId) ∧
      (artifacts ≠ [] ↔ d.Member workspaceId principal ∧
        ∃ row ∈ s.artifacts, row.workspaceId = workspaceId ∧ row.runId = runId) := by
  rw [listArtifacts] at listed
  split at listed
  · next none_ =>
    obtain rfl := Except.ok.inj listed
    refine ⟨fun a mem => absurd mem List.not_mem_nil, ⟨fun some_ => absurd rfl some_, ?_⟩⟩
    exact fun there => absurd none_ there.1
  · next version member =>
    have is_member : d.Member workspaceId principal := .of_some member
    have each := mapM_eq_ok.mp listed
    have there : ∀ row, row ∈ byCreation (·.createdAt) (·.id) (s.artifacts.rows.filter fun r =>
        r.workspaceId = workspaceId ∧ r.runId = runId) ↔
          row ∈ s.artifacts ∧ row.workspaceId = workspaceId ∧ row.runId = runId := by
      intro row
      rw [mem_byCreation, List.mem_filter, decide_eq_true_eq]
      exact Iff.rfl
    refine ⟨fun a mem => ?_, fun some_ => ⟨is_member, ?_⟩, ?_⟩
    · obtain ⟨row, row_mem, read⟩ := exists_left each mem
      obtain ⟨-, workspace, run⟩ := (there row).mp row_mem
      obtain ⟨same_workspace, same_run⟩ := artifactFromRow_run read
      exact ⟨same_workspace.trans workspace, same_run.trans run⟩
    · obtain ⟨a, mem⟩ := List.exists_mem_of_ne_nil _ some_
      obtain ⟨row, row_mem, -⟩ := exists_left each mem
      exact ⟨row, (there row).mp row_mem⟩
    · rintro ⟨-, row, row_there⟩
      obtain ⟨a, mem, -⟩ := exists_right each ((there row).mpr row_there)
      exact List.ne_nil_of_mem mem

/-! ## Responses -/

/-- A response that tells of nothing. -/
def ConversationResponse.Silent (r : ConversationResponse) : Prop :=
  r.entities = [] ∧ r.eventPage = none

theorem failure_silent {reason : String} : (failure context reason).Silent := ⟨rfl, rfl⟩

theorem ConversationResponse.Silent.within (silent : response.Silent) :
    response.Within s workspaceId threadId := by
  refine ⟨fun e mem => ?_, fun p mem => ?_⟩
  · rw [silent.1] at mem
    exact absurd mem List.not_mem_nil
  · rw [silent.2] at mem
    cases mem

/-! What a list of the repository is told of. -/

section Contents

variable {reason : String}

attribute [local simp] ConversationResponse.entities success

theorem mem_threads {threads : List Thread} :
    e ∈ ({ success context reason with threads }).entities ↔ ∃ t ∈ threads, .thread t = e := by
  simp

theorem mem_messages {messages : List Message} :
    e ∈ ({ success context reason with messages }).entities ↔ ∃ m ∈ messages, .message m = e := by
  simp

theorem mem_page {page : RunEventPage} :
    e ∈ ({ success context reason with eventPage := some page }).entities ↔
      ∃ r ∈ page.events, .event r = e := by
  simp

theorem mem_artifacts {artifacts : List RunArtifact} :
    e ∈ ({ success context reason with artifacts }).entities ↔
      ∃ a ∈ artifacts, .artifact a = e := by
  simp

end Contents

/-- A response to a write tells of what the mutation has returned. -/
theorem returning_within {receipt : ConversationMutationReceipt} {reason : String}
    (within : ∀ e, receipt.result = .entity e → e.Within s workspaceId threadId) :
    ({ success context reason with mutationReceipt := some receipt }.returning
      receipt.result).Within s workspaceId threadId := by
  have entities : ∀ e, e ∈ ({ success context reason with
      mutationReceipt := some receipt }.returning receipt.result).entities →
        receipt.result = .entity e := by
    intro e mem
    cases result : receipt.result with
    | attachment a =>
      simp [ConversationResponse.returning, ConversationResponse.entities,
        ConversationMutationReceipt.entity, success, result] at mem
    | entity kind =>
      cases kind with
      | _ =>
        simp [ConversationResponse.returning, ConversationResponse.entities,
          ConversationMutationReceipt.entity, success, result] at mem
        rw [mem]
  refine ⟨fun e mem => within e (entities e mem), fun p mem => ?_⟩
  cases result : receipt.result with
  | attachment a =>
    rw [result] at mem
    cases mem
  | entity kind =>
    rw [result] at mem
    cases kind with
    | _ => cases mem

/-! ## Mutations -/

section

variable {service : ConversationService} {surface : Authorization.ClientSurface}
  {action reasonCode : String} {resourceId : Uuid} {payloadDigest : Except Uncaught String}
  {mutation : Except Raised (Tables × ConversationMutationResult)}

/-- Who is not let through is told a reason, and of a read always the same one. -/
theorem authorize_error {nonEnumerating : Bool}
    (refused : service.authorize context surface action resourceId nonEnumerating =
      .error response) : ∃ reason, response =
        failure context (if nonEnumerating then "conversation_not_found" else reason) := by
  rw [ConversationService.authorize] at refused
  dsimp only at refused
  split at refused
  · exact ⟨_, (Except.error.inj refused).symm⟩
  · split at refused
    · exact ⟨_, (Except.error.inj refused).symm⟩
    · split at refused
      · exact ⟨_, (Except.error.inj refused).symm⟩
      · cases refused

theorem authorize_silent {nonEnumerating : Bool}
    (refused : service.authorize context surface action resourceId nonEnumerating =
      .error response) : response.Silent := by
  obtain ⟨reason, rfl⟩ := authorize_error refused
  exact failure_silent

/-- What a write comes to: it is refused, its payload has no digest, its mutation is carried out and
nothing is told of it, or the response gives what the mutation has returned. -/
inductive Mutated (Carries : Prop) (context : RequestContext) (reasonCode : String)
    (tables : Tables) (mutation : Except Raised (Tables × ConversationMutationResult)) :
    Tables × Except Uncaught ConversationResponse → Prop where
  | refused {response : ConversationResponse} (silent : response.Silent) :
      Mutated Carries context reasonCode tables mutation (tables, .ok response)
  | escaped {e : Uncaught} : Mutated Carries context reasonCode tables mutation (tables, .error e)
  | hidden {after : Tables} {result : ConversationMutationResult}
      {response : ConversationResponse} (carries : Carries)
      (mutated : mutation = .ok (after, result)) (silent : response.Silent) :
      Mutated Carries context reasonCode tables mutation (after, .ok response)
  | returned {after : Tables} {receipt : ConversationMutationReceipt}
      (carries : Carries) (mutated : mutation = .ok (after, receipt.result)) :
      Mutated Carries context reasonCode tables mutation
        (after, .ok ({ success context reasonCode with mutationReceipt := some receipt }.returning
          receipt.result))

theorem mutate_cases : Mutated
    (service.Carries context surface action resourceId payloadDigest) context reasonCode tables
    mutation (service.mutate tables context surface action resourceId payloadDigest mutation
      reasonCode) := by
  simp only [ConversationService.mutate]
  split
  · exact .refused failure_silent
  · next lifecycle given =>
    split
    · next authorized => exact .refused (authorize_silent authorized)
    · exact .escaped
    · next decision digest authorized =>
      split
      · exact .refused failure_silent
      · next admitted =>
        have carries : service.Carries context surface action resourceId (.ok digest) :=
          ⟨lifecycle, decision, digest, given, authorized, rfl, admitted⟩
        cases mutated : mutation with
        | error raised =>
          split
          · exact .refused failure_silent
          · next concluded => cases lifecycle.returns _ _ _ concluded
        | ok outcome =>
          obtain ⟨after, result⟩ := outcome
          split
          · exact .hidden carries rfl failure_silent
          · next concluded =>
            have same := Except.ok.inj (lifecycle.returns _ _ _ concluded)
            split
            · exact .hidden carries rfl failure_silent
            · exact .returned carries (congrArg (fun r => Except.ok (after, r)) same)

/-- A mutation that is carried out and does not raise leaves its tables. -/
theorem mutate_carried {after : Tables} {result : ConversationMutationResult}
    (carries : service.Carries context surface action resourceId payloadDigest)
    (mutated : mutation = .ok (after, result)) :
    (service.mutate tables context surface action resourceId payloadDigest mutation
      reasonCode).1 = after := by
  obtain ⟨lifecycle, decision, digest, given, authorized, digested, admitted⟩ := carries
  simp only [ConversationService.mutate, given, authorized, digested, admitted, mutated]
  split
  · rfl
  · split
    · rfl
    · rfl

/-- Where a mutation has been carried out, its tables are there. -/
theorem Mutated.carried {Carries : Prop}
    {outcome : Tables × Except Uncaught ConversationResponse}
    (mutated : Mutated Carries context reasonCode tables mutation outcome) :
    outcome.1 = tables ∨ ∃ result, mutation = .ok (outcome.1, result) := by
  cases mutated with
  | refused => exact .inl rfl
  | escaped => exact .inl rfl
  | hidden _ mutated => exact .inr ⟨_, mutated⟩
  | returned _ mutated => exact .inr ⟨_, mutated⟩

end

/-! ## Requests -/

section

variable {Carries : Prop} {outcome : Tables × Except Uncaught ConversationResponse}
  {reasonCode : String}

/-- A call of the repository gives the new store and what it returns. -/
theorem call_eq_ok {call : Call S.toModels} {after : Tables}
    {result : ConversationMutationResult} (called : tables.call d call = .ok (after, result)) :
    ∃ s' e, call.result (d.attaching tables.attachments) tables.store = .ok (s', e) ∧
      after = { tables with store := s' } ∧ result = .entity e := by
  obtain ⟨⟨s', e⟩, returned, same⟩ := map_ok called
  obtain ⟨rfl, rfl⟩ := Prod.mk.inj same
  exact ⟨s', e, returned, rfl, rfl⟩

/-- A store is left as it is, or as a call of the repository has left it. -/
def Called (S : ServiceModels) (s s' : Store) : Prop :=
  s' = s ∨ ∃ (d : Directory) (call : Call S.toModels) (e : Entity), call.result d s = .ok (s', e)

theorem Mutated.called {call : Call S.toModels}
    (mutated : Mutated Carries context reasonCode tables (tables.call d call) outcome) :
    Called S tables.store outcome.1.store := by
  obtain same | ⟨result, called⟩ := mutated.carried
  · rw [same]
    exact .inl rfl
  · obtain ⟨s', e, returned, same, -⟩ := call_eq_ok called
    rw [same]
    exact .inr ⟨_, call, e, returned⟩

/-- The registration of an attachment leaves the other tables. -/
theorem Mutated.registered {attachment : AttachmentRef}
    (mutated : Mutated Carries context reasonCode tables
      ((fun r => ({ tables with attachments := r.1 }, .attachment r.2)) <$>
        registerAttachment S d tables.attachments attachment) outcome) :
    outcome.1.store = tables.store := by
  obtain same | ⟨result, registered⟩ := mutated.carried
  · rw [same]
  · obtain ⟨_, -, same⟩ := map_ok registered
    rw [← (Prod.mk.inj same).1]

theorem Kept.silent (silent : response.Silent) :
    Kept workspaceId threadId tables (tables, .ok response) := by
  refine ⟨.refl, fun r same => ?_⟩
  rw [← Except.ok.inj same]
  exact silent.within

/-- A call for a thread changes what belongs to it, and what it returns does too. -/
theorem Linked.kept (linked : Linked tables.store) {call : Call S.toModels}
    (own : Carries → ∀ after result, tables.call d call = .ok (after, result) →
      call.thread = some (workspaceId, threadId))
    (mutated : Mutated Carries context reasonCode tables (tables.call d call) outcome) :
    Kept workspaceId threadId tables outcome := by
  have changed {after result} (carries : Carries)
      (called : tables.call d call = .ok (after, result)) :
      ChangedWithin workspaceId threadId tables.store after.store ∧
        ∀ e, result = .entity e → e.Within after.store workspaceId threadId := by
    have own := own carries after result called
    obtain ⟨s', e, returned, rfl, rfl⟩ := call_eq_ok called
    refine ⟨.of_change (Call.change returned) own, fun e' same => ?_⟩
    rw [← ConversationMutationResult.entity.inj same]
    exact linked.within returned own
  cases mutated with
  | refused silent => exact .silent silent
  | escaped => exact ⟨.refl, fun _ same => by cases same⟩
  | hidden carries called silent =>
    refine ⟨(changed carries called).1, fun r same => ?_⟩
    rw [← Except.ok.inj same]
    exact silent.within
  | returned carries called =>
    refine ⟨(changed carries called).1, fun r same => ?_⟩
    rw [← Except.ok.inj same]
    exact returning_within (changed carries called).2

variable {service : ConversationService} {surface : Authorization.ClientSurface} {action : String}
  {resourceId : Uuid} {answer : ConversationResponse}

/-- A read tells of nothing, or is let through and gives its answer. -/
theorem read_cases : (service.read context surface action resourceId answer).Silent ∨
    service.Lets context surface action resourceId ∧
      service.read context surface action resourceId answer = answer := by
  rw [ConversationService.read]
  split
  · next refused => exact .inl (authorize_silent refused)
  · next decision allowed => exact .inr ⟨⟨decision, allowed⟩, rfl⟩

theorem read_of_lets (lets : service.Lets context surface action resourceId) :
    service.read context surface action resourceId answer = answer := by
  obtain ⟨decision, allowed⟩ := lets
  rw [ConversationService.read, allowed]

/-- A read keeps to a thread if its answer does. -/
theorem Kept.read (within : service.Lets context surface action resourceId →
    answer.Within tables.store workspaceId threadId) :
    Kept workspaceId threadId tables
      (tables, .ok (service.read context surface action resourceId answer)) := by
  have cases : (service.read context surface action resourceId answer).Silent ∨
      service.Lets context surface action resourceId ∧
        service.read context surface action resourceId answer = answer := read_cases
  obtain silent | ⟨lets, same⟩ := cases
  · exact .silent silent
  · refine ⟨.refl, fun r is_r => ?_⟩
    rw [← Except.ok.inj is_r, same]
    exact within lets

theorem Kept.of_lets (kept : Kept workspaceId threadId tables
      (tables, .ok (service.read context surface action resourceId answer)))
    (lets : service.Lets context surface action resourceId) :
    answer.Within tables.store workspaceId threadId := by
  have within := kept.told _ rfl
  rw [read_of_lets lets] at within
  exact within

/-- An answer keeps to a thread if the contents that the repository gives do. -/
theorem answered_within {α : Type} {result : Except Raised α} {contents : α → ConversationResponse}
    (within : ∀ a, result = .ok a → (contents a).Within s workspaceId threadId) :
    (answered context result contents).Within s workspaceId threadId := by
  cases given : result with
  | ok a => exact within a given
  | error e => exact failure_silent.within

end

/-- What a request does to the store is what one call of the repository does. -/
theorem step_called (tables : Tables) (request : ServiceRequest S) :
    Called S tables.store (tables.step request).store := by
  obtain ⟨service, d, context, surface, operation⟩ := request
  cases operation with
  | createThread thread valid =>
    change Called S _ (service.createThread d tables context surface thread valid).1.store
    rw [ConversationService.createThread]
    split
    · exact .inl rfl
    · exact mutate_cases.called
  | archiveThread => exact mutate_cases.called
  | registerAttachment attachment =>
    change Called S _ (service.registerAttachment d tables context surface S attachment).1.store
    rw [ConversationService.registerAttachment]
    split
    · exact .inl rfl
    · exact .inl mutate_cases.registered
  | appendMessage message valid membershipVersion =>
    change Called S _ (service.appendMessage d tables context surface message valid
      membershipVersion).1.store
    rw [ConversationService.appendMessage]
    split
    · exact .inl rfl
    · exact mutate_cases.called
  | createRun run valid =>
    change Called S _ (service.createRun d tables context surface run valid).1.store
    rw [ConversationService.createRun]
    split
    · exact .inl rfl
    · exact mutate_cases.called
  | appendEvent record valid membershipVersion =>
    change Called S _ (service.appendEvent d tables context surface record valid
      membershipVersion).1.store
    rw [ConversationService.appendEvent]
    split
    · exact .inl rfl
    · exact mutate_cases.called
  | recordArtifact artifact valid membershipVersion =>
    change Called S _ (service.recordArtifact d tables context surface artifact valid
      membershipVersion).1.store
    rw [ConversationService.recordArtifact]
    split
    · exact .inl rfl
    · exact mutate_cases.called
  | _ => exact .inl rfl

theorem Linked.step (linked : Linked tables.store) : Linked (tables.step request).store := by
  obtain same | ⟨d, call, e, returned⟩ := step_called tables request
  · rw [same]
    exact linked
  · exact linked.call returned

/-- Whatever the requests are and whoever makes them, every event is one of a stored run of its
workspace and its thread, and every artifact one of a stored run of its workspace. -/
theorem requests_linked (requests : List (ServiceRequest S)) :
    Linked (exec Tables.step .empty requests).store :=
  preserves (I := fun tables : Tables => Linked tables.store) linked_empty
    (fun _ _ linked => linked.step) requests

/-! ## The scope of a thread -/

/-- A record that is compared with the scope belongs to its thread. -/
theorem scope_of_fits {w id : Uuid} (workspace : ¬ w ≠ context.workspaceId)
    (fits : ¬ threadScopeMatches context id = false) :
    some (w, id) = some (context.workspaceId, context.scopeId) := by
  rw [Bool.not_eq_false, threadScopeMatches, Bool.and_eq_true, decide_eq_true_eq] at fits
  rw [not_not.mp workspace, fits.2]

/-- A thread is no workspace. -/
theorem not_workspaceScopeMatches (inThread : threadScoped context = true) :
    workspaceScopeMatches context = false := by
  rw [threadScoped, Bool.or_eq_true, decide_eq_true_eq, decide_eq_true_eq] at inThread
  rw [workspaceScopeMatches]
  obtain kind | kind := inThread
  · rw [kind]
    rfl
  · rw [kind]
    rfl

/-- What a request addresses is in the scope; then so is what it changes and tells of. -/
theorem Linked.confined (linked : Linked tables.store) (within : AddressesScope tables request) :
    Confined tables request := by
  obtain ⟨service, d, context, surface, operation⟩ := request
  intro inThread
  have inThread : threadScoped context = true := inThread
  have within := within inThread
  cases operation with
  | createThread thread valid =>
    change Kept _ _ tables (service.createThread d tables context surface thread valid)
    rw [ConversationService.createThread]
    split
    · exact .silent failure_silent
    · next fits =>
      obtain ⟨workspace, scope⟩ := not_or.mp fits
      refine linked.kept (fun _ _ _ _ => ?_) mutate_cases
      exact scope_of_fits workspace scope
  | getThread threadId =>
    change Kept _ _ tables (tables, .ok (service.getThread d tables context surface S threadId))
    rw [ConversationService.getThread]
    split
    · exact .silent failure_silent
    · next fits =>
      have same : context.scopeId = threadId := by
        by_contra other
        exact fits ⟨inThread, other⟩
      refine .read fun _ => answered_within fun found got => ?_
      cases found with
      | none => exact failure_silent.within
      | some thread =>
        refine ⟨fun e mem => ?_, fun p mem => by cases mem⟩
        obtain rfl := List.mem_singleton.mp mem
        rw [same]
        exact getThread_id got thread rfl
  | listThreads =>
    refine .read fun lets => answered_within fun threads listed => ?_
    obtain ⟨workspace, ids⟩ := listThreads_ids listed
    refine ⟨fun e mem => ?_, fun p mem => by cases mem⟩
    obtain ⟨t, inside, rfl⟩ := mem_threads.mp mem
    exact ⟨workspace t inside,
      within ⟨lets, threads, listed⟩ t.id ((ids t.id).mp ⟨t, inside, rfl⟩)⟩
  | archiveThread threadId expectedVersion membershipVersion updatedAt =>
    refine linked.kept (fun carries after result called => ?_) mutate_cases
    obtain ⟨s', e, returned, -, -⟩ := call_eq_ok called
    obtain ⟨archived, ok, -⟩ := map_ok returned
    exact congrArg (fun id => some (context.workspaceId, id))
      (within ⟨carries, archived, ok⟩ threadId rfl)
  | registerAttachment attachment =>
    change Kept _ _ tables (service.registerAttachment d tables context surface S attachment)
    rw [ConversationService.registerAttachment, if_pos]
    · exact .silent failure_silent
    · exact .inr (.inr (not_workspaceScopeMatches inThread))
  | appendMessage message valid membershipVersion =>
    change Kept _ _ tables (service.appendMessage d tables context surface message valid
      membershipVersion)
    rw [ConversationService.appendMessage]
    split
    · exact .silent failure_silent
    · next fits =>
      obtain ⟨workspace, rest⟩ := not_or.mp fits
      refine linked.kept (fun _ _ _ _ => ?_) mutate_cases
      exact scope_of_fits workspace (not_or.mp rest).1
  | listMessages threadId =>
    refine .read fun lets => answered_within fun messages listed => ?_
    obtain ⟨workspace, ids⟩ := listMessages_threads listed
    refine ⟨fun e mem => ?_, fun p mem => by cases mem⟩
    obtain ⟨m, inside, rfl⟩ := mem_messages.mp mem
    exact ⟨workspace m inside,
      within ⟨lets, messages, listed⟩ m.threadId ((ids m.threadId).mp ⟨m, inside, rfl⟩)⟩
  | createRun run valid =>
    change Kept _ _ tables (service.createRun d tables context surface run valid)
    rw [ConversationService.createRun]
    split
    · exact .silent failure_silent
    · next fits =>
      obtain ⟨workspace, rest⟩ := not_or.mp fits
      refine linked.kept (fun _ _ _ _ => ?_) mutate_cases
      exact scope_of_fits workspace (not_or.mp rest).1
  | getRun runId =>
    refine .read fun lets => answered_within fun found got => ?_
    obtain ⟨workspace, ids⟩ := getRun_threads got
    cases found with
    | none => exact failure_silent.within
    | some run =>
      refine ⟨fun e mem => ?_, fun p mem => by cases mem⟩
      obtain rfl := List.mem_singleton.mp mem
      exact ⟨workspace run rfl,
        within ⟨lets, _, got⟩ run.threadId ((ids run.threadId).mp ⟨run, rfl, rfl⟩)⟩
  | appendEvent record valid membershipVersion =>
    change Kept _ _ tables (service.appendEvent d tables context surface record valid
      membershipVersion)
    rw [ConversationService.appendEvent]
    split
    · exact .silent failure_silent
    · next fits =>
      obtain ⟨workspace, scope⟩ := not_or.mp fits
      refine linked.kept (fun _ _ _ _ => ?_) mutate_cases
      exact scope_of_fits workspace scope
  | pageEvents runId afterSequence limit =>
    refine .read fun lets => ?_
    split
    · exact failure_silent.within
    · next page paged =>
      obtain ⟨workspace, run, T, there, events⟩ := pageEvents_threads paged
      have same : T = context.scopeId := within ⟨lets, page, paged⟩ T there
      rw [same] at there events
      refine ⟨fun e mem => ?_, fun p mem => ?_⟩
      · obtain ⟨r, inside, rfl⟩ := mem_page.mp mem
        exact events r inside
      · rw [← Option.some.inj mem]
        rw [run]
        exact ⟨workspace, there⟩
  | recordArtifact artifact valid membershipVersion =>
    change Kept _ _ tables (service.recordArtifact d tables context surface artifact valid
      membershipVersion)
    rw [ConversationService.recordArtifact, if_pos]
    · exact .silent failure_silent
    · exact .inr (not_workspaceScopeMatches inThread)
  | listArtifacts runId =>
    refine .read fun lets => answered_within fun artifacts listed => ?_
    obtain ⟨runs, some_⟩ := listArtifacts_runs listed
    refine ⟨fun e mem => ?_, fun p mem => by cases mem⟩
    obtain ⟨a, inside, rfl⟩ := mem_artifacts.mp mem
    obtain ⟨member, row, row_mem, row_workspace, row_run⟩ := some_.mp (List.ne_nil_of_mem inside)
    obtain ⟨T, there⟩ := linked.artifacts row row_mem
    rw [row_workspace, row_run] at there
    have same : T = context.scopeId := within ⟨lets, artifacts, listed⟩ T
      ⟨⟨member, row, row_mem, row_workspace, row_run⟩, there⟩
    rw [same] at there
    refine ⟨(runs a inside).1, ?_⟩
    rw [(runs a inside).2]
    exact there

/-- What is addressed outside of the scope shows in the tables or in the response. -/
theorem Confined.addressesScope (confined : Confined tables request) :
    AddressesScope tables request := by
  obtain ⟨service, d, context, surface, operation⟩ := request
  intro inThread answered T addressed
  have kept : Kept context.workspaceId context.scopeId tables
    (tables.serve ⟨service, d, context, surface, operation⟩) := confined inThread
  cases operation with
  | listThreads =>
    obtain ⟨lets, threads, listed⟩ := answered
    obtain ⟨t, mem, rfl⟩ := ((listThreads_ids listed).2 T).mpr addressed
    have within := kept.of_lets lets
    rw [listed] at within
    exact (within.entities _ (mem_threads.mpr ⟨t, mem, rfl⟩)).2
  | archiveThread threadId expectedVersion membershipVersion updatedAt =>
    obtain ⟨carries, ⟨after, archived⟩, ok⟩ := answered
    obtain rfl : threadId = T := addressed
    have called : tables.call d (S := S) (.archiveThread context.workspaceId threadId
        expectedVersion context.requesterId membershipVersion updatedAt) =
          .ok ({ tables with store := after }, .entity (.thread archived)) := by
      rw [Tables.call, Call.result, ok]
      rfl
    have left : (tables.step ⟨service, d, context, surface, .archiveThread (S := S) threadId
        expectedVersion membershipVersion updatedAt⟩).store = after := by
      refine (congrArg Tables.store (mutate_carried carries called)).trans ?_
      rfl
    have changed := kept.changed.versions
    change SameBut _ tables.store.threadVersions.rows (tables.step _).store.threadVersions.rows
      at changed
    rw [left] at changed
    cases archiveThread_change ok with
    | archive _ _ _ version =>
      have changed : SameBut _ _ _ := changed
      rw [version] at changed
      have owned := changed.owned
      rw [Bool.and_eq_true, decide_eq_true_eq, decide_eq_true_eq] at owned
      exact owned.2
  | listMessages threadId =>
    obtain ⟨lets, messages, listed⟩ := answered
    obtain ⟨m, mem, rfl⟩ := ((listMessages_threads listed).2 T).mpr addressed
    have within := kept.of_lets lets
    rw [listed] at within
    exact (within.entities _ (mem_messages.mpr ⟨m, mem, rfl⟩)).2
  | getRun runId =>
    obtain ⟨lets, found, got⟩ := answered
    obtain ⟨run, rfl, rfl⟩ := ((getRun_threads got).2 T).mpr addressed
    have within := kept.of_lets lets
    rw [got] at within
    exact (within.entities (.run run) (List.mem_singleton_self _)).2
  | pageEvents runId afterSequence limit =>
    obtain ⟨lets, page, paged⟩ := answered
    have within := kept.of_lets lets
    rw [paged] at within
    have there := (within.page page rfl).2
    rw [(pageEvents_threads paged).2.1] at there
    exact Store.RunIn.unique addressed there
  | listArtifacts runId =>
    obtain ⟨lets, artifacts, listed⟩ := answered
    obtain ⟨some_, there⟩ := addressed
    obtain ⟨runs, iff⟩ := listArtifacts_runs listed
    obtain ⟨a, mem⟩ := List.exists_mem_of_ne_nil _ (iff.mpr some_)
    have within := kept.of_lets lets
    rw [listed] at within
    have inside := (within.entities _ (mem_artifacts.mpr ⟨a, mem, rfl⟩)).2
    rw [(runs a mem).2] at inside
    exact there.unique inside
  | _ => exact absurd addressed id

/-- In every sequence of requests, those in the scope of a thread stay within it exactly if what
they address, where the service does not compare it with the scope, belongs to that thread. -/
theorem confined_iff (requests : List (ServiceRequest S)) :
    Along Tables.step Confined .empty requests ↔
      Along Tables.step AddressesScope .empty requests :=
  along_iff (I := fun tables : Tables => Linked tables.store) linked_empty
    (fun _ _ linked _ => linked.step)
    fun _ _ linked => ⟨fun confined => confined.addressesScope, linked.confined⟩

namespace Sample

def serviceModels : ServiceModels := { models with admitsMetadata := fun _ => true }

/-- A lifecycle that carries out every mutation. -/
def obliging : MutationLifecycle where
  refuses := fun _ => none
  conclude := fun request outcome =>
    match outcome with
    | .ok result => .ok ⟨request.context.authorityStateRoot, zeros, .ofNat 1, zeros,
        request.payloadDigest, result⟩
    | .error _ => .error ⟨none, ""⟩
  returns := by
    intro request outcome receipt concluded
    cases outcome with
    | ok result => rw [← Except.ok.inj concluded]
    | error raised => cases concluded

/-- Everything is allowed. -/
def allowing : ConversationService where
  authorization := fun request => some ⟨true, "allowed", request.context.authorizationSnapshotId,
    request.context.authorizationSnapshotDigest⟩
  mutationLifecycle := some obliging

/-- The context of a user in the scope of a thread. -/
def inThread (id : Nat) : RequestContext :=
  ⟨.ofNat 21, .ofNat 22, .ofNat 23, workspace, 1, 0, zeros, .ofNat 24, .ofNat 25, zeros, .thread,
    .ofNat id, zeros, .ofNat 26, zeros, user, .ofNat 27, none, .ofNat 28, .ofNat 29, .ofNat 30,
    none, zeros, .ofNat 31, zeros, .ofNat 32, "key", .ofNat 33⟩

def otherThread : Thread := { thread with id := .ofNat 9 }

theorem otherThread_valid : otherThread.validate = .ok otherThread := by decide +kernel

def ask (id : Nat) (operation : Operation serviceModels) : ServiceRequest serviceModels :=
  ⟨allowing, everyone, inThread id, .web, operation⟩

/-- Two threads are created, each in its scope; then the second one is archived in the scope of the
first. -/
def otherArchived : List (ServiceRequest serviceModels) := [
  ask 3 (.createThread thread thread_valid),
  ask 9 (.createThread otherThread otherThread_valid),
  ask 3 (.archiveThread (.ofNat 9) 1 1 (.aware midnight))]

/-- The tables when the second thread is there. -/
def bothThere : Tables := exec Tables.step .empty (otherArchived.take 2)

theorem archived_there : (archiveThread serviceModels.toModels (everyone.attaching
    bothThere.attachments) bothThere.store workspace (.ofNat 9) 1 user 1
      (.aware midnight)).toOption.isSome = true := by
  decide +kernel

end Sample

/-- A request in the scope of a thread archives another one. -/
theorem archived_outside : ¬ Along Tables.step Confined .empty Sample.otherArchived := by
  intro along
  have confined : Confined Sample.bothThere
    (Sample.ask 3 (.archiveThread (.ofNat 9) 1 1 (.aware Sample.midnight))) := along.2.2.1
  have answered : Answered Sample.bothThere
      (Sample.ask 3 (.archiveThread (.ofNat 9) 1 1 (.aware Sample.midnight))) := by
    refine ⟨⟨Sample.obliging, ⟨true, "allowed", .ofNat 31, Sample.zeros⟩, Sample.zeros, rfl, ?_⟩,
      ?_⟩
    · decide +kernel
    · obtain ⟨result, archived⟩ := Option.isSome_iff_exists.mp Sample.archived_there
      cases ok : archiveThread Sample.serviceModels.toModels (everyone.attaching
          Sample.bothThere.attachments) Sample.bothThere.store Sample.workspace (.ofNat 9) 1
            Sample.user 1 (.aware Sample.midnight) with
      | ok result => exact ⟨result, ok⟩
      | error e =>
        rw [ok] at archived
        cases archived
  have same := confined.addressesScope rfl answered (.ofNat 9) rfl
  exact absurd same (by decide)

end Corvus.Conversations
