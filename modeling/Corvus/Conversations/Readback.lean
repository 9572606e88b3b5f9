import Corvus.Conversations.Calls
import Corvus.Library.Mirror

/-!
# Reading what was written

A record is read from its rows as it was written if the texts of its times are read as those times.
-/

namespace Corvus.Conversations

variable {M : Models} {d : Directory} {s s' : Store} {e : Entity} {h : History} {call : Call M}

/-! ## Records and their rows -/

/-- A time is read back from its text. -/
def ReadsBack (M : Models) (t : Datetime) : Prop := M.parse t.isoformat = some t

theorem isoformat_aware (t : Aware) : (Datetime.aware t).isoformat = t.isoformat := rfl

theorem datetime_of {t : Datetime} (reads : ReadsBack M t) : M.datetime t.isoformat = .ok t := by
  rw [Models.datetime, reads]
  rfl

theorem time_of {t : Aware} (reads : ReadsBack M (.aware t)) : M.time t.isoformat = .ok t := by
  have read : M.datetime (Datetime.aware t).isoformat = .ok (.aware t) := datetime_of reads
  rw [isoformat_aware] at read
  rw [Models.time, read]
  rfl

theorem time_eq_ok {text : String} {t : Aware} :
    M.time text = .ok t ↔ M.parse text = some (.aware t) := by
  rw [Models.time, Models.datetime, bind_eq_ok]
  simp only [present_eq_ok]
  constructor
  · rintro ⟨_ | time, found, aware⟩
    · cases aware
    · rw [found, Except.ok.inj aware]
  · intro found
    exact ⟨_, found, rfl⟩

theorem datetime_eq_ok {text : String} {t : Datetime} :
    M.datetime text = .ok t ↔ M.parse text = some t := present_eq_ok

theorem readsBack_of_time {t : Aware} (read : M.time t.isoformat = .ok t) :
    ReadsBack M (.aware t) := by
  rw [ReadsBack, isoformat_aware]
  exact time_eq_ok.mp read

theorem threadFromRow_row {t : Thread} (created : ReadsBack M t.createdAt)
    (updated : ReadsBack M t.updatedAt) :
    threadFromRow M (t.row, t.versionRow) = t.validate := by
  rw [threadFromRow, Thread.row, Thread.versionRow]
  simp only [datetime_of created, datetime_of updated, ok_bind]

theorem messageFromRow_row {m : Message} {digest : String}
    (attached : items s.messageAttachments (m.workspaceId, m.threadId, m.sequence) =
      m.attachmentIds)
    (created : ReadsBack M (.aware m.createdAt)) :
    messageFromRow M s (m.row digest) = m.validate M.toDigests := by
  rw [messageFromRow, Message.row]
  simp only [time_of created, ok_bind, attached]

theorem runFromRow_row {r : AgentRunRecord} {digest : String}
    (created : ReadsBack M (.aware r.createdAt)) :
    runFromRow M (r.row digest) = r.validate := by
  rw [runFromRow, AgentRunRecord.row]
  simp only [time_of created, ok_bind]

theorem payloadFrom_dumps {payload : List (String × Json)}
    (canonical : (Json.obj payload).Canonical) :
    payloadFrom (Json.dumps (.obj payload)) = .ok payload := by
  rw [payloadFrom, Json.loads_dumps canonical]

theorem eventFromRow_row {r : RunEventRecord} (valid : r.Valid M)
    (written : ReadsBack M (.aware r.timestamp)) : eventFromRow M r.row = .ok r := by
  obtain ⟨workspaceId, threadId, runId, event, offset⟩ := r
  have bound := valid.record
  simp only [RunEventRecord.validate, bind_eq_ok, require_eq_ok] at bound
  obtain ⟨_, rfl, -⟩ := bound
  have written : ReadsBack M (.aware ⟨event.timestamp, offset⟩) := written
  have read : validatedEventFromRow M
      (RunEventRecord.row ⟨workspaceId, threadId, event.runId, event, offset⟩) =
        .ok ⟨workspaceId, threadId, event.runId, event, offset⟩ := by
    change (M.time (Aware.isoformat ⟨event.timestamp, offset⟩) >>= _) = _
    rw [time_of written]
    change (payloadFrom (Json.dumps (.obj event.redactedPayload)) >>= _) = _
    rw [payloadFrom_dumps valid.payload]
    change (validateEvent M event >>= _) = _
    rw [valid.event]
    exact valid.record
  rw [eventFromRow, read]

theorem artifactFromRow_row {a : RunArtifact}
    (parents : items s.lineage (a.workspaceId, a.id) = a.parentArtifactIds)
    (created : ReadsBack M (.aware a.createdAt)) :
    artifactFromRow M s a.row = a.validate M.toDigests := by
  rw [artifactFromRow, RunArtifact.row]
  simp only [time_of created, ok_bind, parents]

/-! ## What has been written -/

def Entity.thread? : Entity → Option Thread
  | .thread t => some t
  | _ => none

def Entity.message? : Entity → Option Message
  | .message m => some m
  | _ => none

def Entity.run? : Entity → Option AgentRunRecord
  | .run r => some r
  | _ => none

def Entity.event? : Entity → Option RunEventRecord
  | .event r => some r
  | _ => none

def Entity.artifact? : Entity → Option RunArtifact
  | .artifact a => some a
  | _ => none

namespace History

def threads (h : History) : List Thread := h.written.filterMap Entity.thread?

def messages (h : History) : List Message := h.written.filterMap Entity.message?

def runs (h : History) : List AgentRunRecord := h.written.filterMap Entity.run?

def events (h : History) : List RunEventRecord := h.written.filterMap Entity.event?

def artifacts (h : History) : List RunArtifact := h.written.filterMap Entity.artifact?

/-- A call has returned a record. -/
def next (h : History) (s' : Store) (e : Entity) : History := ⟨s', h.written ++ [e]⟩

theorem threads_next : (h.next s' e).threads = h.threads ++ e.thread?.toList := by
  rw [threads, next, List.filterMap_append]
  cases e <;> rfl

theorem messages_next : (h.next s' e).messages = h.messages ++ e.message?.toList := by
  rw [messages, next, List.filterMap_append]
  cases e <;> rfl

theorem runs_next : (h.next s' e).runs = h.runs ++ e.run?.toList := by
  rw [runs, next, List.filterMap_append]
  cases e <;> rfl

theorem events_next : (h.next s' e).events = h.events ++ e.event?.toList := by
  rw [events, next, List.filterMap_append]
  cases e <;> rfl

theorem artifacts_next : (h.next s' e).artifacts = h.artifacts ++ e.artifact?.toList := by
  rw [artifacts, next, List.filterMap_append]
  cases e <;> rfl

end History

/-! ## Calls whose times are read back -/

/-- The times that a call writes. -/
def Call.times : Call M → List Datetime
  | .createThread thread _ => [thread.createdAt, thread.updatedAt]
  | .archiveThread _ _ _ _ _ updatedAt => [updatedAt]
  | .appendMessage message _ _ _ => [.aware message.createdAt]
  | .createRun run _ => [.aware run.createdAt]
  | .appendEvent record _ _ _ => [.aware record.timestamp]
  | .recordArtifact artifact _ _ _ => [.aware artifact.createdAt]

/-- A call finds a record where it would write one. -/
def Call.Finds (s : Store) : Call M → Prop
  | .createThread thread _ => s.threadRow thread.workspaceId thread.id ≠ none
  | .archiveThread .. => False
  | .appendMessage message _ _ _ =>
      s.messageUnder message.workspaceId message.threadId message.idempotencyKey ≠ none
  | .createRun run _ => s.runUnder run.workspaceId run.threadId run.idempotencyKey ≠ none
  | .appendEvent record _ _ _ => record.event.providerEventId.bind
      (s.eventUnder record.workspaceId record.runId) ≠ none
  | .recordArtifact artifact _ _ _ =>
      s.artifacts.get? (artifact.workspaceId, artifact.id) ≠ none

/-- The times that a call writes are read back. -/
def Call.Legible (s : Store) (call : Call M) : Prop :=
  ¬ call.Finds s → ∀ t ∈ call.times, ReadsBack M t

/-! ## Messages -/

/-- The messages of a thread are numbered from one, each under a key of its own. -/
structure Sequenced (s : Store) : Prop where
  numbered : ∀ workspaceId threadId,
    Log (·.sequence) (fun _ _ => True) (s.messageRows workspaceId threadId)
  keys : ∀ workspaceId threadId,
    ((s.messageRows workspaceId threadId).map (·.idempotencyKey)).Nodup

theorem sequenced_empty : Sequenced .empty := ⟨fun _ _ => Log.nil, fun _ _ => List.nodup_nil⟩

theorem Sequenced.nextSequence (sequenced : Sequenced s) (workspaceId threadId : Uuid) :
    s.nextSequence workspaceId threadId = (s.messageRows workspaceId threadId).length + 1 := by
  rw [Store.nextSequence, (sequenced.numbered workspaceId threadId).max?]

theorem mem_messageRows {row : MessageRow} {workspaceId threadId : Uuid} :
    row ∈ s.messageRows workspaceId threadId ↔
      row ∈ s.messages.rows ∧ row.workspaceId = workspaceId ∧ row.threadId = threadId := by
  rw [Store.messageRows, List.mem_filter, decide_eq_true_eq]

/-- No message has the next sequence of its thread. -/
theorem Sequenced.fresh (sequenced : Sequenced s) {workspaceId threadId : Uuid} {row : MessageRow}
    (mem : row ∈ s.messages.rows) :
    key row ≠ (workspaceId, threadId, s.nextSequence workspaceId threadId) := by
  rintro same
  obtain ⟨rfl, rest⟩ := Prod.mk.inj same
  obtain ⟨rfl, number⟩ := Prod.mk.inj rest
  have bounds := (sequenced.numbered row.workspaceId row.threadId).number_bounds
    (mem_messageRows.mpr ⟨mem, rfl, rfl⟩)
  rw [sequenced.nextSequence] at number
  omega

theorem Sequenced.change (sequenced : Sequenced s) (change : Change d s call s' e) :
    Sequenced s' := by
  cases change with
  | @message message _ _ _ stored messages thread fresh copy stored_valid row =>
    have rows : ∀ workspaceId threadId, messages.rows.filter
        (fun r => r.workspaceId = workspaceId ∧ r.threadId = threadId) =
        (s.messages.rows ++ [stored.row (message.requestDigest M.toDigests)]).filter
          (fun r => r.workspaceId = workspaceId ∧ r.threadId = threadId) := by
      intro workspaceId threadId
      rw [row]
    subst copy
    constructor
    · intro workspaceId threadId
      change Log _ _ (messages.rows.filter _)
      rw [rows]
      refine (sequenced.numbered workspaceId threadId).filter_append fun kind => ⟨?_, trivial⟩
      obtain ⟨rfl, rfl⟩ := of_decide_eq_true kind
      exact sequenced.nextSequence _ _
    · intro workspaceId threadId
      change ((messages.rows.filter _).map _).Nodup
      rw [rows, List.filter_append, List.map_append, List.nodup_append]
      refine ⟨sequenced.keys workspaceId threadId, ?_, ?_⟩
      · exact ((List.filter_sublist).map _).nodup (List.nodup_singleton _)
      · intro a before b last same
        obtain ⟨r, mem, rfl⟩ := List.mem_map.mp before
        obtain ⟨r', mem', rfl⟩ := List.mem_map.mp last
        obtain ⟨single, kind⟩ := List.mem_filter.mp mem'
        obtain ⟨there, kind'⟩ := List.mem_filter.mp mem
        rw [List.mem_singleton.mp single] at kind same
        have none_ := List.find?_eq_none.mp fresh r there
        obtain ⟨same_workspace, same_thread⟩ := of_decide_eq_true kind
        obtain ⟨workspace, thread⟩ := of_decide_eq_true kind'
        exact none_ (decide_eq_true ⟨workspace.trans same_workspace.symm,
          thread.trans same_thread.symm, same⟩)
  | _ => exact ⟨sequenced.numbered, sequenced.keys⟩

/-- A row stands for the message that is read from it. -/
def MessageOf (M : Models) (s : Store) (row : MessageRow) (m : Message) : Prop :=
  row = m.row (m.requestDigest M.toDigests) ∧ messageFromRow M s row = .ok m

/-- The messages that were written are those in the store. -/
structure MessagesIntact (M : Models) (h : History) : Prop where
  mirrors : Mirrors (MessageOf M h.store) h.store.messages.rows h.messages
  attached : ∀ e ∈ h.store.messageAttachments, ∃ row ∈ h.store.messages.rows, key row = e.owner

theorem messagesIntact_start : MessagesIntact M .start :=
  ⟨.nil, fun _ mem => absurd mem List.not_mem_nil⟩

/-- A message is read from the same attachments after those of another one. -/
theorem messageFromRow_append {row : MessageRow} {owner : Uuid × Uuid × Nat} {ids : List Uuid}
    (differs : owner ≠ key row) (more : s'.messageAttachments =
      s.messageAttachments ++ entries owner ids) :
    messageFromRow M s' row = messageFromRow M s row := by
  have same : items s'.messageAttachments (row.workspaceId, row.threadId, row.sequence) =
      items s.messageAttachments (row.workspaceId, row.threadId, row.sequence) := by
    rw [more]
    exact items_append_other differs
  rw [messageFromRow, messageFromRow, same]

theorem MessagesIntact.next (intact : MessagesIntact M h) (sequenced : Sequenced h.store)
    (change : Change d h.store call s' e) (legible : e.message?.isSome → call.Legible h.store) :
    MessagesIntact M (h.next s' e) := by
  cases change with
  | @message message _ _ _ stored messages thread fresh copy stored_valid row =>
    obtain ⟨mirrors, attached⟩ := intact
    have digest : message.requestDigest M.toDigests = stored.requestDigest M.toDigests := by
      rw [copy]
      rfl
    rw [digest] at row
    have free : ∀ r ∈ h.store.messages.rows,
        key r ≠ (stored.workspaceId, stored.threadId, stored.sequence) := by
      intro r mem
      rw [copy]
      exact sequenced.fresh mem
    constructor
    · rw [History.messages_next]
      change Mirrors _ messages.rows _
      rw [row]
      refine (mirrors.mono ?_).append ⟨rfl, ?_⟩
      · rintro r mem m ⟨same, read⟩
        refine ⟨same, ?_⟩
        rw [← read]
        exact messageFromRow_append (free r mem).symm rfl
      · refine (messageFromRow_row ?_ ?_).trans stored_valid
        · refine items_append_self fun entry mem same => ?_
          obtain ⟨r, there, owner⟩ := attached entry mem
          exact free r there (owner.trans same)
        · rw [copy]
          exact legible rfl (not_not.mpr fresh) _ (List.mem_singleton_self _)
    · intro entry mem
      change ∃ r ∈ messages.rows, key r = entry.owner
      rw [row]
      obtain before | new := List.mem_append.mp mem
      · obtain ⟨r, there, owner⟩ := attached entry before
        exact ⟨r, List.mem_append_left _ there, owner⟩
      · refine ⟨_, List.mem_append_right _ (List.mem_singleton_self _), ?_⟩
        rw [owner_of_entries new]
        rfl
  | messageAgain found read =>
    refine ⟨?_, intact.attached⟩
    rw [History.messages_next]
    refine intact.mirrors.again ?_
    refine intact.mirrors.mem_of_row (List.mem_of_find?_eq_some found) fun m related => ?_
    exact Except.ok.inj (related.2.symm.trans read)
  | _ =>
    refine ⟨?_, intact.attached⟩
    rw [History.messages_next]
    exact (List.append_nil h.messages).symm ▸ intact.mirrors

/-! ## Runs -/

/-- A row stands for the run that is read from it. -/
def RunOf (M : Models) (row : RunRow) (r : AgentRunRecord) : Prop :=
  row = r.row (r.requestDigest M.toDigests) ∧ runFromRow M row = .ok r

/-- The runs that were written are those in the store. -/
def RunsIntact (M : Models) (h : History) : Prop :=
  Mirrors (RunOf M) h.store.runs.rows h.runs

theorem RunsIntact.next (intact : RunsIntact M h) (change : Change d h.store call s' e)
    (legible : call.Legible h.store) : RunsIntact M (h.next s' e) := by
  rw [RunsIntact, History.runs_next]
  cases change with
  | @run run valid runs fresh binds row =>
    change Mirrors _ runs.rows _
    rw [row]
    refine Mirrors.append intact ⟨rfl, (runFromRow_row ?_).trans valid⟩
    exact legible (not_not.mpr fresh) _ (List.mem_singleton_self _)
  | runAgain found read =>
    refine Mirrors.again intact ?_
    refine Mirrors.mem_of_row intact (List.mem_of_find?_eq_some found) fun r related => ?_
    exact Except.ok.inj (related.2.symm.trans read)
  | _ => exact (List.append_nil h.runs).symm ▸ intact

/-! ## Events -/

/-- A row stands for the event that is read from it. -/
def EventOf (M : Models) (row : EventRow) (r : RunEventRecord) : Prop :=
  row = r.row ∧ eventFromRow M row = .ok r

/-- The events that were written are those in the store. -/
def EventsIntact (M : Models) (h : History) : Prop :=
  Mirrors (EventOf M) h.store.events.rows h.events

/-- An event is read back once it is stored. -/
theorem eventFromRow_stored {record stored : RunEventRecord} {last : Option EventRow}
    (valid : record.Valid M)
    (copy : stored = { record with event := nextEvent M last record.event })
    (event_valid : validateEvent M stored.event = .ok stored.event)
    (record_valid : stored.validate = .ok stored)
    (written : ReadsBack M (.aware record.timestamp)) : eventFromRow M stored.row = .ok stored := by
  refine eventFromRow_row ⟨event_valid, record_valid, ?_⟩ ?_
  · rw [copy]
    exact valid.payload
  · rw [copy]
    exact written

theorem EventsIntact.next (intact : EventsIntact M h) (change : Change d h.store call s' e)
    (legible : e.event?.isSome → call.Legible h.store) : EventsIntact M (h.next s' e) := by
  rw [EventsIntact, History.events_next]
  cases change with
  | @event record valid _ _ _ stored _ _ events _ _ fresh copy event_valid record_valid _ _ row =>
    change Mirrors _ events.rows _
    rw [row]
    refine Mirrors.append intact ⟨rfl, eventFromRow_stored valid copy event_valid record_valid ?_⟩
    exact legible rfl (not_not.mpr fresh) _ (List.mem_singleton_self _)
  | @eventAgain record _ _ _ row replay found read =>
    refine Mirrors.again intact ?_
    obtain ⟨id, -, found⟩ := Option.bind_eq_some_iff.mp found
    refine Mirrors.mem_of_row intact (List.mem_of_find?_eq_some found) fun r related => ?_
    exact Except.ok.inj (related.2.symm.trans read)
  | _ => exact (List.append_nil h.events).symm ▸ intact

/-! ## Artifacts -/

/-- A row stands for the artifact that is read from it. -/
def ArtifactOf (M : Models) (s : Store) (row : ArtifactRow) (a : RunArtifact) : Prop :=
  row = a.row ∧ artifactFromRow M s row = .ok a

/-- The artifacts that were written are those in the store. -/
structure ArtifactsIntact (M : Models) (h : History) : Prop where
  mirrors : Mirrors (ArtifactOf M h.store) h.store.artifacts.rows h.artifacts
  descend : ∀ e ∈ h.store.lineage, ∃ row ∈ h.store.artifacts.rows, key row = e.owner

theorem artifactsIntact_start : ArtifactsIntact M .start :=
  ⟨.nil, fun _ mem => absurd mem List.not_mem_nil⟩

/-- An artifact is read with the same parents after those of another one. -/
theorem artifactFromRow_append {row : ArtifactRow} {owner : Uuid × Uuid} {ids : List Uuid}
    (differs : owner ≠ key row) (more : s'.lineage = s.lineage ++ entries owner ids) :
    artifactFromRow M s' row = artifactFromRow M s row := by
  have same : items s'.lineage (row.workspaceId, row.id) =
      items s.lineage (row.workspaceId, row.id) := by
    rw [more]
    exact items_append_other differs
  rw [artifactFromRow, artifactFromRow, same]

theorem ArtifactsIntact.next (intact : ArtifactsIntact M h) (change : Change d h.store call s' e)
    (legible : call.Legible h.store) : ArtifactsIntact M (h.next s' e) := by
  cases change with
  | @artifact artifact valid _ _ artifacts parents row =>
    obtain ⟨mirrors, descend⟩ := intact
    have fresh : h.store.artifacts.get? (artifact.workspaceId, artifact.id) = none :=
      Table.get?_eq_none_of_append row
    have free : ∀ r ∈ h.store.artifacts.rows, key r ≠ (artifact.workspaceId, artifact.id) :=
      Table.get?_eq_none.mp fresh
    constructor
    · rw [History.artifacts_next]
      change Mirrors _ artifacts.rows _
      rw [row]
      refine (mirrors.mono ?_).append ⟨rfl, ?_⟩
      · rintro r mem a ⟨same, read⟩
        refine ⟨same, ?_⟩
        rw [← read]
        exact artifactFromRow_append (free r mem).symm rfl
      · refine (artifactFromRow_row ?_ ?_).trans valid
        · refine items_append_self fun entry mem same => ?_
          obtain ⟨r, there, owner⟩ := descend entry mem
          exact free r there (owner.trans same)
        · exact legible (not_not.mpr fresh) _ (List.mem_singleton_self _)
    · intro entry mem
      change ∃ r ∈ artifacts.rows, key r = entry.owner
      rw [row]
      obtain before | new := List.mem_append.mp mem
      · obtain ⟨r, there, owner⟩ := descend entry before
        exact ⟨r, List.mem_append_left _ there, owner⟩
      · refine ⟨_, List.mem_append_right _ (List.mem_singleton_self _), ?_⟩
        rw [owner_of_entries new]
        rfl
  | artifactAgain found read =>
    refine ⟨?_, intact.descend⟩
    rw [History.artifacts_next]
    refine intact.mirrors.again ?_
    refine intact.mirrors.mem_of_row (Table.get?_eq_some.mp found).1 fun a related => ?_
    exact Except.ok.inj (related.2.symm.trans read)
  | _ =>
    refine ⟨?_, intact.descend⟩
    rw [History.artifacts_next]
    exact (List.append_nil h.artifacts).symm ▸ intact.mirrors

/-! ## Threads -/

/-- A thread is read as it was last written, and no version is without its thread. -/
structure ThreadsIntact (M : Models) (h : History) : Prop where
  current : ∀ workspaceId threadId,
    (h.store.threadRow workspaceId threadId).map (threadFromRow M) =
      (latest key h.threads (workspaceId, threadId)).map .ok
  owned : ∀ v ∈ h.store.threadVersions.rows,
    h.store.threads.get? (v.workspaceId, v.threadId) ≠ none

theorem threadsIntact_start : ThreadsIntact M .start :=
  ⟨fun _ _ => rfl, fun _ mem => absurd mem List.not_mem_nil⟩

/-- An archived thread follows its creation. -/
def Call.Chronological (M : Models) (s : Store) : Call M → Prop
  | .archiveThread workspaceId threadId _ _ _ updatedAt =>
      ∀ row ∈ s.threadRow workspaceId threadId, ∀ createdAt,
        M.time row.1.createdAt = .ok createdAt →
          ∃ time, updatedAt = .aware time ∧ createdAt.instant ≤ time.instant
  | _ => True

theorem Thread.validate_ok {t u : Thread} : t.validate = .ok u ↔
    (1 ≤ t.workspaceVersion ∧ 1 ≤ t.creatorMembershipVersion ∧ Text.strip t.title ≠ "" ∧
      t.title.length ≤ MAX_THREAD_TITLE_CHARACTERS ∧
      ∃ created, awareOf t.createdAt = .ok created ∧
      ∃ updated, awareOf t.updatedAt = .ok updated ∧
        1 ≤ t.version ∧ created.instant ≤ updated.instant) ∧ u = t := by
  simp only [Thread.validate, bind_eq_ok, require_eq_ok, positive_ok]
  constructor
  · rintro ⟨_, workspace, _, membership, _, title, _, length, created, created_ok, updated,
      updated_ok, _, version, _, order, same⟩
    exact ⟨⟨workspace, membership, title, length, created, created_ok, updated, updated_ok, version,
      order⟩, (Except.ok.inj same).symm⟩
  · rintro ⟨⟨workspace, membership, title, length, created, created_ok, updated, updated_ok,
      version, order⟩, rfl⟩
    exact ⟨⟨⟩, workspace, ⟨⟩, membership, ⟨⟩, title, ⟨⟩, length, created, created_ok, updated,
      updated_ok, ⟨⟩, version, ⟨⟩, order, rfl⟩

/-- What is read from the rows of a thread. -/
theorem threadFromRow_ok {row : ThreadRow × ThreadVersionRow} {t : Thread} :
    threadFromRow M row = .ok t ↔ t.validate = .ok t ∧
      M.datetime row.1.createdAt = .ok t.createdAt ∧ M.datetime row.2.updatedAt = .ok t.updatedAt ∧
      t = ⟨row.1.id, row.1.workspaceId, row.1.workspaceVersion, row.1.projectId,
        row.1.creatorPrincipalId, row.1.creatorMembershipVersion, row.2.title, row.2.status,
        t.createdAt, t.updatedAt, row.2.version⟩ := by
  rw [threadFromRow]
  simp only [bind_eq_ok]
  constructor
  · rintro ⟨created, created_ok, updated, updated_ok, built⟩
    obtain ⟨-, rfl⟩ := Thread.validate_ok.mp built
    exact ⟨built, created_ok, updated_ok, rfl⟩
  · rintro ⟨valid, created_ok, updated_ok, same⟩
    refine ⟨_, created_ok, _, updated_ok, ?_⟩
    rw [← same]
    exact valid

theorem versionsOf_append_self {versions : List ThreadVersionRow} {v : ThreadVersionRow}
    {thread : Uuid × Uuid} (same : (v.workspaceId, v.threadId) = thread) :
    versionsOf (versions ++ [v]) thread = versionsOf versions thread ++ [v] := by
  simp [versionsOf, List.filter_append, same]

theorem versionsOf_append_other {versions : List ThreadVersionRow} {v : ThreadVersionRow}
    {thread : Uuid × Uuid} (other : (v.workspaceId, v.threadId) ≠ thread) :
    versionsOf (versions ++ [v]) thread = versionsOf versions thread := by
  simp [versionsOf, List.filter_append, other]

theorem threadRow_eq_some {workspaceId threadId : Uuid} {row : ThreadRow × ThreadVersionRow} :
    s.threadRow workspaceId threadId = some row ↔
      s.threads.get? (workspaceId, threadId) = some row.1 ∧
        (versionsOf s.threadVersions.rows (workspaceId, threadId)).argmax (·.version) =
          some row.2 := by
  obtain ⟨row, version⟩ := row
  simp [Store.threadRow, Option.bind_eq_some_iff]

/-- The row of a thread is the one before if neither it nor its versions have changed. -/
theorem threadRow_congr {workspaceId threadId : Uuid}
    (threads : s'.threads.get? (workspaceId, threadId) = s.threads.get? (workspaceId, threadId))
    (versions : versionsOf s'.threadVersions.rows (workspaceId, threadId) =
      versionsOf s.threadVersions.rows (workspaceId, threadId)) :
    s'.threadRow workspaceId threadId = s.threadRow workspaceId threadId := by
  rw [Store.threadRow, Store.threadRow, threads, versions]

/-- The rows of a thread that is created. -/
theorem ThreadsIntact.threadRow_created (intact : ThreadsIntact M h) {thread : Thread}
    {threads : Table ThreadRow} {versions : Table ThreadVersionRow} {workspaceId threadId : Uuid}
    (row : threads.rows = h.store.threads.rows ++ [thread.row])
    (version : versions.rows = h.store.threadVersions.rows ++ [thread.versionRow])
    (same : key thread = (workspaceId, threadId)) :
    { h.store with threads := threads, threadVersions := versions }.threadRow workspaceId threadId =
      some (thread.row, thread.versionRow) := by
  have absent : h.store.threads.get? (key thread) = none := Table.get?_eq_none_of_append row
  have none_ : versionsOf h.store.threadVersions.rows (workspaceId, threadId) = [] := by
    refine List.filter_eq_nil_iff.mpr fun v mem owner => intact.owned v mem ?_
    rw [of_decide_eq_true owner, ← same]
    exact absent
  refine threadRow_eq_some.mpr ⟨?_, ?_⟩
  · exact (Table.get?_append row _).trans (if_pos same)
  · change (versionsOf versions.rows _).argmax _ = _
    rw [version, versionsOf_append_self same, none_, List.nil_append, List.argmax_singleton]

/-- The rows of a thread that is archived. -/
theorem threadRow_archived {workspaceId threadId : Uuid} {row : ThreadRow × ThreadVersionRow}
    {versions : Table ThreadVersionRow} {v : ThreadVersionRow}
    (found : s.threadRow workspaceId threadId = some row)
    (version : versions.rows = s.threadVersions.rows ++ [v])
    (same : (v.workspaceId, v.threadId) = (workspaceId, threadId))
    (newer : row.2.version < v.version) :
    { s with threadVersions := versions }.threadRow workspaceId threadId = some (row.1, v) := by
  obtain ⟨there, newest⟩ := threadRow_eq_some.mp found
  refine threadRow_eq_some.mpr ⟨there, ?_⟩
  change (versionsOf versions.rows _).argmax _ = _
  rw [version, versionsOf_append_self same]
  refine argmax_append fun w mem => ?_
  have le : w.version ≤ row.2.version := List.le_of_mem_argmax mem newest
  exact Nat.lt_of_le_of_lt le newer

/-- A thread that is created. -/
theorem ThreadsIntact.created (intact : ThreadsIntact M h) {thread : Thread}
    {threads : Table ThreadRow} {versions : Table ThreadVersionRow}
    (valid : thread.validate = .ok thread)
    (row : threads.rows = h.store.threads.rows ++ [thread.row])
    (version : versions.rows = h.store.threadVersions.rows ++ [thread.versionRow])
    (reads : ReadsBack M thread.createdAt ∧ ReadsBack M thread.updatedAt) :
    ThreadsIntact M (h.next { h.store with threads := threads, threadVersions := versions }
      (.thread thread)) := by
  constructor
  · intro workspaceId threadId
    rw [History.threads_next]
    by_cases same : key thread = (workspaceId, threadId)
    · have found : (h.next { h.store with threads := threads, threadVersions := versions }
          (.thread thread)).store.threadRow workspaceId threadId =
          some (thread.row, thread.versionRow) := intact.threadRow_created row version same
      have last : latest key (h.threads ++ (Entity.thread thread).thread?.toList)
          (workspaceId, threadId) = some thread := latest_append_self same
      rw [found, Option.map_some, threadFromRow_row reads.1 reads.2, valid, last, Option.map_some]
    · have before : (h.next { h.store with threads := threads, threadVersions := versions }
          (.thread thread)).store.threadRow workspaceId threadId =
          h.store.threadRow workspaceId threadId := by
        refine threadRow_congr ((Table.get?_append row _).trans (if_neg same)) ?_
        change versionsOf versions.rows _ = _
        rw [version]
        exact versionsOf_append_other same
      have last : latest key (h.threads ++ (Entity.thread thread).thread?.toList)
          (workspaceId, threadId) = latest key h.threads (workspaceId, threadId) :=
        latest_append_other same
      rw [before, intact.current, last]
  · intro v mem
    have get : threads.get? (v.workspaceId, v.threadId) = if key thread.row =
        (v.workspaceId, v.threadId) then some thread.row else
          h.store.threads.get? (v.workspaceId, v.threadId) := Table.get?_append row _
    change threads.get? (v.workspaceId, v.threadId) ≠ none
    have mem : v ∈ versions.rows := mem
    rw [version] at mem
    rw [get]
    split
    · exact Option.some_ne_none _
    · rename_i other
      obtain before | new := List.mem_append.mp mem
      · exact intact.owned v before
      · rw [List.mem_singleton.mp new] at other
        exact absurd rfl other

/-- A thread that is archived. -/
theorem ThreadsIntact.archived (intact : ThreadsIntact M h) {workspaceId threadId : Uuid}
    {row : ThreadRow × ThreadVersionRow} {current archived : Thread} {updatedAt : Datetime}
    {versions : Table ThreadVersionRow}
    (found : h.store.threadRow workspaceId threadId = some row)
    (read : threadFromRow M row = .ok current)
    (copy : archived = { current with
      status := .archived, version := current.version + 1, updatedAt := updatedAt })
    (version : versions.rows = h.store.threadVersions.rows ++
      [{ archived.versionRow with workspaceId := workspaceId, threadId := threadId }])
    (reads : ReadsBack M updatedAt) (chronological : ∀ createdAt,
      M.time row.1.createdAt = .ok createdAt →
        ∃ time, updatedAt = .aware time ∧ createdAt.instant ≤ time.instant) :
    ThreadsIntact M (h.next { h.store with threadVersions := versions } (.thread archived)) := by
  obtain ⟨there, newest⟩ := threadRow_eq_some.mp found
  obtain ⟨row_there, row_key⟩ := Table.get?_eq_some.mp there
  obtain ⟨valid, created_ok, updated_ok, fields⟩ := threadFromRow_ok.mp read
  have current_key : key current = (workspaceId, threadId) := by
    rw [fields]
    exact row_key
  have current_version : current.version = row.2.version := by rw [fields]
  have archived_key : key archived = (workspaceId, threadId) := by
    rw [copy]
    exact current_key
  have archived_valid : archived.validate = .ok archived := by
    obtain ⟨⟨workspace, membership, title, length, created, aware, -, -, -, -⟩, -⟩ :=
      Thread.validate_ok.mp valid
    obtain ⟨time, rfl, order⟩ := chronological created (by
      rw [Models.time, created_ok]
      exact aware)
    rw [copy]
    exact Thread.validate_ok.mpr ⟨⟨workspace, membership, title, length, created, aware, time, rfl,
      Nat.le_add_left _ _, order⟩, rfl⟩
  constructor
  · intro workspace thread
    rw [History.threads_next]
    by_cases same : (workspaceId, threadId) = (workspace, thread)
    · obtain ⟨rfl, rfl⟩ := Prod.mk.inj same
      have newer : (h.next { h.store with threadVersions := versions }
          (.thread archived)).store.threadRow workspaceId threadId = some (row.1,
            { archived.versionRow with workspaceId := workspaceId, threadId := threadId }) := by
        refine threadRow_archived found version rfl ?_
        rw [Thread.versionRow, copy]
        change row.2.version < current.version + 1
        omega
      rw [newer, Option.map_some]
      have last : latest key (h.threads ++ (Entity.thread archived).thread?.toList)
          (workspaceId, threadId) = some archived := latest_append_self archived_key
      rw [last, Option.map_some]
      refine congrArg some (threadFromRow_ok.mpr ⟨archived_valid, ?_, ?_, ?_⟩)
      · rw [copy]
        exact created_ok
      · rw [copy]
        exact datetime_of reads
      · rw [copy, fields]
        rfl
    · have before : (h.next { h.store with threadVersions := versions }
          (.thread archived)).store.threadRow workspace thread =
          h.store.threadRow workspace thread := by
        refine threadRow_congr rfl ?_
        change versionsOf versions.rows _ = _
        rw [version]
        exact versionsOf_append_other same
      rw [before, intact.current]
      have other : latest key (h.threads ++ (Entity.thread archived).thread?.toList)
          (workspace, thread) = latest key h.threads (workspace, thread) :=
        latest_append_other (archived_key.trans_ne same)
      rw [other]
  · intro v mem
    have mem : v ∈ versions.rows := mem
    rw [version] at mem
    obtain before | new := List.mem_append.mp mem
    · exact intact.owned v before
    · rw [List.mem_singleton.mp new]
      change h.store.threads.get? (workspaceId, threadId) ≠ none
      rw [there]
      exact Option.some_ne_none _

theorem ThreadsIntact.next (intact : ThreadsIntact M h) (change : Change d h.store call s' e)
    (legible : call.Legible h.store) (chronological : call.Chronological M h.store) :
    ThreadsIntact M (h.next s' e) := by
  cases change with
  | @thread thread valid threads versions fresh row version =>
    have reads := legible (not_not.mpr fresh)
    exact intact.created valid row version ⟨reads _ List.mem_cons_self,
      reads _ (List.mem_cons_of_mem _ (List.mem_singleton_self _))⟩
  | archive found read copy version =>
    exact intact.archived found read copy version
      (legible id _ (List.mem_singleton_self _)) (chronological _ found)
  | @threadAgain thread valid row existing found read =>
    have current := intact.current thread.workspaceId thread.id
    rw [found, Option.map_some, read] at current
    obtain ⟨last, is_last, same⟩ := Option.map_eq_some_iff.mp current.symm
    obtain rfl := Except.ok.inj same
    refine ⟨fun workspaceId threadId => ?_, intact.owned⟩
    rw [History.threads_next]
    change _ = (latest key (h.threads ++ [last]) _).map _
    rw [latest_again]
    · exact intact.current workspaceId threadId
    · rw [key_of_latest is_last]
      exact is_last
  | _ =>
    refine ⟨?_, intact.owned⟩
    rw [History.threads_next]
    exact (List.append_nil h.threads).symm ▸ intact.current

end Corvus.Conversations
