import Corvus.Conversations.Repository
import Corvus.Library.Run

/-!
# Runs of the repository

Calls of the methods that write, in any order, each with what the tables of other repositories hold
at its time. A history has the store with the records that the calls have returned.
-/

namespace Corvus.Conversations

/-- What a call has returned. -/
inductive Entity where
  | thread (t : Thread)
  | message (m : Message)
  | run (r : AgentRunRecord)
  | event (r : RunEventRecord)
  | artifact (a : RunArtifact)
deriving DecidableEq

/-- An event record as its models let it pass: the members of its payload are in the order of their
names. -/
structure RunEventRecord.Valid (M : Models) (r : RunEventRecord) : Prop where
  event : validateEvent M r.event = .ok r.event
  record : r.validate = .ok r
  payload : (Json.obj r.event.redactedPayload).Canonical

/-- A call of a method that writes, with records that are valid as their models have it. -/
inductive Call (M : Models) where
  | createThread (thread : Thread) (valid : thread.validate = .ok thread)
  | archiveThread (workspaceId threadId : Uuid) (expectedVersion : Nat)
      (requesterPrincipalId : Uuid) (requesterMembershipVersion : Nat) (updatedAt : Datetime)
  | appendMessage (message : Message) (valid : message.validate M.toDigests = .ok message)
      (requesterPrincipalId : Uuid) (requesterMembershipVersion : Nat)
  | createRun (run : AgentRunRecord) (valid : run.validate = .ok run)
  | appendEvent (record : RunEventRecord) (valid : record.Valid M)
      (requesterPrincipalId : Uuid) (requesterMembershipVersion : Nat)
  | recordArtifact (artifact : RunArtifact) (valid : artifact.validate M.toDigests = .ok artifact)
      (requesterPrincipalId : Uuid) (requesterMembershipVersion : Nat)

variable {M : Models} {d : Directory} {s s' : Store} {e : Entity}

/-- What a call returns, with the new tables, or what it raises. -/
def Call.result (d : Directory) (s : Store) : Call M → Except Raised (Store × Entity)
  | .createThread thread _ => Prod.map id .thread <$> Conversations.createThread M d s thread
  | .archiveThread workspaceId threadId expectedVersion principal version updatedAt =>
      Prod.map id .thread <$> Conversations.archiveThread M d s workspaceId threadId expectedVersion
        principal version updatedAt
  | .appendMessage message _ principal version =>
      Prod.map id .message <$> Conversations.appendMessage M d s message principal version
  | .createRun run _ => Prod.map id .run <$> Conversations.createRun M d s run
  | .appendEvent record _ principal version =>
      Prod.map id .event <$> Conversations.appendEvent M d s record principal version
  | .recordArtifact artifact _ principal version =>
      Prod.map id .artifact <$> Conversations.recordArtifact M d s artifact principal version

structure History where
  store : Store
  /-- What the calls have returned, in their order. -/
  written : List Entity

def History.start : History := ⟨.empty, []⟩

/-- One call. -/
def History.step (h : History) (input : Directory × Call M) : History :=
  match input.2.result input.1 h.store with
  | .ok (store, entity) => ⟨store, h.written ++ [entity]⟩
  | .error _ => h

/-! ## What a call does -/

/-- What a call has done that returned a record: it has found it, or appended its rows. -/
inductive Change (d : Directory) (s : Store) : Call M → Store → Entity → Prop where
  | threadAgain {thread valid row existing}
      (found : s.threadRow thread.workspaceId thread.id = some row)
      (read : threadFromRow M row = .ok existing) :
      Change d s (.createThread thread valid) s (.thread existing)
  | thread {thread valid} {threads : Table ThreadRow} {versions : Table ThreadVersionRow}
      (fresh : s.threadRow thread.workspaceId thread.id = none)
      (row : threads.rows = s.threads.rows ++ [thread.row])
      (version : versions.rows = s.threadVersions.rows ++ [thread.versionRow]) :
      Change d s (.createThread thread valid)
        { s with threads := threads, threadVersions := versions } (.thread thread)
  | archive {workspaceId threadId expectedVersion principal membershipVersion updatedAt row}
      {current archived : Thread} {versions : Table ThreadVersionRow}
      (found : s.threadRow workspaceId threadId = some row)
      (read : threadFromRow M row = .ok current)
      (copy : archived = { current with
        status := .archived, version := current.version + 1, updatedAt := updatedAt })
      (version : versions.rows = s.threadVersions.rows ++
        [{ archived.versionRow with workspaceId := workspaceId, threadId := threadId }]) :
      Change d s (.archiveThread workspaceId threadId expectedVersion principal membershipVersion
        updatedAt) { s with threadVersions := versions } (.thread archived)
  | messageAgain {message valid principal version row stored}
      (found : s.messageUnder message.workspaceId message.threadId message.idempotencyKey =
        some row)
      (read : messageFromRow M s row = .ok stored) :
      Change d s (.appendMessage message valid principal version) s (.message stored)
  | message {message valid principal version} {stored : Message} {messages : Table MessageRow}
      (thread : s.threadRow message.workspaceId message.threadId ≠ none)
      (fresh : s.messageUnder message.workspaceId message.threadId message.idempotencyKey = none)
      (copy : stored = { message with
        sequence := s.nextSequence message.workspaceId message.threadId })
      (stored_valid : stored.validate M.toDigests = .ok stored)
      (row : messages.rows = s.messages.rows ++ [stored.row (message.requestDigest M.toDigests)]) :
      Change d s (.appendMessage message valid principal version)
        { s with
          messages := messages
          messageAttachments := s.messageAttachments ++
            entries (stored.workspaceId, stored.threadId, stored.sequence) stored.attachmentIds }
        (.message stored)
  | runAgain {run valid row stored}
      (found : s.runUnder run.workspaceId run.threadId run.idempotencyKey = some row)
      (read : runFromRow M row = .ok stored) :
      Change d s (.createRun run valid) s (.run stored)
  | run {run valid} {runs : Table RunRow}
      (fresh : s.runUnder run.workspaceId run.threadId run.idempotencyKey = none)
      (binds : RunBinds d s run)
      (row : runs.rows = s.runs.rows ++ [run.row (run.requestDigest M.toDigests)]) :
      Change d s (.createRun run valid) { s with runs := runs } (.run run)
  | eventAgain {record valid principal version row replay}
      (found : record.event.providerEventId.bind
        (s.eventUnder record.workspaceId record.runId) = some row)
      (read : eventFromRow M row = .ok replay) :
      Change d s (.appendEvent record valid principal version) s (.event replay)
  | event {record valid principal version run} {stored : RunEventRecord} {prior state}
      {events : Table EventRow}
      (run_there : s.runs.get? (record.workspaceId, record.runId) = some run)
      (same_thread : run.threadId = record.threadId)
      (fresh : record.event.providerEventId.bind
        (s.eventUnder record.workspaceId record.runId) = none)
      (copy : stored = { record with
        event := nextEvent M (s.lastEvent record.workspaceId record.runId) record.event })
      (event_valid : validateEvent M stored.event = .ok stored.event)
      (record_valid : stored.validate = .ok stored)
      (read : (bySequence (s.eventRows record.workspaceId record.runId)).mapM (eventFromRow M) =
        .ok prior)
      (accepted : Agent.validateAgentRunEventChain M.toDigests
        (prior.map (·.event) ++ [stored.event]) = .ok state)
      (row : events.rows = s.events.rows ++ [stored.row]) :
      Change d s (.appendEvent record valid principal version) { s with events := events }
        (.event stored)
  | artifactAgain {artifact valid principal version row value}
      (found : s.artifacts.get? (artifact.workspaceId, artifact.id) = some row)
      (read : artifactFromRow M s row = .ok value) :
      Change d s (.recordArtifact artifact valid principal version) s (.artifact value)
  | artifact {artifact valid principal version} {artifacts : Table ArtifactRow}
      (parents : ∀ parent ∈ artifact.parentArtifactIds,
        s.artifacts.get? (artifact.workspaceId, parent) ≠ none)
      (row : artifacts.rows = s.artifacts.rows ++ [artifact.row]) :
      Change d s (.recordArtifact artifact valid principal version)
        { s with
          artifacts := artifacts
          lineage := s.lineage ++
            entries (artifact.workspaceId, artifact.id) artifact.parentArtifactIds }
        (.artifact artifact)

/-! ### One method after the other -/

theorem positive_ok {n : Nat} {u : Unit} : positive n = .ok u ↔ 1 ≤ n := require_eq_ok

/-- What a constructor gives back is what it was given. -/
theorem Message.validate_eq {m stored : Message}
    (built : m.validate M.toDigests = .ok stored) : stored = m := by
  simp only [Message.validate, bind_eq_ok] at built
  obtain ⟨_, -, _, -, _, -, _, -, _, -, _, -, _, -, _, -, _, -, _, -, same⟩ := built
  exact (Except.ok.inj same).symm

theorem RunEventRecord.validate_eq {r stored : RunEventRecord} (built : r.validate = .ok stored) :
    stored = r := by
  simp only [RunEventRecord.validate, bind_eq_ok] at built
  obtain ⟨_, -, _, -, same⟩ := built
  exact (Except.ok.inj same).symm

theorem validateEvent_eq {e stored : Agent.AgentRunEvent}
    (built : validateEvent M e = .ok stored) : stored = e := by
  simp only [validateEvent, bind_eq_ok] at built
  obtain ⟨_, -, _, -, _, -, _, -, _, -, _, -, _, -, _, -, _, -, _, -, _, -, same⟩ := built
  exact (Except.ok.inj same).symm

theorem createThread_change {thread : Thread} {valid : thread.validate = .ok thread} {t : Thread}
    (result : createThread M d s thread = .ok (s', t)) :
    Change (M := M) d s (.createThread thread valid) s' (.thread t) := by
  rw [createThread, bind_eq_ok] at result
  obtain ⟨_, -, result⟩ := result
  split at result
  · rename_i row found
    simp only [bind_eq_ok] at result
    obtain ⟨existing, read, _, -, same⟩ := result
    obtain ⟨rfl, rfl⟩ := Prod.mk.inj (Except.ok.inj same)
    exact .threadAgain found read
  · rename_i fresh
    simp only [bind_eq_ok, present_eq_ok, Table.insert?_eq_some] at result
    obtain ⟨_, -, _, -, threads, ⟨-, row⟩, versions, ⟨-, version⟩, same⟩ := result
    obtain ⟨rfl, rfl⟩ := Prod.mk.inj (Except.ok.inj same)
    exact .thread fresh row version

theorem archiveThread_change {workspaceId threadId principal : Uuid}
    {expectedVersion membershipVersion : Nat} {updatedAt : Datetime} {t : Thread}
    (result : archiveThread M d s workspaceId threadId expectedVersion principal membershipVersion
      updatedAt = .ok (s', t)) :
    Change (M := M) d s (.archiveThread workspaceId threadId expectedVersion principal
      membershipVersion updatedAt) s' (.thread t) := by
  simp only [archiveThread, bind_eq_ok, present_eq_ok, Table.insert?_eq_some] at result
  obtain ⟨_, -, row, found, current, read, _, -, _, -, _, -, versions, ⟨-, version⟩, same⟩ := result
  obtain ⟨rfl, rfl⟩ := Prod.mk.inj (Except.ok.inj same)
  exact .archive found read rfl version

theorem appendMessage_change {message stored : Message}
    {valid : message.validate M.toDigests = .ok message} {principal : Uuid} {version : Nat}
    (result : appendMessage M d s message principal version = .ok (s', stored)) :
    Change (M := M) d s (.appendMessage message valid principal version) s' (.message stored) := by
  simp only [appendMessage, bind_eq_ok, present_eq_ok] at result
  obtain ⟨_, -, row, thread, result⟩ := result
  split at result
  · rename_i row found
    simp only [bind_eq_ok] at result
    obtain ⟨_, -, again, read, same⟩ := result
    obtain ⟨rfl, rfl⟩ := Prod.mk.inj (Except.ok.inj same)
    exact .messageAgain found read
  · rename_i fresh
    simp only [bind_eq_ok, present_eq_ok, Table.insert?_eq_some] at result
    obtain ⟨_, -, built, validated, _, -, messages, ⟨-, inserted⟩, same⟩ := result
    obtain rfl := Message.validate_eq validated
    obtain ⟨rfl, rfl⟩ := Prod.mk.inj (Except.ok.inj same)
    refine .message ?_ fresh rfl validated inserted
    rw [thread]
    exact Option.some_ne_none row

theorem createRun_change {run : AgentRunRecord} {valid : run.validate = .ok run}
    {r : AgentRunRecord} (result : createRun M d s run = .ok (s', r)) :
    Change (M := M) d s (.createRun run valid) s' (.run r) := by
  rw [createRun, bind_eq_ok] at result
  obtain ⟨_, -, result⟩ := result
  split at result
  · rename_i row found
    simp only [bind_eq_ok] at result
    obtain ⟨_, -, stored, read, same⟩ := result
    obtain ⟨rfl, rfl⟩ := Prod.mk.inj (Except.ok.inj same)
    exact .runAgain found read
  · rename_i fresh
    simp only [bind_eq_ok, present_eq_ok, Table.insert?_eq_some, require_eq_ok] at result
    obtain ⟨_, -, _, binds, runs, ⟨-, inserted⟩, same⟩ := result
    obtain ⟨rfl, rfl⟩ := Prod.mk.inj (Except.ok.inj same)
    exact .run fresh binds inserted

theorem appendEvent_change {record stored : RunEventRecord} {valid : record.Valid M}
    {principal : Uuid} {version : Nat}
    (result : appendEvent M d s record principal version = .ok (s', stored)) :
    Change (M := M) d s (.appendEvent record valid principal version) s' (.event stored) := by
  simp only [appendEvent, bind_eq_ok, present_eq_ok, require_eq_ok] at result
  obtain ⟨_, -, run, run_there, _, same_thread, result⟩ := result
  split at result
  · rename_i row found
    simp only [bind_eq_ok] at result
    obtain ⟨replay, read, _, -, same⟩ := result
    obtain ⟨rfl, rfl⟩ := Prod.mk.inj (Except.ok.inj same)
    exact .eventAgain found read
  · rename_i fresh
    simp only [appendNewEvent, bind_eq_ok] at result
    obtain ⟨_, -, _, -, event, event_valid, built, record_valid, prior, read, result⟩ := result
    obtain rfl := validateEvent_eq event_valid
    obtain rfl := RunEventRecord.validate_eq record_valid
    split at result
    · exact absurd result throw_ne_ok
    · rename_i state accepted
      simp only [bind_eq_ok, present_eq_ok, Table.insert?_eq_some] at result
      obtain ⟨events, ⟨-, inserted⟩, same⟩ := result
      obtain ⟨rfl, rfl⟩ := Prod.mk.inj (Except.ok.inj same)
      exact .event run_there same_thread fresh rfl event_valid record_valid read accepted inserted

theorem recordArtifact_change {artifact a : RunArtifact}
    {valid : artifact.validate M.toDigests = .ok artifact} {principal : Uuid} {version : Nat}
    (result : recordArtifact M d s artifact principal version = .ok (s', a)) :
    Change (M := M) d s (.recordArtifact artifact valid principal version) s' (.artifact a) := by
  simp only [recordArtifact, bind_eq_ok] at result
  obtain ⟨_, -, _, -, result⟩ := result
  split at result
  · rename_i row found
    simp only [bind_eq_ok] at result
    obtain ⟨value, read, _, -, same⟩ := result
    obtain ⟨rfl, rfl⟩ := Prod.mk.inj (Except.ok.inj same)
    exact .artifactAgain found read
  · simp only [bind_eq_ok, present_eq_ok, Table.insert?_eq_some, require_eq_ok] at result
    obtain ⟨_, -, _, parents, artifacts, ⟨-, inserted⟩, same⟩ := result
    obtain ⟨rfl, rfl⟩ := Prod.mk.inj (Except.ok.inj same)
    exact .artifact parents inserted

/-- A call that returns has found a record or appended its rows. -/
theorem Call.change {call : Call M} (result : call.result d s = .ok (s', e)) :
    Change d s call s' e := by
  cases call with
  | createThread thread valid =>
    obtain ⟨⟨_, t⟩, returned, same⟩ := map_ok result
    obtain ⟨rfl, rfl⟩ := Prod.mk.inj same
    exact createThread_change returned
  | archiveThread =>
    obtain ⟨⟨_, t⟩, returned, same⟩ := map_ok result
    obtain ⟨rfl, rfl⟩ := Prod.mk.inj same
    exact archiveThread_change returned
  | appendMessage =>
    obtain ⟨⟨_, m⟩, returned, same⟩ := map_ok result
    obtain ⟨rfl, rfl⟩ := Prod.mk.inj same
    exact appendMessage_change returned
  | createRun =>
    obtain ⟨⟨_, r⟩, returned, same⟩ := map_ok result
    obtain ⟨rfl, rfl⟩ := Prod.mk.inj same
    exact createRun_change returned
  | appendEvent =>
    obtain ⟨⟨_, r⟩, returned, same⟩ := map_ok result
    obtain ⟨rfl, rfl⟩ := Prod.mk.inj same
    exact appendEvent_change returned
  | recordArtifact =>
    obtain ⟨⟨_, a⟩, returned, same⟩ := map_ok result
    obtain ⟨rfl, rfl⟩ := Prod.mk.inj same
    exact recordArtifact_change returned

/-- A step of a history: the call raises and changes nothing, or it is recorded what it returns. -/
theorem History.step_cases (h : History) (input : Directory × Call M) :
    h.step input = h ∨ ∃ s' e, input.2.result input.1 h.store = .ok (s', e) ∧
      Change input.1 h.store input.2 s' e ∧ h.step input = ⟨s', h.written ++ [e]⟩ := by
  rw [History.step]
  split
  · rename_i s' e result
    exact .inr ⟨s', e, result, Call.change result, rfl⟩
  · exact .inl rfl

end Corvus.Conversations
