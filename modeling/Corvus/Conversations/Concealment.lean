import Corvus.Conversations.Confinement

/-!
# What a refusal tells

A requester asks for a thread or a run that is not there for it: it does not exist, it is in another
workspace, or the authorization denies it. Whether the response is one and the same depends on the
operation, as a denial is always answered in one way, and an absence is not.
-/

namespace Corvus.Conversations

open Run
open Agent (RequestContext)
open Authorization (ClientSurface)

variable {S : ServiceModels} {M : Models} {d : Directory} {s : Store}
  {workspaceId threadId runId principal : Uuid} {context : RequestContext}

/-! ## Reads of one thread or run -/

inductive ReadOperation where
  | getThread (threadId : Uuid)
  | listMessages (threadId : Uuid)
  | getRun (runId : Uuid)
  | pageEvents (runId : Uuid) (afterSequence limit : Int)
  | listArtifacts (runId : Uuid)

namespace ReadOperation

def operation : ReadOperation → Operation S
  | getThread threadId => .getThread threadId
  | listMessages threadId => .listMessages threadId
  | getRun runId => .getRun runId
  | pageEvents runId afterSequence limit => .pageEvents runId afterSequence limit
  | listArtifacts runId => .listArtifacts runId

def action : ReadOperation → String
  | getThread _ => "conversation.read_thread"
  | listMessages _ => "conversation.list_messages"
  | getRun _ => "conversation.read_run"
  | pageEvents .. => "conversation.page_events"
  | listArtifacts _ => "conversation.list_artifacts"

def resourceId : ReadOperation → Uuid
  | getThread threadId | listMessages threadId => threadId
  | getRun runId | pageEvents runId _ _ | listArtifacts runId => runId

/-- What is asked for is not in a workspace. -/
def Missing (s : Store) (workspaceId : Uuid) : ReadOperation → Prop
  | getThread threadId | listMessages threadId => s.threads.get? (workspaceId, threadId) = none
  | getRun runId | pageEvents runId _ _ | listArtifacts runId =>
      s.runs.get? (workspaceId, runId) = none

/-- The operations that return one record. -/
def isGet : ReadOperation → Bool
  | getThread _ | getRun _ => true
  | _ => false

end ReadOperation

/-- Where a request is made: what has been served before, and what the ports and the tables of other
repositories have for it. -/
structure Situation (S : ServiceModels) where
  before : List (ServiceRequest S)
  service : ConversationService
  directory : Directory

namespace Situation

variable (x : Situation S) (context : RequestContext) (surface : ClientSurface)
  (read : ReadOperation)

def tables : Tables := exec Tables.step .empty x.before

/-- The response to a read. -/
def response : Except Uncaught ConversationResponse :=
  (x.tables.serve ⟨x.service, x.directory, context, surface, read.operation (S := S)⟩).2

/-- The authorization lets a read through. -/
def Lets : Prop := x.service.Lets context surface read.action read.resourceId

/-- What is asked for does not exist, is in another workspace, or is denied. -/
def Hides : Prop :=
  read.Missing x.tables.store context.workspaceId ∨ ¬ x.Lets context surface read

end Situation

/-! ## Answers -/

/-- The answer to a read of what is not there. -/
def absent (context : RequestContext) : ReadOperation → ConversationResponse
  | .getThread _ | .getRun _ => failure context "conversation_not_found"
  | .listMessages _ => success context "messages_listed"
  | .listArtifacts _ => success context "artifacts_listed"
  | .pageEvents _ afterSequence limit =>
      if afterSequence < 0 ∨ ¬ (1 ≤ limit ∧ limit ≤ 1000) then
        failure context "conversation_cursor_invalid"
      else failure context "run_not_found"

/-- Only of one record that is not there the answer is that of a denial. -/
theorem absent_eq_iff {read : ReadOperation} :
    absent context read = failure context "conversation_not_found" ↔ read.isGet = true := by
  cases read with
  | getThread => exact ⟨fun _ => rfl, fun _ => rfl⟩
  | getRun => exact ⟨fun _ => rfl, fun _ => rfl⟩
  | listMessages =>
    refine ⟨fun same => ?_, fun get => by cases get⟩
    have ok : true = false := congrArg ConversationResponse.ok same
    cases ok
  | listArtifacts =>
    refine ⟨fun same => ?_, fun get => by cases get⟩
    have ok : true = false := congrArg ConversationResponse.ok same
    cases ok
  | pageEvents runId afterSequence limit =>
    refine ⟨fun same => ?_, fun get => by cases get⟩
    have reason := congrArg ConversationResponse.reasonCode same
    rw [absent] at reason
    split at reason
    · have reason : "conversation_cursor_invalid" = "conversation_not_found" := reason
      exact absurd reason (by decide)
    · have reason : "run_not_found" = "conversation_not_found" := reason
      exact absurd reason (by decide)

theorem getThread_missing (missing : s.threads.get? (workspaceId, threadId) = none) :
    getThread M d s workspaceId threadId principal = .ok none := by
  rw [getThread]
  split
  · next found =>
    rw [(threadRow_eq_some.mp found).1] at missing
    cases missing
  · rfl

theorem getRun_missing (missing : s.runs.get? (workspaceId, runId) = none) :
    getRun M d s workspaceId runId principal = .ok none := by
  rw [getRun, missing]
  cases d.currentMembership workspaceId principal with
  | none => rfl
  | some version => rfl

theorem listMessages_missing (threaded : Threaded s)
    (missing : s.threads.get? (workspaceId, threadId) = none) :
    listMessages M d s workspaceId threadId principal = .ok [] := by
  have none_ : s.messageRows workspaceId threadId = [] := by
    refine List.eq_nil_iff_forall_not_mem.mpr fun row mem => ?_
    obtain ⟨there, rfl, rfl⟩ := mem_messageRows.mp mem
    obtain ⟨thread, found⟩ := Option.ne_none_iff_exists'.mp (threaded row there)
    rw [(threadRow_eq_some.mp found).1] at missing
    cases missing
  rw [listMessages, none_]
  split
  · rfl
  · rfl

theorem listArtifacts_missing (linked : Linked s)
    (missing : s.runs.get? (workspaceId, runId) = none) :
    listArtifacts M d s workspaceId runId principal = .ok [] := by
  have none_ : s.artifacts.rows.filter (fun r => r.workspaceId = workspaceId ∧ r.runId = runId) =
      [] := by
    refine List.filter_eq_nil_iff.mpr fun row mem kind => ?_
    obtain ⟨rfl, rfl⟩ := of_decide_eq_true kind
    obtain ⟨T, run, there, -⟩ := linked.artifacts row mem
    rw [there] at missing
    cases missing
  rw [listArtifacts, none_]
  split
  · rfl
  · rfl

theorem pageEvents_missing {afterSequence limit : Int}
    (missing : s.runs.get? (workspaceId, runId) = none) :
    pageEventsOf d M s workspaceId runId principal afterSequence limit =
      .error (.repository (if afterSequence < 0 ∨ ¬ (1 ≤ limit ∧ limit ≤ 1000)
        then "conversation_cursor_invalid" else "run_not_found")) := by
  rw [pageEventsOf]
  by_cases negative : afterSequence < 0 ∨ limit < 0
  · rw [if_pos negative, if_pos]
    omega
  · rw [if_neg negative, pageEvents, pageBounds]
    by_cases fits : 1 ≤ limit.toNat ∧ limit.toNat ≤ 1000
    · rw [require_of fits, ok_bind, if_neg (by omega)]
      cases d.currentMembership workspaceId principal with
      | none => rfl
      | some version =>
        rw [missing]
        rfl
    · rw [require_of_not fits, if_pos (by omega)]
      rfl

/-! ## Hidden records -/

theorem threaded_step {tables : Tables} {request : ServiceRequest S}
    (threaded : Threaded tables.store) :
    Threaded (tables.step request).store := by
  obtain same | ⟨d, call, e, returned⟩ := step_called tables request
  · rw [same]
    exact threaded
  · exact threaded.change (Call.change returned)

theorem Situation.linked (x : Situation S) : Linked x.tables.store :=
  preserves (I := fun tables : Tables => Linked tables.store) linked_empty
    (fun _ _ linked => linked.step) x.before

theorem Situation.threaded (x : Situation S) : Threaded x.tables.store :=
  preserves (I := fun tables : Tables => Threaded tables.store)
    (fun _ mem => absurd mem List.not_mem_nil) (fun _ _ threaded => threaded_step threaded) x.before

section

variable {x y : Situation S} {surface : ClientSurface} {read : ReadOperation}

theorem read_denied {service : ConversationService} {action : String} {resourceId : Uuid}
    {answer : ConversationResponse} (denies : ¬ service.Lets context surface action resourceId) :
    service.read context surface action resourceId answer =
      failure context "conversation_not_found" := by
  rw [ConversationService.read]
  split
  · next refused =>
    obtain ⟨reason, rfl⟩ := authorize_error refused
    rfl
  · next decision allowed => exact absurd ⟨decision, allowed⟩ denies

/-- A denial is answered in one way. -/
theorem Situation.denied (denies : ¬ x.Lets context surface read) :
    x.response context surface read = .ok (failure context "conversation_not_found") := by
  cases read with
  | getThread threadId =>
    refine congrArg Except.ok ?_
    rw [ConversationService.getThread]
    split
    · rfl
    · exact read_denied denies
  | _ => exact congrArg Except.ok (read_denied denies)

/-- What is let through and not there is answered by the operation alone. -/
theorem Situation.missing (lets : x.Lets context surface read)
    (missing : read.Missing x.tables.store context.workspaceId) :
    x.response context surface read = .ok (absent context read) := by
  cases read with
  | getThread threadId =>
    refine congrArg Except.ok ?_
    rw [ConversationService.getThread]
    split
    · rfl
    · refine (read_of_lets lets).trans ?_
      rw [getThread_missing missing]
      rfl
  | listMessages threadId =>
    refine congrArg Except.ok ((read_of_lets lets).trans ?_)
    rw [listMessages_missing x.threaded missing]
    rfl
  | getRun runId =>
    refine congrArg Except.ok ((read_of_lets lets).trans ?_)
    rw [getRun_missing missing]
    rfl
  | pageEvents runId afterSequence limit =>
    refine congrArg Except.ok ((read_of_lets lets).trans ?_)
    rw [pageEvents_missing missing]
    exact apply_ite (failure context) _ _ _
  | listArtifacts runId =>
    refine congrArg Except.ok ((read_of_lets lets).trans ?_)
    rw [listArtifacts_missing x.linked missing]
    rfl

/-- The response to a read of what is hidden. -/
theorem Situation.hidden (hides : x.Hides context surface read) :
    x.response context surface read = .ok (absent context read) ∧
        x.Lets context surface read ∨
      x.response context surface read = .ok (failure context "conversation_not_found") ∧
        ¬ x.Lets context surface read := by
  by_cases lets : x.Lets context surface read
  · exact .inl ⟨x.missing lets (hides.resolve_right (not_not.mpr lets)), lets⟩
  · exact .inr ⟨x.denied lets, lets⟩

end

/-- In two situations that both hide what is asked for, the responses are the same. -/
def Conceals (x y : Situation S) (context : RequestContext) (surface : ClientSurface)
    (read : ReadOperation) : Prop :=
  x.Hides context surface read → y.Hides context surface read →
    x.response context surface read = y.response context surface read

/-- Of two situations that both hide it, one record is asked for, or both let the read through or
neither does. -/
def Alike (x y : Situation S) (context : RequestContext) (surface : ClientSurface)
    (read : ReadOperation) : Prop :=
  x.Hides context surface read → y.Hides context surface read →
    read.isGet = true ∨ (x.Lets context surface read ↔ y.Lets context surface read)

/-- Two responses to what is hidden are the same exactly if one record is asked for or the
authorization treats both requests alike. -/
theorem conceals_iff (x y : Situation S) (context : RequestContext) (surface : ClientSurface)
    (read : ReadOperation) :
    Conceals x y context surface read ↔ Alike x y context surface read := by
  refine forall_congr' fun hides => forall_congr' fun hides' => ?_
  have differ : (.ok (absent context read) : Except Uncaught ConversationResponse) =
      .ok (failure context "conversation_not_found") ↔ read.isGet = true :=
    ⟨fun same => absent_eq_iff.mp (Except.ok.inj same),
      fun get => congrArg Except.ok (absent_eq_iff.mpr get)⟩
  obtain ⟨first, lets⟩ | ⟨first, denies⟩ := x.hidden hides
  · obtain ⟨second, lets'⟩ | ⟨second, denies'⟩ := y.hidden hides'
    · rw [first, second]
      exact ⟨fun _ => .inr ⟨fun _ => lets', fun _ => lets⟩, fun _ => rfl⟩
    · rw [first, second, differ]
      refine ⟨.inl, fun alike => alike.resolve_right fun same => ?_⟩
      exact denies' (same.mp lets)
  · obtain ⟨second, lets'⟩ | ⟨second, denies'⟩ := y.hidden hides'
    · rw [first, second, eq_comm, differ]
      refine ⟨.inl, fun alike => alike.resolve_right fun same => ?_⟩
      exact denies (same.mpr lets')
    · rw [first, second]
      exact ⟨fun _ => .inr ⟨fun lets => absurd lets denies, fun lets => absurd lets denies'⟩,
        fun _ => rfl⟩

namespace Sample

/-- Nothing is allowed. -/
def denying : ConversationService where
  authorization := fun request => some ⟨false, "denied", request.context.authorizationSnapshotId,
    request.context.authorizationSnapshotDigest⟩
  mutationLifecycle := none

/-- A thread that does not exist, and everything is allowed. -/
def nowhere : Situation serviceModels := ⟨[], allowing, everyone⟩

/-- The thread exists, and is denied. -/
def guarded : Situation serviceModels :=
  ⟨[ask 3 (.createThread thread thread_valid)], denying, everyone⟩

end Sample

/-- The list of the messages of a thread tells one that does not exist from one that is denied. -/
theorem existence_shown : ¬ Conceals Sample.nowhere Sample.guarded (Sample.inThread 3) .web
    (.listMessages (.ofNat 3)) := by
  intro conceals
  have denies : ¬ Sample.guarded.Lets (Sample.inThread 3) .web (.listMessages (.ofNat 3)) := by
    rintro ⟨decision, allowed⟩
    cases allowed
  have same := conceals (.inl rfl) (.inr denies)
  rw [Situation.denied denies] at same
  have ok : true = false := congrArg ConversationResponse.ok (Except.ok.inj same)
  cases ok

end Corvus.Conversations
