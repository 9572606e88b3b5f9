import Corvus.Conversations.Readback
import Corvus.Library.Descent

/-!
# Sequences, trees of runs and the lineage of artifacts

The messages of a thread are numbered without a gap, runs form trees and artifacts descend from
those before them. The members of a tree share one root as long as every run that is created names
the root of its parent, which `create_run` does not look at.
-/

namespace Corvus.Conversations

open Relation Run

variable {M : Models} {d : Directory} {s s' : Store} {e : Entity} {h : History} {call : Call M}

/-! ## Links -/

/-- The run that a row belongs to: the root that it names, or itself. -/
def RunRow.root (r : RunRow) : Uuid := r.rootRunId.getD r.id

/-- A run has a parent, both by their keys. -/
def ParentOf (s : Store) (run parent : Uuid × Uuid) : Prop :=
  ∃ r ∈ s.runs.rows, key r = run ∧ r.parentRunId = some parent.2 ∧ parent.1 = run.1

/-- An artifact was made from another one. -/
def Derives (s : Store) (artifact parent : Uuid × Uuid) : Prop :=
  ∃ e ∈ s.lineage, e.owner = artifact ∧ parent = (artifact.1, e.item)

/-- The root of a run by its key. -/
def Store.rootAt (s : Store) (run : Uuid × Uuid) : Option Uuid :=
  (s.runs.get? run).map RunRow.root

/-- A run names the root of its parent. -/
def Store.Rooted (s : Store) (workspaceId : Uuid) (parentRunId rootRunId : Option Uuid) : Prop :=
  ∀ parent ∈ parentRunId, ∃ p ∈ s.runs.rows, key p = (workspaceId, parent) ∧
    rootRunId = some p.root

/-- What is asked of messages, runs and artifacts. -/
structure Ordered (M : Models) (h : History) : Prop where
  sequences : ∀ workspaceId threadId,
    (h.store.messageRows workspaceId threadId).map (·.sequence) =
      List.range' 1 (h.store.messageRows workspaceId threadId).length
  keys : ∀ workspaceId threadId,
    ((h.store.messageRows workspaceId threadId).map (·.idempotencyKey)).Nodup
  replays : ∀ m ∈ h.messages, ∀ d requester version sequence,
    d.requireMembership m.workspaceId requester version = .ok () →
      appendMessage M d h.store { m with sequence := sequence } requester version =
        .ok (h.store, m)
  roots : ∀ r ∈ h.store.runs.rows, h.store.Rooted r.workspaceId r.parentRunId r.rootRunId
  trees : ∀ run, ¬ TransGen (ParentOf h.store) run run
  shared : ∀ run other, EqvGen (ParentOf h.store) run other →
    h.store.rootAt run = h.store.rootAt other
  lineage : ∀ artifact, ¬ TransGen (Derives h.store) artifact artifact

/-! ## Descent -/

theorem item_of_entries {κ : Type} {owner : κ} {ids : List Uuid} {entry : Entry κ}
    (mem : entry ∈ entries owner ids) : entry.item ∈ ids := by
  obtain ⟨i, there, rfl⟩ := List.mem_map.mp mem
  have inside := List.mem_map_of_mem (f := Prod.fst) there
  rwa [List.zipIdx_map_fst] at inside

theorem mem_keys_of_get? {α : Type} {κ : Type} [Keyed α κ] [DecidableEq κ] {t : Table α} {k : κ}
    (there : t.get? k ≠ none) : k ∈ t.rows.map key := by
  obtain ⟨r, found⟩ := Option.ne_none_iff_exists'.mp there
  obtain ⟨mem, rfl⟩ := Table.get?_eq_some.mp found
  exact List.mem_map_of_mem mem

theorem key_notMem_of_append {α : Type} {κ : Type} [Keyed α κ] [DecidableEq κ] {t u : Table α}
    {r : α} (more : u.rows = t.rows ++ [r]) : key r ∉ t.rows.map key := by
  intro there
  obtain ⟨q, mem, same⟩ := List.mem_map.mp there
  exact Table.get?_eq_none.mp (Table.get?_eq_none_of_append more) q mem same

/-- Runs descend from runs before them, and artifacts from artifacts. -/
structure Descended (s : Store) : Prop where
  runs : Descends (ParentOf s) (s.runs.rows.map key)
  artifacts : Descends (Derives s) (s.artifacts.rows.map key)

theorem descended_empty : Descended .empty where
  runs := .nil fun _ _ linked => by
    obtain ⟨r, mem, -⟩ := linked
    exact absurd mem List.not_mem_nil
  artifacts := .nil fun _ _ linked => by
    obtain ⟨e, mem, -⟩ := linked
    exact absurd mem List.not_mem_nil

/-- A valid run is not its own parent. -/
theorem AgentRunRecord.parent_ne {r : AgentRunRecord} (valid : r.validate = .ok r) :
    r.parentRunId ≠ some r.id := by
  simp only [AgentRunRecord.validate, bind_eq_ok, require_eq_ok] at valid
  obtain ⟨_, -, _, -, _, -, _, -, _, -, _, -, _, -, _, parent, -⟩ := valid
  exact parent

/-- The parent of a new run is there. -/
theorem RunBinds.parent {r : AgentRunRecord} {parent : Uuid} (binds : RunBinds d s r)
    (valid : r.validate = .ok r) (named : r.parentRunId = some parent) :
    s.runs.get? (r.workspaceId, parent) ≠ none := by
  obtain ⟨-, -, parents, -⟩ := binds
  obtain same | there := parents parent named
  · rw [same] at named
    exact absurd named (AgentRunRecord.parent_ne valid)
  · exact there

theorem Descended.change (descended : Descended s) (change : Change d s call s' e) :
    Descended s' := by
  cases change with
  | @run run valid runs fresh binds row =>
    refine ⟨?_, descended.artifacts⟩
    change Descends _ (runs.rows.map key)
    have free := key_notMem_of_append row
    rw [row, List.map_append, List.map_singleton]
    refine descended.runs.append free fun a b linked => ?_
    obtain ⟨r, mem, rfl, named, workspace⟩ := linked
    have mem : r ∈ runs.rows := mem
    rw [row] at mem
    obtain old | new := List.mem_append.mp mem
    · exact .inl ⟨r, old, rfl, named, workspace⟩
    · rw [List.mem_singleton.mp new] at named workspace ⊢
      refine .inr ⟨rfl, ?_⟩
      have there := mem_keys_of_get? (binds.parent valid named)
      rwa [show b = (run.workspaceId, b.2) from Prod.ext workspace rfl]
  | @artifact artifact valid _ _ artifacts parents row =>
    refine ⟨descended.runs, ?_⟩
    change Descends _ (artifacts.rows.map key)
    have free := key_notMem_of_append row
    rw [row, List.map_append, List.map_singleton]
    refine descended.artifacts.append free fun a b linked => ?_
    obtain ⟨entry, mem, rfl, rfl⟩ := linked
    obtain old | new := List.mem_append.mp mem
    · exact .inl ⟨entry, old, rfl, rfl⟩
    · rw [owner_of_entries new]
      exact .inr ⟨rfl, mem_keys_of_get? (parents _ (item_of_entries new))⟩
  | _ => exact ⟨descended.runs, descended.artifacts⟩

/-! ## Roots -/

theorem Store.Rooted.mono {workspaceId : Uuid} {parent root : Option Uuid}
    (rooted : s.Rooted workspaceId parent root)
    (more : ∀ r ∈ s.runs.rows, r ∈ s'.runs.rows) : s'.Rooted workspaceId parent root := by
  intro id named
  obtain ⟨p, mem, same, root⟩ := rooted id named
  exact ⟨p, more p mem, same, root⟩

/-- A run that is created names the root of its parent. -/
def Call.Rooted (s : Store) : Call M → Prop
  | .createRun run _ => s.Rooted run.workspaceId run.parentRunId run.rootRunId
  | _ => True

/-- Every run names the root of its parent. -/
def Roots (s : Store) : Prop :=
  ∀ r ∈ s.runs.rows, s.Rooted r.workspaceId r.parentRunId r.rootRunId

theorem Roots.change (roots : Roots s) (change : Change d s call s' e)
    (rooted : ¬ call.Finds s → call.Rooted s) : Roots s' := by
  cases change with
  | @run run valid runs fresh binds row =>
    have more : ∀ r ∈ s.runs.rows, r ∈ runs.rows := by
      intro r mem
      rw [row]
      exact List.mem_append_left _ mem
    intro r mem
    have mem : r ∈ runs.rows := mem
    rw [row] at mem
    obtain old | new := List.mem_append.mp mem
    · exact (roots r old).mono more
    · rw [List.mem_singleton.mp new]
      exact (rooted (not_not.mpr fresh)).mono more
  | _ => exact roots

/-- A run and its parent have one root. -/
theorem Roots.shared (roots : Roots s) {run other : Uuid × Uuid}
    (connected : EqvGen (ParentOf s) run other) : s.rootAt run = s.rootAt other := by
  refine eq_of_connected (f := s.rootAt) ?_ connected
  rintro _ parent ⟨r, mem, rfl, named, workspace⟩
  obtain ⟨p, there, same, root⟩ := roots r mem parent.2 named
  have parent_key : key p = parent := same.trans (Prod.ext workspace.symm rfl)
  rw [Store.rootAt, Store.rootAt, Table.get?_of_mem (t := s.runs) mem, ← parent_key,
    Table.get?_of_mem (t := s.runs) there, Option.map_some, Option.map_some]
  rw [show r.root = r.rootRunId.getD r.id from rfl, root, Option.getD_some]

/-! ## Replays -/

/-- A thread stays where it is. -/
theorem threadRow_persists {workspaceId threadId : Uuid}
    (there : s.threadRow workspaceId threadId ≠ none) (change : Change d s call s' e) :
    s'.threadRow workspaceId threadId ≠ none := by
  obtain ⟨⟨row, newest⟩, found⟩ := Option.ne_none_iff_exists'.mp there
  obtain ⟨found, newest_ok⟩ := threadRow_eq_some.mp found
  have grown : ∀ {versions : List ThreadVersionRow} {v : ThreadVersionRow},
      versions = s.threadVersions.rows ++ [v] →
        ∃ last, (versionsOf versions (workspaceId, threadId)).argmax (·.version) = some last := by
    rintro versions v rfl
    refine Option.ne_none_iff_exists'.mp fun none_ => ?_
    have nothing := List.argmax_eq_none.mp none_
    rw [versionsOf, List.filter_append] at nothing
    have before := (List.append_eq_nil_iff.mp nothing).1
    rw [versionsOf, before] at newest_ok
    exact absurd newest_ok.symm (Option.some_ne_none _)
  cases change with
  | @thread thread _ threads versions fresh inserted version =>
    obtain ⟨last, newest⟩ := grown version
    have get : threads.get? (workspaceId, threadId) = if key thread.row = (workspaceId, threadId)
        then some thread.row else s.threads.get? (workspaceId, threadId) :=
      Table.get?_append inserted _
    have some_ : ∃ row, threads.get? (workspaceId, threadId) = some row := by
      rw [get]
      split
      · exact ⟨_, rfl⟩
      · exact ⟨row, found⟩
    obtain ⟨row, found⟩ := some_
    exact Option.ne_none_iff_exists'.mpr ⟨(row, last), threadRow_eq_some.mpr ⟨found, newest⟩⟩
  | archive _ _ _ version =>
    obtain ⟨last, newest⟩ := grown version
    exact Option.ne_none_iff_exists'.mpr ⟨(row, last), threadRow_eq_some.mpr ⟨found, newest⟩⟩
  | _ => exact there

/-- Every message is in a thread. -/
def Threaded (s : Store) : Prop :=
  ∀ row ∈ s.messages.rows, s.threadRow row.workspaceId row.threadId ≠ none

theorem Threaded.change (threaded : Threaded s) (change : Change d s call s' e) : Threaded s' := by
  have kept : ∀ row ∈ s.messages.rows, s'.threadRow row.workspaceId row.threadId ≠ none :=
    fun row mem => threadRow_persists (threaded row mem) change
  cases change with
  | @message message _ _ _ stored messages thread fresh copy _ inserted =>
    intro row mem
    have mem : row ∈ messages.rows := mem
    rw [inserted] at mem
    obtain old | new := List.mem_append.mp mem
    · exact kept row old
    · rw [List.mem_singleton.mp new, copy]
      exact thread
  | _ => exact kept

/-- The message under a key is the only one. -/
theorem Sequenced.messageUnder (sequenced : Sequenced s) {row : MessageRow}
    (mem : row ∈ s.messages.rows) :
    s.messageUnder row.workspaceId row.threadId row.idempotencyKey = some row := by
  cases found : s.messageUnder row.workspaceId row.threadId row.idempotencyKey with
  | none =>
    have other := List.find?_eq_none.mp found row mem
    exact absurd (decide_eq_true ⟨rfl, rfl, rfl⟩) other
  | some first =>
    obtain ⟨workspace, thread, same⟩ : first.workspaceId = row.workspaceId ∧
        first.threadId = row.threadId ∧ first.idempotencyKey = row.idempotencyKey := by
      simpa using List.find?_some found
    have here := mem_messageRows.mpr ⟨mem, rfl, rfl⟩
    have there := mem_messageRows.mpr ⟨List.mem_of_find?_eq_some found, workspace, thread⟩
    rw [List.inj_on_of_nodup_map (sequenced.keys row.workspaceId row.threadId) there here same]

/-- What is kept of the messages. -/
structure MessagesKept (M : Models) (h : History) : Prop where
  sequenced : Sequenced h.store
  threaded : Threaded h.store
  intact : MessagesIntact M h

/-- A replay returns the stored message. -/
theorem MessagesKept.replays (kept : MessagesKept M h) {m : Message} (mem : m ∈ h.messages)
    {requester : Uuid} {version sequence : Nat}
    (member : d.requireMembership m.workspaceId requester version = .ok ()) :
    appendMessage M d h.store { m with sequence := sequence } requester version =
      .ok (h.store, m) := by
  obtain ⟨row, there, same, read⟩ := kept.intact.mirrors.kept m mem
  have found := kept.sequenced.messageUnder there
  obtain ⟨thread, threadRow⟩ := Option.ne_none_iff_exists'.mp (kept.threaded row there)
  rw [same] at found threadRow
  rw [appendMessage]
  refine bind_eq_ok.mpr ⟨⟨⟩, member, ?_⟩
  refine bind_eq_ok.mpr ⟨thread, present_eq_ok.mpr threadRow, ?_⟩
  have under : h.store.messageUnder m.workspaceId m.threadId m.idempotencyKey =
      some (m.row (m.requestDigest M.toDigests)) := found
  dsimp only
  rw [under]
  refine bind_eq_ok.mpr ⟨⟨⟩, require_of rfl, ?_⟩
  refine bind_eq_ok.mpr ⟨m, ?_, rfl⟩
  rw [← same]
  exact read

/-! ## Runs of the repository -/

/-- What is kept of messages, runs and artifacts. -/
structure OrderKept (M : Models) (h : History) : Prop where
  messages : MessagesKept M h
  descended : Descended h.store
  roots : Roots h.store

theorem orderKept_start : OrderKept M .start where
  messages := ⟨sequenced_empty, fun _ mem => absurd mem List.not_mem_nil, messagesIntact_start⟩
  descended := descended_empty
  roots := fun _ mem => absurd mem List.not_mem_nil

theorem OrderKept.ordered (kept : OrderKept M h) : Ordered M h where
  sequences := fun workspaceId threadId =>
    (kept.messages.sequenced.numbered workspaceId threadId).numbered
  keys := kept.messages.sequenced.keys
  replays := fun _ mem _ _ _ _ member => kept.messages.replays mem member
  roots := kept.roots
  trees := kept.descended.runs.acyclic
  shared := fun _ _ => kept.roots.shared
  lineage := kept.descended.artifacts.acyclic

theorem MessagesKept.next (kept : MessagesKept M h) (change : Change d h.store call s' e)
    (legible : e.message?.isSome → call.Legible h.store) : MessagesKept M (h.next s' e) where
  sequenced := kept.sequenced.change change
  threaded := kept.threaded.change change
  intact := kept.intact.next kept.sequenced change legible

/-- Of a call that returns: the time of a new message is read back, and a new run names the root of
its parent. -/
def Orderly (h : History) (input : Directory × Call M) : Prop :=
  ∀ s' e, input.2.result input.1 h.store = .ok (s', e) →
    (e.message?.isSome → input.2.Legible h.store) ∧
      (¬ input.2.Finds h.store → input.2.Rooted h.store)

theorem OrderKept.step (kept : OrderKept M h) {input : Directory × Call M}
    (orderly : Orderly h input) : OrderKept M (h.step input) := by
  obtain same | ⟨s', e, result, change, same⟩ := h.step_cases input
  · rw [same]
    exact kept
  · rw [same]
    obtain ⟨legible, rooted⟩ := orderly s' e result
    exact ⟨kept.messages.next change legible, kept.descended.change change,
      kept.roots.change change rooted⟩

/-- A directory in which everyone is an active member. -/
def everyone : Directory where
  membership := fun _ _ => some (1, true)
  workspaces := fun _ _ => true
  memberships := fun _ _ _ => true
  projects := fun _ _ => true
  agents := fun _ _ _ => true
  attachments := fun _ _ => true

/-- A message that is read from its row was read back. -/
theorem readsBack_of_message {m : Message} {digest : String}
    (read : messageFromRow M s (m.row digest) = .ok m) : ReadsBack M (.aware m.createdAt) := by
  simp only [messageFromRow, bind_eq_ok] at read
  obtain ⟨time, created, built⟩ := read
  have same : m.createdAt = time := congrArg Message.createdAt (Message.validate_eq built)
  rw [← same] at created
  exact readsBack_of_time created

/-- A message that is replayed has been read back. -/
theorem readsBack_of_replay {m : Message} {requester : Uuid} {version : Nat}
    (sequenced : Sequenced s) (there : m.row (m.requestDigest M.toDigests) ∈ s.messages.rows)
    (replay : appendMessage M d s m requester version = .ok (s', m)) :
    ReadsBack M (.aware m.createdAt) := by
  have under : s.messageUnder m.workspaceId m.threadId m.idempotencyKey =
      some (m.row (m.requestDigest M.toDigests)) := sequenced.messageUnder there
  simp only [appendMessage, bind_eq_ok] at replay
  obtain ⟨_, -, _, -, replay⟩ := replay
  rw [under] at replay
  simp only [bind_eq_ok] at replay
  obtain ⟨_, -, stored, read, same⟩ := replay
  rw [(Prod.mk.inj (Except.ok.inj same)).2] at read
  exact readsBack_of_message read

/-- A step out of order shows. -/
theorem OrderKept.orderly (kept : OrderKept M h) {input : Directory × Call M}
    (ordered : Ordered M (h.step input)) : Orderly h input := by
  obtain ⟨d, call⟩ := input
  intro s' e result
  have same : h.step (d, call) = h.next s' e := by
    rw [History.step, result]
    rfl
  rw [same] at ordered
  have change : Change d h.store call s' e := Call.change result
  have sequenced := kept.messages.sequenced.change change
  constructor
  · intro written fresh t mem
    cases change with
    | @message message _ _ _ stored messages thread _ copy stored_valid row =>
      have digest : message.requestDigest M.toDigests = stored.requestDigest M.toDigests := by
        rw [copy]
        rfl
      have reads : ReadsBack M (.aware stored.createdAt) := by
        refine readsBack_of_replay sequenced ?_
          (ordered.replays stored ?_ everyone stored.id 1 stored.sequence rfl)
        · change _ ∈ messages.rows
          rw [row, digest]
          exact List.mem_append_right _ (List.mem_singleton_self _)
        · rw [History.messages_next]
          exact List.mem_append_right _ (List.mem_singleton_self _)
      rw [List.mem_singleton.mp mem]
      rw [copy] at reads
      exact reads
    | messageAgain found => exact absurd (Option.ne_none_iff_exists'.mpr ⟨_, found⟩) fresh
    | _ => cases written
  · intro fresh
    cases change with
    | @run run valid runs _ binds row =>
      intro parent named
      have mem : run.row (run.requestDigest M.toDigests) ∈ runs.rows := by
        rw [row]
        exact List.mem_append_right _ (List.mem_singleton_self _)
      obtain ⟨p, there, same_key, root⟩ := ordered.roots _ mem parent named
      have there : p ∈ runs.rows := there
      rw [row] at there
      obtain old | new := List.mem_append.mp there
      · exact ⟨p, old, same_key, root⟩
      · rw [List.mem_singleton.mp new] at same_key
        obtain rfl := (Prod.mk.inj same_key).2
        exact absurd named (AgentRunRecord.parent_ne valid)
    | runAgain found => exact absurd (Option.ne_none_iff_exists'.mpr ⟨_, found⟩) fresh
    | _ => trivial

/-- Sequences, replays, trees and lineage are as asked in every state of a run exactly if every new
message is read back and every new run names the root of its parent. -/
theorem ordered_iff (M : Models) (inputs : List (Directory × Call M)) :
    (∀ before, before <+: inputs → Ordered M (exec History.step .start before)) ↔
      Along History.step Orderly .start inputs :=
  throughout_iff (I := OrderKept M) orderKept_start (fun _ _ kept orderly => kept.step orderly)
    (fun _ kept => kept.ordered) fun _ _ kept ordered => kept.orderly ordered

namespace Sample

def zeros : String := String.ofList (List.replicate 64 '0')

def midnight : Aware := ⟨0, 0⟩

/-- One digest for all texts, and the one time that is read. -/
def models : Models where
  sha256 := fun _ => zeros
  uuid5 := fun _ => .ofNat 0
  admits := fun _ => true
  parse := fun text => if text = midnight.isoformat then some (.aware midnight) else none

def workspace : Uuid := .ofNat 1

def user : Uuid := .ofNat 2

def thread : Thread :=
  ⟨.ofNat 3, workspace, 1, none, user, 1, "Plan", .active, .aware midnight, .aware midnight, 1⟩

def message : Message :=
  ⟨.ofNat 4, workspace, .ofNat 3, 1, "Go", zeros, "go", none, [], .system, none, none, none, none,
    midnight⟩

/-- A run of the message with its parent and its root. -/
def run (id : Nat) (parent root : Option Nat) : AgentRunRecord :=
  ⟨.ofNat id, workspace, .ofNat 3, 1, user, 1, .ofNat 5, zeros, .ofNat 6, 1, zeros, zeros,
    String.ofList (List.replicate id 'r'), parent.map .ofNat, root.map .ofNat, midnight⟩

theorem thread_valid : thread.validate = .ok thread := by decide

theorem message_valid : message.validate models.toDigests = .ok message := by decide

theorem first_valid : (run 11 none none).validate = .ok (run 11 none none) := by decide

/-- Two runs without a parent, and a run under the first one that names the second as its root. -/
def otherRoot : List (Directory × Call models) := [
  (everyone, .createThread thread thread_valid),
  (everyone, .appendMessage message message_valid user 1),
  (everyone, .createRun (run 11 none none) first_valid),
  (everyone, .createRun (run 12 none none) (by decide)),
  (everyone, .createRun (run 13 (some 11) (some 12)) (by decide))]

end Sample

/-- A run that names another root than its parent. -/
theorem not_ordered_of_runs (runs : h.store.runs.rows.map (fun r => (r.id, r.parentRunId,
    r.rootRunId)) = [(.ofNat 11, none, none), (.ofNat 12, none, none),
      (.ofNat 13, some (.ofNat 11), some (.ofNat 12))]) : ¬ Ordered M h := by
  intro ordered
  have last : (Uuid.ofNat 13, some (Uuid.ofNat 11), some (Uuid.ofNat 12)) ∈
      h.store.runs.rows.map (fun r => (r.id, r.parentRunId, r.rootRunId)) := by
    rw [runs]
    decide
  obtain ⟨r, mem, fields⟩ := List.mem_map.mp last
  obtain ⟨-, rest⟩ := Prod.mk.inj fields
  obtain ⟨parent, root⟩ := Prod.mk.inj rest
  obtain ⟨p, there, same_key, named⟩ := ordered.roots r mem (.ofNat 11) parent
  have first := List.mem_map_of_mem (f := fun r : RunRow => (r.id, r.parentRunId, r.rootRunId))
    there
  have id : p.id = .ofNat 11 := (Prod.mk.inj same_key).2
  rw [runs] at first
  rw [id] at first
  have none_ : p.rootRunId = none := by
    simp only [List.mem_cons, Prod.mk.injEq, List.not_mem_nil, or_false] at first
    obtain ⟨-, -, none_⟩ | ⟨other, -⟩ | ⟨other, -⟩ := first
    · exact none_
    · exact absurd other (by decide)
    · exact absurd other (by decide)
  rw [root, RunRow.root, none_, id] at named
  exact absurd named (by decide)

/-- A run may be stored under a root that is not the one of its parent. -/
theorem root_of_another_tree : ¬ ∀ before, before <+: Sample.otherRoot →
    Ordered Sample.models (exec History.step .start before) := by
  intro ordered
  refine not_ordered_of_runs ?_ (ordered Sample.otherRoot (List.prefix_refl _))
  decide

end Corvus.Conversations
