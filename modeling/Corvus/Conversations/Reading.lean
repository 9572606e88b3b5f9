import Corvus.Conversations.Paging

/-!
# Reading the store

Members of a workspace get, list and page through what was written to it, whatever was written in
between, as long as times are read back from their texts and no thread is archived before it was
created.
-/

namespace Corvus.Conversations

open Run

variable {M : Models} {d : Directory} {s s' : Store} {e : Entity} {h : History} {call : Call M}
  {records : List RunEventRecord} {workspaceId threadId runId requester : Uuid}
  {cursor limit : Nat}

/-! ## What is asked -/

/-- A principal is an active member of a workspace. -/
def Directory.Member (d : Directory) (workspaceId principalId : Uuid) : Prop :=
  d.currentMembership workspaceId principalId ≠ none

theorem Directory.Member.of_some {d : Directory} {workspaceId principalId : Uuid} {version : Nat}
    (member : d.currentMembership workspaceId principalId = some version) :
    d.Member workspaceId principalId := by
  rw [Directory.Member, member]
  exact Option.some_ne_none version

/-- What members read is what was last written. -/
structure Restored (M : Models) (h : History) : Prop where
  thread : ∀ d workspaceId threadId requester, ∃ found,
    getThread M d h.store workspaceId threadId requester = .ok found ∧
      ∀ t, found = some t ↔
        d.Member workspaceId requester ∧ latest key h.threads (workspaceId, threadId) = some t
  threads : ∀ d workspaceId requester, ∃ ts,
    listThreads M d h.store workspaceId requester = .ok ts ∧ (ts.map (·.id)).Nodup ∧
      ∀ t, t ∈ ts ↔
        d.Member workspaceId requester ∧ latest key h.threads (workspaceId, t.id) = some t
  messages : ∀ d workspaceId threadId requester, ∃ ms,
    listMessages M d h.store workspaceId threadId requester = .ok ms ∧
      ms.map (·.sequence) = List.range' 1 ms.length ∧
      ∀ m, m ∈ ms ↔ d.Member workspaceId requester ∧
        m ∈ h.messages ∧ m.workspaceId = workspaceId ∧ m.threadId = threadId
  run : ∀ d workspaceId runId requester, ∃ found,
    getRun M d h.store workspaceId runId requester = .ok found ∧
      ∀ r, found = some r ↔ d.Member workspaceId requester ∧
        r ∈ h.runs ∧ r.workspaceId = workspaceId ∧ r.id = runId
  events : ∀ workspaceId runId, ∃ records,
    storedEvents M h.store workspaceId runId = .ok records ∧
      ∀ r, r ∈ records ↔ r ∈ h.events ∧ r.workspaceId = workspaceId ∧ r.runId = runId
  pages : ∀ d workspaceId runId requester cursor limit b,
    pageBounds d h.store workspaceId runId requester cursor limit = .ok b → ∃ page records,
      pageEvents M d h.store workspaceId runId requester cursor limit = .ok page ∧
        storedEvents M h.store workspaceId runId = .ok records ∧
          page.events = pageOf records cursor limit records.length
  artifacts : ∀ d workspaceId runId requester, ∃ as,
    listArtifacts M d h.store workspaceId runId requester = .ok as ∧ (as.map (·.id)).Nodup ∧
      ∀ a, a ∈ as ↔ d.Member workspaceId requester ∧
        a ∈ h.artifacts ∧ a.workspaceId = workspaceId ∧ a.runId = runId

/-! ## What is kept -/

/-- What is kept of all that was written. -/
structure Intact (M : Models) (h : History) : Prop where
  threads : ThreadsIntact M h
  messages : MessagesKept M h
  runs : RunsIntact M h
  events : EventsKept M h
  artifacts : ArtifactsIntact M h

theorem intact_start : Intact M .start where
  threads := threadsIntact_start
  messages := orderKept_start.messages
  runs := .nil
  events := eventsKept_start
  artifacts := artifactsIntact_start

/-- Of a call that returns: the times that it writes are read back, and a thread is archived after
it was created. -/
def Timely (h : History) (input : Directory × Call M) : Prop :=
  ∀ s' e, input.2.result input.1 h.store = .ok (s', e) →
    input.2.Legible h.store ∧ input.2.Chronological M h.store

theorem Intact.step (intact : Intact M h) {input : Directory × Call M} (timely : Timely h input) :
    Intact M (h.step input) := by
  obtain same | ⟨s', e, result, change, same⟩ := h.step_cases input
  · rw [same]
    exact intact
  · rw [same]
    obtain ⟨legible, chronological⟩ := timely s' e result
    exact {
      threads := intact.threads.next change legible chronological
      messages := intact.messages.next change fun _ => legible
      runs := intact.runs.next change legible
      events := intact.events.next change fun _ => legible
      artifacts := intact.artifacts.next change legible }

/-! ## Threads -/

/-- A thread is read from its row exactly if it was the last one written. -/
theorem ThreadsIntact.read (intact : ThreadsIntact M h) {t : Thread} :
    (∃ row, h.store.threadRow workspaceId threadId = some row ∧ threadFromRow M row = .ok t) ↔
      latest key h.threads (workspaceId, threadId) = some t := by
  have current := intact.current workspaceId threadId
  constructor
  · rintro ⟨row, found, read⟩
    rw [found, Option.map_some, read] at current
    obtain ⟨last, is_last, same⟩ := Option.map_eq_some_iff.mp current.symm
    rwa [Except.ok.inj same] at is_last
  · intro last
    rw [last, Option.map_some] at current
    exact Option.map_eq_some_iff.mp current

theorem ThreadsIntact.read_ok (intact : ThreadsIntact M h) {row : ThreadRow × ThreadVersionRow}
    (found : h.store.threadRow workspaceId threadId = some row) :
    ∃ t, threadFromRow M row = .ok t := by
  have current := intact.current workspaceId threadId
  rw [found, Option.map_some] at current
  obtain ⟨t, -, same⟩ := Option.map_eq_some_iff.mp current.symm
  exact ⟨t, same.symm⟩

theorem ThreadsIntact.get (intact : ThreadsIntact M h) (d : Directory)
    (workspaceId threadId requester : Uuid) : ∃ found,
      getThread M d h.store workspaceId threadId requester = .ok found ∧
        ∀ t, found = some t ↔ d.Member workspaceId requester ∧
          latest key h.threads (workspaceId, threadId) = some t := by
  rw [getThread]
  split
  · rename_i row member found
    obtain ⟨t, read⟩ := intact.read_ok found
    rw [read]
    refine ⟨some t, rfl, fun u => ?_⟩
    have last := intact.read.mp ⟨row, found, read⟩
    rw [last]
    refine ⟨fun same => ⟨?_, same⟩, fun there => there.2⟩
    exact .of_some member
  · rename_i other
    refine ⟨none, rfl, fun u => ⟨fun same => absurd same.symm (Option.some_ne_none u), ?_⟩⟩
    rintro ⟨member, last⟩
    obtain ⟨version, is_member⟩ := Option.ne_none_iff_exists'.mp member
    obtain ⟨row, found, -⟩ := intact.read.mpr last
    exact absurd found (other version row is_member)

theorem mem_byCreation {α : Type} {createdAt : α → String} {id : α → Uuid} {rows : List α}
    {row : α} : row ∈ byCreation createdAt id rows ↔ row ∈ rows :=
  (List.perm_insertionSort _ _).mem_iff

/-- The ids of rows in a workspace are different. -/
theorem nodup_ids {α : Type} [Keyed α (Uuid × Uuid)] {t : Table α} {createdAt : α → String}
    {id : α → Uuid} {p : α → Bool}
    (one : ∀ r s, p r = true → p s = true → id r = id s → key r = key s) :
    ((byCreation createdAt id (t.rows.filter p)).map id).Nodup := by
  refine List.Nodup.map_on (fun r r_mem s s_mem same => ?_) ?_
  · obtain ⟨r_mem, r_kind⟩ := List.mem_filter.mp (mem_byCreation.mp r_mem)
    obtain ⟨s_mem, s_kind⟩ := List.mem_filter.mp (mem_byCreation.mp s_mem)
    exact Table.eq_of_key (t := t) r_mem s_mem (one r s r_kind s_kind same)
  · exact (List.perm_insertionSort _ _).nodup_iff.mpr (t.rows_nodup.filter p)

theorem ThreadsIntact.list (intact : ThreadsIntact M h) (d : Directory)
    (workspaceId requester : Uuid) : ∃ ts,
      listThreads M d h.store workspaceId requester = .ok ts ∧ (ts.map (·.id)).Nodup ∧
        ∀ t, t ∈ ts ↔
          d.Member workspaceId requester ∧ latest key h.threads (workspaceId, t.id) = some t := by
  rw [listThreads]
  split
  · rename_i none_
    refine ⟨[], rfl, List.nodup_nil, fun t => ⟨fun mem => absurd mem List.not_mem_nil, ?_⟩⟩
    exact fun there => absurd none_ there.1
  · rename_i version member
    have is_member : d.Member workspaceId requester := .of_some member
    dsimp only
    generalize ids_eq : (byCreation (·.createdAt) (·.id)
      (h.store.threads.rows.filter (·.workspaceId = workspaceId))).map (·.id) = ids
    have mem_ids : ∀ {id}, h.store.threads.get? (workspaceId, id) ≠ none → id ∈ ids := by
      intro id there
      obtain ⟨row, found⟩ := Option.ne_none_iff_exists'.mp there
      obtain ⟨mem, same⟩ := Table.get?_eq_some.mp found
      obtain ⟨workspace, rfl⟩ := Prod.mk.inj same
      rw [← ids_eq]
      exact List.mem_map_of_mem (mem_byCreation.mpr
        (List.mem_filter.mpr ⟨mem, decide_eq_true workspace⟩))
    have nodup : ids.Nodup := by
      rw [← ids_eq]
      refine nodup_ids fun r s r_kind s_kind same => ?_
      exact Prod.ext ((of_decide_eq_true r_kind).trans (of_decide_eq_true s_kind).symm) same
    obtain ⟨ts, each⟩ : ∃ ts, List.Forall₂ (fun row t => threadFromRow M row = .ok t)
        (ids.filterMap fun id => h.store.threadRow workspaceId id) ts := by
      refine exists_forall₂ fun row mem => ?_
      obtain ⟨id, -, found⟩ := List.mem_filterMap.mp mem
      exact intact.read_ok found
    have row_id : ∀ {id row}, h.store.threadRow workspaceId id = some row → row.1.id = id := by
      intro id row found
      exact (Prod.mk.inj (Table.get?_eq_some.mp (threadRow_eq_some.mp found).1).2).2
    refine ⟨ts, mapM_eq_ok.mpr each, ?_, fun t => ⟨fun mem => ⟨is_member, ?_⟩, ?_⟩⟩
    · rw [← map_eq_of_forall₂ (f := fun row => row.1.id) each fun row t read => by
        rw [(threadFromRow_ok.mp read).2.2.2]]
      refine List.pairwise_map.mpr (List.pairwise_filterMap.mpr ?_)
      refine nodup.imp fun differs row found other found' same => differs ?_
      rw [← row_id found, ← row_id found']
      exact same
    · obtain ⟨row, row_mem, read⟩ := exists_left each mem
      obtain ⟨id, -, found⟩ := List.mem_filterMap.mp row_mem
      have same : t.id = id := by
        rw [(threadFromRow_ok.mp read).2.2.2]
        exact row_id found
      rw [same]
      exact intact.read.mp ⟨row, found, read⟩
    · rintro ⟨-, last⟩
      obtain ⟨row, found, read⟩ := intact.read.mpr last
      have there : row ∈ ids.filterMap fun id => h.store.threadRow workspaceId id := by
        refine List.mem_filterMap.mpr ⟨t.id, mem_ids ?_, found⟩
        rw [(threadRow_eq_some.mp found).1]
        exact Option.some_ne_none _
      obtain ⟨u, mem, read'⟩ := exists_right each there
      rwa [Except.ok.inj (read.symm.trans read')]

/-! ## Messages, runs and artifacts -/

theorem MessagesKept.list (kept : MessagesKept M h) (d : Directory)
    (workspaceId threadId requester : Uuid) : ∃ ms,
      listMessages M d h.store workspaceId threadId requester = .ok ms ∧
        ms.map (·.sequence) = List.range' 1 ms.length ∧
        ∀ m, m ∈ ms ↔ d.Member workspaceId requester ∧
          m ∈ h.messages ∧ m.workspaceId = workspaceId ∧ m.threadId = threadId := by
  rw [listMessages]
  split
  · rename_i none_
    refine ⟨[], rfl, rfl, fun m => ⟨fun mem => absurd mem List.not_mem_nil, ?_⟩⟩
    exact fun there => absurd none_ there.1
  · rename_i version member
    have is_member : d.Member workspaceId requester := .of_some member
    have numbered := kept.sequenced.numbered workspaceId threadId
    have sorted : (h.store.messageRows workspaceId threadId).insertionSort
        (·.sequence ≤ ·.sequence) = h.store.messageRows workspaceId threadId :=
      numbered.insertionSort
    obtain ⟨ms, each, all⟩ := kept.intact.mirrors.part
      (P := fun row => row.workspaceId = workspaceId ∧ row.threadId = threadId)
      (Q := fun m => m.workspaceId = workspaceId ∧ m.threadId = threadId)
      (fun row => mem_messageRows) (fun row m related => by rw [related.1]; exact Iff.rfl)
      fun row m n first second => Except.ok.inj (first.2.symm.trans second.2)
    rw [sorted]
    refine ⟨ms, mapM_eq_ok.mpr (each.imp fun _ _ related => related.2), ?_, fun m => ?_⟩
    · rw [← map_eq_of_forall₂ (f := fun row => row.sequence) each fun row m related => by
        rw [related.1]
        rfl, ← each.length_eq]
      exact numbered.numbered
    · rw [all]
      exact ⟨fun there => ⟨is_member, there⟩, fun there => there.2⟩

theorem RunsIntact.get (intact : RunsIntact M h) (d : Directory)
    (workspaceId runId requester : Uuid) : ∃ found,
      getRun M d h.store workspaceId runId requester = .ok found ∧
        ∀ r, found = some r ↔ d.Member workspaceId requester ∧
          r ∈ h.runs ∧ r.workspaceId = workspaceId ∧ r.id = runId := by
  rw [getRun]
  split
  · rename_i version row member found
    obtain ⟨mem, same⟩ := Table.get?_eq_some.mp found
    obtain ⟨r, written, is_row, read⟩ := intact.stands row mem
    rw [read]
    have r_key : (r.workspaceId, r.id) = (workspaceId, runId) := by
      rw [← same, is_row]
      rfl
    refine ⟨some r, rfl, fun u => ⟨fun same => ?_, fun there => ?_⟩⟩
    · obtain rfl := Option.some.inj same
      obtain ⟨same_workspace, same_run⟩ := Prod.mk.inj r_key
      refine ⟨?_, written, same_workspace, same_run⟩
      exact .of_some member
    · obtain ⟨-, u_written, rfl, rfl⟩ := there
      obtain ⟨u_row, u_mem, u_is, u_read⟩ := intact.kept u u_written
      have one : row = u_row := Table.eq_of_key mem u_mem (by
        rw [same, u_is]
        rfl)
      rw [← one] at u_read
      exact congrArg some (Except.ok.inj (read.symm.trans u_read))
  · rename_i other
    refine ⟨none, rfl, fun u => ⟨fun same => absurd same.symm (Option.some_ne_none u), ?_⟩⟩
    rintro ⟨member, written, rfl, rfl⟩
    obtain ⟨version, is_member⟩ := Option.ne_none_iff_exists'.mp member
    obtain ⟨row, mem, is_row, -⟩ := intact.kept u written
    have found := Table.get?_of_mem (t := h.store.runs) mem
    rw [is_row] at found
    exact absurd found (other version _ is_member)

theorem ArtifactsIntact.list (intact : ArtifactsIntact M h) (d : Directory)
    (workspaceId runId requester : Uuid) : ∃ as,
      listArtifacts M d h.store workspaceId runId requester = .ok as ∧ (as.map (·.id)).Nodup ∧
        ∀ a, a ∈ as ↔ d.Member workspaceId requester ∧
          a ∈ h.artifacts ∧ a.workspaceId = workspaceId ∧ a.runId = runId := by
  rw [listArtifacts]
  split
  · rename_i none_
    refine ⟨[], rfl, List.nodup_nil, fun a => ⟨fun mem => absurd mem List.not_mem_nil, ?_⟩⟩
    exact fun there => absurd none_ there.1
  · rename_i version member
    have is_member : d.Member workspaceId requester := .of_some member
    obtain ⟨as, each, all⟩ := intact.mirrors.part
      (l := byCreation (·.createdAt) (·.id) (h.store.artifacts.rows.filter fun r =>
        r.workspaceId = workspaceId ∧ r.runId = runId))
      (P := fun row => row.workspaceId = workspaceId ∧ row.runId = runId)
      (Q := fun a => a.workspaceId = workspaceId ∧ a.runId = runId)
      (fun row => by rw [mem_byCreation, List.mem_filter, decide_eq_true_eq])
      (fun row a related => by rw [related.1]; exact Iff.rfl)
      fun row a b first second => Except.ok.inj (first.2.symm.trans second.2)
    refine ⟨as, mapM_eq_ok.mpr (each.imp fun _ _ related => related.2), ?_, fun a => ?_⟩
    · rw [← map_eq_of_forall₂ (f := fun row => row.id) each fun row a related => by
        rw [related.1]
        rfl]
      refine nodup_ids fun r s r_kind s_kind same => ?_
      exact Prod.ext ((of_decide_eq_true r_kind).1.trans (of_decide_eq_true s_kind).1.symm) same
    · rw [all]
      exact ⟨fun there => ⟨is_member, there⟩, fun there => there.2⟩

theorem Intact.restored (intact : Intact M h) : Restored M h where
  thread := intact.threads.get
  threads := intact.threads.list
  messages := intact.messages.list
  run := intact.runs.get
  events := fun workspaceId runId => by
    obtain ⟨records, chain⟩ := intact.events.chains workspaceId runId
    exact ⟨records, chain.stored, intact.events.mem_iff chain⟩
  pages := fun _ _ _ _ _ _ _ asked => (intact.events.pageEvents asked).2
  artifacts := intact.artifacts.list

/-! ## Runs of the repository -/

/-- What is read from a row of a message. -/
theorem messageFromRow_ok {row : MessageRow} {m : Message} (read : messageFromRow M s row = .ok m) :
    M.time row.createdAt = .ok m.createdAt ∧
      key row = (m.workspaceId, m.threadId, m.sequence) := by
  simp only [messageFromRow, bind_eq_ok] at read
  obtain ⟨time, created, built⟩ := read
  obtain rfl := Message.validate_eq built
  exact ⟨created, rfl⟩

/-- What is read from a row of a run. -/
theorem runFromRow_ok {row : RunRow} {r : AgentRunRecord} (read : runFromRow M row = .ok r) :
    M.time row.createdAt = .ok r.createdAt := by
  simp only [runFromRow, AgentRunRecord.validate, bind_eq_ok] at read
  obtain ⟨time, created, _, -, _, -, _, -, _, -, _, -, _, -, _, -, _, -, _, -, same⟩ := read
  obtain rfl := Except.ok.inj same
  exact created

/-- What is read from a row of an artifact. -/
theorem artifactFromRow_ok {row : ArtifactRow} {a : RunArtifact}
    (read : artifactFromRow M s row = .ok a) :
    M.time row.createdAt = .ok a.createdAt ∧ key row = (a.workspaceId, a.id) := by
  simp only [artifactFromRow, RunArtifact.validate, bind_eq_ok] at read
  obtain ⟨time, created, _, -, _, -, _, -, _, -, _, -, _, -, _, -, _, -, _, -, same⟩ := read
  obtain rfl := Except.ok.inj same
  exact ⟨created, rfl⟩

theorem everyone_member (workspaceId requester : Uuid) : everyone.Member workspaceId requester :=
  Option.some_ne_none _

/-- A thread that is got has been read from its row. -/
theorem read_of_getThread {t : Thread} {row : ThreadRow × ThreadVersionRow}
    (got : getThread M d s workspaceId threadId requester = .ok (some t))
    (found : s.threadRow workspaceId threadId = some row) : threadFromRow M row = .ok t := by
  rw [getThread] at got
  split at got
  · rename_i other _ same
    obtain rfl := Option.some.inj (found.symm.trans same)
    obtain ⟨u, read, same⟩ := map_ok got
    rwa [Option.some.inj same] at read
  · cases Except.ok.inj got

/-- The latest thread is the one that everyone gets. -/
theorem Restored.read_thread (restored : Restored M h) {t : Thread}
    {row : ThreadRow × ThreadVersionRow}
    (last : latest key h.threads (workspaceId, threadId) = some t)
    (found : h.store.threadRow workspaceId threadId = some row) : threadFromRow M row = .ok t := by
  obtain ⟨u, got, all⟩ := restored.thread everyone workspaceId threadId (.ofNat 0)
  rw [(all t).mpr ⟨everyone_member _ _, last⟩] at got
  exact read_of_getThread got found

/-- A run that is got has been read from its row. -/
theorem read_of_getRun {r : AgentRunRecord} {row : RunRow}
    (got : getRun M d s workspaceId runId requester = .ok (some r))
    (found : s.runs.get? (workspaceId, runId) = some row) : runFromRow M row = .ok r := by
  rw [getRun] at got
  split at got
  · rename_i other _ same
    obtain rfl := Option.some.inj (found.symm.trans same)
    obtain ⟨u, read, same⟩ := map_ok got
    rwa [Option.some.inj same] at read
  · cases Except.ok.inj got

theorem Restored.reads_message (restored : Restored M h) {m : Message} {digest : String}
    (written : m ∈ h.messages) (mem : m.row digest ∈ h.store.messages.rows) :
    ReadsBack M (.aware m.createdAt) := by
  obtain ⟨ms, listed, -, all⟩ := restored.messages everyone m.workspaceId m.threadId (.ofNat 0)
  have there : m ∈ ms := (all m).mpr ⟨everyone_member _ _, written, rfl, rfl⟩
  obtain ⟨row, row_mem, read⟩ := exists_left (mapM_eq_ok.mp listed) there
  have row_there := (mem_messageRows.mp ((List.perm_insertionSort _ _).mem_iff.mp row_mem)).1
  obtain ⟨time, same_key⟩ := messageFromRow_ok read
  rw [Table.eq_of_key (t := h.store.messages) row_there mem same_key] at time
  exact readsBack_of_time time

theorem Restored.reads_run (restored : Restored M h) {r : AgentRunRecord} {digest : String}
    (written : r ∈ h.runs) (mem : r.row digest ∈ h.store.runs.rows) :
    ReadsBack M (.aware r.createdAt) := by
  obtain ⟨found, got, all⟩ := restored.run everyone r.workspaceId r.id (.ofNat 0)
  rw [(all r).mpr ⟨everyone_member _ _, written, rfl, rfl⟩] at got
  have found : h.store.runs.get? (r.workspaceId, r.id) = some (r.row digest) :=
    Table.get?_of_mem mem
  have read : runFromRow M (r.row digest) = .ok r := read_of_getRun got found
  have time : M.time (r.row digest).createdAt = .ok r.createdAt := runFromRow_ok read
  exact readsBack_of_time time

theorem Restored.reads_event (restored : Restored M h) {r : RunEventRecord}
    (written : r ∈ h.events) (mem : r.row ∈ h.store.events.rows) :
    ReadsBack M (.aware r.timestamp) := by
  obtain ⟨records, read, all⟩ := restored.events r.workspaceId r.runId
  exact readsBack_of_stored read ((all r).mpr ⟨written, rfl, rfl⟩) mem

theorem Restored.reads_artifact (restored : Restored M h) {a : RunArtifact}
    (written : a ∈ h.artifacts) (mem : a.row ∈ h.store.artifacts.rows) :
    ReadsBack M (.aware a.createdAt) := by
  obtain ⟨as, listed, -, all⟩ := restored.artifacts everyone a.workspaceId a.runId (.ofNat 0)
  have there : a ∈ as := (all a).mpr ⟨everyone_member _ _, written, rfl, rfl⟩
  obtain ⟨row, row_mem, read⟩ := exists_left (mapM_eq_ok.mp listed) there
  have row_there := (List.mem_filter.mp (mem_byCreation.mp row_mem)).1
  obtain ⟨time, same_key⟩ := artifactFromRow_ok read
  rw [Table.eq_of_key (t := h.store.artifacts) row_there mem same_key] at time
  exact readsBack_of_time time

/-- A thread whose copy is read was archived at a time that is read back, after its creation. -/
theorem times_of_archived {row : ThreadRow × ThreadVersionRow} {v : ThreadVersionRow}
    {archived : Thread} {updatedAt : Datetime} (read : threadFromRow M (row.1, v) = .ok archived)
    (text : v.updatedAt = updatedAt.isoformat) (same : archived.updatedAt = updatedAt) :
    ReadsBack M updatedAt ∧ ∀ createdAt, M.time row.1.createdAt = .ok createdAt →
      ∃ time, updatedAt = .aware time ∧ createdAt.instant ≤ time.instant := by
  obtain ⟨valid, created, updated, -⟩ := threadFromRow_ok.mp read
  obtain ⟨⟨-, -, -, -, first, aware, last, updated_aware, -, order⟩, -⟩ :=
    Thread.validate_ok.mp valid
  constructor
  · dsimp only at updated
    rw [text, same] at updated
    exact datetime_eq_ok.mp updated
  · intro createdAt read_created
    rw [Models.time, created, ok_bind, aware] at read_created
    obtain rfl := Except.ok.inj read_created
    rw [same] at updated_aware
    refine ⟨last, ?_, order⟩
    cases updatedAt with
    | naive => cases updated_aware
    | aware t => rw [Except.ok.inj updated_aware]

/-- A time that is not read back, or an archived thread before its creation, shows. -/
theorem Restored.timely (intact : Intact M h) {input : Directory × Call M}
    (restored : Restored M (h.step input)) : Timely h input := by
  obtain ⟨d, call⟩ := input
  intro s' e result
  have same : h.step (d, call) = h.next s' e := by
    rw [History.step, result]
    rfl
  rw [same] at restored
  have change : Change d h.store call s' e := Call.change result
  cases change with
  | @thread thread valid threads versions fresh row version =>
    have last : latest key (h.next { h.store with threads := threads, threadVersions := versions }
        (.thread thread)).threads (thread.workspaceId, thread.id) = some thread := by
      rw [History.threads_next]
      exact latest_append_self rfl
    have read := restored.read_thread last (intact.threads.threadRow_created row version rfl)
    obtain ⟨-, created, updated, -⟩ := threadFromRow_ok.mp read
    refine ⟨fun _ t mem => ?_, trivial⟩
    obtain rfl | mem := List.mem_cons.mp mem
    · exact datetime_eq_ok.mp created
    · rw [List.mem_singleton.mp mem]
      exact datetime_eq_ok.mp updated
  | @archive workspaceId threadId _ _ _ updatedAt row current archived versions found read copy
      version =>
    obtain ⟨-, -, -, fields⟩ := threadFromRow_ok.mp read
    have archived_key : key archived = (workspaceId, threadId) := by
      rw [copy, fields]
      exact (Table.get?_eq_some.mp (threadRow_eq_some.mp found).1).2
    have newer : row.2.version < archived.version := by
      rw [copy, fields]
      exact Nat.lt_succ_self _
    have last : latest key (h.next { h.store with threadVersions := versions }
        (.thread archived)).threads (workspaceId, threadId) = some archived := by
      rw [History.threads_next]
      exact latest_append_self archived_key
    have again := restored.read_thread last (threadRow_archived found version rfl newer)
    have same_time : archived.updatedAt = updatedAt := by rw [copy]
    obtain ⟨reads, order⟩ :=
      times_of_archived again (congrArg Datetime.isoformat same_time) same_time
    refine ⟨fun _ t mem => ?_, fun other is_other => ?_⟩
    · rw [List.mem_singleton.mp mem]
      exact reads
    · rw [← Option.some.inj (found.symm.trans is_other)]
      exact order
  | @message message _ _ _ stored messages thread fresh copy stored_valid row =>
    refine ⟨fun _ t mem => ?_, trivial⟩
    have reads := restored.reads_message (by
      rw [History.messages_next]
      exact List.mem_append_right _ (List.mem_singleton_self _)) (Table.mem_of_append row)
    rw [copy] at reads
    rw [List.mem_singleton.mp mem]
    exact reads
  | run _ _ row =>
    refine ⟨fun _ t mem => ?_, trivial⟩
    rw [List.mem_singleton.mp mem]
    exact restored.reads_run (by
      rw [History.runs_next]
      exact List.mem_append_right _ (List.mem_singleton_self _)) (Table.mem_of_append row)
  | event _ _ _ copy _ _ _ _ row =>
    refine ⟨fun _ t mem => ?_, trivial⟩
    have reads := restored.reads_event (by
      rw [History.events_next]
      exact List.mem_append_right _ (List.mem_singleton_self _)) (Table.mem_of_append row)
    rw [copy] at reads
    rw [List.mem_singleton.mp mem]
    exact reads
  | artifact _ row =>
    refine ⟨fun _ t mem => ?_, trivial⟩
    rw [List.mem_singleton.mp mem]
    exact restored.reads_artifact (by
      rw [History.artifacts_next]
      exact List.mem_append_right _ (List.mem_singleton_self _)) (Table.mem_of_append row)
  | threadAgain found | messageAgain found | runAgain found | eventAgain found
  | artifactAgain found =>
    exact ⟨fun fresh => absurd (Option.ne_none_iff_exists'.mpr ⟨_, found⟩) fresh, trivial⟩

/-- Members read what was last written in every state of a run exactly if all times that are written
are read back and no thread is archived before it was created. -/
theorem restored_iff (M : Models) (inputs : List (Directory × Call M)) :
    (∀ before, before <+: inputs → Restored M (exec History.step .start before)) ↔
      Along History.step Timely .start inputs :=
  throughout_iff (I := Intact M) intact_start (fun _ _ intact timely => intact.step timely)
    (fun _ intact => intact.restored) fun _ _ intact restored => restored.timely intact

namespace Sample

def later : Aware := ⟨1000000, 0⟩

/-- Two times that are read. -/
def twoTimes : Models := { models with
  parse := fun text =>
    if text = midnight.isoformat then some (.aware midnight)
    else if text = later.isoformat then some (.aware later) else none }

/-- A thread that is archived before it was created. -/
def archivedEarly : List (Directory × Call twoTimes) := [
  (everyone, .createThread { thread with createdAt := .aware later, updatedAt := .aware later }
    (by decide +kernel)),
  (everyone, .archiveThread workspace (.ofNat 3) 1 user 1 (.aware midnight))]

end Sample

/-- The threads of a workspace may not be listed once one of them was archived. -/
theorem archived_before_created : ¬ ∀ before, before <+: Sample.archivedEarly →
    Restored Sample.twoTimes (exec History.step .start before) := by
  intro restored
  obtain ⟨ts, listed, -⟩ := (restored Sample.archivedEarly (List.prefix_refl _)).threads everyone
    Sample.workspace Sample.user
  have fails : listThreads Sample.twoTimes everyone
      (exec History.step .start Sample.archivedEarly).store Sample.workspace Sample.user =
        .error (.validation "thread_updated_before_creation") := by
    decide +kernel
  rw [fails] at listed
  cases listed

end Corvus.Conversations
