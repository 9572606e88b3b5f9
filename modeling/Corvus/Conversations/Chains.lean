import Corvus.Conversations.Readback

/-!
# The stored events of a run

The events of a run are read from their rows as a chain that the validator accepts, as long as the
texts of their timestamps are read back.
-/

namespace Corvus.Conversations

open Agent (validateAgentRunEventChain validate_iff RunGrammar)

variable {M : Models} {d : Directory} {s s' : Store} {e : Entity} {h : History} {call : Call M}
  {rows more : List EventRow} {records later : List RunEventRecord} {workspaceId runId : Uuid}

/-- The rows stand for records whose events are accepted as a chain. -/
structure Chain (M : Models) (rows : List EventRow) (records : List RunEventRecord) : Prop where
  each : List.Forall₂ (EventOf M) rows records
  accepted : records ≠ [] →
    ∃ state, validateAgentRunEventChain M.toDigests (records.map (·.event)) = .ok state

namespace Chain

theorem nil : Chain M [] [] := ⟨.nil, fun some_ => absurd rfl some_⟩

theorem mapM (chain : Chain M rows records) : rows.mapM (eventFromRow M) = .ok records :=
  mapM_eq_ok.mpr (chain.each.imp fun _ _ related => related.2)

theorem length (chain : Chain M rows records) : rows.length = records.length :=
  chain.each.length_eq

/-- The records are the only ones for which the rows stand. -/
theorem unique (chain : Chain M rows records) (other : Chain M rows later) : records = later :=
  Except.ok.inj (chain.mapM.symm.trans other.mapM)

theorem sequences (chain : Chain M rows records) :
    records.map (·.event.sequence) = List.range' 1 records.length := by
  by_cases some_ : records = []
  · rw [some_]
    rfl
  · obtain ⟨state, accepted⟩ := chain.accepted some_
    obtain ⟨⟨-, _, _, unfolds⟩, -⟩ := validate_iff.mp accepted
    have numbers := unfolds.sequences
    rwa [List.map_map, List.length_map] at numbers

theorem log (chain : Chain M rows records) :
    Log (fun r : RunEventRecord => r.event.sequence) (fun _ _ => True) records :=
  .of_numbered chain.sequences

theorem rowLog (chain : Chain M rows records) :
    Log (fun r : EventRow => r.sequence) (fun _ _ => True) rows := by
  refine .of_numbered ?_
  rw [chain.length, ← chain.sequences]
  refine map_eq_of_forall₂ chain.each fun row r related => ?_
  rw [related.1]
  rfl

theorem sorted (chain : Chain M rows records) : bySequence rows = rows := chain.rowLog.insertionSort

/-- The first rows of a chain. -/
theorem take (chain : Chain M rows records) (n : Nat) : Chain M (rows.take n) (records.take n) := by
  refine ⟨List.forall₂_take n chain.each, fun some_ => ?_⟩
  have all : records ≠ [] := by
    rintro rfl
    exact some_ List.take_nil
  obtain ⟨state, accepted⟩ := chain.accepted all
  obtain ⟨grammar, -⟩ := validate_iff.mp accepted
  rw [← List.take_append_drop n records, List.map_append] at grammar
  have start := grammar.of_append fun none_ => some_ (List.map_eq_nil_iff.mp none_)
  exact ⟨_, validate_iff.mpr ⟨start, rfl⟩⟩

/-- The records of rows that others follow. -/
theorem grown (chain : Chain M rows records) (grown : Chain M more later) (start : rows <+: more) :
    records <+: later := by
  have first := grown.take rows.length
  rw [← List.prefix_iff_eq_take.mp start] at first
  rw [chain.unique first]
  exact List.take_prefix _ _

/-- The next event of a chain. -/
theorem append {r : RunEventRecord} (chain : Chain M rows records)
    (reads : eventFromRow M r.row = .ok r) {state : Agent.AgentRunState}
    (accepted : validateAgentRunEventChain M.toDigests (records.map (·.event) ++ [r.event]) =
      .ok state) : Chain M (rows ++ [r.row]) (records ++ [r]) := by
  refine ⟨?_, fun _ => ⟨state, ?_⟩⟩
  · exact List.rel_append chain.each (.cons ⟨rfl, reads⟩ .nil)
  · rwa [List.map_append]

end Chain

/-! ## What is kept of the events -/

theorem mem_eventRows {row : EventRow} : row ∈ s.eventRows workspaceId runId ↔
    row ∈ s.events.rows ∧ row.workspaceId = workspaceId ∧ row.runId = runId := by
  rw [Store.eventRows, List.mem_filter, decide_eq_true_eq]

/-- The events of every run are a chain of its thread, and those that were written. -/
structure EventsKept (M : Models) (h : History) : Prop where
  intact : EventsIntact M h
  chains : ∀ workspaceId runId, ∃ records, Chain M (h.store.eventRows workspaceId runId) records
  threads : ∀ row ∈ h.store.events.rows,
    ∃ run, h.store.runs.get? (row.workspaceId, row.runId) = some run ∧ run.threadId = row.threadId

theorem eventsKept_start : EventsKept M .start where
  intact := .nil
  chains := fun _ _ => ⟨[], .nil⟩
  threads := fun _ mem => absurd mem List.not_mem_nil

/-- A run stays as it is. -/
theorem run_persists {k : Uuid × Uuid} {run : RunRow} (there : s.runs.get? k = some run)
    (change : Change d s call s' e) : s'.runs.get? k = some run := by
  cases change with
  | @run _ _ runs _ _ inserted =>
    refine (Table.get?_append inserted k).trans ?_
    rw [if_neg]
    · exact there
    · intro taken
      have fresh := Table.get?_eq_none_of_append inserted
      rw [taken] at fresh
      exact absurd (there.symm.trans fresh) (Option.some_ne_none _)
  | _ => exact there

/-- Events that follow those of a run. -/
theorem eventRows_append {events : Table EventRow} {row : EventRow}
    (inserted : events.rows = s.events.rows ++ [row]) (workspaceId runId : Uuid) :
    { s with events := events }.eventRows workspaceId runId = s.eventRows workspaceId runId ++
      if row.workspaceId = workspaceId ∧ row.runId = runId then [row] else [] := by
  change events.rows.filter _ = _
  rw [inserted, List.filter_append]
  congr 1
  split
  · rename_i same
    exact List.filter_eq_self.mpr fun r mem => by
      rw [List.mem_singleton.mp mem]
      exact decide_eq_true same
  · rename_i other
    exact List.filter_eq_nil_iff.mpr fun r mem => by
      rw [List.mem_singleton.mp mem]
      exact fun same => other (of_decide_eq_true same)

/-- The events of a run stay, and others follow. -/
theorem eventRows_grow (change : Change d s call s' e) (workspaceId runId : Uuid) :
    s.eventRows workspaceId runId <+: s'.eventRows workspaceId runId := by
  cases change with
  | event _ _ _ _ _ _ _ _ row =>
    rw [eventRows_append row]
    exact List.prefix_append _ _
  | _ => exact List.prefix_refl _

theorem EventsKept.next (kept : EventsKept M h) (change : Change d h.store call s' e)
    (legible : e.event?.isSome → call.Legible h.store) : EventsKept M (h.next s' e) := by
  have intact := kept.intact.next change legible
  have persists {k : Uuid × Uuid} {r : RunRow} (there : h.store.runs.get? k = some r) :
      s'.runs.get? k = some r := run_persists there change
  cases change with
  | @event record valid _ _ run stored prior state events run_there same_thread fresh copy
      event_valid record_valid read accepted row =>
    have bound : stored.workspaceId = record.workspaceId ∧ stored.runId = record.runId ∧
        stored.threadId = record.threadId := by
      rw [copy]
      exact ⟨rfl, rfl, rfl⟩
    have reads : eventFromRow M stored.row = .ok stored :=
      eventFromRow_stored valid copy event_valid record_valid
        (legible rfl (not_not.mpr fresh) _ (List.mem_singleton_self _))
    refine ⟨intact, fun workspaceId runId => ?_, fun r mem => ?_⟩
    · obtain ⟨records, chain⟩ := kept.chains workspaceId runId
      change ∃ records,
        Chain M ({ h.store with events := events }.eventRows workspaceId runId) records
      rw [eventRows_append row]
      by_cases same : stored.row.workspaceId = workspaceId ∧ stored.row.runId = runId
      · rw [if_pos same]
        obtain ⟨same_workspace, same_run⟩ := same
        obtain rfl : record.workspaceId = workspaceId := bound.1.symm.trans same_workspace
        obtain rfl : record.runId = runId := bound.2.1.symm.trans same_run
        rw [chain.sorted, chain.mapM] at read
        obtain rfl := Except.ok.inj read
        exact ⟨records ++ [stored], chain.append reads accepted⟩
      · rw [if_neg same, List.append_nil]
        exact ⟨records, chain⟩
    · have mem : r ∈ events.rows := mem
      rw [row] at mem
      obtain before | new := List.mem_append.mp mem
      · exact kept.threads r before
      · rw [List.mem_singleton.mp new]
        refine ⟨run, ?_, same_thread.trans bound.2.2.symm⟩
        change h.store.runs.get? (stored.workspaceId, stored.runId) = _
        rw [bound.1, bound.2.1]
        exact run_there
  | run =>
    refine ⟨intact, kept.chains, fun row mem => ?_⟩
    obtain ⟨r, there, same⟩ := kept.threads row mem
    exact ⟨r, persists there, same⟩
  | _ => exact ⟨intact, kept.chains, kept.threads⟩

end Corvus.Conversations
