import Corvus.Conversations.Chains
import Corvus.Conversations.Lineage
import Mathlib.Data.List.Pairwise

/-!
# Paging through the events of a run

Readers page through the events of runs while events are appended. A page is read in two parts,
between which others may write. An event is stored once, replayed as it is stored, and given to each
reader once and in order, as long as the texts of the timestamps are read back.
-/

namespace Corvus.Conversations

open Run
open Agent (AgentRunEvent validateAgentRunEventChain validate_iff)

variable {M : Models} {d : Directory} {s s' : Store} {e : Entity} {h : History} {call : Call M}
  {rows more : List EventRow} {records later : List RunEventRecord}
  {workspaceId runId requester : Uuid} {cursor limit : Nat}

/-! ## One page -/

/-- What a call of `page_events` has learned, with its limit. -/
structure Asked where
  limit : Nat
  bounds : Bounds

/-- The bounds fit a cursor and the events of a run. -/
structure Bounds.Fit (b : Bounds) (cursor : Nat) (records : List RunEventRecord) : Prop where
  earliest : b.earliest = 1
  high : b.high ≤ records.length
  cursor : cursor ≤ b.high

/-- The events of the page after a cursor. -/
def pageOf (records : List RunEventRecord) (cursor limit high : Nat) : List RunEventRecord :=
  (records.drop cursor).take (min limit (high - cursor))

theorem length_pageOf {cursor limit high : Nat} (within : high ≤ records.length) :
    (pageOf records cursor limit high).length = min limit (high - cursor) := by
  rw [pageOf, List.length_take, List.length_drop]
  omega

theorem records_of (chain : Chain M (s.eventRows workspaceId runId) records) :
    ∀ r ∈ records, r.workspaceId = workspaceId ∧ r.runId = runId := by
  intro r mem
  obtain ⟨row, there, related⟩ := exists_left chain.each mem
  obtain ⟨-, workspace, run⟩ := mem_eventRows.mp there
  rw [related.1] at workspace run
  exact ⟨workspace, run⟩

/-- The events of a run are of its thread. -/
theorem EventsKept.thread_of (kept : EventsKept M h)
    (chain : Chain M (h.store.eventRows workspaceId runId) records) {run : RunRow}
    (there : h.store.runs.get? (workspaceId, runId) = some run) :
    ∀ r ∈ records, r.threadId = run.threadId := by
  intro r mem
  obtain ⟨row, row_mem, related⟩ := exists_left chain.each mem
  obtain ⟨stored, workspace, run_id⟩ := mem_eventRows.mp row_mem
  obtain ⟨run', there', same_thread⟩ := kept.threads row stored
  rw [workspace, run_id] at there'
  obtain rfl := Option.some.inj (there.symm.trans there')
  rw [related.1] at same_thread
  exact same_thread.symm

theorem checkChain_ok (chain : Chain M (s.eventRows workspaceId runId) records) {b : Bounds}
    {cursor : Nat} (fit : b.Fit cursor records) (thread : ∀ r ∈ records, r.threadId = b.threadId) :
    checkChain M workspaceId runId b (records.take b.high) = .ok () := by
  have within := records_of chain
  rw [checkChain]
  by_cases none_ : records.take b.high = []
  · rw [if_pos none_]
    refine require_of ?_
    obtain zero | empty := List.take_eq_nil_iff.mp none_
    · exact zero
    · have high := fit.high
      rw [empty] at high
      exact Nat.le_zero.mp high
  · rw [if_neg none_]
    refine bind_eq_ok.mpr ⟨⟨⟩, require_of ⟨?_, fit.earliest, fun r mem => ?_⟩, ?_⟩
    · rw [List.length_take, Nat.min_eq_left fit.high]
    · have mem := List.mem_of_mem_take mem
      exact ⟨(within r mem).1, thread r mem, (within r mem).2⟩
    · obtain ⟨state, accepted⟩ := (chain.take b.high).accepted none_
      rw [accepted]
      rfl

/-- The second part of `page_events` gives the events between the cursor and the bounds. -/
theorem pageWithin_eq (chain : Chain M (s.eventRows workspaceId runId) records) {b : Bounds}
    {cursor : Nat} (fit : b.Fit cursor records) (thread : ∀ r ∈ records, r.threadId = b.threadId)
    (limit : Nat) :
    ∃ page, pageWithin M s workspaceId runId cursor limit b = .ok page ∧
      page.events = pageOf records cursor limit b.high ∧
      page.nextAfter = cursor + (pageOf records cursor limit b.high).length := by
  have first := chain.take b.high
  have rows : bySequence ((s.eventRows workspaceId runId).filter (·.sequence ≤ b.high)) =
      (s.eventRows workspaceId runId).take b.high := by
    rw [chain.rowLog.filter_le]
    exact first.sorted
  have events : ((records.take b.high).filter fun r => cursor < r.event.sequence).take limit =
      pageOf records cursor limit b.high := by
    rw [first.log.filter_gt, List.drop_take, List.take_take, pageOf]
  have next : ((pageOf records cursor limit b.high).getLast?.map (·.event.sequence)).getD cursor =
      cursor + min limit (b.high - cursor) := by
    refine chain.log.number_part ?_
    have := fit.high
    have := fit.cursor
    omega
  have part : (pageOf records cursor limit b.high).Sublist records :=
    (List.take_sublist _ _).trans (List.drop_sublist _ _)
  have valid : ∀ page : RunEventPage, page.workspaceId = workspaceId → page.runId = runId →
      page.earliestSequence = 1 → page.events = pageOf records cursor limit b.high →
      page.nextAfter = (page.events.getLast?.map (·.event.sequence)).getD cursor →
      page.validate = .ok page := by
    intro page workspace run earliest events nextAfter
    rw [RunEventPage.validate]
    refine bind_eq_ok.mpr ⟨⟨⟩, positive_ok.mpr (Nat.le_of_eq earliest.symm), ?_⟩
    refine bind_eq_ok.mpr ⟨⟨⟩, require_of ?_, ?_⟩
    · rw [events, List.pairwise_map]
      exact chain.log.pairwise.sublist part
    refine bind_eq_ok.mpr ⟨⟨⟩, require_of fun r mem => ?_, ?_⟩
    · rw [events] at mem
      rw [workspace, run]
      exact records_of chain r (part.subset mem)
    refine bind_eq_ok.mpr ⟨⟨⟩, require_of fun last found => ?_, rfl⟩
    rw [List.getLast?_map] at found
    rw [nextAfter, found, Option.getD_some]
  rw [pageWithin, rows, first.mapM, ok_bind, checkChain_ok chain fit thread, ok_bind]
  dsimp only
  rw [events]
  refine ⟨_, valid _ rfl rfl fit.earliest rfl rfl, rfl, ?_⟩
  rw [next, length_pageOf fit.high]

/-- The first part of `page_events` gives bounds that fit. -/
theorem pageBounds_fit (chain : Chain M (s.eventRows workspaceId runId) records)
    {requester : Uuid} {cursor limit : Nat} {b : Bounds}
    (asked : pageBounds d s workspaceId runId requester cursor limit = .ok b) :
    b.Fit cursor records ∧ 1 ≤ limit ∧ b.high = records.length ∧
      ∃ run, s.runs.get? (workspaceId, runId) = some run ∧ run.threadId = b.threadId := by
  simp only [pageBounds, bind_eq_ok, require_eq_ok, present_eq_ok] at asked
  obtain ⟨_, limits, _, -, run, there, _, below, _, -, same⟩ := asked
  have high : ((s.eventRows workspaceId runId).map (·.sequence)).max?.getD 0 =
      records.length := chain.rowLog.max?.trans chain.length
  rw [chain.rowLog.min?, high] at same
  rw [high] at below
  obtain rfl := Except.ok.inj same
  exact ⟨⟨rfl, Nat.le_refl _, below⟩, limits.1, rfl, run, there, rfl⟩

/-! ## Readers -/

/-- A reader of the events of a run: what it has been given, and what it has asked for. -/
structure Reader where
  workspaceId : Uuid
  runId : Uuid
  cursor : Nat
  received : List RunEventRecord
  pending : Option Asked

/-- The first part of a call of `page_events`, after the cursor. -/
def Reader.ask (d : Directory) (s : Store) (requester : Uuid) (limit : Nat) (r : Reader) : Reader :=
  match r.pending, pageBounds d s r.workspaceId r.runId requester r.cursor limit with
  | none, .ok bounds => { r with pending := some ⟨limit, bounds⟩ }
  | _, _ => r

/-- The second part, after which the cursor is that of the page. -/
def Reader.answer (M : Models) (s : Store) (r : Reader) : Reader :=
  match r.pending with
  | none => r
  | some asked =>
      match pageWithin M s r.workspaceId r.runId r.cursor asked.limit asked.bounds with
      | .ok page =>
          { r with
            cursor := page.nextAfter
            received := r.received ++ page.events
            pending := none }
      | .error _ => { r with pending := none }

/-- The repository and its readers. -/
structure Service where
  history : History
  readers : List Reader

def Service.start : Service := ⟨.start, []⟩

/-- What happens next. -/
inductive Request (M : Models) where
  | call (d : Directory) (call : Call M)
  /-- A reader starts before the first event. -/
  | join (workspaceId runId : Uuid)
  | ask (reader : Nat) (d : Directory) (requester : Uuid) (limit : Nat)
  | answer (reader : Nat)

def Service.step (s : Service) : Request M → Service
  | .call d call => { s with history := s.history.step (d, call) }
  | .join workspaceId runId =>
      { s with readers := s.readers ++ [⟨workspaceId, runId, 0, [], none⟩] }
  | .ask reader d requester limit =>
      { s with readers := s.readers.modify reader (·.ask d s.history.store requester limit) }
  | .answer reader =>
      { s with readers := s.readers.modify reader (·.answer M s.history.store) }

/-- A reader has been given the events up to its cursor, and what it waits for fits them. -/
structure Reader.Kept (M : Models) (s : Store) (r : Reader) : Prop where
  received : ∀ records, Chain M (s.eventRows r.workspaceId r.runId) records →
    r.cursor ≤ records.length ∧ r.received = records.take r.cursor
  pending : ∀ asked ∈ r.pending, 1 ≤ asked.limit ∧
    (∀ records, Chain M (s.eventRows r.workspaceId r.runId) records →
      asked.bounds.Fit r.cursor records) ∧
    ∃ run, s.runs.get? (r.workspaceId, r.runId) = some run ∧ run.threadId = asked.bounds.threadId

namespace Reader.Kept

variable {r : Reader}

theorem join (workspaceId runId : Uuid) : Reader.Kept M s ⟨workspaceId, runId, 0, [], none⟩ :=
  ⟨fun _ _ => ⟨Nat.zero_le _, rfl⟩, fun _ some_ => absurd some_.symm (Option.some_ne_none _)⟩

/-- A reader has been given the events up to its cursor when others follow. -/
theorem change (kept : r.Kept M s) (intact : ∃ records,
    Chain M (s.eventRows r.workspaceId r.runId) records) (change : Change d s call s' e) :
    r.Kept M s' := by
  obtain ⟨records, chain⟩ := intact
  have start := eventRows_grow change r.workspaceId r.runId
  obtain ⟨below, received⟩ := kept.received records chain
  constructor
  · intro later grown
    obtain ⟨more, rfl⟩ := chain.grown grown start
    refine ⟨?_, ?_⟩
    · rw [List.length_append]
      omega
    · rw [received, List.take_append_of_le_length below]
  · intro asked waits
    obtain ⟨limit, fits, run, there, thread⟩ := kept.pending asked waits
    refine ⟨limit, fun later grown => ?_, run, run_persists there change, thread⟩
    have fit := fits records chain
    have longer := (chain.grown grown start).length_le
    exact ⟨fit.earliest, fit.high.trans longer, fit.cursor⟩

theorem ask (kept : r.Kept M s) (chain : Chain M (s.eventRows r.workspaceId r.runId) records)
    (d : Directory) (requester : Uuid) (limit : Nat) : (r.ask d s requester limit).Kept M s := by
  rw [Reader.ask]
  split
  · rename_i bounds _ asked
    refine ⟨kept.received, fun _ same => ?_⟩
    obtain rfl := Option.some.inj same
    obtain ⟨-, positive, -, there⟩ := pageBounds_fit chain asked
    exact ⟨positive, fun later other => (pageBounds_fit other asked).1, there⟩
  · exact kept

/-- The page that a reader waits for. -/
theorem page (kept : r.Kept M h.store) (events : EventsKept M h)
    (chain : Chain M (h.store.eventRows r.workspaceId r.runId) records) {asked : Asked}
    (waits : r.pending = some asked) :
    ∃ page, pageWithin M h.store r.workspaceId r.runId r.cursor asked.limit asked.bounds =
        .ok page ∧
      page.events = pageOf records r.cursor asked.limit asked.bounds.high ∧
      page.nextAfter = r.cursor + page.events.length := by
  obtain ⟨-, fits, run, there, thread⟩ := kept.pending asked waits
  have of_thread := events.thread_of chain there
  rw [thread] at of_thread
  obtain ⟨page, result, same, next⟩ :=
    pageWithin_eq chain (fits records chain) of_thread asked.limit
  exact ⟨page, result, same, by rw [next, same]⟩

theorem answer (kept : r.Kept M h.store) (events : EventsKept M h) :
    (r.answer M h.store).Kept M h.store := by
  rw [Reader.answer]
  split
  · exact kept
  · rename_i asked waits
    obtain ⟨records, chain⟩ := events.chains r.workspaceId r.runId
    obtain ⟨page, result, same, next⟩ := kept.page events chain waits
    rw [result]
    refine ⟨fun later other => ?_, fun _ some_ => absurd some_.symm (Option.some_ne_none _)⟩
    obtain rfl := chain.unique other
    obtain ⟨below, received⟩ := kept.received records chain
    obtain ⟨-, fits, -⟩ := kept.pending asked waits
    have fit := fits records chain
    have within := fit.high
    have length : page.events.length = min asked.limit (asked.bounds.high - r.cursor) := by
      rw [same]
      exact length_pageOf within
    dsimp only
    constructor
    · omega
    · rw [next, length, List.take_add, received, same, pageOf]

end Reader.Kept

/-! ## What is asked -/

/-- The events of a run as `append_event` and `page_events` read them. -/
def storedEvents (M : Models) (s : Store) (workspaceId runId : Uuid) :
    Except Raised (List RunEventRecord) :=
  (bySequence (s.eventRows workspaceId runId)).mapM (eventFromRow M)

/-- What is asked of the events of runs, of those who write them and of those who read them. -/
structure Paged (M : Models) (s : Service) : Prop where
  /-- The events of a run are those that were written, and the validator accepts them. -/
  chains : ∀ workspaceId runId, ∃ records,
    storedEvents M s.history.store workspaceId runId = .ok records ∧
      (records ≠ [] →
        ∃ state, validateAgentRunEventChain M.toDigests (records.map (·.event)) = .ok state) ∧
      ∀ r, r ∈ records ↔ r ∈ s.history.events ∧ r.workspaceId = workspaceId ∧ r.runId = runId
  /-- An event that a provider has given an id is returned when it is submitted again. -/
  replays : ∀ stored ∈ s.history.events, stored.event.providerEventId ≠ none →
    ∀ (record : RunEventRecord) d requester version, record.workspaceId = stored.workspaceId →
      record.threadId = stored.threadId → record.runId = stored.runId →
      eventReplayBody record.event = eventReplayBody stored.event →
      d.requireMembership stored.workspaceId requester version = .ok () →
        appendEvent M d s.history.store record requester version = .ok (s.history.store, stored)
  /-- A call that raises changes nothing. -/
  failures : ∀ d (call : Call M) raised, call.result d s.history.store = .error raised →
    s.step (.call d call) = s
  /-- A page never fails its checks. -/
  integrity : ∀ d workspaceId runId requester cursor limit,
    pageEvents M d s.history.store workspaceId runId requester cursor limit ≠
      .error (.repository "run_event_integrity_invalid")
  /-- A page has the next events of all that are stored. -/
  pages : ∀ d workspaceId runId requester cursor limit page,
    pageEvents M d s.history.store workspaceId runId requester cursor limit = .ok page →
      1 ≤ limit ∧ ∃ records, storedEvents M s.history.store workspaceId runId = .ok records ∧
        page.events = pageOf records cursor limit records.length
  /-- A reader has each event once and in order up to its cursor, and gets those that follow. -/
  readers : ∀ r ∈ s.readers, ∀ records,
    storedEvents M s.history.store r.workspaceId r.runId = .ok records →
      r.cursor ≤ records.length ∧ r.received = records.take r.cursor ∧
        ∀ asked ∈ r.pending, 1 ≤ asked.limit ∧ ∃ page,
          pageWithin M s.history.store r.workspaceId r.runId r.cursor asked.limit asked.bounds =
              .ok page ∧
            page.events = pageOf records r.cursor asked.limit asked.bounds.high

/-- What is kept of the events and their readers. -/
structure ServiceKept (M : Models) (s : Service) : Prop where
  events : EventsKept M s.history
  readers : ∀ r ∈ s.readers, r.Kept M s.history.store

theorem serviceKept_start : ServiceKept M .start :=
  ⟨eventsKept_start, fun _ mem => absurd mem List.not_mem_nil⟩

theorem Chain.stored (chain : Chain M (s.eventRows workspaceId runId) records) :
    storedEvents M s workspaceId runId = .ok records := by
  rw [storedEvents, chain.sorted]
  exact chain.mapM

/-- The ids that providers have given to the events of a run are different. -/
theorem Chain.providers (chain : Chain M rows records) :
    (rows.filterMap (·.providerEventId)).Nodup := by
  have same : rows.map (·.providerEventId) = records.map (·.event.providerEventId) :=
    map_eq_of_forall₂ chain.each fun row r related => by
      rw [related.1]
      rfl
  have ids : (rows.map (·.providerEventId)).filterMap id =
      (records.map (·.event)).filterMap (·.providerEventId) := by
    rw [same, List.filterMap_map, List.filterMap_map]
    rfl
  rw [List.filterMap_map] at ids
  change (rows.filterMap (id ∘ _)).Nodup
  by_cases some_ : records = []
  · rw [ids, some_]
    exact List.nodup_nil
  · obtain ⟨state, accepted⟩ := chain.accepted some_
    obtain ⟨⟨-, _, _, unfolds⟩, -⟩ := validate_iff.mp accepted
    rw [ids]
    exact unfolds.providerEvents

/-- The event under an id that a provider has given is the only one. -/
theorem Chain.eventUnder (chain : Chain M (s.eventRows workspaceId runId) records) {row : EventRow}
    {id : String} (mem : row ∈ s.eventRows workspaceId runId)
    (given : row.providerEventId = some id) : s.eventUnder workspaceId runId id = some row := by
  have separate := List.pairwise_filterMap.mp chain.providers
  obtain ⟨there, workspace, run⟩ := mem_eventRows.mp mem
  cases found : s.eventUnder workspaceId runId id with
  | none =>
    have other := List.find?_eq_none.mp found row there
    exact absurd (decide_eq_true ⟨workspace, run, given⟩) other
  | some first =>
    obtain ⟨first_workspace, first_run, first_id⟩ : first.workspaceId = workspaceId ∧
        first.runId = runId ∧ first.providerEventId = some id := by
      simpa using List.find?_some found
    have first_mem := mem_eventRows.mpr
      ⟨List.mem_of_find?_eq_some found, first_workspace, first_run⟩
    by_contra differs
    have apart : first ≠ row := fun same => differs (congrArg some same)
    have symm : Std.Symm fun a b : EventRow =>
        ∀ i, a.providerEventId = some i → ∀ j, b.providerEventId = some j → i ≠ j :=
      ⟨fun a b each i is_i j is_j same => each j is_j i is_i same.symm⟩
    exact separate.forall first_mem mem apart id first_id id given rfl

/-! ## Runs of the service -/

/-- A submitted event is replayed. -/
theorem EventsKept.replays (kept : EventsKept M h) {stored record : RunEventRecord}
    (mem : stored ∈ h.events) (given : stored.event.providerEventId ≠ none) {requester : Uuid}
    {version : Nat} (same_workspace : record.workspaceId = stored.workspaceId)
    (same_thread : record.threadId = stored.threadId) (same_run : record.runId = stored.runId)
    (same_body : eventReplayBody record.event = eventReplayBody stored.event)
    (member : d.requireMembership stored.workspaceId requester version = .ok ()) :
    appendEvent M d h.store record requester version = .ok (h.store, stored) := by
  obtain ⟨row, there, same, read⟩ := kept.intact.kept stored mem
  obtain ⟨run, run_there, of_thread⟩ := kept.threads row there
  obtain ⟨id, is_id⟩ := Option.ne_none_iff_exists'.mp given
  have again : record.event.providerEventId = some id :=
    (congrArg AgentRunEvent.providerEventId same_body).trans is_id
  obtain ⟨records, chain⟩ := kept.chains row.workspaceId row.runId
  have found := chain.eventUnder (mem_eventRows.mpr ⟨there, rfl, rfl⟩)
    ((congrArg EventRow.providerEventId same).trans is_id)
  rw [same] at run_there of_thread found
  rw [appendEvent, same_workspace, same_run, same_thread, again, Option.bind_some]
  refine bind_eq_ok.mpr ⟨⟨⟩, member, ?_⟩
  refine bind_eq_ok.mpr ⟨run, present_eq_ok.mpr run_there, ?_⟩
  refine bind_eq_ok.mpr ⟨⟨⟩, require_of of_thread, ?_⟩
  have under : h.store.eventUnder stored.workspaceId stored.runId id = some stored.row := found
  rw [under]
  refine bind_eq_ok.mpr ⟨stored, ?_, bind_eq_ok.mpr ⟨⟨⟩, require_of same_body.symm, rfl⟩⟩
  rw [← same]
  exact read

/-- The events of a run are those that were written. -/
theorem EventsKept.mem_iff (kept : EventsKept M h)
    (chain : Chain M (h.store.eventRows workspaceId runId) records) (r : RunEventRecord) :
    r ∈ records ↔ r ∈ h.events ∧ r.workspaceId = workspaceId ∧ r.runId = runId := by
  constructor
  · intro mem
    refine ⟨?_, records_of chain r mem⟩
    obtain ⟨row, row_mem, -, read⟩ := exists_left chain.each mem
    refine kept.intact.mem_of_row (mem_eventRows.mp row_mem).1 fun other related => ?_
    exact Except.ok.inj (related.2.symm.trans read)
  · rintro ⟨written, same_workspace, same_run⟩
    obtain ⟨row, there, same, read⟩ := kept.intact.kept r written
    have here : row ∈ h.store.eventRows workspaceId runId := by
      rw [mem_eventRows, same]
      exact ⟨same ▸ there, same_workspace, same_run⟩
    obtain ⟨other, mem, -, other_read⟩ := exists_right chain.each here
    rwa [Except.ok.inj (read.symm.trans other_read)]

theorem pageBounds_raises : Raises (· ≠ .repository "run_event_integrity_invalid")
    (pageBounds d s workspaceId runId requester cursor limit) := by
  refine (raises_require (by decide)).bind fun _ _ => ?_
  refine (raises_present (by decide)).bind fun _ _ => ?_
  refine (raises_present (by decide)).bind fun _ _ => ?_
  refine (raises_require (by decide)).bind fun _ _ => ?_
  exact (raises_require (by decide)).bind fun _ _ => raises_ok _

/-- A page has the next events of those that are stored, once its bounds are given. -/
theorem EventsKept.pageEvents (kept : EventsKept M h) {b : Bounds}
    (asked : pageBounds d h.store workspaceId runId requester cursor limit = .ok b) :
    1 ≤ limit ∧ ∃ page records,
      Conversations.pageEvents M d h.store workspaceId runId requester cursor limit = .ok page ∧
        storedEvents M h.store workspaceId runId = .ok records ∧
          page.events = pageOf records cursor limit records.length := by
  obtain ⟨records, chain⟩ := kept.chains workspaceId runId
  obtain ⟨fit, positive, high, run, there, thread⟩ := pageBounds_fit chain asked
  have of_thread := kept.thread_of chain there
  rw [thread] at of_thread
  obtain ⟨page, result, events, -⟩ := pageWithin_eq chain fit of_thread limit
  rw [high] at events
  refine ⟨positive, page, records, ?_, chain.stored, events⟩
  rw [Conversations.pageEvents, asked]
  exact result

theorem ServiceKept.paged {service : Service} (kept : ServiceKept M service) :
    Paged M service where
  chains := fun workspaceId runId => by
    obtain ⟨records, chain⟩ := kept.events.chains workspaceId runId
    exact ⟨records, chain.stored, chain.accepted, kept.events.mem_iff chain⟩
  replays := fun stored mem given record d requester version same_workspace same_thread same_run
      same_body member =>
    kept.events.replays mem given same_workspace same_thread same_run same_body member
  failures := fun d call raised result => by
    rw [Service.step, History.step, result]
  integrity := fun d workspaceId runId requester cursor limit failed => by
    cases asked : pageBounds d service.history.store workspaceId runId requester cursor limit with
    | error e =>
      rw [Conversations.pageEvents, asked] at failed
      exact pageBounds_raises e asked (Except.error.inj failed)
    | ok b =>
      obtain ⟨-, page, -, result, -⟩ := kept.events.pageEvents asked
      rw [result] at failed
      cases failed
  pages := fun d workspaceId runId requester cursor limit page result => by
    obtain ⟨b, asked, -⟩ := bind_eq_ok.mp result
    obtain ⟨positive, page', records, result', stored, events⟩ := kept.events.pageEvents asked
    obtain rfl := Except.ok.inj (result.symm.trans result')
    exact ⟨positive, records, stored, events⟩
  readers := fun r mem records result => by
    obtain ⟨same, chain⟩ := kept.events.chains r.workspaceId r.runId
    obtain rfl := Except.ok.inj (result.symm.trans chain.stored)
    have reader := kept.readers r mem
    obtain ⟨below, received⟩ := reader.received records chain
    refine ⟨below, received, fun asked waits => ⟨(reader.pending asked waits).1, ?_⟩⟩
    obtain ⟨page, page_ok, events, -⟩ := reader.page kept.events chain waits
    exact ⟨page, page_ok, events⟩

/-- The timestamp of an event that a call writes is read back. -/
def Stamped (s : Service) : Request M → Prop
  | .call d call => ∀ s' e, call.result d s.history.store = .ok (s', e) → e.event?.isSome →
      call.Legible s.history.store
  | _ => True

theorem forall_modify {α : Type} {P : α → Prop} {l : List α} (all : ∀ a ∈ l, P a) {f : α → α}
    (keep : ∀ a, P a → P (f a)) (i : Nat) : ∀ a ∈ l.modify i f, P a := by
  intro a mem
  obtain ⟨j, found⟩ := List.mem_iff_getElem?.mp mem
  rw [List.getElem?_modify] at found
  split at found
  · obtain ⟨b, there, rfl⟩ := Option.map_eq_some_iff.mp found
    exact keep b (all b (List.mem_of_getElem? there))
  · obtain ⟨b, there, rfl⟩ := Option.map_eq_some_iff.mp found
    exact all b (List.mem_of_getElem? there)

theorem ServiceKept.step {service : Service} (kept : ServiceKept M service) {request : Request M}
    (stamped : Stamped service request) : ServiceKept M (service.step request) := by
  obtain ⟨events, readers⟩ := kept
  cases request with
  | call d call =>
    obtain same | ⟨s', e, result, change, same⟩ := service.history.step_cases (d, call)
    · rw [Service.step, same]
      exact ⟨events, readers⟩
    · rw [Service.step, same]
      refine ⟨events.next change (stamped s' e result), fun r mem => ?_⟩
      exact (readers r mem).change (events.chains _ _) change
  | join workspaceId runId =>
    refine ⟨events, fun r mem => ?_⟩
    obtain old | new := List.mem_append.mp mem
    · exact readers r old
    · rw [List.mem_singleton.mp new]
      exact .join workspaceId runId
  | ask reader d requester limit =>
    refine ⟨events, forall_modify readers (fun r reader => ?_) reader⟩
    obtain ⟨records, chain⟩ := events.chains r.workspaceId r.runId
    exact reader.ask chain d requester limit
  | answer reader =>
    exact ⟨events, forall_modify readers (fun r reader => reader.answer events) reader⟩

/-- What is read from a row of an event. -/
theorem eventFromRow_ok {row : EventRow} {r : RunEventRecord} (read : eventFromRow M row = .ok r) :
    M.time row.timestamp = .ok r.timestamp ∧ key row = key r.row := by
  rw [eventFromRow] at read
  split at read
  · rename_i record validated
    obtain rfl := Except.ok.inj read
    simp only [validatedEventFromRow, bind_eq_ok] at validated
    obtain ⟨time, read_time, payload, -, event, valid, built⟩ := validated
    obtain rfl := RunEventRecord.validate_eq built
    obtain rfl := validateEvent_eq valid
    exact ⟨read_time, rfl⟩
  · cases read

/-- The timestamp of a stored event that is read was read back. -/
theorem readsBack_of_stored {stored : RunEventRecord}
    (read : storedEvents M s workspaceId runId = .ok records) (there : stored ∈ records)
    (mem : stored.row ∈ s.events.rows) : ReadsBack M (.aware stored.timestamp) := by
  obtain ⟨row, row_mem, row_read⟩ := exists_left (mapM_eq_ok.mp read) there
  have row_there := (mem_eventRows.mp ((List.perm_insertionSort _ _).mem_iff.mp row_mem)).1
  obtain ⟨time, same_key⟩ := eventFromRow_ok row_read
  rw [Table.eq_of_key (t := s.events) row_there mem same_key] at time
  exact readsBack_of_time time

/-- An event whose timestamp is not read back shows. -/
theorem Paged.stamped {service : Service} {request : Request M}
    (paged : Paged M (service.step request)) : Stamped service request := by
  cases request with
  | call d call =>
    intro s' e result written fresh t mem
    have same : service.history.step (d, call) = service.history.next s' e := by
      rw [History.step, result]
      rfl
    rw [Service.step, same] at paged
    have change : Change d service.history.store call s' e := Call.change result
    cases change with
    | @event record valid _ _ _ stored _ _ events _ _ _ copy _ _ _ _ row =>
      obtain ⟨records, read, -, all⟩ := paged.chains stored.workspaceId stored.runId
      have there : stored ∈ records := by
        refine (all stored).mpr ⟨?_, rfl, rfl⟩
        rw [History.events_next]
        exact List.mem_append_right _ (List.mem_singleton_self _)
      have new : stored.row ∈ events.rows := by
        rw [row]
        exact List.mem_append_right _ (List.mem_singleton_self _)
      have reads := readsBack_of_stored read there new
      rw [List.mem_singleton.mp mem]
      rw [copy] at reads
      exact reads
    | eventAgain found => exact absurd (Option.ne_none_iff_exists'.mpr ⟨_, found⟩) fresh
    | _ => cases written
  | _ => trivial

/-- Events, replays and pages are as asked in every state of a run exactly if the timestamps of all
new events are read back from their texts. -/
theorem paged_iff (M : Models) (requests : List (Request M)) :
    (∀ before, before <+: requests → Paged M (exec Service.step .start before)) ↔
      Along Service.step Stamped .start requests :=
  throughout_iff (I := ServiceKept M) serviceKept_start (fun _ _ kept stamped => kept.step stamped)
    (fun _ kept => kept.paged) fun _ _ _ paged => paged.stamped

namespace Sample

/-- The start of a run, at a time that is written with seconds in its offset. -/
def started : RunEventRecord where
  workspaceId := workspace
  threadId := .ofNat 3
  runId := .ofNat 11
  event := {
    runId := .ofNat 11
    handleId := .ofNat 21
    sequence := 1
    timestamp := 0
    eventType := .started
    redactedPayload := []
    providerEventId := some "first"
    toolCallId := none
    effectAuthorizationDecisionId := none
    effectAuthorizationDecisionDigest := none
    previousEventDigest := zeros
    eventDigest := zeros }
  offset := 1172000000

theorem started_valid : started.Valid models where
  event := by decide +kernel
  record := by decide +kernel
  payload := ⟨.nil, trivial⟩

/-- A run with its start. -/
def oddOffset : List (Request models) := [
  .call everyone (.createThread thread thread_valid),
  .call everyone (.appendMessage message message_valid user 1),
  .call everyone (.createRun (run 11 none none) first_valid),
  .call everyone (.appendEvent started started_valid user 1)]

end Sample

/-- An event may be stored that no page gets past. -/
theorem unread_timestamp : ¬ ∀ before, before <+: Sample.oddOffset →
    Paged Sample.models (exec Service.step .start before) := by
  intro paged
  refine (paged Sample.oddOffset (List.prefix_refl _)).integrity everyone Sample.workspace
    (.ofNat 11) Sample.user 0 10 ?_
  decide +kernel

end Corvus.Conversations
