import Corvus.Sync.Profiles

/-!
# The ledger of a client

A client asks for the page after the cursor of its ledger and reduces the ledger by it. Between
its requests anything may be committed; when its cursor is no longer retained, it goes on from
the boundary that it is told. The page holds the changes of every member of the workspace, and
the ledger takes those of the account and the principal that it is kept for.
-/

namespace Corvus.Sync

open Run Tables

/-! ## The client -/

structure SyncLedger where
  accountProfile : Option AccountProfile
  cursor : Nat
  /-- The digest of each sequence, the last one first. -/
  digests : List (Nat × String)
  highWatermark : Nat
  lastDigest : String
  workspaceProfile : Option WorkspaceProfile

structure SyncProvenance where
  accountId : Uuid
  principalId : Uuid
  workspaceId : Uuid

/-- `emptySyncLedger`, with which a client starts. -/
def emptySyncLedger : SyncLedger where
  accountProfile := none
  cursor := 0
  digests := []
  highWatermark := 0
  lastDigest := genesisDigest
  workspaceProfile := none

/-- The ledger with which `resyncWorkspace` goes on from a cursor. -/
def boundaryLedger (resumeCursor : Nat) : SyncLedger :=
  { emptySyncLedger with cursor := resumeCursor, highWatermark := resumeCursor }

/-- The variables of the loop of `reduceSyncPage`. -/
structure Reduction where
  cursor : Nat
  lastDigest : String
  currentAccount : Option AccountProfile
  currentWorkspace : Option WorkspaceProfile
  digests : List (Nat × String)
  changed : Bool

/-- The payload of a change, as the profile of an account. -/
def accountPayload : Profile → Except String AccountProfile
  | .account p => .ok p
  | .workspace _ => .error "sync_payload_invalid"

/-- The payload of a change, as the profile of a workspace. -/
def workspacePayload : Profile → Except String WorkspaceProfile
  | .workspace p => .ok p
  | .account _ => .error "sync_payload_invalid"

/-- A change with which the ledger goes on. -/
def Reduction.next (r : Reduction) (c : WorkspaceChange) : Reduction :=
  { r with
    cursor := c.sequence
    lastDigest := c.changeDigest
    digests := (c.sequence, c.changeDigest) :: r.digests
    changed := true }

/-- One round of the loop of `reduceSyncPage`. -/
def reduceChange (provenance : SyncProvenance) (r : Reduction) (c : WorkspaceChange) :
    Except String Reduction := do
  require (c.accountId = provenance.accountId ∧ c.principalId = provenance.principalId ∧
    c.workspaceId = provenance.workspaceId) "sync_provenance_invalid"
  if c.sequence ≤ r.cursor then
    require (r.digests.lookup c.sequence = some c.changeDigest) "sync_digest_changed"
    return r
  require (c.sequence = r.cursor + 1) "sync_gap_detected"
  let lastDigest :=
    if 0 < r.cursor ∧ r.digests = [] ∧ r.lastDigest = genesisDigest then c.previousDigest
    else r.lastDigest
  require (c.previousDigest = lastDigest) "sync_digest_chain_invalid"
  if c.kind = .accountProfile ∧ c.operation = .setExperience then
    let profile ← accountPayload c.payload
    return { r with currentAccount := some profile }.next c
  else if c.kind = .workspaceProfile ∧ c.operation = .update then
    let profile ← workspacePayload c.payload
    return { r with currentWorkspace := some profile }.next c
  else throw "sync_command_unknown"

/-- The variables as the loop starts. -/
def SyncLedger.reduction (ledger : SyncLedger) : Reduction where
  cursor := ledger.cursor
  lastDigest := ledger.lastDigest
  currentAccount := ledger.accountProfile
  currentWorkspace := ledger.workspaceProfile
  digests := ledger.digests
  changed := false

/-- `reduceSyncPage`, which throws the code of a `SyncIntegrityError`. -/
def reduceSyncPage (ledger : SyncLedger) (page : SyncPage) (provenance : SyncProvenance) :
    Except String SyncLedger := do
  require (page.requestedCursor = ledger.cursor) "sync_cursor_changed"
  refuse (page.highWatermark < ledger.highWatermark ∨ page.nextCursor < ledger.cursor)
    "sync_cursor_rewind"
  let r ← page.changes.foldlM (reduceChange provenance) ledger.reduction
  refuse (page.nextCursor ≠ r.cursor ∨ page.highWatermark < r.cursor) "sync_cursor_invalid"
  if r.changed = false ∧ page.highWatermark = ledger.highWatermark then
    return ledger
  return ⟨r.currentAccount, r.cursor, r.digests, page.highWatermark, r.lastDigest,
    r.currentWorkspace⟩

/-! ## Runs -/

/-- The account and the principal of a reader, and the workspace it reads. -/
structure Reader where
  tables : Tables
  ledger : SyncLedger
  /-- Where the ledger was begun; no code reads it. -/
  start : Nat

inductive Event where
  | commit (action : Action)
  | reload
  | request (deviceId : Uuid) (deviceVersion limit : Nat)

/-- The caller of a reader on one of its devices. -/
def SyncProvenance.on (reader : SyncProvenance) (deviceId : Uuid) (deviceVersion : Nat) : Caller :=
  ⟨reader.workspaceId, reader.accountId, reader.principalId, deviceId, deviceVersion⟩

/-- A page is reduced, and the boundary of a resync is where the ledger is begun anew. After any
other error, and when `reduceSyncPage` throws, the ledger stays as it is. -/
def Reader.step (S : Security) (reader : SyncProvenance) (r : Reader) : Event → Reader
  | .commit action => { r with tables := Sync.step S r.tables action }
  | .reload => { r with ledger := emptySyncLedger, start := 0 }
  | .request deviceId deviceVersion limit =>
    match r.tables.page S (reader.on deviceId deviceVersion) r.ledger.cursor limit with
    | .ok page =>
      match reduceSyncPage r.ledger page reader with
      | .ok ledger => { r with ledger := ledger }
      | .error _ => r
    | .error (.resyncRequired detail) =>
      { r with ledger := boundaryLedger detail.resumeCursor, start := detail.resumeCursor }
    | .error _ => r

def Reader.empty : Reader := ⟨.bare, emptySyncLedger, 0⟩

variable {S : Security} {s s' : Tables} {w : Uuid} {reader : SyncProvenance} {caller : Caller}
  {cursor limit start : Nat} {page : SyncPage} {r : Reduction} {c : WorkspaceChange}
  {log more : List WorkspaceChange}

/-! ## The pages of the server -/

theorem validatedChange_ok {expected : Option String} {change : WorkspaceChange}
    (ok : validatedChange S c expected = .ok change) : change = c ∧ Matches c := by
  obtain ⟨_, -, rest⟩ := bind_eq_ok.mp ok
  obtain ⟨_, -, rest⟩ := bind_eq_ok.mp rest
  obtain ⟨_, matches_, rest⟩ := bind_eq_ok.mp rest
  obtain ⟨_, -, rest⟩ := bind_eq_ok.mp rest
  obtain ⟨_, -, rest⟩ := bind_eq_ok.mp rest
  obtain ⟨_, -, rest⟩ := bind_eq_ok.mp rest
  exact ⟨(Except.ok.inj rest).symm, require_eq_ok.mp matches_⟩

theorem validatedChanges_ok {rows changes : List WorkspaceChange} {expected : Option String}
    (ok : validatedChanges S expected rows = .ok changes) :
    changes = rows ∧ ∀ c ∈ rows, Matches c := by
  induction rows generalizing expected changes with
  | nil =>
    obtain rfl := Except.ok.inj ok
    exact ⟨rfl, fun _ mem => absurd mem List.not_mem_nil⟩
  | cons row rows ih =>
    obtain ⟨change, first, rest⟩ := bind_eq_ok.mp ok
    obtain ⟨others, later, rest⟩ := bind_eq_ok.mp rest
    obtain rfl := Except.ok.inj rest
    obtain ⟨rfl, matches_⟩ := validatedChange_ok first
    obtain ⟨rfl, all⟩ := ih later
    exact ⟨rfl, List.forall_mem_cons.mpr ⟨matches_, all⟩⟩

/-- What a page is: the next changes of the log. -/
structure PageOf (log : List WorkspaceChange) (cursor limit : Nat) (page : SyncPage) : Prop where
  requested : page.requestedCursor = cursor
  high : page.highWatermark = log.length
  le : cursor ≤ log.length
  changes : page.changes = (log.drop cursor).take limit
  next : page.nextCursor = cursor + page.changes.length
  hasMore : page.hasMore = decide (page.nextCursor < log.length)
  matching : ∀ c ∈ page.changes, Matches c

theorem Sound.changesBetween (sound : Sound s) (w : Uuid) (cursor : Nat) :
    s.changesBetween w cursor (s.changesOf w).length = (s.changesOf w).drop cursor := by
  have logged := sound.log w
  have same : (s.changesOf w).filter (fun c => cursor < c.sequence ∧
      c.sequence ≤ (s.changesOf w).length) = (s.changesOf w).drop cursor := by
    rw [← logged.filter_gt cursor]
    refine List.filter_congr fun c mem => ?_
    have bounds := logged.number_bounds mem
    simp [bounds.2]
  rw [Tables.changesBetween, same]
  refine List.Pairwise.insertionSort_eq ?_
  exact (logged.pairwise.drop).imp fun lt => Nat.le_of_lt lt

/-- The last change of a page is at the end of what has been read. -/
theorem nextCursor_eq (cursor limit : Nat) (logged : Log (·.sequence) DigestLink log) :
    ((((log.drop cursor).take limit).getLast?).map (·.sequence)).getD cursor =
      cursor + ((log.drop cursor).take limit).length := by
  cases last : ((log.drop cursor).take limit).getLast? with
  | none =>
    rw [List.getLast?_eq_none_iff.mp last]
    rfl
  | some c =>
    rw [List.getLast?_eq_getElem?] at last
    obtain ⟨lt, rfl⟩ := List.getElem?_eq_some_iff.mp last
    rw [Option.map_some, Option.getD_some, List.getElem_take, List.getElem_drop,
      logged.getElem_number]
    omega

theorem Sound.page_ok (sound : Sound s)
    (ok : s.page S caller cursor limit = .ok page) :
    PageOf (s.changesOf caller.workspaceId) cursor limit page := by
  obtain ⟨⟨workspace, role, membershipVersion⟩, authorized, rest⟩ := bind_eq_ok.mp ok
  obtain ⟨head, read, rest⟩ := bind_eq_ok.mp rest
  obtain ⟨_, -, rest⟩ := bind_eq_ok.mp rest
  obtain ⟨_, ahead, rest⟩ := bind_eq_ok.mp rest
  obtain ⟨_, -, rest⟩ := bind_eq_ok.mp rest
  obtain ⟨expected, -, rest⟩ := bind_eq_ok.mp rest
  obtain ⟨changes, validated, rest⟩ := bind_eq_ok.mp rest
  obtain rfl := Except.ok.inj rest
  have id := latestWorkspace_id (authorize_ok authorized)
  have ends := head_ok read
  rw [id, sound.ends] at ends
  have high : head.currentSequence = (s.changesOf caller.workspaceId).length :=
    (Prod.mk.inj ends).1.symm
  obtain ⟨rfl, matching⟩ := validatedChanges_ok validated
  have le := Nat.le_of_not_lt (refuse_eq_ok.mp ahead)
  rw [high] at le
  rw [high, sound.changesBetween] at matching ⊢
  have next := nextCursor_eq cursor limit (sound.log caller.workspaceId)
  exact ⟨rfl, rfl, le, rfl, next, rfl, matching⟩

theorem head_retained {head : Head} (retained : Retained s) (ok : s.head w = .ok head) :
    head.retentionFloor ≤ head.currentSequence := by
  rw [Tables.head] at ok
  cases found : s.heads.get? w with
  | some row =>
    rw [found] at ok
    obtain rfl := Except.ok.inj ok
    exact retained row (Table.get?_eq_some.mp found).1
  | none =>
    rw [found] at ok
    obtain ⟨-, ok⟩ := ite_error_eq_ok.mp ok
    obtain rfl := Except.ok.inj ok
    exact Nat.le_refl 0

theorem raises_expectedPrevious {floor : Nat} :
    Raises SyncError.Plain (s.expectedPrevious w cursor floor) := by
  rw [expectedPrevious]
  apply raises_ite
  · exact raises_ok _
  · apply raises_ite
    · exact Raises.map (raises_present trivial)
    · exact raises_ok _

theorem raises_validatedChanges {rows : List WorkspaceChange} {expected : Option String} :
    Raises SyncError.Plain (validatedChanges S expected rows) := by
  induction rows generalizing expected with
  | nil => exact raises_ok _
  | cons row rows ih =>
    refine raises_validatedChange.bind fun change _ => ?_
    exact ih.bind fun _ _ => raises_ok _

/-- A boundary that is within a log. -/
def Within (length : Nat) : SyncError → Prop
  | .resyncRequired detail => detail.resumeCursor ≤ length
  | _ => True

/-- The boundary of a resync is within the log. -/
theorem Sound.resync_le (sound : Sound s) {detail : ResyncDetail}
    (required : s.page S caller cursor limit = .error (.resyncRequired detail)) :
    detail.resumeCursor ≤ (s.changesOf caller.workspaceId).length := by
  have plain : ∀ e, SyncError.Plain e → Within (s.changesOf caller.workspaceId).length e := by
    intro e plain
    cases e with
    | conflict | resyncRequired => exact plain.elim
    | protocol | sensitive | invalid | integrity => trivial
  have raises : Raises (Within (s.changesOf caller.workspaceId).length)
      (s.page S caller cursor limit) := by
    refine (raises_authorize.mono plain).bind ?_
    rintro ⟨workspace, role, membershipVersion⟩ authorized
    refine (raises_head.mono plain).bind fun head read => ?_
    refine (raises_validateHeadTail.mono plain).bind fun _ _ => ?_
    refine (raises_refuse trivial).bind fun _ _ => ?_
    refine (raises_refuse ?_).bind fun _ _ => ?_
    · have id := latestWorkspace_id (authorize_ok authorized)
      have ends := head_ok read
      rw [id, sound.ends] at ends
      have floor := head_retained sound.retained read
      show head.retentionFloor ≤ _
      rw [(Prod.mk.inj ends).1]
      exact floor
    refine (raises_expectedPrevious.mono plain).bind fun _ _ => ?_
    exact (raises_validatedChanges.mono plain).bind fun _ _ => raises_ok _
  exact raises _ required

/-! ## Reducing the changes of a page -/

/-- The payload of the last change of a kind. -/
def lastOf (kind : ChangeKind) (changes : List WorkspaceChange) : Option Profile :=
  ((changes.filter (·.kind = kind)).getLast?).map (·.payload)

theorem lastOf_concat {kind : ChangeKind} {changes : List WorkspaceChange} :
    lastOf kind (changes ++ [c]) =
      if c.kind = kind then some c.payload else lastOf kind changes := by
  rw [lastOf, List.filter_append]
  by_cases same : c.kind = kind
  · simp [same]
  · simp [same, lastOf]

/-- The ledger has taken the changes of `read` after the first `start`. -/
structure Holds (start : Nat) (read : List WorkspaceChange) (r : Reduction) : Prop where
  cursor : r.cursor = read.length
  begun : start ≤ read.length
  account : r.currentAccount.map .account = lastOf .accountProfile (read.drop start)
  workspace : r.currentWorkspace.map .workspace = lastOf .workspaceProfile (read.drop start)
  chain : (0 < read.length ∧ r.digests = [] ∧ r.lastDigest = genesisDigest) ∨
    r.lastDigest = digestOf read.getLast? ∧ (read.length = 0 ∨ r.digests ≠ [])

/-- A change of the reader. -/
def OwnedBy (reader : SyncProvenance) (c : WorkspaceChange) : Prop :=
  c.accountId = reader.accountId ∧ c.principalId = reader.principalId

instance : Decidable (OwnedBy reader c) := inferInstanceAs (Decidable (_ ∧ _))

/-- A change of somebody else is refused, wherever it stands. -/
theorem reduceChange_foreign (foreign : ¬ OwnedBy reader c) :
    reduceChange reader r c = .error "sync_provenance_invalid" := by
  rw [reduceChange, require_of_not]
  · rfl
  · rintro ⟨account, principal, -⟩
    exact foreign ⟨account, principal⟩

/-- The next change of the log is taken when it is the reader's. -/
theorem Holds.reduceChange (holds : Holds start log r)
    (logged : Log (·.sequence) DigestLink (log ++ [c])) (own : OwnedBy reader c)
    (workspace : c.workspaceId = reader.workspaceId) (matching : Matches c) :
    ∃ r', reduceChange reader r c = .ok r' ∧ Holds start (log ++ [c]) r' ∧ r'.changed = true := by
  obtain ⟨sequence, previous⟩ := logged.follows
  have cursor := holds.cursor
  have later : ¬ c.sequence ≤ r.cursor := by omega
  have adjacent : c.sequence = r.cursor + 1 := by omega
  have chained : c.previousDigest =
      if 0 < r.cursor ∧ r.digests = [] ∧ r.lastDigest = genesisDigest then c.previousDigest
      else r.lastDigest := by
    split
    · rfl
    · rename_i known
      obtain ⟨some_, empty, genesis⟩ | ⟨last, -⟩ := holds.chain
      · exact absurd ⟨cursor ▸ some_, empty, genesis⟩ known
      · rw [last]
        exact previous
  have appended : ∀ r' : Reduction, Holds start (log ++ [c]) (r'.next c) ↔
      r'.currentAccount.map .account = lastOf .accountProfile ((log ++ [c]).drop start) ∧
      r'.currentWorkspace.map .workspace = lastOf .workspaceProfile ((log ++ [c]).drop start) := by
    intro r'
    refine ⟨fun h => ⟨h.account, h.workspace⟩, fun ⟨account, workspace⟩ => ?_⟩
    refine ⟨?_, ?_, account, workspace, .inr ⟨?_, .inr (List.cons_ne_nil _ _)⟩⟩
    · rw [List.length_append, List.length_singleton]
      exact sequence
    · rw [List.length_append]
      exact Nat.le_trans holds.begun (Nat.le_add_right _ _)
    · rw [List.getLast?_concat]
      rfl
  have drop : (log ++ [c]).drop start = log.drop start ++ [c] :=
    List.drop_append_of_le_length holds.begun
  rw [drop, lastOf_concat, lastOf_concat, ← holds.account, ← holds.workspace] at appended
  rw [Sync.reduceChange, require_of ⟨own.1, own.2, workspace⟩, ok_bind, if_neg later,
    require_of adjacent, ok_bind]
  show ∃ r', (require (c.previousDigest = _) _ >>= _) = _ ∧ _
  rw [require_of chained, ok_bind]
  cases payload : c.payload with
  | account p =>
    rw [Matches, payload] at matching
    obtain ⟨⟨kind, operation, -⟩, -⟩ := matching
    rw [if_pos ⟨kind, operation⟩]
    refine ⟨_, rfl, (appended { r with currentAccount := some p }).mpr ?_, rfl⟩
    rw [if_pos kind, if_neg (by simp [kind]), payload]
    exact ⟨rfl, rfl⟩
  | workspace p =>
    rw [Matches, payload] at matching
    obtain ⟨⟨kind, operation, -⟩, -⟩ := matching
    rw [if_neg (by simp [kind]), if_pos ⟨kind, operation⟩]
    refine ⟨_, rfl, (appended { r with currentWorkspace := some p }).mpr ?_, rfl⟩
    rw [if_neg (by simp [kind]), if_pos kind, payload]
    exact ⟨rfl, rfl⟩

/-- All the changes of a page are taken if they are the reader's, and else the page is refused. -/
theorem Holds.foldlM (holds : Holds start log r)
    (logged : Log (·.sequence) DigestLink (log ++ more))
    (workspace : ∀ c ∈ more, c.workspaceId = reader.workspaceId)
    (matching : ∀ c ∈ more, Matches c) :
    if ∀ c ∈ more, OwnedBy reader c then
      ∃ r', more.foldlM (Sync.reduceChange reader) r = .ok r' ∧ Holds start (log ++ more) r' ∧
        (r'.changed = false → r' = r)
    else more.foldlM (Sync.reduceChange reader) r = .error "sync_provenance_invalid" := by
  induction more generalizing log r with
  | nil =>
    rw [if_pos fun c mem => absurd mem List.not_mem_nil, List.append_nil]
    exact ⟨r, rfl, holds, fun _ => rfl⟩
  | cons c more ih =>
    have split : log ++ c :: more = log ++ [c] ++ more := by
      rw [List.append_assoc, List.singleton_append]
    rw [List.foldlM_cons]
    rw [split] at logged ⊢
    by_cases own : OwnedBy reader c
    · obtain ⟨r', taken, holds', changed⟩ := holds.reduceChange logged.start own
        (workspace c List.mem_cons_self) (matching c List.mem_cons_self)
      have rest := ih holds' logged (fun d mem => workspace d (List.mem_cons_of_mem c mem))
        fun d mem => matching d (List.mem_cons_of_mem c mem)
      rw [taken, ok_bind]
      by_cases all : ∀ d ∈ more, OwnedBy reader d
      · rw [if_pos all] at rest
        rw [if_pos (List.forall_mem_cons.mpr ⟨own, all⟩)]
        obtain ⟨q, folded, holds'', same⟩ := rest
        refine ⟨q, folded, holds'', fun unchanged => ?_⟩
        rw [same unchanged, changed] at unchanged
        exact nomatch unchanged
      · rw [if_neg all] at rest
        rw [if_neg fun both => all (List.forall_mem_cons.mp both).2]
        exact rest
    · rw [if_neg fun both => own (List.forall_mem_cons.mp both).1, reduceChange_foreign own]
      rfl

/-! ## The ledger -/

/-- The ledger has taken the log up to its cursor. -/
structure Tracks (log : List WorkspaceChange) (start : Nat) (ledger : SyncLedger) : Prop where
  holds : Holds start (log.take ledger.cursor) ledger.reduction
  high : ledger.highWatermark ≤ log.length

theorem Tracks.cursor_le {ledger : SyncLedger} (tracks : Tracks log start ledger) :
    ledger.cursor ≤ log.length := by
  have cursor : ledger.cursor = _ := tracks.holds.cursor
  rw [List.length_take] at cursor
  omega

/-- What is appended to the log is beyond the cursor. -/
theorem Tracks.grown {ledger : SyncLedger} (tracks : Tracks log start ledger)
    (grows : log <+: more) : Tracks more start ledger := by
  obtain ⟨rest, rfl⟩ := grows
  constructor
  · rw [List.take_append_of_le_length tracks.cursor_le]
    exact tracks.holds
  · rw [List.length_append]
    exact Nat.le_trans tracks.high (Nat.le_add_right _ _)

theorem tracks_boundary (le : start ≤ log.length) : Tracks log start (boundaryLedger start) := by
  have length : (log.take start).length = start := by
    rw [List.length_take]
    omega
  have none_ : (log.take start).drop start = [] :=
    List.drop_eq_nil_of_le (Nat.le_of_eq length)
  refine ⟨⟨length.symm, Nat.le_of_eq length.symm, ?_, ?_, ?_⟩, le⟩
  · show none = lastOf _ ((log.take start).drop start)
    rw [none_]
    rfl
  · show none = lastOf _ ((log.take start).drop start)
    rw [none_]
    rfl
  · show 0 < (log.take start).length ∧ [] = [] ∧ genesisDigest = genesisDigest ∨ _
    rw [length]
    obtain rfl | some_ := Nat.eq_zero_or_pos start
    · exact .inr ⟨rfl, .inl rfl⟩
    · exact .inl ⟨some_, rfl, rfl⟩

/-- A page of the reader's changes takes the ledger to its end. -/
theorem Tracks.reduce {ledger : SyncLedger} (tracks : Tracks log start ledger)
    (reader : SyncProvenance) (logged : Log (·.sequence) DigestLink log)
    (workspace : ∀ c ∈ log, c.workspaceId = reader.workspaceId)
    (paged : PageOf log ledger.cursor limit page) :
    if ∀ c ∈ page.changes, OwnedBy reader c then
      ∃ next, reduceSyncPage ledger page reader = .ok next ∧ Tracks log start next ∧
        next.cursor = page.nextCursor
    else reduceSyncPage ledger page reader = .error "sync_provenance_invalid" := by
  have read : log.take ledger.cursor ++ page.changes = log.take page.nextCursor := by
    have first : page.changes <+: log.drop ledger.cursor := by
      rw [paged.changes]
      exact List.take_prefix _ _
    rw [paged.next, List.take_add, ← List.prefix_iff_eq_take.mp first]
  have within : ∀ c ∈ page.changes, c.workspaceId = reader.workspaceId := by
    intro c mem
    rw [paged.changes] at mem
    exact workspace c (List.mem_of_mem_drop (List.mem_of_mem_take mem))
  have prefix_ : Log (·.sequence) DigestLink (log.take ledger.cursor ++ page.changes) := by
    rw [read]
    rw [← List.take_append_drop page.nextCursor log] at logged
    exact logged.start
  have next_le : page.nextCursor ≤ log.length := by
    have length := congrArg List.length read
    rw [List.length_append, List.length_take, List.length_take, paged.next] at length
    rw [paged.next]
    have le := tracks.cursor_le
    omega
  have folded := tracks.holds.foldlM prefix_ within paged.matching
  have forward : ¬ (page.highWatermark < ledger.highWatermark ∨
      page.nextCursor < ledger.cursor) := by
    have high := tracks.high
    rw [paged.high, paged.next]
    omega
  rw [reduceSyncPage, require_of paged.requested, ok_bind, refuse, if_neg forward, ok_bind]
  by_cases own : ∀ c ∈ page.changes, OwnedBy reader c
  · rw [if_pos own] at folded ⊢
    obtain ⟨r, folded, holds, still⟩ := folded
    have cursor := holds.cursor
    rw [read, List.length_take, Nat.min_eq_left next_le] at cursor
    rw [folded, ok_bind]
    show ∃ next, (refuse _ _ >>= _) = _ ∧ _
    rw [refuse, if_neg (by rw [cursor, paged.high]; omega), ok_bind]
    rw [read] at holds
    by_cases same : r.changed = false ∧ page.highWatermark = ledger.highWatermark
    · rw [if_pos same]
      obtain rfl := still same.1
      refine ⟨ledger, rfl, tracks, cursor⟩
    · rw [if_neg same]
      refine ⟨_, rfl, ⟨?_, ?_⟩, cursor⟩
      · show Holds start (log.take r.cursor) _
        rw [← cursor] at holds
        exact ⟨holds.cursor, holds.begun, holds.account, holds.workspace, holds.chain⟩
      · show page.highWatermark ≤ _
        rw [paged.high]
  · rw [if_neg own] at folded ⊢
    rw [folded]
    rfl

/-! ## Runs of a reader -/

/-- The log is sound, and the ledger has taken it up to its cursor. -/
structure Reader.Sound (reader : SyncProvenance) (r : Reader) : Prop where
  tables : Sync.Sound r.tables
  tracks : Tracks (r.tables.changesOf reader.workspaceId) r.start r.ledger

theorem Reader.sound_empty : Reader.Sound reader .empty :=
  ⟨sound_bare, tracks_boundary (Nat.le_refl 0)⟩

theorem workspaceId_of_mem (mem : c ∈ s.changesOf w) : c.workspaceId = w :=
  of_decide_eq_true (List.mem_filter.mp mem).2

theorem Reader.Sound.step {r : Reader} (sound : Reader.Sound reader r) (event : Event) :
    Reader.Sound reader (r.step S reader event) := by
  cases event with
  | commit action =>
    have kept := (sound.tables.effect (S := S) action).kept sound.tables
    exact ⟨kept.sound, sound.tracks.grown (kept.grows _)⟩
  | reload => exact ⟨sound.tables, tracks_boundary (Nat.zero_le _)⟩
  | request deviceId deviceVersion limit =>
    rw [Reader.step]
    cases answered : r.tables.page S (reader.on deviceId deviceVersion) r.ledger.cursor limit with
    | ok page =>
      have reduced := sound.tracks.reduce reader (sound.tables.log _)
        (fun _ mem => workspaceId_of_mem mem) (sound.tables.page_ok answered)
      dsimp only
      split
      · rename_i ledger taken
        split at reduced
        · obtain ⟨next, accepted, tracks, -⟩ := reduced
          obtain rfl := Except.ok.inj (taken.symm.trans accepted)
          exact ⟨sound.tables, tracks⟩
        · exact nomatch taken.symm.trans reduced
      · exact sound
    | error e =>
      cases e with
      | resyncRequired detail =>
        exact ⟨sound.tables, tracks_boundary (sound.tables.resync_le answered)⟩
      | protocol | conflict | sensitive | invalid | integrity => exact sound

/-- In every state of every run, a page of the reader's own changes is taken, and the last page
takes the ledger to the end of the log with the last profiles after the cursor it was begun at; a
page with the change of another member is refused. -/
theorem ledger_follows_log {r : Reader} {deviceId : Uuid} {deviceVersion : Nat}
    (reached : Reachable (Reader.step S reader) .empty r)
    (answered : r.tables.page S (reader.on deviceId deviceVersion) r.ledger.cursor limit =
      .ok page) :
    if ∀ c ∈ page.changes, OwnedBy reader c then
      ∃ ledger, reduceSyncPage r.ledger page reader = .ok ledger ∧
        (page.hasMore = false → ledger.cursor = page.highWatermark ∧
          ledger.cursor = (logOf r.tables reader.workspaceId).length ∧
          ledger.accountProfile.map .account =
            lastOf .accountProfile ((logOf r.tables reader.workspaceId).drop r.start) ∧
          ledger.workspaceProfile.map .workspace =
            lastOf .workspaceProfile ((logOf r.tables reader.workspaceId).drop r.start))
    else reduceSyncPage r.ledger page reader = .error "sync_provenance_invalid" := by
  have sound := reached.preserves Reader.sound_empty fun _ event sound => sound.step event
  have paged := sound.tables.page_ok answered
  have reduced := sound.tracks.reduce reader (sound.tables.log _)
    (fun _ mem => workspaceId_of_mem mem) paged
  by_cases own : ∀ c ∈ page.changes, OwnedBy reader c
  · rw [if_pos own] at reduced ⊢
    obtain ⟨ledger, accepted, tracks, cursor⟩ := reduced
    refine ⟨ledger, accepted, fun last => ?_⟩
    rw [paged.hasMore] at last
    have all : ledger.cursor = (r.tables.changesOf reader.workspaceId).length := by
      have le := tracks.cursor_le
      have ends : ¬ page.nextCursor < (r.tables.changesOf reader.workspaceId).length :=
        of_decide_eq_false last
      omega
    have holds := tracks.holds
    rw [List.take_of_length_le (Nat.le_of_eq all.symm)] at holds
    rw [sound.tables.logOf]
    exact ⟨all.trans paged.high.symm, all, holds.account, holds.workspace⟩
  · rw [if_neg own] at reduced ⊢
    exact reduced

namespace Sample

/-- The owner and another member of the workspace read its log. -/
def byOwner : SyncProvenance := ⟨.ofNat 2, .ofNat 3, .ofNat 1⟩

def byMember : SyncProvenance := ⟨.ofNat 5, .ofNat 6, .ofNat 1⟩

/-- Two members, each with a device. -/
def members : Authority where
  accounts := ⟨[⟨.ofNat 2, .ofNat 3, .developer, 1⟩, ⟨.ofNat 5, .ofNat 6, .everyday, 1⟩],
    by decide⟩
  onboarding := ∅
  devices := ⟨[
    ⟨.ofNat 4, .ofNat 2, "", .active, none, 1, Accounts.DeviceStatus.active_revocation, Nat.one_pos⟩,
    ⟨.ofNat 7, .ofNat 5, "", .active, none, 1, Accounts.DeviceStatus.active_revocation, Nat.one_pos⟩],
    by decide⟩
  memberships := ⟨[⟨.ofNat 1, .ofNat 3, "Owner", .active, 1⟩,
    ⟨.ofNat 1, .ofNat 6, "Viewer", .active, 1⟩], by decide⟩

/-- The owner renames the workspace. -/
def renamed : List Event :=
  [.commit (.authorities members),
    .commit (.begin ⟨.ofNat 1, "first", .team, .active, 0, 0, 1⟩),
    .commit (.apply owner 0 [rename] 0)]

/-- What a reader has come to who has read nothing yet. -/
def unread (reader : SyncProvenance) : Reader :=
  exec (Reader.step security reader) .empty renamed

/-- The change of the owner. -/
def ownersChange : WorkspaceChange :=
  changeOf security.toDigests ⟨.ofNat 1, "second", .team, .active, 0, 0, 2⟩ owner 1 1 genesisDigest
    rename (.workspace ⟨.ofNat 1, "second", .team, .active, 2⟩) 0

/-- The page that every member gets. -/
def firstPage : SyncPage := ⟨0, 1, 1, 1, [ownersChange], false⟩

theorem page_owner : (unread byOwner).tables.page security (byOwner.on (.ofNat 4) 1)
    (unread byOwner).ledger.cursor 100 = .ok firstPage := by
  decide +kernel

theorem page_member : (unread byMember).tables.page security (byMember.on (.ofNat 7) 1)
    (unread byMember).ledger.cursor 100 = .ok firstPage := by
  decide +kernel

end Sample

/-- The owner takes the page with the change of its own. -/
theorem ledger_follows_log_owner : ∃ ledger,
    reduceSyncPage (Sample.unread Sample.byOwner).ledger Sample.firstPage Sample.byOwner =
      .ok ledger := by
  have reached : Reachable (Reader.step Sample.security Sample.byOwner) .empty
      (Sample.unread Sample.byOwner) := ⟨Sample.renamed, rfl⟩
  have follows := ledger_follows_log reached Sample.page_owner
  rw [if_pos (by decide)] at follows
  obtain ⟨ledger, taken, -⟩ := follows
  exact ⟨ledger, taken⟩

/-- Another member gets the same page, and cannot take it. -/
theorem member_refuses_page :
    ∃ r, Reachable (Reader.step Sample.security Sample.byMember) .empty r ∧ ∃ page,
      r.tables.page Sample.security (Sample.byMember.on (.ofNat 7) 1) r.ledger.cursor 100 =
        .ok page ∧
      reduceSyncPage r.ledger page Sample.byMember = .error "sync_provenance_invalid" := by
  refine ⟨Sample.unread Sample.byMember, ⟨Sample.renamed, rfl⟩, Sample.firstPage,
    Sample.page_member, ?_⟩
  rfl

end Corvus.Sync
