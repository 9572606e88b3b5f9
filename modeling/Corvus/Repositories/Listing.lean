import Corvus.Library.Run
import Corvus.Repositories.Workspace

/-!
# Listing repositories page by page

`listAllRepositories` asks for the repositories page by page, while others register, refresh and
remove repositories. A repository that stays is listed once, unless a write moves it over the
boundary between the rows that have been asked for and the rest, or it has no snapshot.
-/

namespace Corvus.Repositories

open Run

/-! ## The call -/

def LOCAL_REPOSITORY_PAGE_SIZE : Nat := 100

def MAX_LOCAL_REPOSITORY_PAGES : Nat := 20

/-- `ConversationApiError`. -/
structure ApiError where
  status : Nat
  code : String

/-- A call of `listAllRepositories`, with the tables that it reads through the server. -/
structure Listing where
  db : Db
  page : Nat
  repositories : List RepositoryRecord
  outcome : Option (Except ApiError (List RepositoryRecord))

namespace Listing

def start (db : Db) : Listing := ⟨db, 0, [], none⟩

/-- One round of the loop. -/
def request (tenantId : String) (l : Listing) : Listing :=
  let items := l.db.list tenantId LOCAL_REPOSITORY_PAGE_SIZE (l.page * LOCAL_REPOSITORY_PAGE_SIZE)
  let repositories := l.repositories ++ items
  { db := l.db
    page := l.page + 1
    repositories
    outcome :=
      if items.length < LOCAL_REPOSITORY_PAGE_SIZE then some (.ok repositories)
      else if l.page + 1 < MAX_LOCAL_REPOSITORY_PAGES then none
      else some (.error ⟨413, "local_collection_limit_exceeded"⟩) }

/-- The tables after some writes. -/
def written (l : Listing) (writes : List Write) : Db := exec Db.perform l.db writes

/-- The writes since the last request, and a request unless the call has ended. -/
def turn (tenantId : String) (l : Listing) (writes : List Write) : Listing :=
  match l.outcome with
  | none => request tenantId { l with db := l.written writes }
  | some _ => { l with db := l.written writes }

end Listing

/-! ## Completeness -/

section

variable (tenantId : String) (db : Db) (turns : List (List Write))

/-- The repository is registered at every request of the call. -/
def Registered (id : Uuid) : Prop :=
  Along (Listing.turn tenantId)
    (fun l writes => l.outcome = none →
      ((l.written writes).repositories.get? id).any (·.tenantId = tenantId) = true)
    (.start db) turns

/-- The call ends within twenty requests and without the limit error, and lists every repository
that is registered all the time once. -/
structure Complete : Prop where
  unlimited : ∀ e, (exec (Listing.turn tenantId) (.start db) turns).outcome ≠ some (.error e)
  returns : 20 ≤ turns.length →
    ((exec (Listing.turn tenantId) (.start db) turns).outcome).isSome = true
  once : ∀ result, (exec (Listing.turn tenantId) (.start db) turns).outcome = some (.ok result) →
    ∀ id, Registered tenantId db turns id → (result.map (·.repository.id)).count id = 1

/-! ### The condition -/

/-- The repositories in the order in which they are listed. -/
def ids (db : Db) : List Uuid := (db.ordered tenantId).map (·.repository.id)

/-- Fewer than 2000 rows are listed at the twentieth request. -/
def Bounded (l : Listing) (writes : List Write) : Prop :=
  l.outcome = none → l.page = 19 → (ids tenantId (l.written writes)).length < 2000

/-- Whether a repository is among the rows that have been asked for. -/
def Passed (db : Db) (page : Nat) (id : Uuid) : Prop :=
  id ∈ (ids tenantId db).take (page * 100)

/-- The repository has its snapshot at the request, and the writes before it leave the repository
on its side of the rows that have been asked for. -/
def Steady (id : Uuid) (l : Listing) (writes : List Write) : Prop :=
  l.outcome = none →
    ((l.written writes).snapshots.get? id).isSome = true ∧
      (Passed tenantId l.db l.page id ↔ Passed tenantId (l.written writes) l.page id)

end

/-! ## One request -/

section

variable {tenantId : String} {db : Db} {turns : List (List Write)} {id : Uuid}
  {l : Listing} {writes : List Write} {outcome : Except ApiError (List RepositoryRecord)}

theorem ids_nodup (tenantId : String) (db : Db) : (ids tenantId db).Nodup := db.ordered_nodup tenantId

theorem mem_ids (registered : (db.repositories.get? id).any (·.tenantId = tenantId) = true)
    (snapshot : (db.snapshots.get? id).isSome = true) : id ∈ ids tenantId db := by
  cases found : db.repositories.get? id with
  | none =>
    rw [found] at registered
    cases registered
  | some r =>
    rw [found, Option.any_some, decide_eq_true_iff] at registered
    obtain ⟨mem, rfl⟩ := Table.get?_eq_some.mp found
    obtain ⟨s, stored⟩ := Option.isSome_iff_exists.mp snapshot
    exact List.mem_map.mpr ⟨⟨r, s⟩, Db.mem_ordered.mpr ⟨mem, registered, stored⟩, rfl⟩

/-- The rows up to the end of a page are the ones before it and the page. -/
theorem take_page {α : Type} (rows : List α) (page : Nat) :
    rows.take ((page + 1) * 100) =
      rows.take (page * 100) ++ (rows.drop (page * 100)).take 100 := by
  rw [← List.take_add, Nat.succ_mul]

theorem turn_ended (tenantId : String) (writes : List Write)
    (ended : l.outcome = some outcome) :
    (l.turn tenantId writes).outcome = some outcome := by
  rw [Listing.turn, ended]

/-- The outcome of a call stays what it is. -/
theorem exec_ended (ended : l.outcome = some outcome) (turns : List (List Write)) :
    (exec (Listing.turn tenantId) l turns).outcome = some outcome :=
  Run.preserves (I := fun l : Listing => l.outcome = some outcome) ended
    (fun _ writes ended => turn_ended tenantId writes ended) turns

/-- The records of a page. -/
def items (tenantId : String) (l : Listing) (writes : List Write) : List RepositoryRecord :=
  ((l.written writes).ordered tenantId).drop (l.page * 100) |>.take 100

theorem map_items : (items tenantId l writes).map (·.repository.id) =
    ((ids tenantId (l.written writes)).drop (l.page * 100)).take 100 := by
  rw [items, List.map_take, List.map_drop, ids]

/-- What a request does: the page is short just if the rows end before the end of the page. -/
theorem turn_open (going : l.outcome = none) :
    l.turn tenantId writes =
      { db := l.written writes
        page := l.page + 1
        repositories := l.repositories ++ items tenantId l writes
        outcome :=
          if (ids tenantId (l.written writes)).length < (l.page + 1) * 100 then
            some (.ok (l.repositories ++ items tenantId l writes))
          else if l.page + 1 < 20 then none
          else some (.error ⟨413, "local_collection_limit_exceeded"⟩) } := by
  have short : (items tenantId l writes).length < 100 ↔
      (ids tenantId (l.written writes)).length < (l.page + 1) * 100 := by
    rw [items, ids, List.length_take, List.length_drop, List.length_map]
    omega
  rw [Listing.turn, going]
  simp only [← short]
  rfl

/-! ## The limit -/

/-- A call that has not failed, and has not asked for all the pages. -/
def Fine (l : Listing) : Prop :=
  (l.outcome = none ∧ l.page < 20) ∨ ∃ result, l.outcome = some (.ok result)

theorem fine_start (db : Db) : Fine (.start db) := .inl ⟨rfl, Nat.zero_lt_succ 19⟩

theorem fine_turn (tenantId : String) (writes : List Write) (fine : Fine l) :
    Fine (l.turn tenantId writes) ∧ Bounded tenantId l writes ∨
      (∃ e, (l.turn tenantId writes).outcome = some (.error e)) ∧ ¬ Bounded tenantId l writes := by
  obtain ⟨going, within⟩ | ⟨result, ended⟩ := fine
  · rw [turn_open going]
    by_cases short : (ids tenantId (l.written writes)).length < (l.page + 1) * 100
    · refine .inl ⟨.inr ⟨_, if_pos short⟩, fun _ last => ?_⟩
      rwa [last] at short
    · by_cases more : l.page + 1 < 20
      · refine .inl ⟨.inl ⟨?_, more⟩, fun _ last => absurd last (by omega)⟩
        rw [if_neg short, if_pos more]
      · refine .inr ⟨⟨⟨413, "local_collection_limit_exceeded"⟩, ?_⟩, fun bounded => short ?_⟩
        · rw [if_neg short, if_neg more]
        · have last : l.page = 19 := by omega
          rw [last]
          exact bounded going last
  · refine .inl ⟨.inr ⟨result, turn_ended tenantId writes ended⟩, fun going => ?_⟩
    rw [ended] at going
    cases going

/-- The limit error is raised just if there are 2000 rows at the twentieth request. -/
theorem unlimited_iff (tenantId : String) (turns : List (List Write)) (fine : Fine l) :
    (∀ e, (exec (Listing.turn tenantId) l turns).outcome ≠ some (.error e)) ↔
      Along (Listing.turn tenantId) (Bounded tenantId) l turns := by
  induction turns generalizing l with
  | nil =>
    refine iff_of_true (fun e failed => ?_) trivial
    obtain ⟨going, -⟩ | ⟨result, ended⟩ := fine
    · exact absurd (going.symm.trans failed) (by simp)
    · exact absurd (ended.symm.trans failed) (by simp)
  | cons writes turns ih =>
    obtain ⟨next, bounded⟩ | ⟨⟨e, failed⟩, unbounded⟩ := fine_turn tenantId writes fine
    · rw [exec_cons, along_cons, ih next]
      exact (and_iff_right bounded).symm
    · refine iff_of_false (fun none_fails => ?_) fun along => unbounded along.1
      exact none_fails e (exec_ended failed turns)

/-- Every request asks for another page, until the call ends. -/
theorem exec_returns (enough : 20 ≤ l.page + turns.length) (fine : Fine l) :
    ((exec (Listing.turn tenantId) l turns).outcome).isSome = true := by
  induction turns generalizing l with
  | nil =>
    obtain ⟨-, within⟩ | ⟨result, ended⟩ := fine
    · simp only [List.length_nil] at enough
      omega
    · rw [exec_nil, ended]
      rfl
  | cons writes turns ih =>
    rw [exec_cons]
    obtain ⟨next, -⟩ | ⟨⟨e, failed⟩, -⟩ := fine_turn tenantId writes fine
    · obtain ⟨going, within⟩ | ⟨result, ended⟩ := fine
      · refine ih ?_ next
        rw [turn_open going]
        simp only [List.length_cons] at enough ⊢
        omega
      · rw [exec_ended (turn_ended tenantId writes ended)]
        rfl
    · rw [exec_ended failed]
      rfl

/-! ## Each repository once -/

/-- What has been collected of a repository: one record if it is among the rows that have been
asked for, and none otherwise. -/
def Collected (tenantId : String) (id : Uuid) (l : Listing) : Prop :=
  (l.outcome = none → (l.repositories.map (·.repository.id)).count id =
    ((ids tenantId l.db).take (l.page * 100)).count id) ∧
  ∀ result, l.outcome = some (.ok result) → (result.map (·.repository.id)).count id = 1

theorem collected_turn (collected : Collected tenantId id l)
    (registered : l.outcome = none →
      ((l.written writes).repositories.get? id).any (·.tenantId = tenantId) = true)
    (steady : Steady tenantId id l writes) : Collected tenantId id (l.turn tenantId writes) := by
  cases state : l.outcome with
  | some outcome =>
    have ended := turn_ended tenantId writes state
    refine ⟨fun going => ?_, fun result done => ?_⟩
    · rw [ended] at going
      cases going
    · rw [ended, ← state] at done
      exact collected.2 result done
  | none =>
    obtain ⟨snapshot, side⟩ := steady state
    have nodup := ids_nodup tenantId
    have before : ((ids tenantId l.db).take (l.page * 100)).count id =
        ((ids tenantId (l.written writes)).take (l.page * 100)).count id := by
      rw [((nodup l.db).sublist (List.take_sublist _ _)).count,
        ((nodup (l.written writes)).sublist (List.take_sublist _ _)).count]
      exact if_congr side rfl rfl
    have total : ((l.repositories ++ items tenantId l writes).map (·.repository.id)).count id =
        ((ids tenantId (l.written writes)).take ((l.page + 1) * 100)).count id := by
      rw [List.map_append, List.count_append, collected.1 state, before, map_items, take_page,
        List.count_append]
    rw [turn_open state]
    refine ⟨fun _ => total, fun result done => ?_⟩
    dsimp only at done
    by_cases short : (ids tenantId (l.written writes)).length < (l.page + 1) * 100
    · rw [if_pos short] at done
      obtain rfl := Except.ok.inj (Option.some.inj done)
      rw [total, List.take_of_length_le short.le]
      exact List.count_eq_one_of_mem (nodup _) (mem_ids (registered state) snapshot)
    · rw [if_neg short] at done
      split at done
      · cases done
      · cases done

/-- A call of `listAllRepositories` beside any writes ends, and fails just if it finds 2000 rows
at the twentieth request. It lists every repository that is registered all the time once, provided
that the repository has its snapshot at each request and that no write between two requests takes
it over the boundary of the rows that have been asked for. -/
theorem listing_complete (tenantId : String) (db : Db) (turns : List (List Write)) :
    ((∀ e, (exec (Listing.turn tenantId) (.start db) turns).outcome ≠ some (.error e)) ↔
      Along (Listing.turn tenantId) (Bounded tenantId) (.start db) turns) ∧
    (Along (Listing.turn tenantId) (Bounded tenantId) (.start db) turns →
      (∀ id, Registered tenantId db turns id →
        Along (Listing.turn tenantId) (Steady tenantId id) (.start db) turns) →
      Complete tenantId db turns) := by
  have limit := unlimited_iff tenantId turns (fine_start db)
  refine ⟨limit, fun bounded steady => ⟨limit.mpr bounded, fun enough => ?_, ?_⟩⟩
  · exact exec_returns (by simpa [Listing.start] using enough) (fine_start db)
  · intro result done id registered
    have start : Collected tenantId id (.start db) :=
      ⟨fun _ => by simp [Listing.start], fun _ none_yet => by cases none_yet⟩
    have both := registered.and (steady id registered)
    exact (both.preserves start fun l writes kept guard =>
      collected_turn kept guard.1 guard.2).2 result done

end

namespace Sample

def row (n : Nat) : RepositoryRow :=
  ⟨.ofNat n, "tenant", "/" ++ toString n, "repository", none, none, 0, 1000 - n⟩

def snapshot (n : Nat) : SnapshotRow := ⟨.ofNat n, "main", "", true, 0, 0, "healthy", 1000 - n⟩

theorem numbers_nodup : ((List.range 101).map Uuid.ofNat).Nodup := by decide +kernel

/-- A repository more than a page holds, each with its snapshot. -/
def db : Db where
  repositories := ⟨(List.range 101).map row, by rw [List.map_map]; exact numbers_nodup⟩
  snapshots := ⟨(List.range 101).map snapshot, by rw [List.map_map]; exact numbers_nodup⟩

/-- The last repository is refreshed between the two requests. -/
def turns : List (List Write) :=
  [[], [.refresh "tenant" (row 100) none (.answered "main" "" true 0 0 none none) 2000]]

end Sample

/-- The refreshed repository has moved to the first page, which has been read before, and the last
one of that page is listed again. -/
theorem refresh_hides_repository :
    Sample.db.repositories.rows.length ≤ 2000 ∧ ¬ Complete "tenant" Sample.db Sample.turns := by
  refine ⟨by decide, fun complete => ?_⟩
  have listed : ((exec (Listing.turn "tenant") (.start Sample.db) Sample.turns).outcome).map
        (fun outcome => outcome.toOption.map fun result =>
          ((result.map (·.repository.id)).count (.ofNat 99),
            (result.map (·.repository.id)).count (.ofNat 100))) = some (some (2, 0)) ∧
      Registered "tenant" Sample.db Sample.turns (.ofNat 100) := by
    unfold Registered
    decide +kernel
  obtain ⟨counts, registered⟩ := listed
  obtain ⟨outcome, ended, counted⟩ := Option.map_eq_some_iff.mp counts
  cases outcome with
  | error e => cases counted
  | ok result =>
    have hidden := (Prod.mk.inj (Option.some.inj counted)).2
    exact absurd (hidden.symm.trans (complete.once result ended _ registered)) (by decide)

/-- No write comes between the two requests. -/
theorem listing_complete_sample : Complete "tenant" Sample.db [[], []] := by
  have stored : ∀ r ∈ Sample.db.repositories.rows,
      (Sample.db.snapshots.get? r.id).isSome = true := by decide +kernel
  refine (listing_complete "tenant" Sample.db [[], []]).2 ⟨?_, ?_, trivial⟩ fun id registered => ?_
  · intro _ last
    cases last
  · intro _ last
    cases last
  · have snapshot : (Sample.db.snapshots.get? id).isSome = true := by
      have own := registered.1 rfl
      cases found : Sample.db.repositories.get? id with
      | none =>
        change (Sample.db.repositories.get? id).any _ = true at own
        rw [found] at own
        cases own
      | some r =>
        obtain ⟨mem, rfl⟩ := Table.get?_eq_some.mp found
        exact stored r mem
    exact ⟨fun _ => ⟨snapshot, Iff.rfl⟩, fun _ => ⟨snapshot, Iff.rfl⟩, trivial⟩

end Corvus.Repositories
