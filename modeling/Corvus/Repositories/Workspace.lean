import Corvus.Library.Calendar
import Corvus.Library.Except
import Corvus.Library.Table
import Corvus.Library.Text
import Corvus.Library.Uuid
import Mathlib.Data.List.Sort

/-!
# The repositories of a workspace

`RepositoryWorkspaceService`: the repositories of every tenant and their snapshots, with the
transactions that register, refresh and remove a repository, and the pages in which a tenant's
repositories are listed. What the file system and git answer comes with each call.
-/

namespace Corvus.Repositories

/-! ## Tables -/

structure RepositoryRow where
  id : Uuid
  tenantId : String
  canonicalPath : String
  displayName : String
  remoteSlug : Option String
  defaultBranch : Option String
  createdAt : Instant
  updatedAt : Instant

instance : Keyed RepositoryRow Uuid := ⟨RepositoryRow.id⟩

structure SnapshotRow where
  repositoryId : Uuid
  branch : String
  headSha : String
  clean : Bool
  ahead : Nat
  behind : Nat
  health : String
  refreshedAt : Instant

instance : Keyed SnapshotRow Uuid := ⟨SnapshotRow.repositoryId⟩

structure Db where
  repositories : Table RepositoryRow
  snapshots : Table SnapshotRow

/-- `RepositoryRecord`: a repository with its snapshot. -/
structure RepositoryRecord where
  repository : RepositoryRow
  snapshot : SnapshotRow

inductive Fault where
  | value (code : String)
  | conflict (code : String)
  | notFound (code : String)
  | integrity

/-! ## What is outside -/

/-- The root that the checks of a path come to, with what git says about it. -/
structure Root where
  path : String
  remoteSlug : Option String
  defaultBranch : Option String

/-- What `refresh` finds at the root: no directory, a command of git that fails, or answers. -/
inductive Found where
  | missing
  | failed (code : String)
  | answered (branch headSha : String) (clean : Bool) (ahead behind : Nat)
      (remoteSlug defaultBranch : Option String)

namespace Db

/-! ## Transactions -/

/-- The transaction of `register_local`, which `refresh` comes after. -/
def registerLocal (db : Db) (tenantId displayName : String) (selected : Except String Root)
    (id : Uuid) (now : Instant) : Except Fault Db := do
  let name := Text.strip displayName
  require (name ≠ "" ∧ name.length ≤ 200) (.value "repository_display_name_invalid")
  let root ← selected.mapError Fault.value
  require (db.repositories.rows.all fun r => r.canonicalPath ≠ root.path)
    (.conflict "repository_already_registered")
  let repositories ← present (db.repositories.insert?
    { id
      tenantId
      canonicalPath := root.path
      displayName := name
      remoteSlug := root.remoteSlug
      defaultBranch := root.defaultBranch
      createdAt := now
      updatedAt := now }) (.conflict "repository_already_registered")
  return { db with repositories }

/-- What `refresh` writes, of the row and the snapshot that it has read. -/
def refreshed (row : RepositoryRow) (previous : Option SnapshotRow) (found : Found)
    (now : Instant) : Except Fault (SnapshotRow × Option String × Option String) :=
  match found with
  | .missing => .ok
      ({ repositoryId := row.id
         branch := (previous.map (·.branch)).getD ""
         headSha := (previous.map (·.headSha)).getD ""
         clean := false
         ahead := 0
         behind := 0
         health := "missing"
         refreshedAt := now }, row.remoteSlug, row.defaultBranch)
  | .failed code => .error (.value code)
  | .answered branch headSha clean ahead behind remoteSlug defaultBranch => .ok
      ({ repositoryId := row.id, branch, headSha, clean, ahead, behind
         health := "healthy"
         refreshedAt := now }, remoteSlug, defaultBranch)

def withSnapshot (s : SnapshotRow) : Rewrite SnapshotRow where
  apply r := { s with repositoryId := r.repositoryId }
  keeps _ := rfl

def withRemote (remoteSlug defaultBranch : Option String) (now : Instant) :
    Rewrite RepositoryRow where
  apply r := { r with remoteSlug, defaultBranch, updatedAt := now }
  keeps _ := rfl

/-- `INSERT INTO mvp_repository_snapshots … ON CONFLICT(repository_id) DO UPDATE`. -/
def upsert (db : Db) (s : SnapshotRow) : Table SnapshotRow :=
  (db.snapshots.insert? s).getD
    (db.snapshots.update (·.repositoryId = s.repositoryId) (withSnapshot s))

/-- The transaction of `refresh`, after the row and the snapshot have been read in another. -/
def refresh (db : Db) (tenantId : String) (row : RepositoryRow) (previous : Option SnapshotRow)
    (found : Found) (now : Instant) : Except Fault Db := do
  let (snapshot, remoteSlug, defaultBranch) ← refreshed row previous found now
  require ((db.repositories.get? row.id).isSome) .integrity
  return {
    repositories := db.repositories.update (fun r => r.id = row.id ∧ r.tenantId = tenantId)
      (withRemote remoteSlug defaultBranch now)
    snapshots := db.upsert snapshot }

/-- `remove`; a repository that other tables refer to is in use. -/
def remove (db : Db) (tenantId : String) (id : Uuid) (inUse : Bool) : Except Fault Db := do
  require ((db.repositories.get? id).any (·.tenantId = tenantId)) (.notFound "repository_not_found")
  require (!inUse) (.conflict "repository_in_use")
  return {
    repositories := db.repositories.remove (·.id = id)
    snapshots := db.snapshots.remove (·.repositoryId = id) }

end Db

/-- A transaction of a call of `register_local`, `refresh` or `remove`. -/
inductive Write where
  | register (tenantId displayName : String) (selected : Except String Root) (id : Uuid)
      (now : Instant)
  | refresh (tenantId : String) (row : RepositoryRow) (previous : Option SnapshotRow)
      (found : Found) (now : Instant)
  | remove (tenantId : String) (id : Uuid) (inUse : Bool)

namespace Db

def attempt (db : Db) : Write → Except Fault Db
  | .register tenantId displayName selected id now =>
      db.registerLocal tenantId displayName selected id now
  | .refresh tenantId row previous found now => db.refresh tenantId row previous found now
  | .remove tenantId id inUse => db.remove tenantId id inUse

/-- A transaction that fails leaves the tables alone. -/
def perform (db : Db) (w : Write) : Db :=
  match db.attempt w with
  | .ok after => after
  | .error _ => db

/-! ## Pages -/

/-- The rows of the tenant's repositories that have a snapshot. -/
def joined (db : Db) (tenantId : String) : List RepositoryRecord :=
  db.repositories.rows.filterMap fun r =>
    if r.tenantId = tenantId then (db.snapshots.get? r.id).map (RepositoryRecord.mk r) else none

/-- `ORDER BY r.updated_at DESC, r.id`. -/
def precedes (a b : RepositoryRecord) : Bool :=
  if a.repository.updatedAt = b.repository.updatedAt then
    a.repository.id.text ≤ b.repository.id.text
  else b.repository.updatedAt < a.repository.updatedAt

def ordered (db : Db) (tenantId : String) : List RepositoryRecord :=
  (db.joined tenantId).insertionSort fun a b => precedes a b

/-- `list`. -/
def list (db : Db) (tenantId : String) (limit offset : Nat) : List RepositoryRecord :=
  ((db.ordered tenantId).drop offset).take limit

/-! ## The listed rows -/

section

variable {db : Db} {tenantId : String}

theorem mem_ordered {record : RepositoryRecord} :
    record ∈ db.ordered tenantId ↔ record.repository ∈ db.repositories ∧
      record.repository.tenantId = tenantId ∧
        db.snapshots.get? record.repository.id = some record.snapshot := by
  rw [ordered, List.mem_insertionSort, joined, List.mem_filterMap]
  constructor
  · rintro ⟨r, mem, found⟩
    obtain ⟨own, found⟩ := Option.ite_none_right_eq_some.mp found
    obtain ⟨s, snapshot, rfl⟩ := Option.map_eq_some_iff.mp found
    exact ⟨mem, own, snapshot⟩
  · rintro ⟨mem, own, snapshot⟩
    refine ⟨record.repository, mem, ?_⟩
    rw [if_pos own, snapshot, Option.map_some]

/-- No repository is listed twice at one moment. -/
theorem ordered_nodup (db : Db) (tenantId : String) :
    ((db.ordered tenantId).map (·.repository.id)).Nodup := by
  have listed : ((db.joined tenantId).map (·.repository.id)).Sublist
      (db.repositories.rows.map key) := by
    unfold joined
    induction db.repositories.rows with
    | nil => exact List.Sublist.refl _
    | cons r rows ih =>
      rw [List.filterMap_cons, List.map_cons]
      split
      · exact ih.cons _
      · rename_i record found
        obtain ⟨-, found⟩ := Option.ite_none_right_eq_some.mp found
        obtain ⟨s, -, rfl⟩ := Option.map_eq_some_iff.mp found
        exact ih.cons_cons _
  have perm : ((db.ordered tenantId).map (·.repository.id)).Perm
      ((db.joined tenantId).map (·.repository.id)) := (List.perm_insertionSort _ _).map _
  exact perm.nodup_iff.mpr (db.repositories.nodup.sublist listed)

end

end Db

end Corvus.Repositories
