import Corvus.Library.Calendar
import Corvus.Library.Encodings
import Corvus.Library.Except
import Corvus.Library.Procedure
import Corvus.Library.Table
import Corvus.Library.Text
import Corvus.Library.Uuid
import Mathlib.Data.List.Sort

/-!
# The worktree manager

`WorktreeManager` of `mvp/worktrees.py` with its table of leases. Every statement of the
database, every look at the file system and every run of git is one question. Git, the
directory of a repository and the activation of a lease complete or fail as they will, and a
call that fails is without effect. Nobody else touches the managed root, in which there are no
links; of its directories those of the worktrees are kept, which the ones of the repositories
only hold together.
-/

namespace Corvus.Worktrees

inductive Status where
  | creating
  | active
  | discarded
deriving DecidableEq, Repr

inductive Failure where
  | ownership (code : String)
  | conflict (code : String)
  | notFound (code : String)
  | os
  | unicode

/-- A lease, as it is stored and as it is returned. -/
structure WorktreeLease where
  runId : String
  repositoryId : String
  root : String
  baseSha : String
  ownershipDigest : String
  status : Status
  createdAt : Instant
  discardedAt : Option Instant
deriving DecidableEq, Repr

instance : Keyed WorktreeLease String := ⟨WorktreeLease.runId⟩

/-- What is read of a row of `mvp_repositories`, and of the record that `create` is given. -/
structure RepositoryRecord where
  id : Uuid
  path : String

/-- A worktree that git has added. The git directory that its `.git` file names is one. -/
structure Worktree where
  root : String
  gitFile : Option (List UInt8)
  gitDirectory : Bool
  head : List UInt8

instance : Keyed Worktree String := ⟨Worktree.root⟩

/-- The manager with the functions that it takes from the standard library, and the
repositories that are registered. -/
structure Manager where
  root : String
  ownershipSecret : List UInt8
  secret_long : 16 ≤ ownershipSecret.length
  hmac : List UInt8 → List UInt8 → String
  sha256 : List UInt8 → String
  repositories : List RepositoryRecord

/-! ## Questions -/

inductive Port where
  | lease (runId : String)
  | creatingLeases
  | repository (id : String)
  | insertLease (runId repositoryId root baseSha digest : String) (createdAt : Instant)
  | activate (runId root digest : String)
  | discardLease (runId : String) (discardedAt : Instant)
  | deleteCreating (runId : String)
  | isThere (path : String)
  | isRepository (path : String)
  | readGit (root : String)
  | isGitDirectory (root path : String)
  | worktreeAdd (repository target sha : String)
  | revParse (target : String)
  | worktreeRemove (repository target : String)
  | worktreePrune (repository : String)
  | rmdir (path : String)
  | now

/-- An insertion that breaks a constraint is answered with `false`, and so is what fails. An
activation that raises is answered with `none`, and another one with its row count. -/
abbrev Port.Answer : Port → Type
  | .lease _ => Option WorktreeLease
  | .creatingLeases => List (WorktreeLease × String)
  | .repository _ => Option String
  | .activate .. => Option Nat
  | .discardLease .. | .deleteCreating _ => Unit
  | .readGit _ | .revParse _ => Option (List UInt8)
  | .now => Instant
  | _ => Bool

abbrev Program := Procedure Failure Port Port.Answer

open Procedure

/-! ## Checks -/

/-- `_run_id`. A value whose lower case is the text of a UUID is read as that UUID. -/
def runIdOf (value : String) : Except Failure String := do
  let parsed ← present (Uuid.ofText? (String.ofList (Text.lower value.toList)))
    (.ownership "worktree_run_id_invalid")
  return parsed.text

/-- `_valid_sha`. -/
def validSha (value : String) : Bool :=
  (value.length = 40 || value.length = 64) &&
    value.toList.all fun c => c ∈ "0123456789abcdef".toList

/-- `bytes.decode("ascii", errors="strict")`. -/
def decodeAscii (raw : List UInt8) : Option String :=
  if raw.all (· < 128) then some (String.ofList (raw.map fun b => Char.ofNat b.toNat)) else none

/-- What `_git_metadata_digest` makes of the bytes of a `.git` file before it looks for the
directory that they name. -/
def gitDirectoryOf (raw : List UInt8) : Except Failure String := do
  let text ← present (String.fromUTF8? ⟨raw.toArray⟩) (.ownership "worktree_git_metadata_invalid")
  let text := (Text.strip text).toList
  refuse (4096 < raw.length ∨ ¬ "gitdir: ".toList <+: text ∨ '\n' ∈ text ∨ '\r' ∈ text)
    (.ownership "worktree_git_metadata_invalid")
  return String.ofList (text.drop 8)

section Manager

variable (m : Manager)

/-- The path of the worktree of a run. -/
def Manager.target (repositoryId runId : String) : String :=
  m.root ++ "/" ++ repositoryId ++ "/" ++ runId

/-- `_ownership_digest`. -/
def Manager.ownershipDigest (runId repositoryId root baseSha gitMetadataDigest : String) : String :=
  m.hmac m.ownershipSecret
    (utf8 ("\x00".intercalate [runId, repositoryId, root, baseSha, gitMetadataDigest]))

/-- The digest of a lease whose worktree is not known to be there. -/
def Manager.creatingDigest (runId repositoryId root baseSha : String) : String :=
  m.ownershipDigest runId repositoryId root baseSha "creating"

/-- `_git_metadata_digest`. -/
def gitMetadataDigest (root : String) : Program String := do
  let raw ← settle (present (← ask (.readGit root)) (.ownership "worktree_git_metadata_invalid"))
  let gitDirectory ← settle (gitDirectoryOf raw)
  let isDirectory ← ask (.isGitDirectory root gitDirectory)
  settle (require isDirectory (.ownership "worktree_git_metadata_invalid"))
  return m.sha256 raw

/-! ## Reading a lease -/

/-- `_validate_active_lease`. -/
def validateActiveLease (lease : WorktreeLease) : Program String := do
  let expected := m.target lease.repositoryId lease.runId
  let metadata ← gitMetadataDigest m lease.root
  let digest := m.ownershipDigest lease.runId lease.repositoryId expected lease.baseSha metadata
  settle (require (lease.root = expected ∧ lease.ownershipDigest = digest)
    (.ownership "worktree_ownership_invalid"))
  let there ← ask (.isThere lease.root)
  settle (require there (.ownership "worktree_ownership_invalid"))
  return lease.root

def get (runId : String) : Program WorktreeLease := do
  let normalized ← settle (runIdOf runId)
  let lease ← settle (present (← ask (.lease normalized)) (.notFound "worktree_lease_not_found"))
  if lease.status = .active then
    let _ ← validateActiveLease m lease
    return lease
  else return lease

/-! ## Creating a worktree -/

/-- `_cleanup_failed_worktree`. -/
def cleanupFailedWorktree (repository target : String) : Program Unit := do
  let removed ← ask (.worktreeRemove repository target)
  settle (require removed (.ownership "worktree_cleanup_failed"))

/-- What `create` looks at once git has added the worktree. -/
def checkWorktree (target baseSha : String) : Program String := do
  let there ← ask (.isThere target)
  settle (require there .os)
  let stdout ← settle (present (← ask (.revParse target)) (.ownership "worktree_checkout_mismatch"))
  let head ← settle (present (decodeAscii stdout) .unicode)
  settle (require (Text.strip head = baseSha) (.ownership "worktree_checkout_mismatch"))
  gitMetadataDigest m target

/-- The end of `create`, with a worktree that has been looked at. -/
def activateWorktree (repository : RepositoryRecord) (runId target baseSha metadata : String) :
    Program WorktreeLease := do
  let digest := m.ownershipDigest runId repository.id.text target baseSha metadata
  let updated ← ask (.activate runId target digest)
  if updated = some 1 then get m runId
  else
    let cleaned ← attempt (cleanupFailedWorktree repository.path target)
    let _ ← ask (.deleteCreating runId)
    settle cleaned
    settle (.error (.ownership "worktree_activation_failed"))

/-- What `create` does once the lease is inserted. -/
def addWorktree (repository : RepositoryRecord) (runId target baseSha : String) :
    Program WorktreeLease := do
  let added ← ask (.worktreeAdd repository.path target baseSha)
  if added then
    let checked ← attempt (checkWorktree m target baseSha)
    match checked with
    | .ok metadata => activateWorktree m repository runId target baseSha metadata
    | .error e =>
      cleanupFailedWorktree repository.path target
      let _ ← ask (.deleteCreating runId)
      settle (.error e)
  else
    let _ ← ask (.deleteCreating runId)
    settle (.error (.ownership "worktree_creation_failed"))

def create (repository : RepositoryRecord) (runId baseSha : String) : Program WorktreeLease := do
  let normalized ← settle (runIdOf runId)
  settle (require (validSha baseSha) (.ownership "worktree_base_sha_invalid"))
  let found ← ask (.isRepository repository.path)
  settle (require found (.ownership "worktree_repository_unavailable"))
  let target := m.target repository.id.text normalized
  let there ← ask (.isThere target)
  settle (refuse there (.conflict "worktree_run_already_exists"))
  let createdAt ← ask .now
  let digest := m.creatingDigest normalized repository.id.text target baseSha
  let inserted ← ask (.insertLease normalized repository.id.text target baseSha digest createdAt)
  settle (require inserted (.conflict "worktree_run_already_exists"))
  addWorktree m repository normalized target baseSha

/-! ## Discarding a worktree -/

/-- What the given lease must agree with the stored one in. -/
def WorktreeLease.Agrees (lease current : WorktreeLease) : Prop :=
  lease.repositoryId = current.repositoryId ∧ lease.root = current.root ∧
    lease.baseSha = current.baseSha ∧ lease.ownershipDigest = current.ownershipDigest

instance (lease current : WorktreeLease) : Decidable (lease.Agrees current) :=
  inferInstanceAs (Decidable (_ ∧ _))

/-- What `discard` does about a directory that git has left. -/
def confirmRemoved (canonicalRoot : String) : Program Unit := do
  let left ← ask (.isThere canonicalRoot)
  if left then
    let emptied ← ask (.rmdir canonicalRoot)
    settle (require emptied (.ownership "worktree_discard_unconfirmed"))
  else return ()

/-- The end of `discard`, with an active lease that is valid. -/
def removeWorktree (current : WorktreeLease) (canonicalRoot : String) :
    Program WorktreeLease := do
  let repository ← settle (present (← ask (.repository current.repositoryId))
    (.ownership "worktree_repository_unavailable"))
  let removed ← ask (.worktreeRemove repository canonicalRoot)
  settle (require removed (.ownership "worktree_discard_failed"))
  confirmRemoved canonicalRoot
  let discardedAt ← ask .now
  let _ ← ask (.discardLease current.runId discardedAt)
  get m current.runId

def discard (lease : WorktreeLease) (runTerminal : Bool) : Program WorktreeLease := do
  let current ← get m lease.runId
  settle (require (lease.Agrees current) (.ownership "worktree_ownership_invalid"))
  if current.status = .discarded then return current
  else
    settle (require runTerminal (.conflict "worktree_run_still_active"))
    let canonicalRoot ← validateActiveLease m current
    removeWorktree m current canonicalRoot

/-! ## Recovering -/

/-- Whether a row is one that this manager has written for a creation. -/
def Manager.Authentic (row : WorktreeLease) (runId : String) : Prop :=
  row.root = m.target row.repositoryId runId ∧ validSha row.baseSha ∧
    row.ownershipDigest =
      m.creatingDigest runId row.repositoryId (m.target row.repositoryId runId) row.baseSha

instance (row : WorktreeLease) (runId : String) : Decidable (m.Authentic row runId) :=
  inferInstanceAs (Decidable (_ ∧ _))

/-- Take away the worktree of an interrupted creation, and say whether it is gone. -/
def removeInterrupted (repository target : String) : Program Bool := do
  let there ← ask (.isThere target)
  if there then
    let removed ← ask (.worktreeRemove repository target)
    if removed then
      let left ← ask (.isThere target)
      return !left
    else return false
  else
    let _ ← ask (.worktreePrune repository)
    return true

/-- The row is taken back, or left when it cannot be. -/
def recoverRow (row : WorktreeLease) (repository : String) : Program (Option String) := do
  let runId ← settle (runIdOf row.runId)
  if m.Authentic row runId then
    let found ← ask (.isRepository repository)
    if found then
      let gone ← removeInterrupted repository row.root
      if gone then
        let _ ← ask (.deleteCreating runId)
        return some runId
      else return none
    else return none
  else return none

/-- One round of the loop of `recover_interrupted`, which goes on after an error. -/
def recoverLease (row : WorktreeLease × String) : Program (Option String) := do
  let recovered ← attempt (recoverRow m row.1 row.2)
  match recovered with
  | .ok runId => return runId
  | .error _ => return none

def recoverLeases : List (WorktreeLease × String) → Program (List String)
  | [] => return []
  | row :: rows => do
      let runId ← recoverLease m row
      let runIds ← recoverLeases rows
      return runId.toList ++ runIds

def recoverInterrupted : Program (List String) := do
  let rows ← ask .creatingLeases
  recoverLeases m rows

end Manager

/-! ## What the questions are answered from -/

/-- The leases and the worktrees. -/
structure Workspace where
  leases : Table WorktreeLease
  worktrees : Table Worktree

/-- What nobody controls. -/
structure Draw where
  now : Instant
  completes : Bool
  gitFile : Option (List UInt8)
  gitDirectory : Bool
  head : List UInt8
deriving Inhabited

/-- `SELECT canonical_path FROM mvp_repositories WHERE id = ?`. -/
def Manager.canonicalPath (m : Manager) (id : String) : Option String :=
  (m.repositories.find? fun repository => repository.id.text = id).map RepositoryRecord.path

/-- The leases with a status `creating`, joined with the paths of their repositories. -/
def Workspace.creating (m : Manager) (w : Workspace) : List (WorktreeLease × String) :=
  ((w.leases.rows.filter (·.status = .creating)).mergeSort fun l k =>
    l.createdAt < k.createdAt ∨ l.createdAt = k.createdAt ∧ l.runId ≤ k.runId).filterMap
      fun l => (m.canonicalPath l.repositoryId).map (l, ·)

/-- `status = 'active'` with the root and the digest of the activation. -/
def toActive (root digest : String) : Rewrite WorktreeLease where
  apply l := { l with root, ownershipDigest := digest, status := .active }
  keeps _ := rfl

def toDiscarded (discardedAt : Instant) : Rewrite WorktreeLease where
  apply l := { l with status := .discarded, discardedAt := some discardedAt }
  keeps _ := rfl

/-- The constraints of `mvp_worktree_leases` beside its primary key. -/
def Workspace.Allows (m : Manager) (w : Workspace) (repositoryId root : String) : Prop :=
  (m.canonicalPath repositoryId).isSome ∧ ∀ l ∈ w.leases.rows, l.root ≠ root

instance (m : Manager) (w : Workspace) (repositoryId root : String) :
    Decidable (w.Allows m repositoryId root) :=
  inferInstanceAs (Decidable (_ ∧ _))

def insertLease (m : Manager) (lease : WorktreeLease) (w : Workspace) : Bool × Workspace :=
  if w.Allows m lease.repositoryId lease.root then
    match w.leases.insert? lease with
    | some leases => (true, { w with leases })
    | none => (false, w)
  else (false, w)

def activate (runId root digest : String) (w : Workspace) : Nat × Workspace :=
  let creating : WorktreeLease → Bool := fun l => l.runId = runId ∧ l.status = .creating
  ((w.leases.rows.filter creating).length,
    { w with leases := w.leases.update creating (toActive root digest) })

def discardLease (runId : String) (discardedAt : Instant) (w : Workspace) : Workspace :=
  { w with
    leases := w.leases.update (fun l => l.runId = runId ∧ l.status = .active)
      (toDiscarded discardedAt) }

def deleteCreating (runId : String) (w : Workspace) : Workspace :=
  { w with leases := w.leases.remove fun l => l.runId = runId ∧ l.status = .creating }

/-- `git worktree add`, which fails where there is a worktree already. -/
def addAt (target : String) (d : Draw) (w : Workspace) : Bool × Workspace :=
  if d.completes then
    match w.worktrees.insert? ⟨target, d.gitFile, d.gitDirectory, d.head⟩ with
    | some worktrees => (true, { w with worktrees })
    | none => (false, w)
  else (false, w)

/-- `git worktree remove`, which fails where there is no worktree. -/
def removeAt (target : String) (d : Draw) (w : Workspace) : Bool × Workspace :=
  if d.completes ∧ (w.worktrees.get? target).isSome then
    (true, { w with worktrees := w.worktrees.remove (·.root = target) })
  else (false, w)

/-- The directory of a worktree is never empty, so that `rmdir` fails. -/
def answer (m : Manager) : Service Workspace Draw Port Port.Answer
  | _, .lease runId, w => (w.leases.get? runId, w)
  | _, .creatingLeases, w => (w.creating m, w)
  | _, .repository id, w => (m.canonicalPath id, w)
  | _, .insertLease runId repositoryId root baseSha digest createdAt, w =>
      insertLease m ⟨runId, repositoryId, root, baseSha, digest, .creating, createdAt, none⟩ w
  | d, .activate runId root digest, w =>
      if d.completes then
        (some (activate runId root digest w).1, (activate runId root digest w).2)
      else (none, w)
  | _, .discardLease runId discardedAt, w => ((), discardLease runId discardedAt w)
  | _, .deleteCreating runId, w => ((), deleteCreating runId w)
  | _, .isThere path, w => ((w.worktrees.get? path).isSome, w)
  | d, .isRepository _, w => (d.completes, w)
  | _, .readGit root, w => ((w.worktrees.get? root).bind Worktree.gitFile, w)
  | _, .isGitDirectory root _, w => ((w.worktrees.get? root).any Worktree.gitDirectory, w)
  | d, .worktreeAdd _ target _, w => addAt target d w
  | d, .revParse target, w =>
      (if d.completes then (w.worktrees.get? target).map Worktree.head else none, w)
  | d, .worktreeRemove _ target, w => removeAt target d w
  | d, .worktreePrune _, w => (d.completes, w)
  | _, .rmdir _, w => (false, w)
  | d, .now, w => (d.now, w)

/-! ## Runs -/

inductive Operation where
  | create (repository : RepositoryRecord) (runId baseSha : String)
  | discard (lease : WorktreeLease) (runTerminal : Bool)
  | recoverInterrupted

inductive Outcome where
  | lease (lease : WorktreeLease)
  | recovered (runIds : List String)

def Operation.program (m : Manager) : Operation → Program Outcome
  | .create repository runId baseSha =>
      Outcome.lease <$> Worktrees.create m repository runId baseSha
  | .discard lease runTerminal => Outcome.lease <$> Worktrees.discard m lease runTerminal
  | .recoverInterrupted => Outcome.recovered <$> Worktrees.recoverInterrupted m

/-- A call that is served up to its end, or stopped after a number of its questions. -/
structure Call where
  operation : Operation
  draws : Nat → Draw
  stop : Option Nat

abbrev Asked := List (Exchange Port Port.Answer)

/-- A call that is over, with what it ended with unless it was stopped, and what it has asked. -/
structure Entry where
  call : Call
  outcome : Option (Except Failure Outcome)
  asked : Asked

/-- The workspace with the calls that have left it so. -/
structure History where
  workspace : Workspace
  past : List Entry

def History.empty : History := ⟨⟨∅, ∅⟩, []⟩

/-- What a call ends with and leaves behind. -/
def Call.perform (m : Manager) (c : Call) (w : Workspace) :
    Option (Except Failure Outcome) × Workspace × Asked :=
  let program := (c.operation.program m).run
  match c.stop with
  | none =>
      let (outcome, left) := program.serve (Dialogue.recorded (answer m)) c.draws (w, [])
      (some outcome, left)
  | some n => (none, program.stopped (Dialogue.recorded (answer m)) n c.draws (w, []))

def History.step (m : Manager) (h : History) (c : Call) : History :=
  let (outcome, workspace, asked) := c.perform m h.workspace
  { workspace, past := h.past ++ [⟨c, outcome, asked⟩] }

/-- The history of calls that are made one after the other. -/
def history (m : Manager) (calls : List Call) : History :=
  Run.exec (History.step m) .empty calls

/-! ## What a call has asked -/

/-- The answers to `git worktree remove`. -/
def removals (asked : Asked) : List Bool :=
  asked.filterMap fun
    | ⟨.worktreeRemove _ _, removed⟩ => some removed
    | _ => none

/-- The activations with their runs. -/
def activations (asked : Asked) : List (String × Option Nat) :=
  asked.filterMap fun
    | ⟨.activate runId _ _, updated⟩ => some (runId, updated)
    | _ => none

/-- Whether the directories of repositories were found. -/
def lookups (asked : Asked) : List Bool :=
  asked.filterMap fun
    | ⟨.isRepository _, found⟩ => some found
    | _ => none

/-- The runs whose leases have been marked as discarded. -/
def marks (asked : Asked) : List String :=
  asked.filterMap fun
    | ⟨.discardLease runId _, _⟩ => some runId
    | _ => none

def Operation.isDiscard : Operation → Bool
  | .discard .. => true
  | _ => false

/-- A discard has removed the worktree and was stopped before it marked the lease. -/
def Entry.Torn (e : Entry) : Prop :=
  e.call.operation.isDiscard = true ∧ true ∈ removals e.asked ∧ marks e.asked = []

/-- A creation could not activate its lease, and git has failed to remove the worktree. -/
def Entry.Stranded (e : Entry) : Prop :=
  (∃ a ∈ activations e.asked, a.2 ≠ some 1) ∧ false ∈ removals e.asked

/-- A call that has not left half of a change. -/
def Entry.Spared (e : Entry) : Prop := ¬ e.Torn ∧ ¬ e.Stranded

instance (e : Entry) : Decidable e.Torn := inferInstanceAs (Decidable (_ ∧ _))

instance (e : Entry) : Decidable e.Stranded := inferInstanceAs (Decidable (_ ∧ _))

instance (e : Entry) : Decidable e.Spared := inferInstanceAs (Decidable (_ ∧ _))

/-- A recovery that is not stopped, whose removals git completes and which finds the directory
of every repository that it looks for. -/
def Entry.Recovers (e : Entry) : Prop :=
  e.call.operation = .recoverInterrupted ∧ e.call.stop = none ∧
    false ∉ removals e.asked ∧ false ∉ lookups e.asked

/-- A creation for a run. -/
def Entry.Creates (runId : String) (e : Entry) : Prop :=
  ∃ repository value baseSha, e.call.operation = .create repository value baseSha ∧
    runIdOf value = .ok runId

/-- A call that has raised, or that was stopped before it had activated a lease. -/
def Entry.Failed (e : Entry) : Prop :=
  (∃ failure, e.outcome = some (.error failure)) ∨
    e.outcome = none ∧ ∀ a ∈ activations e.asked, a.2 ≠ some 1

end Corvus.Worktrees
