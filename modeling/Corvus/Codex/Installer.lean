import Corvus.Library.Except
import Corvus.Library.FileTree
import Corvus.Library.Procedure

/-!
# The installer of the managed Codex

`CodexCliInstaller.install` of `codex_install.py`, one step of the file system or one await at a
time. The directory of the version is a tree whose root is there or not; the installers make no
links and keep the install root, so that the checks for links pass. A directory is listed, walked
and removed down to a depth that no package reaches.
-/

namespace Corvus.Codex

open FileTree Dialogue Procedure

/-! ## A release -/

/-- An entry of `_PACKAGE_FILE_METADATA`. -/
structure PackageFile where
  path : Path
  sha256 : String
  size : Nat

/-- A member of the archive with its parts, which `_archive_member_parts` has checked. -/
inductive Member where
  | dir (parts : Path)
  | file (parts : Path) (chunks : List (List UInt8)) (executable : Bool)

def Member.parts : Member → Path
  | dir parts | file parts _ _ => parts

/-- The platform, the pinned artifact, and what is computed of bytes. -/
structure Installer where
  windows : Bool
  darwin : Bool
  casefold : String → String
  archiveSha256 : String
  archiveSize : Nat
  files : List PackageFile
  sha256 : List UInt8 → String
  /-- The members of an archive, as `tarfile` reads them. -/
  unpack : List UInt8 → List Member
  depth : Nat

inductive Failure where
  /-- `CodexInstallError`. -/
  | install
  | cancelled
deriving DecidableEq, Repr

/-! ## Steps -/

inductive Made where
  | created
  | missing
  /-- `FileExistsError` or `NotADirectoryError`. -/
  | refused
deriving DecidableEq, Repr

/-- What `stat` tells of a file. -/
structure Info where
  number : Nat
  size : Nat
  executable : Bool
deriving DecidableEq, Repr

/-- Steps on the directory of the version, and what is awaited. -/
inductive Port where
  | exists
  | isDir (path : Path)
  | list (path : Path)
  | stat (path : Path)
  | read (path : Path)
  | makeDir (path : Path)
  | create (path : Path)
  | write (path : Path) (number : Nat) (chunk : List UInt8)
  | chmod (path : Path) (executable : Bool)
  | unlink (path : Path)
  | rmdir (path : Path)
  | download
  | runVersion
deriving DecidableEq, Repr

/-- Where an operation of the file system fails, there is no answer or it is false. -/
abbrev Port.Answer : Port → Type
  | .exists => Bool
  | .isDir _ => Bool
  | .list _ => Option (List (String × Bool))
  | .stat _ => Option Info
  | .read _ => Option (List UInt8)
  | .makeDir _ => Made
  | .create _ => Option Nat
  | .write .. => Unit
  | .chmod .. => Bool
  | .unlink _ => Bool
  | .rmdir _ => Bool
  | .download => Except Failure (List UInt8)
  | .runVersion => Except Failure Bool

abbrev Program (α : Type) := Procedure Failure Port Port.Answer α

namespace Installer

variable (I : Installer)

def _MAX_EXECUTABLE_BYTES : Nat := 512 * 1024 * 1024

def executable : Path := if I.windows then ["bin", "codex.exe"] else ["bin", "codex"]

/-! ## Verification -/

/-- The key of a relative path. -/
def key (path : Path) : Path := if I.windows then path.map I.casefold else path

/-- The directories above a file of the package, without the root. -/
def parents : Path → List Path
  | path => path.inits.filter fun above => above ≠ [] ∧ above ≠ path

def expectedFiles : List Path := I.files.map fun file => I.key file.path

def expectedDirectories : List Path :=
  I.files.flatMap fun file => (parents file.path).map I.key

/-- What has been found, the files and the directories. -/
abbrev Found := List Path × List Path

/-- Visit one path after the other. -/
def visitAll (visit : Path → Program Found) : List Path → Program Found
  | [] => return ([], [])
  | path :: paths => do
      let (files, directories) ← visit path
      let (files', directories') ← visitAll visit paths
      return (files ++ files', directories ++ directories')

/-- The paths of the files among the entries of a directory. -/
def filesIn (path : Path) (entries : List (String × Bool)) : List Path :=
  (entries.filter fun e => !e.2).map fun e => path ++ [e.1]

def directoriesIn (path : Path) (entries : List (String × Bool)) : List Path :=
  (entries.filter fun e => e.2).map fun e => path ++ [e.1]

/-- The loop over the stack of directories: what is found below one of them. The directory that has
been found last is listed first. -/
def scan : Nat → Path → Program Found
  | 0, _ => throw .install
  | depth + 1, path => do
      match ← ask (Port.list path) with
      | none => throw .install
      | some entries => do
          let (files, directories) ← visitAll (scan depth) (directoriesIn path entries).reverse
          return (filesIn path entries ++ files, directoriesIn path entries ++ directories)

/-- The two lists hold the same. -/
def sameSet (paths paths' : List Path) : Bool := paths ⊆ paths' ∧ paths' ⊆ paths

/-- A file has the size and the digest of the release. -/
def checkFile (files : List Path) (file : PackageFile) : Program Unit := do
  match files.reverse.find? fun path => I.key path = I.key file.path with
  | none => throw .install
  | some path =>
    match ← ask (Port.stat path) with
    | none => throw .install
    | some info =>
      if info.size ≠ file.size then throw .install
      else
        match ← ask (Port.read path) with
        | none => throw .install
        | some content => if I.sha256 content ≠ file.sha256 then throw .install else return ()

def checkFiles (files : List Path) : List PackageFile → Program Unit
  | [] => return ()
  | file :: rest => do
      I.checkFile files file
      checkFiles files rest

/-- `_verify_installed_package`. -/
def verifyInstalledPackage : Program Unit := do
  let (files, directories) ← scan I.depth []
  settle (require (sameSet (files.map I.key) I.expectedFiles ∧
    sameSet (directories.map I.key) I.expectedDirectories) .install)
  I.checkFiles files I.files

/-- The magic numbers of the executables of Darwin. -/
def machMagic : List (List UInt8) :=
  [[0xca, 0xfe, 0xba, 0xbe], [0xca, 0xfe, 0xba, 0xbf], [0xce, 0xfa, 0xed, 0xfe],
    [0xcf, 0xfa, 0xed, 0xfe], [0xbe, 0xba, 0xfe, 0xca], [0xbf, 0xba, 0xfe, 0xca],
    [0xfe, 0xed, 0xfa, 0xce], [0xfe, 0xed, 0xfa, 0xcf]]

/-- `_valid_executable_magic`. -/
def validExecutableMagic (magic : List UInt8) : Bool :=
  if I.windows then [0x4d, 0x5a] <+: magic
  else if I.darwin then magic ∈ machMagic
  else magic = [0x7f, 0x45, 0x4c, 0x46]

/-- The part of `_verified_service` before the command is run. -/
def inspect : Program Unit := do
  I.verifyInstalledPackage
  match ← ask (Port.stat I.executable) with
  | none => throw .install
  | some info => do
      settle (require (info.size ≠ 0 ∧ info.size ≤ _MAX_EXECUTABLE_BYTES) .install)
      settle (require (I.windows ∨ info.executable) .install)
      match ← ask (Port.read I.executable) with
      | none => throw .install
      | some content => settle (require (I.validExecutableMagic (content.take 4)) .install)

/-- The part of `_verified_service` after the command has been run, with the digest of the
executable as `CodexCliService` keeps it. -/
def inspectAgain : Program String := do
  I.verifyInstalledPackage
  let identity ← ask (Port.stat I.executable)
  match ← ask (Port.read I.executable) with
  | none => throw .install
  | some content => do
      let identity' ← ask (Port.stat I.executable)
      settle (require (identity.isSome ∧ identity' = identity) .install)
      let content' ← ask (Port.read I.executable)
      settle (require (content'.map I.sha256 = some (I.sha256 content)) .install)
      return I.sha256 content

/-- `_verified_service`. -/
def verifiedService : Program String := do
  I.inspect
  match ← ask Port.runVersion with
  | .error failure => throw failure
  | .ok reported => do
      settle (require reported .install)
      I.inspectAgain

/-! ## Removal -/

/-- Do the same for each of some paths. -/
def forAll (act : Path → Program Unit) : List Path → Program Unit
  | [] => return ()
  | path :: paths => do
      act path
      forAll act paths

/-- An entry can be looked at. Without links it is plain. -/
def checkEntry (child : Path) : Program Unit := do
  match ← ask (Port.stat child) with
  | none => throw .install
  | some _ => return ()

/-- The walk of `_remove_plain_managed_tree`, which skips what it cannot list. -/
def walk : Nat → Path → Program Unit
  | 0, _ => throw .install
  | depth + 1, path => do
      match ← ask (Port.list path) with
      | none => return ()
      | some entries => do
          forAll checkEntry (directoriesIn path entries ++ filesIn path entries)
          forAll (walk depth) (directoriesIn path entries)

/-- An operation of `shutil.rmtree` has failed. -/
def failed (ignoreErrors : Bool) : Program Unit :=
  if ignoreErrors then return () else throw .install

def removeEntry (ignoreErrors : Bool) (remove : Path → Program Unit) (child : Path)
    (isDir : Bool) : Program Unit :=
  if isDir then remove child
  else do
    let removed ← ask (Port.unlink child)
    if removed then return () else failed ignoreErrors

/-- Remove the entries of a directory. -/
def removeEntries (ignoreErrors : Bool) (remove : Path → Program Unit) (path : Path) :
    List (String × Bool) → Program Unit
  | [] => return ()
  | (name, isDir) :: rest => do
      removeEntry ignoreErrors remove (path ++ [name]) isDir
      removeEntries ignoreErrors remove path rest

/-- `shutil.rmtree`. -/
def rmtree (ignoreErrors : Bool) : Nat → Path → Program Unit
  | 0, _ => throw .install
  | depth + 1, path => do
      match ← ask (Port.list path) with
      | none => failed ignoreErrors
      | some entries => do
          removeEntries ignoreErrors (rmtree ignoreErrors depth) path entries
          let removed ← ask (Port.rmdir path)
          if removed then return () else failed ignoreErrors

/-- `_remove_plain_managed_tree`. -/
def removePlainManagedTree : Program Unit := do
  let isDir ← ask (Port.isDir [])
  settle (require isDir .install)
  walk I.depth []
  rmtree false I.depth []

/-! ## Extraction -/

/-- `Path.mkdir` after an `OSError`: a directory that is there will do if it need not be made. -/
def mustBeDir (existOk : Bool) (path : Path) : Program Unit := do
  if existOk then
    let isDir ← ask (Port.isDir path)
    settle (require isDir .install)
  else throw .install

/-- `Path.mkdir` with `parents`, of a path whose last part comes first. -/
def mkdirs (existOk : Bool) : List String → Program Unit
  | [] => do
      match ← ask (Port.makeDir []) with
      | .created => return ()
      | .missing => throw .install
      | .refused => mustBeDir existOk []
  | name :: parent => do
      let path := (name :: parent).reverse
      match ← ask (Port.makeDir path) with
      | .created => return ()
      | .refused => mustBeDir existOk path
      | .missing => do
          mkdirs true parent
          match ← ask (Port.makeDir path) with
          | .created => return ()
          | .missing => throw .install
          | .refused => mustBeDir existOk path

def writeAll (path : Path) (number : Nat) : List (List UInt8) → Program Unit
  | [] => return ()
  | chunk :: rest => do
      ask (Port.write path number chunk)
      writeAll path number rest

def extractMember : Member → Program Unit
  | .dir parts => mkdirs false parts.reverse
  | .file parts chunks executable => do
      mkdirs true parts.dropLast.reverse
      match ← ask (Port.create parts) with
      | none => throw .install
      | some number => do
          writeAll parts number chunks
          if I.windows then return ()
          else
            let changed ← ask (Port.chmod parts executable)
            settle (require changed .install)

/-- `_extract_verified_package`. -/
def extract : List Member → Program Unit
  | [] => return ()
  | member :: rest => do
      I.extractMember member
      extract rest

/-! ## Installation -/

def admits (content : List UInt8) : Prop :=
  content.length = I.archiveSize ∧ I.sha256 content = I.archiveSha256

instance (content : List UInt8) : Decidable (I.admits content) :=
  inferInstanceAs (Decidable (_ ∧ _))

/-- What is done in the directory that a call has made. -/
def build : Program String := do
  match ← ask Port.download with
  | .error failure => throw failure
  | .ok content => do
      settle (require (I.admits content) .install)
      I.extract (I.unpack content)
      I.verifiedService

/-- The part of `install` from the directory of the version on. -/
def create : Program String := do
  match ← ask (Port.makeDir []) with
  | .missing => throw .install
  | .refused => I.verifiedService
  | .created => do
      match ← attempt I.build with
      | .ok service => return service
      | .error failure => do
          rmtree true I.depth []
          throw failure

/-- `CodexCliInstaller.install`. -/
def install : Program String := do
  let there ← ask Port.exists
  if there then
    match ← attempt I.verifiedService with
    | .ok service => return service
    | .error .cancelled => throw .cancelled
    | .error .install => do
        I.removePlainManagedTree
        I.create
  else I.create

end Installer

/-! ## The disk -/

/-- The directory of the version, and the number of the next file. -/
structure Disk where
  tree : FileTree
  next : Nat

/-- What nobody controls: what is downloaded, and what the command answers. -/
structure Draw where
  download : Except Failure (List UInt8)
  version : Except Failure Bool

def infoOf : Node → Info
  | .dir => ⟨0, 0, true⟩
  | .file number content executable => ⟨number, content.length, executable⟩

def contentOf : Node → Option (List UInt8)
  | .dir => none
  | .file _ content _ => some content

/-- One step. -/
def answer (d : Draw) (q : Port) (s : Disk) : q.Answer × Disk :=
  match q with
  | .exists => ((s.tree.find []).isSome, s)
  | .isDir path => (s.tree.find path = some .dir, s)
  | .list path =>
      (if s.tree.find path = some .dir then
        some ((s.tree.children path).map fun e => (e.1, e.2.isDir)) else none, s)
  | .stat path => ((s.tree.find path).map infoOf, s)
  | .read path => ((s.tree.find path).bind contentOf, s)
  | .makeDir path =>
      if free : s.tree.Free path then (.created, ⟨s.tree.insert .dir free, s.next⟩)
      else if s.tree.find path = none ∧ s.tree.find path.dropLast = none then (.missing, s)
      else (.refused, s)
  | .create path =>
      if free : s.tree.Free path ∧ path ≠ [] then
        (some s.next, ⟨s.tree.insert (.file s.next [] false) free.1, s.next + 1⟩)
      else (none, s)
  | .write path number chunk =>
      ((), { s with tree := s.tree.modify path fun number' content executable =>
        (if number' = number then content ++ chunk else content, executable) })
  | .chmod path executable =>
      (s.tree.find path).elim (false, s) fun _ =>
        (true, { s with tree := s.tree.modify path fun _ content _ => (content, executable) })
  | .unlink path =>
      if leaf : s.tree.Leaf path ∧ (s.tree.find path).any fun node => !node.isDir then
        (true, { s with tree := s.tree.erase leaf.1 })
      else (false, s)
  | .rmdir path =>
      if leaf : s.tree.Leaf path ∧ s.tree.find path = some .dir then
        (true, { s with tree := s.tree.erase leaf.1 })
      else (false, s)
  | .download => (d.download, s)
  | .runVersion => (d.version, s)

end Corvus.Codex
