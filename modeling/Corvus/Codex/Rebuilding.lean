import Corvus.Codex.Looking
import Corvus.Library.Site

/-!
# Rebuilding a package

What a call does that runs alone: whatever tree it finds, it removes it, extracts the archive and
finds every file that has been pinned and no other.
-/

namespace Corvus.Codex

open FileTree Dialogue Procedure

/-! ## Looking -/

section

variable {α β : Type} {p : Program α} {f : α → Program β} {s : Disk}

theorem look_ask {q : Port} {g : q.Answer → Program β} (quiet : q.quiet = true) (d : Draw)
    (s : Disk) : look (ask q >>= g) s = look (g (answer d q s).1) s := by
  obtain ⟨same, unchanged⟩ := answer_quiet quiet d ⟨.error .cancelled, .ok true⟩ s
  show (serve answer _ (Dialogue.ask q fun r => (g r).run) s).1 = _
  rw [serve, ← same, unchanged]
  rfl

theorem look_bind (quiet : Quiet p) (s : Disk) :
    look (p >>= f) s = look p s >>= fun a => look (f a) s := by
  unfold Quiet at quiet
  show (serve answer _ (p.run >>= ExceptT.bindCont f) s).1 = (serve answer _ p.run s).1 >>= _
  generalize p.run = program at quiet ⊢
  induction program with
  | done x => cases x <;> rfl
  | ask q k ih =>
    obtain ⟨asks, rest⟩ := quiet
    obtain ⟨-, unchanged⟩ := answer_quiet asks ⟨.error .cancelled, .ok true⟩
      ⟨.error .cancelled, .ok true⟩ s
    rw [ask_bind, serve, serve, unchanged]
    exact ih _ (rest _)

theorem look_bind_ok {a : α} (quiet : Quiet p) (first : look p s = .ok a) :
    look (p >>= f) s = look (f a) s := by
  rw [look_bind quiet, first]
  rfl

end

/-- A path strictly below another one. -/
def Below (above path : Path) : Prop := ∃ name rest, path = above ++ name :: rest

theorem below_iff {above path : Path} : Below above path ↔
    ∃ name, path = above ++ [name] ∨ Below (above ++ [name]) path := by
  constructor
  · rintro ⟨name, rest, rfl⟩
    cases rest with
    | nil => exact ⟨name, .inl rfl⟩
    | cons next rest => exact ⟨name, .inr ⟨next, rest, List.append_cons _ _ _⟩⟩
  · rintro ⟨name, rfl | ⟨next, rest, rfl⟩⟩
    · exact ⟨name, [], rfl⟩
    · exact ⟨name, next :: rest, (List.append_cons _ _ _).symm⟩

/-- No path below a path is as long as the depth goes. -/
def Shallow (t : FileTree) (depth : Nat) (path : Path) : Prop :=
  ∀ p node, t.find p = some node → path <+: p → p.length < path.length + depth

theorem Shallow.child {t : FileTree} {depth : Nat} {path : Path}
    (shallow : Shallow t (depth + 1) path) (name : String) :
    Shallow t depth (path ++ [name]) := by
  intro p node found within
  have shorter := shallow p node found ((List.prefix_append _ _).trans within)
  rw [List.length_append, List.length_singleton]
  omega

theorem Shallow.pos {t : FileTree} {depth : Nat} {path : Path} {node : Node}
    (shallow : Shallow t depth path) (found : t.find path = some node) : 0 < depth := by
  have shorter := shallow path node found List.prefix_rfl
  omega

namespace Installer

variable {s : Disk} {path : Path} {depth : Nat}

/-- What is found below some directories. -/
structure Finds (s : Disk) (above : Path → Prop) (found : Found) : Prop where
  files : ∀ p, p ∈ found.1 ↔ above p ∧ ∃ node, s.tree.find p = some node ∧ node.isDir = false
  directories : ∀ p, p ∈ found.2 ↔ above p ∧ s.tree.find p = some .dir

theorem look_visitAll {visit : Path → Program Found} (quiet : ∀ path, Quiet (visit path))
    (paths : List Path)
    (each : ∀ path ∈ paths, ∃ found, look (visit path) s = .ok found ∧ Finds s (Below path) found) :
    ∃ found, look (visitAll visit paths) s = .ok found ∧
      Finds s (fun p => ∃ path ∈ paths, Below path p) found := by
  induction paths with
  | nil =>
    refine ⟨([], []), rfl, fun p => ?_, fun p => ?_⟩
    · exact iff_of_false List.not_mem_nil fun ⟨⟨_, mem, _⟩, _⟩ => List.not_mem_nil mem
    · exact iff_of_false List.not_mem_nil fun ⟨⟨_, mem, _⟩, _⟩ => List.not_mem_nil mem
  | cons path paths ih =>
    obtain ⟨⟨files, directories⟩, first, finds⟩ := each path List.mem_cons_self
    obtain ⟨⟨files', directories'⟩, rest, finds'⟩ :=
      ih fun path mem => each path (List.mem_cons_of_mem _ mem)
    refine ⟨(files ++ files', directories ++ directories'), ?_, fun p => ?_, fun p => ?_⟩
    · rw [visitAll, look_bind_ok (quiet path) first]
      show look (visitAll visit paths >>= _) s = _
      rw [look_bind_ok (quiet_visitAll quiet paths) rest]
      rfl
    · show p ∈ files ++ files' ↔ _
      rw [List.mem_append, finds.files, finds'.files, ← or_and_right, List.exists_mem_cons_iff]
    · show p ∈ directories ++ directories' ↔ _
      rw [List.mem_append, finds.directories, finds'.directories, ← or_and_right,
        List.exists_mem_cons_iff]

/-- The answer to a listing. -/
def listed (s : Disk) (path : Path) : List (String × Bool) :=
  (s.tree.children path).map fun e => (e.1, e.2.isDir)

theorem mem_listed {name : String} {isDir : Bool} : (name, isDir) ∈ listed s path ↔
    ∃ node, s.tree.find (path ++ [name]) = some node ∧ node.isDir = isDir := by
  rw [listed, List.mem_map]
  constructor
  · rintro ⟨e, mem, same⟩
    obtain ⟨rfl, rfl⟩ := Prod.mk.inj same
    exact ⟨e.2, mem_children.mp mem, rfl⟩
  · rintro ⟨node, found, rfl⟩
    exact ⟨(name, node), mem_children.mpr found, rfl⟩

theorem isDir_eq_true {node : Node} (is : node.isDir = true) : node = .dir := by
  cases node with
  | dir => rfl
  | file => exact absurd is Bool.false_ne_true

theorem mem_directories {p : Path} :
    p ∈ directoriesIn path (listed s path) ↔
      ∃ name, p = path ++ [name] ∧ s.tree.find p = some .dir := by
  rw [directoriesIn, List.mem_map]
  constructor
  · rintro ⟨⟨name, isDir⟩, mem, rfl⟩
    obtain ⟨mem, is⟩ := List.mem_filter.mp mem
    obtain ⟨node, found, same⟩ := mem_listed.mp mem
    rw [isDir_eq_true (same.trans is)] at found
    exact ⟨name, rfl, found⟩
  · rintro ⟨name, rfl, found⟩
    exact ⟨(name, true), List.mem_filter.mpr ⟨mem_listed.mpr ⟨_, found, rfl⟩, rfl⟩, rfl⟩

theorem mem_files {p : Path} :
    p ∈ filesIn path (listed s path) ↔
      ∃ name, p = path ++ [name] ∧ ∃ node, s.tree.find p = some node ∧ node.isDir = false := by
  rw [filesIn, List.mem_map]
  constructor
  · rintro ⟨⟨name, isDir⟩, mem, rfl⟩
    obtain ⟨mem, is⟩ := List.mem_filter.mp mem
    obtain ⟨node, found, same⟩ := mem_listed.mp mem
    exact ⟨name, rfl, node, found, same.trans (Bool.not_eq_true' _ ▸ is)⟩
  · rintro ⟨name, rfl, node, found, file⟩
    exact ⟨(name, false), List.mem_filter.mpr ⟨mem_listed.mpr ⟨_, found, file⟩, rfl⟩, rfl⟩

/-- The scan of a directory finds everything below it. -/
theorem look_scan (there : s.tree.find path = some .dir) (shallow : Shallow s.tree depth path) :
    ∃ found, look (scan depth path) s = .ok found ∧ Finds s (Below path) found := by
  induction depth generalizing path with
  | zero => exact absurd (shallow.pos there) (Nat.lt_irrefl 0)
  | succ depth ih =>
    have list : (answer ⟨.error .cancelled, .ok true⟩ (.list path) s).1 = some (listed s path) :=
      if_pos there
    have each : ∀ p ∈ (directoriesIn path (listed s path)).reverse,
        ∃ found, look (scan depth p) s = .ok found ∧ Finds s (Below p) found := by
      intro p mem
      obtain ⟨name, rfl, found⟩ := mem_directories.mp (List.mem_reverse.mp mem)
      exact ih found (shallow.child name)
    obtain ⟨⟨files, directories⟩, below, finds⟩ := look_visitAll (quiet_scan depth) _ each
    have deeper : ∀ p node, s.tree.find p = some node →
        ((∃ above ∈ (directoriesIn path (listed s path)).reverse, Below above p) ↔
          ∃ name, Below (path ++ [name]) p) := by
      intro p node found
      constructor
      · rintro ⟨above, mem, below⟩
        obtain ⟨name, rfl, -⟩ := mem_directories.mp (List.mem_reverse.mp mem)
        exact ⟨name, below⟩
      · rintro ⟨name, next, rest, rfl⟩
        refine ⟨path ++ [name], List.mem_reverse.mpr (mem_directories.mpr ⟨name, rfl, ?_⟩),
          next, rest, rfl⟩
        exact find_above found (List.prefix_append _ _)
          fun same => List.cons_ne_nil _ _ (List.self_eq_append_right.mp same)
    refine ⟨(filesIn path (listed s path) ++ files, directoriesIn path (listed s path) ++
      directories), ?_, fun p => ?_, fun p => ?_⟩
    · rw [scan, look_ask rfl ⟨.error .cancelled, .ok true⟩, list]
      show look (visitAll _ _ >>= _) s = _
      rw [look_bind_ok (quiet_visitAll (quiet_scan depth) _) below]
      rfl
    · rw [List.mem_append, mem_files, finds.files, below_iff]
      constructor
      · rintro (⟨name, same, file⟩ | ⟨within, node, found, file⟩)
        · exact ⟨⟨name, .inl same⟩, file⟩
        · obtain ⟨name, below⟩ := (deeper p node found).mp within
          exact ⟨⟨name, .inr below⟩, node, found, file⟩
      · rintro ⟨⟨name, same | below⟩, node, found, file⟩
        · exact .inl ⟨name, same, node, found, file⟩
        · exact .inr ⟨(deeper p node found).mpr ⟨name, below⟩, node, found, file⟩
    · rw [List.mem_append, mem_directories, finds.directories, below_iff]
      constructor
      · rintro (⟨name, same, found⟩ | ⟨within, found⟩)
        · exact ⟨⟨name, .inl same⟩, found⟩
        · obtain ⟨name, below⟩ := (deeper p _ found).mp within
          exact ⟨⟨name, .inr below⟩, found⟩
      · rintro ⟨⟨name, same | below⟩, found⟩
        · exact .inl ⟨name, same, found⟩
        · exact .inr ⟨(deeper p _ found).mpr ⟨name, below⟩, found⟩

end Installer

/-! ## A tree with the pinned files -/

variable {I : Installer} {s : Disk}

/-- What has been pinned of a file holds of a content, and the executable can be run. -/
structure Pinned (I : Installer) (file : PackageFile) (content : List UInt8)
    (executable : Bool) : Prop where
  size : content.length = file.size
  digest : I.sha256 content = file.sha256
  bounds : file.path = I.executable →
    content.length ≠ 0 ∧ content.length ≤ Installer._MAX_EXECUTABLE_BYTES
  runs : file.path = I.executable → I.windows = true ∨ executable = true
  magic : file.path = I.executable → I.validExecutableMagic (content.take 4) = true

/-- The tree holds the pinned files, the directories above them, and nothing else. -/
structure Laid (I : Installer) (t : FileTree) : Prop where
  root : t.find [] = some .dir
  files : ∀ file ∈ I.files, ∃ number content executable,
    t.find file.path = some (.file number content executable) ∧ Pinned I file content executable
  only : ∀ p node, t.find p = some node → node.isDir = false → ∃ file ∈ I.files, p = file.path
  directories : ∀ p, p ≠ [] →
    (t.find p = some .dir ↔ ∃ file ∈ I.files, p ∈ Installer.parents file.path)
  shallow : Shallow t I.depth []

/-- What holds of the paths of the release. -/
structure Named (I : Installer) : Prop where
  keyed : ∀ file ∈ I.files, ∀ file' ∈ I.files,
    I.key file.path = I.key file'.path → file.path = file'.path
  inside : ∀ file ∈ I.files, file.path ≠ []
  shallow : ∀ file ∈ I.files, file.path.length < I.depth
  runnable : ∃ file ∈ I.files, file.path = I.executable

namespace Installer

theorem below_root {p : Path} : Below [] p ↔ p ≠ [] := by
  constructor
  · rintro ⟨name, rest, rfl⟩
    exact List.cons_ne_nil _ _
  · intro other
    obtain ⟨name, rest, rfl⟩ := List.exists_cons_of_ne_nil other
    exact ⟨name, rest, rfl⟩

theorem sameSet_eq_true {paths paths' : List Path} (left : ∀ p ∈ paths, p ∈ paths')
    (right : ∀ p ∈ paths', p ∈ paths) : sameSet paths paths' = true :=
  decide_eq_true ⟨left, right⟩

theorem look_settle {α : Type} {x : Except Failure α} : look (settle x) s = x := rfl

theorem look_require {p : Prop} [Decidable p] {β : Type} {f : Unit → Program β} (holds : p) :
    look (settle (require p .install) >>= f) s = look (f ()) s := by
  rw [require_of holds]
  rfl

theorem look_checkFile (named : Named I) (laid : Laid I s.tree) {files : List Path}
    (found : ∀ p, p ∈ files ↔
      Below [] p ∧ ∃ node, s.tree.find p = some node ∧ node.isDir = false)
    {file : PackageFile} (mem : file ∈ I.files) : look (I.checkFile files file) s = .ok () := by
  obtain ⟨number, content, executable, there, pinned⟩ := laid.files file mem
  have listed : file.path ∈ files :=
    (found _).mpr ⟨below_root.mpr (named.inside file mem), _, there, rfl⟩
  have located : files.reverse.find? (fun path => I.key path = I.key file.path) =
      some file.path := by
    have some : (files.reverse.find? fun path => I.key path = I.key file.path).isSome = true :=
      List.find?_isSome.mpr ⟨file.path, List.mem_reverse.mpr listed, decide_eq_true rfl⟩
    obtain ⟨path, located⟩ := Option.isSome_iff_exists.mp some
    obtain ⟨-, node, at_path, isFile⟩ :=
      (found path).mp (List.mem_reverse.mp (List.mem_of_find?_eq_some located))
    obtain ⟨file', mem', rfl⟩ := laid.only path node at_path isFile
    have same : I.key file'.path = I.key file.path := by simpa using List.find?_some located
    rw [located, named.keyed file' mem' file mem same]
  have info : (answer ⟨.error .cancelled, .ok true⟩ (.stat file.path) s).1 =
      some ⟨number, content.length, executable⟩ := by
    rw [answer, there]
    rfl
  have bytes : (answer ⟨.error .cancelled, .ok true⟩ (.read file.path) s).1 = some content := by
    rw [answer, there]
    rfl
  rw [checkFile, located]
  dsimp only
  rw [look_ask rfl ⟨.error .cancelled, .ok true⟩, info]
  dsimp only
  rw [if_neg (not_not_intro pinned.size), look_ask rfl ⟨.error .cancelled, .ok true⟩, bytes]
  dsimp only
  rw [if_neg (not_not_intro pinned.digest)]
  rfl

theorem look_checkFiles (named : Named I) (laid : Laid I s.tree) {files : List Path}
    (found : ∀ p, p ∈ files ↔
      Below [] p ∧ ∃ node, s.tree.find p = some node ∧ node.isDir = false)
    {expected : List PackageFile} (pinned : ∀ file ∈ expected, file ∈ I.files) :
    look (I.checkFiles files expected) s = .ok () := by
  induction expected with
  | nil => rfl
  | cons file rest ih =>
    obtain ⟨mem, pinned⟩ := List.forall_mem_cons.mp pinned
    have first := look_checkFile named laid found mem
    rw [checkFiles, look_bind_ok (I.quiet_checkFile files file) first]
    exact ih pinned

theorem look_verifyInstalledPackage (named : Named I) (laid : Laid I s.tree) :
    look I.verifyInstalledPackage s = .ok () := by
  obtain ⟨⟨files, directories⟩, scanned, finds⟩ := look_scan laid.root laid.shallow
  have sameFiles : sameSet (files.map I.key) I.expectedFiles = true := by
    refine sameSet_eq_true ?_ ?_
    · intro p keyed
      obtain ⟨path, mem, rfl⟩ := List.mem_map.mp keyed
      obtain ⟨-, node, found, file⟩ := (finds.files path).mp mem
      obtain ⟨file, pinned, rfl⟩ := laid.only path node found file
      exact List.mem_map_of_mem pinned
    · intro p keyed
      obtain ⟨file, mem, rfl⟩ := List.mem_map.mp keyed
      obtain ⟨_, _, _, there, -⟩ := laid.files file mem
      refine List.mem_map_of_mem ((finds.files _).mpr ⟨?_, _, there, rfl⟩)
      exact below_root.mpr (named.inside file mem)
  have sameDirectories : sameSet (directories.map I.key) I.expectedDirectories = true := by
    refine sameSet_eq_true ?_ ?_
    · intro p keyed
      obtain ⟨path, mem, rfl⟩ := List.mem_map.mp keyed
      obtain ⟨below, found⟩ := (finds.directories path).mp mem
      obtain ⟨file, mem, above⟩ := (laid.directories path (below_root.mp below)).mp found
      exact List.mem_flatMap.mpr ⟨file, mem, List.mem_map_of_mem above⟩
    · intro p keyed
      obtain ⟨file, mem, within⟩ := List.mem_flatMap.mp keyed
      obtain ⟨path, above, rfl⟩ := List.mem_map.mp within
      have other : path ≠ [] := (of_decide_eq_true (List.mem_filter.mp above).2).1
      refine List.mem_map_of_mem ((finds.directories path).mpr ⟨below_root.mpr other, ?_⟩)
      exact (laid.directories path other).mpr ⟨file, mem, above⟩
  rw [verifyInstalledPackage, look_bind_ok (quiet_scan _ _) scanned]
  show look (settle (require (_ ∧ _) _) >>= _) s = _
  rw [look_require ⟨sameFiles, sameDirectories⟩]
  exact look_checkFiles named laid finds.files fun _ mem => mem

/-- A tree with the pinned files passes the verification. -/
theorem whole_of_laid (named : Named I) (laid : Laid I s.tree) : I.Whole s := by
  have verified := look_verifyInstalledPackage named laid
  obtain ⟨file, mem, is⟩ := named.runnable
  obtain ⟨number, content, executable, there, pinned⟩ := laid.files file mem
  rw [is] at there
  have info : (answer ⟨.error .cancelled, .ok true⟩ (.stat I.executable) s).1 =
      some ⟨number, content.length, executable⟩ := by
    rw [answer, there]
    rfl
  have bytes : (answer ⟨.error .cancelled, .ok true⟩ (.read I.executable) s).1 =
      some content := by
    rw [answer, there]
    rfl
  constructor
  · rw [inspect, look_bind_ok I.quiet_verifyInstalledPackage verified,
      look_ask rfl ⟨.error .cancelled, .ok true⟩, info]
    dsimp only
    rw [look_require (pinned.bounds is), look_require (pinned.runs is),
      look_ask rfl ⟨.error .cancelled, .ok true⟩, bytes]
    dsimp only
    rw [look_settle, require_of (pinned.magic is)]
  · have served : look I.inspectAgain s = .ok (I.sha256 content) := by
      rw [inspectAgain, look_bind_ok I.quiet_verifyInstalledPackage verified,
        look_ask rfl ⟨.error .cancelled, .ok true⟩, info,
        look_ask rfl ⟨.error .cancelled, .ok true⟩, bytes]
      dsimp only
      rw [look_ask rfl ⟨.error .cancelled, .ok true⟩, info, look_require ⟨rfl, rfl⟩,
        look_ask rfl ⟨.error .cancelled, .ok true⟩, bytes,
        look_require (Option.map_some ..)]
      rfl
    rw [served]
    rfl

end Installer

/-! ## Removal -/

/-- A condition on the disk after a program that runs alone and ends well. -/
abbrev Does {α : Type} (D : Draw → Prop) (p : Program α) (P : α → Disk → Prop) (s : Disk) : Prop :=
  Holds answer (Alone D fun _ => True) p.run (fun x t => ∃ a, x = .ok a ∧ P a t) s

section

variable {D : Draw → Prop} {α β : Type} {p : Program α} {f : α → Program β} {P : α → Disk → Prop}
  {F : β → Disk → Prop}

theorem does_bind (first : Does D p P s) (second : ∀ a t, P a t → Does D (f a) F t) :
    Does D (p >>= f) F s := by
  refine Holds.bind (f := ExceptT.bindCont f) first ?_
  rintro x t ⟨a, rfl, holds⟩
  exact second a t holds

theorem does_ask {q : Port} {g : q.Answer → Program β}
    (each : ∀ d, D d → Does D (g (answer d q s).1) F (answer d q s).2) : Does D (ask q >>= g) F s :=
  alone_ask fun d drawn => ⟨trivial, each d drawn⟩

theorem does_return {a : α} (holds : P a s) : Does D (return a) P s := ⟨a, rfl, holds⟩

theorem does_require {c : Prop} [Decidable c] {f : Unit → Program β} (holds : c)
    (rest : Does D (f ()) F s) : Does D (settle (require c .install) >>= f) F s := by
  rw [require_of holds]
  exact rest

theorem does_required {c : Prop} [Decidable c] {E : Unit → Disk → Prop} (holds : c)
    (ends : E () s) : Does D (settle (require c .install)) E s := by
  rw [require_of holds]
  exact ⟨(), rfl, ends⟩

theorem does_mono {P' : α → Disk → Prop} (does : Does D p P s) (ends : ∀ a t, P a t → P' a t) :
    Does D p P' s := by
  refine Holds.mono does ?_
  rintro x t ⟨a, rfl, holds⟩
  exact ⟨a, rfl, ends a t holds⟩

/-- What a program that only reads finds, if it ends well. -/
theorem does_look {a : α} (quiet : Quiet p) (found : look p s = .ok a) :
    Does D p (fun b t => b = a ∧ t = s) s := by
  have alone : Holds answer (Alone D fun _ => True) p.run
      (fun x t => t = s ∧ x = look p s) s :=
    (holds_quiet (D := D) quiet s).weaken (fun _ _ _ later => later) (fun _ _ _ => trivial)
      (fun _ drawn => drawn) fun _ _ _ _ => trivial
  refine alone.mono ?_
  rintro x t ⟨rfl, same⟩
  exact ⟨a, same.trans found, rfl, rfl⟩

end

namespace Installer

variable {D : Draw → Prop} {path : Path} {depth : Nat}

theorem quiet_forAll {act : Path → Program Unit} (each : ∀ path, Quiet (act path))
    (paths : List Path) : Quiet (forAll act paths) := by
  induction paths with
  | nil => exact quiet_return _
  | cons path paths ih => exact quiet_bind (each path) fun _ => ih

theorem quiet_checkEntry (child : Path) : Quiet (checkEntry child) := by
  refine quiet_ask rfl fun info => ?_
  cases info with
  | none => exact quiet_throw
  | some info => exact quiet_return _

theorem quiet_walk (depth : Nat) (path : Path) : Quiet (walk depth path) := by
  induction depth generalizing path with
  | zero => exact quiet_throw
  | succ depth ih =>
    refine quiet_ask rfl fun entries => ?_
    cases entries with
    | none => exact quiet_return _
    | some entries =>
      exact quiet_bind (quiet_forAll quiet_checkEntry _) fun _ => quiet_forAll ih _

theorem look_forAll {act : Path → Program Unit} (quiet : ∀ path, Quiet (act path))
    {paths : List Path} (each : ∀ path ∈ paths, look (act path) s = .ok ()) :
    look (forAll act paths) s = .ok () := by
  induction paths with
  | nil => rfl
  | cons path paths ih =>
    obtain ⟨first, rest⟩ := List.forall_mem_cons.mp each
    rw [forAll, look_bind_ok (quiet path) first]
    exact ih rest

/-- The walk of a tree finds nothing that is not plain. -/
theorem look_walk (there : s.tree.find path = some .dir) (shallow : Shallow s.tree depth path) :
    look (walk depth path) s = .ok () := by
  induction depth generalizing path with
  | zero => exact absurd (shallow.pos there) (Nat.lt_irrefl 0)
  | succ depth ih =>
    have list : (answer ⟨.error .cancelled, .ok true⟩ (.list path) s).1 = some (listed s path) :=
      if_pos there
    have checks : look (forAll checkEntry
        (directoriesIn path (listed s path) ++ filesIn path (listed s path))) s = .ok () := by
      refine look_forAll quiet_checkEntry fun child mem => ?_
      have found : ∃ node, s.tree.find child = some node := by
        obtain directory | file := List.mem_append.mp mem
        · obtain ⟨_, -, found⟩ := mem_directories.mp directory
          exact ⟨_, found⟩
        · obtain ⟨_, -, node, found, -⟩ := mem_files.mp file
          exact ⟨node, found⟩
      obtain ⟨node, found⟩ := found
      have info : (answer ⟨.error .cancelled, .ok true⟩ (.stat child) s).1 =
          some (infoOf node) := by
        rw [answer, found]
        rfl
      rw [checkEntry, look_ask rfl ⟨.error .cancelled, .ok true⟩, info]
      rfl
    rw [walk, look_ask rfl ⟨.error .cancelled, .ok true⟩, list]
    show look (forAll _ _ >>= _) s = _
    rw [look_bind_ok (quiet_forAll quiet_checkEntry _) checks]
    refine look_forAll (quiet_walk depth) fun child mem => ?_
    obtain ⟨name, rfl, found⟩ := mem_directories.mp mem
    exact ih found (shallow.child name)

/-- Exactly what is at a path and below it has been removed. -/
def Removed (gone : Path → Prop) (t t' : FileTree) : Prop :=
  ∀ p, (gone p → t'.find p = none) ∧ (¬ gone p → t'.find p = t.find p)

theorem Removed.before {gone : Path → Prop} {t t' : FileTree} {p : Path} {node : Node}
    (removed : Removed gone t t') (found : t'.find p = some node) :
    t.find p = some node ∧ ¬ gone p := by
  by_cases there : gone p
  · exact absurd (found.symm.trans ((removed p).1 there)) (Option.some_ne_none _)
  · exact ⟨((removed p).2 there).symm.trans found, there⟩

theorem Removed.shallow {gone : Path → Prop} {t t' : FileTree} (removed : Removed gone t t')
    (shallow : Shallow t depth path) : Shallow t' depth path :=
  fun p node found => shallow p node (removed.before found).1

theorem append_prefix_inj {name name' : String} {p : Path} (within : path ++ [name] <+: p)
    (within' : path ++ [name'] <+: p) : name = name' := by
  obtain ⟨rest, rfl⟩ := within
  obtain ⟨rest', same⟩ := within'
  rw [List.append_assoc, List.append_assoc] at same
  exact (List.cons.inj (List.append_cancel_left same)).1.symm

/-- The entries of a directory are removed one after the other. -/
theorem does_removeEntries {ignoreErrors : Bool} {remove : Path → Program Unit}
    (each : ∀ name s, s.tree.find (path ++ [name]) = some .dir →
      Shallow s.tree depth (path ++ [name]) →
        Does D (remove (path ++ [name]))
          (fun _ t => Removed (path ++ [name] <+: ·) s.tree t.tree) s)
    {entries : List (String × Bool)} (nodup : (entries.map Prod.fst).Nodup)
    (there : ∀ e ∈ entries, ∃ node,
      s.tree.find (path ++ [e.1]) = some node ∧ node.isDir = e.2)
    (shallow : Shallow s.tree (depth + 1) path) :
    Does D (removeEntries ignoreErrors remove path entries)
      (fun _ t => Removed (fun p => ∃ e ∈ entries, path ++ [e.1] <+: p) s.tree t.tree) s := by
  induction entries generalizing s with
  | nil =>
    refine does_return fun p => ⟨?_, fun _ => rfl⟩
    rintro ⟨e, mem, -⟩
    exact absurd mem List.not_mem_nil
  | cons e rest ih =>
    obtain ⟨name, isDir⟩ := e
    obtain ⟨other, nodup⟩ := List.nodup_cons.mp nodup
    obtain ⟨⟨node, found, is⟩, there⟩ := List.forall_mem_cons.mp there
    -- the entry itself, with what is below it
    have first : Does D (removeEntry ignoreErrors remove (path ++ [name]) isDir)
        (fun _ t => Removed (path ++ [name] <+: ·) s.tree t.tree) s := by
      rw [removeEntry]
      cases node with
      | dir =>
        rw [if_pos (show isDir = true from is.symm)]
        exact each name s found (shallow.child name)
      | file number content executable =>
        rw [if_neg (show ¬ isDir = true from fun dir => Bool.false_ne_true (is.trans dir))]
        have leaf := leaf_of_file found
        have unlinked : ∀ d, answer d (.unlink (path ++ [name])) s =
            (true, ⟨s.tree.erase leaf, s.next⟩) := by
          intro d
          rw [answer, dif_pos ⟨leaf, by rw [found]; rfl⟩]
        refine does_ask fun d _ => ?_
        rw [unlinked d]
        refine does_return fun p => ?_
        show (_ → (s.tree.erase leaf).find p = none) ∧ (_ → (s.tree.erase leaf).find p = _)
        rw [find_erase]
        constructor
        · intro within
          split
          · rfl
          · next away =>
            cases below : s.tree.find p with
            | none => rfl
            | some node =>
              have dir := find_above below within fun same => away same.symm
              exact Node.noConfusion (Option.some.inj (found.symm.trans dir))
        · intro away
          have other : ¬ p = path ++ [name] := fun same => away (prefix_of_eq same.symm)
          rw [if_neg other]
    refine does_bind first fun _ t removed => ?_
    have kept : ∀ e ∈ rest, ∃ node,
        t.tree.find (path ++ [e.1]) = some node ∧ node.isDir = e.2 := by
      intro e mem
      obtain ⟨node, found, is⟩ := there e mem
      refine ⟨node, ((removed _).2 fun within => ?_).trans found, is⟩
      have same := append_prefix_inj within List.prefix_rfl
      exact other (List.mem_map.mpr ⟨e, mem, same.symm⟩)
    refine does_mono (ih nodup kept (removed.shallow shallow)) fun _ u later p => ?_
    constructor
    · rintro ⟨e, mem, within⟩
      obtain here | mem := List.mem_cons.mp mem
      · rw [here] at within
        by_cases again : ∃ e ∈ rest, path ++ [e.1] <+: p
        · exact (later p).1 again
        · rw [(later p).2 again]
          exact (removed p).1 within
      · exact (later p).1 ⟨e, mem, within⟩
    · intro away
      rw [(later p).2 fun ⟨e, mem, within⟩ => away ⟨e, List.mem_cons_of_mem _ mem, within⟩]
      exact (removed p).2 fun within => away ⟨_, List.mem_cons_self, within⟩

/-- A directory is removed with everything below it. -/
theorem does_rmtree {ignoreErrors : Bool} (there : s.tree.find path = some .dir)
    (shallow : Shallow s.tree depth path) :
    Does D (rmtree ignoreErrors depth path)
      (fun _ t => Removed (path <+: ·) s.tree t.tree) s := by
  induction depth generalizing path s with
  | zero => exact absurd (shallow.pos there) (Nat.lt_irrefl 0)
  | succ depth ih =>
    have list : ∀ d, answer d (.list path) s = (some (listed s path), s) := by
      intro d
      rw [answer, if_pos there]
      rfl
    refine does_ask fun d _ => ?_
    rw [list d]
    have nodup : ((listed s path).map Prod.fst).Nodup := by
      rw [listed, List.map_map]
      exact nodup_children _ _
    refine does_bind (does_removeEntries (fun name s found below => ih found below) nodup
      (fun e mem => mem_listed.mp mem) shallow) fun _ t removed => ?_
    have self : t.tree.find path = some .dir := by
      refine ((removed path).2 ?_).trans there
      rintro ⟨e, -, within⟩
      have longer := within.length_le
      rw [List.length_append, List.length_singleton] at longer
      omega
    have leaf : t.tree.Leaf path := by
      refine List.eq_nil_iff_forall_not_mem.mpr ?_
      rintro ⟨name, node⟩ mem
      obtain ⟨found, kept⟩ := removed.before (mem_children.mp mem)
      exact kept ⟨(name, node.isDir), mem_listed.mpr ⟨node, found, rfl⟩, List.prefix_rfl⟩
    have unlinked : ∀ d, answer d (.rmdir path) t = (true, ⟨t.tree.erase leaf, t.next⟩) := by
      intro d
      rw [answer, dif_pos ⟨leaf, self⟩]
    refine does_ask fun d _ => ?_
    rw [unlinked d]
    refine does_return fun p => ?_
    show (_ → (t.tree.erase leaf).find p = none) ∧ (_ → (t.tree.erase leaf).find p = _)
    rw [find_erase]
    constructor
    · intro within
      split
      · rfl
      · next other =>
        cases found : t.tree.find p with
        | none => rfl
        | some node =>
          obtain ⟨before, kept⟩ := removed.before found
          obtain ⟨rest, rfl⟩ := within
          cases rest with
          | nil => exact absurd (List.append_nil _) other
          | cons name rest =>
            have child : path ++ [name] <+: path ++ name :: rest :=
              ⟨rest, (List.append_cons _ _ _).symm⟩
            have entry : ∃ node, s.tree.find (path ++ [name]) = some node := by
              by_cases direct : path ++ [name] = path ++ name :: rest
              · exact ⟨node, by rw [direct]; exact before⟩
              · exact ⟨_, find_above before child direct⟩
            obtain ⟨node', entry⟩ := entry
            exact absurd ⟨(name, node'.isDir), mem_listed.mpr ⟨node', entry, rfl⟩, child⟩ kept
    · intro away
      have other : ¬ p = path := fun same => away (prefix_of_eq same.symm)
      rw [if_neg other]
      refine (removed p).2 ?_
      rintro ⟨e, -, within⟩
      exact away ((List.prefix_append _ _).trans within)

/-- Whatever tree is there, it is removed as a whole. -/
theorem does_removePlainManagedTree (there : s.tree.find [] = some .dir)
    (shallow : Shallow s.tree I.depth []) :
    Does D I.removePlainManagedTree (fun _ t => ∀ p, t.tree.find p = none) s := by
  have isDir : ∀ d, answer d (.isDir []) s = (true, s) := by
    intro d
    rw [answer, decide_eq_true there]
  refine does_ask fun d _ => ?_
  rw [isDir d]
  refine does_require rfl ?_
  refine does_bind (does_look (quiet_walk _ _) (look_walk there shallow)) ?_
  rintro _ t ⟨-, rfl⟩
  exact does_mono (does_rmtree there shallow) fun _ u removed p => (removed p).1 List.nil_prefix

end Installer

/-! ## Extraction -/

/-- The directories up to a path have been made where they were missing. -/
def Reached (path : Path) (t t' : FileTree) : Prop :=
  ∀ p, t'.find p = if t.find p = none ∧ p <+: path then some .dir else t.find p

theorem reached_of_dir {path : Path} {t : FileTree} (there : t.find path = some .dir) :
    Reached path t t := by
  intro p
  refine (if_neg ?_).symm
  rintro ⟨missing, within⟩
  by_cases same : p = path
  · exact Option.some_ne_none _ (there.symm.trans (by rw [← same]; exact missing))
  · exact Option.some_ne_none _ ((find_above there within same).symm.trans missing)

namespace Installer

variable {D : Draw → Prop}

theorem answer_makeDir_free {path : Path} {d : Draw} (free : s.tree.Free path) :
    answer d (.makeDir path) s = (.created, ⟨s.tree.insert .dir free, s.next⟩) := by
  rw [answer, dif_pos free]

theorem answer_makeDir_missing {path : Path} {d : Draw} (fresh : s.tree.find path = none)
    (orphan : s.tree.find path.dropLast = none) (other : path ≠ []) :
    answer d (.makeDir path) s = (.missing, s) := by
  have taken : ¬ s.tree.Free path := by
    intro free
    obtain root | parent := free.parent
    · exact other root
    · exact Option.some_ne_none _ (parent.symm.trans orphan)
  rw [answer, dif_neg taken, if_pos ⟨fresh, orphan⟩]

theorem answer_makeDir_refused {path : Path} {d : Draw} {node : Node}
    (found : s.tree.find path = some node) : answer d (.makeDir path) s = (.refused, s) := by
  have taken : ¬ s.tree.Free path :=
    fun free => Option.some_ne_none _ (found.symm.trans free.fresh)
  rw [answer, dif_neg taken, if_neg fun absent => Option.some_ne_none _ (found.symm.trans absent.1)]

/-- A directory in a directory that has been reached. -/
theorem reached_insert {parent : Path} {name : String} {t t' : FileTree}
    (reached : Reached parent t t') (free : t'.Free (parent ++ [name]))
    (fresh : t.find (parent ++ [name]) = none) :
    Reached (parent ++ [name]) t (t'.insert .dir free) := by
  intro p
  rw [find_insert]
  split
  · next same =>
    rw [same, if_pos ⟨fresh, List.prefix_rfl⟩]
  · next other =>
    rw [reached p]
    have within : p <+: parent ↔ p <+: parent ++ [name] :=
      ⟨fun within => within.trans (List.prefix_append _ _),
        fun within => (List.prefix_concat_iff.mp within).resolve_left other⟩
    simp only [within]

/-- `Path.mkdir` with `parents` makes all directories that are missing up to its path. -/
theorem does_mkdirs {existOk : Bool} (reversed : List String)
    (root : s.tree.find [] = some .dir)
    (plain : ∀ p node, p <+: reversed.reverse → s.tree.find p = some node → node = .dir)
    (makes : existOk = true ∨ s.tree.find reversed.reverse = none) :
    Does D (mkdirs existOk reversed)
      (fun _ t => Reached reversed.reverse s.tree t.tree ∧ t.next = s.next) s := by
  induction reversed generalizing existOk s with
  | nil =>
    refine does_ask fun d _ => ?_
    rw [answer_makeDir_refused root]
    have ok : existOk = true := makes.resolve_right fun missing =>
      Option.some_ne_none _ (root.symm.trans missing)
    show Does D (mustBeDir existOk []) _ s
    rw [mustBeDir, if_pos ok]
    refine does_ask fun d _ => ?_
    rw [answer, decide_eq_true root]
    exact does_required rfl ⟨reached_of_dir root, rfl⟩
  | cons name parent ih =>
    have reversed_eq : (name :: parent).reverse = parent.reverse ++ [name] := List.reverse_cons
    rw [reversed_eq] at plain makes ⊢
    have above : ∀ p node, p <+: parent.reverse → s.tree.find p = some node → node = .dir :=
      fun p node within => plain p node (within.trans (List.prefix_append _ _))
    rw [mkdirs, reversed_eq]
    refine does_ask fun d _ => ?_
    cases found : s.tree.find (parent.reverse ++ [name]) with
    | some node =>
      rw [answer_makeDir_refused found]
      have ok : existOk = true := makes.resolve_right fun missing =>
        Option.some_ne_none _ (found.symm.trans missing)
      have is := plain _ node List.prefix_rfl found
      rw [is] at found
      show Does D (mustBeDir existOk _) _ s
      rw [mustBeDir, if_pos ok]
      refine does_ask fun d _ => ?_
      rw [answer, decide_eq_true found]
      exact does_required rfl ⟨reached_of_dir found, rfl⟩
    | none =>
      cases up : s.tree.find parent.reverse with
      | some node =>
        have is := above _ node List.prefix_rfl up
        rw [is] at up
        have free : s.tree.Free (parent.reverse ++ [name]) :=
          ⟨found, .inr (by rw [List.dropLast_concat]; exact up)⟩
        rw [answer_makeDir_free free]
        exact does_return ⟨reached_insert (reached_of_dir up) free found, rfl⟩
      | none =>
        have other : parent.reverse ++ [name] ≠ [] :=
          List.append_ne_nil_of_right_ne_nil _ (List.cons_ne_nil _ _)
        rw [answer_makeDir_missing found (by rw [List.dropLast_concat]; exact up) other]
        show Does D (mkdirs true parent >>= _) _ s
        refine does_bind (ih root above (.inl rfl)) ?_
        rintro _ t ⟨reached, next⟩
        have fresh : t.tree.find (parent.reverse ++ [name]) = none := by
          rw [reached, if_neg]
          · exact found
          · rintro ⟨-, within⟩
            have longer := within.length_le
            rw [List.length_append, List.length_singleton] at longer
            omega
        have free : t.tree.Free (parent.reverse ++ [name]) := by
          refine ⟨fresh, .inr ?_⟩
          rw [List.dropLast_concat, reached, if_pos ⟨up, List.prefix_rfl⟩]
        refine does_ask fun d _ => ?_
        rw [answer_makeDir_free free]
        exact does_return ⟨reached_insert reached free found, next⟩

/-- The tree is another one at one path only. -/
def Put (path : Path) (node : Node) (t t' : FileTree) : Prop :=
  ∀ p, t'.find p = if p = path then some node else t.find p

theorem Put.again {path : Path} {node node' : Node} {t t' t'' : FileTree} (put : Put path node t t')
    (then_ : Put path node' t' t'') : Put path node' t t'' := by
  intro p
  rw [then_ p]
  split
  · rfl
  · next other => rw [put p, if_neg other]

theorem put_modify {path : Path} {t : FileTree} {number : Nat} {content : List UInt8}
    {executable : Bool} {f : Nat → List UInt8 → Bool → List UInt8 × Bool}
    (found : t.find path = some (.file number content executable)) :
    Put path (.file number (f number content executable).1 (f number content executable).2) t
      (t.modify path f) := by
  intro p
  rw [find_modify]
  split
  · next same =>
    rw [same, found]
    rfl
  · rfl

/-- The chunks of a file are written one after the other. -/
theorem does_writeAll {path : Path} {number : Nat} {content : List UInt8} {executable : Bool}
    (chunks : List (List UInt8))
    (found : s.tree.find path = some (.file number content executable)) :
    Does D (writeAll path number chunks)
      (fun _ t => Put path (.file number (content ++ chunks.flatten) executable) s.tree t.tree)
      s := by
  induction chunks generalizing s content with
  | nil =>
    refine does_return fun p => ?_
    rw [List.flatten_nil, List.append_nil]
    split
    · next same =>
      rw [same]
      exact found
    · rfl
  | cons chunk rest ih =>
    refine does_ask fun d _ => ?_
    have put := put_modify (f := fun number' content executable =>
      (if number' = number then content ++ chunk else content, executable)) found
    dsimp only at put
    rw [if_pos rfl] at put
    have written := put path
    rw [if_pos rfl] at written
    refine does_mono (ih written) fun _ t later => ?_
    rw [List.flatten_cons, ← List.append_assoc]
    exact put.again later

/-- The mode of a file that has been extracted. -/
def modeOf (I : Installer) (executable : Bool) : Bool := if I.windows then false else executable

/-- The node of a member. -/
def nodeOf (I : Installer) (number : Nat) : Member → Node
  | .dir _ => .dir
  | .file _ chunks executable => .file number chunks.flatten (I.modeOf executable)

/-- A member has been extracted, with the directories above it. -/
def Added (I : Installer) (m : Member) (t t' : FileTree) : Prop :=
  ∃ number, ∀ p, t'.find p = if p = m.parts then some (I.nodeOf number m)
    else if t.find p = none ∧ p <+: m.parts then some .dir else t.find p

theorem prefix_dropLast_iff {p path : Path} (other : p ≠ path) :
    p <+: path ↔ p <+: path.dropLast := by
  constructor
  · intro within
    by_cases root : path = []
    · rw [root] at within ⊢
      exact within
    · have whole := List.dropLast_append_getLast root
      rw [← whole] at within other
      exact (List.prefix_concat_iff.mp within).resolve_left other
  · intro within
    exact within.trans (List.dropLast_prefix path)

/-- A member whose place is free is extracted. -/
theorem does_extractMember (m : Member) (root : s.tree.find [] = some .dir)
    (inside : m.parts ≠ []) (fresh : s.tree.find m.parts = none)
    (plain : ∀ p node, p <+: m.parts → s.tree.find p = some node → node = .dir) :
    Does D (I.extractMember m) (fun _ t => I.Added m s.tree t.tree) s := by
  cases m with
  | dir parts =>
    have makes : false = true ∨ s.tree.find parts.reverse.reverse = none := by
      rw [List.reverse_reverse]
      exact .inr fresh
    have reaches := does_mkdirs (D := D) parts.reverse root
      (by rw [List.reverse_reverse]; exact plain) makes
    rw [List.reverse_reverse] at reaches
    refine does_mono reaches ?_
    rintro _ t ⟨reached, -⟩
    refine ⟨0, fun p => ?_⟩
    show t.tree.find p = if p = parts then some .dir
      else if s.tree.find p = none ∧ p <+: parts then some .dir else s.tree.find p
    rw [reached p]
    by_cases same : p = parts
    · rw [same, if_pos ⟨fresh, List.prefix_rfl⟩, if_pos rfl]
    · rw [if_neg same]
  | file parts chunks executable =>
    have fresh : s.tree.find parts = none := fresh
    have above : ∀ p node, p <+: parts.dropLast.reverse.reverse → s.tree.find p = some node →
        node = .dir := by
      intro p node within
      rw [List.reverse_reverse] at within
      exact plain p node (within.trans (List.dropLast_prefix parts))
    refine does_bind (does_mkdirs parts.dropLast.reverse root above (.inl rfl)) ?_
    rintro _ t ⟨reached, -⟩
    rw [List.reverse_reverse] at reached
    have shorter : ¬ parts <+: parts.dropLast := by
      intro within
      have longer := within.length_le
      rw [List.length_dropLast] at longer
      have nonempty := List.length_pos_of_ne_nil inside
      have same : Member.parts (.file parts chunks executable) = parts := rfl
      rw [same] at nonempty
      omega
    have free : t.tree.Free parts := by
      refine ⟨?_, .inr ?_⟩
      · rw [reached, if_neg fun both => shorter both.2]
        exact fresh
      · rw [reached]
        split
        · rfl
        · next kept =>
          cases up : s.tree.find parts.dropLast with
          | none => exact absurd ⟨up, List.prefix_rfl⟩ kept
          | some node => rw [plain _ node (List.dropLast_prefix parts) up]
    have created : ∀ d, answer d (.create parts) t =
        (some t.next, ⟨t.tree.insert (.file t.next [] false) free, t.next + 1⟩) := by
      intro d
      rw [answer, dif_pos ⟨free, inside⟩]
    refine does_ask fun d _ => ?_
    rw [created d]
    have put : Put parts (.file t.next [] false) t.tree
        (t.tree.insert (.file t.next [] false) free) := find_insert free
    have here := put parts
    rw [if_pos rfl] at here
    show Does D (writeAll parts t.next chunks >>= _) _ _
    refine does_bind (does_writeAll chunks here) fun _ u written => ?_
    have put := put.again written
    have added : ∀ (v : FileTree), Put parts (I.nodeOf t.next (.file parts chunks executable))
        t.tree v → I.Added (.file parts chunks executable) s.tree v := by
      intro v put
      refine ⟨t.next, fun p => ?_⟩
      rw [put p]
      show (if p = parts then _ else _) = if p = parts then _ else _
      split
      · rfl
      · next other =>
        rw [reached p]
        simp only [← prefix_dropLast_iff other]
        rfl
    by_cases windows : I.windows = true
    · rw [if_pos windows]
      refine does_return (added _ ?_)
      rw [nodeOf, modeOf, if_pos windows]
      exact put
    · rw [if_neg windows]
      have here := put parts
      rw [if_pos rfl] at here
      have changed : ∀ d, answer d (.chmod parts executable) u =
          (true, ⟨u.tree.modify parts fun _ content _ => (content, executable), u.next⟩) := by
        intro d
        rw [answer, here]
        rfl
      refine does_ask fun d _ => ?_
      rw [changed d]
      refine does_required rfl (added _ ?_)
      rw [nodeOf, modeOf, if_neg windows]
      exact put.again (put_modify here)

end Installer

end Corvus.Codex
