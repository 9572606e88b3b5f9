import Corvus.Codex.Orderly
import Corvus.Codex.Rebuilding
import Mathlib.Data.List.Infix

/-!
# Packages that stay and come back

The members of a genuine archive fit into one tree, which has the pinned files. While the calls
keep out of each other's way, a package that has been served stays as it is. Whatever calls have
been stopped, the next one that runs alone ends with a package that passes the verification.
-/

namespace Corvus.Codex

open FileTree Dialogue Procedure

/-! ## A genuine archive -/

/-- The members are the pinned files and directories above them, each in a place that is free when
its turn comes. -/
structure Package (I : Installer) (members : List Member) : Prop where
  inside : ∀ m ∈ members, m.parts ≠ []
  ordered : members.Pairwise fun m later => ¬ later.parts <+: m.parts
  leaves : ∀ parts chunks executable, Member.file parts chunks executable ∈ members →
    ∀ m ∈ members, parts <+: m.parts → parts = m.parts
  known : ∀ parts chunks executable, Member.file parts chunks executable ∈ members →
    ∃ file ∈ I.files, file.path = parts
  directories : ∀ parts, Member.dir parts ∈ members →
    ∃ file ∈ I.files, parts ∈ Installer.parents file.path
  files : ∀ file ∈ I.files, ∃ chunks executable,
    Member.file file.path chunks executable ∈ members ∧
      Pinned I file chunks.flatten (I.modeOf executable)

/-- Every archive with the pinned digest holds the package. -/
structure Genuine (I : Installer) : Prop where
  named : Named I
  package : ∀ content, I.admits content → Package I (I.unpack content)

/-- Some members have been extracted into an empty directory. -/
structure Extracted (I : Installer) (done : List Member) (t : FileTree) : Prop where
  root : t.find [] = some .dir
  placed : ∀ m ∈ done, ∃ number, t.find m.parts = some (I.nodeOf number m)
  above : ∀ m ∈ done, ∀ p, p <+: m.parts → p ≠ m.parts → t.find p = some .dir
  only : ∀ p node, t.find p = some node → p ≠ [] →
    ∃ m ∈ done, p <+: m.parts ∧ (p = m.parts ∨ node = .dir)

variable {I : Installer} {s : Disk} {members done rest : List Member} {m : Member} {t t' : FileTree}

theorem mem_parents {path p : Path} :
    p ∈ Installer.parents path ↔ p <+: path ∧ p ≠ [] ∧ p ≠ path := by
  rw [Installer.parents, List.mem_filter, List.mem_inits, decide_eq_true_iff]

/-- A member leads to a file that has been pinned. -/
theorem Package.pinned (package : Package I members) (mem : m ∈ members) :
    ∃ file ∈ I.files, m.parts <+: file.path := by
  cases m with
  | dir parts =>
    obtain ⟨file, there, above⟩ := package.directories parts mem
    exact ⟨file, there, (mem_parents.mp above).1⟩
  | file parts chunks executable =>
    obtain ⟨file, there, same⟩ := package.known _ _ _ mem
    exact ⟨file, there, prefix_of_eq same.symm⟩

theorem Package.shallow (package : Package I members) (named : Named I) :
    ∀ m ∈ members, m.parts.length < I.depth := by
  intro m mem
  obtain ⟨file, there, within⟩ := package.pinned mem
  exact Nat.lt_of_le_of_lt within.length_le (named.shallow file there)

theorem Named.deep (named : Named I) : 0 < I.depth := by
  obtain ⟨file, there, -⟩ := named.runnable
  exact Nat.zero_lt_of_lt (named.shallow file there)

/-- The place of the next member is free. -/
theorem Extracted.fresh (extracted : Extracted I done t)
    (inside : m.parts ≠ []) (next : ∀ before ∈ done, ¬ m.parts <+: before.parts) :
    t.find m.parts = none := by
  cases found : t.find m.parts with
  | none => rfl
  | some node =>
    obtain ⟨before, mem, within, -⟩ := extracted.only _ _ found inside
    exact absurd within (next before mem)

/-- What is there above the place of the next member is a directory. -/
theorem Extracted.plain (extracted : Extracted I done t)
    (leaves : ∀ parts chunks executable, Member.file parts chunks executable ∈ done →
      ¬ parts <+: m.parts) {p : Path} {node : Node} (within : p <+: m.parts)
    (found : t.find p = some node) : node = .dir := by
  by_cases root : p = []
  · rw [root, extracted.root] at found
    exact (Option.some.inj found).symm
  obtain ⟨before, mem, -, rfl | dir⟩ := extracted.only _ _ found root
  · obtain ⟨number, placed⟩ := extracted.placed before mem
    have same := Option.some.inj (found.symm.trans placed)
    cases before with
    | dir parts => exact same
    | file parts chunks executable => exact absurd within (leaves _ _ _ mem)
  · exact dir

theorem Extracted.add (extracted : Extracted I done t) (added : I.Added m t t')
    (inside : m.parts ≠ []) (next : ∀ before ∈ done, ¬ m.parts <+: before.parts)
    (leaves : ∀ parts chunks executable, Member.file parts chunks executable ∈ done →
      ¬ parts <+: m.parts) : Extracted I (done ++ [m]) t' := by
  obtain ⟨number, added⟩ := added
  -- what has been found is found again, since it is not in the place of the member
  have kept : ∀ p node, t.find p = some node → p ≠ m.parts → t'.find p = some node := by
    intro p node found other
    rw [added p, if_neg other, if_neg fun missing =>
      Option.some_ne_none _ (found.symm.trans missing.1)]
    exact found
  refine ⟨kept _ _ extracted.root inside.symm, ?_, ?_, ?_⟩
  · refine List.forall_mem_append.mpr ⟨fun before mem => ?_, List.forall_mem_singleton.mpr ?_⟩
    · obtain ⟨number, placed⟩ := extracted.placed before mem
      exact ⟨number, kept _ _ placed fun same => next before mem (prefix_of_eq same.symm)⟩
    · exact ⟨number, by rw [added, if_pos rfl]⟩
  · refine List.forall_mem_append.mpr ⟨fun before mem p within other => ?_,
      List.forall_mem_singleton.mpr fun p within other => ?_⟩
    · refine kept _ _ (extracted.above before mem p within other) ?_
      rintro rfl
      exact next before mem within
    · cases found : t.find p with
      | none => rw [added, if_neg other, if_pos ⟨found, within⟩]
      | some node =>
        rw [extracted.plain leaves within found] at found
        exact kept _ _ found other
  · intro p node found other
    rw [added p] at found
    split at found
    · next same =>
      exact ⟨m, List.mem_append_right _ (List.mem_singleton_self m), prefix_of_eq same,
        .inl same⟩
    · split at found
      · next missing =>
        exact ⟨m, List.mem_append_right _ (List.mem_singleton_self m), missing.2,
          .inr (Option.some.inj found).symm⟩
      · obtain ⟨before, mem, rest⟩ := extracted.only p node found other
        exact ⟨before, List.mem_append_left _ mem, rest⟩

variable {D : Draw → Prop}

/-- The members of a package are extracted one after the other. -/
theorem Installer.does_extract (package : Package I (done ++ rest))
    (extracted : Extracted I done s.tree) :
    Does D (I.extract rest) (fun _ t => Extracted I (done ++ rest) t.tree) s := by
  induction rest generalizing done s with
  | nil =>
    refine does_return ?_
    rw [List.append_nil]
    exact extracted
  | cons m rest ih =>
    have mem : m ∈ done ++ m :: rest := List.mem_append_right _ List.mem_cons_self
    have inside := package.inside m mem
    have next : ∀ before ∈ done, ¬ m.parts <+: before.parts :=
      fun before there => (List.pairwise_append.mp package.ordered).2.2 before there m
        List.mem_cons_self
    have leaves : ∀ parts chunks executable, Member.file parts chunks executable ∈ done →
        ¬ parts <+: m.parts := by
      intro parts chunks executable there within
      have same := package.leaves _ _ _ (List.mem_append_left _ there) m mem within
      exact next _ there (prefix_of_eq same.symm)
    refine does_bind (does_extractMember m extracted.root inside (extracted.fresh inside next)
      fun p node within found => extracted.plain leaves within found) ?_
    intro _ t added
    rw [List.append_cons] at package ⊢
    exact ih package (extracted.add added inside next leaves)

/-- A tree into which a package has been extracted has the pinned files. -/
theorem Extracted.laid (extracted : Extracted I members t) (named : Named I)
    (package : Package I members) : Laid I t := by
  have atFile : ∀ file ∈ I.files, ∃ number content executable,
      t.find file.path = some (.file number content executable) ∧
        Pinned I file content executable := by
    intro file there
    obtain ⟨chunks, executable, mem, pinned⟩ := package.files file there
    obtain ⟨number, placed⟩ := extracted.placed _ mem
    exact ⟨number, _, _, placed, pinned⟩
  refine ⟨extracted.root, atFile, ?_, ?_, ?_⟩
  · intro p node found isFile
    have other : p ≠ [] := by
      rintro rfl
      rw [extracted.root] at found
      rw [← Option.some.inj found] at isFile
      exact Bool.noConfusion isFile
    obtain ⟨m, mem, -, rfl | dir⟩ := extracted.only p node found other
    · obtain ⟨number, placed⟩ := extracted.placed m mem
      have same := Option.some.inj (found.symm.trans placed)
      cases m with
      | dir parts =>
        rw [same] at isFile
        exact Bool.noConfusion isFile
      | file parts chunks executable =>
        obtain ⟨file, there, same⟩ := package.known _ _ _ mem
        exact ⟨file, there, same.symm⟩
    · rw [dir] at isFile
      exact Bool.noConfusion isFile
  · intro p other
    constructor
    · intro found
      obtain ⟨m, mem, within, -⟩ := extracted.only p _ found other
      obtain ⟨file, there, above⟩ := package.pinned mem
      refine ⟨file, there, mem_parents.mpr ⟨within.trans above, other, ?_⟩⟩
      rintro rfl
      obtain ⟨_, _, _, isFile, -⟩ := atFile file there
      exact Node.noConfusion (Option.some.inj (found.symm.trans isFile))
    · rintro ⟨file, there, above⟩
      obtain ⟨within, -, other⟩ := mem_parents.mp above
      obtain ⟨chunks, executable, mem, -⟩ := package.files file there
      exact extracted.above _ mem p within other
  · intro p node found _
    rw [List.length_nil, Nat.zero_add]
    by_cases root : p = []
    · rw [root]
      exact named.deep
    · obtain ⟨m, mem, within, -⟩ := extracted.only p _ found root
      have shorter := within.length_le
      have deeper := package.shallow named m mem
      omega

/-! ## A call that runs alone -/

namespace Installer

/-- The archive arrives, and the command answers as it should. -/
structure Succeeds (I : Installer) (d : Draw) : Prop where
  download : ∃ content, d.download = .ok content ∧ I.admits content
  version : d.version = .ok true

theorem does_verifiedService (whole : I.Whole s) :
    Does I.Succeeds I.verifiedService (fun _ t => I.Whole t) s := by
  refine (I.alone_verifiedService s).mono ?_
  rintro x t ⟨rfl, verified⟩
  obtain ⟨service, served⟩ := verified.served whole fun d succeeds => succeeds.version
  exact ⟨service, served, whole⟩

/-- A directory that has just been made is filled. -/
theorem does_build (genuine : Genuine I) (extracted : Extracted I [] s.tree) :
    Does I.Succeeds I.build (fun _ t => I.Whole t) s := by
  refine does_ask fun d succeeds => ?_
  obtain ⟨content, downloaded, admitted⟩ := succeeds.download
  have arrived : (answer d .download s).1 = .ok content := downloaded
  rw [arrived]
  refine does_require admitted ?_
  have package : Package I ([] ++ I.unpack content) := genuine.package content admitted
  refine does_bind (does_extract package extracted) ?_
  intro _ t extracted
  rw [List.nil_append] at package extracted
  exact does_verifiedService (whole_of_laid genuine.named (extracted.laid genuine.named package))

theorem does_create (genuine : Genuine I) (rootless : s.tree.find [] = none) :
    Does I.Succeeds I.create (fun _ t => I.Whole t) s := by
  have free : s.tree.Free [] := ⟨rootless, .inl rfl⟩
  refine does_ask fun d _ => ?_
  rw [answer_makeDir_free free]
  have extracted : Extracted I [] (s.tree.insert .dir free) := by
    refine ⟨?_, fun _ mem => absurd mem List.not_mem_nil, fun _ mem => absurd mem List.not_mem_nil,
      fun p node found other => ?_⟩
    · rw [find_insert, if_pos rfl]
    · rw [find_insert, if_neg other, find_eq_some, entries_eq_nil rootless] at found
      exact absurd found List.not_mem_nil
  refine holds_attempt (does_build (s := ⟨s.tree.insert .dir free, s.next⟩) genuine extracted) ?_
  rintro _ t ⟨service, rfl, whole⟩
  exact ⟨service, rfl, whole⟩

/-- The root is no file, and no path is as long as the depth goes. -/
structure Tidy (I : Installer) (s : Disk) : Prop where
  root : ∀ node, s.tree.find [] = some node → node = .dir
  shallow : ∀ p node, s.tree.find p = some node → p.length < I.depth

/-- A call that runs alone, with all that it waits for, ends with a package that passes the
verification. -/
theorem does_install (genuine : Genuine I) (tidy : Tidy I s) :
    Does I.Succeeds I.install (fun _ t => I.Whole t) s := by
  refine does_ask fun d _ => ?_
  cases there : s.tree.find [] with
  | none =>
    have absent : (answer d .exists s).1 = false := by
      rw [answer, there]
      rfl
    rw [absent]
    exact does_create genuine there
  | some node =>
    rw [tidy.root node there] at there
    have present : (answer d .exists s).1 = true := by
      rw [answer, there]
      rfl
    rw [present]
    refine holds_attempt (I.alone_verifiedService s) ?_
    rintro x t ⟨rfl, verified⟩
    cases x with
    | ok service => exact ⟨service, rfl, verified.whole service rfl⟩
    | error failure =>
      cases failure with
      | cancelled => exact absurd rfl (verified.patient fun d succeeds => succeeds.version)
      | install =>
        have shallow : Shallow t.tree I.depth [] := by
          intro p node found _
          rw [List.length_nil, Nat.zero_add]
          exact tidy.shallow p node found
        refine does_bind (does_removePlainManagedTree there shallow) ?_
        intro _ u removed
        exact does_create genuine (removed [])

/-! ## What all calls leave behind -/

/-- What is made lies within the depth, and no file is made in place of the directory. -/
def Confines (I : Installer) : Port → Prop
  | .makeDir path | .create path => path.length < I.depth
  | _ => True

theorem Tidy.answer (tidy : Tidy I s) {q : Port} (confines : I.Confines q) (d : Draw) :
    Tidy I (answer d q s).2 := by
  -- what is found after the step has been there before, or it is what has been made
  have settles : ∀ t : Disk, (∀ p node, t.tree.find p = some node →
      (∃ node', s.tree.find p = some node' ∧ (node' = .dir → node = .dir)) ∨
        p.length < I.depth ∧ (p = [] → node = .dir)) → Tidy I t := by
    intro t each
    constructor
    · intro node found
      obtain ⟨node', before, kept⟩ | ⟨-, dir⟩ := each _ node found
      · exact kept (tidy.root node' before)
      · exact dir rfl
    · intro p node found
      obtain ⟨node', before, -⟩ | ⟨shorter, -⟩ := each p node found
      · exact tidy.shallow p node' before
      · exact shorter
  have modified : ∀ (path : Path) (f : Nat → List UInt8 → Bool → List UInt8 × Bool),
      Tidy I { s with tree := s.tree.modify path f } := by
    intro path f
    refine settles _ fun p node found => .inl ?_
    rw [find_modify] at found
    split at found
    · obtain ⟨node', before, rfl⟩ := Option.map_eq_some_iff.mp found
      refine ⟨node', before, ?_⟩
      rintro rfl
      rfl
    · exact ⟨node, found, id⟩
  have erased : ∀ {path : Path} (leaf : s.tree.Leaf path),
      Tidy I { s with tree := s.tree.erase leaf } := by
    intro path leaf
    refine settles _ fun p node found => .inl ?_
    rw [find_erase] at found
    split at found
    · exact absurd found.symm (Option.some_ne_none _)
    · exact ⟨node, found, id⟩
  cases q with
  | makeDir path =>
    rw [Codex.answer]
    split
    · next free =>
      refine settles _ fun p node found => ?_
      rw [find_insert] at found
      split at found
      · next same => exact .inr ⟨same ▸ confines, fun _ => (Option.some.inj found).symm⟩
      · exact .inl ⟨node, found, id⟩
    · split <;> exact tidy
  | create path =>
    rw [Codex.answer]
    split
    · next free =>
      refine settles _ fun p node found => ?_
      rw [find_insert] at found
      split at found
      · next same =>
        exact .inr ⟨same ▸ confines, fun root => absurd (same.symm.trans root) free.2⟩
      · exact .inl ⟨node, found, id⟩
    · exact tidy
  | write path number chunk => exact modified path _
  | chmod path executable =>
    rw [Codex.answer]
    cases s.tree.find path with
    | none => exact tidy
    | some node => exact modified path _
  | unlink path =>
    rw [Codex.answer]
    split
    · next leaf => exact erased leaf.1
    · exact tidy
  | rmdir path =>
    rw [Codex.answer]
    split
    · next leaf => exact erased leaf.1
    · exact tidy
  | _ => exact tidy

/-- A program that makes nothing beyond the depth. -/
abbrev Bounded (I : Installer) {α : Type} (p : Program α) : Prop :=
  Within I.Confines (fun _ => True) p.run

section

variable {α β : Type} {p : Program α} {f : α → Program β}

theorem bounded_of_quiet (quiet : Quiet p) : Bounded I p := by
  refine Within.mono quiet (fun q reads => ?_) fun _ _ => trivial
  cases q with
  | makeDir | create => exact absurd reads Bool.false_ne_true
  | _ => trivial

theorem bounded_bind (first : Bounded I p) (second : ∀ a, Bounded I (f a)) : Bounded I (p >>= f) :=
  within_bind first (fun a _ => second a) fun _ _ => trivial

theorem bounded_ask {q : Port} {g : q.Answer → Program β} (confines : I.Confines q)
    (rest : ∀ r, Bounded I (g r)) : Bounded I (ask q >>= g) :=
  within_ask confines rest

end

theorem bounded_require {c : Prop} [Decidable c] : Bounded I (settle (require c .install)) :=
  bounded_of_quiet quiet_require

theorem bounded_verifiedService : Bounded I I.verifiedService := by
  refine bounded_bind (bounded_of_quiet I.quiet_inspect) fun _ => bounded_ask trivial fun r => ?_
  cases r with
  | error failure => exact within_throw trivial
  | ok reported =>
    exact bounded_bind bounded_require fun _ => bounded_of_quiet I.quiet_inspectAgain

theorem bounded_failed {ignoreErrors : Bool} : Bounded I (failed ignoreErrors) := by
  cases ignoreErrors with
  | false => exact bounded_of_quiet quiet_throw
  | true => exact bounded_of_quiet (quiet_return ())

theorem bounded_rmtree {ignoreErrors : Bool} (depth : Nat) (path : Path) :
    Bounded I (rmtree ignoreErrors depth path) := by
  induction depth generalizing path with
  | zero => exact bounded_of_quiet quiet_throw
  | succ depth ih =>
    have ended : ∀ removed : Bool,
        Bounded I (if removed = true then return () else failed ignoreErrors) := by
      intro removed
      cases removed with
      | false => exact bounded_failed
      | true => exact bounded_of_quiet (quiet_return ())
    refine bounded_ask trivial fun entries => ?_
    cases entries with
    | none => exact bounded_failed
    | some entries =>
      refine bounded_bind ?_ fun _ => bounded_ask trivial ended
      induction entries with
      | nil => exact bounded_of_quiet (quiet_return ())
      | cons e rest removes =>
        refine bounded_bind ?_ fun _ => removes
        rw [removeEntry]
        split
        · exact ih _
        · exact bounded_ask trivial ended

theorem bounded_removePlainManagedTree : Bounded I I.removePlainManagedTree := by
  refine bounded_ask trivial fun _ => bounded_bind bounded_require fun _ => ?_
  exact bounded_bind (bounded_of_quiet (quiet_walk _ _)) fun _ => bounded_rmtree _ _

theorem bounded_mustBeDir {existOk : Bool} {path : Path} : Bounded I (mustBeDir existOk path) := by
  cases existOk with
  | false => exact bounded_of_quiet quiet_throw
  | true => exact bounded_ask trivial fun _ => bounded_require

theorem bounded_mkdirs {existOk : Bool} {reversed : List String}
    (shorter : reversed.length < I.depth) : Bounded I (mkdirs existOk reversed) := by
  induction reversed generalizing existOk with
  | nil =>
    refine bounded_ask shorter fun made => ?_
    cases made with
    | created => exact bounded_of_quiet (quiet_return ())
    | missing => exact bounded_of_quiet quiet_throw
    | refused => exact bounded_mustBeDir
  | cons name parent ih =>
    have confines : I.Confines (.makeDir (name :: parent).reverse) := by
      show (name :: parent).reverse.length < I.depth
      rw [List.length_reverse]
      exact shorter
    refine bounded_ask confines fun made => ?_
    cases made with
    | created => exact bounded_of_quiet (quiet_return ())
    | refused => exact bounded_mustBeDir
    | missing =>
      refine bounded_bind (ih (Nat.lt_of_succ_lt shorter)) fun _ => ?_
      refine bounded_ask confines fun made => ?_
      cases made with
      | created => exact bounded_of_quiet (quiet_return ())
      | missing => exact bounded_of_quiet quiet_throw
      | refused => exact bounded_mustBeDir

theorem bounded_writeAll {path : Path} {number : Nat} (chunks : List (List UInt8)) :
    Bounded I (writeAll path number chunks) := by
  induction chunks with
  | nil => exact bounded_of_quiet (quiet_return ())
  | cons chunk rest ih => exact bounded_ask trivial fun _ => ih

theorem bounded_extractMember (shorter : m.parts.length < I.depth) :
    Bounded I (I.extractMember m) := by
  cases m with
  | dir parts =>
    refine bounded_mkdirs ?_
    rw [List.length_reverse]
    exact shorter
  | file parts chunks executable =>
    refine bounded_bind (bounded_mkdirs ?_) fun _ => bounded_ask shorter fun number => ?_
    · rw [List.length_reverse, List.length_dropLast]
      exact Nat.lt_of_le_of_lt (Nat.sub_le _ _) shorter
    cases number with
    | none => exact bounded_of_quiet quiet_throw
    | some number =>
      refine bounded_bind (bounded_writeAll chunks) fun _ => ?_
      split
      · exact bounded_of_quiet (quiet_return ())
      · exact bounded_ask trivial fun _ => bounded_require

theorem bounded_extract (shorter : ∀ m ∈ members, m.parts.length < I.depth) :
    Bounded I (I.extract members) := by
  induction members with
  | nil => exact bounded_of_quiet (quiet_return ())
  | cons m rest ih =>
    obtain ⟨first, rest⟩ := List.forall_mem_cons.mp shorter
    exact bounded_bind (bounded_extractMember first) fun _ => ih rest

theorem bounded_build (genuine : Genuine I) : Bounded I I.build := by
  refine bounded_ask trivial fun r => ?_
  cases r with
  | error failure => exact within_throw trivial
  | ok content =>
    by_cases admitted : I.admits content
    · have shorter := (genuine.package content admitted).shallow genuine.named
      refine bounded_bind bounded_require fun _ => ?_
      exact bounded_bind (bounded_extract shorter) fun _ => bounded_verifiedService
    · show Bounded I (settle (require (I.admits content) .install) >>= _)
      rw [require_of_not admitted]
      trivial

theorem bounded_create (genuine : Genuine I) : Bounded I I.create := by
  have root : I.Confines (.makeDir []) := genuine.named.deep
  refine bounded_ask root fun made => ?_
  cases made with
  | missing => exact bounded_of_quiet quiet_throw
  | refused => exact bounded_verifiedService
  | created =>
    refine within_attempt (bounded_build genuine) fun x _ => ?_
    cases x with
    | ok service => exact bounded_of_quiet (quiet_return service)
    | error failure =>
      exact bounded_bind (bounded_rmtree _ _) fun _ => within_throw trivial

theorem bounded_install (genuine : Genuine I) : Bounded I I.install := by
  refine bounded_ask trivial fun there => ?_
  cases there with
  | false => exact bounded_create genuine
  | true =>
    refine within_attempt bounded_verifiedService fun x _ => ?_
    cases x with
    | ok service => exact bounded_of_quiet (quiet_return service)
    | error failure =>
      cases failure with
      | cancelled => exact within_throw trivial
      | install =>
        exact bounded_bind bounded_removePlainManagedTree fun _ => bounded_create genuine

/-- What holds of the directory holds after all moves of any calls, stopped or not. -/
theorem tidy_exec (genuine : Genuine I) (tidy : Tidy I s) (moves : List (Move Unit Draw)) :
    Tidy I (Run.exec I.step (Site.opened s) moves).store :=
  Site.store_exec (h := Site.opened s) tidy (fun _ mem => absurd mem List.not_mem_nil)
    (fun _ => bounded_install genuine) fun _ confines _ d tidy => tidy.answer confines d

theorem tidy_empty (I : Installer) (next : Nat) : Tidy I ⟨.empty, next⟩ :=
  ⟨fun _ found => absurd found.symm (Option.some_ne_none _),
    fun _ _ found => absurd found.symm (Option.some_ne_none _)⟩

/-- While calls keep out of each other's way, nothing of a package is changed that has been served.
After all moves of any calls, one that runs alone serves a package. -/
theorem package_stays_or_comes_back (genuine : Genuine I) (tidy : Tidy I s)
    (moves : List (Move Unit Draw)) :
    (Run.Along I.step I.Orderly (Site.opened s) moves → ∀ before after, before ++ after <+: moves →
      Returned (Run.exec I.step (Site.opened s) before) →
        I.Whole (Run.exec I.step (Site.opened s) before).store ∧
          (Run.exec I.step (Site.opened s) (before ++ after)).store =
            (Run.exec I.step (Site.opened s) before).store) ∧
      ∀ draws, (∀ n, I.Succeeds (draws n)) → ∃ service t,
        I.install.run.serve answer draws (Run.exec I.step (Site.opened s) moves).store =
          (.ok service, t) ∧ I.Whole t := by
  refine ⟨fun orderly before after within returned => store_of_returned orderly within returned, ?_⟩
  intro draws succeeds
  have alone := (does_install genuine (tidy_exec genuine tidy moves)).serve succeeds
  obtain ⟨service, served, whole⟩ := alone
  exact ⟨service, _, Prod.ext served rfl, whole⟩

/-! ## A small release -/

def tinyArchive : List UInt8 :=
  [31, 139, 8, 0, 0, 0, 0, 0, 2, 3, 237, 209, 187, 13, 194, 80, 16, 69, 193, 45, 197, 29, 96, 4,
    235, 87, 1, 68, 52, 129, 129, 192, 9, 72, 124, 36, 50, 90, 231, 137, 208, 34, 53, 8, 49, 147,
    220, 205, 54, 56, 253, 112, 156, 197, 196, 218, 170, 100, 190, 182, 26, 239, 155, 187, 203,
    121, 70, 147, 241, 1, 183, 203, 117, 123, 174, 47, 227, 63, 245, 181, 255, 238, 180, 63, 220,
    191, 218, 127, 57, 234, 95, 114, 81, 162, 105, 245, 159, 220, 99, 181, 89, 7, 0, 0, 0, 0, 0, 0,
    0, 0, 240, 147, 158, 9, 3, 132, 54, 0, 40, 0, 0]

def tinyProgram : List UInt8 := [0x7f, 0x45, 0x4c, 0x46]

/-- A release with one file. -/
def tiny : Installer where
  windows := false
  darwin := false
  casefold name := name
  archiveSha256 := "4c2fe90f2c3046bc4dd093d305eda0cf567f8ca11c579aacf129f41e9b94a4eb"
  archiveSize := 121
  files := [⟨["bin", "codex"],
    "3bdbb4fe8397cd2b842430b39ccff01a8663c751945ef5e9a09e267fb8b1d359", 4⟩]
  sha256 content :=
    if content = tinyArchive then "4c2fe90f2c3046bc4dd093d305eda0cf567f8ca11c579aacf129f41e9b94a4eb"
    else if content = tinyProgram then
      "3bdbb4fe8397cd2b842430b39ccff01a8663c751945ef5e9a09e267fb8b1d359"
    else ""
  unpack content :=
    if content = tinyArchive then
      [.dir ["bin"], .file ["bin", "codex"] [[0x7f, 0x45, 0x4c, 0x46]] true]
    else []
  depth := 3

theorem tiny_admits {content : List UInt8} (admitted : tiny.admits content) :
    content = tinyArchive := by
  by_contra other
  have digest : (if content = tinyArchive then tiny.archiveSha256 else
    if content = tinyProgram then "3bdbb4fe8397cd2b842430b39ccff01a8663c751945ef5e9a09e267fb8b1d359"
      else "") = tiny.archiveSha256 := admitted.2
  rw [if_neg other] at digest
  split at digest
  · exact absurd digest (by decide)
  · exact absurd digest (by decide)

theorem tiny_genuine : Genuine tiny := by
  refine ⟨⟨by decide, by decide, by decide, by decide⟩, fun content admitted => ?_⟩
  rw [tiny_admits admitted]
  have members : tiny.unpack tinyArchive =
      [.dir ["bin"], .file ["bin", "codex"] [tinyProgram] true] := by
    show (if tinyArchive = tinyArchive then _ else ([] : List Member)) = _
    exact if_pos rfl
  rw [members]
  have pinned : Pinned tiny ⟨["bin", "codex"],
      "3bdbb4fe8397cd2b842430b39ccff01a8663c751945ef5e9a09e267fb8b1d359", 4⟩
      [tinyProgram].flatten (tiny.modeOf true) :=
    ⟨by decide, by decide +kernel, fun _ => by decide, fun _ => by decide, fun _ => by decide⟩
  have only : ∀ {parts chunks executable}, Member.file parts chunks executable ∈
      [Member.dir ["bin"], .file ["bin", "codex"] [tinyProgram] true] →
        parts = ["bin", "codex"] := by
    intro parts chunks executable mem
    obtain same | mem := List.mem_cons.mp mem
    · exact Member.noConfusion same
    · exact (Member.file.inj (List.mem_singleton.mp mem)).1
  refine ⟨by decide, by decide, ?_, ?_, ?_, ?_⟩
  · intro parts chunks executable mem
    rw [only mem]
    decide
  · intro parts chunks executable mem
    rw [only mem]
    decide
  · intro parts mem
    obtain same | mem := List.mem_cons.mp mem
    · rw [Member.dir.inj same]
      decide
    · exact Member.noConfusion (List.mem_singleton.mp mem)
  · refine List.forall_mem_singleton.mpr ⟨[tinyProgram], true, ?_, pinned⟩
    exact List.mem_cons_of_mem _ (List.mem_singleton_self _)

/-- The archive arrives and the command answers. -/
def served : Draw := ⟨.ok tinyArchive, .ok true⟩

def twoCalls : List (Move Unit Draw) :=
  .start () :: List.replicate 32 (.go 0 served) ++ .start () :: List.replicate 20 (.go 1 served)

/-- The second of two calls finds what the first one has installed, and so does a third one. -/
theorem package_stays_tiny : Returned (Run.exec tiny.step (Site.opened ⟨.empty, 0⟩)
      (.start () :: List.replicate 32 (.go 0 served))) ∧
    (Run.exec tiny.step (Site.opened ⟨.empty, 0⟩) twoCalls).store =
      (Run.exec tiny.step (Site.opened ⟨.empty, 0⟩)
        (.start () :: List.replicate 32 (.go 0 served))).store ∧
    ∃ service t, tiny.install.run.serve answer (fun _ => served)
      (Run.exec tiny.step (Site.opened ⟨.empty, 0⟩) twoCalls).store = (.ok service, t) ∧
        tiny.Whole t := by
  have orderly : Run.Along tiny.step tiny.Orderly (Site.opened ⟨.empty, 0⟩) twoCalls := by
    decide +kernel
  have returned : Returned (Run.exec tiny.step (Site.opened ⟨.empty, 0⟩)
      (.start () :: List.replicate 32 (.go 0 served))) := by
    decide +kernel
  have succeeds : tiny.Succeeds served := ⟨⟨tinyArchive, rfl, by decide +kernel⟩, rfl⟩
  obtain ⟨stays, comes⟩ := package_stays_or_comes_back tiny_genuine (tidy_empty tiny 0) twoCalls
  exact ⟨returned, (stays orderly _ _ List.prefix_rfl returned).2, comes _ fun _ => succeeds⟩

/-- The first call has made the directory when the second one finds it, removes it and installs.
Then the download of the first call is cancelled. -/
def cancelledLate : List (Move Unit Draw) :=
  .start () :: List.replicate 2 (.go 0 served) ++ .start () :: List.replicate 40 (.go 1 served)

theorem cleanup_removes_another_package : Genuine tiny ∧
    Returned (Run.exec tiny.step (Site.opened ⟨.empty, 0⟩) cancelledLate) ∧
    tiny.Whole (Run.exec tiny.step (Site.opened ⟨.empty, 0⟩) cancelledLate).store ∧
    (Run.exec tiny.step (Site.opened ⟨.empty, 0⟩) (cancelledLate ++
      List.replicate 8 (.go 0 ⟨.error .cancelled, .ok true⟩))).store.tree.find [] = none :=
  ⟨tiny_genuine, by decide +kernel, by decide +kernel, by decide +kernel⟩

end Installer

end Corvus.Codex
