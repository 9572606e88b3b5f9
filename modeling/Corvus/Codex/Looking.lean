import Corvus.Codex.Installer

/-!
# Looking at a package

The verification reads the package and runs its command. What it reads of a package that nobody
changes decides its result but for what the command answers, so that whether a package is whole is
a property of the disk.
-/

namespace Corvus.Codex

open FileTree Dialogue Procedure

/-- Questions that only read, with answers that the disk decides. -/
def Port.quiet : Port → Bool
  | .exists | .isDir _ | .list _ | .stat _ | .read _ => true
  | _ => false

/-- Questions that may change the directory. -/
def Port.writes : Port → Bool
  | .makeDir _ | .create _ | .write .. | .chmod .. | .unlink _ | .rmdir _ => true
  | _ => false

section

variable {α β : Type} {d d' : Draw} {q : Port} {s : Disk} {p : Program α} {f : α → Program β}
  {T : Terms Disk Draw Port}

theorem answer_quiet (quiet : q.quiet = true) (d d' : Draw) (s : Disk) :
    answer d q s = answer d' q s ∧ (answer d q s).2 = s := by
  cases q with
  | makeDir | create | write | chmod | unlink | rmdir | download | runVersion =>
    exact absurd quiet Bool.false_ne_true
  | _ => exact ⟨rfl, rfl⟩

theorem not_writes_of_quiet (quiet : q.quiet = true) : q.writes = false := by
  cases q with
  | makeDir | create | write | chmod | unlink | rmdir => exact absurd quiet Bool.false_ne_true
  | _ => rfl

/-! ## Programs that only read -/

/-- A program that only reads, and does not wait. -/
def Quiet (p : Program α) : Prop :=
  Within (fun q => q.quiet = true) (fun x => x ≠ .error .cancelled) p.run

theorem quiet_ask {g : q.Answer → Program β} (quiet : q.quiet = true) (rest : ∀ r, Quiet (g r)) :
    Quiet (ask q >>= g) :=
  within_ask quiet rest

theorem quiet_bind (first : Quiet p) (second : ∀ a, Quiet (f a)) : Quiet (p >>= f) :=
  within_bind first (fun a _ => second a) fun _ patient same =>
    patient (congrArg Except.error (Except.error.inj same))

theorem quiet_return (a : α) : Quiet (return a) :=
  within_settle (x := .ok a) fun same => error_ne_ok same.symm

theorem quiet_throw : Quiet (throw .install : Program α) :=
  within_throw fun same => Failure.noConfusion (Except.error.inj same)

theorem quiet_require {c : Prop} [Decidable c] : Quiet (settle (require c .install)) := by
  by_cases holds : c
  · rw [require_of holds]
    exact quiet_return ()
  · rw [require_of_not holds]
    exact quiet_throw

namespace Installer

variable (I : Installer)

theorem quiet_visitAll {visit : Path → Program Found} (each : ∀ path, Quiet (visit path))
    (paths : List Path) : Quiet (visitAll visit paths) := by
  induction paths with
  | nil => exact quiet_return _
  | cons path paths ih =>
    exact quiet_bind (each path) fun _ => quiet_bind ih fun _ => quiet_return _

theorem quiet_scan (depth : Nat) (path : Path) : Quiet (scan depth path) := by
  induction depth generalizing path with
  | zero => exact quiet_throw
  | succ depth ih =>
    refine quiet_ask rfl fun entries => ?_
    cases entries with
    | none => exact quiet_throw
    | some entries => exact quiet_bind (quiet_visitAll ih _) fun _ => quiet_return _

theorem quiet_checkFile (files : List Path) (file : PackageFile) :
    Quiet (I.checkFile files file) := by
  rw [checkFile]
  split
  · exact quiet_throw
  refine quiet_ask rfl fun info => ?_
  cases info with
  | none => exact quiet_throw
  | some info =>
    dsimp only
    split
    · exact quiet_throw
    refine quiet_ask rfl fun content => ?_
    cases content with
    | none => exact quiet_throw
    | some content =>
      dsimp only
      split
      · exact quiet_throw
      · exact quiet_return _

theorem quiet_checkFiles (files : List Path) (expected : List PackageFile) :
    Quiet (I.checkFiles files expected) := by
  induction expected with
  | nil => exact quiet_return _
  | cons file rest ih => exact quiet_bind (I.quiet_checkFile files file) fun _ => ih

theorem quiet_verifyInstalledPackage : Quiet I.verifyInstalledPackage :=
  quiet_bind (quiet_scan _ _) fun _ =>
    quiet_bind quiet_require fun _ => I.quiet_checkFiles _ _

theorem quiet_inspect : Quiet I.inspect := by
  refine quiet_bind I.quiet_verifyInstalledPackage fun _ => quiet_ask rfl fun info => ?_
  cases info with
  | none => exact quiet_throw
  | some info =>
    refine quiet_bind quiet_require fun _ => quiet_bind quiet_require fun _ =>
      quiet_ask rfl fun content => ?_
    cases content with
    | none => exact quiet_throw
    | some content => exact quiet_require

theorem quiet_inspectAgain : Quiet I.inspectAgain := by
  refine quiet_bind I.quiet_verifyInstalledPackage fun _ => quiet_ask rfl fun identity =>
    quiet_ask rfl fun content => ?_
  cases content with
  | none => exact quiet_throw
  | some content =>
    refine quiet_ask rfl fun identity' => quiet_bind quiet_require fun _ =>
      quiet_ask rfl fun content' => ?_
    exact quiet_bind quiet_require fun _ => quiet_return _

end Installer

/-! ## What is read -/

/-- What a program that only reads ends with on a disk. -/
def look (p : Program α) (s : Disk) : Except Failure α :=
  (p.run.serve answer (fun _ => ⟨.error .cancelled, .ok true⟩) s).1

/-- Nothing is changed, and no question is asked that may change something. -/
def Untouched (draw : Draw → Prop) : Terms Disk Draw Port where
  draw := draw
  rely _ s t := t = s
  allowed _ _ := True
  step q t t' := q.writes = false ∧ t' = t

theorem look_ne_cancelled (quiet : Quiet p) (s : Disk) : look p s ≠ .error .cancelled := by
  rw [look]
  unfold Quiet at quiet
  generalize p.run = program at quiet ⊢
  induction program generalizing s with
  | done x => exact quiet
  | ask q k ih => exact ih _ _ (quiet.2 _)

theorem holds_quiet {D : Draw → Prop} (quiet : Quiet p) (s : Disk) :
    Holds answer (Untouched D) p.run (fun x t => t = s ∧ x = look p s) s := by
  rw [look]
  unfold Quiet at quiet
  generalize p.run = program at quiet ⊢
  induction program with
  | done x => exact ⟨rfl, rfl⟩
  | ask q k ih =>
    rintro t rfl - d -
    obtain ⟨asks, rest⟩ := quiet
    obtain ⟨same, unchanged⟩ := answer_quiet asks d ⟨.error .cancelled, .ok true⟩ t
    refine ⟨⟨not_writes_of_quiet asks, unchanged⟩, ?_⟩
    have later := ih (answer d q t).1 (rest _)
    rw [unchanged]
    rw [serve, ← same, unchanged]
    exact later

end

/-! ## A whole package -/

namespace Installer

variable (I : Installer)

/-- The package passes the verification if the command answers as it should. -/
def Whole (s : Disk) : Prop :=
  look I.inspect s = .ok () ∧ (look I.inspectAgain s).isOk = true

instance (s : Disk) : Decidable (I.Whole s) := inferInstanceAs (Decidable (_ ∧ _))

/-- The command does not answer otherwise than it should, though it may not be waited for. -/
def Accepts (d : Draw) : Prop := d.version = .ok true ∨ d.version = .error .cancelled

instance (d : Draw) : Decidable (Accepts d) := inferInstanceAs (Decidable (_ ∨ _))

/-- How a verification ends on a disk that nobody changes. -/
structure Verified (D : Draw → Prop) (s : Disk) (x : Except Failure String) : Prop where
  whole : ∀ service, x = .ok service → I.Whole s
  accepted : I.Whole s → (∀ d, D d → Accepts d) → x ≠ .error .install
  served : I.Whole s → (∀ d, D d → d.version = .ok true) → ∃ service, x = .ok service
  patient : (∀ d, D d → d.version = .ok true) → x ≠ .error .cancelled

theorem verified_of_broken {D : Draw → Prop} {s : Disk} {e : Failure} (broken : ¬ I.Whole s)
    (patient : e ≠ .cancelled) : I.Verified D s (.error e) :=
  ⟨fun _ same => absurd same error_ne_ok, fun whole => absurd whole broken,
    fun whole => absurd whole broken, fun _ same => patient (Except.error.inj same)⟩

theorem holds_verifiedService {D : Draw → Prop} (s : Disk) :
    Holds answer (Untouched D) I.verifiedService.run (fun x t => t = s ∧ I.Verified D s x) s := by
  refine Holds.bind (f := ExceptT.bindCont _) (holds_quiet I.quiet_inspect s) ?_
  rintro x t ⟨rfl, inspected⟩
  cases x with
  | error e =>
    refine ⟨rfl, I.verified_of_broken (fun whole => error_ne_ok (inspected.trans whole.1)) ?_⟩
    rintro rfl
    exact look_ne_cancelled I.quiet_inspect _ inspected.symm
  | ok _ =>
    rintro t' rfl - d drawn
    refine ⟨⟨rfl, rfl⟩, ?_⟩
    show Holds answer _ (ExceptT.run (match d.version with
      | .error failure => throw failure
      | .ok reported => do
          settle (require reported .install)
          I.inspectAgain)) _ t'
    cases version : d.version with
    | error failure =>
      refine ⟨rfl, fun _ same => absurd same error_ne_ok, fun _ accepts same => ?_, ?_, ?_⟩
      · rw [Except.error.inj same] at version
        obtain answered | answered := accepts d drawn
        · exact error_ne_ok (version.symm.trans answered)
        · exact Failure.noConfusion (Except.error.inj (version.symm.trans answered))
      · intro _ serves
        exact absurd (version.symm.trans (serves d drawn)) error_ne_ok
      · intro serves
        exact absurd (version.symm.trans (serves d drawn)) error_ne_ok
    | ok reported =>
      cases reported with
      | false =>
        refine ⟨rfl, fun _ same => absurd same error_ne_ok, fun _ accepts same => ?_, ?_, ?_⟩
        · obtain answered | answered := accepts d drawn
          · exact Bool.noConfusion (Except.ok.inj (version.symm.trans answered))
          · exact error_ne_ok (answered.symm.trans version)
        · intro _ serves
          exact Bool.noConfusion (Except.ok.inj (version.symm.trans (serves d drawn)))
        · exact fun _ same => Failure.noConfusion (Except.error.inj same)
      | true =>
        refine Holds.mono (holds_quiet I.quiet_inspectAgain t') ?_
        rintro x u ⟨rfl, again⟩
        refine ⟨rfl, ?_, ?_, ?_, fun _ same => ?_⟩
        · intro service same
          refine ⟨inspected.symm, ?_⟩
          rw [← again, same]
          rfl
        · intro whole _ same
          have ended := whole.2
          rw [← again, same] at ended
          exact Bool.noConfusion ended
        · intro whole _
          have ended := whole.2
          rw [← again] at ended
          cases x with
          | ok service => exact ⟨service, rfl⟩
          | error e => exact Bool.noConfusion ended
        · exact look_ne_cancelled I.quiet_inspectAgain _ (again.symm.trans same)

end Installer

end Corvus.Codex
