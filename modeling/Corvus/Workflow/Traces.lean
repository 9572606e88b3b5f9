import Corvus.Workflow.Coding

/-!
# Traces of coding runs

What the parts of a coding run leave in its trace. Of the exchanges those are looked at that append
events and provider texts, that run an attempt in a sandbox, and that read, package and remove what
has been made.
-/

namespace Corvus.Workflow

open Dialogue Procedure
open Unicode (Str)

abbrev Trace := List (Exchange Port Port.Answer)

/-! ## Traces -/

def Event.closing : Event → Bool
  | .runFailed _ | .bundleCreated _ | .runBlocked _ => true
  | _ => false

/-- The exchanges that are looked at. -/
def Port.notable : Port → Bool
  | .makeStagingRoot | .makeRunRoot | .createSnapshot .. | .appendContextEnvelope ..
  | .collectProviderStream .. | .makeDirectory .. | .atomicWrite .. | .start | .close => false
  | _ => true

def event? : Exchange Port Port.Answer → Option Event
  | ⟨.append event, _⟩ => some event
  | _ => none

/-- The events of a run. -/
def events (t : Trace) : List Event := t.filterMap event?

def text? : Exchange Port Port.Answer → Option String
  | ⟨.appendExternalContent raw, .ok ()⟩ => some raw
  | _ => none

/-- The provider texts that a run has recorded. -/
def texts (t : Trace) : List String := t.filterMap text?

def Port.opens : Port → Bool
  | .sandboxFactory => true
  | _ => false

/-- The verification attempts of a run. -/
def attempts (t : Trace) : Nat := t.countP (·.question.opens)

def removal? : Exchange Port Port.Answer → Option (Except Expected Unit)
  | ⟨.removeRunRoot, r⟩ => some r
  | _ => none

/-- The answers to the removal of the folder of the run. -/
def removals (t : Trace) : List (Except Expected Unit) := t.filterMap removal?

/-- An exchange that neither closes the run, nor records a text, nor begins an attempt, nor
removes the folder of the run. -/
def Port.plain : Port → Bool
  | .append event => ! event.closing
  | .appendExternalContent _ | .sandboxFactory | .removeRunRoot => false
  | _ => true

def Plain (t : Trace) : Prop := ∀ y ∈ t, y.question.plain = true

def Unclosed (t : Trace) : Prop := ∀ event ∈ events t, event.closing = false

/-- The last event closes the run, and no other one does. -/
def Ends (t : Trace) (last : Event) : Prop :=
  ∃ earlier, events t = earlier ++ [last] ∧ last.closing = true ∧
    ∀ event ∈ earlier, event.closing = false

section Trace

variable {t u : Trace} {y : Exchange Port Port.Answer} {last : Event}

@[simp] theorem events_append : events (t ++ u) = events t ++ events u := List.filterMap_append

@[simp] theorem texts_append : texts (t ++ u) = texts t ++ texts u := List.filterMap_append

@[simp] theorem attempts_append : attempts (t ++ u) = attempts t + attempts u :=
  List.countP_append

@[simp] theorem removals_append : removals (t ++ u) = removals t ++ removals u :=
  List.filterMap_append

@[simp] theorem unclosed_append : Unclosed (t ++ u) ↔ Unclosed t ∧ Unclosed u := by
  simp only [Unclosed, events_append, List.mem_append, or_imp, forall_and]

theorem ends_of_closing {event : Event} (closes : event.closing = true) :
    Ends [⟨.append event, ()⟩] event :=
  ⟨[], rfl, closes, List.forall_mem_nil _⟩

theorem Ends.after (ends : Ends u last) (earlier : Unclosed t) : Ends (t ++ u) last := by
  obtain ⟨before, split, closes, others⟩ := ends
  refine ⟨events t ++ before, ?_, closes, List.forall_mem_append.mpr ⟨earlier, others⟩⟩
  rw [events_append, split, List.append_assoc]

theorem Ends.before (ends : Ends t last) (silent : events u = []) : Ends (t ++ u) last := by
  rw [Ends, events_append, silent, List.append_nil]
  exact ends

theorem Ends.is_last (ends : Ends t last) {event : Event} (mem : event ∈ events t)
    (closes : event.closing = true) : event = last := by
  obtain ⟨before, split, -, others⟩ := ends
  rw [split, List.mem_append, List.mem_singleton] at mem
  refine mem.resolve_left fun earlier => ?_
  rw [others event earlier] at closes
  nomatch closes

theorem plain_cons : Plain (y :: t) ↔ y.question.plain = true ∧ Plain t := List.forall_mem_cons

theorem plain_append : Plain (t ++ u) ↔ Plain t ∧ Plain u := List.forall_mem_append

theorem Plain.texts (plain : Plain t) : texts t = [] := by
  refine List.filterMap_eq_nil_iff.mpr fun y mem => ?_
  have holds := plain y mem
  obtain ⟨q, r⟩ := y
  cases q
  case appendExternalContent raw => nomatch holds
  all_goals rfl

theorem Plain.removals (plain : Plain t) : removals t = [] := by
  refine List.filterMap_eq_nil_iff.mpr fun y mem => ?_
  have holds := plain y mem
  obtain ⟨q, r⟩ := y
  cases q
  case removeRunRoot => nomatch holds
  all_goals rfl

theorem Plain.attempts (plain : Plain t) : attempts t = 0 := by
  refine List.countP_eq_zero.mpr fun y mem => ?_
  have holds := plain y mem
  obtain ⟨q, r⟩ := y
  cases q
  case sandboxFactory => nomatch holds
  all_goals exact Bool.false_ne_true

theorem Plain.unclosed (plain : Plain t) : Unclosed t := by
  intro event mem
  obtain ⟨⟨q, r⟩, there, same⟩ := List.mem_filterMap.mp mem
  have holds := plain _ there
  cases q
  case append appended =>
    obtain rfl := Option.some.inj same
    simpa [Port.plain] using holds
  all_goals nomatch same

/-- Only what is looked at counts. -/
theorem events_exchanged : events (exchanged Port.notable t) = events t := by
  refine filterMap_exchanged fun y beside => ?_
  obtain ⟨q, r⟩ := y
  cases q
  case append event => nomatch beside
  all_goals rfl

theorem texts_exchanged : texts (exchanged Port.notable t) = texts t := by
  refine filterMap_exchanged fun y beside => ?_
  obtain ⟨q, r⟩ := y
  cases q
  case appendExternalContent raw => nomatch beside
  all_goals rfl

theorem removals_exchanged : removals (exchanged Port.notable t) = removals t := by
  refine filterMap_exchanged fun y beside => ?_
  obtain ⟨q, r⟩ := y
  cases q
  case removeRunRoot => nomatch beside
  all_goals rfl

theorem attempts_exchanged : attempts (exchanged Port.notable t) = attempts t := by
  refine countP_exchanged fun q opens => ?_
  cases q
  case sandboxFactory => rfl
  all_goals nomatch opens

end Trace

/-! ## What the parts leave -/

section CodingWorkflow

variable (w : CodingWorkflow)

/-- What is read from a recorded text. -/
def CodingWorkflow.read (raw : String) : Except Failure CandidatePackage := do
  let json ← unfence raw
  ((w.validateJson json).mapError (⟨.validation, ·⟩)).mapError .expected

/-- What `_candidate` leaves. -/
inductive Read : Trace → Except Failure CandidatePackage → Prop
  | refused (e : Expected) : Read [] (.error (.expected e))
  | unrecorded (raw : String) (e : Expected) :
      Read [⟨.appendExternalContent raw, .error e⟩] (.error (.expected e))
  | recorded (raw : String) : Read [⟨.appendExternalContent raw, .ok ()⟩] (w.read raw)

/-- Every command of a plan has run, with the exit codes of the results. -/
inductive Ran : List VerificationCommand → List Result → Trace → Prop
  | nil : Ran [] [] []
  | cons {item : VerificationCommand} {plan : List VerificationCommand} {result : Result}
      {results : List Result} {ran : Trace} {answer : CommandResult}
      (same : result.exitCode = answer.exitCode) (rest : Ran plan results ran) :
      Ran (item :: plan) (result :: results) (⟨.run item.command, .ok answer⟩ :: ran)

/-- What is looked at of a sandbox that has reached its commands. -/
def staged (number fileCount : Nat) : Trace :=
  [⟨.append (.sandboxStaging w.sandboxName fileCount number), ()⟩, ⟨.stage number, .ok ()⟩]

/-- The exchanges of an attempt that was verified to its end. -/
def trial (passed requiredPassed : Bool) (passing : Passing) (ran : Trace) : Trace :=
  ⟨.sandboxFactory, .ok ()⟩ :: (staged w passing.number passing.candidate.files.length ++ ran) ++
  [⟨.append (.verificationCompleted passed requiredPassed passing.results passing.number), ()⟩]

/-- What an attempt leaves. -/
inductive Tried (number : Nat) (candidate : CandidatePackage) :
    Trace → Except Failure (Bool × Passing) → Prop
  | refused (e : Expected) : Tried number candidate [] (.error (.expected e))
  | unsandboxed (e : Expected) :
      Tried number candidate [⟨.sandboxFactory, .error e⟩] (.error (.expected e))
  | stopped (e : Expected) {t : Trace} (plain : Plain t) :
      Tried number candidate (⟨.sandboxFactory, .ok ()⟩ :: t) (.error (.expected e))
  | verified {plan : List VerificationCommand} {results : List Result} {ran : Trace}
      (requiredPassed : Bool)
      (planned : w.verificationPolicy.plan candidate.testCommands candidate.smokeCommand = .ok plan)
      (every : Ran plan results ran) {passed : Bool}
      (passes : passed = true → ∀ result ∈ results, result.exitCode = 0) :
      Tried number candidate (trial w passed requiredPassed ⟨number, candidate, plan, results⟩ ran)
        (.ok (passed, ⟨number, candidate, plan, results⟩))

/-- What the repair loop leaves. -/
inductive Repaired : Nat → Nat → CandidatePackage → Trace → Except Failure (Option Passing) → Prop
  | raised {left number : Nat} {package : CandidatePackage} {t : Trace} {e : Failure}
      (tried : Tried w number package t (.error e)) : Repaired left number package t (.error e)
  | passed {left number : Nat} {package : CandidatePackage} {t : Trace} {passing : Passing}
      (tried : Tried w number package t (.ok (true, passing))) :
      Repaired left number package t (.ok (some passing))
  | failed {number : Nat} {package : CandidatePackage} {t : Trace} {last : Passing}
      (tried : Tried w number package t (.ok (false, last))) :
      Repaired 0 number package (t ++ [⟨.append (.runFailed number), ()⟩]) (.ok none)
  | unbounded {left number : Nat} {package : CandidatePackage} {t : Trace} {last : Passing}
      (tried : Tried w number package t (.ok (false, last))) (e : Expected) :
      Repaired (left + 1) number package t (.error (.expected e))
  | unread {left number : Nat} {package : CandidatePackage} {t u : Trace} {last : Passing}
      {e : Failure} (tried : Tried w number package t (.ok (false, last)))
      (read : Read w u (.error e)) : Repaired (left + 1) number package (t ++ u) (.error e)
  | again {left number : Nat} {package repair : CandidatePackage} {t u v : Trace} {last : Passing}
      {x : Except Failure (Option Passing)} (tried : Tried w number package t (.ok (false, last)))
      (read : Read w u (.ok repair)) (rest : Repaired left (number + 1) repair v x) :
      Repaired (left + 1) number package
        (t ++ (u ++ ⟨.append (.repairCreated (number + 1) repair.paths), ()⟩ :: v)) x

variable {w}

theorem leaves_lifted {α β : Type} {x : Except Expected α} {f : α → Program β}
    {B : Trace → Except Failure β → Prop}
    (goes : ∀ a, x = .ok a → Leaves Port.notable (f a) B)
    (raised : ∀ e, x = .error e → B [] (.error (.expected e))) :
    Leaves Port.notable (lifted x >>= f) B := by
  cases x with
  | ok a => exact goes a rfl
  | error e => exact leaves_settle (raised e rfl)

theorem leaves_candidate {prompt : String} {repairContext : Option String} :
    Leaves Port.notable (candidate w prompt repairContext) (Read w) := by
  refine leaves_beside rfl fun composed => ?_
  refine leaves_lifted (fun _ _ => ?_) fun e _ => .refused e
  refine leaves_beside rfl fun streamed => ?_
  refine leaves_lifted (fun text _ => ?_) fun e _ => .refused e
  refine leaves_ask rfl fun recorded => ?_
  refine leaves_lifted (fun _ kept => ?_) fun e lost => ?_
  · subst kept
    have whole := Read.recorded (w := w) (Text.strip text)
    rw [CodingWorkflow.read] at whole
    refine leaves_settle_bind (fun json unfenced => ?_) fun e broken => ?_
    · rw [unfenced] at whole
      exact leaves_settle whole
    · rw [broken] at whole
      exact whole
  · subst lost
    exact .unrecorded _ e

/-! ### Folders and files -/

/-- A procedure that is not looked at and raises only what the run catches. -/
abbrev Aside {α : Type} (p : Program α) : Prop :=
  Within (fun q => Port.notable q = false) (fun x => x ≠ .error .index) p.run

theorem known {α : Type} (x : Except Expected α) : x.mapError Failure.expected ≠ .error .index := by
  intro same
  cases x with
  | ok a => nomatch same
  | error e => nomatch same

theorem aside_lifted {α β : Type} {x : Except Expected α} {f : α → Program β}
    (rest : ∀ a, Aside (f a)) : Aside (lifted x >>= f) := by
  refine within_bind (within_settle (A := fun x => x ≠ .error .index) (known x)) ?_ ?_
  · intro a _
    exact rest a
  · intro e other same
    exact other (congrArg _ (Except.error.inj same))

theorem aside_makeParents {attempt : Nat} {made parts : List String} :
    Aside (makeParents attempt made parts) := by
  induction parts generalizing made with
  | nil => exact within_settle (known (.ok ()))
  | cons part parts ih => exact within_ask rfl fun answered => aside_lifted fun _ => ih

theorem aside_applyCandidate {attempt : Nat} {files : List (String × String)} :
    Aside (applyCandidate attempt files) := by
  induction files with
  | nil => exact within_settle (known (.ok ()))
  | cons file files ih =>
    refine aside_lifted fun _ => aside_lifted fun _ => ?_
    refine within_bind aside_makeParents (fun _ _ => ?_) ?_
    · exact within_ask rfl fun written => aside_lifted fun _ => ih
    · intro e other same
      exact other (congrArg _ (Except.error.inj same))

theorem Aside.leaves {α : Type} {p : Program α} (aside : Aside p) :
    Leaves Port.notable p fun t x => t = [] ∧ x ≠ .error .index :=
  leaves_of_within aside

/-! ### Attempts -/

theorem Ran.plain {plan : List VerificationCommand} {results : List Result} {ran : Trace}
    (every : Ran plan results ran) : Plain ran := by
  induction every with
  | nil => exact List.forall_mem_nil _
  | cons _ _ ih => exact plain_cons.mpr ⟨rfl, ih⟩

/-- What running a plan leaves. -/
inductive Planned (plan : List VerificationCommand) : Trace → Except Failure (List Result) → Prop
  | stopped {t : Trace} (e : Expected) (plain : Plain t) : Planned plan t (.error (.expected e))
  | ended {t : Trace} {results : List Result} (every : Ran plan results t) :
      Planned plan t (.ok results)

theorem leaves_runPlan {plan : List VerificationCommand} :
    Leaves Port.notable (runPlan w plan) (Planned plan) := by
  induction plan with
  | nil => exact leaves_settle (x := .ok []) (.ended .nil)
  | cons item plan ih =>
    have none (e : Expected) : Planned (item :: plan) [] (.error (.expected e)) :=
      .stopped e (List.forall_mem_nil _)
    refine leaves_lifted (fun _ _ => ?_) fun e _ => none e
    refine leaves_ask rfl fun answered => ?_
    have one (e : Expected) : Planned (item :: plan) [⟨.run item.command, answered⟩]
        (.error (.expected e)) := .stopped e (plain_cons.mpr ⟨rfl, List.forall_mem_nil _⟩)
    refine leaves_lifted (fun answer ran => ?_) fun e _ => one e
    subst ran
    refine leaves_lifted (fun stdout _ => ?_) fun e _ => one e
    refine leaves_lifted (fun stderr _ => ?_) fun e _ => one e
    refine leaves_bind ih (fun u results planned => ?_) fun u e planned => ?_
    · cases planned with
      | ended every =>
        refine leaves_settle (x := .ok (_ :: results)) ?_
        rw [List.append_nil]
        exact .ended (.cons rfl every)
    · cases planned with
      | stopped e plain => exact .stopped e (plain_cons.mpr ⟨rfl, plain⟩)

variable (w) in
/-- What a sandbox leaves. -/
inductive Sandboxed (number fileCount : Nat) (plan : List VerificationCommand) :
    Trace → Except Failure (List Result) → Prop
  | stopped {t : Trace} (e : Expected) (plain : Plain t) :
      Sandboxed number fileCount plan t (.error (.expected e))
  | ended {ran : Trace} {results : List Result} (every : Ran plan results ran) :
      Sandboxed number fileCount plan (staged w number fileCount ++ ran) (.ok results)

theorem leaves_runSandbox {number fileCount : Nat} {plan : List VerificationCommand} :
    Leaves Port.notable (runSandbox w number plan fileCount)
      (Sandboxed w number fileCount plan) := by
  refine leaves_beside rfl fun started => ?_
  refine leaves_lifted (fun _ _ => ?_) fun e _ => .stopped e (List.forall_mem_nil _)
  refine leaves_ask rfl fun _ => ?_
  refine leaves_ask rfl fun copied => ?_
  refine leaves_lifted (fun _ done => ?_) fun e _ => .stopped e ?_
  · subst done
    refine leaves_mono leaves_runPlan fun t x planned => ?_
    cases planned with
    | ended every => exact .ended every
    | stopped e plain =>
      exact .stopped e (plain_cons.mpr ⟨rfl, plain_cons.mpr ⟨rfl, plain⟩⟩)
  · exact plain_cons.mpr ⟨rfl, plain_cons.mpr ⟨rfl, List.forall_mem_nil _⟩⟩

variable (w) in
/-- What `_verify_attempt` leaves. -/
inductive Verified (number fileCount : Nat) (plan : List VerificationCommand) :
    Trace → Except Failure (List Result) → Prop
  | unsandboxed (e : Expected) :
      Verified number fileCount plan [⟨.sandboxFactory, .error e⟩] (.error (.expected e))
  | stopped {t : Trace} (e : Expected) (plain : Plain t) :
      Verified number fileCount plan (⟨.sandboxFactory, .ok ()⟩ :: t) (.error (.expected e))
  | ended {ran : Trace} {results : List Result} (every : Ran plan results ran) :
      Verified number fileCount plan
        (⟨.sandboxFactory, .ok ()⟩ :: (staged w number fileCount ++ ran)) (.ok results)

theorem leaves_verifyAttempt {number fileCount : Nat} {plan : List VerificationCommand} :
    Leaves Port.notable (verifyAttempt w number plan fileCount)
      (Verified w number fileCount plan) := by
  refine leaves_ask rfl fun made => ?_
  refine leaves_lifted (fun _ there => ?_) fun e failed => ?_
  · subst there
    refine leaves_attempt leaves_runSandbox fun t outcome sandboxed => ?_
    refine leaves_beside rfl fun closed => ?_
    have plain : Plain t := by
      cases sandboxed with
      | stopped _ plain => exact plain
      | ended every => exact plain_cons.mpr ⟨rfl, plain_cons.mpr ⟨rfl, every.plain⟩⟩
    refine leaves_lifted (fun _ _ => leaves_settle ?_) fun e _ => ?_
    · rw [List.append_nil]
      cases sandboxed with
      | stopped e plain => exact .stopped e plain
      | ended every => exact .ended every
    · rw [List.append_nil]
      exact .stopped e plain
  · subst failed
    exact .unsandboxed e

theorem leaves_attemptOnce {number : Nat} {package : CandidatePackage} :
    Leaves Port.notable (attemptOnce w number package) (Tried w number package) := by
  refine leaves_beside rfl fun copied => ?_
  refine leaves_lifted (fun _ _ => ?_) fun e _ => .refused e
  refine leaves_bind aside_applyCandidate.leaves (fun t _ applied => ?_) fun t e applied => ?_
  · obtain ⟨rfl, -⟩ := applied
    refine leaves_lifted (fun plan planned => ?_) fun e _ => .refused e
    refine leaves_bind leaves_verifyAttempt (fun t results verified => ?_) fun t e verified => ?_
    · cases verified with
      | ended every =>
        refine leaves_ask rfl fun _ => leaves_settle (x := .ok _) ?_
        refine .verified _ planned every fun passed result mem => ?_
        have exits := (Bool.and_eq_true_iff.mp passed).2
        exact of_decide_eq_true (List.all_eq_true.mp exits result mem)
    · cases verified with
      | unsandboxed e => exact .unsandboxed e
      | stopped e plain => exact .stopped e plain
  · obtain ⟨rfl, other⟩ := applied
    cases e with
    | expected e => exact .refused e
    | index => exact absurd rfl other

theorem leaves_rounds {prompt : String} {left number : Nat} {package : CandidatePackage} :
    Leaves Port.notable (rounds w prompt left number package)
      (Repaired w left number package) := by
  induction left generalizing number package with
  | zero =>
    refine leaves_bind leaves_attemptOnce (fun t outcome tried => ?_) fun t e tried => .raised tried
    obtain ⟨passed, last⟩ := outcome
    cases passed with
    | true =>
      refine leaves_settle (x := .ok (some last)) ?_
      rw [List.append_nil]
      exact .passed tried
    | false => exact leaves_ask rfl fun _ => leaves_settle (x := .ok none) (.failed tried)
  | succ left ih =>
    refine leaves_bind leaves_attemptOnce (fun t outcome tried => ?_) fun t e tried => .raised tried
    obtain ⟨passed, last⟩ := outcome
    cases passed with
    | true =>
      refine leaves_settle (x := .ok (some last)) ?_
      rw [List.append_nil]
      exact .passed tried
    | false =>
      refine leaves_lifted (fun repair _ => ?_) fun e _ => ?_
      · refine leaves_bind leaves_candidate (fun u package read => ?_) fun u e read => ?_
        · refine leaves_ask rfl fun _ => leaves_mono ih fun v x rest => ?_
          exact .again tried read rest
        · exact .unread tried read
      · rw [List.append_nil]
        exact .unbounded tried e

/-! ### The run -/

/-- The exchanges that read the files of a candidate back. -/
def readings (number : Nat) (files : List (String × List UInt8)) : Trace :=
  files.map fun file => ⟨.readBytes number file.1, .ok file.2⟩

theorem plain_readings {number : Nat} {files : List (String × List UInt8)} :
    Plain (readings number files) := by
  intro y mem
  obtain ⟨file, -, rfl⟩ := List.mem_map.mp mem
  rfl

/-- What `_read_verified_candidate` leaves. -/
inductive Fetched (number : Nat) (paths : List String) :
    Trace → Except Failure (List (String × List UInt8)) → Prop
  | stopped {t : Trace} (e : Expected) (plain : Plain t) :
      Fetched number paths t (.error (.expected e))
  | ended {files : List (String × List UInt8)} (names : files.map Prod.fst = paths) :
      Fetched number paths (readings number files) (.ok files)

theorem leaves_readVerifiedCandidate {number : Nat} {paths : List String} :
    Leaves Port.notable (readVerifiedCandidate number paths) (Fetched number paths) := by
  induction paths with
  | nil => exact leaves_settle (x := .ok []) (@Fetched.ended number _ [] rfl)
  | cons relative paths ih =>
    refine leaves_ask rfl fun answered => ?_
    refine leaves_lifted (fun bytes there => ?_) fun e _ => ?_
    · subst there
      refine leaves_bind ih (fun u files fetched => ?_) fun u e fetched => ?_
      · cases fetched with
        | ended names =>
          refine leaves_settle (x := .ok ((relative, bytes) :: files)) ?_
          rw [List.append_nil]
          have both : ((relative, bytes) :: files).map Prod.fst = relative :: paths :=
            congrArg (relative :: ·) names
          exact .ended both
      · cases fetched with
        | stopped e plain => exact .stopped e (plain_cons.mpr ⟨rfl, plain⟩)
    · exact .stopped e (plain_cons.mpr ⟨rfl, List.forall_mem_nil _⟩)

variable (w) in
/-- What the work in the folder of a run leaves. -/
inductive Worked : Trace → Except Failure (Option DeliveryBundle) → Prop
  | unread {t : Trace} {e : Failure} (read : Read w t (.error e)) : Worked t (.error e)
  | raised {t u : Trace} {package : CandidatePackage} {e : Failure} (read : Read w t (.ok package))
      (repaired : Repaired w w.maxRepairAttempts.toNat 0 package u (.error e)) :
      Worked (t ++ u) (.error e)
  | failed {t u : Trace} {package : CandidatePackage} (read : Read w t (.ok package))
      (repaired : Repaired w w.maxRepairAttempts.toNat 0 package u (.ok none)) :
      Worked (t ++ u) (.ok none)
  | unpacked {t u v : Trace} {package : CandidatePackage} {passing : Passing} (e : Expected)
      (read : Read w t (.ok package))
      (repaired : Repaired w w.maxRepairAttempts.toNat 0 package u (.ok (some passing)))
      (plain : Plain v) : Worked (t ++ (u ++ v)) (.error (.expected e))
  | packed {t u : Trace} {package : CandidatePackage} {passing : Passing} {bundle : DeliveryBundle}
      {files : List (String × List UInt8)} (read : Read w t (.ok package))
      (repaired : Repaired w w.maxRepairAttempts.toNat 0 package u (.ok (some passing)))
      (names : files.map Prod.fst = passing.candidate.paths) :
      Worked (t ++ (u ++ (readings passing.number files ++
        [⟨.package files passing.plan passing.results passing.number, .ok bundle⟩,
          ⟨.append (.bundleCreated bundle), ()⟩]))) (.ok (some bundle))

theorem leaves_work {prompt : String} : Leaves Port.notable (work w prompt) (Worked w) := by
  refine leaves_beside rfl fun copied => ?_
  refine leaves_lifted (fun _ _ => ?_) fun e _ => .unread (.refused e)
  refine leaves_bind leaves_candidate (fun t package read => ?_) fun t e read => .unread read
  refine leaves_bind leaves_rounds (fun u outcome repaired => ?_) fun u e repaired => ?_
  · cases outcome with
    | none =>
      refine leaves_settle (x := .ok none) ?_
      rw [List.append_nil]
      exact .failed read repaired
    | some passing =>
      refine leaves_bind leaves_readVerifiedCandidate (fun v files fetched => ?_)
        fun v e fetched => ?_
      · cases fetched with
        | ended names =>
          refine leaves_ask rfl fun packed => ?_
          refine leaves_lifted (fun bundle there => ?_) fun e _ => ?_
          · subst there
            refine leaves_ask rfl fun _ => leaves_settle (x := .ok (some bundle)) ?_
            exact .packed read repaired names
          · refine .unpacked e read repaired (plain_append.mpr ⟨plain_readings, ?_⟩)
            exact plain_cons.mpr ⟨rfl, List.forall_mem_nil _⟩
      · cases fetched with
        | stopped e plain => exact .unpacked e read repaired plain
  · exact .raised read repaired

/-- The events with which a run begins. -/
def opening (w : CodingWorkflow) (prompt project : String) : Trace :=
  [⟨.append (.runCreated prompt project), ()⟩, ⟨.append (.criteriaCreated prompt), ()⟩,
    ⟨.append (.planCreated w.maxRepairAttempts w.sandboxName
      w.verificationPolicy.requiredCommands w.verificationPolicy.smokeCommands), ()⟩]

/-- What the handler appends. -/
def blocked : Except Failure (Option DeliveryBundle) → Trace
  | .error (.expected e) => [⟨.append (.runBlocked e.reason), ()⟩]
  | _ => []

/-- What the handler goes on with. -/
def caught : Except Failure (Option DeliveryBundle) → Except Failure (Option DeliveryBundle)
  | .error (.expected _) => .ok none
  | outcome => outcome

theorem leaves_handled {outcome : Except Failure (Option DeliveryBundle)} :
    Leaves Port.notable (handled outcome) fun t x => t = blocked outcome ∧ x = caught outcome := by
  cases outcome with
  | ok bundle => exact leaves_settle (x := .ok bundle) ⟨rfl, rfl⟩
  | error e =>
    cases e with
    | expected e => exact leaves_ask rfl fun _ => leaves_settle (x := .ok none) ⟨rfl, rfl⟩
    | index => exact leaves_settle ⟨rfl, rfl⟩

variable (w) in
/-- What a run leaves. -/
inductive Executed (prompt : Str) (project : String) :
    Trace → Except Failure (Option DeliveryBundle) → Prop
  | unprompted {e : Expected}
      (bounded : w.redactor.boundText prompt w.maxContextCharacters = .error e) :
      Executed prompt project [] (.error (.expected e))
  | unrooted {safe : BoundedRedactedText} (e : Expected)
      (bounded : w.redactor.boundText prompt w.maxContextCharacters = .ok safe) :
      Executed prompt project
        (opening w safe.text project ++ [⟨.append (.runBlocked e.reason), ()⟩]) (.ok none)
  | removed {safe : BoundedRedactedText} {t : Trace}
      {outcome : Except Failure (Option DeliveryBundle)}
      (bounded : w.redactor.boundText prompt w.maxContextCharacters = .ok safe)
      (worked : Worked w t outcome) :
      Executed prompt project (opening w safe.text project ++
        (t ++ (blocked outcome ++ [⟨.removeRunRoot, .ok ()⟩]))) (caught outcome)
  | unremoved {safe : BoundedRedactedText} {t : Trace}
      {outcome : Except Failure (Option DeliveryBundle)} (e : Expected)
      (bounded : w.redactor.boundText prompt w.maxContextCharacters = .ok safe)
      (worked : Worked w t outcome) :
      Executed prompt project (opening w safe.text project ++
        (t ++ (blocked outcome ++ [⟨.removeRunRoot, .error e⟩]))) (.error (.expected e))

theorem aside_makeRoots : Aside makeRoots := by
  refine within_ask rfl fun staging => aside_lifted fun _ => ?_
  exact within_ask rfl fun made => within_settle (known made)

theorem leaves_execute {prompt : Str} {project : String} :
    Leaves Port.notable (execute w prompt project) (Executed w prompt project) := by
  refine leaves_lifted (fun safe bounded => ?_) fun e bounded => .unprompted bounded
  refine leaves_ask rfl fun _ => leaves_ask rfl fun _ => leaves_ask rfl fun _ => ?_
  refine leaves_attempt aside_makeRoots.leaves fun _ made rooted => ?_
  obtain ⟨rfl, known⟩ := rooted
  cases made with
  | error e =>
    refine leaves_mono leaves_handled fun t x closes => ?_
    obtain ⟨rfl, rfl⟩ := closes
    cases e with
    | expected e => exact .unrooted e bounded
    | index => exact absurd rfl known
  | ok =>
    refine leaves_attempt leaves_work fun t outcome worked => ?_
    refine leaves_attempt leaves_handled fun _ closed closes => ?_
    obtain ⟨rfl, rfl⟩ := closes
    refine leaves_ask rfl fun removed => ?_
    refine leaves_lifted (fun _ there => ?_) fun e failed => ?_
    · subst there
      exact leaves_settle (.removed bounded worked)
    · subst failed
      exact .unremoved e bounded worked

end CodingWorkflow

end Corvus.Workflow
