import Corvus.Library.Except
import Corvus.Library.Json
import Corvus.Library.Procedure
import Corvus.Library.Unicode
import Corvus.Snapshot.Policy

/-!
# Coding runs

`CodingWorkflow.execute` of `workflow.py` as a procedure that asks its provider, its sandbox, the
file system, the delivery and the trace store. Each of them may answer with one of the errors that
the run catches; the trace store takes every event.
-/

namespace Corvus.Workflow

open Unicode (Str)
open Snapshot (pathParts isAbsolute isSnapshotPathPermanentlyExcluded)

/-! ## Errors -/

/-- The classes that the run catches. A `UnicodeEncodeError` is a `ValueError`. -/
inductive Kind where
  | delivery | sandbox | security | os | provider | validation | value
deriving DecidableEq

structure Expected where
  kind : Kind
  reason : String
deriving DecidableEq

/-- `index` is an `IndexError`, which is of none of these classes. -/
inductive Failure where
  | expected (e : Expected)
  | index
deriving DecidableEq

/-! ## Redaction -/

structure BoundedRedactedText where
  text : String
  truncated : Bool
  originalSha256 : String
  capturedSha256 : String
  originalBytes : Nat
  originalChars : Nat
  capturedBytes : Nat
  capturedChars : Nat

/-- A redactor and the digest function. -/
structure SecretRedactor where
  redact : Str → Str
  sha256 : String → String

/-- `str.encode("utf-8")`, with the text that was encoded. -/
def encode (text : Str) : Except Expected String :=
  present text.toString? ⟨.value, text.encodeError⟩

/-- What `bound_text` keeps of a redacted text. -/
def captured (redacted : Str) (maxCharacters : Nat) : Str :=
  let marker := Str.ofString (if 11 ≤ maxCharacters then "[TRUNCATED]" else "…")
  if maxCharacters < redacted.length then
    redacted.take (maxCharacters - marker.length) ++ marker
  else redacted

/-- `bound_text`. -/
def SecretRedactor.boundText (r : SecretRedactor) (text : Str) (maxCharacters : Nat) :
    Except Expected BoundedRedactedText := do
  let redacted := r.redact text
  let original ← encode redacted
  let kept ← encode (captured redacted maxCharacters)
  return {
    text := kept
    truncated := maxCharacters < redacted.length
    originalSha256 := r.sha256 original
    capturedSha256 := r.sha256 kept
    originalBytes := original.utf8ByteSize
    originalChars := original.length
    capturedBytes := kept.utf8ByteSize
    capturedChars := kept.length }

/-! ## Verification plans -/

inductive CommandSource where
  | trustedRequired | trustedSmoke | modelSuggested

def CommandSource.text : CommandSource → String
  | trustedRequired => "trusted_required"
  | trustedSmoke => "trusted_smoke"
  | modelSuggested => "model_suggested"

structure VerificationCommand where
  criterionId : String
  command : List String
  source : CommandSource
  required : Bool

/-- The checks of `_validate_command`. -/
def validateCommand (maxArguments : Nat) (command : List String) : Except Expected Unit := do
  refuse (command = []) ⟨.value, "verification command must not be empty"⟩
  refuse (maxArguments < command.length) ⟨.value, "verification command exceeds argument limit"⟩
  refuse ("" ∈ command) ⟨.value, "verification command arguments must be non-empty strings"⟩

/-- A policy has passed the checks of `__post_init__`. -/
structure VerificationPolicy where
  requiredCommands : List (List String)
  smokeCommands : List (List String)
  maxCommands : Nat
  maxArgumentsPerCommand : Nat
  required_some : requiredCommands ≠ []
  valid : ∀ command ∈ requiredCommands ++ smokeCommands,
    validateCommand maxArgumentsPerCommand command = .ok ()
  fits : requiredCommands.length + smokeCommands.length ≤ maxCommands

/-- `add` of `plan`. What has been seen are the commands that are planned. -/
def VerificationPolicy.add (policy : VerificationPolicy) (source : CommandSource) (required : Bool)
    (planned : List VerificationCommand) (command : List String) :
    Except Expected (List VerificationCommand) := do
  validateCommand policy.maxArgumentsPerCommand command
  if command ∈ planned.map VerificationCommand.command then return planned
  refuse (policy.maxCommands ≤ planned.length)
    ⟨.value, "verification plan exceeds command limit"⟩
  return planned ++
    [⟨source.text ++ "-" ++ toString (planned.length + 1), command, source, required⟩]

/-- `plan`. -/
def VerificationPolicy.plan (policy : VerificationPolicy) (modelCommands : List (List String))
    (modelSmoke : Option (List String)) : Except Expected (List VerificationCommand) := do
  let planned ← policy.requiredCommands.foldlM (policy.add .trustedRequired true) []
  let planned ← policy.smokeCommands.foldlM (policy.add .trustedSmoke true) planned
  let planned ← modelCommands.foldlM (policy.add .modelSuggested false) planned
  modelSmoke.toList.foldlM (policy.add .modelSuggested false) planned

/-! ## Records -/

/-- A candidate that has been validated. -/
structure CandidatePackage where
  files : List (String × String)
  testCommands : List (List String)
  smokeCommand : Option (List String)
  distinct : (files.map Prod.fst).Nodup

/-- `sorted(candidate.files)`. -/
def CandidatePackage.paths (candidate : CandidatePackage) : List String :=
  (candidate.files.map Prod.fst).mergeSort fun a b => a ≤ b

structure CommandResult where
  exitCode : Int
  stdout : Str
  stderr : Str
  timedOut : Bool

/-- One of the results that `_verify_attempt` collects. -/
structure Result where
  item : VerificationCommand
  exitCode : Int
  stderr : BoundedRedactedText
  stdout : BoundedRedactedText
  timedOut : Bool

def BoundedRedactedText.metadata (b : BoundedRedactedText) : Json :=
  .obj [("captured_bytes", .int b.capturedBytes), ("captured_chars", .int b.capturedChars),
    ("captured_sha256", .str b.capturedSha256), ("original_bytes", .int b.originalBytes),
    ("original_chars", .int b.originalChars), ("original_sha256", .str b.originalSha256),
    ("truncated", .bool b.truncated)]

def Result.json (r : Result) : Json :=
  .obj [("criterion_id", .str r.item.criterionId), ("command", .arr (r.item.command.map .str)),
    ("exit_code", .int r.exitCode), ("required", .bool r.item.required),
    ("source", .str r.item.source.text), ("stderr", .str r.stderr.text),
    ("stderr_metadata", r.stderr.metadata), ("stdout", .str r.stdout.text),
    ("stdout_metadata", r.stdout.metadata), ("timed_out", .bool r.timedOut)]

/-- What the run uses of a bundle. -/
structure DeliveryBundle where
  id : String
  manifestDigest : String
  destination : String
  changedFiles : List String
deriving DecidableEq

/-- The events of a run, with their payloads. -/
inductive Event where
  | runCreated (prompt project : String)
  | criteriaCreated (description : String)
  | planCreated (maxRepairs : Int) (sandboxBackend : String)
      (trustedRequiredCommands trustedSmokeCommands : List (List String))
  | sandboxStaging (backend : String) (fileCount repair : Nat)
  | verificationCompleted (passed requiredPassed : Bool) (results : List Result) (repair : Nat)
  | runFailed (attempts : Nat)
  | repairCreated (attempt : Nat) (files : List String)
  | bundleCreated (bundle : DeliveryBundle)
  | runBlocked (reason : String)

def Event.type : Event → String
  | runCreated .. => "run.created"
  | criteriaCreated _ => "criteria.created"
  | planCreated .. => "plan.created"
  | sandboxStaging .. => "sandbox.staging"
  | verificationCompleted .. => "verification.completed"
  | runFailed _ => "run.failed"
  | repairCreated .. => "repair.created"
  | bundleCreated _ => "bundle.created"
  | runBlocked _ => "run.blocked"

/-! ## Questions -/

/-- The places of a run that are copied from and to. -/
inductive Place where
  | project
  | snapshot
  | attempt (number : Nat)

inductive Port where
  | append (event : Event)
  | makeStagingRoot
  | makeRunRoot
  | createSnapshot (source destination : Place)
  | appendContextEnvelope (prompt : String) (repairContext : Option String)
  | collectProviderStream (prompt : String) (repairContext : Option String)
  | appendExternalContent (raw : String)
  | makeDirectory (attempt : Nat) (parts : List String)
  | atomicWrite (attempt : Nat) (parts : List String) (content : String)
  | sandboxFactory
  | start
  | stage (attempt : Nat)
  | run (command : List String)
  | close
  | readBytes (attempt : Nat) (relative : String)
  | package (files : List (String × List UInt8)) (plan : List VerificationCommand)
      (results : List Result) (repairs : Nat)
  | removeRunRoot

/-- What an answer has in it when it is no error. -/
abbrev Port.Value : Port → Type
  | .collectProviderStream .. => String
  | .run _ => CommandResult
  | .readBytes .. => List UInt8
  | .package .. => DeliveryBundle
  | _ => Unit

abbrev Port.Answer : Port → Type
  | .append _ => Unit
  | q => Except Expected q.Value

abbrev Program := Procedure Failure Port Port.Answer

open Procedure

/-- `store.append`. -/
def append (event : Event) : Program Unit := ask (Port.append event)

/-- Go on with a value, or end with the error that stands for it. -/
def lifted {α : Type} (x : Except Expected α) : Program α := settle (x.mapError .expected)

/-! ## The run -/

structure CodingWorkflow where
  redactor : SecretRedactor
  /-- `CandidatePackage.model_validate_json`, which gives a package or a `ValidationError`. -/
  validateJson : String → Except String CandidatePackage
  verificationPolicy : VerificationPolicy
  maxRepairAttempts : Int
  sandboxName : String
  maxOutputCharacters : Nat
  maxContextCharacters : Nat

/-- The text after the first line feed. -/
def afterLine : List Char → Option (List Char)
  | [] => none
  | '\n' :: s => some s
  | _ :: s => afterLine s

/-- `s.rsplit("```", 1)[0]`. -/
def beforeFence (s : List Char) : List Char :=
  match (s.inits.filter fun before => "```".toList <+: s.drop before.length).getLast? with
  | some before => before
  | none => s

/-- What `_candidate` takes out of its fence. -/
def unfence (raw : String) : Except Failure String :=
  if "```".toList <+: raw.toList then
    match afterLine raw.toList with
    | some rest => .ok (String.ofList (beforeFence rest))
    | none => .error .index
  else .ok raw

section CodingWorkflow

variable (w : CodingWorkflow)

/-- `_candidate`. -/
def candidate (prompt : String) (repairContext : Option String) : Program CandidatePackage := do
  lifted (← ask (.appendContextEnvelope prompt repairContext))
  let text ← lifted (← ask (.collectProviderStream prompt repairContext))
  let raw := Text.strip text
  lifted (← ask (.appendExternalContent raw))
  let json ← settle (unfence raw)
  lifted ((w.validateJson json).mapError (⟨.validation, ·⟩))

/-- The folders above a file of a candidate. -/
def makeParents (attempt : Nat) (made : List String) : List String → Program Unit
  | [] => pure ()
  | part :: parts => do
      lifted (← ask (.makeDirectory attempt (made ++ [part])))
      makeParents attempt (made ++ [part]) parts

/-- `_apply_candidate`. -/
def applyCandidate (attempt : Nat) : List (String × String) → Program Unit
  | [] => pure ()
  | (relative, content) :: files => do
      let parts := pathParts relative
      lifted (refuse (parts = [] ∨ isAbsolute relative ∨ ".." ∈ parts)
        ⟨.security, "unsafe candidate path: " ++ relative⟩)
      lifted (refuse (isSnapshotPathPermanentlyExcluded relative)
        ⟨.security, "candidate path is permanently excluded: " ++ relative⟩)
      makeParents attempt [] parts.dropLast
      lifted (← ask (.atomicWrite attempt parts content))
      applyCandidate attempt files

/-- The loop of `_verify_attempt`. -/
def runPlan : List VerificationCommand → Program (List Result)
  | [] => pure []
  | item :: plan => do
      lifted (refuse (∃ argument ∈ item.command,
          w.redactor.redact (.ofString argument) ≠ .ofString argument)
        ⟨.security, "verification command contains secret material"⟩)
      let result ← lifted (← ask (.run item.command))
      let stdout ← lifted (w.redactor.boundText result.stdout w.maxOutputCharacters)
      let stderr ← lifted (w.redactor.boundText result.stderr w.maxOutputCharacters)
      let results ← runPlan plan
      return ⟨item, result.exitCode, stderr, stdout, result.timedOut⟩ :: results

/-- What `_verify_attempt` does with its sandbox. -/
def runSandbox (number : Nat) (plan : List VerificationCommand) (fileCount : Nat) :
    Program (List Result) := do
  lifted (← ask .start)
  append (.sandboxStaging w.sandboxName fileCount number)
  lifted (← ask (.stage number))
  runPlan w plan

/-- `_verify_attempt`. The sandbox is closed whatever has been raised. -/
def verifyAttempt (number : Nat) (plan : List VerificationCommand) (fileCount : Nat) :
    Program (List Result) := do
  lifted (← ask .sandboxFactory)
  let outcome ← attempt (runSandbox w number plan fileCount)
  lifted (← ask .close)
  settle outcome

/-- The attempt that has passed. -/
structure Passing where
  number : Nat
  candidate : CandidatePackage
  plan : List VerificationCommand
  results : List Result

/-- One attempt: the candidate on a fresh copy of the source, verified. -/
def attemptOnce (number : Nat) (candidate : CandidatePackage) :
    Program (Bool × Passing) := do
  lifted (← ask (.createSnapshot .snapshot (.attempt number)))
  applyCandidate number candidate.files
  let plan ← lifted (w.verificationPolicy.plan candidate.testCommands candidate.smokeCommand)
  let results ← verifyAttempt w number plan candidate.files.length
  let requiredPassed := (plan.zip results).all fun (item, result) =>
    ! item.required || result.exitCode = 0
  let passed := requiredPassed && results.all fun result => result.exitCode = 0
  append (.verificationCompleted passed requiredPassed results number)
  return (passed, ⟨number, candidate, plan, results⟩)

/-- The loop of `execute` while `left` repairs are left, up to an attempt that has passed. -/
def rounds (prompt : String) : Nat → Nat → CandidatePackage → Program (Option Passing)
  | left, attempts, package => do
      let (passed, tried) ← attemptOnce w attempts package
      if passed then return some tried
      match left with
      | 0 => do
          append (.runFailed attempts)
          return none
      | left + 1 => do
          let repairJson := (Json.arr (tried.results.map Result.json)).dumps
          let repair ← lifted
            (w.redactor.boundText (.ofString repairJson) w.maxContextCharacters)
          let package ← candidate w prompt (some repair.text)
          append (.repairCreated (attempts + 1) package.paths)
          rounds prompt left (attempts + 1) package

/-- `_read_verified_candidate`. -/
def readVerifiedCandidate (attempt : Nat) : List String → Program (List (String × List UInt8))
  | [] => pure []
  | relative :: paths => do
      let bytes ← lifted (← ask (.readBytes attempt relative))
      let files ← readVerifiedCandidate attempt paths
      return (relative, bytes) :: files

/-- The part of `execute` that works in the folder of the run. -/
def work (prompt : String) : Program (Option DeliveryBundle) := do
  lifted (← ask (.createSnapshot .project .snapshot))
  let package ← candidate w prompt none
  match ← rounds w prompt w.maxRepairAttempts.toNat 0 package with
  | none => return none
  | some passing => do
      let files ← readVerifiedCandidate passing.number passing.candidate.paths
      let bundle ← lifted (← ask (.package files passing.plan passing.results passing.number))
      append (.bundleCreated bundle)
      return some bundle

/-- The handler of `execute`. -/
def handled : Except Failure (Option DeliveryBundle) → Program (Option DeliveryBundle)
  | .ok bundle => pure bundle
  | .error (.expected e) => do
      append (.runBlocked e.reason)
      return none
  | .error .index => settle (.error .index)

def makeRoots : Program Unit := do
  lifted (← ask .makeStagingRoot)
  lifted (← ask .makeRunRoot)

/-- `execute`. The folder of the run is removed in the end if it was made. -/
def execute (prompt : Str) (project : String) : Program (Option DeliveryBundle) := do
  let safePrompt ← lifted (w.redactor.boundText prompt w.maxContextCharacters)
  append (.runCreated safePrompt.text project)
  append (.criteriaCreated safePrompt.text)
  append (.planCreated w.maxRepairAttempts w.sandboxName
    w.verificationPolicy.requiredCommands w.verificationPolicy.smokeCommands)
  let made ← attempt makeRoots
  match made with
  | .error e => handled (.error e)
  | .ok () => do
      let outcome ← attempt (work w safePrompt.text)
      let closed ← attempt (handled outcome)
      lifted (← ask .removeRunRoot)
      settle closed

end CodingWorkflow

end Corvus.Workflow
