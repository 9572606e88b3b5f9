import Corvus.Snapshot.Policy
import Mathlib.Data.Finset.Sort
import Mathlib.Data.String.Basic
import Mathlib.Order.WithBot
import Mathlib.Data.Rat.Defs
import Mathlib.Algebra.Order.Ring.Unbundled.Rat

/-!
# Policies

The policies of `models.py`, how `ConfigManager` narrows the one of the user by the one of a
project, and what `PolicyEngine` decides.
-/

namespace Corvus.Policies

/-! ## Models -/

inductive AutonomyLevel where
  | advise | observe | sandbox | propose | apply | delegate
deriving DecidableEq, Repr

def AutonomyLevel.value : AutonomyLevel → Nat
  | .advise => 0
  | .observe => 1
  | .sandbox => 2
  | .propose => 3
  | .apply => 4
  | .delegate => 5

/-- A `float`: a number, an infinity, or `none` for a NaN. -/
abbrev Double := Option (WithBot (WithTop ℚ))

/-- The comparison of floats, which holds of no NaN. -/
def Double.lt : Double → Double → Bool
  | some x, some y => x < y
  | _, _ => false

def Double.le : Double → Double → Bool
  | some x, some y => x ≤ y
  | _, _ => false

structure FilesystemPolicy where
  read : List String := []
  write : List String := []
  deny : List String := []
deriving DecidableEq

structure NetworkPolicy where
  allowDomains : List String := []
deriving DecidableEq

structure Budget where
  maxCostUsd : ℚ := 3
  maxRuntimeSeconds : Int := 3600
  maxRepairAttempts : Int := 5
  maxInputTokens : Option Int := none
  maxOutputTokens : Option Int := none
deriving DecidableEq

structure SandboxPolicy where
  networkDefault : Bool := false
  cpuLimit : Double := some ((2 : ℚ) : WithTop ℚ)
  memoryMb : Int := 4096
  pidsLimit : Int := 256
deriving DecidableEq

structure Policy where
  autonomy : AutonomyLevel := .propose
  filesystem : FilesystemPolicy := {}
  network : NetworkPolicy := {}
  confirm : List String := ["apply_to_host"]
  budgets : Budget := {}
  sandbox : SandboxPolicy := {}

structure PermissionDecision where
  allowed : Bool
  action : String
  reason : String
  policySource : String
  requiresConfirmation : Bool := false

/-! ## Files -/

/-- The mapping in a policy file: the sections that it has, each with its own defaults. -/
structure PolicyData where
  autonomy : Option AutonomyLevel := none
  filesystem : Option FilesystemPolicy := none
  network : Option NetworkPolicy := none
  confirm : Option (List String) := none
  budgets : Option Budget := none
  sandbox : Option SandboxPolicy := none
deriving DecidableEq

/-- `Policy.model_validate`. -/
def PolicyData.modelValidate (data : PolicyData) : Policy where
  autonomy := data.autonomy.getD .propose
  filesystem := data.filesystem.getD {}
  network := data.network.getD {}
  confirm := data.confirm.getD ["apply_to_host"]
  budgets := data.budgets.getD {}
  sandbox := data.sandbox.getD {}

/-- `min`, which keeps the first of two values unless the second is less. -/
def minimum {α : Type} (lt : α → α → Bool) (a b : α) : α := if lt b a then b else a

/-- `_minimum_present`. -/
def minimumPresent : Option Int → Option Int → Option Int
  | some a, some b => some (minimum (· < ·) a b)
  | some a, none => some a
  | none, b => b

/-- `sorted(set(…))`. -/
def sortedSet (items : List String) : List String := items.toFinset.sort (· ≤ ·)

/-- The items of a project that the user has as well. -/
def common (user project : List String) : List String := project.filter (· ∈ user)

/-- `_narrow`. -/
def narrow (user project : Policy) : Policy where
  autonomy := minimum (fun a b => a.value < b.value) user.autonomy project.autonomy
  filesystem :=
    { read := common user.filesystem.read project.filesystem.read
      write := common user.filesystem.write project.filesystem.write
      deny := sortedSet (user.filesystem.deny ++ project.filesystem.deny) }
  network := { allowDomains := common user.network.allowDomains project.network.allowDomains }
  confirm := sortedSet (user.confirm ++ project.confirm)
  budgets :=
    { maxCostUsd := minimum (· < ·) user.budgets.maxCostUsd project.budgets.maxCostUsd
      maxRuntimeSeconds :=
        minimum (· < ·) user.budgets.maxRuntimeSeconds project.budgets.maxRuntimeSeconds
      maxRepairAttempts :=
        minimum (· < ·) user.budgets.maxRepairAttempts project.budgets.maxRepairAttempts
      maxInputTokens :=
        minimumPresent user.budgets.maxInputTokens project.budgets.maxInputTokens
      maxOutputTokens :=
        minimumPresent user.budgets.maxOutputTokens project.budgets.maxOutputTokens }
  sandbox :=
    { networkDefault := user.sandbox.networkDefault && project.sandbox.networkDefault
      cpuLimit := minimum Double.lt user.sandbox.cpuLimit project.sandbox.cpuLimit
      memoryMb := minimum (· < ·) user.sandbox.memoryMb project.sandbox.memoryMb
      pidsLimit := minimum (· < ·) user.sandbox.pidsLimit project.sandbox.pidsLimit }

/-- `load_policy` with what the two files hold. -/
def loadPolicy (user project : PolicyData) : Policy :=
  let policy := if user = {} then {} else user.modelValidate
  if project = {} then policy else narrow policy project.modelValidate

/-! ## Decisions -/

/-- What the host decides: how paths and patterns are normalised for a comparison,
`str.lower`, the path that a pattern stands for, which `Path.expanduser` may fail to find, and
the parts of a path that is expanded and resolved. -/
structure Host where
  normcase : String → String
  lower : String → String
  expanduser : String → Option String
  resolve : String → Option (List String)

def HARD_DENY_PARTS : List String := [".ssh", ".gnupg"]

def IRREVERSIBLE : List String :=
  ["delete", "publish", "purchase", "send_message", "apply_to_host"]

variable (host : Host)

/-- `fnmatch.fnmatch`. -/
def fnmatch (name pattern : String) : Bool :=
  Snapshot.fnmatchcase (host.normcase name) (host.normcase pattern)

/-- The first of some patterns that a target matches. It raises when it comes to a pattern that
cannot be expanded. -/
def firstMatch (target : String) : List String → Option (Option String)
  | [] => some none
  | pattern :: patterns => do
    let expanded ← host.expanduser pattern
    if fnmatch host target expanded then some (some pattern) else firstMatch target patterns

/-- `Path.as_posix` of the parts of an absolute path. -/
def asPosix : List String → String
  | root :: parts => root ++ "/".intercalate parts
  | [] => "."

namespace Policy

variable (policy : Policy)

/-- `require_level`. -/
def requireLevel (action : String) (minimum : AutonomyLevel) : PermissionDecision :=
  let allowed := decide (minimum.value ≤ policy.autonomy.value)
  { allowed := allowed
    action := action
    reason := if allowed then "autonomy permits action"
      else "requires autonomy " ++ toString minimum.value
    policySource := "effective"
    requiresConfirmation := decide (action ∈ policy.confirm) || decide (action ∈ IRREVERSIBLE) }

/-- The list of patterns for an action. -/
def allow (action : String) : List String :=
  if action = "write" then policy.filesystem.write else policy.filesystem.read

/-- `path`, from the parts of the resolved path on. -/
def decidePath (action : String) (parts : List String) : Option PermissionDecision :=
  if parts.any fun part => decide (host.lower part ∈ HARD_DENY_PARTS) then
    some ⟨false, action, "immutable sensitive-path denial", "hard-safety", false⟩
  else do
    match ← firstMatch host (asPosix parts) policy.filesystem.deny with
    | some pattern =>
      return ⟨false, action, "matched deny rule " ++ pattern, "effective", false⟩
    | none =>
      let matched := (← firstMatch host (asPosix parts) (policy.allow action)).isSome
      return ⟨matched, action, if matched then "matched allow rule" else "no allow rule matched",
        "effective", action = "write"⟩

/-- `path`. -/
def path (action path : String) : Option PermissionDecision :=
  (host.resolve path).bind (policy.decidePath host action)

/-- `str.rstrip(".")`. -/
def rstripDot (s : List Char) : List Char := (s.reverse.dropWhile (· = '.')).reverse

/-- `domain`. -/
def domain (domain : String) : PermissionDecision :=
  let normalized := rstripDot (host.lower domain).toList
  let allowed := policy.network.allowDomains.any fun item =>
    decide (normalized = rstripDot (host.lower item).toList) ||
      ('.' :: rstripDot ((host.lower item).toList.dropWhile fun c => c = '*' ∨ c = '.')).isSuffixOf
        normalized
  { allowed := allowed
    action := "network"
    reason := if allowed then "domain allowlisted" else "domain not allowlisted"
    policySource := "effective" }

end Policy

/-- What a policy engine is asked. -/
inductive Request where
  | level (action : String) (minimum : AutonomyLevel)
  | path (action path : String)
  | domain (domain : String)

/-- The answer of an engine, or `none` when it raises. -/
def Policy.answer (policy : Policy) : Request → Option PermissionDecision
  | .level action minimum => some (policy.requireLevel action minimum)
  | .path action path => policy.path host action path
  | .domain domain => some (policy.domain host domain)

end Corvus.Policies
