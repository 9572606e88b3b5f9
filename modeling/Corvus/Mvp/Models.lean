import Corvus.Library.Text
import Corvus.Library.Uuid

/-!
# Records of the local workflow service

The enumerations and records of `mvp/models.py`. Validation that the source makes
when a record is built is a field of the record here, so an invalid definition
cannot be handed to the service. An instant is a number of microseconds.
-/

namespace Corvus.Mvp

abbrev Instant := Int

inductive WorkflowStatus where
  | draft | running | paused | succeeded | cancelled | failed
deriving DecidableEq, Repr

def WorkflowStatus.value : WorkflowStatus → String
  | draft => "draft"
  | running => "running"
  | paused => "paused"
  | succeeded => "succeeded"
  | cancelled => "cancelled"
  | failed => "failed"

inductive WorkItemStatus where
  | pending | ready | running | waitingApproval | succeeded | failed | cancelled
deriving DecidableEq, Repr

inductive EffectKind where
  | provider | filesystem
deriving DecidableEq, Repr

def EffectKind.value : EffectKind → String
  | provider => "provider"
  | filesystem => "filesystem"

structure EffectBinding where
  kind : EffectKind
  target : String
  payload : List (String × Json)
  target_length : 1 ≤ target.length ∧ target.length ≤ 2048
deriving DecidableEq

/-- `model_dump(mode="json")` of a binding. -/
def EffectBinding.dump (b : EffectBinding) : Json :=
  .obj [("kind", .str b.kind.value), ("target", .str b.target), ("payload", .obj b.payload)]

def isLower (c : Char) : Bool := 'a' ≤ c && c ≤ 'z'

/-- The pattern of a work-item key: a lower-case letter, then up to 63 lower-case
letters, digits, underscores or hyphens. -/
def keyPattern (key : String) : Bool :=
  match key.toList with
  | [] => false
  | c :: rest =>
      isLower c && decide (rest.length ≤ 63) &&
        rest.all fun d => isLower d || ('0' ≤ d && d ≤ '9') || d == '_' || d == '-'

structure WorkItemDefinition where
  key : String
  title : String
  dependsOn : List String
  costUnits : Nat
  requiresApproval : Bool
  effect : Option EffectBinding
  key_pattern : keyPattern key = true
  title_length : 1 ≤ title.length ∧ title.length ≤ 200
  approval_requires_effect : requiresApproval = true → effect.isSome
  budget_cost_requires_effect : costUnits ≠ 0 → effect.isSome
  not_self_dependent : key ∉ dependsOn

inductive AttemptStatus where
  | running | waitingApproval | succeeded | failed | interrupted
deriving DecidableEq, Repr

inductive EffectStatus where
  | pendingApproval | ready | approved | rejected | executed
deriving DecidableEq, Repr

inductive ApprovalStatus where
  | approved | rejected
deriving DecidableEq, Repr

inductive ReservationStatus where
  | reserved | settled | released
deriving DecidableEq, Repr

inductive ScopeKind where
  | «global» | project | workflow
deriving DecidableEq, Repr

/-- What `claim_next` hands to a worker. -/
structure WorkClaim where
  attemptId : Uuid
  workItemId : Uuid
  workflowId : Uuid
  key : String
  workerId : String
  leaseFence : Nat
  leaseExpiresAt : Instant
deriving DecidableEq

inductive Error where
  | value (code : String)
  | conflict (code : String)
  | notFound (code : String)
  | budgetExceeded (code : String)
  | integrity (constraint : String)
deriving DecidableEq, Repr

end Corvus.Mvp
