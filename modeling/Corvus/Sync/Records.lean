import Corvus.Accounts.Store
import Corvus.Agent.Providers
import Corvus.Library.Text

/-!
# Profiles, mutations and changes

What the sync protocol carries: mutations of the profile of an account or of a workspace, and
the changes they leave in the log of a workspace. A change has the digest of all its other
fields, among them the digest of the change before it.

A stored payload is held as the value of which it is the JSON text.
-/

namespace Corvus.Sync

open Accounts (DeviceRegistration)
open Agent (isSha256)

/-- What is taken from code outside this model: the digests, and `SecretRedactor().redact`. -/
structure Security extends Digests where
  redact : String → String

/-! ## Identities -/

inductive ExperienceKind where
  | everyday | developer
deriving DecidableEq, Repr

inductive WorkspaceKind where
  | individual | team
deriving DecidableEq, Repr

inductive RecordStatus where
  | active | suspended | revoked | archived
deriving DecidableEq, Repr

inductive MembershipStatus where
  | active | suspended | revoked
deriving DecidableEq, Repr

def ExperienceKind.value : ExperienceKind → String
  | everyday => "everyday"
  | developer => "developer"

def WorkspaceKind.value : WorkspaceKind → String
  | individual => "individual"
  | team => "team"

def RecordStatus.value : RecordStatus → String
  | active => "active"
  | suspended => "suspended"
  | revoked => "revoked"
  | archived => "archived"

/-- `Field(min_length=1, max_length=200)`. -/
def Named (name : String) : Prop := 1 ≤ name.length ∧ name.length ≤ 200

instance (name : String) : Decidable (Named name) := inferInstanceAs (Decidable (_ ∧ _))

/-- A version of a workspace. `model_copy` makes it without looking at its fields. -/
structure Workspace where
  id : Uuid
  name : String
  workspaceKind : WorkspaceKind
  status : RecordStatus
  createdAt : Instant
  updatedAt : Instant
  version : Nat

/-- What `Workspace.model_validate_json` asks of a stored version. -/
def Workspace.Valid (w : Workspace) : Prop := Named w.name ∧ 1 ≤ w.version

instance (w : Workspace) : Decidable w.Valid := inferInstanceAs (Decidable (_ ∧ _))

/-- A version of the membership of a principal in a workspace. -/
structure WorkspaceMembership where
  workspaceId : Uuid
  principalId : Uuid
  role : String
  status : MembershipStatus
  version : Nat

/-- A row of `accounts`, as far as profiles go. -/
structure Account where
  id : Uuid
  principalId : Uuid
  experienceKind : ExperienceKind
  version : Nat
deriving DecidableEq, Repr

/-- A row of `account_onboarding_versions`. -/
structure OnboardingVersion where
  accountId : Uuid
  version : Nat
  experienceKind : ExperienceKind
  updatedAt : Instant

/-! ## Profiles -/

structure AccountProfile where
  entityId : Uuid
  experienceKind : ExperienceKind
  version : Nat
deriving DecidableEq, Repr

structure WorkspaceProfile where
  entityId : Uuid
  name : String
  workspaceKind : WorkspaceKind
  status : RecordStatus
  version : Nat
deriving DecidableEq, Repr

inductive ChangeKind where
  | accountProfile | workspaceProfile
deriving DecidableEq, Repr

inductive ChangeOperation where
  | setExperience | update
deriving DecidableEq, Repr

def ChangeKind.value : ChangeKind → String
  | accountProfile => "account_profile"
  | workspaceProfile => "workspace_profile"

def ChangeOperation.value : ChangeOperation → String
  | setExperience => "set_experience"
  | update => "update"

inductive Profile where
  | account (profile : AccountProfile)
  | workspace (profile : WorkspaceProfile)
deriving DecidableEq, Repr

namespace Profile

def entityId : Profile → Uuid
  | account p => p.entityId
  | workspace p => p.entityId

def version : Profile → Nat
  | account p => p.version
  | workspace p => p.version

/-- What `model_validate` asks of a profile. -/
def Valid : Profile → Prop
  | account p => 1 ≤ p.version
  | workspace p => Named p.name ∧ 1 ≤ p.version

instance : ∀ p : Profile, Decidable p.Valid
  | account p => inferInstanceAs (Decidable (1 ≤ p.version))
  | workspace p => inferInstanceAs (Decidable (Named p.name ∧ 1 ≤ p.version))

/-- `model_dump(mode="json")`. -/
def json : Profile → Json
  | account p => .obj [("entity_id", .str p.entityId.text),
      ("experience_kind", .str p.experienceKind.value), ("version", .int p.version)]
  | workspace p => .obj [("entity_id", .str p.entityId.text), ("name", .str p.name),
      ("workspace_kind", .str p.workspaceKind.value), ("status", .str p.status.value),
      ("version", .int p.version)]

/-- The texts that `reject_sensitive_payload` inspects; no field has a sensitive name. -/
def texts : Profile → List String
  | account p => [p.entityId.text, p.experienceKind.value]
  | workspace p => [p.entityId.text, p.name, p.workspaceKind.value, p.status.value]

end Profile

/-- `_workspace_profile`. -/
def Workspace.profile (w : Workspace) : WorkspaceProfile where
  entityId := w.id
  name := w.name
  workspaceKind := w.workspaceKind
  status := w.status
  version := w.version

/-! ## Mutations -/

structure AccountProfilePayload where
  experienceKind : ExperienceKind

structure WorkspaceProfilePayload where
  name : Option String
  workspaceKind : Option WorkspaceKind
  /-- A name is normalized. -/
  named : ∀ n ∈ name, Named n
  /-- `require_change`. -/
  changes : name.isSome ∨ workspaceKind.isSome

inductive MutationPayload where
  | account (payload : AccountProfilePayload)
  | workspace (payload : WorkspaceProfilePayload)

/-- A mutation, whose kind and operation are those of its payload (`validate_discriminator`). -/
structure SyncMutation where
  idempotencyKey : String
  entityId : Uuid
  expectedVersion : Nat
  payload : MutationPayload

namespace SyncMutation

def kind (m : SyncMutation) : ChangeKind :=
  match m.payload with
  | .account _ => .accountProfile
  | .workspace _ => .workspaceProfile

def operation (m : SyncMutation) : ChangeOperation :=
  match m.payload with
  | .account _ => .setExperience
  | .workspace _ => .update

/-- `model_dump`. -/
def json (m : SyncMutation) : Json :=
  .obj [("idempotency_key", .str m.idempotencyKey), ("kind", .str m.kind.value),
    ("operation", .str m.operation.value), ("entity_id", .str m.entityId.text),
    ("expected_version", .int m.expectedVersion),
    ("payload", match m.payload with
      | .account p => .obj [("experience_kind", .str p.experienceKind.value)]
      | .workspace p => .obj [("name", (p.name.map Json.str).getD .null),
          ("workspace_kind", (p.workspaceKind.map (Json.str ·.value)).getD .null)])]

/-- The texts that `reject_sensitive_payload` inspects; no field has a sensitive name, and an id
is no text here. -/
def texts (m : SyncMutation) : List String :=
  [m.idempotencyKey, m.kind.value, m.operation.value] ++
    match m.payload with
    | .account p => [p.experienceKind.value]
    | .workspace p => p.name.toList ++ (p.workspaceKind.map (·.value)).toList

end SyncMutation

structure SyncMutationResult where
  idempotencyKey : String
  kind : ChangeKind
  operation : ChangeOperation
  entityId : Uuid
  entityVersion : Nat
  sequence : Nat
  profile : Profile

structure SyncApplyResult where
  acknowledgedCursor : Nat
  results : List SyncMutationResult

/-! ## Changes -/

/-- A row of `workspace_changes`, which is also what is read from it. -/
structure WorkspaceChange where
  workspaceId : Uuid
  workspaceVersion : Nat
  sequence : Nat
  previousDigest : String
  changeDigest : String
  kind : ChangeKind
  operation : ChangeOperation
  entityId : Uuid
  entityVersion : Nat
  payload : Profile
  accountId : Uuid
  principalId : Uuid
  membershipVersion : Nat
  deviceId : Uuid
  deviceVersion : Nat
  createdAt : Instant
deriving DecidableEq, Repr

namespace WorkspaceChange

/-- The members of the body of which the digest is taken. -/
def body (c : WorkspaceChange) : List (String × Json) :=
  [("workspace_id", .str c.workspaceId.text), ("workspace_version", .int c.workspaceVersion),
    ("sequence", .int c.sequence), ("previous_digest", .str c.previousDigest),
    ("kind", .str c.kind.value), ("operation", .str c.operation.value),
    ("entity_id", .str c.entityId.text), ("entity_version", .int c.entityVersion),
    ("payload", c.payload.json), ("account_id", .str c.accountId.text),
    ("principal_id", .str c.principalId.text),
    ("membership_version", .int c.membershipVersion), ("device_id", .str c.deviceId.text),
    ("device_version", .int c.deviceVersion),
    ("created_at", .str (Calendar.isoformat c.createdAt ++ "+00:00"))]

/-- `_change_digest` of the body. -/
def digest (D : Digests) (c : WorkspaceChange) : String := D.sha256 (Json.obj c.body).dumps

/-- What the fields of the model `WorkspaceChange` ask. -/
def Valid (c : WorkspaceChange) : Prop :=
  1 ≤ c.workspaceVersion ∧ 1 ≤ c.sequence ∧ isSha256 c.previousDigest = true ∧
    isSha256 c.changeDigest = true ∧ 1 ≤ c.entityVersion ∧ 1 ≤ c.membershipVersion ∧
    1 ≤ c.deviceVersion

instance (c : WorkspaceChange) : Decidable c.Valid := by
  unfold Valid
  infer_instance

end WorkspaceChange

structure SyncPage where
  requestedCursor : Nat
  nextCursor : Nat
  highWatermark : Nat
  earliestRetainedSequence : Nat
  changes : List WorkspaceChange
  hasMore : Bool
deriving DecidableEq, Repr

structure SyncConflictDetail where
  mutationIndex : Nat
  submittedExpectedVersion : Nat
  currentVersion : Nat
  currentProfile : Profile
deriving DecidableEq, Repr

/-- What a reader is told whose cursor is no longer retained. -/
structure ResyncDetail where
  earliestAvailable : Nat
  latestSequence : Nat
  resumeCursor : Nat
  resources : List String
deriving DecidableEq, Repr

inductive SyncError where
  | protocol (code : String)
  | resyncRequired (detail : ResyncDetail)
  | conflict (detail : SyncConflictDetail)
  /-- `SecurityError`, `ValidationError` and `IntegrityError` leave as they are. -/
  | sensitive
  | invalid
  | integrity
deriving DecidableEq, Repr

def genesisDigest : String := String.ofList (List.replicate 64 '0')

end Corvus.Sync
