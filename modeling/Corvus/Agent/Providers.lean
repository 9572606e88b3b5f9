import Corvus.Agent.Events

/-!
# Providers

The bindings of `domain/agent_runtime.py`, the digest that identifies one whatever its
health, and the candidates and health reports that carry it.
-/

namespace Corvus.Agent

inductive ProviderFamily where
  | codex | claude | gemini | cursor | xai | openai | anthropic | openrouter | ollama
  | openaiCompatible
deriving DecidableEq, Repr

def ProviderFamily.value : ProviderFamily → String
  | codex => "codex"
  | claude => "claude"
  | gemini => "gemini"
  | cursor => "cursor"
  | xai => "xai"
  | openai => "openai"
  | anthropic => "anthropic"
  | openrouter => "openrouter"
  | ollama => "ollama"
  | openaiCompatible => "openai_compatible"

inductive ProviderTransport where
  | localCli | httpApi
deriving DecidableEq, Repr

def ProviderTransport.value : ProviderTransport → String
  | localCli => "local_cli"
  | httpApi => "http_api"

inductive ProviderStatus where
  | available | needsLogin | unavailable | preview | unhealthy
deriving DecidableEq, Repr

inductive CapabilitySupport where
  | supported | unsupported | unverified
deriving DecidableEq, Repr

def CapabilitySupport.value : CapabilitySupport → String
  | supported => "supported"
  | unsupported => "unsupported"
  | unverified => "unverified"

structure AgentCapabilities where
  text : CapabilitySupport := .supported
  structuredOutput : CapabilitySupport := .unverified
  streaming : CapabilitySupport := .unverified
  images : CapabilitySupport := .unverified
  tools : CapabilitySupport := .unverified
  repositoryRead : CapabilitySupport := .unverified
  repositoryWrite : CapabilitySupport := .unverified
  shell : CapabilitySupport := .unverified
  mcp : CapabilitySupport := .unverified
  sessionResume : CapabilitySupport := .unverified
  usageCostReporting : CapabilitySupport := .unverified
  providerSideBudget : CapabilitySupport := .unverified
  providerSideCancellation : CapabilitySupport := .unverified
deriving DecidableEq, Repr

structure ExecutableIdentity where
  executablePath : String
  version : String
  sha256Digest : String
deriving DecidableEq, Repr

structure ProviderBinding where
  id : Uuid
  workspaceId : Uuid
  projectId : Option Uuid
  family : ProviderFamily
  transport : ProviderTransport
  status : ProviderStatus
  executableIdentity : Option ExecutableIdentity
  credentialRefId : Option Uuid
  model : String
  capabilities : AgentCapabilities
  healthCheckedAt : Instant
  version : Nat
  fallbackBindingIds : List Uuid
  dataEgressDisclosure : String
  serverStorageDisclosure : String
deriving DecidableEq, Repr

/-! ## Validation -/

/-- `^[0-9a-f]{64}$`. -/
def isSha256 (s : String) : Bool :=
  s.length = 64 && s.toList.all fun c => ('0' ≤ c && c ≤ '9') || ('a' ≤ c && c ≤ 'f')

theorem isSha256_replicate {c : Char} (digit : (('0' ≤ c && c ≤ '9') || ('a' ≤ c && c ≤ 'f')) = true) :
    isSha256 (String.ofList (List.replicate 64 c)) = true := by
  rw [isSha256, String.length_ofList, String.toList_ofList, List.length_replicate,
    List.all_replicate]
  simpa using digit

/-- `Field(min_length=1, max_length=limit)`. -/
def bounded (limit : Nat) (s : String) : Bool := 1 ≤ s.length && s.length ≤ limit

/-- The checks of an `ExecutableIdentity`, of which the file system answers the one on the
path. -/
def ExecutableIdentity.valid (resolves : String → Bool) (i : ExecutableIdentity) : Bool :=
  resolves i.executablePath && bounded 200 i.version && isSha256 i.sha256Digest

/-- The checks of a `ProviderBinding`. -/
def ProviderBinding.valid (resolves : String → Bool) (b : ProviderBinding) : Bool :=
  b.executableIdentity.all (·.valid resolves) && bounded 200 b.model && 1 ≤ b.version &&
    bounded 2000 b.dataEgressDisclosure && bounded 2000 b.serverStorageDisclosure &&
    (match b.transport with
      | .localCli => b.executableIdentity.isSome && b.credentialRefId.isNone
      | .httpApi => b.credentialRefId.isSome && b.executableIdentity.isNone) &&
    b.id ∉ b.fallbackBindingIds && b.fallbackBindingIds.Nodup

/-! ## Digests -/

def AgentCapabilities.json (c : AgentCapabilities) : Json :=
  .obj [
    ("text", .str c.text.value),
    ("structured_output", .str c.structuredOutput.value),
    ("streaming", .str c.streaming.value),
    ("images", .str c.images.value),
    ("tools", .str c.tools.value),
    ("repository_read", .str c.repositoryRead.value),
    ("repository_write", .str c.repositoryWrite.value),
    ("shell", .str c.shell.value),
    ("mcp", .str c.mcp.value),
    ("session_resume", .str c.sessionResume.value),
    ("usage_cost_reporting", .str c.usageCostReporting.value),
    ("provider_side_budget", .str c.providerSideBudget.value),
    ("provider_side_cancellation", .str c.providerSideCancellation.value)]

def ExecutableIdentity.json (i : ExecutableIdentity) : Json :=
  .obj [
    ("executable_path", .str i.executablePath),
    ("version", .str i.version),
    ("sha256_digest", .str i.sha256Digest)]

/-- `compute_provider_binding_digest`, of every field but the time and the outcome of the
last health check. -/
def computeProviderBindingDigest (D : Digests) (b : ProviderBinding) : String :=
  D.sha256 (Json.dumps (.obj [
    ("id", .str b.id.text),
    ("workspace_id", .str b.workspaceId.text),
    ("project_id", optional Uuid.text b.projectId),
    ("family", .str b.family.value),
    ("transport", .str b.transport.value),
    ("executable_identity", (b.executableIdentity.map ExecutableIdentity.json).getD .null),
    ("credential_ref_id", optional Uuid.text b.credentialRefId),
    ("model", .str b.model),
    ("capabilities", b.capabilities.json),
    ("version", .int b.version),
    ("fallback_binding_ids", .arr (b.fallbackBindingIds.map fun id => .str id.text)),
    ("data_egress_disclosure", .str b.dataEgressDisclosure),
    ("server_storage_disclosure", .str b.serverStorageDisclosure)]))

/-- The binding as another health check would leave it. -/
def ProviderBinding.checked (b : ProviderBinding) (status : ProviderStatus) (at_ : Instant) :
    ProviderBinding :=
  { b with status := status, healthCheckedAt := at_ }

/-! ## Discovery and health -/

structure ProviderDiscoveryQuery where
  workspaceId : Uuid
  projectId : Option Uuid

structure ProviderCandidate where
  binding : ProviderBinding
  bindingVersion : Nat
  bindingDigest : String

/-- The checks of a `ProviderCandidate`. -/
def ProviderCandidate.valid (D : Digests) (resolves : String → Bool) (c : ProviderCandidate) :
    Bool :=
  c.binding.valid resolves && isSha256 c.bindingDigest && c.bindingVersion = c.binding.version &&
    c.bindingDigest = computeProviderBindingDigest D c.binding

structure ProviderHealth where
  bindingId : Uuid
  bindingVersion : Nat
  bindingDigest : String
  status : ProviderStatus
  observedAt : Instant

end Corvus.Agent
