import Corvus.Agent.Providers
import Corvus.Library.Except
import Corvus.Library.Run
import Mathlib.Data.Prod.Lex
import Mathlib.Data.List.Sort

/-!
# The provider registry

`infrastructure/agent_runtimes/registry.py`. A discovery asks every adapter in the order of
their keys and admits what they answer one candidate after the other, on a copy of the
routes that takes the place of the routes at the end. A routed binding must come back as
it was, its last health check included, so a discovery that finds it with a newer check is
refused.
-/

namespace Corvus.Agent

structure ProviderAdapterKey where
  family : ProviderFamily
  transport : ProviderTransport
deriving DecidableEq, Repr

/-- `_BindingRoute`. -/
structure BindingRoute where
  key : ProviderAdapterKey
  binding : ProviderBinding
deriving DecidableEq

/-- The adapters in the order of their keys, and the routes by the id of the binding. -/
structure ProviderRegistry where
  adapters : List ProviderAdapterKey
  routes : Uuid → Option BindingRoute

/-- `_key_order`. -/
def keyOrder (key : ProviderAdapterKey) : String ×ₗ String :=
  toLex (key.family.value, key.transport.value)

/-- `_binding_key`. -/
def bindingKey (binding : ProviderBinding) : ProviderAdapterKey :=
  ⟨binding.family, binding.transport⟩

/-- A factory, with whether its builder returns an adapter. -/
structure ProviderAdapterFactory where
  key : ProviderAdapterKey
  builds : Bool

/-- `ProviderRegistry.__init__`. -/
def ProviderRegistry.init (factories : List ProviderAdapterFactory) :
    Except String ProviderRegistry := do
  refuse (¬ (factories.map (·.key)).Nodup) "provider_registry_duplicate_factory"
  let ordered := factories.insertionSort fun f g => keyOrder f.key ≤ keyOrder g.key
  refuse (∃ factory ∈ ordered, factory.builds = false) "provider_registry_factory_creation_failed"
  return ⟨ordered.map (·.key), fun _ => none⟩

/-! ## Discovery -/

/-- What an adapter hands over as a candidate. -/
inductive Offer where
  | other
  | candidate (candidate : ProviderCandidate)

/-- The answer of an adapter to a query. -/
inductive Answer where
  | raised
  | other
  | offers (offers : List Offer)

/-- A call of `discover`, with what the adapters and the file system answer to it. -/
structure Discovery where
  query : ProviderDiscoveryQuery
  resolves : String → Bool
  answers : ProviderAdapterKey → Answer

/-- What the loop over the candidates keeps. -/
structure Scan where
  candidates : List (ProviderAdapterKey × ProviderCandidate)
  seen : List Uuid
  nextRoutes : Uuid → Option BindingRoute

/-- `_revalidate_candidate`. -/
def revalidateCandidate (D : Digests) (resolves : String → Bool) :
    Offer → Except String ProviderCandidate
  | .other => .error "provider_registry_candidate_invalid"
  | .candidate c =>
      if c.valid D resolves then .ok c else .error "provider_registry_candidate_invalid"

/-- The body of the loop over the candidates of an adapter. -/
def admitCandidate (D : Digests) (call : Discovery) (key : ProviderAdapterKey) (s : Scan) (offer : Offer) :
    Except String Scan := do
  let candidate ← revalidateCandidate D call.resolves offer
  let binding := candidate.binding
  refuse (binding.workspaceId ≠ call.query.workspaceId ∨ binding.projectId ≠ call.query.projectId)
    "provider_registry_candidate_scope_invalid"
  refuse (bindingKey binding ≠ key) "provider_registry_candidate_key_invalid"
  refuse (binding.id ∈ s.seen) "provider_registry_duplicate_binding"
  refuse (∃ existing ∈ s.nextRoutes binding.id, existing.key ≠ key ∨ existing.binding ≠ binding)
    "provider_registry_duplicate_binding"
  return ⟨s.candidates ++ [(key, candidate)], binding.id :: s.seen,
    Function.update s.nextRoutes binding.id (some ⟨key, binding⟩)⟩

/-- The body of the loop over the adapters. -/
def poll (D : Digests) (call : Discovery) (s : Scan) (key : ProviderAdapterKey) :
    Except String Scan :=
  match call.answers key with
  | .raised => .error "provider_registry_discovery_failed"
  | .other => .error "provider_registry_candidate_invalid"
  | .offers offers => offers.foldlM (admitCandidate D call key) s

/-- The order of the candidates that are returned. -/
def candidateOrder (candidate : ProviderAdapterKey × ProviderCandidate) :
    (String ×ₗ String) ×ₗ Nat :=
  toLex (keyOrder candidate.1, candidate.2.binding.id.bits.toNat)

/-- `ProviderRegistry.discover`: the registry after the call, and what it returns. -/
def discover (D : Digests) (registry : ProviderRegistry) (call : Discovery) :
    ProviderRegistry × Except String (List ProviderCandidate) :=
  match registry.adapters.foldlM (poll D call) ⟨[], [], registry.routes⟩ with
  | .error e => (registry, .error e)
  | .ok s =>
      ({ registry with routes := s.nextRoutes },
        .ok ((s.candidates.insertionSort fun a b => candidateOrder a ≤ candidateOrder b).map
          (·.2)))

/-! ## Operations on a binding -/

/-- `_adapter_for_binding`. -/
def adapterForBinding (registry : ProviderRegistry) (binding : ProviderBinding) :
    Except String ProviderAdapterKey := do
  let route ← present (registry.routes binding.id) "provider_registry_binding_unknown"
  refuse (route.key ≠ bindingKey binding ∨ route.binding ≠ binding)
    "provider_registry_binding_key_invalid"
  return route.key

/-- `_intersect_capability`. -/
def intersectCapability (bindingSupport runtimeSupport : CapabilitySupport) : CapabilitySupport :=
  if bindingSupport = .unsupported ∨ runtimeSupport = .unsupported then .unsupported
  else if bindingSupport = .supported ∧ runtimeSupport = .supported then .supported
  else .unverified

/-- The capabilities field by field. -/
def intersect (binding runtime : AgentCapabilities) : AgentCapabilities where
  text := intersectCapability binding.text runtime.text
  structuredOutput := intersectCapability binding.structuredOutput runtime.structuredOutput
  streaming := intersectCapability binding.streaming runtime.streaming
  images := intersectCapability binding.images runtime.images
  tools := intersectCapability binding.tools runtime.tools
  repositoryRead := intersectCapability binding.repositoryRead runtime.repositoryRead
  repositoryWrite := intersectCapability binding.repositoryWrite runtime.repositoryWrite
  shell := intersectCapability binding.shell runtime.shell
  mcp := intersectCapability binding.mcp runtime.mcp
  sessionResume := intersectCapability binding.sessionResume runtime.sessionResume
  usageCostReporting := intersectCapability binding.usageCostReporting runtime.usageCostReporting
  providerSideBudget := intersectCapability binding.providerSideBudget runtime.providerSideBudget
  providerSideCancellation :=
    intersectCapability binding.providerSideCancellation runtime.providerSideCancellation

/-- `ProviderRegistry.capabilities`, of what the adapter returns, if it returns any. -/
def capabilities (registry : ProviderRegistry) (binding : ProviderBinding)
    (runtime : ProviderAdapterKey → Option AgentCapabilities) : Except String AgentCapabilities := do
  let key ← adapterForBinding registry binding
  let found ← present (runtime key) "provider_registry_operation_failed"
  return intersect binding.capabilities found

/-- `ProviderRegistry.health`. -/
def health (D : Digests) (registry : ProviderRegistry) (binding : ProviderBinding)
    (runtime : ProviderAdapterKey → Option ProviderHealth) : Except String ProviderHealth := do
  let key ← adapterForBinding registry binding
  let found ← present (runtime key) "provider_registry_operation_failed"
  refuse (found.bindingId ≠ binding.id ∨ found.bindingVersion ≠ binding.version ∨
      found.bindingDigest ≠ computeProviderBindingDigest D binding)
    "provider_registry_operation_failed"
  return found

end Corvus.Agent
