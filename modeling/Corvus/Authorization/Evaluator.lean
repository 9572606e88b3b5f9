import Corvus.Authorization.Denials

/-!
# The evaluation of a capability

`evaluate_capability_intersection` of `application/authorization.py`. The checks come in
the order of the source; what they leave is the intersection of the grants of the
requester with those of the agent.
-/

namespace Corvus.Authorization

/-- `_bundle_is_current`. -/
def bundleIsCurrent (bundle : AccessBundle) (now : Instant) : Bool :=
  bundle.revokedAt = none ∧ ∀ expiry ∈ bundle.expiresAt, now < expiry

/-- `_grant_targets_request`. -/
def grantTargetsRequest (bundle : AccessBundle) (request : AuthorizationRequest)
    (grant : CapabilityGrant) : Bool :=
  grant.bundleId = bundle.id ∧ grant.workspaceId = request.workspaceId ∧
    grant.resourceKind = request.resourceKind ∧ grant.resourceId = request.resourceId ∧
    grant.action = request.action

/-- `_grant_matches`. -/
def grantMatches (bundle : AccessBundle) (request : AuthorizationRequest)
    (grant : CapabilityGrant) : Bool :=
  grantTargetsRequest bundle request grant && grant.effect = .allow

/-- A grant that denies the request through its own bundle. -/
def grantDenies (bundle : AccessBundle) (request : AuthorizationRequest)
    (grant : CapabilityGrant) : Bool :=
  grantTargetsRequest bundle request grant && grant.effect = .deny

/-- A time limit that has been reached. -/
def expired (limit : Option Instant) (now : Instant) : Bool := ∃ expiry ∈ limit, now ≥ expiry

/-- The evidence around the request, before any grant is looked at. -/
def evidenceDenial (V : Verification) (request : AuthorizationRequest)
    (context : Option AuthorityEvaluationContext) : Check := do
  authorityDenialReason V request context
  placementDenialReason request context
  credentialDenialReason request context
  if request.resourceKind = "agent_run" ∧ request.action = "agent_run.cancel" then pure ()
  else budgetRuntimeDenialReason request context
  killSwitchDenialReason request context

/-- The workspaces of everything that grants. -/
def workspaceIds (requesterBundle agentBundle : AccessBundle) (agentGrant : AgentGrant)
    (requesterGrants agentCapabilities : List CapabilityGrant) : List Uuid :=
  requesterBundle.workspaceId :: agentBundle.workspaceId :: agentGrant.workspaceId ::
    (requesterGrants.map (·.workspaceId) ++ agentCapabilities.map (·.workspaceId))

/-- The scope and the validity of the bundles and of the grant of the agent. -/
def bundleDenial (request : AuthorizationRequest) (requesterBundle agentBundle : AccessBundle)
    (agentGrant : AgentGrant) : Check := do
  refuse (∃ bundle ∈ [requesterBundle, agentBundle],
      (bundle.scopeKind, bundle.scopeId) ≠ (request.scopeKind, request.scopeId)) "scope_mismatch"
  refuse (requesterBundle.revokedAt ≠ none) "requester_grant_revoked"
  refuse (expired requesterBundle.expiresAt request.evaluatedAt) "requester_grant_expired"
  refuse (agentBundle.revokedAt ≠ none) "agent_bundle_revoked"
  refuse (expired agentBundle.expiresAt request.evaluatedAt) "agent_bundle_expired"
  refuse (agentGrant.revokedAt ≠ none) "agent_grant_revoked"
  refuse (expired agentGrant.expiresAt request.evaluatedAt) "agent_grant_expired"

/-- The delegation, if there is one. -/
def delegationDenial (request : AuthorizationRequest) (agentGrant : AgentGrant) :
    List DelegationGrant → Except String (Option DelegationGrant)
  | [] => return none
  | [delegation] => do
      refuse (delegation.parentAgentGrantId ≠ agentGrant.id) "delegation_parent_mismatch"
      refuse (delegation.childAgentId ≠ request.actingAgentId) "delegation_child_mismatch"
      refuse (delegation.revokedAt ≠ none) "delegation_revoked"
      refuse (request.evaluatedAt < delegation.issuedAt) "delegation_not_yet_active"
      refuse (request.evaluatedAt ≥ delegation.expiresAt) "delegation_expired"
      refuse (delegation.depthLimit < 1) "delegation_depth_exceeded"
      refuse (request.action ∉ delegation.capabilities) "delegation_overreach"
      return some delegation
  | _ :: _ :: _ => throw "delegation_chain_unverifiable"

/-- `bundles_match`. -/
def bundlesMatch (request : AuthorizationRequest) (requesterBundle agentBundle : AccessBundle)
    (agentGrant : AgentGrant) (delegation : Option DelegationGrant) : Bool :=
  let expectedBundlePrincipalId :=
    if delegation.isSome then agentGrant.agentId else request.actingAgentId
  requesterBundle.workspaceId = request.workspaceId ∧
    requesterBundle.principalId = request.requesterId ∧
    requesterBundle.scopeKind = request.scopeKind ∧
    requesterBundle.scopeId = request.scopeId ∧
    agentBundle.workspaceId = request.workspaceId ∧
    agentBundle.principalId = expectedBundlePrincipalId ∧
    agentBundle.scopeKind = request.scopeKind ∧
    agentBundle.scopeId = request.scopeId ∧
    agentGrant.workspaceId = request.workspaceId ∧
    agentGrant.agentId = expectedBundlePrincipalId ∧
    agentGrant.capabilityBundleId = agentBundle.id

/-- `grants_current`. -/
def grantsCurrent (request : AuthorizationRequest) (requesterBundle agentBundle : AccessBundle)
    (agentGrant : AgentGrant) : Bool :=
  bundleIsCurrent requesterBundle request.evaluatedAt &&
    bundleIsCurrent agentBundle request.evaluatedAt && agentGrant.revokedAt = none &&
    ∀ expiry ∈ agentGrant.expiresAt, request.evaluatedAt < expiry

/-- What the evaluation raises where it denies, and the reason it gives where it allows. -/
def evaluate (V : Verification) (request : AuthorizationRequest)
    (authorityContext : Option AuthorityEvaluationContext) (requesterBundle : AccessBundle)
    (requesterGrants : List CapabilityGrant) (agentGrant : Option AgentGrant)
    (agentBundle : AccessBundle) (agentCapabilities : List CapabilityGrant)
    (delegationGrants : List DelegationGrant) : Except String String := do
  evidenceDenial V request authorityContext
  let agentGrant ← present agentGrant "no_agent_grant"
  -- the set is never empty, so it is the workspace alone when every member is
  refuse (∃ id ∈ workspaceIds requesterBundle agentBundle agentGrant requesterGrants
      agentCapabilities, id ≠ request.workspaceId) "cross_workspace_grant"
  bundleDenial request requesterBundle agentBundle agentGrant
  let delegation ← delegationDenial request agentGrant delegationGrants
  refuse (requesterGrants.any (grantDenies requesterBundle request) ||
      agentCapabilities.any (grantDenies agentBundle request)) "explicit_deny"
  refuse (¬ requesterGrants.any (grantMatches requesterBundle request)) "no_requester_grant"
  refuse (¬ (bundlesMatch request requesterBundle agentBundle agentGrant delegation &&
      grantsCurrent request requesterBundle agentBundle agentGrant &&
      agentCapabilities.any (grantMatches agentBundle request))) "capability_intersection_missing"
  audienceClientDenialReason request authorityContext
  return if delegation.isSome then "delegated_capability_intersection"
    else "exact_capability_intersection"

/-- `evaluate_capability_intersection`. -/
def evaluateCapabilityIntersection (V : Verification) (request : AuthorizationRequest)
    (authorityContext : Option AuthorityEvaluationContext) (requesterBundle : AccessBundle)
    (requesterGrants : List CapabilityGrant) (agentGrant : Option AgentGrant)
    (agentBundle : AccessBundle) (agentCapabilities : List CapabilityGrant)
    (delegationGrants : List DelegationGrant) : AuthorizationResult :=
  match evaluate V request authorityContext requesterBundle requesterGrants agentGrant agentBundle
    agentCapabilities delegationGrants with
  | .ok reasonCode => ⟨.allow, reasonCode, [request.action]⟩
  | .error reasonCode => .deny reasonCode

end Corvus.Authorization
