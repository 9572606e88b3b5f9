import Corvus.Authorization.Evaluator

/-!
# Grants as sets

The evaluator reads the two lists of grants through five questions: is there a grant of
another workspace, does a grant deny the request, and does one allow it, on either side.
So it depends on the grants in them and on nothing else of the lists, an allowing grant
can only help and a denying or foreign one can only hurt.
-/

namespace Corvus.Authorization

/-! ## Order and repetition -/

theorem refuse_congr {ε : Type} {c c' : Prop} [Decidable c] [Decidable c'] {e : ε}
    (h : c ↔ c') : refuse c e = refuse c' e := by
  by_cases holds : c
  · rw [refuse, if_pos holds, refuse, if_pos (h.mp holds)]
  · rw [refuse, if_neg holds, refuse, if_neg fun holds' => holds (h.mpr holds')]

theorem any_congr_of_mem {α : Type} {l l' : List α} (h : ∀ a, a ∈ l ↔ a ∈ l') (p : α → Bool) :
    l.any p = l'.any p := by
  rw [Bool.eq_iff_iff, List.any_eq_true, List.any_eq_true]
  constructor
  · rintro ⟨a, mem, holds⟩
    exact ⟨a, (h a).mp mem, holds⟩
  · rintro ⟨a, mem, holds⟩
    exact ⟨a, (h a).mpr mem, holds⟩

variable {V : Verification} {request : AuthorizationRequest}
  {context : Option AuthorityEvaluationContext} {requesterBundle agentBundle : AccessBundle}
  {requesterGrants requesterGrants' agentCapabilities agentCapabilities' : List CapabilityGrant}
  {agentGrant : Option AgentGrant} {delegationGrants : List DelegationGrant}

theorem mem_workspaceIds {grant : AgentGrant} {id : Uuid} :
    id ∈ workspaceIds requesterBundle agentBundle grant requesterGrants agentCapabilities ↔
      id = requesterBundle.workspaceId ∨ id = agentBundle.workspaceId ∨ id = grant.workspaceId ∨
        (∃ g ∈ requesterGrants, g.workspaceId = id) ∨
        ∃ g ∈ agentCapabilities, g.workspaceId = id := by
  simp [workspaceIds]

theorem evaluate_congr (requester : ∀ g, g ∈ requesterGrants ↔ g ∈ requesterGrants')
    (agent : ∀ g, g ∈ agentCapabilities ↔ g ∈ agentCapabilities') :
    evaluate V request context requesterBundle requesterGrants agentGrant agentBundle
        agentCapabilities delegationGrants =
      evaluate V request context requesterBundle requesterGrants' agentGrant agentBundle
        agentCapabilities' delegationGrants := by
  have same : ∀ (grant : AgentGrant) (id : Uuid),
      id ∈ workspaceIds requesterBundle agentBundle grant requesterGrants agentCapabilities ↔
        id ∈ workspaceIds requesterBundle agentBundle grant requesterGrants'
          agentCapabilities' := by
    intro grant id
    simp only [mem_workspaceIds, requester, agent]
  unfold evaluate
  simp only [any_congr_of_mem requester, any_congr_of_mem agent]
  congr 1
  funext _
  congr 1
  funext grant
  have foreign : (∃ id ∈ workspaceIds requesterBundle agentBundle grant requesterGrants
      agentCapabilities, id ≠ request.workspaceId) ↔
        ∃ id ∈ workspaceIds requesterBundle agentBundle grant requesterGrants'
          agentCapabilities', id ≠ request.workspaceId := by simp only [same]
  rw [refuse_congr foreign]

/-! ## When the evaluation allows -/

/-- What an allowed request rests on apart from the two lists of grants. -/
structure Grounded (V : Verification) (request : AuthorizationRequest)
    (context : Option AuthorityEvaluationContext) (requesterBundle agentBundle : AccessBundle)
    (grant : AgentGrant) (delegation : Option DelegationGrant)
    (delegationGrants : List DelegationGrant) : Prop where
  evidence : evidenceDenial V request context = .ok ()
  workspaces : ∀ id ∈ [requesterBundle.workspaceId, agentBundle.workspaceId, grant.workspaceId],
    id = request.workspaceId
  bundles : bundleDenial request requesterBundle agentBundle grant = .ok ()
  delegated : delegationDenial request grant delegationGrants = .ok delegation
  identities : bundlesMatch request requesterBundle agentBundle grant delegation = true
  current : grantsCurrent request requesterBundle agentBundle grant = true
  audience : audienceClientDenialReason request context = .ok ()

/-- A grant of another workspace, or one that denies the request through its bundle. -/
def Blocks (bundle : AccessBundle) (request : AuthorizationRequest) (grant : CapabilityGrant) :
    Prop :=
  grant.workspaceId ≠ request.workspaceId ∨ grantDenies bundle request grant = true

/-- The request is allowed by the grants of the requester and of the agent. -/
structure Granted (request : AuthorizationRequest) (requesterBundle agentBundle : AccessBundle)
    (requesterGrants agentCapabilities : List CapabilityGrant) : Prop where
  requester : ∃ g ∈ requesterGrants, grantMatches requesterBundle request g = true
  agent : ∃ g ∈ agentCapabilities, grantMatches agentBundle request g = true
  requester_free : ∀ g ∈ requesterGrants, ¬ Blocks requesterBundle request g
  agent_free : ∀ g ∈ agentCapabilities, ¬ Blocks agentBundle request g

theorem allow_iff :
    (evaluateCapabilityIntersection V request context requesterBundle requesterGrants agentGrant
      agentBundle agentCapabilities delegationGrants).decision = .allow ↔
    (∃ grant delegation, agentGrant = some grant ∧ Grounded V request context requesterBundle
      agentBundle grant delegation delegationGrants) ∧
    Granted request requesterBundle agentBundle requesterGrants agentCapabilities := by
  have ok_iff : (evaluateCapabilityIntersection V request context requesterBundle requesterGrants
      agentGrant agentBundle agentCapabilities delegationGrants).decision = .allow ↔
      ∃ reason, evaluate V request context requesterBundle requesterGrants agentGrant agentBundle
        agentCapabilities delegationGrants = .ok reason := by
    unfold evaluateCapabilityIntersection
    cases evaluate V request context requesterBundle requesterGrants agentGrant agentBundle
      agentCapabilities delegationGrants with
    | ok reason => simp
    | error reason => simp [AuthorizationResult.deny]
  rw [ok_iff]
  simp only [evaluate, bind_eq_ok, refuse_eq_ok, present_eq_ok]
  constructor
  · rintro ⟨_, _, evidence, grant, found, _, home, _, bundles, delegation, delegated, _, free, _,
      requester, _, rest, _, audience, _⟩
    have at_home : ∀ id, _ → id = request.workspaceId := fun id mem =>
      not_not.mp fun foreign => home ⟨id, mem_workspaceIds.mpr mem, foreign⟩
    rw [Bool.or_eq_true, not_or, List.any_eq_true, List.any_eq_true] at free
    rw [not_not, List.any_eq_true] at requester
    rw [not_not, Bool.and_eq_true, Bool.and_eq_true, List.any_eq_true] at rest
    refine ⟨⟨grant, delegation, found, evidence, ?_, bundles, delegated, rest.1.1, rest.1.2,
      audience⟩, requester, rest.2, fun g mem blocked => ?_, fun g mem blocked => ?_⟩
    · intro id mem
      refine at_home id ?_
      simp only [List.mem_cons, List.not_mem_nil, or_false] at mem
      tauto
    · rcases blocked with foreign | denies
      · exact foreign (at_home _ (.inr (.inr (.inr (.inl ⟨g, mem, rfl⟩)))))
      · exact free.1 ⟨g, mem, denies⟩
    · rcases blocked with foreign | denies
      · exact foreign (at_home _ (.inr (.inr (.inr (.inr ⟨g, mem, rfl⟩)))))
      · exact free.2 ⟨g, mem, denies⟩
  · rintro ⟨⟨grant, delegation, found, h⟩, granted⟩
    refine ⟨_, (), h.evidence, grant, found, (), ?_, (), h.bundles, delegation, h.delegated, (),
      ?_, (), ?_, (), ?_, (), h.audience, rfl⟩
    · rintro ⟨id, mem, foreign⟩
      rcases mem_workspaceIds.mp mem with rfl | rfl | rfl | ⟨g, inside, rfl⟩ | ⟨g, inside, rfl⟩
      · exact foreign (h.workspaces _ (by simp))
      · exact foreign (h.workspaces _ (by simp))
      · exact foreign (h.workspaces _ (by simp))
      · exact granted.requester_free g inside (.inl foreign)
      · exact granted.agent_free g inside (.inl foreign)
    · rw [Bool.or_eq_true, List.any_eq_true, List.any_eq_true]
      rintro (⟨g, mem, denies⟩ | ⟨g, mem, denies⟩)
      · exact granted.requester_free g mem (.inr denies)
      · exact granted.agent_free g mem (.inr denies)
    · rw [not_not, List.any_eq_true]
      exact granted.requester
    · rw [not_not, h.identities, h.current, Bool.true_and, Bool.true_and, List.any_eq_true]
      exact granted.agent

/-! ## The result as a function of the grants -/

/-- The result of the evaluation, the two lists of grants left open. -/
def resultUnder (V : Verification) (request : AuthorizationRequest)
    (context : Option AuthorityEvaluationContext) (requesterBundle agentBundle : AccessBundle)
    (agentGrant : Option AgentGrant) (delegationGrants : List DelegationGrant)
    (requesterGrants agentCapabilities : List CapabilityGrant) : AuthorizationResult :=
  evaluateCapabilityIntersection V request context requesterBundle requesterGrants agentGrant
    agentBundle agentCapabilities delegationGrants

/-- An allowed result with other lists is allowed with these if these still grant. -/
theorem granted_of_deny
    (deny : (resultUnder V request context requesterBundle agentBundle agentGrant
      delegationGrants requesterGrants agentCapabilities).decision = .deny)
    (allow : (resultUnder V request context requesterBundle agentBundle agentGrant
      delegationGrants requesterGrants' agentCapabilities').decision = .allow) :
    Granted request requesterBundle agentBundle requesterGrants' agentCapabilities' ∧
      ¬ Granted request requesterBundle agentBundle requesterGrants agentCapabilities := by
  obtain ⟨grounded, granted'⟩ := allow_iff.mp allow
  refine ⟨granted', fun granted => ?_⟩
  have allowed := allow_iff.mpr ⟨grounded, granted⟩
  rw [resultUnder, allowed] at deny
  exact absurd deny (by decide)

theorem deny_of_denies
    (denies : (∃ g ∈ requesterGrants, grantDenies requesterBundle request g = true) ∨
      ∃ g ∈ agentCapabilities, grantDenies agentBundle request g = true) :
    (resultUnder V request context requesterBundle agentBundle agentGrant delegationGrants
      requesterGrants agentCapabilities).decision = .deny := by
  cases decided : (resultUnder V request context requesterBundle agentBundle agentGrant
    delegationGrants requesterGrants agentCapabilities).decision with
  | deny => rfl
  | allow =>
    obtain ⟨-, granted⟩ := allow_iff.mp decided
    rcases denies with ⟨g, mem, denies⟩ | ⟨g, mem, denies⟩
    · exact absurd (.inr denies) (granted.requester_free g mem)
    · exact absurd (.inr denies) (granted.agent_free g mem)

/-- Grants that help a request on one side: what was added allows it there. -/
theorem added_of_matches {bundle : AccessBundle} {grants grants' : List CapabilityGrant}
    (found : ∃ g ∈ grants', grantMatches bundle request g = true)
    (missing : ¬ ∃ g ∈ grants, grantMatches bundle request g = true) :
    ∃ g ∈ grants', g ∉ grants ∧ grantMatches bundle request g = true := by
  obtain ⟨g, mem, holds⟩ := found
  exact ⟨g, mem, fun old => missing ⟨g, old, holds⟩, holds⟩

theorem granted_of_subset (requester : requesterGrants ⊆ requesterGrants')
    (agent : agentCapabilities ⊆ agentCapabilities')
    (granted : Granted request requesterBundle agentBundle requesterGrants' agentCapabilities')
    (missing : ¬ Granted request requesterBundle agentBundle requesterGrants agentCapabilities) :
    (∃ g ∈ requesterGrants', g ∉ requesterGrants ∧
        grantMatches requesterBundle request g = true) ∨
      ∃ g ∈ agentCapabilities', g ∉ agentCapabilities ∧
        grantMatches agentBundle request g = true := by
  by_cases matched : ∃ g ∈ requesterGrants, grantMatches requesterBundle request g = true
  · refine .inr (added_of_matches granted.agent fun matched_agent => missing ?_)
    exact ⟨matched, matched_agent, fun g mem => granted.requester_free g (requester mem),
      fun g mem => granted.agent_free g (agent mem)⟩
  · exact .inl (added_of_matches granted.requester matched)

theorem blocked_of_subset (requester : requesterGrants' ⊆ requesterGrants)
    (agent : agentCapabilities' ⊆ agentCapabilities)
    (granted : Granted request requesterBundle agentBundle requesterGrants' agentCapabilities')
    (missing : ¬ Granted request requesterBundle agentBundle requesterGrants agentCapabilities) :
    (∃ g ∈ requesterGrants, g ∉ requesterGrants' ∧ Blocks requesterBundle request g) ∨
      ∃ g ∈ agentCapabilities, g ∉ agentCapabilities' ∧ Blocks agentBundle request g := by
  by_contra none_removed
  rw [not_or] at none_removed
  obtain ⟨matched, mem, holds⟩ := granted.requester
  obtain ⟨matched_agent, mem_agent, holds_agent⟩ := granted.agent
  refine missing ⟨⟨matched, requester mem, holds⟩, ⟨matched_agent, agent mem_agent, holds_agent⟩,
    fun g mem blocked => ?_, fun g mem blocked => ?_⟩
  · refine none_removed.1 ⟨g, mem, fun kept => ?_, blocked⟩
    exact granted.requester_free g kept blocked
  · refine none_removed.2 ⟨g, mem, fun kept => ?_, blocked⟩
    exact granted.agent_free g kept blocked

/-- The result depends on the grants and not on their order or repetition, one denying grant
denies, added grants help only through one that allows the request, and removed grants help
only through one that denies it or belongs to another workspace. -/
theorem result_order_free_deny_overriding_monotone (V : Verification)
    (request : AuthorizationRequest) (context : Option AuthorityEvaluationContext)
    (requesterBundle agentBundle : AccessBundle) (agentGrant : Option AgentGrant)
    (delegationGrants : List DelegationGrant)
    (requesterGrants requesterGrants' agentCapabilities agentCapabilities' :
      List CapabilityGrant) :
    let result := resultUnder V request context requesterBundle agentBundle agentGrant
      delegationGrants
    ((∀ g, g ∈ requesterGrants ↔ g ∈ requesterGrants') →
      (∀ g, g ∈ agentCapabilities ↔ g ∈ agentCapabilities') →
      result requesterGrants agentCapabilities = result requesterGrants' agentCapabilities') ∧
    (((∃ g ∈ requesterGrants, grantDenies requesterBundle request g = true) ∨
        ∃ g ∈ agentCapabilities, grantDenies agentBundle request g = true) →
      (result requesterGrants agentCapabilities).decision = .deny) ∧
    (requesterGrants ⊆ requesterGrants' → agentCapabilities ⊆ agentCapabilities' →
      (result requesterGrants agentCapabilities).decision = .deny →
      (result requesterGrants' agentCapabilities').decision = .allow →
      (∃ g ∈ requesterGrants', g ∉ requesterGrants ∧
          grantMatches requesterBundle request g = true) ∨
        ∃ g ∈ agentCapabilities', g ∉ agentCapabilities ∧
          grantMatches agentBundle request g = true) ∧
    (requesterGrants' ⊆ requesterGrants → agentCapabilities' ⊆ agentCapabilities →
      (result requesterGrants agentCapabilities).decision = .deny →
      (result requesterGrants' agentCapabilities').decision = .allow →
      (∃ g ∈ requesterGrants, g ∉ requesterGrants' ∧ Blocks requesterBundle request g) ∨
        ∃ g ∈ agentCapabilities, g ∉ agentCapabilities' ∧ Blocks agentBundle request g) := by
  refine ⟨fun requester agent => ?_, deny_of_denies, fun requester agent deny allow => ?_,
    fun requester agent deny allow => ?_⟩
  · simp only [resultUnder, evaluateCapabilityIntersection, evaluate_congr requester agent]
  · obtain ⟨granted, missing⟩ := granted_of_deny deny allow
    exact granted_of_subset requester agent granted missing
  · obtain ⟨granted, missing⟩ := granted_of_deny deny allow
    exact blocked_of_subset requester agent granted missing

end Corvus.Authorization
