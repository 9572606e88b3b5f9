import Corvus.Agent.RunAuthorization
import Corvus.Agent.SideEffects
import Corvus.Authorization.Registry

/-!
# Stopping what was allowed to start

A run whose start the adapter has allowed is to be stopped later: its permits may have lapsed,
while its proofs are fresh. Some permits are not asked for at a cancellation, and the grant of
autonomy still is.
-/

namespace Corvus.Agent

open Authorization (AuthorityEvaluationContext AuthorizationRequest BudgetRuntimeVerificationProof
  Verification ClientSurface)
open Dialogue

variable {D : Digests} {V : Verification} {resolves resolves₀ : String → Bool}
  {getSnapshot getSnapshot₀ : (workspaceId snapshotId : Uuid) →
    Option AuthorizationDecisionSnapshot}
  {r r₀ : AgentRunAuthorizationRequest} {i i₀ : VerifiedAgentRunAuthorizationInputs}

/-! ## What the adapter asks for -/

/-- The inputs are those of the request, and all that it needs is in force. -/
structure InputsBound (D : Digests) (resolves : String → Bool) (r : AgentRunAuthorizationRequest)
    (i : VerifiedAgentRunAuthorizationInputs) : Prop where
  transport : r.context.transportPrincipalId.isSome = true
  inputs : InputsMatch r i
  agent_grant : ∀ grant ∈ i.agentGrant, grant.id = r.context.agentGrantId
  named : AutonomyNamed D r i
  in_force : AutonomyInForce r i
  covers : AutonomyCovers i.autonomyGrant r.request
  filesystem : FilesystemAuthorized resolves r i
  provider : ProviderBound D i.providerBinding r.request
  available : r.operation = .cancel ∨ i.providerBinding.status = .available
  cancellation : r.operation = .cancel →
    i.providerBinding.capabilities.providerSideCancellation = .supported
  credential : CredentialBound i.providerBinding r.request i.request.credentialRefId
    i.request.credentialGrantId
  budget : r.operation = .cancel ∨ WithinBudget D r i
  credential_receipt :
    canonicalCredentialEvidenceReceipt D i.evidenceFields i.request i.authorityContext =
      .ok (proofPair r.request.credentialProofId r.request.credentialProofDigest)
  budget_receipt : r.operation = .cancel ∨
    canonicalBudgetEvidenceReceipt D i.evidenceFields i.request i.authorityContext =
      .ok (proofPair r.request.budgetProofId r.request.budgetProofDigest)
  kill_switch : i.killSwitchProofId = r.killSwitchProofId ∧
    i.killSwitchProofDigest = r.killSwitchProofDigest

theorem bindingDenial_eq_ok : bindingDenial D resolves r i = .ok () ↔
    InputsBound D resolves r i := by
  simp only [bindingDenial, bind_eq_ok, require_eq_ok, exists_const]
  constructor
  · rintro ⟨transport, inputs, agentGrant, ⟨named, inForce, covers, filesystem⟩, provider,
      available, cancellation, credential, budget, credentialReceipt, budgetReceipt, killSwitch⟩
    exact ⟨transport, inputs, agentGrant, named, inForce, covers, filesystem, provider, available,
      cancellation, credential, budget, credentialReceipt, budgetReceipt, killSwitch⟩
  · intro b
    exact ⟨b.transport, b.inputs, b.agent_grant, ⟨b.named, b.in_force, b.covers, b.filesystem⟩,
      b.provider, b.available, b.cancellation, b.credential, b.budget, b.credential_receipt,
      b.budget_receipt, b.kill_switch⟩

theorem verdict_eq_ok {reasonCode : String} : verdict V resolves getSnapshot r i = .ok reasonCode ↔
    InputsBound V.toDigests resolves r i ∧ (i.evaluated V).decision = .allow ∧
      snapshotDenial V getSnapshot r i (i.evaluated V).reasonCode = .ok () ∧
      reasonCode = (i.evaluated V).reasonCode := by
  simp only [verdict, bind_eq_ok, require_eq_ok, exists_const]
  constructor
  · rintro ⟨⟨⟩, bound, allows, ⟨⟩, signed, same⟩
    exact ⟨bindingDenial_eq_ok.mp bound, allows, signed, (Except.ok.inj same).symm⟩
  · rintro ⟨bound, allows, signed, rfl⟩
    exact ⟨(), bindingDenial_eq_ok.mpr bound, allows, (), signed, rfl⟩

theorem authorize_allowed : (authorize V resolves getSnapshot r i).allowed = true ↔
    InputsBound V.toDigests resolves r i ∧ (i.evaluated V).decision = .allow ∧
      snapshotDenial V getSnapshot r i (i.evaluated V).reasonCode = .ok () := by
  rw [authorize]
  cases judged : verdict V resolves getSnapshot r i with
  | ok reasonCode =>
    obtain ⟨bound, allows, signed, _⟩ := verdict_eq_ok.mp judged
    exact ⟨fun _ => ⟨bound, allows, signed⟩, fun _ => rfl⟩
  | error reasonCode =>
    refine ⟨fun allowed => Bool.noConfusion allowed, ?_⟩
    rintro ⟨bound, allows, signed⟩
    have passed := verdict_eq_ok.mpr ⟨bound, allows, signed, rfl⟩
    rw [judged] at passed
    exact absurd passed error_ne_ok

/-- A request that the adapter allows, it allows for the reason of the evaluation. -/
theorem authorize_of_allowed (allowed : (authorize V resolves getSnapshot r i).allowed = true) :
    authorize V resolves getSnapshot r i =
      decisionOn V r i true (i.evaluated V).reasonCode := by
  obtain ⟨bound, allows, signed⟩ := authorize_allowed.mp allowed
  rw [authorize, verdict_eq_ok.mpr ⟨bound, allows, signed, rfl⟩]

theorem validReasonCode_of_evaluated (allows : (i.evaluated V).decision = .allow) :
    validReasonCode (i.evaluated V).reasonCode = true := by
  have delegated : validReasonCode "delegated_capability_intersection" = true := by
    decide
  have exact_ : validReasonCode "exact_capability_intersection" = true := by decide
  revert allows
  rw [VerifiedAgentRunAuthorizationInputs.evaluated, Authorization.evaluateCapabilityIntersection]
  split
  · next reasonCode evaluated =>
    intro _
    simp only [Authorization.evaluate, bind_eq_ok] at evaluated
    obtain ⟨-, -, -, -, -, -, -, -, delegation, -, -, -, -, -, -, -, -, -, same⟩ := evaluated
    have code := Except.ok.inj same
    split at code
    · rw [← code]
      exact delegated
    · rw [← code]
      exact exact_
  · intro denied
    exact Authorization.AuthorizationDecision.noConfusion denied

/-! ## Cancellations -/

/-- The proofs that a request may come with anew. -/
structure FreshProofs where
  authorizationProofId : Uuid
  authorizationProofDigest : String
  autonomyGrantDigest : String
  credentialProofId : Option Uuid
  credentialProofDigest : Option String
  budgetProofId : Option Uuid
  budgetProofDigest : Option String
  killSwitchProofId : Uuid
  killSwitchProofDigest : String
  resumeHandleId : Option Uuid

def AgentRunRequest.withFreshProofs (request : AgentRunRequest) (proofs : FreshProofs) :
    AgentRunRequest :=
  { request with
    authorizationProofId := proofs.authorizationProofId
    authorizationProofDigest := proofs.authorizationProofDigest
    autonomyGrantDigest := proofs.autonomyGrantDigest
    credentialProofId := proofs.credentialProofId
    credentialProofDigest := proofs.credentialProofDigest
    budgetProofId := proofs.budgetProofId
    budgetProofDigest := proofs.budgetProofDigest
    killSwitchProofId := proofs.killSwitchProofId
    killSwitchProofDigest := proofs.killSwitchProofDigest
    resumeHandleId := proofs.resumeHandleId }

/-- The call by which a caller asks to stop a run. -/
structure Cancellation where
  context : RequestContext
  surface : ClientSurface
  handle : AgentRunHandle
  proofs : FreshProofs
  killSwitchProofId : Uuid
  killSwitchProofDigest : String

namespace Cancellation

variable (c : Cancellation) (run : AgentRunRequest)

def request : AgentRunRequest := run.withFreshProofs c.proofs

/-- What the adapter is asked about. -/
def asks (D : Digests) : AgentRunAuthorizationRequest :=
  AgentRuntimeCoordinator.authorizationRequest D c.context c.surface .cancel (c.request run)
    (some c.handle) (some c.killSwitchProofId) (some c.killSwitchProofDigest)

def operate (D : Digests) : Consult (Option AgentRunOperationResult) :=
  AgentRuntimeCoordinator.cancel D c.context c.surface c.handle (c.request run)
    c.killSwitchProofId c.killSwitchProofDigest

/-- The call of the runtime. -/
def call : Port := .cancel c.handle c.killSwitchProofId c.killSwitchProofDigest

/-- The coordinator calls the runtime after the exchanges. -/
def Reaches (D : Digests) (t : List (Exchange Port Port.Answer)) : Prop :=
  ∃ k, Follows (c.operate run D) t (.ask c.call k)

end Cancellation

/-- The checks of the fields of a request that its decisions and its records repeat. -/
structure AgentRunRequest.Checked (request : AgentRunRequest) : Prop where
  binding_version : 1 ≤ request.providerBindingVersion
  binding_digest : isSha256 request.providerBindingDigest = true
  authorization : isSha256 request.authorizationProofDigest = true
  autonomy : isSha256 request.autonomyGrantDigest = true
  credential : request.credentialProofDigest.all isSha256 = true
  budget : request.budgetProofDigest.all isSha256 = true
  credential_pair : request.credentialProofId.isNone = request.credentialProofDigest.isNone
  budget_pair : request.budgetProofId.isNone = request.budgetProofDigest.isNone

/-- Inputs of a run after others: its grant may have been revoked, its provider may have
another status, and the time is a later one. -/
structure Later (i₀ i : VerifiedAgentRunAuthorizationInputs) : Prop where
  grant : ∃ revokedAt, i.autonomyGrant = { i₀.autonomyGrant with revokedAt := revokedAt }
  provider : ∃ status at_, i.providerBinding = i₀.providerBinding.checked status at_
  credential_ref : i.request.credentialRefId = i₀.request.credentialRefId
  credential_grant : i.request.credentialGrantId = i₀.request.credentialGrantId
  time : i₀.request.evaluatedAt ≤ i.request.evaluatedAt

/-- The proofs of a request are about the inputs. -/
structure ProofsFresh (D : Digests) (request : AgentRunRequest)
    (i : VerifiedAgentRunAuthorizationInputs) : Prop where
  autonomy : computeAutonomyGrantDigest D i.autonomyGrant = request.autonomyGrantDigest
  credential : canonicalCredentialEvidenceReceipt D i.evidenceFields i.request
    i.authorityContext = .ok (proofPair request.credentialProofId request.credentialProofDigest)

/-- The requester may cancel, and the provider can. -/
structure Permitted (V : Verification)
    (getSnapshot : (workspaceId snapshotId : Uuid) → Option AuthorizationDecisionSnapshot)
    (r : AgentRunAuthorizationRequest) (i : VerifiedAgentRunAuthorizationInputs) : Prop where
  transport : r.context.transportPrincipalId.isSome = true
  inputs : InputsMatch r i
  agent_grant : ∀ grant ∈ i.agentGrant, grant.id = r.context.agentGrantId
  evaluated : (i.evaluated V).decision = .allow
  signed : snapshotDenial V getSnapshot r i (i.evaluated V).reasonCode = .ok ()
  cancellation : i.providerBinding.capabilities.providerSideCancellation = .supported
  kill_switch : i.killSwitchProofId = r.killSwitchProofId ∧
    i.killSwitchProofDigest = r.killSwitchProofDigest

section Cancelling

variable {c : Cancellation}

/-- Later inputs bind a cancellation exactly if the grant is not revoked and every path of the
run still is its own resolution. -/
theorem inputsBound_cancel_iff (bound : InputsBound D resolves₀ r₀ i₀) (later : Later i₀ i)
    (fresh : ProofsFresh D (c.request r₀.request) i)
    (permitted : Permitted V getSnapshot (c.asks r₀.request D) i) :
    InputsBound D resolves (c.asks r₀.request D) i ↔ i.autonomyGrant.revokedAt = none ∧
      ∀ path ∈ r₀.request.filesystemEnvelope, resolves path = true := by
  constructor
  · intro again
    exact ⟨again.in_force.1, fun path mem => (again.filesystem path mem).2.1⟩
  rintro ⟨unrevoked, resolved⟩
  obtain ⟨revokedAt, grant⟩ := later.grant
  obtain ⟨status, at_, provider⟩ := later.provider
  refine
    { transport := permitted.transport
      inputs := permitted.inputs
      agent_grant := permitted.agent_grant
      named := ?_
      in_force := ⟨unrevoked, ?_, .inl rfl, .inl rfl⟩
      covers := ?_
      filesystem := ?_
      provider := ?_
      available := .inl rfl
      cancellation := fun _ => permitted.cancellation
      credential := ?_
      budget := .inl rfl
      credential_receipt := fresh.credential
      budget_receipt := .inl rfl
      kill_switch := permitted.kill_switch }
  · refine ⟨?_, ?_, ?_, fresh.autonomy⟩
    · rw [grant]
      exact bound.named.1
    · rw [grant]
      exact bound.named.2.1
    · rw [grant]
      exact bound.named.2.2.1
  · rw [grant]
    exact le_trans bound.in_force.2.1 later.time
  · rw [grant]
    exact bound.covers
  · intro path mem
    obtain ⟨anchored, _, under⟩ := bound.filesystem path mem
    rw [grant]
    exact ⟨anchored, resolved path mem, under⟩
  · rw [provider]
    exact bound.provider
  · rw [provider, later.credential_ref, later.credential_grant]
    exact bound.credential

theorem authorize_cancel_iff (allowed : (authorize V resolves₀ getSnapshot₀ r₀ i₀).allowed = true)
    (later : Later i₀ i) (fresh : ProofsFresh V.toDigests (c.request r₀.request) i)
    (permitted : Permitted V getSnapshot (c.asks r₀.request V.toDigests) i) :
    (authorize V resolves getSnapshot (c.asks r₀.request V.toDigests) i).allowed = true ↔
      i.autonomyGrant.revokedAt = none ∧
        ∀ path ∈ r₀.request.filesystemEnvelope, resolves path = true := by
  obtain ⟨bound, -, -⟩ := authorize_allowed.mp allowed
  rw [authorize_allowed, inputsBound_cancel_iff bound later fresh permitted]
  constructor
  · rintro ⟨cleared, -⟩
    exact cleared
  · intro cleared
    exact ⟨cleared, permitted.evaluated, permitted.signed⟩

/-! ## The way to the runtime -/

theorem snapshot_of_validate (valid : r.validateAuthorityBinding = .ok ()) :
    r.context.authorizationSnapshotDigest = r.request.authorizationProofDigest := by
  simp only [AgentRunAuthorizationRequest.validateAuthorityBinding, bind_eq_ok] at valid
  obtain ⟨⟨⟩, -, inScope⟩ := valid
  split at inScope
  · simp only [bind_eq_ok, refuse_eq_ok, not_or, not_not] at inScope
    obtain ⟨-, -, -, -, -, same⟩ := inScope
    exact same
  · simp only [bind_eq_ok, refuse_eq_ok, not_or, not_not] at inScope
    obtain ⟨-, -, -, -, -, same⟩ := inScope
    exact same
  all_goals
    obtain ⟨_, raised, _⟩ := bind_eq_ok.mp inScope
    exact absurd raised error_ne_ok

theorem killSwitchProof_of_validate (cancels : r.operation = .cancel)
    (valid : r.validateOperationBinding D = .ok ()) :
    r.currentKillSwitchProofDigest.any isSha256 = true := by
  simp only [AgentRunAuthorizationRequest.validateOperationBinding, cancels, bind_eq_ok,
    refuse_eq_ok, not_or, not_not] at valid
  obtain ⟨-, -, -, -, -, -, -, -, -, -, -, proof⟩ := valid
  exact proof

namespace Cancellation

variable {run : AgentRunRequest}

/-- What the validation of a cancellation has checked. -/
theorem validated (valid : (c.asks run D).validate D = .ok ()) :
    isSha256 c.killSwitchProofDigest = true ∧
      c.context.authorizationSnapshotDigest = c.proofs.authorizationProofDigest := by
  simp only [AgentRunAuthorizationRequest.validate, bind_eq_ok] at valid
  obtain ⟨⟨⟩, authority, operation⟩ := valid
  exact ⟨killSwitchProof_of_validate rfl operation, snapshot_of_validate authority⟩

theorem killSwitchProofDigest_asks (sha : isSha256 c.killSwitchProofDigest = true) :
    (c.asks run D).killSwitchProofDigest = c.killSwitchProofDigest := by
  have empty : isSha256 "" = false := by decide
  rw [AgentRunAuthorizationRequest.killSwitchProofDigest]
  split
  · next none => exact absurd none (Option.some_ne_none _)
  · next blank =>
    rw [Option.some.inj blank, empty] at sha
    exact Bool.noConfusion sha
  · next digest _ same => exact (Option.some.inj same).symm

/-- A clearance tells the decision and the time at which it is checked. -/
theorem clearance_inj {decision decision' : AgentRunAuthorizationDecision}
    {time time' stamp stamp' : Instant} {receipt receipt' : AgentRunAuditReceipt}
    {t : List (Exchange Port Port.Answer)}
    (same : clearance D r decision time stamp receipt =
      clearance D r decision' time' stamp' receipt' ++ t) :
    decision = decision' ∧ time = time' := by
  simp only [clearance, List.cons_append, List.cons.injEq] at same
  obtain ⟨decided, timed, -⟩ := same
  exact ⟨Option.some.inj (eq_of_heq (Exchange.mk.inj decided).2),
    Option.some.inj (eq_of_heq (Exchange.mk.inj timed).2)⟩

variable {reasonCode : String} {time stamp : Instant} {receipt : AgentRunAuditReceipt}

theorem decisionOn_valid (sha : ∀ text, isSha256 (V.sha256 text) = true)
    (checked : (c.request run).Checked) (kill : isSha256 c.killSwitchProofDigest = true)
    (code : validReasonCode reasonCode = true) :
    (decisionOn V (c.asks run V.toDigests) i true reasonCode).valid = true := by
  simp only [AgentRunAuthorizationDecision.valid, Bool.and_eq_true, decide_eq_true_eq]
  refine ⟨⟨⟨⟨⟨⟨⟨⟨code, sha _⟩, sha _⟩, checked.binding_version⟩, checked.binding_digest⟩,
    checked.autonomy⟩, checked.credential⟩, checked.budget⟩, ?_⟩
  rw [decisionOn, killSwitchProofDigest_asks kill]
  exact kill

theorem event_valid (sha : ∀ text, isSha256 (D.sha256 text) = true)
    (checked : (c.request run).Checked) (valid : (c.asks run D).validate D = .ok ())
    (code : validReasonCode reasonCode = true) :
    (AgentRuntimeCoordinator.auditEvent D (c.asks run D) .authorization .allow reasonCode none
      stamp).valid = true := by
  obtain ⟨kill, snapshot⟩ := validated valid
  simp only [AgentRunAuditEvent.valid, Bool.and_eq_true, decide_eq_true_eq]
  refine ⟨⟨⟨⟨⟨⟨⟨⟨⟨⟨⟨⟨⟨⟨checked.binding_version, checked.binding_digest⟩, ?_⟩, sha _⟩, sha _⟩,
    checked.autonomy⟩, checked.credential⟩, checked.budget⟩, ?_⟩, code⟩, rfl⟩, rfl⟩,
    List.mem_cons_self⟩, checked.credential_pair⟩, checked.budget_pair⟩
  · show isSha256 c.context.authorizationSnapshotDigest = true
    rw [snapshot]
    exact checked.authorization
  · show isSha256 (c.asks run D).killSwitchProofDigest = true
    rw [killSwitchProofDigest_asks kill]
    exact kill

/-- A decision that allows the cancellation leads to the runtime exactly if the clock of the
coordinator is not behind its time. -/
theorem reaches_iff (sha : ∀ text, isSha256 (V.sha256 text) = true)
    (checked : (c.request run).Checked)
    (valid : (c.asks run V.toDigests).validate V.toDigests = .ok ())
    (code : validReasonCode reasonCode = true)
    (acknowledged : Acknowledges V.toDigests receipt (AgentRuntimeCoordinator.auditEvent
      V.toDigests (c.asks run V.toDigests) .authorization .allow reasonCode none stamp)) :
    c.Reaches run V.toDigests (clearance V.toDigests (c.asks run V.toDigests)
        (decisionOn V (c.asks run V.toDigests) i true reasonCode) time stamp receipt) ↔
      i.request.evaluatedAt ≤ time := by
  constructor
  · rintro ⟨k, followed⟩
    obtain ⟨q, k', waits, same⟩ | ⟨before, x, after, split, first, second⟩ :=
      follows_bind followed
    · -- the gate itself does not act
      have gating : q.sideEffect = false :=
        (AgentRuntimeCoordinator.authorizationGate_within.follows waits).2.1.1
      have call : c.call = q := by
        cases same
        rfl
      rw [← call] at gating
      exact Bool.noConfusion gating
    cases x with
    | error result =>
      obtain ⟨-, ended⟩ := follows_done.mp second
      exact absurd (congrArg Dialogue.pending ended) (Option.some_ne_none _)
    | ok authorization =>
      obtain ⟨-, ⟨decision, time', stamp', rfl, -, -, bound, -⟩⟩ :=
        AgentRuntimeCoordinator.authorizationGate_ok first
      obtain ⟨sameDecision, sameTime⟩ := clearance_inj split
      have evaluated := bound.evaluated
      rw [← sameDecision, ← sameTime] at evaluated
      exact evaluated
  · intro inTime
    have bound : Bound V.toDigests (c.asks run V.toDigests)
        (decisionOn V (c.asks run V.toDigests) i true reasonCode) time :=
      ⟨rfl, rfl, rfl, rfl, rfl, rfl, rfl, rfl, rfl, rfl, inTime, .inl rfl⟩
    have passed := AgentRuntimeCoordinator.authorizationGate_follows rfl valid
      (decisionOn_valid sha checked (validated valid).1 code) rfl bound
      (event_valid sha checked valid code)
      (AgentRuntimeCoordinator.check_of_acknowledges acknowledged sha)
    exact ⟨_, (passed.bind _).trans (.refl _)⟩

end Cancellation

end Cancelling

/-! ## A run whose permits have lapsed -/

namespace StopSample

open StartSample (digests hex hex_valid)

def verification : Verification := Authorization.Sample.verification digests

/-- The run is stopped after its deadline. -/
def time : AgentRunOperation → Instant
  | .start | .resume => 95
  | .cancel => 105

/-- The verified request of an operation on the run, with its budget. -/
def verified (operation : AgentRunOperation) : AuthorizationRequest :=
  { Authorization.Sample.request hex with
    budgetSnapshotIds := [.ofNat 40]
    budgetSnapshotDigest := some hex
    runtimeLimitDigest := some hex
    budgetUnit := some "tokens"
    budgetRequestedAmount := some 1
    resourceKind := "agent_run"
    resourceId := .ofNat 1
    action := operation.value
    evaluatedAt := time operation }

def budget : BudgetRuntimeVerificationProof where
  requestContextId := .ofNat 8
  workspaceId := Authorization.Sample.workspace
  scopeKind := .workspace
  scopeId := Authorization.Sample.workspace
  action := "agent_run.start"
  budgetSnapshotIds := [.ofNat 40]
  budgetSnapshotDigest := hex
  runtimeLimitDigest := hex
  unit := "tokens"
  requestedAmount := 1
  canonicalAccountIds := [.ofNat 41]
  expectedAccountCount := 1
  minimumRemainingAmount := 10
  runtimeLimitMs := 1000
  runtimeConsumedMs := 0
  periodStartsAt := 0
  periodEndsAt := 100
  observedAt := 90
  expiresAt := 100
  hierarchyVerified := true
  periodNonOverlappingVerified := true
  allAccountsActive := true
  finalized := true

/-- The evidence of an operation, whose budget is the one of the start. -/
def evidence (operation : AgentRunOperation) : AuthorityEvaluationContext :=
  { Authorization.Sample.context digests .active hex with
    budgetRuntimeVerificationProof := some budget
    killSwitchVerificationProof :=
      some { Authorization.Sample.switches with action := operation.value } }

def binding : ProviderBinding :=
  { StartSample.binding with
    workspaceId := Authorization.Sample.workspace
    transport := .localCli
    executableIdentity := some ⟨"/usr/bin/agent", "1.0", hex⟩
    credentialRefId := none
    capabilities := { text := .supported, providerSideCancellation := .supported } }

/-- The request of the run, of which the grant allows every bound. -/
def run : AgentRunRequest :=
  { StartSample.request 1 with
    workspaceId := Authorization.Sample.workspace
    budgetProofId := some (.ofNat 0)
    budgetProofDigest := some hex
    filesystemEnvelope := ["/work/run"] }

def grant (revokedAt : Option Instant) : AutonomyGrant where
  id := .ofNat 6
  workspaceId := Authorization.Sample.workspace
  projectId := none
  profile := .autoWithinLimits
  allowedRoots := ["/work"]
  allowedEffectClasses := []
  deniedEffectClasses := []
  allowedSandboxProfiles := ["default"]
  allowedToolIds := []
  allowedNetworkDestinations := []
  credentialGrantIds := []
  wallClockDeadline := 100
  providerSpendCeiling := ⟨false, 0, 0⟩
  corvusBudgetCeiling := ⟨false, 0, 0⟩
  maxTurns := 1
  maxOutputTokens := 1
  maxOutputBytes := 1
  maxRetries := 0
  approvalCeiling := 0
  alwaysBlockEffects := []
  notificationPolicy := "none"
  summaryPolicy := "none"
  issuerPrincipalId := Authorization.Sample.requester
  issuedAt := 0
  expiresAt := 100
  policyDigest := hex
  revokedAt := revokedAt

def context : RequestContext :=
  { StartSample.context with
    id := .ofNat 8
    deploymentInstanceId := .ofNat 9
    workspaceId := Authorization.Sample.workspace
    workspaceAuthorityGeneration := 1
    authorityStateRoot := Authorization.Sample.hex '4'
    authorityEpochCredentialId := .ofNat 10
    authorityCommitReceiptId := .ofNat 11
    authorityProofDigest := Authorization.Sample.hex '7'
    scopeId := Authorization.Sample.workspace
    scopeDigest := Authorization.Sample.hex 'a'
    audiencePolicyDigest := Authorization.Sample.hex '9'
    requesterId := Authorization.Sample.requester
    clientContextId := .ofNat 16
    transportPrincipalId := some Authorization.Sample.requester
    agentId := Authorization.Sample.agent
    agentGrantId := .ofNat 22 }

def signingKey : WorkspaceSigningKeyVersion :=
  ⟨.ofNat 21, Authorization.Sample.workspace, "ed25519", "key", .active, 0, none, none, none⟩

/-- The decision that the evaluation of the run is allowed. -/
def snapshot : AuthorizationDecisionSnapshot where
  id := .ofNat 4
  workspaceId := Authorization.Sample.workspace
  requestContextId := .ofNat 8
  deploymentInstanceId := .ofNat 9
  authorityEpochCredentialId := .ofNat 10
  authorityGeneration := 1
  authorityStateRoot := Authorization.Sample.hex '4'
  authorityCommitReceiptId := .ofNat 11
  authorityProofDigest := Authorization.Sample.hex '7'
  membershipVersionIds := []
  membershipDigest := hex
  scopeKind := .workspace
  scopeId := Authorization.Sample.workspace
  scopeDigest := Authorization.Sample.hex 'a'
  audiencePolicySnapshotId := .ofNat 15
  audienceDigest := Authorization.Sample.hex '9'
  requesterId := Authorization.Sample.requester
  transportPrincipalId := Authorization.Sample.requester
  accessBundleId := .ofNat 20
  accessBundleVersionDigest := hex
  agentGrantId := .ofNat 22
  delegationGrantIds := []
  agentDelegationDigest := hex
  executionPlacementId := none
  providerConnectionId := none
  credentialGrantId := none
  credentialVersionId := none
  policyDigest := hex
  autonomyPolicyDigest := hex
  budgetSnapshotIds := [.ofNat 40]
  budgetSnapshotDigest := hex
  killSwitchSnapshotIds := [.ofNat 13, .ofNat 14]
  killSwitchSnapshotDigest := Authorization.Sample.hex '8'
  decision := .allow
  reasonCode := "exact_capability_intersection"
  canonicalInputsJson := []
  sourceRecordVersionMap := []
  canonicalDigest := hex
  signingKeyVersionId := .ofNat 21
  snapshotSignature := "key" ++ hex
  createdAt := 50

/-- The right to an operation on the run, in a bundle. -/
def may (operation : AgentRunOperation) (bundle : Authorization.AccessBundle) :
    Authorization.CapabilityGrant :=
  ⟨bundle.id, Authorization.Sample.workspace, "agent_run", .ofNat 1, operation.value, .allow⟩

/-- The inputs of an operation on the run. -/
def inputs (operation : AgentRunOperation) (revokedAt : Option Instant)
    (status : ProviderStatus) : VerifiedAgentRunAuthorizationInputs where
  request := verified operation
  authorityContext := some (evidence operation)
  evidenceFields := ⟨.osKeyring, "", [], hex⟩
  requesterBundle := { Authorization.Sample.requesterBundle with policyDigest := hex }
  requesterGrants := [may operation Authorization.Sample.requesterBundle]
  agentGrant := some Authorization.Sample.agentGrant
  agentBundle := Authorization.Sample.agentBundle
  agentCapabilities := [may operation Authorization.Sample.agentBundle]
  delegationGrants := []
  snapshot := snapshot
  snapshotExpected := ⟨.ofNat 4, hex, hex, .ofNat 21, time operation⟩
  snapshotVerification := ⟨.ofNat 4, hex, hex, .ofNat 21, true⟩
  signingKey := signingKey
  autonomyGrant := grant revokedAt
  providerBinding := binding.checked status (time operation)
  killSwitchProofId := .ofNat 7
  killSwitchProofDigest := hex

/-- The evidence of the start holds before the deadline. -/
def startInputs : VerifiedAgentRunAuthorizationInputs := inputs .start none .available

/-- After the deadline the grant and the budget have expired, and the provider has gone. -/
def cancelInputs (revokedAt : Option Instant) : VerifiedAgentRunAuthorizationInputs :=
  inputs .cancel revokedAt .unavailable

def asksStart : AgentRunAuthorizationRequest :=
  AgentRuntimeCoordinator.authorizationRequest digests context .cli .start run none none none

def proofs : FreshProofs :=
  ⟨.ofNat 4, hex, hex, none, none, some (.ofNat 0), some hex, .ofNat 7, hex, none⟩

def cancellation : Cancellation :=
  ⟨context, .cli, StartSample.handle 1, proofs, .ofNat 7, hex⟩

def persisted (_ _ : Uuid) : Option AuthorizationDecisionSnapshot := some snapshot

def resolved (_ : String) : Bool := true

section Evaluation

variable (operation : AgentRunOperation)

theorem registry_ok : Authorization.registryDenialReason verification (verified operation)
    (evidence operation) (Authorization.Sample.anchor digests) = .ok () := by
  cases operation <;> exact Authorization.Sample.registry_ok digests .active hex

theorem manifest_ok :
    Authorization.manifestDenialReason (verified operation) (evidence operation) = .ok () := by
  cases operation <;> exact Authorization.Sample.manifest_ok digests .active hex

theorem possessed : Authorization.runtimePossessionDenialReason verification (verified operation)
    (evidence operation) Authorization.Sample.instance_ Authorization.Sample.credential
    (Authorization.Sample.anchor digests) = .ok () := by
  cases operation <;> exact Authorization.Sample.possessed digests .active hex

theorem authority_ok : Authorization.authorityDenialReason verification (verified operation)
    (some (evidence operation)) = .ok () := by
  simp only [Authorization.authorityDenialReason, bind_eq_ok]
  refine ⟨_, rfl, Authorization.Sample.instance_, rfl, (), ?_, Authorization.Sample.credential,
    ?_, (), ?_, Authorization.Sample.anchor digests, ?_, (), registry_ok operation, (),
    manifest_ok operation, (), possessed operation, ?_⟩
  all_goals cases operation <;> rfl

theorem evidence_ok (known : operation ≠ .resume) : Authorization.evidenceDenial verification
    (verified operation) (some (evidence operation)) = .ok () := by
  simp only [Authorization.evidenceDenial, bind_eq_ok]
  refine ⟨(), authority_ok operation, (), rfl, (), rfl, ?_⟩
  cases operation with
  | start => rfl
  | resume => exact absurd rfl known
  | cancel => rfl

theorem evaluated (known : operation ≠ .resume) (revokedAt : Option Instant)
    (status : ProviderStatus) : (inputs operation revokedAt status).evaluated verification =
      ⟨.allow, "exact_capability_intersection", [operation.value]⟩ := by
  have intersection : Authorization.evaluate verification (verified operation)
      (some (evidence operation)) Authorization.Sample.requesterBundle
      [may operation Authorization.Sample.requesterBundle] (some Authorization.Sample.agentGrant)
      Authorization.Sample.agentBundle [may operation Authorization.Sample.agentBundle] [] =
      .ok "exact_capability_intersection" := by
    simp only [Authorization.evaluate, bind_eq_ok]
    refine ⟨(), evidence_ok operation known, Authorization.Sample.agentGrant, rfl, (), ?_, (), ?_,
      none, rfl, (), ?_, (), ?_, (), ?_, (), ?_, rfl⟩
    all_goals cases operation <;> rfl
  simp only [VerifiedAgentRunAuthorizationInputs.evaluated,
    Authorization.evaluateCapabilityIntersection, inputs, intersection]
  rfl

theorem signed (request : AgentRunAuthorizationRequest) (same : request.context = context)
    (revokedAt : Option Instant) (status : ProviderStatus) :
    snapshotDenial verification persisted request (inputs operation revokedAt status)
      "exact_capability_intersection" = .ok () := by
  have lower : "ed25519".toLower = "ed25519" := by decide +kernel
  have verified : snapshotVerificationDenial verification snapshot
      ⟨.ofNat 4, hex, hex, .ofNat 21, time operation⟩ signingKey
      ⟨.ofNat 4, hex, hex, .ofNat 21, true⟩ (time operation) = .ok () := by
    simp only [snapshotVerificationDenial, bind_eq_ok, require_eq_ok, refuse_eq_ok, exists_const]
    refine ⟨rfl, trivial, ?_, ⟨rfl, rfl, rfl, rfl⟩, rfl, rfl, rfl, ⟨rfl, rfl, rfl, rfl⟩, trivial,
      lower, ?_⟩
    · cases operation <;> decide
    · show decide (snapshot.snapshotSignature = "key" ++ hex) = true
      exact decide_eq_true rfl
  simp only [snapshotDenial, same, bind_eq_ok, require_eq_ok, exists_const]
  refine ⟨rfl, ⟨rfl, rfl, rfl, rfl, rfl, rfl, rfl, rfl, rfl, rfl, rfl⟩, ?_⟩
  simp only [inputs, verifyAuthorizationDecisionSnapshot, verified]

end Evaluation

theorem start_bound : InputsBound digests resolved asksStart startInputs where
  transport := rfl
  inputs := by decide
  agent_grant := by
    rintro grant ⟨⟩
    rfl
  named := ⟨rfl, rfl, rfl, rfl⟩
  in_force := by decide
  covers := by decide
  filesystem := by decide
  provider := ⟨rfl, rfl, rfl, rfl, rfl, rfl⟩
  available := .inr rfl
  cancellation := fun _ => rfl
  credential := by decide
  budget := .inr ⟨rfl, rfl, rfl⟩
  credential_receipt := rfl
  budget_receipt := .inr (by decide)
  kill_switch := ⟨rfl, rfl⟩

theorem start_allowed :
    (authorize verification resolved persisted asksStart startInputs).allowed = true := by
  have allows := evaluated .start (by decide) none .available
  refine authorize_allowed.mpr ⟨start_bound, ?_, ?_⟩
  · rw [startInputs, allows]
  · rw [startInputs, allows]
    exact signed .start asksStart rfl none .available

theorem permitted (revokedAt : Option Instant) :
    Permitted verification persisted (cancellation.asks run digests) (cancelInputs revokedAt) := by
  have allows := evaluated .cancel (by decide) revokedAt .unavailable
  refine
    { transport := rfl
      inputs := ?_
      agent_grant := ?_
      evaluated := ?_
      signed := ?_
      cancellation := rfl
      kill_switch := ⟨rfl, rfl⟩ }
  · exact (by decide : InputsMatch (cancellation.asks run digests) (cancelInputs none))
  · rintro grant ⟨⟩
    rfl
  · rw [cancelInputs, allows]
  · rw [cancelInputs, allows]
    exact signed .cancel (cancellation.asks run digests) rfl revokedAt .unavailable

theorem later (revokedAt : Option Instant) : Later startInputs (cancelInputs revokedAt) :=
  ⟨⟨revokedAt, rfl⟩, ⟨.unavailable, 105, rfl⟩, rfl, rfl, show (95 : Int) ≤ 105 by decide⟩

theorem fresh (revokedAt : Option Instant) :
    ProofsFresh digests (cancellation.request run) (cancelInputs revokedAt) where
  autonomy := rfl
  credential := rfl

theorem checked : (cancellation.request run).Checked where
  binding_version := by decide
  binding_digest := hex_valid
  authorization := hex_valid
  autonomy := hex_valid
  credential := rfl
  budget := by
    show (some hex).all isSha256 = true
    rw [Option.all_some, hex_valid]
  credential_pair := rfl
  budget_pair := rfl

theorem valid : (cancellation.asks run digests).validate digests = .ok () := by
  simp only [AgentRunAuthorizationRequest.validate, bind_eq_ok]
  refine ⟨(), by rfl, ?_⟩
  simp only [AgentRunAuthorizationRequest.validateOperationBinding, bind_eq_ok]
  refine ⟨(), by rfl, (), by rfl, (), by rfl, bind_eq_ok.mpr ⟨(), by rfl,
    bind_eq_ok.mpr ⟨(), by rfl, refuse_of_not ?_⟩⟩⟩
  rw [not_or, not_not]
  refine ⟨Option.some_ne_none _, ?_⟩
  show (some hex).any isSha256 = true
  rw [Option.any_some, hex_valid]

theorem acknowledged (event : AgentRunAuditEvent) :
    Acknowledges digests (StartSample.receipt 1) event :=
  ⟨rfl, rfl, rfl⟩

end StopSample

end Corvus.Agent
