import Corvus.Agent.Ports

/-!
# The run coordinator

`AgentRuntimeCoordinator` of `application/agent_runtime.py`: it starts, resumes and cancels
runs of agents on behalf of a request. An operation that an exception leaves has no result.
-/

namespace Corvus.Agent

open Authorization (ClientSurface)

structure AgentRunOperationResult where
  requestContextId : Uuid
  operation : AgentRunOperation
  ok : Bool
  reasonCode : String
  handle : Option AgentRunHandle := none
  cancellationResult : Option CancellationResult := none
  identicalStartReplayed : Bool := false
  auditPending : Bool := false
  primaryReasonCode : Option String := none
  primaryOutcome : Option AuditOutcome := none

/-- `_AuthorizedAgentRun`. -/
structure AuthorizedAgentRun where
  request : AgentRunAuthorizationRequest
  receipt : AgentRunAuditReceipt

/-! ## What a request asks for -/

/-- The proof of the kill switch that a decision has to name: the current one, or the one
that the request came with. -/
def AgentRunAuthorizationRequest.killSwitchProofId (r : AgentRunAuthorizationRequest) : Uuid :=
  r.currentKillSwitchProofId.getD r.request.killSwitchProofId

def AgentRunAuthorizationRequest.killSwitchProofDigest (r : AgentRunAuthorizationRequest) :
    String :=
  match r.currentKillSwitchProofDigest with
  | none | some "" => r.request.killSwitchProofDigest
  | some digest => digest

/-- The capabilities that `_required_capabilities` knows of. -/
inductive Capability where
  | text | tools | repositoryRead | repositoryWrite | shell | mcp | sessionResume
  | providerSideBudget | providerSideCancellation

def AgentCapabilities.support (c : AgentCapabilities) : Capability → CapabilitySupport
  | .text => c.text
  | .tools => c.tools
  | .repositoryRead => c.repositoryRead
  | .repositoryWrite => c.repositoryWrite
  | .shell => c.shell
  | .mcp => c.mcp
  | .sessionResume => c.sessionResume
  | .providerSideBudget => c.providerSideBudget
  | .providerSideCancellation => c.providerSideCancellation

def EFFECT_CAPABILITY_PREFIXES : List (String × Capability) := [
  ("mcp", .mcp),
  ("repository.read", .repositoryRead),
  ("repository.write", .repositoryWrite),
  ("shell", .shell)]

def requiredCapabilities (request : AgentRunRequest) (operation : AgentRunOperation) :
    List Capability :=
  if operation = .cancel then [.providerSideCancellation]
  else
    let effectNames := request.requestedEffectClasses ++ request.toolEnvelope
    [.text] ++ (if request.filesystemEnvelope.isEmpty then [] else [.repositoryRead]) ++
      (if request.toolEnvelope.isEmpty then [] else [.tools]) ++
      effectNames.flatMap (fun effectName => EFFECT_CAPABILITY_PREFIXES.filterMap fun entry =>
        if effectName = entry.1 ∨ (entry.1 ++ ".").toList <+: effectName.toList then some entry.2
        else none) ++
      (if request.providerSpendLimit.positive then [.providerSideBudget] else []) ++
      if operation = .resume then [.sessionResume] else []

/-- The checks of a `ProviderHealth`. -/
def ProviderHealth.valid (h : ProviderHealth) : Bool :=
  1 ≤ h.bindingVersion && isSha256 h.bindingDigest

/-- Whether two handles name one run of one provider. -/
def AgentRunHandle.sameRun (a b : AgentRunHandle) : Bool :=
  a.id = b.id && a.runId = b.runId && a.providerBindingId = b.providerBindingId

/-- `_revalidate_cancellation_result`, whose exception tells the coordinator whether the
ids of the handles differ. -/
def CancellationResult.revalidate (r : CancellationResult) : Except Fault CancellationResult :=
  if r.handle.any (!·.valid) ∨ ¬ bounded 200 r.reasonCode then .error ⟨none, false⟩
  else if r.handle.any (·.id ≠ r.handleId) then .error ⟨none, true⟩
  else if r.handle.any fun h => r.terminal ≠ h.state.terminal then .error ⟨none, false⟩
  else .ok r

namespace AgentRuntimeCoordinator

/-! ## Results -/

def auditPending (context : RequestContext) (operation : AgentRunOperation)
    (handle : Option AgentRunHandle) (cancellationResult : Option CancellationResult)
    (identicalStartReplayed : Bool) (primaryReasonCode : String)
    (primaryOutcome : AuditOutcome) : AgentRunOperationResult where
  requestContextId := context.id
  operation := operation
  ok := false
  reasonCode := "agent_run_audit_pending"
  handle := handle
  cancellationResult := cancellationResult
  identicalStartReplayed := identicalStartReplayed
  auditPending := true
  primaryReasonCode := some primaryReasonCode
  primaryOutcome := some primaryOutcome

def failure (context : RequestContext) (operation : AgentRunOperation) (reasonCode : String) :
    AgentRunOperationResult where
  requestContextId := context.id
  operation := operation
  ok := false
  reasonCode := reasonCode

variable (D : Digests) (resolves : String → Bool)

/-! ## Audit -/

def auditEvent (request : AgentRunAuthorizationRequest) (phase : AuditPhase)
    (outcome : AuditOutcome) (reasonCode : String) (handle : Option AgentRunHandle)
    (timestamp : Instant) : AgentRunAuditEvent where
  context := request.context
  clientSurface := request.clientSurface
  operation := request.operation
  runId := request.request.runId
  handleId := (handle.or request.handle).map (·.id)
  providerBindingId := request.request.providerBindingId
  providerBindingVersion := request.request.providerBindingVersion
  providerBindingDigest := request.request.providerBindingDigest
  authorizationSnapshotId := request.context.authorizationSnapshotId
  authorizationSnapshotDigest := request.context.authorizationSnapshotDigest
  canonicalRequestDigest := request.canonicalRequestDigest
  immutableRequestDigest := request.request.immutableRequestDigest D
  autonomyGrantId := request.request.autonomyGrantId
  autonomyGrantDigest := request.request.autonomyGrantDigest
  credentialProofId := request.request.credentialProofId
  credentialProofDigest := request.request.credentialProofDigest
  budgetProofId := request.request.budgetProofId
  budgetProofDigest := request.request.budgetProofDigest
  killSwitchProofId := request.killSwitchProofId
  killSwitchProofDigest := request.killSwitchProofDigest
  phase := phase
  outcome := outcome
  reasonCode := reasonCode
  timestamp := timestamp

/-- Build an event and have it recorded; `none` where either of the two raises. -/
def recordEvent (request : AgentRunAuthorizationRequest) (phase : AuditPhase)
    (outcome : AuditOutcome) (reasonCode : String) (handle : Option AgentRunHandle) :
    Consult (Option (AgentRunAuditEvent × AgentRunAuditReceipt)) := do
  let some timestamp ← Consult.clock | return none
  let event := auditEvent D request phase outcome reasonCode handle timestamp
  if event.valid then
    let some receipt ← Consult.record event | return none
    return some (event, receipt)
  else return none

/-- `hmac.compare_digest` of two texts, which raises unless both are ASCII. -/
def compareDigest (a b : String) : Option Bool :=
  if (a.toList ++ b.toList).all (·.toNat < 128) then some (a = b) else none

/-- Whether a receipt stands next after the previous one, if there is one to follow. -/
def continuityMatches (receipt : AgentRunAuditReceipt) :
    Option AgentRunAuditReceipt → Option Bool
  | none => some true
  | some previous =>
      if receipt.sequence = previous.sequence + 1 then
        compareDigest receipt.previousReceiptDigest previous.receiptDigest
      else some false

/-- `_receipt_acknowledges_event`, or `none` where it raises. -/
def receiptAcknowledgesEvent (receipt : AgentRunAuditReceipt) (event : AgentRunAuditEvent)
    (previousReceipt : Option AgentRunAuditReceipt) : Option Bool := do
  let continuity ← continuityMatches receipt previousReceipt
  if receipt.acknowledged && continuity then
    if ← compareDigest receipt.eventDigest (computeAgentRunAuditEventDigest D event) then
      compareDigest receipt.receiptDigest (computeAgentRunAuditReceiptDigest D receipt.sequence
        receipt.previousReceiptDigest receipt.eventDigest receipt.acknowledged)
    else some false
  else some false

/-- `_record_outcome`. An exception within the recording is caught, one within the check of
the receipt is not. -/
def recordOutcome (authorization : AuthorizedAgentRun) (outcome : AuditOutcome)
    (reasonCode : String) (handle : Option AgentRunHandle) : Consult (Option Bool) := do
  match ← recordEvent D authorization.request AuditPhase.outcome outcome reasonCode handle with
  | none => return some false
  | some (event, receipt) =>
      return receiptAcknowledgesEvent D receipt event (some authorization.receipt)

def postAuthorizationFailure (authorization : AuthorizedAgentRun) (reasonCode : String)
    (handle : Option AgentRunHandle) (cancellationResult : Option CancellationResult) :
    Consult (Option AgentRunOperationResult) := do
  match ← recordOutcome D authorization .failure reasonCode handle with
  | none => return none
  | some false =>
      return some (auditPending authorization.request.context authorization.request.operation
        handle cancellationResult false reasonCode .failure)
  | some true =>
      return some { failure authorization.request.context authorization.request.operation
          reasonCode with
        handle := handle
        cancellationResult := cancellationResult
        primaryReasonCode := some reasonCode
        primaryOutcome := some .failure }

/-! ## The gate -/

/-- `_decision_binding_mismatch`. -/
def decisionBindingMismatch (request : AgentRunAuthorizationRequest)
    (decision : AgentRunAuthorizationDecision) (coordinatorTime : Instant) : Option String :=
  let expected := request.request
  let checks : List (Bool × String) := [
    (decision.authorizationSnapshotId = request.context.authorizationSnapshotId,
      "agent_run_authorization_snapshot_mismatch"),
    (decision.canonicalRequestDigest = request.canonicalRequestDigest,
      "agent_run_request_digest_mismatch"),
    (decision.immutableRequestDigest = expected.immutableRequestDigest D,
      "resume_request_substitution"),
    (decision.providerBindingVersion = expected.providerBindingVersion,
      "provider_binding_digest_mismatch"),
    (decision.providerBindingDigest = expected.providerBindingDigest,
      "provider_binding_digest_mismatch"),
    (decision.autonomyGrantDigest = expected.autonomyGrantDigest,
      "agent_run_autonomy_grant_digest_mismatch"),
    (decision.credentialProofDigest = expected.credentialProofDigest,
      "agent_run_credential_proof_digest_mismatch"),
    (decision.budgetProofDigest = expected.budgetProofDigest,
      "agent_run_budget_proof_digest_mismatch"),
    (decision.killSwitchProofId = request.killSwitchProofId,
      "agent_run_kill_switch_proof_id_mismatch"),
    (decision.killSwitchProofDigest = request.killSwitchProofDigest,
      "agent_run_kill_switch_proof_digest_mismatch"),
    (decision.evaluatedAt ≤ coordinatorTime ∧
        (request.operation = .cancel ∨ coordinatorTime < expected.deadline),
      "agent_run_authorization_time_invalid")]
  (checks.find? (!·.1)).map (·.2)

/-- The request that the authorization port is asked about. -/
def authorizationRequest (context : RequestContext) (clientSurface : ClientSurface)
    (operation : AgentRunOperation) (request : AgentRunRequest)
    (handle : Option AgentRunHandle) (currentKillSwitchProofId : Option Uuid)
    (currentKillSwitchProofDigest : Option String) : AgentRunAuthorizationRequest where
  context := context
  clientSurface := clientSurface
  operation := operation
  request := request
  handle := handle
  canonicalRequestDigest := computeAgentRunRequestDigest D request
  currentKillSwitchProofId := currentKillSwitchProofId
  currentKillSwitchProofDigest := currentKillSwitchProofDigest

/-- `_authorization_gate`. It ends with a result of the whole operation, which an exception
may have taken away, or with the authorization to go on. -/
def authorizationGate (context : RequestContext) (clientSurface : ClientSurface)
    (operation : AgentRunOperation) (request : AgentRunRequest)
    (handle : Option AgentRunHandle) (currentKillSwitchProofId : Option Uuid)
    (currentKillSwitchProofDigest : Option String) :
    Consult (Except (Option AgentRunOperationResult) AuthorizedAgentRun) := do
  let refused (reasonCode : String) : Except (Option AgentRunOperationResult) AuthorizedAgentRun :=
    .error (some (failure context operation reasonCode))
  let authorizationRequest := authorizationRequest D context clientSurface operation request handle
    currentKillSwitchProofId currentKillSwitchProofDigest
  match authorizationRequest.validate D with
  | .error reasonCode => return refused reasonCode
  | .ok () =>
  let some decision ← Consult.authorize authorizationRequest
    | return refused "agent_run_authorization_unavailable"
  if !decision.valid then return refused "agent_run_authorization_unavailable"
  let some coordinatorTime ← Consult.clock
    | return refused "agent_run_authorization_unavailable"
  let bindingMismatch := decisionBindingMismatch D authorizationRequest decision coordinatorTime
  let outcome := if decision.allowed && bindingMismatch.isNone then AuditOutcome.allow else .deny
  let reasonCode := bindingMismatch.getD decision.reasonCode
  let some (event, receipt) ← recordEvent D authorizationRequest .authorization outcome reasonCode
      none
    | return refused "agent_run_audit_unavailable"
  match receiptAcknowledgesEvent D receipt event none with
  | none => return .error none
  | some false => return refused "agent_run_audit_unavailable"
  | some true =>
      if bindingMismatch.isSome || !decision.allowed then return refused reasonCode
      return .ok ⟨authorizationRequest, receipt⟩

/-! ## The provider -/

/-- `_provider_preflight`. -/
def providerPreflight (request : AgentRunAuthorizationRequest) (operation : AgentRunOperation) :
    Consult (Option String) := do
  let runRequest := request.request
  let discovery : ProviderDiscoveryQuery := ⟨runRequest.workspaceId, runRequest.projectId⟩
  let some candidates ← Consult.discover discovery
    | return some "agent_run_provider_unavailable"
  if !candidates.all (·.valid D resolves) then return some "agent_run_provider_unavailable"
  if candidates.any fun item => item.binding.workspaceId ≠ discovery.workspaceId ||
      item.binding.projectId ≠ discovery.projectId then
    return some "agent_run_provider_unavailable"
  let [candidate] := candidates.filter (·.binding.id = runRequest.providerBindingId)
    | return some "agent_run_provider_unavailable"
  if candidate.bindingVersion ≠ runRequest.providerBindingVersion ∨
      candidate.bindingDigest ≠ runRequest.providerBindingDigest then
    return some "provider_binding_digest_mismatch"
  let some runtimeCapabilities ← Consult.capabilities candidate.binding
    | return some "agent_run_provider_unavailable"
  if (requiredCapabilities runRequest operation).any fun capability =>
      candidate.binding.capabilities.support capability ≠ .supported ||
        runtimeCapabilities.support capability ≠ .supported then
    return some "agent_run_capability_unavailable"
  if operation = .cancel then return none
  let some health ← Consult.health candidate.binding
    | return some "agent_run_provider_unavailable"
  if !health.valid then return some "agent_run_provider_unavailable"
  if health.bindingId ≠ runRequest.providerBindingId ∨
      health.bindingVersion ≠ runRequest.providerBindingVersion ∨
      health.bindingDigest ≠ runRequest.providerBindingDigest then
    return some "provider_binding_digest_mismatch"
  if health.status ≠ .available then return some "agent_run_provider_unavailable"
  return none

/-! ## The operations -/

/-- What an operation makes of the answer of the runtime: the checks that follow the call. -/
inductive Verdict where
  | failed (reasonCode : String) (handle : Option AgentRunHandle)
      (cancellationResult : Option CancellationResult)
  | succeeded (reasonCode : String) (handle : AgentRunHandle)
      (cancellationResult : Option CancellationResult) (replayed : Bool)

def startVerdict (request : AgentRunRequest) : Except Fault AgentRunStartResult → Verdict
  | .error fault =>
      .failed (if fault.reasonCode = some "agent_run_idempotency_mismatch" then
        "agent_run_idempotency_mismatch" else "agent_run_start_failed") none none
  | .ok result =>
      if !result.handle.valid then .failed "agent_run_start_failed" none none
      else if result.handle.runId ≠ request.runId ∨
          result.handle.providerBindingId ≠ request.providerBindingId then
        .failed "agent_run_start_handle_mismatch" (some result.handle) none
      else .succeeded "agent_run_started" result.handle none result.replayed

def resumeVerdict (handle : AgentRunHandle) : Option AgentRunHandle → Verdict
  | none => .failed "agent_run_resume_failed" (some handle) none
  | some resumed =>
      if !resumed.valid then .failed "agent_run_resume_failed" (some handle) none
      else if !resumed.sameRun handle then
        .failed "agent_run_resume_handle_mismatch" (some resumed) none
      else .succeeded "agent_run_resumed" resumed none false

def cancelVerdict (handle : AgentRunHandle) (answer : Except Fault CancellationResult) : Verdict :=
  match answer >>= CancellationResult.revalidate with
  | .error fault =>
      .failed (if fault.cancellationHandleIdMismatch then
        "agent_run_cancellation_handle_mismatch" else "agent_run_cancel_failed") (some handle) none
  | .ok result =>
      if result.handleId ≠ handle.id then
        .failed "agent_run_cancellation_handle_mismatch" (some handle) none
      else if !isReasonCode result.reasonCode then
        .failed "agent_run_cancellation_reason_invalid" (some handle) (some result)
      else if !result.accepted && !result.terminal then
        .failed result.reasonCode (some handle) (some result)
      else if result.terminal && result.handle.isNone then
        .failed "agent_run_cancellation_handle_missing" (some handle) (some result)
      else if !(result.handle.getD handle).sameRun handle then
        .failed "agent_run_cancellation_handle_mismatch" (some handle) none
      else .succeeded result.reasonCode (result.handle.getD handle) (some result) false

/-- Record the outcome and report it. -/
def conclude (context : RequestContext) (operation : AgentRunOperation)
    (authorization : AuthorizedAgentRun) :
    Verdict → Consult (Option AgentRunOperationResult)
  | .failed reasonCode handle cancellationResult =>
      postAuthorizationFailure D authorization reasonCode handle cancellationResult
  | .succeeded reasonCode handle cancellationResult replayed => do
      match ← recordOutcome D authorization .success reasonCode (some handle) with
      | none => return none
      | some false =>
          return some (auditPending context operation (some handle) cancellationResult replayed
            reasonCode .success)
      | some true =>
          return some
            { requestContextId := context.id
              operation := operation
              ok := true
              reasonCode := reasonCode
              handle := some handle
              cancellationResult := cancellationResult
              identicalStartReplayed := replayed }

/-- A refusal of the preflight. It is recorded where exceptions are caught, so that one of
the recording has another failure recorded. -/
def preflightFailure (authorization : AuthorizedAgentRun) (reasonCode caught : String)
    (handle : Option AgentRunHandle) : Consult (Option AgentRunOperationResult) := do
  match ← postAuthorizationFailure D authorization reasonCode handle none with
  | some result => return some result
  | none => postAuthorizationFailure D authorization caught handle none

def start (context : RequestContext) (clientSurface : ClientSurface)
    (request : AgentRunRequest) : Consult (Option AgentRunOperationResult) := do
  match ← authorizationGate D context clientSurface .start request none none none with
  | .error result => return result
  | .ok authorization =>
      match ← providerPreflight D resolves authorization.request .start with
      | some reasonCode =>
          preflightFailure D authorization reasonCode "agent_run_start_failed" none
      | none =>
          let answer ← Consult.start request
          conclude D context .start authorization (startVerdict request answer)

def resume (context : RequestContext) (clientSurface : ClientSurface) (handle : AgentRunHandle)
    (requestWithFreshProofs : AgentRunRequest) : Consult (Option AgentRunOperationResult) := do
  match ← authorizationGate D context clientSurface .resume requestWithFreshProofs (some handle)
      none none with
  | .error result => return result
  | .ok authorization =>
      match ← providerPreflight D resolves authorization.request .resume with
      | some reasonCode =>
          preflightFailure D authorization reasonCode "agent_run_resume_failed" (some handle)
      | none =>
          let answer ← Consult.resume requestWithFreshProofs handle
          conclude D context .resume authorization (resumeVerdict handle answer)

def cancel (context : RequestContext) (clientSurface : ClientSurface) (handle : AgentRunHandle)
    (request : AgentRunRequest) (currentKillSwitchProofId : Uuid)
    (currentKillSwitchProofDigest : String) : Consult (Option AgentRunOperationResult) := do
  match ← authorizationGate D context clientSurface .cancel request (some handle)
      (some currentKillSwitchProofId) (some currentKillSwitchProofDigest) with
  | .error result => return result
  | .ok authorization =>
      let answer ← Consult.cancel handle currentKillSwitchProofId currentKillSwitchProofDigest
      conclude D context .cancel authorization (cancelVerdict handle answer)

end AgentRuntimeCoordinator

end Corvus.Agent
