import Corvus.Agent.Coordinator

/-!
# No side effect without authorization and audit

Whatever the ports answer, an operation of the coordinator acts on a run at most once, and
only after a decision that allows this very request and an acknowledged record of it.
-/

namespace Corvus.Agent

open Authorization (ClientSurface)
open Dialogue

/-! ## Operations -/

/-- An operation with the arguments of its caller. -/
inductive Operation where
  | start (request : AgentRunRequest)
  | resume (handle : AgentRunHandle) (requestWithFreshProofs : AgentRunRequest)
  | cancel (handle : AgentRunHandle) (request : AgentRunRequest)
      (currentKillSwitchProofId : Uuid) (currentKillSwitchProofDigest : String)

open AgentRuntimeCoordinator

namespace Operation

variable (D : Digests) (resolves : String → Bool) (context : RequestContext)
  (surface : ClientSurface)

def run : Operation → Consult (Option AgentRunOperationResult)
  | start request => AgentRuntimeCoordinator.start D resolves context surface request
  | resume handle request => AgentRuntimeCoordinator.resume D resolves context surface handle request
  | cancel handle request proofId proofDigest =>
      AgentRuntimeCoordinator.cancel D context surface handle request proofId proofDigest

/-- The call by which the operation acts on the run. -/
def call : Operation → Port
  | start request => .start request
  | resume handle request => .resume handle request
  | cancel handle _ proofId proofDigest => .cancel handle proofId proofDigest

/-- What the authorization port is asked about. -/
def asks : Operation → AgentRunAuthorizationRequest
  | start request => authorizationRequest D context surface .start request none none none
  | resume handle request =>
      authorizationRequest D context surface .resume request (some handle) none none
  | cancel handle request proofId proofDigest =>
      authorizationRequest D context surface .cancel request (some handle) (some proofId)
        (some proofDigest)

end Operation

/-! ## Clearance -/

/-- The decision is about this request, and it was taken in time. -/
structure Bound (D : Digests) (request : AgentRunAuthorizationRequest)
    (decision : AgentRunAuthorizationDecision) (time : Instant) : Prop where
  snapshot : decision.authorizationSnapshotId = request.context.authorizationSnapshotId
  canonical : decision.canonicalRequestDigest = request.canonicalRequestDigest
  immutable : decision.immutableRequestDigest = request.request.immutableRequestDigest D
  binding_version : decision.providerBindingVersion = request.request.providerBindingVersion
  binding_digest : decision.providerBindingDigest = request.request.providerBindingDigest
  autonomy : decision.autonomyGrantDigest = request.request.autonomyGrantDigest
  credential : decision.credentialProofDigest = request.request.credentialProofDigest
  budget : decision.budgetProofDigest = request.request.budgetProofDigest
  kill_switch_id : decision.killSwitchProofId = request.killSwitchProofId
  kill_switch_digest : decision.killSwitchProofDigest = request.killSwitchProofDigest
  evaluated : decision.evaluatedAt ≤ time
  in_time : request.operation = .cancel ∨ time < request.request.deadline

/-- The receipt is an acknowledged one of this event, and its digest is the right one. -/
structure Acknowledges (D : Digests) (receipt : AgentRunAuditReceipt)
    (event : AgentRunAuditEvent) : Prop where
  acknowledged : receipt.acknowledged = true
  event_digest : receipt.eventDigest = computeAgentRunAuditEventDigest D event
  receipt_digest : receipt.receiptDigest = computeAgentRunAuditReceiptDigest D receipt.sequence
    receipt.previousReceiptDigest receipt.eventDigest receipt.acknowledged

/-- The receipt stands next in the chain after another one. -/
def Continues (receipt previous : AgentRunAuditReceipt) : Prop :=
  receipt.sequence = previous.sequence + 1 ∧
    receipt.previousReceiptDigest = previous.receiptDigest

instance (receipt previous : AgentRunAuditReceipt) : Decidable (Continues receipt previous) :=
  inferInstanceAs (Decidable (_ ∧ _))

/-- The exchanges by which a request is cleared: a decision, the time at which it is
checked, and the record that it was allowed, under the time of that record. -/
def clearance (D : Digests) (request : AgentRunAuthorizationRequest)
    (decision : AgentRunAuthorizationDecision) (time stamp : Instant)
    (receipt : AgentRunAuditReceipt) : List (Exchange Port Port.Answer) := [
  ⟨.authorize request, some decision⟩,
  ⟨.clock, some time⟩,
  ⟨.clock, some stamp⟩,
  ⟨.record (auditEvent D request .authorization .allow decision.reasonCode none stamp),
    some receipt⟩]

/-- The exchanges have cleared a request, with this receipt for the record of it. -/
structure Cleared (D : Digests) (request : AgentRunAuthorizationRequest)
    (receipt : AgentRunAuditReceipt) (t : List (Exchange Port Port.Answer)) : Prop where
  clears : ∃ decision time stamp, t = clearance D request decision time stamp receipt ∧
    decision.valid = true ∧ decision.allowed = true ∧ Bound D request decision time ∧
    Acknowledges D receipt
      (auditEvent D request .authorization .allow decision.reasonCode none stamp)

/-- The exchanges have recorded a success, directly after a receipt. -/
structure Audited (D : Digests) (request : AgentRunAuthorizationRequest)
    (previous : AgentRunAuditReceipt) (t : List (Exchange Port Port.Answer)) : Prop where
  records : ∃ (stamp : Instant) (reasonCode : String) (handle : AgentRunHandle)
      (receipt : AgentRunAuditReceipt),
    t = [⟨.clock, some stamp⟩,
      ⟨.record (auditEvent D request .outcome .success reasonCode (some handle) stamp),
        some receipt⟩] ∧
    Acknowledges D receipt
      (auditEvent D request .outcome .success reasonCode (some handle) stamp) ∧
    Continues receipt previous

namespace AgentRuntimeCoordinator

variable {D : Digests} {resolves : String → Bool} {context : RequestContext}
  {surface : ClientSurface} {operation : AgentRunOperation} {request : AgentRunRequest}
  {handle : Option AgentRunHandle} {proofId : Option Uuid} {proofDigest : Option String}
  {t : List (Exchange Port Port.Answer)} {authorization : AuthorizedAgentRun}
  {phase : AuditPhase} {outcome : AuditOutcome} {reasonCode : String} {event : AgentRunAuditEvent}
  {receipt previous : AgentRunAuditReceipt} {r : AgentRunAuthorizationRequest}
  {decision : AgentRunAuthorizationDecision} {time : Instant} {h : AgentRunHandle}

/-! ## Checks -/

theorem eq_of_compareDigest {a b : String} (same : compareDigest a b = some true) : a = b := by
  rw [compareDigest] at same
  split at same
  · exact of_decide_eq_true (Option.some.inj same)
  · nomatch same

/-- The checks of a receipt that do not look at its predecessor. -/
theorem acknowledges_of_true
    (passed : receiptAcknowledgesEvent D receipt event none = some true) :
    Acknowledges D receipt event := by
  simp only [receiptAcknowledgesEvent, continuityMatches, Option.bind_eq_bind,
    Option.bind_some] at passed
  split at passed
  · next acknowledged =>
    obtain ⟨same, compared, checked⟩ := Option.bind_eq_some_iff.mp passed
    split at checked
    · next equal =>
      subst equal
      exact ⟨(Bool.and_eq_true_iff.mp acknowledged).1, eq_of_compareDigest compared,
        eq_of_compareDigest checked⟩
    · nomatch checked
  · nomatch passed

theorem continues_of_true
    (passed : receiptAcknowledgesEvent D receipt event (some previous) = some true) :
    receiptAcknowledgesEvent D receipt event none = some true ∧ Continues receipt previous := by
  obtain ⟨continuity, compared, checked⟩ := Option.bind_eq_some_iff.mp passed
  cases continuity with
  | false =>
    rw [Bool.and_false, if_neg Bool.false_ne_true] at checked
    nomatch checked
  | true =>
    refine ⟨checked, ?_⟩
    rw [continuityMatches] at compared
    split at compared
    · next sequence => exact ⟨sequence, eq_of_compareDigest compared⟩
    · nomatch compared

theorem ascii_of_isSha256 {s : String} (hex : isSha256 s = true) :
    s.toList.all (·.toNat < 128) = true := by
  rw [isSha256, Bool.and_eq_true, List.all_eq_true] at hex
  refine List.all_eq_true.mpr fun c mem => ?_
  have digit := hex.2 c mem
  simp only [Bool.or_eq_true, Bool.and_eq_true, decide_eq_true_eq, Char.le_def,
    UInt32.le_iff_toNat_le] at digit
  obtain ⟨_, small⟩ | ⟨_, small⟩ := digit
  · exact decide_eq_true (Nat.lt_of_le_of_lt small (by decide))
  · exact decide_eq_true (Nat.lt_of_le_of_lt small (by decide))

theorem compareDigest_hex {a b : String} (left : isSha256 a = true) (right : isSha256 b = true) :
    compareDigest a b = some (decide (a = b)) := by
  rw [compareDigest, List.all_append, ascii_of_isSha256 left, ascii_of_isSha256 right]
  rfl

/-- An acknowledged receipt of the event passes every check but the one of its predecessor. -/
theorem check_of_acknowledges {previous : Option AgentRunAuditReceipt}
    (acknowledges : Acknowledges D receipt event)
    (sha : ∀ text, isSha256 (D.sha256 text) = true) :
    receiptAcknowledgesEvent D receipt event previous = continuityMatches receipt previous := by
  have same (text : String) : compareDigest (D.sha256 text) (D.sha256 text) = some true := by
    rw [compareDigest_hex (sha _) (sha _), decide_eq_true rfl]
  have event_digest : compareDigest receipt.eventDigest (computeAgentRunAuditEventDigest D event) =
      some true := by
    rw [acknowledges.event_digest]
    exact same _
  have receipt_digest : compareDigest receipt.receiptDigest
      (computeAgentRunAuditReceiptDigest D receipt.sequence receipt.previousReceiptDigest
        receipt.eventDigest receipt.acknowledged) = some true := by
    rw [acknowledges.receipt_digest]
    exact same _
  rw [acknowledges.acknowledged] at receipt_digest
  rw [receiptAcknowledgesEvent, acknowledges.acknowledged]
  cases continuityMatches receipt previous with
  | none => rfl
  | some continuity =>
    cases continuity with
    | false => simp
    | true => simp [event_digest, receipt_digest]

theorem continuityMatches_eq (left : isSha256 receipt.previousReceiptDigest = true)
    (right : isSha256 previous.receiptDigest = true) :
    continuityMatches receipt (some previous) = some (decide (Continues receipt previous)) := by
  rw [continuityMatches, compareDigest_hex left right]
  by_cases sequence : receipt.sequence = previous.sequence + 1
  · simp [Continues, sequence]
  · simp [Continues, sequence]

theorem no_mismatch_iff : decisionBindingMismatch D r decision time = none ↔
    Bound D r decision time := by
  simp only [decisionBindingMismatch, Option.map_eq_none_iff, List.find?_eq_none,
    List.forall_mem_cons, Bool.not_eq_eq_eq_not, Bool.not_true, decide_eq_false_iff_not, not_not]
  constructor
  · rintro ⟨snapshot, canonical, immutable, version, digest, autonomy, credential, budget, id,
      kill, ⟨evaluated, in_time⟩, _⟩
    exact ⟨snapshot, canonical, immutable, version, digest, autonomy, credential, budget, id,
      kill, evaluated, in_time⟩
  · intro bound
    exact ⟨bound.snapshot, bound.canonical, bound.immutable, bound.binding_version,
      bound.binding_digest, bound.autonomy, bound.credential, bound.budget, bound.kill_switch_id,
      bound.kill_switch_digest, ⟨bound.evaluated, bound.in_time⟩,
      fun _ mem => absurd mem List.not_mem_nil⟩

/-! ## Records -/

/-- What is asked to record an event of this phase and this outcome. -/
def Records (phase : AuditPhase) (outcome : AuditOutcome) : Port → Prop
  | .clock => True
  | .record event => event.phase = phase ∧ event.outcome = outcome
  | _ => False

theorem Records.sideEffect {q : Port} (records : Records phase outcome q) :
    q.sideEffect = false := by
  cases q with
  | clock => rfl
  | record event => rfl
  | _ => exact records.elim

theorem recordEvent_within (r : AgentRunAuthorizationRequest) (phase : AuditPhase)
    (outcome : AuditOutcome) (reasonCode : String) (handle : Option AgentRunHandle) :
    Within (Records phase outcome) (fun _ => True)
      (recordEvent D r phase outcome reasonCode handle) := by
  refine Within.query trivial fun timestamp => ?_
  cases timestamp with
  | none => trivial
  | some timestamp =>
    dsimp only
    split
    · refine Within.query ⟨rfl, rfl⟩ fun receipt => ?_
      cases receipt with
      | none => trivial
      | some receipt => trivial
    · trivial

theorem recordEvent_some (followed : Follows (recordEvent D r phase outcome reasonCode handle) t
    (done (some (event, receipt)))) : ∃ timestamp : Instant,
    event = auditEvent D r phase outcome reasonCode handle timestamp ∧
    t = [⟨.clock, some timestamp⟩, ⟨.record event, some receipt⟩] := by
  obtain ⟨timestamp, u, rfl, timed⟩ := Follows.answered followed
  cases timestamp with
  | none => nomatch timed
  | some timestamp =>
    dsimp only at timed
    split at timed
    · obtain ⟨answer, v, rfl, recorded⟩ := timed.answered
      cases answer with
      | none => nomatch recorded
      | some answer =>
        obtain ⟨rfl, same⟩ := follows_done.mp recorded
        cases same
        exact ⟨timestamp, rfl, rfl⟩
    · nomatch timed

theorem recordOutcome_within (outcome : AuditOutcome) (reasonCode : String)
    (handle : Option AgentRunHandle) :
    Within (Records .outcome outcome) (fun _ => True)
      (recordOutcome D authorization outcome reasonCode handle) := by
  refine Within.bind (recordEvent_within _ _ _ _ _) fun recorded _ => ?_
  cases recorded with
  | none => trivial
  | some recorded => trivial

theorem recordOutcome_true
    (followed : Follows (recordOutcome D authorization .success reasonCode (some h)) t
      (done (some true))) : Audited D authorization.request authorization.receipt t := by
  obtain ⟨u, recorded, v, rfl, first, rest⟩ := Follows.parts followed
  cases recorded with
  | none => nomatch rest
  | some recorded =>
    obtain ⟨event, receipt⟩ := recorded
    obtain ⟨rfl, same⟩ := follows_done.mp rest
    obtain ⟨stamp, rfl, rfl⟩ := recordEvent_some first
    obtain ⟨passed, continues⟩ := continues_of_true (done.inj same).symm
    exact ⟨stamp, reasonCode, _, receipt, rfl, acknowledges_of_true passed, continues⟩

/-- No result but a success says that an operation went well. -/
def NotOk (result : Option AgentRunOperationResult) : Prop := ∀ r ∈ result, r.ok = false

theorem notOk_none : NotOk none := fun _ mem => nomatch mem

theorem notOk_some {result : AgentRunOperationResult} (notOk : result.ok = false) :
    NotOk (some result) := by
  intro r mem
  rw [← Option.some.inj mem]
  exact notOk

theorem postAuthorizationFailure_within (reasonCode : String) (handle : Option AgentRunHandle)
    (cancellationResult : Option CancellationResult) :
    Within (Records .outcome .failure) NotOk
      (postAuthorizationFailure D authorization reasonCode handle cancellationResult) := by
  refine Within.bind (recordOutcome_within _ _ _) fun recorded _ => ?_
  match recorded with
  | none => exact Within.pure notOk_none
  | some false => exact Within.pure (notOk_some rfl)
  | some true => exact Within.pure (notOk_some rfl)

theorem preflightFailure_within (reasonCode caught : String) (handle : Option AgentRunHandle) :
    Within (Records .outcome .failure) NotOk
      (preflightFailure D authorization reasonCode caught handle) := by
  refine Within.bind (postAuthorizationFailure_within _ _ _) fun result notOk => ?_
  cases result with
  | none => exact postAuthorizationFailure_within _ _ _
  | some result => exact notOk

/-! ## The gate -/

/-- What the gate asks: nothing that acts, and no record but of the authorization. -/
def Gating (q : Port) : Prop :=
  q.sideEffect = false ∧ ∀ event, q = .record event → event.phase = .authorization

theorem gating_of_not_record {q : Port} (acts : q.sideEffect = false)
    (records : q.isRecord = false) : Gating q := by
  refine ⟨acts, ?_⟩
  rintro event rfl
  exact Bool.noConfusion records

theorem Records.gating {q : Port} (records : Records .authorization outcome q) : Gating q := by
  refine ⟨records.sideEffect, ?_⟩
  rintro event rfl
  exact records.1

theorem authorizationGate_within :
    Within Gating (fun x => ∀ result, x = .error result → NotOk result)
      (authorizationGate D context surface operation request handle proofId proofDigest) := by
  have refused (reasonCode : String) : Within Gating
      (fun x => ∀ result, x = .error result → NotOk result)
      (pure (.error (some (failure context operation reasonCode))) :
        Consult (Except (Option AgentRunOperationResult) AuthorizedAgentRun)) := by
    refine Within.pure fun result same => ?_
    rw [← Except.error.inj same]
    exact notOk_some rfl
  unfold authorizationGate
  generalize authorizationRequest D context surface operation request handle proofId proofDigest = r
  dsimp only
  split
  · exact refused _
  refine Within.query (gating_of_not_record rfl rfl) fun decision => ?_
  cases decision with
  | none => exact refused _
  | some decision =>
  dsimp only
  split
  · exact refused _
  refine Within.query (gating_of_not_record rfl rfl) fun time => ?_
  cases time with
  | none => exact refused _
  | some time =>
  refine Within.bind ((recordEvent_within _ _ _ _ _).mono (fun _ => Records.gating)
    fun _ _ => trivial) fun recorded _ => ?_
  cases recorded with
  | none => exact refused _
  | some recorded =>
  dsimp only
  split
  · refine Within.pure fun result same => ?_
    rw [← Except.error.inj same]
    exact notOk_none
  · exact refused _
  · split
    · exact refused _
    · exact Within.pure fun result same => nomatch same

theorem authorizationGate_ok (followed : Follows
    (authorizationGate D context surface operation request handle proofId proofDigest) t
    (done (.ok authorization))) :
    authorization.request =
        authorizationRequest D context surface operation request handle proofId proofDigest ∧
      Cleared D
        (authorizationRequest D context surface operation request handle proofId proofDigest)
        authorization.receipt t := by
  unfold authorizationGate at followed
  generalize authorizationRequest D context surface operation request handle proofId
    proofDigest = r at followed ⊢
  dsimp only at followed
  cases validated : r.validate D with
  | error reasonCode =>
    rw [validated] at followed
    nomatch followed
  | ok u =>
  rw [validated] at followed
  obtain ⟨decision, u, rfl, decided⟩ := followed.answered
  cases decision with
  | none => nomatch decided
  | some decision =>
  dsimp only at decided
  split at decided
  · nomatch decided
  next valid =>
  obtain ⟨time, v, rfl, timed⟩ := decided.answered
  cases time with
  | none => nomatch timed
  | some time =>
  dsimp only at timed
  obtain ⟨first, recorded, rest, rfl, under, checked⟩ := timed.parts
  cases recorded with
  | none => nomatch checked
  | some recorded =>
  obtain ⟨event, receipt⟩ := recorded
  obtain ⟨stamp, rfl, rfl⟩ := recordEvent_some under
  dsimp only at checked
  split at checked
  · nomatch checked
  · nomatch checked
  next passed =>
  split at checked
  · nomatch checked
  next allowed =>
  obtain ⟨rfl, same⟩ := follows_done.mp checked
  cases same
  rw [Bool.or_eq_true, not_or] at allowed
  have matched : decisionBindingMismatch D r decision time = none := by simpa using allowed.1
  have permitted : decision.allowed = true := by simpa using allowed.2
  have named : auditEvent D r .authorization
      (if decision.allowed && (decisionBindingMismatch D r decision time).isNone then .allow
        else .deny) ((decisionBindingMismatch D r decision time).getD decision.reasonCode) none stamp =
      auditEvent D r .authorization .allow decision.reasonCode none stamp := by
    simp [matched, permitted]
  refine ⟨rfl, decision, time, stamp, ?_, by simpa using valid, permitted,
    no_mismatch_iff.mp matched, ?_⟩
  · rw [named]
    rfl
  · rw [← named]
    exact acknowledges_of_true passed

theorem recordEvent_follows {stamp : Instant}
    (valid : (auditEvent D r phase outcome reasonCode handle stamp).valid = true) :
    Follows (recordEvent D r phase outcome reasonCode handle)
      [⟨.clock, some stamp⟩, ⟨.record (auditEvent D r phase outcome reasonCode handle stamp),
        some receipt⟩]
      (done (some (auditEvent D r phase outcome reasonCode handle stamp, receipt))) := by
  refine Follows.answer ?_
  dsimp only
  rw [if_pos valid]
  exact Follows.answer (.refl _)

/-- The gate lets a request pass that is cleared. -/
theorem authorizationGate_follows {stamp : Instant}
    (asks : authorizationRequest D context surface operation request handle proofId proofDigest = r)
    (validated : r.validate D = .ok ()) (valid : decision.valid = true)
    (allowed : decision.allowed = true) (bound : Bound D r decision time)
    (made : (auditEvent D r .authorization .allow decision.reasonCode none stamp).valid = true)
    (check : receiptAcknowledgesEvent D receipt
      (auditEvent D r .authorization .allow decision.reasonCode none stamp) none = some true) :
    Follows (authorizationGate D context surface operation request handle proofId proofDigest)
      (clearance D r decision time stamp receipt) (done (.ok ⟨r, receipt⟩)) := by
  have matched := no_mismatch_iff.mpr bound
  unfold authorizationGate
  rw [asks]
  dsimp only
  rw [validated]
  refine Follows.answer ?_
  dsimp only
  rw [valid, if_neg (by simp)]
  refine Follows.answer ?_
  dsimp only
  rw [matched, allowed]
  refine ((recordEvent_follows made).bind _).trans (?_ : Follows _ [] _)
  rw [done_bind]
  dsimp only
  rw [check]
  exact .refl _

/-! ## The runtime -/

theorem providerPreflight_within :
    Within (fun q => q.sideEffect = false ∧ q.isRecord = false) (fun _ => True)
      (providerPreflight D resolves r operation) := by
  refine Within.query ⟨rfl, rfl⟩ fun candidates => ?_
  cases candidates with
  | none => trivial
  | some candidates =>
  dsimp only
  split
  · trivial
  split
  · trivial
  split
  · split
    · trivial
    refine Within.query ⟨rfl, rfl⟩ fun capabilities => ?_
    cases capabilities with
    | none => trivial
    | some capabilities =>
    dsimp only
    split
    · trivial
    split
    · trivial
    refine Within.query ⟨rfl, rfl⟩ fun health => ?_
    cases health with
    | none => trivial
    | some health =>
    dsimp only
    split
    · trivial
    split
    · trivial
    split
    · trivial
    · trivial
  · trivial

theorem conclude_within (verdict : Verdict) :
    Within (fun q => q.sideEffect = false) (fun _ => True)
      (conclude D context operation authorization verdict) := by
  cases verdict with
  | failed reasonCode handle cancellationResult =>
    exact (postAuthorizationFailure_within _ _ _).mono (fun _ => Records.sideEffect)
      fun _ _ => trivial
  | succeeded reasonCode handle cancellationResult replayed =>
    refine Within.bind ((recordOutcome_within _ _ _).mono (fun _ => Records.sideEffect)
      fun _ h => h) fun recorded _ => ?_
    match recorded with
    | none => trivial
    | some false => trivial
    | some true => trivial

theorem conclude_follows {stamp : Instant} {ok : Bool}
    {cancellationResult : Option CancellationResult} {replayed : Bool}
    (made : (auditEvent D authorization.request .outcome .success reasonCode (some h) stamp).valid =
      true)
    (check : receiptAcknowledgesEvent D receipt
      (auditEvent D authorization.request .outcome .success reasonCode (some h) stamp)
      (some authorization.receipt) = some ok) : ∃ result,
    Follows (conclude D context operation authorization
        (.succeeded reasonCode h cancellationResult replayed))
      [⟨.clock, some stamp⟩, ⟨.record (auditEvent D authorization.request .outcome .success
        reasonCode (some h) stamp), some receipt⟩]
      (done (some result)) ∧ result.ok = ok ∧
    (result.ok = false → result.reasonCode = "agent_run_audit_pending") := by
  have recorded : Follows (recordOutcome D authorization .success reasonCode (some h))
      [⟨.clock, some stamp⟩, ⟨.record (auditEvent D authorization.request .outcome .success
        reasonCode (some h) stamp), some receipt⟩] (done (some ok)) := by
    rw [← check]
    exact ((recordEvent_follows made).bind _).trans (.refl _)
  cases ok with
  | false => exact ⟨_, (recorded.bind _).trans (.refl _), rfl, fun _ => rfl⟩
  | true => exact ⟨_, (recorded.bind _).trans (.refl _), rfl, fun notOk => nomatch notOk⟩

/-- An operation that goes well has had its success recorded. -/
theorem conclude_ok {verdict : Verdict} {result : AgentRunOperationResult}
    (followed : Follows (conclude D context operation authorization verdict) t
      (done (some result))) (ok : result.ok = true) :
    Audited D authorization.request authorization.receipt t := by
  cases verdict with
  | failed reasonCode handle cancellationResult =>
    have notOk := (postAuthorizationFailure_within _ _ _).ends followed
    exact absurd ok (by simp [notOk result rfl])
  | succeeded reasonCode handle cancellationResult replayed =>
    obtain ⟨u, recorded, v, rfl, first, rest⟩ := Follows.parts followed
    match recorded with
    | none => nomatch rest
    | some false =>
      obtain ⟨rfl, same⟩ := follows_done.mp rest
      cases same
      nomatch ok
    | some true =>
      obtain ⟨rfl, _⟩ := follows_done.mp rest
      rw [List.append_nil]
      exact recordOutcome_true first

/-- The part of an operation between the gate and its end that calls the runtime after a
preflight. -/
def preflighted (D : Digests) (resolves : String → Bool) (context : RequestContext)
    (operation : AgentRunOperation) (authorization : AuthorizedAgentRun) (call : Port)
    (verdict : call.Answer → Verdict) (caught : String) (handle : Option AgentRunHandle) :
    Consult (Option AgentRunOperationResult) := do
  match ← providerPreflight D resolves authorization.request operation with
  | some reasonCode => preflightFailure D authorization reasonCode caught handle
  | none =>
      let answer ← query call
      conclude D context operation authorization (verdict answer)

variable {call : Port} {verdict : call.Answer → Verdict} {caught : String}

theorem called_inOrder (acts : call.sideEffect = true) :
    AsksInOrder Port.sideEffect (query call >>= fun answer =>
      conclude D context operation authorization (verdict answer)) [call] :=
  AsksInOrder.ask acts fun _ => (conclude_within _).inOrder []

theorem preflighted_inOrder (acts : call.sideEffect = true) :
    AsksInOrder Port.sideEffect
      (preflighted D resolves context operation authorization call verdict caught handle)
      [call] := by
  refine AsksInOrder.after (providerPreflight_within.mono (fun _ h => h.1) fun _ h => h)
    fun reason _ => ?_
  cases reason with
  | none => exact called_inOrder acts
  | some reason =>
    exact ((preflightFailure_within _ _ _).mono (fun _ => Records.sideEffect)
      fun _ h => h).inOrder _

theorem called_ok {result : AgentRunOperationResult}
    (followed : Follows (query call >>= fun answer =>
      conclude D context operation authorization (verdict answer)) t (done (some result)))
    (ok : result.ok = true) : ∃ between after, t = between ++ after ∧
      Audited D authorization.request authorization.receipt after := by
  obtain ⟨answer, u, rfl, rest⟩ := followed.answered
  exact ⟨[⟨call, answer⟩], u, rfl, conclude_ok rest ok⟩

theorem preflighted_ok {result : AgentRunOperationResult}
    (followed : Follows
      (preflighted D resolves context operation authorization call verdict caught handle) t
      (done (some result)))
    (ok : result.ok = true) : ∃ between after, t = between ++ after ∧
      Audited D authorization.request authorization.receipt after := by
  obtain ⟨u, reason, v, rfl, first, rest⟩ := Follows.parts followed
  cases reason with
  | none =>
    obtain ⟨between, after, rfl, audited⟩ := called_ok rest ok
    exact ⟨u ++ between, after, (List.append_assoc _ _ _).symm, audited⟩
  | some reason =>
    have notOk := (preflightFailure_within _ _ _).ends rest
    exact absurd ok (by simp [notOk result rfl])

end AgentRuntimeCoordinator

/-! ## Whole operations -/

namespace Operation

variable (D : Digests) (resolves : String → Bool) (context : RequestContext)
  (surface : ClientSurface)

def gate : Operation → Consult (Except (Option AgentRunOperationResult) AuthorizedAgentRun)
  | start request => authorizationGate D context surface .start request none none none
  | resume handle request =>
      authorizationGate D context surface .resume request (some handle) none none
  | cancel handle request proofId proofDigest =>
      authorizationGate D context surface .cancel request (some handle) (some proofId)
        (some proofDigest)

/-- What an authorized operation does. -/
def attempt (authorization : AuthorizedAgentRun) :
    Operation → Consult (Option AgentRunOperationResult)
  | start request =>
      preflighted D resolves context .start authorization (.start request) (startVerdict request)
        "agent_run_start_failed" none
  | resume handle request =>
      preflighted D resolves context .resume authorization (.resume handle request)
        (resumeVerdict handle) "agent_run_resume_failed" (some handle)
  | cancel handle _ proofId proofDigest => do
      let answer ← Consult.cancel handle proofId proofDigest
      conclude D context .cancel authorization (cancelVerdict handle answer)

theorem run_eq (op : Operation) : op.run D resolves context surface = (do
    match ← op.gate D context surface with
    | .error result => return result
    | .ok authorization => op.attempt D resolves context authorization) := by
  cases op with
  | start request => rfl
  | resume handle request => rfl
  | cancel handle request proofId proofDigest => rfl

variable {D resolves context surface} {op : Operation} {t : List (Exchange Port Port.Answer)}
  {p : Consult (Option AgentRunOperationResult)} {authorization : AuthorizedAgentRun}

theorem gate_within : Within Gating (fun x => ∀ result, x = .error result → NotOk result)
    (op.gate D context surface) := by
  cases op with
  | start request => exact authorizationGate_within
  | resume handle request => exact authorizationGate_within
  | cancel handle request proofId proofDigest => exact authorizationGate_within

theorem gate_acts : Within (fun q => q.sideEffect = false)
    (fun x => ∀ result, x = .error result → NotOk result) (op.gate D context surface) :=
  gate_within.mono (fun _ gating => gating.1) fun _ ends => ends

theorem gate_ok (followed : Follows (op.gate D context surface) t (done (.ok authorization))) :
    authorization.request = op.asks D context surface ∧
      Cleared D (op.asks D context surface) authorization.receipt t := by
  cases op with
  | start request => exact authorizationGate_ok followed
  | resume handle request => exact authorizationGate_ok followed
  | cancel handle request proofId proofDigest => exact authorizationGate_ok followed

theorem attempt_inOrder :
    AsksInOrder Port.sideEffect (op.attempt D resolves context authorization) [op.call] := by
  cases op with
  | start request => exact preflighted_inOrder rfl
  | resume handle request => exact preflighted_inOrder rfl
  | cancel handle request proofId proofDigest => exact called_inOrder rfl

theorem attempt_ok {result : AgentRunOperationResult}
    (followed : Follows (op.attempt D resolves context authorization) t (done (some result)))
    (ok : result.ok = true) : ∃ between after, t = between ++ after ∧
      Audited D authorization.request authorization.receipt after := by
  cases op with
  | start request => exact preflighted_ok followed ok
  | resume handle request => exact preflighted_ok followed ok
  | cancel handle request proofId proofDigest => exact called_ok followed ok

end Operation

open Operation in
/-- Whatever the ports answer and wherever it is broken off, an operation acts on a run at
most once, by its own call, and not before it is cleared. If it goes well, then its success
has been recorded, directly after its clearance. -/
theorem side_effect_authorized_and_audited {D : Digests} {resolves : String → Bool}
    {context : RequestContext} {surface : ClientSurface} {op : Operation}
    {t : List (Exchange Port Port.Answer)} {p : Consult (Option AgentRunOperationResult)}
    (followed : Follows (op.run D resolves context surface) t p) :
    asked Port.sideEffect t p <+: [op.call] ∧
    (asked Port.sideEffect t p ≠ [] → ∃ before after receipt, t = before ++ after ∧
      Cleared D (op.asks D context surface) receipt before) ∧
    (∀ result, p = done (some result) → result.ok = true →
      ∃ before between after receipt, t = before ++ between ++ after ∧
        Cleared D (op.asks D context surface) receipt before ∧
        Audited D (op.asks D context surface) receipt after) := by
  rw [run_eq] at followed
  refine ⟨?_, fun acted => ?_, fun result ended ok => ?_⟩
  · refine AsksInOrder.after gate_acts (fun x _ => ?_) t p followed
    cases x with
    | error result => exact .done
    | ok authorization => exact attempt_inOrder
  · obtain ⟨q, k, waits, rfl⟩ | ⟨before, x, after, rfl, first, second⟩ :=
        follows_bind followed
    · exact absurd (gate_acts.asked_eq_nil waits) acted
    · cases x with
      | error result =>
        have silent := List.prefix_nil.mp (gate_acts.inOrder [] _ _ first)
        obtain ⟨rfl, rfl⟩ := follows_done.mp second
        exact absurd (by simpa [asked] using silent) acted
      | ok authorization => exact ⟨before, after, _, rfl, (gate_ok first).2⟩
  · subst ended
    obtain ⟨before, x, rest, rfl, first, second⟩ := followed.parts
    cases x with
    | error refused =>
      obtain ⟨_, same⟩ := follows_done.mp second
      have notOk := gate_within.ends first refused rfl result (done.inj same).symm
      exact absurd ok (by simp [notOk])
    | ok authorization =>
      obtain ⟨same, cleared⟩ := gate_ok first
      obtain ⟨between, after, rfl, audited⟩ := attempt_ok second ok
      rw [same] at audited
      exact ⟨before, between, after, _, (List.append_assoc _ _ _).symm, cleared, audited⟩

/-! ## A start that goes well -/

namespace StartSample

def hex : String := String.ofList (List.replicate 64 'a')

/-- Digests that are all alike. -/
def digests : Digests := ⟨fun _ => hex, fun _ => .ofNat 0⟩

theorem hex_valid : isSha256 hex = true := isSha256_replicate (by decide)

def binding : ProviderBinding where
  id := .ofNat 3
  workspaceId := .ofNat 2
  projectId := none
  family := .openai
  transport := .httpApi
  status := .available
  executableIdentity := none
  credentialRefId := some (.ofNat 5)
  model := "model"
  capabilities := {}
  healthCheckedAt := 0
  version := 1
  fallbackBindingIds := []
  dataEgressDisclosure := "hosted"
  serverStorageDisclosure := "none"

def request (run : Nat) : AgentRunRequest where
  runId := .ofNat run
  workspaceId := .ofNat 2
  projectId := none
  workflowId := none
  workItemId := none
  providerBindingId := .ofNat 3
  providerBindingVersion := 1
  providerBindingDigest := hex
  model := "model"
  effort := "low"
  messages := none
  prompt := some "prompt"
  untrustedContextRefIds := []
  authorizationProofId := .ofNat 4
  authorizationProofDigest := hex
  autonomyGrantId := .ofNat 6
  autonomyGrantDigest := hex
  credentialGrantIds := []
  credentialProofId := none
  credentialProofDigest := none
  budgetProofId := none
  budgetProofDigest := none
  killSwitchProofId := .ofNat 7
  killSwitchProofDigest := hex
  sandboxProfile := "default"
  filesystemEnvelope := []
  networkEnvelope := []
  toolEnvelope := []
  requestedEffectClasses := []
  providerSpendLimit := ⟨false, 0, 0⟩
  corvusBudgetLimit := ⟨false, 0, 0⟩
  budgetUnit := "tokens"
  budgetRequestedAmount := 1
  approvalLimit := 0
  maxRetries := 0
  maxTurns := 1
  deadline := 100
  maxOutputTokens := 1
  maxOutputBytes := 1
  idempotencyKey := "key"
  resumeHandleId := none

def context : RequestContext where
  id := .ofNat 10
  deploymentProfileId := .ofNat 11
  deploymentInstanceId := .ofNat 12
  workspaceId := .ofNat 2
  workspaceAuthorityEpoch := 1
  workspaceAuthorityGeneration := 0
  authorityStateRoot := hex
  authorityEpochCredentialId := .ofNat 13
  authorityCommitReceiptId := .ofNat 14
  authorityProofDigest := hex
  scopeKind := .workspace
  scopeId := .ofNat 2
  scopeDigest := hex
  audiencePolicySnapshotId := .ofNat 15
  audiencePolicyDigest := hex
  requesterId := .ofNat 16
  clientContextId := .ofNat 17
  transportPrincipalId := none
  agentId := .ofNat 18
  agentGrantId := .ofNat 19
  accessBundleId := .ofNat 20
  executionPlacementId := none
  policyDigest := hex
  authorizationSnapshotId := .ofNat 4
  authorizationSnapshotDigest := hex
  authorizationSigningKeyVersionId := .ofNat 21
  idempotencyKey := "key"
  correlationId := .ofNat 22

def asks (run : Nat) : AgentRunAuthorizationRequest :=
  authorizationRequest digests context .cli .start (request run) none none none

def decision : AgentRunAuthorizationDecision where
  allowed := true
  reasonCode := "allowed"
  authorizationSnapshotId := .ofNat 4
  canonicalRequestDigest := hex
  immutableRequestDigest := hex
  providerBindingVersion := 1
  providerBindingDigest := hex
  autonomyGrantDigest := hex
  credentialProofDigest := none
  budgetProofDigest := none
  killSwitchProofId := .ofNat 7
  killSwitchProofDigest := hex
  evaluatedAt := 1

/-- The receipt of any event, at a place in the chain. -/
def receipt (sequence : Int) : AgentRunAuditReceipt := ⟨sequence, hex, hex, hex, true⟩

def handle (run : Nat) : AgentRunHandle := ⟨.ofNat 30, .ofNat run, .ofNat 3, 3, none, .running⟩

def found : Exchange Port Port.Answer :=
  ⟨.discover ⟨.ofNat 2, none⟩, some [⟨binding, 1, hex⟩]⟩

def able : Exchange Port Port.Answer := ⟨.capabilities binding, some {}⟩

def healthy : Exchange Port Port.Answer :=
  ⟨.health binding, some ⟨.ofNat 3, 1, hex, .available, 2⟩⟩

def discovered : List (Exchange Port Port.Answer) := [found, able, healthy]

theorem asks_valid (run : Nat) : (asks run).validate digests = .ok () := by
  simp [AgentRunAuthorizationRequest.validate, asks,
    AgentRunAuthorizationRequest.validateAuthorityBinding,
    AgentRunAuthorizationRequest.validateOperationBinding, authorizationRequest, refuse,
    context, request, ok_bind]

theorem decision_valid : decision.valid = true := by
  have code : validReasonCode "allowed" = true := by decide
  simp [AgentRunAuthorizationDecision.valid, decision, code, hex_valid]

theorem bound (run : Nat) : Bound digests (asks run) decision 2 :=
  ⟨rfl, rfl, rfl, rfl, rfl, rfl, rfl, rfl, rfl, rfl, show (1 : Int) ≤ 2 by decide,
    .inr (show (2 : Int) < 100 by decide)⟩

theorem event_valid {run : Nat} {phase : AuditPhase} {outcome : AuditOutcome} {reasonCode : String}
    {handle : Option AgentRunHandle} {stamp : Instant} (fits : outcome ∈ phase.outcomes)
    (code : validReasonCode reasonCode = true) :
    (auditEvent digests (asks run) phase outcome reasonCode handle stamp).valid = true := by
  have digest : computeAgentRunRequestDigest digests (request run) = hex := rfl
  have immutable : (request run).immutableRequestDigest digests = hex := rfl
  simp only [AgentRunAuditEvent.valid, auditEvent, asks, authorizationRequest, code, fits, digest,
    immutable, hex_valid]
  simp [request, context, AgentRunAuthorizationRequest.killSwitchProofDigest, hex_valid]

theorem check_of_hex (event : AgentRunAuditEvent) (sequence : Int)
    (previous : Option AgentRunAuditReceipt) :
    receiptAcknowledgesEvent digests (receipt sequence) event previous =
      continuityMatches (receipt sequence) previous :=
  check_of_acknowledges ⟨rfl, rfl, rfl⟩ fun _ => hex_valid

/-- The request is cleared and the provider is found in order. -/
def prelude (run : Nat) (sequence : Int) : List (Exchange Port Port.Answer) :=
  clearance digests (asks run) decision 2 2 (receipt sequence) ++ discovered

def started (run : Nat) : Exchange Port Port.Answer :=
  ⟨.start (request run), .ok ⟨handle run, false⟩⟩

/-- The run is started, and its start is recorded. -/
def outcome (run : Nat) (sequence : Int) : List (Exchange Port Port.Answer) := [
  started run,
  ⟨.clock, some 3⟩,
  ⟨.record (auditEvent digests (asks run) .outcome .success "agent_run_started"
    (some (handle run)) 3), some (receipt sequence)⟩]

theorem gate_follows (run : Nat) (sequence : Int) :
    Follows ((Operation.start (request run)).gate digests context .cli)
      (clearance digests (asks run) decision 2 2 (receipt sequence))
      (done (.ok ⟨asks run, receipt sequence⟩)) :=
  authorizationGate_follows rfl (asks_valid run) decision_valid rfl (bound run)
    (event_valid (by decide) (by decide)) (check_of_hex _ _ _)

theorem preflight_follows (run : Nat) :
    Follows (providerPreflight digests (fun _ => true) (asks run) .start) discovered
      (done none) := by
  have offered : ProviderBinding.valid (fun _ => true) binding = true := by
    simp [ProviderBinding.valid, binding, bounded, ← String.length_toList]
  have digest : computeProviderBindingDigest digests binding = hex := rfl
  have valid : ProviderCandidate.valid digests (fun _ => true) ⟨binding, 1, hex⟩ = true := by
    simp only [ProviderCandidate.valid, offered, digest, hex_valid]
    rfl
  have reported : ProviderHealth.valid ⟨.ofNat 3, 1, hex, .available, 2⟩ = true := by
    simp [ProviderHealth.valid, hex_valid]
  have needs : requiredCapabilities (request run) .start = [.text] := rfl
  have asked : (asks run).request = request run := rfl
  have scope : binding.workspaceId = (request run).workspaceId ∧
      binding.projectId = (request run).projectId := ⟨rfl, rfl⟩
  have named : binding.id = (request run).providerBindingId := rfl
  have fields : (request run).providerBindingVersion = 1 ∧
      (request run).providerBindingDigest = hex ∧
      (request run).providerBindingId = .ofNat 3 := ⟨rfl, rfl, rfl⟩
  have capabilities : binding.capabilities = {} := rfl
  unfold providerPreflight
  rw [asked]
  refine Follows.answer ?_
  simp only [List.all_cons, valid, List.all_nil, Bool.and_self, Bool.not_true, Bool.false_eq_true,
    ↓reduceIte, ne_eq, decide_not, List.any_cons, scope, decide_true, Bool.or_self, List.any_nil,
    fields, named, List.filter_cons_of_pos, List.filter_nil, not_true_eq_false, or_self, needs,
    AgentCapabilities.support, capabilities, Bool.false_or, Bool.or_false, reduceCtorEq,
    Bool.not_eq_eq_eq_not, ite_not]
  refine Follows.answer ?_
  dsimp only
  refine Follows.answer ?_
  simp only [reported, Bool.true_eq_false, ↓reduceIte, not_true_eq_false, or_self]
  exact .refl _

theorem conclude_start (run : Nat) (first second : Int) : ∃ result,
    Follows (conclude digests context .start ⟨asks run, receipt first⟩
        (startVerdict (request run) (.ok ⟨handle run, false⟩)))
      [⟨.clock, some 3⟩, ⟨.record (auditEvent digests (asks run) .outcome .success
        "agent_run_started" (some (handle run)) 3), some (receipt second)⟩]
      (done (some result)) ∧ result.ok = decide (second = first + 1) ∧
    (result.ok = false → result.reasonCode = "agent_run_audit_pending") := by
  have verdict : startVerdict (request run) (.ok ⟨handle run, false⟩) =
      .succeeded "agent_run_started" (handle run) none false := by
    simp [startVerdict, handle, AgentRunHandle.valid, request]
  have linked : isSha256 (receipt second).previousReceiptDigest = true := hex_valid
  have sealed : isSha256 (receipt first).receiptDigest = true := hex_valid
  rw [verdict]
  refine conclude_follows (event_valid (by decide) (by decide)) ?_
  rw [check_of_hex, continuityMatches_eq linked sealed]
  simp [Continues, receipt]

/-- The start goes well exactly if the record of its outcome stands directly after the one
of its authorization. -/
theorem start_follows (run : Nat) (first second : Int) : ∃ result,
    Follows ((Operation.start (request run)).run digests (fun _ => true) context .cli)
      (prelude run first ++ outcome run second) (done (some result)) ∧
    result.ok = decide (second = first + 1) ∧
    (result.ok = false → result.reasonCode = "agent_run_audit_pending") := by
  obtain ⟨result, concluded, ok, pending⟩ := conclude_start run first second
  refine ⟨result, ?_, ok, pending⟩
  rw [Operation.run_eq, prelude, List.append_assoc]
  refine ((gate_follows run first).bind _).trans ?_
  exact ((preflight_follows run).bind _).trans (Follows.answer concluded)

end StartSample

open StartSample in
theorem side_effect_authorized_and_audited_sample : ∃ result, result.ok = true ∧
    (asked Port.sideEffect (prelude 1 1 ++ outcome 1 2)
      (done (some result) : Consult (Option AgentRunOperationResult)) <+: [.start (request 1)]) ∧
    ∃ before between after receipt, prelude 1 1 ++ outcome 1 2 = before ++ between ++ after ∧
      Cleared digests (StartSample.asks 1) receipt before ∧
      Audited digests (StartSample.asks 1) receipt after := by
  obtain ⟨result, followed, ok, _⟩ := start_follows 1 1 2
  obtain ⟨once, _, audited⟩ := side_effect_authorized_and_audited followed
  exact ⟨result, ok, once, audited result rfl ok⟩

end Corvus.Agent
