import Corvus.Agent.SideEffects
import Corvus.Library.Turns

/-!
# Operations that take turns

Several operations of one coordinator share an audit port that keeps one chain. They take
turns where they await the runtime. An operation demands that the record of its outcome
stands directly after the one of its authorization, and so tells whether another one has
recorded anything in between.
-/

namespace Corvus.Agent

open Authorization (ClientSurface)
open Dialogue

/-! ## The chain -/

/-- What was asked to be recorded, with the answer. -/
def recorded (x : Exchange Port Port.Answer) :
    Option (AgentRunAuditEvent × Option AgentRunAuditReceipt) :=
  match x with
  | ⟨.record event, answer⟩ => some (event, answer)
  | _ => none

def records (t : List (Exchange Port Port.Answer)) :
    List (AgentRunAuditEvent × Option AgentRunAuditReceipt) :=
  t.filterMap recorded

/-- The end of an audit chain. -/
structure ChainHead where
  sequence : Int
  receiptDigest : String

/-- The acknowledged receipt of the next event. -/
def ChainHead.receipt (D : Digests) (head : ChainHead) (event : AgentRunAuditEvent) :
    AgentRunAuditReceipt where
  sequence := head.sequence + 1
  previousReceiptDigest := head.receiptDigest
  eventDigest := computeAgentRunAuditEventDigest D event
  receiptDigest := computeAgentRunAuditReceiptDigest D (head.sequence + 1) head.receiptDigest
    (computeAgentRunAuditEventDigest D event) true
  acknowledged := true

def ChainHead.next (D : Digests) (head : ChainHead) (event : AgentRunAuditEvent) : ChainHead :=
  ⟨head.sequence + 1, (head.receipt D event).receiptDigest⟩

/-- The port appends every event to one chain. -/
def Appends (D : Digests) :
    ChainHead → List (AgentRunAuditEvent × Option AgentRunAuditReceipt) → Prop
  | _, [] => True
  | head, (event, answer) :: rest =>
      answer = some (head.receipt D event) ∧ Appends D (head.next D event) rest

section

variable {D : Digests} {head : ChainHead} {event : AgentRunAuditEvent}
  {l m : List (AgentRunAuditEvent × Option AgentRunAuditReceipt)} {t u : List (Exchange Port Port.Answer)}

@[simp] theorem records_append : records (t ++ u) = records t ++ records u :=
  List.filterMap_append

theorem records_cons {answer : Option AgentRunAuditReceipt} :
    records (⟨.record event, answer⟩ :: t) = (event, answer) :: records t := rfl

theorem records_eq_nil : records t = [] ↔ ∀ x ∈ t, x.question.isRecord = false := by
  rw [records, List.filterMap_eq_nil_iff]
  refine forall₂_congr fun x _ => ?_
  obtain ⟨q, a⟩ := x
  cases q with
  | record event => exact ⟨(fun absent => nomatch absent), (fun absent => nomatch absent)⟩
  | _ => exact ⟨fun _ => rfl, fun _ => rfl⟩

theorem ChainHead.next_hex (sha : ∀ text, isSha256 (D.sha256 text) = true) :
    isSha256 (head.next D event).receiptDigest = true :=
  sha _

/-- The head after events have been appended. -/
theorem appends_append (sha : ∀ text, isSha256 (D.sha256 text) = true)
    (appends : Appends D head (l ++ m)) : ∃ last : ChainHead,
      last.sequence = head.sequence + l.length ∧
      (isSha256 head.receiptDigest = true → isSha256 last.receiptDigest = true) ∧
      Appends D last m := by
  induction l generalizing head with
  | nil => exact ⟨head, by simp, id, appends⟩
  | cons x l ih =>
    obtain ⟨last, sequence, hex, rest⟩ := ih appends.2
    refine ⟨last, ?_, fun _ => hex (ChainHead.next_hex sha), rest⟩
    rw [sequence, List.length_cons]
    show head.sequence + 1 + l.length = head.sequence + (l.length + 1 : Nat)
    omega

theorem ChainHead.acknowledges : Acknowledges D (head.receipt D event) event := ⟨rfl, rfl, rfl⟩

end

/-! ## The records of one operation -/

namespace AgentRuntimeCoordinator

variable {D : Digests} {resolves : String → Bool} {context : RequestContext}
  {operation : AgentRunOperation} {verdict : Verdict} {r : AgentRunAuthorizationRequest}
  {authorization : AuthorizedAgentRun} {result : Option AgentRunOperationResult}
  {event : AgentRunAuditEvent} {receipt : AgentRunAuditReceipt}
  {t : List (Exchange Port Port.Answer)} {phase : AuditPhase} {outcome : AuditOutcome}
  {reasonCode : String} {handle : Option AgentRunHandle}

/-- What an operation says of a success that it has had recorded, by the check of the
receipt. -/
def Reported (reasonCode : String) (check : Option Bool)
    (result : Option AgentRunOperationResult) : Prop :=
  (check = some true → ∃ r, result = some r ∧ r.ok = true) ∧
  (check = some false → ∃ r, result = some r ∧ r.ok = false ∧
    r.reasonCode = "agent_run_audit_pending" ∧ r.primaryOutcome = some .success ∧
    r.primaryReasonCode = some reasonCode)

theorem recordEvent_mem {made : Option (AgentRunAuditEvent × AgentRunAuditReceipt)}
    (followed : Follows (recordEvent D r phase outcome reasonCode handle) t (done made))
    (mem : ⟨.record event, some receipt⟩ ∈ t) : made = some (event, receipt) := by
  obtain ⟨timestamp, u, rfl, timed⟩ := Follows.answered followed
  obtain same | later := List.mem_cons.mp mem
  · nomatch same
  cases timestamp with
  | none =>
    obtain ⟨rfl, _⟩ := follows_done.mp timed
    nomatch later
  | some timestamp =>
    dsimp only at timed
    split at timed
    · obtain ⟨answer, v, rfl, recorded⟩ := timed.answered
      obtain same | last := List.mem_cons.mp later
      · cases same
        obtain ⟨_, same⟩ := follows_done.mp recorded
        exact done.inj same
      · have ended : v = [] := by
          cases answer with
          | none => exact (follows_done.mp recorded).1
          | some answer => exact (follows_done.mp recorded).1
        subst ended
        nomatch last
    · obtain ⟨rfl, _⟩ := follows_done.mp timed
      nomatch later

theorem not_success_of_failing (fails : ∀ x ∈ t, Records .outcome .failure x.question)
    (mem : ⟨.record event, some receipt⟩ ∈ t) : event.outcome ≠ .success := by
  intro success
  have failed := (fails _ mem).2
  rw [success] at failed
  nomatch failed

theorem conclude_success
    (followed : Follows (conclude D context operation authorization verdict) t (done result))
    (mem : ⟨.record event, some receipt⟩ ∈ t) (success : event.outcome = .success) :
    records t = [(event, some receipt)] ∧
      Reported event.reasonCode
        (receiptAcknowledgesEvent D receipt event (some authorization.receipt)) result := by
  cases verdict with
  | failed reasonCode handle cancellationResult =>
    have fails := ((postAuthorizationFailure_within _ _ _).follows followed).1
    exact absurd success (not_success_of_failing fails mem)
  | succeeded reasonCode handle cancellationResult replayed =>
    obtain ⟨u, check, v, rfl, first, rest⟩ := Follows.parts followed
    obtain ⟨w, made, z, rfl, recording, checking⟩ := Follows.parts first
    have ended : v = [] := by
      match check with
      | none => exact (follows_done.mp rest).1
      | some false => exact (follows_done.mp rest).1
      | some true => exact (follows_done.mp rest).1
    have checked : z = [] := by
      cases made with
      | none => exact (follows_done.mp checking).1
      | some made => exact (follows_done.mp checking).1
    subst ended checked
    rw [List.append_nil, List.append_nil] at mem ⊢
    obtain rfl := recordEvent_mem recording mem
    obtain ⟨stamp, rfl, rfl⟩ := recordEvent_some recording
    obtain ⟨_, same⟩ := follows_done.mp checking
    rw [← done.inj same]
    refine ⟨rfl, ?_, ?_⟩
    · rintro rfl
      obtain ⟨_, same⟩ := follows_done.mp rest
      exact ⟨_, done.inj same, rfl⟩
    · rintro rfl
      obtain ⟨_, same⟩ := follows_done.mp rest
      exact ⟨_, done.inj same, rfl, rfl, rfl, rfl⟩

variable {call : Port} {decide : call.Answer → Verdict} {caught : String}

theorem called_success (acts : call.isRecord = false)
    (followed : Follows (query call >>= fun answer =>
      conclude D context operation authorization (decide answer)) t (done result))
    (mem : ⟨.record event, some receipt⟩ ∈ t) (success : event.outcome = .success) :
    records t = [(event, some receipt)] ∧
      Reported event.reasonCode
        (receiptAcknowledgesEvent D receipt event (some authorization.receipt)) result := by
  obtain ⟨answer, u, rfl, rest⟩ := followed.answered
  have silent : records [⟨call, answer⟩] = [] := by
    refine records_eq_nil.mpr fun x mem => ?_
    rw [List.mem_singleton.mp mem]
    exact acts
  obtain same | later := List.mem_cons.mp mem
  · have same : Port.record event = call := congrArg Exchange.question same
    rw [← same] at acts
    nomatch acts
  · rw [← List.singleton_append, records_append, silent]
    exact conclude_success rest later success

theorem preflighted_success (acts : call.isRecord = false)
    (followed : Follows
      (preflighted D resolves context operation authorization call decide caught handle) t
      (done result))
    (mem : ⟨.record event, some receipt⟩ ∈ t) (success : event.outcome = .success) :
    records t = [(event, some receipt)] ∧
      Reported event.reasonCode
        (receiptAcknowledgesEvent D receipt event (some authorization.receipt)) result := by
  obtain ⟨u, reason, v, rfl, first, rest⟩ := Follows.parts followed
  have quiet := (providerPreflight_within.follows first).1
  have silent : records u = [] := records_eq_nil.mpr fun x mem => (quiet x mem).2
  have later : ⟨.record event, some receipt⟩ ∈ v := by
    obtain early | later := List.mem_append.mp mem
    · exact Bool.noConfusion (quiet _ early).2
    · exact later
  rw [records_append, silent]
  cases reason with
  | none => exact called_success acts rest later success
  | some reason =>
    have fails := ((preflightFailure_within _ _ _).follows rest).1
    exact absurd success (not_success_of_failing fails later)

end AgentRuntimeCoordinator

namespace Operation

open AgentRuntimeCoordinator

variable {D : Digests} {resolves : String → Bool} {context : RequestContext}
  {surface : ClientSurface} {op : Operation} {t : List (Exchange Port Port.Answer)}
  {authorization : AuthorizedAgentRun} {result : Option AgentRunOperationResult}
  {event : AgentRunAuditEvent} {receipt : AgentRunAuditReceipt}

theorem attempt_success
    (followed : Follows (op.attempt D resolves context authorization) t (done result))
    (mem : ⟨.record event, some receipt⟩ ∈ t) (success : event.outcome = .success) :
    records t = [(event, some receipt)] ∧
      Reported event.reasonCode
        (receiptAcknowledgesEvent D receipt event (some authorization.receipt)) result := by
  cases op with
  | start request => exact preflighted_success rfl followed mem success
  | resume handle request => exact preflighted_success rfl followed mem success
  | cancel handle request proofId proofDigest => exact called_success rfl followed mem success

/-- An operation that has had a success recorded has recorded its authorization before it
and nothing else, and it reports the success by the check of the two receipts. -/
theorem run_success
    (followed : Follows (op.run D resolves context surface) t (done result))
    (mem : ⟨.record event, some receipt⟩ ∈ t) (phase : event.phase = .outcome)
    (success : event.outcome = .success) : ∃ allowed authorized,
      records t = [(allowed, some authorized), (event, some receipt)] ∧
      Reported event.reasonCode
        (receiptAcknowledgesEvent D receipt event (some authorized)) result := by
  rw [run_eq] at followed
  obtain ⟨before, x, after, rfl, first, rest⟩ := followed.parts
  have gating := (gate_within.follows first).1
  have later : ⟨.record event, some receipt⟩ ∈ after := by
    obtain early | later := List.mem_append.mp mem
    · rw [(gating _ early).2 event rfl] at phase
      nomatch phase
    · exact later
  cases x with
  | error refused =>
    obtain ⟨rfl, _⟩ := follows_done.mp rest
    nomatch later
  | ok authorization =>
    obtain ⟨_, decision, time, stamp, rfl, _⟩ := gate_ok first
    obtain ⟨recorded, reported⟩ := attempt_success rest later success
    rw [records_append, recorded]
    exact ⟨_, _, rfl, reported⟩

end Operation

/-! ## Interleavings -/

open AgentRuntimeCoordinator

/-- An operation with the context and the surface of its caller. -/
structure Invocation where
  context : RequestContext
  surface : ClientSurface
  op : Operation

def Invocation.run (D : Digests) (resolves : String → Bool) (i : Invocation) :
    Consult (Option AgentRunOperationResult) :=
  i.op.run D resolves i.context i.surface

section

variable {D : Digests} {head : ChainHead} {first second : AgentRunAuditEvent}
  {ra ro : AgentRunAuditReceipt}
  {l m : List (AgentRunAuditEvent × Option AgentRunAuditReceipt)}

/-- Of two receipts of one chain, the second continues the first exactly if nothing was
appended between them. -/
theorem continues_iff (sha : ∀ text, isSha256 (D.sha256 text) = true)
    (appends : Appends D head ((first, some ra) :: l ++ (second, some ro) :: m)) :
    Continues ro ra ↔ l = [] := by
  obtain ⟨same, rest⟩ := appends
  obtain rfl := Option.some.inj same
  obtain ⟨last, sequence, _, same, _⟩ := appends_append sha rest
  obtain rfl := Option.some.inj same
  constructor
  · intro continues
    have next : last.sequence + 1 = head.sequence + 1 + 1 := continues.1
    have start : last.sequence = head.sequence + 1 + l.length := sequence
    rw [← List.length_eq_zero_iff]
    omega
  · rintro rfl
    rw [Option.some.inj rest.1]
    exact ⟨rfl, rfl⟩

/-- The check of the second of two receipts of one chain against the first. -/
theorem check_of_appends (sha : ∀ text, isSha256 (D.sha256 text) = true)
    (appends : Appends D head ((first, some ra) :: l ++ (second, some ro) :: m)) :
    receiptAcknowledgesEvent D ro second (some ra) = some (decide (l = [])) := by
  have continues := continues_iff sha appends
  obtain ⟨same, rest⟩ := appends
  obtain rfl := Option.some.inj same
  obtain ⟨last, _, hex, same, _⟩ := appends_append sha rest
  obtain rfl := Option.some.inj same
  have linked : isSha256 (last.receipt D second).previousReceiptDigest = true :=
    hex (ChainHead.next_hex sha)
  have sealed : isSha256 (head.receipt D first).receiptDigest = true := ChainHead.next_hex sha
  rw [check_of_acknowledges ChainHead.acknowledges sha, continuityMatches_eq linked sealed]
  exact congrArg some (decide_eq_decide.mpr continues)

end

/-- The first of two elements in a list of two. -/
theorem first_of_two {α : Type} {a b c d : α} {l m n : List α}
    (two : l ++ a :: (m ++ b :: n) = [c, d]) : c = a := by
  have lengths := congrArg List.length two
  simp only [List.length_append, List.length_cons, List.length_nil] at lengths
  obtain rfl : l = [] := List.length_eq_zero_iff.mp (by omega)
  obtain rfl : m = [] := List.length_eq_zero_iff.mp (by omega)
  simp only [List.nil_append, List.cons.injEq] at two
  exact two.1.symm

/-- Operations take turns over one audit chain. One of them that has had its success
recorded says so exactly if nothing was recorded between its authorization and its outcome;
else it says that the audit is pending, with the success as its primary outcome. -/
theorem success_reported_iff_undisturbed {ι : Type} [DecidableEq ι] {D : Digests}
    {resolves : String → Bool} {calls : ι → Invocation} {head : ChainHead}
    {t : List (ι × Exchange Port Port.Answer)} {ps : ι → Consult (Option AgentRunOperationResult)}
    (sha : ∀ text, isSha256 (D.sha256 text) = true)
    (turns : Turns Port.awaited (fun i => (calls i).run D resolves) t ps)
    (appends : Appends D head (records (t.map (·.2))))
    {i : ι} {before between after : List (ι × Exchange Port Port.Answer)}
    {allowed event : AgentRunAuditEvent} {authorized receipt : AgentRunAuditReceipt}
    (split : t = before ++ (i, ⟨.record allowed, some authorized⟩) :: between ++
      (i, ⟨.record event, some receipt⟩) :: after)
    (phase : event.phase = .outcome) (success : event.outcome = .success)
    {result : Option AgentRunOperationResult} (ended : ps i = done result) :
    ∃ r, result = some r ∧ (r.ok = true ↔ records (between.map (·.2)) = []) ∧
      (r.ok = false → r.reasonCode = "agent_run_audit_pending" ∧
        r.primaryOutcome = some .success ∧ r.primaryReasonCode = some event.reasonCode) := by
  have followed := turns.follows i
  rw [ended] at followed
  have mem : ⟨.record event, some receipt⟩ ∈ own i t := by
    rw [split, own_append, own_cons_self]
    exact List.mem_append_right _ List.mem_cons_self
  obtain ⟨a, ra, recorded, reported⟩ := Operation.run_success followed mem phase success
  -- the two records of the split are the only ones of this operation
  rw [split, List.append_assoc, own_append, List.cons_append, own_cons_self, own_append,
    own_cons_self, records_append, records_cons, records_append, records_cons] at recorded
  obtain ⟨rfl, same⟩ := Prod.mk.inj (first_of_two recorded)
  obtain rfl := Option.some.inj same
  have check : receiptAcknowledgesEvent D receipt event (some ra) =
      some (decide (records (between.map (·.2)) = [])) := by
    rw [split, List.append_assoc, List.map_append, List.cons_append, List.map_cons,
      List.map_append, List.map_cons, records_append, records_cons, records_append,
      records_cons] at appends
    obtain ⟨last, _, _, rest⟩ := appends_append sha appends
    exact check_of_appends sha rest
  rw [check] at reported
  by_cases undisturbed : records (between.map (·.2)) = []
  · rw [decide_eq_true undisturbed] at reported
    obtain ⟨r, rfl, ok⟩ := reported.1 rfl
    exact ⟨r, rfl, iff_of_true ok undisturbed, fun notOk => absurd ok (by simp [notOk])⟩
  · rw [decide_eq_false undisturbed] at reported
    obtain ⟨r, rfl, notOk, pending⟩ := reported.2 rfl
    exact ⟨r, rfl, iff_of_false (by simp [notOk]) undisturbed, fun _ => pending⟩

/-! ## Two starts -/

namespace TwoStarts

open StartSample

/-- Two runs are started by one caller. -/
def calls (second : Bool) : Invocation := ⟨context, .cli, .start (request (if second then 2 else 1))⟩

/-- The first start is cleared, and so is the second before the first goes on. -/
def cleared : List (Bool × Exchange Port Port.Answer) :=
  (clearance digests (asks 1) decision 2 2 (receipt 1)).map (Prod.mk false) ++
    (clearance digests (asks 2) decision 2 2 (receipt 2)).map (Prod.mk true)

def trace : List (Bool × Exchange Port Port.Answer) :=
  cleared ++ (discovered.take 2).map (Prod.mk false) ++ (discovered.drop 2).map (Prod.mk false) ++
    (outcome 1 3).map (Prod.mk false)

/-- A start, cut where it awaits the runtime. -/
theorem cut {run : Nat} {first second : Int} {p : Consult (Option AgentRunOperationResult)}
    {result : Option AgentRunOperationResult}
    (followed : Follows p (prelude run first ++ outcome run second) (done result)) :
    ∃ p₁ p₂ p₃ : Consult (Option AgentRunOperationResult),
      Turn Port.awaited p (clearance digests (asks run) decision 2 2 (receipt first)) p₁ ∧
      Turn Port.awaited p₁ (discovered.take 2) p₂ ∧
      Turn Port.awaited p₂ (discovered.drop 2) p₃ ∧
      Turn Port.awaited p₃ (outcome run second) (done result) := by
  have whole : Follows p (clearance digests (asks run) decision 2 2 (receipt first) ++
    found :: ([able] ++ healthy :: ([] ++ outcome run second))) (done result) := followed
  obtain ⟨k₁, cleared, rest⟩ := whole.split
  obtain ⟨k₂, asked, rest⟩ := rest.split
  obtain ⟨k₃, checked, rest⟩ := rest.split
  exact ⟨_, _, _,
    ⟨cleared, by simp [clearance, Port.awaited], rests_ask rfl⟩,
    ⟨.next asked, by simp [discovered, able, Port.awaited], rests_ask rfl⟩,
    ⟨.next checked, by simp [discovered], rests_ask rfl⟩,
    ⟨.next rest, by simp [outcome, Port.awaited], rests_done⟩⟩

/-- The whole trace is one of turns, in which the first start ends. -/
theorem turns : ∃ ps result, Turns Port.awaited
    (fun i => (calls i).run digests (fun _ => true)) trace ps ∧
    ps false = done (some result) ∧ result.ok = false ∧
    result.reasonCode = "agent_run_audit_pending" := by
  obtain ⟨result, followed, ok, pending⟩ := start_follows 1 1 3
  obtain ⟨_, other, _⟩ := start_follows 2 2 3
  obtain ⟨p₁, p₂, p₃, turn₁, turn₂, turn₃, turn₄⟩ := cut followed
  obtain ⟨p', _, _, turn', _⟩ := cut other
  have none : Turns Port.awaited (fun i => (calls i).run digests (fun _ => true)) [] _ := .nil
  have both := (none.turn false turn₁).turn true turn'
  have ended := ((both.turn false turn₂).turn false turn₃).turn false turn₄
  exact ⟨_, result, ended, rfl, ok, pending ok⟩

theorem appends : Appends digests ⟨0, hex⟩ (records (trace.map (·.2))) := by
  have recorded : records (trace.map (·.2)) = [
      (auditEvent digests (asks 1) .authorization .allow "allowed" none 2, some (receipt 1)),
      (auditEvent digests (asks 2) .authorization .allow "allowed" none 2, some (receipt 2)),
      (auditEvent digests (asks 1) .outcome .success "agent_run_started" (some (handle 1)) 3,
        some (receipt 3))] := rfl
  rw [recorded]
  exact ⟨rfl, rfl, rfl, trivial⟩

/-- What stands between the two records of the first start. -/
def between : List (Bool × Exchange Port Port.Answer) :=
  (clearance digests (asks 2) decision 2 2 (receipt 2)).map (Prod.mk true) ++
    discovered.map (Prod.mk false) ++ [(false, started 1), (false, ⟨.clock, some (3 : Instant)⟩)]

end TwoStarts

open StartSample TwoStarts

/-- Two starts over one chain: the first one's success is recorded and acknowledged, and
yet it reports a pending audit, since the second one was authorized in between. -/
theorem success_spoiled_by_other_operation : ∃ ps result,
    Turns Port.awaited (fun i => (calls i).run digests (fun _ => true)) trace ps ∧
    Appends digests ⟨0, hex⟩ (records (trace.map (·.2))) ∧
    (false, started 1) ∈ trace ∧
    (false, ⟨.record (auditEvent digests (asks 1) .outcome .success "agent_run_started"
      (some (handle 1)) 3), some (receipt 3)⟩) ∈ trace ∧
    (receipt 3).acknowledged = true ∧
    ps false = done (some result) ∧ result.ok = false ∧
    result.reasonCode = "agent_run_audit_pending" := by
  obtain ⟨ps, result, turns, ended, notOk, pending⟩ := TwoStarts.turns
  refine ⟨ps, result, turns, TwoStarts.appends, ?_, ?_, rfl, ended, notOk, pending⟩
  · simp [trace, outcome]
  · simp [trace, outcome]

theorem success_reported_iff_undisturbed_sample : ∃ ps result,
    Turns Port.awaited (fun i => (calls i).run digests (fun _ => true)) trace ps ∧
    ps false = done result ∧
    ∃ r, result = some r ∧ (r.ok = true ↔ records (between.map (·.2)) = []) ∧
      (r.ok = false → r.reasonCode = "agent_run_audit_pending" ∧
        r.primaryOutcome = some .success ∧ r.primaryReasonCode = some "agent_run_started") := by
  obtain ⟨ps, result, turns, ended, _⟩ := TwoStarts.turns
  have split : trace = [(false, ⟨.authorize (StartSample.asks 1), some decision⟩),
        (false, ⟨.clock, some (2 : Instant)⟩), (false, ⟨.clock, some (2 : Instant)⟩)] ++
      (false, ⟨.record (auditEvent digests (StartSample.asks 1) .authorization .allow "allowed"
        none 2), some (receipt 1)⟩) :: between ++
      (false, ⟨.record (auditEvent digests (StartSample.asks 1) .outcome .success
        "agent_run_started" (some (handle 1)) 3), some (receipt 3)⟩) :: [] := rfl
  exact ⟨ps, some result, turns, ended, success_reported_iff_undisturbed (fun _ => hex_valid)
    turns TwoStarts.appends split rfl rfl ended⟩

end Corvus.Agent
