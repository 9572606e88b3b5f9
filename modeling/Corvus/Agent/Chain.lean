import Corvus.Agent.Events
import Corvus.Library.Except
import Mathlib.Data.List.Basic
import Mathlib.Data.List.Induction

/-!
# The grammar of an agent run

The streams that the validator accepts are those of a grammar: one start, a chain of
digests without gaps, and for every tool call a request, approvals, and at most one
end. The proof follows the stream event by event. What the validator keeps is a
function of the events it has passed, and it passes one more exactly when the
grammar allows it next.
-/

namespace Corvus.Agent

/-! ## The steps of one tool call -/

/-- The types of events that belong to a tool call when they carry its id. -/
def AgentRunEventType.onCall : AgentRunEventType → Bool
  | toolRequested | toolBlocked | toolStarted | toolResult | approvalRequired => true
  | _ => false

def AgentRunEvent.concerns (e : AgentRunEvent) (call : String) : Bool :=
  e.eventType.onCall && decide (e.toolCallId = some call)

/-- The steps of a tool call in a stream. -/
def steps (call : String) (events : List AgentRunEvent) : List AgentRunEventType :=
  (events.filter (·.concerns call)).map (·.eventType)

/-- A request and approvals. -/
def requesting (n : Nat) : List AgentRunEventType :=
  .toolRequested :: List.replicate n .approvalRequired

/-- A start and approvals. -/
def starting (n : Nat) : List AgentRunEventType :=
  .toolStarted :: List.replicate n .approvalRequired

/-- The steps that a tool call may have taken. -/
inductive Lifecycle : List AgentRunEventType → Prop
  | absent : Lifecycle []
  | requested (n) : Lifecycle (requesting n)
  | blocked (n) : Lifecycle (requesting n ++ [.toolBlocked])
  | started (n m) : Lifecycle (requesting n ++ starting m)
  | finished (n m) : Lifecycle (requesting n ++ starting m ++ [.toolResult])

/-- The tool call has come to its end. -/
def Finished (l : List AgentRunEventType) : Prop := .toolBlocked ∈ l ∨ .toolResult ∈ l

/-- The steps that may follow. -/
def MayFollow (l : List AgentRunEventType) : AgentRunEventType → Prop
  | .toolRequested => l = []
  | .toolBlocked | .toolStarted => l ≠ [] ∧ ¬ Finished l ∧ .toolStarted ∉ l
  | .toolResult => l ≠ [] ∧ ¬ Finished l ∧ .toolStarted ∈ l
  | .approvalRequired => l ≠ [] ∧ ¬ Finished l
  | _ => False

section Lifecycle

variable {l : List AgentRunEventType} {t : AgentRunEventType}

theorem requesting_succ (n : Nat) : requesting (n + 1) = requesting n ++ [.approvalRequired] := by
  simp [requesting, List.replicate_succ']

theorem starting_succ (n : Nat) : starting (n + 1) = starting n ++ [.approvalRequired] := by
  simp [starting, List.replicate_succ']

@[simp] theorem mem_starting {n : Nat} :
    t ∈ starting n ↔ t = .toolStarted ∨ n ≠ 0 ∧ t = .approvalRequired := by
  simp [starting, List.mem_replicate]

theorem snoc_inj {α : Type} {l k : List α} {a b : α} (h : l ++ [a] = k ++ [b]) : l = k ∧ a = b :=
  (List.append_inj' h rfl).imp id List.singleton_inj.mp

/-- One more step keeps the lifecycle exactly when it may follow. -/
theorem lifecycle_snoc : Lifecycle (l ++ [t]) ↔ Lifecycle l ∧ MayFollow l t := by
  constructor
  · intro h
    generalize eq : l ++ [t] = k at h
    cases h with
    | absent => simp at eq
    | requested n =>
        cases n with
        | zero =>
            obtain ⟨rfl, rfl⟩ := snoc_inj (k := []) eq
            exact ⟨.absent, rfl⟩
        | succ n =>
            rw [requesting_succ] at eq
            obtain ⟨rfl, rfl⟩ := snoc_inj eq
            exact ⟨.requested n, by simp [MayFollow, Finished, requesting]⟩
    | blocked n =>
        obtain ⟨rfl, rfl⟩ := snoc_inj eq
        exact ⟨.requested n, by simp [MayFollow, Finished, requesting]⟩
    | started n m =>
        cases m with
        | zero =>
            obtain ⟨rfl, rfl⟩ := snoc_inj eq
            exact ⟨.requested n, by simp [MayFollow, Finished, requesting]⟩
        | succ m =>
            rw [starting_succ, ← List.append_assoc] at eq
            obtain ⟨rfl, rfl⟩ := snoc_inj eq
            exact ⟨.started n m, by simp [MayFollow, Finished, requesting, starting]⟩
    | finished n m =>
        obtain ⟨rfl, rfl⟩ := snoc_inj eq
        exact ⟨.started n m, by simp [MayFollow, Finished, requesting, starting]⟩
  · rintro ⟨h, follows⟩
    cases h with
    | absent =>
        cases t <;> simp [MayFollow] at follows
        exact .requested 0
    | requested n =>
        cases t <;> simp [MayFollow, Finished, requesting] at follows
        · exact .blocked n
        · exact .started n 0
        · rw [← requesting_succ]
          exact .requested (n + 1)
    | started n m =>
        cases t <;> simp [MayFollow, Finished, requesting, starting] at follows
        · exact .finished n m
        · rw [List.append_assoc, ← starting_succ]
          exact .started n (m + 1)
    | blocked n => cases t <;> simp [MayFollow, Finished, requesting] at follows
    | finished n m => cases t <;> simp [MayFollow, Finished, requesting] at follows

end Lifecycle

/-! ## The grammar of a stream -/

/-- The run state that the last event leaves. -/
def finalState (events : List AgentRunEvent) : AgentRunState :=
  (events.getLast?.bind (·.eventType.terminalState)).getD .running

/-- The events whose type needs a tool call id. -/
def AgentRunEventType.isTool : AgentRunEventType → Bool
  | toolRequested | toolBlocked | toolStarted | toolResult => true
  | _ => false

/-- The events of one run so far: all of the grammar but its start. -/
structure Unfolds (D : Digests) (runId handleId : Uuid) (events : List AgentRunEvent) : Prop where
  single : events.Pairwise fun e f => ¬ (e.eventType = .started ∧ f.eventType = .started)
  sequences : events.map (·.sequence) = List.range' 1 events.length
  bound : ∀ e ∈ events, e.runId = runId ∧ e.handleId = handleId
  digests : ∀ e ∈ events, e.eventDigest = e.computeDigest D
  chained : events.map (·.previousEventDigest) =
    (GENESIS_EVENT_DIGEST :: events.map (·.eventDigest)).dropLast
  providerEvents : (events.filterMap (·.providerEventId)).Nodup
  identified : ∀ e ∈ events, e.eventType.isTool = true → e.toolCallId ≠ none
  calls : ∀ call, Lifecycle (steps call events)
  referenced : ∀ call, ∃ reference, ∀ e ∈ events, e.concerns call = true →
    e.reference = some reference
  separate : ∀ e ∈ events, ∀ f ∈ events, e.eventType = .toolRequested →
    f.eventType = .toolRequested → e.reference = f.reference → e.toolCallId = f.toolCallId
  ended : ∀ e ∈ events.dropLast, e.eventType.terminalState = none
  resolved : ∀ e ∈ events.getLast?, e.eventType.terminalState ≠ none →
    ∀ call, steps call events ≠ [] → Finished (steps call events)

/-- The event may come next. -/
structure Admits (D : Digests) (runId handleId : Uuid) (events : List AgentRunEvent)
    (e : AgentRunEvent) : Prop where
  running : ∀ f ∈ events.getLast?, f.eventType.terminalState = none
  single : e.eventType = .started → ∀ f ∈ events, f.eventType ≠ .started
  sequence : e.sequence = 1 + events.length
  bound : e.runId = runId ∧ e.handleId = handleId
  digest : e.eventDigest = e.computeDigest D
  chained : e.previousEventDigest = (events.getLast?.map (·.eventDigest)).getD GENESIS_EVENT_DIGEST
  provider : ∀ id ∈ e.providerEventId, ∀ f ∈ events, f.providerEventId ≠ some id
  identified : e.eventType.isTool = true → e.toolCallId ≠ none
  call : ∀ call, e.concerns call = true → MayFollow (steps call events) e.eventType
  referenced : ∀ call, e.concerns call = true → ∃ reference, e.reference = some reference ∧
    ∀ f ∈ events, f.concerns call = true → f.reference = some reference
  separate : e.eventType = .toolRequested → ∀ f ∈ events, f.eventType = .toolRequested →
    e.reference = f.reference → e.toolCallId = f.toolCallId
  resolved : e.eventType.terminalState ≠ none → ∀ call, steps call events ≠ [] →
    Finished (steps call events)

section Snoc

variable {D : Digests} {runId handleId : Uuid} {events : List AgentRunEvent} {e : AgentRunEvent}
  {call : String}

theorem steps_snoc : steps call (events ++ [e]) =
    steps call events ++ if e.concerns call then [e.eventType] else [] := by
  unfold steps
  rw [List.filter_append, List.map_append]
  split
  · rename_i h
    simp [h]
  · rename_i h
    simp [h]

theorem concerns_iff : e.concerns call = true ↔ e.eventType.onCall = true ∧ e.toolCallId = some call := by
  simp [AgentRunEvent.concerns]

theorem unfolds_nil : Unfolds D runId handleId [] := by
  constructor
  case calls => exact fun _ => .absent
  case referenced => exact fun _ => ⟨⟨⟨0⟩, ""⟩, by simp⟩
  all_goals simp

theorem terminal_aside (h : e.eventType.terminalState ≠ none) (call : String) :
    e.concerns call = false := by
  unfold AgentRunEvent.concerns
  cases type : e.eventType <;> simp_all [AgentRunEventType.terminalState, AgentRunEventType.onCall]

theorem sequences_snoc :
    (events ++ [e]).map (·.sequence) = List.range' 1 (events ++ [e]).length ↔
      events.map (·.sequence) = List.range' 1 events.length ∧ e.sequence = 1 + events.length := by
  rw [List.map_append, List.length_append, List.length_singleton, List.range'_concat]
  constructor
  · intro h
    obtain ⟨same, last⟩ := snoc_inj h
    exact ⟨same, by simpa using last⟩
  · rintro ⟨same, last⟩
    simp [same, last]

theorem chained_snoc : (events ++ [e]).map (·.previousEventDigest) =
    (GENESIS_EVENT_DIGEST :: (events ++ [e]).map (·.eventDigest)).dropLast ↔
      events.map (·.previousEventDigest) =
        (GENESIS_EVENT_DIGEST :: events.map (·.eventDigest)).dropLast ∧
      e.previousEventDigest =
        (events.getLast?.map (·.eventDigest)).getD GENESIS_EVENT_DIGEST := by
  have digests : (GENESIS_EVENT_DIGEST :: (events ++ [e]).map (·.eventDigest)).dropLast =
      (GENESIS_EVENT_DIGEST :: events.map (·.eventDigest)).dropLast ++
        [(events.getLast?.map (·.eventDigest)).getD GENESIS_EVENT_DIGEST] := by
    rw [List.map_append, ← List.cons_append, List.map_singleton, List.dropLast_concat]
    cases events using List.reverseRecOn with
    | nil => rfl
    | append_singleton events f =>
      rw [List.map_append, List.map_singleton, ← List.cons_append, List.dropLast_concat]
      simp
  rw [digests, List.map_append]
  exact ⟨snoc_inj, fun h => by simp [h.1, h.2]⟩

theorem providerEvents_snoc : ((events ++ [e]).filterMap (·.providerEventId)).Nodup ↔
    (events.filterMap (·.providerEventId)).Nodup ∧
      ∀ id ∈ e.providerEventId, ∀ f ∈ events, f.providerEventId ≠ some id := by
  rw [List.filterMap_append]
  cases given : e.providerEventId with
  | none => simp [given]
  | some id =>
      simp only [List.nodup_append, List.filterMap_cons_some given, List.filterMap_nil,
        List.nodup_singleton, true_and, List.mem_singleton, List.mem_filterMap, Option.mem_some]
      refine and_congr_right fun _ => ⟨fun h => ?_, fun h => ?_⟩
      · rintro _ rfl f hf same
        exact h id ⟨f, hf, same⟩ id rfl rfl
      · rintro a ⟨f, hf, same⟩ _ rfl rfl
        exact h _ rfl f hf same

theorem calls_snoc : (∀ call, Lifecycle (steps call (events ++ [e]))) ↔
    (∀ call, Lifecycle (steps call events)) ∧
      ∀ call, e.concerns call = true → MayFollow (steps call events) e.eventType := by
  rw [← forall_and]
  refine forall_congr' fun call => ?_
  rw [steps_snoc]
  split
  · rename_i h
    simp [lifecycle_snoc, h]
  · rename_i h
    simp [h]

theorem referenced_snoc : (∀ call, ∃ reference, ∀ f ∈ events ++ [e], f.concerns call = true →
      f.reference = some reference) ↔
    (∀ call, ∃ reference, ∀ f ∈ events, f.concerns call = true → f.reference = some reference) ∧
      ∀ call, e.concerns call = true → ∃ reference, e.reference = some reference ∧
        ∀ f ∈ events, f.concerns call = true → f.reference = some reference := by
  simp only [List.forall_mem_append, List.forall_mem_singleton]
  constructor
  · intro h
    refine ⟨fun call => ?_, fun call concerns => ?_⟩
    · obtain ⟨reference, before, -⟩ := h call
      exact ⟨reference, before⟩
    · obtain ⟨reference, before, same⟩ := h call
      exact ⟨reference, same concerns, before⟩
  · rintro ⟨before, last⟩ call
    by_cases concerns : e.concerns call = true
    · obtain ⟨reference, same, all⟩ := last call concerns
      exact ⟨reference, all, fun _ => same⟩
    · obtain ⟨reference, all⟩ := before call
      exact ⟨reference, all, fun h => absurd h concerns⟩

theorem separate_snoc : (∀ f ∈ events ++ [e], ∀ g ∈ events ++ [e], f.eventType = .toolRequested →
      g.eventType = .toolRequested → f.reference = g.reference → f.toolCallId = g.toolCallId) ↔
    (∀ f ∈ events, ∀ g ∈ events, f.eventType = .toolRequested → g.eventType = .toolRequested →
      f.reference = g.reference → f.toolCallId = g.toolCallId) ∧
      (e.eventType = .toolRequested → ∀ f ∈ events, f.eventType = .toolRequested →
        e.reference = f.reference → e.toolCallId = f.toolCallId) := by
  simp only [List.forall_mem_append, List.forall_mem_singleton]
  constructor
  · rintro ⟨before, last, -⟩
    exact ⟨fun f hf => (before f hf).1, fun request f hf => last f hf request⟩
  · rintro ⟨before, last⟩
    refine ⟨fun f hf => ⟨before f hf, fun request request' same => ?_⟩,
      fun f hf request => last request f hf, by simp⟩
    exact (last request' f hf request same.symm).symm

theorem ended_snoc : (∀ f ∈ (events ++ [e]).dropLast, f.eventType.terminalState = none) ↔
    (∀ f ∈ events.dropLast, f.eventType.terminalState = none) ∧
      ∀ f ∈ events.getLast?, f.eventType.terminalState = none := by
  rw [List.dropLast_concat]
  cases events using List.reverseRecOn with
  | nil => simp
  | append_singleton events f => simp [or_imp, forall_and]

/-- A stream unfolds event by event. -/
theorem unfolds_snoc : Unfolds D runId handleId (events ++ [e]) ↔
    Unfolds D runId handleId events ∧ Admits D runId handleId events e := by
  constructor
  · intro u
    obtain ⟨sequences, sequence⟩ := sequences_snoc.mp u.sequences
    obtain ⟨chained, previous⟩ := chained_snoc.mp u.chained
    obtain ⟨providers, provider⟩ := providerEvents_snoc.mp u.providerEvents
    obtain ⟨calls, follows⟩ := calls_snoc.mp u.calls
    obtain ⟨referenced, reference⟩ := referenced_snoc.mp u.referenced
    obtain ⟨separate, apart⟩ := separate_snoc.mp u.separate
    obtain ⟨ended, running⟩ := ended_snoc.mp u.ended
    obtain ⟨single, -, first⟩ := List.pairwise_append.mp u.single
    have bound := List.forall_mem_append.mp u.bound
    have digests := List.forall_mem_append.mp u.digests
    have identified := List.forall_mem_append.mp u.identified
    refine ⟨⟨single, sequences, bound.1, digests.1, chained, providers, identified.1, calls,
      referenced, separate, ended, fun f hf terminal => absurd (running f hf) terminal⟩, running,
      fun started f hf starts => first f hf e (List.mem_singleton.mpr rfl) ⟨starts, started⟩,
      sequence, bound.2 e (List.mem_singleton.mpr rfl), digests.2 e (List.mem_singleton.mpr rfl),
      previous, provider, identified.2 e (List.mem_singleton.mpr rfl), follows, reference, apart,
      fun terminal call requested => ?_⟩
    have resolved := u.resolved e (by simp) terminal call
    rw [steps_snoc, terminal_aside terminal, if_neg Bool.false_ne_true, List.append_nil] at resolved
    exact resolved requested
  · rintro ⟨u, a⟩
    have single : (events ++ [e]).Pairwise fun f g =>
        ¬ (f.eventType = .started ∧ g.eventType = .started) := by
      refine List.pairwise_append.mpr ⟨u.single, List.pairwise_singleton _ _, fun f hf g hg => ?_⟩
      rw [List.mem_singleton.mp hg]
      exact fun both => a.single both.2 f hf both.1
    refine ⟨single, sequences_snoc.mpr ⟨u.sequences, a.sequence⟩, ?_, ?_,
      chained_snoc.mpr ⟨u.chained, a.chained⟩, providerEvents_snoc.mpr ⟨u.providerEvents, a.provider⟩,
      ?_, calls_snoc.mpr ⟨u.calls, a.call⟩, referenced_snoc.mpr ⟨u.referenced, a.referenced⟩,
      separate_snoc.mpr ⟨u.separate, a.separate⟩, ended_snoc.mpr ⟨u.ended, a.running⟩, ?_⟩
    · exact List.forall_mem_append.mpr ⟨u.bound, List.forall_mem_singleton.mpr a.bound⟩
    · exact List.forall_mem_append.mpr ⟨u.digests, List.forall_mem_singleton.mpr a.digest⟩
    · exact List.forall_mem_append.mpr ⟨u.identified, List.forall_mem_singleton.mpr a.identified⟩
    · intro f hf terminal call
      obtain rfl : e = f := by simpa using hf
      rw [steps_snoc, terminal_aside terminal, if_neg Bool.false_ne_true, List.append_nil]
      exact a.resolved terminal call

end Snoc

/-! ## What the validator has seen -/

/-- The entry that a request makes in `requested_tools`. -/
def AgentRunEvent.request (e : AgentRunEvent) : Option (String × DecisionReference) :=
  if e.eventType = .toolRequested then
    e.toolCallId.bind fun call => e.reference.map fun reference => (call, reference)
  else none

def AgentRunEvent.start (e : AgentRunEvent) : Option String :=
  if e.eventType = .toolStarted then e.toolCallId else none

def AgentRunEvent.finish (e : AgentRunEvent) : Option String :=
  if e.eventType = .toolBlocked ∨ e.eventType = .toolResult then e.toolCallId else none

/-- What the validator keeps of the events so far. -/
def seen (events : List AgentRunEvent) : Seen where
  previousDigest := (events.getLast?.map (·.eventDigest)).getD GENESIS_EVENT_DIGEST
  providerEventIds := (events.filterMap (·.providerEventId)).reverse
  requestedTools := (events.filterMap (·.request)).reverse
  decisionToolCalls := ((events.filterMap (·.request)).map Prod.swap).reverse
  startedTools := (events.filterMap (·.start)).reverse
  finishedTools := (events.filterMap (·.finish)).reverse
  state := finalState events
  terminalSeen := (events.getLast?.bind (·.eventType.terminalState)).isSome
  startedSeen := events.any fun e => e.eventType = .started

namespace Seen

/-- The tool call is requested and not finished, by the reference of the event. -/
def OnOpenCall (s : Seen) (call : String) (e : AgentRunEvent) : Prop :=
  ∃ reference, s.requestedTools.lookup call = some reference ∧ call ∉ s.finishedTools ∧
    e.reference = some reference

/-- The event passes the checks on tool calls. -/
def AdmitsTool (s : Seen) (e : AgentRunEvent) : Prop :=
  match e.eventType with
  | .toolRequested => ∃ call reference, e.toolCallId = some call ∧
      s.requestedTools.lookup call = none ∧ e.reference = some reference ∧
      ∀ prior, s.decisionToolCalls.lookup reference = some prior → prior = call
  | .toolBlocked | .toolStarted => ∃ call, e.toolCallId = some call ∧ s.OnOpenCall call e ∧
      call ∉ s.startedTools
  | .toolResult => ∃ call, e.toolCallId = some call ∧ s.OnOpenCall call e ∧ call ∈ s.startedTools
  | .approvalRequired => ∀ call, e.toolCallId = some call → s.OnOpenCall call e
  | _ => True

/-- The entries that the event adds. -/
def noting (s : Seen) (e : AgentRunEvent) : Seen :=
  { s with
    requestedTools := e.request.toList ++ s.requestedTools
    decisionToolCalls := (e.request.map Prod.swap).toList ++ s.decisionToolCalls
    startedTools := e.start.toList ++ s.startedTools
    finishedTools := e.finish.toList ++ s.finishedTools }

variable {D : Digests} {runId handleId : Uuid} {s s' : Seen} {e : AgentRunEvent} {call : String}
  {n : Nat} {u : Unit}

theorem bound_ok : s.bound D runId handleId n e = .ok u ↔
    s.terminalSeen = false ∧ e.eventDigest = e.computeDigest D ∧ e.sequence = n ∧
      e.runId = runId ∧ e.handleId = handleId ∧ e.previousEventDigest = s.previousDigest := by
  unfold bound
  simp only [throw_bind, ite_error_eq_ok, ite_throw_eq_ok, pure_eq_ok, not_or, not_not, ne_eq,
    Bool.not_eq_true, and_true]

theorem identified_ok : s.identified e = .ok s' ↔
    (e.eventType = .started → s.startedSeen = false) ∧
      (∀ id ∈ e.providerEventId, id ∉ s.providerEventIds) ∧
      s' = { s with
        startedSeen := s.startedSeen || decide (e.eventType = .started)
        providerEventIds := e.providerEventId.toList ++ s.providerEventIds } := by
  unfold identified
  cases e.providerEventId with
  | none =>
      simp only [throw_bind, ite_error_eq_ok, pure_eq_ok, not_and, Bool.not_eq_true,
        Except.ok.injEq, eq_comm (b := s')]
      simp
  | some id =>
      simp only [throw_bind, ite_error_eq_ok, pure_eq_ok, not_and, Bool.not_eq_true,
        Except.ok.injEq, eq_comm (b := s')]
      simp

theorem reference_ok {reference : DecisionReference} :
    effectAuthorizationReference e = .ok reference ↔ e.reference = some reference := by
  unfold effectAuthorizationReference
  cases e.reference <;> simp

theorem onOpenCall_ok : s.onOpenCall call e = .ok u ↔ s.OnOpenCall call e := by
  unfold onOpenCall OnOpenCall
  cases s.requestedTools.lookup call with
  | none => simp [throw_ne_ok]
  | some requested =>
      simp only [throw_bind, ite_error_eq_ok, ite_throw_eq_ok, pure_eq_ok, bind_eq_ok, reference_ok,
        not_not, ne_eq, and_true]
      constructor
      · rintro ⟨unfinished, reference, same, rfl⟩
        exact ⟨reference, rfl, unfinished, same⟩
      · rintro ⟨reference, ⟨⟩, unfinished, same⟩
        exact ⟨unfinished, _, same, rfl⟩

/-- A request. -/
theorem requested_ok (type : e.eventType = .toolRequested) :
    s.tool e = .ok s' ↔ s.AdmitsTool e ∧ s' = s.noting e := by
  unfold tool AdmitsTool
  rw [type]
  cases given : e.toolCallId with
  | none => simp [throw_ne_ok]
  | some call =>
      have unseen : ¬ (s.requestedTools.lookup call).isSome = true ↔
          s.requestedTools.lookup call = none := Option.not_isSome_iff_eq_none
      simp only [throw_bind, ite_error_eq_ok, bind_eq_ok, reference_ok, unseen, Option.some.injEq]
      constructor
      · rintro ⟨fresh, reference, same, rest⟩
        refine ⟨⟨call, reference, rfl, fresh, same, ?_⟩, ?_⟩
        · intro prior found
          rw [found] at rest
          simp only [ite_error_eq_ok, ne_eq, not_not] at rest
          exact rest.1
        · have eq : s' = { s with
              requestedTools := (call, reference) :: s.requestedTools
              decisionToolCalls := (reference, call) :: s.decisionToolCalls } := by
            split at rest
            · exact (Except.ok.inj rest).symm
            · simp only [ite_error_eq_ok] at rest
              exact (Except.ok.inj rest.2).symm
          simp [eq, noting, AgentRunEvent.request, AgentRunEvent.start, AgentRunEvent.finish, type,
            given, same]
      · rintro ⟨⟨call', reference, rfl, fresh, same, prior⟩, rfl⟩
        refine ⟨fresh, reference, same, ?_⟩
        have noted : s.noting e = { s with
            requestedTools := (call, reference) :: s.requestedTools
            decisionToolCalls := (reference, call) :: s.decisionToolCalls } := by
          simp [noting, AgentRunEvent.request, AgentRunEvent.start, AgentRunEvent.finish, type,
            given, same]
        rw [noted]
        split
        · rfl
        · rename_i found
          rw [prior _ found, if_neg (by simp)]
          rfl

theorem tool_ok : s.tool e = .ok s' ↔ s.AdmitsTool e ∧ s' = s.noting e := by
  by_cases request : e.eventType = .toolRequested
  · exact requested_ok request
  have no_request : e.request = none := if_neg request
  unfold tool AdmitsTool noting
  rw [no_request]
  cases type : e.eventType <;> cases given : e.toolCallId
  case neg.toolResult.some call =>
    by_cases started : call ∈ s.startedTools
    · simp [bind_eq_ok, onOpenCall_ok, pure_eq_ok, type, given, started, AgentRunEvent.start,
        AgentRunEvent.finish, eq_comm (b := s')]
    · simp only [bind_eq_ok, started, not_false_eq_true, if_true, throw_bind, reduceCtorEq, and_false,
        exists_false, Option.some.injEq, exists_eq_left', false_and]
  all_goals first
    | exact absurd type request
    | simp [throw_ne_ok, throw_bind, ite_error_eq_ok, bind_eq_ok, onOpenCall_ok, pure_eq_ok, type,
        given, AgentRunEvent.start, AgentRunEvent.finish, eq_comm (b := s'), and_assoc]

theorem closed_ok : s.closed e = .ok s' ↔
    (e.eventType.terminalState ≠ none →
      ∀ entry ∈ s.requestedTools, entry.1 ∈ s.finishedTools) ∧
      s' = { s with
        previousDigest := e.eventDigest
        state := e.eventType.terminalState.getD s.state
        terminalSeen := s.terminalSeen || e.eventType.terminalState.isSome } := by
  unfold closed
  cases e.eventType.terminalState with
  | none =>
      simp only [pure_eq_ok, Except.ok.injEq, eq_comm (b := s')]
      simp
  | some state =>
      simp only [throw_bind, ite_error_eq_ok, pure_eq_ok, Except.ok.injEq, eq_comm (b := s')]
      simp

theorem pass_ok : s.pass D runId handleId n e = .ok s' ↔
    (s.terminalSeen = false ∧ e.eventDigest = e.computeDigest D ∧ e.sequence = n ∧
      e.runId = runId ∧ e.handleId = handleId ∧ e.previousEventDigest = s.previousDigest) ∧
      (e.eventType = .started → s.startedSeen = false) ∧
      (∀ id ∈ e.providerEventId, id ∉ s.providerEventIds) ∧ s.AdmitsTool e ∧
      (e.eventType.terminalState ≠ none →
        ∀ entry ∈ (s.noting e).requestedTools, entry.1 ∈ (s.noting e).finishedTools) ∧
      s' = { s.noting e with
        previousDigest := e.eventDigest
        providerEventIds := e.providerEventId.toList ++ s.providerEventIds
        startedSeen := s.startedSeen || decide (e.eventType = .started)
        state := e.eventType.terminalState.getD s.state
        terminalSeen := s.terminalSeen || e.eventType.terminalState.isSome } := by
  unfold pass
  simp only [bind_eq_ok, bound_ok, identified_ok, tool_ok, closed_ok]
  constructor
  · rintro ⟨-, bound, -, ⟨single, provider, rfl⟩, -, ⟨tool, rfl⟩, resolved, rfl⟩
    exact ⟨bound, single, provider, tool, resolved, rfl⟩
  · rintro ⟨bound, single, provider, tool, resolved, rfl⟩
    exact ⟨(), bound, _, ⟨single, provider, rfl⟩, _, ⟨tool, rfl⟩, resolved, rfl⟩

/-- The loop over one more event. -/
theorem passAll_snoc {events : List AgentRunEvent} :
    s.passAll D runId handleId n (events ++ [e]) =
      s.passAll D runId handleId n events >>= fun t => t.pass D runId handleId (n + events.length) e := by
  induction events generalizing s n with
  | nil => simp [passAll]
  | cons f events ih =>
      simp only [List.cons_append, passAll, ih, bind_assoc, List.length_cons]
      rw [Nat.add_assoc, Nat.add_comm 1]

end Seen

section Bridge

variable {D : Digests} {runId handleId : Uuid} {events : List AgentRunEvent} {e : AgentRunEvent}
  {call : String} {reference : DecisionReference}

theorem request_eq_some : e.request = some (call, reference) ↔
    e.eventType = .toolRequested ∧ e.toolCallId = some call ∧ e.reference = some reference := by
  unfold AgentRunEvent.request
  split
  · rename_i type
    simp [type, Option.bind_eq_some_iff, Option.map_eq_some_iff]
  · rename_i type
    simp [type]

theorem mem_steps {t : AgentRunEventType} :
    t ∈ steps call events ↔ ∃ f ∈ events, f.concerns call = true ∧ f.eventType = t := by
  simp [steps, and_assoc]

/-- A lifecycle that has begun began with a request. -/
theorem Lifecycle.requests {l : List AgentRunEventType} (h : Lifecycle l) (begun : l ≠ []) :
    .toolRequested ∈ l := by
  cases h with
  | absent => exact absurd rfl begun
  | _ => simp [requesting]

theorem mem_requestedTools : (call, reference) ∈ (seen events).requestedTools ↔
    ∃ f ∈ events, f.request = some (call, reference) := by
  simp [seen]

theorem mem_startedTools : call ∈ (seen events).startedTools ↔ .toolStarted ∈ steps call events := by
  simp only [seen, List.mem_reverse, List.mem_filterMap, mem_steps, concerns_iff]
  refine exists_congr fun f => and_congr_right fun _ => ?_
  unfold AgentRunEvent.start
  split
  · rename_i type
    simp [type, AgentRunEventType.onCall]
  · rename_i type
    simp [type]

theorem mem_finishedTools : call ∈ (seen events).finishedTools ↔ Finished (steps call events) := by
  simp only [seen, Finished, List.mem_reverse, List.mem_filterMap, mem_steps, concerns_iff,
    ← exists_or, ← and_or_left]
  refine exists_congr fun f => and_congr_right fun _ => ?_
  unfold AgentRunEvent.finish
  split
  · rename_i type
    rcases type with type | type <;> simp [type, AgentRunEventType.onCall]
  · rename_i type
    simp [not_or.mp type]

/-- A request by the reference of its call, for every call that has begun. -/
theorem Unfolds.begun (u : Unfolds D runId handleId events) (begun : steps call events ≠ []) :
    ∃ reference, (call, reference) ∈ (seen events).requestedTools := by
  obtain ⟨f, hf, concerns, type⟩ := mem_steps.mp ((u.calls call).requests begun)
  obtain ⟨reference, all⟩ := u.referenced call
  refine ⟨reference, mem_requestedTools.mpr ⟨f, hf, request_eq_some.mpr ⟨type, ?_, all f hf concerns⟩⟩⟩
  exact (concerns_iff.mp concerns).2

theorem mem_of_lookup {κ α : Type} [BEq κ] [LawfulBEq κ] {l : List (κ × α)} {k : κ} {a : α}
    (h : l.lookup k = some a) : (k, a) ∈ l := by
  obtain ⟨front, back, rfl, -⟩ := List.lookup_eq_some_iff.mp h
  exact List.mem_append_right _ List.mem_cons_self

theorem lookup_ne_none {κ α : Type} [BEq κ] [LawfulBEq κ] {l : List (κ × α)} {k : κ} {a : α}
    (h : (k, a) ∈ l) : l.lookup k ≠ none := by
  intro absent
  simpa using List.lookup_eq_none_iff.mp absent _ h

theorem lookup_none (u : Unfolds D runId handleId events) :
    (seen events).requestedTools.lookup call = none ↔ steps call events = [] := by
  constructor
  · intro absent
    by_contra begun
    obtain ⟨reference, mem⟩ := u.begun begun
    exact lookup_ne_none mem absent
  · intro absent
    cases found : (seen events).requestedTools.lookup call with
    | none => rfl
    | some reference =>
        obtain ⟨f, hf, request⟩ := mem_requestedTools.mp (mem_of_lookup found)
        obtain ⟨type, given, -⟩ := request_eq_some.mp request
        have step : f.eventType ∈ steps call events :=
          mem_steps.mpr ⟨f, hf, concerns_iff.mpr ⟨by simp [type, AgentRunEventType.onCall], given⟩, rfl⟩
        rw [absent] at step
        cases step

theorem lookup_some (u : Unfolds D runId handleId events) :
    (seen events).requestedTools.lookup call = some reference ↔ steps call events ≠ [] ∧
      ∀ f ∈ events, f.concerns call = true → f.reference = some reference := by
  obtain ⟨common, all⟩ := u.referenced call
  have found : ∀ {r}, (seen events).requestedTools.lookup call = some r → r = common := by
    intro r found
    obtain ⟨f, hf, request⟩ := mem_requestedTools.mp (mem_of_lookup found)
    obtain ⟨type, given, same⟩ := request_eq_some.mp request
    have concerns : f.concerns call = true :=
      concerns_iff.mpr ⟨by simp [type, AgentRunEventType.onCall], given⟩
    exact Option.some.inj (same.symm.trans (all f hf concerns))
  constructor
  · intro lookup
    refine ⟨fun absent => ?_, found lookup ▸ all⟩
    rw [(lookup_none u).mpr absent] at lookup
    cases lookup
  · rintro ⟨begun, same⟩
    cases lookup : (seen events).requestedTools.lookup call with
    | none => exact absurd ((lookup_none u).mp lookup) begun
    | some r =>
        obtain ⟨f, hf, concerns, -⟩ := mem_steps.mp ((u.calls call).requests begun)
        have := (all f hf concerns).symm.trans (same f hf concerns)
        rw [found lookup, Option.some.inj this]

/-- A fresh tool call is not requested by the reference of another one. -/
theorem lookup_decision (u : Unfolds D runId handleId events) (fresh : steps call events = []) :
    (∀ prior, (seen events).decisionToolCalls.lookup reference = some prior → prior = call) ↔
      ∀ f ∈ events, f.eventType = .toolRequested → f.reference ≠ some reference := by
  have entry : ∀ {prior}, (reference, prior) ∈ (seen events).decisionToolCalls ↔
      ∃ f ∈ events, f.request = some (prior, reference) := by
    intro prior
    simp only [seen, List.mem_reverse, List.mem_map, List.mem_filterMap]
    constructor
    · rintro ⟨⟨call, reference⟩, request, ⟨⟩⟩
      exact request
    · intro request
      exact ⟨(prior, reference), request, rfl⟩
  constructor
  · intro only f hf type same
    obtain ⟨prior, given⟩ := Option.ne_none_iff_exists'.mp
      (u.identified f hf (by simp [type, AgentRunEventType.isTool]))
    have mem := entry.mpr ⟨f, hf, request_eq_some.mpr ⟨type, given, same⟩⟩
    obtain ⟨first, found⟩ := Option.ne_none_iff_exists'.mp (lookup_ne_none mem)
    obtain rfl := only first found
    obtain ⟨g, hg, request⟩ := entry.mp (mem_of_lookup found)
    obtain ⟨g_type, g_given, -⟩ := request_eq_some.mp request
    have step : g.eventType ∈ steps first events := mem_steps.mpr
      ⟨g, hg, concerns_iff.mpr ⟨by simp [g_type, AgentRunEventType.onCall], g_given⟩, rfl⟩
    rw [fresh] at step
    cases step
  · intro unused prior found
    obtain ⟨f, hf, request⟩ := entry.mp (mem_of_lookup found)
    obtain ⟨type, -, same⟩ := request_eq_some.mp request
    exact absurd same (unused f hf type)

theorem onOpenCall_iff (u : Unfolds D runId handleId events) : (seen events).OnOpenCall call e ↔
    (steps call events ≠ [] ∧ ¬ Finished (steps call events)) ∧
      ∃ reference, e.reference = some reference ∧
        ∀ f ∈ events, f.concerns call = true → f.reference = some reference := by
  unfold Seen.OnOpenCall
  simp only [lookup_some u, mem_finishedTools]
  constructor
  · rintro ⟨reference, ⟨begun, same⟩, unfinished, given⟩
    exact ⟨⟨begun, unfinished⟩, reference, given, same⟩
  · rintro ⟨⟨begun, unfinished⟩, reference, given, same⟩
    exact ⟨reference, ⟨begun, same⟩, unfinished, given⟩

/-- The checks on a request are what the grammar asks of it. -/
theorem admitsRequest_iff (u : Unfolds D runId handleId events) (given : e.toolCallId = some call) :
    (∃ reference, (seen events).requestedTools.lookup call = none ∧ e.reference = some reference ∧
      ∀ prior, (seen events).decisionToolCalls.lookup reference = some prior → prior = call) ↔
    steps call events = [] ∧ (∃ reference, e.reference = some reference ∧
        ∀ f ∈ events, f.concerns call = true → f.reference = some reference) ∧
      ∀ f ∈ events, f.eventType = .toolRequested → e.reference = f.reference →
        e.toolCallId = f.toolCallId := by
  rw [lookup_none u]
  constructor
  · rintro ⟨reference, fresh, same, only⟩
    have unused := (lookup_decision u fresh).mp only
    refine ⟨fresh, ⟨reference, same, fun f hf concerns => ?_⟩, fun f hf type eq => ?_⟩
    · have step : f.eventType ∈ steps call events := mem_steps.mpr ⟨f, hf, concerns, rfl⟩
      rw [fresh] at step
      cases step
    · exact absurd (eq.symm.trans same) (unused f hf type)
  · rintro ⟨fresh, ⟨reference, same, -⟩, apart⟩
    refine ⟨reference, fresh, same, (lookup_decision u fresh).mpr fun f hf type eq => ?_⟩
    have step : f.eventType ∈ steps call events := by
      refine mem_steps.mpr ⟨f, hf, concerns_iff.mpr ⟨?_, ?_⟩, rfl⟩
      · simp [type, AgentRunEventType.onCall]
      · rw [← given, apart f hf type (same.trans eq.symm)]
    rw [fresh] at step
    cases step

/-- The checks on tool calls are what the grammar asks of the event. -/
theorem admitsTool_iff (u : Unfolds D runId handleId events) : (seen events).AdmitsTool e ↔
    (e.eventType.isTool = true → e.toolCallId ≠ none) ∧
    (∀ call, e.concerns call = true → MayFollow (steps call events) e.eventType) ∧
    (∀ call, e.concerns call = true → ∃ reference, e.reference = some reference ∧
      ∀ f ∈ events, f.concerns call = true → f.reference = some reference) ∧
    (e.eventType = .toolRequested → ∀ f ∈ events, f.eventType = .toolRequested →
      e.reference = f.reference → e.toolCallId = f.toolCallId) := by
  simp only [concerns_iff (e := e)]
  unfold Seen.AdmitsTool
  cases type : e.eventType <;> cases given : e.toolCallId
  case toolRequested.some call =>
    have := admitsRequest_iff u given
    rw [given] at this
    simpa [AgentRunEventType.isTool, AgentRunEventType.onCall, MayFollow] using this
  all_goals
    simp [AgentRunEventType.isTool, AgentRunEventType.onCall, MayFollow, onOpenCall_iff u,
      mem_startedTools, and_assoc, and_left_comm, and_comm]

theorem request_terminal (h : e.eventType.terminalState ≠ none) :
    e.request = none ∧ e.start = none ∧ e.finish = none := by
  unfold AgentRunEvent.request AgentRunEvent.start AgentRunEvent.finish
  cases type : e.eventType <;> simp_all [AgentRunEventType.terminalState]

/-- A terminal event passes when every call that has begun is finished. -/
theorem resolved_iff (u : Unfolds D runId handleId events) :
    (e.eventType.terminalState ≠ none → ∀ entry ∈ ((seen events).noting e).requestedTools,
      entry.1 ∈ ((seen events).noting e).finishedTools) ↔
    (e.eventType.terminalState ≠ none → ∀ call, steps call events ≠ [] →
      Finished (steps call events)) := by
  refine imp_congr_right fun terminal => ?_
  obtain ⟨no_request, no_start, no_finish⟩ := request_terminal terminal
  simp only [Seen.noting, no_request, no_finish, Option.toList_none, List.nil_append,
    mem_finishedTools]
  constructor
  · intro finished call begun
    obtain ⟨reference, mem⟩ := u.begun begun
    exact finished (call, reference) mem
  · rintro finished ⟨call, reference⟩ mem
    refine finished call ?_
    obtain ⟨f, hf, request⟩ := mem_requestedTools.mp mem
    obtain ⟨type, given, -⟩ := request_eq_some.mp request
    refine List.ne_nil_of_mem (mem_steps.mpr ⟨f, hf, concerns_iff.mpr ⟨?_, given⟩, rfl⟩)
    simp [type, AgentRunEventType.onCall]

theorem noted {α : Type} {f : AgentRunEvent → Option α} :
    ((events ++ [e]).filterMap f).reverse = (f e).toList ++ (events.filterMap f).reverse := by
  rw [List.filterMap_append, List.reverse_append]
  cases given : f e with
  | none => simp [given]
  | some a => simp [given]

/-- What is kept of the events and one more. -/
theorem seen_snoc (running : ∀ f ∈ events.getLast?, f.eventType.terminalState = none) :
    seen (events ++ [e]) = { (seen events).noting e with
      previousDigest := e.eventDigest
      providerEventIds := e.providerEventId.toList ++ (seen events).providerEventIds
      startedSeen := (seen events).startedSeen || decide (e.eventType = .started)
      state := e.eventType.terminalState.getD (seen events).state
      terminalSeen := (seen events).terminalSeen || e.eventType.terminalState.isSome } := by
  have state : finalState events = .running := by
    unfold finalState
    cases last : events.getLast? with
    | none => rfl
    | some f => simp [running f last]
  have unseen : (seen events).terminalSeen = false := by
    change (events.getLast?.bind _).isSome = false
    cases last : events.getLast? with
    | none => rfl
    | some f => simp [running f last]
  have kept : (seen events).state = .running := state
  rw [unseen, kept]
  unfold Seen.noting seen finalState
  simp only [noted, List.getLast?_concat, Option.map_some, Option.getD_some, Option.bind_some,
    Bool.false_or, List.any_append, List.any_cons, List.any_nil, Bool.or_false]
  cases given : e.request with
  | none => simp [List.filterMap_append, given]
  | some entry => simp [List.filterMap_append, given]

/-- The loop body passes the events that the grammar admits. -/
theorem pass_iff (u : Unfolds D runId handleId events) {s' : Seen} :
    (seen events).pass D runId handleId (1 + events.length) e = .ok s' ↔
      Admits D runId handleId events e ∧ s' = seen (events ++ [e]) := by
  have terminal : (seen events).terminalSeen = false ↔
      ∀ f ∈ events.getLast?, f.eventType.terminalState = none := by
    change (events.getLast?.bind _).isSome = false ↔ _
    cases events.getLast? <;> simp
  have started : (e.eventType = .started → (seen events).startedSeen = false) ↔
      (e.eventType = .started → ∀ f ∈ events, f.eventType ≠ .started) := by
    simp [seen]
  have provider : (∀ id ∈ e.providerEventId, id ∉ (seen events).providerEventIds) ↔
      ∀ id ∈ e.providerEventId, ∀ f ∈ events, f.providerEventId ≠ some id := by
    simp [seen]
  rw [Seen.pass_ok, terminal, started, provider, admitsTool_iff u, resolved_iff u]
  constructor
  · rintro ⟨⟨running, digest, sequence, run, handle, previous⟩, single, fresh,
      ⟨identified, call, referenced, separate⟩, resolved, rfl⟩
    exact ⟨⟨running, single, sequence, ⟨run, handle⟩, digest, previous, fresh, identified, call,
      referenced, separate, resolved⟩, (seen_snoc running).symm⟩
  · rintro ⟨a, rfl⟩
    exact ⟨⟨a.running, a.digest, a.sequence, a.bound.1, a.bound.2, a.chained⟩, a.single, a.provider,
      ⟨a.identified, a.call, a.referenced, a.separate⟩, a.resolved, seen_snoc a.running⟩

/-- The loop passes the streams that unfold. -/
theorem passAll_iff {s : Seen} :
    Seen.nothing.passAll D runId handleId 1 events = .ok s ↔
      Unfolds D runId handleId events ∧ s = seen events := by
  induction events using List.reverseRecOn generalizing s with
  | nil =>
      have : seen [] = Seen.nothing := rfl
      simp [Seen.passAll, unfolds_nil, this, pure_eq_ok, eq_comm]
  | append_singleton events e ih =>
      rw [Seen.passAll_snoc, bind_eq_ok]
      constructor
      · rintro ⟨t, before, last⟩
        obtain ⟨u, rfl⟩ := ih.mp before
        obtain ⟨admits, rfl⟩ := (pass_iff u).mp last
        exact ⟨unfolds_snoc.mpr ⟨u, admits⟩, rfl⟩
      · rintro ⟨u, rfl⟩
        obtain ⟨u, admits⟩ := unfolds_snoc.mp u
        exact ⟨seen events, ih.mpr ⟨u, rfl⟩, (pass_iff u).mpr ⟨admits, rfl⟩⟩

theorem Unfolds.of_append {later : List AgentRunEvent} (u : Unfolds D runId handleId (events ++ later)) :
    Unfolds D runId handleId events := by
  induction later using List.reverseRecOn with
  | nil => simpa using u
  | append_singleton later e ih =>
      rw [← List.append_assoc] at u
      exact ih (unfolds_snoc.mp u).1

/-- Only the last event may be terminal. -/
theorem Unfolds.running {later : List AgentRunEvent} (u : Unfolds D runId handleId (events ++ later))
    (more : later ≠ []) : finalState events = .running := by
  obtain ⟨later, e, rfl⟩ := List.eq_nil_or_concat later |>.resolve_left more
  have ended := u.ended
  rw [List.concat_eq_append, ← List.append_assoc, List.dropLast_concat] at ended
  unfold finalState
  cases last : events.getLast? with
  | none => rfl
  | some f => simp [ended f (List.mem_append_left _ (List.mem_of_getLast? last))]

end Bridge

/-! ## The equivalence -/

/-- A stream that begins with its only start, and unfolds as the events of one run. -/
structure RunGrammar (D : Digests) (events : List AgentRunEvent) : Prop where
  started : ∃ first rest, events = first :: rest ∧ first.eventType = .started
  unfolds : ∃ runId handleId, Unfolds D runId handleId events

section Validator

variable {D : Digests} {events : List AgentRunEvent} {state : AgentRunState}

theorem validate_iff : validateAgentRunEventChain D events = .ok state ↔
    RunGrammar D events ∧ state = finalState events := by
  cases events with
  | nil =>
      refine iff_of_false nofun ?_
      rintro ⟨⟨⟨_, _, ⟨⟩, -⟩, -⟩, -⟩
  | cons first rest =>
      unfold validateAgentRunEventChain
      rw [ite_error_eq_ok, not_not]
      constructor
      · rintro ⟨type, mapped⟩
        obtain ⟨s, passed, rfl⟩ := map_ok mapped
        obtain ⟨u, rfl⟩ := passAll_iff.mp passed
        exact ⟨⟨⟨first, rest, rfl, type⟩, _, _, u⟩, rfl⟩
      · rintro ⟨⟨⟨_, _, ⟨⟩, type⟩, runId, handleId, u⟩, rfl⟩
        obtain ⟨rfl, rfl⟩ := u.bound first List.mem_cons_self
        refine ⟨type, ?_⟩
        rw [passAll_iff.mpr ⟨u, rfl⟩]
        rfl

theorem RunGrammar.of_append {later : List AgentRunEvent} (g : RunGrammar D (events ++ later))
    (some_ : events ≠ []) : RunGrammar D events := by
  obtain ⟨⟨first, rest, eq, type⟩, runId, handleId, u⟩ := g
  obtain ⟨e, events, rfl⟩ := List.exists_cons_of_ne_nil some_
  refine ⟨⟨e, events, rfl, ?_⟩, runId, handleId, u.of_append⟩
  rw [List.cons_append] at eq
  rw [(List.cons.inj eq).1]
  exact type

/-- The validator accepts exactly the streams of the grammar, with the state of their
terminal event, and the proper prefixes of what it accepts as running. -/
theorem chain_grammar (D : Digests) (events : List AgentRunEvent) :
    (∀ state, validateAgentRunEventChain D events = .ok state ↔
      RunGrammar D events ∧ state = finalState events) ∧
    ∀ later, events ≠ [] → later ≠ [] →
      (∃ state, validateAgentRunEventChain D (events ++ later) = .ok state) →
      validateAgentRunEventChain D events = .ok .running := by
  refine ⟨fun state => validate_iff, fun later some_ more accepted => ?_⟩
  obtain ⟨state, accepted⟩ := accepted
  obtain ⟨g, -⟩ := validate_iff.mp accepted
  obtain ⟨_, _, u⟩ := g.unfolds
  exact validate_iff.mpr ⟨g.of_append some_, (u.running more).symm⟩

end Validator

namespace Sample

/-- An event with its digest. -/
def event (D : Digests) (sequence : Nat) (previous : String) (eventType : AgentRunEventType)
    (toolCallId : Option String) (decision : Option DecisionReference) : AgentRunEvent :=
  let e : AgentRunEvent := ⟨⟨1⟩, ⟨2⟩, sequence, 0, eventType, [], none, toolCallId,
    decision.map (·.1), decision.map (·.2), previous, ""⟩
  { e with eventDigest := e.computeDigest D }

section Event

variable {D : Digests} {sequence : Nat} {previous : String} {eventType : AgentRunEventType}
  {toolCallId : Option String} {decision : Option DecisionReference}

@[simp] theorem event_eventType :
    (event D sequence previous eventType toolCallId decision).eventType = eventType := rfl

@[simp] theorem event_toolCallId :
    (event D sequence previous eventType toolCallId decision).toolCallId = toolCallId := rfl

@[simp] theorem event_reference :
    (event D sequence previous eventType toolCallId decision).reference = decision := by
  cases decision <;> rfl

@[simp] theorem event_bound :
    (event D sequence previous eventType toolCallId decision).sequence = sequence ∧
      (event D sequence previous eventType toolCallId decision).runId = ⟨1⟩ ∧
      (event D sequence previous eventType toolCallId decision).handleId = ⟨2⟩ ∧
      (event D sequence previous eventType toolCallId decision).providerEventId = none ∧
      (event D sequence previous eventType toolCallId decision).previousEventDigest = previous :=
  ⟨rfl, rfl, rfl, rfl, rfl⟩

theorem event_digest : (event D sequence previous eventType toolCallId decision).eventDigest =
    (event D sequence previous eventType toolCallId decision).computeDigest D := rfl

end Event

/-- Events that follow one another. -/
def stream (D : Digests) :
    Nat → String → List (AgentRunEventType × Option String × Option DecisionReference) →
      List AgentRunEvent
  | _, _, [] => []
  | sequence, previous, (eventType, toolCallId, decision) :: events =>
      let e := event D sequence previous eventType toolCallId decision
      e :: stream D (sequence + 1) e.eventDigest events

def run (D : Digests) (events : List (AgentRunEventType × Option String × Option DecisionReference)) :
    List AgentRunEvent :=
  stream D 1 GENESIS_EVENT_DIGEST ((.started, none, none) :: events)

def decision : DecisionReference := (⟨3⟩, "decision")

/-- An approval that is asked for while the call runs. -/
def approving (D : Digests) : List AgentRunEvent :=
  run D [(.toolRequested, some "call", some decision), (.toolStarted, some "call", some decision),
    (.approvalRequired, some "call", some decision)]

/-- An event that is not one of a call, with the id of one. -/
def metering (D : Digests) : List AgentRunEvent := run D [(.usage, some "call", none)]

theorem accepted (D : Digests) : ∀ events ∈ [approving D, metering D],
    validateAgentRunEventChain D events = .ok .running := by
  simp [validateAgentRunEventChain, approving, metering, run, stream, Seen.passAll, Seen.pass,
    Seen.bound, Seen.identified, Seen.tool, Seen.onOpenCall, Seen.closed, Seen.nothing,
    effectAuthorizationReference, AgentRunEventType.terminalState, event_digest, ok_bind, pure_eq_ok]

/-- Texts that stand for their own digests. -/
def digests : Digests := ⟨id, fun _ => ⟨0⟩⟩

end Sample

/-- The start of an accepted stream is accepted. -/
theorem chain_grammar_sample : validateAgentRunEventChain Sample.digests
    ((Sample.approving Sample.digests).take 2) = .ok .running := by
  refine (chain_grammar Sample.digests _).2 ((Sample.approving Sample.digests).drop 2) ?_ ?_ ?_
  · exact List.cons_ne_nil _ _
  · exact List.cons_ne_nil _ _
  · rw [List.take_append_drop]
    exact ⟨_, Sample.accepted _ _ List.mem_cons_self⟩

/-- All events with the id of a tool call are a request, approvals and then nothing, a block,
a start, or anything from a start to a result. -/
def ClosedLifecycle (l : List AgentRunEventType) : Prop :=
  l = [] ∨ ∃ n tail, l = requesting n ++ tail ∧ (tail = [] ∨ tail = [.toolBlocked] ∨
    tail = [.toolStarted] ∨ ∃ middle, tail = .toolStarted :: middle ++ [.toolResult])

theorem not_closedLifecycle : ¬ ClosedLifecycle [.toolRequested, .toolStarted, .approvalRequired] ∧
    ¬ ClosedLifecycle [.usage] := by
  constructor
  · rintro (none_ | ⟨n, tail, eq, shape⟩)
    · cases none_
    cases n with
    | zero =>
        obtain rfl : tail = [.toolStarted, .approvalRequired] := by simpa [requesting] using eq.symm
        obtain h | h | h | ⟨middle, h⟩ := shape
        · cases h
        · cases h
        · cases h
        · have last := congrArg List.getLast? h
          rw [List.getLast?_concat] at last
          cases last
    | succ n => simp [requesting, List.replicate_succ] at eq
  · rintro (none_ | ⟨n, tail, eq, -⟩)
    · cases none_
    · simp [requesting] at eq

/-- Two accepted streams with events of a call outside that form. -/
theorem open_lifecycles :
    (validateAgentRunEventChain Sample.digests (Sample.approving Sample.digests) = .ok .running ∧
      ¬ ClosedLifecycle (((Sample.approving Sample.digests).filter
        fun e => e.toolCallId = some "call").map (·.eventType))) ∧
    validateAgentRunEventChain Sample.digests (Sample.metering Sample.digests) = .ok .running ∧
      ¬ ClosedLifecycle (((Sample.metering Sample.digests).filter
        fun e => e.toolCallId = some "call").map (·.eventType)) := by
  obtain ⟨approving, metering⟩ := not_closedLifecycle
  have accepted := Sample.accepted Sample.digests
  refine ⟨⟨accepted _ List.mem_cons_self, approving⟩, accepted _ ?_, metering⟩
  exact List.mem_cons_of_mem _ List.mem_cons_self

end Corvus.Agent
