import Corvus.Adapters.Delivery
import Corvus.Adapters.Plans

/-!
# The chains of the adapters

The events of an adapter are a legal chain, and all of it is delivered, as long as it says first
that the run has started and says so once, says nothing more after a terminal event, and no consumer
leaves while the generator has still something to say about the event of the process that it has
read.
-/

namespace Corvus.Adapters

open Agent Process Run

variable {X : Type} {A : Adapter X} {P : Parts} {s s' : RunSession X} {sub : Subscription}
  {stream : Stream} {effects rest : List Effect} {now : Instant} {around : Surroundings}
  {t : AgentRunEventType} {payload : Payload} {i : RunSession.Input} {e : AgentRunEvent}
  {opens : X → Bool → Bool → SessionEvent → Prop}

/-- The generator is about to read an event that opens the run. -/
def Opening (opens : X → Bool → Bool → SessionEvent → Prop) (s : RunSession X) : Prop :=
  ∃ sub stream source e, s.subscription = some sub ∧ sub.phase = .streaming stream ∧
    stream.rest = [] ∧ s.pull stream = some (source, some e) ∧
    opens s.own stream.terminal stream.started e

/-! ## Events that are said -/

@[simp] theorem event_toolCallId : (s.event P now t payload).toolCallId = none := rfl

theorem concerns_event (call : String) : (s.event P now t payload).concerns call = false := by
  rw [AgentRunEvent.concerns, event_toolCallId]
  simp

/-- What may be said next, of events without a tool call. -/
theorem admits_event (calls : ∀ f ∈ s.events, f.toolCallId = none) (plain : t.isTool = false)
    (running : ∀ f ∈ s.events.getLast?, f.eventType.terminalState = none)
    (single : t = .started → ∀ f ∈ s.events, f.eventType ≠ .started) :
    Admits P.digests s.runId s.handleId s.events (s.event P now t payload) where
  running := running
  single := single
  sequence := Nat.add_comm _ _
  bound := ⟨rfl, rfl⟩
  digest := rfl
  chained := rfl
  provider := nofun
  identified := fun tool => absurd (plain.symm.trans tool) nofun
  call := fun call concerns => absurd ((concerns_event call).symm.trans concerns) nofun
  referenced := fun call concerns => absurd ((concerns_event call).symm.trans concerns) nofun
  separate := by
    intro request
    rw [show t = .toolRequested from request] at plain
    cases plain
  resolved := by
    intro _ call some_
    refine absurd (List.map_eq_nil_iff.mpr (List.filter_eq_nil_iff.mpr ?_)) some_
    intro f mem concerns
    exact absurd ((calls f mem).symm.trans (concerns_iff.mp concerns).2) nofun

/-! ## Legal chains -/

/-- The last event is a terminal one. -/
def Closed (events : List AgentRunEvent) : Prop :=
  ∃ e ∈ events.getLast?, e.eventType.terminalState ≠ none

/-- The events so far are legal, and no event has been lost. -/
structure Sound (P : Parts) (s : RunSession X) : Prop where
  unfolds : Unfolds P.digests s.runId s.handleId s.events
  started : ∀ first ∈ s.events.head?, first.eventType = .started
  calls : ∀ f ∈ s.events, f.toolCallId = none
  lost : s.lost = []

/-- What a generator may have to do. -/
structure Pending (s : RunSession X) (stream : Stream) (effects : List Effect) : Prop where
  incomplete : s.streamComplete = false
  flag : stream.terminal = true → Closed s.events
  todo : Plan effects ∨ Closed s.events ∧ Mute effects
  drained : stream.drained = true → Closed s.events ∨
    ∃ payload rest, effects = .say .failed payload :: rest

/-- What every step keeps that is in order. -/
structure Good (P : Parts) (s : RunSession X) : Prop where
  sound : Sound P s
  complete : s.streamComplete = true → Closed s.events
  pending : ∀ sub stream, s.subscription = some sub → sub.phase = .streaming stream →
    Pending s stream stream.rest

theorem good_start (runId handleId : Uuid) (own : X) :
    Good P (RunSession.start runId handleId own) :=
  ⟨⟨unfolds_nil, by simp [RunSession.start], by simp [RunSession.start], rfl⟩,
    by simp [RunSession.start], by simp [RunSession.start]⟩

/-- What is said first is in order. -/
def InOrder (P : Parts) (s : RunSession X) (effects : List Effect) : Prop :=
  ∀ t payload rest, firstSay s.process.terminal effects = some (t, payload, rest) →
    (∀ e ∈ s.events, e.eventType.terminalState = none) ∧ P.admits payload = true ∧
      (t = .started ↔ s.events = [])

/-- An event is appended to a legal chain. -/
theorem Sound.say (sound : Sound P s) (admits : Admits P.digests s.runId s.handleId s.events e)
    (call : e.toolCallId = none) (first : s.events = [] → e.eventType = .started) :
    Sound P (s.say sub stream e) where
  unfolds := unfolds_snoc.mpr ⟨sound.unfolds, admits⟩
  started := by
    intro f head
    change (s.events ++ [e]).head? = some f at head
    cases some_ : s.events with
    | nil =>
      rw [some_, List.nil_append, List.head?_cons] at head
      rw [← Option.some.inj head]
      exact first some_
    | cons g events =>
      apply sound.started
      rw [some_, List.cons_append, List.head?_cons] at head
      rw [some_, List.head?_cons]
      exact head
  calls := List.forall_mem_append.mpr ⟨sound.calls, List.forall_mem_singleton.mpr call⟩
  lost := sound.lost

theorem Sound.same (sound : Sound P s) (ids : s'.runId = s.runId ∧ s'.handleId = s.handleId)
    (events : s'.events = s.events) (lost : s'.lost = s.lost) : Sound P s' := by
  refine ⟨?_, ?_, ?_, lost.trans sound.lost⟩
  · rw [ids.1, ids.2, events]
    exact sound.unfolds
  · rw [events]
    exact sound.started
  · rw [events]
    exact sound.calls

theorem closed_say (ends : e.eventType.terminalState ≠ none) :
    Closed (s.say sub stream e).events :=
  ⟨e, List.getLast?_concat, ends⟩

/-- A subscription goes that has nothing left to say. -/
theorem Good.drop (good : Good P s) (mute : Mute rest) : Good P (s.drop sub rest) := by
  refine ⟨⟨good.sound.unfolds, good.sound.started, good.sound.calls, ?_⟩, good.complete, ?_⟩
  · rw [RunSession.drop, mute.filter, List.append_nil]
    exact good.sound.lost
  · rintro _ _ ⟨⟩

/-- The generator stops. -/
theorem Good.stop (sound : Sound P s) (complete : s.streamComplete = true → Closed s.events)
    (pending : Pending s stream stream.rest) : Good P (s.stop sub stream) := by
  refine ⟨⟨sound.unfolds, sound.started, sound.calls, sound.lost⟩, complete, ?_⟩
  rintro _ _ ⟨⟩ ⟨⟩
  exact ⟨pending.incomplete, pending.flag, pending.todo, pending.drained⟩

/-- The generator says that the run has started, or another event of its plan. -/
theorem Good.say (sound : Sound P s) (plain : t.isTool = false)
    (running : ∀ e ∈ s.events, e.eventType.terminalState = none)
    (first : t = .started ↔ s.events = []) (incomplete : s.streamComplete = false)
    (flag : stream.terminal = false) (drained : stream.drained = true → t.terminalState ≠ none)
    (after : t.terminalState = none → Plan stream.rest)
    (ends : t.terminalState ≠ none → Mute stream.rest) :
    Good P (s.say sub stream (s.event P now t payload)) := by
  have admits : Admits P.digests s.runId s.handleId s.events (s.event P now t payload) := by
    refine admits_event sound.calls plain ?_ ?_
    · exact fun f last => running f (List.mem_of_getLast? last)
    · intro started f mem
      rw [first.mp started] at mem
      exact absurd mem List.not_mem_nil
  have type : (s.event P now t payload).eventType = t := rfl
  have call : (s.event P now t payload).toolCallId = none := rfl
  generalize s.event P now t payload = e at admits type call ⊢
  subst type
  refine ⟨sound.say admits call first.mpr, fun complete => ?_, ?_⟩
  · exact absurd (incomplete.symm.trans complete) Bool.false_ne_true
  rintro _ _ ⟨⟩ ⟨⟩
  refine ⟨incomplete, fun terminal => absurd (flag.symm.trans terminal) Bool.false_ne_true,
    ?_, ?_⟩
  · cases state : e.eventType.terminalState with
    | none => exact .inl (after state)
    | some _ =>
      have state : e.eventType.terminalState ≠ none := by simp [state]
      exact .inr ⟨closed_say state, ends state⟩
  · exact fun over_ => .inl (closed_say (drained over_))

/-- A step that concerns neither the events nor the generator. -/
theorem Good.same (good : Good P s) (ids : s'.runId = s.runId ∧ s'.handleId = s.handleId)
    (events : s'.events = s.events) (lost : s'.lost = s.lost)
    (complete : s'.streamComplete = s.streamComplete)
    (subscription : s'.subscription = s.subscription) : Good P s' := by
  refine ⟨good.sound.same ids events lost, ?_, ?_⟩
  · rw [events, complete]
    exact good.complete
  · intro sub stream held phase
    have pending := good.pending sub stream (subscription ▸ held) phase
    refine ⟨complete.trans pending.incomplete, ?_, ?_, ?_⟩
    · rw [events]
      exact pending.flag
    · rw [events]
      exact pending.todo
    · rw [events]
      exact pending.drained

/-- The rest of a plan, or of what follows a terminal event. -/
theorem Pending.tail {effect : Effect} (pending : Pending s stream (effect :: effects))
    (not_say : effect.isSay = false) (plan : Plan (effect :: effects) → Plan effects) :
    Pending s stream effects := by
  refine ⟨pending.incomplete, pending.flag, ?_, fun over_ => .inl ?_⟩
  · obtain planned | ⟨closed, mute⟩ := pending.todo
    · exact .inl (plan planned)
    · exact .inr ⟨closed, fun effect mem => mute effect (List.mem_cons_of_mem _ mem)⟩
  · obtain closed | ⟨payload, rest, same⟩ := pending.drained over_
    · exact closed
    · rw [(List.cons.inj same).1] at not_say
      cases not_say

/-- What the generator does is in order if what it says first is. -/
theorem Good.perform (effects : List Effect) (good : Good P s) (pending : Pending s stream effects)
    (inOrder : InOrder P s effects) :
    Good P (RunSession.perform A P now s sub stream effects) := by
  induction effects generalizing s stream with
  | nil =>
    rw [RunSession.perform]
    split
    · rename_i over_
      obtain closed | ⟨_, _, ⟨⟩⟩ := pending.drained over_
      refine ⟨good.sound.same ⟨rfl, rfl⟩ rfl rfl, fun _ => closed, ?_⟩
      rintro _ _ ⟨⟩
    · exact .stop good.sound good.complete
        ⟨pending.incomplete, pending.flag, pending.todo, pending.drained⟩
  | cons effect effects ih =>
    cases effect with
    | say t payload =>
      obtain ⟨running, admitted, first⟩ := inOrder t payload effects rfl
      have open_ : ¬ Closed s.events := by
        rintro ⟨e, last, ends⟩
        exact ends (running e (List.mem_of_getLast? last))
      obtain planned | ⟨closed, -⟩ := pending.todo
      · have flag : stream.terminal = false :=
          Bool.eq_false_iff.mpr fun terminal => open_ (pending.flag terminal)
        have drained : stream.drained = true → t.terminalState ≠ none := by
          intro over_
          obtain closed | ⟨_, _, same⟩ := pending.drained over_
          · exact absurd closed open_
          · rw [(Effect.say.inj (List.cons.inj same).1).1]
            exact Option.some_ne_none _
        rw [RunSession.perform, if_pos admitted]
        cases planned with
        | say plain going ends after =>
          exact .say good.sound plain running first pending.incomplete flag drained
            (fun _ => after) fun state => absurd ends state
        | terminal ends after =>
          refine .say good.sound (isTool_of_terminal ends) running first pending.incomplete flag
            drained (fun none_ => absurd (ends.symm.trans none_) (Option.some_ne_none _)) fun _ => ?_
          exact List.forall_mem_cons.mpr ⟨rfl, after.mute⟩
      · exact absurd closed open_
    | cancelProcess =>
      have tail := pending.tail rfl fun plan => by cases plan; assumption
      rw [RunSession.perform]
      refine .stop (good.sound.same ⟨rfl, rfl⟩ rfl rfl) good.complete
        ⟨tail.incomplete, tail.flag, ?_, fun over_ => .inl ?_⟩
      · obtain planned | ⟨closed, mute⟩ := tail.todo
        · exact .inl (.answered planned)
        · exact .inr ⟨closed, List.forall_mem_cons.mpr ⟨rfl, mute⟩⟩
      · obtain closed | ⟨_, _, ⟨⟩⟩ := pending.drained over_
        exact closed
    | answered =>
      have tail := pending.tail rfl fun plan => by cases plan; assumption
      rw [RunSession.perform]
      split
      · rename_i there
        refine ih good tail fun t payload rest found => inOrder t payload rest ?_
        rw [firstSay, if_pos there]
        exact found
      · exact .stop good.sound good.complete
          ⟨pending.incomplete, pending.flag, pending.todo, pending.drained⟩
    | conclude state =>
      obtain ⟨⟨⟩⟩ | ⟨closed, mute⟩ := pending.todo
      rw [RunSession.perform]
      refine ih (good.same ⟨rfl, rfl⟩ rfl rfl rfl rfl) ?_ inOrder
      exact ⟨pending.incomplete, fun _ => closed,
        .inr ⟨closed, (List.forall_mem_cons.mp mute).2⟩, fun _ => .inl closed⟩
    | dismiss =>
      have tail := pending.tail rfl fun plan => by cases plan; assumption
      rw [RunSession.perform]
      refine ih (good.same ⟨rfl, rfl⟩ rfl rfl rfl rfl) ?_ inOrder
      exact ⟨tail.incomplete, tail.flag, tail.todo, tail.drained⟩
    | raise =>
      rw [RunSession.perform]
      refine good.drop ?_
      obtain ⟨⟨⟩⟩ | ⟨closed, mute⟩ := pending.todo
      · exact mute_nil
      · exact (List.forall_mem_cons.mp mute).2

/-! ## The opening -/

theorem opening_iff_reads {source : Subscriber} {read : SessionEvent}
    (held : s.subscription = some sub) (phase : sub.phase = .streaming stream)
    (nothing : stream.rest = []) (pulled : s.pull stream = some (source, some read)) :
    Opening opens s ↔ opens s.own stream.terminal stream.started read := by
  constructor
  · rintro ⟨sub', stream', source', read', held', phase', -, pulled', opening⟩
    obtain rfl : sub = sub' := Option.some.inj (held.symm.trans held')
    obtain rfl : stream = stream' := Phase.streaming.inj (phase.symm.trans phase')
    have same := Option.some.inj (pulled.symm.trans pulled')
    rw [Option.some.inj (Prod.mk.inj same).2]
    exact opening
  · intro opening
    exact ⟨sub, stream, source, read, held, phase, nothing, pulled, opening⟩

theorem not_opening (held : s.subscription = some sub) (phase : sub.phase = .streaming stream)
    (other : ∀ source read, stream.rest = [] → s.pull stream ≠ some (source, some read)) :
    ¬ Opening opens s := by
  rintro ⟨sub', stream', source, read, held', phase', nothing, pulled, -⟩
  obtain rfl : sub = sub' := Option.some.inj (held.symm.trans held')
  obtain rfl : stream = stream' := Phase.streaming.inj (phase.symm.trans phase')
  exact other source read nothing pulled

/-- The generator opens the run exactly when it tells that the run has started. -/
theorem Good.opening_iff (good : Good P s) (follows : A.Follows opens)
    (found : firstSay s.process.terminal (upcoming A s around) = some (t, payload, rest)) :
    Opening opens s ↔ t = .started := by
  have some_ : upcoming A s around ≠ [] := by
    intro nothing
    rw [nothing] at found
    cases found
  obtain ⟨sub, stream, held, phase⟩ := streams_of_upcoming some_
  cases stands A around held phase with
  | waits _ _ effects => exact absurd effects some_
  | ends _ source pulled effects =>
    refine iff_of_false (not_opening held phase fun source' read _ pulled' => ?_) ?_
    · rw [pulled] at pulled'
      cases pulled'
    · rw [effects, RunSession.epilogue] at found
      split at found
      · cases found
      · rw [← (Prod.mk.inj (Option.some.inj found)).1]
        decide
  | reads nothing source read pulled effects =>
    rw [opening_iff_reads held phase nothing pulled]
    obtain ⟨starts, going⟩ := follows s.own stream.terminal stream.started around read
    rw [effects] at found
    constructor
    · intro opening
      obtain ⟨payload', rest', same, -⟩ := starts opening
      rw [same] at found
      exact (Prod.mk.inj (Option.some.inj found)).1.symm
    · intro started
      by_contra other
      exact (going other).going found started
  | goes some_ effects =>
    refine iff_of_false (not_opening held phase fun _ _ nothing => absurd nothing some_) ?_
    rw [effects] at found
    obtain plan | ⟨-, mute⟩ := (good.pending sub stream held phase).todo
    · exact plan.going found
    · rw [mute.firstSay] at found
      cases found

/-! ## Steps -/

/-- A step is in order: the run is opened by what is said first and by nothing else, nothing is
said after a terminal event, the payload is free of secrets, and nobody leaves a generator that
has still something to say about the event that it has read. -/
structure Orderly (A : Adapter X) (P : Parts) (opens : X → Bool → Bool → SessionEvent → Prop)
    (s : RunSession X) (i : RunSession.Input) : Prop where
  says_ : ∀ around, i = .next around → ∀ t payload rest,
    firstSay s.process.terminal (upcoming A s around) = some (t, payload, rest) →
      (∀ e ∈ s.events, e.eventType.terminalState = none) ∧ P.admits payload = true ∧
        (Opening opens s ↔ s.events = [])
  stays : i = .abandon → ¬ s.Busy → Mute (toDo s)

theorem Good.inOrder (good : Good P s) (follows : A.Follows opens)
    (orderly : Orderly A P opens s (.next around)) : InOrder P s (upcoming A s around) := by
  intro t payload rest found
  obtain ⟨running, admitted, first⟩ := orderly.says_ around rfl t payload rest found
  exact ⟨running, admitted, (good.opening_iff follows found).symm.trans first⟩

theorem Good.replay (good : Good P s) (position : Nat) : Good P (s.replay sub position) := by
  rw [RunSession.replay]
  split
  · refine ⟨good.sound.same ⟨rfl, rfl⟩ rfl rfl, good.complete, ?_⟩
    rintro _ _ ⟨⟩ ⟨⟩
  · split
    · rename_i complete
      refine ⟨good.sound.same ⟨rfl, rfl⟩ rfl rfl, fun _ => good.complete complete, ?_⟩
      rintro _ _ ⟨⟩
    · rename_i incomplete
      refine .stop good.sound good.complete ⟨Bool.eq_false_iff.mpr incomplete, ?_, .inl .nil, ?_⟩
      · exact fun terminal => absurd terminal Bool.false_ne_true
      · exact fun over_ => absurd over_ Bool.false_ne_true

theorem Good.advance (good : Good P s) (follows : A.Follows opens)
    (inOrder : InOrder P s (upcoming A s around)) (held : s.subscription = some sub)
    (phase : sub.phase = .streaming stream) : Good P (s.advance A P around sub stream) := by
  have pending := good.pending sub stream held phase
  cases stands A around held phase with
  | waits nothing pulled effects =>
    rw [RunSession.advance, if_pos nothing, pulled]
    exact .stop good.sound good.complete
      ⟨pending.incomplete, pending.flag, pending.todo, pending.drained⟩
  | ends nothing source pulled effects =>
    rw [RunSession.advance, if_pos nothing, pulled]
    rw [effects] at inOrder
    refine good.perform _ ⟨pending.incomplete, pending.flag, ?_, fun _ => ?_⟩ inOrder
    · rw [RunSession.epilogue]
      split
      · rename_i terminal
        exact .inr ⟨pending.flag terminal, over_dismiss.mute⟩
      · exact .inl (.terminal rfl over_dismiss)
    · rw [RunSession.epilogue]
      split
      · exact .inl (pending.flag ‹_›)
      · exact .inr ⟨_, _, rfl⟩
  | reads nothing source e pulled effects =>
    rw [advance_reads nothing pulled]
    rw [effects] at inOrder
    have over_ : stream.drained = true → Closed s.events := by
      intro over_
      obtain closed | ⟨_, _, same⟩ := pending.drained over_
      · exact closed
      · exact absurd (nothing.symm.trans same) (List.cons_ne_nil _ _).symm
    obtain ⟨starts, going⟩ := follows s.own stream.terminal stream.started around e
    generalize A.read s.own stream.terminal stream.started around e = read at *
    obtain ⟨own, started, effects⟩ := read
    have good : Good P { s with
        own := own
        processSequence := max s.processSequence e.sequence } :=
      good.same ⟨rfl, rfl⟩ rfl rfl rfl rfl
    dsimp only at starts going inOrder ⊢
    by_cases opening : opens s.own stream.terminal stream.started e
    · obtain ⟨payload, rest, rfl, plan⟩ := starts opening
      obtain ⟨running, admitted, first⟩ := inOrder .started payload rest rfl
      have open_ : ¬ Closed s.events := by
        rintro ⟨e, last, ends⟩
        exact ends (running e (List.mem_of_getLast? last))
      rw [RunSession.perform, if_pos admitted]
      refine .say good.sound rfl running first pending.incomplete ?_ ?_ (fun _ => plan) ?_
      · exact Bool.eq_false_iff.mpr fun terminal => open_ (pending.flag terminal)
      · exact fun drained => absurd (over_ drained) open_
      · exact fun ends => absurd rfl ends
    · exact good.perform _ ⟨pending.incomplete, pending.flag, .inl (going opening),
        fun drained => .inl (over_ drained)⟩ inOrder
  | goes some_ effects =>
    rw [RunSession.advance, if_neg some_]
    rw [effects] at inOrder
    exact good.perform _ pending inOrder

/-! ## What a run delivers -/

/-- The chain is legal, it is complete when a subscription has run to its end, each consumer has
got the events after its start, once and in order, and no event is lost. -/
structure Delivers (P : Parts) (s : RunSession X) : Prop where
  accepted : s.events ≠ [] →
    ∃ state, validateAgentRunEventChain P.digests s.events = .ok state
  complete : s.streamComplete = true → ∃ before last, s.events = before ++ [last] ∧
    last.eventType.terminalState ≠ none ∧ ∀ e ∈ before, e.eventType.terminalState = none
  consumers : ∀ c ∈ s.consumers ++ (s.subscription.map (·.consumer)).toList,
    c.received <+: s.events.drop c.start
  ended : ∀ c ∈ s.consumers, c.ended = true →
    s.streamComplete = true ∧ c.received = s.events.drop c.start
  lost : s.lost = []

theorem Good.delivers (good : Good P s) (fed : Fed s) : Delivers P s where
  accepted := by
    intro some_
    obtain ⟨first, rest, events⟩ := List.exists_cons_of_ne_nil some_
    have started : first.eventType = .started := by
      apply good.sound.started
      rw [events]
      exact List.head?_cons
    exact ⟨_, validate_iff.mpr ⟨⟨⟨first, rest, events, started⟩, _, _, good.sound.unfolds⟩, rfl⟩⟩
  complete := by
    intro complete
    obtain ⟨last, is_last, ends⟩ := good.complete complete
    obtain ⟨before, events⟩ := List.getLast?_eq_some_iff.mp is_last
    refine ⟨before, last, events, ends, ?_⟩
    have running := good.sound.unfolds.ended
    rw [events, List.dropLast_concat] at running
    exact running
  consumers := by
    intro c mem
    obtain alone | subscribed := List.mem_append.mp mem
    · exact (fed.consumers c alone).received
    · obtain ⟨sub, held, rfl⟩ := Option.map_eq_some_iff.mp (Option.mem_toList.mp subscribed)
      exact (fed.serves sub held).prefix_
  ended := fun c mem => (fed.consumers c mem).ended
  lost := good.sound.lost

theorem Good.abandon (good : Good P s) (mute : Mute (toDo s)) : Good P s.abandon := by
  rw [RunSession.abandon]
  split
  · exact good
  · rename_i sub held
    split
    · exact good.drop mute_nil
    · rename_i stream phase
      refine good.drop ?_
      obtain ⟨consumer, cursor, _⟩ := sub
      cases phase
      rw [toDo, held] at mute
      exact mute

theorem Good.subscribe (good : Good P s) {c : Consumer} {consumers : List Consumer} :
    Good P ({ s with consumers := consumers }.subscribe c) := by
  refine ⟨good.sound.same ⟨rfl, rfl⟩ rfl rfl, good.complete, ?_⟩
  rintro _ _ ⟨⟩ ⟨⟩

theorem Good.other (good : Good P s) {i : RunSession.Input} (stays : i = .abandon → Mute (toDo s)) :
    Good P (s.other A P i) := by
  cases i with
  | join afterSequence =>
    rw [RunSession.other]
    split
    · exact good.subscribe
    · exact good
  | resume index =>
    rw [RunSession.other]
    split
    · exact good.subscribe
    · exact good
  | next around => exact good
  | abandon => exact good.abandon (stays rfl)
  | cancel =>
    rw [RunSession.other, RunSession.cancel]
    split
    · exact good.same ⟨rfl, rfl⟩ rfl rfl rfl rfl
    · exact good.same ⟨rfl, rfl⟩ rfl rfl rfl rfl
  | cancelReturns =>
    rw [RunSession.other, RunSession.cancelReturns]
    split
    · exact good.same ⟨rfl, rfl⟩ rfl rfl rfl rfl
    · exact good
  | cancelDropped | background | process => exact good.same ⟨rfl, rfl⟩ rfl rfl rfl rfl

theorem Good.next (good : Good P s) (follows : A.Follows opens)
    (orderly : Orderly A P opens s (.next around)) : Good P (s.next A P around) := by
  rw [RunSession.next]
  split
  · exact good
  · rename_i sub held
    split
    · exact good.replay _
    · rename_i stream phase
      exact good.advance follows (good.inOrder follows orderly) held phase

theorem Good.step (good : Good P s) (follows : A.Follows opens)
    (orderly : Orderly A P opens s i) : Good P (s.step A P i) := by
  cases i with
  | next around => exact good.next follows orderly
  | _ =>
    rw [RunSession.step]
    · split
      · exact good
      · exact good.other fun same => orderly.stays same ‹_›
    · intro _ same
      cases same

/-- What an accepted chain says of its last event. -/
theorem last_of_grammar {D : Digests} {events : List AgentRunEvent}
    (grammar : RunGrammar D (events ++ [e])) :
    (∀ f ∈ events, f.eventType.terminalState = none) ∧ (e.eventType = .started ↔ events = []) := by
  obtain ⟨⟨first, others, same, started⟩, _, _, unfolds⟩ := grammar
  have ended := unfolds.ended
  rw [List.dropLast_concat] at ended
  refine ⟨ended, fun starts => ?_, ?_⟩
  · cases events with
    | nil => rfl
    | cons f events =>
      have admits := (unfolds_snoc.mp unfolds).2
      rw [List.cons_append] at same
      rw [← (List.cons.inj same).1] at started
      exact absurd started (admits.single starts f List.mem_cons_self)
  · rintro rfl
    rw [List.nil_append] at same
    rw [(List.cons.inj same).1]
    exact started

/-- A step out of order shows. -/
theorem Good.orderly (good : Good P s) (follows : A.Follows opens)
    (delivers : Delivers P (s.step A P i)) : Orderly A P opens s i := by
  constructor
  · rintro around rfl t payload rest found
    have delivers : Delivers P (s.next A P around) := delivers
    obtain ⟨said, refused⟩ := next_firstSay (P := P) found
    have admitted : P.admits payload = true := by
      by_contra other
      exact refused (Bool.eq_false_iff.mpr other) delivers.lost
    have events := said admitted
    obtain ⟨state, accepted⟩ := delivers.accepted (by simp [events])
    obtain ⟨grammar, -⟩ := validate_iff.mp accepted
    rw [events] at grammar
    obtain ⟨running, first⟩ := last_of_grammar grammar
    exact ⟨running, admitted, (good.opening_iff follows found).trans first⟩
  · rintro rfl still
    have left : s.step A P .abandon = s.abandon := if_neg still
    have lost := left ▸ delivers.lost
    rw [lost_abandon] at lost
    intro effect mem
    exact Bool.eq_false_iff.mpr
      (List.filter_eq_nil_iff.mp (List.append_eq_nil_iff.mp lost).2 effect mem)

/-- The chain of a run is legal, complete and delivered in every state exactly if every step is in
order. -/
theorem delivers_iff (follows : A.Follows opens) (runId handleId : Uuid) (own : X)
    (inputs : List RunSession.Input) :
    (∀ before, before <+: inputs →
      Delivers P (exec (RunSession.step A P) (.start runId handleId own) before)) ↔
      Along (RunSession.step A P) (Orderly A P opens) (.start runId handleId own) inputs := by
  have start : Good P (RunSession.start runId handleId own) ∧
      Fed (RunSession.start runId handleId own) := ⟨good_start runId handleId own, fed_start⟩
  refine throughout_iff (I := fun s => Good P s ∧ Fed s) start ?_ ?_ ?_
  · rintro s i ⟨good, fed⟩ orderly
    exact ⟨good.step follows orderly, fed.step i⟩
  · rintro s ⟨good, fed⟩
    exact good.delivers fed
  · rintro s i ⟨good, fed⟩ delivers
    exact good.orderly follows delivers

namespace Sample

/-- The process is cancelled before it has said anything, and a consumer subscribes. -/
def inputs : List RunSession.Input :=
  [.process (.cancel "process_cancelled"), .process (.acquire 0), .process (.terminated true),
    .join 0, .next surroundings, .next surroundings]

end Sample

/-- A chain without a start. -/
theorem not_delivers_of_first {f : AgentRunEventType}
    (types : s.events.map (·.eventType) = [f]) (other : f ≠ .started) : ¬ Delivers P s := by
  intro delivers
  obtain ⟨e, events, rfl⟩ := List.map_eq_singleton_iff.mp types
  obtain ⟨state, accepted⟩ := delivers.accepted (by rw [events]; exact List.cons_ne_nil _ _)
  obtain ⟨⟨first, rest, same, started⟩, -⟩ := (validate_iff.mp accepted).1
  rw [events] at same
  rw [(List.cons.inj same).1] at other
  exact other started

end Corvus.Adapters
