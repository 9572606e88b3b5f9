import Corvus.Adapters.Effects
import Corvus.Library.Log

/-!
# What consumers get

Whatever an adapter says is numbered, and each consumer gets the events after its start once and in
order, over all of its subscriptions.
-/

namespace Corvus.Adapters

open Agent Process

variable {X : Type} {A : Adapter X} {P : Parts} {s s' : RunSession X} {sub : Subscription}
  {stream : Stream} {effects rest : List Effect} {now : Instant} {around : Surroundings}
  {t : AgentRunEventType} {payload : Payload} {i : RunSession.Input} {e : AgentRunEvent}

/-- The events are a log by their sequences. -/
abbrev Numbered (events : List AgentRunEvent) : Prop := Log (·.sequence) (fun _ _ => True) events

/-- A consumer without a subscription has got the events after its start, as far as it has asked
for them, or all of them. -/
structure Given (s : RunSession X) (c : Consumer) : Prop where
  received : c.received <+: s.events.drop c.start
  ended : c.ended = true → s.streamComplete = true ∧ c.received = s.events.drop c.start

/-- A subscription has given its consumer the events up to a position, or up to its cursor. -/
structure Serves (events : List AgentRunEvent) (sub : Subscription) (position : Nat) : Prop where
  fresh : sub.consumer.ended = false
  start : sub.consumer.start ≤ sub.afterSequence
  reach : sub.afterSequence ≤ events.length ∨ sub.consumer.start = sub.afterSequence
  received : sub.consumer.received =
    (events.take (max position sub.afterSequence)).drop sub.consumer.start

def position (s : RunSession X) : Phase → Nat
  | .replaying position => position
  | .streaming _ => s.events.length

structure Fed (s : RunSession X) : Prop where
  log : Numbered s.events
  consumers : ∀ c ∈ s.consumers, Given s c
  serves : ∀ sub ∈ s.subscription, Serves s.events sub (position s sub.phase)
  alone : ∀ sub ∈ s.subscription, ∀ stream, sub.phase = .streaming stream →
    s.streamComplete = false

theorem Serves.prefix_ {n : Nat} {events : List AgentRunEvent} (serves : Serves events sub n) :
    sub.consumer.received <+: events.drop sub.consumer.start := by
  rw [serves.received, List.drop_take]
  exact List.take_prefix _ _

/-- At the end of the events there is nothing that it has not given. -/
theorem Serves.whole {events : List AgentRunEvent} (serves : Serves events sub events.length) :
    sub.consumer.received = events.drop sub.consumer.start := by
  rw [serves.received, List.take_of_length_le (Nat.le_max_left _ _)]

theorem drop_prefix_append {α : Type} (l m : List α) (n : Nat) : l.drop n <+: (l ++ m).drop n := by
  rw [List.drop_append]
  exact List.prefix_append _ _

theorem Given.of_serves {n : Nat} (serves : Serves s.events sub n) : Given s sub.consumer :=
  ⟨serves.prefix_, fun ended => absurd (serves.fresh.symm.trans ended) nofun⟩

theorem Fed.same (fed : Fed s) (events : s'.events = s.events)
    (consumers : s'.consumers = s.consumers)
    (complete : s'.streamComplete = s.streamComplete)
    (subscription : s'.subscription = s.subscription) : Fed s' := by
  refine ⟨events ▸ fed.log, ?_, ?_, ?_⟩
  · intro c mem
    obtain ⟨received, ended⟩ := fed.consumers c (consumers ▸ mem)
    refine ⟨events ▸ received, ?_⟩
    rw [complete, events]
    exact ended
  · intro sub held
    have serves := fed.serves sub (subscription ▸ held)
    have same : position s' sub.phase = position s sub.phase := by
      cases sub.phase with
      | replaying position => rfl
      | streaming stream => exact congrArg List.length events
    rw [events, same]
    exact serves
  · rw [complete, subscription]
    exact fed.alone

theorem fed_start {runId handleId : Uuid} {own : X} :
    Fed (RunSession.start runId handleId own) := by
  refine ⟨Log.nil, ?_, ?_, ?_⟩
  · exact fun _ mem => absurd mem List.not_mem_nil
  · rintro _ ⟨⟩
  · rintro _ ⟨⟩

/-- A subscription that leaves. -/
theorem Fed.leave (fed : Fed s) {c : Consumer} (complete : Bool) {lost : List Effect}
    (given : Given { s with streamComplete := complete } c)
    (later : s.streamComplete = true → complete = true) :
    Fed { s with
      streamComplete := complete
      subscription := none
      consumers := s.consumers ++ [c]
      lost := lost } := by
  refine ⟨fed.log, ?_, ?_, ?_⟩
  · intro d mem
    obtain before | new := List.mem_append.mp mem
    · obtain ⟨received, ended⟩ := fed.consumers d before
      exact ⟨received, fun over_ => ⟨later (ended over_).1, (ended over_).2⟩⟩
    · rw [List.mem_singleton.mp new]
      exact ⟨given.received, given.ended⟩
  · rintro _ ⟨⟩
  · rintro _ ⟨⟩

theorem Fed.drop {n : Nat} (fed : Fed s) (serves : Serves s.events sub n) : Fed (s.drop sub rest) :=
  fed.leave s.streamComplete (Given.of_serves serves) id

theorem Fed.finish (fed : Fed s) (serves : Serves s.events sub s.events.length) :
    Fed (s.finish sub) :=
  fed.leave true ⟨serves.prefix_, fun _ => ⟨rfl, serves.whole⟩⟩ fun _ => rfl

theorem Fed.stop (fed : Fed s) (serves : Serves s.events sub s.events.length)
    (incomplete : s.streamComplete = false) : Fed (s.stop sub stream) := by
  refine ⟨fed.log, fun c mem => ?_, ?_, fun _ _ _ _ => incomplete⟩
  · obtain ⟨received, ended⟩ := fed.consumers c mem
    exact ⟨received, ended⟩
  · rintro _ ⟨⟩
    exact ⟨serves.fresh, serves.start, serves.reach, serves.received⟩

/-- An event whose sequence is behind the cursor is given to the consumer. -/
theorem Serves.given {events : List AgentRunEvent} {phase : Phase}
    (serves : Serves events sub events.length) (within : sub.afterSequence ≤ events.length) :
    Serves (events ++ [e]) ⟨sub.consumer.given e, sub.afterSequence, phase⟩
      (events ++ [e]).length := by
  have start := serves.start
  refine ⟨serves.fresh, start, .inl ?_, ?_⟩
  · rw [List.length_append]
    exact Nat.le_trans within (Nat.le_add_right _ _)
  · rw [List.take_of_length_le (Nat.le_max_left _ _)]
    show sub.consumer.received ++ [e] = (events ++ [e]).drop sub.consumer.start
    rw [serves.whole, List.drop_append_of_le_length (start.trans within)]

/-- Any other event the consumer has not asked for. -/
theorem Serves.passed {events : List AgentRunEvent} {phase : Phase}
    (serves : Serves events sub events.length) (beyond : events.length < sub.afterSequence) :
    Serves (events ++ [e]) ⟨sub.consumer, sub.afterSequence, phase⟩ (events ++ [e]).length := by
  have same : sub.consumer.start = sub.afterSequence :=
    serves.reach.resolve_left (Nat.not_le_of_lt beyond)
  refine ⟨serves.fresh, serves.start, .inr same, ?_⟩
  rw [List.take_of_length_le (Nat.le_max_left _ _)]
  show sub.consumer.received = (events ++ [e]).drop sub.consumer.start
  rw [serves.whole, same, List.drop_of_length_le (Nat.le_of_lt beyond), List.drop_of_length_le]
  rw [List.length_append]
  exact beyond

/-- An event is given to the consumer exactly if its sequence is behind the cursor. -/
theorem Fed.say (fed : Fed s) (serves : Serves s.events sub s.events.length)
    (incomplete : s.streamComplete = false) (next : e.sequence = s.events.length + 1) :
    Fed (s.say sub stream e) := by
  refine ⟨fed.log.append next trivial, ?_, ?_, fun _ _ _ _ => incomplete⟩
  · intro c mem
    obtain ⟨received, ended⟩ := fed.consumers c mem
    refine ⟨received.trans (drop_prefix_append _ _ _), fun over_ => ?_⟩
    exact absurd (incomplete.symm.trans (ended over_).1) nofun
  · rintro _ ⟨⟩
    rw [RunSession.say]
    dsimp only
    by_cases behind : sub.afterSequence < e.sequence
    · rw [if_pos behind]
      exact serves.given (Nat.le_of_lt_succ (Nat.lt_of_lt_of_eq behind next))
    · rw [if_neg behind]
      exact serves.passed ((Nat.le_of_eq next.symm).trans (Nat.le_of_not_lt behind))

theorem Fed.perform (effects : List Effect) (fed : Fed s)
    (serves : Serves s.events sub s.events.length) (incomplete : s.streamComplete = false) :
    Fed (RunSession.perform A P now s sub stream effects) := by
  induction effects generalizing s stream with
  | nil =>
    rw [RunSession.perform]
    split
    · exact fed.finish serves
    · exact fed.stop serves incomplete
  | cons effect effects ih =>
    cases effect with
    | say t payload =>
      rw [RunSession.perform]
      split
      · exact fed.say serves incomplete rfl
      · exact fed.drop serves
    | cancelProcess =>
      rw [RunSession.perform]
      exact .stop (fed.same rfl rfl rfl rfl) serves incomplete
    | answered =>
      rw [RunSession.perform]
      split
      · exact ih fed serves incomplete
      · exact fed.stop serves incomplete
    | conclude state =>
      rw [RunSession.perform]
      exact ih (fed.same rfl rfl rfl rfl) serves incomplete
    | dismiss =>
      rw [RunSession.perform]
      exact ih (fed.same rfl rfl rfl rfl) serves incomplete
    | raise =>
      rw [RunSession.perform]
      exact fed.drop serves

theorem Fed.advance (fed : Fed s) (held : s.subscription = some sub)
    (phase : sub.phase = .streaming stream) : Fed (s.advance A P around sub stream) := by
  have serves := fed.serves sub held
  rw [phase] at serves
  have incomplete := fed.alone sub held stream phase
  cases stands A around held phase with
  | waits nothing pulled effects =>
    rw [RunSession.advance, if_pos nothing, pulled]
    exact fed.stop serves incomplete
  | ends nothing source pulled effects =>
    rw [RunSession.advance, if_pos nothing, pulled]
    exact fed.perform _ serves incomplete
  | reads nothing source e pulled effects =>
    rw [advance_reads nothing pulled]
    exact Fed.perform _ (fed.same rfl rfl rfl rfl) serves incomplete
  | goes some_ effects =>
    rw [RunSession.advance, if_neg some_]
    exact fed.perform _ serves incomplete

theorem Fed.replay {n : Nat} (fed : Fed s) (serves : Serves s.events sub n) :
    Fed (s.replay sub n) := by
  rw [RunSession.replay, fed.log.dropWhile_le]
  have start := serves.start
  cases found : s.events.drop (max n sub.afterSequence) with
  | cons e more =>
    have lt : max n sub.afterSequence < s.events.length := by
      refine Nat.lt_of_not_le fun beyond => ?_
      rw [List.drop_of_length_le beyond] at found
      cases found
    have next : s.events.length - more.length = max n sub.afterSequence + 1 := by
      have length := congrArg List.length found
      rw [List.length_drop, List.length_cons] at length
      omega
    have given : s.events.take (max n sub.afterSequence) ++ [e] =
        s.events.take (max n sub.afterSequence + 1) := by
      rw [List.take_add_one, ← List.head?_drop, found]
      rfl
    refine ⟨fed.log, fun c mem => ?_, ?_, ?_⟩
    · obtain ⟨received, ended⟩ := fed.consumers c mem
      exact ⟨received, ended⟩
    · rintro _ ⟨⟩
      refine ⟨serves.fresh, start, .inl ?_, ?_⟩
      · show sub.afterSequence ≤ s.events.length
        omega
      · show sub.consumer.received ++ [e] = (s.events.take
          (max (s.events.length - more.length) sub.afterSequence)).drop sub.consumer.start
        have greatest : max (max n sub.afterSequence + 1) sub.afterSequence =
            max n sub.afterSequence + 1 := by omega
        rw [serves.received, next, greatest, ← given, List.drop_append_of_le_length]
        rw [List.length_take]
        omega
    · rintro _ ⟨⟩ _ ⟨⟩
  | nil =>
    have beyond := List.drop_eq_nil_iff.mp found
    have serves : Serves s.events sub s.events.length := by
      refine ⟨serves.fresh, start, serves.reach, ?_⟩
      rw [serves.received, List.take_of_length_le beyond,
        List.take_of_length_le (Nat.le_max_left _ _)]
    dsimp only
    split
    · exact fed.finish serves
    · exact fed.stop serves (Bool.eq_false_iff.mpr ‹_›)

/-- A consumer that asks for what is behind the last event that it has got. -/
theorem Given.serves {c : Consumer} (given : Given s c) (log : Numbered s.events) :
    Serves s.events ⟨{ c with ended := false }, c.cursor, .replaying 0⟩ 0 := by
  have taken := List.prefix_iff_eq_take.mp given.received
  cases last : c.received.getLast? with
  | none =>
    have nothing := List.getLast?_eq_none_iff.mp last
    have cursor : c.cursor = c.start := by rw [Consumer.cursor, last]
    refine ⟨rfl, Nat.le_of_eq cursor.symm, .inr cursor.symm, ?_⟩
    show c.received = (s.events.take (max 0 c.cursor)).drop c.start
    rw [cursor, Nat.zero_max, List.drop_take, Nat.sub_self, List.take_zero, nothing]
  | some e =>
    have pos : 0 < c.received.length := List.length_pos_of_mem (List.mem_of_getLast? last)
    have fits := given.received.length_le
    rw [List.length_drop] at fits
    have number : e.sequence = c.start + c.received.length := by
      rw [List.getLast?_eq_getElem?] at last
      obtain ⟨lt, rfl⟩ := List.getElem?_eq_some_iff.mp last
      rw [given.received.getElem lt, List.getElem_drop, log.getElem_number (by omega)]
      omega
    have cursor : c.cursor = c.start + c.received.length := by
      rw [Consumer.cursor, last]
      exact number
    refine ⟨rfl, ?_, .inl ?_, ?_⟩
    · show c.start ≤ c.cursor
      omega
    · show c.cursor ≤ s.events.length
      omega
    · show c.received = (s.events.take (max 0 c.cursor)).drop c.start
      rw [cursor, Nat.zero_max, List.drop_take, Nat.add_sub_cancel_left]
      exact taken

theorem Fed.subscribe (fed : Fed s) {c : Consumer} {consumers : List Consumer}
    (given : Given s c) (others : ∀ d ∈ consumers, d ∈ s.consumers) :
    Fed ({ s with consumers := consumers }.subscribe c) := by
  refine ⟨fed.log, fun d mem => ?_, ?_, ?_⟩
  · obtain ⟨received, ended⟩ := fed.consumers d (others d mem)
    exact ⟨received, ended⟩
  · rintro _ ⟨⟩
    exact given.serves fed.log
  · rintro _ ⟨⟩ _ ⟨⟩

theorem Fed.abandon (fed : Fed s) : Fed s.abandon := by
  rw [RunSession.abandon]
  split
  · exact fed
  · rename_i sub held
    have serves := fed.serves sub held
    split
    · exact fed.drop serves
    · exact fed.drop serves

theorem Fed.other (fed : Fed s) (i : RunSession.Input) : Fed (s.other A P i) := by
  cases i with
  | join afterSequence =>
    rw [RunSession.other]
    split
    · exact fed.subscribe ⟨List.nil_prefix, nofun⟩ fun _ => id
    · exact fed
  | resume index =>
    rw [RunSession.other]
    split
    · rename_i c _ found
      exact fed.subscribe (fed.consumers c (List.mem_of_getElem? found)) fun _ =>
        List.mem_of_mem_eraseIdx
    · exact fed
  | next around => exact fed
  | abandon => exact fed.abandon
  | cancel =>
    rw [RunSession.other, RunSession.cancel]
    split
    · exact fed.same rfl rfl rfl rfl
    · exact fed.same rfl rfl rfl rfl
  | cancelReturns =>
    rw [RunSession.other, RunSession.cancelReturns]
    split
    · exact fed.same rfl rfl rfl rfl
    · exact fed
  | cancelDropped | background | process => exact fed.same rfl rfl rfl rfl

theorem Fed.next (fed : Fed s) (around : Surroundings) : Fed (s.next A P around) := by
  rw [RunSession.next]
  split
  · exact fed
  · rename_i sub held
    split
    · rename_i position phase
      have serves := fed.serves sub held
      rw [phase] at serves
      exact fed.replay serves
    · rename_i stream phase
      exact fed.advance held phase

theorem Fed.step (fed : Fed s) (i : RunSession.Input) : Fed (s.step A P i) := by
  cases i with
  | next around => exact fed.next around
  | _ =>
    rw [RunSession.step]
    · split
      · exact fed
      · exact fed.other _
    · exact nofun

end Corvus.Adapters
