import Corvus.Adapters.Plans

/-!
# Answers to a cancellation

An adapter answers a call of `cancel` from the terminal state of the session, and takes the run for
cancelled once the process has answered, whatever it has answered. The stream tells what the process
has come to. The two agree as long as the stream comes to no other end than the answers have told.
-/

namespace Corvus.Adapters

open Agent Process Run

variable {X : Type} {A : Adapter X} {P : Parts} {s s' : RunSession X} {sub : Subscription}
  {stream : Stream} {effects rest : List Effect} {now : Instant} {around : Surroundings}
  {t : AgentRunEventType} {payload : Payload} {i : RunSession.Input} {e : AgentRunEvent}
  {events : List AgentRunEvent} {state : AgentRunState}

/-- A terminal event of the stream has this state. -/
def Ends (events : List AgentRunEvent) (state : AgentRunState) : Prop :=
  ∃ e ∈ events, e.eventType.terminalState = some state

/-- The answers that were given, and the terminal events of the stream: an accepted cancellation
leaves the session cancelled, and the stream comes to no other end; a refused one tells how the
stream ends. -/
structure Truthful (s : RunSession X) : Prop where
  accepted : ∀ a ∈ s.answers, a.accepted = true → s.terminalState = some .cancelled ∧
    ∀ state, Ends s.events state → state = .cancelled
  refused : ∀ a ∈ s.answers, a.accepted = false → ∀ state, Ends s.events state → state = a.state

/-- The stream may end in this state, after the answers that were given. -/
def MayEnd (s : RunSession X) (state : AgentRunState) : Prop :=
  ∀ a ∈ s.answers, state = if a.accepted then .cancelled else a.state

/-- A step keeps to the answers: the stream says no terminal event that an answer excludes, and an
answer is given only when all terminal events so far agree with it. -/
structure Keeps (A : Adapter X) (P : Parts) (s : RunSession X) (i : RunSession.Input) : Prop where
  ends : ∀ around, i = .next around → ∀ t payload rest state,
    firstSay s.process.terminal (upcoming A s around) = some (t, payload, rest) →
      P.admits payload = true → t.terminalState = some state → MayEnd s state
  refuses : i = .cancel → ¬ s.Busy → ∀ state, s.terminalState = some state →
    ∀ other, Ends s.events other → other = state
  accepts : i = .cancelReturns → ¬ s.Busy → 0 < s.cancelling → s.process.terminal = true →
    ∀ state, Ends s.events state → state = .cancelled

/-- What is left of a plan: all of it, or the conclusion of the event that was said. -/
inductive Left (events : List AgentRunEvent) : List Effect → Prop where
  | opening {payload : Payload} {rest : List Effect} (plan : Plan rest) :
      Left events (.say .started payload :: rest)
  | plan {effects : List Effect} (plan : Plan effects) : Left events effects
  | concluding {rest : List Effect} {state : AgentRunState} (told : Ends events state)
      (after : Over rest) : Left events (.conclude state :: rest)
  | over_ {rest : List Effect} (over_ : Over rest) : Left events rest

def Resting (s : RunSession X) : Prop :=
  ∀ sub stream, s.subscription = some sub → sub.phase = .streaming stream →
    Left s.events stream.rest

theorem of_ends_append (ends : Ends (events ++ [e]) state) :
    Ends events state ∨ e.eventType.terminalState = some state := by
  obtain ⟨f, mem, ends⟩ := ends
  obtain before | last := List.mem_append.mp mem
  · exact .inl ⟨f, before, ends⟩
  · rw [List.mem_singleton.mp last] at ends
    exact .inr ends

theorem Left.tail {effect : Effect} (left : Left events (effect :: effects))
    (not_say : effect.isSay = false) (plan : Plan (effect :: effects) → Plan effects) :
    Left events effects := by
  cases left with
  | opening => cases not_say
  | plan planned => exact .plan (plan planned)
  | concluding told after => exact .over_ after
  | over_ over_ => exact .over_ (List.forall_mem_cons.mp over_).2

/-- After an event was said. -/
theorem Left.said (left : Left events (.say t payload :: rest)) (type : e.eventType = t) :
    Left (events ++ [e]) rest := by
  cases left with
  | opening plan => exact .plan plan
  | plan planned =>
    cases planned with
    | say plain going open_ after => exact .plan after
    | terminal ends after =>
      exact .concluding ⟨e, List.mem_append_right _ (List.mem_singleton_self e), type ▸ ends⟩ after
  | over_ over_ => cases over_ _ List.mem_cons_self

/-- What the state that is concluded has to do with the answers. -/
theorem Truthful.concludes (truthful : Truthful s) (told : Ends s.events state) :
    Truthful { s with terminalState := some state } := by
  refine ⟨fun a mem yes => ?_, truthful.refused⟩
  obtain ⟨-, cancelled⟩ := truthful.accepted a mem yes
  exact ⟨congrArg some (cancelled state told), cancelled⟩

/-- A step that concerns neither the events nor the answers. -/
theorem Truthful.same (truthful : Truthful s) (events : s'.events = s.events)
    (answers : s'.answers = s.answers) (terminal : s'.terminalState = s.terminalState) :
    Truthful s' := by
  refine ⟨?_, ?_⟩
  · rw [answers, terminal, events]
    exact truthful.accepted
  · rw [answers, events]
    exact truthful.refused

theorem Truthful.say (truthful : Truthful s)
    (may : ∀ state, e.eventType.terminalState = some state → MayEnd s state) :
    Truthful (s.say sub stream e) := by
  refine ⟨fun a mem yes => ?_, fun a mem no state ends => ?_⟩
  · obtain ⟨cancelled, only⟩ := truthful.accepted a mem yes
    refine ⟨cancelled, fun state ends => ?_⟩
    obtain before | last := of_ends_append ends
    · exact only state before
    · rw [may state last a mem, if_pos yes]
  · obtain before | last := of_ends_append ends
    · exact truthful.refused a mem no state before
    · rw [may state last a mem, no]
      rfl

/-- What the generator does keeps to the answers if what it says first does. -/
theorem Truthful.perform (effects : List Effect) (truthful : Truthful s)
    (left : Left s.events effects)
    (may : ∀ t payload rest state, firstSay s.process.terminal effects = some (t, payload, rest) →
      P.admits payload = true → t.terminalState = some state → MayEnd s state) :
    Truthful (RunSession.perform A P now s sub stream effects) := by
  induction effects generalizing s stream with
  | nil =>
    rw [RunSession.perform]
    split
    · exact truthful.same rfl rfl rfl
    · exact truthful.same rfl rfl rfl
  | cons effect effects ih =>
    cases effect with
    | say t payload =>
      rw [RunSession.perform]
      split
      · rename_i admitted
        exact truthful.say fun state ends => may t payload effects state rfl admitted ends
      · exact truthful.same rfl rfl rfl
    | cancelProcess =>
      rw [RunSession.perform]
      exact truthful.same rfl rfl rfl
    | answered =>
      rw [RunSession.perform]
      split
      · rename_i there
        refine ih truthful (left.tail rfl fun plan => by cases plan; assumption) ?_
        intro t payload rest state found
        refine may t payload rest state ?_
        rw [firstSay, if_pos there]
        exact found
      · exact truthful.same rfl rfl rfl
    | conclude state =>
      rw [RunSession.perform]
      have told : Ends s.events state := by
        cases left with
        | plan plan => cases plan
        | concluding told after => exact told
        | over_ over_ => cases over_ _ List.mem_cons_self
      exact ih (truthful.concludes told) (left.tail rfl fun plan => by cases plan) may
    | dismiss =>
      rw [RunSession.perform]
      exact ih (truthful.same rfl rfl rfl) (left.tail rfl fun plan => by cases plan; assumption) may
    | raise =>
      rw [RunSession.perform]
      exact truthful.same rfl rfl rfl

/-- What the generator leaves. -/
theorem resting_perform (effects : List Effect) (left : Left s.events effects) :
    Resting (RunSession.perform A P now s sub stream effects) := by
  induction effects generalizing s stream with
  | nil =>
    rw [RunSession.perform]
    split
    · rintro _ _ ⟨⟩
    · rintro _ _ ⟨⟩ ⟨⟩
      exact left
  | cons effect effects ih =>
    cases effect with
    | say t payload =>
      rw [RunSession.perform]
      split
      · rintro _ _ ⟨⟩ ⟨⟩
        exact left.said rfl
      · rintro _ _ ⟨⟩
    | cancelProcess =>
      rw [RunSession.perform]
      rintro _ _ ⟨⟩ ⟨⟩
      cases left with
      | plan plan =>
        cases plan
        exact .plan (.answered ‹_›)
      | over_ over_ => cases over_ _ List.mem_cons_self
    | answered =>
      rw [RunSession.perform]
      split
      · exact ih (left.tail rfl fun plan => by cases plan; assumption)
      · rintro _ _ ⟨⟩ ⟨⟩
        exact left
    | conclude state =>
      rw [RunSession.perform]
      exact ih (left.tail rfl fun plan => by cases plan)
    | dismiss =>
      rw [RunSession.perform]
      exact ih (left.tail rfl fun plan => by cases plan; assumption)
    | raise =>
      rw [RunSession.perform]
      rintro _ _ ⟨⟩

theorem left_epilogue {stream : Stream} : Left events (RunSession.epilogue A stream) := by
  rw [RunSession.epilogue]
  split
  · exact .over_ over_dismiss
  · exact .plan (.terminal rfl over_dismiss)

theorem left_read {opens : X → Bool → Bool → SessionEvent → Prop} (follows : A.Follows opens)
    (own : X) (terminal started : Bool) (read : SessionEvent) :
    Left events (A.read own terminal started around read).2.2 := by
  obtain ⟨starts, going⟩ := follows own terminal started around read
  by_cases opening : opens own terminal started read
  · obtain ⟨payload, rest, same, plan⟩ := starts opening
    rw [same]
    exact .opening plan
  · exact .plan (going opening)

theorem advance_keeps {opens : X → Bool → Bool → SessionEvent → Prop} (follows : A.Follows opens)
    (truthful : Truthful s) (resting : Resting s) (keeps : Keeps A P s (.next around))
    (held : s.subscription = some sub) (phase : sub.phase = .streaming stream) :
    Truthful (s.advance A P around sub stream) ∧ Resting (s.advance A P around sub stream) := by
  have left := resting sub stream held phase
  have may := keeps.ends around rfl
  cases stands A around held phase with
  | waits nothing pulled effects =>
    rw [RunSession.advance, if_pos nothing, pulled]
    refine ⟨truthful.same rfl rfl rfl, ?_⟩
    rintro _ _ ⟨⟩ ⟨⟩
    exact left
  | ends nothing source pulled effects =>
    rw [RunSession.advance, if_pos nothing, pulled]
    rw [effects] at may
    exact ⟨truthful.perform _ left_epilogue may, resting_perform _ left_epilogue⟩
  | reads nothing source e pulled effects =>
    rw [advance_reads nothing pulled]
    rw [effects] at may
    have truthful : Truthful { s with
        own := (A.read s.own stream.terminal stream.started around e).1
        processSequence := max s.processSequence e.sequence } := truthful.same rfl rfl rfl
    have left : Left s.events (A.read s.own stream.terminal stream.started around e).2.2 :=
      left_read follows s.own stream.terminal stream.started e
    exact ⟨truthful.perform _ left may, resting_perform _ left⟩
  | goes some_ effects =>
    rw [RunSession.advance, if_neg some_]
    rw [effects] at may
    exact ⟨truthful.perform _ left may, resting_perform _ left⟩

theorem next_keeps {opens : X → Bool → Bool → SessionEvent → Prop} (follows : A.Follows opens)
    (truthful : Truthful s) (resting : Resting s) (keeps : Keeps A P s (.next around)) :
    Truthful (s.next A P around) ∧ Resting (s.next A P around) := by
  rw [RunSession.next]
  split
  · exact ⟨truthful, resting⟩
  · rename_i sub held
    split
    · rw [RunSession.replay]
      split
      · refine ⟨truthful.same rfl rfl rfl, ?_⟩
        rintro _ _ ⟨⟩ ⟨⟩
      · split
        · refine ⟨truthful.same rfl rfl rfl, ?_⟩
          rintro _ _ ⟨⟩
        · refine ⟨truthful.same rfl rfl rfl, ?_⟩
          rintro _ _ ⟨⟩ ⟨⟩
          exact .over_ over_nil
    · rename_i stream phase
      exact advance_keeps follows truthful resting keeps held phase

/-- What leaves the events and the subscription alone. -/
theorem Resting.same (resting : Resting s) (events : s'.events = s.events)
    (subscription : s'.subscription = s.subscription) : Resting s' := by
  intro sub stream held phase
  rw [events]
  exact resting sub stream (subscription ▸ held) phase

theorem other_keeps (truthful : Truthful s) (resting : Resting s) (keeps : Keeps A P s i)
    (still : ¬ s.Busy) : Truthful (s.other A P i) ∧ Resting (s.other A P i) := by
  cases i with
  | join afterSequence =>
    rw [RunSession.other]
    split
    · refine ⟨truthful.same rfl rfl rfl, ?_⟩
      rintro _ _ ⟨⟩ ⟨⟩
    · exact ⟨truthful, resting⟩
  | resume index =>
    rw [RunSession.other]
    split
    · refine ⟨truthful.same rfl rfl rfl, ?_⟩
      rintro _ _ ⟨⟩ ⟨⟩
    · exact ⟨truthful, resting⟩
  | next around => exact ⟨truthful, resting⟩
  | abandon =>
    rw [RunSession.other, RunSession.abandon]
    split
    · exact ⟨truthful, resting⟩
    · split
      · refine ⟨truthful.same rfl rfl rfl, ?_⟩
        rintro _ _ ⟨⟩
      · refine ⟨truthful.same rfl rfl rfl, ?_⟩
        rintro _ _ ⟨⟩
  | cancel =>
    rw [RunSession.other, RunSession.cancel]
    split
    · rename_i state terminal
      refine ⟨⟨fun a mem yes => ?_, fun a mem no other ends => ?_⟩, resting.same rfl rfl⟩
      · obtain before | new := List.mem_append.mp mem
        · exact truthful.accepted a before yes
        · rw [List.mem_singleton.mp new] at yes
          cases yes
      · obtain before | new := List.mem_append.mp mem
        · exact truthful.refused a before no other ends
        · rw [List.mem_singleton.mp new]
          exact keeps.refuses rfl still state terminal other ends
    · exact ⟨truthful.same rfl rfl rfl, resting.same rfl rfl⟩
  | cancelReturns =>
    rw [RunSession.other, RunSession.cancelReturns]
    split
    · rename_i there
      have only := keeps.accepts rfl still there.1 there.2
      refine ⟨⟨fun a mem yes => ⟨rfl, only⟩, fun a mem no => ?_⟩, resting.same rfl rfl⟩
      obtain before | new := List.mem_append.mp mem
      · exact truthful.refused a before no
      · rw [List.mem_singleton.mp new] at no
        cases no
    · exact ⟨truthful, resting⟩
  | cancelDropped | background | process =>
    exact ⟨truthful.same rfl rfl rfl, resting.same rfl rfl⟩

theorem step_keeps {opens : X → Bool → Bool → SessionEvent → Prop} (follows : A.Follows opens)
    (truthful : Truthful s) (resting : Resting s) (keeps : Keeps A P s i) :
    Truthful (s.step A P i) ∧ Resting (s.step A P i) := by
  cases i with
  | next around => exact next_keeps follows truthful resting keeps
  | _ =>
    rw [RunSession.step]
    · split
      · exact ⟨truthful, resting⟩
      · exact other_keeps truthful resting keeps ‹_›
    · intro _ same
      cases same

theorem answers_perform (effects : List Effect) :
    (RunSession.perform A P now s sub stream effects).answers = s.answers := by
  induction effects generalizing s stream with
  | nil =>
    rw [RunSession.perform]
    split
    · rfl
    · rfl
  | cons effect effects ih =>
    cases effect with
    | say t payload =>
      rw [RunSession.perform]
      split
      · rfl
      · rfl
    | cancelProcess | raise => rfl
    | answered =>
      rw [RunSession.perform]
      split
      · exact ih
      · rfl
    | conclude state | dismiss =>
      rw [RunSession.perform]
      exact ih

theorem answers_advance : (s.advance A P around sub stream).answers = s.answers := by
  rw [RunSession.advance]
  split
  · split
    · rfl
    · exact answers_perform _
    · exact answers_perform _
  · exact answers_perform _

theorem answers_next : (s.next A P around).answers = s.answers := by
  rw [RunSession.next]
  split
  · rfl
  · split
    · rw [RunSession.replay]
      split
      · rfl
      · split
        · rfl
        · rfl
    · exact answers_advance

/-- A step that does not keep to the answers shows. -/
theorem keeps_of_truthful (truthful : Truthful (s.step A P i)) : Keeps A P s i := by
  constructor
  · rintro around rfl t payload rest state found admitted ends a mem
    have truthful : Truthful (s.next A P around) := truthful
    have told : Ends (s.next A P around).events state := by
      rw [(next_firstSay (P := P) found).1 admitted]
      exact ⟨_, List.mem_append_right _ (List.mem_singleton_self _), ends⟩
    have mem : a ∈ (s.next A P around).answers := by rw [answers_next]; exact mem
    cases accepted : a.accepted with
    | true => exact (truthful.accepted a mem accepted).2 state told
    | false => exact truthful.refused a mem accepted state told
  · rintro rfl still state terminal other ends
    have step : s.step A P .cancel = { s with
        answers := s.answers ++ [⟨false, state, true, "agent_run_already_terminal"⟩] } := by
      rw [RunSession.step, if_neg still, RunSession.other, RunSession.cancel, terminal]
      intro _ same
      cases same
    rw [step] at truthful
    exact truthful.refused _ (List.mem_append_right _ (List.mem_singleton_self _)) rfl other ends
  · rintro rfl still some_ there state ends
    have step : s.step A P .cancelReturns = { s with
        cancelling := s.cancelling - 1
        terminalState := some .cancelled
        answers := s.answers ++ [⟨true, .cancelled, true, "agent_run_cancelled"⟩] } := by
      rw [RunSession.step, if_neg still, RunSession.other, RunSession.cancelReturns,
        if_pos ⟨some_, there⟩]
      intro _ same
      cases same
    rw [step] at truthful
    exact (truthful.accepted _ (List.mem_append_right _ (List.mem_singleton_self _)) rfl).2 state
      ends

/-- The answers to the calls of `cancel` agree with the stream in every state of a run exactly if
every step keeps to them. -/
theorem truthful_iff {opens : X → Bool → Bool → SessionEvent → Prop} (follows : A.Follows opens)
    (runId handleId : Uuid) (own : X) (inputs : List RunSession.Input) :
    (∀ before, before <+: inputs →
      Truthful (exec (RunSession.step A P) (.start runId handleId own) before)) ↔
      Along (RunSession.step A P) (Keeps A P) (.start runId handleId own) inputs := by
  have start : Truthful (RunSession.start runId handleId own) ∧
      Resting (RunSession.start runId handleId own) := by
    refine ⟨⟨fun a mem => absurd mem List.not_mem_nil,
      fun a mem => absurd mem List.not_mem_nil⟩, ?_⟩
    rintro _ _ ⟨⟩
  refine throughout_iff (I := fun s => Truthful s ∧ Resting s) start ?_ ?_ ?_
  · rintro s i ⟨truthful, resting⟩ keeps
    exact step_keeps follows truthful resting keeps
  · exact fun s sound => sound.1
  · exact fun s i _ truthful => keeps_of_truthful truthful

namespace Sample

/-- The process has run out of its time when the run is cancelled, and then a consumer reads its
events. -/
def lateCancel : List RunSession.Input :=
  [.process (.supervise true), .process (.acquire 0), .process (.terminated true), .cancel,
    .process (.acquire 0), .cancelReturns, .join 0, .next surroundings, .next surroundings]

end Sample

/-- An accepted cancellation, and a stream that has failed. -/
theorem not_truthful_of_failed
    (answers : s.answers.map (·.accepted) = [true])
    (types : s.events.map (·.eventType) = [.failed]) : ¬ Truthful s := by
  intro truthful
  obtain ⟨a, all, accepted⟩ := List.map_eq_singleton_iff.mp answers
  obtain ⟨e, events, type⟩ := List.map_eq_singleton_iff.mp types
  have ends : Ends s.events .failed := by
    refine ⟨e, ?_, ?_⟩
    · rw [events]
      exact List.mem_singleton_self e
    · rw [type]
      rfl
  have mem : a ∈ s.answers := by
    rw [all]
    exact List.mem_singleton_self a
  exact absurd ((truthful.accepted a mem accepted).2 .failed ends) nofun

end Corvus.Adapters
