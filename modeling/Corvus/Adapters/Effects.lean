import Corvus.Adapters.Stream
import Corvus.Agent.Chain

/-!
# What a generator says

What an adapter has to do about an event of its process is a plan: it says some events, and a
terminal one is the last. A step of the generator says at most one event, the first that is left of
the plan.
-/

namespace Corvus.Adapters

open Agent Process

variable {X : Type} {A : Adapter X} {P : Parts} {s s' : RunSession X} {sub : Subscription}
  {stream : Stream} {effects rest : List Effect} {now : Instant} {around : Surroundings}
  {t : AgentRunEventType} {payload : Payload} {i : RunSession.Input} {e : AgentRunEvent}

/-! ## Plans -/

/-- Nothing is said. -/
def Mute (effects : List Effect) : Prop := ∀ effect ∈ effects, effect.isSay = false

/-- Nothing is left but to dismiss what has run beside the stream. -/
def Over (effects : List Effect) : Prop := ∀ effect ∈ effects, effect = .dismiss

/-- What an adapter does about an event of the process, apart from telling that the run has
started: a terminal event is the last thing it says, and concludes the run. -/
inductive Plan : List Effect → Prop where
  | nil : Plan []
  | say {t : AgentRunEventType} {payload : Payload} {rest : List Effect} (plain : t.isTool = false)
      (going : t ≠ .started) (open_ : t.terminalState = none) (after : Plan rest) :
      Plan (.say t payload :: rest)
  | terminal {t : AgentRunEventType} {payload : Payload} {rest : List Effect}
      {state : AgentRunState} (ends : t.terminalState = some state) (after : Over rest) :
      Plan (.say t payload :: .conclude state :: rest)
  | cancelProcess {rest : List Effect} (after : Plan rest) : Plan (.cancelProcess :: rest)
  | answered {rest : List Effect} (after : Plan rest) : Plan (.answered :: rest)
  | dismiss {rest : List Effect} (after : Plan rest) : Plan (.dismiss :: rest)
  | raise : Plan [.raise]

/-- An adapter tells that the run has started exactly about the events that `opens` names. -/
def Adapter.Follows (A : Adapter X) (opens : X → Bool → Bool → SessionEvent → Prop) : Prop :=
  ∀ own terminal started around e, let effects := (A.read own terminal started around e).2.2
    (opens own terminal started e → ∃ payload rest, effects = .say .started payload :: rest ∧
      Plan rest) ∧
    (¬ opens own terminal started e → Plan effects)

/-- What is said first, once the answer of the process is there or not. -/
def firstSay (answered : Bool) : List Effect → Option (AgentRunEventType × Payload × List Effect)
  | .say t payload :: rest => some (t, payload, rest)
  | .answered :: rest => if answered then firstSay answered rest else none
  | .conclude _ :: rest | .dismiss :: rest => firstSay answered rest
  | .cancelProcess :: _ | .raise :: _ | [] => none

/-- What the generator is about to do. -/
def upcoming (A : Adapter X) (s : RunSession X) (around : Surroundings) : List Effect :=
  match s.subscription with
  | some ⟨_, _, .streaming stream⟩ =>
    if stream.rest = [] then
      match s.pull stream with
      | none => []
      | some (_, none) => RunSession.epilogue A stream
      | some (_, some e) => (A.read s.own stream.terminal stream.started around e).2.2
    else stream.rest
  | _ => []

/-- What the generator still has to do about the event that it has read. -/
def toDo (s : RunSession X) : List Effect :=
  match s.subscription with
  | some ⟨_, _, .streaming stream⟩ => stream.rest
  | _ => []

theorem mute_nil : Mute [] := fun _ mem => absurd mem List.not_mem_nil

theorem over_nil : Over [] := fun _ mem => absurd mem List.not_mem_nil

theorem over_dismiss : Over [.dismiss] := List.forall_mem_singleton.mpr rfl

theorem Over.mute (over_ : Over effects) : Mute effects := by
  intro effect mem
  rw [over_ effect mem]
  rfl

theorem Mute.filter (mute : Mute rest) : rest.filter (·.isSay) = [] :=
  List.filter_eq_nil_iff.mpr fun effect mem is_say => by
    rw [mute effect mem] at is_say
    cases is_say

theorem isTool_of_terminal {state : AgentRunState} (ends : t.terminalState = some state) :
    t.isTool = false := by
  cases t with
  | completed | failed | cancelled => rfl
  | _ => cases ends

theorem Mute.firstSay {answered : Bool} (mute : Mute effects) :
    firstSay answered effects = none := by
  induction effects with
  | nil => rfl
  | cons effect effects ih =>
    obtain ⟨silent, rest⟩ := List.forall_mem_cons.mp mute
    cases effect with
    | say t payload => cases silent
    | cancelProcess | raise => rfl
    | answered => rw [Adapters.firstSay, ih rest, ite_self]
    | conclude | dismiss => exact ih rest

/-- A plan does not tell that the run has started. -/
theorem Plan.going {answered : Bool} (plan : Plan effects)
    (found : firstSay answered effects = some (t, payload, rest)) : t ≠ .started := by
  induction plan with
  | nil => cases found
  | say plain going open_ after =>
    rw [← (Prod.mk.inj (Option.some.inj found)).1]
    exact going
  | terminal ends after =>
    rw [← (Prod.mk.inj (Option.some.inj found)).1]
    rintro rfl
    cases ends
  | cancelProcess after => cases found
  | answered after ih =>
    rw [firstSay] at found
    split at found
    · exact ih found
    · cases found
  | dismiss after ih => exact ih found
  | raise => cases found

/-! ## Steps of the generator -/

/-- What the generator is about to do, where it stands. -/
inductive Stands (A : Adapter X) (s : RunSession X) (around : Surroundings) (stream : Stream) :
    Prop where
  /-- Nothing is there to be read. -/
  | waits (nothing : stream.rest = []) (pulled : s.pull stream = none)
      (effects : upcoming A s around = [])
  | ends (nothing : stream.rest = []) (source : Subscriber)
      (pulled : s.pull stream = some (source, none))
      (effects : upcoming A s around = RunSession.epilogue A stream)
  | reads (nothing : stream.rest = []) (source : Subscriber) (e : SessionEvent)
      (pulled : s.pull stream = some (source, some e))
      (effects : upcoming A s around =
        (A.read s.own stream.terminal stream.started around e).2.2)
  | goes (some_ : stream.rest ≠ []) (effects : upcoming A s around = stream.rest)

variable (A around) in
theorem stands (held : s.subscription = some sub) (phase : sub.phase = .streaming stream) :
    Stands A s around stream := by
  obtain ⟨consumer, cursor, _⟩ := sub
  cases phase
  by_cases nothing : stream.rest = []
  · have effects : upcoming A s around = match s.pull stream with
        | none => []
        | some (_, none) => RunSession.epilogue A stream
        | some (_, some e) => (A.read s.own stream.terminal stream.started around e).2.2 := by
      rw [upcoming, held]
      exact if_pos nothing
    cases pulled : s.pull stream with
    | none =>
      rw [pulled] at effects
      exact .waits nothing pulled effects
    | some found =>
      obtain ⟨source, read⟩ := found
      rw [pulled] at effects
      cases read with
      | none => exact .ends nothing source pulled effects
      | some e => exact .reads nothing source e pulled effects
  · refine .goes nothing ?_
    rw [upcoming, held]
    exact if_neg nothing

/-- Whoever says something streams. -/
theorem streams_of_upcoming (some_ : upcoming A s around ≠ []) :
    ∃ sub stream, s.subscription = some sub ∧ sub.phase = .streaming stream := by
  cases held : s.subscription with
  | none =>
    rw [upcoming, held] at some_
    exact absurd rfl some_
  | some sub =>
    obtain ⟨consumer, cursor, phase⟩ := sub
    cases phase with
    | replaying position =>
      rw [upcoming, held] at some_
      exact absurd rfl some_
    | streaming stream => exact ⟨_, stream, rfl, rfl⟩

theorem advance_reads {source : Subscriber} {read : SessionEvent} (nothing : stream.rest = [])
    (pulled : s.pull stream = some (source, some read)) :
    let r := A.read s.own stream.terminal stream.started around read
    s.advance A P around sub stream = RunSession.perform A P around.now
      { s with own := r.1, processSequence := max s.processSequence read.sequence } sub
      { stream with source := source, started := r.2.1 } r.2.2 := by
  rw [RunSession.advance, if_pos nothing, pulled]

/-- What is said first is appended, or the subscription is dropped with it. -/
theorem perform_firstSay (effects : List Effect)
    (found : firstSay s.process.terminal effects = some (t, payload, rest)) :
    (P.admits payload = true → (RunSession.perform A P now s sub stream effects).events =
      s.events ++ [s.event P now t payload]) ∧
    (P.admits payload = false → (RunSession.perform A P now s sub stream effects).lost ≠ []) := by
  induction effects generalizing s stream with
  | nil => cases found
  | cons effect effects ih =>
    cases effect with
    | say t' payload' =>
      obtain ⟨rfl, rest'⟩ := Prod.mk.inj (Option.some.inj found)
      obtain ⟨rfl, rfl⟩ := Prod.mk.inj rest'
      refine ⟨fun admitted => ?_, fun refused => ?_⟩
      · rw [RunSession.perform, if_pos admitted]
        rfl
      · rw [RunSession.perform, if_neg (Bool.eq_false_iff.mp refused), RunSession.drop]
        simp [Effect.isSay]
    | cancelProcess | raise => cases found
    | answered =>
      rw [firstSay] at found
      split at found
      · rename_i there
        rw [RunSession.perform, if_pos there]
        exact ih found
      · cases found
    | conclude state =>
      rw [RunSession.perform]
      exact ih found
    | dismiss =>
      rw [RunSession.perform]
      exact ih found

theorem next_firstSay
    (found : firstSay s.process.terminal (upcoming A s around) = some (t, payload, rest)) :
    (P.admits payload = true →
      (s.next A P around).events = s.events ++ [s.event P around.now t payload]) ∧
    (P.admits payload = false → (s.next A P around).lost ≠ []) := by
  have some_ : upcoming A s around ≠ [] := by
    intro nothing
    rw [nothing] at found
    cases found
  obtain ⟨sub, stream, held, phase⟩ := streams_of_upcoming some_
  have next : s.next A P around = s.advance A P around sub stream := by
    rw [RunSession.next, held]
    dsimp only
    rw [phase]
  rw [next]
  cases stands A around held phase with
  | waits _ _ effects => exact absurd effects some_
  | ends nothing source pulled effects =>
    rw [RunSession.advance, if_pos nothing, pulled]
    rw [effects] at found
    exact perform_firstSay _ found
  | reads nothing source e pulled effects =>
    rw [advance_reads nothing pulled]
    rw [effects] at found
    exact perform_firstSay (s := { s with
      own := _, processSequence := max s.processSequence e.sequence }) _ found
  | goes some_ effects =>
    rw [RunSession.advance, if_neg some_]
    rw [effects] at found
    exact perform_firstSay _ found

theorem lost_abandon : s.abandon.lost = s.lost ++ (toDo s).filter (·.isSay) := by
  cases held : s.subscription with
  | none =>
    rw [RunSession.abandon, toDo, held]
    exact (List.append_nil _).symm
  | some sub =>
    obtain ⟨consumer, cursor, phase⟩ := sub
    cases phase with
    | replaying position =>
      rw [RunSession.abandon, toDo, held]
      rfl
    | streaming stream =>
      rw [RunSession.abandon, toDo, held]
      rfl

end Corvus.Adapters
