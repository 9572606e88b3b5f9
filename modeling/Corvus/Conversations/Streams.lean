import Corvus.Library.Json
import Corvus.Library.Run

/-!
# Event streams of the conversation runtime

`_publish`, `close` and `events` of `ConversationRuntime`. The runtime keeps the last events in a
bounded deque; a stream goes through it with a cursor and delivers, outside of the lock, what it has
found there. What has been published without being received is covered by a gap marker, unless the
runtime is closed while the stream stands at a marker that came alone.
-/

namespace Corvus.Conversations.Streaming

/-- What a caller of `_publish` says about an event. -/
structure Content where
  eventType : String
  chatId : Option String
  runId : Option String
  payload : List (String × Json)
deriving DecidableEq

structure Event where
  sequence : Nat
  content : Content
deriving DecidableEq

/-- `event_history_limit`, as the settings bound it. -/
structure HistoryLimit where
  value : Nat
  least : 16 ≤ value
  most : value ≤ 100000

structure Runtime where
  limit : HistoryLimit
  events : List Event
  sequence : Nat
  closed : Bool

def Runtime.fresh (limit : HistoryLimit) : Runtime := ⟨limit, [], 0, false⟩

/-- The event that is published next. -/
def Runtime.next (r : Runtime) (content : Content) : Event := ⟨r.sequence + 1, content⟩

/-- `_publish`: the deque drops its oldest event when it is full. -/
def Runtime.publish (r : Runtime) (content : Content) : Runtime :=
  { r with
    sequence := r.sequence + 1
    events := (r.events ++ [r.next content]).drop (r.events.length + 1 - r.limit.value) }

/-- The number of the oldest event that is still there, or of the next one. -/
def Runtime.oldest (r : Runtime) : Nat :=
  match r.events with
  | [] => r.sequence + 1
  | event :: _ => event.sequence

/-! ## Streams -/

/-- What a stream delivers: an event, or a `stream.gap` marker with its payload. -/
inductive Item where
  | event (event : Event)
  | gap (afterSequence oldestAvailable : Nat)
deriving DecidableEq

def Item.sequence : Item → Nat
  | .event e => e.sequence
  | .gap _ oldestAvailable => oldestAvailable - 1

/-- The event as which a stream over a chat yields the item. -/
def Item.yielded (chatId : Option String) : Item → Event
  | .event e => e
  | .gap afterSequence oldestAvailable =>
      { sequence := oldestAvailable - 1
        content :=
          { eventType := "stream.gap"
            chatId := chatId
            runId := none
            payload := [("after_sequence", .int afterSequence),
              ("oldest_available", .int oldestAvailable)] } }

/-- Where a stream stands: before the lock, in `wait` and perhaps notified, at a `yield` with the
rest of its batch, which may have been empty from the start, or at its end, for which it remembers
what had been published by then. -/
inductive Phase where
  | looking
  | waiting (notified : Bool)
  | yielding (rest : List Event) (alone : Bool)
  | ended (sequence : Nat)
deriving DecidableEq

structure Stream where
  chatId : Option String
  afterSequence : Int
  cursor : Nat
  phase : Phase
  received : List Item

/-- `events(chat_id=..., after_sequence=...)`, before the first item is asked for. -/
def Stream.opened (chatId : Option String) (afterSequence : Int) : Stream :=
  ⟨chatId, afterSequence, afterSequence.toNat, .looking, []⟩

/-- The event is one for the stream. -/
def Stream.Matches (c : Stream) (event : Event) : Prop :=
  c.chatId = none ∨ event.content.chatId = c.chatId

instance (c : Stream) (event : Event) : Decidable (c.Matches event) :=
  inferInstanceAs (Decidable (_ ∨ _))

/-- The cursor after a look at the deque. -/
def Stream.caughtUp (c : Stream) (r : Runtime) : Nat :=
  if c.cursor < r.oldest - 1 then r.oldest - 1 else c.cursor

def Stream.batch (c : Stream) (r : Runtime) : List Event :=
  r.events.filter fun event => decide (c.caughtUp r < event.sequence ∧ c.Matches event)

/-- From the lock to the next `yield`, to `wait` or to the end. -/
def Stream.look (c : Stream) (r : Runtime) : Stream :=
  if c.cursor < r.oldest - 1 then
    { c with
      cursor := r.oldest - 1
      received := c.received ++ [.gap c.cursor r.oldest]
      phase := .yielding (c.batch r) (c.batch r).isEmpty }
  else
    match c.batch r with
    | event :: rest =>
        { c with
          cursor := max c.cursor event.sequence
          received := c.received ++ [.event event]
          phase := .yielding rest false }
    | [] =>
        if r.closed then { c with phase := .ended r.sequence }
        else { c with cursor := r.sequence, phase := .waiting false }

/-- The stream runs on from where it stands. -/
def Stream.resume (c : Stream) (r : Runtime) : Stream :=
  match c.phase with
  | .looking => c.look r
  | .waiting false => c
  | .waiting true => c.look r
  | .yielding (event :: rest) alone =>
      { c with
        cursor := max c.cursor event.sequence
        received := c.received ++ [.event event]
        phase := .yielding rest alone }
  | .yielding [] alone =>
      if r.closed && alone then { c with phase := .ended r.sequence } else c.look r
  | .ended _ => c

def Stream.notify (c : Stream) : Stream :=
  match c.phase with
  | .waiting _ => { c with phase := .waiting true }
  | _ => c

/-! ## Runs -/

/-- The runtime and one of its streams, with all that has been published. -/
structure World where
  runtime : Runtime
  published : List Event
  stream : Stream

/-- `_publish`, the two statements of `close` that a stream sees, and the steps of the stream. -/
inductive Move where
  | publish (content : Content)
  | close
  | notifyAll
  | resume

def World.step (w : World) : Move → World
  | .publish content =>
      { runtime := w.runtime.publish content
        published := w.published ++ [w.runtime.next content]
        stream := w.stream.notify }
  | .close => { w with runtime := { w.runtime with closed := true } }
  | .notifyAll => { w with stream := w.stream.notify }
  | .resume => { w with stream := w.stream.resume w.runtime }

/-- A stream is opened when some events have been published. -/
def World.opened (limit : HistoryLimit) (earlier : List Content) (chatId : Option String)
    (afterSequence : Int) : World :=
  Run.exec World.step ⟨.fresh limit, [], .opened chatId afterSequence⟩ (earlier.map .publish)

/-! ## What is promised -/

/-- The stream is to deliver the event: it is one of its chat, after the cursor it began with. -/
def Stream.Wanted (c : Stream) (event : Event) : Prop :=
  c.afterSequence < event.sequence ∧ c.Matches event

/-- The event is among the items, or in the range of a marker among them. -/
def Accounted (items : List Item) (event : Event) : Prop :=
  .event event ∈ items ∨
    ∃ after oldest, .gap after oldest ∈ items ∧ after < event.sequence ∧ event.sequence < oldest

/-- Nothing has been lost silently so far. -/
structure Lossless (w : World) : Prop where
  increasing : (w.stream.received.map Item.sequence).Pairwise (· < ·)
  own : ∀ event, .event event ∈ w.stream.received → event ∈ w.published ∧ w.stream.Wanted event
  accounted : ∀ before item behind, w.stream.received = before ++ item :: behind →
    ∀ event ∈ w.published, w.stream.Wanted event → event.sequence ≤ item.sequence →
      Accounted (before ++ [item]) event
  evicted : ∀ after oldest, .gap after oldest ∈ w.stream.received →
    ∃ event ∈ w.published, after < event.sequence ∧ event.sequence < oldest ∧
      event ∉ w.runtime.events
  complete : ∀ last, w.stream.phase = .ended last → ∀ event ∈ w.published, w.stream.Wanted event →
    event.sequence ≤ last → Accounted w.stream.received event ∧
      (last < event.sequence + w.runtime.limit.value → .event event ∈ w.stream.received)

/-- No stream is resumed after the end of the runtime from a marker that came alone, unless all
that it wants has been published before that marker. -/
def Heeds (w : World) : Move → Prop
  | .resume => w.stream.phase = .yielding [] true → w.runtime.closed = true →
      ∀ event ∈ w.published, w.stream.Matches event → event.sequence ≤ w.stream.cursor
  | _ => True

/-! ## The deque -/

/-- The events are numbered from one on, and the last of them are retained. -/
structure Numbered (w : World) : Prop where
  numbers : w.published.map Event.sequence = List.range' 1 w.runtime.sequence
  retained : w.runtime.events =
    w.published.drop (w.runtime.sequence - w.runtime.limit.value)

section Deque

variable {w : World} {event : Event} {content : Content} {k : Nat}

theorem Numbered.length_eq (numbered : Numbered w) : w.published.length = w.runtime.sequence := by
  have same := congrArg List.length numbered.numbers
  rwa [List.length_map, List.length_range'] at same

theorem Numbered.sequence_le (numbered : Numbered w) (mem : event ∈ w.published) :
    event.sequence ≤ w.runtime.sequence := by
  have inside : event.sequence ∈ w.published.map Event.sequence := List.mem_map_of_mem mem
  rw [numbered.numbers, List.mem_range'_1] at inside
  omega

theorem Numbered.sorted (numbered : Numbered w) :
    w.published.Pairwise fun a b => a.sequence < b.sequence := by
  refine List.pairwise_map.mp ?_
  rw [numbered.numbers]
  exact List.pairwise_lt_range'

theorem Numbered.mem_drop_iff (numbered : Numbered w) (mem : event ∈ w.published) :
    event ∈ w.published.drop k ↔ k < event.sequence := by
  constructor
  · intro inside
    have numbers : event.sequence ∈ (w.published.drop k).map Event.sequence :=
      List.mem_map_of_mem inside
    rw [List.map_drop, numbered.numbers, List.drop_range', List.mem_range'_1] at numbers
    omega
  · intro later
    rw [← List.take_append_drop k w.published, List.mem_append] at mem
    refine mem.resolve_left fun early => ?_
    have parts : List.range' 1 w.runtime.sequence =
        (w.published.take k).map Event.sequence ++ (w.published.drop k).map Event.sequence := by
      rw [← List.map_append, List.take_append_drop, numbered.numbers]
    obtain ⟨n, -, first, -⟩ := List.range'_eq_append_iff.mp parts
    have numbers : event.sequence ∈ (w.published.take k).map Event.sequence :=
      List.mem_map_of_mem early
    have size := congrArg List.length first
    rw [List.length_map, List.length_range'] at size
    have short := List.length_take_le k w.published
    rw [first, List.mem_range'_1] at numbers
    omega

theorem Numbered.oldest_eq (numbered : Numbered w) :
    w.runtime.oldest = w.runtime.sequence - w.runtime.limit.value + 1 := by
  have size := numbered.length_eq
  have least := w.runtime.limit.least
  rw [Runtime.oldest, numbered.retained]
  cases dropped : w.published.drop (w.runtime.sequence - w.runtime.limit.value) with
  | nil =>
    have all := List.drop_eq_nil_iff.mp dropped
    show w.runtime.sequence + 1 = _
    omega
  | cons event rest =>
    have numbers := congrArg (List.map Event.sequence) dropped
    rw [List.map_drop, numbered.numbers, List.drop_range', List.map_cons] at numbers
    have first : event.sequence ∈ [event.sequence] := List.mem_singleton_self _
    show event.sequence = _
    cases left : w.runtime.sequence - (w.runtime.sequence - w.runtime.limit.value) with
    | zero =>
      rw [left] at numbers
      exact absurd numbers.symm (List.cons_ne_nil _ _)
    | succ n =>
      rw [left, List.range'_succ] at numbers
      have head := (List.cons.inj numbers).1
      omega

theorem Numbered.publish (numbered : Numbered w) : Numbered (w.step (.publish content)) := by
  have size := numbered.length_eq
  constructor
  · show (w.published ++ [w.runtime.next content]).map Event.sequence =
      List.range' 1 (w.runtime.sequence + 1)
    rw [List.map_append, numbered.numbers, List.range'_concat]
    refine congrArg (List.range' 1 w.runtime.sequence ++ [·]) ?_
    show w.runtime.sequence + 1 = _
    omega
  · show (w.runtime.events ++ [w.runtime.next content]).drop _ =
      (w.published ++ [w.runtime.next content]).drop _
    have kept : w.runtime.events ++ [w.runtime.next content] =
        (w.published ++ [w.runtime.next content]).drop
          (w.runtime.sequence - w.runtime.limit.value) := by
      rw [List.drop_append_of_le_length (by omega), numbered.retained]
    have long : w.runtime.events.length =
        w.runtime.sequence - (w.runtime.sequence - w.runtime.limit.value) := by
      rw [numbered.retained, List.length_drop, size]
    rw [kept, List.drop_drop, long]
    congr 1
    show _ = w.runtime.sequence + 1 - w.runtime.limit.value
    omega

end Deque

/-! ## What a stream keeps to -/

/-- The phase tells the truth: the rest of a batch is what the stream wants of the events up to
some number, and a stream has accounted for all that there was when it ended. -/
def Phase.Truthful (w : World) : Prop :=
  match w.stream.phase with
  | .yielding rest alone => (∃ last ≤ w.runtime.sequence, rest = w.published.filter fun event =>
      decide (w.stream.cursor < event.sequence ∧ event.sequence ≤ last ∧
        w.stream.Matches event)) ∧ (alone = true → rest = [])
  | .ended last => last ≤ w.runtime.sequence ∧
      (∀ event ∈ w.published, w.stream.Wanted event → event.sequence ≤ last →
        Accounted w.stream.received event) ∧
      ∀ after oldest, .gap after oldest ∈ w.stream.received →
        oldest + w.runtime.limit.value ≤ last + 1
  | _ => True

structure Sound (w : World) : Prop where
  numbered : Numbered w
  start : w.stream.afterSequence ≤ w.stream.cursor
  inside : w.stream.cursor ≤ w.runtime.sequence
  past : ∀ item ∈ w.stream.received, item.sequence ≤ w.stream.cursor
  increasing : (w.stream.received.map Item.sequence).Pairwise (· < ·)
  own : ∀ event, .event event ∈ w.stream.received → event ∈ w.published ∧ w.stream.Wanted event
  accounted : ∀ before item behind, w.stream.received = before ++ item :: behind →
    ∀ event ∈ w.published, w.stream.Wanted event → event.sequence ≤ item.sequence →
      Accounted (before ++ [item]) event
  covered : ∀ event ∈ w.published, w.stream.Wanted event → event.sequence ≤ w.stream.cursor →
    Accounted w.stream.received event
  gaps : ∀ after oldest, .gap after oldest ∈ w.stream.received →
    after + 1 < oldest ∧ oldest + w.runtime.limit.value ≤ w.runtime.sequence + 1
  truthful : Phase.Truthful w

theorem Accounted.mono {items items' : List Item} {event : Event}
    (accounted : Accounted items event) (all : ∀ item ∈ items, item ∈ items') :
    Accounted items' event := by
  obtain mem | ⟨after, oldest, mem, range⟩ := accounted
  · exact .inl (all _ mem)
  · exact .inr ⟨after, oldest, all _ mem, range⟩

section Sound

variable {w : World} {event : Event} {content : Content}

/-- What the cursor has not reached is not accounted for. -/
theorem Sound.not_accounted (sound : Sound w) (beyond : w.stream.cursor < event.sequence) :
    ¬ Accounted w.stream.received event := by
  rintro (mem | ⟨after, oldest, mem, -, before⟩)
  · have reached := sound.past _ mem
    rw [Item.sequence] at reached
    omega
  · have reached := sound.past _ mem
    rw [Item.sequence] at reached
    omega

theorem Sound.lossless (sound : Sound w) : Lossless w := by
  refine ⟨sound.increasing, sound.own, sound.accounted, fun after oldest mem => ?_,
    fun last ended event mem wanted upto => ?_⟩
  · obtain ⟨range, gone⟩ := sound.gaps after oldest mem
    have numbers : after + 1 ∈ w.published.map Event.sequence := by
      rw [sound.numbered.numbers, List.mem_range'_1]
      omega
    obtain ⟨event, mem, its⟩ := List.mem_map.mp numbers
    refine ⟨event, mem, by omega, by omega, ?_⟩
    rw [sound.numbered.retained, sound.numbered.mem_drop_iff mem]
    omega
  · have truthful := sound.truthful
    rw [Phase.Truthful, ended] at truthful
    obtain ⟨-, all, gone⟩ := truthful
    have accounted := all event mem wanted upto
    refine ⟨accounted, fun retained => ?_⟩
    obtain received | ⟨after, oldest, gap, -, before⟩ := accounted
    · exact received
    · have gone := gone after oldest gap
      omega

/-- The step of a stream that delivers an item beyond its cursor. -/
theorem Sound.deliver (sound : Sound w) {item : Item} {phase : Phase}
    (later : w.stream.cursor < item.sequence) (within : item.sequence ≤ w.runtime.sequence)
    (own : ∀ event, item = .event event → event ∈ w.published ∧ w.stream.Wanted event)
    (covers : ∀ event ∈ w.published, w.stream.Wanted event → w.stream.cursor < event.sequence →
      event.sequence ≤ item.sequence → Accounted [item] event)
    (gap : ∀ after oldest, item = .gap after oldest →
      after + 1 < oldest ∧ oldest + w.runtime.limit.value ≤ w.runtime.sequence + 1)
    (truthful : Phase.Truthful { w with
      stream := ⟨w.stream.chatId, w.stream.afterSequence, item.sequence, phase,
        w.stream.received ++ [item]⟩ }) :
    Sound { w with
      stream := ⟨w.stream.chatId, w.stream.afterSequence, item.sequence, phase,
        w.stream.received ++ [item]⟩ } := by
  have covered : ∀ event ∈ w.published, w.stream.Wanted event → event.sequence ≤ item.sequence →
      Accounted (w.stream.received ++ [item]) event := by
    intro event mem wanted upto
    obtain reached | beyond := le_or_gt event.sequence w.stream.cursor
    · exact (sound.covered event mem wanted reached).mono fun _ => List.mem_append_left _
    · exact (covers event mem wanted beyond upto).mono fun _ => List.mem_append_right _
  refine ⟨⟨sound.numbered.numbers, sound.numbered.retained⟩, ?_, within, ?_, ?_, ?_, ?_, covered,
    ?_, truthful⟩
  · have start := sound.start
    show w.stream.afterSequence ≤ (item.sequence : Int)
    omega
  · intro other mem
    obtain mem | mem := List.mem_append.mp mem
    · exact (sound.past other mem).trans later.le
    · rw [List.mem_singleton.mp mem]
  · show ((w.stream.received ++ [item]).map Item.sequence).Pairwise (· < ·)
    rw [List.map_append, List.pairwise_append]
    refine ⟨sound.increasing, List.pairwise_singleton _ _, fun a memA b memB => ?_⟩
    obtain ⟨other, mem, rfl⟩ := List.mem_map.mp memA
    rw [List.map_singleton, List.mem_singleton] at memB
    rw [memB]
    exact (sound.past other mem).trans_lt later
  · intro event mem
    obtain mem | mem := List.mem_append.mp mem
    · exact sound.own event mem
    · exact own event (List.mem_singleton.mp mem).symm
  · intro before other behind split event mem wanted upto
    obtain rfl | ⟨behind', final, rfl⟩ := List.eq_nil_or_concat' behind
    · obtain ⟨rfl, same⟩ := List.append_inj' split rfl
      cases List.cons.inj same |>.1
      exact covered event mem wanted upto
    · have split' : w.stream.received ++ [item] = (before ++ other :: behind') ++ [final] := by
        rw [List.append_assoc]
        exact split
      obtain ⟨same, -⟩ := List.append_inj' split' rfl
      exact sound.accounted before other behind' same event mem wanted upto
  · intro after oldest mem
    obtain mem | mem := List.mem_append.mp mem
    · exact sound.gaps after oldest mem
    · exact gap after oldest (List.mem_singleton.mp mem).symm

/-- The head of what a filter finds beyond the cursor, and what it finds beyond the head. -/
theorem filter_rest {events : List Event} (sorted : events.Pairwise fun a b =>
      a.sequence < b.sequence) {p : Event → Prop} [DecidablePred p] {cursor : Nat}
    {first : Event} {rest : List Event}
    (found : (events.filter fun e => decide (cursor < e.sequence ∧ p e)) = first :: rest) :
    first ∈ events ∧ cursor < first.sequence ∧ p first ∧
      (rest = events.filter fun e => decide (first.sequence < e.sequence ∧ p e)) ∧
      ∀ e ∈ events, cursor < e.sequence → p e → e.sequence ≤ first.sequence → e = first := by
  have mem : first ∈ events.filter fun e => decide (cursor < e.sequence ∧ p e) := by
    rw [found]
    exact List.mem_cons_self
  obtain ⟨inside, holds⟩ := List.mem_filter.mp mem
  obtain ⟨later, holds⟩ := of_decide_eq_true holds
  have order := (sorted.filter fun e => decide (cursor < e.sequence ∧ p e))
  rw [found, List.pairwise_cons] at order
  refine ⟨inside, later, holds, ?_, fun e memE beyond its upto => ?_⟩
  · have again : (events.filter fun e => decide (first.sequence < e.sequence ∧ p e)) =
        (events.filter fun e => decide (cursor < e.sequence ∧ p e)).filter
          fun e => decide (first.sequence < e.sequence) := by
      rw [List.filter_filter]
      refine List.filter_congr fun e _ => ?_
      rw [Bool.eq_iff_iff, decide_eq_true_eq, Bool.and_eq_true, decide_eq_true_eq,
        decide_eq_true_eq]
      constructor
      · exact fun ⟨after, its⟩ => ⟨after, later.trans after, its⟩
      · exact fun ⟨after, _, its⟩ => ⟨after, its⟩
    rw [again, found, List.filter_cons_of_neg (by simp)]
    refine (List.filter_eq_self.mpr fun e memE => ?_).symm
    exact decide_eq_true (order.1 e memE)
  · have memF : e ∈ events.filter fun e => decide (cursor < e.sequence ∧ p e) :=
      List.mem_filter.mpr ⟨memE, decide_eq_true ⟨beyond, its⟩⟩
    rw [found] at memF
    obtain same | behind := List.mem_cons.mp memF
    · exact same
    · exact absurd (order.1 e behind) (not_lt.mpr upto)

/-- The step of a stream that delivers nothing: all up to where its cursor goes is accounted for. -/
theorem Sound.rest (sound : Sound w) {cursor : Nat} {phase : Phase}
    (onward : w.stream.cursor ≤ cursor) (within : cursor ≤ w.runtime.sequence)
    (covered : ∀ event ∈ w.published, w.stream.Wanted event → event.sequence ≤ cursor →
      Accounted w.stream.received event)
    (truthful : Phase.Truthful { w with
      stream := ⟨w.stream.chatId, w.stream.afterSequence, cursor, phase, w.stream.received⟩ }) :
    Sound { w with
      stream := ⟨w.stream.chatId, w.stream.afterSequence, cursor, phase, w.stream.received⟩ } := by
  refine ⟨⟨sound.numbered.numbers, sound.numbered.retained⟩, ?_, within, ?_, sound.increasing,
    sound.own, sound.accounted, covered, sound.gaps, truthful⟩
  · have start := sound.start
    show w.stream.afterSequence ≤ (cursor : Int)
    omega
  · exact fun item mem => (sound.past item mem).trans onward

theorem Sound.le_caughtUp (sound : Sound w) :
    w.runtime.sequence - w.runtime.limit.value ≤ w.stream.caughtUp w.runtime := by
  have oldest := sound.numbered.oldest_eq
  unfold Stream.caughtUp
  split
  · omega
  · omega

/-- What a look finds in the deque is all that has been published beyond the cursor. -/
theorem Sound.batch_eq (sound : Sound w) :
    w.stream.batch w.runtime = w.published.filter fun event =>
      decide (w.stream.caughtUp w.runtime < event.sequence ∧
      event.sequence ≤ w.runtime.sequence ∧ w.stream.Matches event) := by
  have least := sound.le_caughtUp
  rw [Stream.batch, sound.numbered.retained]
  conv_rhs => rw [← List.take_append_drop (w.runtime.sequence - w.runtime.limit.value) w.published]
  rw [List.filter_append]
  have none_early : (w.published.take (w.runtime.sequence - w.runtime.limit.value)).filter
      (fun event => decide (w.stream.caughtUp w.runtime < event.sequence ∧
        event.sequence ≤ w.runtime.sequence ∧ w.stream.Matches event)) = [] := by
    refine List.filter_eq_nil_iff.mpr fun event early => ?_
    rw [decide_eq_true_eq]
    rintro ⟨later, -⟩
    have mem := List.mem_of_mem_take early
    have late := (sound.numbered.mem_drop_iff mem).mpr (least.trans_lt later)
    have parts := sound.numbered.sorted
    rw [← List.take_append_drop (w.runtime.sequence - w.runtime.limit.value) w.published,
      List.pairwise_append] at parts
    exact absurd (parts.2.2 event early event late) (lt_irrefl _)
  rw [none_early, List.nil_append]
  refine List.filter_congr fun event late => ?_
  have upto := sound.numbered.sequence_le (List.mem_of_mem_drop late)
  rw [Bool.eq_iff_iff, decide_eq_true_eq, decide_eq_true_eq]
  exact ⟨fun ⟨after, its⟩ => ⟨after, upto, its⟩, fun ⟨after, _, its⟩ => ⟨after, its⟩⟩

/-- Events beyond the cursor are wanted where they match. -/
theorem Sound.wanted (sound : Sound w) (beyond : w.stream.cursor < event.sequence)
    (matches_ : w.stream.Matches event) : w.stream.Wanted event := by
  have start := sound.start
  exact ⟨by omega, matches_⟩

theorem Sound.look (sound : Sound w) :
    Sound { w with stream := w.stream.look w.runtime } := by
  have oldest := sound.numbered.oldest_eq
  have batch := sound.batch_eq
  have inside := sound.inside
  unfold Stream.look
  split
  · next behind =>
    have up : w.stream.caughtUp w.runtime = w.runtime.oldest - 1 := if_pos behind
    rw [up] at batch
    refine @Sound.deliver w sound (.gap w.stream.cursor w.runtime.oldest) _ ?_ ?_ ?_ ?_ ?_ ?_
    · exact behind
    · show w.runtime.oldest - 1 ≤ _
      omega
    · intro event same
      cases same
    · intro event _ _ beyond upto
      have upto : event.sequence ≤ w.runtime.oldest - 1 := upto
      exact .inr ⟨_, _, List.mem_singleton_self _, beyond, by omega⟩
    · intro after old same
      cases same
      omega
    · exact ⟨⟨_, le_rfl, batch⟩, fun alone => List.isEmpty_iff.mp alone⟩
  · next ahead =>
    have up : w.stream.caughtUp w.runtime = w.stream.cursor := if_neg ahead
    rw [up] at batch
    cases found : w.stream.batch w.runtime with
    | cons first rest =>
      rw [found] at batch
      obtain ⟨mem, later, ⟨upto, matches_⟩, behind, only⟩ :=
        filter_rest sound.numbered.sorted batch.symm
      have next : max w.stream.cursor first.sequence = first.sequence := max_eq_right later.le
      show Sound { w with stream := ⟨_, _, max w.stream.cursor first.sequence, _, _⟩ }
      rw [next]
      refine @Sound.deliver w sound (.event first) _ ?_ ?_ ?_ ?_ ?_ ?_
      · exact later
      · exact upto
      · intro event same
        cases same
        exact ⟨mem, sound.wanted later matches_⟩
      · intro event memE wanted beyond upto'
        have upto' : event.sequence ≤ first.sequence := upto'
        have same := only event memE beyond ⟨upto'.trans upto, wanted.2⟩ upto'
        rw [same]
        exact .inl (List.mem_singleton_self _)
      · intro after old same
        cases same
      · exact ⟨⟨_, le_rfl, behind⟩, fun alone => absurd alone Bool.false_ne_true⟩
    | nil =>
      rw [found] at batch
      have covered : ∀ event ∈ w.published, w.stream.Wanted event →
          event.sequence ≤ w.runtime.sequence → Accounted w.stream.received event := by
        intro event mem wanted upto
        obtain reached | beyond := le_or_gt event.sequence w.stream.cursor
        · exact sound.covered event mem wanted reached
        · have absent := List.filter_eq_nil_iff.mp batch.symm event mem
          exact absurd (decide_eq_true ⟨beyond, upto, wanted.2⟩) absent
      show Sound { w with stream := if w.runtime.closed then _ else _ }
      split
      · refine sound.rest le_rfl inside sound.covered ⟨le_rfl, covered, fun after oldest mem => ?_⟩
        exact (sound.gaps after oldest mem).2
      · exact sound.rest inside le_rfl covered trivial

theorem Sound.resume (sound : Sound w) (heeds : Heeds w .resume) : Sound (w.step .resume) := by
  have truthful := sound.truthful
  rw [Phase.Truthful] at truthful
  show Sound { w with stream := w.stream.resume w.runtime }
  unfold Stream.resume
  split
  · exact sound.look
  · exact sound
  · exact sound.look
  · next first rest alone phase =>
    rw [phase] at truthful
    obtain ⟨⟨last, within, batch⟩, single⟩ := truthful
    obtain ⟨mem, later, ⟨upto, matches_⟩, behind, only⟩ :=
      filter_rest sound.numbered.sorted batch.symm
    have next : max w.stream.cursor first.sequence = first.sequence := max_eq_right later.le
    rw [next]
    refine @Sound.deliver w sound (.event first) _ ?_ ?_ ?_ ?_ ?_ ?_
    · exact later
    · exact upto.trans within
    · intro event same
      cases same
      exact ⟨mem, sound.wanted later matches_⟩
    · intro event memE wanted beyond upto'
      have upto' : event.sequence ≤ first.sequence := upto'
      have same := only event memE beyond ⟨upto'.trans upto, wanted.2⟩ upto'
      rw [same]
      exact .inl (List.mem_singleton_self _)
    · intro after old same
      cases same
    · exact ⟨⟨last, within, behind⟩, fun single' => absurd (single single') (List.cons_ne_nil _ _)⟩
  · next alone phase =>
    split
    · next ends =>
      rw [Bool.and_eq_true] at ends
      have phase : w.stream.phase = .yielding [] true := by rw [phase, ends.2]
      refine sound.rest le_rfl sound.inside sound.covered ⟨le_rfl, fun event mem wanted _ => ?_,
        fun after oldest mem => (sound.gaps after oldest mem).2⟩
      exact sound.covered event mem wanted (heeds phase ends.1 event mem wanted.2)
    · exact sound.look
  · exact sound

theorem Sound.notify (sound : Sound w) : Sound { w with stream := w.stream.notify } := by
  unfold Stream.notify
  split
  · exact sound.rest le_rfl sound.inside sound.covered trivial
  · exact sound

theorem Sound.publish (sound : Sound w) :
    Sound { w.step (.publish content) with stream := w.stream } := by
  have numbered := @Numbered.publish w content sound.numbered
  have inside := sound.inside
  have older : ∀ event ∈ w.published ++ [w.runtime.next content],
      event.sequence ≤ w.runtime.sequence → event ∈ w.published := by
    intro event mem upto
    obtain mem | mem := List.mem_append.mp mem
    · exact mem
    · rw [List.mem_singleton.mp mem] at upto
      exact absurd upto (Nat.not_succ_le_self _)
  refine ⟨⟨numbered.numbers, numbered.retained⟩, sound.start, Nat.le_succ_of_le inside, sound.past,
    sound.increasing, fun event mem => ?_, ?_, ?_, fun after oldest mem => ?_, ?_⟩
  · obtain ⟨mem, wanted⟩ := sound.own event mem
    exact ⟨List.mem_append_left _ mem, wanted⟩
  · intro before item behind split event mem wanted upto
    have there : item ∈ w.stream.received := by
      rw [show w.stream.received = before ++ item :: behind from split]
      exact List.mem_append_right _ List.mem_cons_self
    have reached := upto.trans ((sound.past item there).trans inside)
    exact sound.accounted before item behind split event (older event mem reached) wanted upto
  · intro event mem wanted upto
    exact sound.covered event (older event mem (upto.trans inside)) wanted upto
  · obtain ⟨range, gone⟩ := sound.gaps after oldest mem
    refine ⟨range, gone.trans ?_⟩
    show _ ≤ w.runtime.sequence + 1 + 1
    omega
  · have truthful := sound.truthful
    rw [Phase.Truthful] at truthful ⊢
    show match w.stream.phase with
      | .yielding rest alone => _
      | .ended last => _
      | _ => _
    cases phase : w.stream.phase with
    | looking => trivial
    | waiting notified => trivial
    | yielding rest alone =>
      rw [phase] at truthful
      obtain ⟨⟨last, within, batch⟩, single⟩ := truthful
      refine ⟨⟨last, Nat.le_succ_of_le within, ?_⟩, single⟩
      show rest = (w.published ++ [w.runtime.next content]).filter _
      rw [List.filter_append, List.filter_cons_of_neg, List.filter_nil, List.append_nil]
      · exact batch
      · rw [decide_eq_true_eq]
        rintro ⟨-, upto, -⟩
        have upto : w.runtime.sequence + 1 ≤ last := upto
        omega
    | ended last =>
      rw [phase] at truthful
      obtain ⟨within, all, gone⟩ := truthful
      refine ⟨Nat.le_succ_of_le within, fun event mem wanted upto => ?_, gone⟩
      exact all event (older event mem (upto.trans within)) wanted upto

theorem Sound.step (sound : Sound w) {move : Move} (heeds : Heeds w move) :
    Sound (w.step move) := by
  cases move with
  | publish content => exact sound.publish.notify
  | close =>
    exact ⟨⟨sound.numbered.numbers, sound.numbered.retained⟩, sound.start, sound.inside, sound.past,
      sound.increasing, sound.own, sound.accounted, sound.covered, sound.gaps, sound.truthful⟩
  | notifyAll => exact sound.notify
  | resume => exact sound.resume heeds

/-! ## Runs of a stream -/

/-- Publishing leaves a stream alone that nobody has asked for an item yet. -/
theorem publish_all (numbered : Numbered w) (fresh : w.stream.phase = .looking)
    (earlier : List Content) :
    Numbered (Run.exec World.step w (earlier.map .publish)) ∧
      (Run.exec World.step w (earlier.map .publish)).stream = w.stream ∧
      (Run.exec World.step w (earlier.map .publish)).runtime.sequence =
        w.runtime.sequence + earlier.length := by
  induction earlier generalizing w with
  | nil => exact ⟨numbered, rfl, rfl⟩
  | cons content earlier ih =>
    have same : (w.step (.publish content)).stream = w.stream := by
      show w.stream.notify = w.stream
      rw [Stream.notify, fresh]
    obtain ⟨numbered', stream, sequence⟩ := ih (@Numbered.publish w content numbered) (by
      rw [same]
      exact fresh)
    rw [List.map_cons, Run.exec_cons]
    refine ⟨numbered', stream.trans same, sequence.trans ?_⟩
    show w.runtime.sequence + 1 + earlier.length = w.runtime.sequence + (earlier.length + 1)
    omega

/-- A stream that is not ahead of the runtime begins in order. -/
theorem sound_opened (limit : HistoryLimit) (earlier : List Content) (chatId : Option String)
    {afterSequence : Int} (behind : afterSequence ≤ earlier.length) :
    Sound (.opened limit earlier chatId afterSequence) := by
  obtain ⟨numbered, stream, sequence⟩ := @publish_all
    ⟨.fresh limit, [], .opened chatId afterSequence⟩ ⟨rfl, List.drop_nil.symm⟩ rfl earlier
  change Numbered (World.opened limit earlier chatId afterSequence) at numbered
  have size : (World.opened limit earlier chatId afterSequence).runtime.sequence =
      earlier.length := by
    refine sequence.trans ?_
    show 0 + earlier.length = _
    omega
  have its : (World.opened limit earlier chatId afterSequence).stream =
      .opened chatId afterSequence := stream
  have none_received : (World.opened limit earlier chatId afterSequence).stream.received = [] := by
    rw [its]
    rfl
  have cursor : (World.opened limit earlier chatId afterSequence).stream.cursor =
      afterSequence.toNat := by
    rw [its]
    rfl
  have after : (World.opened limit earlier chatId afterSequence).stream.afterSequence =
      afterSequence := by
    rw [its]
    rfl
  refine ⟨numbered, ?_, ?_, ?_, ?_, ?_, ?_, ?_, ?_, ?_⟩
  · rw [cursor, after]
    omega
  · rw [cursor, size]
    omega
  · rw [none_received]
    exact fun _ none => absurd none List.not_mem_nil
  · rw [none_received]
    exact List.Pairwise.nil
  · rw [none_received]
    exact fun _ none => absurd none List.not_mem_nil
  · rw [none_received]
    exact fun before item after' split => absurd split (by simp)
  · rintro event mem ⟨later, -⟩ upto
    have first : event.sequence ∈ (World.opened limit earlier chatId
        afterSequence).published.map Event.sequence := List.mem_map_of_mem mem
    rw [numbered.numbers, List.mem_range'_1] at first
    rw [after] at later
    rw [cursor] at upto
    omega
  · rw [none_received]
    exact fun _ _ none => absurd none List.not_mem_nil
  · rw [Phase.Truthful, its]
    trivial

/-- Nothing is lost silently in a run just if no stream is resumed, after the end of the runtime,
from a marker that came alone while there is more for it. -/
theorem lossless_iff_heeds (limit : HistoryLimit) (earlier : List Content) (chatId : Option String)
    {afterSequence : Int} (behind : afterSequence ≤ earlier.length) (moves : List Move) :
    (∀ before, before <+: moves → Lossless
      (Run.exec World.step (.opened limit earlier chatId afterSequence) before)) ↔
    Run.Along World.step Heeds (.opened limit earlier chatId afterSequence) moves := by
  refine Run.throughout_iff (I := Sound) (sound_opened limit earlier chatId behind)
    (fun _ _ sound heeds => sound.step heeds) (fun _ => Sound.lossless) ?_
  intro w move sound lossless
  cases move with
  | resume =>
    intro phase closed event mem matches_
    by_contra beyond
    have beyond := not_le.mp beyond
    have ends : w.stream.resume w.runtime =
        { w.stream with phase := .ended w.runtime.sequence } := by
      rw [Stream.resume, phase, closed]
      rfl
    have complete := lossless.complete w.runtime.sequence (by
      show (w.stream.resume w.runtime).phase = _
      rw [ends]) event mem
    change (w.stream.resume w.runtime).Wanted event → _ →
      Accounted (w.stream.resume w.runtime).received event ∧ _ at complete
    rw [ends] at complete
    obtain ⟨accounted, -⟩ := complete (sound.wanted beyond matches_)
      (sound.numbered.sequence_le mem)
    exact sound.not_accounted beyond accounted
  | _ => trivial

end Sound

/-! ## Two streams -/

def sixteen : HistoryLimit := ⟨16, le_rfl, by omega⟩

def content (eventType : String) (chatId : Option String) : Content := ⟨eventType, chatId, none, []⟩

/-- More events of another chat than are retained. -/
def others : List Content := List.replicate 17 (content "agent.progress" (some "other"))

/-- A stream that gives its marker, then an event of its chat, and ends after the close. -/
theorem marker_then_event :
    Lossless (Run.exec World.step (.opened sixteen others (some "own") 0)
      [.resume, .publish (content "run.started" (some "own")), .resume, .close, .resume]) := by
  refine (lossless_iff_heeds sixteen others (some "own") (by decide) [.resume,
    .publish (content "run.started" (some "own")), .resume, .close, .resume]).mpr ?_ _
    (List.prefix_refl _)
  refine ⟨fun phase => ?_, trivial, fun _ closed => ?_, trivial, fun phase => ?_, trivial⟩
  · exact absurd phase (by decide +kernel)
  · exact absurd closed (by decide +kernel)
  · exact absurd phase (by decide +kernel)

/-- The runtime is closed while the stream stands at its marker. -/
def closing : List Move :=
  [.resume, .publish (content "conversation.cancelled" (some "own")),
    .publish (content "runtime.closed" none), .close, .notifyAll, .resume]

/-- The stream ends without the event that says that its chat has been cancelled, which is still in
the deque. -/
theorem cancelled_lost :
    (Run.exec World.step (.opened sixteen others (some "own") 0) closing).stream.received =
      [.gap 0 2] ∧
    (Run.exec World.step (.opened sixteen others (some "own") 0) closing).stream.phase =
      .ended 19 ∧
    ⟨18, content "conversation.cancelled" (some "own")⟩ ∈
      (Run.exec World.step (.opened sixteen others (some "own") 0) closing).runtime.events ∧
    ¬ ∀ before, before <+: closing →
      Lossless (Run.exec World.step (.opened sixteen others (some "own") 0) before) := by
  have received : (Run.exec World.step (.opened sixteen others (some "own") 0)
      closing).stream.received = [.gap 0 2] := by decide +kernel
  have ended : (Run.exec World.step (.opened sixteen others (some "own") 0)
      closing).stream.phase = .ended 19 := by decide +kernel
  refine ⟨received, ended, by decide +kernel, fun lossless => ?_⟩
  have complete := (lossless closing (List.prefix_refl _)).complete 19 ended
    ⟨18, content "conversation.cancelled" (some "own")⟩ (by decide +kernel)
    ⟨by decide +kernel, by decide +kernel⟩ (by decide)
  rw [received] at complete
  obtain ⟨mem | ⟨after, oldest, mem, -, before⟩, -⟩ := complete
  · exact absurd mem (by decide +kernel)
  · cases List.mem_singleton.mp mem
    exact absurd before (by decide)

end Corvus.Conversations.Streaming
