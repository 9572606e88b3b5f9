import Corvus.Mvp.ApiChat
import Mathlib.Data.List.Range

/-!
# A stream ends in one terminal event

The lines depend on the bytes of the response alone. Whatever they hold, the events are numbered
from one, the first says that the run has started, the last and no other is terminal, and the
messages are the first texts of the provider within the limit. An exception escapes exactly if a
line is reached that the backend cannot read: one nested too deep for `json.loads`, one of OpenAI
whose type is a container, or one whose text is none.
-/

namespace Corvus.Mvp.ApiChat

open ProviderJson (Value LoadsError loads get)

/-! ## Chunks -/

namespace Reader

variable {maxLineBytes : Nat} {r : Reader} {bytes : List UInt8}

/-- One byte at a time. -/
def feed (maxLineBytes : Nat) (r : Reader) (byte : UInt8) : Reader :=
  if r.fault.isSome then r else if byte = 10 then r.flush else r.extend maxLineBytes [byte]

/-- The buffer is not too long, and what has been raised is caught. -/
structure Bounded (maxLineBytes : Nat) (r : Reader) : Prop where
  short : r.buffered.length ≤ maxLineBytes
  caught : ∀ fault ∈ r.fault, fault.escapes = false

theorem bounded_start : start.Bounded maxLineBytes :=
  ⟨Nat.zero_le _, fun _ raised => absurd raised.symm (Option.some_ne_none _)⟩

theorem Bounded.extend (bounded : r.Bounded maxLineBytes) (bytes : List UInt8) :
    (r.extend maxLineBytes bytes).Bounded maxLineBytes := by
  rw [Reader.extend]
  split
  · refine ⟨Nat.zero_le _, ?_⟩
    intro fault raised
    rw [← Option.some.inj raised]
    rfl
  · next short => exact ⟨Nat.le_of_not_lt short, bounded.caught⟩

theorem flush_caught (r : Reader) : ∀ fault ∈ r.flush.fault, fault.escapes = false := by
  intro fault raised
  rw [Reader.flush] at raised
  split at raised
  · exact absurd raised.symm (Option.some_ne_none _)
  · rw [← Option.some.inj raised]
    rfl

theorem bounded_flush (r : Reader) : r.flush.Bounded maxLineBytes := by
  refine ⟨?_, flush_caught r⟩
  rw [Reader.flush]
  split <;> exact Nat.zero_le _

theorem Bounded.feed (bounded : r.Bounded maxLineBytes) (byte : UInt8) :
    (r.feed maxLineBytes byte).Bounded maxLineBytes := by
  rw [Reader.feed]
  split
  · exact bounded
  split
  · exact bounded_flush r
  · exact bounded.extend [byte]

theorem Bounded.foldl (bounded : r.Bounded maxLineBytes) (bytes : List UInt8) :
    (bytes.foldl (Reader.feed maxLineBytes) r).Bounded maxLineBytes := by
  induction bytes generalizing r with
  | nil => exact bounded
  | cons byte rest ih => exact ih (bounded.feed byte)

theorem foldl_feed_of_fault (raised : r.fault.isSome = true) :
    bytes.foldl (feed maxLineBytes) r = r := by
  induction bytes with
  | nil => rfl
  | cons byte rest ih =>
    rw [List.foldl_cons, feed, if_pos raised]
    exact ih

/-- Bytes that go into the buffer together go into it one after the other. -/
theorem extend_eq_foldl (bounded : r.Bounded maxLineBytes) (unraised : r.fault = none)
    (plain : 10 ∉ bytes) : r.extend maxLineBytes bytes = bytes.foldl (feed maxLineBytes) r := by
  induction bytes generalizing r with
  | nil =>
    rw [Reader.extend, List.append_nil, if_neg (Nat.not_lt.mpr bounded.short)]
    rfl
  | cons byte rest ih =>
    obtain ⟨other, plain⟩ := not_or.mp (mt List.mem_cons.mpr plain)
    have fed : r.feed maxLineBytes byte = r.extend maxLineBytes [byte] := by
      rw [Reader.feed, unraised, if_neg (by simp), if_neg (Ne.symm other)]
    rw [List.foldl_cons, fed]
    by_cases long : maxLineBytes < (r.buffered ++ [byte]).length
    · have longer : maxLineBytes < (r.buffered ++ byte :: rest).length := by
        simp only [List.length_append, List.length_cons, List.length_nil] at long ⊢
        omega
      have raised : r.extend maxLineBytes [byte] =
          ⟨r.yielded, [], some .providerStreamLimit⟩ := by
        rw [Reader.extend, if_pos long]
      rw [raised, foldl_feed_of_fault rfl, Reader.extend, if_pos longer]
    · have extended : r.extend maxLineBytes [byte] =
          { r with buffered := r.buffered ++ [byte] } := by
        rw [Reader.extend, if_neg long]
      have bounded := bounded.extend [byte]
      rw [extended] at bounded ⊢
      rw [← ih bounded unraised plain, Reader.extend, Reader.extend, List.append_assoc,
        List.singleton_append]

theorem parts_cons (r : Reader) (part : List UInt8) {rest : List (List UInt8)}
    (more : rest ≠ []) :
    r.parts maxLineBytes (part :: rest) =
      let r := r.extend maxLineBytes part
      if r.fault.isSome then r
      else
        let r := r.flush
        if r.fault.isSome then r else r.parts maxLineBytes rest := by
  cases rest with
  | nil => exact absurd rfl more
  | cons next rest =>
    rw [parts]
    exact more

/-- A chunk is read as its bytes are. -/
theorem parts_eq_foldl (bytes : List UInt8) {r : Reader} (bounded : r.Bounded maxLineBytes)
    (unraised : r.fault = none) :
    r.parts maxLineBytes (bytes.splitOn 10) = bytes.foldl (feed maxLineBytes) r := by
  by_cases newline : (10 : UInt8) ∈ bytes
  · obtain ⟨line, rest, rfl, plain⟩ := List.eq_append_cons_of_mem newline
    rw [List.splitOn_append_cons_self_of_not_mem plain, parts_cons r line (List.splitOn_ne_nil _ _),
      List.foldl_append, List.foldl_cons, ← extend_eq_foldl bounded unraised plain]
    have extended := bounded.extend line
    generalize r.extend maxLineBytes line = extendedReader at extended ⊢
    by_cases long : extendedReader.fault.isSome = true
    · rw [if_pos long, feed, if_pos long, foldl_feed_of_fault long]
    · rw [if_neg long, feed, if_neg long, if_pos rfl]
      have flushed : extendedReader.flush.Bounded maxLineBytes := bounded_flush _
      generalize extendedReader.flush = flushedReader at flushed ⊢
      by_cases bad : flushedReader.fault.isSome = true
      · rw [if_pos bad, foldl_feed_of_fault bad]
      · rw [if_neg bad]
        exact parts_eq_foldl rest flushed (Option.not_isSome_iff_eq_none.mp bad)
  · rw [List.splitOn_eq_singleton newline]
    exact extend_eq_foldl bounded unraised newline
termination_by bytes.length

theorem chunk_eq_foldl (bounded : r.Bounded maxLineBytes) :
    r.chunk maxLineBytes bytes = bytes.foldl (feed maxLineBytes) r := by
  rw [chunk]
  split
  · next raised => rw [foldl_feed_of_fault raised]
  · next unraised =>
    exact parts_eq_foldl bytes bounded (Option.not_isSome_iff_eq_none.mp unraised)

theorem foldl_chunk (chunks : List (List UInt8)) (bounded : r.Bounded maxLineBytes) :
    chunks.foldl (chunk maxLineBytes) r = chunks.flatten.foldl (feed maxLineBytes) r := by
  induction chunks generalizing r with
  | nil => rfl
  | cons bytes rest ih =>
    rw [List.foldl_cons, List.flatten_cons, List.foldl_append, chunk_eq_foldl bounded]
    exact ih (bounded.foldl bytes)

end Reader

/-- The lines and what is raised after them depend on the bytes alone. -/
theorem boundedResponseLines_flatten (maxLineBytes : Nat) {chunks chunks' : List (List UInt8)}
    (same : chunks'.flatten = chunks.flatten) (ending : Ending) :
    boundedResponseLines maxLineBytes chunks' ending =
      boundedResponseLines maxLineBytes chunks ending := by
  simp only [boundedResponseLines, Reader.foldl_chunk _ Reader.bounded_start, same]

theorem boundedResponseLines_caught (maxLineBytes : Nat) (chunks : List (List UInt8))
    (ending : Ending) :
    ∀ fault ∈ (boundedResponseLines maxLineBytes chunks ending).2, fault.escapes = false := by
  have started : Reader.start.Bounded maxLineBytes := Reader.bounded_start
  have bounded := started.foldl chunks.flatten
  rw [boundedResponseLines, Reader.foldl_chunk _ started]
  split
  · exact bounded.caught
  split
  · intro fault raised
    cases ending with
    | ended => exact absurd raised.symm (Option.some_ne_none _)
    | broken =>
      rw [← Option.some.inj raised]
      rfl
    | late =>
      rw [← Option.some.inj raised]
      rfl
  · exact Reader.flush_caught _

/-! ## Events -/

namespace Payload

def isPart : Payload → Bool
  | usage _ | message _ => true
  | _ => false

def isTerminal : Payload → Bool
  | completed | failed _ | cancelled => true
  | _ => false

def text? : Payload → Option String
  | message text => some text
  | _ => none

end Payload

def messages (events : List Event) : List String := events.filterMap (·.payload.text?)

def textBytes : List String → Nat
  | [] => 0
  | text :: texts => (utf8 text).length + textBytes texts

theorem messages_append (events : List Event) (e : Event) :
    messages (events ++ [e]) = messages events ++ e.payload.text?.toList := by
  rw [messages, List.filterMap_append, messages]
  cases text : e.payload.text? with
  | none => simp [List.filterMap, text]
  | some t => simp [List.filterMap, text]

theorem textBytes_append (texts texts' : List String) :
    textBytes (texts ++ texts') = textBytes texts + textBytes texts' := by
  induction texts with
  | nil => exact (Nat.zero_add _).symm
  | cons text texts ih => rw [List.cons_append, textBytes, textBytes, ih, Nat.add_assoc]

/-- It has been said that the run has started, and nothing of its end. -/
structure Begun (p : Progress) : Prop where
  numbered : p.events.map (·.sequence) = List.range' 1 p.sequence
  shape : ∃ parts, p.events = ⟨1, .started⟩ :: parts ∧ ∀ e ∈ parts, e.payload.isPart = true

section

variable {p : Progress} {payload : Payload}

theorem yields_zero (p : Progress) (payload : Payload) :
    p.yields 0 payload =
      { p with events := p.events ++ [⟨p.sequence + 1, payload⟩], sequence := p.sequence + 1 } := by
  simp only [Progress.yields, Nat.zero_lt_succ, if_true]

theorem numbered_yields (numbered : p.events.map (·.sequence) = List.range' 1 p.sequence) :
    (p.yields 0 payload).events.map (·.sequence) =
      List.range' 1 (p.yields 0 payload).sequence := by
  rw [yields_zero]
  simp only [List.map_append, List.map_cons, List.map_nil, numbered]
  rw [List.range'_1_concat, Nat.add_comm 1]

theorem begun_started : Begun (Progress.yields 0 ⟨[], 0, 0⟩ .started) :=
  ⟨rfl, [], rfl, fun _ mem => absurd mem List.not_mem_nil⟩

theorem Begun.yields (begun : Begun p) (part : payload.isPart = true) :
    Begun (p.yields 0 payload) := by
  refine ⟨numbered_yields begun.numbered, ?_⟩
  obtain ⟨parts, events, all⟩ := begun.shape
  refine ⟨parts ++ [⟨p.sequence + 1, payload⟩], ?_, ?_⟩
  · rw [yields_zero, events, List.cons_append]
  · intro e mem
    rcases List.mem_append.mp mem with mem | mem
    · exact all e mem
    · rw [List.mem_singleton.mp mem]
      exact part

variable (usage : List (String × Int))

theorem Begun.counts (begun : Begun p) : Begun (p.counts 0 usage) := by
  rw [Progress.counts]
  split
  · exact begun
  · exact begun.yields rfl

theorem messages_counts : messages (p.counts 0 usage).events = messages p.events := by
  rw [Progress.counts]
  split
  · rfl
  · rw [yields_zero, messages_append]
    exact List.append_nil _

theorem outputBytes_counts : (p.counts 0 usage).outputBytes = p.outputBytes := by
  rw [Progress.counts]
  split <;> rfl

end

/-! ## A line -/

namespace Backend

/-- The text of the provider on a line. -/
def delta? (B : Backend) (line : String) : Option String :=
  match B.textDelta line with
  | .ok (.str text) => if text = "" then none else some text
  | _ => none

/-- The line is read to its end, and the loop asks for the next one unless there is too much
text. -/
def Passes (B : Backend) (line : String) : Prop :=
  B.terminalState line = .ok none ∧
    ∀ delta, B.textDelta line = .ok delta → delta.truthy = true → ∃ text, delta = .str text

/-- Nothing escapes when the line is read. -/
def Legible (B : Backend) (line : String) : Prop :=
  match B.payload line with
  | .error fault => fault.escapes = false
  | .ok none => True
  | .ok (some members) =>
      (B.provider = .openai → (get members "type").unhashable = false) ∧
        (B.stateOf members ≠ .ok (some .failed) → (B.deltaOf members).truthy = true →
          (B.deltaOf members).isStr = true)

/-- What the loop reads on a line that does not tell of a failure. -/
structure Told (B : Backend) (line : String) (state : Option Terminal) (delta : Value) :
    Prop where
  told : B.terminalState line = .ok state
  unfailed : state ≠ some .failed
  delivered : B.textDelta line = .ok delta

/-- What the body of the loop can do. -/
inductive Taken (B : Backend) (p : Progress) (line : String) : Progress × Option Exit → Prop
  | unread {fault : Fault} (state : B.terminalState line = .error fault) :
      Taken B p line (p, some (.raised fault))
  | refused (state : B.terminalState line = .ok (some .failed)) :
      Taken B p line (p, some (.failed "provider_request_failed"))
  | silent {state : Option Terminal} {delta : Value} (usage : List (String × Int))
      (told : B.Told line state delta) (falsy : delta.truthy = false) :
      Taken B p line (p.counts 0 usage, leftBy state)
  | unencodable {state : Option Terminal} {delta : Value} {fault : Fault}
      (usage : List (String × Int)) (told : B.Told line state delta)
      (truthy : delta.truthy = true) (raised : encoded delta = .error fault) :
      Taken B p line (p.counts 0 usage, some (.raised fault))
  | exceeds {state : Option Terminal} {text : String} (usage : List (String × Int))
      (told : B.Told line state (.str text)) (truthy : text ≠ "")
      (more : B.maxOutputBytes < (p.counts 0 usage).outputBytes + (utf8 text).length) :
      Taken B p line
        ((p.counts 0 usage).reads (utf8 text).length, some (.failed "provider_output_limit"))
  | said {state : Option Terminal} {text : String} (usage : List (String × Int))
      (told : B.Told line state (.str text)) (truthy : text ≠ "")
      (within : (p.counts 0 usage).outputBytes + (utf8 text).length ≤ B.maxOutputBytes) :
      Taken B p line
        (((p.counts 0 usage).reads (utf8 text).length).yields 0 (.message text), leftBy state)

section

variable {B : Backend} {p : Progress} {line : String} {fault : Fault} {state : Option Terminal}
  {delta : Value}

theorem payload_of_state (told : B.terminalState line = .ok state) :
    ∃ payload, B.payload line = .ok payload := by
  rw [terminalState] at told
  split at told
  · next done => exact ⟨none, by rw [payload, done]; rfl⟩
  · obtain ⟨payload, read, -⟩ := bind_eq_ok.mp told
    exact ⟨payload, read⟩

/-- A line of which the state is read has a usage and a text. -/
theorem reads_of_state (told : B.terminalState line = .ok state) :
    (∃ usage, B.usage line = .ok usage) ∧ ∃ delta, B.textDelta line = .ok delta := by
  obtain ⟨payload, read⟩ := payload_of_state told
  rw [usage, textDelta, read]
  cases payload with
  | none => exact ⟨⟨_, rfl⟩, _, rfl⟩
  | some members => exact ⟨⟨_, rfl⟩, _, rfl⟩

theorem taken (B : Backend) (p : Progress) (line : String) :
    B.Taken p line (B.takeLine 0 p line) := by
  rw [takeLine]
  split
  · next state => exact .unread state
  · next state => exact .refused state
  · next state unfailed told =>
    obtain ⟨⟨usage, read⟩, delta, delivered⟩ := reads_of_state told
    have told : B.Told line state delta :=
      ⟨told, unfailed, delivered⟩
    simp only [read, delivered]
    split
    · next truthy =>
      cases delta with
      | str text =>
        have nonempty : text ≠ "" := by simpa [Value.truthy] using truthy
        dsimp only [encoded]
        split
        · next more => exact .exceeds usage told nonempty more
        · next within => exact .said usage told nonempty (Nat.le_of_not_lt within)
      | _ => exact .unencodable usage told truthy rfl
    · next falsy => exact .silent usage told (Bool.eq_false_iff.mpr falsy)

theorem hashable_of_isText {v : Value} {text : String} (is : v.isText text = true) :
    v.unhashable = false := by
  cases v with
  | arr items => exact absurd is Bool.false_ne_true
  | obj members => exact absurd is Bool.false_ne_true
  | _ => rfl

theorem stateOf_eq_error {members : List (Option String × Value)}
    (raised : B.stateOf members = .error fault) :
    fault = .typeError ∧ B.provider = .openai ∧ (get members "type").unhashable = true := by
  rw [stateOf] at raised
  split at raised
  · next openai =>
    split at raised
    · exact absurd raised.symm error_ne_ok
    split at raised
    · next unhashable => exact ⟨(Except.error.inj raised).symm, openai, unhashable⟩
    split at raised <;> exact absurd raised.symm error_ne_ok
  · split at raised
    · exact absurd raised.symm error_ne_ok
    split at raised <;> exact absurd raised.symm error_ne_ok
  · exact absurd raised.symm error_ne_ok
  · exact absurd raised.symm error_ne_ok

theorem hashable_of_stateOf {members : List (Option String × Value)}
    (told : B.stateOf members = .ok state) (openai : B.provider = .openai) :
    (get members "type").unhashable = false := by
  rw [stateOf, openai] at told
  dsimp only at told
  split at told
  · next is => exact hashable_of_isText is
  split at told
  · exact absurd told error_ne_ok
  · next hashable => exact Bool.eq_false_iff.mpr hashable

/-- What is raised when the state of a line is read escapes unless the line is legible. -/
theorem legible_of_error (raised : B.terminalState line = .error fault) :
    B.Legible line ↔ fault.escapes = false := by
  rw [terminalState] at raised
  split at raised
  · exact absurd raised.symm error_ne_ok
  rw [Legible]
  cases read : B.payload line with
  | error fault' =>
    rw [read] at raised
    rw [Except.error.inj raised]
  | ok payload =>
    rw [read] at raised
    cases payload with
    | none => exact absurd raised.symm error_ne_ok
    | some members =>
      obtain ⟨rfl, openai, unhashable⟩ := stateOf_eq_error raised
      refine iff_of_false ?_ (Bool.noConfusion)
      rintro ⟨hashable, -⟩
      rw [hashable openai] at unhashable
      exact Bool.noConfusion unhashable

theorem stateOf_eq_ok {members : List (Option String × Value)}
    (told : B.terminalState line = .ok state) (read : B.payload line = .ok (some members)) :
    B.stateOf members = .ok state := by
  rw [terminalState] at told
  split at told
  · next done =>
    rw [payload, done] at read
    exact absurd (Except.ok.inj read).symm (Option.some_ne_none _)
  · rw [read] at told
    exact told

theorem legible_of_failed (failed : B.terminalState line = .ok (some .failed)) :
    B.Legible line := by
  obtain ⟨payload, read⟩ := payload_of_state failed
  rw [Legible, read]
  cases payload with
  | none => trivial
  | some members =>
    have told := stateOf_eq_ok failed read
    exact ⟨hashable_of_stateOf told, fun unfailed => absurd told unfailed⟩

theorem legible_of_told (told : B.Told line state delta) :
    B.Legible line ↔ (delta.truthy = true → delta.isStr = true) := by
  obtain ⟨payload, read⟩ := payload_of_state told.told
  have delivered := told.delivered
  rw [textDelta, read] at delivered
  rw [Legible, read]
  cases payload with
  | none =>
    rw [← Except.ok.inj delivered]
    exact iff_of_true trivial fun truthy => absurd truthy Bool.false_ne_true
  | some members =>
    have state := stateOf_eq_ok told.told read
    rw [← Except.ok.inj delivered]
    refine ⟨fun legible => legible.2 ?_, fun text => ⟨hashable_of_stateOf state, fun _ => text⟩⟩
    intro failed
    rw [state] at failed
    exact told.unfailed (Except.ok.inj failed)

end

/-- The loop is left by an exception that no handler is for. -/
def Escapes (exit : Option Exit) : Prop :=
  ∃ fault : Fault, exit = some (.raised fault) ∧ fault.escapes = true

theorem not_escapes_leftBy (state : Option Terminal) : ¬ Escapes (leftBy state) := by
  rintro ⟨fault, exit, -⟩
  rw [leftBy] at exit
  split at exit
  · exact Exit.noConfusion (Option.some.inj exit)
  · exact absurd exit.symm (Option.some_ne_none _)

theorem encoded_escapes {delta : Value} {fault : Fault} (raised : encoded delta = .error fault) :
    delta.isStr = true ↔ fault.escapes = false := by
  cases delta with
  | str text => exact absurd raised.symm error_ne_ok
  | surrogate =>
    rw [← Except.error.inj raised]
    exact iff_of_true rfl rfl
  | _ =>
    rw [← Except.error.inj raised]
    exact iff_of_false Bool.false_ne_true (fun caught => Bool.noConfusion caught)

/-- An exception escapes from the body of the loop exactly if the line is not legible. -/
theorem Taken.escapes {B : Backend} {p : Progress} {line : String}
    {result : Progress × Option Exit} (taken : B.Taken p line result) :
    Escapes result.2 ↔ ¬ B.Legible line := by
  have raises : ∀ {fault : Fault}, Escapes (some (.raised fault)) ↔ fault.escapes = true := by
    intro fault
    refine ⟨?_, fun escapes => ⟨fault, rfl, escapes⟩⟩
    rintro ⟨_, same, escapes⟩
    rw [Exit.raised.inj (Option.some.inj same)]
    exact escapes
  have fails : ∀ reasonCode, ¬ Escapes (some (.failed reasonCode)) := by
    rintro reasonCode ⟨fault, exit, -⟩
    exact Exit.noConfusion (Option.some.inj exit)
  cases taken with
  | unread state => rw [raises, legible_of_error state, Bool.not_eq_false]
  | refused state => exact iff_of_false (fails _) (not_not_intro (legible_of_failed state))
  | silent usage told falsy =>
    refine iff_of_false (not_escapes_leftBy _) (not_not_intro ?_)
    refine (legible_of_told told).mpr fun truthy => ?_
    exact absurd (falsy.symm.trans truthy) Bool.false_ne_true
  | unencodable usage told truthy raised =>
    rw [raises, legible_of_told told, ← Bool.not_eq_false, ← encoded_escapes raised]
    exact not_congr ⟨fun text _ => text, fun text => text truthy⟩
  | exceeds usage told =>
    exact iff_of_false (fails _) (not_not_intro ((legible_of_told told).mpr fun _ => rfl))
  | said usage told =>
    refine iff_of_false (not_escapes_leftBy _) (not_not_intro ?_)
    exact (legible_of_told told).mpr fun _ => rfl

/-! ## The loop -/

/-- What holds before the loop asks for the next line. -/
structure Going (B : Backend) (seen : List String) (p : Progress) : Prop where
  begun : Begun p
  texts : messages p.events = seen.filterMap B.delta?
  counted : p.outputBytes = textBytes (seen.filterMap B.delta?)
  within : p.outputBytes ≤ B.maxOutputBytes

/-- What holds when the loop is left. -/
structure Left (B : Backend) (lines : List String) (p : Progress) (exit : Exit) : Prop where
  begun : Begun p
  texts : messages p.events <+: lines.filterMap B.delta?
  within : textBytes (messages p.events) ≤ B.maxOutputBytes
  marked : exit = .completed → ∃ seen line, seen ++ [line] <+: lines ∧
    B.terminalState line = .ok (some .completed) ∧
      messages p.events = (seen ++ [line]).filterMap B.delta?

section

variable {B : Backend} {C : Course} {p p' : Progress} {seen lines : List String} {line : String}
  {exit : Exit} {state : Option Terminal}

theorem Left.extend (left : B.Left lines p exit) (more : List String) :
    B.Left (lines ++ more) p exit := by
  refine ⟨left.begun, ?_, left.within, ?_⟩
  · rw [List.filterMap_append]
    exact left.texts.trans (List.prefix_append _ _)
  · intro completed
    obtain ⟨seen, line, before, rest⟩ := left.marked completed
    exact ⟨seen, line, before.trans (List.prefix_append _ _), rest⟩

theorem Left.reads (left : B.Left lines p exit) (bytes : Nat) :
    B.Left lines (p.reads bytes) exit :=
  ⟨⟨left.begun.numbered, left.begun.shape⟩, left.texts, left.within, left.marked⟩

/-- The loop can be left at any time, but not as if the provider had completed. -/
theorem Going.left (going : B.Going seen p) (uncompleted : exit ≠ .completed) :
    B.Left seen p exit := by
  refine ⟨going.begun, ?_, ?_, fun completed => absurd completed uncompleted⟩
  · exact ⟨[], (List.append_nil _).trans going.texts⟩
  · rw [going.texts, ← going.counted]
    exact going.within

/-- The loop is left as completed after the line with the marker. -/
theorem Going.completed (going : B.Going (seen ++ [line]) p)
    (marked : B.terminalState line = .ok (some .completed)) : B.Left (seen ++ [line]) p exit := by
  refine ⟨going.begun, ?_, ?_, ?_⟩
  · exact ⟨[], (List.append_nil _).trans going.texts⟩
  · rw [going.texts, ← going.counted]
    exact going.within
  · intro _
    exact ⟨seen, line, List.prefix_rfl, marked, going.texts⟩

theorem going_started : B.Going [] (Progress.yields 0 ⟨[], 0, 0⟩ .started) :=
  ⟨begun_started, rfl, rfl, Nat.zero_le _⟩

theorem Going.counts (going : B.Going seen p) (usage : List (String × Int)) :
    B.Going seen (p.counts 0 usage) := by
  refine ⟨going.begun.counts usage, ?_, ?_, ?_⟩
  · rw [messages_counts]
    exact going.texts
  · rw [outputBytes_counts]
    exact going.counted
  · rw [outputBytes_counts]
    exact going.within

theorem Told.delta?_of_falsy {delta : Value} (told : B.Told line state delta)
    (falsy : delta.truthy = false) : B.delta? line = none := by
  rw [delta?, told.delivered]
  cases delta with
  | str text =>
    have empty : text = "" := by simpa [Value.truthy] using falsy
    exact if_pos empty
  | _ => rfl

theorem Told.delta?_of_text {text : String} (told : B.Told line state (.str text))
    (nonempty : text ≠ "") : B.delta? line = some text := by
  rw [delta?, told.delivered]
  exact if_neg nonempty

theorem filterMap_silent (seen : List String) (silent : B.delta? line = none) :
    (seen ++ [line]).filterMap B.delta? = seen.filterMap B.delta? := by
  rw [List.filterMap_append, List.filterMap_cons_none silent, List.filterMap_nil, List.append_nil]

theorem filterMap_said (seen : List String) {text : String} (said : B.delta? line = some text) :
    (seen ++ [line]).filterMap B.delta? = seen.filterMap B.delta? ++ [text] := by
  rw [List.filterMap_append, List.filterMap_cons_some said, List.filterMap_nil]

/-- A line without a text changes nothing. -/
theorem Going.silent (going : B.Going seen p) (silent : B.delta? line = none) :
    B.Going (seen ++ [line]) p := by
  refine ⟨going.begun, ?_, ?_, going.within⟩
  · rw [filterMap_silent seen silent]
    exact going.texts
  · rw [filterMap_silent seen silent]
    exact going.counted

/-- A text that is within the limit is one more message. -/
theorem Going.said (going : B.Going seen p) {text : String} (said : B.delta? line = some text)
    (within : p.outputBytes + (utf8 text).length ≤ B.maxOutputBytes) :
    B.Going (seen ++ [line]) ((p.reads (utf8 text).length).yields 0 (.message text)) := by
  refine ⟨Begun.yields ⟨going.begun.numbered, going.begun.shape⟩ rfl, ?_, ?_, ?_⟩
  · rw [yields_zero, messages_append, filterMap_said seen said, ← going.texts]
    rfl
  · rw [yields_zero, filterMap_said seen said, textBytes_append, ← going.counted]
    exact congrArg _ (Nat.add_zero _).symm
  · rw [yields_zero]
    exact within

theorem passes_of_told {delta : Value} (told : B.Told line state delta)
    (unmarked : leftBy state = none) (text : delta.truthy = true → ∃ text, delta = .str text) :
    B.Passes line := by
  have none : state = none := by
    cases state with
    | none => rfl
    | some terminal =>
      cases terminal with
      | completed => exact absurd unmarked (Option.some_ne_none _)
      | failed => exact absurd rfl told.unfailed
  refine ⟨by rw [told.told, none], ?_⟩
  intro delta' delivered
  rw [← Except.ok.inj (told.delivered.symm.trans delivered)]
  exact text

/-- After a line that passes the loop goes on. -/
theorem Taken.goes (taken : B.Taken p line (p', none)) (going : B.Going seen p) :
    B.Passes line ∧ B.Going (seen ++ [line]) p' := by
  generalize result : (p', (none : Option Exit)) = r at taken
  cases taken with
  | unread => exact absurd (Prod.mk.inj result).2.symm (Option.some_ne_none _)
  | refused => exact absurd (Prod.mk.inj result).2.symm (Option.some_ne_none _)
  | unencodable => exact absurd (Prod.mk.inj result).2.symm (Option.some_ne_none _)
  | exceeds => exact absurd (Prod.mk.inj result).2.symm (Option.some_ne_none _)
  | silent usage told falsy =>
    obtain ⟨rfl, on⟩ := Prod.mk.inj result
    refine ⟨passes_of_told told on.symm ?_, ?_⟩
    · intro truthy
      exact absurd (falsy.symm.trans truthy) Bool.false_ne_true
    · exact (going.counts usage).silent (told.delta?_of_falsy falsy)
  | said usage told nonempty within =>
    obtain ⟨rfl, on⟩ := Prod.mk.inj result
    refine ⟨passes_of_told told on.symm fun _ => ⟨_, rfl⟩, ?_⟩
    exact (going.counts usage).said (told.delta?_of_text nonempty) within

theorem marked_of_leftBy (left : leftBy state = some exit) :
    exit = .completed ∧ state = some .completed := by
  rw [leftBy] at left
  split at left
  · next completed => exact ⟨(Option.some.inj left).symm, completed⟩
  · exact absurd left.symm (Option.some_ne_none _)

theorem not_passes_of_marked (marked : B.terminalState line = .ok (some .completed)) :
    ¬ B.Passes line := by
  rintro ⟨unmarked, -⟩
  exact absurd (Except.ok.inj (marked.symm.trans unmarked)) (Option.some_ne_none _)

/-- When a line leaves the loop, it does not pass or has too much text. -/
theorem Taken.leaves (taken : B.Taken p line (p', some exit)) (going : B.Going seen p) :
    B.Left (seen ++ [line]) p' exit ∧
      (¬ B.Passes line ∨
        B.maxOutputBytes < textBytes ((seen ++ [line]).filterMap B.delta?)) := by
  generalize result : (p', some exit) = r at taken
  cases taken with
  | unread state =>
    obtain ⟨rfl, off⟩ := Prod.mk.inj result
    refine ⟨(going.left ?_).extend [line], .inl ?_⟩
    · rw [Option.some.inj off]
      exact fun completed => Exit.noConfusion completed
    · rintro ⟨told, -⟩
      exact error_ne_ok (state.symm.trans told)
  | refused state =>
    obtain ⟨rfl, off⟩ := Prod.mk.inj result
    refine ⟨(going.left ?_).extend [line], .inl ?_⟩
    · rw [Option.some.inj off]
      exact fun completed => Exit.noConfusion completed
    · rintro ⟨told, -⟩
      exact absurd (Except.ok.inj (state.symm.trans told)) (Option.some_ne_none _)
  | silent usage told falsy =>
    obtain ⟨rfl, off⟩ := Prod.mk.inj result
    obtain ⟨-, completed⟩ := marked_of_leftBy off.symm
    have going := (going.counts usage).silent (told.delta?_of_falsy falsy)
    have marked := told.told.trans (congrArg Except.ok completed)
    exact ⟨going.completed marked, .inl (not_passes_of_marked marked)⟩
  | unencodable usage told truthy raised =>
    obtain ⟨rfl, off⟩ := Prod.mk.inj result
    refine ⟨((going.counts usage).left ?_).extend [line], .inl ?_⟩
    · rw [Option.some.inj off]
      exact fun completed => Exit.noConfusion completed
    · rintro ⟨-, passes⟩
      obtain ⟨text, rfl⟩ := passes _ told.delivered truthy
      exact absurd raised.symm error_ne_ok
  | exceeds usage told nonempty more =>
    obtain ⟨rfl, off⟩ := Prod.mk.inj result
    refine ⟨(((going.counts usage).left ?_).reads _).extend [line], .inr ?_⟩
    · rw [Option.some.inj off]
      exact fun completed => Exit.noConfusion completed
    rw [outputBytes_counts] at more
    rw [filterMap_said seen (told.delta?_of_text nonempty), textBytes_append, ← going.counted]
    exact Nat.lt_of_lt_of_eq more (congrArg _ (Nat.add_zero _).symm)
  | said usage told nonempty within =>
    obtain ⟨rfl, off⟩ := Prod.mk.inj result
    obtain ⟨-, completed⟩ := marked_of_leftBy off.symm
    have going := (going.counts usage).said (told.delta?_of_text nonempty) within
    have marked := told.told.trans (congrArg Except.ok completed)
    exact ⟨going.completed marked, .inl (not_passes_of_marked marked)⟩

theorem leaves_of_later {look : Nat} (n : Nat) (on : C.leaves (look + n) = none) :
    C.leaves look = none := by
  have earlier : ∀ after : Option Nat, passed after look = true →
      passed after (look + n) = true := by
    intro after happened
    cases after with
    | none => exact happened
    | some k =>
      have before : k ≤ look := of_decide_eq_true happened
      exact decide_eq_true (Nat.le_add_right_of_le before)
  rw [Course.leaves] at on ⊢
  split at on
  · exact absurd on (Option.some_ne_none _)
  next uncancelled =>
  split at on
  · exact absurd on (Option.some_ne_none _)
  next early =>
    have uncancelled : ¬ C.cancelled look = true := mt (earlier C.cancelledAfter) uncancelled
    have early : ¬ C.late look = true := mt (earlier C.lateAfter) early
    rw [if_neg uncancelled, if_neg early]

theorem leaves_eq_some {look : Nat} (left : C.leaves look = some exit) :
    exit ≠ .completed ∧ ¬ Escapes (some exit) := by
  rw [Course.leaves] at left
  split at left
  · rw [← Option.some.inj left]
    refine ⟨Exit.noConfusion, ?_⟩
    rintro ⟨fault, same, -⟩
    exact Exit.noConfusion (Option.some.inj same)
  split at left
  · rw [← Option.some.inj left]
    refine ⟨Exit.noConfusion, ?_⟩
    rintro ⟨fault, same, escapes⟩
    rw [← Exit.raised.inj (Option.some.inj same)] at escapes
    exact Bool.noConfusion escapes
  · exact absurd left.symm (Option.some_ne_none _)

/-- Every line that the loop comes to is legible, from a look and these lines on. It comes to a
line if those before it pass, have no more text than the limit, and neither a cancellation nor the
deadline is in time. -/
def ReadableFrom (B : Backend) (C : Course) (look : Nat) (seen lines : List String) : Prop :=
  ∀ before line after, lines = before ++ line :: after → (∀ l ∈ before, B.Passes l) →
    textBytes ((seen ++ before).filterMap B.delta?) ≤ B.maxOutputBytes →
      C.leaves (look + before.length) = none → B.Legible line

variable {look : Nat} {rest : List String}

theorem readableFrom_of_left (left : C.leaves look ≠ none) : B.ReadableFrom C look seen lines :=
  fun _ _ _ _ _ _ on => absurd (leaves_of_later _ on) left

theorem readableFrom_of_more (more : B.maxOutputBytes < textBytes (seen.filterMap B.delta?)) :
    B.ReadableFrom C look seen lines := by
  intro before line after _ _ within
  rw [List.filterMap_append, textBytes_append] at within
  exact absurd more (Nat.not_lt.mpr (Nat.le_of_add_right_le within))

theorem readableFrom_cons (on : C.leaves look = none)
    (within : textBytes (seen.filterMap B.delta?) ≤ B.maxOutputBytes) :
    B.ReadableFrom C look seen (line :: rest) ↔
      B.Legible line ∧ (B.Passes line → B.ReadableFrom C (look + 1) (seen ++ [line]) rest) := by
  constructor
  · intro readable
    refine ⟨readable [] line rest rfl (fun _ mem => absurd mem List.not_mem_nil) ?_ on, ?_⟩
    · rw [List.append_nil]
      exact within
    · intro passes before next after split pass within on
      refine readable (line :: before) next after (congrArg _ split) ?_ ?_ ?_
      · exact List.forall_mem_cons.mpr ⟨passes, pass⟩
      · rw [List.append_cons]
        exact within
      · rw [List.length_cons, Nat.add_comm before.length, ← Nat.add_assoc]
        exact on
  · rintro ⟨legible, later⟩ before next after split pass within on
    cases before with
    | nil =>
      rw [← (List.cons.inj split).1]
      exact legible
    | cons first before =>
      obtain ⟨rfl, rest⟩ := List.cons.inj split
      obtain ⟨passes, pass⟩ := List.forall_mem_cons.mp pass
      refine later passes before next after rest pass ?_ ?_
      · rw [← List.append_cons]
        exact within
      · rw [Nat.add_assoc, Nat.add_comm 1]
        exact on

theorem loop_left (going : B.Going seen p) (C : Course) (lines : List String)
    (fault : Option Fault) (look : Nat) :
    B.Left (seen ++ lines) (B.loop C 0 fault look p lines).1
      (B.loop C 0 fault look p lines).2.1 := by
  induction lines generalizing look p seen with
  | nil =>
    rw [List.append_nil]
    refine going.left ?_
    rw [loop]
    cases left : C.leaves look with
    | some exit => exact (leaves_eq_some left).1
    | none =>
      cases fault with
      | none => exact fun completed => Exit.noConfusion completed
      | some fault => exact fun completed => Exit.noConfusion completed
  | cons line rest ih =>
    rw [loop]
    cases left : C.leaves look with
    | some exit => exact (going.left (leaves_eq_some left).1).extend _
    | none =>
      have taken := taken B p line
      rw [List.append_cons]
      rcases took : B.takeLine 0 p line with ⟨p', exit | exit⟩
      · rw [took] at taken
        exact ih (taken.goes going).2 (look + 1)
      · rw [took] at taken
        exact (taken.leaves going).1.extend rest

/-- An exception escapes from the loop exactly if it comes to a line that is not legible. -/
theorem loop_escapes (going : B.Going seen p) (C : Course) (lines : List String) (look : Nat)
    {fault : Option Fault} (caught : ∀ f ∈ fault, f.escapes = false) :
    Escapes (some (B.loop C 0 fault look p lines).2.1) ↔ ¬ B.ReadableFrom C look seen lines := by
  induction lines generalizing look p seen with
  | nil =>
    refine iff_of_false ?_ (not_not_intro ?_)
    · rw [loop]
      cases left : C.leaves look with
      | some exit => exact (leaves_eq_some left).2
      | none =>
        rintro ⟨f, same, escapes⟩
        cases fault with
        | none => exact Exit.noConfusion (Option.some.inj same)
        | some fault =>
          have same := Exit.raised.inj (Option.some.inj same)
          rw [← same, caught fault rfl] at escapes
          exact Bool.noConfusion escapes
    · intro before line after split
      exact absurd split.symm (List.append_ne_nil_of_right_ne_nil _ (List.cons_ne_nil _ _))
  | cons line rest ih =>
    rw [loop]
    cases left : C.leaves look with
    | some exit =>
      refine iff_of_false (leaves_eq_some left).2 (not_not_intro (readableFrom_of_left ?_))
      rw [left]
      exact Option.some_ne_none _
    | none =>
      have within := going.within
      rw [going.counted] at within
      rw [readableFrom_cons left within]
      have taken := taken B p line
      rcases took : B.takeLine 0 p line with ⟨p', exit | exit⟩
      · rw [took] at taken
        obtain ⟨passes, going⟩ := taken.goes going
        have legible : B.Legible line := by
          refine not_not.mp (mt taken.escapes.mpr ?_)
          rintro ⟨fault, same, -⟩
          exact absurd same.symm (Option.some_ne_none _)
        refine (ih going (look + 1)).trans (not_congr ?_)
        exact ⟨fun readable => ⟨legible, fun _ => readable⟩, fun readable => readable.2 passes⟩
      · rw [took] at taken
        refine taken.escapes.trans (not_congr ⟨fun legible => ⟨legible, ?_⟩, And.left⟩)
        intro passes
        obtain fails | more := (taken.leaves going).2
        · exact absurd passes fails
        · exact readableFrom_of_more more

end

/-! ## The stream -/

/-- What the events of a response with these lines are to be. -/
structure Proper (B : Backend) (C : Course) (lines : List String) (o : Outcome) : Prop where
  unraised : o.escaped = none
  numbered : o.events.map (·.sequence) = List.range' 1 o.events.length
  shape : ∃ first parts last, o.events = first :: parts ++ [last] ∧ first.payload = .started ∧
    (∀ e ∈ parts, e.payload.isPart = true) ∧ last.payload.isTerminal = true
  marked : (∃ e ∈ o.events, e.payload = .completed) →
    (∃ seen line, seen ++ [line] <+: lines ∧ B.terminalState line = .ok (some .completed) ∧
      messages o.events = (seen ++ [line]).filterMap B.delta?) ∧
    ∀ look ∈ C.cancelledAfter, o.looks ≤ look
  texts : messages o.events <+: lines.filterMap B.delta?
  within : textBytes (messages o.events) ≤ B.maxOutputBytes

section

variable {B : Backend} {C : Course} {p : Progress} {lines : List String} {exit : Exit}
  {payload : Payload} {look : Nat}

theorem conclude_ok (concluded : conclude exit = .ok payload) :
    payload.isTerminal = true ∧ (payload = .completed → exit = .completed) := by
  rw [conclude.eq_def] at concluded
  split at concluded
  all_goals first
    | exact absurd concluded error_ne_ok
    | rw [← Except.ok.inj concluded]
      refine ⟨rfl, fun same => ?_⟩
      first
        | rfl
        | exact Payload.noConfusion same

theorem conclude_error {fault : Fault} (concluded : conclude exit = .error fault) :
    Escapes (some exit) := by
  cases exit with
  | raised fault' => cases fault' <;> first
    | exact absurd concluded.symm error_ne_ok
    | exact ⟨_, rfl, rfl⟩
  | _ => exact absurd concluded.symm error_ne_ok

theorem not_escapes_of_conclude (concluded : conclude exit = .ok payload) :
    ¬ Escapes (some exit) := by
  rintro ⟨fault, same, escapes⟩
  rw [Option.some.inj same] at concluded
  cases fault <;> first
    | exact Bool.noConfusion escapes
    | exact absurd concluded error_ne_ok

/-- A terminal event after what the loop has yielded makes it proper. -/
theorem Left.proper (left : B.Left lines p exit) (terminal : payload.isTerminal = true)
    (completed : payload = .completed → exit = .completed ∧ C.cancelled look = false) :
    B.Proper C lines ⟨(p.yields 0 payload).events, none, look + 1⟩ := by
  obtain ⟨parts, events, all⟩ := left.begun.shape
  have silent : payload.text? = none := by
    cases payload with
    | message text => exact absurd terminal Bool.false_ne_true
    | _ => rfl
  have same : messages (p.yields 0 payload).events = messages p.events := by
    rw [yields_zero, messages_append, silent]
    exact List.append_nil _
  refine ⟨rfl, ?_, ?_, ?_, ?_, ?_⟩
  · have numbered : (p.yields 0 payload).events.map (·.sequence) =
        List.range' 1 (p.yields 0 payload).sequence := numbered_yields left.begun.numbered
    have length := congrArg List.length numbered
    rw [List.length_map, List.length_range'] at length
    rw [length]
    exact numbered
  · refine ⟨⟨1, .started⟩, parts, ⟨p.sequence + 1, payload⟩, ?_, rfl, all, terminal⟩
    rw [yields_zero, ← events]
  · rintro ⟨e, mem, is⟩
    have last : payload = .completed := by
      rw [yields_zero, events] at mem
      rcases List.mem_append.mp mem with mem | mem
      · rcases List.mem_cons.mp mem with rfl | mem
        · exact Payload.noConfusion is
        · have part := all e mem
          rw [is] at part
          exact absurd part Bool.false_ne_true
      · rw [← is, List.mem_singleton.mp mem]
    obtain ⟨exited, uncancelled⟩ := completed last
    refine ⟨?_, ?_⟩
    · rw [same]
      exact left.marked exited
    · intro after cancelled
      rw [Course.cancelled, cancelled] at uncancelled
      exact Nat.lt_of_not_le (of_decide_eq_false uncancelled)
  · rw [same]
    exact left.texts
  · rw [same]
    exact left.within

end

/-- The events of a stream are proper and depend on its bytes alone exactly if every line that the
loop comes to is legible. -/
theorem events_proper_iff (B : Backend) (C : Course) (chunks : List (List UInt8))
    (ending : Ending) :
    (B.Proper C ((B.response chunks ending).1) (B.events C 0 chunks ending) ∧
      ∀ chunks', chunks'.flatten = chunks.flatten →
        B.events C 0 chunks' ending = B.events C 0 chunks ending) ↔
      B.ReadableFrom C 1 [] ((B.response chunks ending).1) := by
  have alike : ∀ chunks', chunks'.flatten = chunks.flatten →
      B.events C 0 chunks' ending = B.events C 0 chunks ending := by
    intro chunks' same
    rw [events, events, response, response, boundedResponseLines_flatten _ same]
  rw [and_iff_left alike, events]
  split
  · next cancelled =>
    refine iff_of_true ?_ (readableFrom_of_left fun on => ?_)
    · have left : B.Left [] _ .stopped := going_started.left Exit.noConfusion
      exact (left.extend ((B.response chunks ending).1)).proper rfl Payload.noConfusion
    · have on : C.leaves 0 = none := leaves_of_later 1 on
      rw [Course.leaves, if_pos cancelled] at on
      exact absurd on (Option.some_ne_none _)
  · have caught : ∀ fault ∈ (B.response chunks ending).2, fault.escapes = false :=
      boundedResponseLines_caught _ chunks ending
    have started : B.Going [] _ := going_started
    have left := loop_left started C (B.response chunks ending).1
      (B.response chunks ending).2 1
    have escapes := loop_escapes started C (B.response chunks ending).1 1 caught
    dsimp only
    rw [← not_not (a := B.ReadableFrom C 1 [] _), ← escapes]
    clear escapes
    generalize B.loop C 0 (B.response chunks ending).2 1 (Progress.yields 0 ⟨[], 0, 0⟩ .started)
      (B.response chunks ending).1 = result at left ⊢
    obtain ⟨p, exit, look⟩ := result
    rw [finish]
    cases concluded : conclude exit with
    | error fault =>
      refine iff_of_false ?_ (not_not_intro (conclude_error concluded))
      intro proper
      exact absurd proper.unraised (Option.some_ne_none _)
    | ok payload =>
      refine iff_of_true ?_ (not_escapes_of_conclude concluded)
      obtain ⟨terminal, completed⟩ := conclude_ok concluded
      dsimp only
      split
      · exact left.proper rfl Payload.noConfusion
      · next uncancelled =>
        exact left.proper terminal fun is => ⟨completed is, Bool.eq_false_iff.mpr uncancelled⟩

/-- A stream of OpenAI whose text is a number. -/
def numberDelta : List UInt8 :=
  utf8 "data: \x7b\"type\": \"response.output_text.delta\", \"delta\": 5\x7d\n"

/-- The `AttributeError` of `text.encode` escapes, and no terminal event is yielded. -/
theorem number_delta_escapes :
    ¬ Proper ⟨.openai, 1000, 100⟩ ⟨none, none⟩
      (response ⟨.openai, 1000, 100⟩ [numberDelta] .ended).1
      (events ⟨.openai, 1000, 100⟩ ⟨none, none⟩ 0 [numberDelta] .ended) := by
  intro proper
  have escaped : (events ⟨.openai, 1000, 100⟩ ⟨none, none⟩ 0 [numberDelta] .ended).escaped =
      some .attributeError := by decide +kernel
  exact absurd (escaped.symm.trans proper.unraised) (Option.some_ne_none _)

end Backend

end Corvus.Mvp.ApiChat
