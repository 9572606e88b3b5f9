import Corvus.Library.Encodings
import Corvus.Library.Except
import Corvus.Library.Text
import Corvus.Mvp.ProviderJson

/-!
# The stream of a chat provider

`ApiChatBackend.events` of `mvp/api_chat.py` with `_bounded_response_lines`. The chunks of the
response come in one after the other, up to its end or to an error of the connection, and a
cancellation may come between any two looks at the cancelled handles.
-/

namespace Corvus.Mvp.ApiChat

open ProviderJson (Value LoadsError loads get)

inductive ApiProvider where
  | openai | anthropic | gemini | xai
deriving DecidableEq, Repr

/-- What is raised within the stream, of which the last three are not caught. -/
inductive Fault where
  | timeoutError | providerStreamLimit | httpError | valueError
  | attributeError | typeError | recursionError
deriving DecidableEq, Repr

/-- The exceptions that none of the handlers of `events` is for. -/
def Fault.escapes : Fault → Bool
  | attributeError | typeError | recursionError => true
  | timeoutError | providerStreamLimit | httpError | valueError => false

def ofLoads : LoadsError → Fault
  | .decode => .valueError
  | .recursion => .recursionError

/-! ## Lines -/

/-- How the chunks of a response end. -/
inductive Ending where
  | ended | broken | late
deriving DecidableEq, Repr

def Ending.fault : Ending → Option Fault
  | ended => none
  | broken => some .httpError
  | late => some .timeoutError

def decodeUtf8 (bytes : List UInt8) : Option String := String.fromUTF8? ⟨bytes.toArray⟩

/-- The lines that have been yielded, the bytes since the last one, and what has been raised. -/
structure Reader where
  yielded : List String
  buffered : List UInt8
  fault : Option Fault

namespace Reader

def start : Reader := ⟨[], [], none⟩

variable (maxLineBytes : Nat) (r : Reader)

/-- The bytes go into the buffer, which must not become too long. An exception leaves nothing. -/
def extend (bytes : List UInt8) : Reader :=
  let buffered := r.buffered ++ bytes
  if maxLineBytes < buffered.length then ⟨r.yielded, [], some .providerStreamLimit⟩
  else { r with buffered := buffered }

/-- The buffer is yielded as a line, without the carriage return at its end. -/
def flush : Reader :=
  let line := if r.buffered.getLast? = some 13 then r.buffered.dropLast else r.buffered
  match decodeUtf8 line with
  | some text => ⟨r.yielded ++ [text], [], none⟩
  | none => ⟨r.yielded, [], some .valueError⟩

/-- The parts of a chunk between its newlines. -/
def parts : Reader → List (List UInt8) → Reader
  | r, [] => r
  | r, [part] => r.extend maxLineBytes part
  | r, part :: rest =>
      let r := r.extend maxLineBytes part
      if r.fault.isSome then r
      else
        let r := r.flush
        if r.fault.isSome then r else r.parts rest

def chunk (bytes : List UInt8) : Reader :=
  if r.fault.isSome then r else r.parts maxLineBytes (bytes.splitOn 10)

end Reader

/-- `_bounded_response_lines`: the lines it yields, and what it raises after them. -/
def boundedResponseLines (maxLineBytes : Nat) (chunks : List (List UInt8)) (ending : Ending) :
    List String × Option Fault :=
  let r := chunks.foldl (Reader.chunk maxLineBytes) .start
  if r.fault.isSome then (r.yielded, r.fault)
  else if ending ≠ .ended ∨ r.buffered = [] then (r.yielded, ending.fault)
  else (r.flush.yielded, r.flush.fault)

/-! ## Payloads -/

inductive Terminal where
  | completed | failed
deriving DecidableEq, Repr

structure Backend where
  provider : ApiProvider
  maxOutputBytes : Nat
  recursionLimit : Nat

def MAX_EVENT_OVERHEAD_BYTES : Nat := 65536

/-- The text after `data:`, if there is one. -/
def rawOf (line : String) : Option String :=
  match line.toList with
  | 'd' :: 'a' :: 't' :: 'a' :: ':' :: rest =>
      let raw := Text.strip (String.ofList rest)
      if raw = "" then none else some raw
  | _ => none

namespace Backend

variable (B : Backend)

/-- The dictionary of a line, if it holds one. -/
def payload (line : String) : Except Fault (Option (List (Option String × Value))) :=
  match rawOf line with
  | none => .ok none
  | some raw =>
      if raw = "[DONE]" then .ok none
      else Value.members? <$> (loads B.recursionLimit raw).mapError ofLoads

def geminiText (payload : List (Option String × Value)) : Value :=
  match (get payload "candidates").first? with
  | none => .null
  | some candidate =>
    match (get candidate "content").members? with
    | none => .null
    | some content =>
      match (get content "parts").first? with
      | none => .null
      | some part =>
        match get part "text" with
        | .str text => .str text
        | .surrogate => .surrogate
        | _ => .null

/-- What `_text_delta` reads of a payload. -/
def deltaOf (payload : List (Option String × Value)) : Value :=
  match B.provider with
  | .openai =>
      if (get payload "type").isText "response.output_text.delta" then get payload "delta"
      else .null
  | .anthropic =>
      match (get payload "delta").members? with
      | some delta => get delta "text"
      | none => .null
  | .gemini => geminiText payload
  | .xai =>
      match (get payload "choices").first? with
      | none => .null
      | some choice =>
        match (get choice "delta").members? with
        | some delta => get delta "content"
        | none => .null

/-- `_text_delta`. -/
def textDelta (line : String) : Except Fault Value := do
  match ← B.payload line with
  | none => return .null
  | some payload => return B.deltaOf payload

/-- The state that a text tells, if it is not empty. -/
def reasonState (completed : String) : Value → Option Terminal
  | .str text => if text = "" then none else some (if text = completed then .completed else .failed)
  | .surrogate => some .failed
  | _ => none

/-- What `_terminal_state` reads of a payload. -/
def stateOf (payload : List (Option String × Value)) : Except Fault (Option Terminal) :=
  let type := get payload "type"
  match B.provider with
  | .openai =>
      if type.isText "response.completed" then .ok (some .completed)
      else if type.unhashable then .error .typeError
      else if type.isText "response.failed" ∨ type.isText "response.incomplete" then
        .ok (some .failed)
      else .ok none
  | .anthropic =>
      if type.isText "message_stop" then .ok (some .completed)
      else if type.isText "error" then .ok (some .failed) else .ok none
  | .gemini =>
      .ok ((get payload "candidates").first?.bind fun candidate =>
        reasonState "STOP" (get candidate "finishReason"))
  | .xai =>
      .ok ((get payload "choices").first?.bind fun choice =>
        reasonState "stop" (get choice "finish_reason"))

/-- `_terminal_state`. -/
def terminalState (line : String) : Except Fault (Option Terminal) := do
  if rawOf line = some "[DONE]" then
    return if B.provider = .xai then some .completed else none
  match ← B.payload line with
  | none => return none
  | some payload => B.stateOf payload

def normalizedUsage (inputTokens cachedInputTokens outputTokens : Value) : List (String × Int) :=
  [("input_tokens", inputTokens), ("cached_input_tokens", cachedInputTokens),
    ("output_tokens", outputTokens)].filterMap fun entry =>
      entry.2.count?.map fun value => (entry.1, value)

/-- The item of a dictionary, if it is one. -/
def item (v : Value) (key : String) : Value :=
  match v.members? with
  | some members => get members key
  | none => .null

/-- What `_usage` reads of a payload. -/
def usageOf (payload : List (Option String × Value)) : List (String × Int) :=
  match B.provider with
  | .openai =>
      match (item (get payload "response") "usage").members? with
      | none => []
      | some usage =>
          normalizedUsage (get usage "input_tokens")
            (item (get usage "input_tokens_details") "cached_tokens") (get usage "output_tokens")
  | .anthropic =>
      let usage := match (get payload "message").members? with
        | some message => get message "usage"
        | none => get payload "usage"
      match usage.members? with
      | none => []
      | some usage =>
          normalizedUsage (get usage "input_tokens") (get usage "cache_read_input_tokens")
            (get usage "output_tokens")
  | .gemini =>
      match (get payload "usageMetadata").members? with
      | none => []
      | some usage =>
          normalizedUsage (get usage "promptTokenCount") (get usage "cachedContentTokenCount")
            (get usage "candidatesTokenCount")
  | .xai =>
      match (get payload "usage").members? with
      | none => []
      | some usage =>
          normalizedUsage (get usage "prompt_tokens")
            (item (get usage "prompt_tokens_details") "cached_tokens")
            (get usage "completion_tokens")

/-- `_usage`. -/
def usage (line : String) : Except Fault (List (String × Int)) := do
  match ← B.payload line with
  | none => return []
  | some payload => return B.usageOf payload

end Backend

/-! ## Events -/

inductive Payload where
  | started
  | usage (counts : List (String × Int))
  | message (text : String)
  | completed
  | failed (reasonCode : String)
  | cancelled
deriving DecidableEq, Repr

/-- An event without its time. -/
structure Event where
  sequence : Nat
  payload : Payload
deriving DecidableEq, Repr

/-- How the loop is left. -/
inductive Exit where
  | stopped
  | failed (reasonCode : String)
  | completed
  | raised (fault : Fault)

/-- When the run is cancelled and when the deadline passes, in looks at the cancelled handles. -/
structure Course where
  cancelledAfter : Option Nat
  lateAfter : Option Nat

/-- Something has happened by a look, if it happens after so many. -/
def passed (after : Option Nat) (look : Nat) : Bool := after.any (· ≤ look)

namespace Course

variable (C : Course) (look : Nat)

def cancelled : Bool := passed C.cancelledAfter look

def late : Bool := passed C.lateAfter look

/-- How the loop is left before it asks for a line. -/
def leaves : Option Exit :=
  if C.cancelled look then some .stopped
  else if C.late look then some (.raised .timeoutError) else none

end Course

/-- What has been yielded, with the counters. -/
structure Progress where
  events : List Event
  sequence : Nat
  outputBytes : Nat

/-- Yield the next event, unless it has been seen. -/
def Progress.yields (afterSequence : Nat) (p : Progress) (payload : Payload) : Progress :=
  let sequence := p.sequence + 1
  { p with
    sequence := sequence
    events := if afterSequence < sequence then p.events ++ [⟨sequence, payload⟩] else p.events }

/-- Yield the usage of a line, if there is one. -/
def Progress.counts (afterSequence : Nat) (p : Progress) (usage : List (String × Int)) :
    Progress :=
  if usage.isEmpty then p else p.yields afterSequence (.usage usage)

/-- So many bytes of text have come in. -/
def Progress.reads (p : Progress) (bytes : Nat) : Progress :=
  { p with outputBytes := p.outputBytes + bytes }

/-- What has been yielded in the end, what escapes, and the looks that have been taken. -/
structure Outcome where
  events : List Event
  escaped : Option Fault
  looks : Nat

namespace Backend

variable (B : Backend) (C : Course) (afterSequence : Nat)

/-- `text.encode("utf-8")`. -/
def encoded : Value → Except Fault String
  | .str text => .ok text
  | .surrogate => .error .valueError
  | _ => .error .attributeError

/-- How the loop is left after a line that has been read to its end. -/
def leftBy (state : Option Terminal) : Option Exit :=
  if state = some .completed then some .completed else none

/-- The body of the loop, of one line: how the loop is left, unless it goes on. -/
def takeLine (p : Progress) (line : String) : Progress × Option Exit :=
  match B.terminalState line with
  | .error fault => (p, some (.raised fault))
  | .ok (some .failed) => (p, some (.failed "provider_request_failed"))
  | .ok terminalState =>
    match B.usage line with
    | .error fault => (p, some (.raised fault))
    | .ok usage =>
      let p := p.counts afterSequence usage
      match B.textDelta line with
      | .error fault => (p, some (.raised fault))
      | .ok delta =>
        if delta.truthy then
          match encoded delta with
          | .error fault => (p, some (.raised fault))
          | .ok text =>
            let p := p.reads (utf8 text).length
            if B.maxOutputBytes < p.outputBytes then (p, some (.failed "provider_output_limit"))
            else (p.yields afterSequence (.message text), leftBy terminalState)
        else (p, leftBy terminalState)

/-- The loop over the lines, which may end with an exception, from a look on: how it is left, and
the next look. -/
def loop (fault : Option Fault) : Nat → Progress → List String → Progress × Exit × Nat
  | look, p, [] =>
      (p, (C.leaves look).getD (fault.elim .stopped .raised), look + 1)
  | look, p, line :: rest =>
      match C.leaves look with
      | some exit => (p, exit, look + 1)
      | none =>
        match B.takeLine afterSequence p line with
        | (p, some exit) => (p, exit, look + 1)
        | (p, none) => loop fault (look + 1) p rest

/-- The last event of a run that is not cancelled, or what escapes. -/
def conclude : Exit → Except Fault Payload
  | .completed => .ok .completed
  | .stopped => .ok (.failed "provider_request_failed")
  | .failed reasonCode => .ok (.failed reasonCode)
  | .raised .timeoutError => .ok (.failed "provider_deadline_exceeded")
  | .raised .providerStreamLimit => .ok (.failed "provider_output_limit")
  | .raised .httpError | .raised .valueError => .ok (.failed "provider_request_failed")
  | .raised fault => .error fault

/-- The lines of a response, and what is raised after them. -/
def response (chunks : List (List UInt8)) (ending : Ending) : List String × Option Fault :=
  boundedResponseLines (B.maxOutputBytes + MAX_EVENT_OVERHEAD_BYTES) chunks ending

/-- What comes after the loop. -/
def finish (p : Progress) (exit : Exit) (look : Nat) : Outcome :=
  match conclude exit with
  | .error fault => ⟨p.events, some fault, look⟩
  | .ok payload =>
      let payload := if C.cancelled look then .cancelled else payload
      ⟨(p.yields afterSequence payload).events, none, look + 1⟩

/-- `events` of a handle, whose response comes in these chunks. A request that fails before there
is a response is one whose response breaks before its first byte. -/
def events (chunks : List (List UInt8)) (ending : Ending) : Outcome :=
  let p := Progress.yields afterSequence ⟨[], 0, 0⟩ .started
  if C.cancelled 0 then ⟨(p.yields afterSequence .cancelled).events, none, 1⟩
  else
    let (lines, fault) := B.response chunks ending
    let (p, exit, look) := B.loop C afterSequence fault 1 p lines
    finish C afterSequence p exit look

end Backend

end Corvus.Mvp.ApiChat
