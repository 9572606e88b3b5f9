import Corvus.Library.Except
import Corvus.Library.Json
import Corvus.Library.Run
import Mathlib.Data.List.SplitOn

/-!
# Sessions of a provider's process

`ProcessSession` between its await points. The reader of the output appends frames, and a
supervisor waits for the process and its streams. Whoever ends the session takes the terminal
lock, may have to wait until the process tree is terminated, and appends the terminal event. The
condition that guards the events is not held across an await point.
-/

namespace Corvus.Process

/-- What is taken from Python's standard library and from the redactor: `json.loads` with the
hooks of the session, which gives a value or the reason for which the reader stops, and
`SecretRedactor`. -/
structure Codec where
  loads : String → Except String Json
  redactValue : List (String × Json) → List (String × Json)
  redact : String → String

/-- `ProcessSessionLimits`, as far as streams go. -/
structure Limits where
  maxStdoutBytes : Nat
  maxStderrBytes : Nat
  maxFrameBytes : Nat
  maxFrames : Nat
  maxEvents : Nat
  /-- `__post_init__`. -/
  events_pos : 0 < maxEvents

inductive EventKind where
  | frame | exited | cancelled | failed
deriving DecidableEq, Repr

/-- `terminal_kinds`. -/
def EventKind.IsTerminal (kind : EventKind) : Prop :=
  kind = .exited ∨ kind = .cancelled ∨ kind = .failed

instance (kind : EventKind) : Decidable kind.IsTerminal := by
  unfold EventKind.IsTerminal
  infer_instance

structure SessionEvent where
  sequence : Nat
  kind : EventKind
  frame : Option (List (String × Json))
  returnCode : Option Int
  stderr : Option String
  reasonCode : Option String

/-! ## State -/

/-- A task of the supervisor. -/
inductive Task where
  | running | done | failed | cancelled
deriving DecidableEq, Repr

/-- `_read_stdout` at its await point. -/
structure StdoutReader where
  total : Nat
  frameCount : Nat
  buffer : List UInt8
  task : Task

/-- `_read_stderr` at its await point. -/
structure StderrReader where
  buffer : List UInt8
  task : Task

/-- A call that ends the session: `_cancel`, `_fail` or `_finish_natural_exit`. -/
inductive Closing where
  | cancel (reasonCode : String)
  | fail (reasonCode : String)
  | finish

/-- `_iterate` at a point where it has yielded, or has not begun: the events it has still to
yield of those it has read, and whether the session had ended when it read them. -/
structure Subscriber where
  start : Nat
  nextIndex : Nat
  available : List SessionEvent
  terminal : Bool
  received : List SessionEvent
  ended : Bool

structure Session where
  events : List SessionEvent
  stderr : List UInt8
  terminal : Bool
  cancelReason : Option String
  stdoutReader : StdoutReader
  stderrReader : StderrReader
  stdinTask : Task
  returnCode : Option Int
  /-- The first failure of a task. -/
  failure : Option String
  /-- `_supervise` has not come to its end yet. -/
  supervising : Bool
  /-- Who waits for the terminal lock, and who holds it until the process tree is terminated. -/
  waiting : List Closing
  holder : Option Closing
  /-- What the calls of `cancel` have returned. -/
  answers : List Bool
  subscribers : List Subscriber

def Session.start : Session where
  events := []
  stderr := []
  terminal := false
  cancelReason := none
  stdoutReader := ⟨0, 0, [], .running⟩
  stderrReader := ⟨[], .running⟩
  stdinTask := .running
  returnCode := none
  failure := none
  supervising := true
  waiting := []
  holder := none
  answers := []
  subscribers := []

/-! ## Frames -/

def decodeUtf8 (bytes : List UInt8) : Option String := String.fromUTF8? ⟨bytes.toArray⟩

/-- The checks of `_accept_frame` on the bytes of a frame. -/
def parseFrame (C : Codec) (limits : Limits) (rawFrame : List UInt8) (frameCount : Nat) :
    Except String (List (String × Json)) := do
  refuse (limits.maxFrameBytes < rawFrame.length) "process_frame_limit_exceeded"
  refuse (limits.maxFrames < frameCount) "process_frame_count_exceeded"
  let text ← present (decodeUtf8 rawFrame) "process_stdout_invalid_utf8"
  match ← C.loads text with
  | .obj members => return C.redactValue members
  | _ => throw "process_frame_object_required"

/-- `_accept_frame`: the events with the one of the frame. -/
def acceptFrame (C : Codec) (limits : Limits) (events : List SessionEvent)
    (rawFrame : List UInt8) (frameCount : Nat) : Except String (List SessionEvent) := do
  let frame ← parseFrame C limits rawFrame frameCount
  refuse (limits.maxEvents - 1 ≤ events.length) "process_event_limit_exceeded"
  return events ++ [⟨events.length + 1, .frame, some frame, none, none, none⟩]

/-- A line without the carriage return at its end. -/
def withoutReturn (line : List UInt8) : List UInt8 :=
  if line.getLast? = some 13 then line.dropLast else line

/-- The loop over the lines of the buffer: the events that the frames before the first failure
have left, with the number of frames or the failure. -/
def acceptFrames (C : Codec) (limits : Limits) : List SessionEvent → Nat → List (List UInt8) →
    List SessionEvent × Except String Nat
  | events, frameCount, [] => (events, .ok frameCount)
  | events, frameCount, line :: lines =>
    match acceptFrame C limits events (withoutReturn line) (frameCount + 1) with
    | .ok events => acceptFrames C limits events (frameCount + 1) lines
    | .error reason => (events, .error reason)

/-- The lines that a buffer holds, and what follows the last of them. -/
def linesOf (buffer : List UInt8) : List (List UInt8) := (buffer.splitOn 10).dropLast

def restOf (buffer : List UInt8) : List UInt8 := (buffer.splitOn 10).getLastD []

namespace Session

variable (C : Codec) (limits : Limits)

/-- A task has raised; the first one that does decides what the supervisor sees. -/
def raise (s : Session) (reason : String) : Session :=
  { s with failure := s.failure.or (some reason) }

/-- The reader of the output has raised. -/
def stdoutFailed (s : Session) (reason : String) : Session :=
  { s with stdoutReader := { s.stdoutReader with task := .failed } }.raise reason

/-- `_read_stdout` is given a chunk. -/
def readStdout (s : Session) (chunk : List UInt8) : Session :=
  let total := s.stdoutReader.total + chunk.length
  if limits.maxStdoutBytes < total then s.stdoutFailed "process_stdout_limit_exceeded"
  else
    let buffer := s.stdoutReader.buffer ++ chunk
    match acceptFrames C limits s.events s.stdoutReader.frameCount (linesOf buffer) with
    | (events, .error reason) => { s with events := events }.stdoutFailed reason
    | (events, .ok frameCount) =>
      if limits.maxFrameBytes < (restOf buffer).length then
        { s with events := events }.stdoutFailed "process_frame_limit_exceeded"
      else
        { s with
          events := events
          stdoutReader := ⟨total, frameCount, restOf buffer, .running⟩ }

/-- `_read_stdout` is at the end of the output. -/
def endStdout (s : Session) : Session :=
  if s.stdoutReader.buffer = [] then
    { s with stdoutReader := { s.stdoutReader with task := .done } }
  else
    match acceptFrame C limits s.events s.stdoutReader.buffer (s.stdoutReader.frameCount + 1) with
    | .ok events =>
      { s with events := events, stdoutReader := { s.stdoutReader with task := .done } }
    | .error reason => s.stdoutFailed reason

/-- `_read_stderr` is given a chunk. -/
def readStderr (s : Session) (chunk : List UInt8) : Session :=
  if limits.maxStderrBytes < s.stderrReader.buffer.length + chunk.length then
    { s with stderrReader := { s.stderrReader with task := .failed } }.raise
      "process_stderr_limit_exceeded"
  else { s with stderrReader := ⟨s.stderrReader.buffer ++ chunk, .running⟩ }

/-- `_read_stderr` is at its end. -/
def endStderr (s : Session) : Session :=
  match decodeUtf8 s.stderrReader.buffer with
  | some _ =>
    { s with
      stderr := s.stderrReader.buffer
      stderrReader := { s.stderrReader with task := .done } }
  | none =>
    { s with stderrReader := { s.stderrReader with task := .failed } }.raise
      "process_stderr_invalid_utf8"

/-- `_feed_stdin` has written the input, or has failed. -/
def endStdin (s : Session) (failure : Option String) : Session :=
  match failure with
  | none => { s with stdinTask := .done }
  | some reason => { s with stdinTask := .failed }.raise reason

/-! ## Ending -/

/-- `_append_terminal`. -/
def appendTerminal (s : Session) (kind : EventKind) (returnCode : Option Int)
    (stderr reasonCode : Option String) : Session :=
  if s.terminal then s
  else
    { s with
      events := s.events ++
        [⟨s.events.length + 1, kind, none, returnCode, stderr, reasonCode⟩]
      terminal := true }

/-- A task that the supervisor cancels. -/
def Task.stopped : Task → Task
  | .running => .cancelled
  | task => task

/-- The supervisor cancels the tasks that are not done, and calls `_fail`. -/
def failWith (s : Session) (reason : String) : Session :=
  { s with
    stdoutReader := { s.stdoutReader with task := Task.stopped s.stdoutReader.task }
    stderrReader := { s.stderrReader with task := Task.stopped s.stderrReader.task }
    stdinTask := Task.stopped s.stdinTask
    supervising := false
    waiting := s.waiting ++ [.fail reason] }

/-- All tasks are done. -/
def AllDone (s : Session) : Prop :=
  s.stdoutReader.task = .done ∧ s.stderrReader.task = .done ∧ s.stdinTask = .done ∧
    s.returnCode.isSome

instance (s : Session) : Decidable s.AllDone := by
  unfold AllDone
  infer_instance

/-- `_supervise` goes on: its time is up, a task has raised, or all tasks are done. -/
def supervise (s : Session) (timeout : Bool) : Session :=
  if s.supervising = false then s
  else if timeout then s.failWith "process_timeout"
  else
    match s.failure with
    | some reason => s.failWith reason
    | none =>
      if s.AllDone then
        { s with supervising := false, waiting := s.waiting ++ [.finish] }
      else s

/-- `_finish_natural_exit` with the lock. -/
def finishNaturalExit (s : Session) : Session :=
  match s.cancelReason with
  | some reason => s.appendTerminal .cancelled none none (some reason)
  | none =>
    match decodeUtf8 s.stderr with
    | none => s.appendTerminal .failed none none (some "process_stderr_invalid_utf8")
    | some stderr =>
      s.appendTerminal .exited (some (s.returnCode.getD 0)) (some (C.redact stderr)) none

/-- One of those that wait takes the terminal lock. If the session has ended they are answered
at once; `_cancel` and `_fail` keep the lock while the process tree is terminated. -/
def acquire (s : Session) (index : Nat) : Session :=
  match s.holder, s.waiting[index]? with
  | none, some call =>
    let s := { s with waiting := s.waiting.eraseIdx index }
    match s.terminal, call with
    | true, .cancel _ => { s with answers := s.answers ++ [true] }
    | true, _ => s
    | false, .cancel reason => { s with cancelReason := some reason, holder := some call }
    | false, .fail _ => { s with holder := some call }
    | false, .finish => s.finishNaturalExit C
  | _, _ => s

/-- `terminate_process_tree` has returned to whoever holds the lock. -/
def terminated (s : Session) (confirmed : Bool) : Session :=
  match s.holder with
  | some (.cancel reason) =>
    let s := { s with holder := none, answers := s.answers ++ [confirmed] }
    if confirmed then s.appendTerminal .cancelled none none (some reason)
    else s.appendTerminal .failed none none (some "process_tree_termination_unconfirmed")
  | some (.fail reason) =>
    { s with holder := none }.appendTerminal .failed none none
      (some (if confirmed then reason else "process_tree_termination_unconfirmed"))
  | _ => s

/-- A call of `cancel` is itself cancelled while it holds the lock. -/
def interrupted (s : Session) : Session :=
  match s.holder with
  | some (.cancel _) => { s with holder := none }
  | _ => s

/-! ## Subscribers -/

/-- `_iterate` is asked for its next event. -/
def pulled (s : Session) (sub : Subscriber) : Subscriber :=
  match sub.ended, sub.available with
  | true, _ => sub
  | false, event :: available =>
    { sub with
      nextIndex := sub.nextIndex + 1
      available := available
      received := sub.received ++ [event] }
  | false, [] =>
    if sub.terminal ∧ s.events.length ≤ sub.nextIndex then { sub with ended := true }
    else
      match s.events.drop sub.nextIndex with
      | event :: available =>
        { sub with
          nextIndex := sub.nextIndex + 1
          available := available
          terminal := s.terminal
          received := sub.received ++ [event] }
      | [] => { sub with ended := s.terminal }

/-- `_iterate` refuses a cursor beyond the last event. -/
def subscribe (s : Session) (afterSequence : Nat) : Session :=
  if s.events.length < afterSequence then s
  else
    { s with
      subscribers := s.subscribers ++ [⟨afterSequence, afterSequence, [], false, [], false⟩] }

/-! ## Steps -/

/-- What may happen at an await point. A cancelled consumer calls `cancel` with a reason of its
own; a call of `cancel` may itself be cancelled while it terminates the process tree. -/
inductive Input where
  | stdout (chunk : List UInt8)
  | stdoutEnd
  | stderr (chunk : List UInt8)
  | stderrEnd
  | stdinEnd (failure : Option String)
  | exited (returnCode : Int)
  | supervise (timeout : Bool)
  | cancel (reasonCode : String)
  | acquire (index : Nat)
  | terminated (confirmed : Bool)
  | interrupted
  | subscribe (afterSequence : Nat)
  | pull (index : Nat)

def step (s : Session) : Input → Session
  | .stdout chunk =>
    if s.stdoutReader.task = .running then s.readStdout C limits chunk else s
  | .stdoutEnd => if s.stdoutReader.task = .running then s.endStdout C limits else s
  | .stderr chunk => if s.stderrReader.task = .running then s.readStderr limits chunk else s
  | .stderrEnd => if s.stderrReader.task = .running then s.endStderr else s
  | .stdinEnd failure => if s.stdinTask = .running then s.endStdin failure else s
  | .exited returnCode => { s with returnCode := s.returnCode.or (some returnCode) }
  | .supervise timeout => s.supervise timeout
  | .cancel reasonCode => { s with waiting := s.waiting ++ [.cancel reasonCode] }
  | .acquire index => s.acquire C index
  | .terminated confirmed => s.terminated confirmed
  | .interrupted => s.interrupted
  | .subscribe afterSequence => s.subscribe afterSequence
  | .pull index => { s with subscribers := s.subscribers.modify index s.pulled }

end Session

end Corvus.Process
