import Corvus.Adapters.Codex

/-!
# The Claude adapter

What `ClaudeCliAdapter._stream_events` says about an event of its process.
-/

namespace Corvus.Adapters.Claude

open Agent Process

/-- `_SAFE_STATUS_VALUES`. -/
def safeStatusValues : List String := ["idle", "requesting", "responding", "thinking", "working"]

def failed : List Effect :=
  [.say .failed [("reason_code", .str "claude_process_failed")], .conclude .failed]

def completed : List Effect :=
  [.say .completed [("status", .str "completed")], .conclude .completed]

/-- A status of the system. -/
def status (frame : Payload) : List Effect :=
  match frame.lookup "subtype", frame.lookup "status" with
  | some (.str "status"), some (.str status) =>
    if status ∈ safeStatusValues then
      [.say .checkpoint [("activity", .str "provider"), ("status", .str status)]]
    else []
  | _, _ => []

/-- An event of the stream. -/
def streamEvent (frame : Payload) : List Effect :=
  match frame.lookup "event" with
  | some (.obj providerEvent) =>
    match providerEvent.lookup "delta" with
    | some (.obj delta) =>
      match delta.lookup "type" with
      | some (.str "text_delta") =>
        match delta.lookup "text" with
        | some (.str text) => if text = "" then [] else [.say .messageDelta [("text", .str text)]]
        | _ => []
      | some (.str "thinking_delta") =>
        [.say .checkpoint [("activity", .str "provider"), ("status", .str "thinking")]]
      | _ => []
    | _ => []
  | _ => []

/-- A result. -/
def result (frame : Payload) : List Effect :=
  if frame.lookup "is_error" = some (.bool true) ∨
      frame.lookup "subtype" ≠ some (.str "success") then
    failed
  else
    match frame.lookup "usage" with
    | some (.obj usage) =>
      match Codex.safeUsage ["input_tokens", "output_tokens", "cache_read_input_tokens"] usage with
      | [] => completed
      | safeUsage => .say .usage safeUsage :: completed
    | _ => completed

/-- A frame, once the run has started. -/
def frame (frame : Payload) : List Effect :=
  match frame.lookup "type" with
  | some (.str "system") => status frame
  | some (.str "stream_event") => streamEvent frame
  | some (.str "result") => result frame
  | _ => []

/-- The body of the loop. -/
def read (terminal started : Bool) (e : SessionEvent) : Bool × List Effect :=
  if terminal then (started, [])
  else
    match e.kind, e.frame with
    | .frame, some members =>
      (true, (if started then [] else [.say .started [("status", .str "started")]]) ++
        frame members)
    | .frame, none => (started, [])
    | .cancelled, _ =>
      (started, [.say .cancelled [("reason_code", .str "agent_run_cancelled")],
        .conclude .cancelled])
    | .failed, _ =>
      (started, [.say .failed [("reason_code",
        .str (Codex.reasonOr e.reasonCode "claude_process_failed"))], .conclude .failed])
    | .exited, _ => (started, if e.returnCode = some 0 then completed else failed)

/-- A session of Claude keeps nothing for its adapter. -/
def adapter : Adapter Unit where
  read := fun own terminal started _ e => (own, read terminal started e)
  incomplete := "claude_stream_incomplete"
  background := fun own _ => own
  dismiss := id

end Corvus.Adapters.Claude
