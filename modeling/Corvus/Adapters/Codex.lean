import Corvus.Adapters.Stream
import Mathlib.Data.List.Infix

/-!
# The Codex adapter

What `CodexCliAdapter._stream_events` says about an event of its process.
-/

namespace Corvus.Adapters.Codex

open Agent Process

inductive Mode where
  | chat | inspect | build
deriving DecidableEq, Repr

/-- `workspace_access_task`, while the session has one. -/
inductive Access where
  | running | granted | refused
deriving DecidableEq, Repr

/-- What a session of Codex keeps for its adapter. -/
structure Own where
  mode : Mode
  packageArtifact : Bool
  workspaceAccess : Option Access
  artifact : Option LocalBuildArtifact
  providerCompleted : Bool

/-- What is taken from Python and from the redactor: a command in lower case with single blanks
between its words, and `bound_text`. -/
structure Wording where
  normalized : String → String
  bounded : String → String

/-- `_TOOL_ITEM_TYPES`. -/
def toolItemTypes : List String :=
  ["command_execution", "file_change", "mcp_tool_call", "tool_call", "web_search"]

mutual

/-- A frozen JSON value can be looked for in a set. -/
def hashable : Json → Bool
  | .obj _ => false
  | .arr items => allHashable items
  | _ => true

def allHashable : List Json → Bool
  | [] => true
  | item :: items => hashable item && allHashable items

end

/-- `_safe_activity`. -/
def safeActivity : String → String
  | "command_execution" => "command"
  | "file_change" => "files"
  | "mcp_tool_call" => "mcp"
  | "tool_call" => "tool"
  | "web_search" => "search"
  | _ => "tool"

/-- `_safe_command_label`, of a normalized command. -/
def safeCommandLabel (normalized : String) : String :=
  let has (part : String) : Bool := decide (part.toList <:+: normalized.toList)
  if has "python" ∨ has "pytest" then
    if has "unittest" then "Run Python unit tests"
    else if has "pytest" ∨ has " test" then "Run Python tests"
    else "Run a Python workspace command"
  else if has "cargo test" then "Run Rust tests"
  else if ["pnpm test", "npm test", "yarn test", "bun test"].any has then "Run web tests"
  else if ["pnpm build", "npm run build", "yarn build", "bun run build"].any has then
    "Build the web project"
  else if has "git status" ∨ has "git diff" then "Inspect project changes"
  else if has "set-content" ∨ has "out-file" then "Write project files with PowerShell"
  else if has "rg " ∨ has "ripgrep" then "Search project files"
  else if has "powershell" ∨ has "pwsh" then "Run a PowerShell workspace command"
  else "Run a sandboxed command"

variable (W : Wording)

/-- `_safe_tool_label`. -/
def safeToolLabel (itemType : String) (item : Payload) : String :=
  match itemType, item.lookup "command" with
  | "command_execution", some (.str command) => safeCommandLabel (W.normalized command)
  | "command_execution", _ => "Run a sandboxed command"
  | "file_change", _ => "Update files"
  | "mcp_tool_call", _ => "Use MCP tool"
  | "tool_call", _ => "Use tool"
  | "web_search", _ => "Search the web"
  | _, _ => "Use tool"

/-- `_safe_tool_identity`. -/
def safeToolIdentity (item : Payload) : Payload :=
  match item.lookup "id" with
  | some (.str toolId) =>
    if toolId = "" ∨ 200 < toolId.length then [] else [("tool_id", .str toolId)]
  | _ => []

/-- The numbers of a usage that may be told. -/
def safeUsage (fields : List String) (usage : Payload) : Payload :=
  usage.filter fun entry =>
    match entry.2 with
    | .int value => decide (entry.1 ∈ fields ∧ 0 ≤ value)
    | _ => false

def failed (reasonCode : String) : List Effect :=
  [.say .failed [("reason_code", .str reasonCode)], .conclude .failed]

/-- A frame about a tool. -/
def tool (x : Own) (frame : Payload) (itemType : String) (item : Payload) : List Effect :=
  if x.mode = .chat then .cancelProcess :: failed "codex_tool_event_blocked"
  else
    [.say .checkpoint ([
      ("activity", .str (safeActivity itemType)),
      ("label", .str (safeToolLabel W itemType item)),
      ("status", .str (if frame.lookup "type" = some (.str "item.started") then "started"
        else "completed"))] ++ safeToolIdentity item)]

/-- A reasoning item. -/
def reasoning (item : Payload) : List Effect :=
  match item.lookup "summary" with
  | some (.str summary) =>
    if summary = "" then
      [.say .checkpoint [("activity", .str "provider"), ("status", .str "thinking")]]
    else if W.bounded summary = "" then []
    else [.say .reasoningDelta [("text", .str (W.bounded summary))]]
  | _ => [.say .checkpoint [("activity", .str "provider"), ("status", .str "thinking")]]

/-- An agent message. -/
def message (item : Payload) : List Effect :=
  match item.lookup "text" with
  | some (.str text) => if text = "" then [] else [.say .messageDelta [("text", .str text)]]
  | _ => []

/-- The end of a turn. -/
def turnCompleted (frame : Payload) : List Effect :=
  match frame.lookup "usage" with
  | some (.obj usage) =>
    [.say .usage (safeUsage ["input_tokens", "cached_input_tokens", "output_tokens"] usage)]
  | _ => []

/-- The members of the item of a frame; it has none if it is no mapping. -/
def itemOf (frame : Payload) : Payload :=
  match frame.lookup "item" with
  | some (.obj item) => item
  | _ => []

/-- The type of an item, if it is a text. -/
def typeOf (item : Payload) : String :=
  match item.lookup "type" with
  | some (.str itemType) => itemType
  | _ => ""

/-- A frame. -/
def frame (x : Own) (frame : Payload) : Own × List Effect :=
  let item := itemOf frame
  let itemType := typeOf item
  if (item.lookup "type").any fun itemType => !hashable itemType then (x, [.raise])
  else if itemType ∈ toolItemTypes then (x, tool W x frame itemType item)
  else if frame.lookup "type" = some (.str "thread.started") then
    (x, [.say .started [("status", .str "started")]])
  else if itemType = "reasoning" then (x, reasoning W item)
  else if itemType = "agent_message" then (x, message item)
  else if frame.lookup "type" = some (.str "turn.completed") then
    ({ x with providerCompleted := true }, turnCompleted frame)
  else (x, [])

/-- The process has exited. -/
def exited (x : Own) (around : Surroundings) (returnCode : Option Int) : Own × List Effect :=
  let completed : List Effect :=
    [.say .completed [("status", .str "completed")], .conclude .completed]
  if returnCode ≠ some 0 then (x, failed "codex_process_failed")
  else if x.providerCompleted = false then (x, failed "codex_stream_incomplete")
  else if x.mode = .build ∧ x.packageArtifact = true then
    match around.packaged with
    | .artifact artifact =>
      ({ x with artifact := some artifact },
        .say .artifact [("download_name", .str artifact.downloadName),
          ("sha256_digest", .str artifact.sha256Digest),
          ("size_bytes", .int artifact.sizeBytes)] :: completed)
    | .error reasonCode =>
      if reasonCode = "codex_build_empty" then
        (x, [.say .completed [("reason_code", .str reasonCode), ("status", .str "needs_input")],
          .conclude .completed])
      else (x, failed reasonCode)
    | .raised => (x, [.raise])
  else (x, completed)

/-- `process_event.reason_code or ..`. -/
def reasonOr (reasonCode : Option String) (default_ : String) : String :=
  if reasonCode.getD "" = "" then default_ else reasonCode.getD ""

/-- The body of the loop. -/
def read (x : Own) (terminal started : Bool) (around : Surroundings) (e : SessionEvent) :
    Own × Bool × List Effect :=
  if x.workspaceAccess = some .refused then
    (x, started, .cancelProcess :: failed "codex_workspace_access_unavailable" ++ [.dismiss])
  else
    let x := if x.workspaceAccess = some .granted then { x with workspaceAccess := none } else x
    if terminal then (x, started, [])
    else
      let (x, effects) : Own × List Effect :=
        match e.kind, e.frame with
        | .frame, some members => frame W x members
        | .frame, none => (x, [])
        | .cancelled, _ =>
          (x, [.say .cancelled [("reason_code", .str "agent_run_cancelled")],
            .conclude .cancelled])
        | .failed, _ => (x, failed (reasonOr e.reasonCode "codex_process_failed"))
        | .exited, _ => exited x around e.returnCode
      (x, started, effects)

/-- The workspace access task has come to its end. -/
def background (x : Own) (ok : Bool) : Own :=
  if x.workspaceAccess = some .running then
    { x with workspaceAccess := some (if ok then .granted else .refused) }
  else x

def adapter : Adapter Own where
  read := read W
  incomplete := "codex_stream_incomplete"
  background := background
  dismiss := fun x => { x with workspaceAccess := none }

end Corvus.Adapters.Codex
