import Corvus.Library.Except
import Corvus.Library.Run

/-!
# Activation of a live route

`ConfiguredLiveModelController` of `provider_control.py` with the providers that `ConfigManager`
of `config.py` keeps. An activation holds a lock from its first step to its last, so that the
others wait outside and do nothing. What it hands to a thread goes on when it is cancelled.
-/

namespace Corvus.Live

/-! ## Providers -/

inductive ProviderKind where
  | openai | openaiCompatible | openrouter | anthropic | gemini | ollama | codexCli
deriving DecidableEq, Repr

structure ModelProvider where
  name : String
  kind : ProviderKind
  baseUrl : String
  model : String
  keyringService : Option String
  capabilities : List String
  isLocal : Bool
  executable : Option String
  executableSha256 : Option String
  thinkingPreset : Option String
  reasoningEffort : Option String
  thinkingEnabled : Option Bool
deriving DecidableEq, Repr

def THINKING_PRESETS : List String := ["fast", "smart", "high", "super_high", "ultra"]

def REASONING_EFFORTS : List String := ["low", "medium", "high", "xhigh", "max"]

/-- `^[0-9a-f]{64}$`. -/
def isSha256Digest (s : String) : Bool :=
  s.length = 64 && s.toList.all fun c => c.isDigit || ('a' ≤ c && c ≤ 'f')

/-- The checks of a `ModelProvider`. -/
def ModelProvider.validate (p : ModelProvider) : Except String Unit := do
  require (∀ digest ∈ p.executableSha256, isSha256Digest digest = true) "string_pattern_mismatch"
  require (∀ preset ∈ p.thinkingPreset, preset ∈ THINKING_PRESETS) "literal_error"
  require (∀ effort ∈ p.reasoningEffort, effort ∈ REASONING_EFFORTS) "literal_error"
  if p.kind = .codexCli then
    require (p.executable.isSome = true) "Codex CLI providers require an executable path"
    require (p.keyringService = none)
      "Codex CLI credentials are owned by Codex, not Corvus keyring"
  else
    require (p.baseUrl ≠ "") "HTTP providers require a base URL"
    require (p.model ≠ "") "HTTP providers require a model"
    require (p.executable = none) "HTTP providers cannot define a Codex executable"
    require (p.executableSha256 = none) "HTTP providers cannot define a Codex executable digest"

/-! ## The configuration -/

/-- The contents of `providers.yaml`, of which an empty name reads as none. -/
structure Saved where
  active : Option String
  providers : List ModelProvider
deriving DecidableEq, Repr

namespace Saved

variable (s : Saved)

/-- `selected_provider`. -/
def selected : Option ModelProvider :=
  (s.active.bind fun name => s.providers.find? (·.name = name)).or s.providers.head?

/-- `save_providers`. -/
def save (providers : List ModelProvider) (activeProvider : Option String) :
    Except String Saved := do
  let names := providers.map (·.name)
  let selected := activeProvider.or (s.active.filter (· ∈ names))
  require (∀ name ∈ selected, name ∈ names) "active provider must name a configured provider"
  let selected := selected.or names.head?
  return ⟨selected.filter (· ≠ ""), providers⟩

end Saved

/-! ## The catalog -/

structure LiveThinkingOption where
  id : String
  label : String
  effectiveId : Option String
  detail : String
deriving DecidableEq, Repr

structure LiveModelOption where
  id : String
  label : String
  thinking : List LiveThinkingOption

structure LiveProviderOption where
  name : String
  label : String
  models : List LiveModelOption
  selectedModel : Option String
  configured : Bool
  selectedThinking : Option String

/-- What an activation reads of a `ThinkingSetting`. -/
structure ThinkingSetting where
  reasoningEffort : Option String
  thinkingEnabled : Option Bool

/-- What the curated catalog has to say: `_models`, `_settings` and `_provider_options`. -/
structure Catalog where
  models : ModelProvider → List LiveModelOption
  settings : (target : ModelProvider) → (model thinking : String) → ThinkingSetting
  providerOptions : List ModelProvider → List LiveProviderOption

structure LiveModelState where
  providers : List LiveProviderOption
  activeProvider : Option String
  activeModel : Option String
  activeThinking : Option String

variable (C : Catalog)

/-- `state`, of what is saved. -/
def state (s : Saved) : LiveModelState :=
  let providers := C.providerOptions s.providers
  let selectedOption := s.selected.bind fun selected =>
    providers.find? fun option => option.configured ∧ option.name = selected.name
  { providers := providers
    activeProvider := selectedOption.map (·.name)
    activeModel := selectedOption.bind (·.selectedModel)
    activeThinking := selectedOption.bind (·.selectedThinking) }

/-! ## An activation -/

/-- The arguments of `activate`. -/
structure Request where
  providerName : String
  model : String
  thinking : String

/-- What a port raises: an `Exception`, or one that only derives from `BaseException`. -/
inductive Fault where
  | exception | base
deriving DecidableEq, Repr

inductive Raised where
  | selection (message : String)
  | value (message : String)
  | base
  | cancelled

/-- The target with what a request changes of it. -/
def rerouted (request : Request) (target : ModelProvider) : ModelProvider :=
  { target with
    model := request.model
    thinkingPreset := some request.thinking
    reasoningEffort := (C.settings target request.model request.thinking).reasoningEffort
    thinkingEnabled := (C.settings target request.model request.thinking).thinkingEnabled }

/-- The candidate that a request makes of the providers. -/
def candidateOf (request : Request) (providers : List ModelProvider) :
    Except Raised ModelProvider := do
  let target ← present (providers.find? (·.name = request.providerName))
    (.selection "That provider is not added. Run `corvus run --setup` first.")
  let modelOption ← present ((C.models target).find? (·.id = request.model))
    (.selection "That model is not available for this provider.")
  let unsupported := Raised.selection "That thinking preset is not supported by this model."
  let thinkingOption ← present (modelOption.thinking.find? (·.id = request.thinking)) unsupported
  require (thinkingOption.effectiveId.isSome = true) unsupported
  require ((rerouted C request target).validate.isOk = true)
    (.selection "That model or thinking preset is not valid for this provider.")
  return rerouted C request target

/-- What an activation has read and made of it. -/
structure Activation where
  request : Request
  providers : List ModelProvider
  candidate : ModelProvider

/-- The providers with the candidate in the place of its entry. -/
def Activation.updated (a : Activation) : List ModelProvider :=
  a.providers.map fun item => if item.name = a.request.providerName then a.candidate else item

/-- The client that the builder has made for a provider. -/
structure Client where
  builtFrom : ModelProvider

/-- Where an activation waits: for the providers, the readiness, the builder, the health, the
name of the active provider, the save, or the save of what was there before. -/
inductive Call where
  | reading (request : Request)
  | ready (a : Activation)
  | building (a : Activation)
  | checking (a : Activation) (client : Client)
  | naming (a : Activation) (client : Client)
  | saving (a : Activation) (client : Client) (previousActive : Option String)
  | restoring (a : Activation) (previousActive : Option String)

def Call.request : Call → Request
  | reading request => request
  | ready a | building a | checking a _ | naming a _ | saving a _ _ | restoring a _ => a.request

/-- The arguments of a save. -/
structure SaveTask where
  providers : List ModelProvider
  activeProvider : Option String

/-- What has come about, in order. -/
inductive Event where
  | wrote (saved : Saved)
  | took (client : Client)
  | ended (request : Request) (result : Except Raised LiveModelState)

/-- The controller with its runner, its threads and the file. -/
structure Controller where
  saved : Saved
  /-- The client that the runner uses. -/
  running : Option Client
  /-- The activation that holds the lock. -/
  call : Option Call
  /-- The save that this activation waits for, with what has come of it. -/
  handed : Option (SaveTask × Option (Except String Unit))
  /-- The saves of activations that have been cancelled. -/
  orphans : List SaveTask
  log : List Event
  /-- Whether another writer has saved since a thread of the activation has. -/
  touched : Bool

/-- What the ports answer when they are asked. -/
structure Draw where
  ready : Except Fault Bool
  /-- Whether the builder makes a client. -/
  built : Except Fault Bool
  healthy : Except Fault Bool
  workflow : Except Fault Unit
  set : Except Fault Unit

/-- An answer of a port whose exceptions become an error of the selection. -/
def caught {α : Type} (answer : Except Fault α) (message : String) : Except Raised α :=
  match answer with
  | .ok value => .ok value
  | .error .exception => .error (.selection message)
  | .error .base => .error .base

namespace Controller

variable (s : Controller)

def goes (call : Call) : Controller := { s with call := some call, handed := none }

def hands (call : Call) (task : SaveTask) : Controller :=
  { s with call := some call, handed := some (task, none) }

/-- The activation ends and lets go of the lock. -/
def ends (request : Request) (result : Except Raised LiveModelState) : Controller :=
  { s with call := none, handed := none, log := s.log ++ [.ended request result] }

/-- An activation goes on if nothing has been raised. -/
def proceeds {α : Type} (request : Request) (x : Except Raised α) (next : α → Controller) :
    Controller :=
  match x with
  | .ok value => next value
  | .error raised => s.ends request (.error raised)

/-- The activation goes on to where it waits next. -/
def resume (d : Draw) : Controller :=
  match s.call with
  | none => s
  | some (.reading request) =>
      s.proceeds request (candidateOf C request s.saved.providers) fun candidate =>
        s.goes (.ready ⟨request, s.saved.providers, candidate⟩)
  | some (.ready a) =>
      let answered := do
        let ready ← caught d.ready "Provider readiness could not be verified."
        require (ready = true) (Raised.selection
          "Provider is not ready. Check its sign-in, credential, or local service.")
      s.proceeds a.request answered fun _ => s.goes (.building a)
  | some (.building a) =>
      let answered := do
        let built ← caught d.built "Provider activation failed its integrity checks."
        require (built = true)
          (Raised.selection "Provider activation failed its integrity checks.")
      s.proceeds a.request answered fun _ => s.goes (.checking a ⟨a.candidate⟩)
  | some (.checking a client) =>
      let answered := do
        let healthy ← match d.healthy with
          | .ok healthy => .ok healthy
          | .error .exception => .ok false
          | .error .base => .error .base
        require (healthy = true)
          (Raised.selection "Provider health check failed; selection was not saved.")
        caught d.workflow "The live route could not be prepared."
      s.proceeds a.request answered fun _ => s.goes (.naming a client)
  | some (.naming a client) =>
      s.hands (.saving a client s.saved.active) ⟨a.updated, some a.request.providerName⟩
  | some (.saving a client previousActive) =>
      match s.handed with
      | some (_, some (.ok ())) =>
          match d.set with
          | .ok () =>
              { s with running := some client, log := s.log ++ [Event.took client] }.ends a.request
                (.ok (state C s.saved))
          | .error .exception => s.hands (.restoring a previousActive) ⟨a.providers, previousActive⟩
          | .error .base => s.ends a.request (.error .base)
      | some (_, some (.error _)) =>
          s.ends a.request (.error (.selection "The model selection could not be saved."))
      | _ => s
  | some (.restoring a _) =>
      match s.handed with
      | some (_, some (.ok ())) =>
          s.ends a.request (.error (.selection
            "The live route could not be replaced; the saved selection was restored."))
      | some (_, some (.error message)) => s.ends a.request (.error (.value message))
      | _ => s

/-- The thread of the activation runs its save. -/
def runs : Controller :=
  match s.handed with
  | some (task, none) =>
      match s.saved.save task.providers task.activeProvider with
      | .ok saved =>
          { s with saved := saved, handed := some (task, some (.ok ())), touched := false }
      | .error message => { s with handed := some (task, some (.error message)) }
  | _ => s

/-- The thread of an activation that has been cancelled runs its save. -/
def runsOrphan (n : Nat) : Controller :=
  match s.orphans[n]? with
  | none => s
  | some task =>
      let s := { s with orphans := s.orphans.eraseIdx n }
      match s.saved.save task.providers task.activeProvider with
      | .ok saved => { s with saved := saved }
      | .error _ => s

/-- The save of the activation that no thread has run. -/
def pending : List SaveTask :=
  match s.handed with
  | some (task, none) => [task]
  | _ => []

def cancel : Controller :=
  match s.call with
  | none => s
  | some call => { s with orphans := s.orphans ++ s.pending }.ends call.request (.error .cancelled)

/-- Another writer saves. -/
def write (providers : List ModelProvider) (activeProvider : Option String) : Controller :=
  match s.saved.save providers activeProvider with
  | .ok saved => { s with saved := saved, log := s.log ++ [.wrote saved], touched := true }
  | .error _ => s

end Controller

inductive Move where
  | enter (request : Request)
  | resume (d : Draw)
  | thread
  | orphan (n : Nat)
  | cancel
  | write (providers : List ModelProvider) (activeProvider : Option String)

def step (s : Controller) : Move → Controller
  | .enter request => if s.call.isNone then s.goes (.reading request) else s
  | .resume d => s.resume C d
  | .thread => s.runs
  | .orphan n => s.runsOrphan n
  | .cancel => s.cancel
  | .write providers activeProvider => s.write providers activeProvider

/-- A controller before its first activation. -/
def opened (saved : Saved) (running : Option Client) : Controller where
  saved := saved
  running := running
  call := none
  handed := none
  orphans := []
  log := []
  touched := false

end Corvus.Live
