import Corvus.Library.Except
import Corvus.Library.Ordered
import Corvus.Library.Text
import Corvus.Library.Uuid
import Mathlib.Data.Rat.Defs

/-!
# Contents and envelopes

The values that `json.dumps` takes, with keys of several types, and the contents and envelopes
of a context. The canonical text of a value has the members of a dict in the order of the keys;
in the data that is read back from a text the keys are texts.
-/

namespace Corvus.Context

/-- What the functions raise. -/
inductive Refusal where
  | valueError (text : String)
  | typeError (text : String)
  /-- The `TypeError` of comparing two keys of a dict. -/
  | unsortable
  | notJson
  | notText
  deriving DecidableEq

/-! ## JSON-serialisable values -/

/-- A finite float: its value and its `repr`. -/
structure PyFloat where
  value : ℚ
  repr : String
  canonical : Json.Canonical (.float repr)

/-- A key that `json.dumps` takes. -/
inductive Key where
  | str (text : String)
  | int (n : Int)
  | bool (b : Bool)
  | float (x : PyFloat)
  | none

inductive Value where
  | none
  | bool (b : Bool)
  | int (n : Int)
  | float (x : PyFloat)
  | str (text : String)
  | list (items : List Value)
  | dict (members : List (Key × Value))

namespace Key

def isStr : Key → Bool
  | str _ => true
  | _ => false

def isNumber : Key → Bool
  | int _ | bool _ | float _ => true
  | _ => false

def number : Key → ℚ
  | int n => n
  | bool b => if b then 1 else 0
  | float x => x.value
  | str _ | none => 0

/-- `not (l < k)` for two texts or two numbers. -/
def le : Key → Key → Prop
  | str s, str t => s ≤ t
  | k, l => k.number ≤ l.number

instance : DecidableRel le := fun k l => by
  cases k <;> cases l <;> exact inferInstanceAs (Decidable (_ ≤ _))

/-- The name of the member in the text. -/
def text : Key → String
  | str s => s
  | int n => toString n
  | bool true => "true"
  | bool false => "false"
  | float x => x.repr
  | none => "null"

/-- Keys that `sorted` can compare: at most one, texts, or numbers. -/
def comparable (keys : List Key) : Bool :=
  keys.length ≤ 1 || keys.all isStr || keys.all isNumber

end Key

/-- The members of a dict in the order of its keys. -/
def sortKeys {α : Type} (members : List (Key × α)) : List (Key × α) :=
  members.insertionSort fun a b => a.1.le b.1

mutual

/-- What `json.dumps` with `sort_keys` writes, in the order in which it writes it. -/
def toJson : Value → Except Refusal Json
  | .none => pure .null
  | .bool b => pure (.bool b)
  | .int n => pure (.int n)
  | .float x => pure (.float x.repr)
  | .str text => pure (.str text)
  | .list items => do
    let items ← toItems items
    return .arr items
  | .dict members => do
    let members ← toMembers members
    require (Key.comparable (members.map Prod.fst) = true) .unsortable
    return .obj ((sortKeys members).map fun m => (m.1.text, m.2))

def toItems : List Value → Except Refusal (List Json)
  | [] => pure []
  | v :: vs => do
    let x ← toJson v
    let xs ← toItems vs
    return x :: xs

def toMembers : List (Key × Value) → Except Refusal (List (Key × Json))
  | [] => pure []
  | (k, v) :: ms => do
    let x ← toJson v
    let xs ← toMembers ms
    return (k, x) :: xs

end

/-- `_canonical_json`; of data with texts as keys it is `Json.dumps`. -/
def canonicalJson (v : Value) : Except Refusal String := do
  let j ← toJson v
  return String.ofList (Json.compact j)

/-! ## Contents and envelopes -/

inductive ContentOrigin where
  | user | repository | tool | subagent | model | system | policy
  deriving DecidableEq

def ContentOrigin.value : ContentOrigin → String
  | .user => "user"
  | .repository => "repository"
  | .tool => "tool"
  | .subagent => "subagent"
  | .model => "model"
  | .system => "system"
  | .policy => "policy"

inductive TrustClass where
  | untrusted | trusted
  deriving DecidableEq

def TrustClass.value : TrustClass → String
  | .untrusted => "untrusted"
  | .trusted => "trusted"

inductive ContextOwnerKind where
  | root | subagent | conversation | legacyRun
  deriving DecidableEq

def ContextOwnerKind.value : ContextOwnerKind → String
  | .root => "root"
  | .subagent => "subagent"
  | .conversation => "conversation"
  | .legacyRun => "legacy_run"

def externalOrigins : List ContentOrigin := [.user, .repository, .tool, .subagent, .model]

def trustedOrigins : List ContentOrigin := [.system, .policy]

def firewallPolicy : String := "corvus-context-firewall:m005-001:v1"

structure ContextOwner where
  kind : ContextOwnerKind
  id : Uuid
  deriving DecidableEq

def ContextOwner.fields (o : ContextOwner) : List (String × Json) :=
  [("id", .str o.id.text), ("kind", .str o.kind.value)]

inductive Role where
  | system | user
  deriving DecidableEq

def Role.value : Role → String
  | .system => "system"
  | .user => "user"

inductive MessageKind where
  | instruction | data
  deriving DecidableEq

def MessageKind.value : MessageKind → String
  | .instruction => "instruction"
  | .data => "data"

structure ContextMessage where
  role : Role
  kind : MessageKind
  content : String
  deriving DecidableEq

def ContextMessage.asDict (m : ContextMessage) : Json :=
  .obj [("content", .str m.content), ("kind", .str m.kind.value), ("role", .str m.role.value)]

structure ExternalContent where
  id : Uuid
  origin : ContentOrigin
  source : String
  trustClass : TrustClass
  contentDigest : String
  contentJson : String

def Value.isStr : Value → Bool
  | .str _ => true
  | _ => false

variable (sha256 : String → String)

namespace ExternalContent

/-- `ExternalContent._create`, with the identifier that `uuid4` gives. The class methods `user`,
`repository` and so on give the origin and the trust. -/
def create (id : Uuid) (content : Value) (origin : ContentOrigin) (source : String)
    (trustClass : TrustClass) : Except Refusal ExternalContent := do
  refuse (source = "" ∨ Text.strip source = "")
    (.valueError "context source must be non-empty")
  refuse (origin ∈ externalOrigins ∧ trustClass ≠ .untrusted)
    (.valueError "external content cannot be trusted")
  refuse (origin ∈ trustedOrigins ∧ trustClass ≠ .trusted)
    (.valueError "system and policy content must be trusted")
  refuse (origin ∉ externalOrigins ++ trustedOrigins)
    (.valueError ("unsupported context origin: " ++ origin.value))
  refuse (origin ∈ trustedOrigins ∧ content.isStr = false)
    (.typeError "trusted instructions must be strings")
  let contentJson ← canonicalJson content
  return { id, origin, source, trustClass, contentDigest := sha256 contentJson, contentJson }

def data (c : ExternalContent) : Except Refusal Json := present (Json.loads c.contentJson) .notJson

/-- The `data` of a trusted content as the text of a message. -/
def instruction (c : ExternalContent) : Except Refusal String := do
  match ← c.data with
  | .str text => return text
  | _ => throw .notText

/-- The object that the message of an external content holds. -/
def fields (c : ExternalContent) (data : Json) : List (String × Json) :=
  [("content_digest", .str c.contentDigest), ("data", data), ("origin", .str c.origin.value),
    ("source", .str c.source), ("trust_class", .str c.trustClass.value)]

def instructionMessage (c : ExternalContent) : Except Refusal ContextMessage := do
  let content ← c.instruction
  return { role := .system, kind := .instruction, content }

def dataMessage (c : ExternalContent) : Except Refusal ContextMessage := do
  let data ← c.data
  return { role := .user, kind := .data, content := Json.dumps (.obj (c.fields data)) }

/-- `ExternalContent._create` made this content from this value. -/
def MadeFrom (c : ExternalContent) (v : Value) : Prop :=
  create sha256 c.id v c.origin c.source c.trustClass = .ok c

end ExternalContent

structure ContextEnvelope where
  owner : ContextOwner
  trusted : List ExternalContent
  external : List ExternalContent

namespace ContextEnvelope

/-- `ContextEnvelope.compose`, with the checks of `__post_init__`. -/
def compose (owner : ContextOwner) (trusted external : List ExternalContent) :
    Except Refusal ContextEnvelope := do
  refuse (∃ item ∈ trusted, item.trustClass ≠ .trusted)
    (.valueError "trusted channel accepts only trusted system or policy content")
  refuse (∃ item ∈ trusted, item.origin ∉ trustedOrigins)
    (.valueError "trusted channel accepts only system or policy content")
  refuse (∃ item ∈ external, item.trustClass ≠ .untrusted)
    (.valueError "external channel accepts only untrusted content")
  refuse (∃ item ∈ external, item.origin ∉ externalOrigins)
    (.valueError "external channel accepts only external content")
  return { owner, trusted, external }

def messages (e : ContextEnvelope) : Except Refusal (List ContextMessage) := do
  let instructions ← e.trusted.mapM ExternalContent.instructionMessage
  let payloads ← e.external.mapM ExternalContent.dataMessage
  return instructions ++ payloads

/-- The object that the digest of an envelope is taken from. -/
def payload (e : ContextEnvelope) (messages : List ContextMessage) : List (String × Json) :=
  [("owner", .obj e.owner.fields),
    ("messages", .arr (messages.map ContextMessage.asDict)),
    ("firewall_policy_digest", .str (sha256 firewallPolicy))]

def digest (e : ContextEnvelope) : Except Refusal String := do
  let messages ← e.messages
  return sha256 (Json.dumps (.obj (e.payload sha256 messages)))

/-- An envelope that was composed of contents that were made from values. -/
structure Accepted (e : ContextEnvelope) : Prop where
  composed : compose e.owner e.trusted e.external = .ok e
  made : ∀ c ∈ e.trusted ++ e.external, ∃ v, c.MadeFrom sha256 v

end ContextEnvelope

end Corvus.Context
