import Corvus.Library.Lines
import Corvus.Library.Run
import Corvus.Library.Text
import Mathlib.Logic.Function.Basic

/-!
# Credentials of providers

`ProviderCredentialService`: the keyring, the models that a verification has found, and the
verifications that wait for a provider. The keyring knows an owner without the white space around
the name, the models are kept under the name as it is given.
-/

namespace Corvus.Credentials

/-- `ProviderCredentialId`. -/
inductive ProviderId where
  | openai | anthropic | gemini | xai
deriving DecidableEq, Repr

def ProviderId.name : ProviderId → String
  | .openai => "openai"
  | .anthropic => "anthropic"
  | .gemini => "gemini"
  | .xai => "xai"

/-- `_provider_id`. -/
def providerId (provider : String) : Option ProviderId :=
  [ProviderId.openai, .anthropic, .gemini, .xai].find? fun p =>
    p.name.toList = Text.lower (Text.strip provider).toList

/-- `_account`. -/
def account (owner : String) (provider : ProviderId) : Option String :=
  if (Text.strip owner).isEmpty ∨ 512 < (Text.strip owner).length then none
  else some (Text.strip owner ++ ":" ++ provider.name)

inductive Source where
  | keyring | environment | none
deriving DecidableEq, Repr

/-- `ProviderCredentialStatus`. -/
structure Status where
  provider : ProviderId
  configured : Bool
  source : Source
deriving DecidableEq, Repr

/-- What is outside: `os.environ` for each provider, and `_model_ids`, the names that the service
takes from an answer of a provider. -/
structure World (Payload : Type) where
  environment : ProviderId → String
  modelIds : ProviderId → Payload → Option (List String)

/-- A call of `verify` that waits for the provider. -/
structure Verification where
  owner : String
  provider : ProviderId
  credential : String
deriving DecidableEq

/-- A list of models that a provider has given for a credential. -/
structure Listing where
  provider : ProviderId
  credential : String
  models : List String

structure Service where
  keyring : String → Option String
  verifiedModels : String → ProviderId → Option (List String)
  verifying : List Verification
  /-- What the providers have answered so far, which the service does not keep. -/
  listings : List Listing

variable {Payload : Type} (W : World Payload)

namespace Service

/-- A service that starts with a keyring. -/
def start (keyring : String → Option String) : Service := ⟨keyring, fun _ _ => none, [], []⟩

variable (s : Service)

/-- `self._keyring.get_password`, or nothing when the keyring fails or the owner is refused. -/
def getPassword (owner : String) (provider : ProviderId) (storage : Bool) :
    Option (Option String) :=
  if storage then (account owner provider).map s.keyring else none

/-- `status`. -/
def status (owner provider : String) (storage : Bool) : Except String Status :=
  match providerId provider with
  | none => .error "provider_unsupported"
  | some p =>
    if (((s.getPassword owner p storage).getD none).getD "") ≠ "" then .ok ⟨p, true, .keyring⟩
    else if Text.strip (W.environment p) ≠ "" then .ok ⟨p, true, .environment⟩
    else .ok ⟨p, false, .none⟩

/-- `require` for a provider. -/
def required (owner : String) (p : ProviderId) (storage : Bool) : Except String String :=
  match s.getPassword owner p storage with
  | none =>
    if Text.strip (W.environment p) ≠ "" then .ok (Text.strip (W.environment p))
    else .error "secure_storage_unavailable"
  | some stored =>
    let credential := if stored.getD "" ≠ "" then stored.getD "" else W.environment p
    if Text.strip credential = "" then .error "provider_credential_missing"
    else .ok (Text.strip credential)

/-- `require`. -/
def require (owner provider : String) (storage : Bool) : Except String String :=
  match providerId provider with
  | none => .error "provider_unsupported"
  | some p => s.required W owner p storage

/-- `models`. -/
def models (owner : String) (p : ProviderId) : List String := (s.verifiedModels owner p).getD []

/-- `self._verified_models.pop((owner, provider_id), None)`, or the assignment of models. -/
def setModels (owner : String) (p : ProviderId) (value : Option (List String)) : Service :=
  { s with
    verifiedModels := Function.update s.verifiedModels owner
      (Function.update (s.verifiedModels owner) p value) }

/-- `connect`. -/
def connect (owner provider credential : String) (storage : Bool) :
    Except String Status × Service :=
  match providerId provider with
  | none => (.error "provider_unsupported", s)
  | some p =>
    let normalized := Text.strip credential
    if normalized.length < 8 ∨ 16384 < normalized.length then
      (.error "provider_credential_invalid", s)
    else
      match account owner p, storage with
      | some key, true =>
        (.ok ⟨p, true, .keyring⟩,
          { s with keyring := Function.update s.keyring key (some normalized) }.setModels
            owner p none)
      | _, _ => (.error "secure_storage_unavailable", s)

/-- `remove`, whose answer reads the keyring once more. -/
def remove (owner provider : String) (storage readable : Bool) : Except String Status × Service :=
  match providerId provider with
  | none => (.error "provider_unsupported", s)
  | some p =>
    match account owner p, storage with
    | some key, true =>
      let keyring := if (s.keyring key).getD "" ≠ "" then Function.update s.keyring key none
        else s.keyring
      let s' := { s with keyring := keyring }.setModels owner p none
      (s'.status W owner p.name readable, s')
    | _, _ => (.error "secure_storage_unavailable", s)

/-- `verify` up to its await point. -/
def verify (owner provider : String) (storage : Bool) : Service :=
  match providerId provider with
  | none => s
  | some p =>
    match s.required W owner p storage with
    | .error _ => s
    | .ok credential => { s with verifying := s.verifying ++ [⟨owner, p, credential⟩] }

/-- The provider has answered a call of `verify`, or has failed to. -/
def answered (index : Nat) (payload : Option Payload) : Service :=
  match s.verifying[index]? with
  | none => s
  | some v =>
    let s' := { s with verifying := s.verifying.eraseIdx index }
    match payload.bind (W.modelIds v.provider) with
    | none => s'
    | some found =>
      let listing : Listing := ⟨v.provider, v.credential, found⟩
      { s' with listings := s.listings ++ [listing] }.setModels v.owner v.provider (some found)

end Service

/-- A call, with whether the keyring works meanwhile, or the answer to a verification. A call of
`status`, `require` or `models` changes nothing. -/
inductive Input (Payload : Type) where
  | connect (owner provider credential : String) (storage : Bool)
  | remove (owner provider : String) (storage readable : Bool)
  | verify (owner provider : String) (storage : Bool)
  | answered (index : Nat) (payload : Option Payload)

def Service.step (s : Service) : Input Payload → Service
  | .connect owner provider credential storage => (s.connect owner provider credential storage).2
  | .remove owner provider storage readable => (s.remove W owner provider storage readable).2
  | .verify owner provider storage => s.verify W owner provider storage
  | .answered index payload => s.answered W index payload

end Corvus.Credentials
