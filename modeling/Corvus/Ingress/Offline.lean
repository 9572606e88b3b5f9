import Corvus.Library.Calendar
import Corvus.Library.Except
import Corvus.Library.Run
import Corvus.Library.Table
import Corvus.Library.Uuid

/-!
# The offline connector

`OfflineConnectorService` of `mvp/ingress.py` over its two tables. Signatures and keys are
abstract: `verifies` says whether a public key accepts the signature of an envelope, its
encodings included. Every method that writes is one transaction, but for
`reconnect_and_reconcile`, which reconciles the queued envelopes in one transaction each.
-/

namespace Corvus.Ingress

/-- A `datetime`, with its offset to UTC unless it is naive. -/
structure Timestamp where
  instant : Instant
  offset : Option Int
deriving DecidableEq, Repr

structure OfflineIntentEnvelope where
  intentId : String
  actorId : String
  audience : String
  scope : String
  issuedAt : Timestamp
  expiresAt : Timestamp
  nonce : String
  idempotencyKey : String
  payloadDigest : String
  payload : List (String × Json)
  signature : String
deriving DecidableEq

structure ActorKeyRow where
  actorId : String
  publicKey : String
  createdAt : Instant

instance : Keyed ActorKeyRow String := ⟨ActorKeyRow.actorId⟩

inductive IntentStatus where
  | queued | applied
deriving DecidableEq, Repr

structure OfflineIntentRow where
  id : String
  actorId : String
  idempotencyKey : String
  envelope : OfflineIntentEnvelope
  status : IntentStatus
  applicationCount : Nat
  result : Option Json
  createdAt : Instant
  updatedAt : Instant
deriving DecidableEq

instance : Keyed OfflineIntentRow String := ⟨OfflineIntentRow.id⟩

inductive IngressError where
  | conflict (code : String)
  | notFound (code : String)
  | integrity (constraint : String)
  | valueError (code : String)
  | typeError
deriving DecidableEq, Repr

/-- The cryptography that the connector calls. -/
structure Crypto extends Digests where
  validKey : String → Bool
  sign : OfflineIntentEnvelope → String
  verifies : String → OfflineIntentEnvelope → Bool

structure Connector where
  connected : Bool
  keys : Table ActorKeyRow
  intents : Table OfflineIntentRow

def Connector.opened : Connector := ⟨true, ∅, ∅⟩

/-! ## Envelopes -/

/-- `sign_intent` of the signer of an actor, with a new id and nonce. -/
def signIntent (C : Crypto) (actorId audience scope : String) (payload : List (String × Json))
    (expiresAt : Timestamp) (intentId nonce : String) (issuedAt : Instant) :
    OfflineIntentEnvelope :=
  let payloadDigest := C.sha256 (Json.dumps (.obj payload))
  let envelope : OfflineIntentEnvelope :=
    { intentId, actorId, audience, scope
      issuedAt := ⟨issuedAt, some 0⟩
      expiresAt, nonce
      idempotencyKey := C.sha256 (Json.dumps (.obj [
        ("intent_id", .str intentId), ("actor_id", .str actorId), ("audience", .str audience),
        ("scope", .str scope), ("payload_digest", .str payloadDigest), ("nonce", .str nonce)]))
      payloadDigest, payload
      signature := "pending" }
  { envelope with signature := C.sign envelope }

/-- `_verify`, at the time at which it looks at the clock. -/
def Connector.verify (C : Crypto) (s : Connector) (checkedAt : Instant)
    (envelope : OfflineIntentEnvelope) : Except IngressError Unit := do
  require envelope.expiresAt.offset.isSome .typeError
  refuse (envelope.expiresAt.instant ≤ checkedAt) (.conflict "envelope_expired")
  -- `compare_digest` refuses to compare other texts
  require (envelope.payloadDigest.toList.all (·.toNat < 128)) .typeError
  require (C.sha256 (Json.dumps (.obj envelope.payload)) = envelope.payloadDigest)
    (.conflict "envelope_payload_digest_mismatch")
  let key ← present (s.keys.get? envelope.actorId) (.conflict "envelope_actor_unknown")
  require (C.verifies key.publicKey envelope) (.conflict "envelope_signature_invalid")

/-- The audience and the scope that `reconcile` asks for. -/
def OfflineIntentEnvelope.local (envelope : OfflineIntentEnvelope) : Prop :=
  envelope.audience = "local-corvus" ∧ "project:".toList <+: envelope.scope.toList

instance (envelope : OfflineIntentEnvelope) : Decidable envelope.local :=
  inferInstanceAs (Decidable (_ ∧ _))

/-- The result of an application. -/
def OfflineIntentEnvelope.result (envelope : OfflineIntentEnvelope) : Json :=
  .obj [("accepted_command", (envelope.payload.lookup "command").getD .null),
    ("payload_digest", .str envelope.payloadDigest)]

/-! ## Statements -/

/-- The row of a new intent. -/
def OfflineIntentEnvelope.row (envelope : OfflineIntentEnvelope) (now : Instant) :
    OfflineIntentRow where
  id := envelope.intentId
  actorId := envelope.actorId
  idempotencyKey := envelope.idempotencyKey
  envelope := envelope
  status := .queued
  applicationCount := 0
  result := none
  createdAt := now
  updatedAt := now

/-- The `INSERT` of a queued intent. -/
def Connector.insert (s : Connector) (envelope : OfflineIntentEnvelope) (now : Instant) :
    Except IngressError Connector := do
  refuse (s.intents.rows.any fun r => r.idempotencyKey = envelope.idempotencyKey)
    (.integrity "mvp_offline_intents.idempotency_key")
  let intents ← present (s.intents.insert? (envelope.row now)) (.integrity "mvp_offline_intents.id")
  return { s with intents }

def Connector.find (s : Connector) (idempotencyKey : String) : Option OfflineIntentRow :=
  s.intents.rows.find? fun r => r.idempotencyKey = idempotencyKey

/-- The intent is stored as queued unless its key is there. -/
def Connector.ensure (s : Connector) (envelope : OfflineIntentEnvelope) (now : Instant) :
    Except IngressError Connector :=
  match s.find envelope.idempotencyKey with
  | none => s.insert envelope now
  | some _ => .ok s

/-- The columns that the `UPDATE` of an application sets. -/
def applying (result : Json) (now : Instant) : Rewrite OfflineIntentRow where
  apply r := { r with
    status := .applied, applicationCount := 1, result := some result, updatedAt := now }
  keeps _ := rfl

def Connector.apply (s : Connector) (envelope : OfflineIntentEnvelope) (now : Instant) :
    Connector :=
  { s with
    intents := s.intents.update
      (fun r => r.idempotencyKey = envelope.idempotencyKey && r.applicationCount = 0)
      (applying envelope.result now) }

/-- The upsert of `register_actor`. -/
def Connector.register (s : Connector) (actorId publicKey : String) (now : Instant) : Connector :=
  match s.keys.insert? ⟨actorId, publicKey, now⟩ with
  | some keys => { s with keys }
  | none =>
      { s with keys := s.keys.update (·.actorId = actorId) ⟨fun r => { r with publicKey },
        fun _ => rfl⟩ }

/-! ## Transactions -/

inductive Transaction where
  | registerActor (actorId publicKey : String) (now : Instant)
  | queueIntent (actorId audience scope : String) (payload : List (String × Json))
      (expiresAt : Timestamp) (intentId nonce : String) (issuedAt now : Instant)
  | reconcile (envelope : OfflineIntentEnvelope) (now checkedAt : Instant)
  | disconnect
  | connect

/-- `reconcile`. -/
def Connector.reconcile (C : Crypto) (s : Connector) (envelope : OfflineIntentEnvelope)
    (now checkedAt : Instant) : Except IngressError Connector := do
  let queued ← s.ensure envelope now
  if (s.find envelope.idempotencyKey).any (·.status = .applied) then return s
  queued.verify C checkedAt envelope
  require envelope.local (.conflict "offline_intent_scope_or_audience_invalid")
  return queued.apply envelope now

/-- `queue_intent` of the connector of an actor. -/
def Connector.queueIntent (C : Crypto) (signer : String) (s : Connector)
    (actorId audience scope : String) (payload : List (String × Json)) (expiresAt : Timestamp)
    (intentId nonce : String) (issuedAt now : Instant) : Except IngressError Connector := do
  refuse s.connected (.conflict "connector_must_be_disconnected_to_queue")
  require (actorId = signer) (.conflict "connector_signer_actor_mismatch")
  s.insert (signIntent C signer audience scope payload expiresAt intentId nonce issuedAt) now

def Connector.perform (C : Crypto) (signer : String) (s : Connector) :
    Transaction → Except IngressError Connector
  | .registerActor actorId publicKey now => do
      require (C.validKey publicKey) (.valueError "invalid_actor_public_key")
      return s.register actorId publicKey now
  | .queueIntent actorId audience scope payload expiresAt intentId nonce issuedAt now =>
      s.queueIntent C signer actorId audience scope payload expiresAt intentId nonce issuedAt now
  | .reconcile envelope now checkedAt => s.reconcile C envelope now checkedAt
  | .disconnect => return { s with connected := false }
  | .connect => return { s with connected := true }

/-- A transaction that raises is rolled back. -/
def Connector.step (C : Crypto) (signer : String) (s : Connector) (t : Transaction) : Connector :=
  match s.perform C signer t with
  | .ok s => s
  | .error _ => s

/-! ## Calls -/

inductive Call where
  | registerActor (actorId publicKey : String) (now : Instant)
  | queueIntent (actorId audience scope : String) (payload : List (String × Json))
      (expiresAt : Timestamp) (intentId nonce : String) (issuedAt now : Instant)
  | reconcile (envelope : OfflineIntentEnvelope) (now checkedAt : Instant)
  | disconnect
  /-- With the readings of the clock for each envelope. -/
  | reconnectAndReconcile (readings : List (Instant × Instant))

/-- The queued envelopes, the oldest first. -/
def Connector.queued (s : Connector) : List OfflineIntentEnvelope :=
  ((s.intents.rows.filter (·.status = .queued)).insertionSort fun a b =>
    a.createdAt ≤ b.createdAt).map (·.envelope)

/-- The transactions of reconciling envelopes in order, up to the first that raises. -/
def Connector.reconcileAll (C : Crypto) (s : Connector) :
    List (OfflineIntentEnvelope × Instant × Instant) → List Transaction
  | [] => []
  | (envelope, now, checkedAt) :: rest =>
      .reconcile envelope now checkedAt ::
        match s.reconcile C envelope now checkedAt with
        | .ok s => s.reconcileAll C rest
        | .error _ => []

/-- The transactions of a call. -/
def Connector.transactions (C : Crypto) (s : Connector) : Call → List Transaction
  | .registerActor actorId publicKey now => [.registerActor actorId publicKey now]
  | .queueIntent actorId audience scope payload expiresAt intentId nonce issuedAt now =>
      [.queueIntent actorId audience scope payload expiresAt intentId nonce issuedAt now]
  | .reconcile envelope now checkedAt => [.reconcile envelope now checkedAt]
  | .disconnect => [.disconnect]
  | .reconnectAndReconcile readings =>
      .connect :: { s with connected := true }.reconcileAll C (s.queued.zip readings)

def Connector.call (C : Crypto) (signer : String) (s : Connector) (c : Call) : Connector :=
  Run.exec (Connector.step C signer) s (s.transactions C c)

end Corvus.Ingress
