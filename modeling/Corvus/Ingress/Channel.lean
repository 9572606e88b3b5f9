import Corvus.Ingress.Offline

/-!
# The channel ingress

`ChannelIngressService` of `mvp/ingress.py` over its three tables. It shares the keys of the
actors, and the checks of an envelope, with the offline connector. Every method is one
transaction.
-/

namespace Corvus.Ingress

structure ChannelEventEnvelope where
  actorId : String
  provider : String
  externalEventId : String
  externalIdentityId : String
  action : String
  issuedAt : Timestamp
  expiresAt : Timestamp
  nonce : String
  payloadDigest : String
  payload : List (String × Json)
  signature : String

structure ChannelIdentityRow where
  provider : String
  externalId : String
  principalId : String
  createdAt : Instant

instance : Keyed ChannelIdentityRow (String × String) := ⟨fun row => (row.provider, row.externalId)⟩

inductive EventStatus where
  | identityUnmapped | stepUpRequired | accepted

structure ChannelEventRow where
  id : String
  provider : String
  externalEventId : String
  actorId : String
  principalId : Option String
  envelope : ChannelEventEnvelope
  status : EventStatus
  processingCount : Nat
  result : Option Json
  createdAt : Instant
  updatedAt : Instant

instance : Keyed ChannelEventRow String := ⟨ChannelEventRow.id⟩

structure ChannelEventRecord where
  id : String
  provider : String
  externalEventId : String
  principalId : Option String
  status : EventStatus
  processingCount : Nat
  result : Option Json

/-- The cryptography that the ingress calls. -/
structure ChannelCrypto extends Digests where
  validKey : String → Bool
  verifies : String → ChannelEventEnvelope → Bool

structure Channel where
  keys : Table ActorKeyRow
  identities : Table ChannelIdentityRow
  events : Table ChannelEventRow

def Channel.opened : Channel := ⟨∅, ∅, ∅⟩

/-! ## Envelopes -/

/-- `_verify` of an envelope whose signature `accepts` compares with a public key. -/
def verifyEnvelope (D : Digests) (keys : Table ActorKeyRow) (checkedAt : Instant) (actorId : String)
    (expiresAt : Timestamp) (payload : List (String × Json)) (payloadDigest : String)
    (accepts : String → Bool) : Except IngressError Unit := do
  require expiresAt.offset.isSome .typeError
  refuse (expiresAt.instant ≤ checkedAt) (.conflict "envelope_expired")
  -- `compare_digest` refuses to compare other texts
  require (payloadDigest.toList.all (·.toNat < 128)) .typeError
  require (D.sha256 (Json.dumps (.obj payload)) = payloadDigest)
    (.conflict "envelope_payload_digest_mismatch")
  let key ← present (keys.get? actorId) (.conflict "envelope_actor_unknown")
  require (accepts key.publicKey) (.conflict "envelope_signature_invalid")

def Channel.verify (C : ChannelCrypto) (s : Channel) (checkedAt : Instant)
    (envelope : ChannelEventEnvelope) : Except IngressError Unit :=
  verifyEnvelope C.toDigests s.keys checkedAt envelope.actorId envelope.expiresAt envelope.payload
    envelope.payloadDigest (C.verifies · envelope)

/-- `_SENSITIVE_ACTIONS`. -/
def sensitiveActions : List String := ["effect.approve", "filesystem.apply", "credential.grant"]

/-- The principal to which the external identity of an envelope is mapped. -/
def Channel.principal (s : Channel) (envelope : ChannelEventEnvelope) : Option String :=
  (s.identities.get? (envelope.provider, envelope.externalIdentityId)).map (·.principalId)

/-- The status of the event of an envelope with a principal. -/
def ChannelEventEnvelope.status (envelope : ChannelEventEnvelope) : Option String → EventStatus
  | none => .identityUnmapped
  | some _ => if envelope.action ∈ sensitiveActions then .stepUpRequired else .accepted

def ChannelEventEnvelope.result (envelope : ChannelEventEnvelope) : Json :=
  .obj [("trusted_action", .str envelope.action),
    ("untrusted_payload_digest", .str envelope.payloadDigest)]

/-- The row of an event that is processed for a principal. -/
def ChannelEventEnvelope.row (envelope : ChannelEventEnvelope) (eventId : String)
    (principalId : Option String) (now : Instant) : ChannelEventRow where
  id := eventId
  provider := envelope.provider
  externalEventId := envelope.externalEventId
  actorId := envelope.actorId
  principalId := principalId
  envelope := envelope
  status := envelope.status principalId
  processingCount := 1
  result := some envelope.result
  createdAt := now
  updatedAt := now

/-- `_event`. -/
def ChannelEventRow.record (row : ChannelEventRow) : ChannelEventRecord where
  id := row.id
  provider := row.provider
  externalEventId := row.externalEventId
  principalId := row.principalId
  status := row.status
  processingCount := row.processingCount
  result := row.result

/-! ## Statements -/

/-- An actor's new key is kept under the actor. -/
theorem key_rekeyed (publicKey : String) (r : ActorKeyRow) : key { r with publicKey } = key r := rfl

/-- The upsert of `register_actor`. -/
def Channel.register (s : Channel) (actorId publicKey : String) (now : Instant) : Channel :=
  match s.keys.insert? ⟨actorId, publicKey, now⟩ with
  | some keys => { s with keys }
  | none =>
      { s with keys := s.keys.update (·.actorId = actorId) ⟨fun r => { r with publicKey },
        key_rekeyed publicKey⟩ }

/-- The upsert of `map_identity`. -/
def Channel.map (s : Channel) (provider externalId principalId : String) (now : Instant) :
    Channel :=
  match s.identities.insert? ⟨provider, externalId, principalId, now⟩ with
  | some identities => { s with identities }
  | none =>
      { s with
        identities := s.identities.update
          (fun r => r.provider = provider && r.externalId = externalId)
          ⟨fun r => { r with principalId }, fun _ => rfl⟩ }

/-- The event that a provider has sent under an id. -/
def Channel.find (s : Channel) (provider externalEventId : String) : Option ChannelEventRow :=
  s.events.rows.find? fun r => r.provider = provider && r.externalEventId = externalEventId

/-- The `INSERT` of an event. -/
def Channel.insert (s : Channel) (row : ChannelEventRow) : Except IngressError Channel := do
  refuse (s.find row.provider row.externalEventId).isSome
    (.integrity "mvp_channel_events.provider, mvp_channel_events.external_event_id")
  let events ← present (s.events.insert? row) (.integrity "mvp_channel_events.id")
  return { s with events }

/-! ## Calls -/

/-- `ingest`, which draws the id of the event. -/
def Channel.ingest (C : ChannelCrypto) (s : Channel) (envelope : ChannelEventEnvelope)
    (now checkedAt : Instant) (eventId : String) :
    Except IngressError (Channel × ChannelEventRecord) :=
  match s.find envelope.provider envelope.externalEventId with
  | some existing => return (s, existing.record)
  | none => do
    s.verify C checkedAt envelope
    let s ← s.insert (envelope.row eventId (s.principal envelope) now)
    let row ← present (s.events.get? eventId) (.notFound "channel_event_not_found")
    return (s, row.record)

inductive ChannelCall where
  | registerActor (actorId publicKey : String) (now : Instant)
  | mapIdentity (provider externalId principalId : String) (now : Instant)
  | ingest (envelope : ChannelEventEnvelope) (now checkedAt : Instant) (eventId : String)

def Channel.perform (C : ChannelCrypto) (s : Channel) : ChannelCall → Except IngressError Channel
  | .registerActor actorId publicKey now => do
      require (C.validKey publicKey) (.valueError "invalid_actor_public_key")
      return s.register actorId publicKey now
  | .mapIdentity provider externalId principalId now =>
      return s.map provider externalId principalId now
  | .ingest envelope now checkedAt eventId =>
      Prod.fst <$> s.ingest C envelope now checkedAt eventId

/-- A call that raises is rolled back. -/
def Channel.step (C : ChannelCrypto) (s : Channel) (c : ChannelCall) : Channel :=
  match s.perform C c with
  | .ok s => s
  | .error _ => s

end Corvus.Ingress
