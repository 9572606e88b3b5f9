import Corvus.Library.Calendar
import Corvus.Library.Except
import Corvus.Library.Run
import Corvus.Library.Table
import Corvus.Library.Uuid
import Mathlib.Data.List.MinMax

/-!
# The repository of the accounts

Accounts with the identities they are signed in by, and the versions of their devices and of
their sessions. A version is never changed: rotating or revoking appends the next one. A method
is one transaction: it returns what it answers with the new tables or, having changed nothing,
the reason of its error.

A caller gives a digest as sixty-four hexadecimal digits and an address as it is normalized.
-/

namespace Corvus.Accounts

/-- What is taken from Python's standard library: the digests, `hmac.new(key, message,
sha256).hexdigest()` of two texts, and the UUID that `UUID(text)` reads. -/
structure Credentials extends Digests where
  hmac : (key message : String) → String
  uuid : String → Option Uuid

/-! ## Records -/

inductive PrincipalKind where
  | user | service | channel
deriving DecidableEq, Repr

structure Principal where
  id : Uuid
  kind : PrincipalKind
  externalProvider : String
  externalSubject : String
deriving DecidableEq

structure Account where
  id : Uuid
  principalId : Uuid
  normalizedEmail : String
deriving DecidableEq

structure ExternalIdentity where
  id : Uuid
  accountId : Uuid
  issuer : String
  subject : String
  normalizedEmail : String
  emailVerified : Bool
deriving DecidableEq

inductive DeviceStatus where
  | active | revoked
deriving DecidableEq, Repr

structure DeviceRegistration where
  id : Uuid
  accountId : Uuid
  publicKeyDigest : String
  status : DeviceStatus
  revokedAt : Option Instant
  version : Nat
  /-- `validate_revocation`. -/
  revocation : status = .revoked ↔ revokedAt.isSome
  /-- `Field(ge=1)`. -/
  version_pos : 1 ≤ version
deriving DecidableEq

theorem DeviceStatus.active_revocation :
    DeviceStatus.active = .revoked ↔ (none : Option Instant).isSome := by
  simp

/-- `model_copy` of a device that is revoked. -/
def DeviceRegistration.revoked (d : DeviceRegistration) (at_ : Instant) : DeviceRegistration :=
  { d with
    version := d.version + 1
    status := .revoked
    revokedAt := some at_
    revocation := by simp
    version_pos := Nat.le_add_left 1 d.version }

inductive SessionStatus where
  | active | revoked
deriving DecidableEq, Repr

/-- A version of a session, whose lineage is valid. -/
structure SessionRecord where
  id : Uuid
  accountId : Uuid
  deviceId : Uuid
  deviceVersion : Nat
  version : Nat
  tokenDigest : Option String
  predecessorDigest : Option String
  status : SessionStatus
  issuedAt : Instant
  expiresAt : Instant
  revokedAt : Option Instant
  expires : issuedAt < expiresAt
  active : status = .active → tokenDigest.isSome ∧ revokedAt = none
  revoked : status = .revoked →
    revokedAt.isSome ∧ tokenDigest = none ∧ predecessorDigest.isSome
  predecessor : predecessorDigest.isSome ↔ 1 < version
  version_pos : 1 ≤ version
deriving DecidableEq

namespace SessionRecord

/-- The first version of a session. -/
def issued (id accountId deviceId : Uuid) (deviceVersion : Nat) (digest : String)
    {now expiresAt : Instant} (expires : now < expiresAt) : SessionRecord where
  id := id
  accountId := accountId
  deviceId := deviceId
  deviceVersion := deviceVersion
  version := 1
  tokenDigest := some digest
  predecessorDigest := none
  status := .active
  issuedAt := now
  expiresAt := expiresAt
  revokedAt := none
  expires := expires
  active := by simp
  revoked := by simp
  predecessor := by simp
  version_pos := Nat.le_refl 1

/-- The next version of a session, with a new token. -/
def rotated (current : SessionRecord) (accountId : Uuid) (deviceVersion : Nat)
    (presented replacement : String) {now expiresAt : Instant} (expires : now < expiresAt) :
    SessionRecord where
  id := current.id
  accountId := accountId
  deviceId := current.deviceId
  deviceVersion := deviceVersion
  version := current.version + 1
  tokenDigest := some replacement
  predecessorDigest := some presented
  status := .active
  issuedAt := now
  expiresAt := expiresAt
  revokedAt := none
  expires := expires
  active := by simp
  revoked := by simp
  predecessor := by simpa [Nat.pos_iff_ne_zero] using Nat.ne_of_gt current.version_pos
  version_pos := Nat.le_add_left 1 current.version

/-- The last version of a session, which has no token. -/
def ended (current : SessionRecord) (accountId : Uuid) (deviceVersion : Nat) (presented : String)
    (at_ : Instant) : SessionRecord where
  id := current.id
  accountId := accountId
  deviceId := current.deviceId
  deviceVersion := deviceVersion
  version := current.version + 1
  tokenDigest := none
  predecessorDigest := some presented
  status := .revoked
  issuedAt := current.issuedAt
  expiresAt := current.expiresAt
  revokedAt := some at_
  expires := current.expires
  active := by simp
  revoked := by simp
  predecessor := by simpa [Nat.pos_iff_ne_zero] using Nat.ne_of_gt current.version_pos
  version_pos := Nat.le_add_left 1 current.version

end SessionRecord

/-- A row of `web_session_bindings`. -/
structure WebSessionBinding where
  sessionId : Uuid
  sessionVersion : Nat
  csrfDigest : String
deriving DecidableEq

structure WebSessionAuthentication where
  account : Account
  session : SessionRecord
  csrfToken : String

structure WebLoginResult extends WebSessionAuthentication where
  sessionToken : String
  deviceToken : Option String

instance : Keyed Principal Uuid := ⟨Principal.id⟩
instance : Keyed Account Uuid := ⟨Account.id⟩
instance : Keyed ExternalIdentity Uuid := ⟨ExternalIdentity.id⟩
instance : Keyed DeviceRegistration (Uuid × Nat) := ⟨fun d => (d.id, d.version)⟩
instance : Keyed SessionRecord (Uuid × Nat) := ⟨fun r => (r.id, r.version)⟩
instance : Keyed WebSessionBinding (Uuid × Nat) := ⟨fun b => (b.sessionId, b.sessionVersion)⟩

/-! ## Credentials -/

namespace Credentials

/-- `_csrf_token`. -/
def csrfToken (C : Credentials) (sessionToken sessionSecret : String) : String :=
  C.hmac sessionSecret ("corvus/web-session-csrf/v1\x00" ++ sessionToken)

/-- `_opaque_credential`, with the text that `secrets.token_urlsafe` has drawn. -/
def opaqueCredential (identifier : Uuid) (drawn : String) : String := identifier.text ++ "." ++ drawn

/-- `_credential_id`. -/
def credentialId (C : Credentials) (value : String) : Option Uuid :=
  match value.toList.dropWhile (· ≠ '.') with
  | [] => none
  | _ :: raw =>
    if raw.length < 43 then none else C.uuid (String.ofList (value.toList.takeWhile (· ≠ '.')))

end Credentials

/-! ## The tables -/

structure Tables where
  principals : Table Principal
  accounts : Table Account
  identities : Table ExternalIdentity
  devices : Table DeviceRegistration
  sessions : Table SessionRecord
  bindings : Table WebSessionBinding

namespace Tables

def bare : Tables where
  principals := ∅
  accounts := ∅
  identities := ∅
  devices := ∅
  sessions := ∅
  bindings := ∅

/-! ## Inserting

Each insertion takes what an `IntegrityError` becomes. -/

def insertPrincipal (s : Tables) (p : Principal) (conflict : String) : Except String Tables := do
  refuse (∃ q ∈ s.principals.rows, q.externalProvider = p.externalProvider ∧
    q.externalSubject = p.externalSubject) conflict
  let principals ← present (s.principals.insert? p) conflict
  return { s with principals := principals }

def insertAccount (s : Tables) (a : Account) (conflict : String) : Except String Tables := do
  let _ ← present (s.principals.get? a.principalId) conflict
  refuse (∃ b ∈ s.accounts.rows, b.principalId = a.principalId ∨
    b.normalizedEmail = a.normalizedEmail) conflict
  let accounts ← present (s.accounts.insert? a) conflict
  return { s with accounts := accounts }

def insertExternalIdentity (s : Tables) (i : ExternalIdentity) (conflict : String) :
    Except String Tables := do
  let _ ← present (s.accounts.get? i.accountId) conflict
  refuse (∃ j ∈ s.identities.rows, j.issuer = i.issuer ∧ j.subject = i.subject) conflict
  let identities ← present (s.identities.insert? i) conflict
  return { s with identities := identities }

def insertDevice (s : Tables) (d : DeviceRegistration) (conflict : String) :
    Except String Tables := do
  let _ ← present (s.accounts.get? d.accountId) conflict
  let devices ← present (s.devices.insert? d) conflict
  return { s with devices := devices }

def insertSession (s : Tables) (r : SessionRecord) (conflict : String) : Except String Tables := do
  let _ ← present (s.accounts.get? r.accountId) conflict
  let d ← present (s.devices.get? (r.deviceId, r.deviceVersion)) conflict
  require (d.accountId = r.accountId) conflict
  refuse (r.tokenDigest.isSome ∧ ∃ q ∈ s.sessions.rows, q.tokenDigest = r.tokenDigest) conflict
  let sessions ← present (s.sessions.insert? r) conflict
  return { s with sessions := sessions }

def insertBinding (s : Tables) (b : WebSessionBinding) (conflict : String) :
    Except String Tables := do
  let _ ← present (s.sessions.get? (b.sessionId, b.sessionVersion)) conflict
  refuse (∃ c ∈ s.bindings.rows, c.csrfDigest = b.csrfDigest) conflict
  let bindings ← present (s.bindings.insert? b) conflict
  return { s with bindings := bindings }

/-! ## Looking up -/

/-- The versions of a device. -/
def devicesOf (s : Tables) (accountId deviceId : Uuid) : List DeviceRegistration :=
  s.devices.rows.filter fun d => d.accountId = accountId ∧ d.id = deviceId

/-- `_latest_device`. -/
def latestDevice (s : Tables) (accountId deviceId : Uuid) : Option DeviceRegistration :=
  (s.devicesOf accountId deviceId).argmax (·.version)

/-- The versions of a session. -/
def sessionsOf (s : Tables) (accountId sessionId : Uuid) : List SessionRecord :=
  s.sessions.rows.filter fun r => r.accountId = accountId ∧ r.id = sessionId

/-- `_latest_session`. -/
def latestSession (s : Tables) (accountId sessionId : Uuid) : Option SessionRecord :=
  (s.sessionsOf accountId sessionId).argmax (·.version)

/-- `_latest_session_by_id`. -/
def latestSessionById (s : Tables) (sessionId : Uuid) : Option SessionRecord :=
  (s.sessions.rows.filter (·.id = sessionId)).argmax (·.version)

/-- `_digest_was_seen`. -/
def DigestWasSeen (s : Tables) (accountId sessionId : Uuid) (digest : String) : Prop :=
  ∃ r ∈ s.sessionsOf accountId sessionId,
    r.tokenDigest = some digest ∨ r.predecessorDigest = some digest

/-- `_replacement_digest_conflicts`. -/
def ReplacementDigestConflicts (s : Tables) (digest : String) : Prop :=
  ∃ r ∈ s.sessions.rows, r.tokenDigest = some digest ∨ r.predecessorDigest = some digest

instance (s : Tables) (accountId sessionId : Uuid) (digest : String) :
    Decidable (s.DigestWasSeen accountId sessionId digest) := by
  unfold DigestWasSeen
  infer_instance

instance (s : Tables) (digest : String) : Decidable (s.ReplacementDigestConflicts digest) := by
  unfold ReplacementDigestConflicts
  infer_instance

/-! ## Accounts -/

/-- `create_preprovisioned_account`. -/
def createPreprovisionedAccount (s : Tables) (p : Principal) (a : Account) :
    Except String Tables := do
  require (p.kind = .user) "account_principal_must_be_user"
  require (a.principalId = p.id) "account_principal_mismatch"
  let s ← s.insertPrincipal p "account_identity_conflict"
  s.insertAccount a "account_identity_conflict"

/-- The identifiers that a login draws. -/
structure LoginDraw where
  accountId : Uuid
  principalId : Uuid
  identityId : Uuid
  deviceId : Uuid
  deviceSecret : String
  sessionId : Uuid
  sessionSecret : String

/-- The account of an address that no identity signs in by, which may have to be made. -/
def accountForEmail (s : Tables) (normalizedEmail : String) (draw : LoginDraw) :
    Except String (Account × Tables) :=
  match s.accounts.rows.find? (·.normalizedEmail = normalizedEmail) with
  | some account => do
    refuse (∃ i ∈ s.identities.rows, i.accountId = account.id) "identity_email_link_conflict"
    let p ← present (s.principals.get? account.principalId) "account_principal_must_be_user"
    require (p.kind = .user) "account_principal_must_be_user"
    return (account, s)
  | none => do
    let account : Account := ⟨draw.accountId, draw.principalId, normalizedEmail⟩
    let s ← s.insertPrincipal
      ⟨draw.principalId, .user, "corvus-account", "account:" ++ draw.accountId.text⟩
      "web_login_conflict"
    let s ← s.insertAccount account "web_login_conflict"
    return (account, s)

/-- `_complete_google_identity`. -/
def completeGoogleIdentity (s : Tables) (issuer subject normalizedEmail : String)
    (draw : LoginDraw) : Except String (Account × Tables) :=
  match s.identities.rows.find? fun i => i.issuer = issuer ∧ i.subject = subject with
  | some identity => do
    require (identity.emailVerified ∧ identity.normalizedEmail = normalizedEmail)
      "external_identity_claim_conflict"
    let account ← present (s.accounts.get? identity.accountId) "external_identity_account_missing"
    return (account, s)
  | none => do
    let (account, s) ← s.accountForEmail normalizedEmail draw
    let s ← s.insertExternalIdentity
      ⟨draw.identityId, account.id, issuer, subject, normalizedEmail, true⟩ "web_login_conflict"
    return (account, s)

/-! ## Devices -/

/-- `append_device`. -/
def appendDevice (s : Tables) (d : DeviceRegistration) : Except String Tables := do
  require (d.version = 1) "initial_device_version_required"
  let _ ← present (s.accounts.get? d.accountId) "device_account_missing"
  s.insertDevice d "device_identity_conflict"

/-- `AccountRepository.revoke_device`. -/
def revokeDevice (s : Tables) (accountId deviceId : Uuid) (revokedAt : Instant) :
    Except String (DeviceRegistration × Tables) := do
  let current ← present (s.latestDevice accountId deviceId) "device_not_found"
  if current.status = .revoked then
    return (current, s)
  let revoked := current.revoked revokedAt
  let s ← s.insertDevice revoked "device_revocation_conflict"
  return (revoked, s)

/-- `PlatformIdentityRepository.revoke_device`. Had the version been taken in the meantime, the
error would be that of a stale version. -/
def revokeDeviceVersion (s : Tables) (accountId deviceId : Uuid) (expectedVersion : Nat)
    (now : Instant) : Except String (DeviceRegistration × Tables) := do
  let current ← present (s.latestDevice accountId deviceId) "device_not_found"
  require (current.version = expectedVersion) "device_version_conflict"
  if current.status = .revoked then
    return (current, s)
  let revoked := current.revoked now
  let s ← s.insertDevice revoked "IntegrityError"
  return (revoked, s)

/-! ## Sessions -/

/-- `create_session`. -/
def createSession (s : Tables) (r : SessionRecord) : Except String Tables := do
  require (r.version = 1 ∧ r.status = .active) "initial_active_session_required"
  let device ← present (s.latestDevice r.accountId r.deviceId) "session_device_missing"
  require (device.status = .active) "session_device_revoked"
  require (r.deviceVersion = device.version) "session_device_version_stale"
  s.insertSession r "session_identity_conflict"

/-- `get_active_session`. -/
def getActiveSession (s : Tables) (accountId : Uuid) (tokenDigest : String) (now : Instant) :
    Option SessionRecord := do
  let matched ← s.sessions.rows.find? fun r =>
    r.accountId = accountId ∧ r.tokenDigest = some tokenDigest
  let current ← s.latestSession accountId matched.id
  guard (current.version = matched.version ∧ current.status = .active ∧ now < current.expiresAt)
  let device ← s.latestDevice accountId current.deviceId
  guard (device.status = .active ∧ current.deviceVersion = device.version)
  return current

/-- The token of a session is the presented one. If it has been at some time, this is a replay. -/
def requireToken (s : Tables) (r : SessionRecord) (presented : String) : Except String Unit :=
  require (r.tokenDigest = some presented)
    (if s.DigestWasSeen r.accountId r.id presented then "session_replay_detected"
    else "session_authentication_failed")

/-- What a `SessionRecord` is refused for. -/
def requireExpiry (now expiresAt : Instant) : Except String (PLift (now < expiresAt)) :=
  if expires : now < expiresAt then .ok ⟨expires⟩ else .error "session_expiry_must_follow_issue"

/-- `rotate_session`. -/
def rotateSession (s : Tables) (accountId sessionId : Uuid) (presented replacement : String)
    (now expiresAt : Instant) : Except String (SessionRecord × Tables) := do
  refuse (replacement = presented) "session_replacement_conflict"
  let current ← present (s.latestSession accountId sessionId) "session_not_found"
  s.requireToken current presented
  require (current.status = .active ∧ now < current.expiresAt) "session_inactive"
  let device ← present (s.latestDevice accountId current.deviceId) "session_device_revoked"
  refuse (device.status = .revoked) "session_device_revoked"
  require (current.deviceVersion = device.version) "session_device_version_stale"
  refuse (s.ReplacementDigestConflicts replacement) "session_replacement_conflict"
  let ⟨expires⟩ ← requireExpiry now expiresAt
  let rotated := current.rotated current.accountId device.version presented replacement expires
  let s ← s.insertSession rotated "session_replacement_conflict"
  return (rotated, s)

/-- `revoke_session`. -/
def revokeSession (s : Tables) (accountId sessionId : Uuid) (presented : String)
    (revokedAt : Instant) : Except String (SessionRecord × Tables) := do
  let current ← present (s.latestSession accountId sessionId) "session_not_found"
  s.requireToken current presented
  let device ← present (s.latestDevice accountId current.deviceId) "session_device_missing"
  require (current.deviceVersion = device.version) "session_device_version_stale"
  let revoked := current.ended current.accountId device.version presented revokedAt
  let s ← s.insertSession revoked "session_revocation_conflict"
  return (revoked, s)

/-! ## Web sessions -/

variable (C : Credentials)

/-- `_authenticate_web_session`. -/
def authenticateWebSession (s : Tables) (sessionToken sessionSecret : String) (now : Instant) :
    Except String WebSessionAuthentication := do
  let sessionId ← present (C.credentialId sessionToken) "session_authentication_failed"
  let session ← present (s.latestSessionById sessionId) "session_authentication_failed"
  s.requireToken session (C.sha256 sessionToken)
  require (session.status = .active ∧ now < session.expiresAt) "session_inactive"
  let device ← present (s.latestDevice session.accountId session.deviceId) "session_device_revoked"
  require (device.status = .active) "session_device_revoked"
  require (session.deviceVersion = device.version) "session_device_version_stale"
  let csrf := C.csrfToken sessionToken sessionSecret
  let binding ← present (s.bindings.get? (session.id, session.version)) "session_binding_invalid"
  require (binding.csrfDigest = C.sha256 csrf) "session_binding_invalid"
  let account ← present (s.accounts.get? session.accountId) "session_account_missing"
  return ⟨account, session, csrf⟩

/-- The device of a login: the one that the browser has shown, if it is in use, or a new one. -/
def loginDevice (s : Tables) (account : Account) (existing : Option String) (draw : LoginDraw) :
    Except String (DeviceRegistration × Option String × Tables) :=
  let shown := existing.bind fun token => (C.credentialId token).bind fun id =>
    (s.latestDevice account.id id).filter fun d =>
      d.status = .active ∧ d.publicKeyDigest = C.sha256 token
  match shown with
  | some device => return (device, none, s)
  | none => do
    let token := Credentials.opaqueCredential draw.deviceId draw.deviceSecret
    let device : DeviceRegistration := ⟨draw.deviceId, account.id, C.sha256 token, .active, none, 1,
      DeviceStatus.active_revocation, Nat.one_pos⟩
    let s ← s.insertDevice device "web_login_conflict"
    return (device, some token, s)

/-- `complete_web_login`. -/
def completeWebLogin (s : Tables) (issuer subject normalizedEmail : String)
    (existingDeviceToken : Option String) (sessionSecret : String) (now expiresAt : Instant)
    (draw : LoginDraw) : Except String (WebLoginResult × Tables) := do
  let (account, s) ← s.completeGoogleIdentity issuer subject normalizedEmail draw
  let (device, deviceToken, s) ← s.loginDevice C account existingDeviceToken draw
  let sessionToken := Credentials.opaqueCredential draw.sessionId draw.sessionSecret
  let ⟨expires⟩ ← requireExpiry now expiresAt
  let session := SessionRecord.issued draw.sessionId account.id device.id device.version
    (C.sha256 sessionToken) expires
  let s ← s.insertSession session "web_login_conflict"
  let csrf := C.csrfToken sessionToken sessionSecret
  let s ← s.insertBinding ⟨session.id, session.version, C.sha256 csrf⟩ "web_login_conflict"
  return (⟨⟨account, session, csrf⟩, sessionToken, deviceToken⟩, s)

/-- `rotate_web_session`. -/
def rotateWebSession (s : Tables) (sessionToken sessionSecret : String) (now expiresAt : Instant)
    (drawn : String) : Except String (WebLoginResult × Tables) := do
  let authenticated ← s.authenticateWebSession C sessionToken sessionSecret now
  let replacementToken := Credentials.opaqueCredential authenticated.session.id drawn
  let replacementDigest := C.sha256 replacementToken
  refuse (s.ReplacementDigestConflicts replacementDigest) "session_replacement_conflict"
  let ⟨expires⟩ ← requireExpiry now expiresAt
  let rotated := authenticated.session.rotated authenticated.account.id
    authenticated.session.deviceVersion (C.sha256 sessionToken) replacementDigest expires
  let s ← s.insertSession rotated "session_replacement_conflict"
  let csrf := C.csrfToken replacementToken sessionSecret
  let s ← s.insertBinding ⟨rotated.id, rotated.version, C.sha256 csrf⟩
    "session_replacement_conflict"
  return (⟨⟨authenticated.account, rotated, csrf⟩, replacementToken, none⟩, s)

/-- `revoke_web_session`. -/
def revokeWebSession (s : Tables) (sessionToken sessionSecret : String) (now : Instant) :
    Except String (SessionRecord × Tables) := do
  let authenticated ← s.authenticateWebSession C sessionToken sessionSecret now
  let revoked := authenticated.session.ended authenticated.account.id
    authenticated.session.deviceVersion (C.sha256 sessionToken) now
  let s ← s.insertSession revoked "session_revocation_conflict"
  return (revoked, s)

end Tables

/-! ## Calls -/

inductive Call where
  | createPreprovisionedAccount (p : Principal) (a : Account)
  | appendDevice (d : DeviceRegistration)
  | revokeDevice (accountId deviceId : Uuid) (revokedAt : Instant)
  | revokeDeviceVersion (accountId deviceId : Uuid) (expectedVersion : Nat) (now : Instant)
  | createSession (r : SessionRecord)
  | getActiveSession (accountId : Uuid) (tokenDigest : String) (now : Instant)
  | rotateSession (accountId sessionId : Uuid) (presented replacement : String)
      (now expiresAt : Instant)
  | revokeSession (accountId sessionId : Uuid) (presented : String) (revokedAt : Instant)
  | completeWebLogin (issuer subject normalizedEmail : String)
      (existingDeviceToken : Option String) (sessionSecret : String) (now expiresAt : Instant)
      (draw : Tables.LoginDraw)
  | authenticateWebSession (sessionToken sessionSecret : String) (now : Instant)
  | rotateWebSession (sessionToken sessionSecret : String) (now expiresAt : Instant)
      (drawn : String)
  | revokeWebSession (sessionToken sessionSecret : String) (now : Instant)

/-- What a call returns. -/
inductive Answer where
  | none
  | device (d : DeviceRegistration)
  | session (r : SessionRecord)
  | authentication (a : WebSessionAuthentication)
  | login (l : WebLoginResult)

namespace Call

variable (C : Credentials)

/-- The transaction of a call. -/
def perform (s : Tables) : Call → Except String (Answer × Tables)
  | createPreprovisionedAccount p a => do
    let s ← s.createPreprovisionedAccount p a
    return (.none, s)
  | appendDevice d => do
    let s ← s.appendDevice d
    return (.none, s)
  | revokeDevice accountId deviceId revokedAt => do
    let (d, s) ← s.revokeDevice accountId deviceId revokedAt
    return (.device d, s)
  | revokeDeviceVersion accountId deviceId expectedVersion now => do
    let (d, s) ← s.revokeDeviceVersion accountId deviceId expectedVersion now
    return (.device d, s)
  | createSession r => do
    let s ← s.createSession r
    return (.none, s)
  | getActiveSession accountId tokenDigest now =>
    return (((s.getActiveSession accountId tokenDigest now).map Answer.session).getD .none, s)
  | rotateSession accountId sessionId presented replacement now expiresAt => do
    let (r, s) ← s.rotateSession accountId sessionId presented replacement now expiresAt
    return (.session r, s)
  | revokeSession accountId sessionId presented revokedAt => do
    let (r, s) ← s.revokeSession accountId sessionId presented revokedAt
    return (.session r, s)
  | completeWebLogin issuer subject email existing secret now expiresAt draw => do
    let (l, s) ← s.completeWebLogin C issuer subject email existing secret now expiresAt draw
    return (.login l, s)
  | authenticateWebSession token secret now => do
    let a ← s.authenticateWebSession C token secret now
    return (.authentication a, s)
  | rotateWebSession token secret now expiresAt drawn => do
    let (l, s) ← s.rotateWebSession C token secret now expiresAt drawn
    return (.login l, s)
  | revokeWebSession token secret now => do
    let (r, s) ← s.revokeWebSession C token secret now
    return (.session r, s)

/-- The tables after a call. One that raises has changed nothing. -/
def step (s : Tables) (call : Call) : Tables :=
  match call.perform C s with
  | .ok (_, s') => s'
  | .error _ => s

end Call

end Corvus.Accounts
