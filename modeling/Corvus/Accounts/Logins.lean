import Corvus.Accounts.Store
import Corvus.Library.ReadCommitted
import Corvus.Library.Text

/-!
# Logins statement by statement

`complete_google_identity` and `complete_web_login` with the two other methods that bind an
account, `create_preprovisioned_account` and `append_external_identity`. Each statement of their
transactions is put for itself, so that the statements of other sessions may come in between.
The constraints are those of `m1_007`, `m2_001` and `m2_001a`; none of the tables has its rows
changed or deleted.
-/

namespace Corvus.Accounts

open Procedure ReadCommitted

/-- What is taken from Python's standard library: the credentials, and
`unicodedata.normalize("NFKC", value).strip().casefold()`. -/
structure Texts extends Credentials where
  folded : String → String

inductive Row where
  | principal (p : Principal)
  | account (a : Account)
  | identity (i : ExternalIdentity)
  | device (d : DeviceRegistration)
  | session (r : SessionRecord)
  | binding (b : WebSessionBinding)
deriving DecidableEq

namespace Row

def principals (rows : List Row) : List Principal :=
  rows.filterMap fun | .principal p => some p | _ => none

def accounts (rows : List Row) : List Account :=
  rows.filterMap fun | .account a => some a | _ => none

def identities (rows : List Row) : List ExternalIdentity :=
  rows.filterMap fun | .identity i => some i | _ => none

def devices (rows : List Row) : List DeviceRegistration :=
  rows.filterMap fun | .device d => some d | _ => none

def sessions (rows : List Row) : List SessionRecord :=
  rows.filterMap fun | .session r => some r | _ => none

/-- The primary keys and the unique constraints. -/
def Clash : Row → Row → Prop
  | .principal p, .principal q =>
      p.id = q.id ∨ p.externalProvider = q.externalProvider ∧ p.externalSubject = q.externalSubject
  | .account a, .account b =>
      a.id = b.id ∨ a.principalId = b.principalId ∨ a.normalizedEmail = b.normalizedEmail
  | .identity i, .identity j => i.id = j.id ∨ i.issuer = j.issuer ∧ i.subject = j.subject
  | .device d, .device e => d.id = e.id ∧ d.version = e.version
  | .session r, .session q =>
      r.id = q.id ∧ r.version = q.version ∨ r.tokenDigest.isSome ∧ r.tokenDigest = q.tokenDigest
  | .binding b, .binding c =>
      b.sessionId = c.sessionId ∧ b.sessionVersion = c.sessionVersion ∨ b.csrfDigest = c.csrfDigest
  | _, _ => False

/-- The foreign keys. -/
def Supported (rows : List Row) : Row → Prop
  | .principal _ => True
  | .account a => ∃ p ∈ principals rows, p.id = a.principalId
  | .identity i => ∃ a ∈ accounts rows, a.id = i.accountId
  | .device d => ∃ a ∈ accounts rows, a.id = d.accountId
  | .session r => (∃ a ∈ accounts rows, a.id = r.accountId) ∧ ∃ d ∈ devices rows,
      d.id = r.deviceId ∧ d.version = r.deviceVersion ∧ d.accountId = r.accountId
  | .binding b => ∃ r ∈ sessions rows, r.id = b.sessionId ∧ r.version = b.sessionVersion

instance : DecidableRel Clash := by
  intro r q
  cases r <;> cases q <;> dsimp only [Clash] <;> infer_instance

instance (rows : List Row) (row : Row) : Decidable (Supported rows row) := by
  cases row <;> dsimp only [Supported] <;> infer_instance

theorem Clash.symm {row row' : Row} (clash : Clash row row') : Clash row' row := by
  cases row <;> cases row' <;> dsimp only [Clash] at clash ⊢ <;> grind

theorem Supported.mono {rows rows' : List Row} {row : Row} (sub : rows ⊆ rows')
    (supported : Supported rows row) : Supported rows' row := by
  have principals : principals rows ⊆ principals rows' := List.filterMap_subset _ sub
  have accounts : accounts rows ⊆ accounts rows' := List.filterMap_subset _ sub
  have devices : devices rows ⊆ devices rows' := List.filterMap_subset _ sub
  have sessions : sessions rows ⊆ sessions rows' := List.filterMap_subset _ sub
  cases row with
  | principal p => trivial
  | account a =>
    obtain ⟨p, mem, same⟩ := supported
    exact ⟨p, principals mem, same⟩
  | identity i =>
    obtain ⟨a, mem, same⟩ := supported
    exact ⟨a, accounts mem, same⟩
  | device d =>
    obtain ⟨a, mem, same⟩ := supported
    exact ⟨a, accounts mem, same⟩
  | session r =>
    obtain ⟨⟨a, mem, same⟩, d, mem', same'⟩ := supported
    exact ⟨⟨a, accounts mem, same⟩, d, devices mem', same'⟩
  | binding b =>
    obtain ⟨r, mem, same⟩ := supported
    exact ⟨r, sessions mem, same⟩

end Row

def schema : Schema Row where
  Clash := Row.Clash
  Supported := Row.Supported
  decClash := inferInstance
  decSupported := inferInstance
  clash_symm := Row.Clash.symm
  supported_mono := Row.Supported.mono

/-! ## Selections -/

inductive Select where
  | identity (issuer subject : String)
  | accountById (id : Uuid)
  | accountByEmail (normalizedEmail : String)
  | identityCount (accountId : Uuid)
  | principal (id : Uuid)
  | latestDevice (accountId deviceId : Uuid)

abbrev Select.Answer : Select → Type
  | .identity .. => Option ExternalIdentity
  | .accountById _ | .accountByEmail _ => Option Account
  | .identityCount _ => Nat
  | .principal _ => Option Principal
  | .latestDevice .. => Option DeviceRegistration

def evaluate : (v : Select) → List Row → v.Answer
  | .identity issuer subject, rows =>
      (Row.identities rows).find? fun i => i.issuer = issuer ∧ i.subject = subject
  | .accountById id, rows => (Row.accounts rows).find? (·.id = id)
  | .accountByEmail normalizedEmail, rows =>
      (Row.accounts rows).find? (·.normalizedEmail = normalizedEmail)
  | .identityCount accountId, rows => (Row.identities rows).countP (·.accountId = accountId)
  | .principal id, rows => (Row.principals rows).find? (·.id = id)
  | .latestDevice accountId deviceId, rows =>
      ((Row.devices rows).filter fun d => d.accountId = accountId ∧ d.id = deviceId).argmax
        (·.version)

inductive Failure where
  | integrity
  | operational
  | validation
  | repository (code : String)

abbrev Query := Statement Select Row

abbrev Query.Answer : Query → Type := Statement.Answer Select.Answer

abbrev Program := Procedure Failure Query Query.Answer

def select (v : Select) : Program v.Answer := do
  settle (present (← ask (.select v)) .operational)

def insert (row : Row) : Program Unit := do
  match ← ask (Q := Query) (.insert row) with
  | .done => return ()
  | .refused => settle (.error .integrity)
  | .failed => settle (.error .operational)

/-- `with self._transaction()`. -/
def transaction {α : Type} (body : Program α) : Program α := do
  let result ← attempt body
  match result with
  | .ok a => do
    let committed ← ask .commit
    if committed then return a
    else
      let _ ← ask .rollback
      settle (.error .operational)
  | .error e => do
    let _ ← ask .rollback
    settle (.error e)

/-- `except IntegrityError`. -/
def onIntegrity {α : Type} (body handler : Program α) : Program α := do
  let result ← attempt body
  match result with
  | .error .integrity => handler
  | result => settle result

/-! ## The methods -/

def createPreprovisionedAccount (p : Principal) (a : Account) : Program Unit := do
  settle (require (p.kind = .user) (.repository "account_principal_must_be_user"))
  settle (require (a.principalId = p.id) (.repository "account_principal_mismatch"))
  onIntegrity
    (transaction do
      insert (.principal p)
      insert (.account a))
    (settle (.error (.repository "account_identity_conflict")))

def appendExternalIdentity (i : ExternalIdentity) : Program Unit :=
  onIntegrity
    (transaction do
      let account ← settle (present (← select (.accountById i.accountId))
        (.repository "external_identity_account_missing"))
      settle (require (account.normalizedEmail = i.normalizedEmail)
        (.repository "external_identity_email_mismatch"))
      insert (.identity i))
    (settle (.error (.repository "external_identity_conflict")))

section Google

variable (T : Texts)

def Texts.normalizeIdentityEmail (value : String) : Option String :=
  let normalized := T.folded value
  if 320 < normalized.length ∨ normalized.toList.count '@' ≠ 1 ∨
      normalized.toList.any Text.isSpace then none
  else
    let localPart := normalized.toList.takeWhile (· ≠ '@')
    let domain := (normalized.toList.dropWhile (· ≠ '@')).tail
    if localPart = [] ∨ domain = [] ∨ domain.head? = some '.' ∨ domain.getLast? = some '.' then none
    else some normalized

/-- `validate_normalized_email`. -/
def validateNormalizedEmail (value : String) : Except Failure Unit :=
  require ((3 ≤ value.length ∧ value.length ≤ 320) ∧ T.normalizeIdentityEmail value = some value)
    .validation

def validateDisplayName (value : String) : Except Failure Unit :=
  require (1 ≤ value.length ∧ value.length ≤ 200) .validation

/-- What has been verified of the one who signs in. -/
structure GoogleLogin where
  issuer : String
  subject : String
  normalizedEmail : String
  displayName : String
  draw : Tables.LoginDraw

/-- The account of an address: one that is there and that no identity signs in to, or a new
one. -/
def accountForEmail (login : GoogleLogin) : Program Account := do
  match ← select (.accountByEmail login.normalizedEmail) with
  | some account =>
    let count ← select (.identityCount account.id)
    settle (refuse (count ≠ 0) (.repository "identity_email_link_conflict"))
    let p ← select (.principal account.principalId)
    settle (require (p.any fun p => p.kind = .user) (.repository "account_principal_must_be_user"))
    return account
  | none =>
    settle (validateDisplayName (Text.strip login.displayName))
    settle (validateNormalizedEmail T login.normalizedEmail)
    let account : Account := ⟨login.draw.accountId, login.draw.principalId, login.normalizedEmail⟩
    insert (.principal
      ⟨login.draw.principalId, .user, "corvus-account", "account:" ++ login.draw.accountId.text⟩)
    insert (.account account)
    return account

/-- `_complete_google_identity`. -/
def googleIdentity (login : GoogleLogin) : Program Account := do
  match ← select (.identity login.issuer login.subject) with
  | some identity =>
    settle (require (identity.emailVerified ∧ identity.normalizedEmail = login.normalizedEmail)
      (.repository "external_identity_claim_conflict"))
    settle (present (← select (.accountById identity.accountId))
      (.repository "external_identity_account_missing"))
  | none =>
    let account ← accountForEmail T login
    settle (require ((1 ≤ login.issuer.length ∧ login.issuer.length ≤ 512) ∧
      1 ≤ login.subject.length ∧ login.subject.length ≤ 512) .validation)
    settle (validateNormalizedEmail T login.normalizedEmail)
    insert (.identity ⟨login.draw.identityId, account.id, login.issuer, login.subject,
      login.normalizedEmail, true⟩)
    return account

/-- What is answered when another session has bound the identity first. -/
def boundMeanwhile (login : GoogleLogin) : Program Account := do
  match ← select (.identity login.issuer login.subject) with
  | some existing =>
    if existing.normalizedEmail = login.normalizedEmail then
      settle (present (← select (.accountById existing.accountId))
        (.repository "external_identity_conflict"))
    else settle (.error (.repository "external_identity_conflict"))
  | none => settle (.error (.repository "external_identity_conflict"))

def completeGoogleIdentity (login : GoogleLogin) : Program Account :=
  onIntegrity (transaction (googleIdentity T login)) (boundMeanwhile login)

end Google

section Web

variable (T : Texts)

/-- The device that the browser has shown, if it is in use. -/
def shownDevice (accountId : Uuid) (existing : Option String) :
    Program (Option DeviceRegistration) := do
  match existing with
  | none => return none
  | some token =>
    match T.credentialId token with
    | none => return none
    | some id =>
      let candidate ← select (.latestDevice accountId id)
      return candidate.filter fun d => d.status = .active ∧ d.publicKeyDigest = T.sha256 token

structure WebLogin extends GoogleLogin where
  existingDeviceToken : Option String
  sessionSecret : String
  now : Instant
  expiresAt : Instant

def loginDevice (accountId : Uuid) (login : WebLogin) :
    Program (DeviceRegistration × Option String) := do
  match ← shownDevice T accountId login.existingDeviceToken with
  | some device => return (device, none)
  | none =>
    let token := Credentials.opaqueCredential login.draw.deviceId login.draw.deviceSecret
    let device : DeviceRegistration := ⟨login.draw.deviceId, accountId, T.sha256 token, .active,
      none, 1, DeviceStatus.active_revocation, Nat.one_pos⟩
    insert (.device device)
    return (device, some token)

/-- What a `SessionRecord` is refused for. -/
def requireExpiry (now expiresAt : Instant) : Except Failure (PLift (now < expiresAt)) :=
  if expires : now < expiresAt then .ok ⟨expires⟩ else .error .validation

/-- What `complete_web_login` does within its transaction. -/
def webLogin (login : WebLogin) : Program WebLoginResult := do
  let account ← googleIdentity T login.toGoogleLogin
  let (device, deviceToken) ← loginDevice T account.id login
  let sessionToken := Credentials.opaqueCredential login.draw.sessionId login.draw.sessionSecret
  let ⟨expires⟩ ← settle (requireExpiry login.now login.expiresAt)
  let session := SessionRecord.issued login.draw.sessionId account.id device.id device.version
    (T.sha256 sessionToken) expires
  insert (.session session)
  let csrf := T.csrfToken sessionToken login.sessionSecret
  insert (.binding ⟨session.id, session.version, T.sha256 csrf⟩)
  return ⟨⟨account, session, csrf⟩, sessionToken, deviceToken⟩

def completeWebLogin (login : WebLogin) : Program WebLoginResult :=
  onIntegrity (transaction (webLogin T login))
    (settle (.error (.repository "web_login_conflict")))

end Web

/-! ## Requests -/

inductive Request where
  | createPreprovisionedAccount (p : Principal) (a : Account)
  | appendExternalIdentity (i : ExternalIdentity)
  | completeGoogleIdentity (login : GoogleLogin)
  | completeWebLogin (login : WebLogin)

/-- What a request ends with: the account that it has signed in to. -/
def Request.program (T : Texts) :
    Request → Dialogue Query Query.Answer (Except Failure (Option Account))
  | .createPreprovisionedAccount p a =>
      ((fun _ => none) <$> Accounts.createPreprovisionedAccount p a).run
  | .appendExternalIdentity i => ((fun _ => none) <$> Accounts.appendExternalIdentity i).run
  | .completeGoogleIdentity login => (some <$> Accounts.completeGoogleIdentity T login).run
  | .completeWebLogin login =>
      ((fun result => some result.account) <$> Accounts.completeWebLogin T login).run

/-- The issuer and the subject that a request signs in with. -/
def Request.login? : Request → Option (String × String)
  | .completeGoogleIdentity login => some (login.issuer, login.subject)
  | .completeWebLogin login => some (login.issuer, login.subject)
  | _ => none

abbrev Server := ReadCommitted.Server Request Select Row Select.Answer
  (Except Failure (Option Account))

def step (T : Texts) : Server → Move Request → Server :=
  Server.step schema evaluate (Request.program T)

/-- The sessions with their statements in the order of the moves. -/
def serve (T : Texts) (moves : List (Move Request)) : Server :=
  Run.exec (step T) .empty moves

end Corvus.Accounts
