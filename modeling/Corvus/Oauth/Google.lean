import Corvus.Library.Except
import Corvus.Library.Text
import Corvus.Oauth.Repository

/-!
# The Google client

`GoogleOAuthClient` of `oauth/google.py`. What a call asks of the clock, of the transport and of
the resolver of secrets may be answered in any way.
-/

namespace Corvus.Oauth

def GOOGLE_AUTHORIZATION_ENDPOINT : String := "https://accounts.google.com/o/oauth2/v2/auth"

def GOOGLE_TOKEN_ENDPOINT : String := "https://oauth2.googleapis.com/token"

def GOOGLE_JWKS_ENDPOINT : String := "https://www.googleapis.com/oauth2/v3/certs"

def GOOGLE_ISSUER : String := "https://accounts.google.com"

/-- `_TRANSACTION_TTL`, ten minutes. -/
def TRANSACTION_TTL : Int := 600000000

/-- The configuration with what `__post_init__` demands of it. -/
structure GoogleOAuthConfig where
  clientId : String
  clientSecretRef : String
  redirectUris : List String
  stateSecret : String
  identified : Text.strip clientId ≠ "" ∧ Text.strip clientSecretRef ≠ ""
  secret_long : 32 ≤ stateSecret.length
  redirects : redirectUris ≠ []

structure OAuthStart where
  authorizationUrl : String
deriving DecidableEq

structure OAuthCallback where
  code : String
  state : String
deriving DecidableEq

structure VerifiedIdentity where
  issuer : String
  subject : String
  email : String
  emailVerified : Bool
  displayName : String
deriving DecidableEq

/-- `_b64url`. -/
def b64url (value : List UInt8) : String :=
  String.ofList ((Base64.encode value).rdropWhile (· = '='))

/-- `urlsafe_b64decode` of a text whose padding has been left out. -/
def b64read (text : List Char) : Option (List UInt8) :=
  Base64.decode (text ++ Base64.padding text.length)

/-- `secrets.token_urlsafe`. -/
def tokenUrlsafe (count : Nat) : Program String := do
  let token ← ask (.tokenBytes count)
  return b64url token.toList

/-- `dict.get` with the type of an integer, of which truth values are. -/
def intOf : Json → Option Int
  | .int n => some n
  | .bool b => some (if b then 1 else 0)
  | _ => none

/-- `int(now.timestamp())`. -/
def timestamp (now : Instant) : Int := now.tdiv 1000000

/-- A value that is there and is not `None`. -/
def given : Option Json → Option Json
  | some .null | none => none
  | some value => some value

section Client

variable (P : Primitives) (config : GoogleOAuthConfig)

/-- `_valid_state`. -/
def validState (state secret : String) : Bool :=
  match b64read state.toList with
  | none => false
  | some payload =>
      payload.length = 64 && b64url payload = state &&
        (P.hmac secret (payload.take 32)).toList = payload.drop 32

/-- `_header`. -/
def tokenHeader (idToken : String) : Except Failure Members :=
  match (b64read (idToken.toList.takeWhile (· ≠ '.'))).bind P.loads with
  | some (.obj payload) => .ok payload
  | _ => .error (.oauth "google_id_token_malformed")

/-! ## Starting a login -/

/-- The state with its authentication. -/
def signedState (random : Vector UInt8 32) : String :=
  b64url (random.toList ++ (P.hmac config.stateSecret random.toList).toList)

def authorizationUrl (redirectUri state nonce verifier : String) : String :=
  GOOGLE_AUTHORIZATION_ENDPOINT ++ "?" ++ Url.urlencode [
    ("client_id", config.clientId),
    ("redirect_uri", redirectUri),
    ("response_type", "code"),
    ("scope", "openid email profile"),
    ("state", state),
    ("nonce", nonce),
    ("code_challenge", b64url (P.digest verifier)),
    ("code_challenge_method", "S256")]

def start (redirectUri : String) : Program OAuthStart := do
  if redirectUri ∉ config.redirectUris then fail "oauth_redirect_uri_forbidden"
  else do
    let now ← ask .clock
    let random ← ask (.tokenBytes 32)
    let nonce ← tokenUrlsafe 32
    let verifier ← tokenUrlsafe 64
    create P (signedState P config random) nonce redirectUri verifier now (now + TRANSACTION_TTL)
    return ⟨authorizationUrl P config redirectUri (signedState P config random) nonce verifier⟩

/-! ## Checking the token -/

/-- `_key_by_id`. -/
def keyById (jwks : Members) (kid : String) : Except Failure (Option Members) :=
  match jwks.lookup "keys" with
  | some (.arr keys) => .ok <| keys.findSome? fun
      | .obj key =>
          if key.lookup "kid" = some (.str kid) ∧ key.lookup "alg" = some (.str "RS256")
          then some key else none
      | _ => none
  | _ => .error (.oauth "google_jwks_invalid")

/-- `jwt.decode`, whose own errors are told as one of the client. -/
def verified (idToken : String) (key : Members) : Except Failure Members :=
  match P.decode idToken key with
  | .error .jose => .error (.oauth "google_id_token_signature_invalid")
  | decoded => decoded

/-- The audience is the client or a list with the client. -/
def addresses (audience : Option Json) : Bool :=
  match audience with
  | some (.str audience) => audience = config.clientId
  | some (.arr audience) => .str config.clientId ∈ audience
  | _ => false

/-- What `_verify_id_token` demands of the claims. -/
def checkClaims (now : Instant) (claims : Members) : Except Failure Unit := do
  require (claims.lookup "iss" = some (.str GOOGLE_ISSUER))
    (.oauth "google_id_token_issuer_invalid")
  require (addresses config (claims.lookup "aud")) (.oauth "google_id_token_audience_invalid")
  require ((given (claims.lookup "azp")).all (· = .str config.clientId))
    (.oauth "google_id_token_authorized_party_invalid")
  require (((claims.lookup "exp").bind intOf).any (timestamp now < ·))
    (.oauth "google_id_token_expired")
  require (((claims.lookup "iat").bind intOf).any (· ≤ timestamp now))
    (.oauth "google_id_token_issued_at_invalid")
  require ((given (claims.lookup "nbf")).all fun nbf => (intOf nbf).any (· ≤ timestamp now))
    (.oauth "google_id_token_not_yet_valid")

def fetchKey (kid : String) : Program (Option Members) := do
  let jwks ← settle (← ask (.fetchJwks GOOGLE_JWKS_ENDPOINT))
  settle (keyById jwks kid)

/-- The keys are fetched once more if the key is not among them. -/
def findKey (kid : String) : Program (Option Members) := do
  let key ← fetchKey kid
  if key.isSome then return key else fetchKey kid

/-- `_verify_id_token`. -/
def verifyIdToken (idToken : String) (now : Instant) : Program Members := do
  let header ← settle (tokenHeader P idToken)
  if header.lookup "alg" ≠ some (.str "RS256") then fail "google_id_token_algorithm_invalid"
  else
    match header.lookup "kid" with
    | some (.str kid) =>
      if kid = "" then fail "google_id_token_key_invalid"
      else do
        let key ← findKey kid
        match key with
        | none => fail "google_id_token_key_unavailable"
        | some key =>
          settle do
            let claims ← verified P idToken key
            checkClaims config now claims
            return claims
    | _ => fail "google_id_token_key_invalid"

/-! ## Ending a login -/

/-- A text that is not blank. -/
def textOf (value : Option Json) : Option String :=
  match value with
  | some (.str text) => if Text.strip text = "" then none else some text
  | _ => none

/-- What is returned of the claims. -/
def identityOf (nonce : String) (claims : Members) : Except Failure VerifiedIdentity := do
  require (claims.lookup "nonce" = some (.str nonce)) (.oauth "google_id_token_nonce_invalid")
  let subject ← present (textOf (claims.lookup "sub")) (.oauth "google_id_token_subject_invalid")
  let email ← present (textOf (claims.lookup "email")) (.oauth "google_email_invalid")
  require (claims.lookup "email_verified" = some (.bool true)) (.oauth "google_email_unverified")
  return {
    issuer := GOOGLE_ISSUER
    subject
    email
    emailVerified := true
    displayName := (textOf (claims.lookup "name")).getD
      (String.ofList (email.toList.takeWhile (· ≠ '@'))) }

def tokenForm (code clientSecret redirectUri pkceVerifier : String) : List (String × String) := [
  ("grant_type", "authorization_code"),
  ("code", code),
  ("client_id", config.clientId),
  ("client_secret", clientSecret),
  ("redirect_uri", redirectUri),
  ("code_verifier", pkceVerifier)]

/-- What `exchange` does with a transaction that it has consumed. -/
def redeem (code : String) (now : Instant) (transaction : OAuthTransaction) :
    Program VerifiedIdentity := do
  let clientSecret ← settle (← ask (.resolve config.clientSecretRef))
  if clientSecret = "" then fail "google_client_secret_unavailable"
  else do
    let tokenResponse ← settle (← ask (.exchangeCode GOOGLE_TOKEN_ENDPOINT
      (tokenForm config code clientSecret transaction.redirectUri transaction.pkceVerifier)))
    match tokenResponse.lookup "id_token" with
    | some (.str idToken) =>
      if idToken = "" then fail "google_id_token_missing"
      else do
        let claims ← verifyIdToken P config idToken now
        settle (identityOf transaction.nonce claims)
    | _ => fail "google_id_token_missing"

def exchange (callback : OAuthCallback) : Program VerifiedIdentity := do
  if callback.code = "" ∨ callback.state = "" then fail "oauth_callback_invalid"
  else if ¬ validState P callback.state config.stateSecret then fail "oauth_state_invalid"
  else do
    let now ← ask .clock
    let transaction ← consume P callback.state now
    redeem P config callback.code now transaction

def abort (state : String) : Program Unit := do
  if state = "" ∨ ¬ validState P state config.stateSecret then fail "oauth_state_invalid"
  else do
    let now ← ask .clock
    let _ ← consume P state now
    return ()

end Client

/-! ## The calls of a client -/

inductive Call where
  | start (redirectUri : String)
  | exchange (callback : OAuthCallback)
  | abort (state : String)
deriving DecidableEq

inductive Result where
  | started (start : OAuthStart)
  | identity (identity : VerifiedIdentity)
  | aborted
deriving DecidableEq

def Call.program (P : Primitives) (config : GoogleOAuthConfig) :
    Call → Dialogue Port Port.Answer (Except Failure Result)
  | .start redirectUri => (Result.started <$> Oauth.start P config redirectUri).run
  | .exchange callback => (Result.identity <$> Oauth.exchange P config callback).run
  | .abort state => ((fun _ => Result.aborted) <$> Oauth.abort P config state).run

/-- A call that is under way or over. -/
abbrev Session := Dialogue.Session Call Port Port.Answer (Except Failure Result)

/-- The calls with the table that they share. -/
abbrev Desk := Dialogue.Desk Call Transactions Port Port.Answer (Except Failure Result)

abbrev Act := Dialogue.Act Call ((q : Port) → q.Answer)

/-- The calls are put on in any order, and the others answer as they will. -/
def serve (P : Primitives) (config : GoogleOAuthConfig) (acts : List Act) : Desk :=
  Run.exec (Dialogue.Desk.step (Call.program P config) Transactions.answer) (.opened ∅) acts

end Corvus.Oauth
