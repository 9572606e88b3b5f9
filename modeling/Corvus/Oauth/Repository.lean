import Corvus.Library.Calendar
import Corvus.Library.Desk
import Corvus.Library.Encodings
import Corvus.Library.Loads
import Corvus.Library.Procedure
import Corvus.Library.Table
import Corvus.Library.Uuid

/-!
# The repository of the OAuth transactions

What `oauth/repository.py` does with the table `oauth_transactions`, one question for each of its
statements. A transaction of the repository is committed with its last statement, and a row that
is being changed by one of them is waited for by the others.
-/

namespace Corvus.Oauth

/-- What a call raises: an `OAuthError`, a `JoseError`, or anything else. -/
inductive Failure where
  | oauth (reason : String)
  | jose
  | other
deriving DecidableEq, Repr

/-- A dictionary of JSON values. -/
abbrev Members := List (String × Json)

/-- What is taken from Python's library and from `cryptography` and `authlib`:
`hashlib.sha256(text).digest()`, `hmac.digest(key, message, "sha256")`, the two sides of the
repository's Fernet cipher, `json.loads` of bytes, and `jwt.decode`. -/
structure Primitives extends Digests where
  digest : String → List UInt8
  hmac : (key : String) → (message : List UInt8) → Vector UInt8 32
  encrypt : (time : Instant) → (iv : Vector UInt8 16) → List UInt8 → String
  decrypt : String → Option (List UInt8)
  loads : List UInt8 → Option Json
  decode : (token : String) → (key : Members) → Except Failure Members

/-! ## Records -/

structure OAuthTransactionRow where
  id : Uuid
  stateDigest : String
  nonceDigest : String
  redirectUri : String
  encryptedPkceVerifier : String
  createdAt : Instant
  expiresAt : Instant
  consumedAt : Option Instant
  version : Nat
deriving DecidableEq

instance : Keyed OAuthTransactionRow Uuid := ⟨OAuthTransactionRow.id⟩

structure OAuthTransaction where
  id : Uuid
  stateDigest : String
  nonceDigest : String
  nonce : String
  redirectUri : String
  pkceVerifier : String
  expiresAt : Instant
  consumedAt : Option Instant
  version : Nat
deriving DecidableEq

/-! ## What a call asks of others -/

inductive Port where
  /-- The clock of the client. -/
  | clock
  /-- The clock of the cipher. -/
  | time
  /-- `secrets.token_bytes` and `os.urandom`. -/
  | tokenBytes (count : Nat)
  | uuid4
  | insert (row : OAuthTransactionRow)
  | find (stateDigest : String)
  | expire (id : Uuid) (now : Instant)
  | claim (id : Uuid) (version : Nat) (now : Instant)
  | resolve (reference : String)
  | exchangeCode (endpoint : String) (form : List (String × String))
  | fetchJwks (endpoint : String)

/-- An insertion is accepted or refused, and a claim tells the number of rows it has changed. -/
abbrev Port.Answer : Port → Type
  | clock | time => Instant
  | tokenBytes count => Vector UInt8 count
  | uuid4 => Uuid
  | insert _ => Bool
  | find _ => Option OAuthTransactionRow
  | expire _ _ => Unit
  | claim _ _ _ => Nat
  | resolve _ => Except Failure String
  | exchangeCode _ _ | fetchJwks _ => Except Failure Members

abbrev Program (α : Type) := Procedure Failure Port Port.Answer α

def ask (q : Port) : Program q.Answer := Procedure.ask q

export Procedure (settle)

def fail {α : Type} (reason : String) : Program α := throw (.oauth reason)

/-! ## The table -/

abbrev Transactions := Table OAuthTransactionRow

namespace Transactions

/-- The `INSERT`, under the primary key and `uq_oauth_transactions_state_digest`. -/
def insert (s : Transactions) (row : OAuthTransactionRow) : Option Transactions :=
  if s.rows.any (·.stateDigest = row.stateDigest) then none else s.insert? row

def find (s : Transactions) (stateDigest : String) : Option OAuthTransactionRow :=
  s.rows.find? (·.stateDigest = stateDigest)

def consumed (now : Instant) : Rewrite OAuthTransactionRow where
  apply row := { row with consumedAt := some now, version := row.version + 1 }
  keeps _ := rfl

/-- `id = :id AND consumed_at IS NULL`. -/
def isOpen (id : Uuid) (row : OAuthTransactionRow) : Bool := row.id = id && row.consumedAt.isNone

/-- `id = :id AND consumed_at IS NULL AND version = :version`. -/
def isClaimed (id : Uuid) (version : Nat) (row : OAuthTransactionRow) : Bool :=
  isOpen id row && row.version = version

/-- The repository answers for its table, and for everything else there are others. -/
def answer (others : (q : Port) → q.Answer) (q : Port) (s : Transactions) :
    q.Answer × Transactions :=
  match q with
  | .insert row =>
      match s.insert row with
      | some s' => (true, s')
      | none => (false, s)
  | .find stateDigest => (s.find stateDigest, s)
  | .expire id now => ((), s.update (isOpen id) (consumed now))
  | .claim id version now =>
      ((s.rows.filter (isClaimed id version)).length,
        s.update (isClaimed id version) (consumed now))
  | q => (others q, s)

end Transactions

/-! ## The repository -/

section Repository

variable (P : Primitives)

/-- `_digest`. -/
def digest (value : String) : String := P.sha256 value

def protectedValues (nonce pkceVerifier : String) : Json :=
  .obj [("nonce", .str nonce), ("pkce_verifier", .str pkceVerifier)]

/-- `Fernet.encrypt`. -/
def encrypted (values : List UInt8) : Program String := do
  let time ← ask .time
  let iv ← ask (.tokenBytes 16)
  return P.encrypt time iv values

def create (state nonce redirectUri pkceVerifier : String) (createdAt expiresAt : Instant) :
    Program Unit := do
  let encryptedPkceVerifier ← encrypted P (utf8 (protectedValues nonce pkceVerifier).dumpsAscii)
  let id ← ask .uuid4
  let accepted : Bool ← ask (.insert
    { id
      stateDigest := digest P state
      nonceDigest := digest P nonce
      redirectUri
      encryptedPkceVerifier
      createdAt
      expiresAt
      consumedAt := none
      version := 1 })
  if accepted then return () else fail "oauth_transaction_conflict"

/-- What a row that has been claimed protects. -/
def disclose (row : OAuthTransactionRow) : Except Failure (String × String) :=
  match (P.decrypt row.encryptedPkceVerifier).bind P.loads with
  | some (.obj values) =>
      match values.lookup "nonce", values.lookup "pkce_verifier" with
      | some (.str nonce), some (.str verifier) =>
          if digest P nonce ≠ row.nonceDigest then .error (.oauth "oauth_transaction_nonce_corrupt")
          else .ok (nonce, verifier)
      | _, _ => .error (.oauth "oauth_transaction_decryption_failed")
  | _ => .error (.oauth "oauth_transaction_decryption_failed")

def consume (state : String) (now : Instant) : Program OAuthTransaction := do
  let found : Option OAuthTransactionRow ← ask (.find (digest P state))
  match found with
  | none => fail "oauth_transaction_invalid"
  | some row =>
    if row.consumedAt.isSome then fail "oauth_transaction_consumed"
    else if row.expiresAt ≤ now then do
      let _ ← ask (.expire row.id now)
      fail "oauth_transaction_expired"
    else do
      let rowcount : Nat ← ask (.claim row.id row.version now)
      if rowcount ≠ 1 then fail "oauth_transaction_consumed"
      else do
        let (nonce, verifier) ← settle (disclose P row)
        return {
          id := row.id
          stateDigest := row.stateDigest
          nonceDigest := row.nonceDigest
          nonce
          redirectUri := row.redirectUri
          pkceVerifier := verifier
          expiresAt := row.expiresAt
          consumedAt := some now
          version := row.version + 1 }

end Repository

end Corvus.Oauth
