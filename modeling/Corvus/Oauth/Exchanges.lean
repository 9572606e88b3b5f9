import Corvus.Oauth.Issued

/-!
# What the calls exchange

Each call of the client, read off what it has exchanged: a start that has inserted its row, a
transaction that has been consumed, and an exchange that has returned an identity.
-/

namespace Corvus.Oauth

open Dialogue (Follows follows_ask follows_done)

/-! ## States -/

section States

variable {P : Primitives} {config : GoogleOAuthConfig}

theorem toList_b64url (value : List UInt8) : (b64url value).toList = Base64.digits value := by
  rw [b64url, String.toList_ofList, Base64.rdropWhile_encode]

theorem b64read_b64url (value : List UInt8) : b64read (b64url value).toList = some value := by
  rw [toList_b64url, b64read, Base64.decode_digits]

theorem validState_signedState (random : Vector UInt8 32) :
    validState P (signedState P config random) config.stateSecret = true := by
  have long : random.toList.length = 32 := by simp
  rw [validState, signedState, b64read_b64url]
  simp only [List.length_append, Vector.length_toList, decide_true, Bool.true_and, Bool.and_true,
    decide_eq_true_eq]
  rw [List.take_left' long, List.drop_left' long]

theorem signedState_ne_empty (random : Vector UInt8 32) : signedState P config random ≠ "" := by
  intro empty
  have valid : validState P (signedState P config random) config.stateSecret = true :=
    validState_signedState random
  rw [empty] at valid
  nomatch valid

end States

/-! ## Starting -/

/-- What a start has drawn. -/
structure Issue where
  createdAt : Instant
  random : Vector UInt8 32
  nonce : Vector UInt8 32
  verifier : Vector UInt8 64
  time : Instant
  iv : Vector UInt8 16
  id : Uuid

namespace Issue

variable (P : Primitives) (config : GoogleOAuthConfig) (redirectUri : String) (issue : Issue)

def state : String := signedState P config issue.random

def nonceText : String := b64url issue.nonce.toList

def pkceVerifier : String := b64url issue.verifier.toList

def expiresAt : Instant := issue.createdAt + TRANSACTION_TTL

def row : OAuthTransactionRow where
  id := issue.id
  stateDigest := digest P (issue.state P config)
  nonceDigest := digest P issue.nonceText
  redirectUri := redirectUri
  encryptedPkceVerifier := P.encrypt issue.time issue.iv
    (utf8 (protectedValues issue.nonceText issue.pkceVerifier).dumpsAscii)
  createdAt := issue.createdAt
  expiresAt := issue.expiresAt
  consumedAt := none
  version := 1

/-- The exchanges of a start that has stored what it has drawn. -/
def transcript : List (Exchange Port Port.Answer) := [
  ⟨.clock, issue.createdAt⟩,
  ⟨.tokenBytes 32, issue.random⟩,
  ⟨.tokenBytes 32, issue.nonce⟩,
  ⟨.tokenBytes 64, issue.verifier⟩,
  ⟨.time, issue.time⟩,
  ⟨.tokenBytes 16, issue.iv⟩,
  ⟨.uuid4, issue.id⟩,
  ⟨.insert (issue.row P config redirectUri), true⟩]

/-- A start that has ended with the state. -/
structure Made (c : Session) : Prop where
  request : c.request = .start redirectUri
  allowed : redirectUri ∈ config.redirectUris
  transcript : c.transcript = issue.transcript P config redirectUri
  rest : c.rest = .done (.ok (.started ⟨authorizationUrl P config redirectUri
    (issue.state P config) issue.nonceText issue.pkceVerifier⟩))

end Issue

section Starting

variable {P : Primitives} {config : GoogleOAuthConfig} {redirectUri : String} {call : Call}
  {t : List (Exchange Port Port.Answer)} {p : Dialogue Port Port.Answer (Except Failure Result)}
  {row : OAuthTransactionRow}

/-- A start that has inserted a row has ended, and the row is made of what it has drawn. -/
theorem start_inserted (followed : Follows ((Call.start redirectUri).program P config) t p)
    (inserted : ⟨.insert row, true⟩ ∈ t) :
    ∃ issue : Issue, row = issue.row P config redirectUri ∧
      issue.Made P config redirectUri ⟨.start redirectUri, t, p⟩ := by
  have allowed : redirectUri ∈ config.redirectUris := by
    by_contra forbidden
    have refused : (Call.start redirectUri).program P config =
        .done (.error (.oauth "oauth_redirect_uri_forbidden")) := by
      rw [Call.program, start, if_pos forbidden]
      rfl
    rw [refused] at followed
    obtain ⟨rfl, -⟩ := follows_done.mp followed
    exact absurd inserted List.not_mem_nil
  rw [Call.program, start, if_neg (not_not_intro allowed)] at followed
  obtain ⟨createdAt, t, rfl, inserted, followed⟩ := Follows.past followed inserted nofun
  obtain ⟨random, t, rfl, inserted, followed⟩ := Follows.past followed inserted nofun
  obtain ⟨nonce, t, rfl, inserted, followed⟩ := Follows.past followed inserted nofun
  obtain ⟨verifier, t, rfl, inserted, followed⟩ := Follows.past followed inserted nofun
  obtain ⟨time, t, rfl, inserted, followed⟩ := Follows.past followed inserted nofun
  obtain ⟨iv, t, rfl, inserted, followed⟩ := Follows.past followed inserted nofun
  obtain ⟨id, t, rfl, inserted, followed⟩ := Follows.past followed inserted nofun
  obtain ⟨rfl, -⟩ | ⟨accepted, t, rfl, stored⟩ := follows_ask.mp followed
  · exact absurd inserted List.not_mem_nil
  have ended : t = [] := by
    cases accepted with
    | true => exact (follows_done.mp stored).1
    | false => exact (follows_done.mp stored).1
  subst ended
  have same := List.mem_singleton.mp inserted
  obtain ⟨asked, answered⟩ := Exchange.mk.inj same
  obtain rfl : true = accepted := eq_of_heq answered
  obtain ⟨-, rfl⟩ := follows_done.mp stored
  exact ⟨⟨createdAt, random, nonce, verifier, time, iv, id⟩, Port.insert.inj asked,
    ⟨rfl, allowed, rfl, rfl⟩⟩

/-- A question that inserts nothing. -/
def Reads (q : Port) : Prop := ∀ row, q ≠ .insert row

theorem consume_reads (state : String) (now : Instant) :
    (consume P state now).run.Within Reads fun _ => True := by
  refine Procedure.within_ask nofun fun found => ?_
  cases found with
  | none => exact trivial
  | some row =>
    dsimp only
    split
    · exact trivial
    split
    · exact Procedure.within_ask nofun fun _ => trivial
    · refine Procedure.within_ask nofun fun rowcount => ?_
      split
      · exact trivial
      · cases disclose P row with
        | ok values => exact trivial
        | error e => exact trivial

theorem fetchKey_reads (kid : String) : (fetchKey kid).run.Within Reads fun _ => True := by
  refine Procedure.within_ask nofun fun jwks => ?_
  cases jwks with
  | ok jwks => exact Procedure.within_settle trivial
  | error e => exact trivial

theorem findKey_reads (kid : String) : (findKey kid).run.Within Reads fun _ => True := by
  refine Procedure.within_bind (fetchKey_reads kid) (fun key _ => ?_) fun _ _ => trivial
  split
  · exact trivial
  · exact fetchKey_reads kid

theorem verifyIdToken_reads (idToken : String) (now : Instant) :
    (verifyIdToken P config idToken now).run.Within Reads fun _ => True := by
  rw [verifyIdToken]
  cases tokenHeader P idToken with
  | error e => exact trivial
  | ok header =>
    rw [Procedure.settle_ok_bind]
    split
    · exact trivial
    split
    · next kid _ =>
      split
      · exact trivial
      refine Procedure.within_bind (findKey_reads kid) (fun key _ => ?_) fun _ _ => trivial
      cases key with
      | none => exact trivial
      | some key => exact Procedure.within_settle trivial
    · exact trivial

theorem redeem_reads (code : String) (now : Instant) (transaction : OAuthTransaction) :
    (redeem P config code now transaction).run.Within Reads fun _ => True := by
  refine Procedure.within_ask nofun fun clientSecret => ?_
  cases clientSecret with
  | error e => exact trivial
  | ok clientSecret =>
    rw [Procedure.settle_ok_bind]
    split
    · exact trivial
    refine Procedure.within_ask nofun fun tokenResponse => ?_
    cases tokenResponse with
    | error e => exact trivial
    | ok tokenResponse =>
      rw [Procedure.settle_ok_bind]
      split
      · split
        · exact trivial
        refine Procedure.within_bind (verifyIdToken_reads _ now) (fun claims _ => ?_)
          fun _ _ => trivial
        exact Procedure.within_settle trivial
      · exact trivial

/-- Only starts insert rows. -/
theorem request_of_inserted {c : Session}
    (followed : Follows (c.request.program P config) c.transcript c.rest)
    (inserted : ⟨.insert row, true⟩ ∈ c.transcript) :
    ∃ redirectUri, c.request = .start redirectUri := by
  have silent : ∀ {α : Type} (p : Program α) (w : α → Result), p.run.Within Reads (fun _ => True) →
      Follows (w <$> p).run c.transcript c.rest → False := by
    intro α p w reads followed
    have reads' := Procedure.within_map (B := fun _ => True) (w := w) reads (fun _ _ => trivial)
      fun _ _ => trivial
    exact (reads'.follows followed).1 _ inserted row rfl
  cases request : c.request with
  | start redirectUri => exact ⟨redirectUri, rfl⟩
  | exchange callback =>
    rw [request] at followed
    refine (silent _ _ ?_ followed).elim
    rw [exchange]
    split
    · exact trivial
    split
    · exact trivial
    refine Procedure.within_ask nofun fun now => ?_
    refine Procedure.within_bind (consume_reads _ now) (fun transaction _ => ?_) fun _ _ => trivial
    exact redeem_reads _ now transaction
  | abort state =>
    rw [request] at followed
    refine (silent _ _ ?_ followed).elim
    rw [abort]
    split
    · exact trivial
    refine Procedure.within_ask nofun fun now => ?_
    exact Procedure.within_bind (consume_reads _ now) (fun _ _ => trivial) fun _ _ => trivial

end Starting

/-! ## Ending -/

/-- What an exchange has seen beside the transaction. -/
structure Evidence where
  clientSecret : String
  tokenResponse : Members
  idToken : String
  header : Members
  kid : String
  jwks : Members
  keys : List Json
  key : Members
  claims : Members
  exp : Int

/-- An identity is returned for the code, which has been exchanged with the redirect URI and the
verifier, and for a token that is verified under a key of its own key id. -/
structure Evidence.Supports (e : Evidence) (P : Primitives) (config : GoogleOAuthConfig)
    (code redirectUri pkceVerifier nonce : String) (now : Instant)
    (t : List (Exchange Port Port.Answer)) (identity : VerifiedIdentity) : Prop where
  exchanged : ⟨.exchangeCode GOOGLE_TOKEN_ENDPOINT
    (tokenForm config code e.clientSecret redirectUri pkceVerifier), .ok e.tokenResponse⟩ ∈ t
  idToken : e.tokenResponse.lookup "id_token" = some (.str e.idToken)
  header : tokenHeader P e.idToken = .ok e.header
  algorithm : e.header.lookup "alg" = some (.str "RS256")
  kid : e.header.lookup "kid" = some (.str e.kid)
  fetched : ⟨.fetchJwks GOOGLE_JWKS_ENDPOINT, .ok e.jwks⟩ ∈ t
  listed : e.jwks.lookup "keys" = some (.arr e.keys) ∧ .obj e.key ∈ e.keys
  key_kid : e.key.lookup "kid" = some (.str e.kid)
  key_algorithm : e.key.lookup "alg" = some (.str "RS256")
  signed : P.decode e.idToken e.key = .ok e.claims
  issuer : e.claims.lookup "iss" = some (.str GOOGLE_ISSUER) ∧ identity.issuer = GOOGLE_ISSUER
  audience : addresses config (e.claims.lookup "aud") = true
  unexpired : (e.claims.lookup "exp").bind intOf = some e.exp ∧ timestamp now < e.exp
  nonce : e.claims.lookup "nonce" = some (.str nonce)
  subject : e.claims.lookup "sub" = some (.str identity.subject)
  email : e.claims.lookup "email" = some (.str identity.email)
  email_verified : e.claims.lookup "email_verified" = some (.bool true) ∧
    identity.emailVerified = true

/-- The exchanges that matter stay where more has been exchanged. -/
theorem Evidence.Supports.mono {e : Evidence} {P : Primitives} {config : GoogleOAuthConfig}
    {code redirectUri pkceVerifier nonce : String} {now : Instant}
    {t u : List (Exchange Port Port.Answer)} {identity : VerifiedIdentity}
    (supports : e.Supports P config code redirectUri pkceVerifier nonce now t identity)
    (more : ∀ x ∈ t, x ∈ u) :
    e.Supports P config code redirectUri pkceVerifier nonce now u identity :=
  { supports with
    exchanged := more _ supports.exchanged
    fetched := more _ supports.fetched }

section Ending

variable {P : Primitives} {config : GoogleOAuthConfig} {t : List (Exchange Port Port.Answer)}
  {now : Instant} {claims : Members} {identity : VerifiedIdentity} {state nonce : String}

theorem textOf_eq_some {value : Option Json} {text : String} (found : textOf value = some text) :
    value = some (.str text) := by
  match value with
  | some (.str written) =>
    rw [textOf] at found
    split at found
    · nomatch found
    · rw [Option.some.inj found]
  | none => nomatch found

theorem identityOf_ok (returned : identityOf nonce claims = .ok identity) :
    claims.lookup "nonce" = some (.str nonce) ∧
      claims.lookup "sub" = some (.str identity.subject) ∧
        claims.lookup "email" = some (.str identity.email) ∧
          claims.lookup "email_verified" = some (.bool true) ∧
            identity.issuer = GOOGLE_ISSUER ∧ identity.emailVerified = true := by
  obtain ⟨⟨⟩, same, returned⟩ := bind_eq_ok.mp returned
  obtain ⟨subject, its_subject, returned⟩ := bind_eq_ok.mp returned
  obtain ⟨email, its_email, returned⟩ := bind_eq_ok.mp returned
  obtain ⟨⟨⟩, is_verified, returned⟩ := bind_eq_ok.mp returned
  obtain rfl := Except.ok.inj returned
  exact ⟨require_eq_ok.mp same, textOf_eq_some (present_eq_ok.mp its_subject),
    textOf_eq_some (present_eq_ok.mp its_email), require_eq_ok.mp is_verified, rfl, rfl⟩

theorem checkClaims_ok (checked : checkClaims config now claims = .ok ()) :
    claims.lookup "iss" = some (.str GOOGLE_ISSUER) ∧
      addresses config (claims.lookup "aud") = true ∧
        ∃ exp, (claims.lookup "exp").bind intOf = some exp ∧ timestamp now < exp := by
  obtain ⟨⟨⟩, issuer, checked⟩ := bind_eq_ok.mp checked
  obtain ⟨⟨⟩, audience, checked⟩ := bind_eq_ok.mp checked
  obtain ⟨⟨⟩, -, checked⟩ := bind_eq_ok.mp checked
  obtain ⟨⟨⟩, expires, -⟩ := bind_eq_ok.mp checked
  refine ⟨require_eq_ok.mp issuer, require_eq_ok.mp audience, ?_⟩
  obtain ⟨exp, found, later⟩ := (Option.any_eq_true _ _).mp (require_eq_ok.mp expires)
  exact ⟨exp, found, of_decide_eq_true later⟩

theorem keyById_some {jwks key : Members} {kid : String}
    (found : keyById jwks kid = .ok (some key)) : ∃ keys, jwks.lookup "keys" = some (.arr keys) ∧
      .obj key ∈ keys ∧ key.lookup "kid" = some (.str kid) ∧
        key.lookup "alg" = some (.str "RS256") := by
  rw [keyById] at found
  split at found
  · next keys listed =>
    obtain ⟨value, mem, taken⟩ := List.exists_of_findSome?_eq_some (Except.ok.inj found)
    split at taken
    · split at taken
      · next kids =>
        obtain rfl := Option.some.inj taken
        exact ⟨keys, listed, mem, kids⟩
      · nomatch taken
    · nomatch taken
  · nomatch found

theorem fetchKey_ok {kid : String} {key : Option Members}
    (followed : Follows (fetchKey kid).run t (.done (.ok key))) :
    ∃ jwks, ⟨.fetchJwks GOOGLE_JWKS_ENDPOINT, .ok jwks⟩ ∈ t ∧ keyById jwks kid = .ok key := by
  obtain ⟨fetched, u, rfl, rest⟩ := Procedure.follows_ask followed
  obtain ⟨jwks, rfl, found⟩ := Procedure.follows_settle_bind rest
  obtain ⟨-, same⟩ := Procedure.follows_settle found
  exact ⟨jwks, List.mem_cons_self, same.symm⟩

theorem findKey_ok {kid : String} {key : Members}
    (followed : Follows (findKey kid).run t (.done (.ok (some key)))) :
    ∃ jwks, ⟨.fetchJwks GOOGLE_JWKS_ENDPOINT, .ok jwks⟩ ∈ t ∧
      keyById jwks kid = .ok (some key) := by
  obtain ⟨u, first, v, rfl, fetched, rest⟩ := Procedure.follows_bind followed
  split at rest
  · obtain ⟨-, same⟩ := follows_done.mp rest
    obtain rfl := Except.ok.inj (Dialogue.done.inj same)
    obtain ⟨jwks, mem, found⟩ := fetchKey_ok fetched
    exact ⟨jwks, List.mem_append_left _ mem, found⟩
  · obtain ⟨jwks, mem, found⟩ := fetchKey_ok rest
    exact ⟨jwks, List.mem_append_right _ mem, found⟩

theorem verified_ok {idToken : String} {key : Members}
    (decoded : verified P idToken key = .ok claims) : P.decode idToken key = .ok claims := by
  rw [verified] at decoded
  split at decoded
  · nomatch decoded
  · exact decoded

/-- What a verified token has been verified with. -/
structure Verifies (P : Primitives) (config : GoogleOAuthConfig) (idToken : String) (now : Instant)
    (t : List (Exchange Port Port.Answer)) (claims header : Members) (kid : String)
    (jwks key : Members) : Prop where
  headed : tokenHeader P idToken = .ok header
  algorithm : header.lookup "alg" = some (.str "RS256")
  named : header.lookup "kid" = some (.str kid)
  fetched : ⟨.fetchJwks GOOGLE_JWKS_ENDPOINT, .ok jwks⟩ ∈ t
  found : keyById jwks kid = .ok (some key)
  signed : P.decode idToken key = .ok claims
  checked : checkClaims config now claims = .ok ()

theorem verifyIdToken_ok {idToken : String}
    (followed : Follows (verifyIdToken P config idToken now).run t (.done (.ok claims))) :
    ∃ header kid jwks key, Verifies P config idToken now t claims header kid jwks key := by
  rw [verifyIdToken] at followed
  obtain ⟨header, its_header, followed⟩ := Procedure.follows_settle_bind followed
  split at followed
  · exact (Procedure.not_follows_throw followed).elim
  next algorithm =>
  split at followed
  · next kid named =>
    split at followed
    · exact (Procedure.not_follows_throw followed).elim
    obtain ⟨u, key, v, rfl, finding, rest⟩ := Procedure.follows_bind followed
    cases key with
    | none => exact (Procedure.not_follows_throw rest).elim
    | some key =>
      obtain ⟨-, same⟩ := Procedure.follows_settle rest
      obtain ⟨decoded, signed, checking⟩ := bind_eq_ok.mp same.symm
      obtain ⟨⟨⟩, checked, returned⟩ := bind_eq_ok.mp checking
      obtain rfl := Except.ok.inj returned
      obtain ⟨jwks, fetched, found⟩ := findKey_ok finding
      exact ⟨header, kid, jwks, key, its_header, not_not.mp algorithm, named,
        List.mem_append_left _ fetched, found, verified_ok signed, checked⟩
  · exact (Procedure.not_follows_throw followed).elim

theorem redeem_ok {code : String} {transaction : OAuthTransaction}
    (followed : Follows (redeem P config code now transaction).run t (.done (.ok identity))) :
    ∃ e : Evidence, e.Supports P config code transaction.redirectUri transaction.pkceVerifier
      transaction.nonce now t identity := by
  rw [redeem] at followed
  obtain ⟨resolved, u, rfl, resolving⟩ := Procedure.follows_ask followed
  obtain ⟨clientSecret, rfl, exchanging⟩ := Procedure.follows_settle_bind resolving
  split at exchanging
  · exact (Procedure.not_follows_throw exchanging).elim
  obtain ⟨exchanged, v, rfl, answered⟩ := Procedure.follows_ask exchanging
  obtain ⟨tokenResponse, rfl, rest⟩ := Procedure.follows_settle_bind answered
  split at rest
  · next idToken its_token =>
    split at rest
    · exact (Procedure.not_follows_throw rest).elim
    obtain ⟨u, claims, w, rfl, verifying, returned⟩ := Procedure.follows_bind rest
    obtain ⟨-, same⟩ := Procedure.follows_settle returned
    obtain ⟨nonce, subject, email, email_verified, issuer, is_verified⟩ := identityOf_ok same.symm
    obtain ⟨header, kid, jwks, key, verifies⟩ := verifyIdToken_ok verifying
    obtain ⟨issued, audience, exp, its_exp, unexpired⟩ := checkClaims_ok verifies.checked
    obtain ⟨keys, listed, mem, key_kid, key_algorithm⟩ := keyById_some verifies.found
    refine ⟨⟨clientSecret, tokenResponse, idToken, header, kid, jwks, keys, key, claims, exp⟩, ?_⟩
    exact {
      exchanged := List.mem_cons_of_mem _ List.mem_cons_self
      idToken := its_token
      header := verifies.headed
      algorithm := verifies.algorithm
      kid := verifies.named
      fetched := List.mem_cons_of_mem _ (List.mem_cons_of_mem _
        (List.mem_append_left _ verifies.fetched))
      listed := ⟨listed, mem⟩
      key_kid := key_kid
      key_algorithm := key_algorithm
      signed := verifies.signed
      issuer := ⟨issued, issuer⟩
      audience := audience
      unexpired := ⟨its_exp, unexpired⟩
      nonce := nonce
      subject := subject
      email := email
      email_verified := ⟨email_verified, is_verified⟩ }
  · exact (Procedure.not_follows_throw rest).elim

/-- A transaction that is returned has been open, before its expiry, and has been claimed. -/
theorem consume_ok {transaction : OAuthTransaction}
    (followed : Follows (consume P state now).run t (.done (.ok transaction))) :
    ∃ row nonce verifier, t = [⟨.find (digest P state), some row⟩,
        ⟨.claim row.id row.version now, (1 : Nat)⟩] ∧ now < row.expiresAt ∧
      disclose P row = .ok (nonce, verifier) ∧ transaction.nonce = nonce ∧
        transaction.pkceVerifier = verifier ∧ transaction.redirectUri = row.redirectUri := by
  rw [consume] at followed
  obtain ⟨found, u, rfl, finding⟩ := Procedure.follows_ask followed
  cases found with
  | none => exact (Procedure.not_follows_throw finding).elim
  | some row =>
    dsimp only at finding
    split at finding
    · exact (Procedure.not_follows_throw finding).elim
    split at finding
    · obtain ⟨_, v, rfl, expired⟩ := Procedure.follows_ask finding
      exact (Procedure.not_follows_throw expired).elim
    next open_still =>
    obtain ⟨rowcount, v, rfl, claiming⟩ := Procedure.follows_ask finding
    split at claiming
    · exact (Procedure.not_follows_throw claiming).elim
    next one =>
    obtain ⟨⟨nonce, verifier⟩, disclosed, returned⟩ := Procedure.follows_settle_bind claiming
    obtain ⟨rfl, same⟩ := follows_done.mp returned
    obtain rfl := Except.ok.inj (Dialogue.done.inj same)
    obtain rfl : rowcount = (1 : Nat) := not_not.mp one
    exact ⟨row, nonce, verifier, rfl, lt_of_not_ge open_still, disclosed, rfl, rfl, rfl⟩

/-- What an exchange that returns an identity has exchanged. -/
theorem exchange_ok {callback : OAuthCallback}
    (followed : Follows ((Call.exchange callback).program P config) t
      (.done (.ok (.identity identity)))) :
    ∃ now row nonce verifier, ⟨.clock, now⟩ ∈ t ∧
      ⟨.find (digest P callback.state), some row⟩ ∈ t ∧
        ⟨.claim row.id row.version now, (1 : Nat)⟩ ∈ t ∧ now < row.expiresAt ∧
          disclose P row = .ok (nonce, verifier) ∧ ∃ e : Evidence,
            e.Supports P config callback.code row.redirectUri verifier nonce now t identity := by
  obtain ⟨v, same, exchanging⟩ := Procedure.follows_map followed
  obtain rfl := Result.identity.inj same
  rw [exchange] at exchanging
  split at exchanging
  · exact (Procedure.not_follows_throw exchanging).elim
  split at exchanging
  · exact (Procedure.not_follows_throw exchanging).elim
  obtain ⟨now, u, rfl, rest⟩ := Procedure.follows_ask exchanging
  obtain ⟨u, transaction, v, rfl, consuming, redeeming⟩ := Procedure.follows_bind rest
  obtain ⟨row, nonce, verifier, rfl, timely, disclosed, rfl, rfl, redirect⟩ := consume_ok consuming
  obtain ⟨e, supports⟩ := redeem_ok redeeming
  rw [redirect] at supports
  refine ⟨now, row, _, _, List.mem_cons_self, ?_, ?_, timely, disclosed, e, ?_⟩
  · exact List.mem_cons_of_mem _ List.mem_cons_self
  · exact List.mem_cons_of_mem _ (List.mem_cons_of_mem _ List.mem_cons_self)
  · exact supports.mono fun x mem => List.mem_cons_of_mem _ (List.mem_append_right _ mem)

end Ending

end Corvus.Oauth
