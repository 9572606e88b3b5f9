import Corvus.Accounts.Tokens

/-!
# The authentication of the browser

An `AuthProvider` keeps one snapshot of the session and numbers its calls. The session cookie is
the browser's: it goes out with every request and is set by the responses as they come in. The
server handles a request at some moment after it has been sent, and its response arrives in the
end, or the request fails.

The page is served from the public origin. A session lasts until it is revoked.
-/

namespace Corvus.Web

open Accounts

/-! ## The server -/

structure AuthApiError where
  status : Nat
  code : String

structure SessionResponse where
  accountId : Uuid
  principalId : Uuid
  email : String
  sessionVersion : Nat
  csrfToken : String

structure SessionRefreshResponse where
  csrfToken : String
  sessionVersion : Nat

inductive Request where
  | getSession
  | refreshSession (csrfToken : String)
  | logout (csrfToken : String)
deriving DecidableEq, Repr

/-- The body of a response, with the session cookie that comes with it. -/
inductive Response where
  | session (session : SessionResponse)
  | refreshed (refreshed : SessionRefreshResponse) (sessionToken : String)
  | loggedOut

def SESSION_TTL : Int := 30 * 86400000000

/-- `_map_error`. -/
def mapError (code : String) : AuthApiError :=
  if "_conflict".toList <:+ code.toList ∨ code = "idempotency_payload_mismatch" then ⟨409, code⟩
  else if "not_found".toList <:+ code.toList then ⟨404, code⟩
  else if "forbidden".toList <:+ code.toList then ⟨403, code⟩
  else if "session_".toList <+: code.toList then ⟨401, "session_invalid"⟩
  else if "oauth_".toList <+: code.toList ∨ "google_".toList <+: code.toList then ⟨400, code⟩
  else ⟨503, "platform_identity_failure"⟩

/-- What a request comes across: the time, and the text that a new token is made of. -/
structure Draw where
  now : Instant
  drawn : String

section Server

variable (C : Credentials) (secret : String) (S : Tables)

def authenticateSession (sessionToken : Option String) (now : Instant) :
    Except AuthApiError WebSessionAuthentication := do
  let token ← present sessionToken ⟨401, "session_required"⟩
  (S.authenticateWebSession C token secret now).mapError mapError

def authenticateMutation (session : WebSessionAuthentication) (csrfToken : String) :
    Except AuthApiError Unit :=
  require (csrfToken = session.csrfToken) ⟨403, "csrf_invalid"⟩

/-- The handlers of `/session`, `/session/refresh` and `/logout`. -/
def respond (sessionToken : Option String) (d : Draw) :
    Request → Except AuthApiError (Response × Tables)
  | .getSession => do
    let a ← authenticateSession C secret S sessionToken d.now
    return (.session ⟨a.account.id, a.account.principalId, a.account.normalizedEmail,
      a.session.version, a.csrfToken⟩, S)
  | .refreshSession csrfToken => do
    let a ← authenticateSession C secret S sessionToken d.now
    authenticateMutation a csrfToken
    let token ← present sessionToken ⟨401, "session_required"⟩
    let (rotated, S) ← (S.rotateWebSession C token secret d.now (d.now + SESSION_TTL)
      d.drawn).mapError mapError
    return (.refreshed ⟨rotated.csrfToken, rotated.session.version⟩ rotated.sessionToken, S)
  | .logout csrfToken => do
    let a ← authenticateSession C secret S sessionToken d.now
    authenticateMutation a csrfToken
    let token ← present sessionToken ⟨401, "session_required"⟩
    let (_, S) ← (S.revokeWebSession C token secret d.now).mapError mapError
    return (.loggedOut, S)

end Server

/-! ## The provider -/

inductive AuthStatus where
  | checking | unauthenticated | authenticated | retryableError
deriving DecidableEq, Repr

structure AuthSnapshot where
  error : Option AuthApiError
  session : Option SessionResponse
  status : AuthStatus

/-- The provider with the snapshots that it has rendered, the last one first. -/
structure AuthProvider where
  generation : Nat
  snapshot : AuthSnapshot
  renders : List AuthSnapshot

/-- A call that sends a request. The last two are closures of a render, and take the session
that it has shown. -/
inductive Operation where
  | loadSession
  | reloadSession
  | refresh (render : Nat)
  | logout (render : Nat)

namespace AuthProvider

def mounted : AuthProvider :=
  let checking : AuthSnapshot := ⟨none, none, .checking⟩
  ⟨0, checking, [checking]⟩

variable (p : AuthProvider)

def setSnapshot (snapshot : AuthSnapshot) : AuthProvider :=
  { p with snapshot, renders := snapshot :: p.renders }

def bumped : AuthProvider := { p with generation := p.generation + 1 }

/-- The session that a closure has captured. -/
def captured (render : Nat) : Option SessionResponse := p.renders[render]?.bind (·.session)

def invalidateAuthority : AuthProvider := p.bumped.setSnapshot ⟨none, none, .unauthenticated⟩

/-- What a call does until its request is sent, if it sends one. -/
def start : Operation → Option (AuthProvider × Request)
  | .loadSession =>
      some (p.bumped.setSnapshot { p.snapshot with error := none, status := .checking },
        .getSession)
  | .reloadSession => some (p.bumped, .getSession)
  | .refresh render => do
    let session ← p.captured render
    return (p.bumped, .refreshSession session.csrfToken)
  | .logout render => do
    let session ← p.captured render
    return (p.bumped, .logout session.csrfToken)

/-- What a call does with its response, which tells what it has asked for. -/
def succeed : Response → AuthProvider
  | .session session => p.setSnapshot ⟨none, some session, .authenticated⟩
  | .refreshed refreshed _ =>
      p.setSnapshot <| match p.snapshot.session with
        | none => p.snapshot
        | some session => ⟨none, some { session with
            csrfToken := refreshed.csrfToken
            sessionVersion := refreshed.sessionVersion }, .authenticated⟩
  | .loggedOut => p.invalidateAuthority

/-- What a call does when its request fails. -/
def fail (e : AuthApiError) : Operation → AuthProvider
  | .loadSession =>
      p.setSnapshot (if e.status = 401 then ⟨none, none, .unauthenticated⟩
        else ⟨some e, none, .retryableError⟩)
  | .reloadSession =>
      if e.status = 401 then p.invalidateAuthority
      else p.setSnapshot { p.snapshot with error := some e, status := .retryableError }
  | .refresh _ =>
      p.setSnapshot (if e.status = 401 then ⟨none, none, .unauthenticated⟩
        else ⟨some e, p.snapshot.session, .retryableError⟩)
  | .logout _ =>
      p.setSnapshot (if e.status = 401 then ⟨none, none, .unauthenticated⟩
        else { p.snapshot with error := some e, status := .retryableError })

/-- A call goes on with what has become of its request, unless a later one has been made. -/
def resume (operation : Operation) (generation : Nat) (result : Except AuthApiError Response) :
    AuthProvider :=
  if generation ≠ p.generation then p
  else match result with
    | .ok response => p.succeed response
    | .error e => p.fail e operation

end AuthProvider

/-! ## The browser and the server -/

/-- What has become of a request: the server has handled it, or the provider knows. -/
inductive Phase where
  | sent
  | handled (result : Except AuthApiError Response)
  | answered (result : Except AuthApiError Response)

/-- A call with the request that it has sent, and the cookie that has gone out with it. -/
structure Call where
  operation : Operation
  request : Request
  sessionToken : Option String
  phase : Phase

def Call.answered (c : Call) : Bool :=
  match c.phase with
  | .answered _ => true
  | _ => false

/-- The calls stand under their generations. -/
structure System where
  provider : AuthProvider
  cookie : Option String
  tables : Tables
  calls : Nat → Option Call

/-- A request that the server handles may come to nothing. -/
inductive Move where
  | call (operation : Operation)
  | invalidateAuthority
  | handle (generation : Nat) (fault : Option AuthApiError) (d : Draw)
  | answer (generation : Nat)
  | lose (generation : Nat)

namespace System

def set (s : System) (generation : Nat) (c : Call) : System :=
  { s with calls := Function.update s.calls generation (some c) }

/-- The cookie after a response has come in. -/
def cookieAfter (s : System) : Except AuthApiError Response → Option String
  | .ok (.refreshed _ sessionToken) => some sessionToken
  | .ok .loggedOut => none
  | _ => s.cookie

/-- The provider hears what has become of a request. -/
def hear (s : System) (generation : Nat) (c : Call) (result : Except AuthApiError Response) :
    System :=
  { s with
    provider := s.provider.resume c.operation generation result
    calls := Function.update s.calls generation (some { c with phase := .answered result }) }

variable (C : Credentials) (secret : String)

/-- What the server answers, with the tables that it leaves. -/
def served (S : Tables) (c : Call) (fault : Option AuthApiError) (d : Draw) :
    Except AuthApiError Response × Tables :=
  match fault with
  | some e => (.error e, S)
  | none =>
    match respond C secret S c.sessionToken d c.request with
    | .ok (response, S) => (.ok response, S)
    | .error e => (.error e, S)

def step (s : System) : Move → System
  | .call operation =>
      match s.provider.start operation with
      | none => s
      | some (provider, request) =>
          { s with provider }.set provider.generation ⟨operation, request, s.cookie, .sent⟩
  | .invalidateAuthority => { s with provider := s.provider.invalidateAuthority }
  | .handle generation fault d =>
      match s.calls generation with
      | some ⟨operation, request, token, .sent⟩ =>
          let c : Call := ⟨operation, request, token, .sent⟩
          let (result, tables) := served C secret s.tables c fault d
          { s with tables }.set generation { c with phase := .handled result }
      | _ => s
  | .answer generation =>
      match s.calls generation with
      | some ⟨operation, request, token, .handled result⟩ =>
          { s with cookie := s.cookieAfter result }.hear generation
            ⟨operation, request, token, .handled result⟩ result
      | _ => s
  | .lose generation =>
      match s.calls generation with
      | some ⟨_, _, _, .answered _⟩ | none => s
      | some c => s.hear generation c (.error ⟨0, "network_unavailable"⟩)

end System

end Corvus.Web
