import Corvus.Web.AuthProvider

/-!
# The provider follows the session

The counter of the provider orders its calls by when they are made, and not by when the server
handles them. A rotation or a revocation that the server carries out for an older call is not
heard of; it does no harm unless the latest call has loaded the session before it. So the
provider follows the session in every run in which this does not happen.
-/

namespace Corvus.Web

open Accounts

variable {C : Credentials} {secret : String} {S S' S'' : Tables} {sessionId : Uuid}
  {s s' : System} {p : AuthProvider} {c : Call} {g : Nat} {t : String}

/-! ## Live versions -/

section

variable (C : Credentials) (secret : String)

/-- A token that has been issued for a version of a session. -/
def Issued (S : Tables) (sessionId : Uuid) (token : String) : Prop :=
  ∃ r ∈ S.sessions, r.id = sessionId ∧ r.tokenDigest = some (C.sha256 token)

/-- The live version of a session, with the CSRF token that belongs to it. -/
def LiveVersion (S : Tables) (sessionId : Uuid) (version : Nat) (csrfToken : String) : Prop :=
  ∃ token r, Recognized S (C.sha256 token) r ∧ r.id = sessionId ∧ r.version = version ∧
    C.csrfToken token secret = csrfToken

/-- Whether the provider has heard what has become of all requests. -/
def Quiet (s : System) : Prop := ∀ g ≤ s.provider.generation, ∀ c ∈ s.calls g, c.answered = true

/-- Who is authenticated once all requests are answered shows the live version. -/
def Follows (sessionId : Uuid) (s : System) : Prop :=
  Quiet s → s.provider.snapshot.status = .authenticated →
    ∃ session, s.provider.snapshot.session = some session ∧
      LiveVersion C secret s.tables sessionId session.sessionVersion session.csrfToken

/-- Whether the server has answered a call with the session. -/
def Call.loaded (c : Call) : Bool :=
  match c.phase with
  | .handled (.ok (.session _)) | .answered (.ok (.session _)) => true
  | _ => false

/-- Whether the server rotates or revokes the session for a call. -/
def CarriedOut (S : Tables) (c : Call) (fault : Option AuthApiError) (d : Draw) : Prop :=
  fault = none ∧ c.request ≠ .getSession ∧
    (respond C secret S c.sessionToken d c.request).isOk = true

/-- What the server carries out for a call that is not the latest one comes before it answers
the latest one with the session. -/
def Heeded (s : System) : Move → Prop
  | .handle generation fault d =>
      match s.calls generation with
      | some ⟨operation, request, token, .sent⟩ =>
          CarriedOut C secret s.tables ⟨operation, request, token, .sent⟩ fault d →
            generation = s.provider.generation ∨
              ∀ c ∈ s.calls s.provider.generation, c.loaded = false
      | _ => True
  | _ => True

instance (S : Tables) (fault : Option AuthApiError) (d : Draw) :
    Decidable (CarriedOut C secret S c fault d) :=
  inferInstanceAs (Decidable (_ ∧ _ ∧ _))

instance (move : Move) : Decidable (Heeded C secret s move) := by
  unfold Heeded
  split
  · split <;> infer_instance
  · infer_instance

end

/-! ## The server -/

section Server

variable {current r : SessionRecord} {d : String} {token : Option String} {draw : Draw}
  {csrfToken : String} {response : Response}

theorem Issued.grows (issued : Issued C S sessionId t) (grows : Grows S S') :
    Issued C S' sessionId t := by
  obtain ⟨r, mem, its⟩ := issued
  exact ⟨r, grows.sessions r mem, its⟩

/-- A token belongs to one version. -/
theorem Issued.id_eq (issued : Issued C S sessionId t) (sound : Accounts.Sound S)
    (recognized : Recognized S (C.sha256 t) r) : r.id = sessionId := by
  obtain ⟨q, mem, its, digest⟩ := issued
  have digest_some : r.tokenDigest.isSome := by
    rw [recognized.token]
    rfl
  have same := recognized.token.trans digest.symm
  rw [sound.tokens r recognized.mem q mem digest_some same]
  exact its

/-- A new version of a session takes the place of all its tokens. -/
theorem Issued.gone (issued : Issued C S current.id t) (sound : Accounts.Sound S)
    (advances : Advances S d current r S') : Gone S' (C.sha256 t) := by
  obtain ⟨q, mem, its, digest⟩ := issued
  have latest : ¬ current.version < q.version := fun later =>
    sound.not_superseded advances.recognized.latest ⟨q, mem, its, later⟩
  have older : q.version < r.version := by
    rw [advances.version]
    omega
  have new : r ∈ S'.sessions := Table.mem_of_append advances.inserted.rows
  exact ⟨q, advances.inserted.grows.sessions q mem, digest,
    .inl ⟨r, new, advances.id.trans its.symm, older⟩⟩

/-- The token of a new version is recognized. -/
theorem recognized_of_advances (sound : Accounts.Sound S) (advances : Advances S d current r S')
    {e : String} (digest : r.tokenDigest = some e) : Recognized S' e r := by
  refine ⟨?_, digest, ?_⟩
  · rw [(sound.advances advances).sound.latestSession, Tables.sessionsOf, advances.inserted.rows,
      List.filter_append, List.filter_singleton, decide_eq_true ⟨rfl, rfl⟩]
    exact List.getLast?_concat
  · obtain ⟨v, latest, version⟩ := advances.recognized.device
    refine ⟨v, ?_, version.trans advances.deviceVersion.symm⟩
    rw [advances.inserted.rest, advances.account, advances.device]
    exact latest

theorem recognized_aside (recognized : Recognized S d r) (aside : Aside S S') :
    Recognized S' d r := by
  refine ⟨?_, recognized.token, ?_⟩
  · rw [Tables.latestSession, Tables.sessionsOf, aside.sessions]
    exact recognized.latest
  · obtain ⟨v, latest, version⟩ := recognized.device
    refine ⟨v, ?_, version⟩
    rw [Tables.latestDevice, Tables.devicesOf, aside.devices]
    exact latest

theorem csrfToken_of_authenticated {now : Instant} {a : WebSessionAuthentication}
    (ok : S.authenticateWebSession C t secret now = .ok a) :
    a.csrfToken = C.csrfToken t secret := by
  obtain ⟨_, -, rest⟩ := bind_eq_ok.mp ok
  obtain ⟨_, -, rest⟩ := bind_eq_ok.mp rest
  obtain ⟨_, -, rest⟩ := bind_eq_ok.mp rest
  obtain ⟨_, -, rest⟩ := bind_eq_ok.mp rest
  obtain ⟨_, -, rest⟩ := bind_eq_ok.mp rest
  obtain ⟨_, -, rest⟩ := bind_eq_ok.mp rest
  obtain ⟨_, -, rest⟩ := bind_eq_ok.mp rest
  obtain ⟨_, -, rest⟩ := bind_eq_ok.mp rest
  obtain ⟨_, -, rest⟩ := bind_eq_ok.mp rest
  obtain ⟨_, -, rest⟩ := bind_eq_ok.mp rest
  obtain rfl := Except.ok.inj rest
  rfl

theorem mapError_eq_ok {α : Type} {x : Except String α} {a : α}
    (ok : x.mapError mapError = .ok a) :
    x = .ok a := by
  cases x with
  | error e =>
    rw [Except.mapError] at ok
    exact absurd ok error_ne_ok
  | ok b =>
    rw [Except.mapError] at ok
    exact congrArg Except.ok (Except.ok.inj ok)

theorem authenticateSession_ok {now : Instant} {a : WebSessionAuthentication}
    (ok : authenticateSession C secret S token now = .ok a) :
    ∃ t, token = some t ∧ S.authenticateWebSession C t secret now = .ok a := by
  obtain ⟨t, held, rest⟩ := bind_eq_ok.mp ok
  exact ⟨t, present_eq_ok.mp held, mapError_eq_ok rest⟩

/-- What the server does with a token: it shows the live version, or moves the session on. -/
inductive Serves (C : Credentials) (secret : String) (S : Tables) (t : String) :
    Response → Tables → Prop
  | shown {r : SessionRecord} {session : SessionResponse} :
      Recognized S (C.sha256 t) r → session.sessionVersion = r.version →
      session.csrfToken = C.csrfToken t secret → Serves C secret S t (.session session) S
  | rotated {current r : SessionRecord} {S₁ S' : Tables} {sessionToken : String} :
      Advances S (C.sha256 t) current r S₁ → Aside S₁ S' →
      r.tokenDigest = some (C.sha256 sessionToken) →
      Serves C secret S t
        (.refreshed ⟨C.csrfToken sessionToken secret, r.version⟩ sessionToken) S'
  | revoked {current r : SessionRecord} {S' : Tables} :
      Advances S (C.sha256 t) current r S' → Serves C secret S t .loggedOut S'

theorem serves_of_rotate (sound : Accounts.Sound S) {now expiresAt : Instant} {drawn : String}
    {login : WebLoginResult}
    (ok : S.rotateWebSession C t secret now expiresAt drawn = .ok (login, S')) :
    Serves C secret S t
      (.refreshed ⟨login.csrfToken, login.session.version⟩ login.sessionToken) S' := by
  obtain ⟨a, authenticated, rest⟩ := bind_eq_ok.mp ok
  obtain ⟨_, -, rest⟩ := bind_eq_ok.mp rest
  obtain ⟨⟨expires⟩, -, rest⟩ := bind_eq_ok.mp rest
  obtain ⟨S₁, inserted, rest⟩ := bind_eq_ok.mp rest
  obtain ⟨_, binding, rest⟩ := bind_eq_ok.mp rest
  obtain ⟨rfl, rfl⟩ := Prod.mk.inj (Except.ok.inj rest)
  obtain ⟨recognized, -, account⟩ := sound.authenticateWebSession authenticated
  have advances : Advances S (C.sha256 t) a.session (a.session.rotated a.account.id
      a.session.deviceVersion (C.sha256 t)
      (C.sha256 (Credentials.opaqueCredential a.session.id drawn)) expires) S₁ :=
    ⟨recognized, insertSession_ok inserted, rfl, account, rfl, rfl, rfl, rfl⟩
  exact .rotated advances (insertBinding_aside binding) rfl

/-- Whatever the server answers a request with, it has recognized the token. -/
theorem serves_of_ok (sound : Accounts.Sound S) {q : Request}
    (ok : respond C secret S token draw q = .ok (response, S')) :
    ∃ t, token = some t ∧ Serves C secret S t response S' ∧
      (q = .getSession → ∃ session, response = .session session) := by
  cases q with
  | getSession =>
    obtain ⟨a, authenticated, rest⟩ := bind_eq_ok.mp ok
    obtain ⟨t, held, authenticated⟩ := authenticateSession_ok authenticated
    obtain ⟨rfl, rfl⟩ := Prod.mk.inj (Except.ok.inj rest)
    have recognized := (sound.authenticateWebSession authenticated).1
    refine ⟨t, held, .shown recognized rfl ?_, fun _ => ⟨_, rfl⟩⟩
    exact csrfToken_of_authenticated authenticated
  | refreshSession csrfToken =>
    obtain ⟨_, -, rest⟩ := bind_eq_ok.mp ok
    obtain ⟨_, -, rest⟩ := bind_eq_ok.mp rest
    obtain ⟨t, held, rest⟩ := bind_eq_ok.mp rest
    obtain ⟨⟨login, S₁⟩, rotated, rest⟩ := bind_eq_ok.mp rest
    obtain ⟨rfl, rfl⟩ := Prod.mk.inj (Except.ok.inj rest)
    exact ⟨t, present_eq_ok.mp held, serves_of_rotate sound (mapError_eq_ok rotated),
      fun same => Request.noConfusion same⟩
  | logout csrfToken =>
    obtain ⟨_, -, rest⟩ := bind_eq_ok.mp ok
    obtain ⟨_, -, rest⟩ := bind_eq_ok.mp rest
    obtain ⟨t, held, rest⟩ := bind_eq_ok.mp rest
    obtain ⟨⟨revoked, S₁⟩, ended, rest⟩ := bind_eq_ok.mp rest
    obtain ⟨rfl, rfl⟩ := Prod.mk.inj (Except.ok.inj rest)
    obtain ⟨current, advances, -⟩ := sound.revokeWebSession (mapError_eq_ok ended)
    exact ⟨t, present_eq_ok.mp held, .revoked advances, fun same => Request.noConfusion same⟩

end Server

/-! ## The invariant -/

section

variable (C : Credentials) (secret : String) (sessionId : Uuid)

/-- No request that is still on its way has gone out with a live token. -/
def Closed (s : System) : Prop :=
  ∀ g c, s.calls g = some c → c.phase = .sent → ∀ t ∈ c.sessionToken, Gone s.tables (C.sha256 t)

/-- What the latest call is going to hear. -/
def News (s : System) : Response → Prop
  | .session session =>
      LiveVersion C secret s.tables sessionId session.sessionVersion session.csrfToken
  | .refreshed refreshed _ =>
      LiveVersion C secret s.tables sessionId refreshed.sessionVersion refreshed.csrfToken ∧
        Closed C s
  | .loggedOut => True

/-- What the snapshot shows is live, and stays so until the next call. -/
def Shown (s : System) : Prop :=
  ∃ session, s.provider.snapshot.session = some session ∧
    LiveVersion C secret s.tables sessionId session.sessionVersion session.csrfToken ∧
      (Closed C s ∨ ∃ c, s.calls s.provider.generation = some c ∧ c.loaded = true)

structure Faithful (s : System) : Prop where
  sound : Accounts.Sound s.tables
  cookie : ∀ t ∈ s.cookie, Issued C s.tables sessionId t
  tokens : ∀ g c, s.calls g = some c → ∀ t ∈ c.sessionToken, Issued C s.tables sessionId t
  replaced : ∀ g c, s.calls g = some c → ∀ refreshed t,
    c.phase = .handled (.ok (.refreshed refreshed t)) → Issued C s.tables sessionId t
  bound : ∀ g c, s.calls g = some c → g ≤ s.provider.generation
  held : s.provider.snapshot.status = .authenticated →
    ∃ session, s.provider.snapshot.session = some session
  news : ∀ c, s.calls s.provider.generation = some c → ∀ response,
    c.phase = .handled (.ok response) → News C secret sessionId s response
  settled : s.provider.snapshot.status = .authenticated →
    (∃ c, s.calls s.provider.generation = some c ∧ c.answered = false) ∨
      Shown C secret sessionId s

end

section Invariant

variable {operation : Operation} {request : Request} {e : AuthApiError} {response : Response}
  {result : Except AuthApiError Response} {p' : AuthProvider}

theorem Closed.mono (closed : Closed C s) (grows : Grows s.tables s'.tables)
    (sent : ∀ g c, s'.calls g = some c → c.phase = .sent → s.calls g = some c) : Closed C s' := by
  intro g c there on_its_way t out
  exact (closed g c (sent g c there on_its_way) on_its_way t out).later grows

theorem start_some (started : p.start operation = some (p', request)) :
    p'.generation = p.generation + 1 ∧
      (p'.snapshot.status = .authenticated → p'.snapshot = p.snapshot) := by
  cases operation with
  | loadSession =>
    obtain ⟨rfl, -⟩ := Prod.mk.inj (Option.some.inj started)
    exact ⟨rfl, fun status => AuthStatus.noConfusion status⟩
  | reloadSession =>
    obtain ⟨rfl, -⟩ := Prod.mk.inj (Option.some.inj started)
    exact ⟨rfl, fun _ => rfl⟩
  | refresh render =>
    obtain ⟨_, -, rest⟩ := Option.bind_eq_some_iff.mp started
    obtain ⟨rfl, -⟩ := Prod.mk.inj (Option.some.inj rest)
    exact ⟨rfl, fun _ => rfl⟩
  | logout render =>
    obtain ⟨_, -, rest⟩ := Option.bind_eq_some_iff.mp started
    obtain ⟨rfl, -⟩ := Prod.mk.inj (Option.some.inj rest)
    exact ⟨rfl, fun _ => rfl⟩

/-- Nobody is authenticated by a failure. -/
theorem fail_status : (p.fail e operation).snapshot.status ≠ .authenticated := by
  cases operation with
  | reloadSession =>
    rw [AuthProvider.fail]
    split <;> exact fun status => AuthStatus.noConfusion status
  | _ =>
    dsimp only [AuthProvider.fail, AuthProvider.setSnapshot]
    split <;> exact fun status => AuthStatus.noConfusion status

theorem generation_fail : p.generation ≤ (p.fail e operation).generation := by
  cases operation with
  | reloadSession =>
    rw [AuthProvider.fail]
    split
    · exact Nat.le_succ _
    · exact Nat.le_refl _
  | _ => exact Nat.le_refl _

theorem generation_succeed : p.generation ≤ (p.succeed response).generation := by
  cases response with
  | loggedOut => exact Nat.le_succ _
  | _ => exact Nat.le_refl _

theorem resume_stale (stale : g ≠ p.generation) : p.resume operation g result = p := if_pos stale

theorem resume_latest_ok :
    p.resume operation p.generation (.ok response) = p.succeed response := if_neg (not_not.mpr rfl)

theorem resume_latest_error :
    p.resume operation p.generation (.error e) = p.fail e operation := if_neg (not_not.mpr rfl)

/-- Nobody has made a call later than the latest one. -/
theorem Faithful.free (faithful : Faithful C secret sessionId s)
    (later : s.provider.generation < g) : s.calls g = none := by
  cases there : s.calls g with
  | none => rfl
  | some c => exact absurd (faithful.bound g c there) (Nat.not_le.mpr later)

theorem update_cases {calls : Nat → Option Call} {g' : Nat} {c' : Call}
    (there : Function.update calls g (some c) g' = some c') :
    g' = g ∧ c' = c ∨ g' ≠ g ∧ calls g' = some c' := by
  rw [Function.update_apply] at there
  split at there
  · next same => exact .inl ⟨same, (Option.some.inj there).symm⟩
  · next other => exact .inr ⟨other, there⟩

theorem Faithful.call (faithful : Faithful C secret sessionId s)
    (started : s.provider.start operation = some (p', request)) :
    Faithful C secret sessionId
      ({ s with provider := p' }.set p'.generation ⟨operation, request, s.cookie, .sent⟩) := by
  obtain ⟨next, kept⟩ := start_some started
  constructor
  · exact faithful.sound
  · exact faithful.cookie
  · intro g c inside
    obtain ⟨-, rfl⟩ | ⟨-, old⟩ := update_cases inside
    · exact faithful.cookie
    · exact faithful.tokens g c old
  · intro g c inside refreshed t handled
    obtain ⟨-, rfl⟩ | ⟨-, old⟩ := update_cases inside
    · exact Phase.noConfusion handled
    · exact faithful.replaced g c old refreshed t handled
  · intro g c inside
    show g ≤ p'.generation
    obtain ⟨same, -⟩ | ⟨-, old⟩ := update_cases inside
    · exact same.le
    · have old := faithful.bound g c old
      omega
  · intro status
    show ∃ session, p'.snapshot.session = some session
    rw [kept status]
    exact faithful.held (kept status ▸ status)
  · intro c inside response handled
    obtain ⟨-, rfl⟩ | ⟨other, -⟩ := update_cases inside
    · exact Phase.noConfusion handled
    · exact absurd rfl other
  · intro _
    exact .inl ⟨_, Function.update_self .., rfl⟩

theorem Faithful.invalidate (faithful : Faithful C secret sessionId s) :
    Faithful C secret sessionId { s with provider := s.provider.invalidateAuthority } where
  sound := faithful.sound
  cookie := faithful.cookie
  tokens := faithful.tokens
  replaced := faithful.replaced
  bound g c inside := Nat.le_succ_of_le (faithful.bound g c inside)
  held status := AuthStatus.noConfusion status
  news c inside :=
    absurd (inside.symm.trans (faithful.free (Nat.lt_succ_self _))) (Option.some_ne_none c)
  settled status := AuthStatus.noConfusion status

/-- The provider hears of a request, having the new cookie. -/
theorem Faithful.hear (faithful : Faithful C secret sessionId s) (there : s.calls g = some c)
    {cookie : Option String}
    (issued : ∀ t ∈ cookie, Issued C s.tables sessionId t)
    (latest : g = s.provider.generation → ∀ response, result = .ok response →
      News C secret sessionId s response) :
    Faithful C secret sessionId ({ s with cookie }.hear g c result) := by
  -- the sent requests are what they were
  have sent : ∀ g' c', ({ s with cookie }.hear g c result).calls g' = some c' →
      c'.phase = .sent → s.calls g' = some c' := by
    intro g' c' inside on_its_way
    obtain ⟨-, rfl⟩ | ⟨-, old⟩ := update_cases inside
    · exact Phase.noConfusion on_its_way
    · exact old
  have closed : Closed C s → Closed C ({ s with cookie }.hear g c result) :=
    fun closed => closed.mono (.refl _) sent
  -- what the latest call has heard is shown
  have shown : g = s.provider.generation →
      s.provider.generation ≤ (s.provider.resume c.operation g result).generation ∧
        ((s.provider.resume c.operation g result).snapshot.status = .authenticated →
          Shown C secret sessionId ({ s with cookie }.hear g c result)) := by
    rintro rfl
    cases result with
    | error e =>
      rw [resume_latest_error]
      exact ⟨generation_fail, fun status => absurd status fail_status⟩
    | ok response =>
      have news := latest rfl response rfl
      rw [resume_latest_ok]
      refine ⟨generation_succeed, fun status => ?_⟩
      rw [System.hear, resume_latest_ok]
      cases response with
      | session session =>
        exact ⟨session, rfl, news, .inr ⟨_, Function.update_self .., rfl⟩⟩
      | refreshed refreshed t =>
        cases shows : s.provider.snapshot.session with
        | none =>
          rw [AuthProvider.succeed, shows] at status
          obtain ⟨session, held⟩ := faithful.held status
          exact absurd (held.symm.trans shows) (Option.some_ne_none session)
        | some session =>
          rw [AuthProvider.succeed, shows]
          exact ⟨_, rfl, news.1, .inl (closed news.2)⟩
      | loggedOut => exact AuthStatus.noConfusion status
  have later : s.provider.generation ≤ (s.provider.resume c.operation g result).generation := by
    obtain newest | stale := eq_or_ne g s.provider.generation
    · exact (shown newest).1
    · rw [resume_stale stale]
  constructor
  · exact faithful.sound
  · exact issued
  · intro g' c' inside
    obtain ⟨-, rfl⟩ | ⟨-, old⟩ := update_cases inside
    · exact faithful.tokens g c there
    · exact faithful.tokens g' c' old
  · intro g' c' inside refreshed t handled
    obtain ⟨-, rfl⟩ | ⟨-, old⟩ := update_cases inside
    · exact Phase.noConfusion handled
    · exact faithful.replaced g' c' old refreshed t handled
  · intro g' c' inside
    apply Nat.le_trans _ later
    obtain ⟨rfl, -⟩ | ⟨-, old⟩ := update_cases inside
    · exact faithful.bound g' c there
    · exact faithful.bound g' c' old
  · intro status
    obtain newest | stale := eq_or_ne g s.provider.generation
    · obtain ⟨session, there, -⟩ := (shown newest).2 status
      exact ⟨session, there⟩
    · rw [System.hear, resume_stale stale] at status ⊢
      exact faithful.held status
  · intro c' inside response handled
    obtain ⟨-, rfl⟩ | ⟨other, old⟩ := update_cases inside
    · exact Phase.noConfusion handled
    · obtain rfl | stale := eq_or_ne g s.provider.generation
      · have free := faithful.free (Nat.lt_of_le_of_ne later (Ne.symm other))
        exact absurd (old.symm.trans free) (Option.some_ne_none c')
      · rw [System.hear, resume_stale stale] at old
        have news := faithful.news c' old response handled
        cases response with
        | refreshed refreshed t => exact ⟨news.1, closed news.2⟩
        | _ => exact news
  · intro status
    obtain newest | stale := eq_or_ne g s.provider.generation
    · exact .inr ((shown newest).2 status)
    · have kept : ({ s with cookie }.hear g c result).calls s.provider.generation =
          s.calls s.provider.generation := Function.update_of_ne (Ne.symm stale) ..
      rw [System.hear, resume_stale stale] at status kept ⊢
      obtain ⟨c', newest, coming⟩ | ⟨session, shown, live, lasts⟩ := faithful.settled status
      · exact .inl ⟨c', kept.trans newest, coming⟩
      · refine .inr ⟨session, shown, live, ?_⟩
        obtain closed' | ⟨c', newest, loaded⟩ := lasts
        · rw [System.hear, resume_stale stale] at closed
          exact .inl (closed closed')
        · exact .inr ⟨c', kept.trans newest, loaded⟩

/-- The server handles a request. What it does for an older call than the latest one is either
nothing or does no harm. -/
theorem Faithful.handle (faithful : Faithful C secret sessionId s) (there : s.calls g = some c)
    (sound : Accounts.Sound S') (grows : Grows s.tables S')
    (issued : ∀ refreshed t, result = .ok (.refreshed refreshed t) → Issued C S' sessionId t)
    (latest : ∀ response, result = .ok response → News C secret sessionId
      ({ s with tables := S' }.set g { c with phase := .handled result }) response)
    (others : g ≠ s.provider.generation → S' = s.tables ∨
      ¬ Closed C s ∧ ∀ c ∈ s.calls s.provider.generation, c.loaded = false) :
    Faithful C secret sessionId
      ({ s with tables := S' }.set g { c with phase := .handled result }) := by
  have closed : S' = s.tables → Closed C s → Closed C
      ({ s with tables := S' }.set g { c with phase := .handled result }) := by
    rintro rfl closed
    refine closed.mono (.refl _) fun g' c' inside on_its_way => ?_
    obtain ⟨-, rfl⟩ | ⟨-, old⟩ := update_cases inside
    · exact Phase.noConfusion on_its_way
    · exact old
  constructor
  · exact sound
  · exact fun t held => (faithful.cookie t held).grows grows
  · intro g' c' inside t out
    obtain ⟨-, rfl⟩ | ⟨-, old⟩ := update_cases inside
    · exact (faithful.tokens g c there t out).grows grows
    · exact (faithful.tokens g' c' old t out).grows grows
  · intro g' c' inside refreshed t handled
    obtain ⟨-, rfl⟩ | ⟨-, old⟩ := update_cases inside
    · exact issued refreshed t (Phase.handled.inj handled)
    · exact (faithful.replaced g' c' old refreshed t handled).grows grows
  · intro g' c' inside
    obtain ⟨rfl, -⟩ | ⟨-, old⟩ := update_cases inside
    · exact faithful.bound g' c there
    · exact faithful.bound g' c' old
  · exact faithful.held
  · intro c' inside response handled
    obtain ⟨-, rfl⟩ | ⟨other, old⟩ := update_cases inside
    · exact latest response (Phase.handled.inj handled)
    · have news := faithful.news c' old response handled
      obtain rfl | ⟨open_, unloaded⟩ := others (Ne.symm other)
      · cases response with
        | refreshed refreshed t => exact ⟨news.1, closed rfl news.2⟩
        | _ => exact news
      · cases response with
        | session session =>
          have loaded : c'.loaded = true := by rw [Call.loaded, handled]
          exact Bool.noConfusion ((unloaded c' old).symm.trans loaded)
        | refreshed refreshed t => exact absurd news.2 open_
        | loggedOut => trivial
  · intro status
    obtain newest | older := eq_or_ne g s.provider.generation
    · subst newest
      exact .inl ⟨_, Function.update_self .., rfl⟩
    · have kept : Function.update s.calls g (some { c with phase := .handled result })
          s.provider.generation = s.calls s.provider.generation :=
        Function.update_of_ne (Ne.symm older) ..
      obtain ⟨c', newest, coming⟩ | ⟨session, shown, live, lasts⟩ := faithful.settled status
      · exact .inl ⟨c', kept.trans newest, coming⟩
      · obtain rfl | ⟨open_, unloaded⟩ := others older
        · refine .inr ⟨session, shown, live, ?_⟩
          obtain closed' | ⟨c', newest, loaded⟩ := lasts
          · exact .inl (closed rfl closed')
          · exact .inr ⟨c', kept.trans newest, loaded⟩
        · obtain closed' | ⟨c', newest, loaded⟩ := lasts
          · exact absurd closed' open_
          · exact Bool.noConfusion ((unloaded c' newest).symm.trans loaded)

/-- A request on its way with a live token: once the session moves on, there is none. -/
theorem Faithful.advance (faithful : Faithful C secret sessionId s) (there : s.calls g = some c)
    (sent : c.phase = .sent) (out : t ∈ c.sessionToken) {current r : SessionRecord}
    (advances : Advances s.tables (C.sha256 t) current r S) (grows : Grows S S') :
    current.id = sessionId ∧ ¬ Closed C s ∧ ∀ result, Closed C
      ({ s with tables := S' }.set g { c with phase := .handled result }) := by
  have its := (faithful.tokens g c there t out).id_eq faithful.sound advances.recognized
  refine ⟨its, ?_, ?_⟩
  · intro closed
    exact faithful.sound.not_gone advances.recognized (closed g c there sent t out)
  · intro result g' c' inside on_its_way t' out'
    obtain ⟨-, rfl⟩ | ⟨-, old⟩ := update_cases inside
    · exact Phase.noConfusion on_its_way
    · have issued := faithful.tokens g' c' old t' out'
      rw [← its] at issued
      exact (issued.gone faithful.sound advances).later grows

theorem Faithful.serve (faithful : Faithful C secret sessionId s)
    {token : Option String} {fault : Option AuthApiError} {d : Draw}
    (there : s.calls g = some ⟨operation, request, token, .sent⟩)
    (heeded : CarriedOut C secret s.tables ⟨operation, request, token, .sent⟩ fault d →
      g = s.provider.generation ∨ ∀ c ∈ s.calls s.provider.generation, c.loaded = false) :
    Faithful C secret sessionId
      ({ s with tables := (System.served C secret s.tables
          ⟨operation, request, token, .sent⟩ fault d).2 }.set g ⟨operation, request, token,
        .handled (System.served C secret s.tables
          ⟨operation, request, token, .sent⟩ fault d).1⟩) := by
  have nothing : ∀ e, Faithful C secret sessionId
      ({ s with tables := s.tables }.set g ⟨operation, request, token, .handled (.error e)⟩) := by
    intro e
    refine faithful.handle there faithful.sound (.refl _) ?_ ?_ fun _ => .inl rfl
    · exact fun _ _ same => absurd same error_ne_ok
    · exact fun _ same => absurd same error_ne_ok
  cases fault with
  | some e => exact nothing e
  | none =>
    cases responds : respond C secret s.tables token d request with
    | error e =>
      rw [System.served, responds]
      exact nothing e
    | ok answer =>
      obtain ⟨response, S'⟩ := answer
      rw [System.served, responds]
      obtain ⟨t, held, serves, shape⟩ := serves_of_ok faithful.sound responds
      have older : (request = .getSession → False) → g ≠ s.provider.generation →
          ∀ c ∈ s.calls s.provider.generation, c.loaded = false := by
        intro other stale
        have carried : CarriedOut C secret s.tables ⟨operation, request, token, .sent⟩ none d :=
          ⟨rfl, other, by rw [responds]; rfl⟩
        exact (heeded carried).resolve_left stale
      cases serves with
      | shown recognized version csrf =>
        refine faithful.handle there faithful.sound (.refl _) ?_ ?_ fun _ => .inl rfl
        · exact fun _ _ same => Response.noConfusion (Except.ok.inj same)
        · rintro response same
          obtain rfl := Except.ok.inj same
          have its := (faithful.tokens g _ there t held).id_eq faithful.sound recognized
          exact ⟨t, _, recognized, its, version.symm, csrf.symm⟩
      | rotated advances aside digest =>
        obtain ⟨its, open_, closed⟩ := faithful.advance there rfl held advances aside.grows
        have kept := faithful.sound.advances advances
        have advanced := recognized_of_advances faithful.sound advances digest
        have recognized := recognized_aside advanced aside
        have same := advances.id.trans its
        refine faithful.handle there (kept.sound.aside aside) (kept.grows.trans aside.grows) ?_ ?_
          fun stale => .inr ⟨open_, older ?_ stale⟩
        · intro refreshed t' response
          obtain ⟨-, rfl⟩ := Response.refreshed.inj (Except.ok.inj response)
          exact ⟨_, recognized.mem, same, digest⟩
        · rintro response answered
          obtain rfl := Except.ok.inj answered
          exact ⟨⟨_, _, recognized, same, rfl, rfl⟩, closed _⟩
        · intro getSession
          obtain ⟨session, same⟩ := shape getSession
          exact Response.noConfusion same
      | revoked advances =>
        obtain ⟨-, open_, -⟩ := faithful.advance there rfl held advances (.refl _)
        have kept := faithful.sound.advances advances
        refine faithful.handle there kept.sound kept.grows ?_ ?_
          fun stale => .inr ⟨open_, older ?_ stale⟩
        · exact fun _ _ same => Response.noConfusion (Except.ok.inj same)
        · rintro response answered
          obtain rfl := Except.ok.inj answered
          trivial
        · intro getSession
          obtain ⟨session, same⟩ := shape getSession
          exact Response.noConfusion same

theorem Faithful.step (faithful : Faithful C secret sessionId s) {move : Move}
    (heeded : Heeded C secret s move) : Faithful C secret sessionId (s.step C secret move) := by
  cases move with
  | call operation =>
    rw [System.step]
    split
    · exact faithful
    · next started => exact faithful.call started
  | invalidateAuthority => exact faithful.invalidate
  | answer g =>
    rw [System.step]
    split
    · next operation request token result there =>
      refine faithful.hear there ?_ ?_
      · intro t held
        cases result with
        | error e => exact faithful.cookie t held
        | ok response =>
          cases response with
          | session session => exact faithful.cookie t held
          | refreshed refreshed t' =>
            obtain rfl := Option.some.inj held
            exact faithful.replaced g _ there refreshed t' rfl
          | loggedOut => exact absurd held.symm (Option.some_ne_none t)
      · rintro rfl response rfl
        exact faithful.news _ there response rfl
    · exact faithful
  | lose g =>
    rw [System.step]
    split
    · exact faithful
    · exact faithful
    · next c answered there =>
      refine faithful.hear there faithful.cookie ?_
      exact fun _ response same => absurd same error_ne_ok
  | handle g fault d =>
    rw [System.step]
    split
    · next operation request token there =>
      rw [Heeded, there] at heeded
      exact faithful.serve there heeded
    · exact faithful

end Invariant

/-! ## Runs -/

/-- A browser that comes back to the server, perhaps with the cookie of a session. -/
structure Visit (C : Credentials) where
  history : List Accounts.Call
  sessionId : Uuid
  cookie : Option String
  issued : ∀ t ∈ cookie, Issued C (after C history) sessionId t

def Visit.start (visit : Visit C) : System :=
  ⟨.mounted, visit.cookie, after C visit.history, fun _ => none⟩

theorem faithful_start (secret : String) (visit : Visit C) :
    Faithful C secret visit.sessionId visit.start where
  sound := sound_after C visit.history
  cookie := visit.issued
  tokens _ c there := absurd there.symm (Option.some_ne_none c)
  replaced _ c there := absurd there.symm (Option.some_ne_none c)
  bound _ c there := absurd there.symm (Option.some_ne_none c)
  held status := AuthStatus.noConfusion status
  news c there := absurd there.symm (Option.some_ne_none c)
  settled status := AuthStatus.noConfusion status

theorem Faithful.follows (faithful : Faithful C secret sessionId s) :
    Follows C secret sessionId s := by
  intro quiet status
  obtain ⟨c, newest, coming⟩ | ⟨session, shown, live, -⟩ := faithful.settled status
  · exact Bool.noConfusion ((quiet _ (Nat.le_refl _) c newest).symm.trans coming)
  · exact ⟨session, shown, live⟩

def run (secret : String) (visit : Visit C) (moves : List Move) : System :=
  Run.exec (System.step C secret) visit.start moves

/-- In every run in which the server carries out nothing for an older call once it has answered
the latest one with the session, who is authenticated when all requests are answered shows the
live version of it. -/
theorem authentication_follows_session (C : Credentials) (secret : String) (visit : Visit C)
    (moves : List Move)
    (heeded : Run.Along (System.step C secret) (Heeded C secret) visit.start moves) :
    Follows C secret visit.sessionId (run secret visit moves) :=
  (heeded.preserves (faithful_start secret visit) fun _ _ faithful heeded =>
    faithful.step heeded).follows

/-! ## A refresh that is overtaken -/

instance (s : System) : Decidable (Quiet s) :=
  inferInstanceAs (Decidable (∀ g ≤ s.provider.generation, ∀ c ∈ s.calls g, c.answered = true))

namespace OvertakenRefresh

def credentials : Credentials where
  sha256 := id
  uuid5 _ := Uuid.ofNat 0
  hmac _ message := message
  uuid _ := some (Uuid.ofNat 4)

/-- What `secrets.token_urlsafe` draws. -/
def drawn (c : Char) : String := String.ofList (List.replicate 43 c)

def history : List Accounts.Call := [
  .createPreprovisionedAccount ⟨Uuid.ofNat 1, .user, "corvus-account", "account:2"⟩
    ⟨Uuid.ofNat 2, Uuid.ofNat 1, "user@example.com"⟩,
  .completeWebLogin "https://accounts.google.com" "subject" "user@example.com" none "secret" 0 10
    ⟨Uuid.ofNat 5, Uuid.ofNat 6, Uuid.ofNat 7, Uuid.ofNat 3, "device", Uuid.ofNat 4, drawn 'a'⟩]

theorem issued : ∀ t ∈ some (Credentials.opaqueCredential (Uuid.ofNat 4) (drawn 'a')),
    Issued credentials (after credentials history) (Uuid.ofNat 4) t := by
  intro t held
  obtain rfl := Option.some.inj held
  show ∃ r ∈ (after credentials history).sessions.rows, _
  decide +kernel

def visit : Visit credentials := ⟨history, Uuid.ofNat 4, _, issued⟩

def draw (c : Char) : Draw := ⟨1, drawn c⟩

/-- The session is loaded. -/
def loads (g : Nat) (operation : Operation) : List Move :=
  [.call operation, .handle g none (draw 'b'), .answer g]

/-- The server rotates the session after it has answered a later reload. -/
def moves : List Move :=
  loads 1 .loadSession ++ [.call (.refresh 0), .call .reloadSession, .handle 3 none (draw 'b'),
    .handle 2 none (draw 'c'), .answer 2, .answer 3]

/-- The provider shows the version before. -/
theorem shows_old_version :
    ¬ Follows credentials "secret" (Uuid.ofNat 4) (run "secret" visit moves) := by
  intro follows
  obtain ⟨session, shown, token, r, recognized, -, version, -⟩ :=
    follows (by decide +kernel) (by decide +kernel)
  have first : (run "secret" visit moves).provider.snapshot.session.map (·.sessionVersion) =
      some 1 := by decide +kernel
  have superseded : ∀ q ∈ (run "secret" visit moves).tables.sessions.rows, q.version = 1 →
      (run "secret" visit moves).tables.latestSession q.accountId q.id ≠ some q := by
    decide +kernel
  rw [shown] at first
  exact superseded r recognized.mem (version.trans (Option.some.inj first)) recognized.latest

end OvertakenRefresh

/-- A refresh and then a reload. -/
theorem refreshed_followed : Follows OvertakenRefresh.credentials "secret" (Uuid.ofNat 4)
    (run "secret" OvertakenRefresh.visit (OvertakenRefresh.loads 1 .loadSession ++
      OvertakenRefresh.loads 2 (.refresh 0) ++ OvertakenRefresh.loads 3 .reloadSession)) :=
  authentication_follows_session _ _ _ _ (by decide +kernel)

end Corvus.Web
