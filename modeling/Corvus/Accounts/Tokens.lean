import Corvus.Accounts.Sessions

/-!
# Tokens die for good

A token is recognized while its version is the latest one of its session and the device is at
the version to which the session is bound. Every call that takes a token takes a recognized
one, and all but `revoke_session` take it only before it expires.
-/

namespace Corvus.Accounts

open Run

variable {C : Credentials} {s s' : Tables} {r q current : SessionRecord}
  {v : DeviceRegistration} {d e : String} {call call' : Call} {now : Instant}

/-! ## Recognized tokens -/

/-- The token of the latest version of a session, bound to the latest version of its device. -/
structure Recognized (s : Tables) (d : String) (r : SessionRecord) : Prop where
  latest : s.latestSession r.accountId r.id = some r
  token : r.tokenDigest = some d
  device : ∃ v, s.latestDevice r.accountId r.deviceId = some v ∧ v.version = r.deviceVersion

/-- A session has a later version. -/
def Superseded (s : Tables) (r : SessionRecord) : Prop :=
  ∃ q ∈ s.sessions, q.id = r.id ∧ r.version < q.version

/-- The device of a session has been revoked. -/
def DeviceRevoked (s : Tables) (r : SessionRecord) : Prop :=
  ∃ v ∈ s.devices, v.id = r.deviceId ∧ v.status = .revoked

/-- A token that has been rotated away, or of which the session or the device is revoked. -/
def Gone (s : Tables) (d : String) : Prop :=
  ∃ r ∈ s.sessions, r.tokenDigest = some d ∧ (Superseded s r ∨ DeviceRevoked s r)

theorem Recognized.mem (recognized : Recognized s d r) : r ∈ s.sessions :=
  (mem_of_latestSession recognized.latest).1

theorem Gone.later (gone : Gone s d) (grows : Grows s s') : Gone s' d := by
  obtain ⟨r, mem, token, why⟩ := gone
  refine ⟨r, grows.sessions r mem, token, ?_⟩
  obtain ⟨q, inside, same, later⟩ | ⟨v, inside, same, revoked⟩ := why
  · exact .inl ⟨q, grows.sessions q inside, same, later⟩
  · exact .inr ⟨v, grows.devices v inside, same, revoked⟩

/-- The latest version of a session is not superseded. -/
theorem Sound.not_superseded (sound : Sound s) (latest : s.latestSession r.accountId r.id = some r) :
    ¬ Superseded s r := by
  rintro ⟨q, mem, same, later⟩
  have r_mem := (mem_of_latestSession latest).1
  have account := sound.account_eq mem r_mem same
  rw [sound.latestSession] at latest
  have log := sound.sessions r.accountId r.id
  have number := log.number_of_getLast? latest
  have bounds := log.number_bounds (mem_sessionsOf.mpr ⟨mem, account, same⟩)
  omega

/-- Nothing comes after a revoked version of a device, and so what is at the latest version of
its device, and was bound while that was in use, has not had its device revoked. -/
theorem Sound.not_revoked (sound : Sound s) (mem : r ∈ s.sessions)
    (latest : s.latestDevice r.accountId r.deviceId = some v) (version : v.version = r.deviceVersion) :
    ¬ DeviceRevoked s r := by
  rintro ⟨w, inside, same, revoked⟩
  obtain ⟨u, bound, its_version, active⟩ := sound.bound r mem
  have u_mem := mem_devicesOf.mp bound
  have v_mem := mem_of_latestDevice latest
  obtain rfl : u = v := by
    refine Table.eq_of_key u_mem.1 v_mem.1 (Prod.ext ?_ (its_version.trans version.symm))
    exact u_mem.2.2.trans v_mem.2.2.symm
  have account : w.accountId = r.accountId := by
    have owner := owner_eq (fun _ => rfl) sound.devices inside u_mem.1 (same.trans u_mem.2.2.symm)
    exact owner.trans u_mem.2.1
  have log := sound.devices r.accountId r.deviceId
  have w_mem := mem_devicesOf.mpr ⟨inside, account, same⟩
  rw [sound.latestDevice] at latest
  have last := log.number_of_getLast? latest
  have bounds := log.number_bounds w_mem
  obtain lt | at_last := Nat.lt_or_eq_of_le (last ▸ bounds.2)
  · have both := log.rel_of_number_lt
      (R := fun a b : DeviceRegistration => a.status = .active ∧ b.status = .revoked)
      (fun a b link => link a rfl) (fun _ _ _ first second => ⟨first.1, second.2⟩) w_mem bound lt
    rw [revoked] at both
    exact absurd both.1 (by decide)
  · obtain rfl := log.eq_of_number w_mem bound at_last
    rw [revoked] at active
    exact absurd active (by decide)

theorem Sound.not_gone (sound : Sound s) (recognized : Recognized s d r) : ¬ Gone s d := by
  rintro ⟨q, mem, token, why⟩
  obtain rfl : r = q := by
    refine sound.tokens r recognized.mem q mem ?_ (recognized.token.trans token.symm)
    rw [recognized.token]
    rfl
  obtain ⟨v, latest, version⟩ := recognized.device
  obtain superseded | revoked := why
  · exact sound.not_superseded recognized.latest superseded
  · exact sound.not_revoked mem latest version revoked

/-- A token of the session that is recognized. -/
def Live (s : Tables) (sessionId : Uuid) (now : Instant) (d : String) : Prop :=
  ∃ r, Recognized s d r ∧ r.id = sessionId ∧ now < r.expiresAt

theorem Sound.live_unique (sound : Sound s) {sessionId : Uuid} {then_ : Instant}
    (first : Live s sessionId now d) (second : Live s sessionId then_ e) : d = e := by
  obtain ⟨r, recognized, rfl, -⟩ := first
  obtain ⟨q, recognized', same, -⟩ := second
  have account := sound.account_eq recognized'.mem recognized.mem same
  have latest := recognized'.latest
  rw [account, same, recognized.latest] at latest
  obtain rfl := Option.some.inj latest
  exact Option.some.inj (recognized.token.symm.trans recognized'.token)

/-! ## What the calls recognize -/

/-- A call that has appended a version to the session of a recognized token. -/
structure Advances (s : Tables) (d : String) (current r : SessionRecord) (s' : Tables) : Prop where
  recognized : Recognized s d current
  inserted : SessionInserted s r s'
  id : r.id = current.id
  account : r.accountId = current.accountId
  device : r.deviceId = current.deviceId
  deviceVersion : r.deviceVersion = current.deviceVersion
  version : r.version = current.version + 1
  predecessor : r.predecessorDigest = some d

theorem Sound.advances (sound : Sound s) (advances : Advances s d current r s') : Kept s s' := by
  have latest := advances.recognized.latest
  rw [sound.latestSession, ← advances.account, ← advances.id] at latest
  refine ⟨sound.insertSession advances.inserted ?_ ?_ ?_, advances.inserted.grows⟩
  · rw [advances.version, (sound.sessions _ _).number_of_getLast? latest]
  · rw [latest, SessionLink, advances.predecessor]
    exact advances.recognized.token.symm
  · rw [advances.account, advances.device, advances.deviceVersion]
    exact sound.bound current advances.recognized.mem

theorem Advances.gone (advances : Advances s d current r s') : Gone s' d := by
  have mem := advances.inserted.grows.sessions current advances.recognized.mem
  have new : r ∈ s'.sessions := Table.mem_of_append advances.inserted.rows
  have version := advances.version
  exact ⟨current, mem, advances.recognized.token, .inl ⟨r, new, advances.id, by omega⟩⟩

theorem requireToken_ok (ok : s.requireToken r d = .ok ()) : r.tokenDigest = some d :=
  require_eq_ok.mp ok

/-- The session whose token and device have been checked is recognized. -/
theorem recognized_of_checks {accountId sessionId : Uuid} {current : SessionRecord}
    {v : DeviceRegistration} {e e' e'' : String}
    (latest : present (s.latestSession accountId sessionId) e = .ok current)
    (token : s.requireToken current d = .ok ())
    (device : present (s.latestDevice accountId current.deviceId) e' = .ok v)
    (version : require (current.deviceVersion = v.version) e'' = .ok ()) :
    current.accountId = accountId ∧ current.id = sessionId ∧ Recognized s d current := by
  have latest := present_eq_ok.mp latest
  obtain ⟨-, rfl, rfl⟩ := mem_of_latestSession latest
  exact ⟨rfl, rfl, latest, requireToken_ok token, v, present_eq_ok.mp device,
    (require_eq_ok.mp version).symm⟩

theorem getActiveSession_some {accountId : Uuid}
    (found : s.getActiveSession accountId d now = some r) :
    Recognized s d r ∧ now < r.expiresAt := by
  obtain ⟨matched, first, rest⟩ := Option.bind_eq_some_iff.mp found
  obtain ⟨current, latest, rest⟩ := Option.bind_eq_some_iff.mp rest
  obtain ⟨_, same, rest⟩ := Option.bind_eq_some_iff.mp rest
  obtain ⟨v, device, rest⟩ := Option.bind_eq_some_iff.mp rest
  obtain ⟨_, bound, rest⟩ := Option.bind_eq_some_iff.mp rest
  obtain rfl := Option.some.inj rest
  obtain ⟨version, -, unexpired⟩ := (Option.guard_eq_some' _).mp same
  obtain ⟨-, at_version⟩ := (Option.guard_eq_some' _).mp bound
  obtain ⟨mem, account, its⟩ := mem_of_latestSession latest
  obtain rfl : current = matched := by
    refine Table.eq_of_key mem (List.mem_of_find?_eq_some first) ?_
    exact Prod.ext its version
  have fits := List.find?_some first
  have token := (of_decide_eq_true fits).2
  rw [← account] at latest device
  exact ⟨⟨latest, token, v, device, at_version.symm⟩, unexpired⟩

/-- Rotating takes the token that is recognized and has not expired. -/
theorem rotateSession_ok {accountId sessionId : Uuid} {replacement : String} {expiresAt : Instant}
    (ok : s.rotateSession accountId sessionId d replacement now expiresAt = .ok (r, s')) :
    ∃ current, Advances s d current r s' ∧ now < current.expiresAt := by
  obtain ⟨_, -, rest⟩ := bind_eq_ok.mp ok
  obtain ⟨current, latest, rest⟩ := bind_eq_ok.mp rest
  obtain ⟨_, token, rest⟩ := bind_eq_ok.mp rest
  obtain ⟨_, active, rest⟩ := bind_eq_ok.mp rest
  obtain ⟨v, device, rest⟩ := bind_eq_ok.mp rest
  obtain ⟨_, -, rest⟩ := bind_eq_ok.mp rest
  obtain ⟨_, version, rest⟩ := bind_eq_ok.mp rest
  obtain ⟨_, -, rest⟩ := bind_eq_ok.mp rest
  obtain ⟨⟨expires⟩, -, rest⟩ := bind_eq_ok.mp rest
  obtain ⟨_, inserted, rest⟩ := bind_eq_ok.mp rest
  obtain ⟨rfl, rfl⟩ := Prod.mk.inj (Except.ok.inj rest)
  obtain ⟨rfl, rfl, recognized⟩ := recognized_of_checks latest token device version
  refine ⟨current, ?_, (require_eq_ok.mp active).2⟩
  exact ⟨recognized, insertSession_ok inserted, rfl, rfl, rfl, (require_eq_ok.mp version).symm, rfl, rfl⟩

/-- Revoking an API session takes the token that is recognized, whether it has expired or not. -/
theorem revokeSession_ok {accountId sessionId : Uuid} {at_ : Instant}
    (ok : s.revokeSession accountId sessionId d at_ = .ok (r, s')) :
    ∃ current, Advances s d current r s' ∧ current.accountId = accountId ∧
      current.id = sessionId := by
  obtain ⟨current, latest, rest⟩ := bind_eq_ok.mp ok
  obtain ⟨_, token, rest⟩ := bind_eq_ok.mp rest
  obtain ⟨v, device, rest⟩ := bind_eq_ok.mp rest
  obtain ⟨_, version, rest⟩ := bind_eq_ok.mp rest
  obtain ⟨_, inserted, rest⟩ := bind_eq_ok.mp rest
  obtain ⟨rfl, rfl⟩ := Prod.mk.inj (Except.ok.inj rest)
  obtain ⟨rfl, rfl, recognized⟩ := recognized_of_checks latest token device version
  refine ⟨current, ?_, rfl, rfl⟩
  exact ⟨recognized, insertSession_ok inserted, rfl, rfl, rfl, (require_eq_ok.mp version).symm, rfl, rfl⟩

/-- The latest version of a session by its id alone. -/
theorem Sound.latestSessionById (sound : Sound s) {sessionId : Uuid}
    (latest : s.latestSessionById sessionId = some r) :
    s.latestSession r.accountId r.id = some r ∧ r.id = sessionId := by
  obtain ⟨mem, its⟩ := List.mem_filter.mp (List.argmax_mem latest)
  obtain rfl := of_decide_eq_true its
  rw [Tables.latestSessionById, sound.sessions_of_id mem] at latest
  exact ⟨latest, rfl⟩

theorem Sound.authenticateWebSession (sound : Sound s) {token secret : String}
    {a : WebSessionAuthentication} (ok : s.authenticateWebSession C token secret now = .ok a) :
    Recognized s (C.sha256 token) a.session ∧ now < a.session.expiresAt ∧
      a.account.id = a.session.accountId := by
  obtain ⟨_, -, rest⟩ := bind_eq_ok.mp ok
  obtain ⟨session, latest, rest⟩ := bind_eq_ok.mp rest
  obtain ⟨_, same, rest⟩ := bind_eq_ok.mp rest
  obtain ⟨_, active, rest⟩ := bind_eq_ok.mp rest
  obtain ⟨v, device, rest⟩ := bind_eq_ok.mp rest
  obtain ⟨_, -, rest⟩ := bind_eq_ok.mp rest
  obtain ⟨_, version, rest⟩ := bind_eq_ok.mp rest
  obtain ⟨_, -, rest⟩ := bind_eq_ok.mp rest
  obtain ⟨_, -, rest⟩ := bind_eq_ok.mp rest
  obtain ⟨account, found, rest⟩ := bind_eq_ok.mp rest
  obtain rfl := Except.ok.inj rest
  have latest := (sound.latestSessionById (present_eq_ok.mp latest)).1
  have version := require_eq_ok.mp version
  refine ⟨⟨latest, requireToken_ok same, v, present_eq_ok.mp device, version.symm⟩, ?_, ?_⟩
  · exact (require_eq_ok.mp active).2
  · exact (Table.get?_eq_some.mp (present_eq_ok.mp found)).2

theorem Sound.rotateWebSession (sound : Sound s) {token secret drawn : String}
    {expiresAt : Instant} {login : WebLoginResult}
    (ok : s.rotateWebSession C token secret now expiresAt drawn = .ok (login, s')) :
    ∃ current t, Advances s (C.sha256 token) current login.session t ∧ Aside t s' ∧
      now < current.expiresAt := by
  obtain ⟨a, authenticated, rest⟩ := bind_eq_ok.mp ok
  obtain ⟨_, -, rest⟩ := bind_eq_ok.mp rest
  obtain ⟨⟨expires⟩, -, rest⟩ := bind_eq_ok.mp rest
  obtain ⟨t, inserted, rest⟩ := bind_eq_ok.mp rest
  obtain ⟨_, binding, rest⟩ := bind_eq_ok.mp rest
  obtain ⟨rfl, rfl⟩ := Prod.mk.inj (Except.ok.inj rest)
  obtain ⟨recognized, unexpired, account⟩ := sound.authenticateWebSession authenticated
  refine ⟨a.session, t, ?_, insertBinding_aside binding, unexpired⟩
  exact ⟨recognized, insertSession_ok inserted, rfl, account, rfl, rfl, rfl, rfl⟩

theorem Sound.revokeWebSession (sound : Sound s) {token secret : String}
    (ok : s.revokeWebSession C token secret now = .ok (r, s')) :
    ∃ current, Advances s (C.sha256 token) current r s' ∧ now < current.expiresAt := by
  obtain ⟨a, authenticated, rest⟩ := bind_eq_ok.mp ok
  obtain ⟨_, inserted, rest⟩ := bind_eq_ok.mp rest
  obtain ⟨rfl, rfl⟩ := Prod.mk.inj (Except.ok.inj rest)
  obtain ⟨recognized, unexpired, account⟩ := sound.authenticateWebSession authenticated
  refine ⟨a.session, ?_, unexpired⟩
  exact ⟨recognized, insertSession_ok inserted, rfl, account, rfl, rfl, rfl, rfl⟩

/-! ## Calls that take a token -/

namespace Call

/-- The digest of the token that a call presents, with the time of the call. -/
def presented (C : Credentials) : Call → Option (String × Instant)
  | getActiveSession _ digest now => some (digest, now)
  | rotateSession _ _ digest _ now _ => some (digest, now)
  | revokeSession _ _ digest revokedAt => some (digest, revokedAt)
  | authenticateWebSession token _ now => some (C.sha256 token, now)
  | rotateWebSession token _ now _ _ => some (C.sha256 token, now)
  | revokeWebSession token _ now => some (C.sha256 token, now)
  | _ => none

/-- The digest of the token that a call is to rotate. -/
def rotates (C : Credentials) : Call → Option String
  | rotateSession _ _ digest _ _ _ => some digest
  | rotateWebSession token _ _ _ _ => some (C.sha256 token)
  | _ => none

/-- A call of one of the methods that raise presents the token of a version of a session as one
of that session, and rotates it to another one. -/
def PresentsOf (C : Credentials) (r : SessionRecord) : Call → Prop
  | rotateSession accountId sessionId digest replacement _ _ =>
    accountId = r.accountId ∧ sessionId = r.id ∧ r.tokenDigest = some digest ∧
      replacement ≠ digest
  | revokeSession accountId sessionId digest _ =>
    accountId = r.accountId ∧ sessionId = r.id ∧ r.tokenDigest = some digest
  | authenticateWebSession token _ _ | rotateWebSession token _ _ _ _
  | revokeWebSession token _ _ =>
    C.credentialId token = some r.id ∧ r.tokenDigest = some (C.sha256 token)
  | _ => False

/-- The call has got more than nothing for an answer. -/
def Accepted (C : Credentials) (s : Tables) (call : Call) : Prop :=
  ∃ answer s', call.perform C s = .ok (answer, s') ∧ answer ≠ .none

end Call

/-- One step of the system: what the calls keep. -/
theorem Sound.step (sound : Sound s) (call : Call) : Kept s (call.step C s) := by
  cases performed : call.perform C s with
  | error e =>
    rw [Call.step, performed]
    exact ⟨sound, .refl s⟩
  | ok result =>
    obtain ⟨answer, s'⟩ := result
    have stepped : call.step C s = s' := by rw [Call.step, performed]
    rw [stepped]
    cases call with
    | createPreprovisionedAccount p a =>
      obtain ⟨t, ok, rest⟩ := bind_eq_ok.mp performed
      obtain ⟨-, rfl⟩ := Prod.mk.inj (Except.ok.inj rest)
      exact sound.kept_aside (createPreprovisionedAccount_aside ok)
    | appendDevice v =>
      obtain ⟨t, ok, rest⟩ := bind_eq_ok.mp performed
      obtain ⟨-, rfl⟩ := Prod.mk.inj (Except.ok.inj rest)
      exact sound.appendDevice ok
    | revokeDevice accountId deviceId revokedAt =>
      obtain ⟨_, ok, rest⟩ := bind_eq_ok.mp performed
      obtain ⟨-, rfl⟩ := Prod.mk.inj (Except.ok.inj rest)
      exact sound.revokeDevice ok
    | revokeDeviceVersion accountId deviceId expectedVersion now =>
      obtain ⟨_, ok, rest⟩ := bind_eq_ok.mp performed
      obtain ⟨-, rfl⟩ := Prod.mk.inj (Except.ok.inj rest)
      exact sound.revokeDeviceVersion ok
    | createSession r =>
      obtain ⟨t, ok, rest⟩ := bind_eq_ok.mp performed
      obtain ⟨-, rfl⟩ := Prod.mk.inj (Except.ok.inj rest)
      exact sound.createSession ok
    | getActiveSession accountId digest now =>
      obtain ⟨-, rfl⟩ := Prod.mk.inj (Except.ok.inj performed)
      exact ⟨sound, .refl s⟩
    | rotateSession accountId sessionId digest replacement now expiresAt =>
      obtain ⟨_, ok, rest⟩ := bind_eq_ok.mp performed
      obtain ⟨-, rfl⟩ := Prod.mk.inj (Except.ok.inj rest)
      obtain ⟨current, advances, -⟩ := rotateSession_ok ok
      exact sound.advances advances
    | revokeSession accountId sessionId digest revokedAt =>
      obtain ⟨_, ok, rest⟩ := bind_eq_ok.mp performed
      obtain ⟨-, rfl⟩ := Prod.mk.inj (Except.ok.inj rest)
      obtain ⟨current, advances, -⟩ := revokeSession_ok ok
      exact sound.advances advances
    | completeWebLogin issuer subject email existing secret now expiresAt draw =>
      obtain ⟨_, ok, rest⟩ := bind_eq_ok.mp performed
      obtain ⟨-, rfl⟩ := Prod.mk.inj (Except.ok.inj rest)
      exact sound.completeWebLogin ok
    | authenticateWebSession token secret now =>
      obtain ⟨_, -, rest⟩ := bind_eq_ok.mp performed
      obtain ⟨-, rfl⟩ := Prod.mk.inj (Except.ok.inj rest)
      exact ⟨sound, .refl s⟩
    | rotateWebSession token secret now expiresAt drawn =>
      obtain ⟨_, ok, rest⟩ := bind_eq_ok.mp performed
      obtain ⟨-, rfl⟩ := Prod.mk.inj (Except.ok.inj rest)
      obtain ⟨current, t, advances, aside, -⟩ := sound.rotateWebSession ok
      have kept := sound.advances advances
      exact kept.trans (kept.sound.kept_aside aside)
    | revokeWebSession token secret now =>
      obtain ⟨_, ok, rest⟩ := bind_eq_ok.mp performed
      obtain ⟨-, rfl⟩ := Prod.mk.inj (Except.ok.inj rest)
      obtain ⟨current, advances, -⟩ := sound.revokeWebSession ok
      exact sound.advances advances

/-- Whatever a call accepts is recognized, and has not expired unless it revokes an API session. -/
theorem Sound.accepted (sound : Sound s) (presented : call.presented C = some (d, now))
    (accepted : call.Accepted C s) : ∃ r, Recognized s d r ∧
      (now < r.expiresAt ∨ call = .revokeSession r.accountId r.id d now) := by
  obtain ⟨answer, s', performed, answers⟩ := accepted
  cases call with
  | createPreprovisionedAccount | appendDevice | revokeDevice | revokeDeviceVersion
  | createSession | completeWebLogin => exact nomatch presented
  | getActiveSession accountId digest then_ =>
    obtain ⟨rfl, rfl⟩ := Prod.mk.inj (Option.some.inj presented)
    cases found : s.getActiveSession accountId digest then_ with
    | none =>
      obtain ⟨same, -⟩ := Prod.mk.inj (Except.ok.inj performed)
      rw [found] at same
      exact absurd same.symm answers
    | some r =>
      obtain ⟨recognized, unexpired⟩ := getActiveSession_some found
      exact ⟨r, recognized, .inl unexpired⟩
  | rotateSession accountId sessionId digest replacement then_ expiresAt =>
    obtain ⟨rfl, rfl⟩ := Prod.mk.inj (Option.some.inj presented)
    obtain ⟨_, ok, -⟩ := bind_eq_ok.mp performed
    obtain ⟨current, advances, unexpired⟩ := rotateSession_ok ok
    exact ⟨current, advances.recognized, .inl unexpired⟩
  | revokeSession accountId sessionId digest revokedAt =>
    obtain ⟨rfl, rfl⟩ := Prod.mk.inj (Option.some.inj presented)
    obtain ⟨_, ok, -⟩ := bind_eq_ok.mp performed
    obtain ⟨current, advances, rfl, rfl⟩ := revokeSession_ok ok
    exact ⟨current, advances.recognized, .inr rfl⟩
  | authenticateWebSession token secret then_ =>
    obtain ⟨rfl, rfl⟩ := Prod.mk.inj (Option.some.inj presented)
    obtain ⟨a, ok, -⟩ := bind_eq_ok.mp performed
    obtain ⟨recognized, unexpired, -⟩ := sound.authenticateWebSession ok
    exact ⟨a.session, recognized, .inl unexpired⟩
  | rotateWebSession token secret then_ expiresAt drawn =>
    obtain ⟨rfl, rfl⟩ := Prod.mk.inj (Option.some.inj presented)
    obtain ⟨_, ok, -⟩ := bind_eq_ok.mp performed
    obtain ⟨current, t, advances, -, unexpired⟩ := sound.rotateWebSession ok
    exact ⟨current, advances.recognized, .inl unexpired⟩
  | revokeWebSession token secret then_ =>
    obtain ⟨rfl, rfl⟩ := Prod.mk.inj (Option.some.inj presented)
    obtain ⟨_, ok, -⟩ := bind_eq_ok.mp performed
    obtain ⟨current, advances, unexpired⟩ := sound.revokeWebSession ok
    exact ⟨current, advances.recognized, .inl unexpired⟩

/-- A token that a call has rotated is gone. -/
theorem Sound.gone_of_rotated (sound : Sound s) (rotates : call.rotates C = some d)
    (accepted : call.Accepted C s) : Gone (call.step C s) d := by
  obtain ⟨answer, s', performed, -⟩ := accepted
  have stepped : call.step C s = s' := by rw [Call.step, performed]
  rw [stepped]
  cases call with
  | rotateSession accountId sessionId digest replacement now expiresAt =>
    obtain rfl := Option.some.inj rotates
    obtain ⟨_, ok, rest⟩ := bind_eq_ok.mp performed
    obtain ⟨-, rfl⟩ := Prod.mk.inj (Except.ok.inj rest)
    obtain ⟨current, advances, -⟩ := rotateSession_ok ok
    exact advances.gone
  | rotateWebSession token secret now expiresAt drawn =>
    obtain rfl := Option.some.inj rotates
    obtain ⟨_, ok, rest⟩ := bind_eq_ok.mp performed
    obtain ⟨-, rfl⟩ := Prod.mk.inj (Except.ok.inj rest)
    obtain ⟨current, t, advances, aside, -⟩ := sound.rotateWebSession ok
    exact advances.gone.later aside.grows
  | _ => exact nomatch rotates

theorem presented_of_rotates (rotates : call.rotates C = some d) :
    ∃ now, call.presented C = some (d, now) := by
  cases call with
  | rotateSession accountId sessionId digest replacement now expiresAt =>
    obtain rfl := Option.some.inj rotates
    exact ⟨now, rfl⟩
  | rotateWebSession token secret now expiresAt drawn =>
    obtain rfl := Option.some.inj rotates
    exact ⟨now, rfl⟩
  | _ => exact nomatch rotates

/-! ## Replays -/

/-- The latest version has another token than one that is superseded, which is known. -/
theorem Sound.requireToken_superseded (sound : Sound s) (mem : r ∈ s.sessions)
    (token : r.tokenDigest = some d) (superseded : Superseded s r) :
    ∃ current, s.latestSession r.accountId r.id = some current ∧
      s.requireToken current d = .error "session_replay_detected" := by
  have inside : r ∈ s.sessionsOf r.accountId r.id := mem_sessionsOf.mpr ⟨mem, rfl, rfl⟩
  cases latest : s.latestSession r.accountId r.id with
  | none => exact absurd (List.argmax_eq_none.mp latest ▸ inside) List.not_mem_nil
  | some current =>
    obtain ⟨current_mem, account, id⟩ := mem_of_latestSession latest
    have other : current.tokenDigest ≠ some d := by
      intro same
      obtain rfl : r = current := by
        refine sound.tokens r mem current current_mem ?_ (token.trans same.symm)
        rw [token]
        rfl
      exact sound.not_superseded latest superseded
    have seen : s.DigestWasSeen current.accountId current.id d :=
      ⟨r, by rwa [account, id], .inl token⟩
    refine ⟨current, rfl, ?_⟩
    rw [Tables.requireToken, require_of_not other, if_pos seen]

theorem Sound.authenticate_superseded (sound : Sound s) (mem : r ∈ s.sessions)
    (superseded : Superseded s r) {token secret : String}
    (named : C.credentialId token = some r.id) (its : r.tokenDigest = some (C.sha256 token)) :
    s.authenticateWebSession C token secret now = .error "session_replay_detected" := by
  obtain ⟨current, latest, replay⟩ := sound.requireToken_superseded mem its superseded
  have by_id : s.latestSessionById r.id = some current := by
    rw [Tables.latestSessionById, sound.sessions_of_id mem]
    exact latest
  unfold Tables.authenticateWebSession
  rw [named, present, ok_bind, by_id, present, ok_bind, replay]
  rfl

/-- A superseded token is reported as a replay. -/
theorem Sound.replay (sound : Sound s) (mem : r ∈ s.sessions) (superseded : Superseded s r)
    (presents : call.PresentsOf C r) :
    call.perform C s = .error "session_replay_detected" := by
  cases call with
  | rotateSession accountId sessionId digest replacement now expiresAt =>
    obtain ⟨rfl, rfl, token, other⟩ := presents
    obtain ⟨current, latest, replay⟩ := sound.requireToken_superseded mem token superseded
    rw [Call.perform, Tables.rotateSession, refuse, if_neg other, ok_bind, latest, present, ok_bind,
      replay]
    rfl
  | revokeSession accountId sessionId digest revokedAt =>
    obtain ⟨rfl, rfl, token⟩ := presents
    obtain ⟨current, latest, replay⟩ := sound.requireToken_superseded mem token superseded
    rw [Call.perform, Tables.revokeSession, latest, present, ok_bind, replay]
    rfl
  | authenticateWebSession token secret now =>
    rw [Call.perform, sound.authenticate_superseded mem superseded presents.1 presents.2]
    rfl
  | rotateWebSession token secret now expiresAt drawn =>
    rw [Call.perform, Tables.rotateWebSession,
      sound.authenticate_superseded mem superseded presents.1 presents.2]
    rfl
  | revokeWebSession token secret now =>
    rw [Call.perform, Tables.revokeWebSession,
      sound.authenticate_superseded mem superseded presents.1 presents.2]
    rfl
  | _ => exact absurd presents id

/-! ## Runs -/

/-- The tables after calls that have begun without any rows. -/
def after (C : Credentials) (calls : List Call) : Tables := exec (Call.step C) .bare calls

theorem sound_after (C : Credentials) (calls : List Call) : Sound (after C calls) :=
  preserves (I := Sound) sound_bare (fun _ call sound => (sound.step call).sound) calls

theorem grows_after (C : Credentials) (calls calls' : List Call) :
    Grows (after C calls) (after C (calls ++ calls')) := by
  induction calls' generalizing calls with
  | nil =>
    rw [List.append_nil]
    exact .refl _
  | cons call calls' ih =>
    have stepped : Grows (after C calls) (after C (calls ++ [call])) := by
      rw [after, after, exec_append]
      exact ((sound_after C calls).step call).grows
    rw [List.append_cons]
    exact stepped.trans (ih _)

/-- What becomes of the devices once more calls have been made. -/
structure DeviceSafety (s s' : Tables) : Prop where
  kept : ∀ v ∈ s.devices, v ∈ s'.devices
  /-- A revoked device never gets another version. -/
  final : ∀ v ∈ s.devices, v.status = .revoked → ∀ w ∈ s'.devices, w.id = v.id →
    w.version ≤ v.version
  /-- A session is of a stored account, and bound to a version of its device in which that was in
  use. -/
  bound : ∀ r ∈ s.sessions, (∃ a ∈ s.accounts, a.id = r.accountId) ∧ ∃ v ∈ s.devices,
    v.accountId = r.accountId ∧ v.id = r.deviceId ∧ v.version = r.deviceVersion ∧ v.status = .active

theorem devices_safe (C : Credentials) (calls more : List Call) :
    DeviceSafety (after C calls) (after C (calls ++ more)) where
  kept := (grows_after C calls more).devices
  final := by
    intro v mem revoked w mem' same
    have sound := sound_after C (calls ++ more)
    have kept := (grows_after C calls more).devices v mem
    have owner := owner_eq (fun _ => rfl) sound.devices mem' kept same
    by_contra above
    have both := (sound.devices v.accountId v.id).rel_of_number_lt
      (R := fun a b : DeviceRegistration => a.status = .active ∧ b.status = .revoked)
      (fun a b link => link a rfl) (fun _ _ _ first second => ⟨first.1, second.2⟩)
      (mem_devicesOf.mpr ⟨kept, rfl, rfl⟩) (mem_devicesOf.mpr ⟨mem', owner, same⟩)
      (Nat.lt_of_not_le above)
    rw [revoked] at both
    exact absurd both.1 (by decide)
  bound := by
    intro r mem
    obtain ⟨v, of, version, active⟩ := (sound_after C calls).bound r mem
    obtain ⟨there, account, id⟩ := mem_devicesOf.mp of
    exact ⟨(sound_after C calls).owned r mem, v, there, account, id, version, active⟩

/-- What becomes of the tokens in a run. -/
structure TokenSafety (C : Credentials) (calls : List Call) : Prop where
  /-- The versions of a session are contiguous, and each names the token of the one before. -/
  contiguous : ∀ sessionId, Log (·.version) SessionLink
    ((after C calls).sessions.rows.filter (·.id = sessionId))
  /-- A session has one live token at most. -/
  live : ∀ sessionId now d e, Live (after C calls) sessionId now d →
    Live (after C calls) sessionId now e → d = e
  /-- A token that has been rotated away, or of which the session or the device has been
  revoked, is not accepted again. -/
  gone : ∀ before mid call rest, calls = before ++ mid ++ call :: rest →
    ∀ d now, Gone (after C before) d → call.presented C = some (d, now) →
      ¬ call.Accepted C (after C (before ++ mid))
  /-- A token that has expired is not accepted. -/
  expired : ∀ before call rest, calls = before ++ call :: rest →
    ∀ r ∈ (after C before).sessions, ∀ d now, r.tokenDigest = some d → r.expiresAt ≤ now →
      call.presented C = some (d, now) → ¬ call.Accepted C (after C before)
  /-- Of the calls that rotate one token, one succeeds at most. -/
  once : ∀ before call mid call' rest, calls = before ++ call :: mid ++ call' :: rest →
    ∀ d, call.rotates C = some d → call'.rotates C = some d → call.Accepted C (after C before) →
      ¬ call'.Accepted C (after C (before ++ call :: mid))
  /-- A superseded token is reported as a replay, and nothing changes. -/
  replay : ∀ before call rest, calls = before ++ call :: rest →
    ∀ r ∈ (after C before).sessions, Superseded (after C before) r → call.PresentsOf C r →
      call.perform C (after C before) = .error "session_replay_detected" ∧
        call.step C (after C before) = after C before

/-- Where an API session is revoked, the token that it is revoked with has not expired. -/
def RevokesUnexpired (s : Tables) : Call → Prop
  | .revokeSession accountId sessionId digest revokedAt =>
    ∀ r, Recognized s digest r → r.accountId = accountId → r.id = sessionId →
      revokedAt < r.expiresAt
  | _ => True

/-- A recognized token revokes its session, whenever that is. -/
theorem Sound.exists_revoked (sound : Sound s) (recognized : Recognized s d r) (at_ : Instant) :
    ∃ q s', s.revokeSession r.accountId r.id d at_ = .ok (q, s') := by
  obtain ⟨v, latest, version⟩ := recognized.device
  obtain ⟨a, a_mem, a_id⟩ := sound.owned r recognized.mem
  obtain ⟨v_mem, v_account, v_id⟩ := mem_of_latestDevice latest
  have account : s.accounts.get? r.accountId = some a := Table.get?_eq_some.mpr ⟨a_mem, a_id⟩
  have device : s.devices.get? (r.deviceId, v.version) = some v :=
    Table.get?_eq_some.mpr ⟨v_mem, Prod.ext v_id rfl⟩
  have free : ∀ q ∈ s.sessions, key q ≠ key (r.ended r.accountId v.version d at_) := by
    intro q mem same
    obtain ⟨same, next⟩ := Prod.mk.inj same
    have later : r.version < q.version := by
      rw [next]
      exact Nat.lt_succ_self r.version
    exact sound.not_superseded recognized.latest ⟨q, mem, same, later⟩
  obtain ⟨sessions, inserted⟩ := Table.exists_insert? free
  refine ⟨r.ended r.accountId v.version d at_, { s with sessions := sessions }, ?_⟩
  refine bind_eq_ok.mpr ⟨r, present_eq_ok.mpr recognized.latest, ?_⟩
  refine bind_eq_ok.mpr ⟨(), require_of recognized.token, ?_⟩
  refine bind_eq_ok.mpr ⟨v, present_eq_ok.mpr latest, ?_⟩
  refine bind_eq_ok.mpr ⟨(), require_of version.symm, ?_⟩
  refine bind_eq_ok.mpr ⟨_, ?_, rfl⟩
  refine bind_eq_ok.mpr ⟨a, present_eq_ok.mpr account, ?_⟩
  refine bind_eq_ok.mpr ⟨v, present_eq_ok.mpr device, ?_⟩
  refine bind_eq_ok.mpr ⟨(), require_of v_account, ?_⟩
  have tokenless : ¬ (r.ended r.accountId v.version d at_).tokenDigest.isSome := Bool.false_ne_true
  refine bind_eq_ok.mpr ⟨(), refuse_eq_ok.mpr fun token => tokenless token.1, ?_⟩
  exact bind_eq_ok.mpr ⟨sessions, present_eq_ok.mpr inserted, rfl⟩

namespace ExpiredToken

def credentials : Credentials where
  sha256 := id
  uuid5 _ := Uuid.ofNat 0
  hmac _ message := message
  uuid _ := none

def digest : String := "1111111111111111111111111111111111111111111111111111111111111111"

def device : DeviceRegistration :=
  ⟨Uuid.ofNat 3, Uuid.ofNat 2, digest, .active, none, 1, DeviceStatus.active_revocation, Nat.one_pos⟩

def session : SessionRecord :=
  .issued (Uuid.ofNat 4) (Uuid.ofNat 2) (Uuid.ofNat 3) 1 digest (show (0 : Instant) < 10 by decide)

/-- A session that expires at 10. -/
def calls : List Call := [
  .createPreprovisionedAccount ⟨Uuid.ofNat 1, .user, "corvus-account", "account:2"⟩
    ⟨Uuid.ofNat 2, Uuid.ofNat 1, "user@example.com"⟩,
  .appendDevice device,
  .createSession session]

/-- The session is revoked at 20. -/
def revocation : Call := .revokeSession (Uuid.ofNat 2) (Uuid.ofNat 4) digest 20

theorem sessions_rows : (after credentials calls).sessions.rows = [session] := by
  rfl

end ExpiredToken

end Corvus.Accounts
