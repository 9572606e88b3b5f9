import Corvus.Accounts.Store
import Corvus.Library.Log

/-!
# The tokens of a session

The versions of a session are a log in which each one names the token of the one before it. A
token is live as long as its version is the latest one and the device is at the version that
the session was bound to, which it is no longer once it is revoked. A token that is not live
is refused wherever it is presented, but for one way: an API session is revoked with a token
that has expired.
-/

namespace Corvus.Accounts

open Run

variable {C : Credentials} {s s' s'' : Tables} {r q current : SessionRecord}
  {v : DeviceRegistration} {d e : String} {conflict : String}

/-! ## Insertions -/

/-- What an insertion of a session has checked, and what it leaves. -/
structure SessionInserted (s : Tables) (r : SessionRecord) (s' : Tables) : Prop where
  account : ∃ a ∈ s.accounts, a.id = r.accountId
  fresh : r.tokenDigest.isSome → ∀ q ∈ s.sessions, q.tokenDigest ≠ r.tokenDigest
  free : ∀ q ∈ s.sessions, (q.id, q.version) ≠ (r.id, r.version)
  rows : s'.sessions.rows = s.sessions.rows ++ [r]
  rest : s' = { s with sessions := s'.sessions }

theorem insertSession_ok (ok : s.insertSession r conflict = .ok s') : SessionInserted s r s' := by
  obtain ⟨a, found, rest⟩ := bind_eq_ok.mp ok
  obtain ⟨d, -, rest⟩ := bind_eq_ok.mp rest
  obtain ⟨_, -, rest⟩ := bind_eq_ok.mp rest
  obtain ⟨_, fresh, rest⟩ := bind_eq_ok.mp rest
  obtain ⟨sessions, inserted, rest⟩ := bind_eq_ok.mp rest
  obtain rfl := Except.ok.inj rest
  obtain ⟨free, rows⟩ := Table.insert?_eq_some.mp (present_eq_ok.mp inserted)
  have fresh := refuse_eq_ok.mp fresh
  refine ⟨⟨a, Table.get?_eq_some.mp (present_eq_ok.mp found)⟩, ?_, ?_, rows, rfl⟩
  · intro token q mem same
    exact fresh ⟨token, q, mem, same⟩
  · intro q mem same
    exact free (List.mem_map.mpr ⟨q, mem, same⟩)

/-- What an insertion of a device leaves. -/
structure DeviceInserted (s : Tables) (v : DeviceRegistration) (s' : Tables) : Prop where
  free : ∀ w ∈ s.devices, (w.id, w.version) ≠ (v.id, v.version)
  rows : s'.devices.rows = s.devices.rows ++ [v]
  rest : s' = { s with devices := s'.devices }

theorem insertDevice_ok (ok : s.insertDevice v conflict = .ok s') : DeviceInserted s v s' := by
  obtain ⟨_, -, rest⟩ := bind_eq_ok.mp ok
  obtain ⟨devices, inserted, rest⟩ := bind_eq_ok.mp rest
  obtain rfl := Except.ok.inj rest
  obtain ⟨free, rows⟩ := Table.insert?_eq_some.mp (present_eq_ok.mp inserted)
  exact ⟨fun w mem same => free (List.mem_map.mpr ⟨w, mem, same⟩), rows, rfl⟩

/-- A transaction that leaves the sessions and the devices as they are. -/
structure Aside (s s' : Tables) : Prop where
  sessions : s'.sessions = s.sessions
  devices : s'.devices = s.devices
  accounts : ∀ a ∈ s.accounts, a ∈ s'.accounts

theorem Aside.refl (s : Tables) : Aside s s := ⟨rfl, rfl, fun _ => id⟩

theorem Aside.trans (first : Aside s s') (second : Aside s' s'') : Aside s s'' where
  sessions := second.sessions.trans first.sessions
  devices := second.devices.trans first.devices
  accounts a mem := second.accounts a (first.accounts a mem)

theorem insertPrincipal_aside {p : Principal} (ok : s.insertPrincipal p conflict = .ok s') :
    Aside s s' := by
  obtain ⟨_, -, rest⟩ := bind_eq_ok.mp ok
  obtain ⟨_, -, rest⟩ := bind_eq_ok.mp rest
  obtain rfl := Except.ok.inj rest
  exact ⟨rfl, rfl, fun _ => id⟩

theorem insertAccount_aside {a : Account} (ok : s.insertAccount a conflict = .ok s') :
    Aside s s' := by
  obtain ⟨_, -, rest⟩ := bind_eq_ok.mp ok
  obtain ⟨_, -, rest⟩ := bind_eq_ok.mp rest
  obtain ⟨_, inserted, rest⟩ := bind_eq_ok.mp rest
  obtain rfl := Except.ok.inj rest
  have rows := (Table.insert?_eq_some.mp (present_eq_ok.mp inserted)).2
  exact ⟨rfl, rfl, fun _ mem => Table.mem_append_of_mem rows mem⟩

theorem insertExternalIdentity_aside {i : ExternalIdentity}
    (ok : s.insertExternalIdentity i conflict = .ok s') : Aside s s' := by
  obtain ⟨_, -, rest⟩ := bind_eq_ok.mp ok
  obtain ⟨_, -, rest⟩ := bind_eq_ok.mp rest
  obtain ⟨_, -, rest⟩ := bind_eq_ok.mp rest
  obtain rfl := Except.ok.inj rest
  exact ⟨rfl, rfl, fun _ => id⟩

theorem insertBinding_aside {b : WebSessionBinding} (ok : s.insertBinding b conflict = .ok s') :
    Aside s s' := by
  obtain ⟨_, -, rest⟩ := bind_eq_ok.mp ok
  obtain ⟨_, -, rest⟩ := bind_eq_ok.mp rest
  obtain ⟨_, -, rest⟩ := bind_eq_ok.mp rest
  obtain rfl := Except.ok.inj rest
  exact ⟨rfl, rfl, fun _ => id⟩

theorem createPreprovisionedAccount_aside {p : Principal} {a : Account}
    (ok : s.createPreprovisionedAccount p a = .ok s') : Aside s s' := by
  obtain ⟨_, -, rest⟩ := bind_eq_ok.mp ok
  obtain ⟨_, -, rest⟩ := bind_eq_ok.mp rest
  obtain ⟨_, principal, rest⟩ := bind_eq_ok.mp rest
  exact (insertPrincipal_aside principal).trans (insertAccount_aside rest)

theorem accountForEmail_aside {email : String} {draw : Tables.LoginDraw} {a : Account}
    (ok : s.accountForEmail email draw = .ok (a, s')) : Aside s s' := by
  unfold Tables.accountForEmail at ok
  split at ok
  · obtain ⟨_, -, rest⟩ := bind_eq_ok.mp ok
    obtain ⟨_, -, rest⟩ := bind_eq_ok.mp rest
    obtain ⟨_, -, rest⟩ := bind_eq_ok.mp rest
    obtain ⟨-, rfl⟩ := Prod.mk.inj (Except.ok.inj rest)
    exact .refl s
  · obtain ⟨_, principal, rest⟩ := bind_eq_ok.mp ok
    obtain ⟨_, account, rest⟩ := bind_eq_ok.mp rest
    obtain ⟨-, rfl⟩ := Prod.mk.inj (Except.ok.inj rest)
    exact (insertPrincipal_aside principal).trans (insertAccount_aside account)

theorem completeGoogleIdentity_aside {issuer subject email : String} {draw : Tables.LoginDraw}
    {a : Account} (ok : s.completeGoogleIdentity issuer subject email draw = .ok (a, s')) :
    Aside s s' := by
  unfold Tables.completeGoogleIdentity at ok
  split at ok
  · obtain ⟨_, -, rest⟩ := bind_eq_ok.mp ok
    obtain ⟨_, -, rest⟩ := bind_eq_ok.mp rest
    obtain ⟨-, rfl⟩ := Prod.mk.inj (Except.ok.inj rest)
    exact .refl s
  · obtain ⟨⟨_, _⟩, account, rest⟩ := bind_eq_ok.mp ok
    obtain ⟨_, identity, rest⟩ := bind_eq_ok.mp rest
    obtain ⟨-, rfl⟩ := Prod.mk.inj (Except.ok.inj rest)
    exact (accountForEmail_aside account).trans (insertExternalIdentity_aside identity)

/-! ## The histories -/

/-- A version names the token of the one before it. -/
def SessionLink (last : Option SessionRecord) (r : SessionRecord) : Prop :=
  r.predecessorDigest = last.bind (·.tokenDigest)

/-- A device that has another version was in use and is revoked. -/
def DeviceLink (last : Option DeviceRegistration) (v : DeviceRegistration) : Prop :=
  ∀ w ∈ last, w.status = .active ∧ v.status = .revoked

/-- The versions of the devices and of the sessions, wherever the calls have led. -/
structure Sound (s : Tables) : Prop where
  sessions : ∀ accountId sessionId, Log (·.version) SessionLink (s.sessionsOf accountId sessionId)
  devices : ∀ accountId deviceId, Log (·.version) DeviceLink (s.devicesOf accountId deviceId)
  tokens : ∀ r ∈ s.sessions, ∀ q ∈ s.sessions, r.tokenDigest.isSome →
    r.tokenDigest = q.tokenDigest → r = q
  /-- A session is bound to a version of its device in which that is in use. -/
  bound : ∀ r ∈ s.sessions, ∃ v ∈ s.devicesOf r.accountId r.deviceId,
    v.version = r.deviceVersion ∧ v.status = .active
  owned : ∀ r ∈ s.sessions, ∃ a ∈ s.accounts, a.id = r.accountId

theorem sound_bare : Sound .bare where
  sessions _ _ := Log.nil
  devices _ _ := Log.nil
  tokens _ mem := absurd mem Table.not_mem_empty
  bound _ mem := absurd mem Table.not_mem_empty
  owned _ mem := absurd mem Table.not_mem_empty

theorem mem_sessionsOf {accountId sessionId : Uuid} : r ∈ s.sessionsOf accountId sessionId ↔
    r ∈ s.sessions ∧ r.accountId = accountId ∧ r.id = sessionId := by
  rw [Tables.sessionsOf, List.mem_filter, decide_eq_true_iff, Table.mem_iff]

theorem mem_devicesOf {accountId deviceId : Uuid} : v ∈ s.devicesOf accountId deviceId ↔
    v ∈ s.devices ∧ v.accountId = accountId ∧ v.id = deviceId := by
  rw [Tables.devicesOf, List.mem_filter, decide_eq_true_iff, Table.mem_iff]

/-- Rows that are kept in a log for each owner have one owner for each id. -/
theorem owner_eq {α : Type} [Keyed α (Uuid × Nat)] {t : Table α} {owner id : α → Uuid}
    {number : α → Nat} {link : Option α → α → Prop} (keys : ∀ x : α, key x = (id x, number x))
    (logs : ∀ a i, Log number link (t.rows.filter fun x => owner x = a ∧ id x = i)) {x y : α}
    (hx : x ∈ t) (hy : y ∈ t) (same : id x = id y) : owner x = owner y := by
  have first : ∀ z ∈ t, ∃ w ∈ t, owner w = owner z ∧ key w = (id z, 1) := by
    intro z mem
    have inside : z ∈ t.rows.filter fun x => owner x = owner z ∧ id x = id z :=
      List.mem_filter.mpr ⟨mem, by simp⟩
    obtain ⟨w, found, one⟩ := (logs (owner z) (id z)).exists_first inside
    obtain ⟨w_mem, its⟩ := List.mem_filter.mp found
    obtain ⟨its_owner, its_id⟩ := of_decide_eq_true its
    exact ⟨w, w_mem, its_owner, by rw [keys, its_id, one]⟩
  obtain ⟨x', x_mem, x_owner, x_key⟩ := first x hx
  obtain ⟨y', y_mem, y_owner, y_key⟩ := first y hy
  obtain rfl : x' = y' := Table.eq_of_key x_mem y_mem (by rw [x_key, y_key, same])
  exact x_owner.symm.trans y_owner

theorem Sound.account_eq (sound : Sound s) (hr : r ∈ s.sessions) (hq : q ∈ s.sessions)
    (same : r.id = q.id) : r.accountId = q.accountId :=
  owner_eq (fun _ => rfl) sound.sessions hr hq same

/-- The versions of a session, whoever's it is. -/
theorem Sound.sessions_of_id (sound : Sound s) (mem : r ∈ s.sessions) :
    s.sessions.rows.filter (·.id = r.id) = s.sessionsOf r.accountId r.id := by
  refine List.filter_congr fun q inside => decide_eq_decide.mpr ?_
  exact ⟨fun same => ⟨sound.account_eq inside mem same, same⟩, fun its => its.2⟩

theorem Sound.contiguous (sound : Sound s) (sessionId : Uuid) :
    Log (·.version) SessionLink (s.sessions.rows.filter (·.id = sessionId)) := by
  cases rows : s.sessions.rows.filter (·.id = sessionId) with
  | nil => exact Log.nil
  | cons r rest =>
    have inside : r ∈ s.sessions.rows.filter (·.id = sessionId) := rows ▸ List.mem_cons_self
    obtain ⟨mem, its⟩ := List.mem_filter.mp inside
    obtain rfl := of_decide_eq_true its
    rw [← rows, sound.sessions_of_id mem]
    exact sound.sessions _ _

/-! ## What the insertions keep -/

theorem Sound.aside (sound : Sound s) (aside : Aside s s') : Sound s' := by
  have sessions : s'.sessionsOf = s.sessionsOf := by
    unfold Tables.sessionsOf
    rw [aside.sessions]
  have devices : s'.devicesOf = s.devicesOf := by
    unfold Tables.devicesOf
    rw [aside.devices]
  constructor
  · rw [sessions]
    exact sound.sessions
  · rw [devices]
    exact sound.devices
  · rw [aside.sessions]
    exact sound.tokens
  · rw [aside.sessions, devices]
    exact sound.bound
  · intro r mem
    rw [aside.sessions] at mem
    obtain ⟨a, inside, its⟩ := sound.owned r mem
    exact ⟨a, aside.accounts a inside, its⟩

/-- A new version of a device. -/
theorem Sound.insertDevice (sound : Sound s) (inserted : DeviceInserted s v s')
    (next : v.version = (s.devicesOf v.accountId v.id).length + 1)
    (link : DeviceLink (s.devicesOf v.accountId v.id).getLast? v) : Sound s' := by
  have sessions : s'.sessions = s.sessions := by rw [inserted.rest]
  have accounts : s'.accounts = s.accounts := by rw [inserted.rest]
  have sessionsOf : s'.sessionsOf = s.sessionsOf := by
    unfold Tables.sessionsOf
    rw [sessions]
  constructor
  · rw [sessionsOf]
    exact sound.sessions
  · intro accountId deviceId
    rw [Tables.devicesOf, inserted.rows]
    refine (sound.devices accountId deviceId).filter_append fun its => ?_
    obtain ⟨rfl, rfl⟩ := of_decide_eq_true its
    exact ⟨next, link⟩
  · rw [sessions]
    exact sound.tokens
  · intro r mem
    rw [sessions] at mem
    obtain ⟨w, inside, version, active⟩ := sound.bound r mem
    obtain ⟨inside, its⟩ := mem_devicesOf.mp inside
    have kept := Table.mem_append_of_mem inserted.rows inside
    exact ⟨w, mem_devicesOf.mpr ⟨kept, its⟩, version, active⟩
  · rw [sessions, accounts]
    exact sound.owned

/-- A new version of a session. -/
theorem Sound.insertSession (sound : Sound s) (inserted : SessionInserted s r s')
    (next : r.version = (s.sessionsOf r.accountId r.id).length + 1)
    (link : SessionLink (s.sessionsOf r.accountId r.id).getLast? r)
    (bound : ∃ v ∈ s.devicesOf r.accountId r.deviceId,
      v.version = r.deviceVersion ∧ v.status = .active) : Sound s' := by
  have devices : s'.devices = s.devices := by rw [inserted.rest]
  have accounts : s'.accounts = s.accounts := by rw [inserted.rest]
  have devicesOf : s'.devicesOf = s.devicesOf := by
    unfold Tables.devicesOf
    rw [devices]
  have split : ∀ q ∈ s'.sessions, q ∈ s.sessions ∨ q = r := by
    intro q mem
    rwa [Table.mem_iff, inserted.rows, List.mem_append, List.mem_singleton] at mem
  constructor
  · intro accountId sessionId
    rw [Tables.sessionsOf, inserted.rows]
    refine (sound.sessions accountId sessionId).filter_append fun its => ?_
    obtain ⟨rfl, rfl⟩ := of_decide_eq_true its
    exact ⟨next, link⟩
  · rw [devicesOf]
    exact sound.devices
  · intro p hp q hq token same
    obtain hp | rfl := split p hp
    · obtain hq | rfl := split q hq
      · exact sound.tokens p hp q hq token same
      · exact absurd same (inserted.fresh (same ▸ token) p hp)
    · obtain hq | rfl := split q hq
      · exact absurd same.symm (inserted.fresh token q hq)
      · rfl
  · intro q mem
    rw [devicesOf]
    obtain mem | rfl := split q mem
    · exact sound.bound q mem
    · exact bound
  · intro q mem
    rw [accounts]
    obtain mem | rfl := split q mem
    · exact sound.owned q mem
    · exact inserted.account

/-- The latest version of a session is the last one. -/
theorem Sound.latestSession (sound : Sound s) (accountId sessionId : Uuid) :
    s.latestSession accountId sessionId = (s.sessionsOf accountId sessionId).getLast? :=
  (sound.sessions accountId sessionId).argmax

theorem Sound.latestDevice (sound : Sound s) (accountId deviceId : Uuid) :
    s.latestDevice accountId deviceId = (s.devicesOf accountId deviceId).getLast? :=
  (sound.devices accountId deviceId).argmax

theorem mem_of_latestSession {accountId sessionId : Uuid}
    (latest : s.latestSession accountId sessionId = some r) :
    r ∈ s.sessions ∧ r.accountId = accountId ∧ r.id = sessionId :=
  mem_sessionsOf.mp (List.argmax_mem latest)

theorem mem_of_latestDevice {accountId deviceId : Uuid}
    (latest : s.latestDevice accountId deviceId = some v) :
    v ∈ s.devices ∧ v.accountId = accountId ∧ v.id = deviceId :=
  mem_devicesOf.mp (List.argmax_mem latest)

/-- Nothing has the number one but the first of a log, so that a first version begins one. -/
theorem Sound.first_session (sound : Sound s) (inserted : SessionInserted s r s')
    (first : r.version = 1) : s.sessionsOf r.accountId r.id = [] := by
  refine List.eq_nil_iff_forall_not_mem.mpr fun q mem => ?_
  obtain ⟨p, inside, one⟩ := (sound.sessions _ _).exists_first mem
  obtain ⟨inside, -, same⟩ := mem_sessionsOf.mp inside
  exact inserted.free p inside (by rw [same, one, first])

theorem Sound.first_device (sound : Sound s) (inserted : DeviceInserted s v s')
    (first : v.version = 1) : s.devicesOf v.accountId v.id = [] := by
  refine List.eq_nil_iff_forall_not_mem.mpr fun w mem => ?_
  obtain ⟨u, inside, one⟩ := (sound.devices _ _).exists_first mem
  obtain ⟨inside, -, same⟩ := mem_devicesOf.mp inside
  exact inserted.free u inside (by rw [same, one, first])

/-- A first version of a device. -/
theorem Sound.beginDevice (sound : Sound s) (inserted : DeviceInserted s v s')
    (first : v.version = 1) : Sound s' := by
  have none := sound.first_device inserted first
  refine sound.insertDevice inserted ?_ ?_
  · rw [none, first]
    rfl
  · rw [none]
    exact fun w mem => nomatch mem

/-- A first version of a session, on a device in use. -/
theorem Sound.beginSession (sound : Sound s) (inserted : SessionInserted s r s')
    (first : r.version = 1) (bound : ∃ v ∈ s.devicesOf r.accountId r.deviceId,
      v.version = r.deviceVersion ∧ v.status = .active) : Sound s' := by
  have none := sound.first_session inserted first
  refine sound.insertSession inserted ?_ ?_ bound
  · rw [none, first]
    rfl
  · rw [none]
    refine Option.not_isSome_iff_eq_none.mp fun has => ?_
    have later := r.predecessor.mp has
    omega

/-! ## The calls -/

/-- Versions are never changed or removed. -/
structure Grows (s s' : Tables) : Prop where
  sessions : ∀ r ∈ s.sessions, r ∈ s'.sessions
  devices : ∀ v ∈ s.devices, v ∈ s'.devices

theorem Grows.refl (s : Tables) : Grows s s := ⟨fun _ => id, fun _ => id⟩

theorem Grows.trans (first : Grows s s') (second : Grows s' s'') : Grows s s'' where
  sessions r mem := second.sessions r (first.sessions r mem)
  devices v mem := second.devices v (first.devices v mem)

theorem Aside.grows (aside : Aside s s') : Grows s s' where
  sessions _ mem := aside.sessions ▸ mem
  devices _ mem := aside.devices ▸ mem

theorem SessionInserted.grows (inserted : SessionInserted s r s') : Grows s s' where
  sessions _ mem := Table.mem_append_of_mem inserted.rows mem
  devices v mem := by
    rw [inserted.rest]
    exact mem

theorem DeviceInserted.grows (inserted : DeviceInserted s v s') : Grows s s' where
  sessions r mem := by
    rw [inserted.rest]
    exact mem
  devices _ mem := Table.mem_append_of_mem inserted.rows mem

/-- What the calls keep. -/
structure Kept (s s' : Tables) : Prop where
  sound : Sound s'
  grows : Grows s s'

theorem Kept.trans (first : Kept s s') (second : Kept s' s'') : Kept s s'' :=
  ⟨second.sound, first.grows.trans second.grows⟩

theorem Sound.kept_aside (sound : Sound s) (aside : Aside s s') : Kept s s' :=
  ⟨sound.aside aside, aside.grows⟩

/-- Whichever way a device is revoked, its latest version was in use. -/
theorem Sound.kept_revoked (sound : Sound s) {accountId deviceId : Uuid} {at_ : Instant}
    (latest : s.latestDevice accountId deviceId = some v) (active : ¬ v.status = .revoked)
    (inserted : DeviceInserted s (v.revoked at_) s') : Kept s s' := by
  obtain ⟨-, rfl, rfl⟩ := mem_of_latestDevice latest
  rw [sound.latestDevice] at latest
  refine ⟨sound.insertDevice inserted ?_ ?_, inserted.grows⟩
  · have number := (sound.devices _ _).number_of_getLast? latest
    exact congrArg (· + 1) number
  · intro w last
    obtain rfl : v = w := Option.some.inj (latest.symm.trans last)
    refine ⟨?_, rfl⟩
    cases status : v.status with
    | active => rfl
    | revoked => exact absurd status active

/-- A device is revoked unless it has been before. -/
theorem Sound.revokes (sound : Sound s) {accountId deviceId : Uuid} {at_ : Instant}
    {conflict : String} {current : DeviceRegistration}
    (latest : s.latestDevice accountId deviceId = some current)
    (ok : (if current.status = .revoked then .ok (current, s)
      else do
        let s ← s.insertDevice (current.revoked at_) conflict
        return (current.revoked at_, s)) = .ok (v, s')) : Kept s s' := by
  by_cases revoked : current.status = .revoked
  · rw [if_pos revoked] at ok
    obtain ⟨-, rfl⟩ := Prod.mk.inj (Except.ok.inj ok)
    exact ⟨sound, .refl s⟩
  · rw [if_neg revoked] at ok
    obtain ⟨_, inserted, rest⟩ := bind_eq_ok.mp ok
    obtain ⟨-, rfl⟩ := Prod.mk.inj (Except.ok.inj rest)
    exact sound.kept_revoked latest revoked (insertDevice_ok inserted)

theorem Sound.revokeDevice (sound : Sound s) {accountId deviceId : Uuid} {at_ : Instant}
    (ok : s.revokeDevice accountId deviceId at_ = .ok (v, s')) : Kept s s' := by
  obtain ⟨current, latest, rest⟩ := bind_eq_ok.mp ok
  exact sound.revokes (present_eq_ok.mp latest) rest

theorem Sound.revokeDeviceVersion (sound : Sound s) {accountId deviceId : Uuid} {expected : Nat}
    {now : Instant} (ok : s.revokeDeviceVersion accountId deviceId expected now = .ok (v, s')) :
    Kept s s' := by
  obtain ⟨current, latest, rest⟩ := bind_eq_ok.mp ok
  obtain ⟨_, -, rest⟩ := bind_eq_ok.mp rest
  exact sound.revokes (present_eq_ok.mp latest) rest

theorem Sound.appendDevice (sound : Sound s) (ok : s.appendDevice v = .ok s') : Kept s s' := by
  obtain ⟨_, first, rest⟩ := bind_eq_ok.mp ok
  obtain ⟨_, -, rest⟩ := bind_eq_ok.mp rest
  have inserted := insertDevice_ok rest
  exact ⟨sound.beginDevice inserted (require_eq_ok.mp first), inserted.grows⟩

theorem Sound.createSession (sound : Sound s) (ok : s.createSession r = .ok s') : Kept s s' := by
  obtain ⟨_, first, rest⟩ := bind_eq_ok.mp ok
  obtain ⟨device, latest, rest⟩ := bind_eq_ok.mp rest
  obtain ⟨_, active, rest⟩ := bind_eq_ok.mp rest
  obtain ⟨_, version, rest⟩ := bind_eq_ok.mp rest
  have inserted := insertSession_ok rest
  refine ⟨sound.beginSession inserted (require_eq_ok.mp first).1 ?_, inserted.grows⟩
  exact ⟨device, List.argmax_mem (present_eq_ok.mp latest), (require_eq_ok.mp version).symm,
    require_eq_ok.mp active⟩

/-- The device of a login is in use. -/
theorem Sound.loginDevice (sound : Sound s) {account : Account} {existing token : Option String}
    {draw : Tables.LoginDraw} (ok : s.loginDevice C account existing draw = .ok (v, token, s')) :
    Kept s s' ∧ v ∈ s'.devicesOf account.id v.id ∧ v.status = .active := by
  unfold Tables.loginDevice at ok
  dsimp only at ok
  split at ok
  · rename_i device shown
    obtain ⟨rfl, same⟩ := Prod.mk.inj (Except.ok.inj ok)
    obtain ⟨-, rfl⟩ := Prod.mk.inj same
    obtain ⟨_, -, rest⟩ := Option.bind_eq_some_iff.mp shown
    obtain ⟨_, -, rest⟩ := Option.bind_eq_some_iff.mp rest
    obtain ⟨latest, fits⟩ := Option.filter_eq_some_iff.mp rest
    obtain ⟨mem, its⟩ := mem_of_latestDevice latest
    refine ⟨⟨sound, .refl s⟩, mem_devicesOf.mpr ⟨mem, its.1, rfl⟩, ?_⟩
    exact (of_decide_eq_true fits).1
  · obtain ⟨_, inserted, rest⟩ := bind_eq_ok.mp ok
    obtain ⟨rfl, same⟩ := Prod.mk.inj (Except.ok.inj rest)
    obtain ⟨-, rfl⟩ := Prod.mk.inj same
    have inserted := insertDevice_ok inserted
    refine ⟨⟨sound.beginDevice inserted rfl, inserted.grows⟩, ?_, rfl⟩
    exact mem_devicesOf.mpr ⟨Table.mem_of_append inserted.rows, rfl, rfl⟩

theorem Sound.completeWebLogin (sound : Sound s) {issuer subject email secret : String}
    {existing : Option String} {now expiresAt : Instant} {draw : Tables.LoginDraw}
    {login : WebLoginResult} (ok : s.completeWebLogin C issuer subject email existing secret now
      expiresAt draw = .ok (login, s')) : Kept s s' := by
  obtain ⟨⟨account, s₁⟩, identity, rest⟩ := bind_eq_ok.mp ok
  obtain ⟨⟨device, token, s₂⟩, bound, rest⟩ := bind_eq_ok.mp rest
  obtain ⟨⟨expires⟩, -, rest⟩ := bind_eq_ok.mp rest
  obtain ⟨s₃, inserted, rest⟩ := bind_eq_ok.mp rest
  obtain ⟨s₄, binding, rest⟩ := bind_eq_ok.mp rest
  obtain ⟨-, rfl⟩ := Prod.mk.inj (Except.ok.inj rest)
  have kept := sound.kept_aside (completeGoogleIdentity_aside identity)
  obtain ⟨kept', mem, active⟩ := kept.sound.loginDevice bound
  have inserted := insertSession_ok inserted
  have sound' := kept'.sound.beginSession inserted rfl ⟨device, mem, rfl, active⟩
  have last := sound'.kept_aside (insertBinding_aside binding)
  exact (kept.trans kept').trans (.trans ⟨sound', inserted.grows⟩ last)

end Corvus.Accounts
