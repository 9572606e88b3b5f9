import Corvus.Accounts.Statements

/-!
# One login identity for an account

However the statements of the sessions come in between each other, an identity stays bound to
one account, an address has one account, and a login that raises leaves no row behind. Two who
sign in never share an account as long as nobody else has bound it between the count of its
identities and the commit of the login that relies on it.
-/

namespace Corvus.Accounts

open Dialogue ReadCommitted
open ReadCommitted.Database (mem_own)

/-- The issuer and the subject that a session signs in with. -/
def loginOf (requests : List Request) (n : Nat) : Option (String × String) :=
  requests[n]?.bind Request.login?

/-- What there is in a state of the server and in a later one. -/
structure Bound (h h' : Server) : Prop where
  kept : h.db.committed <+: h'.db.committed
  identity : ∀ n n' i j, (n, .identity i) ∈ h.db.committed → (n', .identity j) ∈ h'.db.committed →
    i.issuer = j.issuer → i.subject = j.subject → i = j
  account : ∀ n i, (n, .identity i) ∈ h.db.committed →
    ∃ n' a, (n', .account a) ∈ h.db.committed ∧ a.id = i.accountId
  email : ∀ n n' a b, (n, .account a) ∈ h.db.committed → (n', .account b) ∈ h'.db.committed →
    a.normalizedEmail = b.normalizedEmail → a = b
  session : ∀ n r, (n, .session r) ∈ h.db.committed → ∃ pair,
    loginOf h.requests n = some pair ∧ Signs (h.db.committed.map Prod.snd) pair r.accountId
  returned : ∀ (n : Nat) c account, h.sessions[n]? = some c → c.rest = .done (.ok (some account)) →
    ∃ pair, c.request.login? = some pair ∧ Signs (h.db.committed.map Prod.snd) pair account.id
  raised : ∀ (n : Nat) c e, h.sessions[n]? = some c → c.rest = .done (.error e) →
    ∀ r ∈ h.db.committed ++ h.db.pending, r.1 ≠ n

/-- Who has sessions on one account is one, unless an identity has been linked to it. -/
def OneLogin (h : Server) : Prop :=
  ∀ n n' r r', (n, .session r) ∈ h.db.committed → (n', .session r') ∈ h.db.committed →
    r.accountId = r'.accountId → loginOf h.requests n = loginOf h.requests n' ∨
      ∃ m i, (m, .identity i) ∈ h.db.committed ∧
        h.requests[m]? = some (.appendExternalIdentity i) ∧ i.accountId = r.accountId ∧
        (loginOf h.requests n = some (i.issuer, i.subject) ∨
          loginOf h.requests n' = some (i.issuer, i.subject))

/-- No other login has bound an account since a session has counted no identity of it. -/
def StillFree (requests : List Request) (_ : Nat) (s : State) : Prop :=
  ∀ x ∈ s.2.filterMap countedNone, ∀ r ∈ s.1.committed.drop x.2,
    loginOf requests r.1 ≠ none → ∀ i ∈ Row.identities [r.2], i.accountId ≠ x.1

instance (requests : List Request) (n : Nat) (s : State) : Decidable (StillFree requests n s) :=
  inferInstanceAs (Decidable (∀ x ∈ s.2.filterMap countedNone, _))

/-! ## The committed rows -/

/-- Where the committed sessions and identities come from. -/
structure Recorded (requests : List Request) (rows : List (Nat × Row)) : Prop where
  sessions : ∀ n r, (n, .session r) ∈ rows → ∃ pair,
    loginOf requests n = some pair ∧ Signs (rows.map Prod.snd) pair r.accountId
  identities : ∀ n i, (n, .identity i) ∈ rows →
    requests[n]? = some (.appendExternalIdentity i) ∨
      loginOf requests n = some (i.issuer, i.subject)

/-- Logins have bound an account to one identity. -/
def Single (requests : List Request) (rows : List (Nat × Row)) : Prop :=
  ∀ n n' i j, (n, .identity i) ∈ rows → (n', .identity j) ∈ rows → loginOf requests n ≠ none →
    loginOf requests n' ≠ none → i.accountId = j.accountId → i = j

section

variable {T : Texts} {requests : List Request} {rows : List (Nat × Row)} {n : Nat}
  {request : Request} {s : State}

theorem loginOf_append (bound : n < requests.length) :
    loginOf (requests ++ [request]) n = loginOf requests n := by
  rw [loginOf, List.getElem?_append_left bound]
  rfl

theorem loginOf_eq (there : requests[n]? = some request) : loginOf requests n = request.login? := by
  rw [loginOf, there]
  rfl

theorem Recorded.start (recorded : Recorded requests rows)
    (bound : ∀ r ∈ rows, r.1 < requests.length) : Recorded (requests ++ [request]) rows where
  sessions n r mem := by
    rw [loginOf_append (bound _ mem)]
    exact recorded.sessions n r mem
  identities n i mem := by
    rw [loginOf_append (bound _ mem), List.getElem?_append_left (bound _ mem)]
    exact recorded.identities n i mem

theorem Single.start (single : Single requests rows)
    (bound : ∀ r ∈ rows, r.1 < requests.length) : Single (requests ++ [request]) rows := by
  intro n n' i j mem mem'
  rw [loginOf_append (bound _ mem), loginOf_append (bound _ mem')]
  exact single n n' i j mem mem'

theorem Recorded.commit (recorded : Recorded requests s.1.committed)
    (there : requests[n]? = some request) (fit : Fit n request s) :
    Recorded requests (s.1.committed ++ s.1.own n) where
  sessions m r mem := by
    obtain old | own := List.mem_append.mp mem
    · obtain ⟨pair, login, signs⟩ := recorded.sessions m r old
      exact ⟨pair, login, signs.mono (List.map_subset _ (List.subset_append_left _ _))⟩
    · obtain ⟨pair, login, signs⟩ := fit.admitted _ own
      obtain rfl : m = n := (mem_own.mp own).2
      rw [loginOf_eq there]
      exact ⟨pair, login, signs⟩
  identities m i mem := by
    obtain old | own := List.mem_append.mp mem
    · exact recorded.identities m i old
    · obtain rfl : m = n := (mem_own.mp own).2
      rw [loginOf_eq there, there]
      exact (fit.admitted _ own).imp (congrArg some) And.left

/-- A session that inserts an identity of the one who signs in finds no other one of a login on
the account. -/
theorem Fit.unbound_single (fit : Fit n request s) (constrained : Constrained schema s.1)
    (free : StillFree requests n s) {accountId : Uuid} (unbound : Unbound n accountId s) {m : Nat}
    {j : ExternalIdentity} (mem : (m, .identity j) ∈ s.1.committed)
    (login : loginOf requests m ≠ none) : j.accountId ≠ accountId := by
  intro same
  cases unbound with
  | made a own made =>
    obtain ⟨b, there, same'⟩ := constrained.supported _ mem
    obtain ⟨⟨m', -⟩, there, rfl⟩ := List.mem_map.mp (mem_accounts.mp there)
    have one := constrained.eq_of_clash (r := (m', .account b)) (q := (n, .account a))
      (List.mem_append_left _ there) (List.mem_append_right _ (mem_own.mp own).1)
      (.inl (same'.trans (same.trans made.symm)))
    exact fit.fresh _ there (congrArg Prod.fst one)
  | counted stamp counted inside none =>
    rw [← List.take_append_drop stamp s.1.committed, List.mem_append] at mem
    obtain early | late := mem
    · exact none _ early j rfl same
    · exact free (accountId, stamp) counted _ late login j (List.mem_singleton_self _) same

theorem Single.commit (single : Single requests s.1.committed) (there : requests[n]? = some request)
    (fit : Fit n request s) (constrained : Constrained schema s.1) (free : StillFree requests n s) :
    Single requests (s.1.committed ++ s.1.own n) := by
  have signed : ∀ m i, (m, .identity i) ∈ s.1.own n → loginOf requests m ≠ none →
      request.login? = some (i.issuer, i.subject) ∧ Unbound n i.accountId s := by
    intro m i own login
    obtain appended | signed := fit.admitted _ own
    · obtain rfl : m = n := (mem_own.mp own).2
      rw [loginOf_eq there, appended] at login
      exact absurd rfl login
    · exact signed
  intro m m' i j mem mem' login login' same
  obtain old | own := List.mem_append.mp mem
  · obtain old' | own' := List.mem_append.mp mem'
    · exact single m m' i j old old' login login' same
    · have unbound := (signed m' j own' login').2
      exact absurd same (fit.unbound_single constrained free unbound old login)
  · obtain old' | own' := List.mem_append.mp mem'
    · have unbound := (signed m i own login).2
      exact absurd same.symm (fit.unbound_single constrained free unbound old' login')
    · have pairs := (signed m i own login).1.symm.trans (signed m' j own' login').1
      obtain ⟨issuer, subject⟩ := Prod.mk.inj (Option.some.inj pairs)
      have one := constrained.eq_of_clash (r := (m, .identity i)) (q := (m', .identity j))
        (List.mem_append_right _ (mem_own.mp own).1) (List.mem_append_right _ (mem_own.mp own').1)
        (.inr ⟨issuer, subject⟩)
      exact Row.identity.inj (congrArg Prod.snd one)

/-! ## Runs -/

theorem keeps_recorded : Keeps schema evaluate (Request.program T) (fun n request => request.Ends n)
    Fit (fun _ _ _ => True) Recorded where
  programs _ request db fresh := holds_program (s := (db, [])) fresh request
  stable _ _ _ _ _ ends _ elsewhere := Request.Ends.elsewhere ends elsewhere
  starts _ _ _ bound recorded := recorded.start bound
  commits _ _ _ _ there recorded _ fit _ := recorded.commit there fit

theorem keeps_single : Keeps schema evaluate (Request.program T) (fun n request => request.Ends n)
    Fit StillFree (fun requests rows => Recorded requests rows ∧ Single requests rows) where
  programs := (keeps_recorded (T := T)).programs
  stable := (keeps_recorded (T := T)).stable
  starts _ _ _ bound invariant :=
    ⟨invariant.1.start bound, invariant.2.start bound⟩
  commits _ _ _ _ there invariant constrained fit free :=
    ⟨invariant.1.commit there fit, invariant.2.commit there fit constrained free⟩

theorem sound_serve (moves : List (Move Request)) :
    ReadCommitted.Sound schema evaluate (fun n request => request.Ends n) Fit Recorded
      (serve T moves) :=
  keeps_recorded.exec (.empty ⟨fun _ _ mem => absurd mem List.not_mem_nil,
    fun _ _ mem => absurd mem List.not_mem_nil⟩) (Run.along_of_forall fun _ _ _ => guarded_always)

theorem kept_serve (moves later : List (Move Request)) :
    (serve T moves).db.committed <+: (serve T (moves ++ later)).db.committed := by
  rw [serve, serve, Run.exec_append]
  exact committed_exec _ later

theorem bound_serve (moves later : List (Move Request)) :
    Bound (serve T moves) (serve T (moves ++ later)) := by
  have sound := sound_serve (T := T) moves
  have kept := kept_serve (T := T) moves later
  have one : ∀ r q, r ∈ (serve T moves).db.committed → q ∈ (serve T (moves ++ later)).db.committed →
      schema.Clash r.2 q.2 → r = q := fun r q mem mem' =>
    (sound_serve (moves ++ later)).constrained.eq_of_clash
      (List.mem_append_left _ (kept.subset mem)) (List.mem_append_left _ mem')
  constructor
  · exact kept
  · intro n n' i j mem mem' issuer subject
    have same := one _ _ mem mem' (.inr ⟨issuer, subject⟩)
    exact Row.identity.inj (congrArg Prod.snd same)
  · intro n i mem
    obtain ⟨a, there, same⟩ := sound.constrained.supported _ mem
    obtain ⟨⟨n', -⟩, there, rfl⟩ := List.mem_map.mp (mem_accounts.mp there)
    exact ⟨n', a, there, same⟩
  · intro n n' a b mem mem' email
    have same := one _ _ mem mem' (.inr (.inr email))
    exact Row.account.inj (congrArg Prod.snd same)
  · exact sound.invariant.sessions
  · intro n c account found ended
    have ends := sound.sessions n c found
    rw [ended] at ends
    exact ends account rfl
  · intro n c e found ended
    have ends := sound.sessions n c found
    rw [ended] at ends
    exact ends

theorem oneLogin_serve {moves : List (Move Request)}
    (free : Run.Along (step T) (Guarded StillFree) .empty moves) : OneLogin (serve T moves) := by
  have start : Recorded [] [] ∧ Single [] [] :=
    ⟨⟨fun _ _ mem => absurd mem List.not_mem_nil, fun _ _ mem => absurd mem List.not_mem_nil⟩,
      fun _ _ _ _ mem => absurd mem List.not_mem_nil⟩
  obtain ⟨recorded, single⟩ := (keeps_single.exec (.empty start) free).invariant
  intro n n' r r' mem mem' same
  obtain ⟨pair, login, i, there, rfl, on⟩ := recorded.sessions n r mem
  obtain ⟨pair', login', j, there', rfl, on'⟩ := recorded.sessions n' r' mem'
  obtain ⟨⟨m, -⟩, there, rfl⟩ := List.mem_map.mp there
  obtain ⟨⟨m', -⟩, there', rfl⟩ := List.mem_map.mp there'
  obtain appended | signed := recorded.identities m i there
  · exact .inr ⟨m, i, there, appended, on, .inl login⟩
  obtain appended | signed' := recorded.identities m' j there'
  · exact .inr ⟨m', j, there', appended, on'.trans same.symm, .inr login'⟩
  left
  have one : i = j := by
    refine single m m' i j there there' ?_ ?_ (on.trans (same.trans on'.symm))
    · exact fun none => Option.some_ne_none _ (signed.symm.trans none)
    · exact fun none => Option.some_ne_none _ (signed'.symm.trans none)
  exact login.trans ((congrArg (fun i : ExternalIdentity => some (i.issuer, i.subject)) one).trans
    login'.symm)

/-- In every run of logins, an identity is bound to one account for ever, an address has one
account, and a login that raises leaves nothing behind. Two who sign in share no account as long
as nobody has bound it since a login has counted that it is free. -/
theorem account_bound_to_one_login (T : Texts) (moves later : List (Move Request)) :
    Bound (serve T moves) (serve T (moves ++ later)) ∧
      (Run.Along (step T) (Guarded StillFree) .empty moves → OneLogin (serve T moves)) :=
  ⟨bound_serve moves later, oneLogin_serve⟩

end

/-! ## Two logins of one account -/

namespace SharedAccount

def texts : Texts where
  sha256 := id
  uuid5 _ := Uuid.ofNat 0
  hmac _ message := message
  uuid _ := none
  folded := id

/-- A login with an address, with identifiers counted from a number. -/
def login (subject : String) (first : Nat) : WebLogin where
  issuer := "https://accounts.google.com"
  subject := subject
  normalizedEmail := "user@example.com"
  displayName := "User"
  draw := ⟨.ofNat first, .ofNat (first + 1), .ofNat (first + 2), .ofNat (first + 3), "device",
    .ofNat (first + 4), "session"⟩
  existingDeviceToken := none
  sessionSecret := "secret"
  now := 0
  expiresAt := 20

/-- The account of the address is there before anyone signs in to it. -/
def preprovisioned : List (Move Request) :=
  .start (.createPreprovisionedAccount ⟨.ofNat 1, .user, "corvus-account", "account:2"⟩
    ⟨.ofNat 2, .ofNat 1, "user@example.com"⟩) :: List.replicate 3 (.go 0 false)

/-- Two logins that have both counted no identity before one of them commits. -/
def moves : List (Move Request) :=
  preprovisioned ++ [.start (.completeWebLogin (login "first" 10)),
    .start (.completeWebLogin (login "second" 20))] ++
  List.replicate 3 (.go 1 false) ++ List.replicate 3 (.go 2 false) ++
  List.replicate 6 (.go 1 false) ++ List.replicate 6 (.go 2 false)

def session (first : Nat) : SessionRecord :=
  .issued (.ofNat (first + 4)) (.ofNat 2) (.ofNat (first + 3)) 1
    (Credentials.opaqueCredential (.ofNat (first + 4)) "session")
    (show (0 : Instant) < 20 by decide)

def appends : Request → Bool
  | .appendExternalIdentity _ => true
  | _ => false

/-- Both logins get a session on the account. -/
theorem account_shared : ¬ OneLogin (serve texts moves) := by
  intro one
  have first : (1, .session (session 10)) ∈ (serve texts moves).db.committed := by decide +kernel
  have second : (2, .session (session 20)) ∈ (serve texts moves).db.committed := by decide +kernel
  have none : ∀ request ∈ (serve texts moves).requests, appends request = false := by
    decide +kernel
  obtain same | ⟨m, i, -, appended, -⟩ := one 1 2 _ _ first second rfl
  · have other : loginOf (serve texts moves).requests 1 ≠
        loginOf (serve texts moves).requests 2 := by
      decide +kernel
    exact other same
  · exact absurd (none _ (List.mem_of_getElem? appended)) Bool.true_eq_false.mp

/-- One login after the other. -/
theorem account_kept : OneLogin (serve texts (preprovisioned ++
    [.start (.completeWebLogin (login "first" 10))] ++ List.replicate 9 (.go 1 false) ++
    [.start (.completeWebLogin (login "second" 20))] ++ List.replicate 4 (.go 2 false))) :=
  (account_bound_to_one_login texts _ []).2 (by decide +kernel)

end SharedAccount

end Corvus.Accounts
