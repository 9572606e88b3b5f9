import Corvus.Accounts.Logins

/-!
# What a login inserts

Each statement of the methods, one after the other: a session inserts an identity only for the
one who signs in, on an account that it has made or that it has counted no identity of, and a
session record only on an account that such an identity signs in to. A method that raises
leaves no row behind.
-/

namespace Corvus.Accounts

open Dialogue Procedure ReadCommitted
open ReadCommitted.Database (Elsewhere mem_own mem_others)

abbrev State := Database Row × ReadCommitted.Log Select Row Select.Answer

/-- An identity that signs in to an account. -/
def Signs (rows : List Row) (pair : String × String) (accountId : Uuid) : Prop :=
  ∃ i, .identity i ∈ rows ∧ (i.issuer, i.subject) = pair ∧ i.accountId = accountId

theorem Signs.mono {rows rows' : List Row} {pair : String × String} {accountId : Uuid}
    (signs : Signs rows pair accountId) (sub : rows ⊆ rows') : Signs rows' pair accountId := by
  obtain ⟨i, mem, same⟩ := signs
  exact ⟨i, sub mem, same⟩

/-- An account of which no identity has been counted, and the number of rows that were committed
then. -/
def countedNone : Stamped Select Row Select.Answer → Option (Uuid × Nat)
  | ⟨⟨.select (.identityCount accountId), some 0⟩, stamp⟩ => some (accountId, stamp)
  | _ => none

/-- An account that a session may bind: it has made it, or has counted no identity of it. -/
inductive Unbound (n : Nat) (accountId : Uuid) (s : State) : Prop
  | made (a : Account) (own : (n, .account a) ∈ s.1.own n) (same : a.id = accountId)
  | counted (stamp : Nat) (counted : (accountId, stamp) ∈ s.2.filterMap countedNone)
      (inside : stamp ≤ s.1.committed.length)
      (none : ∀ r ∈ s.1.committed.take stamp, ∀ i, r.2 = .identity i → i.accountId ≠ accountId)

/-- A row that a session may insert for its request. -/
def Admits (n : Nat) (request : Request) (s : State) : Row → Prop
  | .identity i => request = .appendExternalIdentity i ∨
      request.login? = some (i.issuer, i.subject) ∧ Unbound n i.accountId s
  | .session r => ∃ pair, request.login? = some pair ∧ Signs (s.1.visible n) pair r.accountId
  | _ => True

/-- A session that has committed nothing yet and has inserted what it may. -/
structure Fit (n : Nat) (request : Request) (s : State) : Prop where
  fresh : ∀ r ∈ s.1.committed, r.1 ≠ n
  admitted : ∀ r ∈ s.1.own n, Admits n request s r.2

/-- What a session had inserted and read is still there. -/
structure Grown (n : Nat) (s t : State) : Prop where
  committed : s.1.committed <+: t.1.committed
  own : s.1.own n ⊆ t.1.own n
  log : s.2 ⊆ t.2

section

variable {n : Nat} {request : Request} {s t u : State} {pair : String × String} {accountId : Uuid}
  {row : Row}

theorem Grown.refl (n : Nat) (s : State) : Grown n s s :=
  ⟨List.prefix_rfl, List.Subset.refl _, List.Subset.refl _⟩

theorem Grown.trans (first : Grown n s t) (second : Grown n t u) : Grown n s u where
  committed := first.committed.trans second.committed
  own := List.Subset.trans first.own second.own
  log := List.Subset.trans first.log second.log

theorem Grown.visible (grown : Grown n s t) : s.1.visible n ⊆ t.1.visible n :=
  List.map_subset _ (List.append_subset.mpr
    ⟨List.Subset.trans grown.committed.subset (List.subset_append_left _ _),
      List.Subset.trans grown.own (List.subset_append_right _ _)⟩)

theorem Grown.elsewhere (elsewhere : Elsewhere n s.1 t.1) (log : s.2 ⊆ t.2) : Grown n s t := by
  obtain ⟨⟨rows, grown, -⟩, own⟩ := elsewhere
  exact ⟨⟨rows, grown.symm⟩, by rw [own]; exact List.Subset.refl _, log⟩

theorem Unbound.grown (unbound : Unbound n accountId s) (grown : Grown n s t) :
    Unbound n accountId t := by
  cases unbound with
  | made a own same => exact .made a (grown.own own) same
  | counted stamp counted inside none =>
    refine .counted stamp (List.filterMap_subset _ grown.log counted) ?_ ?_
    · exact inside.trans grown.committed.length_le
    · obtain ⟨rows, longer⟩ := grown.committed
      rwa [← longer, List.take_append_of_le_length inside]

theorem Admits.grown (admits : Admits n request s row) (grown : Grown n s t) :
    Admits n request t row := by
  cases row with
  | identity i => exact admits.imp_right fun ⟨login, unbound⟩ => ⟨login, unbound.grown grown⟩
  | session r =>
    obtain ⟨pair, login, signs⟩ := admits
    exact ⟨pair, login, signs.mono grown.visible⟩
  | _ => trivial

/-- What happens elsewhere, and what is read, leaves a session fit. -/
theorem Fit.elsewhere (fit : Fit n request s) (elsewhere : Elsewhere n s.1 t.1) (log : s.2 ⊆ t.2) :
    Fit n request t := by
  obtain ⟨⟨rows, grown, foreign⟩, own⟩ := id elsewhere
  constructor
  · rw [grown]
    exact List.forall_mem_append.mpr ⟨fit.fresh, foreign⟩
  · rw [own]
    exact fun r mem => (fit.admitted r mem).grown (.elsewhere elsewhere log)

/-! ## One statement after the other -/

/-- What a part of a transaction ensures. -/
def Keeping {α : Type} (n : Nat) (request : Request) (s : State) (P : α → State → Prop) :
    Except Failure α → State → Prop :=
  fun x t => Fit n request t ∧ Grown n s t ∧ ∀ a, x = .ok a → P a t

/-- A part of a transaction, which commits nothing that is not fit. -/
def Fragment {α : Type} (n : Nat) (request : Request) (p : Program α) (s : State)
    (P : α → State → Prop) : Prop :=
  Holds (logged schema evaluate n) (Terms n (Fit n request)) p.run (Keeping n request s P) s

variable {α β : Type} {p : Program α} {f : α → Program β} {P P' : α → State → Prop}
  {Q : β → State → Prop}

theorem Fragment.bind (first : Fragment n request p s P)
    (second : ∀ a t, Fit n request t → Grown n s t → P a t → Fragment n request (f a) t Q) :
    Fragment n request (p >>= f) s Q := by
  refine holds_bind first (fun a t kept => ?_) fun e t kept => ?_
  · refine (second a t kept.1 kept.2.1 (kept.2.2 a rfl)).mono fun x u kept' => ?_
    exact ⟨kept'.1, kept.2.1.trans kept'.2.1, kept'.2.2⟩
  · exact ⟨kept.1, kept.2.1, fun a same => absurd same error_ne_ok⟩

theorem Fragment.mono (fragment : Fragment n request p s P)
    (imp : ∀ a t, Grown n s t → P a t → P' a t) : Fragment n request p s P' :=
  Holds.mono fragment fun _ t kept =>
    ⟨kept.1, kept.2.1, fun a same => imp a t kept.2.1 (kept.2.2 a same)⟩

theorem fragment_settle_bind (fit : Fit n request s) {x : Except Failure α}
    (rest : ∀ a, x = .ok a → Fragment n request (f a) s Q) :
    Fragment n request (settle x >>= f) s Q := by
  cases x with
  | ok a => exact rest a rfl
  | error e => exact ⟨fit, .refl n s, fun _ raised => absurd raised error_ne_ok⟩

theorem fragment_settle (fit : Fit n request s) {x : Except Failure α} :
    Fragment n request (settle x) s fun a t => x = .ok a ∧ t = s :=
  ⟨fit, .refl n s, fun _ same => ⟨same, rfl⟩⟩

theorem fragment_return (fit : Fit n request s) {a : α} (holds : P a s) :
    Fragment n request (pure a) s P :=
  ⟨fit, .refl n s, fun b same => by rwa [← Except.ok.inj same]⟩

/-- What a selection finds, which is put on the log. -/
structure Reads (n : Nat) (v : Select) (a : v.Answer) (t : State) : Prop where
  found : a = evaluate v (t.1.visible n)
  logged : ⟨⟨.select v, some a⟩, t.1.committed.length⟩ ∈ t.2

theorem holds_select {J : State → Prop} (v : Select) :
    Holds (logged schema evaluate n) (Terms n J) (select v).run
      (fun x t => Elsewhere n s.1 t.1 ∧ s.2 ⊆ t.2 ∧ ∀ a, x = .ok a → Reads n v a t) s := by
  refine holds_ask fun t later _ fails _ => ⟨trivial, ?_⟩
  obtain ⟨same, elsewhere⟩ := later
  have kept : s.2 ⊆ (logged schema evaluate n fails (.select v) t).2.2 := by
    rw [← same]
    exact List.subset_append_left _ _
  cases fails with
  | true => exact ⟨elsewhere, kept, fun a raised => absurd raised error_ne_ok⟩
  | false =>
    refine ⟨elsewhere, kept, fun a found => ?_⟩
    obtain rfl := Except.ok.inj found
    exact ⟨rfl, List.mem_append_right _ (List.mem_singleton_self _)⟩

theorem fragment_select (fit : Fit n request s) (v : Select) :
    Fragment n request (select v) s (Reads n v) := by
  refine (holds_select v).mono fun x t ends => ?_
  exact ⟨fit.elsewhere ends.1 ends.2.1, .elsewhere ends.1 ends.2.1, ends.2.2⟩

/-- A row that may be inserted wherever the insertion comes to be done. -/
theorem fragment_insert (fit : Fit n request s) (row : Row)
    (admits : ∀ t, Grown n s t → Admits n request t row) :
    Fragment n request (insert row) s fun _ t => (n, row) ∈ t.1.own n := by
  refine holds_ask fun t later _ fails _ => ⟨trivial, ?_⟩
  obtain ⟨same, elsewhere⟩ := later
  obtain ⟨r, db, answered, idle | done⟩ := logged_insert fails row t.1 t.2
  · obtain ⟨undone, rfl⟩ := idle
    rw [answered]
    have log : s.2 ⊆ t.2 ++ [⟨⟨.insert row, r⟩, t.1.committed.length⟩] := by
      rw [← same]
      exact List.subset_append_left _ _
    have kept : ∀ e : Failure, Keeping n request s (fun (_ : Unit) t => (n, row) ∈ t.1.own n)
        (.error e) (t.1, t.2 ++ [⟨⟨.insert row, r⟩, t.1.committed.length⟩]) :=
      fun e => ⟨fit.elsewhere elsewhere log, .elsewhere elsewhere log,
        fun a raised => absurd raised error_ne_ok⟩
    cases r with
    | done => exact absurd rfl undone
    | refused => exact kept _
    | failed => exact kept _
  · obtain ⟨rfl, rfl⟩ := done
    rw [answered]
    have before : Grown n s t := .elsewhere elsewhere (by rw [same]; exact List.Subset.refl _)
    have own : (⟨t.1.committed, t.1.pending ++ [(n, row)]⟩ : Database Row).own n =
        t.1.own n ++ [(n, row)] := by
      show (t.1.pending ++ [(n, row)]).filter _ = t.1.pending.filter _ ++ [(n, row)]
      rw [List.filter_append, List.filter_singleton, decide_eq_true rfl]
      rfl
    have after : Grown n t (⟨t.1.committed, t.1.pending ++ [(n, row)]⟩,
        t.2 ++ [⟨⟨.insert row, .done⟩, t.1.committed.length⟩]) := by
      refine ⟨List.prefix_rfl, ?_, List.subset_append_left _ _⟩
      rw [own]
      exact List.subset_append_left _ _
    have there := fit.elsewhere elsewhere before.log
    refine ⟨⟨there.fresh, fun r mem => ?_⟩, before.trans after, fun _ _ => ?_⟩
    · rw [own, List.mem_append, List.mem_singleton] at mem
      obtain old | rfl := mem
      · exact (there.admitted r old).grown after
      · exact admits _ (before.trans after)
    · show (n, row) ∈ Database.own _ n
      rw [own]
      exact List.mem_append_right _ (List.mem_singleton_self _)

/-! ## What is found -/

theorem mem_identities {rows : List Row} {i : ExternalIdentity} :
    i ∈ Row.identities rows ↔ .identity i ∈ rows := by
  rw [Row.identities, List.mem_filterMap]
  constructor
  · rintro ⟨row, mem, found⟩
    cases row with
    | identity j =>
      obtain rfl := Option.some.inj found
      exact mem
    | _ => exact absurd found.symm (Option.some_ne_none _)
  · exact fun mem => ⟨_, mem, rfl⟩

theorem mem_accounts {rows : List Row} {a : Account} :
    a ∈ Row.accounts rows ↔ .account a ∈ rows := by
  rw [Row.accounts, List.mem_filterMap]
  constructor
  · rintro ⟨row, mem, found⟩
    cases row with
    | account b =>
      obtain rfl := Option.some.inj found
      exact mem
    | _ => exact absurd found.symm (Option.some_ne_none _)
  · exact fun mem => ⟨_, mem, rfl⟩

theorem Reads.signs {issuer subject : String} {i : ExternalIdentity}
    (reads : Reads n (.identity issuer subject) (some i) t) :
    Signs (t.1.visible n) (issuer, subject) i.accountId := by
  have found : (Row.identities (t.1.visible n)).find? _ = some i := reads.found.symm
  obtain ⟨rfl, rfl⟩ := of_decide_eq_true (List.find?_some (p := fun i : ExternalIdentity =>
    decide (i.issuer = issuer ∧ i.subject = subject)) found)
  exact ⟨i, mem_identities.mp (List.mem_of_find?_eq_some found), rfl, rfl⟩

theorem Reads.account_id {id : Uuid} {a : Account} (reads : Reads n (.accountById id) (some a) t) :
    a.id = id := by
  have found : (Row.accounts (t.1.visible n)).find? _ = some a := reads.found.symm
  exact of_decide_eq_true (List.find?_some (p := fun a : Account => decide (a.id = id)) found)

/-- An account of which no identity is counted. -/
theorem Reads.unbound (reads : Reads n (.identityCount accountId) (0 : Nat) t) :
    Unbound n accountId t := by
  refine .counted t.1.committed.length (List.mem_filterMap.mpr ⟨_, reads.logged, rfl⟩)
    (Nat.le_refl _) fun r mem i identity same => ?_
  have none := List.countP_eq_zero.mp reads.found.symm i
  rw [List.take_length] at mem
  refine none (mem_identities.mpr ?_) (decide_eq_true same)
  rw [← identity]
  exact List.mem_map_of_mem (List.mem_append_left _ mem)

/-! ## The parts of a login -/

variable {T : Texts}

theorem fragment_accountForEmail (fit : Fit n request s) (login : GoogleLogin) :
    Fragment n request (accountForEmail T login) s fun account t => Unbound n account.id t := by
  refine (fragment_select fit _).bind fun found t fit _ _ => ?_
  cases found with
  | some account =>
    refine (fragment_select fit _).bind fun count t fit _ counted => ?_
    refine fragment_settle_bind fit fun _ free => ?_
    obtain rfl : count = (0 : Nat) := not_not.mp (refuse_eq_ok.mp free)
    refine (fragment_select fit _).bind fun p u fit grown _ => ?_
    refine fragment_settle_bind fit fun _ _ => ?_
    exact fragment_return fit (counted.unbound.grown grown)
  | none =>
    apply fragment_settle_bind fit
    intro _ _
    apply fragment_settle_bind fit
    intro _ _
    refine (fragment_insert fit _ ?_).bind fun _ t fit _ _ => ?_
    · exact fun _ _ => trivial
    refine (fragment_insert fit _ ?_).bind fun _ t fit _ made => ?_
    · exact fun _ _ => trivial
    · exact fragment_return fit (.made _ made rfl)

/-- The account that is signed in to has an identity of the one who signs in. -/
theorem fragment_googleIdentity (fit : Fit n request s) (login : GoogleLogin)
    (logs_in : request.login? = some (login.issuer, login.subject)) :
    Fragment n request (googleIdentity T login) s fun account t =>
      Signs (t.1.visible n) (login.issuer, login.subject) account.id := by
  refine (fragment_select fit _).bind fun found t fit _ reads => ?_
  cases found with
  | some identity =>
    refine fragment_settle_bind fit fun _ _ => ?_
    refine (fragment_select fit _).bind fun a u fit grown reads' => ?_
    refine (fragment_settle fit).mono fun account u' _ settled => ?_
    obtain ⟨there, rfl⟩ := settled
    obtain rfl := present_eq_ok.mp there
    rw [reads'.account_id]
    exact reads.signs.mono grown.visible
  | none =>
    refine (fragment_accountForEmail fit login).bind fun account t fit _ unbound => ?_
    refine fragment_settle_bind fit fun _ _ => ?_
    refine fragment_settle_bind fit fun _ _ => ?_
    refine (fragment_insert fit _ ?_).bind fun _ u fit _ there => ?_
    · exact fun u grown => Or.inr ⟨logs_in, unbound.grown grown⟩
    · refine fragment_return fit ⟨_, List.mem_map_of_mem (List.mem_append_right _ there), ?_⟩
      exact ⟨rfl, rfl⟩

theorem fragment_loginDevice (fit : Fit n request s) (accountId : Uuid) (login : WebLogin) :
    Fragment n request (loginDevice T accountId login) s fun _ _ => True := by
  have shown : Fragment n request (shownDevice T accountId login.existingDeviceToken) s
      fun _ _ => True := by
    simp only [shownDevice]
    split
    · exact fragment_return fit trivial
    split
    · exact fragment_return fit trivial
    · refine (fragment_select fit _).bind fun candidate t fit _ _ => ?_
      exact fragment_return fit trivial
  refine shown.bind fun device t fit _ _ => ?_
  cases device with
  | some device => exact fragment_return fit trivial
  | none =>
    refine (fragment_insert fit _ ?_).bind fun _ u fit _ _ => ?_
    · exact fun _ _ => trivial
    · exact fragment_return fit trivial

theorem fragment_webLogin (fit : Fit n request s) (login : WebLogin)
    (logs_in : request.login? = some (login.issuer, login.subject)) :
    Fragment n request (webLogin T login) s fun result t =>
      Signs (t.1.visible n) (login.issuer, login.subject) result.account.id := by
  refine (fragment_googleIdentity fit login.toGoogleLogin logs_in).bind
    fun account t fit _ signs => ?_
  refine (fragment_loginDevice fit account.id login).bind fun shown u fit grown _ => ?_
  obtain ⟨device, deviceToken⟩ := shown
  refine fragment_settle_bind fit fun expires _ => ?_
  have there := signs.mono grown.visible
  refine (fragment_insert fit _ ?_).bind fun _ v fit grown _ => ?_
  · exact fun v grown => ⟨_, logs_in, there.mono grown.visible⟩
  have there := there.mono grown.visible
  refine (fragment_insert fit _ ?_).bind fun _ w fit grown _ => ?_
  · exact fun _ _ => trivial
  · exact fragment_return fit (there.mono grown.visible)

/-! ## Transactions -/

/-- A session that has left no row behind. -/
def Clean (n : Nat) (s : State) : Prop := ∀ r ∈ s.1.committed ++ s.1.pending, r.1 ≠ n

/-- What a method ends with: something that the committed rows bear out, or an error that leaves
nothing behind. -/
def Ended {α : Type} (n : Nat) (P : α → List Row → Prop) (x : Except Failure α) (s : State) :
    Prop :=
  match x with
  | .ok a => P a (s.1.committed.map Prod.snd)
  | .error _ => Clean n s

/-- A method, which commits nothing that is not fit. -/
def Method {α : Type} (n : Nat) (request : Request) (p : Program α) (s : State)
    (P : α → List Row → Prop) : Prop :=
  Holds (logged schema evaluate n) (Terms n (Fit n request)) p.run (Ended n P) s

variable {R : α → List Row → Prop}

theorem Clean.fit (clean : Clean n s) : Fit n request s where
  fresh r mem := clean r (List.mem_append_left _ mem)
  admitted r mem := by
    obtain ⟨pending, own⟩ := mem_own.mp mem
    exact absurd own (clean r (List.mem_append_right _ pending))

theorem Clean.elsewhere (clean : Clean n s) (elsewhere : Elsewhere n s.1 t.1) : Clean n t := by
  obtain ⟨⟨rows, grown, foreign⟩, own⟩ := elsewhere
  refine List.forall_mem_append.mpr ⟨?_, fun r mem same => ?_⟩
  · rw [grown]
    exact List.forall_mem_append.mpr ⟨(List.forall_mem_append.mp clean).1, foreign⟩
  · have mine : r ∈ s.1.own n := own ▸ mem_own.mpr ⟨mem, same⟩
    exact clean r (List.mem_append_right _ (mem_own.mp mine).1) same

theorem Clean.visible (clean : Clean n s) : s.1.visible n = s.1.committed.map Prod.snd := by
  have none : s.1.own n = [] := List.filter_eq_nil_iff.mpr fun r mem own =>
    clean r (List.mem_append_right _ mem) (of_decide_eq_true own)
  rw [Database.visible, none, List.append_nil]

theorem method_rollback (fit : Fit n request s) (e : Failure) :
    Method n request (do let _ ← ask (Q := Query) .rollback; settle (.error e)) s R := by
  refine holds_ask fun t later _ _ _ => ⟨trivial, ?_⟩
  obtain ⟨same, elsewhere⟩ := later
  refine List.forall_mem_append.mpr ⟨?_, fun r mem => (mem_others.mp mem).2⟩
  exact (fit.elsewhere elsewhere (by rw [same]; exact List.Subset.refl _)).fresh

/-- What the session sees when it commits is what is committed. -/
theorem method_transaction (mono : ∀ a rows rows', rows ⊆ rows' → R a rows → R a rows')
    (body : Fragment n request p s fun a t => R a (t.1.visible n)) :
    Method n request (transaction p) s R := by
  refine holds_attempt body fun x t kept => ?_
  obtain ⟨fit, -, ends⟩ := kept
  cases x with
  | error e => exact method_rollback fit e
  | ok a =>
    refine holds_ask fun u later _ fails _ => ?_
    obtain ⟨same, elsewhere⟩ := later
    have fit := fit.elsewhere elsewhere (by rw [same]; exact List.Subset.refl _)
    refine ⟨fit, ?_⟩
    cases fails with
    | true =>
      have undone : Fit n request (logged schema evaluate n true .commit u).2 :=
        fit.elsewhere (.refl n u.1) (List.subset_append_left _ _)
      exact method_rollback undone _
    | false => exact mono a _ _ (fun _ => elsewhere.visible) (ends a rfl)

theorem method_onIntegrity {handler : Program α} (body : Method n request p s R)
    (handles : ∀ t, Clean n t → Method n request handler t R) :
    Method n request (onIntegrity p handler) s R := by
  refine holds_attempt body fun x t ends => ?_
  cases x with
  | ok a => exact ends
  | error e =>
    cases e with
    | integrity => exact handles t ends
    | _ => exact ends

/-! ## The methods -/

theorem method_boundMeanwhile (clean : Clean n s) (login : GoogleLogin) :
    Method n request (boundMeanwhile login) s fun account rows =>
      Signs rows (login.issuer, login.subject) account.id := by
  refine holds_bind (holds_select _) (fun found t ends => ?_) fun e t ends => ?_
  · obtain ⟨elsewhere, -, reads⟩ := ends
    have clean := clean.elsewhere elsewhere
    cases found with
    | none => exact clean
    | some existing =>
      have signs := (reads _ rfl).signs
      rw [clean.visible] at signs
      show Method n request (if existing.normalizedEmail = login.normalizedEmail then _ else _) t _
      split
      · refine holds_bind (holds_select _) (fun found u ends => ?_) fun e u ends => ?_
        · obtain ⟨elsewhere, -, reads⟩ := ends
          cases found with
          | none => exact clean.elsewhere elsewhere
          | some account =>
            show Signs _ _ account.id
            rw [(reads _ rfl).account_id, ← (clean.elsewhere elsewhere).visible]
            rw [← clean.visible] at signs
            exact signs.mono fun _ => elsewhere.visible
        · exact clean.elsewhere ends.1
      · exact clean
  · exact clean.elsewhere ends.1

theorem method_completeGoogleIdentity (clean : Clean n s) (login : GoogleLogin)
    (logs_in : request.login? = some (login.issuer, login.subject)) :
    Method n request (completeGoogleIdentity T login) s fun account rows =>
      Signs rows (login.issuer, login.subject) account.id := by
  apply method_onIntegrity
  · apply method_transaction
    · exact fun _ _ _ sub signs => signs.mono sub
    · exact fragment_googleIdentity clean.fit login logs_in
  · exact fun t clean => method_boundMeanwhile clean login

theorem method_completeWebLogin (clean : Clean n s) (login : WebLogin)
    (logs_in : request.login? = some (login.issuer, login.subject)) :
    Method n request (completeWebLogin T login) s fun result rows =>
      Signs rows (login.issuer, login.subject) result.account.id := by
  apply method_onIntegrity
  · apply method_transaction
    · exact fun _ _ _ sub signs => signs.mono sub
    · exact fragment_webLogin clean.fit login logs_in
  · exact fun _ clean => clean

theorem method_createPreprovisionedAccount (clean : Clean n s) (p : Principal) (a : Account) :
    Method n request (createPreprovisionedAccount p a) s fun _ _ => True := by
  have inserted : Method n request (onIntegrity (transaction do
      insert (.principal p)
      insert (.account a)) (settle (.error (.repository "account_identity_conflict")))) s
      fun _ _ => True := by
    apply method_onIntegrity
    · apply method_transaction
      · exact fun _ _ _ _ _ => trivial
      · refine (fragment_insert clean.fit _ ?_).bind fun _ t fit _ _ => ?_
        · exact fun _ _ => trivial
        · refine (fragment_insert fit _ ?_).mono fun _ _ _ _ => trivial
          exact fun _ _ => trivial
    · exact fun _ clean => clean
  rw [createPreprovisionedAccount]
  obtain user | other := em (p.kind = .user)
  · rw [require_of user, settle_ok_bind]
    obtain same | other := em (a.principalId = p.id)
    · rw [require_of same, settle_ok_bind]
      exact inserted
    · rw [require_of_not other]
      exact clean
  · rw [require_of_not other]
    exact clean

theorem method_appendExternalIdentity (clean : Clean n s) (i : ExternalIdentity) :
    Method n (.appendExternalIdentity i) (appendExternalIdentity i) s fun _ _ => True := by
  apply method_onIntegrity
  · apply method_transaction
    · exact fun _ _ _ _ _ => trivial
    · refine (fragment_select clean.fit _).bind fun found t fit _ _ => ?_
      refine fragment_settle_bind fit fun account _ => ?_
      refine fragment_settle_bind fit fun _ _ => ?_
      refine (fragment_insert fit _ ?_).mono fun _ _ _ _ => trivial
      exact fun _ _ => Or.inl rfl
  · exact fun _ clean => clean

/-- What a request ends with: an error that leaves nothing behind, or an account that the one
who signs in is bound to. -/
def Request.Ends (n : Nat) (request : Request) (x : Except Failure (Option Account)) (s : State) :
    Prop :=
  Ended n (fun found rows => ∀ account, found = some account →
    ∃ pair, request.login? = some pair ∧ Signs rows pair account.id) x s

theorem holds_program (clean : Clean n s) (request : Request) :
    Holds (logged schema evaluate n) (Terms n (Fit n request)) (request.program T)
      (request.Ends n) s := by
  cases request with
  | createPreprovisionedAccount p a =>
    refine holds_map (method_createPreprovisionedAccount clean p a) ?_ fun _ _ ends => ends
    exact fun _ _ _ account none => absurd none.symm (Option.some_ne_none account)
  | appendExternalIdentity i =>
    refine holds_map (method_appendExternalIdentity clean i) ?_ fun _ _ ends => ends
    exact fun _ _ _ account none => absurd none.symm (Option.some_ne_none account)
  | completeGoogleIdentity login =>
    refine holds_map (method_completeGoogleIdentity clean login rfl) ?_ fun _ _ ends => ends
    rintro _ _ signs account same
    obtain rfl := Option.some.inj same
    exact ⟨_, rfl, signs⟩
  | completeWebLogin login =>
    refine holds_map (method_completeWebLogin clean login rfl) ?_ fun _ _ ends => ends
    rintro _ _ signs account same
    obtain rfl := Option.some.inj same
    exact ⟨_, rfl, signs⟩

theorem Request.Ends.elsewhere {x : Except Failure (Option Account)} (ends : request.Ends n x s)
    (elsewhere : Elsewhere n s.1 t.1) : request.Ends n x t := by
  cases x with
  | error e => exact Clean.elsewhere ends elsewhere
  | ok found =>
    intro account same
    obtain ⟨pair, login, signs⟩ := ends account same
    obtain ⟨⟨rows, grown, -⟩, -⟩ := elsewhere
    refine ⟨pair, login, signs.mono (List.map_subset _ ?_)⟩
    rw [grown]
    exact List.subset_append_left _ _

end

end Corvus.Accounts
