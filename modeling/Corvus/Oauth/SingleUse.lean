import Corvus.Oauth.Exchanges

/-!
# Single use

An identity is returned at most once for a state, and only as the state was issued: the start
that has drawn it is on record, and everything the exchange has checked goes back to what was
drawn there. Once a call that presents the state is over, no later exchange of it succeeds.
-/

namespace Corvus.Oauth

open Dialogue (Follows Holds Terms)
open Dialogue.Desk (Kept Each follows_exec kept_of_holds ending exec_go)

/-- What is relied on of the libraries: no two texts have one digest, what has been encrypted is
decrypted, and the text that `json.dumps` has written is read back. -/
structure Primitives.Sound (P : Primitives) : Prop where
  sha256_injective : Function.Injective P.sha256
  decrypt_encrypt : ∀ time iv values, P.decrypt (P.encrypt time iv values) = some values
  loads_dumps : ∀ nonce verifier,
    P.loads (utf8 (protectedValues (b64url nonce) (b64url verifier)).dumpsAscii) =
      some (protectedValues (b64url nonce) (b64url verifier))

/-- The state that a call presents. -/
def Call.presents : Call → Option String
  | .start _ => none
  | .exchange callback => some callback.state
  | .abort state => some state

/-- The state that a call presents together with all that it needs to be looked up. -/
def Call.uses : Call → Option String
  | .start _ => none
  | .exchange callback => if callback.code = "" then none else some callback.state
  | .abort state => some state

/-- A session has returned an identity for a callback. -/
structure Returns (c : Session) (callback : OAuthCallback) (identity : VerifiedIdentity) :
    Prop where
  request : c.request = .exchange callback
  rest : c.rest = .done (.ok (.identity identity))

/-- A start has stored a state. -/
def Issued (P : Primitives) (config : GoogleOAuthConfig) (h : Desk) (state : String) : Prop :=
  ∃ c ∈ h.sessions, ∃ issue redirectUri, Issue.Made P config redirectUri issue c ∧
    issue.state P config = state

/-- The login transactions of a run of the client are used once and as issued, where the calls
that use up a state are told by `uses`. -/
structure UsedAsIssued (P : Primitives) (config : GoogleOAuthConfig)
    (uses : Call → Option String) (acts : List Act) : Prop where
  as_issued : ∀ c ∈ (serve P config acts).sessions, ∀ callback identity,
    Returns c callback identity → ∃ c' ∈ (serve P config acts).sessions, ∃ issue redirectUri,
      Issue.Made P config redirectUri issue c' ∧ issue.state P config = callback.state ∧
        ∃ now, ⟨.clock, now⟩ ∈ c.transcript ∧ now < issue.expiresAt ∧ ∃ e : Evidence,
          e.Supports P config callback.code redirectUri issue.pkceVerifier issue.nonceText now
            c.transcript identity
  once : ∀ (i j : Nat) (c c' : Session), (serve P config acts).sessions[i]? = some c →
    (serve P config acts).sessions[j]? = some c' → ∀ callback callback' identity identity',
      Returns c callback identity → Returns c' callback' identity' →
        callback.state = callback'.state → i = j
  spent : ∀ first second third, acts = first ++ second ++ third → ∀ (i j : Nat) (c c' : Session)
    state, Issued P config (serve P config first) state →
      (serve P config first).sessions.length ≤ i →
        (serve P config (first ++ second)).sessions[i]? = some c → uses c.request = some state →
          (∃ result, c.rest = .done result) →
            (serve P config (first ++ second)).sessions.length ≤ j →
              (serve P config acts).sessions[j]? = some c' → ∀ callback identity,
                callback.state = state → ¬ Returns c' callback identity

section

variable {P : Primitives} {config : GoogleOAuthConfig} {acts : List Act}

/-! ## As issued -/

theorem disclose_row (sound : P.Sound) {issue : Issue} {redirectUri : String}
    {row : OAuthTransactionRow} (digested : row.nonceDigest = digest P issue.nonceText)
    (encrypted : row.encryptedPkceVerifier =
      (issue.row P config redirectUri).encryptedPkceVerifier) :
    disclose P row = .ok (issue.nonceText, issue.pkceVerifier) := by
  have read : (P.decrypt row.encryptedPkceVerifier).bind P.loads =
      some (protectedValues issue.nonceText issue.pkceVerifier) := by
    rw [encrypted, Issue.row, sound.decrypt_encrypt]
    exact sound.loads_dumps _ _
  rw [disclose, read]
  exact if_neg (not_not_intro digested.symm)

/-- The row of a session goes back to the start that has stored it. -/
theorem exists_issue {c : Session} (mem : c ∈ (serve P config acts).sessions)
    {d : String} {row : OAuthTransactionRow} (found : ⟨.find d, some row⟩ ∈ c.transcript) :
    row.stateDigest = d ∧ ∃ c' ∈ (serve P config acts).sessions, ∃ issue redirectUri,
      Issue.Made P config redirectUri issue c' ∧ ∃ row', Ages row row' ∧
        Ages (issue.row P config redirectUri) row' := by
  obtain ⟨n, there⟩ := List.mem_iff_getElem?.mp mem
  have remembers := (each_remembers acts).sessions n c there
  obtain ⟨row', row_mem, ages⟩ := remembers.told _ found row (.found d)
  obtain ⟨m, c', row₀, there', inserted, ages'⟩ := rooted_serve acts row' row_mem
  have mem' := List.mem_of_getElem? there'
  have followed : Follows (c'.request.program P config) c'.transcript c'.rest :=
    follows_exec (fun _ none => absurd none List.not_mem_nil) c' mem'
  obtain ⟨redirectUri, request⟩ := request_of_inserted followed inserted
  rw [request] at followed
  obtain ⟨issue, rfl, made⟩ := start_inserted followed inserted
  refine ⟨remembers.asked d row found, c', mem', issue, redirectUri, ?_, row', ages, ages'⟩
  exact ⟨request, made.allowed, made.transcript, made.rest⟩

theorem usedAsIssued_as_issued (sound : P.Sound) {c : Session}
    (mem : c ∈ (serve P config acts).sessions) {callback : OAuthCallback}
    {identity : VerifiedIdentity} (returns : Returns c callback identity) :
    ∃ c' ∈ (serve P config acts).sessions, ∃ issue redirectUri,
      Issue.Made P config redirectUri issue c' ∧ issue.state P config = callback.state ∧
        ∃ now, ⟨.clock, now⟩ ∈ c.transcript ∧ now < issue.expiresAt ∧ ∃ e : Evidence,
          e.Supports P config callback.code redirectUri issue.pkceVerifier issue.nonceText now
            c.transcript identity := by
  have followed : Follows (c.request.program P config) c.transcript c.rest :=
    follows_exec (fun _ none => absurd none List.not_mem_nil) c mem
  rw [returns.request, returns.rest] at followed
  obtain ⟨now, row, nonce, verifier, clocked, found, -, timely, disclosed, e, supports⟩ :=
    exchange_ok followed
  obtain ⟨digested, c', mem', issue, redirectUri, made, row', ages, ages'⟩ :=
    exists_issue mem found
  obtain ⟨nonce_same, encrypted_same, redirect_same, expires_same⟩ := ages.columns
  obtain ⟨nonce_issued, encrypted_issued, redirect_issued, expires_issued⟩ := ages'.columns
  have opened := disclose_row sound (nonce_same.symm.trans nonce_issued)
    (encrypted_same.symm.trans encrypted_issued)
  obtain ⟨rfl, rfl⟩ := Prod.mk.inj (Except.ok.inj (disclosed.symm.trans opened))
  have redirect : row.redirectUri = redirectUri := redirect_same.symm.trans redirect_issued
  have expires : row.expiresAt = issue.expiresAt := expires_same.symm.trans expires_issued
  have state : digest P (issue.state P config) = digest P callback.state :=
    (ages'.stateDigest.symm.trans ages.stateDigest).trans digested
  rw [redirect] at supports
  rw [expires] at timely
  exact ⟨c', mem', issue, redirectUri, made, sound.sha256_injective state, now, clocked, timely, e,
    supports⟩

/-! ## Once -/

theorem usedAsIssued_once {i j : Nat} {c c' : Session}
    (there : (serve P config acts).sessions[i]? = some c)
    (there' : (serve P config acts).sessions[j]? = some c') {callback callback' : OAuthCallback}
    {identity identity' : VerifiedIdentity} (returns : Returns c callback identity)
    (returns' : Returns c' callback' identity') (same : callback.state = callback'.state) :
    i = j := by
  have each : Each Unique (fun _ s c => Remembers s c) (serve P config acts) :=
    each_remembers acts
  have claimed : ∀ (n : Nat) (c : Session) (callback : OAuthCallback) (identity : VerifiedIdentity),
      (serve P config acts).sessions[n]? = some c → Returns c callback identity →
        ∃ row ∈ (serve P config acts).store, row.stateDigest = digest P callback.state ∧
          ∃ x ∈ c.transcript, Takes row.id x := by
    intro n c callback identity there returns
    have followed : Follows (c.request.program P config) c.transcript c.rest :=
      follows_exec (fun _ none => absurd none List.not_mem_nil) c
        (List.mem_of_getElem? there)
    rw [returns.request, returns.rest] at followed
    obtain ⟨now, row, nonce, verifier, -, found, taken, -⟩ := exchange_ok followed
    have remembers := each.sessions n c there
    obtain ⟨row', mem, ages⟩ := remembers.told _ found row (.found _)
    have digested := remembers.asked _ row found
    refine ⟨row', mem, ages.stateDigest.trans digested, _, taken, ?_⟩
    rw [ages.id]
    exact .claimed row.version now
  obtain ⟨row, mem, digested, x, taken, takes⟩ := claimed i c callback identity there returns
  obtain ⟨row', mem', digested', x', taken', takes'⟩ :=
    claimed j c' callback' identity' there' returns'
  rw [same] at digested
  obtain rfl := each.store row mem row' mem' (digested.trans digested'.symm)
  exact takenOnce_serve acts i j c c' row.id there there' ⟨x, taken, takes⟩ ⟨x', taken', takes'⟩

/-! ## Spent -/

/-- What the calls do to the table while another one waits. -/
def aging : Terms Transactions ((q : Port) → q.Answer) Port where
  draw _ := True
  rely _ s t := Later s t
  allowed _ _ := True
  step _ s t := Later s t

/-- A row with a digest has been stored. -/
def Known (d : String) (s : Transactions) : Prop := ∃ row ∈ s, row.stateDigest = d

/-- A row with a digest has been consumed. -/
def Spent (d : String) (s : Transactions) : Prop :=
  ∃ row ∈ s, row.stateDigest = d ∧ row.consumedAt.isSome

variable {s t : Transactions} {d : String} {α : Type}

theorem Known.later (known : Known d s) (later : Later s t) : Known d t := by
  obtain ⟨row, mem, digested⟩ := known
  obtain ⟨row', mem', ages⟩ := later row mem
  exact ⟨row', mem', ages.stateDigest.trans digested⟩

theorem Spent.later (spent : Spent d s) (later : Later s t) : Spent d t := by
  obtain ⟨row, mem, digested, consumed⟩ := spent
  obtain ⟨row', mem', ages⟩ := later row mem
  exact ⟨row', mem', ages.stateDigest.trans digested, ages.stays_consumed consumed⟩

/-- What has been spent stays so, whatever is asked. -/
theorem holds_spent (p : Dialogue Port Port.Answer α) (spent : Spent d s) :
    Holds Transactions.answer aging p (fun _ t => Spent d t) s := by
  induction p generalizing s with
  | done a => exact spent
  | ask q k ih =>
    intro t later _ others _
    exact ⟨answer_later, ih _ ((spent.later later).later answer_later)⟩

/-- A row that has been found is consumed by the statement that looks for it as it was found,
unless it was consumed in the meantime. -/
theorem spent_update {row : OAuthTransactionRow} {p : OAuthTransactionRow → Bool} {now : Instant}
    (mem : row ∈ s) (hits : p row = true) (later : Later s t) :
    Spent row.stateDigest (t.update p (Transactions.consumed now)) := by
  obtain ⟨row', mem', ages⟩ := later row mem
  refine ⟨_, Table.mem_update_of_mem mem', ?_, ?_⟩
  · exact ((ages_consumed p now row').stateDigest).trans ages.stateDigest
  · cases ages with
    | same =>
      rw [if_pos hits]
      rfl
    | consumed at_time version => exact (ages_consumed p now _).stays_consumed rfl

/-- Whatever becomes of it, what is consumed is spent, once it is known. -/
theorem consume_spends (state : String) (now : Instant) (known : Known (digest P state) s) :
    Holds Transactions.answer aging (consume P state now).run
      (fun _ t => Spent (digest P state) t) s := by
  refine Procedure.holds_ask fun t later _ others _ => ⟨.refl, ?_⟩
  split
  · next found =>
    obtain ⟨row, mem, digested⟩ := known.later later
    exact absurd (decide_eq_true digested) (List.find?_eq_none.mp found row mem)
  · next row found =>
    obtain ⟨mem, digested⟩ := find_eq_some found
    rw [← digested]
    split
    · next consumed => exact ⟨row, mem, rfl, consumed⟩
    next free =>
    have isOpen : Transactions.isOpen row.id row = true := by
      simpa [Transactions.isOpen] using free
    split
    · refine Procedure.holds_ask fun u later' _ others _ => ⟨answer_later, ?_⟩
      exact holds_spent _ (spent_update mem isOpen later')
    · refine Procedure.holds_ask fun u later' _ others _ => ⟨answer_later, ?_⟩
      refine holds_spent _ (spent_update mem ?_ later')
      simp [Transactions.isClaimed, isOpen]

/-- A call that presents a known state with all that it needs leaves the state spent. -/
theorem call_spends {call : Call} {state : String} (uses : call.uses = some state)
    (valid : validState P state config.stateSecret = true) (named : state ≠ "")
    (known : Known (digest P state) s) :
    Holds Transactions.answer aging (call.program P config)
      (fun _ t => Spent (digest P state) t) s := by
  cases call with
  | start redirectUri => nomatch uses
  | exchange callback =>
    rw [Call.uses] at uses
    split at uses
    · nomatch uses
    next coded =>
    obtain rfl := Option.some.inj uses
    refine Procedure.holds_map (P := fun _ t => Spent (digest P callback.state) t) ?_
      (fun _ _ spent => spent) fun _ _ spent => spent
    rw [exchange, if_neg (not_or_intro coded named), if_neg (not_not_intro valid)]
    refine Procedure.holds_ask fun t later _ others _ => ⟨.refl, ?_⟩
    refine Procedure.holds_bind (consume_spends _ _ (known.later later)) ?_ fun _ _ spent => spent
    exact fun transaction t spent => holds_spent _ spent
  | abort state' =>
    obtain rfl := Option.some.inj uses
    refine Procedure.holds_map (P := fun _ t => Spent (digest P state') t) ?_
      (fun _ _ spent => spent) fun _ _ spent => spent
    rw [abort, if_neg (not_or_intro named (not_not_intro valid))]
    refine Procedure.holds_ask fun t later _ others _ => ⟨.refl, ?_⟩
    exact Procedure.holds_bind (consume_spends _ _ (known.later later))
      (fun _ _ spent => spent) fun _ _ spent => spent

/-- The same with every digest stored once. -/
def sharing : Terms Transactions ((q : Port) → q.Answer) Port :=
  { aging with allowed := fun _ s => Unique s }

theorem consume_refuses (state : String) (now : Instant) (spent : Spent (digest P state) s) :
    Holds Transactions.answer sharing (consume P state now).run
      (fun x _ => ∀ transaction, x ≠ .ok transaction) s := by
  refine Procedure.holds_ask fun t later unique others _ => ⟨.refl, ?_⟩
  split
  · exact fun _ => error_ne_ok
  next row found =>
    obtain ⟨mem, digested⟩ := find_eq_some found
    obtain ⟨row', mem', digested', consumed⟩ := spent.later later
    obtain rfl := unique row mem row' mem' (digested.trans digested'.symm)
    rw [if_pos consumed]
    exact fun _ => error_ne_ok

/-- An end without an identity. -/
def Refused (x : Except Failure Result) : Prop := ∀ identity, x ≠ .ok (.identity identity)

/-- An exchange of a state that is spent returns nothing. -/
theorem exchange_refuses {callback : OAuthCallback} (spent : Spent (digest P callback.state) s) :
    Holds Transactions.answer sharing ((Call.exchange callback).program P config)
      (fun x _ => Refused x) s := by
  refine Procedure.holds_map (P := fun x _ => ∀ identity, x ≠ .ok identity) ?_
    (fun identity _ none => absurd rfl (none identity)) fun _ _ _ _ => error_ne_ok
  rw [exchange]
  split
  · exact fun _ => error_ne_ok
  split
  · exact fun _ => error_ne_ok
  refine Procedure.holds_ask fun t later _ others _ => ⟨.refl, ?_⟩
  exact Procedure.holds_bind (consume_refuses _ _ (spent.later later))
    (fun transaction _ none => absurd rfl (none transaction)) fun _ _ _ _ => error_ne_ok

theorem serve_append (first second : List Act) : serve P config (first ++ second) =
    Run.exec (Dialogue.Desk.step (Call.program P config) Transactions.answer)
      (serve P config first) second :=
  Run.exec_append _ _ _ _

/-- Nothing is said of the sessions that are there already. -/
theorem each_of_late {I : Transactions → Prop} {K : Nat → Transactions → Session → Prop} {h : Desk}
    (start : I h.store) (late : ∀ n s c, n < h.sessions.length → K n s c) :
    Each I K h :=
  ⟨start, fun n c found => late n _ c (List.getElem?_eq_some_iff.mp found).1⟩

theorem issued_known {state : String} {first : List Act}
    (issued : Issued P config (serve P config first) state) :
    Known (digest P state) (serve P config first).store ∧
      validState P state config.stateSecret = true ∧ state ≠ "" := by
  obtain ⟨c, mem, issue, redirectUri, made, rfl⟩ := issued
  refine ⟨?_, validState_signedState _, signedState_ne_empty _⟩
  obtain ⟨n, found⟩ := List.mem_iff_getElem?.mp mem
  have remembers := (each_remembers first).sessions n c found
  have inserted : ⟨.insert (issue.row P config redirectUri), true⟩ ∈ c.transcript := by
    rw [made.transcript]
    simp [Issue.transcript]
  obtain ⟨row, row_mem, ages⟩ := remembers.told _ inserted _ .inserted
  exact ⟨row, row_mem, ages.stateDigest⟩

theorem usedAsIssued_spent {first second third : List Act} {i j : Nat} {c c' : Session}
    {state : String} (issued : Issued P config (serve P config first) state)
    (late : (serve P config first).sessions.length ≤ i)
    (there : (serve P config (first ++ second)).sessions[i]? = some c)
    (uses : c.request.uses = some state) (ended : ∃ result, c.rest = .done result)
    (later : (serve P config (first ++ second)).sessions.length ≤ j)
    (there' : (serve P config (first ++ second ++ third)).sessions[j]? = some c')
    {callback : OAuthCallback} {identity : VerifiedIdentity} (same : callback.state = state) :
    ¬ Returns c' callback identity := by
  intro returns
  obtain ⟨known, valid, named⟩ := issued_known issued
  have spends : Kept (Call.program P config) Transactions.answer
      (Known (digest P state)) fun n s (c : Session) =>
        (serve P config first).sessions.length ≤ n → c.request.uses = some state →
          Holds Transactions.answer aging c.rest (fun _ t => Spent (digest P state) t) s :=
    kept_of_holds (fun _ _ _ known => known.later answer_later) (fun _ => trivial)
      (fun _ _ _ _ => Later.trans) (fun _ _ => Later.refl) (fun _ _ _ => trivial)
      (fun _ _ _ _ _ => answer_later) (fun _ _ _ _ _ _ spent => spent.later answer_later)
      fun call s uses known => call_spends uses valid named known
  have spent : Spent (digest P state) (serve P config (first ++ second)).store := by
    have each := spends.exec (each_of_late known fun n s c before past =>
      absurd past (Nat.not_le_of_lt before)) second
    rw [← serve_append] at each
    obtain ⟨result, rest⟩ := ended
    have holds := each.sessions i c there late uses
    rw [rest] at holds
    exact holds
  have refuses : Kept (Call.program P config) Transactions.answer
      (fun s => Unique s ∧ Spent (digest P state) s) fun n s (c : Session) =>
        (serve P config (first ++ second)).sessions.length ≤ n → c.request = .exchange callback →
          Holds Transactions.answer sharing c.rest (fun x _ => Refused x) s :=
    kept_of_holds (I := fun s => Unique s ∧ Spent (digest P state) s) (T := sharing)
      (G := fun call => call = Call.exchange callback) (E := fun _ x _ => Refused x)
      (fun _ _ _ holds => ⟨holds.1.answer, holds.2.later answer_later⟩) (fun _ => trivial)
      (fun _ _ _ _ => Later.trans) (fun _ _ => Later.refl) (fun _ _ holds => holds.1)
      (fun _ _ _ _ _ => answer_later) (fun _ _ _ _ _ _ refused => refused)
      fun call s is_exchange holds => by
        rw [is_exchange]
        rw [← same] at holds
        exact exchange_refuses holds.2
  have each := refuses.exec
    (each_of_late ⟨(each_remembers _).store, spent⟩ fun n s c before past =>
      absurd past (Nat.not_le_of_lt before)) third
  rw [← serve_append] at each
  have holds := each.sessions j c' there' later returns.request
  rw [returns.rest] at holds
  exact holds identity rfl

/-- In every run of the client the login transactions are used once and as issued: an exchange
with an empty code apart, no call leaves a state that it presents to be used again. -/
theorem usedAsIssued (sound : P.Sound) (acts : List Act) :
    UsedAsIssued P config Call.uses acts where
  as_issued _ mem _ _ returns := usedAsIssued_as_issued sound mem returns
  once _ _ _ _ there there' _ _ _ _ returns returns' same :=
    usedAsIssued_once there there' returns returns' same
  spent first second third same i j c c' state issued late there uses ended later there' callback
      identity states := by
    subst same
    exact usedAsIssued_spent issued late there uses ended later there' states

end

/-! ## A login -/

/-- Libraries that hide nothing. -/
def plain : Primitives where
  sha256 text := text
  uuid5 _ := Uuid.ofNat 0
  digest text := utf8 text
  hmac _ message := Vector.ofFn fun i => message.getD i 0
  encrypt _ _ values := String.ofList (values.map fun b => Char.ofNat b.toNat)
  decrypt text := some (text.toList.map fun c => UInt8.ofNat c.toNat)
  loads bytes := (String.fromUTF8? ⟨bytes.toArray⟩).bind Json.loads
  decode _ _ := .ok [
    ("iss", .str GOOGLE_ISSUER),
    ("sub", .str "google-subject-1"),
    ("aud", .str "corvus-client.apps.googleusercontent.com"),
    ("email", .str "Lucas@Example.com"),
    ("email_verified", .bool true),
    ("nonce", .str (b64url (List.replicate 32 0))),
    ("iat", .int 0),
    ("exp", .int 300)]

theorem encode_protectedValues (nonce verifier : String) :
    (protectedValues nonce verifier).encode =
      '{' :: Json.quote "nonce" ++ ':' :: Json.quote nonce ++
        ',' :: Json.quote "pkce_verifier" ++ ':' :: Json.quote verifier ++ ['}'] := by
  have before : "nonce" ≤ "pkce_verifier" := by decide
  simp [protectedValues, Json.encode, Json.encodeMembers, Json.sortMembers, before,
    List.intercalate]

theorem quote_b64url (value : List UInt8) :
    Json.quote (b64url value) = '"' :: Base64.digits value ++ ['"'] := by
  have plain_digits : ∀ cs : List Char, (∀ c ∈ cs, Json.escapeChar c = [c]) →
      cs.flatMap Json.escapeChar = cs := by
    intro cs
    induction cs with
    | nil => exact fun _ => rfl
    | cons c cs ih =>
      intro each
      obtain ⟨first, rest⟩ := List.forall_mem_cons.mp each
      rw [List.flatMap_cons, first, ih rest, List.singleton_append]
  have escaped : ∀ n < 64, Json.escapeChar (Base64.digit n) = [Base64.digit n] := by decide
  rw [Json.quote, toList_b64url, plain_digits _ (Base64.forall_digits escaped value)]

theorem loads_utf8 (text : String) : plain.loads (utf8 text) = Json.loads text := by
  show (String.fromUTF8? ⟨text.toUTF8.data.toList.toArray⟩).bind Json.loads = Json.loads text
  rw [Array.toArray_toList]
  have read : String.fromUTF8? text.toUTF8 = some text := dif_pos text.isValidUTF8
  exact congrArg (·.bind Json.loads) read

theorem plain_sound : plain.Sound where
  sha256_injective _ _ same := same
  decrypt_encrypt time iv values := by
    have code : ∀ n < 256, (Char.ofNat n).toNat = n := by
      intro n small
      rw [Char.ofNat, dif_pos (.inl (by omega))]
      rfl
    simp only [plain, String.toList_ofList, List.map_map, Option.some.injEq]
    refine (List.map_congr_left fun b _ => ?_).trans (List.map_id values)
    show UInt8.ofNat (Char.ofNat b.toNat).toNat = b
    rw [code _ b.toNat_lt, UInt8.ofNat_toNat]
  loads_dumps nonce verifier := by
    have quoted : ∀ value, ∀ c ∈ Json.quote (b64url value), c.toNat < 127 := by
      intro value
      rw [quote_b64url]
      have mark : '"'.toNat < 127 := by decide
      refine List.forall_mem_append.mpr ⟨List.forall_mem_cons.mpr ⟨mark, ?_⟩,
        List.forall_mem_singleton.mpr mark⟩
      exact Base64.forall_digits (P := fun c => c.toNat < 127) Base64.digit_ascii value
    have ascii : ∀ c ∈ (protectedValues (b64url nonce) (b64url verifier)).encode,
        c.toNat < 127 := by
      rw [encode_protectedValues]
      simp only [List.forall_mem_append, List.forall_mem_cons]
      have keys : ∀ key ∈ ["nonce", "pkce_verifier"], (Json.quote key).all (·.toNat < 127) := by
        decide
      have key : ∀ key ∈ ["nonce", "pkce_verifier"], ∀ c ∈ Json.quote key, c.toNat < 127 :=
        fun name here c there => of_decide_eq_true (List.all_eq_true.mp (keys name here) c there)
      exact ⟨⟨⟨⟨⟨by decide, key _ (.head _)⟩, by decide, quoted nonce⟩, by decide,
        key _ (.tail _ (.head _))⟩, by decide, quoted verifier⟩, by decide, nofun⟩
    rw [loads_utf8, Json.dumpsAscii_eq_dumps ascii, Json.loads_dumps]
    have sorted : ["nonce", "pkce_verifier"].Pairwise (· < ·) := by decide
    exact ⟨sorted, trivial, trivial, trivial⟩

/-- The configuration of the tests. -/
def testConfig : GoogleOAuthConfig where
  clientId := "corvus-client.apps.googleusercontent.com"
  clientSecretRef := "env://CORVUS_GOOGLE_CLIENT_SECRET"
  redirectUris := ["https://corvus.example/api/v2/auth/google/callback"]
  stateSecret := "oauth-state-secret-value-that-is-at-least-32-characters"
  identified := by decide
  secret_long := by decide
  redirects := by decide

def tokenKey : Members := [("alg", .str "RS256"), ("kid", .str "google-key-1")]

/-- The others, with one key and a token for it. -/
def provider : (q : Port) → q.Answer
  | .clock | .time => (0 : Int)
  | .tokenBytes count => Vector.replicate count 0
  | .uuid4 => Uuid.ofNat 1
  | .insert _ => false
  | .find _ => none
  | .expire _ _ => ()
  | .claim _ _ _ => (0 : Nat)
  | .resolve _ => .ok "google-client-secret-value"
  | .exchangeCode _ _ => .ok [("id_token",
      .str (b64url (utf8 (Json.obj tokenKey).dumps) ++ ".claims.signature"))]
  | .fetchJwks _ => .ok [("keys", .arr [.obj tokenKey])]

def testIssue : Issue where
  createdAt := (0 : Int)
  random := Vector.replicate 32 0
  nonce := Vector.replicate 32 0
  verifier := Vector.replicate 64 0
  time := (0 : Int)
  iv := Vector.replicate 16 0
  id := Uuid.ofNat 1

/-- A start that stores a state. -/
def started : List Act :=
  .enter (.start "https://corvus.example/api/v2/auth/google/callback") ::
    List.replicate 8 (.go 0 provider)

/-- An exchange with an empty code. -/
def presented : List Act := [.enter (.exchange ⟨"", testIssue.state plain testConfig⟩)]

/-- An exchange with the code of the provider. -/
def exchanged : List Act :=
  .enter (.exchange ⟨"provider-code", testIssue.state plain testConfig⟩) ::
    List.replicate 6 (.go 2 provider)

theorem started_issued : Issued plain testConfig (serve plain testConfig started)
    (testIssue.state plain testConfig) := by
  refine ⟨⟨.start "https://corvus.example/api/v2/auth/google/callback", _, _⟩, ?_, testIssue,
    "https://corvus.example/api/v2/auth/google/callback", ⟨rfl, by decide, rfl, rfl⟩, rfl⟩
  exact List.mem_singleton_self _

theorem ending_ask {others : (q : Port) → q.Answer} {s : Transactions} {q : Port} {α β : Type}
    {w : α → β} {g : q.Answer → Program α} {n : Nat} :
    ending Transactions.answer others (n + 1) (w <$> (ask q >>= g)).run s =
      ending Transactions.answer others n (w <$> g (Transactions.answer others q s).1).run
        (Transactions.answer others q s).2 := rfl

/-- An exchange that finds an open row and claims it goes on with what is disclosed of the row. -/
theorem ending_consume {P : Primitives} {others : (q : Port) → q.Answer} {s : Transactions}
    {row : OAuthTransactionRow} {state nonce verifier : String} {now : Instant} {α β : Type}
    {w : α → β} {f : OAuthTransaction → Program α} {n : Nat}
    (found : s.find (digest P state) = some row) (unconsumed : row.consumedAt = none)
    (timely : now < row.expiresAt)
    (claimed : (s.rows.filter (Transactions.isClaimed row.id row.version)).length = 1)
    (disclosed : disclose P row = .ok (nonce, verifier)) :
    ending Transactions.answer others (n + 2) (w <$> (consume P state now >>= f)).run s =
      ending Transactions.answer others n
        (w <$> f {
          id := row.id, stateDigest := row.stateDigest, nonceDigest := row.nonceDigest, nonce,
          redirectUri := row.redirectUri, pkceVerifier := verifier, expiresAt := row.expiresAt,
          consumedAt := some now, version := row.version + 1 }).run
        (s.update (Transactions.isClaimed row.id row.version) (Transactions.consumed now)) := by
  have finds : ∀ g : Option OAuthTransactionRow → Program OAuthTransaction,
      ending Transactions.answer others (n + 2)
          (w <$> (ask (.find (digest P state)) >>= g >>= f)).run s =
        ending Transactions.answer others (n + 1)
          (w <$> (g (s.find (digest P state)) >>= f)).run s := fun _ => rfl
  rw [consume, finds, found]
  dsimp only
  rw [if_neg (by rw [unconsumed]; decide), if_neg (not_le.mpr timely)]
  show ending Transactions.answer others n
    (ExceptT.run (w <$> ((if (s.rows.filter (Transactions.isClaimed row.id row.version)).length ≠ 1
      then _ else _) >>= f))) _ = _
  rw [if_neg (not_not.mpr claimed), disclosed]
  rfl

/-- What is kept of the login between the start and the exchange. -/
def testStore : Transactions := (serve plain testConfig (started ++ presented)).store

def testRow : OAuthTransactionRow :=
  testIssue.row plain testConfig "https://corvus.example/api/v2/auth/google/callback"

/-- The transaction of the login, once it is consumed. -/
def testTransaction : OAuthTransaction where
  id := testRow.id
  stateDigest := testRow.stateDigest
  nonceDigest := testRow.nonceDigest
  nonce := testIssue.nonceText
  redirectUri := testRow.redirectUri
  pkceVerifier := testIssue.pkceVerifier
  expiresAt := testRow.expiresAt
  consumedAt := some (0 : Int)
  version := testRow.version + 1

theorem validState_testIssue :
    validState plain (testIssue.state plain testConfig) testConfig.stateSecret = true := by
  decide +kernel

theorem redeem_ends : ending Transactions.answer provider 3
    (Result.identity <$> redeem plain testConfig "provider-code" (0 : Int) testTransaction).run
      (testStore.update (Transactions.isClaimed testRow.id testRow.version)
        (Transactions.consumed (0 : Int))) =
    some (.ok (.identity
      ⟨GOOGLE_ISSUER, "google-subject-1", "Lucas@Example.com", true, "Lucas"⟩)) := by
  decide +kernel

theorem exchange_ends : ending Transactions.answer provider 6
    (Result.identity <$> exchange plain testConfig
      ⟨"provider-code", testIssue.state plain testConfig⟩).run testStore =
    some (.ok (.identity
      ⟨GOOGLE_ISSUER, "google-subject-1", "Lucas@Example.com", true, "Lucas"⟩)) := by
  have nonempty : testIssue.state plain testConfig ≠ "" := by
    intro empty
    have valid := validState_testIssue
    rw [empty] at valid
    exact absurd valid (by decide)
  have found : testStore.find (digest plain (testIssue.state plain testConfig)) = some testRow :=
    List.find?_cons_of_pos (decide_eq_true rfl)
  rw [exchange, if_neg (not_or.mpr ⟨by decide, nonempty⟩),
    if_neg (not_not.mpr validState_testIssue)]
  refine (ending_ask (n := 5)).trans ?_
  refine (ending_consume found rfl (by decide) rfl (disclose_row plain_sound rfl rfl)).trans ?_
  exact redeem_ends

theorem exchanged_returns : ∃ c,
    (serve plain testConfig (started ++ presented ++ exchanged)).sessions[2]? = some c ∧
    Returns c ⟨"provider-code", testIssue.state plain testConfig⟩
      ⟨GOOGLE_ISSUER, "google-subject-1", "Lucas@Example.com", true, "Lucas"⟩ := by
  have entered : (serve plain testConfig (started ++ presented ++
      [.enter (.exchange ⟨"provider-code", testIssue.state plain testConfig⟩)])).sessions[2]? =
    some ⟨.exchange ⟨"provider-code", testIssue.state plain testConfig⟩, [],
      (Result.identity <$> exchange plain testConfig
        ⟨"provider-code", testIssue.state plain testConfig⟩).run⟩ := rfl
  obtain ⟨u, ends⟩ := exec_go (Call.program plain testConfig) entered exchange_ends
  have parts : started ++ presented ++ exchanged = started ++ presented ++
      [.enter (.exchange ⟨"provider-code", testIssue.state plain testConfig⟩)] ++
        List.replicate 6 (.go 2 provider) := by
    rw [List.append_assoc (started ++ presented), exchanged, List.singleton_append]
  rw [parts, serve, Run.exec_append]
  exact ⟨_, ends, rfl, rfl⟩

/-- The login with an identity at its end is used once and as issued. -/
theorem usedAsIssued_login :
    (∃ c ∈ (serve plain testConfig (started ++ presented ++ exchanged)).sessions,
      ∃ callback identity, Returns c callback identity) ∧
        UsedAsIssued plain testConfig Call.uses (started ++ presented ++ exchanged) := by
  obtain ⟨c, found, returns⟩ := exchanged_returns
  exact ⟨⟨c, List.mem_of_getElem? found, _, _, returns⟩, usedAsIssued plain_sound _⟩

/-- An exchange with an empty code is over at once, and the state that it has presented is
exchanged after it. -/
theorem presented_exchanged :
    ¬ UsedAsIssued plain testConfig Call.presents (started ++ presented ++ exchanged) := by
  intro used
  obtain ⟨c', found, returns⟩ := exchanged_returns
  have ended : ∃ c, (serve plain testConfig (started ++ presented)).sessions[1]? = some c ∧
      c.request.presents = some (testIssue.state plain testConfig) ∧
        c.rest = .done (.error (.oauth "oauth_callback_invalid")) := ⟨_, rfl, rfl, rfl⟩
  obtain ⟨c, there, presents, rest⟩ := ended
  exact used.spent started presented exchanged rfl 1 2 c c' _ started_issued (by decide) there
    presents ⟨_, rest⟩ (by decide) found _ _ rfl returns

end Corvus.Oauth
