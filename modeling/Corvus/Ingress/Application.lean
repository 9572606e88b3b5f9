import Corvus.Ingress.Offline

/-!
# What has been applied

An application is checked on the envelope that comes in, and marks the row that has its
idempotency key. The row keeps the envelope with which it was queued. The two are one where
the row is new; where it was queued before, only a condition on the stored envelope makes the
checks speak of it.
-/

namespace Corvus.Ingress

variable {C : Crypto} {signer : String} {s s' : Connector} {envelope : OfflineIntentEnvelope}
  {now checkedAt : Instant} {row : OfflineIntentRow} {t : Transaction} {c : Call}
  {idempotencyKey : String}

def Transaction.isReconcile : Transaction → Bool
  | reconcile .. => true
  | _ => false

namespace Connector

/-- The checks of an application. -/
def Accepts (C : Crypto) (s : Connector) (checkedAt : Instant) (envelope : OfflineIntentEnvelope) :
    Prop :=
  s.verify C checkedAt envelope = .ok () ∧ envelope.local

/-- The constraints of the table, and what the statements keep of its columns. -/
structure Sound (s : Connector) : Prop where
  keyed : (s.intents.rows.map (·.idempotencyKey)).Nodup
  bound : ∀ row ∈ s.intents, row.idempotencyKey = row.envelope.idempotencyKey
  counted : ∀ row ∈ s.intents, row.applicationCount = if row.status = .applied then 1 else 0

/-! ## Statements -/

/-- The checks look at the keys of the actors only. -/
theorem verify_of_keys (same : s'.keys = s.keys) :
    s'.verify C checkedAt envelope = s.verify C checkedAt envelope := by
  rw [verify, verify, same]

theorem Sound.eq_of_key (sound : s.Sound) {r : OfflineIntentRow} (mem : row ∈ s.intents)
    (mem' : r ∈ s.intents) (same : row.idempotencyKey = r.idempotencyKey) : row = r :=
  List.inj_on_of_nodup_map sound.keyed mem mem' same

theorem find_eq_some (sound : s.Sound) :
    s.find idempotencyKey = some row ↔ row ∈ s.intents ∧ row.idempotencyKey = idempotencyKey := by
  constructor
  · intro found
    exact ⟨List.mem_of_find?_eq_some found, by simpa using List.find?_some found⟩
  · rintro ⟨mem, rfl⟩
    obtain ⟨r, found⟩ : ∃ r, s.find row.idempotencyKey = some r :=
      Option.isSome_iff_exists.mp (List.find?_isSome.mpr ⟨row, mem, by simp⟩)
    have same : r.idempotencyKey = row.idempotencyKey := by simpa using List.find?_some found
    rw [found, sound.eq_of_key (List.mem_of_find?_eq_some found) mem same]

/-- An insertion adds the row of the envelope, whose key no row had. -/
theorem insert_ok (inserted : s.insert envelope now = .ok s') :
    s'.intents.rows = s.intents.rows ++ [envelope.row now] ∧ s'.keys = s.keys ∧
      ∀ r ∈ s.intents, r.idempotencyKey ≠ envelope.idempotencyKey := by
  obtain ⟨_, free, rest⟩ := bind_eq_ok.mp inserted
  obtain ⟨intents, added, done⟩ := bind_eq_ok.mp rest
  cases done
  refine ⟨(Table.insert?_eq_some.mp (present_eq_ok.mp added)).2, rfl, fun r mem same => ?_⟩
  exact refuse_eq_ok.mp free (List.any_eq_true.mpr ⟨r, mem, by simpa using same⟩)

theorem Sound.insert (sound : s.Sound) (inserted : s.insert envelope now = .ok s') : s'.Sound := by
  obtain ⟨rows, _, free⟩ := insert_ok inserted
  have cases : ∀ r ∈ s'.intents, r ∈ s.intents ∨ r = envelope.row now := fun r mem => by
    rw [Table.mem_iff, rows, List.mem_append, List.mem_singleton] at mem
    exact mem
  refine ⟨?_, fun r mem => ?_, fun r mem => ?_⟩
  · rw [rows, List.map_append, List.map_singleton]
    refine List.Nodup.append sound.keyed (List.nodup_singleton _) fun k mem new => ?_
    obtain ⟨r, old, rfl⟩ := List.mem_map.mp mem
    exact free r old (List.mem_singleton.mp new)
  · obtain old | rfl := cases r mem
    · exact sound.bound r old
    · rfl
  · obtain old | rfl := cases r mem
    · exact sound.counted r old
    · rfl

theorem mem_apply {r : OfflineIntentRow} : r ∈ (s.apply envelope now).intents ↔
    ∃ row ∈ s.intents, (if row.idempotencyKey = envelope.idempotencyKey && row.applicationCount = 0
      then applying envelope.result now row else row) = r :=
  Table.mem_update

theorem Sound.apply (sound : s.Sound) : (s.apply envelope now).Sound := by
  refine ⟨?_, fun r mem => ?_, fun r mem => ?_⟩
  · have same : (s.apply envelope now).intents.rows.map (·.idempotencyKey) =
        s.intents.rows.map (·.idempotencyKey) := by
      rw [Connector.apply, Table.rows_update, List.map_map]
      refine List.map_congr_left fun row _ => ?_
      rw [Function.comp_apply]
      split
      · rfl
      · rfl
    rw [same]
    exact sound.keyed
  · obtain ⟨row, old, rfl⟩ := mem_apply.mp mem
    split
    · exact sound.bound row old
    · exact sound.bound row old
  · obtain ⟨row, old, rfl⟩ := mem_apply.mp mem
    split
    · rfl
    · exact sound.counted row old

/-! ## Transactions -/

/-- A call of `reconcile` that does not raise finds the intent applied, or applies it to the
row that was there or that it has added. -/
theorem reconcile_ok (reconciled : s.reconcile C envelope now checkedAt = .ok s') :
    (s.find envelope.idempotencyKey).any (·.status = .applied) = true ∧ s' = s ∨
      (s.find envelope.idempotencyKey).any (·.status = .applied) = false ∧
        s.Accepts C checkedAt envelope ∧ ∃ queued, s' = queued.apply envelope now ∧
          ((s.find envelope.idempotencyKey).isSome ∧ queued = s ∨
            s.find envelope.idempotencyKey = none ∧ s.insert envelope now = .ok queued) := by
  obtain ⟨queued, first, rest⟩ := bind_eq_ok.mp reconciled
  have origin : (s.find envelope.idempotencyKey).isSome ∧ queued = s ∨
      s.find envelope.idempotencyKey = none ∧ s.insert envelope now = .ok queued := by
    rw [ensure] at first
    split at first
    · next absent => exact .inr ⟨absent, first⟩
    · next row found =>
      rw [found]
      exact .inl ⟨rfl, (Except.ok.inj first).symm⟩
  have keys : queued.keys = s.keys := by
    obtain ⟨_, rfl⟩ | ⟨_, inserted⟩ := origin
    · rfl
    · exact (insert_ok inserted).2.1
  split at rest
  · next applied => exact .inl ⟨applied, (Except.ok.inj rest).symm⟩
  · next fresh =>
    obtain ⟨_, verified, rest⟩ := bind_eq_ok.mp rest
    obtain ⟨_, addressed, done⟩ := bind_eq_ok.mp rest
    refine .inr ⟨Bool.not_eq_true _ ▸ fresh, ⟨?_, require_eq_ok.mp addressed⟩, queued,
      (Except.ok.inj done).symm, origin⟩
    rw [← verified, verify_of_keys keys]

theorem Sound.reconcile (sound : s.Sound)
    (reconciled : s.reconcile C envelope now checkedAt = .ok s') : s'.Sound := by
  obtain ⟨_, rfl⟩ | ⟨_, _, queued, rfl, ⟨_, rfl⟩ | ⟨_, inserted⟩⟩ := reconcile_ok reconciled
  · exact sound
  · exact sound.apply
  · exact (sound.insert inserted).apply

theorem register_intents (actorId publicKey : String) (now : Instant) :
    (s.register actorId publicKey now).intents = s.intents := by
  rw [register]
  split
  · rfl
  · rfl

theorem Sound.step (sound : s.Sound) : (s.step C signer t).Sound := by
  rw [Connector.step]
  split
  · next s' performed =>
    cases t with
    | registerActor actorId publicKey now =>
      obtain ⟨_, _, done⟩ := bind_eq_ok.mp performed
      obtain rfl := Except.ok.inj done
      have same := register_intents (s := s) actorId publicKey now
      exact ⟨same ▸ sound.keyed, same ▸ sound.bound, same ▸ sound.counted⟩
    | queueIntent actorId audience scope payload expiresAt intentId nonce issuedAt now =>
      obtain ⟨_, _, rest⟩ := bind_eq_ok.mp performed
      obtain ⟨_, _, inserted⟩ := bind_eq_ok.mp rest
      exact sound.insert inserted
    | reconcile envelope now checkedAt => exact sound.reconcile performed
    | disconnect =>
      obtain rfl := Except.ok.inj performed
      exact ⟨sound.keyed, sound.bound, sound.counted⟩
    | connect =>
      obtain rfl := Except.ok.inj performed
      exact ⟨sound.keyed, sound.bound, sound.counted⟩
  · exact sound

/-! ## Applied once and as signed -/

/-- What a transaction may do to the intents: no key is applied twice, an applied row stays
as it is, and a row that becomes applied holds an envelope that passes the checks at that
moment and has the stored result. -/
structure Faithful (C : Crypto) (signer : String) (s : Connector) (t : Transaction) : Prop where
  once : ∀ row ∈ (s.step C signer t).intents, row.applicationCount ≤ 1
  single : ((s.step C signer t).intents.rows.map (·.idempotencyKey)).Nodup
  kept : ∀ row ∈ s.intents, row.status = .applied → row ∈ (s.step C signer t).intents
  signed : ∀ row ∈ (s.step C signer t).intents, row.status = .applied → row ∈ s.intents ∨
    ∃ envelope now checkedAt, t = .reconcile envelope now checkedAt ∧
      s.Accepts C checkedAt row.envelope ∧ row.result = some row.envelope.result
  rejected : ∀ e, s.perform C signer t = .error e → s.step C signer t = s

/-- Where an accepted envelope meets a queued row of its key, the stored envelope passes the
checks at that moment too and asks for the same. -/
def Matching (C : Crypto) (s : Connector) (t : Transaction) : Prop :=
  ∀ envelope now checkedAt, t = .reconcile envelope now checkedAt →
    s.Accepts C checkedAt envelope → ∀ row ∈ s.intents,
      row.idempotencyKey = envelope.idempotencyKey → row.status = .queued →
        s.Accepts C checkedAt row.envelope ∧ row.envelope.result = envelope.result

theorem status_queued (differs : row.status ≠ .applied) : row.status = .queued := by
  cases status : row.status with
  | queued => rfl
  | applied => exact absurd status differs

theorem Sound.once (sound : s.Sound) : ∀ row ∈ s.intents, row.applicationCount ≤ 1 := by
  intro row mem
  rw [sound.counted row mem]
  split
  · exact Nat.le_refl 1
  · exact Nat.zero_le 1

/-- An application keeps the rows that are applied already. -/
theorem apply_kept (sound : s.Sound) (mem : row ∈ s.intents) (applied : row.status = .applied) :
    row ∈ (s.apply envelope now).intents := by
  refine mem_apply.mpr ⟨row, mem, ?_⟩
  rw [sound.counted row mem, if_pos applied]
  simp

/-- A row that an application has marked. -/
theorem apply_new (sound : s.Sound) {r : OfflineIntentRow}
    (mem : r ∈ (s.apply envelope now).intents) (applied : r.status = .applied) :
    r ∈ s.intents ∨ ∃ row ∈ s.intents, row.status = .queued ∧
      row.idempotencyKey = envelope.idempotencyKey ∧ r.envelope = row.envelope ∧
      r.result = some envelope.result := by
  obtain ⟨row, old, rfl⟩ := mem_apply.mp mem
  split at applied
  · next marks =>
    rw [if_pos marks]
    rw [Bool.and_eq_true, decide_eq_true_eq, decide_eq_true_eq, sound.counted row old] at marks
    have queued : row.status ≠ .applied := fun done => by
      rw [if_pos done] at marks
      exact absurd marks.2 (by decide)
    exact .inr ⟨row, old, status_queued queued, marks.1, rfl, rfl⟩
  · next unmarked =>
    rw [if_neg unmarked]
    exact .inl old

/-- The transactions that apply nothing keep the rows. -/
theorem intents_of_not_reconcile (other : t.isReconcile = false) :
    (∀ row ∈ s.intents, row ∈ (s.step C signer t).intents) ∧
      ∀ row ∈ (s.step C signer t).intents, row ∈ s.intents ∨ row.status = .queued := by
  rw [Connector.step]
  split
  · next s' performed =>
    cases t with
    | registerActor actorId publicKey now =>
      obtain ⟨_, _, done⟩ := bind_eq_ok.mp performed
      obtain rfl := Except.ok.inj done
      rw [register_intents]
      exact ⟨fun _ mem => mem, fun _ mem => .inl mem⟩
    | queueIntent actorId audience scope payload expiresAt intentId nonce issuedAt now =>
      obtain ⟨_, _, rest⟩ := bind_eq_ok.mp performed
      obtain ⟨_, _, inserted⟩ := bind_eq_ok.mp rest
      obtain ⟨rows, _, _⟩ := insert_ok inserted
      simp only [Table.mem_iff, rows, List.mem_append, List.mem_singleton]
      refine ⟨fun _ mem => .inl mem, ?_⟩
      rintro row (old | rfl)
      · exact .inl old
      · exact .inr rfl
    | reconcile envelope now checkedAt => nomatch other
    | disconnect =>
      obtain rfl := Except.ok.inj performed
      exact ⟨fun _ mem => mem, fun _ mem => .inl mem⟩
    | connect =>
      obtain rfl := Except.ok.inj performed
      exact ⟨fun _ mem => mem, fun _ mem => .inl mem⟩
  · exact ⟨fun _ mem => mem, fun _ mem => .inl mem⟩

/-- A call that raises leaves no trace. -/
theorem step_of_error {e : IngressError} (raised : s.perform C signer t = .error e) :
    s.step C signer t = s := by
  rw [Connector.step, raised]

/-- A row that is applied by a call of `reconcile` was queued with its key, or is the row of
the envelope. -/
theorem Sound.applied (sound : s.Sound) (reconciled : s.reconcile C envelope now checkedAt = .ok s')
    {r : OfflineIntentRow} (mem : r ∈ s'.intents) (applied : r.status = .applied) :
    r ∈ s.intents ∨ s.Accepts C checkedAt envelope ∧ r.result = some envelope.result ∧
      (r.envelope = envelope ∨ ∃ row ∈ s.intents, row.status = .queued ∧
        row.idempotencyKey = envelope.idempotencyKey ∧ r.envelope = row.envelope) := by
  obtain ⟨_, rfl⟩ | ⟨_, accepts, queued, rfl, origin⟩ := reconcile_ok reconciled
  · exact .inl mem
  · obtain ⟨_, rfl⟩ | ⟨_, inserted⟩ := origin
    · obtain old | ⟨row, old, waiting, same, stored, result⟩ := apply_new sound mem applied
      · exact .inl old
      · exact .inr ⟨accepts, result, .inr ⟨row, old, waiting, same, stored⟩⟩
    · obtain ⟨rows, _, free⟩ := insert_ok inserted
      have split : ∀ r ∈ queued.intents, r ∈ s.intents ∨ r = envelope.row now := fun r mem => by
        rw [Table.mem_iff, rows, List.mem_append, List.mem_singleton] at mem
        exact mem
      obtain old | ⟨row, added, _, same, stored, result⟩ :=
        apply_new (sound.insert inserted) mem applied
      · obtain old | rfl := split r old
        · exact .inl old
        · nomatch applied
      · obtain old | rfl := split row added
        · exact absurd same (free row old)
        · exact .inr ⟨accepts, result, .inl stored⟩

/-- A transaction is faithful exactly when the stored envelope that it meets matches. -/
theorem faithful_iff (sound : s.Sound) : s.Faithful C signer t ↔ s.Matching C t := by
  constructor
  · rintro faithful envelope now checkedAt rfl accepts row mem same queued
    have found : s.find envelope.idempotencyKey = some row := (find_eq_some sound).mpr ⟨mem, same⟩
    have result : s.step C signer (.reconcile envelope now checkedAt) = s.apply envelope now := by
      have reconciled : s.reconcile C envelope now checkedAt = .ok (s.apply envelope now) := by
        rw [reconcile, ensure, found, ok_bind, if_neg (by simp [queued]), accepts.1, ok_bind,
          require_of accepts.2]
        rfl
      rw [Connector.step, perform, reconciled]
    have marked : applying envelope.result now row ∈
        (s.step C signer (.reconcile envelope now checkedAt)).intents := by
      rw [result]
      refine mem_apply.mpr ⟨row, mem, if_pos ?_⟩
      rw [sound.counted row mem, queued]
      simp [same]
    obtain old | ⟨_, _, _, call, stored, computed⟩ := faithful.signed _ marked rfl
    · have unmarked := Table.eq_of_key old mem rfl
      rw [← unmarked] at queued
      nomatch queued
    · cases call
      exact ⟨stored, (Option.some.inj computed).symm⟩
  · intro matching
    refine ⟨sound.step.once, sound.step.keyed, ?_, ?_, fun e raised => step_of_error raised⟩
    · intro row mem applied
      cases t with
      | reconcile envelope now checkedAt =>
        rw [Connector.step, perform]
        split
        · next s' reconciled =>
          obtain ⟨_, rfl⟩ | ⟨_, _, queued, rfl, ⟨_, rfl⟩ | ⟨_, inserted⟩⟩ := reconcile_ok reconciled
          · exact mem
          · exact apply_kept sound mem applied
          · refine apply_kept (sound.insert inserted) ?_ applied
            rw [Table.mem_iff, (insert_ok inserted).1]
            exact List.mem_append_left _ mem
        · exact mem
      | _ => exact (intents_of_not_reconcile rfl).1 row mem
    · intro r mem applied
      cases t with
      | reconcile envelope now checkedAt =>
        rw [Connector.step, perform] at mem
        split at mem
        · next s' reconciled =>
          obtain old | ⟨accepts, result, origin⟩ := sound.applied reconciled mem applied
          · exact .inl old
          · refine .inr ⟨envelope, now, checkedAt, rfl, ?_⟩
            obtain same | ⟨row, old, queued, same, stored⟩ := origin
            · rw [same]
              exact ⟨accepts, result⟩
            · rw [stored, result]
              obtain ⟨passes, asked⟩ := matching envelope now checkedAt rfl accepts row old same queued
              exact ⟨passes, congrArg some asked.symm⟩
        · exact .inl mem
      | _ =>
        obtain old | queued := (intents_of_not_reconcile rfl).2 r mem
        · exact .inl old
        · rw [queued] at applied
          nomatch applied

/-! ## Runs -/

/-- A call is faithful when all its transactions are. -/
def FaithfulCall (C : Crypto) (signer : String) (s : Connector) (c : Call) : Prop :=
  Run.Along (step C signer) (Faithful C signer) s (s.transactions C c)

def MatchingCall (C : Crypto) (signer : String) (s : Connector) (c : Call) : Prop :=
  Run.Along (step C signer) (Matching C) s (s.transactions C c)

theorem sound_opened : opened.Sound :=
  ⟨List.nodup_nil, (fun _ mem => nomatch mem), fun _ mem => nomatch mem⟩

theorem Sound.call (sound : s.Sound) : (s.call C signer c).Sound :=
  Run.preserves sound (fun _ _ sound => sound.step) _

/-- In every sequence of calls, each key is applied once and as signed exactly when every
application meets, if any, a queued envelope that is accepted itself and asks for the same. -/
theorem applied_as_signed_iff (calls : List Call) :
    Run.Along (call C signer) (FaithfulCall C signer) opened calls ↔
      Run.Along (call C signer) (MatchingCall C signer) opened calls :=
  Run.along_iff sound_opened (fun _ _ sound _ => sound.call) fun _ _ sound =>
    Run.along_iff sound (fun _ _ sound _ => sound.step) fun _ _ sound => faithful_iff sound

end Connector

/-! ## Another envelope under a queued key -/

section

/-- One digest for every text, and every signature accepted. -/
def lenient : Crypto where
  sha256 _ := "k"
  uuid5 _ := ⟨0⟩
  validKey _ := true
  sign _ := "s"
  verifies _ _ := true

/-- An envelope of another actor with the key of the queued one. -/
def colliding : OfflineIntentEnvelope where
  intentId := "2"
  actorId := "bob"
  audience := "local-corvus"
  scope := "project:p"
  issuedAt := ⟨0, some 0⟩
  expiresAt := ⟨10, some 0⟩
  nonce := "n"
  idempotencyKey := "k"
  payloadDigest := "k"
  payload := [("command", .str "c")]
  signature := "s"

/-- An intent for another audience, which has expired, is queued. -/
def collision : List Call :=
  [.registerActor "bob" "b" 0, .disconnect,
    .queueIntent "ann" "elsewhere" "" [] ⟨0, some 0⟩ "1" "m" 0 0, .reconcile colliding 5 5]

/-- The row of the expired intent for another audience is applied, with the result of the
other envelope. -/
theorem unsigned_applied : ∃ row ∈ (Run.exec (Connector.call lenient "ann") .opened collision).intents,
    row.status = .applied ∧ row.envelope.audience = "elsewhere" ∧ ¬ row.envelope.local ∧
      row.envelope.expiresAt.instant ≤ 5 ∧ row.result ≠ some row.envelope.result := by
  refine ⟨{ (signIntent lenient "ann" "elsewhere" "" [] ⟨0, some 0⟩ "1" "m" 0).row 0 with
    status := .applied, applicationCount := 1, result := some colliding.result, updatedAt := 5 },
    ?_, ?_⟩
  · decide +kernel
  · decide +kernel

end

end Corvus.Ingress
