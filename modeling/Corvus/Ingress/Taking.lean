import Corvus.Ingress.Channel

/-!
# What has been taken

An event that is new is stored after its envelope has been verified, once for each id that
its provider gives. The answer to an id that is known comes before the verification, so it
says something about the stored envelope only, and about the presented one where a condition
ties the two.
-/

namespace Corvus.Ingress.Channel

variable {C : ChannelCrypto} {s s' : Channel} {envelope : ChannelEventEnvelope}
  {now checkedAt : Instant} {eventId provider externalEventId : String} {row r : ChannelEventRow}
  {record : ChannelEventRecord} {c : ChannelCall} {calls : List ChannelCall}

/-- What tells the events of a provider apart. -/
def identifier (row : ChannelEventRow) : String × String := (row.provider, row.externalEventId)

/-- The constraints of the table, and what the statements keep of its columns. -/
structure Sound (s : Channel) : Prop where
  single : (s.events.rows.map identifier).Nodup
  once : ∀ row ∈ s.events, row.processingCount = 1
  bound : ∀ row ∈ s.events, identifier row = (row.envelope.provider, row.envelope.externalEventId)

/-! ## Statements -/

theorem find_eq_some (sound : s.Sound) :
    s.find provider externalEventId = some row ↔
      row ∈ s.events ∧ identifier row = (provider, externalEventId) := by
  constructor
  · intro found
    refine ⟨List.mem_of_find?_eq_some found, ?_⟩
    have same := List.find?_some found
    simpa [identifier] using same
  · rintro ⟨mem, same⟩
    have found := Table.find?_of_nodup sound.single mem
    rw [same] at found
    rw [find, ← found]
    congr 1
    funext r
    simp [identifier]

theorem find_eq_none : s.find provider externalEventId = none ↔
    ∀ r ∈ s.events, identifier r ≠ (provider, externalEventId) := by
  simp [find, List.find?_eq_none, Table.mem_iff, identifier]

/-- An insertion adds a row under an identifier that no row had. -/
theorem insert_ok (inserted : s.insert row = .ok s') :
    s'.events.rows = s.events.rows ++ [row] ∧ ∀ r ∈ s.events, identifier r ≠ identifier row := by
  obtain ⟨_, free, rest⟩ := bind_eq_ok.mp inserted
  obtain ⟨events, added, done⟩ := bind_eq_ok.mp rest
  cases done
  refine ⟨(Table.insert?_eq_some.mp (present_eq_ok.mp added)).2, ?_⟩
  apply find_eq_none.mp
  simpa using refuse_eq_ok.mp free

theorem Sound.insert (sound : s.Sound) (inserted : s.insert row = .ok s')
    (once : row.processingCount = 1)
    (bound : identifier row = (row.envelope.provider, row.envelope.externalEventId)) :
    s'.Sound := by
  obtain ⟨rows, free⟩ := insert_ok inserted
  have split : ∀ r ∈ s'.events, r ∈ s.events ∨ r = row := by
    intro r mem
    rw [Table.mem_iff, rows, List.mem_append, List.mem_singleton] at mem
    exact mem
  refine ⟨?_, ?_, ?_⟩
  · rw [rows, List.map_append, List.map_singleton]
    apply List.Nodup.append sound.single (List.nodup_singleton _)
    intro k mem new
    obtain ⟨r, old, rfl⟩ := List.mem_map.mp mem
    exact free r old (List.mem_singleton.mp new)
  · intro r mem
    obtain old | rfl := split r mem
    · exact sound.once r old
    · exact once
  · intro r mem
    obtain old | rfl := split r mem
    · exact sound.bound r old
    · exact bound

theorem events_register {actorId publicKey : String} :
    (s.register actorId publicKey now).events = s.events := by
  rw [register]
  split
  · rfl
  · rfl

theorem events_map {externalId principalId : String} :
    (s.map provider externalId principalId now).events = s.events := by
  rw [map]
  split
  · rfl
  · rfl

/-! ## Calls -/

/-- A call of `ingest` that returns a record has found its event, or has verified the envelope
and stored the event. -/
theorem ingest_ok (ingested : s.ingest C envelope now checkedAt eventId = .ok (s', record)) :
    (∃ row, s.find envelope.provider envelope.externalEventId = some row ∧ s' = s ∧
        record = row.record) ∨
      s.find envelope.provider envelope.externalEventId = none ∧
        s.verify C checkedAt envelope = .ok () ∧
        s.insert (envelope.row eventId (s.principal envelope) now) = .ok s' ∧
        record = (envelope.row eventId (s.principal envelope) now).record := by
  rw [ingest] at ingested
  split at ingested
  · next row found =>
    cases ingested
    exact .inl ⟨row, found, rfl, rfl⟩
  · next absent =>
    obtain ⟨_, verified, rest⟩ := bind_eq_ok.mp ingested
    obtain ⟨stored, inserted, rest⟩ := bind_eq_ok.mp rest
    obtain ⟨row, read, done⟩ := bind_eq_ok.mp rest
    cases done
    refine .inr ⟨absent, verified, inserted, ?_⟩
    have back : s'.events.get? eventId =
        some (envelope.row eventId (s.principal envelope) now) :=
      Table.get?_of_mem (Table.mem_of_append (insert_ok inserted).1)
    rw [present_eq_ok, back] at read
    rw [Option.some.inj read]

/-- What a call does to the events: it leaves them, or stores that of the envelope which it
has verified. -/
theorem perform_ok (performed : s.perform C c = .ok s') :
    s'.events = s.events ∨ ∃ envelope now checkedAt eventId,
      c = .ingest envelope now checkedAt eventId ∧ s.verify C checkedAt envelope = .ok () ∧
        s.insert (envelope.row eventId (s.principal envelope) now) = .ok s' := by
  cases c with
  | registerActor actorId publicKey now =>
    obtain ⟨_, _, done⟩ := bind_eq_ok.mp performed
    cases done
    exact .inl events_register
  | mapIdentity provider externalId principalId now =>
    cases performed
    exact .inl events_map
  | ingest envelope now checkedAt eventId =>
    obtain ⟨⟨stored, record⟩, ingested, rfl⟩ := map_ok performed
    obtain ⟨_, _, rfl, _⟩ | ⟨_, verified, inserted, _⟩ := ingest_ok ingested
    · exact .inl rfl
    · exact .inr ⟨envelope, now, checkedAt, eventId, rfl, verified, inserted⟩

theorem step_cases (C : ChannelCrypto) (s : Channel) (c : ChannelCall) :
    (s.step C c).events = s.events ∨ ∃ envelope now checkedAt eventId,
      c = .ingest envelope now checkedAt eventId ∧ s.verify C checkedAt envelope = .ok () ∧
        s.insert (envelope.row eventId (s.principal envelope) now) = .ok (s.step C c) := by
  rw [step]
  split
  · next s' performed => exact perform_ok performed
  · exact .inl rfl

theorem sound_opened : opened.Sound :=
  ⟨List.nodup_nil, (fun _ mem => nomatch mem), fun _ mem => nomatch mem⟩

theorem Sound.step (sound : s.Sound) : (s.step C c).Sound := by
  obtain same | ⟨envelope, now, checkedAt, eventId, _, _, inserted⟩ := step_cases C s c
  · exact ⟨same ▸ sound.single, same ▸ sound.once, same ▸ sound.bound⟩
  · exact sound.insert inserted rfl rfl

/-! ## Taken once and from verified envelopes -/

/-- What is to be true of a call: no event is there twice or has been processed more than
once; each event that is new is that of an envelope which passed the checks, for the principal
to which its external identity was mapped; and an answer goes to who presents an envelope that
passes the checks and is the stored one. -/
structure Taken (C : ChannelCrypto) (s : Channel) (c : ChannelCall) : Prop where
  single : ((s.step C c).events.rows.map identifier).Nodup
  once : ∀ row ∈ (s.step C c).events, row.processingCount = 1
  verified : ∀ row ∈ (s.step C c).events, row ∈ s.events ∨
    ∃ now checkedAt eventId, c = .ingest row.envelope now checkedAt eventId ∧
      s.verify C checkedAt row.envelope = .ok () ∧ row.principalId = s.principal row.envelope
  answered : ∀ envelope now checkedAt eventId s' record,
    c = .ingest envelope now checkedAt eventId →
      s.ingest C envelope now checkedAt eventId = .ok (s', record) →
        s.verify C checkedAt envelope = .ok () ∧
          ∃ row ∈ s'.events, row.record = record ∧ row.envelope = envelope

/-- A call presents a known event id with the envelope that is stored under it, and this one
still passes the checks. -/
def Presents (C : ChannelCrypto) (s : Channel) (c : ChannelCall) : Prop :=
  ∀ envelope now checkedAt eventId, c = .ingest envelope now checkedAt eventId →
    ∀ row ∈ s.events, identifier row = (envelope.provider, envelope.externalEventId) →
      row.envelope = envelope ∧ s.verify C checkedAt envelope = .ok ()

/-- An event is stored only after its envelope has passed the checks, whatever is presented. -/
theorem verified_step (C : ChannelCrypto) (s : Channel) (c : ChannelCall) :
    ∀ row ∈ (s.step C c).events, row ∈ s.events ∨
      ∃ now checkedAt eventId, c = .ingest row.envelope now checkedAt eventId ∧
        s.verify C checkedAt row.envelope = .ok () ∧
          row.principalId = s.principal row.envelope := by
  intro row mem
  obtain same | ⟨envelope, now, checkedAt, eventId, rfl, verified, inserted⟩ := step_cases C s c
  · rw [same] at mem
    exact .inl mem
  · rw [Table.mem_iff, (insert_ok inserted).1, List.mem_append, List.mem_singleton] at mem
    obtain old | rfl := mem
    · exact .inl old
    · exact .inr ⟨now, checkedAt, eventId, rfl, verified, rfl⟩

/-- Rows of one record are the same row. -/
theorem eq_of_record (mem : row ∈ s.events) (mem' : r ∈ s.events)
    (same : row.record = r.record) : row = r := by
  have id : row.id = r.id := congrArg ChannelEventRecord.id same
  exact Table.eq_of_key mem mem' id

theorem taken_iff (sound : s.Sound) : s.Taken C c ↔ s.Presents C c := by
  constructor
  · rintro taken envelope now checkedAt eventId rfl row mem same
    have found : s.find envelope.provider envelope.externalEventId = some row :=
      (find_eq_some sound).mpr ⟨mem, same⟩
    have replayed : s.ingest C envelope now checkedAt eventId = .ok (s, row.record) := by
      rw [ingest, found]
      rfl
    obtain ⟨verified, stored, inside, answer, presented⟩ :=
      taken.answered envelope now checkedAt eventId s row.record rfl replayed
    rw [eq_of_record inside mem answer] at presented
    exact ⟨presented, verified⟩
  · intro presents
    refine ⟨sound.step.single, sound.step.once, verified_step C s c, ?_⟩
    rintro envelope now checkedAt eventId s' record rfl ingested
    obtain ⟨row, found, rfl, rfl⟩ | ⟨_, verified, inserted, rfl⟩ := ingest_ok ingested
    · obtain ⟨mem, same⟩ := (find_eq_some sound).mp found
      obtain ⟨presented, verified⟩ := presents envelope now checkedAt eventId rfl row mem same
      exact ⟨verified, row, mem, rfl, presented⟩
    · exact ⟨verified, _, Table.mem_of_append (insert_ok inserted).1, rfl, rfl⟩

/-! ## Runs -/

/-- In every sequence of calls, events are taken once, from verified envelopes, and answered to
these only, exactly when every known event id is presented with its stored envelope, which is
still verified then. -/
theorem taken_once_iff (calls : List ChannelCall) :
    Run.Along (step C) (Taken C) opened calls ↔ Run.Along (step C) (Presents C) opened calls :=
  Run.along_iff sound_opened (fun _ _ sound _ => sound.step) fun _ _ sound => taken_iff sound

/-! ## A forged envelope under a known event id -/

section

/-- Only the signature `s` is accepted. -/
def signedOnly : ChannelCrypto where
  sha256 _ := "d"
  uuid5 _ := ⟨0⟩
  validKey _ := true
  verifies _ envelope := envelope.signature = "s"

/-- A message to the channel. -/
def genuine : ChannelEventEnvelope where
  actorId := "bridge"
  provider := "discord"
  externalEventId := "e"
  externalIdentityId := "ann"
  action := "effect.approve"
  issuedAt := ⟨0, some 0⟩
  expiresAt := ⟨10, some 0⟩
  nonce := "n"
  payloadDigest := "d"
  payload := []
  signature := "s"

/-- It has the event id of the message, and nothing else of it. -/
def forged : ChannelEventEnvelope :=
  { genuine with actorId := "mallory", externalIdentityId := "mallory", signature := "" }

/-- The message is taken; then the forged envelope comes in, after the message has expired. -/
def forgery : List ChannelCall :=
  [.registerActor "bridge" "k" 0, .mapIdentity "discord" "ann" "principal" 0,
    .ingest genuine 5 5 "1", .ingest forged 20 20 "2"]

/-- The state in which the forged envelope comes in. -/
def known : Channel := Run.exec (step signedOnly) opened (forgery.take 3)

theorem forged_answer : ∃ record, known.ingest signedOnly forged 20 20 "2" = .ok (known, record) ∧
    record.principalId = some "principal" ∧ record.status = .stepUpRequired :=
  ⟨((genuine.row "1" (some "principal") 5).record), by rfl, rfl, rfl⟩

/-- Who presents the forged envelope is told the principal and the status of the event. -/
theorem forged_answered : ¬ Run.Along (step signedOnly) (Taken signedOnly) opened forgery := by
  intro along
  have taken : known.Taken signedOnly (.ingest forged 20 20 "2") := along.2.2.2.1
  obtain ⟨record, answered, _⟩ := forged_answer
  obtain ⟨verified, _⟩ := taken.answered forged 20 20 "2" known record rfl answered
  exact absurd verified (by decide)

end

end Corvus.Ingress.Channel
