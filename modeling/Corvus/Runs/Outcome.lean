import Corvus.Runs.Settlement

/-!
# The outcome of a pumped run

A step of the process that concerns the run asks for at most one status. The first one
settles the run; when the pump returns there has been one, and what supports it was in the
log and the evidence before.
-/

namespace Corvus.Runs

open Dialogue (Obeys)

namespace PumpWorld

/-! ## What a step asks for -/

/-- What a `cancel` asks for, once the backend has answered. -/
def concluded (tenantId runId : String) (k : Cancelling) (answer : Answer Bool) :
    Option RunStatus :=
  match answer with
  | .returned true =>
      if k.runId = runId ∧ k.tenantId = tenantId then some .cancelled else none
  | _ => none

/-- The status that a step asks for. -/
def settlement (tenantId runId : String) (w : PumpWorld) (s : Step) : Option RunStatus :=
  if w.coordinator.exited then none
  else
    match s with
    | .pump _ =>
        match w.left with
        | .ask (.terminalize target) _ => some target
        | _ => none
    | .cancel .. => none
    | .conclude i answer _ =>
        w.coordinator.cancelling[i]?.bind fun k => concluded tenantId runId k answer

/-- The statuses that the steps of a run ask for, in their order. -/
def settlements (tenantId runId : String) : PumpWorld → List Step → List RunStatus
  | _, [] => []
  | w, s :: steps =>
      (w.settlement tenantId runId s).toList ++
        settlements tenantId runId (w.step tenantId runId s) steps

/-- An event of this type is in the log of the run. -/
def Logs (w : PumpWorld) (runId eventType : String) : Prop :=
  ∃ row ∈ w.coordinator.db.events, row.runId = runId ∧ row.eventType = eventType

/-- A change set of so many files is among the evidence of the run. -/
def Finds (w : PumpWorld) (runId : String) (files : Nat) : Prop :=
  ∃ row ∈ w.evidence, row.runId = runId ∧ row.kind = "change_set" ∧
    row.summary = EventPump.observed files

/-! ## What holds at every step -/

/-- What an answer of the store says about it. -/
def Recorded (w : PumpWorld) (runId : String) (status : RunStatus) :
    Exchange Operation Operation.Answer → Prop
  | ⟨.append event, .ok _⟩ => w.Logs runId event.eventType
  | ⟨.append event, .error _⟩ => ¬ Storable event
  | ⟨.addEvidence kind summary _, .ok _⟩ =>
      ∃ row ∈ w.evidence, row.runId = runId ∧ row.kind = kind ∧ row.summary = summary
  | ⟨.terminalize _, .ok _⟩ => status ≠ .preparing ∧ status ≠ .running
  | ⟨.terminalize _, .error _⟩ => False
  | _ => True

/-- A run that is pumped, with its status. -/
structure Tracked (tenantId runId : String) (mode : Mode) (status : RunStatus) (w : PumpWorld) :
    Prop where
  sound : w.coordinator.db.Sound
  has : w.coordinator.db.Has tenantId runId status
  begun : status ≠ .preparing
  registered : (w.coordinator.handles.lookup runId).isSome = true
  obeys : Obeys (EventPump.Justified mode) EventPump.Returned w.asked w.left
  recorded : ∀ x ∈ w.asked, w.Recorded runId status x

section Step

variable {tenantId runId : String} {mode : Mode} {status target : RunStatus} {w after : PumpWorld}
  {q : Operation} {next : q.Answer → PumpPart Unit} {answer : q.Answer} {db : Db}
  {evidence : Table RunEvidenceRow} {now : Instant} {c : Coordinator}

/-- What has been recorded stays recorded. -/
theorem Recorded.later {x : Exchange Operation Operation.Answer}
    (recorded : w.Recorded runId status x)
    (events : ∀ row ∈ w.coordinator.db.events, row ∈ after.coordinator.db.events)
    (evidence : ∀ row ∈ w.evidence, row ∈ after.evidence)
    (settled : status ≠ .running → target = status) : after.Recorded runId target x := by
  obtain ⟨q, answer⟩ := x
  cases q with
  | append event =>
    cases answer with
    | ok u =>
      obtain ⟨row, mem, run, type⟩ := recorded
      exact ⟨row, events row mem, run, type⟩
    | error e => exact recorded
  | addEvidence kind summary digest =>
    cases answer with
    | ok u =>
      obtain ⟨row, mem, same⟩ := recorded
      exact ⟨row, evidence row mem, same⟩
    | error e => trivial
  | terminalize asked =>
    cases answer with
    | ok u =>
      obtain ⟨begun, lapsed⟩ := recorded
      obtain rfl := settled lapsed
      exact ⟨begun, lapsed⟩
    | error e => exact recorded
  | next | announce | snapshot | stop => trivial

/-- The pump has got an answer. -/
theorem Tracked.answered (h : Tracked tenantId runId mode status w) (waits : w.left = .ask q next)
    (sound : db.Sound) (has : db.Has tenantId runId target) (begun : target ≠ .preparing)
    (settled : status ≠ .running → target = status)
    (events : ∀ row ∈ w.coordinator.db.events, row ∈ db.events)
    (rows : ∀ row ∈ w.evidence, row ∈ evidence)
    (recorded : (⟨{ w.coordinator with db }, evidence, w.asked, w.left⟩ : PumpWorld).Recorded runId
      target ⟨q, answer⟩) :
    Tracked tenantId runId mode target
      ⟨{ w.coordinator with db }, evidence, w.asked ++ [⟨q, answer⟩], next answer⟩ where
  sound := sound
  has := has
  begun := begun
  registered := h.registered
  obeys := by
    have obeys := h.obeys
    rw [waits] at obeys
    exact obeys.step
  recorded x mem := by
    obtain mem | mem := List.mem_append.mp mem
    · exact (h.recorded x mem).later events rows settled
    · obtain rfl := List.mem_singleton.mp mem
      exact recorded.later (fun _ mem => mem) (fun _ mem => mem) fun _ => rfl

theorem addEvidence_eq_ok {rows : Table RunEvidenceRow} {id kind summary digest : String}
    (h : addEvidence db rows id runId kind summary digest now = .ok evidence) :
    evidence.rows = rows.rows ++ [⟨id, runId, kind, summary, digest, now⟩] := by
  obtain ⟨_, _, h⟩ := bind_eq_ok.mp h
  obtain ⟨_, _, h⟩ := bind_eq_ok.mp h
  obtain ⟨_, _, h⟩ := bind_eq_ok.mp h
  exact (Table.insert?_eq_some.mp (present_eq_ok.mp h)).2

/-- The status after a step. -/
def settle (status : RunStatus) (asked : Option RunStatus) : RunStatus :=
  if status = .running then asked.getD .running else status

@[simp] theorem settle_none : settle status none = status := by
  unfold settle
  split
  · exact Eq.symm ‹_›
  · rfl

theorem settle_of_settled (settled : status ≠ .running) (asked : Option RunStatus) :
    settle status asked = status :=
  if_neg settled

/-- The pump asks for something that the store does not answer, or that it does not store. -/
theorem Tracked.consults (h : Tracked tenantId runId mode status w) (waits : w.left = .ask q next)
    (recorded : w.Recorded runId status ⟨q, answer⟩) :
    Tracked tenantId runId mode status
      { w with asked := w.asked ++ [⟨q, answer⟩], left := next answer } :=
  h.answered waits h.sound h.has h.begun (fun _ => rfl) (fun _ mem => mem) (fun _ mem => mem)
    (recorded.later (fun _ mem => mem) (fun _ mem => mem) fun _ => rfl)

theorem Tracked.append {event : Delivery} {next : Except Fault Unit → PumpPart Unit}
    (h : Tracked tenantId runId mode status w) (waits : w.left = .ask (.append event) next)
    (r : Readings) (alive : w.coordinator.exited = false) :
    Tracked tenantId runId mode status (w.step tenantId runId (.pump r)) := by
  rw [step, if_neg (by rw [alive]; decide), waits]
  dsimp only [perform]
  split
  · rename_i unencodable
    refine h.consults waits ?_
    rintro ⟨payload, encodable, _⟩
    rw [unencodable] at encodable
    nomatch encodable
  split
  · rename_i payload encodable db appended
    obtain ⟨events, rfl, rows⟩ := Db.appendEvent_eq_ok appended
    refine h.answered waits (h.sound.later (.of_appendEvent appended)) h.has h.begun
      (fun _ => rfl) (fun _ => Table.mem_append_of_mem rows) (fun _ mem => mem) ?_
    exact ⟨_, Table.mem_of_append rows, rfl, rfl⟩
  · rename_i _ payload encodable _ e refused
    refine h.consults waits ?_
    rintro ⟨payload', same, typed, small⟩
    obtain rfl := Option.some.inj (encodable.symm.trans same)
    obtain ⟨after, appended⟩ := h.has.appends typed small r.now
    rw [refused] at appended
    nomatch appended

theorem Tracked.addEvidence {kind summary digest : String}
    {next : Except Fault Unit → PumpPart Unit} (h : Tracked tenantId runId mode status w)
    (waits : w.left = .ask (.addEvidence kind summary digest) next) (r : Readings)
    (alive : w.coordinator.exited = false) :
    Tracked tenantId runId mode status (w.step tenantId runId (.pump r)) := by
  rw [step, if_neg (by rw [alive]; decide), waits]
  dsimp only [perform]
  split
  · rename_i evidence added
    have rows := addEvidence_eq_ok added
    refine h.answered waits h.sound h.has h.begun (fun _ => rfl) (fun _ mem => mem)
      (fun _ => Table.mem_append_of_mem rows) ?_
    exact ⟨_, Table.mem_of_append rows, rfl, rfl, rfl⟩
  · exact h.consults waits trivial

/-- The pump asks for a status, and the run has it unless it has been settled before. -/
theorem Tracked.terminalize {next : Except Fault Unit → PumpPart Unit}
    (h : Tracked tenantId runId mode status w) (waits : w.left = .ask (.terminalize target) next)
    (r : Readings) (alive : w.coordinator.exited = false) :
    Tracked tenantId runId mode (settle status (some target))
      (w.step tenantId runId (.pump r)) := by
  have obeys := h.obeys
  rw [waits] at obeys
  have settling : target ∈ SETTLING := EventPump.Supports.settling obeys.1
  obtain ⟨db, moved, has, events⟩ := h.sound.terminalizes h.has h.begun settling r.now
  rw [step, if_neg (by rw [alive]; decide), waits]
  dsimp only [perform]
  rw [moved]
  have lapsed : settle status (some target) ≠ .preparing ∧ settle status (some target) ≠ .running := by
    by_cases running : status = .running
    · rw [settle, if_pos running]
      exact settling_settled settling
    · rw [settle, if_neg running]
      exact ⟨h.begun, running⟩
  refine h.answered waits (h.sound.later (.of_terminalize moved)) has lapsed.1
    (fun settled => settle_of_settled settled _) (fun row mem => ?_) (fun _ mem => mem) lapsed
  rwa [events]

/-- The coordinator goes on, without the pump. -/
theorem Tracked.coordinated (h : Tracked tenantId runId mode status w) (sound : c.db.Sound)
    (has : c.db.Has tenantId runId target) (begun : target ≠ .preparing)
    (settled : status ≠ .running → target = status)
    (events : ∀ row ∈ w.coordinator.db.events, row ∈ c.db.events)
    (handles : c.handles = w.coordinator.handles) :
    Tracked tenantId runId mode target { w with coordinator := c } where
  sound := sound
  has := has
  begun := begun
  registered := by
    rw [handles]
    exact h.registered
  obeys := h.obeys
  recorded x mem := (h.recorded x mem).later events (fun _ mem => mem) settled

/-- The record that is read after a transition changes nothing. -/
theorem transition_moved (moved : c.db.transition tenantId runId target now = .ok db) :
    (c.transition tenantId runId target now).2 = { c with db } := by
  unfold Coordinator.transition
  rw [moved]
  dsimp only
  split <;> rfl

theorem transition_refused {e : RunStoreError}
    (refused : c.db.transition tenantId runId target now = .error e) :
    (c.transition tenantId runId target now).2 = c := by
  unfold Coordinator.transition
  rw [refused]

/-- A transition of another run leaves this one alone. -/
theorem Tracked.elsewhere {tenant other : String} (h : Tracked tenantId runId mode status w)
    (differs : runId ≠ other) (same : c.db = w.coordinator.db)
    (handles : c.handles = w.coordinator.handles) :
    Tracked tenantId runId mode status
      { w with coordinator := (c.transition tenant other target now).2 } := by
  cases moved : c.db.transition tenant other target now with
  | error e =>
    rw [transition_refused moved]
    exact h.coordinated (same ▸ h.sound) (same ▸ h.has) h.begun (fun _ => rfl)
      (fun _ mem => same ▸ mem) handles
  | ok db =>
    rw [transition_moved moved]
    rw [same] at moved
    obtain ⟨has, events⟩ := h.has.of_transition_other differs h.sound moved
    exact h.coordinated (h.sound.later (.of_transition moved)) has h.begun (fun _ => rfl)
      (fun _ mem => events ▸ mem) handles

/-- A call of `cancel` by itself settles no run that has a provider process. -/
theorem Tracked.cancel {tenant other : String} (h : Tracked tenantId runId mode status w) :
    Tracked tenantId runId mode status
      { w with coordinator := (w.coordinator.cancel tenant other now).2 } := by
  unfold Coordinator.cancel
  split
  · exact h
  split
  · exact h
  split
  · rename_i unregistered
    refine h.elsewhere (fun same => ?_) rfl rfl
    have registered := h.registered
    rw [same, unregistered] at registered
    nomatch registered
  · exact h.coordinated h.sound h.has h.begun (fun _ => rfl) (fun _ mem => mem) rfl

/-- The run of an id has one tenant. -/
theorem Tracked.tenant {tenant : String} {row : RunRow} (h : Tracked tenantId runId mode status w)
    (got : w.coordinator.db.get tenant runId = .ok row) : tenant = tenantId ∧ row.status = status := by
  obtain ⟨mem, id, rfl⟩ := Db.get_eq_ok.mp got
  obtain ⟨own, own_mem, own_id, rfl, rfl⟩ := h.has
  obtain rfl : row = own := Table.eq_of_key mem own_mem (id.trans own_id.symm)
  exact ⟨rfl, rfl⟩

/-- The `cancel` of another run, or in another tenant. -/
theorem Tracked.conclude_other {k : Cancelling} (h : Tracked tenantId runId mode status w)
    (same : c.db = w.coordinator.db) (handles : c.handles = w.coordinator.handles)
    (other : ¬ (k.runId = runId ∧ k.tenantId = tenantId)) (accepted : Bool) :
    Tracked tenantId runId mode status
      { w with coordinator := (c.conclude k (.returned accepted) now).2 } := by
  have stays : Tracked tenantId runId mode status { w with coordinator := c } :=
    h.coordinated (same ▸ h.sound) (same ▸ h.has) h.begun (fun _ => rfl)
      (fun _ mem => same ▸ mem) handles
  unfold Coordinator.conclude
  dsimp only
  split
  · exact stays
  rename_i current got
  rw [same] at got
  split
  · refine h.elsewhere (fun run => ?_) same handles
    rw [← run] at got
    exact other ⟨run.symm, (h.tenant got).1⟩
  · exact stays

/-- The `cancel` of the run settles it as cancelled, if it has been accepted in time. -/
theorem Tracked.conclude_own (h : Tracked tenantId runId mode status w)
    (same : c.db = w.coordinator.db) (handles : c.handles = w.coordinator.handles)
    (accepted : Bool) (handle : String) : Tracked tenantId runId mode
      (settle status (if accepted then some .cancelled else none))
      { w with coordinator := (c.conclude ⟨tenantId, runId, handle⟩ (.returned accepted) now).2 } := by
  have stays : Tracked tenantId runId mode status { w with coordinator := c } :=
    h.coordinated (same ▸ h.sound) (same ▸ h.has) h.begun (fun _ => rfl)
      (fun _ mem => same ▸ mem) handles
  obtain ⟨row, mem, id, tenant, found⟩ := h.has
  have got : c.db.get tenantId runId = .ok row := by
    rw [same]
    exact Db.get_eq_ok.mpr ⟨mem, id, tenant⟩
  unfold Coordinator.conclude
  simp only [got, found]
  by_cases late : accepted = true ∧ status = .running
  · obtain ⟨rfl, rfl⟩ := late
    rw [if_pos (show true = true ∧ RunStatus.running ∈ [RunStatus.preparing, .running] by decide)]
    have allowed : RunStatus.cancelled ∈ TRANSITIONS .running := by decide
    obtain ⟨db, moved, has, events⟩ := h.sound.moves h.has allowed now
    rw [transition_moved (same ▸ moved)]
    exact h.coordinated (h.sound.later (.of_transition moved)) has (by decide)
      (fun settled => absurd rfl settled) (fun _ mem => events ▸ mem) handles
  · have kept : settle status (if accepted then some .cancelled else none) = status := by
      cases accepted with
      | true => exact settle_of_settled (fun running => late ⟨rfl, running⟩) _
      | false => exact settle_none
    rw [kept, if_neg]
    · exact stays
    · rintro ⟨accepted, active⟩
      simp only [List.mem_cons, List.not_mem_nil, or_false] at active
      exact active.elim h.begun fun running => late ⟨accepted, running⟩

theorem Tracked.conclude {k : Cancelling} (h : Tracked tenantId runId mode status w)
    (same : c.db = w.coordinator.db) (handles : c.handles = w.coordinator.handles)
    (answer : Answer Bool) : Tracked tenantId runId mode
      (settle status (concluded tenantId runId k answer))
      { w with coordinator := (c.conclude k answer now).2 } := by
  have stays : ∀ exited, Tracked tenantId runId mode status
      { w with coordinator := { c with exited } } := fun exited =>
    h.coordinated (c := { c with exited }) (same ▸ h.sound) (same ▸ h.has) h.begun (fun _ => rfl)
      (fun _ mem => same ▸ mem) handles
  cases answer with
  | raised | cancelled =>
    rw [show concluded tenantId runId k _ = none from rfl, settle_none]
    exact stays c.exited
  | exited =>
    rw [show concluded tenantId runId k .exited = none from rfl, settle_none]
    exact stays true
  | returned accepted =>
    by_cases own : k.runId = runId ∧ k.tenantId = tenantId
    · obtain ⟨tenant, run, handle⟩ := k
      obtain ⟨rfl, rfl⟩ := own
      have asked : concluded tenant run ⟨tenant, run, handle⟩ (.returned accepted) =
          if accepted then some .cancelled else none := by
        cases accepted with
        | true => exact if_pos ⟨rfl, rfl⟩
        | false => rfl
      rw [asked]
      exact h.conclude_own same handles accepted handle
    · have asked : concluded tenantId runId k (.returned accepted) = none := by
        cases accepted with
        | true => exact if_neg own
        | false => rfl
      rw [asked, settle_none]
      exact h.conclude_other same handles own accepted

/-- A step moves the run where it asks for a status and the run has none yet. -/
theorem Tracked.step (h : Tracked tenantId runId mode status w) (s : Step) :
    Tracked tenantId runId mode (settle status (w.settlement tenantId runId s))
      (w.step tenantId runId s) := by
  cases alive : w.coordinator.exited with
  | true =>
    simp only [settlement, PumpWorld.step, if_pos alive, settle_none]
    exact h
  | false =>
    have up : ¬ w.coordinator.exited = true := by
      rw [alive]
      decide
    cases s with
    | pump r =>
      cases waits : w.left with
      | done a =>
        simp only [settlement, PumpWorld.step, if_neg up, waits, settle_none]
        exact h
      | ask q next =>
        cases q with
        | terminalize target =>
          have asked : w.settlement tenantId runId (.pump r) = some target := by
            simp only [settlement, if_neg up, waits]
          rw [asked]
          exact h.terminalize waits r alive
        | append event =>
          simp only [settlement, if_neg up, waits, settle_none]
          exact h.append waits r alive
        | addEvidence kind summary digest =>
          simp only [settlement, if_neg up, waits, settle_none]
          exact h.addEvidence waits r alive
        | next | announce | snapshot | stop =>
          simp only [settlement, PumpWorld.step, if_neg up, waits, settle_none]
          exact h.consults waits trivial
    | cancel tenant other now =>
      simp only [settlement, PumpWorld.step, Coordinator.step, if_neg up, settle_none]
      exact h.cancel
    | conclude i answer now =>
      simp only [settlement, PumpWorld.step, Coordinator.step, if_neg up]
      split
      · rename_i k found
        rw [found]
        exact h.conclude (c := { w.coordinator with
          cancelling := w.coordinator.cancelling.eraseIdx i }) rfl rfl answer
      · rename_i missing
        rw [missing, Option.bind_none, settle_none]
        exact h

/-! ## On what evidence -/

/-- The status that a step asks for is that of an accepted cancellation, or the pump has
stored what supports it. -/
def Grounded (tenantId runId : String) (mode : Mode) (w : PumpWorld) (s : Step) : Prop :=
  ∀ target, w.settlement tenantId runId s = some target →
    (∃ i now, s = .conclude i (.returned true) now) ∧ target = .cancelled ∨
      EventPump.Supports mode (w.Logs runId) (w.Finds runId) target

theorem Tracked.logs {eventType : String} (h : Tracked tenantId runId mode status w)
    (logged : EventPump.Logged w.asked eventType) : w.Logs runId eventType := by
  obtain ⟨event, rfl, mem⟩ := logged
  exact h.recorded _ mem

theorem Tracked.finds {files : Nat} (h : Tracked tenantId runId mode status w)
    (found : EventPump.Found w.asked files) : w.Finds runId files := by
  obtain ⟨digest, mem⟩ := found
  exact h.recorded _ mem

theorem Tracked.grounded (h : Tracked tenantId runId mode status w) (s : Step) :
    w.Grounded tenantId runId mode s := by
  intro target asked
  unfold settlement at asked
  split at asked
  · nomatch asked
  cases s with
  | pump r =>
    dsimp only at asked
    split at asked
    · rename_i waits
      obtain rfl := Option.some.inj asked
      have obeys := h.obeys
      rw [waits] at obeys
      exact .inr (EventPump.Supports.mono obeys.1 (fun _ => h.logs) fun _ => h.finds)
    · nomatch asked
  | cancel => nomatch asked
  | conclude i answer now =>
    obtain ⟨k, _, asked⟩ := Option.bind_eq_some_iff.mp asked
    unfold concluded at asked
    split at asked
    · split at asked
      · exact .inl ⟨⟨i, now, rfl⟩, (Option.some.inj asked).symm⟩
      · nomatch asked
    · nomatch asked

theorem Grounded.settling {s : Step} (grounded : w.Grounded tenantId runId mode s)
    (asked : w.settlement tenantId runId s = some target) : target ∈ SETTLING := by
  obtain ⟨_, rfl⟩ | supports := grounded target asked
  · decide
  · exact supports.settling

/-- A step makes a run reviewable when its completion and its changes have been recorded. -/
def Reviewed (tenantId runId : String) (mode : Mode) (w : PumpWorld) (s : Step) : Prop :=
  ¬ w.coordinator.db.Has tenantId runId .reviewRequired →
    (w.step tenantId runId s).coordinator.db.Has tenantId runId .reviewRequired →
      mode = .build ∧ w.Logs runId "provider.completed" ∧ ∃ files, 0 < files ∧ w.Finds runId files

theorem has_unique {other : RunStatus} (has : db.Has tenantId runId status)
    (has' : db.Has tenantId runId other) : status = other := by
  obtain ⟨row, mem, id, _, rfl⟩ := has
  obtain ⟨row', mem', id', _, rfl⟩ := has'
  rw [Table.eq_of_key mem mem' (id.trans id'.symm)]

theorem Tracked.reviewed (h : Tracked tenantId runId mode status w) (s : Step) :
    w.Reviewed tenantId runId mode s := by
  intro before after
  have now := has_unique (h.step s).has after
  cases asked : w.settlement tenantId runId s with
  | none =>
    rw [asked, settle_none] at now
    exact absurd (now ▸ h.has) before
  | some target =>
    rw [asked, settle] at now
    split at now
    · obtain rfl : target = .reviewRequired := now
      obtain ⟨_, same⟩ | supports := h.grounded s _ asked
      · nomatch same
      · exact supports
    · exact absurd (now ▸ h.has) before

/-! ## Whole runs -/

/-- The first status that the steps ask for settles the run. -/
theorem Tracked.exec (h : Tracked tenantId runId mode status w) (steps : List Step) :
    Tracked tenantId runId mode (settle status (w.settlements tenantId runId steps).head?)
      (Run.exec (PumpWorld.step tenantId runId) w steps) := by
  induction steps generalizing status w with
  | nil =>
    rw [settlements, List.head?_nil, settle_none]
    exact h
  | cons s steps ih =>
    have rest := ih (h.step s)
    rw [Run.exec_cons, settlements]
    cases asked : w.settlement tenantId runId s with
    | none =>
      rw [asked, settle_none] at rest
      exact rest
    | some target =>
      rw [asked] at rest
      have lapsed : settle status (some target) ≠ .running := by
        by_cases running : status = .running
        · rw [settle, if_pos running]
          exact (settling_settled ((h.grounded s).settling asked)).2
        · rwa [settle, if_neg running]
      rw [settle_of_settled lapsed] at rest
      exact rest

theorem Tracked.along (h : Tracked tenantId runId mode status w) (steps : List Step) :
    Run.Along (PumpWorld.step tenantId runId)
      (fun w s => w.Grounded tenantId runId mode s ∧ w.Reviewed tenantId runId mode s) w steps := by
  induction steps generalizing status w with
  | nil => trivial
  | cons s steps ih => exact ⟨⟨h.grounded s, h.reviewed s⟩, ih (h.step s)⟩

/-- A pump that has returned has settled its run. -/
theorem Tracked.returned (h : Tracked tenantId runId mode status w)
    (returned : w.left = .done (.returned ())) : status ≠ .preparing ∧ status ≠ .running := by
  have obeys := h.obeys
  rw [returned] at obeys
  obtain ⟨target, mem⟩ | ⟨event, e, storable, mem⟩ | ⟨target, e, mem⟩ := obeys
  · exact h.recorded _ mem
  · exact absurd storable (h.recorded _ mem)
  · exact absurd (h.recorded _ mem) id

end Step

end PumpWorld

open PumpWorld

/-- A start that returns has registered the handle of a run that is running. -/
theorem launch_returns {before c : Coordinator} {s : Starting} {handle : String} {now : Instant}
    {run : RunRow} (sound : before.db.Sound)
    (launched : before.launch s (.returned handle) now = (.returns run, c)) :
    run.id = s.runId ∧ before.db.Leads c.db ∧ c.db.Has s.tenantId s.runId .running ∧
      c.handles.lookup s.runId = some handle := by
  cases moved : before.db.transition s.tenantId s.runId .running now with
  | error e => simp [Coordinator.launch, Coordinator.transition, moved] at launched
  | ok db =>
    obtain ⟨current, checked, _⟩ := bind_eq_ok.mp moved
    obtain ⟨⟨mem, id, tenant⟩, allowed⟩ := Db.check_eq_ok.mp checked
    obtain ⟨db', moved', has, _⟩ := sound.moves ⟨current, mem, id, tenant, rfl⟩ allowed now
    obtain rfl := Except.ok.inj (moved.symm.trans moved')
    obtain ⟨record, listed, same, owner, status⟩ := has
    have got : db.get s.tenantId s.runId = .ok record := Db.get_eq_ok.mpr ⟨listed, same, owner⟩
    simp only [Coordinator.launch, Coordinator.transition, moved, got, Prod.mk.injEq,
      Reply.returns.injEq] at launched
    obtain ⟨rfl, rfl⟩ := launched
    exact ⟨same, .of_transition moved, ⟨record, listed, same, owner, status⟩,
      List.lookup_cons_self⟩

theorem tracked_created {D : Digests} {notifier : Bool} {c : Coordinator}
    {evidence : Table RunEvidenceRow} {run : RunRow} {events : List Delivery} {tenantId : String}
    (sound : c.db.Sound) (has : c.db.Has tenantId run.id .running)
    (registered : (c.handles.lookup run.id).isSome = true) :
    Tracked tenantId run.id run.mode .running (created D notifier c evidence run events) where
  sound := sound
  has := has
  begun := nofun
  registered := registered
  obeys := EventPump.pump_obeys D notifier run.mode events
  recorded _ mem := absurd mem List.not_mem_nil

namespace Sample

def digests : Digests := ⟨id, fun _ => .ofNat 0⟩

/-- A coordinator that has created a run and waits for its backend. -/
def waiting : Coordinator :=
  { Coordinator.empty repositories with
    db := committed ⟨repositories, ∅, ∅⟩ (Db.create ⟨repositories, ∅, ∅⟩ "tenant" request
      (String.ofList (List.replicate 40 'a')) "run" none 0) }

/-- The record of the run, once the backend has answered. -/
def running : RunRow :=
  { Db.preparing "tenant" request (String.ofList (List.replicate 40 'a')) "run" none 0 with
    status := .running
    updatedAt := 1
    startedAt := some 1 }

/-- A run is completed, and reported to have failed after that. -/
def deliveries : List Delivery := [⟨"provider.completed", some []⟩, ⟨"provider.failed", some []⟩]

/-- The provider and the review answer, and a `cancel` comes too late. -/
def reviewed : List Step :=
  let r : Readings := ⟨.returned (), .returned ⟨["README.md"],
    String.ofList (List.replicate 64 'a')⟩, .returned true, "evidence", 2⟩
  [.pump r, .pump r, .pump r, .pump { r with evidenceId := "completion" }, .pump r, .pump r,
    .cancel "tenant" "run" 3, .conclude 0 (.returned true) 4, .pump r, .pump r, .pump r, .pump r]

end Sample

end Corvus.Runs
