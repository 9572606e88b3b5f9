import Corvus.Schedules.Entries

/-!
# Occurrences run at most once

The unique indexes of the runs, the key of the occurrences and the guards of `claim_due` and
`attach_run` keep the runs of a schedule apart, whatever the ticks do. That a schedule moves
on depends on its recurrence: the hourly one takes a time on the clock, which the clock may
have shown before.
-/

namespace Corvus.Schedules

open Runs (Answer Coordinator Db Distinct Preparation Reply RunStatus SameRun StartRunRequest
  Starting)

namespace Scheduler

variable {zones : Zones} {notifier : Bool} {w : Scheduler} {db : Db} {claim : ScheduleClaim}
  {book : Book} {c : Coordinator} {i : Nat} {tick : Tick} {claims : List ScheduleClaim}

/-! ## What holds between any two steps -/

/-- The run of a claim. -/
def Created (db : Db) (claim : ScheduleClaim) (runId : String) : Prop :=
  ∃ r ∈ db.runs, r.id = runId ∧ r.occurrence = some (claim.schedule.schedule.id, claim.key)

/-- What a tick knows about the run of its first claim. -/
def Knows (db : Db) (claim : ScheduleClaim) : TickPhase → Prop
  | .starting | .recovering => True
  | .launching runId => Created db claim runId
  | .attaching runId status _ =>
      match status, runId with
      | .started, some runId => Created db claim runId
      | .skipped, none => True
      | _, _ => False

/-- An occurrence refers to the run that was created for its key. -/
def Refers (db : Db) (b : Book) (o : OccurrenceRow) : Prop :=
  ∃ v ∈ b.revisions, v.id = o.scheduleRevisionId ∧ ∃ r ∈ db.runs, o.runId = some r.id ∧
    r.occurrence = some (v.scheduleId, occurrenceKey v.id o.scheduledFor)

/-- Every occurrence that has been started refers to its run. -/
def Linked (w : Scheduler) : Prop :=
  ∀ o ∈ w.book.occurrences, o.status = .started → Refers w.coordinator.db w.book o

structure Consistent (w : Scheduler) : Prop where
  sound : w.coordinator.db.Sound
  distinct : Distinct w.coordinator.db
  linked : w.Linked
  early : ∀ o ∈ w.book.occurrences, o.scheduledFor ≤ o.claimedAt
  claims : ∀ tick ∈ w.ticks, ∀ claim ∈ tick.claims, w.book.Claims claim
  knows : ∀ tick ∈ w.ticks, ∀ claim ∈ tick.claims.head?, Knows w.coordinator.db claim tick.phase

theorem Created.later {after : Db} {runId : String} (created : Created db claim runId)
    (leads : db.Leads after) : Created after claim runId := by
  obtain ⟨r, mem, id, occurrence⟩ := created
  obtain ⟨r', mem', same⟩ := leads.keeps mem
  exact ⟨r', mem', same.id.trans id, same.occurrence.trans occurrence⟩

theorem Knows.later {after : Db} {phase : TickPhase} (knows : Knows db claim phase)
    (leads : db.Leads after) : Knows after claim phase := by
  cases phase with
  | starting | recovering => trivial
  | launching runId => exact Created.later knows leads
  | attaching runId status reason =>
    cases status <;> cases runId <;> first | exact knows | exact Created.later knows leads

/-! ### Rules for the parts of a step -/

/-- The run store is written by its methods. -/
theorem Consistent.coordinated (h : Consistent w) (leads : w.coordinator.db.Leads c.db) :
    Consistent { w with coordinator := c } where
  sound := h.sound.later leads
  distinct := leads.distinct h.distinct
  linked o mem started := by
    obtain ⟨v, listed, id, r, run, same, occurrence⟩ := h.linked o mem started
    obtain ⟨r', run', kept⟩ := leads.keeps run
    exact ⟨v, listed, id, r', run', kept.id ▸ same, kept.occurrence.trans occurrence⟩
  early := h.early
  claims := h.claims
  knows tick mem claim first := (h.knows tick mem claim first).later leads

/-- The revisions keep their ids and their schedules. -/
def Keeps (b after : Book) : Prop :=
  ∀ v ∈ b.revisions, ∃ v' ∈ after.revisions, v'.id = v.id ∧ v'.scheduleId = v.scheduleId

theorem Keeps.owned {b after : Book} (keeps : Keeps b after) (claimed : b.Claims claim) :
    after.Claims claim := by
  obtain ⟨v, mem, id, schedule⟩ := claimed
  obtain ⟨v', mem', id', schedule'⟩ := keeps v mem
  exact ⟨v', mem', id'.trans id, schedule'.trans schedule⟩

theorem Keeps.refers {b after : Book} {o : OccurrenceRow} (keeps : Keeps b after)
    (refers : Refers db b o) : Refers db after o := by
  obtain ⟨v, listed, id, r, run, own, occurrence⟩ := refers
  obtain ⟨v', listed', id', schedule⟩ := keeps v listed
  refine ⟨v', listed', id'.trans id, r, run, own, ?_⟩
  rw [id', schedule]
  exact occurrence

/-- The schedule store is written. -/
theorem Consistent.booked (h : Consistent w) (keeps : Keeps w.book book)
    (linked : { w with book }.Linked) (early : ∀ o ∈ book.occurrences, o.scheduledFor ≤ o.claimedAt) :
    Consistent { w with book } where
  sound := h.sound
  distinct := h.distinct
  linked := linked
  early := early
  claims tick mem claim listed := keeps.owned (h.claims tick mem claim listed)
  knows := h.knows

theorem Consistent.kept (h : Consistent w) (keeps : Keeps w.book book)
    (same : book.occurrences = w.book.occurrences) : Consistent { w with book } :=
  h.booked keeps (fun o mem started => keeps.refers (h.linked o (same ▸ mem) started))
    fun o mem => h.early o (same ▸ mem)

/-- A tick is replaced by one with no other claims. -/
theorem Consistent.ticked (h : Consistent w) (next : Tick)
    (claims : ∀ claim ∈ next.claims, w.book.Claims claim)
    (knows : ∀ claim ∈ next.claims.head?, Knows w.coordinator.db claim next.phase) :
    Consistent { w with ticks := w.ticks.set i next } where
  sound := h.sound
  distinct := h.distinct
  linked := h.linked
  early := h.early
  claims tick mem := by
    obtain mem | rfl := List.mem_or_eq_of_mem_set mem
    · exact h.claims tick mem
    · exact claims
  knows tick mem := by
    obtain mem | rfl := List.mem_or_eq_of_mem_set mem
    · exact h.knows tick mem
    · exact knows

theorem Consistent.erased (h : Consistent w) (i : Nat) :
    Consistent { w with ticks := w.ticks.eraseIdx i } where
  sound := h.sound
  distinct := h.distinct
  linked := h.linked
  early := h.early
  claims tick mem := h.claims tick (List.mem_of_mem_eraseIdx mem)
  knows tick mem := h.knows tick (List.mem_of_mem_eraseIdx mem)

theorem tick?_eq_some (found : w.tick? i = some (tick, claim, claims)) :
    tick ∈ w.ticks ∧ tick.claims = claim :: claims := by
  unfold tick? at found
  split at found
  · rename_i listed
    obtain ⟨rfl, same⟩ := Prod.mk.inj (Option.some.inj found)
    obtain ⟨rfl, rfl⟩ := Prod.mk.inj same
    exact ⟨List.mem_of_getElem? listed, rfl⟩
  · nomatch found

theorem Consistent.goOn (h : Consistent w) (found : w.tick? i = some (tick, claim, claims))
    {phase : Option TickPhase} (knows : ∀ p ∈ phase, Knows w.coordinator.db claim p) :
    Consistent (w.goOn i tick phase) := by
  obtain ⟨mem, same⟩ := tick?_eq_some found
  cases phase with
  | none => exact h.erased i
  | some phase =>
    refine h.ticked { tick with phase } (h.claims tick mem) fun first head => ?_
    rw [same] at head
    obtain rfl := Option.some.inj head
    exact knows phase rfl

/-! ### The steps -/

/-- After an exception a tick looks for a run or attaches none. -/
theorem knows_caught (port : Option String) (e : Runs.CoordinatorError) :
    ∀ phase ∈ caught port e, Knows db claim phase := by
  intro phase mem
  unfold caught at mem
  split at mem
  · split at mem
    · obtain rfl := Option.some.inj mem
      trivial
    · obtain rfl := Option.some.inj mem
      trivial
  · obtain rfl := Option.some.inj mem
    trivial
  · obtain rfl := Option.some.inj mem
    trivial
  · nomatch mem
  · obtain ⟨code, _, rfl⟩ := Option.map_eq_some_iff.mp mem
    trivial

theorem Consistent.startClaim (h : Consistent w) (found : w.tick? i = some (tick, claim, claims))
    (runId : String) (p : Preparation) (port : Option String) (now : Instant) :
    Consistent (w.startClaim i tick claim runId p port now) := by
  let asked := request claim.schedule (some claim.key)
  have leads : w.coordinator.db.Leads (w.coordinator.start claim.tenantId asked none runId p now).2.db :=
    w.coordinator.start_leads asked none p
  have goes : w.startClaim i tick claim runId p port now =
      { w with coordinator := (w.coordinator.start claim.tenantId asked none runId p now).2 }.goOn i
        tick (answered runId port (w.coordinator.start claim.tenantId asked none runId p now).1) :=
    rfl
  rw [goes]
  refine (h.coordinated leads).goOn (i := i) found fun phase mem => ?_
  obtain ⟨e, raised⟩ | ⟨awaits, r, listed, id, schedule, key⟩ :=
    @Coordinator.start_cases w.coordinator claim.tenantId runId now asked none p
  · rw [raised] at mem
    exact knows_caught port e phase mem
  · rw [awaits] at mem
    obtain rfl := Option.some.inj mem
    exact ⟨r, listed, id, Runs.RunRow.occurrence_eq_some.mpr ⟨schedule, key⟩⟩

theorem Consistent.launch (h : Consistent w) (found : w.tick? i = some (tick, claim, claims))
    {runId : String} (launching : tick.phase = .launching runId) (answer : Answer String)
    (port : Option String) (now : Instant) :
    Consistent (w.launch i tick claim runId answer port now) := by
  let c : Coordinator :=
    { w.coordinator with starting := w.coordinator.starting.erase ⟨claim.tenantId, runId⟩ }
  have leads : w.coordinator.db.Leads (c.launch ⟨claim.tenantId, runId⟩ answer now).2.db :=
    c.launch_leads _ answer
  obtain ⟨mem, same⟩ := tick?_eq_some found
  have created : Created w.coordinator.db claim runId := by
    have knows := h.knows tick mem claim (by rw [same]; rfl)
    rwa [launching] at knows
  have goes : w.launch i tick claim runId answer port now =
      { w with coordinator := (c.launch ⟨claim.tenantId, runId⟩ answer now).2 }.goOn i tick
        (answered runId port (c.launch ⟨claim.tenantId, runId⟩ answer now).1) := rfl
  rw [goes]
  refine (h.coordinated leads).goOn (i := i) found fun phase mem => ?_
  have later := created.later leads
  cases reply : (c.launch ⟨claim.tenantId, runId⟩ answer now).1 with
  | awaits =>
    rw [reply] at mem
    obtain rfl := Option.some.inj mem
    exact later
  | returns run =>
    rw [reply] at mem
    obtain rfl := Option.some.inj mem
    have own : run.id = runId := Coordinator.launch_own c reply
    subst own
    exact later
  | raises e =>
    rw [reply] at mem
    exact knows_caught port e phase mem

theorem Consistent.recover (h : Consistent w) (found : w.tick? i = some (tick, claim, claims)) :
    Consistent (w.recover i tick claim) := by
  refine h.goOn found fun phase mem => ?_
  obtain rfl := Option.some.inj mem
  split
  · rename_i run hit
    have fits := List.find?_some hit
    rw [decide_eq_true_iff] at fits
    exact ⟨run, List.mem_of_find?_eq_some hit, rfl, Runs.RunRow.occurrence_eq_some.mpr fits.2⟩
  · trivial

theorem attached_keeps {runId : Option String} {status : OccurrenceStatus}
    {reasonCode : Option String} (attached : w.book.attachRun zones w.coordinator.db claim runId
      status reasonCode = .ok (some book)) : Keeps w.book book := by
  obtain ⟨_, next, _, _, _, rfl⟩ := Book.attachRun_eq_some attached
  intro v mem
  refine ⟨_, Table.mem_update_of_mem mem, ?_⟩
  split <;> exact ⟨rfl, rfl⟩

/-- `attach_run` has an effect. -/
theorem Consistent.attached (h : Consistent w) (found : w.tick? i = some (tick, claim, claims))
    {runId : Option String} {status : OccurrenceStatus} {reasonCode : Option String}
    (attaching : tick.phase = .attaching runId status reasonCode)
    (attached : w.book.attachRun zones w.coordinator.db claim runId status reasonCode =
      .ok (some book)) : Consistent { w with book } := by
  obtain ⟨mem, same⟩ := tick?_eq_some found
  have knows := h.knows tick mem claim (by rw [same]; rfl)
  obtain ⟨v, owned, id, schedule⟩ := h.claims tick mem claim (by rw [same]; exact List.mem_cons_self)
  obtain ⟨o, next, reason, waits, _, rfl⟩ := Book.attachRun_eq_some attached
  have keeps := attached_keeps attached
  refine h.booked keeps (fun o' mem' started => ?_) fun o' mem' => ?_
  · obtain ⟨before, listed, rfl⟩ := Table.mem_update.mp mem'
    by_cases hit : key before = (claim.schedule.revision.id, claim.scheduledFor)
    · rw [if_pos (decide_eq_true hit)] at started ⊢
      obtain ⟨own, time⟩ := Prod.mk.inj hit
      obtain rfl : status = .started := started
      obtain ⟨v', owned', id', schedule'⟩ := keeps v owned
      rw [attaching] at knows
      cases runId with
      | none => exact False.elim knows
      | some runId =>
        obtain ⟨r, run, rfl, occurrence⟩ := knows
        refine ⟨v', owned', (id'.trans id).trans own.symm, r, run, rfl, ?_⟩
        rw [schedule', schedule, id', id]
        exact time ▸ occurrence
    · rw [if_neg (fun same => hit (of_decide_eq_true same))] at started ⊢
      exact keeps.refers (h.linked before listed started)
  · obtain ⟨before, listed, rfl⟩ := Table.mem_update.mp mem'
    have early := h.early before listed
    split <;> exact early

theorem Consistent.attach (h : Consistent w) (found : w.tick? i = some (tick, claim, claims))
    {runId : Option String} {status : OccurrenceStatus} {reasonCode : Option String}
    (attaching : tick.phase = .attaching runId status reasonCode) :
    Consistent (w.attach zones i claim claims runId status reasonCode) := by
  obtain ⟨mem, same⟩ := tick?_eq_some found
  have others : ∀ later ∈ claims, w.book.Claims later := fun later listed =>
    h.claims tick mem later (by rw [same]; exact List.mem_cons_of_mem _ listed)
  unfold Scheduler.attach
  split
  · exact h.erased i
  · exact h.ticked ⟨claims, .starting⟩ others fun _ _ => trivial
  · rename_i book attached
    exact (h.attached found attaching attached).ticked ⟨claims, .starting⟩
      (fun later listed => (attached_keeps attached).owned (others later listed)) fun _ _ => trivial

theorem Consistent.create (h : Consistent w) {tenantId scheduleId revisionId : String}
    {asked : ScheduleCreateRequest} {skill : Bool} {now : Instant}
    (created : w.book.create zones w.coordinator.db tenantId asked skill scheduleId revisionId now =
      .ok book) : Consistent { w with book } := by
  obtain ⟨revision, rows, same⟩ := Book.create_eq_ok created
  have keeps : Keeps w.book book := fun v mem => ⟨v, Table.mem_append_of_mem rows mem, rfl, rfl⟩
  exact h.kept keeps same

theorem Consistent.claimDue (h : Consistent w) {now : Instant} {limit : Nat}
    (claimed : w.book.claimDue w.coordinator.db now limit = .ok (book, claims)) :
    Consistent { w with book, ticks := w.ticks ++ [⟨claims, .starting⟩] } := by
  obtain ⟨_, revisions, evolves, made⟩ := Book.claimDue_eq_ok claimed
  have keeps : Keeps w.book book := fun v mem => ⟨v, revisions ▸ mem, rfl, rfl⟩
  have booked : Consistent { w with book } := by
    refine h.booked keeps (fun o mem started => ?_) fun o mem => ?_
    · obtain ⟨before, listed, rfl | ⟨waits, _, rfl⟩⟩ | fresh := evolves.back o mem
      · exact keeps.refers (h.linked o listed started)
      · rw [waits] at started
        nomatch started
      · rw [fresh.1] at started
        nomatch started
    · obtain ⟨before, listed, rfl | ⟨_, due, rfl⟩⟩ | ⟨_, due, late⟩ := evolves.back o mem
      · exact h.early o listed
      · exact due
      · rw [late]
        exact due
  refine ⟨booked.sound, booked.distinct, booked.linked, booked.early, fun tick mem => ?_,
    fun tick mem => ?_⟩
  · obtain mem | mem := List.mem_append.mp mem
    · exact booked.claims tick mem
    · obtain rfl := List.mem_singleton.mp mem
      exact fun claim listed => keeps.owned (made claim listed).1
  · obtain mem | mem := List.mem_append.mp mem
    · exact booked.knows tick mem
    · obtain rfl := List.mem_singleton.mp mem
      exact fun _ _ => trivial

theorem Consistent.crash (h : Consistent w) {c : Coordinator} (same : c.db = w.coordinator.db) :
    Consistent { w with coordinator := c, ticks := [] } where
  sound := same ▸ h.sound
  distinct := same ▸ h.distinct
  linked o mem started := same ▸ h.linked o mem started
  early := h.early
  claims _ mem := absurd mem List.not_mem_nil
  knows _ mem := absurd mem List.not_mem_nil

theorem Consistent.step (h : Consistent w) (s : Step) : Consistent (w.step zones notifier s) := by
  unfold Scheduler.step
  split
  · split
    · exact h.crash rfl
    · exact h
  cases s with
  | create tenantId asked skill scheduleId revisionId now =>
    dsimp only
    split
    · exact h.create ‹_›
    · exact h
  | setStatus tenantId scheduleId status now =>
    dsimp only
    split
    · rename_i book set
      obtain ⟨_, _, set⟩ := bind_eq_ok.mp set
      obtain rfl := Except.ok.inj set
      exact h.kept (fun v mem => ⟨v, mem, rfl, rfl⟩) rfl
    · exact h
  | runNow tenantId scheduleId manual runId p now =>
    dsimp only
    split
    · split
      · exact h
      · exact h.coordinated (w.coordinator.start_leads _ none p)
    · exact h
  | claim now =>
    dsimp only
    split
    · exact h.claimDue ‹_›
    · exact h
  | start i runId p port now =>
    dsimp only
    split
    · exact h.startClaim ‹_› runId p port now
    · exact h
  | launch i answer port now =>
    dsimp only
    split
    · exact h.launch ‹_› rfl answer port now
    · exact h
  | recover i =>
    dsimp only
    split
    · exact h.recover ‹_›
    · exact h
  | attach i =>
    dsimp only
    split
    · exact h.attach ‹_› rfl
    · exact h
  | abandon i => exact h.erased i
  | crash => exact h.crash rfl
  | run a => exact h.coordinated (w.coordinator.step_leads notifier a)
  | move tenantId runId target now => exact h.coordinated w.coordinator.transition_leads

theorem consistent_empty (repositories : Table Runs.RepositoryRow) :
    Consistent (empty repositories) where
  sound := Runs.sound_empty repositories
  distinct _ mem := absurd mem Table.not_mem_empty
  linked _ mem := absurd mem Table.not_mem_empty
  early _ mem := absurd mem Table.not_mem_empty
  claims _ mem := absurd mem List.not_mem_nil
  knows _ mem := absurd mem List.not_mem_nil

end Scheduler

end Corvus.Schedules
