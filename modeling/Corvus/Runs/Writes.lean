import Corvus.Runs.Supervision

/-!
# What the processes write to the run store

Every step of the coordinator writes by the methods of the store only. So the runs of one
schedule keep distinct occurrence keys, and a run keeps its schedule and its key for good.
-/

namespace Corvus.Runs

/-! ## The occurrence of a run -/

/-- The schedule and the occurrence key of a run, which the table keeps apart. -/
def RunRow.occurrence (r : RunRow) : Option (String × String) :=
  match r.scheduleId, r.occurrenceKey with
  | some scheduleId, some occurrenceKey => some (scheduleId, occurrenceKey)
  | _, _ => none

theorem RunRow.occurrence_eq_some {r : RunRow} {scheduleId occurrenceKey : String} :
    r.occurrence = some (scheduleId, occurrenceKey) ↔
      r.scheduleId = some scheduleId ∧ r.occurrenceKey = some occurrenceKey := by
  unfold occurrence
  cases r.scheduleId <;> cases r.occurrenceKey <;> simp

/-- No two runs of one occurrence. -/
def Distinct (db : Db) : Prop :=
  ∀ r ∈ db.runs, ∀ q ∈ db.runs, r.occurrence.isSome → r.occurrence = q.occurrence → r.id = q.id

/-- Nothing but the status and the times of a run ever changes. -/
structure SameRun (r r' : RunRow) : Prop where
  id : r'.id = r.id
  tenantId : r'.tenantId = r.tenantId
  occurrence : r'.occurrence = r.occurrence

theorem SameRun.refl (r : RunRow) : SameRun r r := ⟨rfl, rfl, rfl⟩

theorem SameRun.trans {r r' r'' : RunRow} (first : SameRun r r') (second : SameRun r' r'') :
    SameRun r r'' :=
  ⟨second.id.trans first.id, second.tenantId.trans first.tenantId,
    second.occurrence.trans first.occurrence⟩

/-- The runs stay, and one of a new occurrence may have been added. -/
def Grows (db after : Db) : Prop :=
  ∃ new : Option RunRow,
    (∀ r ∈ new, r.occurrence.isSome → ∀ q ∈ db.runs, q.occurrence ≠ r.occurrence) ∧
      Table.Evolves db.runs after.runs SameRun fun r => r ∈ new

namespace Grows

variable {db after : Db} {tenantId runId : String} {target : RunStatus} {now : Instant}
  {current : RunRow}

/-- Nothing is added. -/
theorem quiet (evolves : Table.Evolves db.runs after.runs SameRun fun _ => False) :
    Grows db after :=
  ⟨none, fun _ mem => absurd mem (Option.not_mem_none _),
    evolves.mono (fun _ _ _ _ same => same) fun _ _ none => none.elim⟩

theorem refl (db : Db) : Grows db db := quiet (.refl fun r _ => .refl r)

theorem of_write (written : db.write tenantId runId target current now = .ok after) :
    Grows db after := by
  unfold Db.write at written
  dsimp only at written
  split at written
  · nomatch written
  split at written
  · nomatch written
  · obtain rfl := Except.ok.inj written
    exact quiet (.update (fun r _ _ => .refl r) fun r _ _ => ⟨rfl, rfl, rfl⟩)

theorem of_create {request : StartRunRequest} {baseSha : String} {retryOfRunId : Option String}
    (made : db.create tenantId request baseSha runId retryOfRunId now = .ok after) :
    Grows db after := by
  have inserted := Db.create_eq_ok made
  obtain ⟨_, runs, rows, rfl⟩ := Db.insertRun_eq_some inserted
  refine ⟨some _, ?_, .insert rows (fun r _ => .refl r) rfl⟩
  intro r mem scheduled q listed same
  obtain rfl := Option.some.inj mem
  obtain ⟨⟨scheduleId, occurrenceKey⟩, found⟩ := Option.isSome_iff_exists.mp scheduled
  obtain ⟨schedule, key⟩ := RunRow.occurrence_eq_some.mp found
  rw [found] at same
  obtain ⟨schedule', key'⟩ := RunRow.occurrence_eq_some.mp same
  unfold Db.insertRun at inserted
  split at inserted
  · cases inserted
  split at inserted
  · cases inserted
  split at inserted
  · cases inserted
  · rename_i free
    refine free ?_
    rw [Bool.and_eq_true, List.any_eq_true]
    refine ⟨?_, q, listed, ?_⟩
    · rw [schedule, key]
      rfl
    · rw [schedule, key, schedule', key']
      simp

theorem of_appendEvent {eventType : String} {payload : List (String × Json)}
    (appended : db.appendEvent runId eventType payload now = .ok after) : Grows db after := by
  obtain ⟨events, rfl, _⟩ := Db.appendEvent_eq_ok appended
  exact quiet (.refl fun r _ => .refl r)

theorem committed {result : Except RunStoreError Db} (h : ∀ after, result = .ok after → Grows db after) :
    Grows db (Runs.committed db result) := by
  cases result with
  | error e => exact refl db
  | ok after => exact h after rfl

theorem of_step (s : RunStore) (a : Action) : Grows s.db (s.step a).db := by
  cases a with
  | create => exact committed fun _ made => of_create made
  | transition | get => exact refl s.db
  | appendEvent => exact committed fun _ appended => of_appendEvent appended
  | write call now =>
    dsimp only [RunStore.step]
    cases s.calls[call]? with
    | none => exact refl s.db
    | some t =>
      dsimp only [Option.map_some, Option.getD_some, Transition.write]
      split
      · exact committed fun _ written => of_write written
      · exact refl s.db

theorem keeps (h : Grows db after) {r : RunRow} (mem : r ∈ db.runs) :
    ∃ r' ∈ after.runs, SameRun r r' := by
  obtain ⟨new, _, evolves⟩ := h
  exact evolves.forth r mem

theorem distinct (h : Grows db after) (distinct : Distinct db) : Distinct after := by
  obtain ⟨new, free, evolves⟩ := h
  intro r mem q mem' scheduled same
  obtain ⟨r₀, before, kept⟩ | fresh := evolves.back r mem
  · obtain ⟨q₀, before', kept'⟩ | fresh' := evolves.back q mem'
    · rw [kept.occurrence, kept'.occurrence] at same
      rw [kept.id, kept'.id]
      exact distinct r₀ before q₀ before' (kept.occurrence ▸ scheduled) same
    · rw [kept.occurrence] at same
      exact absurd same (free q fresh' (same ▸ kept.occurrence ▸ scheduled) r₀ before)
  · obtain ⟨q₀, before', kept'⟩ | fresh' := evolves.back q mem'
    · rw [kept'.occurrence] at same
      exact absurd same.symm (free r fresh scheduled q₀ before')
    · rw [Option.some.inj (fresh.symm.trans fresh')]

end Grows

namespace Db.Leads

variable {db after : Db}

theorem distinct (leads : db.Leads after) (h : Distinct db) : Distinct after := by
  obtain ⟨as, calls, run⟩ := leads []
  have kept : Distinct (Run.exec RunStore.step ⟨db, []⟩ as).db :=
    Run.preserves (I := fun s : RunStore => Distinct s.db) h
      (fun s a before => (Grows.of_step s a).distinct before) as
  rwa [run] at kept

theorem keeps (leads : db.Leads after) {r : RunRow} (mem : r ∈ db.runs) :
    ∃ r' ∈ after.runs, SameRun r r' := by
  obtain ⟨as, calls, run⟩ := leads []
  have kept : ∃ r' ∈ (Run.exec RunStore.step ⟨db, []⟩ as).db.runs, SameRun r r' :=
    Run.preserves (I := fun s : RunStore => ∃ r' ∈ s.db.runs, SameRun r r') ⟨r, mem, .refl r⟩
      (fun s a ⟨r', mem', same⟩ => by
        obtain ⟨r'', mem'', same'⟩ := (Grows.of_step s a).keeps mem'
        exact ⟨r'', mem'', same.trans same'⟩) as
  rwa [run] at kept

end Db.Leads

/-! ## The coordinator -/

namespace Coordinator

variable (c : Coordinator) {tenantId runId : String} {target : RunStatus} {now : Instant}

theorem transition_leads : c.db.Leads (c.transition tenantId runId target now).2.db := by
  unfold transition
  split
  · exact .refl _
  · rename_i db moved
    have leads : c.db.Leads db := .of_transition moved
    split <;> exact leads

theorem settle_leads (e : CoordinatorError) :
    c.db.Leads (c.settle tenantId runId target e now).2.db := by
  have leads : c.db.Leads (c.transition tenantId runId target now).2.db := transition_leads c
  unfold settle
  split
  · rename_i moved
    rw [moved] at leads
    exact leads
  · rename_i moved
    rw [moved] at leads
    exact leads

theorem start_leads (request : StartRunRequest) (retryOfRunId : Option String) (p : Preparation) :
    c.db.Leads (c.start tenantId request retryOfRunId runId p now).2.db := by
  unfold start
  split
  · exact .refl _
  split
  · exact .refl _
  split
  · exact .refl _
  split
  · exact .refl _
  rename_i db created
  have leads : c.db.Leads db := .of_create created
  dsimp only
  split
  · exact leads
  split
  · exact leads
  · exact leads.trans (settle_leads { c with db } _)
  · exact leads.trans (settle_leads { c with db } _)
  · exact leads

theorem launch_leads (s : Starting) (answer : Answer String) :
    c.db.Leads (c.launch s answer now).2.db := by
  cases answer with
  | cancelled | raised => exact settle_leads c _
  | exited => exact .refl _
  | returned handle =>
    unfold launch
    dsimp only
    let registered : Coordinator := { c with
      handles := (s.runId, handle) :: c.handles
      backend := { c.backend with launched := (s.runId, handle) :: c.backend.launched } }
    have leads : c.db.Leads (registered.transition s.tenantId s.runId .running now).2.db :=
      transition_leads registered
    generalize transition _ s.tenantId s.runId .running now = moved at leads ⊢
    obtain ⟨reply, after⟩ := moved
    cases reply <;> exact leads

theorem cancel_leads : c.db.Leads (c.cancel tenantId runId now).2.db := by
  unfold cancel
  split
  · exact .refl _
  split
  · exact .refl _
  split
  · exact transition_leads c
  · exact .refl _

theorem conclude_leads (k : Cancelling) (answer : Answer Bool) :
    c.db.Leads (c.conclude k answer now).2.db := by
  cases answer with
  | raised | cancelled | exited => exact .refl _
  | returned accepted =>
    unfold conclude
    dsimp only
    split
    · exact .refl _
    split
    · exact transition_leads c
    · exact .refl _

theorem settle_raises (e : CoordinatorError) :
    ∃ raised, (c.settle tenantId runId target e now).1 = .raises raised := by
  unfold settle
  split
  · exact ⟨_, rfl⟩
  · exact ⟨_, rfl⟩

/-- A start raises, or it has created the run and awaits the backend. -/
theorem start_cases (request : StartRunRequest) (retryOfRunId : Option String) (p : Preparation) :
    (∃ e, (c.start tenantId request retryOfRunId runId p now).1 = .raises e) ∨
      (c.start tenantId request retryOfRunId runId p now).1 = .awaits ∧
        ∃ r ∈ (c.start tenantId request retryOfRunId runId p now).2.db.runs, r.id = runId ∧
          r.scheduleId = request.scheduleId ∧ r.occurrenceKey = request.occurrenceKey := by
  unfold start
  split
  · exact .inl ⟨_, rfl⟩
  split
  · exact .inl ⟨_, rfl⟩
  split
  · exact .inl ⟨_, rfl⟩
  split
  · exact .inl ⟨_, rfl⟩
  rename_i db created
  dsimp only
  split
  · exact .inl ⟨_, rfl⟩
  split
  · obtain ⟨_, runs, rows, rfl⟩ := Db.insertRun_eq_some (Db.create_eq_ok created)
    exact .inr ⟨rfl, _, Table.mem_of_append rows, rfl, rfl, rfl⟩
  · exact .inl (settle_raises { c with db } _)
  · exact .inl (settle_raises { c with db } _)
  · exact .inl ⟨_, rfl⟩

theorem transition_own {run : RunRow}
    (moved : (c.transition tenantId runId target now).1 = .returns run) : run.id = runId := by
  unfold transition at moved
  split at moved
  · nomatch moved
  split at moved
  · nomatch moved
  · rename_i got
    obtain rfl := Reply.returns.inj moved
    exact (Db.get_eq_ok.mp got).2.1

/-- A start returns the record of its own run. -/
theorem launch_own {s : Starting} {answer : Answer String} {run : RunRow}
    (launched : (c.launch s answer now).1 = .returns run) : run.id = s.runId := by
  cases answer with
  | cancelled =>
    obtain ⟨e, same⟩ : ∃ e, (c.launch s .cancelled now).1 = .raises e := settle_raises c _
    rw [same] at launched
    nomatch launched
  | raised =>
    obtain ⟨e, same⟩ : ∃ e, (c.launch s .raised now).1 = .raises e := settle_raises c _
    rw [same] at launched
    nomatch launched
  | exited => nomatch launched
  | returned handle =>
    unfold launch at launched
    dsimp only at launched
    let registered : Coordinator := { c with
      handles := (s.runId, handle) :: c.handles
      backend := { c.backend with launched := (s.runId, handle) :: c.backend.launched } }
    have own : ∀ run, (registered.transition s.tenantId s.runId .running now).1 = .returns run →
        run.id = s.runId := fun run => transition_own registered
    generalize transition _ s.tenantId s.runId .running now = moved at own launched
    obtain ⟨reply, after⟩ := moved
    cases reply with
    | returns record =>
      obtain rfl := Reply.returns.inj launched
      exact own _ rfl
    | awaits | raises => nomatch launched

variable (i : Nat) (p : Pump) (handle : String)

theorem deliver_leads (sawTerminal : Bool) (event : ProviderRunEvent) (review : Review) :
    c.db.Leads (c.deliver i p handle sawTerminal event review now).db := by
  unfold deliver
  split
  · exact .refl _
  · exact .refl _
  split
  · exact .refl _
  · exact .of_terminalize ‹_›

theorem receive_leads (notifier sawTerminal : Bool) (event : ProviderRunEvent) (review : Review) :
    c.db.Leads (c.receive notifier i p handle sawTerminal event review now).db := by
  unfold receive
  split
  · exact .refl _
  rename_i db appended
  have leads : c.db.Leads db := .of_appendEvent appended
  dsimp only
  split
  · exact leads
  · exact leads.trans (deliver_leads { c with db } i p handle sawTerminal event review)

theorem finish_leads (sawTerminal : Bool) :
    c.db.Leads (c.finish i p handle sawTerminal now).db := by
  unfold finish
  dsimp only
  split
  · exact .refl _
  split
  · exact .refl _
  rename_i db appended
  have leads : c.db.Leads db := .of_appendEvent appended
  split
  · exact leads
  · exact leads.trans (.of_terminalize ‹_›)

theorem stopAndTerminalize_leads (reasonCode : String) (answer : Answer Bool) :
    c.db.Leads (c.stopAndTerminalize i p target reasonCode answer now).db := by
  have record : ∀ accepted : Bool, c.db.Leads
      (c.stopAndTerminalize i p target reasonCode (.returned accepted) now).db := by
    intro accepted
    unfold stopAndTerminalize
    dsimp only
    split
    · exact .refl _
    · rename_i db appended
      have leads : c.db.Leads db := .of_appendEvent appended
      exact leads.trans (.committed fun _ ended => .of_terminalize ended)
  cases answer with
  | returned accepted => exact record accepted
  | raised => exact record false
  | cancelled | exited => exact .refl _

theorem pump_leads (notifier : Bool) (a : Action) : c.db.Leads (c.pump notifier i p a).db := by
  cases a with
  | begin j | shield j =>
    simp only [pump]
    split <;> exact .refl _
  | receive j event review now =>
    simp only [pump]
    split
    · exact receive_leads c i p _ notifier _ event review
    · exact .refl _
  | notified j answer review now =>
    simp only [pump]
    split
    · exact deliver_leads c i p _ _ _ review
    all_goals exact .refl _
  | close j answer now =>
    simp only [pump]
    split
    · exact finish_leads c i p _ _
    all_goals exact .refl _
  | stopped j answer now =>
    simp only [pump]
    split
    · exact stopAndTerminalize_leads c i p _ answer
    · exact .refl _
  | start | launch | cancel | conclude | recoverInterrupted => exact .refl _

/-- Every step of the coordinator writes by the methods of the store. -/
theorem step_leads (notifier : Bool) (a : Action) : c.db.Leads (c.step notifier a).db := by
  unfold step
  split
  · exact .refl _
  cases a with
  | start tenantId request retryOfRunId runId p now =>
    exact start_leads c request retryOfRunId p
  | launch i answer now =>
    dsimp only
    split
    · exact launch_leads { c with starting := c.starting.eraseIdx i } _ answer
    · exact .refl _
  | cancel => exact cancel_leads c
  | conclude i answer now =>
    dsimp only
    split
    · exact conclude_leads { c with cancelling := c.cancelling.eraseIdx i } _ answer
    · exact .refl _
  | recoverInterrupted now => exact .of_recoverAll _ c.db now
  | begin | receive | notified | close | shield | stopped =>
    dsimp only
    split
    · exact pump_leads c _ _ notifier _
    · exact .refl _

end Coordinator

end Corvus.Runs
