import Corvus.Runs.Coordinator
import Corvus.Runs.Lifecycle

/-!
# Supervised provider processes

A provider process is supervised while a pump task is at its event stream. The pump
calls `backend.cancel` on every way out of its loop but the end of the stream, and
`start` hands each process it has launched to a pump, except where the run is no longer
in preparation when the backend answers: then `start` raises, and nobody has the handle.
-/

namespace Corvus.Runs

open Coordinator

/-! ## What the coordinator does to the store -/

/-- The store gets from one database to the other by its own methods. -/
def Db.Leads (db after : Db) : Prop :=
  ∀ calls, ∃ as calls', Run.exec RunStore.step ⟨db, calls⟩ as = ⟨after, calls'⟩

namespace Db.Leads

variable {db after last : Db} {tenantId runId : String} {target : RunStatus} {now : Instant}

theorem refl (db : Db) : db.Leads db := fun calls => ⟨[], calls, rfl⟩

theorem trans (h : db.Leads after) (h' : after.Leads last) : db.Leads last := by
  intro calls
  obtain ⟨as, calls, run⟩ := h calls
  obtain ⟨bs, calls', run'⟩ := h' calls
  exact ⟨as ++ bs, calls', by rw [Run.exec_append, run, run']⟩

theorem of_create {request : StartRunRequest} {baseSha : String} {retryOfRunId : Option String}
    (h : db.create tenantId request baseSha runId retryOfRunId now = .ok after) :
    db.Leads after := by
  intro calls
  refine ⟨[.create tenantId request baseSha runId retryOfRunId now], calls, ?_⟩
  simp [RunStore.step, h, committed]

theorem of_appendEvent {eventType : String} {payload : List (String × Json)}
    (h : db.appendEvent runId eventType payload now = .ok after) : db.Leads after := by
  intro calls
  refine ⟨[.appendEvent runId eventType payload now], calls, ?_⟩
  simp [RunStore.step, h, committed]

theorem of_transition (h : db.transition tenantId runId target now = .ok after) :
    db.Leads after := by
  intro calls
  obtain ⟨current, checked, written⟩ := bind_eq_ok.mp h
  let t := Transition.start db tenantId runId target
  refine ⟨[.transition tenantId runId target, .write calls.length now],
    (calls ++ [t]).modify calls.length (Transition.afterWrite db now), ?_⟩
  have phase : t.phase = .checked current := by simp only [t, Transition.start, checked]
  have write : t.write db now = after := by
    simp only [Transition.write, phase]
    exact congrArg (Runs.committed db) written
  have last : (calls ++ [t])[calls.length]? = some t := by simp
  simp only [Run.exec_cons, Run.exec_nil, RunStore.step, last, write, Option.map_some,
    Option.getD_some, t]

theorem of_terminalize (h : db.terminalize tenantId runId target now = .ok after) :
    db.Leads after := by
  obtain ⟨current, got, h⟩ := bind_eq_ok.mp h
  split at h
  · cases h
    exact refl db
  split at h
  · cases h
    exact refl db
  · exact of_transition h

theorem of_recoverAll (rows : List RunRow) (db : Db) (now : Instant) :
    db.Leads (db.recoverAll now rows) := by
  induction rows generalizing db with
  | nil => exact refl db
  | cons row rows ih =>
      rw [Db.recoverAll]
      split
      · rename_i after moved
        exact (of_transition moved).trans (ih after)
      · exact refl db

theorem committed {result : Except RunStoreError Db} (h : ∀ after, result = .ok after → db.Leads after) :
    db.Leads (Runs.committed db result) := by
  cases result with
  | error e => exact refl db
  | ok after => exact h after rfl

/-- A run stays in the table. -/
theorem persists (h : db.Leads after) {r : RunRow} (mem : r ∈ db.runs) :
    ∃ r' ∈ after.runs, r'.id = r.id ∧ r'.tenantId = r.tenantId := by
  obtain ⟨as, calls, run⟩ := h []
  let kept := fun s : RunStore => ∃ r' ∈ s.db.runs, r'.id = r.id ∧ r'.tenantId = r.tenantId
  have start : kept ⟨db, []⟩ := ⟨r, mem, rfl, rfl⟩
  have finish : kept ⟨after, calls⟩ := by
    rw [← run]
    refine Run.preserves start (fun s a ⟨r', mem', id', tenant'⟩ => ?_) as
    obtain ⟨q, hq, same, tenant, _⟩ := (effect_of_step s a).persists mem'
    exact ⟨q, hq, same.trans id', tenant.trans tenant'⟩
  exact finish

end Db.Leads

/-- What holds of the database at any time, whoever writes it. -/
def Db.Sound (db : Db) : Prop := Runs.Sound ⟨db, []⟩

theorem Db.Sound.later {db after : Db} (h : db.Sound) (leads : db.Leads after) : after.Sound := by
  obtain ⟨as, calls, run⟩ := leads []
  have sound : Runs.Sound ⟨after, calls⟩ := by
    rw [← run]
    exact Run.preserves (I := Runs.Sound) h (fun _ a h => h.step a) as
  exact ⟨sound.shaped, sound.exclusive, by simp, by simp, sound.numbered⟩

/-- A run in preparation can be set running. -/
theorem Db.Sound.running {db : Db} (h : db.Sound) {row : RunRow} (mem : row ∈ db.runs)
    (preparing : row.status = .preparing) (now : Instant) :
    ∃ after, db.transition row.tenantId row.id .running now = .ok after := by
  have allowed : RunStatus.running ∈ TRANSITIONS row.status := by
    rw [preparing]
    decide
  have checked : db.check row.tenantId row.id .running = .ok row :=
    Db.check_eq_ok.mpr ⟨⟨mem, rfl, rfl⟩, allowed⟩
  have unchanged : db.Unchanged row.tenantId row.id row row := ⟨mem, rfl, rfl, rfl⟩
  have written := @Db.write_of_unchanged _ _ _ _ _ _ now unchanged (h.exclusive.calm mem allowed)
  exact ⟨_, bind_eq_ok.mpr ⟨row, checked, written⟩⟩

/-! ## The state of the coordinator -/

/-- The task is at the event stream of a handle: it is about to open it, it reads it or
announces one of its events, or it has been cancelled there and goes on to stop the
provider. -/
def Pump.at (c : Coordinator) (p : Pump) (handle : String) : Prop :=
  match p.phase with
  | .created => c.handles.lookup p.run.id = some handle
  | .reading h _ | .notifying h _ _ | .interrupted h => h = handle
  | .stopping .. => False

/-- Every process that has been launched for a run that counts as over has a pump at its
stream, or its stream has ended, or the backend has been asked to cancel it. -/
def Coordinator.Supervised (c : Coordinator) : Prop :=
  ∀ run handle, (run, handle) ∈ c.backend.launched →
    (∃ row ∈ c.db.runs, row.id = run ∧
      row.status ∈ [RunStatus.cancelled, .interrupted, .failed]) →
    (∀ p ∈ c.pumps, ¬ p.at c handle) →
      handle ∈ c.backend.ended ∨ handle ∈ c.backend.stopped

/-- A launch that succeeds does so while its run is still in preparation. -/
def LaunchesPrepared (c : Coordinator) : Coordinator.Action → Prop
  | .launch i (.returned _) _ =>
      ∀ s, c.starting[i]? = some s → ∃ row ∈ c.db.runs, row.id = s.runId ∧ row.status = .preparing
  | _ => True

/-- What holds between any two steps, along runs whose launches find their run prepared. -/
structure Watched (c : Coordinator) : Prop where
  sound : c.db.Sound
  registered : ∀ run handle, (run, handle) ∈ c.backend.launched →
    c.handles.lookup run = some handle
  watched : ∀ run handle, (run, handle) ∈ c.backend.launched →
    (∃ p ∈ c.pumps, p.at c handle) ∨ handle ∈ c.backend.ended ∨ handle ∈ c.backend.stopped
  stopping : ∀ p ∈ c.pumps, ∀ handle target reasonCode,
    p.phase = .stopping handle target reasonCode → handle ∈ c.backend.stopped
  fresh : ∀ s ∈ c.starting, c.handles.lookup s.runId = none
  single : (c.starting.map (·.runId)).Nodup
  known : ∀ s ∈ c.starting, ∃ row ∈ c.db.runs, row.id = s.runId ∧ row.tenantId = s.tenantId
  stored : ∀ run handle, c.handles.lookup run = some handle → ∃ row ∈ c.db.runs, row.id = run

namespace Watched

variable {c : Coordinator} {db : Db} {i : Nat} {p : Pump} {handle : String} {now : Instant}

/-! ### Rules for the parts of a step -/

theorem supervised (h : Watched c) : c.Supervised := by
  intro run handle launched _ alone
  rcases h.watched run handle launched with ⟨p, mem, there⟩ | done
  · exact absurd there (alone p mem)
  · exact done

/-- The store is written. -/
theorem stored_by (h : Watched c) (leads : c.db.Leads db) : Watched { c with db } where
  sound := h.sound.later leads
  registered := h.registered
  watched := h.watched
  stopping := h.stopping
  fresh := h.fresh
  single := h.single
  known s mem := by
    obtain ⟨row, mem, id, tenant⟩ := h.known s mem
    obtain ⟨row', mem', id', tenant'⟩ := leads.persists mem
    exact ⟨row', mem', id'.trans id, tenant'.trans tenant⟩
  stored run handle registered := by
    obtain ⟨row, mem, id⟩ := h.stored run handle registered
    obtain ⟨row', mem', id', _⟩ := leads.persists mem
    exact ⟨row', mem', id'.trans id⟩

/-- The backend is asked to cancel a handle. -/
theorem stop (h : Watched c) (handle : String) : Watched (c.stop handle) where
  sound := h.sound
  registered := h.registered
  watched run handle launched := by
    rcases h.watched run handle launched with there | ended | stopped
    · exact .inl there
    · exact .inr (.inl ended)
    · exact .inr (.inr (List.mem_cons_of_mem _ stopped))
  stopping p mem h' target reasonCode phase :=
    List.mem_cons_of_mem _ (h.stopping p mem h' target reasonCode phase)
  fresh := h.fresh
  single := h.single
  known := h.known
  stored := h.stored

/-- The stream of a handle ends. -/
theorem close (h : Watched c) (handle : String) :
    Watched { c with backend := { c.backend with ended := handle :: c.backend.ended } } where
  sound := h.sound
  registered := h.registered
  watched run handle launched := by
    rcases h.watched run handle launched with there | ended | stopped
    · exact .inl there
    · exact .inr (.inl (List.mem_cons_of_mem _ ended))
    · exact .inr (.inr stopped)
  stopping := h.stopping
  fresh := h.fresh
  single := h.single
  known := h.known
  stored := h.stored

/-- The handle of a pump has been dealt with, or the pump is still at it. -/
def Settled (c : Coordinator) (p : Pump) (still : String → Prop) : Prop :=
  ∀ handle, p.at c handle → still handle ∨ handle ∈ c.backend.ended ∨ handle ∈ c.backend.stopped

/-- A handle is with another pump than the given one, with that one, or dealt with. -/
theorem watched_beside (h : Watched c) (found : c.pumps[i]? = some p) {run : String}
    (launched : (run, handle) ∈ c.backend.launched) :
    (∃ j q, i ≠ j ∧ c.pumps[j]? = some q ∧ q.at c handle) ∨ p.at c handle ∨
      handle ∈ c.backend.ended ∨ handle ∈ c.backend.stopped := by
  rcases h.watched run handle launched with ⟨q, mem, there⟩ | done
  · obtain ⟨j, at_j⟩ := List.mem_iff_getElem?.mp mem
    by_cases same : i = j
    · subst same
      obtain rfl : p = q := Option.some.inj (found.symm.trans at_j)
      exact .inr (.inl there)
    · exact .inl ⟨j, q, same, at_j, there⟩
  · exact .inr (.inr done)

/-- A pump goes on to another phase. -/
theorem move (h : Watched c) (found : c.pumps[i]? = some p) (phase : PumpPhase)
    (settled : Settled c p fun handle => { p with phase : Pump }.at c handle)
    (stopping : ∀ handle target reasonCode, phase = .stopping handle target reasonCode →
      handle ∈ c.backend.stopped) :
    Watched { c with pumps := c.pumps.set i { p with phase } } where
  sound := h.sound
  registered := h.registered
  watched run handle launched := by
    rcases h.watched_beside found launched with ⟨j, q, other, at_j, there⟩ | there | done
    · refine .inl ⟨q, List.mem_iff_getElem?.mpr ⟨j, ?_⟩, there⟩
      rw [List.getElem?_set_ne other]
      exact at_j
    · rcases settled handle there with there | done
      · exact .inl ⟨{ p with phase }, List.mem_set (List.getElem?_eq_some_iff.mp found).1 _, there⟩
      · exact .inr done
    · exact .inr done
  stopping q mem handle target reasonCode there := by
    rcases List.mem_or_eq_of_mem_set mem with mem | rfl
    · exact h.stopping q mem handle target reasonCode there
    · exact stopping handle target reasonCode there
  fresh := h.fresh
  single := h.single
  known := h.known
  stored := h.stored

/-- A pump ends. -/
theorem finish (h : Watched c) (found : c.pumps[i]? = some p)
    (settled : Settled c p fun _ => False) :
    Watched { c with pumps := c.pumps.eraseIdx i } where
  sound := h.sound
  registered := h.registered
  watched run handle launched := by
    rcases h.watched_beside found launched with ⟨j, q, other, at_j, there⟩ | there | done
    · exact .inl ⟨q, List.mem_eraseIdx_iff_getElem?.mpr ⟨j, Ne.symm other, at_j⟩, there⟩
    · exact .inr ((settled handle there).resolve_left id)
    · exact .inr done
  stopping q mem := h.stopping q (List.mem_of_mem_eraseIdx mem)
  fresh := h.fresh
  single := h.single
  known := h.known
  stored := h.stored

/-! ### The methods -/

theorem exit (h : Watched c) : Watched { c with exited := true } :=
  ⟨h.sound, h.registered, h.watched, h.stopping, h.fresh, h.single, h.known, h.stored⟩

theorem transition (h : Watched c) (tenantId runId : String) (target : RunStatus)
    (now : Instant) : Watched (c.transition tenantId runId target now).2 := by
  unfold Coordinator.transition
  split
  · exact h
  · rename_i db moved
    have after := h.stored_by (.of_transition moved)
    split <;> exact after

theorem settle (h : Watched c) (tenantId runId : String) (target : RunStatus)
    (e : CoordinatorError) (now : Instant) :
    Watched (c.settle tenantId runId target e now).2 := by
  have moved := h.transition tenantId runId target now
  unfold Coordinator.settle
  generalize c.transition tenantId runId target now = result at moved
  obtain ⟨reply, after⟩ := result
  cases reply <;> exact moved

/-- The coroutines of `start` and `cancel` that wait have no part in what is watched,
but that each waiting start has a run of its own. -/
theorem erase_starting (h : Watched c) (i : Nat) :
    Watched { c with starting := c.starting.eraseIdx i } where
  sound := h.sound
  registered := h.registered
  watched := h.watched
  stopping := h.stopping
  fresh s mem := h.fresh s (List.mem_of_mem_eraseIdx mem)
  single := h.single.sublist ((List.eraseIdx_sublist c.starting i).map _)
  known s mem := h.known s (List.mem_of_mem_eraseIdx mem)
  stored := h.stored

theorem start (h : Watched c) (tenantId : String) (request : StartRunRequest)
    (retryOfRunId : Option String) (runId : String) (preparation : Preparation)
    (now : Instant) :
    Watched (c.start tenantId request retryOfRunId runId preparation now).2 := by
  unfold Coordinator.start
  split
  · exact h
  split
  · exact h
  split
  · exact h
  rename_i baseSha _
  split
  · exact h
  rename_i db created
  have after := h.stored_by (.of_create created)
  split
  · exact after
  split
  · obtain ⟨_, runs, rows, rfl⟩ := Db.insertRun_eq_some (Db.create_eq_ok created)
    have unused : c.db.runs.get? runId = none := Table.get?_eq_none_of_append rows
    have absent : ∀ row ∈ c.db.runs, row.id ≠ runId := Table.get?_eq_none.mp unused
    refine ⟨after.sound, after.registered, after.watched, after.stopping, fun s mem => ?_, ?_,
      fun s mem => ?_, after.stored⟩
    · rcases List.mem_append.mp mem with mem | mem
      · exact h.fresh s mem
      · rw [List.mem_singleton] at mem
        subst mem
        rw [Option.eq_none_iff_forall_ne_some]
        intro handle registered
        obtain ⟨row, mem, id⟩ := h.stored runId handle registered
        exact absent row mem id
    · rw [List.map_append, List.map_singleton, List.nodup_append]
      refine ⟨h.single, by simp, fun a taken b last => ?_⟩
      rw [List.mem_singleton] at last
      subst last
      obtain ⟨s, mem, rfl⟩ := List.mem_map.mp taken
      obtain ⟨row, mem, id, _⟩ := h.known s mem
      exact id ▸ absent row mem
    · rcases List.mem_append.mp mem with mem | mem
      · exact after.known s mem
      · rw [List.mem_singleton] at mem
        subst mem
        refine ⟨Db.preparing tenantId request baseSha runId retryOfRunId now, ?_, rfl, rfl⟩
        rw [Table.mem_iff, rows]
        simp
  · exact after.settle ..
  · exact after.settle ..
  · exact after.exit

/-- Another start waits for another run. -/
theorem other_starting (h : Watched c) {s s' : Starting} (found : c.starting[i]? = some s)
    (mem : s' ∈ c.starting.eraseIdx i) : s'.runId ≠ s.runId := by
  obtain ⟨j, other, at_j⟩ := List.mem_eraseIdx_iff_getElem?.mp mem
  obtain ⟨inside_i, rfl⟩ := List.getElem?_eq_some_iff.mp found
  obtain ⟨inside_j, rfl⟩ := List.getElem?_eq_some_iff.mp at_j
  intro same
  have bound_i : i < (c.starting.map (·.runId)).length := by simpa using inside_i
  have bound_j : j < (c.starting.map (·.runId)).length := by simpa using inside_j
  have runs : (c.starting.map (·.runId))[j] = (c.starting.map (·.runId))[i] := by simpa using same
  exact other (h.single.getElem_inj_iff.mp runs)

theorem launch (h : Watched c) {s : Starting} (found : c.starting[i]? = some s)
    (answer : Answer String) (now : Instant)
    (prepared : LaunchesPrepared c (.launch i answer now)) :
    Watched (({ c with starting := c.starting.eraseIdx i } : Coordinator).launch s answer now).2 := by
  have rest := h.erase_starting i
  cases answer with
  | cancelled => exact rest.settle ..
  | raised => exact rest.settle ..
  | exited => exact rest.exit
  | returned handle =>
      have mem : s ∈ c.starting := List.mem_of_getElem? found
      obtain ⟨row, row_mem, id, preparing⟩ := prepared s found
      obtain ⟨row', row_mem', id', tenant⟩ := h.known s mem
      obtain rfl : row' = row := Table.eq_of_key row_mem' row_mem (id'.trans id.symm)
      obtain ⟨db, moved⟩ := h.sound.running row_mem preparing now
      rw [id, tenant] at moved
      have leads : c.db.Leads db := .of_transition moved
      have after := rest.stored_by leads
      obtain ⟨running, running_mem, running_id, running_tenant⟩ := leads.persists row_mem
      have got : db.get s.tenantId s.runId = .ok running :=
        Db.get_eq_ok.mpr ⟨running_mem, running_id.trans id, running_tenant.trans tenant⟩
      simp only [Coordinator.launch, Coordinator.transition, moved, got]
      have lookup : ∀ run, run ≠ s.runId →
          ((s.runId, handle) :: c.handles).lookup run = c.handles.lookup run := by
        intro run other
        rw [List.lookup_cons, beq_false_of_ne other]
      have lookup_self : ((s.runId, handle) :: c.handles).lookup s.runId = some handle := by
        simp
      -- a run with a handle is not the one that is being launched
      have other : ∀ run h', c.handles.lookup run = some h' → run ≠ s.runId := by
        rintro run h' registered rfl
        rw [h.fresh s mem] at registered
        cases registered
      refine ⟨after.sound, fun run h' launched => ?_, fun run h' launched => ?_, ?_, ?_,
        rest.single, after.known, fun run h' registered => ?_⟩
      · rcases List.mem_cons.mp launched with new | launched
        · cases new
          exact lookup_self
        · have registered := h.registered run h' launched
          exact (lookup run (other run h' registered)).trans registered
      · rcases List.mem_cons.mp launched with new | launched
        · cases new
          refine .inl ⟨⟨s.tenantId, running, .created⟩, by simp, ?_⟩
          simp only [Pump.at, running_id, id, lookup_self]
        · rcases h.watched run h' launched with ⟨p, mem, there⟩ | done
          · refine .inl ⟨p, List.mem_append_left _ mem, ?_⟩
            unfold Pump.at at there ⊢
            split at there
            · exact (lookup _ (other _ _ there)).trans there
            all_goals exact there
          · exact .inr done
      · intro p mem h' target reasonCode phase
        rcases List.mem_append.mp mem with mem | mem
        · exact h.stopping p mem h' target reasonCode phase
        · rw [List.mem_singleton] at mem
          subst mem
          cases phase
      · intro s' mem'
        exact (lookup _ (h.other_starting found mem')).trans (rest.fresh s' mem')
      · by_cases own : run = s.runId
        · exact ⟨running, running_mem, (running_id.trans id).trans own.symm⟩
        · exact after.stored run h' ((lookup run own).symm.trans registered)

theorem cancel (h : Watched c) (tenantId runId : String) (now : Instant) :
    Watched (c.cancel tenantId runId now).2 := by
  unfold Coordinator.cancel
  split
  · exact h
  split
  · exact h
  split
  · exact h.transition ..
  · rename_i handle _
    have after := h.stop handle
    exact ⟨after.sound, after.registered, after.watched, after.stopping, after.fresh,
      after.single, after.known, after.stored⟩

theorem conclude (h : Watched c) (k : Cancelling) (answer : Answer Bool) (now : Instant) :
    Watched (c.conclude k answer now).2 := by
  cases answer with
  | raised | cancelled => exact h
  | exited => exact h.exit
  | returned accepted =>
      simp only [Coordinator.conclude]
      split
      · exact h
      split
      · exact h.transition ..
      · exact h

/-! ### The pump -/

/-- A pump that is at a handle leaves it by stopping the provider. -/
theorem fail (h : Watched c) (found : c.pumps[i]? = some p)
    (there : ∀ h', p.at c h' → h' = handle) : Watched (c.fail i p handle) := by
  refine (h.stop handle).move (i := i) found _ (fun h' at_h => ?_) fun h' target reason phase => ?_
  · rw [there h' at_h]
    exact .inr (.inr List.mem_cons_self)
  · cases phase
    exact List.mem_cons_self

theorem keep_reading (h : Watched c) (found : c.pumps[i]? = some p)
    (there : ∀ h', p.at c h' → h' = handle) (sawTerminal : Bool) :
    Watched { c with pumps := c.pumps.set i { p with phase := .reading handle sawTerminal } } :=
  h.move found _ (fun h' at_h => .inl (there h' at_h).symm) fun _ _ _ phase => nomatch phase

theorem deliver (h : Watched c) (found : c.pumps[i]? = some p)
    (there : ∀ h', p.at c h' → h' = handle) (sawTerminal : Bool) (event : ProviderRunEvent)
    (review : Review) (now : Instant) :
    Watched (c.deliver i p handle sawTerminal event review now) := by
  unfold Coordinator.deliver
  split
  · exact h.fail found there
  · exact h.keep_reading found there sawTerminal
  split
  · exact h.fail found there
  · rename_i db ended
    exact (h.stored_by (.of_terminalize ended)).keep_reading (i := i) found there true

theorem receive (h : Watched c) (notifier : Bool) (found : c.pumps[i]? = some p)
    (there : ∀ h', p.at c h' → h' = handle) (sawTerminal : Bool) (event : ProviderRunEvent)
    (review : Review) (now : Instant) :
    Watched (c.receive notifier i p handle sawTerminal event review now) := by
  unfold Coordinator.receive
  split
  · exact h.fail found there
  rename_i db appended
  have after := h.stored_by (.of_appendEvent appended)
  split
  · exact after.move (i := i) found _ (fun h' at_h => .inl (there h' at_h).symm)
      fun _ _ _ phase => nomatch phase
  · exact after.deliver (i := i) found there sawTerminal event review now

theorem finish_stream (h : Watched c) (found : c.pumps[i]? = some p)
    (there : ∀ h', p.at c h' → h' = handle) (sawTerminal : Bool) (now : Instant) :
    Watched (c.finish i p handle sawTerminal now) := by
  have closed := h.close handle
  have settled : ∀ db, Settled { c with
      db, backend := { c.backend with ended := handle :: c.backend.ended } } p fun _ => False := by
    intro db h' at_h
    rw [there h' at_h]
    exact .inr (.inl List.mem_cons_self)
  unfold Coordinator.finish
  dsimp only
  split
  · exact closed.finish (i := i) found (settled c.db)
  split
  · exact closed.fail (i := i) found there
  rename_i db appended
  have after := closed.stored_by (.of_appendEvent appended)
  split
  · exact after.fail (i := i) found there
  · rename_i last ended
    exact (after.stored_by (.of_terminalize ended)).finish (i := i) found (settled last)

theorem stopAndTerminalize (h : Watched c) (found : c.pumps[i]? = some p) (target : RunStatus)
    (reasonCode : String) (phase : p.phase = .stopping handle target reasonCode)
    (answer : Answer Bool) (now : Instant) :
    Watched (c.stopAndTerminalize i p target reasonCode answer now) := by
  have done : Watched { c with pumps := c.pumps.eraseIdx i } := by
    refine h.finish found fun h' at_h => ?_
    simp only [Pump.at, phase] at at_h
  unfold Coordinator.stopAndTerminalize
  cases answer with
  | returned accepted =>
      dsimp only
      split
      · exact done
      · rename_i db appended
        exact done.stored_by (.trans (.of_appendEvent appended)
          (.committed fun _ ended => .of_terminalize ended))
  | raised =>
      dsimp only
      split
      · exact done
      · rename_i db appended
        exact done.stored_by (.trans (.of_appendEvent appended)
          (.committed fun _ ended => .of_terminalize ended))
  | cancelled => exact done
  | exited => exact h.exit

theorem interrupt (h : Watched c) (found : c.pumps[i]? = some p)
    (there : ∀ h', p.at c h' → h' = handle) : Watched (c.interrupt i p handle) :=
  h.move found _ (fun h' at_h => .inl (there h' at_h).symm) fun _ _ _ phase => nomatch phase

theorem begin (h : Watched c) (found : c.pumps[i]? = some p) (j : Nat) (notifier : Bool) :
    Watched (c.pump notifier i p (.begin j)) := by
  rw [Coordinator.pump]
  split
  · rename_i handle created registered
    refine h.move found _ (fun h' at_h => .inl ?_) fun _ _ _ phase => nomatch phase
    simp only [Pump.at, created, registered] at at_h
    exact Option.some.inj at_h
  · rename_i created unregistered
    refine h.finish found fun h' at_h => ?_
    simp only [Pump.at, created, unregistered] at at_h
    cases at_h
  · exact h

/-- A pump goes on. -/
theorem pump (h : Watched c) (notifier : Bool) (found : c.pumps[i]? = some p)
    (a : Coordinator.Action) : Watched (c.pump notifier i p a) := by
  cases a with
  | begin j => exact h.begin found j notifier
  | receive j event review now =>
      simp only [Coordinator.pump]
      split
      · rename_i handle sawTerminal phase
        exact h.receive notifier found (by simp [Pump.at, phase]) sawTerminal event review now
      · exact h
  | notified j answer review now =>
      simp only [Coordinator.pump]
      split
      · rename_i handle sawTerminal event _ phase
        exact h.deliver found (by simp [Pump.at, phase]) sawTerminal event review now
      · rename_i phase
        exact h.fail found (by simp [Pump.at, phase])
      · rename_i phase
        exact h.interrupt found (by simp [Pump.at, phase])
      · exact h.exit
      · exact h
  | close j answer now =>
      simp only [Coordinator.pump]
      split
      · rename_i handle sawTerminal _ phase
        exact h.finish_stream found (by simp [Pump.at, phase]) sawTerminal now
      · rename_i phase
        exact h.fail found (by simp [Pump.at, phase])
      · rename_i phase
        exact h.interrupt found (by simp [Pump.at, phase])
      · exact h.exit
      · exact h
  | shield j =>
      simp only [Coordinator.pump]
      split
      · rename_i handle phase
        refine (h.stop handle).move (i := i) found _ (fun h' at_h => ?_)
          fun h' target reason stopping => ?_
        · simp only [Pump.at, phase] at at_h
          exact .inr (.inr (at_h ▸ List.mem_cons_self))
        · cases stopping
          exact List.mem_cons_self
      · exact h
  | stopped j answer now =>
      simp only [Coordinator.pump]
      split
      · rename_i handle target reasonCode phase
        exact h.stopAndTerminalize found target reasonCode phase answer now
      · exact h
  | start | launch | cancel | conclude | recoverInterrupted => exact h

theorem step (h : Watched c) (notifier : Bool) (a : Coordinator.Action)
    (prepared : LaunchesPrepared c a) : Watched (c.step notifier a) := by
  unfold Coordinator.step
  split
  · exact h
  cases a with
  | start tenantId request retryOfRunId runId preparation now => exact h.start ..
  | launch i answer now =>
      dsimp only
      split
      · rename_i s found
        exact h.launch found answer now prepared
      · exact h
  | cancel tenantId runId now => exact h.cancel ..
  | conclude i answer now =>
      dsimp only
      split
      · rename_i k found
        have rest : Watched { c with cancelling := c.cancelling.eraseIdx i } :=
          ⟨h.sound, h.registered, h.watched, h.stopping, h.fresh, h.single, h.known, h.stored⟩
        exact rest.conclude ..
      · exact h
  | recoverInterrupted now => exact h.stored_by (.of_recoverAll _ c.db now)
  | begin i | receive i event review now | notified i answer review now | close i answer now
  | shield i | stopped i answer now =>
      dsimp only
      split
      · rename_i p found
        exact h.pump notifier found _
      · exact h

theorem empty (repositories : Table RepositoryRow) :
    Watched (Coordinator.empty repositories) where
  sound := sound_empty repositories
  registered _ _ launched := absurd launched List.not_mem_nil
  watched _ _ launched := absurd launched List.not_mem_nil
  stopping _ mem := absurd mem List.not_mem_nil
  fresh _ mem := absurd mem List.not_mem_nil
  single := .nil
  known _ mem := absurd mem List.not_mem_nil
  stored _ _ registered := nomatch registered

end Watched

/-- Along every interleaving in which the backend answers each successful launch while
the run is still in preparation, no provider process is left without supervision. -/
theorem no_unsupervised_process (repositories : Table RepositoryRow) (notifier : Bool)
    (as : List Coordinator.Action)
    (prepared : Run.Along (Coordinator.step notifier) LaunchesPrepared
      (Coordinator.empty repositories) as) :
    (Run.exec (Coordinator.step notifier) (Coordinator.empty repositories) as).Supervised :=
  (prepared.preserves (I := Watched) (.empty repositories)
    fun _ a h prepared => h.step notifier a prepared).supervised

namespace Sample

/-- A start whose ports all answer well. -/
def preparation : Preparation where
  policyDigest := ""
  skill := true
  headSha := some (String.ofList (List.replicate 40 'a'))
  evidence := true
  worktree := .returned ()

/-- A run is started and launched, and cancelled while its provider works. -/
def supervised : List Coordinator.Action :=
  [.start "tenant" request none "run" preparation 0, .launch 0 (.returned "handle") 1, .begin 0,
    .cancel "tenant" "run" 2, .conclude 0 (.returned true) 3]

/-- A run is cancelled while the backend launches its provider. -/
def unsupervised : List Coordinator.Action :=
  [.start "tenant" request none "run" preparation 0, .cancel "tenant" "run" 1,
    .launch 0 (.returned "handle") 2]

end Sample

theorem no_unsupervised_process_sample :
    (Run.exec (Coordinator.step false) (Coordinator.empty Sample.repositories)
      Sample.supervised).Supervised := by
  refine no_unsupervised_process Sample.repositories false Sample.supervised ?_
  have preparing : ∃ row ∈ (Run.exec (Coordinator.step false)
      (Coordinator.empty Sample.repositories) (Sample.supervised.take 1)).db.runs.rows,
      row.id = "run" ∧ row.status = .preparing := by decide
  have starting : (Run.exec (Coordinator.step false) (Coordinator.empty Sample.repositories)
      (Sample.supervised.take 1)).starting = [⟨"tenant", "run"⟩] := by decide
  refine ⟨trivial, fun s found => ?_, trivial, trivial, trivial, trivial⟩
  have waits : (Run.exec (Coordinator.step false) (Coordinator.empty Sample.repositories)
      (Sample.supervised.take 1)).starting[0]? = some s := found
  rw [starting] at waits
  obtain rfl : _ = s := Option.some.inj waits
  exact preparing

/-- The provider is launched for a run that has been interrupted, and runs on alone. -/
theorem launched_after_cancel :
    ¬ ∀ (repositories : Table RepositoryRow) (notifier : Bool) (as : List Coordinator.Action),
      (Run.exec (Coordinator.step notifier) (Coordinator.empty repositories) as).Supervised := by
  intro supervised
  have launched : (Run.exec (Coordinator.step false) (Coordinator.empty Sample.repositories)
      Sample.unsupervised).backend.launched = [("run", "handle")] := by decide
  have alone : (Run.exec (Coordinator.step false) (Coordinator.empty Sample.repositories)
      Sample.unsupervised).pumps.length = 0 := by decide
  have neither : (Run.exec (Coordinator.step false) (Coordinator.empty Sample.repositories)
      Sample.unsupervised).backend.ended = [] ∧ (Run.exec (Coordinator.step false)
        (Coordinator.empty Sample.repositories) Sample.unsupervised).backend.stopped = [] := by
    decide
  have interrupted : ∃ row ∈ (Run.exec (Coordinator.step false)
      (Coordinator.empty Sample.repositories) Sample.unsupervised).db.runs.rows,
      row.id = "run" ∧ row.status ∈ [RunStatus.cancelled, .interrupted, .failed] := by
    decide
  have lapsed := supervised Sample.repositories false Sample.unsupervised "run" "handle"
    (by rw [launched]; exact List.mem_cons_self) interrupted
    (by rw [List.length_eq_zero_iff.mp alone]; simp)
  rw [neither.1, neither.2] at lapsed
  simp at lapsed

end Corvus.Runs
