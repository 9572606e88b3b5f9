import Corvus.Library.Run
import Corvus.Runs.Store

/-!
# What one step does to the run store

Each method is read backwards once, from a result to what it found and wrote. `Effect`
then lists everything a step of an interleaving can do, and `effect_of_step` is the
only place where the methods are unfolded.
-/

namespace Corvus.Runs

/-! ## The methods, read backwards -/

namespace Db

variable {db after : Db} {tenantId runId : String} {target : RunStatus} {row current : RunRow}
  {now : Instant}

theorem get_eq_ok :
    db.get tenantId runId = .ok row ↔ row ∈ db.runs ∧ row.id = runId ∧ row.tenantId = tenantId := by
  have find : db.runs.get? runId = some row ↔ row ∈ db.runs ∧ row.id = runId := Table.get?_eq_some
  unfold get
  split
  · rename_i r h
    rw [Option.filter_eq_some_iff, decide_eq_true_iff] at h
    constructor
    · intro same
      cases same
      obtain ⟨mem, id⟩ := Table.get?_eq_some.mp h.1
      exact ⟨mem, id, h.2⟩
    · rintro ⟨mem, id, tenant⟩
      have := find.mpr ⟨mem, id⟩
      rw [h.1] at this
      rw [Option.some.inj this]
  · rename_i h
    constructor
    · nofun
    · rintro ⟨mem, id, tenant⟩
      rw [find.mpr ⟨mem, id⟩] at h
      simp [tenant] at h

theorem check_eq_ok : db.check tenantId runId target = .ok current ↔
    (current ∈ db.runs ∧ current.id = runId ∧ current.tenantId = tenantId) ∧
      target ∈ TRANSITIONS current.status := by
  simp only [check, bind_eq_ok, require_eq_ok, get_eq_ok]
  constructor
  · rintro ⟨row, found, _, allowed, same⟩
    cases same
    exact ⟨found, allowed⟩
  · rintro ⟨found, allowed⟩
    exact ⟨current, found, (), allowed, rfl⟩

/-- What `create` has made sure of when it inserts a run. -/
theorem insertRun_eq_some (h : db.insertRun row = some after) :
    db.rival row = false ∧ ∃ runs : Table RunRow, runs.rows = db.runs.rows ++ [row] ∧
      after = { db with runs } := by
  unfold insertRun at h
  split at h
  · cases h
  split at h
  · cases h
  split at h
  · cases h
  split at h
  · cases h
  · rename_i calm
    obtain ⟨runs, inserted, rfl⟩ := Option.map_eq_some_iff.mp h
    exact ⟨by simpa using calm, runs, (Table.insert?_eq_some.mp inserted).2, rfl⟩

theorem create_eq_ok {request : StartRunRequest} {baseSha : String} {retryOfRunId : Option String}
    (h : db.create tenantId request baseSha runId retryOfRunId now = .ok after) :
    db.insertRun (preparing tenantId request baseSha runId retryOfRunId now) = some after := by
  unfold create at h
  simp only [bind_eq_ok] at h
  obtain ⟨_, _, _, _, _, _, h⟩ := h
  split at h
  · rename_i inserted
    cases h
    exact inserted
  · cases h

/-- The `UPDATE` finds one row at most, the one with the id. -/
theorem found_rows (found : RunRow → Bool) (ids : ∀ r, found r = true → r.id = runId)
    (mem : row ∈ db.runs) (hit : found row = true) : db.runs.rows.filter found = [row] := by
  have nodup : (db.runs.rows.filter found).Nodup := (List.Nodup.of_map _ db.runs.nodup).filter _
  have only : ∀ r ∈ db.runs.rows.filter found, r = row := by
    intro r hr
    obtain ⟨hr, hit'⟩ := List.mem_filter.mp hr
    exact Table.eq_of_key hr mem ((ids r hit').trans (ids row hit).symm)
  have here : row ∈ db.runs.rows.filter found := List.mem_filter.mpr ⟨mem, hit⟩
  generalize db.runs.rows.filter found = l at *
  match l, here with
  | [r], _ => rw [only r List.mem_cons_self]
  | r :: q :: l, _ =>
      have := only r List.mem_cons_self
      have := only q (List.mem_cons_of_mem r List.mem_cons_self)
      simp_all

/-- The row that the `UPDATE` of a call is meant for, in the status that the call read. -/
def Unchanged (db : Db) (tenantId runId : String) (current row : RunRow) : Prop :=
  row ∈ db.runs ∧ row.id = runId ∧ row.tenantId = tenantId ∧ row.status = current.status

/-- The values that the `UPDATE` sets. -/
def values (target : RunStatus) (current : RunRow) (now : Instant) : Rewrite RunRow :=
  moved target now (if target = .running ∧ current.startedAt = none then some now else none)
    (if target ∈ TERMINAL then some now else none)

/-- Where no index refuses it, a write moves the row that still has the status read. -/
theorem write_of_unchanged (h : db.Unchanged tenantId runId current row)
    (calm : db.rival { row with status := target } = false) :
    db.write tenantId runId target current now = .ok { db with
      runs := db.runs.update (fun r => decide (key r = key row)) (values target current now) } := by
  obtain ⟨mem, id, tenant, status⟩ := h
  have same : ∀ r ∈ db.runs, r.id = runId → r = row := by
    intro r hr h
    exact Table.eq_of_key hr mem (h.trans id.symm)
  have rows := @found_rows _ runId _
    (fun r => decide (r.id = runId ∧ r.tenantId = tenantId ∧ r.status = current.status))
    (fun r h => (of_decide_eq_true h).1) mem (decide_eq_true ⟨id, tenant, status⟩)
  have free : ¬ (db.runs.rows.any fun r =>
      decide (r.id = runId ∧ r.tenantId = tenantId ∧ r.status = current.status) &&
        db.rival { r with status := target }) = true := by
    intro h
    obtain ⟨r, hr, h⟩ := List.any_eq_true.mp h
    simp only [Bool.and_eq_true, decide_eq_true_iff] at h
    rw [same r hr h.1.1, calm] at h
    simp at h
  unfold write
  simp only [if_neg free]
  rw [rows, if_neg (by simp)]
  congr 2
  apply Table.ext
  rw [Table.rows_update, Table.rows_update]
  apply List.map_congr_left
  intro r hr
  by_cases hit : r.id = runId
  · rw [same r hr hit]
    simp [id, tenant, status, values]
  · have other : key r ≠ key row := fun h => hit (h.trans id)
    simp [hit, other]

/-- Where no row has the status that was read, a write raises. -/
theorem write_of_changed (h : ∀ row, ¬ db.Unchanged tenantId runId current row) :
    db.write tenantId runId target current now = .error (.conflict "run_transition_conflict") := by
  have none_found : ∀ r ∈ db.runs.rows,
      ¬ (r.id = runId ∧ r.tenantId = tenantId ∧ r.status = current.status) :=
    fun r hr found => h r ⟨hr, found⟩
  have rows : (db.runs.rows.filter fun r =>
      decide (r.id = runId ∧ r.tenantId = tenantId ∧ r.status = current.status)) = [] := by
    rw [List.filter_eq_nil_iff]
    intro r hr found
    exact none_found r hr (of_decide_eq_true found)
  have free : ¬ (db.runs.rows.any fun r =>
      decide (r.id = runId ∧ r.tenantId = tenantId ∧ r.status = current.status) &&
        db.rival { r with status := target }) = true := by
    intro h
    obtain ⟨r, hr, h⟩ := List.any_eq_true.mp h
    rw [Bool.and_eq_true, decide_eq_true_iff] at h
    exact none_found r hr h.1
  unfold write
  simp only [if_neg free, rows]
  rw [if_pos (by simp)]

theorem appendEvent_eq_ok {eventType : String} {payload : List (String × Json)}
    (h : db.appendEvent runId eventType payload now = .ok after) :
    ∃ events : Table RunEventRow, after = { db with events } ∧ events.rows = db.events.rows ++
      [⟨runId, db.nextSequence runId, eventType, encoded payload, now⟩] := by
  unfold appendEvent at h
  simp only [bind_eq_ok] at h
  obtain ⟨_, _, _, _, _, _, h⟩ := h
  split at h
  · rename_i events inserted
    cases h
    exact ⟨events, rfl, (Table.insert?_eq_some.mp inserted).2⟩
  · cases h

end Db

/-! ## The effect of a step -/

/-- The record that a call read, once its check has passed. -/
def Phase.current : Phase → Option RunRow
  | checked current | written current | returned current _ | raised current _ => some current
  | refused _ => none

/-- What one step can do, with what it has found before it does it. -/
inductive Effect (s : RunStore) : RunStore → Prop where
  /-- The step raises, or does not concern anybody. -/
  | idle : Effect s s
  | created (r : RunRow) (runs : Table RunRow) (rows : runs.rows = s.db.runs.rows ++ [r])
      (calm : s.db.rival r = false) (status : r.status = .preparing)
      (unstarted : r.startedAt = none) (unfinished : r.finishedAt = none) :
      Effect s { s with db := { s.db with runs } }
  | asked (t : Transition) (phase : (∃ current, t.phase = .checked current ∧
      (current ∈ s.db.runs ∧ current.id = t.runId ∧ current.tenantId = t.tenantId) ∧
        t.target ∈ TRANSITIONS current.status) ∨ ∃ e, t.phase = .refused e) :
      Effect s { s with calls := s.calls ++ [t] }
  | moved (call : Nat) (t : Transition) (current row : RunRow) (now : Instant)
      (made : s.calls[call]? = some t) (phase : t.phase = .checked current)
      (unchanged : s.db.Unchanged t.tenantId t.runId current row)
      (calm : s.db.rival { row with status := t.target } = false) :
      Effect s {
        db := { s.db with
          runs := s.db.runs.update (fun r => decide (key r = key row))
            (Db.values t.target current now) }
        calls := s.calls.set call { t with phase := .written current } }
  | raised (call : Nat) (t : Transition) (current : RunRow) (e : RunStoreError)
      (made : s.calls[call]? = some t) (phase : t.phase = .checked current)
      (reason : e = .conflict "run_transition_conflict" ∧
          (∀ row, ¬ s.db.Unchanged t.tenantId t.runId current row) ∨
        ∃ row, s.db.Unchanged t.tenantId t.runId current row ∧
          s.db.rival { row with status := t.target } = true) :
      Effect s { s with calls := s.calls.set call { t with phase := .raised current e } }
  | got (call : Nat) (t : Transition) (current : RunRow) (after : Phase)
      (made : s.calls[call]? = some t) (phase : t.phase = .written current)
      (result : (∃ row, after = .returned current row) ∨ after = .raised current
        (.notFound "run_not_found") ∧ ∀ row ∈ s.db.runs, row.id = t.runId → row.tenantId ≠ t.tenantId) :
      Effect s { s with calls := s.calls.set call { t with phase := after } }
  | appended (e : RunEventRow) (events : Table RunEventRow)
      (rows : events.rows = s.db.events.rows ++ [e])
      (next : e.sequence = s.db.nextSequence e.runId) : Effect s { s with db := { s.db with events } }

section Effect

variable {s : RunStore} {t : Transition} {call : Nat}

theorem modify_of_some {f : Transition → Transition} (h : s.calls[call]? = some t) :
    s.calls.modify call f = s.calls.set call (f t) := by
  apply List.ext_getElem?
  intro i
  rw [List.getElem?_modify, List.getElem?_set]
  by_cases same : call = i
  · subst same
    obtain ⟨inside, at_call⟩ := List.getElem?_eq_some_iff.mp h
    simp [inside, at_call]
  · simp [same]

theorem modify_of_none {f : Transition → Transition} (h : s.calls[call]? = none) :
    s.calls.modify call f = s.calls :=
  List.modify_eq_self (List.getElem?_eq_none_iff.mp h)

theorem set_self (h : s.calls[call]? = some t) : s.calls.set call t = s.calls := by
  apply List.ext_getElem?
  intro i
  rw [List.getElem?_set]
  by_cases same : call = i
  · subst same
    obtain ⟨inside, at_call⟩ := List.getElem?_eq_some_iff.mp h
    simp [inside, at_call]
  · simp [same]

theorem effect_of_write (h : s.calls[call]? = some t) (now : Instant) :
    Effect s (s.step (.write call now)) := by
  have step : s.step (.write call now) =
      ⟨t.write s.db now, s.calls.set call (t.afterWrite s.db now)⟩ := by
    simp only [RunStore.step, h, modify_of_some h, Option.map_some, Option.getD_some]
  rw [step]
  cases phase : t.phase with
  | checked current =>
      simp only [Transition.write, Transition.afterWrite, phase]
      by_cases unchanged : ∃ row, s.db.Unchanged t.tenantId t.runId current row
      · obtain ⟨row, unchanged⟩ := unchanged
        cases calm : s.db.rival { row with status := t.target } with
        | false =>
            rw [Db.write_of_unchanged unchanged calm]
            exact .moved call t current row now h phase unchanged calm
        | true =>
            cases result : s.db.write t.tenantId t.runId t.target current now with
            | error e =>
                exact .raised call t current e h phase (.inr ⟨row, unchanged, calm⟩)
            | ok after =>
                have refused : (s.db.runs.rows.any fun r => decide (r.id = t.runId ∧
                    r.tenantId = t.tenantId ∧ r.status = current.status) &&
                      s.db.rival { r with status := t.target }) = true := by
                  rw [List.any_eq_true]
                  refine ⟨row, unchanged.1, ?_⟩
                  rw [calm, Bool.and_true, decide_eq_true_iff]
                  exact unchanged.2
                simp only [Db.write, if_pos refused] at result
                cases result
      · rw [Db.write_of_changed fun row h => unchanged ⟨row, h⟩]
        exact .raised call t current _ h phase (.inl ⟨rfl, fun row h => unchanged ⟨row, h⟩⟩)
  | written current | returned current result | refused error | raised current error =>
      simp only [Transition.write, Transition.afterWrite, phase, set_self h]
      exact .idle

theorem effect_of_get (h : s.calls[call]? = some t) : Effect s (s.step (.get call)) := by
  have step : s.step (.get call) = { s with calls := s.calls.set call (t.afterGet s.db) } := by
    simp only [RunStore.step, modify_of_some h]
  rw [step]
  cases phase : t.phase with
  | written current =>
      simp only [Transition.afterGet, phase]
      refine .got call t current _ h phase ?_
      cases got : s.db.get t.tenantId t.runId with
      | ok row => exact .inl ⟨row, rfl⟩
      | error e =>
          refine .inr ⟨?_, fun row mem id tenant => ?_⟩
          · unfold Db.get at got
            split at got
            · cases got
            · cases got
              rfl
          · rw [Db.get_eq_ok.mpr ⟨mem, id, tenant⟩] at got
            cases got
  | checked current | returned current result | refused error | raised current error =>
      simp only [Transition.afterGet, phase, set_self h]
      exact .idle

/-- Every step has one of the listed effects. -/
theorem effect_of_step (s : RunStore) (a : Action) : Effect s (s.step a) := by
  cases a with
  | create tenantId request baseSha runId retryOfRunId now =>
      cases result : s.db.create tenantId request baseSha runId retryOfRunId now with
      | error e =>
          simp only [RunStore.step, result, committed]
          exact .idle
      | ok after =>
          obtain ⟨calm, runs, rows, rfl⟩ := Db.insertRun_eq_some (Db.create_eq_ok result)
          simp only [RunStore.step, result, committed]
          exact .created _ runs rows calm rfl rfl rfl
  | transition tenantId runId target =>
      refine .asked (.start s.db tenantId runId target) ?_
      cases result : s.db.check tenantId runId target with
      | error e => exact .inr ⟨e, by simp only [Transition.start, result]⟩
      | ok current =>
          exact .inl ⟨current, by simp only [Transition.start, result], Db.check_eq_ok.mp result⟩
  | write call now =>
      cases h : s.calls[call]? with
      | some t => exact effect_of_write h now
      | none =>
          simp only [RunStore.step, h, modify_of_none h, Option.map_none, Option.getD_none]
          exact .idle
  | get call =>
      cases h : s.calls[call]? with
      | some t => exact effect_of_get h
      | none =>
          simp only [RunStore.step, modify_of_none h]
          exact .idle
  | appendEvent runId eventType payload now =>
      cases result : s.db.appendEvent runId eventType payload now with
      | error e =>
          simp only [RunStore.step, result, committed]
          exact .idle
      | ok after =>
          obtain ⟨events, rfl, rows⟩ := Db.appendEvent_eq_ok result
          simp only [RunStore.step, result, committed]
          exact .appended _ events rows rfl

end Effect

end Corvus.Runs
