import Corvus.Library.Log
import Corvus.Library.Walk
import Corvus.Runs.Steps

/-!
# The lifecycle of a run under concurrent writers

`transition` reads and writes on separate connections, and its write asks only whether
the status is still the one that was read. The row invariants below do not depend on
who wrote in between. How often a status can be won does: a run returns from publishing
to contribution_ready and back, and a call that read either status before the run left
it still succeeds once the run has returned.
-/

namespace Corvus.Runs

open RunStore

/-! ## The transition table -/

theorem ne_preparing_of_transition {a b : RunStatus} (h : b ∈ TRANSITIONS a) :
    b ≠ .preparing := by
  cases a <;> cases b <;> simp_all [TRANSITIONS]

theorem preparing_of_running {a : RunStatus} (h : .running ∈ TRANSITIONS a) :
    a = .preparing := by
  cases a <;> simp_all [TRANSITIONS]

theorem terminal_of_transition {a b : RunStatus} (h : b ∈ TRANSITIONS a) (ha : a ∈ TERMINAL) :
    b ∈ TERMINAL := by
  cases a <;> cases b <;> simp_all [TRANSITIONS, TERMINAL]

theorem active_of_transition {a b : RunStatus} (h : b ∈ TRANSITIONS a) (hb : b.active = true) :
    a.active = true := by
  cases a <;> cases b <;> simp_all [TRANSITIONS, RunStatus.active]

theorem ne_of_transition {a b : RunStatus} (h : b ∈ TRANSITIONS a) : a ≠ b := by
  cases a <;> cases b <;> simp_all [TRANSITIONS]

/-- How far a run is: no transition goes back, except between the two statuses of a
contribution. -/
def RunStatus.rank : RunStatus → Nat
  | preparing => 0
  | running => 1
  | reviewRequired => 2
  | contributionReady | publishing => 3
  | published | completed | cancelled | interrupted | failed => 4
  | discarded => 5

/-- The statuses that a run can leave and enter again. -/
def RunStatus.reentrant : RunStatus → Bool
  | contributionReady | publishing => true
  | _ => false

theorem rank_le_of_transition {a b : RunStatus} (h : b ∈ TRANSITIONS a) : a.rank ≤ b.rank := by
  cases a <;> cases b <;> simp_all [TRANSITIONS, RunStatus.rank]

theorem rank_lt_of_transition {a b : RunStatus} (h : b ∈ TRANSITIONS a)
    (once : a.reentrant = false) : a.rank < b.rank := by
  cases a <;> cases b <;> simp_all [TRANSITIONS, RunStatus.rank, RunStatus.reentrant]

/-! ## Rows -/

/-- How the timestamps of a row go with its status. -/
structure Shaped (r : RunRow) : Prop where
  prepared : r.status = .preparing → r.startedAt = none
  running : r.status = .running → r.startedAt.isSome
  finished : r.finishedAt.isSome ↔ r.status ∈ TERMINAL

variable {s s' : RunStore} {db : Db} {row current : RunRow} {target : RunStatus} {now : Instant}

@[simp] theorem values_status : (Db.values target current now row).status = target := rfl

theorem values_startedAt : (Db.values target current now row).startedAt =
    (row.startedAt <|> if target = .running ∧ current.startedAt = none then some now else none) :=
  rfl

theorem values_finishedAt : (Db.values target current now row).finishedAt =
    (row.finishedAt <|> if target ∈ TERMINAL then some now else none) := rfl

/-- A timestamp that is set stays. -/
theorem values_keeps {t : Instant} (h : row.finishedAt = some t) :
    (Db.values target current now row).finishedAt = some t := by
  rw [values_finishedAt, h]
  rfl

/-- A move out of the status that was read keeps the timestamps in step. -/
theorem Shaped.moved (h : Shaped row) (read : Shaped current)
    (status : row.status = current.status) (allowed : target ∈ TRANSITIONS current.status) :
    Shaped (Db.values target current now row) where
  prepared initial := absurd initial (ne_preparing_of_transition allowed)
  running := by
    rw [values_status, values_startedAt]
    rintro rfl
    rw [if_pos ⟨rfl, read.prepared (preparing_of_running allowed)⟩]
    cases row.startedAt <;> simp
  finished := by
    rw [values_status, values_finishedAt]
    by_cases final : target ∈ TERMINAL
    · rw [if_pos final]
      cases row.finishedAt <;> simp [final]
    · have open_ : row.finishedAt = none := by
        rw [← Option.not_isSome_iff_eq_none, h.finished, status]
        exact fun ended => final (terminal_of_transition allowed ended)
      simp [open_, final]

/-- A row after a move is the moved row or another one that has not changed. -/
theorem mem_moved {runs : Table RunRow} {f : Rewrite RunRow} (mem : row ∈ runs) {r : RunRow} :
    r ∈ runs.update (fun r => decide (key r = key row)) f ↔
      r = f row ∨ r ∈ runs ∧ r.id ≠ row.id := by
  rw [Table.mem_update]
  constructor
  · rintro ⟨q, hq, rfl⟩
    by_cases same : q.id = row.id
    · rw [Table.eq_of_key hq mem same]
      simp
    · have other : key q ≠ key row := same
      simp [other, hq, same]
  · rintro (rfl | ⟨mem', other⟩)
    · exact ⟨row, mem, by simp⟩
    · have other' : key r ≠ key row := other
      exact ⟨r, mem', by simp [other']⟩

/-- No two active runs of one schedule, which the partial index stands for. -/
def Exclusive (db : Db) : Prop :=
  ∀ r ∈ db.runs, ∀ q ∈ db.runs, r.scheduleId.isSome → r.scheduleId = q.scheduleId →
    r.status.active → q.status.active → r.id = q.id

/-- An allowed move of a run never meets the index. -/
theorem Exclusive.calm (h : Exclusive db) (mem : row ∈ db.runs)
    (allowed : target ∈ TRANSITIONS row.status) :
    db.rival { row with status := target } = false := by
  rw [Bool.eq_false_iff]
  intro rival
  simp only [Db.rival, Bool.and_eq_true, List.any_eq_true, decide_eq_true_iff] at rival
  obtain ⟨⟨scheduled, active⟩, q, hq, ⟨other, schedule⟩, active'⟩ := rival
  exact other (h row mem q hq scheduled schedule.symm
    (active_of_transition allowed active) active').symm

/-! ## The store at any time -/

/-- What a call of `transition` knows once its check has passed. -/
structure Asked (db : Db) (t : Transition) (current : RunRow) : Prop where
  shaped : Shaped current
  allowed : t.target ∈ TRANSITIONS current.status
  run : ∃ r ∈ db.runs, r.id = t.runId ∧ r.tenantId = t.tenantId

/-- The sequences of the events of a run, in the order of their insertion. -/
def sequences (db : Db) (id : String) : List Nat :=
  (db.events.rows.filter (·.runId = id)).map (·.sequence)

/-- What holds of the store between any two steps. -/
structure Sound (s : RunStore) : Prop where
  shaped : ∀ r ∈ s.db.runs, Shaped r
  exclusive : Exclusive s.db
  asked : ∀ t ∈ s.calls, ∀ current, t.phase.current = some current → Asked s.db t current
  conflicts : ∀ t ∈ s.calls, ∀ current e, t.phase = .raised current e →
    e = .conflict "run_transition_conflict"
  numbered : ∀ id, sequences s.db id = List.range' 1 (sequences s.db id).length

theorem sound_empty (repositories : Table RepositoryRow) : Sound (empty repositories) where
  shaped _ mem := absurd mem Table.not_mem_empty
  exclusive _ mem := absurd mem Table.not_mem_empty
  asked _ mem := absurd mem List.not_mem_nil
  conflicts _ mem := absurd mem List.not_mem_nil
  numbered _ := rfl

/-- A row stays in the table, and with it the time at which its run ended. -/
theorem Effect.persists (e : Effect s s') {r : RunRow} (mem : r ∈ s.db.runs) :
    ∃ r' ∈ s'.db.runs, r'.id = r.id ∧ r'.tenantId = r.tenantId ∧
      ∀ t, r.finishedAt = some t → r'.finishedAt = some t := by
  cases e with
  | created q runs rows =>
      refine ⟨r, ?_, rfl, rfl, fun t h => h⟩
      rw [Table.mem_iff, rows]
      exact List.mem_append_left _ mem
  | moved call t current row now made phase unchanged calm =>
      by_cases same : r.id = row.id
      · rw [Table.eq_of_key mem unchanged.1 same]
        exact ⟨_, (mem_moved unchanged.1).mpr (.inl rfl), rfl, rfl, fun t h => values_keeps h⟩
      · exact ⟨r, (mem_moved unchanged.1).mpr (.inr ⟨mem, same⟩), rfl, rfl, fun t h => h⟩
  | idle | asked | raised | got | appended => exact ⟨r, mem, rfl, rfl, fun t h => h⟩

theorem Asked.later {t : Transition} (e : Effect s s') (h : Asked s.db t current) :
    Asked s'.db t current := by
  obtain ⟨r, mem, id, tenant⟩ := h.run
  obtain ⟨r', mem', id', tenant', _⟩ := e.persists mem
  exact ⟨h.shaped, h.allowed, r', mem', id'.trans id, tenant'.trans tenant⟩

/-- The call at work in a step that moves or ends it. -/
theorem Sound.at (h : Sound s) {call : Nat} {t : Transition} (made : s.calls[call]? = some t)
    (phase : t.phase.current = some current) : Asked s.db t current :=
  h.asked t (List.mem_of_getElem? made) current phase

/-- The row that a call finds in the status it has read may be moved. -/
theorem Sound.allowed (h : Sound s) {call : Nat} {t : Transition} (made : s.calls[call]? = some t)
    (phase : t.phase = .checked current)
    (unchanged : s.db.Unchanged t.tenantId t.runId current row) :
    t.target ∈ TRANSITIONS row.status := by
  rw [unchanged.2.2.2]
  exact (h.at made (by rw [phase]; rfl)).allowed

theorem Sound.shaped_step (h : Sound s) (e : Effect s s') : ∀ r ∈ s'.db.runs, Shaped r := by
  cases e with
  | created q runs rows calm status unstarted unfinished =>
      intro r mem
      rw [Table.mem_iff, rows, List.mem_append, List.mem_singleton] at mem
      rcases mem with mem | rfl
      · exact h.shaped r mem
      · exact ⟨fun _ => unstarted, by simp [status], by simp [unfinished, status, TERMINAL]⟩
  | moved call t current row now made phase unchanged calm =>
      have asked := h.at made (by rw [phase]; rfl)
      intro r mem
      rcases (mem_moved unchanged.1).mp mem with rfl | ⟨mem, _⟩
      · exact (h.shaped row unchanged.1).moved asked.shaped unchanged.2.2.2 asked.allowed
      · exact h.shaped r mem
  | idle | asked | raised | got | appended => exact h.shaped

theorem Sound.exclusive_step (h : Sound s) (e : Effect s s') : Exclusive s'.db := by
  cases e with
  | created q runs rows calm status unstarted unfinished =>
      -- the index has refused a second active run of the schedule
      have alone : ∀ r ∈ s.db.runs, q.scheduleId.isSome → r.scheduleId = q.scheduleId →
          r.status.active → r.id = q.id := by
        intro r mem scheduled same active
        by_contra other
        have rival : s.db.rival q = true := by
          simp only [Db.rival, Bool.and_eq_true, List.any_eq_true, decide_eq_true_iff]
          exact ⟨⟨scheduled, by rw [status]; rfl⟩, r, mem, ⟨other, same⟩, active⟩
        rw [rival] at calm
        cases calm
      have mem_rows : ∀ r : RunRow, r ∈ runs ↔ r ∈ s.db.runs ∨ r = q := by
        intro r
        rw [Table.mem_iff, rows, List.mem_append, List.mem_singleton]
        rfl
      intro r mem r' mem' scheduled same active active'
      rcases (mem_rows r).mp mem with mem | rfl
      · rcases (mem_rows r').mp mem' with mem' | rfl
        · exact h.exclusive r mem r' mem' scheduled same active active'
        · exact alone r mem (same ▸ scheduled) same active
      · rcases (mem_rows r').mp mem' with mem' | rfl
        · exact (alone r' mem' scheduled same.symm active').symm
        · rfl
  | moved call t current row now made phase unchanged calm =>
      have allowed := h.allowed made phase unchanged
      have before : ∀ r, r ∈ s.db.runs.update (fun r => decide (key r = key row))
          (Db.values t.target current now) → ∃ q ∈ s.db.runs, q.id = r.id ∧
            q.scheduleId = r.scheduleId ∧ (r.status.active → q.status.active) := by
        intro r mem
        rcases (mem_moved unchanged.1).mp mem with rfl | ⟨mem, _⟩
        · exact ⟨row, unchanged.1, rfl, rfl, active_of_transition allowed⟩
        · exact ⟨r, mem, rfl, rfl, id⟩
      intro r mem r' mem' scheduled same active active'
      obtain ⟨q, hq, id, schedule, keeps⟩ := before r mem
      obtain ⟨q', hq', id', schedule', keeps'⟩ := before r' mem'
      rw [← id, ← id']
      exact h.exclusive q hq q' hq' (schedule ▸ scheduled) (by rw [schedule, schedule', same])
        (keeps active) (keeps' active')
  | idle | asked | raised | got | appended => exact h.exclusive

/-- A call after a step was there before it, has just been made, or is the one at work,
whose check had passed. -/
theorem Effect.call_cases (e : Effect s s') {t' : Transition} (mem : t' ∈ s'.calls) :
    t' ∈ s.calls ∨ (∃ e, t'.phase = .refused e) ∨
      (∃ current, t'.phase = .checked current ∧ (current ∈ s.db.runs ∧ current.id = t'.runId ∧
        current.tenantId = t'.tenantId) ∧ t'.target ∈ TRANSITIONS current.status) ∨
      ∃ t ∈ s.calls, t.runId = t'.runId ∧ t.tenantId = t'.tenantId ∧ t.target = t'.target ∧
        t.phase.current = t'.phase.current := by
  cases e with
  | asked t phase =>
      rcases List.mem_append.mp mem with mem | mem
      · exact .inl mem
      · rw [List.mem_singleton] at mem
        subst mem
        rcases phase with ⟨current, phase, found⟩ | ⟨e, phase⟩
        · exact .inr (.inr (.inl ⟨current, phase, found⟩))
        · exact .inr (.inl ⟨e, phase⟩)
  | moved call t current row now made phase =>
      rcases List.mem_or_eq_of_mem_set mem with mem | rfl
      · exact .inl mem
      · exact .inr (.inr (.inr ⟨t, List.mem_of_getElem? made, rfl, rfl, rfl, by rw [phase]; rfl⟩))
  | raised call t current e made phase =>
      rcases List.mem_or_eq_of_mem_set mem with mem | rfl
      · exact .inl mem
      · exact .inr (.inr (.inr ⟨t, List.mem_of_getElem? made, rfl, rfl, rfl, by rw [phase]; rfl⟩))
  | got call t current after made phase result =>
      rcases List.mem_or_eq_of_mem_set mem with mem | rfl
      · exact .inl mem
      · refine .inr (.inr (.inr ⟨t, List.mem_of_getElem? made, rfl, rfl, rfl, ?_⟩))
        rcases result with ⟨row, rfl⟩ | ⟨rfl, _⟩ <;> rw [phase] <;> rfl
  | idle | created | appended => exact .inl mem

theorem Sound.asked_step (h : Sound s) (e : Effect s s') :
    ∀ t ∈ s'.calls, ∀ current, t.phase.current = some current → Asked s'.db t current := by
  intro t mem current phase
  rcases e.call_cases mem with mem | ⟨_, refused⟩ | ⟨read, checked, ⟨mem, found⟩, allowed⟩ |
    ⟨t', mem, run, tenant, target, same⟩
  · exact (h.asked t mem current phase).later e
  · rw [refused] at phase
    cases phase
  · rw [checked] at phase
    obtain rfl : read = current := Option.some.inj phase
    have asked : Asked s.db t read := ⟨h.shaped read mem, allowed, read, mem, found⟩
    exact asked.later e
  · have asked := h.asked t' mem current (same.trans phase)
    have renamed : Asked s.db t current :=
      ⟨asked.shaped, target ▸ asked.allowed, run ▸ tenant ▸ asked.run⟩
    exact renamed.later e

/-- A write that finds the status it has read is not refused, and the run is still there
when the call reads it back: only the changed status makes a call raise. -/
theorem Sound.conflicts_step (h : Sound s) (e : Effect s s') :
    ∀ t ∈ s'.calls, ∀ current e, t.phase = .raised current e →
      e = .conflict "run_transition_conflict" := by
  intro t mem current error raised
  cases e with
  | asked t' phase =>
      rcases List.mem_append.mp mem with mem | mem
      · exact h.conflicts t mem current error raised
      · rw [List.mem_singleton] at mem
        subst mem
        rcases phase with ⟨current, phase, found⟩ | ⟨e, phase⟩ <;> rw [phase] at raised <;>
          cases raised
  | moved call t' current row now made phase =>
      rcases List.mem_or_eq_of_mem_set mem with mem | rfl
      · exact h.conflicts t mem _ error raised
      · cases raised
  | raised call t' current e made phase reason =>
      rcases List.mem_or_eq_of_mem_set mem with mem | rfl
      · exact h.conflicts t mem _ error raised
      · cases raised
        rcases reason with ⟨conflict, _⟩ | ⟨row, unchanged, rival⟩
        · exact conflict
        · rw [h.exclusive.calm unchanged.1 (h.allowed made phase unchanged)] at rival
          cases rival
  | got call t' current after made phase result =>
      rcases List.mem_or_eq_of_mem_set mem with mem | rfl
      · exact h.conflicts t mem _ error raised
      · rcases result with ⟨row, rfl⟩ | ⟨rfl, missing⟩
        · cases raised
        · obtain ⟨r, mem, id, tenant⟩ := (h.at made (by rw [phase]; rfl)).run
          exact absurd tenant (missing r mem id)
  | idle | created | appended => exact h.conflicts t mem current error raised

theorem foldr_max_range' (n : Nat) : (List.range' 1 n).foldr max 0 = n := by
  have bound : ∀ k start, (List.range' start k).foldr max 0 = if k = 0 then 0 else start + k - 1 := by
    intro k
    induction k with
    | zero => simp
    | succ k ih =>
        intro start
        rw [List.range'_succ, List.foldr_cons, ih]
        by_cases last : k = 0
        · simp [last]
        · simp only [if_neg last, Nat.add_one_ne_zero, if_false]
          omega
  rw [bound]
  split <;> omega

theorem Sound.numbered_step (h : Sound s) (e : Effect s s') :
    ∀ id, sequences s'.db id = List.range' 1 (sequences s'.db id).length := by
  intro id
  cases e with
  | appended event events rows next =>
      have own : sequences { s.db with events } id =
          sequences s.db id ++ if event.runId = id then [event.sequence] else [] := by
        simp only [sequences, rows, List.filter_append, List.map_append]
        by_cases same : event.runId = id
        · simp [same]
        · simp [same]
      rw [own]
      by_cases same : event.runId = id
      · subst same
        have last : event.sequence = (sequences s.db event.runId).length + 1 := by
          rw [next]
          unfold Db.nextSequence
          rw [← sequences, h.numbered, foldr_max_range', List.length_range']
        rw [if_pos rfl, List.length_append, List.length_singleton, List.range'_concat,
          ← h.numbered, last]
        simp [Nat.add_comm]
      · rw [if_neg same, List.append_nil]
        exact h.numbered id
  | idle | created | asked | moved | raised | got => exact h.numbered id

theorem Sound.step (h : Sound s) (a : Action) : Sound (s.step a) :=
  have e := effect_of_step s a
  ⟨h.shaped_step e, h.exclusive_step e, h.asked_step e, h.conflicts_step e, h.numbered_step e⟩

theorem sound_exec (repositories : Table RepositoryRow) (as : List Action) :
    Sound (Run.exec RunStore.step (empty repositories) as) :=
  Run.preserves (sound_empty repositories) (fun _ a h => h.step a) as

/-! ## Readers -/

/-- The events of a run, in the order of their insertion. -/
def RunStore.log (id : String) (s : RunStore) : List RunEventRow :=
  s.db.events.rows.filter (·.runId = id)

theorem Sound.log (h : Sound s) (id : String) : Log (·.sequence) (fun _ _ => True) (s.log id) :=
  Log.of_numbered (by simpa [sequences, RunStore.log] using h.numbered id)

theorem Effect.log_grows (e : Effect s s') (id : String) : s.log id <+: s'.log id := by
  cases e with
  | appended event events rows next =>
      simp only [RunStore.log, rows, List.filter_append]
      exact List.prefix_append _ _
  | idle | created | asked | moved | raised | got => exact List.prefix_rfl

theorem Sound.readEvents (h : Sound s) {tenantId id : String} {n : Nat} {limit : Int}
    {page : List RunEventRow} (ok : s.db.readEvents tenantId id n limit = .ok page) :
    page = ((s.log id).drop n).take limit.toNat := by
  obtain ⟨_, -, rest⟩ := bind_eq_ok.mp ok
  obtain ⟨_, -, rest⟩ := bind_eq_ok.mp rest
  have later : (s.db.events.rows.filter fun e => e.runId = id ∧ (n : Int) < e.sequence) =
      (s.log id).drop n := by
    rw [← (h.log id).filter_gt n, RunStore.log, List.filter_filter]
    simp [Bool.and_comm]
  rw [← Except.ok.inj rest, later, List.mergeSort_of_pairwise]
  refine List.Pairwise.imp (fun lt => decide_eq_true (Nat.le_of_lt lt)) ?_
  exact (h.log id).pairwise.drop

/-- The number of the last event that has been seen. -/
def cursor (seen : List RunEventRow) : Nat := (seen.getLast?.map (·.sequence)).getD 0

/-- Others act, and then a reader asks for the events after the last one that it has seen. -/
def poll (tenantId id : String) (r : RunStore × List RunEventRow) (round : List Action × Int) :
    RunStore × List RunEventRow :=
  let s := Run.exec RunStore.step r.1 round.1
  match s.db.readEvents tenantId id (cursor r.2) round.2 with
  | .ok page => (s, r.2 ++ page)
  | .error _ => (s, r.2)

/-- An answer goes on where the reader has stopped, and one that is shorter than the limit brings
it up to date. -/
theorem Sound.read_on (h : Sound s) {tenantId id : String} {seen page : List RunEventRow}
    {limit : Int} (start : seen <+: s.log id)
    (ok : s.db.readEvents tenantId id (cursor seen) limit = .ok page) :
    seen ++ page <+: s.log id ∧ ((page.length : Int) < limit → seen ++ page = s.log id) := by
  obtain ⟨unseen, all⟩ := start
  have log := h.log id
  rw [← all] at log
  have last : cursor seen = seen.length := log.start.number_getLast?
  have answer := h.readEvents ok
  rw [last, ← all, List.drop_left] at answer
  rw [← all, answer]
  refine ⟨(List.prefix_append_right_inj _).mpr (List.take_prefix _ _), fun short => ?_⟩
  rw [List.length_take] at short
  rw [List.take_of_length_le (by omega)]

/-- Whatever others do between its requests, a reader has seen the first events of the run, each
once and in order, and an answer that is shorter than the limit brings it up to date. -/
theorem reader_complete (repositories : Table RepositoryRow) (tenantId id : String)
    (rounds : List (List Action × Int)) :
    let r := Run.exec (poll tenantId id) (empty repositories, []) rounds
    r.2 <+: r.1.log id ∧ ∀ limit page,
      r.1.db.readEvents tenantId id (cursor r.2) limit = .ok page →
        (page.length : Int) < limit → r.2 ++ page = r.1.log id := by
  intro r
  have kept : Sound r.1 ∧ r.2 <+: r.1.log id := by
    refine Run.preserves (I := fun r : RunStore × List RunEventRow => Sound r.1 ∧ r.2 <+: r.1.log id)
      ⟨sound_empty repositories, List.nil_prefix⟩ ?_ rounds
    rintro ⟨s, seen⟩ ⟨acts, limit⟩ start
    obtain ⟨sound, first⟩ := Run.preserves (I := fun s => Sound s ∧ seen <+: s.log id) start
      (fun s a k => ⟨k.1.step a, k.2.trans ((effect_of_step s a).log_grows id)⟩) acts
    unfold poll
    dsimp only
    split
    · rename_i page ok
      exact ⟨sound, (sound.read_on first ok).1⟩
    · exact ⟨sound, first⟩
  exact ⟨kept.2, fun limit page ok short => (kept.1.read_on kept.2 ok).2 short⟩

/-! ## The statuses of one run -/

/-- The stored status of a run. -/
def RunStore.status? (id : String) (s : RunStore) : Option RunStatus :=
  (s.db.runs.get? id).map (·.status)

/-- The status that a call read, once its check has passed. -/
def Transition.read (t : Transition) : Option RunStatus := t.phase.current.map (·.status)

/-- The call has made its write. -/
def Transition.attempted (t : Transition) : Bool :=
  match t.phase with
  | .written _ | .returned .. | .raised .. => true
  | .checked _ | .refused _ => false

/-- The write of the call has moved the run. -/
def Transition.succeeded (t : Transition) : Bool :=
  match t.phase with
  | .written _ | .returned .. => true
  | .checked _ | .refused _ | .raised .. => false

/-- The call has moved this run out of this status. -/
def Transition.wins (id : String) (status : RunStatus) (t : Transition) : Bool :=
  t.runId = id && t.read = some status && t.succeeded

variable {id : String} {status : RunStatus}

theorem status?_of_mem (mem : row ∈ s.db.runs) : s.status? row.id = some row.status := by
  have found : s.db.runs.get? row.id = some row := Table.get?_of_mem mem
  rw [RunStore.status?, found]
  rfl

theorem status?_created {r : RunRow} {runs : Table RunRow}
    (rows : runs.rows = s.db.runs.rows ++ [r]) :
    RunStore.status? id { s with db := { s.db with runs } } =
      if r.id = id then some r.status else s.status? id := by
  have found : runs.get? id = if r.id = id then some r else s.db.runs.get? id :=
    Table.get?_append rows id
  simp only [RunStore.status?, found]
  split <;> rfl

theorem status?_moved {calls : List Transition} (mem : row ∈ s.db.runs) :
    RunStore.status? id ⟨{ s.db with
      runs := s.db.runs.update (fun r => decide (key r = key row))
        (Db.values target current now) }, calls⟩ =
      if row.id = id then some target else s.status? id := by
  simp only [RunStore.status?, Table.get?_update]
  by_cases same : row.id = id
  · have found : s.db.runs.get? id = some row := same ▸ Table.get?_of_mem mem
    simp [found, same]
  · rw [if_neg same]
    cases found : s.db.runs.get? id with
    | none => rfl
    | some r =>
        have other : key r ≠ key row := fun h =>
          same (h.symm.trans (Table.get?_eq_some.mp found).2)
        simp [other]

theorem countP_set_add {α : Type} {l : List α} {i : Nat} {a b : α} (p : α → Bool)
    (h : l[i]? = some a) :
    (l.set i b).countP p + (if p a then 1 else 0) = l.countP p + if p b then 1 else 0 := by
  obtain ⟨inside, rfl⟩ := List.getElem?_eq_some_iff.mp h
  rw [List.countP_set inside]
  split
  · rename_i counted
    have := List.countP_pos_iff.mpr ⟨_, List.getElem_mem inside, counted⟩
    omega
  · omega

/-- The sequence of the statuses of a run together with the calls that led through it. -/
structure Recorded (s : RunStore) (id : String) (history : List RunStatus) : Prop where
  path : history.IsChain fun a b => b ∈ TRANSITIONS a
  starts : ∀ first ∈ history.head?, first = .preparing
  last : history.getLast? = s.status? id
  wins : ∀ status, s.calls.countP (Transition.wins id status) +
    (if s.status? id = some status then 1 else 0) = history.count status
  reads : ∀ t ∈ s.calls, t.runId = id → ∀ status, t.read = some status → status ∈ history
  won : ∀ t ∈ s.calls, t.runId = id → t.attempted → ∀ status, t.read = some status →
    0 < s.calls.countP (Transition.wins id status)
  started : ∀ r ∈ s.db.runs, r.id = id → (r.startedAt.isSome ↔ .running ∈ history)

namespace Recorded

variable {history : List RunStatus}

theorem empty (repositories : Table RepositoryRow) (id : String) :
    Recorded (RunStore.empty repositories) id [] where
  path := .nil
  starts _ mem := by simp at mem
  last := rfl
  wins _ := rfl
  reads _ mem := absurd mem List.not_mem_nil
  won _ mem := absurd mem List.not_mem_nil
  started _ mem := absurd mem Table.not_mem_empty

/-- The stored status is one of those passed through. -/
theorem current_mem (h : Recorded s id history) (now : s.status? id = some status) :
    status ∈ history :=
  List.mem_of_getLast? (h.last.trans now)

/-- A step that moves no run. -/
theorem quiet (h : Recorded s id history) (runs : s'.db.runs = s.db.runs)
    (wins : ∀ status, s'.calls.countP (Transition.wins id status) =
      s.calls.countP (Transition.wins id status))
    (reads : ∀ t ∈ s'.calls, t.runId = id → ∀ status, t.read = some status → status ∈ history)
    (won : ∀ t ∈ s'.calls, t.runId = id → t.attempted → ∀ status, t.read = some status →
      0 < s.calls.countP (Transition.wins id status)) :
    Recorded s' id (history ++ Run.turn (RunStore.status? id) s s') := by
  have same : s'.status? id = s.status? id := by
    rw [RunStore.status?, runs, RunStore.status?]
  rw [Run.turn, if_pos same.symm, List.append_nil]
  refine ⟨h.path, h.starts, same ▸ h.last, fun status => ?_, reads, fun t mem run tried status read => ?_,
    runs ▸ h.started⟩
  · rw [wins, same]
    exact h.wins status
  · rw [wins]
    exact won t mem run tried status read

theorem created (h : Recorded s id history) {r : RunRow} {runs : Table RunRow}
    (rows : runs.rows = s.db.runs.rows ++ [r]) (initial : r.status = .preparing)
    (unstarted : r.startedAt = none) :
    Recorded { s with db := { s.db with runs } } id
      (history ++ Run.turn (RunStore.status? id) s { s with db := { s.db with runs } }) := by
  have mem_rows : ∀ q : RunRow, q ∈ runs ↔ q ∈ s.db.runs ∨ q = r := by
    intro q
    rw [Table.mem_iff, rows, List.mem_append, List.mem_singleton]
    rfl
  by_cases own : r.id = id
  · have before : s.status? id = none := by
      rw [RunStore.status?, ← own]
      exact congrArg (Option.map _) (Table.get?_eq_none_of_append rows)
    have after : RunStore.status? id { s with db := { s.db with runs } } = some .preparing := by
      rw [status?_created rows, if_pos own, initial]
    have fresh : history = [] := List.getLast?_eq_none_iff.mp (h.last.trans before)
    subst fresh
    have turn : Run.turn (RunStore.status? id) s { s with db := { s.db with runs } } =
        [.preparing] := by
      rw [Run.turn, if_neg (by rw [before, after]; simp), after]
      rfl
    rw [turn, List.nil_append]
    refine ⟨.singleton _, by simp, by rw [after]; rfl, fun status => ?_, fun t mem run status read => ?_,
      h.won, fun q mem run => ?_⟩
    · have none_won : s.calls.countP (Transition.wins id status) = 0 := by
        simpa [before] using h.wins status
      simp [after, none_won, List.count_singleton]
    · have := h.reads t mem run status read
      simp at this
    · rcases (mem_rows q).mp mem with mem | rfl
      · have := status?_of_mem mem
        rw [run, before] at this
        cases this
      · simp [unstarted]
  · have same : RunStore.status? id { s with db := { s.db with runs } } = s.status? id := by
      rw [status?_created rows, if_neg own]
    rw [Run.turn, if_pos same.symm, List.append_nil]
    refine ⟨h.path, h.starts, same ▸ h.last, fun status => ?_, h.reads, h.won, fun q mem run => ?_⟩
    · rw [same]
      exact h.wins status
    · rcases (mem_rows q).mp mem with mem | rfl
      · exact h.started q mem run
      · exact absurd run own

theorem moved (h : Recorded s id history) (sound : Sound s) {call : Nat} {t : Transition}
    (made : s.calls[call]? = some t) (phase : t.phase = .checked current)
    (unchanged : s.db.Unchanged t.tenantId t.runId current row) (after : RunStore)
    (db : after.db = { s.db with
      runs := s.db.runs.update (fun r => decide (key r = key row))
        (Db.values t.target current now) })
    (calls : after.calls = s.calls.set call { t with phase := .written current }) :
    Recorded after id (history ++ Run.turn (RunStore.status? id) s after) := by
  obtain ⟨mem, run, tenant, status_read⟩ := unchanged
  have asked := sound.at made (by rw [phase]; rfl)
  have allowed : t.target ∈ TRANSITIONS row.status := status_read ▸ asked.allowed
  have status : after.status? id = if row.id = id then some t.target else s.status? id := by
    have moved := @status?_moved _ _ current t.target now id after.calls mem
    rwa [← db] at moved
  -- the call at work wins exactly the status that the run leaves
  have won : ∀ st, after.calls.countP (Transition.wins id st) =
      s.calls.countP (Transition.wins id st) +
        if row.id = id ∧ row.status = st then 1 else 0 := by
    intro st
    have before : Transition.wins id st t = false := by
      simp [Transition.wins, Transition.succeeded, phase]
    have count := countP_set_add (b := { t with phase := .written current })
      (Transition.wins id st) made
    rw [before, ← calls] at count
    simpa [Transition.wins, Transition.succeeded, Transition.read, Phase.current, run,
      status_read] using count
  have mono : ∀ st, s.calls.countP (Transition.wins id st) ≤
      after.calls.countP (Transition.wins id st) := by
    intro st
    rw [won]
    omega
  have won_of : ∀ t' ∈ after.calls, t'.runId = id → t'.attempted → ∀ st, t'.read = some st →
      0 < after.calls.countP (Transition.wins id st) := by
    intro t' mem' run' tried st read
    rw [calls] at mem'
    rcases List.mem_or_eq_of_mem_set mem' with mem' | rfl
    · exact (h.won t' mem' run' tried st read).trans_le (mono st)
    · have own : row.id = id := run.trans run'
      have left : row.status = st := status_read.trans (Option.some.inj read)
      rw [won, if_pos ⟨own, left⟩]
      omega
  have reads_of : ∀ t' ∈ after.calls, t'.runId = id → ∀ st, t'.read = some st → st ∈ history := by
    intro t' mem' run' st read
    rw [calls] at mem'
    rcases List.mem_or_eq_of_mem_set mem' with mem' | rfl
    · exact h.reads t' mem' run' st read
    · refine h.reads t (List.mem_of_getElem? made) run' st ?_
      rw [Transition.read, phase]
      exact read
  have rows : ∀ q, q ∈ after.db.runs ↔
      q = Db.values t.target current now row ∨ q ∈ s.db.runs ∧ q.id ≠ row.id := by
    intro q
    rw [db]
    exact mem_moved mem
  by_cases own : row.id = id
  · have leaves : s.status? id = some row.status := own ▸ status?_of_mem mem
    have enters : after.status? id = some t.target := by rw [status, if_pos own]
    have turn : Run.turn (RunStore.status? id) s after = [t.target] := by
      rw [Run.turn, leaves, enters, if_neg (by simpa using ne_of_transition allowed)]
      rfl
    rw [turn]
    refine ⟨?_, ?_, by rw [enters]; simp, fun st => ?_, fun t' mem' run' st read => ?_, won_of,
      fun q mem' run' => ?_⟩
    · refine h.path.append (.singleton _) fun a ha b hb => ?_
      rw [h.last, leaves] at ha
      cases ha
      cases hb
      exact allowed
    · intro first head
      have nonempty : history ≠ [] := List.ne_nil_of_mem (h.current_mem leaves)
      rw [List.head?_append_of_ne_nil _ nonempty] at head
      exact h.starts first head
    · have before := h.wins st
      rw [leaves] at before
      rw [won, enters, List.count_append, List.count_singleton, ← before]
      simp only [own, true_and, Option.some.injEq, beq_iff_eq]
    · exact List.mem_append_left _ (reads_of t' mem' run' st read)
    · rcases (rows q).mp mem' with rfl | ⟨_, other⟩
      · have unstarted : t.target = .running → current.startedAt = none := by
          intro start
          have allowed := asked.allowed
          rw [start] at allowed
          exact asked.shaped.prepared (preparing_of_running allowed)
        rw [values_startedAt, List.mem_append, List.mem_singleton, ← h.started row mem own]
        by_cases start : t.target = .running
        · simp [start, unstarted start]
        · simp [start, Ne.symm start]
      · exact absurd (run'.trans own.symm) other
  · have same : after.status? id = s.status? id := by rw [status, if_neg own]
    rw [Run.turn, if_pos same.symm, List.append_nil]
    refine ⟨h.path, h.starts, same ▸ h.last, fun st => ?_, reads_of, won_of, fun q mem' run' => ?_⟩
    · rw [won, same, if_neg (fun both => own both.1)]
      exact h.wins st
    · rcases (rows q).mp mem' with rfl | ⟨mem', _⟩
      · exact absurd run' own
      · exact h.started q mem' run'

/-- The call at work in a step that moves no run has been made before, with the same
check behind it. -/
theorem reads_set (h : Recorded s id history) {call : Nat} {t t' : Transition}
    (made : s.calls[call]? = some t) (run : t'.runId = t.runId) (read : t'.read = t.read) :
    ∀ q ∈ s.calls.set call t', q.runId = id → ∀ status, q.read = some status →
      status ∈ history := by
  intro q mem own status got
  rcases List.mem_or_eq_of_mem_set mem with mem | rfl
  · exact h.reads q mem own status got
  · exact h.reads t (List.mem_of_getElem? made) (run ▸ own) status (read ▸ got)

/-- A call that finds the run in another status raises: the run has been moved out of the
status that the call read. -/
theorem won_of_changed (h : Recorded s id history) (sound : Sound s) {call : Nat}
    {t : Transition} (made : s.calls[call]? = some t) (phase : t.phase = .checked current)
    (own : t.runId = id) (changed : ∀ row, ¬ s.db.Unchanged t.tenantId t.runId current row) :
    0 < s.calls.countP (Transition.wins id current.status) := by
  obtain ⟨r, mem, run, tenant⟩ := (sound.at made (by rw [phase]; rfl)).run
  have other : r.status ≠ current.status := fun same => changed r ⟨mem, run, tenant, same⟩
  have now : s.status? id = some r.status := (run.trans own) ▸ status?_of_mem mem
  have passed : current.status ∈ history :=
    h.reads t (List.mem_of_getElem? made) own _ (by rw [Transition.read, phase]; rfl)
  have count := h.wins current.status
  rw [now, if_neg (by simpa using other)] at count
  have := List.count_pos_iff.mpr passed
  omega

theorem asked (h : Recorded s id history) {t : Transition}
    (phase : (∃ current, t.phase = .checked current ∧ (current ∈ s.db.runs ∧
      current.id = t.runId ∧ current.tenantId = t.tenantId) ∧
        t.target ∈ TRANSITIONS current.status) ∨ ∃ e, t.phase = .refused e) :
    Recorded { s with calls := s.calls ++ [t] } id (history ++
      Run.turn (RunStore.status? id) s { s with calls := s.calls ++ [t] }) := by
  have idle : t.attempted = false ∧ t.succeeded = false := by
    rcases phase with ⟨current, phase, _⟩ | ⟨e, phase⟩ <;>
      simp [Transition.attempted, Transition.succeeded, phase]
  refine h.quiet rfl (fun status => ?_) (fun q mem own status read => ?_)
    fun q mem own tried status read => ?_
  · simp [List.countP_append, Transition.wins, idle.2]
  · rcases List.mem_append.mp mem with mem | mem
    · exact h.reads q mem own status read
    · rw [List.mem_singleton] at mem
      subst mem
      rcases phase with ⟨current, phase, ⟨mem, run, _⟩, _⟩ | ⟨e, phase⟩
      · rw [Transition.read, phase] at read
        obtain rfl : current.status = status := Option.some.inj read
        exact h.current_mem ((run.trans own) ▸ status?_of_mem mem)
      · rw [Transition.read, phase] at read
        cases read
  · rcases List.mem_append.mp mem with mem | mem
    · exact h.won q mem own tried status read
    · rw [List.mem_singleton] at mem
      subst mem
      rw [idle.1] at tried
      cases tried

theorem raised (h : Recorded s id history) (sound : Sound s) {call : Nat} {t : Transition}
    {e : RunStoreError} (made : s.calls[call]? = some t) (phase : t.phase = .checked current)
    (changed : ∀ row, ¬ s.db.Unchanged t.tenantId t.runId current row) :
    Recorded { s with calls := s.calls.set call { t with phase := .raised current e } } id
      (history ++ Run.turn (RunStore.status? id) s
        { s with calls := s.calls.set call { t with phase := .raised current e } }) := by
  refine h.quiet rfl (fun status => ?_) (h.reads_set made rfl (by
    simp only [Transition.read, phase]
    rfl)) fun q mem own tried status read => ?_
  · have count := countP_set_add (b := { t with phase := .raised current e })
      (Transition.wins id status) made
    simpa [Transition.wins, Transition.succeeded, phase] using count
  · rcases List.mem_or_eq_of_mem_set mem with mem | rfl
    · exact h.won q mem own tried status read
    · obtain rfl : current.status = status := Option.some.inj read
      exact h.won_of_changed sound made phase own changed

theorem got (h : Recorded s id history) {call : Nat} {t : Transition}
    (made : s.calls[call]? = some t) (phase : t.phase = .written current) (row : RunRow) :
    Recorded { s with calls := s.calls.set call { t with phase := .returned current row } } id
      (history ++ Run.turn (RunStore.status? id) s
        { s with calls := s.calls.set call { t with phase := .returned current row } }) := by
  refine h.quiet rfl (fun status => ?_) (h.reads_set made rfl (by
    simp only [Transition.read, phase]
    rfl)) fun q mem own tried status read => ?_
  · have count := countP_set_add (b := { t with phase := .returned current row })
      (Transition.wins id status) made
    simpa [Transition.wins, Transition.succeeded, Transition.read, Phase.current, phase]
      using count
  · rcases List.mem_or_eq_of_mem_set mem with mem | rfl
    · exact h.won q mem own tried status read
    · refine h.won t (List.mem_of_getElem? made) own ?_ status ?_
      · simp [Transition.attempted, phase]
      · rw [Transition.read, phase]
        exact read

/-- Every step of the store extends the record of every run. -/
theorem step (h : Recorded s id history) (sound : Sound s) (a : Action) :
    Recorded (s.step a) id (history ++ Run.turn (RunStore.status? id) s (s.step a)) := by
  generalize after : s.step a = s'
  have e : Effect s s' := after ▸ effect_of_step s a
  cases e with
  | idle => exact h.quiet rfl (fun _ => rfl) h.reads h.won
  | created r runs rows calm status unstarted => exact h.created rows status unstarted
  | asked t phase => exact h.asked phase
  | moved call t current row now made phase unchanged calm =>
      exact h.moved sound made phase unchanged _ rfl rfl
  | raised call t current e made phase reason =>
      rcases reason with ⟨_, changed⟩ | ⟨row, unchanged, rival⟩
      · exact h.raised sound made phase changed
      · rw [sound.exclusive.calm unchanged.1 (sound.allowed made phase unchanged)] at rival
        cases rival
  | got call t current after made phase result =>
      rcases result with ⟨row, rfl⟩ | ⟨_, missing⟩
      · exact h.got made phase row
      · obtain ⟨r, mem, own, tenant⟩ := (sound.at made (by rw [phase]; rfl)).run
        exact absurd tenant (missing r mem own)
  | appended event events rows next => exact h.quiet rfl (fun _ => rfl) h.reads h.won

end Recorded

/-! ## The lifecycle -/

/-- The statuses that a run has been stored with, each once while it lasts. -/
def RunStore.history (repositories : Table RepositoryRow) (as : List Action) (id : String) :
    List RunStatus :=
  Run.trail RunStore.step (RunStore.status? id) (RunStore.empty repositories) as

theorem recorded_exec (repositories : Table RepositoryRow) (as : List Action) (id : String) :
    Recorded (Run.exec RunStore.step (empty repositories) as) id
      (history repositories as id) := by
  induction as using List.reverseRecOn with
  | nil => exact .empty repositories id
  | append_singleton as a ih =>
      rw [history, Run.trail_snoc, Run.exec_append, Run.exec_cons, Run.exec_nil]
      exact ih.step (sound_exec repositories as) a

/-- What the store promises about one run, whose statuses so far are given. -/
structure Lifecycle (s : RunStore) (id : String) (history : List RunStatus) : Prop where
  /-- The statuses follow the transition table from `preparing` on. -/
  path : history.IsChain fun a b => b ∈ TRANSITIONS a
  starts : ∀ first ∈ history.head?, first = .preparing
  current : history.getLast? = s.status? id
  /-- Of the calls that read a status exactly one moves the run. -/
  once : ∀ status, status.reentrant = false →
    (∃ t ∈ s.calls, t.runId = id ∧ t.read = some status ∧ t.attempted) →
      s.calls.countP (Transition.wins id status) = 1
  /-- A status that a run enters again is won as often as the run has left it. -/
  again : ∀ status, s.calls.countP (Transition.wins id status) +
    (if s.status? id = some status then 1 else 0) = history.count status
  conflicts : ∀ t ∈ s.calls, t.attempted → ¬ t.succeeded →
    ∃ current, t.phase = .raised current (.conflict "run_transition_conflict")
  finished : ∀ r ∈ s.db.runs, r.id = id → (r.finishedAt.isSome ↔ r.status ∈ TERMINAL)
  started : ∀ r ∈ s.db.runs, r.id = id → (r.startedAt.isSome ↔ .running ∈ history)
  /-- The events are numbered 1, 2, … in the order of their insertion. -/
  numbered : sequences s.db id = List.range' 1 (sequences s.db id).length

/-- What a write does at the moment it is made: it moves the run out of the status that
the call read, or it finds another status, raises and writes nothing. -/
inductive Decided (s : RunStore) (call : Nat) (t : Transition) (current : RunRow) :
    RunStore → Prop where
  | moved (after : RunStore) (before : s.status? t.runId = some current.status)
      (status : after.status? t.runId = some t.target)
      (phase : after.calls = s.calls.set call { t with phase := .written current }) :
      Decided s call t current after
  | raised (other : s.status? t.runId ≠ some current.status) :
      Decided s call t current { s with
        calls := s.calls.set call
          { t with phase := .raised current (.conflict "run_transition_conflict") } }

theorem Recorded.lifecycle {history : List RunStatus} (h : Recorded s id history)
    (sound : Sound s) : Lifecycle s id history where
  path := h.path
  starts := h.starts
  current := h.last
  once status once tried := by
    obtain ⟨t, mem, run, read, tried⟩ := tried
    have won := h.won t mem run tried status read
    have counts := h.wins status
    have single := Run.count_le_one_of_rank (a := status) RunStatus.rank
      (fun _ _ allowed => rank_le_of_transition allowed)
      (fun _ allowed => rank_lt_of_transition allowed once) h.path
    omega
  again := h.wins
  conflicts t mem tried lost := by
    cases phase : t.phase with
    | raised current e => exact ⟨current, by rw [sound.conflicts t mem current e phase]⟩
    | checked current => simp [Transition.attempted, phase] at tried
    | refused e => simp [Transition.attempted, phase] at tried
    | written current => simp [Transition.succeeded, phase] at lost
    | returned current row => simp [Transition.succeeded, phase] at lost
  finished r mem _ := (sound.shaped r mem).finished
  started := h.started
  numbered := sound.numbered id

theorem Sound.decided (h : Sound s) {call : Nat} {t : Transition}
    (made : s.calls[call]? = some t) (phase : t.phase = .checked current) (now : Instant) :
    Decided s call t current (s.step (.write call now)) := by
  have step : s.step (.write call now) =
      ⟨t.write s.db now, s.calls.set call (t.afterWrite s.db now)⟩ := by
    simp only [RunStore.step, made, modify_of_some made, Option.map_some, Option.getD_some]
  rw [step]
  simp only [Transition.write, Transition.afterWrite, phase]
  by_cases unchanged : ∃ row, s.db.Unchanged t.tenantId t.runId current row
  · obtain ⟨row, unchanged⟩ := unchanged
    have calm := h.exclusive.calm unchanged.1 (h.allowed made phase unchanged)
    obtain ⟨mem, run, _, status⟩ := id unchanged
    rw [Db.write_of_unchanged unchanged calm]
    refine .moved _ ?_ ?_ rfl
    · rw [← run, ← status]
      exact status?_of_mem mem
    · exact (status?_moved mem).trans (if_pos run)
  · rw [Db.write_of_changed fun row h => unchanged ⟨row, h⟩]
    refine .raised fun same => ?_
    obtain ⟨r, mem, run, tenant⟩ := (h.at made (by rw [phase]; rfl)).run
    have status := status?_of_mem mem
    rw [run, same] at status
    exact unchanged ⟨r, mem, run, tenant, (Option.some.inj status).symm⟩

/-- The time at which a run ended is never written again. -/
theorem finishedAt_keeps {r : RunRow} (mem : r ∈ s.db.runs) {time : Instant}
    (ended : r.finishedAt = some time) (as : List Action) :
    ∃ r' ∈ (Run.exec RunStore.step s as).db.runs, r'.id = r.id ∧ r'.finishedAt = some time :=
  Run.preserves (I := fun s' : RunStore => ∃ r' ∈ s'.db.runs, r'.id = r.id ∧ r'.finishedAt = some time)
    ⟨r, mem, rfl, ended⟩
    (fun s' a ⟨r', mem', id', ended'⟩ => by
      obtain ⟨q, hq, same, _, keeps⟩ := (effect_of_step s' a).persists mem'
      exact ⟨q, hq, same.trans id', keeps time ended'⟩) as

/-- In every interleaving of the reads and the writes of `transition` and of
`append_event`, and at every moment of it, each run keeps its lifecycle. -/
theorem run_lifecycle (repositories : Table RepositoryRow) (as : List Action) (id : String) :
    Lifecycle (Run.exec RunStore.step (empty repositories) as) id (history repositories as id) ∧
    (∀ call t current now, (Run.exec RunStore.step (empty repositories) as).calls[call]? = some t →
      t.phase = .checked current →
        Decided (Run.exec RunStore.step (empty repositories) as) call t current
          (Run.exec RunStore.step (empty repositories) (as ++ [.write call now]))) ∧
    ∀ r ∈ (Run.exec RunStore.step (empty repositories) as).db.runs, ∀ time,
      r.finishedAt = some time → ∀ later,
        ∃ r' ∈ (Run.exec RunStore.step (empty repositories) (as ++ later)).db.runs,
          r'.id = r.id ∧ r'.finishedAt = some time := by
  have sound := sound_exec repositories as
  refine ⟨(recorded_exec repositories as id).lifecycle sound, fun call t current now made phase => ?_,
    fun r mem time ended later => ?_⟩
  · rw [Run.exec_append]
    exact sound.decided made phase now
  · rw [Run.exec_append]
    exact finishedAt_keeps mem ended later

namespace Sample

def repositories : Table RepositoryRow := ⟨[⟨"repository", "tenant"⟩], by decide⟩

def request : StartRunRequest where
  repositoryId := "repository"
  task := "task"
  provider := "codex"
  model := none
  effort := .medium
  mode := .build
  safetyDigest := ""
  skillVersionId := none
  scheduleId := none
  occurrenceKey := none
  outputPolicy := .prepareContribution

/-- A read and, right after it, the write of the call with this number. -/
def move (call : Nat) (target : RunStatus) : List Action :=
  [.transition "tenant" "run" target, .write call call]

/-- While a run waits in `contribution_ready`, two calls read it: one publishes it, which
fails, and the other discards it once it is ready again. -/
def actions : List Action :=
  .create "tenant" request (String.ofList (List.replicate 40 'a')) "run" none 0 ::
    move 0 .running ++ move 1 .reviewRequired ++ move 2 .contributionReady ++
    [.transition "tenant" "run" .publishing, .transition "tenant" "run" .discarded, .write 3 3] ++
    move 5 .contributionReady ++ [.write 4 6]

end Sample

/-- Two calls that read the same status of the same run both move it. -/
theorem contribution_ready_won_twice :
    ¬ ∀ (repositories : Table RepositoryRow) (as : List Action) (id : String)
      (status : RunStatus),
      (∃ t ∈ (Run.exec RunStore.step (empty repositories) as).calls,
        t.runId = id ∧ t.read = some status ∧ t.attempted) →
      (Run.exec RunStore.step (empty repositories) as).calls.countP
        (Transition.wins id status) = 1 := by
  intro once
  have won : (Run.exec RunStore.step (empty Sample.repositories) Sample.actions).calls.countP
      (Transition.wins "run" .contributionReady) = 2 := by decide +kernel
  have tried : ∃ t ∈ (Run.exec RunStore.step (empty Sample.repositories) Sample.actions).calls,
      t.runId = "run" ∧ t.read = some .contributionReady ∧ t.attempted := by decide +kernel
  have := once Sample.repositories Sample.actions "run" .contributionReady tried
  omega

end Corvus.Runs
