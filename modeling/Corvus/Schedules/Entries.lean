import Corvus.Schedules.Scheduler

/-!
# What the methods of the schedule store do

Each method is read backwards once, from its result to what it found and wrote.
-/

namespace Corvus.Schedules

namespace Book

variable {zones : Zones} {b after : Book} {db : Runs.Db} {now : Instant} {tenantId scheduleId : String}
  {record : ScheduleRecord} {claim : ScheduleClaim} {occurrences : Table OccurrenceRow} {d : Due}
  {rows : List Due} {limit : Nat} {s : ScheduleRow}

/-! ## Records -/

theorem current_mem {v : RevisionRow} (found : b.current s = some v) :
    v ∈ b.revisions ∧ v.scheduleId = s.id := by
  have hit := List.find?_some found
  rw [decide_eq_true_iff] at hit
  exact ⟨List.mem_of_find?_eq_some found, hit.1⟩

theorem get_eq_ok (got : b.get tenantId scheduleId = .ok record) :
    record.schedule ∈ b.schedules ∧ record.schedule.id = scheduleId ∧
      record.schedule.tenantId = tenantId ∧ b.current record.schedule = some record.revision := by
  obtain ⟨schedule, found, got⟩ := bind_eq_ok.mp got
  obtain ⟨revision, current, got⟩ := bind_eq_ok.mp got
  obtain rfl := Except.ok.inj got
  obtain ⟨found, tenant⟩ := Option.filter_eq_some_iff.mp (present_eq_ok.mp found)
  obtain ⟨mem, id⟩ := Table.get?_eq_some.mp found
  exact ⟨mem, id, of_decide_eq_true tenant, present_eq_ok.mp current⟩

/-- A schedule is created with one revision. -/
theorem create_eq_ok {request : ScheduleCreateRequest} {skill : Bool} {revisionId : String}
    (created : b.create zones db tenantId request skill scheduleId revisionId now = .ok after) :
    ∃ revision, after.revisions.rows = b.revisions.rows ++ [revision] ∧
      after.occurrences = b.occurrences := by
  obtain ⟨_, _, created⟩ := bind_eq_ok.mp created
  obtain ⟨_, _, created⟩ := bind_eq_ok.mp created
  obtain ⟨_, _, created⟩ := bind_eq_ok.mp created
  obtain ⟨_, _, created⟩ := bind_eq_ok.mp created
  obtain ⟨_, _, created⟩ := bind_eq_ok.mp created
  obtain ⟨_, _, created⟩ := bind_eq_ok.mp created
  obtain ⟨revisions, inserted, created⟩ := bind_eq_ok.mp created
  obtain rfl := Except.ok.inj created
  exact ⟨_, (Table.insert?_eq_some.mp (present_eq_ok.mp inserted)).2, rfl⟩

/-- A claim of a schedule with a revision of its own. -/
def Claims (b : Book) (claim : ScheduleClaim) : Prop :=
  ∃ v ∈ b.revisions, v.id = claim.schedule.revision.id ∧ v.scheduleId = claim.schedule.schedule.id

/-! ## `claim_due` -/

theorem due?_eq_some (due : b.due? db now s = some d) :
    ∃ v, b.current s = some v ∧ d.scheduleId = s.id ∧ d.tenantId = s.tenantId ∧
      d.revisionId = v.id ∧ d.nextRunAt ≤ now := by
  obtain ⟨v, current, due⟩ := Option.bind_eq_some_iff.mp due
  obtain ⟨next, planned, due⟩ := Option.bind_eq_some_iff.mp due
  split at due
  · rename_i fits
    obtain rfl := Option.some.inj due
    exact ⟨v, current, rfl, rfl, rfl, fits.2.1⟩
  · nomatch due

theorem mem_dueRows (mem : d ∈ b.dueRows db now limit) :
    ∃ s ∈ b.schedules, b.due? db now s = some d := by
  have listed := List.mem_of_mem_take mem
  rw [List.mem_mergeSort] at listed
  exact List.mem_filterMap.mp listed

/-- How `claim_due` changes an occurrence: it takes over a claim that has expired. -/
def Taken (now : Instant) (o o' : OccurrenceRow) : Prop :=
  o' = o ∨ o.status = .claimed ∧ o.scheduledFor ≤ now ∧ o' = { o with claimedAt := now }

/-- An occurrence that `claim_due` adds. -/
def Fresh (now : Instant) (o : OccurrenceRow) : Prop :=
  o.status = .claimed ∧ o.scheduledFor ≤ now ∧ o.claimedAt = now

theorem claimRow_eq_some {next : Table OccurrenceRow}
    (claimed : claimRow now occurrences d = some next) (early : d.nextRunAt ≤ now) :
    Table.Evolves occurrences next (Taken now) (Fresh now) ∧
      ∀ o ∈ occurrences, key o = (d.revisionId, d.nextRunAt) → o.status = .claimed := by
  unfold claimRow at claimed
  split at claimed
  · rename_i inserted
    obtain rfl := Option.some.inj claimed
    obtain ⟨free, rows⟩ := Table.insert?_eq_some.mp inserted
    refine ⟨.insert rows (fun _ _ => .inl rfl) ⟨rfl, early, rfl⟩, fun o mem same => ?_⟩
    have taken := List.mem_map_of_mem (f := key) mem
    rw [same] at taken
    exact absurd taken free
  split at claimed
  · rename_i lapsed
    obtain same := Option.some.inj claimed
    rw [← same]
    have waits : ∀ o ∈ occurrences, key o = (d.revisionId, d.nextRunAt) → o.status = .claimed := by
      intro o mem same
      rw [← same, Table.get?_of_mem mem, Option.any_some] at lapsed
      exact (of_decide_eq_true lapsed).2.1
    refine ⟨.update (fun _ _ _ => .inl rfl) fun o mem hit => ?_, waits⟩
    have own := of_decide_eq_true hit
    exact .inr ⟨waits o mem own, (Prod.mk.inj own).2 ▸ early, rfl⟩
  · cases claimed

theorem Taken.trans {o o' o'' : OccurrenceRow} (first : Taken now o o') (second : Taken now o' o'') :
    Taken now o o'' := by
  obtain rfl | ⟨waits, due, rfl⟩ := first
  · exact second
  · obtain rfl | ⟨_, _, rfl⟩ := second
    · exact .inr ⟨waits, due, rfl⟩
    · exact .inr ⟨waits, due, rfl⟩

theorem Fresh.taken {o o' : OccurrenceRow} (fresh : Fresh now o) (taken : Taken now o o') :
    Fresh now o' := by
  obtain rfl | ⟨_, _, rfl⟩ := taken
  · exact fresh
  · exact ⟨fresh.1, fresh.2.1, rfl⟩

theorem Taken.key_eq {o o' : OccurrenceRow} (taken : Taken now o o') : key o' = key o := by
  obtain rfl | ⟨_, _, rfl⟩ := taken <;> rfl

theorem Taken.of_claimed {o o' : OccurrenceRow} (taken : Taken now o o')
    (waits : o'.status = .claimed) : o.status = .claimed := by
  obtain rfl | ⟨waits, _, _⟩ := taken
  · exact waits
  · exact waits

/-- A claim is made of an occurrence that has not been finished. -/
def Unfinished (occurrences : Table OccurrenceRow) (claim : ScheduleClaim) : Prop :=
  ∀ o ∈ occurrences, key o = (claim.schedule.revision.id, claim.scheduledFor) → o.status = .claimed

theorem claimRows_eq_ok {claims : List ScheduleClaim} {final : Table OccurrenceRow}
    (known : ∀ d ∈ rows, ∃ s ∈ b.schedules, b.due? db now s = some d)
    (claimed : b.claimRows now occurrences rows = .ok (final, claims)) :
    Table.Evolves occurrences final (Taken now) (Fresh now) ∧
      ∀ claim ∈ claims, b.Claims claim ∧ Unfinished occurrences claim := by
  induction rows generalizing occurrences claims with
  | nil =>
    obtain ⟨rfl, rfl⟩ := Prod.mk.inj (Except.ok.inj claimed)
    exact ⟨.refl fun _ _ => .inl rfl, fun _ mem => absurd mem List.not_mem_nil⟩
  | cons d rows ih =>
    have others : ∀ d ∈ rows, ∃ s ∈ b.schedules, b.due? db now s = some d :=
      fun d mem => known d (List.mem_cons_of_mem _ mem)
    rw [claimRows] at claimed
    split at claimed
    · exact ih others claimed
    rename_i between row
    obtain ⟨record, got, claimed⟩ := bind_eq_ok.mp claimed
    obtain ⟨⟨last, rest⟩, loop, claimed⟩ := bind_eq_ok.mp claimed
    obtain ⟨rfl, rfl⟩ := Prod.mk.inj (Except.ok.inj claimed)
    obtain ⟨evolves, made⟩ := ih others loop
    obtain ⟨s, listed, due⟩ := known d List.mem_cons_self
    obtain ⟨v, current, id, _, revision, early⟩ := due?_eq_some due
    obtain ⟨first, waits⟩ := claimRow_eq_some row early
    obtain ⟨mem, same, _, own⟩ := get_eq_ok got
    obtain rfl : record.schedule = s := Table.eq_of_key mem listed (same.trans id)
    obtain rfl : v = record.revision := Option.some.inj (current.symm.trans own)
    refine ⟨first.comp evolves (fun _ _ _ => Taken.trans) fun _ _ => Fresh.taken, ?_⟩
    intro claim mem
    obtain rfl | later := List.mem_cons.mp mem
    · obtain ⟨found, schedule⟩ := current_mem current
      exact ⟨⟨_, found, rfl, schedule⟩, fun o mem same => waits o mem (revision ▸ same)⟩
    · obtain ⟨owned, unfinished⟩ := made claim later
      refine ⟨owned, fun o mem same => ?_⟩
      obtain ⟨o', mem', taken⟩ := first.forth o mem
      exact taken.of_claimed (unfinished o' mem' (taken.key_eq.trans same))

theorem claimDue_eq_ok {claims : List ScheduleClaim}
    (claimed : b.claimDue db now limit = .ok (after, claims)) :
    after.schedules = b.schedules ∧ after.revisions = b.revisions ∧
      Table.Evolves b.occurrences after.occurrences (Taken now) (Fresh now) ∧
        ∀ claim ∈ claims, b.Claims claim ∧ Unfinished b.occurrences claim := by
  obtain ⟨⟨occurrences, made⟩, loop, claimed⟩ := bind_eq_ok.mp claimed
  obtain ⟨rfl, rfl⟩ := Prod.mk.inj (Except.ok.inj claimed)
  exact ⟨rfl, rfl, claimRows_eq_ok (fun _ => mem_dueRows) loop⟩

/-! ## `attach_run` -/

/-- The occurrence that a run is attached to, and what is written. -/
theorem attachRun_eq_some {runId : Option String} {status : OccurrenceStatus}
    {reasonCode : Option String}
    (attached : b.attachRun zones db claim runId status reasonCode = .ok (some after)) :
    ∃ o next reason, b.waiting claim = some o ∧
      claim.schedule.revision.recurrence.nextAfter zones o.claimedAt
        claim.schedule.revision.timezone = .ok next ∧
      after = { b with
        occurrences := b.occurrences.update (fun o =>
          key o = (claim.schedule.revision.id, claim.scheduledFor))
          (Book.attached runId status reason)
        revisions := b.revisions.update (·.id = claim.schedule.revision.id) (scheduled next) } := by
  unfold attachRun at attached
  dsimp only at attached
  split at attached
  · nomatch Except.ok.inj attached
  · rename_i o waits
    obtain ⟨_, _, attached⟩ := bind_eq_ok.mp attached
    obtain ⟨next, found, attached⟩ := bind_eq_ok.mp attached
    obtain same := Option.some.inj (Except.ok.inj attached)
    exact ⟨o, next, _, waits, found, same.symm⟩

theorem waiting_eq_some {o : OccurrenceRow} : b.waiting claim = some o ↔
    o ∈ b.occurrences ∧ key o = (claim.schedule.revision.id, claim.scheduledFor) ∧
      o.runId = none ∧ o.status = .claimed := by
  unfold waiting
  rw [Option.filter_eq_some_iff, Table.get?_eq_some, decide_eq_true_iff, and_assoc]

end Book

end Corvus.Schedules
