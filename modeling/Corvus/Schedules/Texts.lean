import Corvus.Library.Timestamps
import Corvus.Mvp.Lease
import Corvus.Schedules.AtMostOnce

/-!
# Due times and leases compared as texts

The columns `next_run_at` and `lease_expires_at` hold ISO texts, and the queries of `claim_due` and
`recover_workflow` compare and sort them as texts. They select what a comparison of the instants
selects.
-/

namespace Corvus

open Calendar (Representable timestamp timestamp_le_iff timestamp_lt_iff)

/-! ## The queries -/

namespace Schedules.Book

/-- `due?` with `r.next_run_at <= ?` between texts. -/
def dueByText? (b : Book) (db : Runs.Db) (now : Instant) (s : ScheduleRow) : Option Due := do
  let revision ← b.current s
  let nextRunAt ← revision.nextRunAt
  if s.status = .active ∧ timestamp nextRunAt ≤ timestamp now ∧
      ¬ db.runs.rows.any (fun r => r.scheduleId = some s.id ∧ r.status.active) then
    some ⟨s.tenantId, s.id, revision.id, nextRunAt⟩
  else none

/-- The rows of the query in the order of the texts, `ORDER BY r.next_run_at LIMIT ?`. -/
def dueRowsByText (b : Book) (db : Runs.Db) (now : Instant) (limit : Nat) : List Due :=
  ((b.schedules.rows.filterMap (b.dueByText? db now)).mergeSort
    fun d d' => timestamp d.nextRunAt ≤ timestamp d'.nextRunAt).take limit

end Schedules.Book

namespace Mvp.Db

/-- `staleLease` with `lease_expires_at < ?` between texts. -/
def staleLeaseByText (workflowId : Uuid) (now : Instant) (r : WorkItemRow) : Bool :=
  decide (r.workflowId = workflowId) && decide (r.status = .running) &&
    r.leaseExpiresAt.any fun expires => decide (timestamp expires < timestamp now)

end Mvp.Db

/-! ## What they select -/

namespace Schedules.Book

variable {b : Book} {db : Runs.Db} {now : Instant}

/-- Every time in the table is one that a `datetime` can be. -/
def Dated (b : Book) : Prop := ∀ r ∈ b.revisions.rows, ∀ t ∈ r.nextRunAt, Representable t

theorem dueByText?_eq (dated : b.Dated) (now_dated : Representable now) (s : ScheduleRow) :
    b.dueByText? db now s = b.due? db now s := by
  unfold dueByText? due?
  cases found : b.current s with
  | none => rfl
  | some revision =>
    have stored : revision ∈ b.revisions.rows := List.mem_of_find?_eq_some found
    cases next : revision.nextRunAt with
    | none => simp [next]
    | some nextRunAt =>
      have order := timestamp_le_iff (dated revision stored nextRunAt next) now_dated
      simp only [next, Option.bind_eq_bind, Option.bind_some, order]

theorem dated_of_due {s : ScheduleRow} {d : Due} (dated : b.Dated)
    (due : b.due? db now s = some d) : Representable d.nextRunAt := by
  simp only [due?, Option.bind_eq_bind, Option.bind_eq_some_iff] at due
  obtain ⟨revision, found, nextRunAt, next, chosen⟩ := due
  obtain ⟨-, row⟩ := Option.ite_none_right_eq_some.mp chosen
  obtain rfl := Option.some.inj row
  exact dated revision (List.mem_of_find?_eq_some found) nextRunAt next

/-- The due schedules come in the order of their instants. -/
theorem dueRowsByText_eq (dated : b.Dated) (now_dated : Representable now) (limit : Nat) :
    b.dueRowsByText db now limit = b.dueRows db now limit := by
  have same : b.dueByText? db now = b.due? db now := funext (dueByText?_eq dated now_dated)
  have times : ∀ d ∈ b.schedules.rows.filterMap (b.due? db now), Representable d.nextRunAt := by
    intro d mem
    obtain ⟨s, -, due⟩ := List.mem_filterMap.mp mem
    exact dated_of_due dated due
  have sorted := List.map_mergeSort (f := id)
    (r := fun d d' : Due => decide (timestamp d.nextRunAt ≤ timestamp d'.nextRunAt))
    (s := fun d d' : Due => decide (d.nextRunAt ≤ d'.nextRunAt))
    (l := b.schedules.rows.filterMap (b.due? db now))
    fun d mem d' mem' => decide_eq_decide.mpr (timestamp_le_iff (times d mem) (times d' mem'))
  simp only [List.map_id] at sorted
  rw [dueRowsByText, dueRows, same, sorted]

end Schedules.Book

theorem Mvp.Db.staleLeaseByText_eq {r : Mvp.WorkItemRow} {now : Instant} (workflowId : Uuid)
    (dated : ∀ t ∈ r.leaseExpiresAt, Representable t) (now_dated : Representable now) :
    Mvp.Db.staleLeaseByText workflowId now r = Mvp.Db.staleLease workflowId now r := by
  have lapsed : (r.leaseExpiresAt.any fun expires => decide (timestamp expires < timestamp now)) =
      r.leaseExpiresAt.any fun expires => decide (expires < now) := by
    cases lease : r.leaseExpiresAt with
    | none => rw [Option.any_none, Option.any_none]
    | some expires =>
      rw [Option.any_some, Option.any_some]
      exact decide_eq_decide.mpr (timestamp_lt_iff (dated expires lease) now_dated)
  rw [staleLeaseByText, lapsed, staleLease]

namespace Schedules.Sample

/-- An hourly schedule that is due at the full hour. -/
def due : Book where
  schedules := ⟨[⟨"schedule", "tenant", "hourly", .active, 1, 0, 0⟩], List.nodup_singleton _⟩
  revisions := ⟨[⟨"revision", "schedule", 1, "repository", "task", hourly, "Antarctica/Troll",
    "codex", none, .high, .build, "", none, .prepareChanges, some 1709210400000000, 0⟩],
    List.nodup_singleton _⟩
  occurrences := ∅

end Schedules.Sample

/-- Times in UTC stand in the order of their texts, so the queries that compare and sort the texts
select the due schedules in the order of their instants, and the leases that are over. -/
theorem texts_select_instants :
    (∀ a b : Instant, Representable a → Representable b →
      (timestamp a ≤ timestamp b ↔ a ≤ b)) ∧
    (∀ (b : Schedules.Book) (db : Runs.Db) (now : Instant) (limit : Nat), b.Dated →
      Representable now → b.dueRowsByText db now limit = b.dueRows db now limit) ∧
    ∀ (db : Mvp.Db) (workflowId : Uuid) (now : Instant),
      (∀ r ∈ db.workItems.rows, ∀ t ∈ r.leaseExpiresAt, Representable t) → Representable now →
      db.workItems.rows.filter (Mvp.Db.staleLeaseByText workflowId now) =
        db.workItems.rows.filter (Mvp.Db.staleLease workflowId now) := by
  refine ⟨fun a b a_time b_time => timestamp_le_iff a_time b_time, ?_, ?_⟩
  · intro b db now limit dated now_dated
    exact Schedules.Book.dueRowsByText_eq dated now_dated limit
  · intro db workflowId now dated now_dated
    refine List.filter_congr fun r mem => ?_
    exact Mvp.Db.staleLeaseByText_eq workflowId (dated r mem) now_dated

/-- The schedule is due seven microseconds after the hour, and the lease is not over. -/
theorem texts_select_sample :
    (timestamp 1709210400000000 ≤ timestamp 1709210400000007 ↔
      (1709210400000000 : Instant) ≤ 1709210400000007) ∧
    Schedules.Sample.due.dueRowsByText ⟨Runs.Sample.repositories, ∅, ∅⟩ 1709210400000007 10 =
      Schedules.Sample.due.dueRows ⟨Runs.Sample.repositories, ∅, ∅⟩ 1709210400000007 10 ∧
    (Mvp.Sample.run Mvp.Sample.leased).db.workItems.rows.filter
        (Mvp.Db.staleLeaseByText Mvp.Sample.workflow 20) =
      (Mvp.Sample.run Mvp.Sample.leased).db.workItems.rows.filter
        (Mvp.Db.staleLease Mvp.Sample.workflow 20) := by
  obtain ⟨order, schedules, leases⟩ := texts_select_instants
  refine ⟨order _ _ (by decide) (by decide), schedules _ _ _ _ ?_ (by decide),
    leases _ _ _ ?_ (by decide)⟩
  · intro r mem t next
    obtain rfl := List.mem_singleton.mp mem
    obtain rfl := Option.some.inj next
    decide
  · decide

end Corvus
