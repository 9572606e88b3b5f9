import Corvus.Runs.EventPump
import Corvus.Runs.Supervision

/-!
# A pump settles its run

Whatever the provider sends and whoever cancels in between, the run of a pump that has
returned is settled: the first party that stores a status decides, and nothing changes it
afterwards. What the pump has asked and what it was answered says on what evidence.
-/

namespace Corvus.Runs

open Dialogue (Obeys)

/-! ## The status of a run in the store -/

section Status

variable {db after : Db} {tenantId runId id : String} {target : RunStatus} {row : RunRow}
  {now : Instant}

/-- The run of a tenant, with its status. -/
def Db.Has (db : Db) (tenantId runId : String) (status : RunStatus) : Prop :=
  ∃ row ∈ db.runs, row.id = runId ∧ row.tenantId = tenantId ∧ row.status = status

theorem Db.Sound.transition_ok (sound : db.Sound) (mem : row ∈ db.runs)
    (allowed : target ∈ TRANSITIONS row.status) (now : Instant) :
    db.transition row.tenantId row.id target now = .ok { db with
      runs := db.runs.update (fun r => decide (key r = key row)) (Db.values target row now) } :=
  bind_eq_ok.mpr ⟨row, Db.check_eq_ok.mpr ⟨⟨mem, rfl, rfl⟩, allowed⟩,
    Db.write_of_unchanged ⟨mem, rfl, rfl, rfl⟩ (sound.exclusive.calm mem allowed)⟩

/-- An allowed transition moves the run. -/
theorem Db.Sound.moves (sound : db.Sound) {status : RunStatus}
    (has : db.Has tenantId runId status) (allowed : target ∈ TRANSITIONS status) (now : Instant) :
    ∃ after, db.transition tenantId runId target now = .ok after ∧
      after.Has tenantId runId target ∧ after.events = db.events := by
  obtain ⟨row, mem, rfl, rfl, rfl⟩ := has
  refine ⟨_, sound.transition_ok mem allowed now, ⟨_, Table.mem_update_of_mem mem, ?_⟩, rfl⟩
  rw [if_pos (decide_eq_true rfl)]
  exact ⟨rfl, rfl, rfl⟩

/-- A transition of another run leaves this one as it is. -/
theorem Db.Has.of_transition_other {other : String} {status : RunStatus} {tenant : String}
    (has : db.Has tenantId runId status) (differs : runId ≠ other) (sound : db.Sound)
    (moved : db.transition tenant other target now = .ok after) :
    after.Has tenantId runId status ∧ after.events = db.events := by
  obtain ⟨current, checked, _⟩ := bind_eq_ok.mp moved
  obtain ⟨⟨mem, rfl, rfl⟩, allowed⟩ := Db.check_eq_ok.mp checked
  rw [sound.transition_ok mem allowed now] at moved
  obtain rfl := Except.ok.inj moved
  obtain ⟨row, listed, rfl, rfl, rfl⟩ := has
  refine ⟨⟨_, Table.mem_update_of_mem listed, ?_⟩, rfl⟩
  have apart : ¬ decide (key row = key current) = true := fun same =>
    differs (of_decide_eq_true same)
  rw [if_neg apart]
  exact ⟨rfl, rfl, rfl⟩

/-- The statuses that settle a run, as a pump asks for them. -/
def SETTLING : List RunStatus := [.reviewRequired, .completed, .cancelled, .interrupted, .failed]

theorem settling_allowed (settling : target ∈ SETTLING) : target ∈ TRANSITIONS .running := by
  have all : ∀ target ∈ SETTLING, target ∈ TRANSITIONS .running := by decide
  exact all target settling

theorem settling_settled (settling : target ∈ SETTLING) :
    target ≠ .preparing ∧ target ≠ .running := by
  have all : ∀ target ∈ SETTLING, target ≠ .preparing ∧ target ≠ .running := by decide
  exact all target settling

/-- `_terminalize` settles a running run and leaves a settled one alone. -/
theorem Db.Sound.terminalizes (sound : db.Sound) {status : RunStatus}
    (has : db.Has tenantId runId status) (begun : status ≠ .preparing)
    (settling : target ∈ SETTLING) (now : Instant) :
    ∃ after, db.terminalize tenantId runId target now = .ok after ∧
      after.Has tenantId runId (if status = .running then target else status) ∧
        after.events = db.events := by
  obtain ⟨row, mem, id, tenant, found⟩ := has
  have got : db.get tenantId runId = .ok row := Db.get_eq_ok.mpr ⟨mem, id, tenant⟩
  by_cases running : status = .running
  · rw [if_pos running]
    rw [running] at found
    obtain ⟨after, moved, has⟩ := sound.moves ⟨row, mem, id, tenant, found⟩
      (settling_allowed settling) now
    refine ⟨after, ?_, has⟩
    have other : row.status ≠ target := fun same => by
      rw [← same, found] at settling
      exact absurd settling (by decide)
    rw [Db.terminalize, got, ok_bind, if_neg other, if_neg (by rw [found]; decide), moved]
  · rw [if_neg running]
    refine ⟨db, ?_, ⟨row, mem, id, tenant, found⟩, rfl⟩
    rw [Db.terminalize, got, ok_bind]
    split
    · rfl
    · rw [if_pos]
      · rfl
      · rw [found]
        simp [begun, running]

theorem le_foldr_max {l : List Nat} {n : Nat} (mem : n ∈ l) : n ≤ l.foldr max 0 := by
  induction l with
  | nil => nomatch mem
  | cons m l ih =>
    rw [List.foldr_cons]
    obtain rfl | later := List.mem_cons.mp mem
    · exact Nat.le_max_left _ _
    · exact (ih later).trans (Nat.le_max_right _ _)

/-- An event that `append_event` takes. -/
def Storable (event : Delivery) : Prop :=
  ∃ payload, event.payload = some payload ∧ (event.eventType ≠ "" ∧ event.eventType.length ≤ 100) ∧
    (Db.encoded payload).utf8ByteSize ≤ 64 * 1024

/-- An event that can be stored is stored, with the next sequence. -/
theorem Db.Has.appends {status : RunStatus} {payload : List (String × Json)} {eventType : String}
    (has : db.Has tenantId runId status) (typed : eventType ≠ "" ∧ eventType.length ≤ 100)
    (small : (Db.encoded payload).utf8ByteSize ≤ 64 * 1024) (now : Instant) :
    ∃ after, db.appendEvent runId eventType payload now = .ok after := by
  obtain ⟨row, mem, rfl, _, _⟩ := has
  have run : (db.runs.get? row.id).isSome = true := by
    rw [show db.runs.get? row.id = some row from Table.get?_of_mem mem]
    rfl
  obtain ⟨events, inserted⟩ := Table.exists_insert? (t := db.events)
    (r := ⟨row.id, db.nextSequence row.id, eventType, Db.encoded payload, now⟩) fun e mem same => by
      obtain ⟨ids, sequences⟩ := Prod.mk.inj same
      have listed : e.sequence ∈ (db.events.rows.filter (·.runId = row.id)).map (·.sequence) :=
        List.mem_map_of_mem (List.mem_filter.mpr ⟨mem, decide_eq_true ids⟩)
      have bounded := le_foldr_max listed
      have next : e.sequence = ((db.events.rows.filter (·.runId = row.id)).map
        (·.sequence)).foldr max 0 + 1 := sequences
      omega
  refine ⟨{ db with events }, ?_⟩
  rw [Db.appendEvent, require_of typed, ok_bind, require_of small, ok_bind, require_of run, ok_bind,
    inserted]
  rfl

end Status

/-! ## What the pump asks after what -/

namespace EventPump

variable {D : Digests} {notifier : Bool} {mode : Mode} {events : List Delivery}
  {past : List (Exchange Operation Operation.Answer)} {event : Delivery} {changes : ChangeSet}
  {target : RunStatus} {reasonCode : String} {accepted sawTerminal : Bool}

/-- An event of this type was stored. -/
def Logged (past : List (Exchange Operation Operation.Answer)) (eventType : String) : Prop :=
  ∃ event : Delivery, event.eventType = eventType ∧ ⟨.append event, .ok ()⟩ ∈ past

/-- A change set of so many files was recorded. -/
def Found (past : List (Exchange Operation Operation.Answer)) (files : Nat) : Prop :=
  ∃ digest, ⟨.addEvidence "change_set" (observed files) digest, .ok ()⟩ ∈ past

/-- What a pump stores before it asks for a status. -/
def Supports (mode : Mode) (logged : String → Prop) (found : Nat → Prop) : RunStatus → Prop
  | .reviewRequired => mode = .build ∧ logged "provider.completed" ∧ ∃ files, 0 < files ∧ found files
  | .completed => mode ≠ .build ∧ logged "provider.completed"
  | .failed =>
      logged "provider.failed" ∨ logged "runtime.failed" ∨
        mode = .build ∧ logged "provider.completed" ∧ found 0
  | .cancelled => logged "provider.cancelled"
  | .interrupted => logged "runtime.interrupted"
  | _ => False

/-- When the pump may ask for a status. -/
def Justified (mode : Mode) (past : List (Exchange Operation Operation.Answer)) :
    Operation → Prop
  | .terminalize target => Supports mode (Logged past) (Found past) target
  | _ => True

/-- A status was asked for and not refused. -/
def Settled (past : List (Exchange Operation Operation.Answer)) : Prop :=
  ∃ target, ⟨.terminalize target, .ok ()⟩ ∈ past

/-- The store has refused an event that it takes, or a status. -/
def StoreFailed (past : List (Exchange Operation Operation.Answer)) : Prop :=
  (∃ event e, Storable event ∧ ⟨.append event, .error e⟩ ∈ past) ∨
    ∃ target e, ⟨.terminalize target, .error e⟩ ∈ past

/-- How a part may end. -/
def Delivered (past : List (Exchange Operation Operation.Answer)) : Answer Bool → Prop
  | .returned true => Settled past
  | _ => True

def Ended (past : List (Exchange Operation Operation.Answer)) : Answer Unit → Prop
  | .returned () => Settled past
  | _ => True

def Returned (past : List (Exchange Operation Operation.Answer)) : Answer Unit → Prop
  | .returned () => Settled past ∨ StoreFailed past
  | _ => True

theorem Settled.mono {later : List (Exchange Operation Operation.Answer)} (settled : Settled past)
    (longer : past <+: later) : Settled later := by
  obtain ⟨target, mem⟩ := settled
  exact ⟨target, longer.subset mem⟩

theorem mem_last {α : Type} {l : List α} {a : α} : a ∈ l ++ [a] :=
  List.mem_append_right _ (List.mem_singleton_self a)

theorem Logged.mono {later : List (Exchange Operation Operation.Answer)} {eventType : String}
    (logged : Logged past eventType) (longer : past <+: later) : Logged later eventType := by
  obtain ⟨event, type, mem⟩ := logged
  exact ⟨event, type, longer.subset mem⟩

theorem Supports.mono {logged logged' : String → Prop} {found found' : Nat → Prop}
    (supports : Supports mode logged found target)
    (logs : ∀ eventType, logged eventType → logged' eventType)
    (finds : ∀ files, found files → found' files) : Supports mode logged' found' target := by
  cases target with
  | reviewRequired =>
    obtain ⟨build, completed, files, some, present⟩ := supports
    exact ⟨build, logs _ completed, files, some, finds _ present⟩
  | completed => exact ⟨supports.1, logs _ supports.2⟩
  | failed =>
    obtain failed | failed | ⟨build, completed, none⟩ := supports
    · exact .inl (logs _ failed)
    · exact .inr (.inl (logs _ failed))
    · exact .inr (.inr ⟨build, logs _ completed, finds _ none⟩)
  | cancelled => exact logs _ supports
  | interrupted => exact logs _ supports
  | preparing | running | contributionReady | publishing | published | discarded => exact supports

theorem Supports.settling {logged : String → Prop} {found : Nat → Prop}
    (supports : Supports mode logged found target) : target ∈ SETTLING := by
  cases target with
  | reviewRequired | completed | failed | cancelled | interrupted => decide
  | preparing | running | contributionReady | publishing | published | discarded => exact absurd supports id

theorem settle_obeys (supports : Supports mode (Logged past) (Found past) target) :
    Obeys (Justified mode) Delivered past (settle target) := by
  refine .ask supports fun answer => ?_
  cases answer with
  | ok u => exact .done ⟨target, mem_last⟩
  | error e => exact .done trivial

/-- The ends of a part other than a return are not restricted. -/
def Lenient {α : Type} (E : List (Exchange Operation Operation.Answer) → Answer α → Prop) : Prop :=
  ∀ past, E past .raised ∧ E past .cancelled ∧ E past .exited

section Parts

variable {α : Type} {E : List (Exchange Operation Operation.Answer) → Answer α → Prop}
  {next : PumpPart α}

theorem append_obeys (lenient : Lenient E)
    (rest : ∀ later, past <+: later → ⟨.append event, .ok ()⟩ ∈ later →
      Obeys (Justified mode) E later next) :
    Obeys (Justified mode) E past (.ask (.append event) (afterStore next)) := by
  refine .ask trivial fun answer => ?_
  cases answer with
  | ok u => exact rest _ (List.prefix_append ..) mem_last
  | error e => exact .done (lenient _).1

theorem addEvidence_obeys {kind summary digest : String} (lenient : Lenient E)
    (rest : ∀ later, past <+: later → ⟨.addEvidence kind summary digest, .ok ()⟩ ∈ later →
      Obeys (Justified mode) E later next) :
    Obeys (Justified mode) E past (.ask (.addEvidence kind summary digest) (afterStore next)) := by
  refine .ask trivial fun answer => ?_
  cases answer with
  | ok u => exact rest _ (List.prefix_append ..) mem_last
  | error e => exact .done (lenient _).1

theorem next_obeys (lenient : Lenient E)
    (rest : ∀ later, past <+: later → Obeys (Justified mode) E later next) :
    Obeys (Justified mode) E past (.ask .next (afterAwait next)) := by
  refine .ask trivial fun answer => ?_
  cases answer with
  | returned u => exact rest _ (List.prefix_append ..)
  | raised => exact .done (lenient _).1
  | cancelled => exact .done (lenient _).2.1
  | exited => exact .done (lenient _).2.2

theorem announce_obeys (lenient : Lenient E)
    (rest : ∀ later, past <+: later → Obeys (Justified mode) E later next) :
    Obeys (Justified mode) E past (announce notifier event next) := by
  unfold announce
  split
  · refine .ask trivial fun answer => ?_
    cases answer with
    | returned u => exact rest _ (List.prefix_append ..)
    | raised => exact .done (lenient _).1
    | cancelled => exact .done (lenient _).2.1
    | exited => exact .done (lenient _).2.2
  · exact rest _ List.prefix_rfl

end Parts

theorem delivered_lenient : Lenient Delivered := fun _ => ⟨trivial, trivial, trivial⟩

theorem ended_lenient : Lenient Ended := fun _ => ⟨trivial, trivial, trivial⟩

theorem complete_obeys (completed : Logged past "provider.completed") :
    Obeys (Justified mode) Delivered past (complete D mode event changes) := by
  refine addEvidence_obeys delivered_lenient fun _ first _ => ?_
  refine addEvidence_obeys delivered_lenient fun later second found => ?_
  have completed := completed.mono (first.trans second)
  split
  · rename_i unchanged
    refine addEvidence_obeys delivered_lenient fun last third _ => ?_
    rw [unchanged.2] at found
    refine settle_obeys (.inr (.inr ⟨unchanged.1, completed.mono third, changes.digest, ?_⟩))
    exact third.subset found
  split
  · rename_i changed build
    refine settle_obeys ⟨build, completed, changes.files.length, ?_, changes.digest, found⟩
    exact List.length_pos_of_ne_nil fun none => changed ⟨build, none⟩
  · rename_i other
    exact settle_obeys ⟨other, completed⟩

theorem deliver_obeys (appended : ⟨.append event, .ok ()⟩ ∈ past) :
    Obeys (Justified mode) Delivered past (deliver D mode event) := by
  unfold deliver
  split
  · rename_i completed
    refine .ask trivial fun answer => ?_
    cases answer with
    | returned changes => exact complete_obeys ⟨event, completed, List.mem_append_left _ appended⟩
    | raised | cancelled | exited => exact .done trivial
  split
  · rename_i failed
    exact settle_obeys (.inl ⟨event, failed, appended⟩)
  split
  · rename_i cancelled
    exact settle_obeys ⟨event, cancelled, appended⟩
  · exact .done trivial

/-- The loop ends with a settled run, unless it is left by an exception. -/
theorem loop_obeys (saw : sawTerminal = true → Settled past) :
    Obeys (Justified mode) Ended past (loop D notifier mode events sawTerminal) := by
  induction events generalizing past sawTerminal with
  | nil =>
    refine next_obeys ended_lenient fun later longer => ?_
    split
    · rename_i seen
      exact .done ((saw seen).mono longer)
    · refine append_obeys ended_lenient fun last _ closed => ?_
      refine .ask ⟨streamClosed, rfl, closed⟩ fun answer => ?_
      cases answer with
      | ok u => exact .done ⟨.interrupted, mem_last⟩
      | error e => exact .done trivial
  | cons event events ih =>
    refine next_obeys ended_lenient fun _ first => ?_
    refine append_obeys ended_lenient fun _ second appended => ?_
    refine announce_obeys ended_lenient fun later third => ?_
    refine (deliver_obeys (third.subset appended)).bind fun last answer fourth delivered => ?_
    cases answer with
    | returned terminal =>
      refine ih fun seen => ?_
      obtain seen | seen := Bool.or_eq_true_iff.mp seen
      · exact (saw seen).mono (first.trans (second.trans (third.trans fourth)))
      · rw [seen] at delivered
        exact delivered
    | raised | cancelled | exited => exact .done trivial

/-- The two ways in which a pump calls `_stop_and_terminalize`. -/
def STOPPING : List (RunStatus × String) :=
  [(.failed, "run_event_pump_failed"), (.interrupted, "run_event_pump_cancelled")]

theorem storable_stopped (stopping : (target, reasonCode) ∈ STOPPING) :
    Storable (stopped target reasonCode accepted) := by
  simp only [STOPPING, List.mem_cons, Prod.mk.injEq, List.not_mem_nil, or_false] at stopping
  obtain ⟨rfl, rfl⟩ | ⟨rfl, rfl⟩ := stopping
  · cases accepted <;> exact ⟨_, rfl, by decide +kernel, by decide +kernel⟩
  · cases accepted <;> exact ⟨_, rfl, by decide +kernel, by decide +kernel⟩

theorem caught_error (failed : StoreFailed past) (next : PumpPart Unit) (e : Fault) :
    Obeys (Justified mode) Returned past (caught next (.error e)) := by
  cases e with
  | encoding => exact .done trivial
  | store e =>
    cases e with
    | conflict | notFound => exact .done (.inr failed)
    | integrity => exact .done trivial

theorem stopped_supports (stopping : (target, reasonCode) ∈ STOPPING)
    (mem : ⟨.append (stopped target reasonCode accepted), .ok ()⟩ ∈ past) :
    Supports mode (Logged past) (Found past) target := by
  simp only [STOPPING, List.mem_cons, Prod.mk.injEq, List.not_mem_nil, or_false] at stopping
  obtain ⟨rfl, rfl⟩ | ⟨rfl, rfl⟩ := stopping
  · exact .inr (.inl ⟨_, rfl, mem⟩)
  · exact ⟨_, rfl, mem⟩

theorem recordStop_obeys (stopping : (target, reasonCode) ∈ STOPPING) :
    Obeys (Justified mode) Returned past (recordStop target reasonCode accepted) := by
  refine .ask trivial fun answer => ?_
  cases answer with
  | ok u =>
    refine .ask (stopped_supports stopping mem_last) fun answer => ?_
    cases answer with
    | ok u => exact .done (.inl ⟨target, mem_last⟩)
    | error e => exact caught_error (.inr ⟨target, e, mem_last⟩) _ e
  | error e => exact caught_error (.inl ⟨_, e, storable_stopped stopping, mem_last⟩) _ e

theorem stopAndTerminalize_obeys (stopping : (target, reasonCode) ∈ STOPPING) :
    Obeys (Justified mode) Returned past (stopAndTerminalize target reasonCode) := by
  refine .ask trivial fun answer => ?_
  cases answer with
  | returned accepted => exact recordStop_obeys stopping
  | raised => exact recordStop_obeys stopping
  | cancelled | exited => exact .done trivial

/-- A pump asks for statuses on evidence only, and has one when it returns. -/
theorem pump_obeys (D : Digests) (notifier : Bool) (mode : Mode) (events : List Delivery) :
    Obeys (Justified mode) Returned [] (pump D notifier mode events) := by
  have loops : Obeys (Justified mode) Ended [] (loop D notifier mode events false) :=
    loop_obeys (absurd · Bool.false_ne_true)
  refine loops.bind fun past answer _ ended => ?_
  cases answer with
  | returned u => exact .done (.inl ended)
  | raised => exact stopAndTerminalize_obeys (by decide)
  | cancelled =>
    refine (stopAndTerminalize_obeys (by decide)).bind fun later answer _ returned => ?_
    cases answer <;> exact .done trivial
  | exited => exact .done trivial

end EventPump

end Corvus.Runs
