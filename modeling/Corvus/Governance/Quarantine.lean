import Corvus.Library.Calendar
import Corvus.Library.Canonical
import Corvus.Library.Except
import Corvus.Library.Run
import Corvus.Library.Table
import Corvus.Library.Uuid
import Mathlib.Data.List.Find

/-!
# The quarantine of restores

`quarantine_restore` and `promote_quarantined_restore` of `GovernanceService`. A payload is
quarantined once over all projects, so a project is given the record of another that has
quarantined the payload before it. Until then the calls of a project are not affected by others.
-/

namespace Corvus.Governance

open Run

/-! ## Tables -/

inductive TeamRole where
  | owner | operator | viewer
deriving DecidableEq, Repr

structure TeamRow where
  id : String
  projectId : String

structure MemberRow where
  teamId : String
  principalId : String
  role : TeamRole

/-- The projects with their teams, which these calls only read. -/
structure Projects where
  ids : List String
  teams : List TeamRow
  members : List MemberRow

inductive RestoreStatus where
  | quarantined | reviewedImportCandidate

structure RestoreRow where
  id : Uuid
  projectId : String
  sourceDigest : String
  payloadJson : String
  status : RestoreStatus
  reason : String
  createdAt : Instant
  reviewedAt : Option Instant
  reviewedBy : Option String

instance : Keyed RestoreRow Uuid := ⟨RestoreRow.id⟩

/-- `RestoreQuarantineRecord`. -/
structure RestoreQuarantineRecord where
  id : Uuid
  projectId : String
  sourceDigest : String
  status : RestoreStatus
  reason : String
  createdAt : Instant
  reviewedAt : Option Instant
  reviewedBy : Option String

/-- `_restore`. -/
def RestoreRow.record (r : RestoreRow) : RestoreQuarantineRecord where
  id := r.id
  projectId := r.projectId
  sourceDigest := r.sourceDigest
  status := r.status
  reason := r.reason
  createdAt := r.createdAt
  reviewedAt := r.reviewedAt
  reviewedBy := r.reviewedBy

inductive Fault where
  | notFound (code : String)
  | conflict (code : String)
  | integrity

/-! ## The calls -/

/-- `_require_project_owner`. -/
def Projects.owns (p : Projects) (projectId actorId : String) : Bool :=
  p.members.any fun m => m.principalId = actorId ∧ m.role = .owner ∧
    p.teams.any fun t => t.id = m.teamId ∧ t.projectId = projectId

inductive Call where
  | quarantine (projectId : String) (payload : List (String × Json)) (recordId : Uuid)
      (now : Instant)
  | promote (restoreId : Uuid) (actorId : String) (now : Instant)

section

variable (D : Digests) (p : Projects)

/-- The digest of the text of a payload. -/
def sourceDigest (payload : List (String × Json)) : String := D.sha256 (Json.dumps (.obj payload))

/-- The row that `quarantine_restore` inserts. -/
def quarantined (projectId : String) (payload : List (String × Json)) (recordId : Uuid)
    (now : Instant) : RestoreRow where
  id := recordId
  projectId := projectId
  sourceDigest := sourceDigest D payload
  payloadJson := Json.dumps (.obj payload)
  status := .quarantined
  reason := "restore_cannot_replace_authority"
  createdAt := now
  reviewedAt := none
  reviewedBy := none

/-- `quarantine_restore`, with the id that is drawn for a new record. -/
def quarantineRestore (restores : Table RestoreRow) (projectId : String)
    (payload : List (String × Json)) (recordId : Uuid) (now : Instant) :
    Except Fault (RestoreQuarantineRecord × Table RestoreRow) := do
  require (projectId ∈ p.ids) (.notFound "project_not_found")
  match restores.rows.find? (·.sourceDigest = sourceDigest D payload) with
  | some existing => return (existing.record, restores)
  | none =>
      let row := quarantined D projectId payload recordId now
      let restores ← present (restores.insert? row) .integrity
      return (row.record, restores)

def reviewed (actorId : String) (now : Instant) : Rewrite RestoreRow where
  apply r := { r with
    status := .reviewedImportCandidate, reviewedAt := some now, reviewedBy := some actorId }
  keeps _ := rfl

/-- `promote_quarantined_restore`. -/
def promoteQuarantinedRestore (restores : Table RestoreRow) (restoreId : Uuid) (actorId : String)
    (now : Instant) : Except Fault (RestoreQuarantineRecord × Table RestoreRow) := do
  let row ← present (restores.get? restoreId) (.notFound "restore_quarantine_not_found")
  require (p.owns row.projectId actorId) (.conflict "team_owner_required")
  return ((reviewed actorId now row).record,
    restores.update (·.id = restoreId) (reviewed actorId now))

def answer (restores : Table RestoreRow) :
    Call → Except Fault (RestoreQuarantineRecord × Table RestoreRow)
  | .quarantine projectId payload recordId now =>
      quarantineRestore D p restores projectId payload recordId now
  | .promote restoreId actorId now => promoteQuarantinedRestore p restores restoreId actorId now

/-- What a call returns. -/
def response (restores : Table RestoreRow) (c : Call) : Except Fault RestoreQuarantineRecord :=
  (answer D p restores c).map Prod.fst

/-- The table after a call; a call that fails leaves it alone. -/
def step (restores : Table RestoreRow) (c : Call) : Table RestoreRow :=
  match answer D p restores c with
  | .ok (_, after) => after
  | .error _ => restores

/-! ## Isolation -/

/-- Whether a call is one of the project: it quarantines for the project, or promotes one of its
records. -/
def Call.of (project : String) (restores : Table RestoreRow) : Call → Bool
  | .quarantine projectId .. => projectId = project
  | .promote restoreId .. => (restores.get? restoreId).any (·.projectId = project)

/-- The calls of one project in a run. -/
def ownCalls (project : String) : Table RestoreRow → List Call → List Call
  | _, [] => []
  | restores, c :: calls =>
      if c.of project restores then c :: ownCalls project (step D p restores c) calls
      else ownCalls project (step D p restores c) calls

/-- What they return. -/
def ownResponses (project : String) :
    Table RestoreRow → List Call → List (Except Fault RestoreQuarantineRecord)
  | _, [] => []
  | restores, c :: calls =>
      if c.of project restores then
        response D p restores c :: ownResponses project (step D p restores c) calls
      else ownResponses project (step D p restores c) calls

/-- What all calls of a run return. -/
def responses : Table RestoreRow → List Call → List (Except Fault RestoreQuarantineRecord)
  | _, [] => []
  | restores, c :: calls => response D p restores c :: responses (step D p restores c) calls

/-- A record that `quarantine_restore` returns is one of the project, with the digest of the
payload. -/
def Requested (restores : Table RestoreRow) (c : Call) : Prop :=
  match c with
  | .quarantine projectId payload recordId now => ∀ record,
      response D p restores (.quarantine projectId payload recordId now) = .ok record →
        record.projectId = projectId ∧ record.sourceDigest = sourceDigest D payload
  | .promote .. => True

/-- Two calls of a run that quarantine equal payloads for one project return one record. -/
def Single (calls : List Call) : Prop :=
  ∀ before between after projectId payload payload' recordId recordId' now now' record record',
    calls = before ++ .quarantine projectId payload recordId now ::
      (between ++ .quarantine projectId payload' recordId' now' :: after) →
    Json.dumps (.obj payload) = Json.dumps (.obj payload') →
    response D p (exec (step D p) ∅ before) (.quarantine projectId payload recordId now) =
      .ok record →
    response D p (exec (step D p) ∅ (before ++ .quarantine projectId payload recordId now ::
      between)) (.quarantine projectId payload' recordId' now') = .ok record' →
    record.id = record'.id

/-- The quarantine keeps the projects apart. -/
structure Isolated (calls : List Call) : Prop where
  requested : Along (step D p) (Requested D p) ∅ calls
  single : Single D p calls
  reviewed : ∀ r ∈ exec (step D p) ∅ calls, r.status = .reviewedImportCandidate →
    ∃ actorId, r.reviewedBy = some actorId ∧ p.owns r.projectId actorId = true
  unaffected : ∀ project, ownResponses D p project ∅ calls =
    responses D p ∅ (ownCalls D p project ∅ calls)

/-- No other project has quarantined a payload of the same digest. -/
def Apart (restores : Table RestoreRow) (c : Call) : Prop :=
  match c with
  | .quarantine projectId payload .. => projectId ∈ p.ids →
      ∀ r ∈ restores.rows, r.sourceDigest = sourceDigest D payload → r.projectId = projectId
  | .promote .. => True

/-- `uuid4` draws an id that is not taken. -/
def Fresh (restores : Table RestoreRow) (c : Call) : Prop :=
  match c with
  | .quarantine _ _ recordId _ => ∀ r ∈ restores.rows, r.id ≠ recordId
  | .promote .. => True

end

/-! ## One call -/

section

variable {D : Digests} {p : Projects} {t after : Table RestoreRow} {c : Call}
  {project projectId actorId : String} {payload : List (String × Json)} {recordId restoreId : Uuid}
  {now : Instant} {record : RestoreQuarantineRecord}

theorem of_find {digest : String} {r : RestoreRow}
    (found : t.rows.find? (·.sourceDigest = digest) = some r) :
    r ∈ t.rows ∧ r.sourceDigest = digest :=
  ⟨List.mem_of_find?_eq_some found, by simpa using List.find?_some found⟩

theorem quarantineRestore_eq_ok :
    quarantineRestore D p t projectId payload recordId now = .ok (record, after) ↔
      projectId ∈ p.ids ∧
        ((∃ r, t.rows.find? (·.sourceDigest = sourceDigest D payload) = some r ∧
            r.record = record ∧ t = after) ∨
          t.rows.find? (·.sourceDigest = sourceDigest D payload) = none ∧
            t.insert? (quarantined D projectId payload recordId now) = some after ∧
              (quarantined D projectId payload recordId now).record = record) := by
  unfold quarantineRestore
  rw [bind_eq_ok]
  simp only [require_eq_ok, exists_const]
  cases found : t.rows.find? (·.sourceDigest = sourceDigest D payload) with
  | some r => simp [pure, Except.pure]
  | none => simp [bind_eq_ok, present_eq_ok, pure, Except.pure, and_comm]

theorem promote_eq_ok :
    promoteQuarantinedRestore p t restoreId actorId now = .ok (record, after) ↔
      ∃ r, t.get? restoreId = some r ∧ p.owns r.projectId actorId = true ∧
        (reviewed actorId now r).record = record ∧
          t.update (·.id = restoreId) (reviewed actorId now) = after := by
  unfold promoteQuarantinedRestore
  simp [bind_eq_ok, present_eq_ok, require_eq_ok, pure, Except.pure]

theorem response_eq_ok : response D p t c = .ok record ↔
    ∃ after, answer D p t c = .ok (record, after) := by
  unfold response
  cases answer D p t c with
  | error fault => simp [Except.map]
  | ok result => simp [Except.map, Prod.ext_iff]

/-- A call leaves the table, quarantines a payload whose digest is new, or promotes a record for
one who owns its project. -/
theorem step_cases (D : Digests) (p : Projects) (t : Table RestoreRow) (c : Call) :
    step D p t c = t ∨
      (∃ projectId payload recordId now, c = .quarantine projectId payload recordId now ∧
        (∀ r ∈ t.rows, r.sourceDigest ≠ sourceDigest D payload) ∧
        (step D p t c).rows = t.rows ++ [quarantined D projectId payload recordId now]) ∨
      ∃ restoreId actorId now r, c = .promote restoreId actorId now ∧
        t.get? restoreId = some r ∧ p.owns r.projectId actorId = true ∧
          step D p t c = t.update (·.id = restoreId) (reviewed actorId now) := by
  unfold step
  cases answered : answer D p t c with
  | error fault => exact .inl rfl
  | ok result =>
    obtain ⟨record, after⟩ := result
    cases c with
    | quarantine projectId payload recordId now =>
      obtain ⟨-, ⟨r, -, -, same⟩ | ⟨absent, inserted, -⟩⟩ := quarantineRestore_eq_ok.mp answered
      · exact .inl same.symm
      · refine .inr (.inl ⟨projectId, payload, recordId, now, rfl, fun r mem same => ?_, ?_⟩)
        · exact List.find?_eq_none.mp absent r mem (decide_eq_true same)
        · exact (Table.insert?_eq_some.mp inserted).2
    | promote restoreId actorId now =>
      obtain ⟨r, found, owner, -, same⟩ := promote_eq_ok.mp answered
      exact .inr (.inr ⟨restoreId, actorId, now, r, rfl, found, owner, same.symm⟩)

/-! ## What every run keeps -/

/-- `UNIQUE` of the digest, and records are reviewed by owners. -/
structure Sound (p : Projects) (t : Table RestoreRow) : Prop where
  unique : ∀ r ∈ t.rows, ∀ s ∈ t.rows, r.sourceDigest = s.sourceDigest → r = s
  owned : ∀ r ∈ t.rows, r.status = .reviewedImportCandidate →
    ∃ actorId, r.reviewedBy = some actorId ∧ p.owns r.projectId actorId = true

theorem sound_empty : Sound p ∅ := by
  refine ⟨fun r mem => ?_, fun r mem => ?_⟩
  · cases mem
  · cases mem

theorem Sound.step (sound : Sound p t) (c : Call) : Sound p (step D p t c) := by
  obtain same | ⟨projectId, payload, recordId, now, -, new, rows⟩ |
      ⟨restoreId, actorId, now, row, -, found, owner, same⟩ := step_cases D p t c
  · rw [same]
    exact sound
  · constructor
    · intro r mem s mem' digest
      rw [rows] at mem mem'
      rcases List.mem_append.mp mem with old | added <;>
        rcases List.mem_append.mp mem' with old' | added'
      · exact sound.unique r old s old' digest
      · rw [List.mem_singleton.mp added'] at digest
        exact absurd digest (new r old)
      · rw [List.mem_singleton.mp added] at digest
        exact absurd digest.symm (new s old')
      · rw [List.mem_singleton.mp added, List.mem_singleton.mp added']
    · intro r mem candidate
      rw [rows] at mem
      rcases List.mem_append.mp mem with old | added
      · exact sound.owned r old candidate
      · rw [List.mem_singleton.mp added] at candidate
        cases candidate
  · rw [same]
    constructor
    · intro r mem s mem' digest
      obtain ⟨r', old, rfl⟩ := Table.mem_update.mp mem
      obtain ⟨s', old', rfl⟩ := Table.mem_update.mp mem'
      have kept : ∀ r : RestoreRow, (if decide (r.id = restoreId) = true then
          reviewed actorId now r else r).sourceDigest = r.sourceDigest := by
        intro r
        split <;> rfl
      rw [kept, kept] at digest
      rw [sound.unique r' old s' old' digest]
    · intro r mem candidate
      obtain ⟨old, -⟩ | ⟨r', old, here, rfl⟩ := Table.of_mem_update mem
      · exact sound.owned r old candidate
      · have same_row : t.get? restoreId = some r' := by
          rw [← of_decide_eq_true here]
          exact Table.get?_of_mem old
        obtain rfl := Option.some.inj (found.symm.trans same_row)
        exact ⟨actorId, rfl, owner⟩

theorem sound_exec (D : Digests) (p : Projects) (calls : List Call) :
    Sound p (exec (Governance.step D p) ∅ calls) :=
  Run.preserves sound_empty (fun _ c sound => sound.step c) calls

/-- Records are never lost, and keep their digest. -/
theorem kept_step {r : RestoreRow} (mem : r ∈ t.rows) (c : Call) :
    ∃ s ∈ (Governance.step D p t c).rows, s.id = r.id ∧ s.sourceDigest = r.sourceDigest := by
  obtain same | ⟨projectId, payload, recordId, now, -, -, rows⟩ |
      ⟨restoreId, actorId, now, row, -, -, -, same⟩ := step_cases D p t c
  · rw [same]
    exact ⟨r, mem, rfl, rfl⟩
  · rw [rows]
    exact ⟨r, List.mem_append_left _ mem, rfl, rfl⟩
  · rw [same]
    refine ⟨_, Table.mem_update_of_mem mem, ?_, ?_⟩ <;> split <;> rfl

/-- Records are never lost. Only their review changes, and it is not taken back. -/
def Stay (t t' : Table RestoreRow) : Prop :=
  ∀ r ∈ t.rows, ∃ s ∈ t'.rows, (r.status = .reviewedImportCandidate → s.status = r.status) ∧
    s = { r with status := s.status, reviewedAt := s.reviewedAt, reviewedBy := s.reviewedBy }

theorem records_stay (D : Digests) (p : Projects) (calls more : List Call) :
    Stay (exec (Governance.step D p) ∅ calls) (exec (Governance.step D p) ∅ (calls ++ more)) := by
  rw [exec_append]
  refine Run.preserves (I := Stay _) (fun r mem => ⟨r, mem, fun _ => rfl, rfl⟩) ?_ more
  intro t c stay r mem
  obtain ⟨s, mem', status, same⟩ := stay r mem
  obtain unmoved | ⟨projectId, payload, recordId, now, -, -, rows⟩ |
      ⟨restoreId, actorId, now, row, -, -, -, after⟩ := step_cases D p t c
  · rw [unmoved]
    exact ⟨s, mem', status, same⟩
  · rw [rows]
    exact ⟨s, List.mem_append_left _ mem', status, same⟩
  · rw [after]
    refine ⟨_, Table.mem_update_of_mem mem', ?_⟩
    by_cases here : s.id = restoreId
    · rw [if_pos (decide_eq_true here), same]
      exact ⟨fun candidate => candidate.symm, rfl⟩
    · rw [if_neg (by simpa using here)]
      exact ⟨status, same⟩

/-- After a call that returns a record for a payload, a row has its id and the digest. -/
theorem quarantined_row
    (returned : response D p t (.quarantine projectId payload recordId now) = .ok record) :
    ∃ r ∈ (Governance.step D p t (.quarantine projectId payload recordId now)).rows,
      r.id = record.id ∧ r.sourceDigest = sourceDigest D payload := by
  obtain ⟨after, answered⟩ := response_eq_ok.mp returned
  rw [Governance.step, answered]
  obtain ⟨-, ⟨r, found, rfl, rfl⟩ | ⟨-, inserted, rfl⟩⟩ := quarantineRestore_eq_ok.mp answered
  · obtain ⟨mem, digest⟩ := of_find found
    exact ⟨r, mem, rfl, digest⟩
  · exact ⟨_, Table.mem_of_append (Table.insert?_eq_some.mp inserted).2, rfl, rfl⟩

theorem single_record (D : Digests) (p : Projects) (calls : List Call) : Single D p calls := by
  intro before between after projectId payload payload' recordId recordId' now now' record record'
    split equal returned returned'
  clear split
  have sound := sound_exec D p (before ++ .quarantine projectId payload recordId now :: between)
  have there : ∃ r ∈ (exec (Governance.step D p) ∅ (before ++
      .quarantine projectId payload recordId now :: between)).rows,
      r.id = record.id ∧ r.sourceDigest = sourceDigest D payload := by
    rw [exec_append, exec_cons]
    refine Run.preserves (I := fun t : Table RestoreRow => ∃ r ∈ t.rows, r.id = record.id ∧
      r.sourceDigest = sourceDigest D payload) (quarantined_row returned) ?_ between
    rintro t c ⟨r, mem, id, digest⟩
    obtain ⟨s, mem', same, same'⟩ := kept_step mem c
    exact ⟨s, mem', same.trans id, same'.trans digest⟩
  obtain ⟨r, mem, id, digest⟩ := there
  have same_digest : sourceDigest D payload = sourceDigest D payload' := congrArg D.sha256 equal
  obtain ⟨after', answered⟩ := response_eq_ok.mp returned'
  obtain ⟨-, ⟨s, found, rfl, -⟩ | ⟨absent, -⟩⟩ := quarantineRestore_eq_ok.mp answered
  · obtain ⟨mem', digest'⟩ := of_find found
    have rows := sound.unique r mem s mem' (digest.trans (same_digest.trans digest'.symm))
    rw [← id, rows]
    rfl
  · exact absurd (decide_eq_true (digest.trans same_digest)) (List.find?_eq_none.mp absent r mem)

theorem requested_iff (sound : Sound p t) (c : Call) : Requested D p t c ↔ Apart D p t c := by
  cases c with
  | promote restoreId actorId now => exact Iff.rfl
  | quarantine projectId payload recordId now =>
    constructor
    · intro requested known r mem digest
      cases found : t.rows.find? (·.sourceDigest = sourceDigest D payload) with
      | none => exact absurd (decide_eq_true digest) (List.find?_eq_none.mp found r mem)
      | some s =>
        have answered : quarantineRestore D p t projectId payload recordId now =
            .ok (s.record, t) :=
          quarantineRestore_eq_ok.mpr ⟨known, .inl ⟨s, found, rfl, rfl⟩⟩
        obtain ⟨mem', digest'⟩ := of_find found
        rw [sound.unique r mem s mem' (digest.trans digest'.symm)]
        exact (requested s.record (response_eq_ok.mpr ⟨t, answered⟩)).1
    · intro apart record returned
      obtain ⟨after, answered⟩ := response_eq_ok.mp returned
      obtain ⟨known, ⟨r, found, rfl, -⟩ | ⟨-, -, rfl⟩⟩ := quarantineRestore_eq_ok.mp answered
      · obtain ⟨mem, digest⟩ := of_find found
        exact ⟨apart known r mem digest, digest⟩
      · exact ⟨rfl, rfl⟩

/-! ## One project alone -/

/-- The records of one project. -/
def only (project : String) (t : Table RestoreRow) : Table RestoreRow :=
  t.remove (·.projectId ≠ project)

theorem rows_only : (only project t).rows = t.rows.filter (·.projectId = project) := by
  refine List.filter_congr fun r _ => ?_
  simp

theorem get?_only {r : RestoreRow} (found : t.get? restoreId = some r)
    (own : r.projectId = project) : (only project t).get? restoreId = some r := by
  obtain ⟨mem, rfl⟩ := Table.get?_eq_some.mp found
  refine Table.get?_of_mem ?_
  rw [Table.mem_iff, rows_only]
  exact List.mem_filter.mpr ⟨mem, decide_eq_true own⟩

/-- A promotion rewrites the records of a project as the project's own table has them. -/
theorem only_update : only project (t.update (·.id = restoreId) (reviewed actorId now)) =
    (only project t).update (·.id = restoreId) (reviewed actorId now) := by
  apply Table.ext
  rw [rows_only, Table.rows_update, Table.rows_update, rows_only, List.filter_map]
  congr 2
  funext r
  simp only [Function.comp_apply]
  split <;> rfl

/-- A call of the project does with the project's records alone what it does with all. -/
theorem answer_only (own : c.of project t = true) (apart : Apart D p t c) (fresh : Fresh t c) :
    answer D p (only project t) c =
      (answer D p t c).map fun result => (result.1, only project result.2) := by
  cases c with
  | quarantine projectId payload recordId now =>
    obtain rfl : projectId = project := of_decide_eq_true own
    change quarantineRestore D p (only projectId t) projectId payload recordId now =
      (quarantineRestore D p t projectId payload recordId now).map _
    unfold quarantineRestore
    by_cases known : projectId ∈ p.ids
    · have looked : (only projectId t).rows.find? (·.sourceDigest = sourceDigest D payload) =
          t.rows.find? (·.sourceDigest = sourceDigest D payload) := by
        rw [rows_only, List.find?_filter]
        refine List.find?_congr fun r mem => ?_
        by_cases digest : r.sourceDigest = sourceDigest D payload
        · simp [digest, apart known r mem digest]
        · simp [digest]
      rw [require_of known, looked]
      cases found : t.rows.find? (·.sourceDigest = sourceDigest D payload) with
      | some r => rfl
      | none =>
        obtain ⟨after, inserted⟩ := Table.exists_insert?
          (r := quarantined D projectId payload recordId now) fresh
        have rows := (Table.insert?_eq_some.mp inserted).2
        have inserted' : (only projectId t).insert? (quarantined D projectId payload recordId now) =
            some (only projectId after) := by
          refine Table.insert?_eq_some.mpr ⟨fun taken => ?_, ?_⟩
          · obtain ⟨r, mem, same⟩ := List.mem_map.mp taken
            rw [rows_only] at mem
            exact fresh r (List.mem_filter.mp mem).1 same
          · rw [rows_only, rows_only, rows, List.filter_append, List.filter_singleton]
            simp [quarantined]
        simp only [inserted, inserted']
        rfl
    · rw [require_of_not known]
      rfl
  | promote restoreId actorId now =>
    cases found : t.get? restoreId with
    | none =>
      rw [Call.of, found] at own
      cases own
    | some r =>
      rw [Call.of, found] at own
      have alone := get?_only found (of_decide_eq_true own)
      simp only [answer, promoteQuarantinedRestore, found, alone, present, ok_bind]
      by_cases owner : p.owns r.projectId actorId = true
      · rw [require_of owner, ok_bind, ok_bind, ← only_update]
        rfl
      · rw [require_of_not owner]
        rfl

/-- A call of another project does nothing to the project's records. -/
theorem only_step_other (other : c.of project t = false) :
    only project (Governance.step D p t c) = only project t := by
  apply Table.ext
  rw [rows_only, rows_only]
  obtain same | ⟨projectId, payload, recordId, now, rfl, -, rows⟩ |
      ⟨restoreId, actorId, now, row, rfl, found, -, same⟩ := step_cases D p t c
  · rw [same]
  · rw [rows, List.filter_append, List.filter_singleton]
    have apart : ¬ projectId = project := of_decide_eq_false other
    simp [quarantined, apart]
  · rw [Call.of, found] at other
    have apart : ¬ row.projectId = project := of_decide_eq_false other
    obtain ⟨mem, rfl⟩ := Table.get?_eq_some.mp found
    rw [← rows_only, same, only_update, Table.rows_update, ← rows_only]
    refine (List.map_congr_left fun r inside => if_neg ?_).trans (List.map_id _)
    intro here
    rw [rows_only] at inside
    obtain ⟨listed, own⟩ := List.mem_filter.mp inside
    obtain rfl : r = row := Table.eq_of_key listed mem (of_decide_eq_true here)
    exact apart (of_decide_eq_true own)

/-- What the calls of a project return is what they return where no other project calls. -/
theorem unaffected (project : String) (calls : List Call) (t : Table RestoreRow)
    (apart : Along (Governance.step D p) (Apart D p) t calls)
    (fresh : Along (Governance.step D p) Fresh t calls) :
    ownResponses D p project t calls =
      responses D p (only project t) (ownCalls D p project t calls) := by
  induction calls generalizing t with
  | nil => rfl
  | cons c calls ih =>
    rw [ownResponses, ownCalls, ih _ apart.2 fresh.2]
    cases own : c.of project t with
    | true =>
      have same := answer_only own apart.1 fresh.1
      have response_same : response D p (only project t) c = response D p t c := by
        rw [response, response, same]
        cases answer D p t c <;> rfl
      have step_same : Governance.step D p (only project t) c =
          only project (Governance.step D p t c) := by
        rw [Governance.step, Governance.step, same]
        cases answer D p t c <;> rfl
      rw [if_pos rfl, if_pos rfl, responses, response_same, step_same]
    | false =>
      rw [if_neg Bool.false_ne_true, if_neg Bool.false_ne_true, only_step_other own]

/-- Along every run whose ids are new, the quarantine keeps the projects apart just if no call
quarantines a payload whose digest another project has quarantined before. -/
theorem isolated_iff (D : Digests) (p : Projects) (calls : List Call)
    (fresh : Along (Governance.step D p) Fresh ∅ calls) :
    Isolated D p calls ↔ Along (Governance.step D p) (Apart D p) ∅ calls := by
  have agree : Along (Governance.step D p) (Requested D p) ∅ calls ↔
      Along (Governance.step D p) (Apart D p) ∅ calls :=
    Run.along_iff (I := Sound p) sound_empty (fun _ c sound _ => sound.step c)
      fun _ c sound => requested_iff sound c
  constructor
  · intro isolated
    exact agree.mp isolated.requested
  · intro apart
    refine ⟨agree.mpr apart, single_record D p calls, (sound_exec D p calls).owned, fun project => ?_⟩
    exact unaffected project calls ∅ apart fresh

end

namespace Sample

def digests : Digests := ⟨id, fun _ => .ofNat 0⟩

/-- Two projects, each with an owner. -/
def projects : Projects where
  ids := ["ours", "theirs"]
  teams := [⟨"our-team", "ours"⟩, ⟨"their-team", "theirs"⟩]
  members := [⟨"our-team", "alice", .owner⟩, ⟨"their-team", "mallory", .owner⟩]

def payload : List (String × Json) := [("project_name", .str "replacement")]

def first : Call := .quarantine "ours" payload (.ofNat 1) 0

def second : Call := .quarantine "theirs" payload (.ofNat 2) 1

theorem second_fresh : ∀ r ∈ (step digests projects ∅ first).rows, r.id ≠ .ofNat 2 := by
  decide +kernel

end Sample

/-- Both projects quarantine one payload, and the second is given the record of the first. -/
theorem record_of_another_project :
    Along (step Sample.digests Sample.projects) Fresh ∅ [Sample.first, Sample.second] ∧
      ¬ Isolated Sample.digests Sample.projects [Sample.first, Sample.second] := by
  refine ⟨⟨fun r mem => (by cases mem), Sample.second_fresh, trivial⟩, fun isolated => ?_⟩
  have returned : ((response Sample.digests Sample.projects
      (step Sample.digests Sample.projects ∅ Sample.first) Sample.second).toOption.map
        (·.projectId)) = some "ours" := by decide +kernel
  cases given : response Sample.digests Sample.projects
      (step Sample.digests Sample.projects ∅ Sample.first) Sample.second with
  | error fault =>
    rw [given] at returned
    cases returned
  | ok record =>
    rw [given] at returned
    have own := (isolated.requested.2.1 record given).1
    have project : record.projectId = "ours" := Option.some.inj returned
    exact absurd (project.symm.trans own) (by decide)

/-- The projects quarantine different payloads. -/
theorem isolated_iff_sample :
    Isolated Sample.digests Sample.projects [Sample.first, .quarantine "theirs" [] (.ofNat 2) 1] ↔
      Along (step Sample.digests Sample.projects) (Apart Sample.digests Sample.projects) ∅
        [Sample.first, .quarantine "theirs" [] (.ofNat 2) 1] :=
  isolated_iff Sample.digests Sample.projects _
    ⟨fun r mem => (by cases mem), Sample.second_fresh, trivial⟩

end Corvus.Governance
