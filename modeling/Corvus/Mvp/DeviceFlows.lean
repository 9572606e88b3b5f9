import Corvus.Library.Rollback
import Corvus.Library.Run
import Corvus.Library.Table
import Corvus.Mvp.Models

/-!
# Device authorization flows

The device flows of `GovernanceService`, over the tables that they read and write. A flow moves
forward in every run whose calls past a deadline find the flow where they can leave it expired:
a late approval writes `expired` and then raises inside its transaction, which takes the write back,
and a late poll writes `expired` whatever the flow has become.
-/

namespace Corvus.Mvp.Governance

open Rollback

inductive FlowStatus where
  | pending | approved | connected | expired
deriving DecidableEq, Repr

structure DeviceFlowRow where
  deviceCode : String
  userCode : String
  providerConnectionId : String
  status : FlowStatus
  expiresAt : Instant
  pollingIntervalSeconds : Nat
  approvedBy : Option String
  createdAt : Instant
  completedAt : Option Instant

instance : Keyed DeviceFlowRow String := ⟨DeviceFlowRow.deviceCode⟩

structure ProviderConnectionRow where
  id : String
  projectId : String
  provider : String
  credentialRef : String
  status : String
  createdAt : Instant

instance : Keyed ProviderConnectionRow String := ⟨ProviderConnectionRow.id⟩

structure TeamRow where
  id : String
  projectId : String

instance : Keyed TeamRow String := ⟨TeamRow.id⟩

structure TeamMemberRow where
  teamId : String
  principalId : String
  role : String

instance : Keyed TeamMemberRow (String × String) := ⟨fun row => (row.teamId, row.principalId)⟩

/-- The tables that the flows share with the other methods of the service. -/
structure Directory where
  providers : Table ProviderConnectionRow
  teams : Table TeamRow
  members : Table TeamMemberRow

structure Database where
  flows : Table DeviceFlowRow
  directory : Directory

/-- What a call returns of a flow. -/
structure DeviceFlow where
  deviceCode : String
  userCode : String
  providerConnectionId : String
  status : FlowStatus
  expiresAt : Instant
  pollingIntervalSeconds : Nat

def deviceFlow (row : DeviceFlowRow) (status : FlowStatus) : DeviceFlow where
  deviceCode := row.deviceCode
  userCode := row.userCode
  providerConnectionId := row.providerConnectionId
  status := status
  expiresAt := row.expiresAt
  pollingIntervalSeconds := row.pollingIntervalSeconds

/-! ## Statements -/

/-- A member of a team of the project is there as its owner. -/
def Directory.Owner (d : Directory) (projectId actorId : String) : Prop :=
  ∃ m ∈ d.members.rows, ∃ t ∈ d.teams.rows,
    t.id = m.teamId ∧ t.projectId = projectId ∧ m.principalId = actorId ∧ m.role = "owner"

instance (d : Directory) (projectId actorId : String) : Decidable (d.Owner projectId actorId) :=
  inferInstanceAs (Decidable (∃ m ∈ d.members.rows, ∃ t ∈ d.teams.rows, _))

def ProviderConnectionRow.connect : Rewrite ProviderConnectionRow :=
  ⟨fun row => { row with status := "connected" }, fun _ => rfl⟩

def Directory.connect (d : Directory) (providerConnectionId : String) : Directory where
  providers := d.providers.update (fun row => row.id = providerConnectionId)
    ProviderConnectionRow.connect
  teams := d.teams
  members := d.members

def DeviceFlowRow.expire : Rewrite DeviceFlowRow :=
  ⟨fun row => { row with status := .expired }, fun _ => rfl⟩

def DeviceFlowRow.approve (actorId : String) : Rewrite DeviceFlowRow :=
  ⟨fun row => { row with status := .approved, approvedBy := some actorId }, fun _ => rfl⟩

def DeviceFlowRow.connect (now : Instant) : Rewrite DeviceFlowRow :=
  ⟨fun row => { row with status := .connected, completedAt := some now }, fun _ => rfl⟩

def Database.setFlow (db : Database) (deviceCode : String) (f : Rewrite DeviceFlowRow) : Database :=
  { db with flows := db.flows.update (fun row => row.deviceCode = deviceCode) f }

/-- A flow beside the project of its connection. -/
structure JoinedFlow where
  flow : DeviceFlowRow
  projectId : String

/-- The first flow of the user code whose connection is there. -/
def Database.joined (db : Database) (userCode : String) : Option JoinedFlow :=
  db.flows.rows.findSome? fun row =>
    if row.userCode = userCode then
      (db.directory.providers.get? row.providerConnectionId).map fun p => ⟨row, p.projectId⟩
    else none

/-- The row of a new flow is stored unless one of its codes is taken. -/
def Database.insertFlow (db : Database) (row : DeviceFlowRow) : Except Error Database := do
  require (∀ other ∈ db.flows.rows, other.userCode ≠ row.userCode)
    (.integrity "mvp_device_flows.user_code")
  let flows ← present (db.flows.insert? row) (.integrity "mvp_device_flows.device_code")
  return { db with flows := flows }

/-! ## The calls -/

/-- The deadline of a flow: ten minutes, in microseconds. -/
def lifetime : Instant := 10 * 60 * 1000000

def newFlow (providerConnectionId deviceCode userCode : String) (now : Instant) :
    DeviceFlowRow where
  deviceCode := deviceCode
  userCode := userCode
  providerConnectionId := providerConnectionId
  status := .pending
  expiresAt := now + lifetime
  pollingIntervalSeconds := 5
  approvedBy := none
  createdAt := now
  completedAt := none

def beginDeviceFlow (providerConnectionId deviceCode userCode : String) (now : Instant) :
    Database → Except Error DeviceFlow × Database :=
  atomically do
    let db ← get
    let _ ← checked (present (db.directory.providers.get? providerConnectionId)
      (.notFound "provider_connection_not_found"))
    let row := newFlow providerConnectionId deviceCode userCode now
    let after ← checked (db.insertFlow row)
    modify fun _ => after
    return deviceFlow row .pending

def approveDeviceFlow (userCode actorId : String) (now : Instant) :
    Database → Except Error DeviceFlow × Database :=
  atomically do
    let db ← get
    let row ← checked (present (db.joined userCode) (.notFound "device_flow_not_found"))
    checked (require (db.directory.Owner row.projectId actorId) (.conflict "team_owner_required"))
    if row.flow.expiresAt ≤ now then do
      modify (·.setFlow row.flow.deviceCode DeviceFlowRow.expire)
      throw (.conflict "device_flow_expired")
    else do
      checked (require (row.flow.status = .pending ∨ row.flow.status = .approved)
        (.conflict "device_flow_not_pending"))
      modify (·.setFlow row.flow.deviceCode (DeviceFlowRow.approve actorId))
      return deviceFlow row.flow .approved

def pollDeviceFlow (deviceCode : String) (now : Instant) :
    Database → Except Error DeviceFlow × Database :=
  atomically do
    let db ← get
    let row ← checked (present (db.flows.get? deviceCode) (.notFound "device_flow_not_found"))
    if row.expiresAt ≤ now then do
      modify (·.setFlow deviceCode DeviceFlowRow.expire)
      return deviceFlow row .expired
    else if row.status = .approved then do
      modify (·.setFlow deviceCode (DeviceFlowRow.connect now))
      modify fun db => { db with directory := db.directory.connect row.providerConnectionId }
      return deviceFlow row .connected
    else return deviceFlow row row.status

/-- The calls on the flows with the codes that they draw and the time at which they are made, and
whatever else the service does with the tables that the flows share with it. -/
inductive Call where
  | beginFlow (providerConnectionId deviceCode userCode : String) (now : Instant)
  | approve (userCode actorId : String) (now : Instant)
  | poll (deviceCode : String) (now : Instant)
  | others (directory : Directory)

def Database.perform (db : Database) : Call → Database
  | .beginFlow providerConnectionId deviceCode userCode now =>
      (beginDeviceFlow providerConnectionId deviceCode userCode now db).2
  | .approve userCode actorId now => (approveDeviceFlow userCode actorId now db).2
  | .poll deviceCode now => (pollDeviceFlow deviceCode now db).2
  | .others directory => { db with directory := directory }

/-- The service before the first flow. -/
def Database.fresh (directory : Directory) : Database := ⟨∅, directory⟩

/-- What the calls leave behind of a service without flows. -/
abbrev Database.after (directory : Directory) (calls : List Call) : Database :=
  Run.exec Database.perform (.fresh directory) calls

/-! ## What a call does -/

section Step

variable {db after : Database} {userCode actorId deviceCode providerConnectionId : String}
  {now : Instant} {flow : DeviceFlow} {call : Call}

theorem joined_eq_some {row : JoinedFlow} (found : db.joined userCode = some row) :
    row.flow ∈ db.flows ∧ row.flow.userCode = userCode ∧
      ∃ p ∈ db.directory.providers, p.id = row.flow.providerConnectionId ∧
        p.projectId = row.projectId := by
  obtain ⟨before, f, behind, split, taken, -⟩ := List.findSome?_eq_some_iff.mp found
  by_cases named : f.userCode = userCode
  · rw [if_pos named, Option.map_eq_some_iff] at taken
    obtain ⟨p, there, rfl⟩ := taken
    obtain ⟨mem, same⟩ := Table.get?_eq_some.mp there
    refine ⟨Table.mem_iff.mpr ?_, named, p, mem, same, rfl⟩
    rw [split]
    exact List.mem_append_right _ List.mem_cons_self
  · rw [if_neg named] at taken
    exact absurd taken.symm (Option.some_ne_none _)

/-- The ways in which a call changes the tables. -/
inductive Step (db : Database) (call : Call) (after : Database) : Prop where
  | idle (same : after = db)
  | others (directory : Directory) (called : call = .others directory)
      (written : after = { db with directory := directory })
  | begun (row : DeviceFlowRow) (pending : row.status = .pending)
      (inserted : after.flows.rows = db.flows.rows ++ [row])
      (shared : after.directory = db.directory)
  | approved (row : DeviceFlowRow) (p : ProviderConnectionRow) (actorId : String) (now : Instant)
      (called : call = .approve row.userCode actorId now) (mem : row ∈ db.flows)
      (provider : p ∈ db.directory.providers) (its : p.id = row.providerConnectionId)
      (owner : db.directory.Owner p.projectId actorId) (early : now < row.expiresAt)
      (from_ : row.status = .pending ∨ row.status = .approved)
      (written : after = db.setFlow row.deviceCode (DeviceFlowRow.approve actorId))
  | expired (row : DeviceFlowRow) (now : Instant) (called : call = .poll row.deviceCode now)
      (mem : row ∈ db.flows) (late : row.expiresAt ≤ now)
      (written : after = db.setFlow row.deviceCode DeviceFlowRow.expire)
  | connected (row : DeviceFlowRow) (now : Instant) (called : call = .poll row.deviceCode now)
      (mem : row ∈ db.flows) (early : now < row.expiresAt) (from_ : row.status = .approved)
      (written : after = { db.setFlow row.deviceCode (DeviceFlowRow.connect now) with
        directory := db.directory.connect row.providerConnectionId })

theorem insertFlow_eq_ok {row : DeviceFlowRow} (inserted : db.insertFlow row = .ok after) :
    after.flows.rows = db.flows.rows ++ [row] ∧ after.directory = db.directory := by
  obtain ⟨-, -, rest⟩ := bind_eq_ok.mp inserted
  obtain ⟨flows, stored, same⟩ := bind_eq_ok.mp rest
  cases Except.ok.inj same
  exact ⟨(Table.insert?_eq_some.mp (present_eq_ok.mp stored)).2, rfl⟩

theorem step_begin (db : Database) : Step db
    (.beginFlow providerConnectionId deviceCode userCode now)
    (beginDeviceFlow providerConnectionId deviceCode userCode now db).2 := by
  obtain same | ⟨flow, ran⟩ := atomically_cases _ db
  · exact .idle same
  · rw [run_get_bind] at ran
    obtain ⟨-, -, ran⟩ := run_checked_bind_eq_ok.mp ran
    obtain ⟨after, stored, ran⟩ := run_checked_bind_eq_ok.mp ran
    rw [run_modify_bind] at ran
    obtain ⟨-, same⟩ := run_pure_eq_ok.mp ran
    obtain ⟨inserted, shared⟩ := insertFlow_eq_ok stored
    exact .begun _ rfl (same ▸ inserted) (same ▸ shared)

theorem step_approve (db : Database) : Step db (.approve userCode actorId now)
    (approveDeviceFlow userCode actorId now db).2 := by
  obtain same | ⟨flow, ran⟩ := atomically_cases _ db
  · exact .idle same
  · rw [run_get_bind] at ran
    obtain ⟨row, found, ran⟩ := run_checked_bind_eq_ok.mp ran
    obtain ⟨mem, rfl, p, provider, its, same⟩ := joined_eq_some (present_eq_ok.mp found)
    obtain ⟨_, owner, ran⟩ := run_checked_bind_eq_ok.mp ran
    have owner := require_eq_ok.mp owner
    by_cases late : row.flow.expiresAt ≤ now
    · rw [if_pos late, run_modify_bind] at ran
      exact absurd ran run_throw_ne_ok
    · rw [if_neg late] at ran
      obtain ⟨_, waiting, ran⟩ := run_checked_bind_eq_ok.mp ran
      rw [run_modify_bind] at ran
      obtain ⟨-, written⟩ := run_pure_eq_ok.mp ran
      exact .approved row.flow p actorId now rfl mem provider its (same ▸ owner) (not_le.mp late)
        (require_eq_ok.mp waiting) written.symm

theorem step_poll (db : Database) :
    Step db (.poll deviceCode now) (pollDeviceFlow deviceCode now db).2 := by
  obtain same | ⟨flow, ran⟩ := atomically_cases _ db
  · exact .idle same
  · rw [run_get_bind] at ran
    obtain ⟨row, found, ran⟩ := run_checked_bind_eq_ok.mp ran
    obtain ⟨mem, rfl⟩ := Table.get?_eq_some.mp (present_eq_ok.mp found)
    by_cases late : row.expiresAt ≤ now
    · rw [if_pos late, run_modify_bind] at ran
      obtain ⟨-, written⟩ := run_pure_eq_ok.mp ran
      exact .expired row now rfl mem late written.symm
    rw [if_neg late] at ran
    by_cases approved : row.status = .approved
    · rw [if_pos approved, run_modify_bind, run_modify_bind] at ran
      obtain ⟨-, written⟩ := run_pure_eq_ok.mp ran
      exact .connected row now rfl mem (not_le.mp late) approved written.symm
    · rw [if_neg approved] at ran
      obtain ⟨-, same⟩ := run_pure_eq_ok.mp ran
      exact .idle same.symm

/-- Every call is one of these steps. -/
theorem perform_step (db : Database) (call : Call) : Step db call (db.perform call) := by
  cases call with
  | beginFlow => exact step_begin db
  | approve => exact step_approve db
  | poll => exact step_poll db
  | others directory => exact .others directory rfl rfl

end Step

/-! ## What is promised of a run -/

/-- The ways that the status of a flow may go. -/
inductive Forward : FlowStatus → FlowStatus → Prop where
  | stay (status : FlowStatus) : Forward status status
  | approve : Forward .pending .approved
  | connect : Forward .approved .connected
  | expirePending : Forward .pending .expired
  | expireApproved : Forward .approved .expired

theorem Forward.of_expired {status : FlowStatus} (moved : Forward .expired status) :
    status = .expired := by
  cases moved
  rfl

/-- No flow is lost, each goes forward, and what is new is pending. -/
def MovesForward (db after : Database) : Prop :=
  db.flows.Evolves after.flows
    (fun row row' => row'.deviceCode = row.deviceCode ∧ Forward row.status row'.status)
    fun row => row.status = .pending

/-- The call is one on the flow, made at the given time. -/
inductive Names : Call → DeviceFlowRow → Instant → Prop where
  | approve {row : DeviceFlowRow} {actorId : String} {now : Instant} :
      Names (.approve row.userCode actorId now) row now
  | poll {row : DeviceFlowRow} {now : Instant} : Names (.poll row.deviceCode now) row now

/-- A call at or past the deadline of a flow that is not connected leaves it expired. -/
def LeavesExpired (db : Database) (call : Call) (after : Database) : Prop :=
  ∀ row ∈ db.flows, ∀ now, Names call row now → row.expiresAt ≤ now → row.status ≠ .connected →
    ∃ row' ∈ after.flows, row'.deviceCode = row.deviceCode ∧ row'.status = .expired

/-- A call on the flows connects the provider connection: it sets the status of the connection, or
completes a flow of it. -/
def Connects (db : Database) (call : Call) (after : Database) (providerConnectionId : String) :
    Prop :=
  (∀ directory, call ≠ .others directory) ∧
    ((∃ p ∈ db.directory.providers, ∃ p' ∈ after.directory.providers,
        p.id = providerConnectionId ∧ p'.id = p.id ∧ p.status ≠ "connected" ∧
          p'.status = "connected") ∨
      ∃ row ∈ db.flows, ∃ row' ∈ after.flows, row.providerConnectionId = providerConnectionId ∧
        row'.deviceCode = row.deviceCode ∧ row.status ≠ .connected ∧ row'.status = .connected)

/-- An owner of the project of the connection has approved the flow before its deadline. -/
def ApprovedInTime (directory : Directory) (earlier : List Call) (row : DeviceFlowRow) : Prop :=
  ∃ before actorId now behind, earlier = before ++ .approve row.userCode actorId now :: behind ∧
    now < row.expiresAt ∧
    ∃ p ∈ (Database.after directory before).directory.providers,
      p.id = row.providerConnectionId ∧
        (Database.after directory before).directory.Owner p.projectId actorId

/-- The flows are monotone through a run. -/
def Monotone (directory : Directory) (calls : List Call) : Prop :=
  ∀ earlier call later, calls = earlier ++ call :: later →
    let db := Database.after directory earlier
    MovesForward db (db.perform call) ∧ LeavesExpired db call (db.perform call) ∧
      ∀ providerConnectionId, Connects db call (db.perform call) providerConnectionId →
        ∃ row ∈ db.flows, row.providerConnectionId = providerConnectionId ∧
          (∃ now, call = .poll row.deviceCode now) ∧ ApprovedInTime directory earlier row

/-- An approval past the deadline finds the flow closed, and a poll past it does not find the flow
connected. -/
def Timely (db : Database) : Call → Prop
  | .approve userCode _ now => ∀ row ∈ db.flows.rows, row.userCode = userCode →
      row.expiresAt ≤ now → row.status = .connected ∨ row.status = .expired
  | .poll deviceCode now => ∀ row ∈ db.flows.rows, row.deviceCode = deviceCode →
      row.expiresAt ≤ now → row.status ≠ .connected
  | _ => True

/-! ## One call -/

section Promise

variable {db after : Database} {call : Call} {directory : Directory} {earlier calls : List Call}
  {row : DeviceFlowRow} {providerConnectionId : String}

theorem MovesForward.of_flows (same : after.flows = db.flows) : MovesForward db after := by
  rw [MovesForward, same]
  exact .refl fun row _ => ⟨rfl, .stay _⟩

theorem MovesForward.setFlow (mem : row ∈ db.flows) {f : Rewrite DeviceFlowRow}
    (forward : Forward row.status (f row).status) :
    MovesForward db (db.setFlow row.deviceCode f) := by
  refine .update (fun _ _ _ => ⟨rfl, .stay _⟩) fun row' mem' named => ?_
  have same : row' = row := Table.eq_of_key mem' mem (of_decide_eq_true named)
  subst same
  exact ⟨f.keeps row', forward⟩

theorem mem_setFlow (mem : row ∈ db.flows) (f : Rewrite DeviceFlowRow) :
    f row ∈ (db.setFlow row.deviceCode f).flows := by
  have updated := Table.mem_update_of_mem (p := fun r => r.deviceCode = row.deviceCode) (f := f) mem
  rwa [if_pos (decide_eq_true rfl)] at updated

/-- A flow moves forward unless a late poll finds it connected. -/
theorem movesForward (step : Step db call after) (timely : Timely db call) :
    MovesForward db after := by
  cases step with
  | idle same => exact .of_flows (congrArg Database.flows same)
  | others directory called written =>
    rw [written]
    exact .of_flows rfl
  | begun row pending inserted shared =>
    exact .insert inserted (fun _ _ => ⟨rfl, .stay _⟩) pending
  | approved row p actorId now called mem provider its owner early from_ written =>
    rw [written]
    refine .setFlow mem ?_
    obtain pending | approved := from_
    · rw [pending]
      exact .approve
    · rw [approved]
      exact .stay _
  | expired row now called mem late written =>
    rw [written]
    subst called
    refine .setFlow mem ?_
    have open_ := timely row mem rfl late
    show Forward row.status .expired
    cases status : row.status with
    | pending => exact .expirePending
    | approved => exact .expireApproved
    | connected => exact absurd status open_
    | expired => exact .stay _
  | connected row now called mem early from_ written =>
    rw [written]
    refine MovesForward.setFlow (f := DeviceFlowRow.connect now) mem ?_
    rw [from_]
    exact .connect

/-- A late poll leaves the flow expired whatever it was. -/
theorem perform_poll_late {now : Instant} (mem : row ∈ db.flows) (late : row.expiresAt ≤ now) :
    db.perform (.poll row.deviceCode now) = db.setFlow row.deviceCode DeviceFlowRow.expire := by
  have found : db.flows.get? row.deviceCode = some row := Table.get?_of_mem mem
  have ran : pollDeviceFlow row.deviceCode now db =
      (.ok (deviceFlow row .expired), db.setFlow row.deviceCode DeviceFlowRow.expire) := by
    apply atomically_of_ok
    rw [run_get_bind]
    refine run_checked_bind_eq_ok.mpr ⟨row, present_eq_ok.mpr found, ?_⟩
    rw [if_pos late, run_modify_bind]
    rfl
  show (pollDeviceFlow row.deviceCode now db).2 = _
  rw [ran]

/-- A late approval by an owner is told that the flow has expired, which nothing records. -/
theorem approveDeviceFlow_late {userCode actorId : String} {now : Instant} {row : JoinedFlow}
    (found : db.joined userCode = some row) (owner : db.directory.Owner row.projectId actorId)
    (late : row.flow.expiresAt ≤ now) :
    approveDeviceFlow userCode actorId now db = (.error (.conflict "device_flow_expired"), db) := by
  apply atomically_of_error
  rw [run_get_bind, present_eq_ok.mpr found, run_checked_bind, require_of owner, run_checked_bind,
    if_pos late, run_modify_bind]
  rfl

/-- A late approval leaves the flow as it was. -/
theorem mem_approve_late {actorId : String} {now : Instant} (mem : row ∈ db.flows)
    (late : row.expiresAt ≤ now) :
    row ∈ (db.perform (.approve row.userCode actorId now)).flows := by
  cases perform_step db (.approve row.userCode actorId now) with
  | idle same => rwa [same]
  | others directory called written => rwa [written]
  | begun new pending inserted shared => exact Table.mem_append_of_mem inserted mem
  | approved row' p actorId' now' called mem' provider its owner early from_ written =>
    rw [written]
    have updated := Table.mem_update_of_mem (p := fun r => r.deviceCode = row'.deviceCode)
      (f := DeviceFlowRow.approve actorId') mem
    by_cases same : row.deviceCode = row'.deviceCode
    · cases Table.eq_of_key mem mem' same
      cases called
      exact absurd early (not_lt.mpr late)
    · rwa [if_neg fun holds => same (of_decide_eq_true holds)] at updated
  | expired row' now' called => cases called
  | connected row' now' called => cases called

theorem leavesExpired_iff :
    MovesForward db (db.perform call) ∧ LeavesExpired db call (db.perform call) ↔
      Timely db call := by
  constructor
  · rintro ⟨forward, expired⟩
    cases call with
    | approve userCode actorId now =>
      rintro row mem rfl late
      by_cases connected : row.status = .connected
      · exact .inl connected
      · obtain ⟨row', mem', same, status⟩ := expired row mem now .approve late connected
        have kept := @mem_approve_late db row actorId now mem late
        cases Table.eq_of_key mem' kept same
        exact .inr status
    | poll deviceCode now =>
      rintro row mem rfl late connected
      obtain ⟨row', mem', same, moved⟩ := forward.forth row mem
      rw [perform_poll_late mem late] at mem'
      cases Table.eq_of_key mem' (mem_setFlow mem DeviceFlowRow.expire) same
      rw [connected] at moved
      cases moved
    | _ => trivial
  · intro timely
    have forward := movesForward (perform_step db call) timely
    refine ⟨forward, fun row mem now names late open_ => ?_⟩
    cases names with
    | approve =>
      have closed := (timely row mem rfl late).resolve_left open_
      obtain ⟨row', mem', same, moved⟩ := forward.forth row mem
      rw [closed] at moved
      exact ⟨row', mem', same, moved.of_expired⟩
    | poll =>
      rw [perform_poll_late mem late]
      exact ⟨_, mem_setFlow mem DeviceFlowRow.expire, rfl, rfl⟩

/-! ## Where a connection comes from -/

theorem eq_of_mem_setFlow {deviceCode : String} {f : Rewrite DeviceFlowRow} {row' : DeviceFlowRow}
    (mem : row ∈ db.flows) (mem' : row' ∈ (db.setFlow deviceCode f).flows)
    (same : row'.deviceCode = row.deviceCode) :
    row' = if row.deviceCode = deviceCode then f row else row := by
  have updated := Table.mem_update_of_mem (p := fun r => r.deviceCode = deviceCode) (f := f) mem
  have its : key (if decide (row.deviceCode = deviceCode) then f row else row) = key row :=
    Table.key_ite (p := fun r => r.deviceCode = deviceCode) row
  have eq := Table.eq_of_key mem' updated (same.trans its.symm)
  simpa only [decide_eq_true_eq] using eq

/-- What connects is a poll of an approved flow. -/
theorem Connects.polled (connects : Connects db call after providerConnectionId)
    (step : Step db call after) : ∃ row ∈ db.flows, ∃ now, call = .poll row.deviceCode now ∧
      row.status = .approved ∧ row.providerConnectionId = providerConnectionId := by
  obtain ⟨internal, changed⟩ := connects
  -- Only the step `connected` writes the status that the flow or its connection comes by.
  have kept : after.directory = db.directory → (∀ row ∈ db.flows, ∀ row' ∈ after.flows,
      row'.deviceCode = row.deviceCode → row.status ≠ .connected → row'.status ≠ .connected) →
        False := by
    intro shared unconnected
    obtain ⟨p, mem, p', mem', rfl, same, was, is⟩ | ⟨row, mem, row', mem', -, same, was, is⟩ :=
      changed
    · rw [shared] at mem'
      cases Table.eq_of_key mem' mem same
      exact was is
    · exact unconnected row mem row' mem' same was is
  cases step with
  | idle same =>
    subst same
    refine (kept rfl fun row mem row' mem' same was => ?_).elim
    rwa [Table.eq_of_key mem' mem same]
  | others directory called => exact absurd called (internal directory)
  | begun new pending inserted shared =>
    refine (kept shared fun row mem row' mem' same was => ?_).elim
    rwa [Table.eq_of_key mem' (Table.mem_append_of_mem inserted mem) same]
  | approved row p actorId now called mem provider its owner early from_ written =>
    subst written
    refine (kept rfl fun row₁ mem₁ row₂ mem₂ same was => ?_).elim
    rw [eq_of_mem_setFlow mem₁ mem₂ same]
    split
    · exact FlowStatus.noConfusion
    · exact was
  | expired row now called mem late written =>
    subst written
    refine (kept rfl fun row₁ mem₁ row₂ mem₂ same was => ?_).elim
    rw [eq_of_mem_setFlow mem₁ mem₂ same]
    split
    · exact FlowStatus.noConfusion
    · exact was
  | connected row now called mem early from_ written =>
    refine ⟨row, mem, now, called, from_, ?_⟩
    subst written
    obtain ⟨p, mem', p', mem'', rfl, same, was, is⟩ |
      ⟨row₁, mem₁, row₂, mem₂, rfl, same, was, is⟩ := changed
    · by_contra other
      have updated := Table.mem_update_of_mem (p := fun r => r.id = row.providerConnectionId)
        (f := ProviderConnectionRow.connect) mem'
      rw [if_neg fun holds => other (of_decide_eq_true holds).symm] at updated
      cases Table.eq_of_key mem'' updated same
      exact was is
    · by_contra other
      rw [eq_of_mem_setFlow mem₁ mem₂ same, if_neg] at is
      · exact was is
      · intro its
        cases Table.eq_of_key mem₁ mem its
        exact other rfl

/-- The columns of a flow that no statement writes. -/
structure SameFlow (row row' : DeviceFlowRow) : Prop where
  deviceCode : row'.deviceCode = row.deviceCode
  userCode : row'.userCode = row.userCode
  provider : row'.providerConnectionId = row.providerConnectionId
  expiresAt : row'.expiresAt = row.expiresAt

/-- The flow is there as an approved one. -/
def ApprovedFlow (row : DeviceFlowRow) (db : Database) : Prop :=
  ∃ row' ∈ db.flows, SameFlow row row' ∧ row'.status = .approved

/-- The call is an approval of the flow, in time, by an owner of the project of its connection. -/
def Approves (row : DeviceFlowRow) (db : Database) (call : Call) : Prop :=
  ∃ actorId now, call = .approve row.userCode actorId now ∧ now < row.expiresAt ∧
    ∃ p ∈ db.directory.providers, p.id = row.providerConnectionId ∧
      db.directory.Owner p.projectId actorId

/-- Only an approval turns a flow into an approved one. -/
theorem approvedFlow_arises (approved : ApprovedFlow row (db.perform call)) :
    ApprovedFlow row db ∨ Approves row db call := by
  obtain ⟨row', mem, same, status⟩ := approved
  have unwritten : ∀ {code : String} {f : Rewrite DeviceFlowRow},
      (∀ r, (f r).status ≠ .approved) → row' ∈ (db.setFlow code f).flows → ApprovedFlow row db := by
    intro code f other mem
    obtain ⟨mem, -⟩ | ⟨r, -, -, rfl⟩ := Table.of_mem_update mem
    · exact ⟨row', mem, same, status⟩
    · exact absurd status (other r)
  generalize settled : db.perform call = after at mem
  have step := perform_step db call
  rw [settled] at step
  cases step with
  | idle unchanged =>
    rw [unchanged] at mem
    exact .inl ⟨row', mem, same, status⟩
  | others directory called written =>
    rw [written] at mem
    exact .inl ⟨row', mem, same, status⟩
  | begun new pending inserted shared =>
    rw [Table.mem_iff, inserted, List.mem_append, List.mem_singleton] at mem
    obtain mem | rfl := mem
    · exact .inl ⟨row', mem, same, status⟩
    · rw [pending] at status
      cases status
  | approved r p actorId now called memR provider its owner early from_ written =>
    rw [written] at mem
    obtain ⟨mem, -⟩ | ⟨r', mem', named, rfl⟩ := Table.of_mem_update mem
    · exact .inl ⟨row', mem, same, status⟩
    · cases Table.eq_of_key mem' memR (of_decide_eq_true named)
      refine .inr ⟨actorId, now, ?_, ?_, p, provider, its.trans same.provider, owner⟩
      · rw [called]
        exact congrArg (Call.approve · actorId now) same.userCode
      · exact lt_of_lt_of_eq early same.expiresAt
  | expired r now called memR late written =>
    rw [written] at mem
    exact .inl (unwritten (fun _ => FlowStatus.noConfusion) mem)
  | connected r now called memR early from_ written =>
    rw [written] at mem
    exact .inl (unwritten (f := DeviceFlowRow.connect now) (fun _ => FlowStatus.noConfusion) mem)

/-- A flow that has come to be approved has been approved in time. -/
theorem approvedInTime (mem : row ∈ (Database.after directory earlier).flows)
    (approved : row.status = .approved) : ApprovedInTime directory earlier row := by
  have start : ¬ ApprovedFlow row (.fresh directory) := by
    rintro ⟨row', none, -⟩
    exact absurd none Table.not_mem_empty
  obtain ⟨before, call, behind, rfl, actorId, now, rfl, early, p, provider, its, owner⟩ :=
    Run.exists_origin start (fun _ _ => approvedFlow_arises)
      ⟨row, mem, ⟨rfl, rfl, rfl, rfl⟩, approved⟩
  exact ⟨before, actorId, now, behind, rfl, early, p, provider, its, owner⟩

/-- The flows are monotone through a run just if every call of it is timely. -/
theorem monotone_iff_timely (directory : Directory) (calls : List Call) :
    Monotone directory calls ↔
      Run.Along Database.perform Timely (.fresh directory) calls := by
  constructor
  · intro monotone
    apply Run.along_of_at
    intro earlier call later split
    obtain ⟨forward, expired, -⟩ := monotone earlier call later split
    exact leavesExpired_iff.mp ⟨forward, expired⟩
  · rintro timely earlier call later rfl
    obtain ⟨forward, expired⟩ := leavesExpired_iff.mpr timely.at
    refine ⟨forward, expired, fun providerConnectionId connects => ?_⟩
    obtain ⟨row, mem, now, called, approved, its⟩ := connects.polled (perform_step _ call)
    exact ⟨row, mem, its, ⟨now, called⟩, approvedInTime mem approved⟩

end Promise

/-! ## Two runs -/

def desk : Directory where
  providers := ⟨[⟨"github", "p", "simulated", "vault:github", "configured", 0⟩], by decide⟩
  teams := ⟨[⟨"t", "p"⟩], by decide⟩
  members := ⟨[⟨"t", "ada", "owner"⟩], by decide⟩

/-- The owner approves when the deadline is reached. -/
def lateApproval : List Call :=
  [.beginFlow "github" "device" "USER" 0, .approve "USER" "ada" lifetime]

/-- A poll reaches the deadline of a flow that has been connected. -/
def latePoll : List Call :=
  [.beginFlow "github" "device" "USER" 0, .approve "USER" "ada" 1, .poll "device" 2,
    .poll "device" lifetime]

/-- The first run leaves the flow pending, and the second one takes it out of `connected`. -/
theorem late_calls_not_monotone :
    ((Database.after desk lateApproval).flows.rows.map (·.status) = [.pending] ∧
      ¬ Monotone desk lateApproval) ∧
    ((Database.after desk (latePoll.take 3)).flows.rows.map (·.status) = [.connected] ∧
      (Database.after desk latePoll).flows.rows.map (·.status) = [.expired] ∧
        ¬ Monotone desk latePoll) := by
  have late : ∀ directory calls, Monotone directory calls → ∀ earlier call later,
      calls = earlier ++ call :: later → Timely (Database.after directory earlier) call := by
    intro directory calls monotone earlier call later split
    obtain ⟨forward, expired, -⟩ := monotone earlier call later split
    exact leavesExpired_iff.mp ⟨forward, expired⟩
  refine ⟨⟨by decide +kernel, fun monotone => ?_⟩, by decide +kernel, by decide +kernel,
    fun monotone => ?_⟩
  · have timely := late _ _ monotone [.beginFlow "github" "device" "USER" 0] _ [] rfl
    revert timely
    show ¬ ∀ row ∈ _, _
    decide +kernel
  · have timely := late _ _ monotone (latePoll.take 3) _ [] rfl
    revert timely
    show ¬ ∀ row ∈ _, _
    decide +kernel

end Corvus.Mvp.Governance
