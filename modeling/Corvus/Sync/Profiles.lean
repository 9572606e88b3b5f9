import Corvus.Sync.Writers

/-!
# The log and the profile of a workspace

A workspace is renamed through two repositories, and only one of them appends to the log. As
long as the other one renames no workspace whose log tells a profile, a reader of the log holds
the current profile, and an update of the version it holds is no conflict.
-/

namespace Corvus.Sync

open Run Tables

variable {S : Security} {s s' : Tables} {w : Uuid}

/-! ## Readers -/

/-- The profile that a reader holds who has consumed some changes in their order. -/
def consumed (changes : List WorkspaceChange) : Option Profile :=
  changes.foldl (fun held c => if c.kind = .workspaceProfile then some c.payload else held) none

/-- The log of a workspace up to its high watermark. -/
def logOf (s : Tables) (w : Uuid) : List WorkspaceChange :=
  s.changesBetween w 0 (height s w).1

theorem Sound.logOf (sound : Sound s) (w : Uuid) : logOf s w = s.changesOf w := by
  have log := sound.log w
  have all : (s.changesOf w).filter (fun c => 0 < c.sequence ∧ c.sequence ≤ (height s w).1) =
      s.changesOf w := by
    refine List.filter_eq_self.mpr fun c mem => decide_eq_true ?_
    rw [sound.ends]
    exact log.number_bounds mem
  rw [Sync.logOf, changesBetween, all, log.insertionSort]

theorem Sound.lastProfileChange (sound : Sound s) (w : Uuid) :
    lastProfileChange s w = ((s.changesOf w).filter (·.kind = .workspaceProfile)).getLast? :=
  argmax_of_pairwise ((sound.log w).pairwise.filter _)

theorem consumed_eq (changes : List WorkspaceChange) :
    consumed changes = (changes.filter (·.kind = .workspaceProfile)).getLast?.map (·.payload) := by
  induction changes using List.reverseRecOn with
  | nil => rfl
  | append_singleton changes c ih =>
    rw [consumed, List.foldl_concat, ← consumed, ih, List.filter_append]
    by_cases kind : c.kind = .workspaceProfile
    · simp [kind]
    · simp [kind]

/-! ## What is no conflict -/

/-- An error that tells its caller nothing to go on with. -/
def SyncError.Plain : SyncError → Prop
  | conflict _ | resyncRequired _ => False
  | _ => True

open SyncError (Plain)

theorem raises_authorize {caller : Caller} : Raises Plain (s.authorize caller) := by
  refine (raises_require trivial).bind fun _ _ => ?_
  refine (raises_present trivial).bind fun device _ => ?_
  refine (raises_require trivial).bind fun _ _ => ?_
  refine (raises_present trivial).bind fun membership _ => ?_
  refine (raises_require trivial).bind fun _ _ => ?_
  refine (raises_present trivial).bind fun workspace _ => ?_
  exact (raises_require trivial).bind fun _ _ => raises_ok _

theorem raises_head : Raises Plain (s.head w) := by
  rw [Tables.head]
  cases s.heads.get? w with
  | some row => exact raises_ok _
  | none => exact raises_ite (raises_error trivial) (raises_ok _)

theorem raises_validatedChange {row : WorkspaceChange} {expected : Option String} :
    Raises Plain (validatedChange S row expected) := by
  refine (raises_refuse trivial).bind fun _ _ => ?_
  refine (raises_require trivial).bind fun _ _ => ?_
  refine (raises_require trivial).bind fun _ _ => ?_
  refine (raises_require trivial).bind fun _ _ => ?_
  refine (raises_require trivial).bind fun _ _ => ?_
  exact (raises_require trivial).bind fun _ _ => raises_ok _

theorem raises_digestBefore {sequence : Nat} : Raises Plain (s.digestBefore w sequence) := by
  rw [digestBefore]
  apply raises_ite
  · exact raises_ok _
  · exact raises_present trivial

theorem raises_validateHeadTail {sequence : Nat} {digest : String} :
    Raises Plain (validateHeadTail S s w sequence digest) := by
  rw [validateHeadTail]
  apply raises_ite
  · exact raises_require trivial
  · refine (raises_present trivial).bind fun tail _ => ?_
    refine (raises_require trivial).bind fun _ _ => ?_
    refine raises_digestBefore.bind fun previous _ => ?_
    exact raises_validatedChange.bind fun _ _ => raises_ok _

theorem raises_acknowledge {workspace : Workspace} {caller : Caller}
    {membershipVersion cursor high : Nat} {now : Instant} :
    Raises Plain (s.acknowledge workspace caller membershipVersion cursor high now) := by
  refine (raises_refuse trivial).bind fun _ _ => ?_
  refine (raises_refuse trivial).bind fun _ _ => ?_
  refine raises_ite ((raises_present trivial).bind fun _ _ => raises_ok _) (raises_ok _)

theorem raises_replay {caller : Caller} {membershipVersion : Nat} {m : SyncMutation}
    {digest : String} : Raises Plain (s.replay caller membershipVersion m digest) := by
  rw [replay]
  split
  · exact raises_ok _
  · exact raises_ite (raises_error trivial) (raises_ok _)

theorem raises_appendChange {D : Digests} {workspace : Workspace} {caller : Caller}
    {membershipVersion sequence : Nat} {previous : String} {m : SyncMutation} {profile : Profile}
    {now : Instant} :
    Raises Plain (appendChange D s workspace caller membershipVersion sequence previous m profile
      now) := by
  refine (raises_present trivial).bind fun changes _ => ?_
  refine (raises_present trivial).bind fun outbox _ => ?_
  exact (raises_require trivial).bind fun _ _ => raises_ok _

/-- A mutation of the profile of a workspace that names its version is no conflict. -/
theorem raises_applyEntity {m : SyncMutation} {index : Nat} {workspace : Workspace} {role : String}
    {accountId : Uuid} {now : Instant} (kind : m.kind = .workspaceProfile)
    (version : workspace.version = m.expectedVersion) :
    Raises Plain (s.applyEntity m index workspace role accountId now) := by
  cases payload : m.payload with
  | account p =>
    rw [SyncMutation.kind, payload] at kind
    cases kind
  | workspace p =>
    rw [applyEntity, payload]
    refine (raises_require trivial).bind fun _ _ => ?_
    rw [require_of version, ok_bind]
    refine (raises_require trivial).bind fun _ _ => ?_
    exact (raises_present trivial).bind fun _ _ => raises_ok _

theorem raises_apply {caller : Caller} {m : SyncMutation} {current : Workspace} (cursor : Nat)
    (now : Instant) (latest : s.latestWorkspace caller.workspaceId = some current)
    (kind : m.kind = .workspaceProfile) (version : current.version = m.expectedVersion) :
    Raises Plain (s.apply S caller cursor [m] now) := by
  refine (raises_refuse trivial).bind fun _ _ => ?_
  refine raises_authorize.bind ?_
  rintro ⟨workspace, role, membershipVersion⟩ authorized
  have latest' := authorize_ok authorized
  rw [latest] at latest'
  obtain rfl := Option.some.inj latest'
  refine raises_head.bind fun first _ => ?_
  refine raises_head.bind fun head _ => ?_
  refine raises_validateHeadTail.bind fun _ _ => ?_
  refine raises_acknowledge.bind fun t _ => ?_
  refine Raises.bind ?_ fun _ _ => raises_ok _
  refine Raises.bind ?_ fun _ _ => raises_ok _
  refine raises_replay.bind ?_
  rintro (_ | result) -
  · refine (raises_applyEntity kind version).bind fun _ _ => ?_
    refine raises_appendChange.bind fun _ _ => ?_
    exact ((raises_present trivial).bind fun _ _ => raises_ok _).bind fun _ _ => raises_ok _
  · exact raises_ok _

/-! ## The log follows the writers -/

/-- The last change of the profile carries the current version and profile, which a reader of
the log holds, and whose update at that version is no conflict. -/
structure Follows (S : Security) (s : Tables) (w : Uuid) (c : WorkspaceChange) : Prop where
  current : ∃ current, s.latestWorkspace w = some current ∧
    c.entityVersion = current.version ∧ c.payload = .workspace current.profile ∧
    consumed (logOf s w) = some (.workspace current.profile)
  update : ∀ caller cursor m now detail, caller.workspaceId = w → m.kind = .workspaceProfile →
    m.expectedVersion = c.entityVersion →
    s.apply S caller cursor [m] now ≠ .error (.conflict detail)

/-- If the log of a workspace tells its profile, it tells the current one. -/
def UpToDate (S : Security) (s : Tables) (w : Uuid) : Prop :=
  ∀ c, lastProfileChange s w = some c → Follows S s w c

/-- The repository of identities updates no workspace whose log tells its profile: none of its
calls passes the checks. -/
def Unlogged (w : Uuid) (s : Tables) (action : Action) : Prop :=
  ∀ principalId name expected now current,
    action = .updateWorkspace principalId w name expected now →
    s.workspaceForUpdate principalId w = .ok current → current.version = expected →
    lastProfileChange s w = none

theorem Sound.upToDate (sound : Sound s) (told : Told s w) : UpToDate S s w := by
  intro c last
  obtain ⟨current, latest, version, payload⟩ := told c last
  constructor
  · refine ⟨current, latest, version, payload, ?_⟩
    rw [sound.logOf, consumed_eq, ← sound.lastProfileChange, last, Option.map_some, payload]
  · rintro caller cursor m now detail rfl kind expected conflict
    have plain : Raises Plain (s.apply S caller cursor [m] now) :=
      raises_apply cursor now latest kind (version.symm.trans expected.symm)
    exact plain _ conflict

theorem Effect.told {action : Action} (sound : Sound s) (effect : Effect S s action s')
    (unlogged : Unlogged w s action) (told : Told s w) : Told s' w := by
  cases effect with
  | beside beside => exact beside.told told
  | begun fresh inserted =>
    intro c last
    obtain ⟨current, latest, facts⟩ := told c last
    rw [begin_latestWorkspace fresh inserted]
    split
    · rename_i same
      rw [latestWorkspace, ← same, fresh] at latest
      cases latest
    · exact ⟨current, latest, facts⟩
  | @updated principalId v name expected now current updated _ read version updates =>
    intro c last
    rw [lastProfileChange, updates.changesOf, ← lastProfileChange] at last
    by_cases same : v = w
    · rw [same] at read
      have none_ := unlogged principalId name expected now current (by rw [same]) read version
      rw [none_] at last
      cases last
    · rw [updates.latestWorkspace, if_neg same]
      exact told c last
  | applied performs => exact (performs.kept sound).2 w told

/-- An update of a workspace whose log tells the current profile leaves the log behind. -/
theorem not_upToDate {principalId : Uuid} {name : String} {expected : Nat} {now : Instant}
    {current : Workspace} {c : WorkspaceChange} (last : lastProfileChange s w = some c)
    (follows : Follows S s w c) (read : s.workspaceForUpdate principalId w = .ok current)
    (version : current.version = expected) :
    ¬ UpToDate S (step S s (.updateWorkspace principalId w name expected now)) w := by
  obtain ⟨updated, s', accepted⟩ := updateWorkspace_accepts name now read version
  obtain ⟨before, read', -, updates⟩ := updateWorkspace_ok accepted
  obtain rfl : current = before := Except.ok.inj (read.symm.trans read')
  intro upToDate
  rw [step, accepted] at upToDate
  have last' : lastProfileChange s' w = some c := by
    rw [lastProfileChange, updates.changesOf, ← lastProfileChange, last]
  obtain ⟨old, latest, old_version, -⟩ := follows.current
  obtain ⟨new, latest', new_version, -⟩ := (upToDate c last').current
  rw [updates.latest] at latest
  rw [updates.latestWorkspace, if_pos rfl] at latest'
  obtain rfl := Option.some.inj latest
  obtain rfl := Option.some.inj latest'
  have next := updates.version
  omega

/-- In every state of a run the log of a workspace tells its current profile, if it tells one,
exactly if the repository of identities updates the workspace at most while the log tells none. -/
theorem log_follows_writers_iff (S : Security) (w : Uuid) (actions : List Action) :
    (∀ before, before <+: actions → UpToDate S (exec (step S) .bare before) w) ↔
      Along (step S) (Unlogged w) .bare actions := by
  constructor
  · intro upToDate
    refine along_of_at fun before action after split => ?_
    intro principalId name expected now current same read version
    cases last : lastProfileChange (exec (step S) .bare before) w with
    | none => rfl
    | some c =>
      have follows := upToDate before ⟨_, split.symm⟩ c last
      have later := upToDate (before ++ [action]) ⟨after, by rw [split, List.append_assoc]; rfl⟩
      rw [exec_append, exec_cons, exec_nil, same] at later
      exact absurd later (not_upToDate last follows read version)
  · rintro unlogged before ⟨after, rfl⟩
    have along := (along_append.mp unlogged).1
    have kept : Sound (exec (step S) .bare before) ∧ Told (exec (step S) .bare before) w := by
      refine along.preserves (I := fun s => Sound s ∧ Told s w) ⟨sound_bare, nofun⟩ ?_
      rintro s action ⟨sound, told⟩ guard
      have effect := sound.effect (S := S) action
      exact ⟨(effect.kept sound).sound, effect.told sound guard told⟩
    exact kept.1.upToDate kept.2

namespace Sample

def security : Security where
  sha256 := fun _ => String.ofList (List.replicate 64 'a')
  uuid5 := fun _ => .ofNat 0
  redact := id

/-- The owner of a workspace, on the only device of the account. -/
def owner : Caller := ⟨.ofNat 1, .ofNat 2, .ofNat 3, .ofNat 4, 1⟩

def authority : Authority where
  accounts := ⟨[⟨.ofNat 2, .ofNat 3, .developer, 1⟩], by decide⟩
  onboarding := ∅
  devices := ⟨[
    ⟨.ofNat 4, .ofNat 2, "", .active, none, 1, Accounts.DeviceStatus.active_revocation, Nat.one_pos⟩],
    by decide⟩
  memberships := ⟨[⟨.ofNat 1, .ofNat 3, "Owner", .active, 1⟩], by decide⟩

def rename : SyncMutation where
  idempotencyKey := "rename"
  entityId := .ofNat 1
  expectedVersion := 1
  payload := .workspace ⟨some "second", none, by decide, by decide⟩

/-- The workspace is renamed through the log, and then past it. -/
def renamedTwice : List Action :=
  [.authorities authority, .begin ⟨.ofNat 1, "first", .team, .active, 0, 0, 1⟩,
    .apply owner 0 [rename] 0, .updateWorkspace (.ofNat 3) (.ofNat 1) "third" 2 0]

end Sample

/-- The log of a workspace that was renamed past it tells the name before. -/
theorem renamed_past_log :
    ¬ ∀ before, before <+: Sample.renamedTwice →
      UpToDate Sample.security (exec (step Sample.security) .bare before) (.ofNat 1) := by
  intro upToDate
  have follows := upToDate Sample.renamedTwice (List.prefix_refl _)
  have told : (lastProfileChange (exec (step Sample.security) .bare Sample.renamedTwice)
      (.ofNat 1)).map (·.entityVersion) = some 2 := by decide +kernel
  have version : ((exec (step Sample.security) .bare Sample.renamedTwice).latestWorkspace
      (.ofNat 1)).map (·.version) = some 3 := by decide +kernel
  obtain ⟨c, last, entity⟩ := Option.map_eq_some_iff.mp told
  obtain ⟨current, latest, same, -⟩ := (follows c last).current
  rw [latest, Option.map_some] at version
  have := Option.some.inj version
  omega

end Corvus.Sync
