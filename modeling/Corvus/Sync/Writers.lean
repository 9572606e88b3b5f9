import Corvus.Sync.Store
import Mathlib.Logic.Relation

/-!
# What the writers do to the log

One round of the loop of `apply` answers from a record, or appends one change and with it the
version of the entity that the change carries. From this follows, round by round and action by
action, that the log of every workspace is numbered and chained and that its head knows its
length and its last digest.
-/

namespace Corvus.Sync

open Relation Run Tables

variable {S : Security} {s s' t : Tables} {p p' : Progress} {c : WorkspaceChange}
  {caller : Caller} {w : Uuid} {now : Instant}

/-! ## The log of a workspace -/

/-- The digest of the last change, if there is one. -/
def digestOf (last : Option WorkspaceChange) : String :=
  (last.map (·.changeDigest)).getD genesisDigest

/-- A change has the digest of the change before it. -/
def DigestLink (last : Option WorkspaceChange) (c : WorkspaceChange) : Prop :=
  c.previousDigest = digestOf last

/-- The sequence and the digest that the head of a workspace is at. -/
def height (s : Tables) (w : Uuid) : Nat × String :=
  match s.heads.get? w with
  | some h => (h.currentSequence, h.chainDigest)
  | none => (0, genesisDigest)

/-- No head retains less than nothing. -/
def Retained (s : Tables) : Prop := ∀ h ∈ s.heads, h.retentionFloor ≤ h.currentSequence

/-- The logs are numbered and chained, and the heads are at their ends. -/
structure Sound (s : Tables) : Prop where
  log : ∀ w, Log (·.sequence) DigestLink (s.changesOf w)
  ends : ∀ w, height s w = ((s.changesOf w).length, digestOf (s.changesOf w).getLast?)
  retained : Retained s

theorem sound_bare : Sound .bare :=
  ⟨fun _ => .nil, fun _ => rfl, fun _ mem => absurd mem Table.not_mem_empty⟩

/-- Nothing has changed of what the log and the profiles of workspaces are read from; a head may
have got another floor. -/
structure Beside (s s' : Tables) : Prop where
  workspaces : s'.workspaces = s.workspaces
  changes : s'.changes = s.changes
  height : ∀ w, height s' w = height s w
  retained : Retained s → Retained s'

theorem Beside.refl (s : Tables) : Beside s s := ⟨rfl, rfl, fun _ => rfl, id⟩

theorem beside_of_heads (workspaces : s'.workspaces = s.workspaces)
    (changes : s'.changes = s.changes) (heads : s'.heads = s.heads) : Beside s s' := by
  refine ⟨workspaces, changes, fun w => ?_, fun retained => ?_⟩
  · rw [height, heads, height]
  · rwa [Retained, heads]

theorem Beside.trans (first : Beside s t) (second : Beside t s') : Beside s s' :=
  ⟨second.workspaces.trans first.workspaces, second.changes.trans first.changes,
    fun w => (second.height w).trans (first.height w),
    fun retained => second.retained (first.retained retained)⟩

theorem Beside.changesOf (beside : Beside s s') (w : Uuid) : s'.changesOf w = s.changesOf w := by
  rw [Tables.changesOf, beside.changes, Tables.changesOf]

theorem Beside.latestWorkspace (beside : Beside s s') (w : Uuid) :
    s'.latestWorkspace w = s.latestWorkspace w := by
  rw [Tables.latestWorkspace, versionsOf, beside.workspaces, Tables.latestWorkspace, versionsOf]

theorem Sound.beside (sound : Sound s) (beside : Beside s s') : Sound s' := by
  constructor
  · intro w
    rw [beside.changesOf]
    exact sound.log w
  · intro w
    rw [beside.changesOf, beside.height]
    exact sound.ends w
  · exact beside.retained sound.retained

theorem latestWorkspace_id {current : Workspace} (latest : s.latestWorkspace w = some current) :
    current.id = w :=
  of_decide_eq_true (List.mem_filter.mp (List.argmax_mem latest)).2

/-! ## Versions -/

/-- A row is appended to the versions of the workspaces. -/
theorem latestWorkspace_append {row : Workspace}
    (rows : s'.workspaces.rows = s.workspaces.rows ++ [row])
    (exceeds : ∀ current, s.latestWorkspace row.id = some current → current.version < row.version) :
    s'.latestWorkspace w = if row.id = w then some row else s.latestWorkspace w := by
  rw [latestWorkspace, versionsOf, rows, List.filter_append]
  by_cases same : row.id = w
  · simp only [List.filter_cons, List.filter_nil, same, decide_true, if_true]
    apply argmax_append
    intro b mem
    cases latest : s.latestWorkspace row.id with
    | none =>
      rw [latestWorkspace, versionsOf, same, List.argmax_eq_none] at latest
      rw [latest] at mem
      exact absurd mem List.not_mem_nil
    | some current =>
      rw [latestWorkspace, versionsOf, same] at latest
      have le : b.version ≤ current.version := List.le_of_mem_argmax mem latest
      rw [← same] at latest
      exact Nat.lt_of_le_of_lt le (exceeds current latest)
  · simp only [List.filter_cons, List.filter_nil, same, decide_false, Bool.false_eq_true, if_false,
      List.append_nil]
    rfl

theorem changesOf_append (rows : s'.changes.rows = s.changes.rows ++ [c]) :
    s'.changesOf w = s.changesOf w ++ if c.workspaceId = w then [c] else [] := by
  rw [changesOf, rows, List.filter_append, changesOf]
  by_cases same : c.workspaceId = w
  · simp only [List.filter_cons, List.filter_nil, same, decide_true, if_true]
  · simp only [List.filter_cons, List.filter_nil, same, decide_false, Bool.false_eq_true, if_false]

/-! ## One round -/

/-- What the entity of an appended change is. -/
inductive EntityChanged (p p' : Progress) (c : WorkspaceChange) : Prop where
  | account (profile : AccountProfile) (payload : c.payload = .account profile)
      (kind : c.kind = .accountProfile) (workspace : p'.workspace = p.workspace)
      (versions : p'.tables.workspaces = p.tables.workspaces)
  | workspace (payload : c.payload = .workspace p'.workspace.profile)
      (kind : c.kind = .workspaceProfile) (entity : c.entityVersion = p'.workspace.version)
      (version : p'.workspace.version = p.workspace.version + 1)
      (versions : p'.tables.workspaces.rows = p.tables.workspaces.rows ++ [p'.workspace])

/-- A round has appended a change. -/
structure Appends (p p' : Progress) (c : WorkspaceChange) : Prop where
  changes : p'.tables.changes.rows = p.tables.changes.rows ++ [c]
  heads : p'.tables.heads = p.tables.heads
  id : p'.workspace.id = p.workspace.id
  workspaceId : c.workspaceId = p.workspace.id
  sequence : c.sequence = p.sequence + 1
  next : p'.sequence = p.sequence + 1
  previous : c.previousDigest = p.chainDigest
  digest : p'.chainDigest = c.changeDigest
  entity : EntityChanged p p' c

theorem applyEntity_ok {m : SyncMutation} {index : Nat} {workspace updated : Workspace}
    {role : String} {accountId : Uuid} {profile : Profile}
    (ok : s.applyEntity m index workspace role accountId now = .ok (profile, updated, t)) :
    t.changes = s.changes ∧ t.heads = s.heads ∧ updated.id = workspace.id ∧
      ((∃ a, profile = .account a ∧ m.kind = .accountProfile ∧ updated = workspace ∧
          t.workspaces = s.workspaces) ∨
        (profile = .workspace updated.profile ∧ m.kind = .workspaceProfile ∧
          updated.version = workspace.version + 1 ∧
          t.workspaces.rows = s.workspaces.rows ++ [updated])) := by
  cases payload : m.payload with
  | account a =>
    rw [applyEntity, payload] at ok
    obtain ⟨_, -, rest⟩ := bind_eq_ok.mp ok
    obtain ⟨current, -, rest⟩ := bind_eq_ok.mp rest
    obtain ⟨_, -, rest⟩ := bind_eq_ok.mp rest
    obtain ⟨onboarding, -, rest⟩ := bind_eq_ok.mp rest
    obtain ⟨rfl, pair⟩ := Prod.mk.inj (Except.ok.inj rest)
    obtain ⟨rfl, rfl⟩ := Prod.mk.inj pair
    refine ⟨rfl, rfl, rfl, .inl ⟨_, rfl, ?_, rfl, rfl⟩⟩
    rw [SyncMutation.kind, payload]
  | workspace a =>
    rw [applyEntity, payload] at ok
    obtain ⟨_, -, rest⟩ := bind_eq_ok.mp ok
    obtain ⟨_, -, rest⟩ := bind_eq_ok.mp rest
    obtain ⟨_, -, rest⟩ := bind_eq_ok.mp rest
    obtain ⟨workspaces, inserted, rest⟩ := bind_eq_ok.mp rest
    obtain ⟨rfl, pair⟩ := Prod.mk.inj (Except.ok.inj rest)
    obtain ⟨rfl, rfl⟩ := Prod.mk.inj pair
    have rows := (Table.insert?_eq_some.mp (present_eq_ok.mp inserted)).2
    refine ⟨rfl, rfl, rfl, .inr ⟨rfl, ?_, rfl, rows⟩⟩
    rw [SyncMutation.kind, payload]

theorem appendChange_ok {D : Digests} {workspace : Workspace} {membershipVersion sequence : Nat}
    {previous digest : String} {m : SyncMutation} {profile : Profile}
    {result : SyncMutationResult}
    (ok : appendChange D s workspace caller membershipVersion sequence previous m profile now =
      .ok (result, digest, t)) :
    let c := changeOf D workspace caller membershipVersion sequence previous m profile now
    digest = c.changeDigest ∧ t.workspaces = s.workspaces ∧ t.heads = s.heads ∧
      t.changes.rows = s.changes.rows ++ [c] := by
  obtain ⟨changes, inserted, rest⟩ := bind_eq_ok.mp ok
  obtain ⟨outbox, -, rest⟩ := bind_eq_ok.mp rest
  obtain ⟨_, -, rest⟩ := bind_eq_ok.mp rest
  obtain ⟨rfl, pair⟩ := Prod.mk.inj (Except.ok.inj rest)
  obtain ⟨rfl, rfl⟩ := Prod.mk.inj pair
  exact ⟨rfl, rfl, rfl, (Table.insert?_eq_some.mp (present_eq_ok.mp inserted)).2⟩

theorem recordIdempotency_ok {workspace : Workspace} {membershipVersion : Nat} {m : SyncMutation}
    {digest : String} {result : SyncMutationResult}
    (ok : s.recordIdempotency workspace caller membershipVersion m digest result now = .ok t) :
    t.workspaces = s.workspaces ∧ t.heads = s.heads ∧ t.changes = s.changes := by
  obtain ⟨idempotency, -, rest⟩ := bind_eq_ok.mp ok
  obtain rfl := Except.ok.inj rest
  exact ⟨rfl, rfl, rfl⟩

/-- A round answers from a record and does nothing, or appends a change. -/
theorem applyMutation_ok {D : Digests} {role : String} {membershipVersion index : Nat}
    {m : SyncMutation} {result : SyncMutationResult}
    (ok : applyMutation D caller role membershipVersion now index p m = .ok (result, p')) :
    p' = p ∨ ∃ c, Appends p p' c := by
  obtain ⟨replayed, -, rest⟩ := bind_eq_ok.mp ok
  cases replayed with
  | some found =>
    obtain ⟨-, same⟩ := Prod.mk.inj (Except.ok.inj rest)
    exact .inl same.symm
  | none =>
    obtain ⟨⟨profile, workspace, t⟩, applied, rest⟩ := bind_eq_ok.mp rest
    obtain ⟨⟨result, digest, u⟩, appended, rest⟩ := bind_eq_ok.mp rest
    obtain ⟨v, recorded, rest⟩ := bind_eq_ok.mp rest
    obtain ⟨-, rfl⟩ := Prod.mk.inj (Except.ok.inj rest)
    obtain ⟨changes, heads, id, entity⟩ := applyEntity_ok applied
    obtain ⟨rfl, workspaces', heads', rows⟩ := appendChange_ok appended
    obtain ⟨workspaces'', heads'', changes''⟩ := recordIdempotency_ok recorded
    refine .inr ⟨changeOf D workspace caller membershipVersion (p.sequence + 1) p.chainDigest m
      profile now, ?_⟩
    constructor
    · show v.changes.rows = _
      rw [changes'', rows, changes]
    · show v.heads = _
      rw [heads'', heads', heads]
    · exact id
    · exact id
    · rfl
    · rfl
    · rfl
    · rfl
    · obtain ⟨a, rfl, kind, rfl, versions⟩ | ⟨rfl, kind, version, versions⟩ := entity
      · refine .account a rfl kind rfl ?_
        show v.workspaces = _
        rw [workspaces'', workspaces', versions]
      · refine .workspace rfl kind rfl version ?_
        show v.workspaces.rows = _
        rw [workspaces'', workspaces', versions]

/-- The loop is a sequence of such rounds. -/
theorem applyMutations_ok {D : Digests} {role : String} {membershipVersion index : Nat}
    {mutations : List SyncMutation} {results : List SyncMutationResult}
    (ok : applyMutations D caller role membershipVersion now index p mutations =
      .ok (results, p')) : ReflTransGen (fun p p' => ∃ c, Appends p p' c) p p' := by
  induction mutations generalizing index p results with
  | nil =>
    obtain ⟨-, rfl⟩ := Prod.mk.inj (Except.ok.inj ok)
    exact .refl
  | cons m rest ih =>
    obtain ⟨⟨result, q⟩, first, ok⟩ := bind_eq_ok.mp ok
    obtain ⟨⟨results, q'⟩, others, ok⟩ := bind_eq_ok.mp ok
    obtain ⟨-, rfl⟩ := Prod.mk.inj (Except.ok.inj ok)
    have later := ih others
    obtain rfl | ⟨c, appends⟩ := applyMutation_ok first
    · exact later
    · exact .head ⟨c, appends⟩ later

/-! ## Rounds keep the log -/

/-- The last change of the profile of a workspace. -/
def lastProfileChange (s : Tables) (w : Uuid) : Option WorkspaceChange :=
  ((s.changesOf w).filter (·.kind = .workspaceProfile)).argmax (·.sequence)

/-- The last change of the profile of a workspace is about its latest version. -/
def Told (s : Tables) (w : Uuid) : Prop :=
  ∀ c, lastProfileChange s w = some c → ∃ current, s.latestWorkspace w = some current ∧
    c.entityVersion = current.version ∧ c.payload = .workspace current.profile

theorem Beside.told (beside : Beside s s') (told : Told s w) : Told s' w := by
  intro c last
  rw [lastProfileChange, beside.changesOf] at last
  rw [beside.latestWorkspace]
  exact told c last

/-- The loop of `apply` knows the workspace as it is, and the end of its log. -/
structure Coherent (p : Progress) : Prop where
  latest : p.tables.latestWorkspace p.workspace.id = some p.workspace
  log : ∀ w, Log (·.sequence) DigestLink (p.tables.changesOf w)
  sequence : p.sequence = (p.tables.changesOf p.workspace.id).length
  digest : p.chainDigest = digestOf (p.tables.changesOf p.workspace.id).getLast?

/-- What some rounds do. -/
structure Advances (p p' : Progress) : Prop where
  coherent : Coherent p'
  id : p'.workspace.id = p.workspace.id
  heads : p'.tables.heads = p.tables.heads
  grows : ∀ w, p.tables.changesOf w <+: p'.tables.changesOf w
  others : ∀ w, w ≠ p.workspace.id → p'.tables.changesOf w = p.tables.changesOf w
  told : ∀ w, Told p.tables w → Told p'.tables w

theorem Advances.refl (coherent : Coherent p) : Advances p p :=
  ⟨coherent, rfl, rfl, fun _ => List.prefix_refl _, fun _ _ => rfl, fun _ told => told⟩

theorem Advances.trans {q : Progress} (first : Advances p q) (second : Advances q p') :
    Advances p p' := by
  refine ⟨second.coherent, second.id.trans first.id, second.heads.trans first.heads, ?_, ?_, ?_⟩
  · exact fun w => (first.grows w).trans (second.grows w)
  · intro w other
    rw [second.others w (first.id ▸ other), first.others w other]
  · exact fun w told => second.told w (first.told w told)

theorem Appends.changesOf (appends : Appends p p' c) :
    p'.tables.changesOf w = p.tables.changesOf w ++ if p.workspace.id = w then [c] else [] := by
  rw [changesOf_append appends.changes, appends.workspaceId]

theorem Appends.latestWorkspace (coherent : Coherent p) (appends : Appends p p' c) :
    p'.tables.latestWorkspace w =
      if p.workspace.id = w then some p'.workspace else p.tables.latestWorkspace w := by
  cases appends.entity with
  | account profile payload kind workspace versions =>
    rw [Tables.latestWorkspace, versionsOf, versions, ← versionsOf, ← Tables.latestWorkspace]
    by_cases same : p.workspace.id = w
    · rw [if_pos same, ← same, coherent.latest, workspace]
    · rw [if_neg same]
  | workspace payload kind entity version versions =>
    rw [latestWorkspace_append versions, appends.id]
    intro current latest
    rw [appends.id, coherent.latest] at latest
    obtain rfl := Option.some.inj latest
    rw [version]
    exact Nat.lt_succ_self _

/-- A change of the profile is the last one when it is appended. -/
theorem Appends.lastProfileChange (coherent : Coherent p) (appends : Appends p p' c) :
    Sync.lastProfileChange p'.tables w =
      if p.workspace.id = w ∧ c.kind = .workspaceProfile then some c
      else Sync.lastProfileChange p.tables w := by
  rw [Sync.lastProfileChange, appends.changesOf, List.filter_append, Sync.lastProfileChange]
  by_cases same : p.workspace.id = w
  · by_cases kind : c.kind = .workspaceProfile
    · simp only [same, kind, if_true, List.filter_cons, decide_true, List.filter_nil, and_self]
      apply argmax_append
      intro b mem
      have bounds := (coherent.log w).number_bounds (List.mem_filter.mp mem).1
      have sequence := coherent.sequence
      rw [same] at sequence
      have next := appends.sequence
      omega
    · simp only [same, kind, if_true, List.filter_cons, decide_false, List.filter_nil, and_false,
        Bool.false_eq_true, if_false, List.append_nil]
  · simp only [same, if_false, List.filter_nil, List.append_nil, false_and]

theorem Appends.advances (coherent : Coherent p) (appends : Appends p p' c) : Advances p p' := by
  have changesOf_id : p'.tables.changesOf p'.workspace.id =
      p.tables.changesOf p.workspace.id ++ [c] := by
    rw [appends.changesOf, appends.id, if_pos rfl]
  constructor
  · constructor
    · rw [appends.latestWorkspace coherent, appends.id, if_pos rfl]
    · intro w
      rw [appends.changesOf]
      by_cases same : p.workspace.id = w
      · rw [if_pos same, ← same]
        refine (coherent.log _).append ?_ ?_
        · rw [appends.sequence, coherent.sequence]
        · rw [DigestLink, appends.previous, coherent.digest]
      · rw [if_neg same, List.append_nil]
        exact coherent.log w
    · rw [changesOf_id, appends.next, coherent.sequence, List.length_append,
        List.length_singleton]
    · rw [changesOf_id, appends.digest, List.getLast?_concat, digestOf, Option.map_some,
        Option.getD_some]
  · exact appends.id
  · exact appends.heads
  · intro w
    rw [appends.changesOf]
    exact List.prefix_append _ _
  · intro w other
    rw [appends.changesOf, if_neg (Ne.symm other), List.append_nil]
  · intro w told d last
    rw [appends.lastProfileChange coherent] at last
    rw [appends.latestWorkspace coherent]
    by_cases same : p.workspace.id = w
    · rw [if_pos same]
      cases appends.entity with
      | account profile payload kind workspace versions =>
        rw [if_neg (by simp [kind])] at last
        obtain ⟨current, latest, facts⟩ := told d last
        rw [← same, coherent.latest] at latest
        obtain rfl := Option.some.inj latest
        exact ⟨p'.workspace, rfl, by rwa [workspace]⟩
      | workspace payload kind entity version versions =>
        rw [if_pos ⟨same, kind⟩] at last
        obtain rfl := Option.some.inj last
        exact ⟨p'.workspace, rfl, entity, payload⟩
    · rw [if_neg (by simp [same])] at last
      rw [if_neg same]
      exact told d last

theorem Coherent.advances (coherent : Coherent p)
    (rounds : ReflTransGen (fun p p' => ∃ c, Appends p p' c) p p') : Advances p p' := by
  induction rounds with
  | refl => exact .refl coherent
  | tail _ next ih =>
    obtain ⟨c, appends⟩ := next
    exact ih.trans (appends.advances ih.coherent)

/-! ## Actions keep the log -/

/-- What an action does to the logs. -/
structure Kept (s s' : Tables) : Prop where
  sound : Sound s'
  grows : ∀ w, s.changesOf w <+: s'.changesOf w

theorem Sound.kept (sound : Sound s) (beside : Beside s s') : Kept s s' :=
  ⟨sound.beside beside, fun w => beside.changesOf w ▸ List.prefix_refl _⟩

theorem head_ok {head : Head} (ok : s.head w = .ok head) :
    height s w = (head.currentSequence, head.chainDigest) := by
  rw [Tables.head] at ok
  rw [height]
  cases found : s.heads.get? w with
  | some row =>
    rw [found] at ok
    obtain rfl := Except.ok.inj ok
    rfl
  | none =>
    rw [found] at ok
    obtain ⟨-, ok⟩ := ite_error_eq_ok.mp ok
    obtain rfl := Except.ok.inj ok
    rfl

theorem createHead_get? (s : Tables) (workspace : Workspace) (now : Instant) (v : Uuid) :
    ∃ row : SyncHead, row.currentSequence = 0 ∧ row.chainDigest = genesisDigest ∧
      (s.createHead workspace now).heads.get? v =
        if workspace.id = v then (s.heads.get? v).or (some row) else s.heads.get? v := by
  let row : SyncHead := ⟨workspace.id, workspace.version, 0, 0, genesisDigest, 1, now⟩
  refine ⟨row, rfl, rfl, ?_⟩
  rw [createHead]
  show ((s.heads.insert? row).getD s.heads).get? v = _
  cases inserted : s.heads.insert? row with
  | none =>
    rw [Option.getD_none]
    by_cases same : workspace.id = v
    · cases found : s.heads.get? v with
      | some old => rw [if_pos same, Option.some_or]
      | none =>
        have free : ∀ r ∈ s.heads, key r ≠ key row := by
          rw [Table.get?_eq_none, ← same] at found
          exact found
        obtain ⟨u, stored⟩ := Table.exists_insert? free
        rw [inserted] at stored
        cases stored
    · rw [if_neg same]
  | some u =>
    have rows := (Table.insert?_eq_some.mp inserted).2
    have free : s.heads.get? workspace.id = none := Table.get?_eq_none_of_append rows
    rw [Option.getD_some, Table.get?_append rows]
    show (if workspace.id = v then _ else _) = _
    by_cases same : workspace.id = v
    · rw [if_pos same, if_pos same, ← same, free, Option.none_or]
    · rw [if_neg same, if_neg same]

theorem createHead_beside {workspace : Workspace} : Beside s (s.createHead workspace now) := by
  refine ⟨rfl, rfl, fun v => ?_, fun retained => ?_⟩
  · obtain ⟨row, sequence, digest, found⟩ := createHead_get? s workspace now v
    rw [height, found, height]
    by_cases same : workspace.id = v
    · rw [if_pos same]
      cases s.heads.get? v with
      | some old => rfl
      | none => simp [sequence, digest]
    · rw [if_neg same]
  · let row : SyncHead := ⟨workspace.id, workspace.version, 0, 0, genesisDigest, 1, now⟩
    show ∀ h ∈ (s.heads.insert? row).getD s.heads, _
    cases inserted : s.heads.insert? row with
    | none => exact retained
    | some heads =>
      intro h mem
      have rows := (Table.insert?_eq_some.mp inserted).2
      rw [Option.getD_some, Table.mem_iff, rows, List.mem_append, List.mem_singleton] at mem
      obtain mem | rfl := mem
      · exact retained h mem
      · exact Nat.le_refl 0

theorem acknowledge_ok {workspace : Workspace} {membershipVersion cursor high : Nat}
    (ok : s.acknowledge workspace caller membershipVersion cursor high now = .ok t) :
    t.workspaces = s.workspaces ∧ t.changes = s.changes ∧ t.heads = s.heads := by
  obtain ⟨_, -, rest⟩ := bind_eq_ok.mp ok
  obtain ⟨_, -, rest⟩ := bind_eq_ok.mp rest
  split at rest
  · obtain ⟨acknowledgements, -, rest⟩ := bind_eq_ok.mp rest
    obtain rfl := Except.ok.inj rest
    exact ⟨rfl, rfl, rfl⟩
  · obtain rfl := Except.ok.inj rest
    exact ⟨rfl, rfl, rfl⟩

theorem authorize_ok {workspace : Workspace} {role : String} {version : Nat}
    (ok : s.authorize caller = .ok (workspace, role, version)) :
    s.latestWorkspace caller.workspaceId = some workspace := by
  obtain ⟨_, -, rest⟩ := bind_eq_ok.mp ok
  obtain ⟨device, -, rest⟩ := bind_eq_ok.mp rest
  obtain ⟨_, -, rest⟩ := bind_eq_ok.mp rest
  obtain ⟨membership, -, rest⟩ := bind_eq_ok.mp rest
  obtain ⟨_, -, rest⟩ := bind_eq_ok.mp rest
  obtain ⟨current, latest, rest⟩ := bind_eq_ok.mp rest
  obtain ⟨_, -, rest⟩ := bind_eq_ok.mp rest
  obtain ⟨rfl, -⟩ := Prod.mk.inj (Except.ok.inj rest)
  exact present_eq_ok.mp latest

theorem Sound.coherent (sound : Sound s) {workspace : Workspace} {sequence : Nat}
    {digest : String} (latest : s.latestWorkspace workspace.id = some workspace)
    (ends : height s workspace.id = (sequence, digest)) :
    Coherent ⟨s, workspace, sequence, digest⟩ := by
  rw [sound.ends] at ends
  obtain ⟨length, last⟩ := Prod.mk.inj ends
  exact ⟨latest, sound.log, length.symm, last.symm⟩

/-- Rounds that have appended nothing are at the same digest. -/
theorem Advances.chainDigest (coherent : Coherent p) (advances : Advances p p')
    (still : p'.sequence ≤ p.sequence) :
    p'.sequence = p.sequence ∧ p'.chainDigest = p.chainDigest := by
  have length := coherent.sequence
  have length' := advances.coherent.sequence
  have grows := advances.grows p.workspace.id
  rw [advances.id] at length'
  have le := grows.length_le
  have same : p.tables.changesOf p.workspace.id = p'.tables.changesOf p.workspace.id :=
    grows.eq_of_length (by omega)
  refine ⟨by omega, ?_⟩
  rw [advances.coherent.digest, advances.id, ← same, coherent.digest]

/-- The rounds that an accepted request performs, from the tables with a head to those of which
the head is moved. -/
structure Performs (s s' : Tables) (caller : Caller) (t : Tables) (p p' : Progress) : Prop where
  latest : s.latestWorkspace caller.workspaceId = some p.workspace
  beside : Beside s t
  start : p.tables = t
  coherent : Coherent p
  advances : Advances p p'
  workspaces : s'.workspaces = p'.tables.workspaces
  changes : s'.changes = p'.tables.changes
  height : ∀ w, height s' w =
    if w = p.workspace.id then (p'.sequence, p'.chainDigest) else height t w
  retained : Retained t → Retained s'

theorem height_moved {id : Uuid} {version : Nat}
    (there : ∃ row, p.tables.heads.get? id = some row)
    (rows : s.heads = p.tables.heads.update (·.workspaceId = id) (moveHead p version now)) :
    height s w = if w = id then (p.sequence, p.chainDigest) else height p.tables w := by
  rw [height, rows, Table.get?_update, height]
  by_cases same : w = id
  · obtain ⟨row, found⟩ := there
    have its : row.workspaceId = id := (Table.get?_eq_some.mp found).2
    rw [if_pos same, same, found, Option.map_some, if_pos (decide_eq_true its)]
    rfl
  · rw [if_neg same]
    cases found : p.tables.heads.get? w with
    | none => rfl
    | some row =>
      have its : row.workspaceId = w := (Table.get?_eq_some.mp found).2
      rw [Option.map_some, if_neg (by simp [its, same])]

/-- A head that is moved forward retains what it did. -/
theorem retained_moved {id : Uuid} {sequence version : Nat} {digest : String}
    (retained : Retained t) (same : p.workspace.id = id) (ends : height t id = (sequence, digest))
    (forward : sequence ≤ p.sequence) :
    ∀ h ∈ t.heads.update (·.workspaceId = p.workspace.id) (moveHead p version now),
      h.retentionFloor ≤ h.currentSequence := by
  intro h mem
  obtain ⟨mem, -⟩ | ⟨old, inside, its, rfl⟩ := Table.of_mem_update mem
  · exact retained h mem
  · have old_id : key old = id := (of_decide_eq_true its).trans same
    rw [height, Table.get?_eq_some.mpr ⟨inside, old_id⟩] at ends
    have current : old.currentSequence = sequence := (Prod.mk.inj ends).1
    have floor := retained old inside
    show old.retentionFloor ≤ p.sequence
    omega

/-- The head is there when the loop starts, unless the request has no mutations. -/
theorem head_there {workspace : Workspace} {first : Head} {mutations : List SyncMutation}
    (read : s.head workspace.id = .ok first)
    (created : (if mutations ≠ [] ∧ first.version = 0 then s.createHead workspace now else s) = t)
    (some_ : mutations ≠ []) : ∃ row, t.heads.get? workspace.id = some row := by
  cases found : s.heads.get? workspace.id with
  | none =>
    rw [Tables.head, found] at read
    obtain ⟨-, read⟩ := ite_error_eq_ok.mp read
    obtain rfl := Except.ok.inj read
    rw [if_pos ⟨some_, rfl⟩] at created
    obtain ⟨row, -, -, got⟩ := createHead_get? s workspace now workspace.id
    rw [if_pos rfl, found, Option.none_or, created] at got
    exact ⟨row, got⟩
  | some row =>
    by_cases creates : mutations ≠ [] ∧ first.version = 0
    · obtain ⟨fresh, -, -, got⟩ := createHead_get? s workspace now workspace.id
      rw [if_pos creates] at created
      rw [if_pos rfl, found, Option.some_or, created] at got
      exact ⟨row, got⟩
    · rw [if_neg creates] at created
      exact ⟨row, created ▸ found⟩

theorem apply_ok (sound : Sound s) {cursor : Nat} {mutations : List SyncMutation}
    {result : SyncApplyResult}
    (ok : s.apply S caller cursor mutations now = .ok (result, s')) :
    ∃ t p p', Performs s s' caller t p p' := by
  obtain ⟨_, -, rest⟩ := bind_eq_ok.mp ok
  obtain ⟨⟨workspace, role, membershipVersion⟩, authorized, rest⟩ := bind_eq_ok.mp rest
  obtain ⟨first, read, rest⟩ := bind_eq_ok.mp rest
  obtain ⟨head, again, rest⟩ := bind_eq_ok.mp rest
  obtain ⟨_, -, rest⟩ := bind_eq_ok.mp rest
  obtain ⟨t, acknowledged, rest⟩ := bind_eq_ok.mp rest
  obtain ⟨⟨results, p'⟩, looped, rest⟩ := bind_eq_ok.mp rest
  obtain ⟨-, rfl⟩ := Prod.mk.inj (Except.ok.inj rest)
  generalize created : (if mutations ≠ [] ∧ first.version = 0 then
    s.createHead workspace now else s) = u at again acknowledged
  have latest := authorize_ok authorized
  obtain same := latestWorkspace_id latest
  have beside : Beside s u := by
    rw [← created]
    split
    · exact createHead_beside
    · exact .refl s
  obtain ⟨workspaces, changes, heads⟩ := acknowledge_ok acknowledged
  have beside : Beside s t :=
    beside.trans (beside_of_heads workspaces changes heads)
  have ends : height t workspace.id = (head.currentSequence, head.chainDigest) := by
    rw [← head_ok again, height, heads, height]
  have start : Coherent ⟨t, workspace, head.currentSequence, head.chainDigest⟩ := by
    refine (sound.beside beside).coherent ?_ ends
    rw [beside.latestWorkspace, same, latest]
  have advances := start.advances (applyMutations_ok looped)
  refine ⟨t, _, p', latest, beside, rfl, start, advances, rfl, rfl, fun w => ?_, fun floors => ?_⟩
  rotate_left
  · rw [Retained]
    by_cases moved : head.currentSequence < p'.sequence
    · rw [if_pos moved, advances.heads]
      exact retained_moved floors advances.id ends (Nat.le_of_lt moved)
    · rw [if_neg moved, advances.heads]
      exact floors
  by_cases moved : head.currentSequence < p'.sequence
  · have there : ∃ row, p'.tables.heads.get? workspace.id = some row := by
      rw [advances.heads, show t.heads = u.heads from heads]
      exact head_there read created fun none_ => by
        rw [none_] at looped
        obtain ⟨-, rfl⟩ := Prod.mk.inj (Except.ok.inj looped)
        exact absurd moved (Nat.lt_irrefl _)
    have id : p'.workspace.id = workspace.id := advances.id
    rw [height_moved there (by rw [if_pos moved, id])]
    rw [height, advances.heads, height]
  · obtain ⟨sequence, digest⟩ := advances.chainDigest start (Nat.le_of_not_lt moved)
    show height _ w = if w = workspace.id then _ else _
    rw [height, if_neg moved, advances.heads, ← height, sequence, digest]
    by_cases its : w = workspace.id
    · rw [if_pos its, its, ends]
    · rw [if_neg its]

/-- A request on one workspace leaves the logs of the others, and what it appends to its own is
told by the profiles. -/
theorem Performs.kept (sound : Sound s) {q : Progress} (performs : Performs s s' caller t p q) :
    Kept s s' ∧ ∀ w, Told s w → Told s' w := by
  have advances := performs.advances
  have start := performs.start
  have changesOf : ∀ w, s'.changesOf w = q.tables.changesOf w := fun w => by
    rw [Tables.changesOf, performs.changes, Tables.changesOf]
  have latestWorkspace : ∀ w, s'.latestWorkspace w = q.tables.latestWorkspace w := fun w => by
    rw [Tables.latestWorkspace, versionsOf, performs.workspaces, Tables.latestWorkspace, versionsOf]
  have retained := performs.retained (performs.beside.retained sound.retained)
  refine ⟨⟨⟨fun w => ?_, fun w => ?_, retained⟩, fun w => ?_⟩, fun w told => ?_⟩
  · rw [changesOf]
    exact advances.coherent.log w
  · rw [performs.height, changesOf]
    by_cases its : w = p.workspace.id
    · have coherent := advances.coherent
      rw [if_pos its, its, ← advances.id, ← coherent.sequence, ← coherent.digest]
    · rw [if_neg its, advances.others w its, start]
      exact (sound.beside performs.beside).ends w
  · rw [changesOf, ← performs.beside.changesOf, ← start]
    exact advances.grows w
  · have told' := advances.told w (start ▸ performs.beside.told told)
    intro c last
    rw [lastProfileChange, changesOf] at last
    rw [latestWorkspace]
    exact told' c last

/-- What an accepted update of a workspace has met and what it does. -/
structure Updates (s s' : Tables) (w : Uuid) (current updated : Workspace) : Prop where
  latest : s.latestWorkspace w = some current
  id : updated.id = w
  version : updated.version = current.version + 1
  rows : s'.workspaces.rows = s.workspaces.rows ++ [updated]
  changes : s'.changes = s.changes
  heads : s'.heads = s.heads

theorem workspaceForUpdate_ok {principalId : Uuid} {current : Workspace}
    (ok : s.workspaceForUpdate principalId w = .ok current) :
    s.latestWorkspace w = some current := by
  obtain ⟨role, -, rest⟩ := bind_eq_ok.mp ok
  obtain ⟨_, -, rest⟩ := bind_eq_ok.mp rest
  obtain ⟨workspace, latest, rest⟩ := bind_eq_ok.mp rest
  obtain ⟨_, -, rest⟩ := bind_eq_ok.mp rest
  obtain rfl := Except.ok.inj rest
  exact present_eq_ok.mp latest

theorem updateWorkspace_ok {principalId : Uuid} {name : String} {expected : Nat}
    {updated : Workspace}
    (ok : s.updateWorkspace principalId w name expected now = .ok (updated, s')) :
    ∃ current, s.workspaceForUpdate principalId w = .ok current ∧ current.version = expected ∧
      Updates s s' w current updated := by
  obtain ⟨current, read, rest⟩ := bind_eq_ok.mp ok
  obtain ⟨_, version, rest⟩ := bind_eq_ok.mp rest
  obtain ⟨workspaces, inserted, rest⟩ := bind_eq_ok.mp rest
  obtain ⟨rfl, rfl⟩ := Prod.mk.inj (Except.ok.inj rest)
  have latest := workspaceForUpdate_ok read
  have id := latestWorkspace_id latest
  refine ⟨current, read, require_eq_ok.mp version, latest, id, rfl, ?_, rfl, rfl⟩
  exact (Table.insert?_eq_some.mp (present_eq_ok.mp inserted)).2

/-- An update whose checks pass finds its version free. -/
theorem updateWorkspace_accepts {principalId : Uuid} {expected : Nat} {current : Workspace}
    (name : String) (now : Instant) (read : s.workspaceForUpdate principalId w = .ok current)
    (version : current.version = expected) :
    ∃ updated s', s.updateWorkspace principalId w name expected now = .ok (updated, s') := by
  have latest := workspaceForUpdate_ok read
  have current_id := latestWorkspace_id latest
  let updated : Workspace := { current with
    name := Text.strip name, version := current.version + 1, updatedAt := now }
  have free : ∀ v ∈ s.workspaces, key v ≠ key updated := by
    intro v mem same
    obtain ⟨id, next⟩ := Prod.mk.inj same
    have its : v ∈ s.versionsOf w :=
      List.mem_filter.mpr ⟨mem, decide_eq_true (id.trans current_id)⟩
    have le : v.version ≤ current.version := List.le_of_mem_argmax its latest
    exact absurd (next ▸ le) (Nat.not_succ_le_self _)
  obtain ⟨workspaces, inserted⟩ := Table.exists_insert? free
  refine ⟨updated, { s with workspaces := workspaces }, ?_⟩
  rw [updateWorkspace, read, ok_bind, require_of version, ok_bind]
  show (present (s.workspaces.insert? updated) _ >>= _) = _
  rw [inserted]
  rfl

theorem Updates.changesOf {current updated : Workspace} (updates : Updates s s' w current updated)
    (v : Uuid) : s'.changesOf v = s.changesOf v := by
  rw [Tables.changesOf, updates.changes, Tables.changesOf]

theorem Updates.latestWorkspace {current updated : Workspace}
    (updates : Updates s s' w current updated) (v : Uuid) :
    s'.latestWorkspace v = if w = v then some updated else s.latestWorkspace v := by
  rw [latestWorkspace_append updates.rows, updates.id]
  intro before latest
  rw [updates.id, updates.latest] at latest
  rw [← Option.some.inj latest, updates.version]
  exact Nat.lt_succ_self _

theorem Updates.kept {current updated : Workspace} (sound : Sound s)
    (updates : Updates s s' w current updated) : Kept s s' := by
  refine ⟨⟨fun v => ?_, fun v => ?_, ?_⟩, fun v => ?_⟩
  · rw [updates.changesOf]
    exact sound.log v
  · rw [updates.changesOf, height, updates.heads, ← height]
    exact sound.ends v
  · rw [Retained, updates.heads]
    exact sound.retained
  · exact updates.changesOf v ▸ List.prefix_refl _

theorem retain_beside (floor : Nat) :
    Beside s { s with heads := s.heads.update (·.workspaceId = w) (moveFloor floor) } := by
  refine ⟨rfl, rfl, fun v => ?_, fun retained h mem => ?_⟩
  · rw [height, Table.get?_update, height]
    cases s.heads.get? v with
    | none => rfl
    | some row =>
      rw [Option.map_some]
      by_cases its : row.workspaceId = w
      · rw [if_pos (decide_eq_true its)]
        rfl
      · rw [if_neg (by simp [its])]
  · obtain ⟨mem, -⟩ | ⟨row, -, -, rfl⟩ := Table.of_mem_update mem
    · exact retained h mem
    · exact Nat.min_le_right _ _

/-- The first version of a workspace. -/
theorem begin_latestWorkspace {workspace : Workspace} {workspaces : Table Workspace}
    (fresh : s.versionsOf workspace.id = [])
    (inserted : s.workspaces.insert? workspace = some workspaces) :
    Tables.latestWorkspace { s with workspaces := workspaces } w =
      if workspace.id = w then some workspace else s.latestWorkspace w := by
  refine latestWorkspace_append (Table.insert?_eq_some.mp inserted).2 fun current latest => ?_
  rw [latestWorkspace, fresh] at latest
  exact nomatch latest

/-- What each action does. -/
inductive Effect (S : Security) (s : Tables) : Action → Tables → Prop where
  | beside {action : Action} {s' : Tables} (beside : Beside s s') : Effect S s action s'
  | begun {workspace : Workspace} {workspaces : Table Workspace}
      (fresh : s.versionsOf workspace.id = [])
      (inserted : s.workspaces.insert? workspace = some workspaces) :
      Effect S s (.begin workspace) { s with workspaces := workspaces }
  | updated {principalId w : Uuid} {name : String} {expected : Nat} {now : Instant}
      {current updated : Workspace} {s' : Tables}
      (read : s.workspaceForUpdate principalId w = .ok current)
      (version : current.version = expected) (updates : Updates s s' w current updated) :
      Effect S s (.updateWorkspace principalId w name expected now) s'
  | applied {caller : Caller} {cursor : Nat} {mutations : List SyncMutation} {now : Instant}
      {t s' : Tables} {p q : Progress} (performs : Performs s s' caller t p q) :
      Effect S s (.apply caller cursor mutations now) s'

theorem Sound.effect (sound : Sound s) (action : Action) : Effect S s action (step S s action) := by
  cases action with
  | begin workspace =>
    rw [step]
    split
    · rename_i fresh
      cases inserted : s.workspaces.insert? workspace with
      | none => exact .beside (.refl s)
      | some workspaces => exact .begun fresh inserted
    · exact .beside (.refl s)
  | authorities authority => exact .beside (beside_of_heads rfl rfl rfl)
  | retain workspaceId floor => exact .beside (retain_beside floor)
  | updateWorkspace principalId w name expected now =>
    rw [step]
    split
    · rename_i updated s' ok
      obtain ⟨current, read, version, updates⟩ := updateWorkspace_ok ok
      exact .updated read version updates
    · exact .beside (.refl s)
  | apply caller cursor mutations now =>
    rw [step]
    split
    · rename_i result s' ok
      obtain ⟨t, p, q, performs⟩ := apply_ok sound ok
      exact .applied performs
    · exact .beside (.refl s)

theorem Effect.kept {action : Action} (sound : Sound s) (effect : Effect S s action s') :
    Kept s s' := by
  cases effect with
  | beside beside => exact sound.kept beside
  | begun fresh inserted =>
    exact ⟨⟨sound.log, sound.ends, sound.retained⟩, fun w => List.prefix_refl _⟩
  | updated read version updates => exact updates.kept sound
  | applied performs => exact (performs.kept sound).1

end Corvus.Sync
