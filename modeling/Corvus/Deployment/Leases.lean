import Corvus.Deployment.Store
import Corvus.Library.Log

/-!
# Fencing of the leases

A workspace has at most one unreleased lease for an epoch and its fencing tokens count the
grants. The lock that a lease names is that of its workspace, so that it tells the leases of
two workspaces apart and not those of two epochs.
-/

namespace Corvus.Deployment

variable {D : Digests} {store store' : Store D}

open Run

/-! ## What a call does to the leases -/

/-- When a lease is acquired, and how. -/
structure Acquires (store : Store D) (l : DeploymentInstanceLease D) (store' : Store D) : Prop where
  active : ∃ i, store.instances.get? l.deploymentInstanceId = some i ∧ i.status = .active
  free : ¬ store.Held l.workspaceId l.authorityEpoch
  token : l.fencingToken = store.latestToken l.workspaceId l.authorityEpoch + 1
  stored : ∃ leases, store.leases.insert? ⟨l, none⟩ = some leases ∧
    store' = { store with leases := leases }

theorem acquireLease_ok {l : DeploymentInstanceLease D} (ok : store.acquireLease l = .ok store') :
    Acquires store l store' := by
  obtain ⟨i, found, rest⟩ := bind_eq_ok.mp ok
  obtain ⟨_, active, rest⟩ := bind_eq_ok.mp rest
  obtain ⟨_, free, rest⟩ := bind_eq_ok.mp rest
  obtain ⟨_, -, rest⟩ := bind_eq_ok.mp rest
  obtain ⟨_, token, rest⟩ := bind_eq_ok.mp rest
  obtain ⟨leases, inserted, rest⟩ := bind_eq_ok.mp rest
  exact ⟨⟨i, present_eq_ok.mp found, require_eq_ok.mp active⟩, refuse_eq_ok.mp free,
    require_eq_ok.mp token, ⟨leases, present_eq_ok.mp inserted, (Except.ok.inj rest).symm⟩⟩

/-- When a lease is released, and how: the call carries the record and the token of the row. -/
structure Releases (store : Store D) (l : DeploymentInstanceLease D) (token : Nat)
    (store' : Store D) : Prop where
  row : ∃ r ∈ store.leases, r.Unreleased ∧ token = r.lease.fencingToken ∧
    ∃ t, l = { r.lease with releasedAt := some t } ∧
      store' = { store with
        leases := store.leases.update (·.lease.id = r.lease.id) (Store.released t) }

theorem releaseLease_ok {l : DeploymentInstanceLease D} {token : Nat}
    (ok : store.releaseLease l token = .ok store') : Releases store l token store' := by
  obtain ⟨t, timed, rest⟩ := bind_eq_ok.mp ok
  obtain ⟨_, -, rest⟩ := bind_eq_ok.mp rest
  obtain ⟨r, found, rest⟩ := bind_eq_ok.mp rest
  obtain ⟨_, unreleased, rest⟩ := bind_eq_ok.mp rest
  obtain ⟨_, same, rest⟩ := bind_eq_ok.mp rest
  obtain ⟨found, -⟩ := Option.filter_eq_some_iff.mp (present_eq_ok.mp found)
  obtain ⟨mem, named⟩ := Table.get?_eq_some.mp found
  obtain ⟨token_eq, -, record⟩ := require_eq_ok.mp same
  rw [present_eq_ok.mp timed] at record
  refine ⟨r, mem, require_eq_ok.mp unreleased, token_eq.symm, t, record, ?_⟩
  rw [show r.lease.id = l.id from named]
  exact (Except.ok.inj rest).symm

/-- The lease that a call grants, if it does. -/
def grant (store : Store D) : Operation D → List (DeploymentInstanceLease D)
  | .acquireLease l =>
    match store.acquireLease l with
    | .ok _ => [l]
    | .error _ => []
  | _ => []

/-- A call leaves the leases as they are unless it acquires or releases one. -/
theorem step_leases (store : Store D) (op : Operation D) :
    ((step store op).leases = store.leases ∧ grant store op = []) ∨
      (∃ l, grant store op = [l] ∧ Acquires store l (step store op)) ∨
      ∃ l token, op = .releaseLease l token ∧ Releases store l token (step store op) := by
  unfold step
  cases performed : op.perform store with
  | error e =>
    refine .inl ⟨rfl, ?_⟩
    cases op with
    | acquireLease l =>
      have refused : store.acquireLease l = .error e := performed
      rw [grant, refused]
    | _ => rfl
  | ok store' =>
    cases op with
    | acquireLease l =>
      have accepted : store.acquireLease l = .ok store' := performed
      refine .inr (.inl ⟨l, ?_, acquireLease_ok accepted⟩)
      rw [grant, accepted]
    | releaseLease l token => exact .inr (.inr ⟨l, token, rfl, releaseLease_ok performed⟩)
    | addDeploymentProfile p =>
      obtain ⟨_, -, rest⟩ := bind_eq_ok.mp performed
      exact .inl ⟨Except.ok.inj rest ▸ rfl, rfl⟩
    | addDeploymentInstance i =>
      obtain ⟨_, -, rest⟩ := bind_eq_ok.mp performed
      obtain ⟨_, -, rest⟩ := bind_eq_ok.mp rest
      exact .inl ⟨Except.ok.inj rest ▸ rfl, rfl⟩
    | addEpochCredential c =>
      obtain ⟨_, -, rest⟩ := bind_eq_ok.mp performed
      obtain ⟨_, -, rest⟩ := bind_eq_ok.mp rest
      obtain ⟨_, -, rest⟩ := bind_eq_ok.mp rest
      obtain ⟨_, -, rest⟩ := bind_eq_ok.mp rest
      exact .inl ⟨Except.ok.inj rest ▸ rfl, rfl⟩
    | addTrustAnchor a =>
      obtain ⟨_, -, rest⟩ := bind_eq_ok.mp performed
      exact .inl ⟨Except.ok.inj rest ▸ rfl, rfl⟩
    | addWorkspaceAuthority a =>
      obtain ⟨_, -, rest⟩ := bind_eq_ok.mp performed
      obtain ⟨_, -, rest⟩ := bind_eq_ok.mp rest
      obtain ⟨_, -, rest⟩ := bind_eq_ok.mp rest
      exact .inl ⟨Except.ok.inj rest ▸ rfl, rfl⟩
    | prepareCommit i =>
      obtain ⟨_, -, rest⟩ := bind_eq_ok.mp performed
      exact .inl ⟨Except.ok.inj rest ▸ rfl, rfl⟩
    | advanceCommit i expected =>
      obtain ⟨_, -, rest⟩ := bind_eq_ok.mp performed
      exact .inl ⟨Except.ok.inj rest ▸ rfl, rfl⟩
    | quarantineWorkspaceAuthority ws generation root =>
      obtain ⟨_, -, rest⟩ := bind_eq_ok.mp performed
      exact .inl ⟨Except.ok.inj rest ▸ rfl, rfl⟩

/-! ## The invariant -/

/-- One unreleased lease for a workspace and an epoch, and tokens that count the grants. -/
structure Fenced (store : Store D) : Prop where
  single : ∀ r ∈ store.leases, ∀ s ∈ store.leases, r.Unreleased → s.Unreleased →
    s.Of r.lease.workspaceId r.lease.authorityEpoch → r = s
  counted : ∀ ws epoch, Log (·.lease.fencingToken) (fun _ _ => True)
    (store.leases.rows.filter fun r => r.Of ws epoch)

/-- A lease that is acquired is the next of its workspace and epoch, and no other is. -/
theorem Acquires.fenced {l : DeploymentInstanceLease D} (h : Acquires store l store')
    (fenced : Fenced store) : Fenced store' := by
  obtain ⟨leases, inserted, rfl⟩ := h.stored
  obtain ⟨-, appended⟩ := Table.insert?_eq_some.mp inserted
  have split : ∀ r ∈ leases, r ∈ store.leases ∨ r = ⟨l, none⟩ := by
    intro r mem
    rw [Table.mem_iff, appended, List.mem_append, List.mem_singleton] at mem
    exact mem
  constructor
  · intro r hr s hs openR openS same
    obtain hr | rfl := split r hr
    · obtain hs | rfl := split s hs
      · exact fenced.single r hr s hs openR openS same
      · exact absurd ⟨r, hr, ⟨same.1.symm, same.2.symm⟩, openR⟩ h.free
    · obtain hs | rfl := split s hs
      · exact absurd ⟨s, hs, same, openS⟩ h.free
      · rfl
  · intro ws epoch
    rw [appended]
    refine (fenced.counted ws epoch).filter_append fun its => ?_
    obtain ⟨rfl, rfl⟩ : l.workspaceId = ws ∧ l.authorityEpoch = epoch := of_decide_eq_true its
    rw [← (fenced.counted _ _).max?]
    exact ⟨h.token, trivial⟩

/-- Releasing a lease leaves the others, and the tokens, as they are. -/
theorem Releases.fenced {l : DeploymentInstanceLease D} {token : Nat}
    (h : Releases store l token store') (fenced : Fenced store) : Fenced store' := by
  obtain ⟨r, hr, -, -, t, -, rfl⟩ := h.row
  constructor
  · intro s hs s' hs' openS openS' same
    obtain ⟨hs, -⟩ | ⟨_, -, -, rfl⟩ := Table.of_mem_update hs
    · obtain ⟨hs', -⟩ | ⟨_, -, -, rfl⟩ := Table.of_mem_update hs'
      · exact fenced.single s hs s' hs' openS openS' same
      · exact absurd openS' nofun
    · exact absurd openS nofun
  · intro ws epoch
    refine (fenced.counted ws epoch).filter_map (fun s => ?_) (fun s => ?_) fun _ _ => id
    · by_cases its : decide (s.lease.id = r.lease.id) = true
      · rw [if_pos its]
        rfl
      · rw [if_neg its]
    · by_cases its : decide (s.lease.id = r.lease.id) = true
      · rw [if_pos its]
        rfl
      · rw [if_neg its]

theorem fenced_step (fenced : Fenced store) (op : Operation D) : Fenced (step store op) := by
  obtain ⟨same, -⟩ | ⟨l, -, acquires⟩ | ⟨l, token, -, releases⟩ := step_leases store op
  · constructor
    · rw [same]
      exact fenced.single
    · rw [same]
      exact fenced.counted
  · exact acquires.fenced fenced
  · exact releases.fenced fenced

/-! ## One row through a run -/

/-- A row after a call: it is there as before, or the call has released it. -/
structure ReleasedBy (r : LeaseRow D) (op : Operation D) (s : LeaseRow D) : Prop where
  unreleased : r.Unreleased
  call : ∃ t, op = .releaseLease { r.lease with releasedAt := some t } r.lease.fencingToken ∧
    s = ⟨{ r.lease with releasedAt := some t }, some t⟩

theorem row_step {r : LeaseRow D} (mem : r ∈ store.leases) (op : Operation D) :
    r ∈ (step store op).leases ∨ ∃ s ∈ (step store op).leases, ReleasedBy r op s := by
  obtain ⟨same, -⟩ | ⟨l, -, acquires⟩ | ⟨l, token, called, releases⟩ := step_leases store op
  · exact .inl (same ▸ mem)
  · obtain ⟨leases, inserted, stored⟩ := acquires.stored
    rw [stored]
    exact .inl (Table.mem_append_of_mem (Table.insert?_eq_some.mp inserted).2 mem)
  · obtain ⟨s, hs, unreleased, rfl, t, rfl, stored⟩ := releases.row
    rw [stored]
    have image := Table.mem_update_of_mem (p := (·.lease.id = s.lease.id))
      (f := Store.released t) mem
    by_cases its : decide (r.lease.id = s.lease.id) = true
    · obtain rfl : r = s := Table.eq_of_key mem hs (of_decide_eq_true its)
      rw [if_pos its] at image
      exact .inr ⟨_, image, unreleased, t, called, rfl⟩
    · rw [if_neg its] at image
      exact .inl image

/-- A released row stays as it is. -/
theorem released_row_stays {r : LeaseRow D} (mem : r ∈ store.leases) (released : ¬ r.Unreleased)
    (ops : List (Operation D)) : r ∈ (exec step store ops).leases := by
  refine preserves (I := fun store : Store D => r ∈ store.leases) mem (fun store op mem => ?_) ops
  obtain stays | ⟨_, -, by_call⟩ := row_step mem op
  · exact stays
  · exact absurd by_call.unreleased released

/-! ## The grants -/

/-- The leases that a run grants, in order. -/
def granted (store : Store D) : List (Operation D) → List (DeploymentInstanceLease D)
  | [] => []
  | op :: ops => grant store op ++ granted (step store op) ops

/-- The tokens of the leases of a workspace and an epoch. -/
def tokensOf (ws : Uuid) (epoch : Nat) (leases : List (DeploymentInstanceLease D)) : List Nat :=
  (leases.filter fun l => l.workspaceId = ws ∧ l.authorityEpoch = epoch).map (·.fencingToken)

theorem tokensOf_append {ws : Uuid} {epoch : Nat} {first rest : List (DeploymentInstanceLease D)} :
    tokensOf ws epoch (first ++ rest) = tokensOf ws epoch first ++ tokensOf ws epoch rest := by
  rw [tokensOf, List.filter_append, List.map_append]
  rfl

theorem tokens_eq (store : Store D) (ws : Uuid) (epoch : Nat) :
    store.tokens ws epoch = tokensOf ws epoch (store.leases.rows.map (·.lease)) := by
  rw [Store.tokens, tokensOf, List.filter_map, List.map_map]
  rfl

theorem tokens_released (leases : Table (LeaseRow D)) (p : LeaseRow D → Bool) (t : Instant)
    (ws : Uuid) (epoch : Nat) :
    tokensOf ws epoch ((leases.update p (Store.released t)).rows.map (·.lease)) =
      tokensOf ws epoch (leases.rows.map (·.lease)) := by
  rw [Table.rows_update, List.map_map]
  unfold tokensOf
  simp only [List.filter_map, List.map_map]
  have images : ∀ r : LeaseRow D, (if p r then Store.released t r else r).lease.workspaceId =
        r.lease.workspaceId ∧
      (if p r then Store.released t r else r).lease.authorityEpoch = r.lease.authorityEpoch ∧
      (if p r then Store.released t r else r).lease.fencingToken = r.lease.fencingToken := by
    intro r
    split <;> exact ⟨rfl, rfl, rfl⟩
  simp only [Function.comp_def, images]

theorem tokens_step (store : Store D) (op : Operation D) (ws : Uuid) (epoch : Nat) :
    (step store op).tokens ws epoch = store.tokens ws epoch ++ tokensOf ws epoch (grant store op) := by
  rw [tokens_eq, tokens_eq, ← tokensOf_append]
  obtain ⟨same, none_granted⟩ | ⟨l, granted, acquires⟩ | ⟨l, token, rfl, releases⟩ :=
    step_leases store op
  · rw [same, none_granted, List.append_nil]
  · obtain ⟨leases, inserted, stored⟩ := acquires.stored
    rw [stored, granted]
    dsimp only
    rw [(Table.insert?_eq_some.mp inserted).2, List.map_append, List.map_singleton]
  · obtain ⟨r, -, -, -, t, -, stored⟩ := releases.row
    have none_granted : grant store (.releaseLease l token) = [] := rfl
    rw [stored, none_granted, List.append_nil]
    exact tokens_released store.leases _ t ws epoch

/-- The tokens in the table are those from before the run and those that it grants. -/
theorem tokens_exec (store : Store D) (ops : List (Operation D)) (ws : Uuid) (epoch : Nat) :
    (exec step store ops).tokens ws epoch =
      store.tokens ws epoch ++ tokensOf ws epoch (granted store ops) := by
  induction ops generalizing store with
  | nil => exact (List.append_nil _).symm
  | cons op ops ih =>
    rw [exec_cons, ih, tokens_step, granted, tokensOf_append, List.append_assoc]

/-! ## Locks -/

/-- Two leases name one lock exactly when they are of one workspace. -/
theorem lockName_eq_iff (injective : Function.Injective D.sha256)
    (l m : DeploymentInstanceLease D) : l.lockName = m.lockName ↔ l.workspaceId = m.workspaceId := by
  obtain ⟨_, -, named⟩ := bind_eq_ok.mp l.named
  obtain ⟨_, -, named'⟩ := bind_eq_ok.mp m.named
  rw [← Except.ok.inj named, ← Except.ok.inj named']
  constructor
  · intro same
    have digests := (String.append_right_inj _).mp same
    exact Uuid.text_inj ((String.append_right_inj _).mp (injective digests))
  · intro same
    rw [same]

/-! ## Runs -/

/-- What holds of the leases after a run. -/
structure LeaseFencing (start : Store D) (ops : List (Operation D)) : Prop where
  single : ∀ r ∈ (exec step start ops).leases, ∀ s ∈ (exec step start ops).leases,
    r.Unreleased → s.Unreleased → s.Of r.lease.workspaceId r.lease.authorityEpoch → r = s
  counted : ∀ ws epoch, ∃ n, tokensOf ws epoch (granted start ops) = List.range' 1 n
  released : ∀ before op after, ops = before ++ op :: after →
    ∀ r ∈ (exec step start before).leases, r.Unreleased →
      ∀ s ∈ (exec step start (before ++ [op])).leases, s.lease.id = r.lease.id →
        ¬ s.Unreleased → ReleasedBy r op s
  final : ∀ before after, ops = before ++ after → ∀ r ∈ (exec step start before).leases,
    ¬ r.Unreleased → r ∈ (exec step start ops).leases
  locks : ∀ r ∈ (exec step start ops).leases, ∀ s ∈ (exec step start ops).leases,
    r.Unreleased → s.Unreleased → r ≠ s → r.lease.lockName = s.lease.lockName →
      r.lease.workspaceId = s.lease.workspaceId ∧ r.lease.authorityEpoch ≠ s.lease.authorityEpoch

theorem fenced_exec {start : Store D} (empty : start.leases = ∅) (ops : List (Operation D)) :
    Fenced (exec step start ops) := by
  refine preserves (I := Fenced) ⟨?_, ?_⟩ (fun _ op fenced => fenced_step fenced op) ops
  · intro r mem
    rw [empty] at mem
    exact absurd mem Table.not_mem_empty
  · intro ws epoch
    rw [empty]
    exact Log.nil

/-- Leases are fenced in every run from a store without leases. -/
theorem leases_fenced (injective : Function.Injective D.sha256) {start : Store D}
    (empty : start.leases = ∅) (ops : List (Operation D)) : LeaseFencing start ops where
  single := (fenced_exec empty ops).single
  counted := by
    intro ws epoch
    have counted := (fenced_exec empty ops).counted ws epoch
    have tokens := tokens_exec start ops ws epoch
    have before : start.tokens ws epoch = [] := by
      rw [Store.tokens, empty]
      rfl
    rw [before, List.nil_append] at tokens
    exact ⟨_, tokens.symm.trans counted.numbered⟩
  released := by
    rintro before op after - r mem unreleased s image same released
    rw [exec_append] at image
    obtain stays | ⟨s', mem', by_call⟩ := row_step mem op
    · obtain rfl : s = r := Table.eq_of_key image stays same
      exact absurd unreleased released
    · have same' : s'.lease.id = r.lease.id := by
        obtain ⟨t, -, rfl⟩ := by_call.call
        rfl
      obtain rfl : s = s' := Table.eq_of_key image mem' (same.trans same'.symm)
      exact by_call
  final := by
    rintro before after rfl r mem released
    rw [exec_append]
    exact released_row_stays mem released after
  locks := by
    intro r hr s hs openR openS apart same
    have workspace := (lockName_eq_iff injective _ _).mp same
    refine ⟨workspace, fun epoch => apart ?_⟩
    exact (fenced_exec empty ops).single r hr s hs openR openS ⟨workspace.symm, epoch.symm⟩

/-! ## The active lease -/

/-- The token of an unreleased lease is above that of every other lease of its workspace and
epoch. -/
def Newest (store : Store D) : Prop :=
  ∀ r ∈ store.leases, r.Unreleased → ∀ s ∈ store.leases,
    s.Of r.lease.workspaceId r.lease.authorityEpoch →
      s = r ∨ s.lease.fencingToken < r.lease.fencingToken

theorem Acquires.newest {l : DeploymentInstanceLease D} (h : Acquires store l store')
    (fenced : Fenced store') (newest : Newest store) : Newest store' := by
  obtain ⟨leases, inserted, rfl⟩ := h.stored
  obtain ⟨-, appended⟩ := Table.insert?_eq_some.mp inserted
  intro r hr openR s hs same
  rw [Table.mem_iff, appended, List.mem_append, List.mem_singleton] at hr hs
  obtain hr | rfl := hr
  · obtain hs | rfl := hs
    · exact newest r hr openR s hs same
    · exact absurd ⟨r, hr, ⟨same.1.symm, same.2.symm⟩, openR⟩ h.free
  · obtain hs | rfl := hs
    · have ordered := (fenced.counted l.workspaceId l.authorityEpoch).pairwise
      simp only [appended, List.filter_append] at ordered
      refine .inr ((List.pairwise_append.mp ordered).2.2 s ?_ ⟨l, none⟩ ?_)
      · exact List.mem_filter.mpr ⟨hs, decide_eq_true same⟩
      · exact List.mem_filter.mpr ⟨List.mem_singleton_self _, decide_eq_true ⟨rfl, rfl⟩⟩
    · exact .inl rfl

theorem Releases.newest {l : DeploymentInstanceLease D} {token : Nat}
    (h : Releases store l token store') (newest : Newest store) : Newest store' := by
  obtain ⟨q, -, -, -, t, -, rfl⟩ := h.row
  intro r hr openR s hs same
  obtain ⟨hr, kept⟩ | ⟨_, -, -, rfl⟩ := Table.of_mem_update hr
  · obtain ⟨hs, -⟩ | ⟨s, old, hit, rfl⟩ := Table.of_mem_update hs
    · exact newest r hr openR s hs same
    · -- the lease that is released is not `r`, and it keeps its token
      refine .inr ((newest r hr openR s old same).resolve_left fun eq => ?_)
      rw [eq, kept] at hit
      exact Bool.false_ne_true hit
  · exact absurd openR nofun

/-- In every run `get_active_lease` answers just if the workspace is held for the epoch, with an
unreleased lease whose token is above that of every other lease that was granted for them. -/
theorem active_lease_newest (ops : List (Operation D)) (ws : Uuid) (epoch : Nat) :
    let store := exec step Store.bare ops
    ((store.getActiveLease ws epoch).isSome ↔ store.Held ws epoch) ∧
      ∀ l ∈ store.getActiveLease ws epoch, ∃ r ∈ store.leases, r.lease = l ∧ r.Unreleased ∧
        ∀ s ∈ store.leases, s.Of ws epoch → s = r ∨ s.lease.fencingToken < l.fencingToken := by
  intro store
  have newest : Fenced store ∧ Newest store := by
    refine preserves (I := fun store => Fenced store ∧ Newest store) ⟨fenced_exec rfl [], ?_⟩ ?_ ops
    · exact fun r mem => absurd mem Table.not_mem_empty
    · rintro store op ⟨fenced, newest⟩
      have fenced' := fenced_step fenced op
      obtain ⟨same, -⟩ | ⟨l, -, acquires⟩ | ⟨l, token, -, releases⟩ := step_leases store op
      · refine ⟨fenced', ?_⟩
        rw [Newest, same]
        exact newest
      · exact ⟨fenced', acquires.newest fenced' newest⟩
      · exact ⟨fenced', releases.newest newest⟩
  constructor
  · simp [Store.getActiveLease, Store.Held]
  · intro l found
    obtain ⟨r, first, rfl⟩ := Option.map_eq_some_iff.mp found
    have active := List.find?_some first
    obtain ⟨its, unreleased⟩ := of_decide_eq_true active
    have mem := List.mem_of_find?_eq_some first
    refine ⟨r, mem, rfl, unreleased, fun s hs of => newest.2 r mem unreleased s hs ?_⟩
    rwa [its.1, its.2]

/-! ## Two epochs of one workspace -/

namespace TwoEpochs

/-- Digests that are the texts themselves. -/
def plain : Digests where
  sha256 := id
  uuid5 _ := Uuid.ofNat 0

def workspace : Uuid := Uuid.ofNat 1

def instanceId : Uuid := Uuid.ofNat 2

/-- The first lease of an epoch. -/
def lease (id : Uuid) (epoch : Nat) (pos : ¬ epoch < 1) : DeploymentInstanceLease plain where
  id := id
  workspaceId := workspace
  authorityEpoch := epoch
  deploymentInstanceId := instanceId
  lockName := "corvus-workspace-" ++ plain.sha256 (lockMaterial workspace)
  fencingToken := 1
  acquiredAt := 0
  releasedAt := none
  named := bind_eq_ok.mpr ⟨(), refuse_eq_ok.mpr pos, rfl⟩
  token_pos := Nat.one_pos

def calls : List (Operation plain) := [
  .addDeploymentProfile ⟨Uuid.ofNat 3⟩,
  .addDeploymentInstance ⟨instanceId, Uuid.ofNat 3, "", .active⟩,
  .acquireLease (lease (Uuid.ofNat 4) 1 (by decide)),
  .acquireLease (lease (Uuid.ofNat 5) 2 (by decide))]

theorem leases_rows : (exec step Store.bare calls).leases.rows =
    [⟨lease (Uuid.ofNat 4) 1 (by decide), none⟩, ⟨lease (Uuid.ofNat 5) 2 (by decide), none⟩] := by
  rfl

/-- The lock of a workspace is named by the unreleased leases of two epochs. -/
theorem one_lock_two_epochs : ¬ ∀ r ∈ (exec step Store.bare calls).leases,
    ∀ s ∈ (exec step Store.bare calls).leases, r.Unreleased → s.Unreleased →
      r.lease.lockName = s.lease.lockName → r = s := by
  intro apart
  have first : (⟨lease (Uuid.ofNat 4) 1 (by decide), none⟩ : LeaseRow plain) ∈
      (exec step Store.bare calls).leases := by
    rw [Table.mem_iff, leases_rows]
    exact List.mem_cons_self
  have second : (⟨lease (Uuid.ofNat 5) 2 (by decide), none⟩ : LeaseRow plain) ∈
      (exec step Store.bare calls).leases := by
    rw [Table.mem_iff, leases_rows]
    exact List.mem_cons_of_mem _ List.mem_cons_self
  have same := apart _ first _ second rfl rfl rfl
  exact absurd (congrArg (·.lease.authorityEpoch) same) (by decide)

/-- The same run, in which the leases are fenced all the same. -/
theorem two_epochs_fenced : LeaseFencing Store.bare calls :=
  leases_fenced Function.injective_id rfl calls

end TwoEpochs

end Corvus.Deployment
