import Corvus.Worktrees.Manager

/-!
# Leases and their worktrees

A workspace is sound when every lease is backed by what its status promises of the worktree,
and every worktree stands at the root of a lease. Each change that a call makes to a sound
workspace in its turn leaves it sound; only the removal of the worktree of an active lease needs
the update of the lease to go with it.
-/

namespace Corvus.Worktrees

open Table (mem_remove mem_update of_mem_update)

/-- What `_git_metadata_digest` returns for a worktree. -/
def Worktree.metadata (m : Manager) (t : Worktree) : Except Failure String := do
  let raw ← present t.gitFile (.ownership "worktree_git_metadata_invalid")
  let _ ← gitDirectoryOf raw
  require t.gitDirectory (.ownership "worktree_git_metadata_invalid")
  return m.sha256 raw

structure WorktreeLease.Formed (m : Manager) (l : WorktreeLease) : Prop where
  run : ∃ u : Uuid, u.text = l.runId
  root : l.root = m.target l.repositoryId l.runId
  sha : validSha l.baseSha = true
  repository : (m.canonicalPath l.repositoryId).isSome

/-- The digest of an active lease is that of the worktree at its root. -/
def WorktreeLease.Vouches (m : Manager) (l : WorktreeLease) (t : Worktree) : Prop :=
  t.root = l.root ∧ ∃ metadata, t.metadata m = .ok metadata ∧
    l.ownershipDigest = m.ownershipDigest l.runId l.repositoryId l.root l.baseSha metadata

/-- What the status of a lease promises. -/
def WorktreeLease.Backed (m : Manager) (w : Workspace) (l : WorktreeLease) : Prop :=
  match l.status with
  | .creating => l.ownershipDigest = m.creatingDigest l.runId l.repositoryId l.root l.baseSha
  | .active => ∃ t ∈ w.worktrees, l.Vouches m t
  | .discarded => ∀ t ∈ w.worktrees, t.root ≠ l.root

structure Sound (m : Manager) (w : Workspace) : Prop where
  formed : ∀ l ∈ w.leases, l.Formed m
  backed : ∀ l ∈ w.leases, l.Backed m w
  owned : ∀ t ∈ w.worktrees, ∃ l ∈ w.leases, l.root = t.root

variable {m : Manager} {w : Workspace} {l k : WorktreeLease} {t : Worktree} {runId root : String}

theorem sound_empty : Sound m ⟨∅, ∅⟩ where
  formed _ mem := absurd mem Table.not_mem_empty
  backed _ mem := absurd mem Table.not_mem_empty
  owned _ mem := absurd mem Table.not_mem_empty

/-! ## The root of a lease -/

/-- The path of a worktree ends with the id of its run. -/
theorem target_inj {a b : String} {u v : Uuid} (same : m.target a u.text = m.target b v.text) :
    u.text = v.text := by
  have chars := congrArg String.toList same
  simp only [Manager.target, String.toList_append] at chars
  obtain ⟨-, run⟩ := List.append_inj' chars (by rw [Uuid.length_text, Uuid.length_text])
  exact String.toList_inj.mp run

theorem WorktreeLease.Formed.eq_runId (first : l.Formed m) (second : k.Formed m)
    (same : l.root = k.root) : l.runId = k.runId := by
  obtain ⟨⟨u, run⟩, root, -, -⟩ := first
  obtain ⟨⟨v, run'⟩, root', -, -⟩ := second
  rw [root, root', ← run, ← run'] at same
  rw [← run, ← run']
  exact target_inj same

theorem Sound.eq_of_root (sound : Sound m w) (hl : l ∈ w.leases) (hk : k ∈ w.leases)
    (same : l.root = k.root) : l = k :=
  Table.eq_of_key hl hk ((sound.formed l hl).eq_runId (sound.formed k hk) same)

/-! ## What a lease is backed by -/

theorem backed_creating (creating : l.status = .creating) : l.Backed m w ↔
    l.ownershipDigest = m.creatingDigest l.runId l.repositoryId l.root l.baseSha := by
  rw [WorktreeLease.Backed, creating]

theorem backed_active (active : l.status = .active) :
    l.Backed m w ↔ ∃ t ∈ w.worktrees, l.Vouches m t := by
  rw [WorktreeLease.Backed, active]

theorem backed_discarded (discarded : l.status = .discarded) :
    l.Backed m w ↔ ∀ t ∈ w.worktrees, t.root ≠ l.root := by
  rw [WorktreeLease.Backed, discarded]

/-- Only the worktree at the root of a lease matters for it. -/
theorem WorktreeLease.Backed.congr {w' : Workspace} (backed : l.Backed m w)
    (same : ∀ t, t.root = l.root → (t ∈ w.worktrees ↔ t ∈ w'.worktrees)) : l.Backed m w' := by
  cases status : l.status with
  | creating =>
    rw [backed_creating status] at backed ⊢
    exact backed
  | active =>
    rw [backed_active status] at backed ⊢
    obtain ⟨t, mem, vouches⟩ := backed
    exact ⟨t, (same t vouches.1).mp mem, vouches⟩
  | discarded =>
    rw [backed_discarded status] at backed ⊢
    intro t mem at_root
    exact backed t ((same t at_root).mpr mem) at_root

/-! ## The changes of a creation -/

theorem Sound.insert {leases : Table WorktreeLease} (sound : Sound m w)
    (inserted : leases.rows = w.leases.rows ++ [l]) (formed : l.Formed m)
    (creating : l.status = .creating)
    (digest : l.ownershipDigest = m.creatingDigest l.runId l.repositoryId l.root l.baseSha) :
    Sound m { w with leases } where
  formed k mem := by
    rw [Table.mem_iff, inserted, List.mem_append, List.mem_singleton] at mem
    obtain old | rfl := mem
    · exact sound.formed k old
    · exact formed
  backed k mem := by
    rw [Table.mem_iff, inserted, List.mem_append, List.mem_singleton] at mem
    obtain old | rfl := mem
    · exact (sound.backed k old).congr fun _ _ => Iff.rfl
    · exact (backed_creating creating).mpr digest
  owned t mem := by
    obtain ⟨k, old, root⟩ := sound.owned t mem
    exact ⟨k, Table.mem_append_of_mem inserted old, root⟩

/-- A worktree is added for a lease that is being created. -/
theorem Sound.add {worktrees : Table Worktree} (sound : Sound m w)
    (added : worktrees.rows = w.worktrees.rows ++ [t]) (mem : l ∈ w.leases)
    (creating : l.status = .creating) (at_root : t.root = l.root) :
    Sound m { w with worktrees } where
  formed := sound.formed
  backed k there := by
    by_cases same : t.root = k.root
    · obtain rfl := sound.eq_of_root mem there (at_root.symm.trans same)
      rw [backed_creating creating]
      exact (backed_creating creating).mp (sound.backed l mem)
    · refine (sound.backed k there).congr fun u root => ?_
      rw [Table.mem_iff, Table.mem_iff, added, List.mem_append, List.mem_singleton]
      refine (or_iff_left fun is => ?_).symm
      exact same (by rw [← is]; exact root)
  owned u there := by
    rw [Table.mem_iff, added, List.mem_append, List.mem_singleton] at there
    obtain old | rfl := there
    · exact sound.owned u old
    · exact ⟨l, mem, at_root.symm⟩

/-- What is true of a lease stays true of it when the others are changed. -/
theorem mem_update_other {leases : Table WorktreeLease} {p : WorktreeLease → Bool}
    {f : Rewrite WorktreeLease} (mem : k ∈ leases) (other : p k = false) : k ∈ leases.update p f :=
  mem_update.mpr ⟨k, mem, by rw [other, if_neg Bool.false_ne_true]⟩

/-- The status with which a statement picks the lease of a run. -/
theorem picks_iff {status : Status} : (decide (l.runId = runId ∧ l.status = status)) = true ↔
    l.runId = runId ∧ l.status = status :=
  decide_eq_true_iff

theorem Sound.activate {metadata : String} (sound : Sound m w) (mem : l ∈ w.leases)
    (creating : l.status = .creating) (there : t ∈ w.worktrees) (at_root : t.root = l.root)
    (read : t.metadata m = .ok metadata) :
    Sound m (activate l.runId l.root
      (m.ownershipDigest l.runId l.repositoryId l.root l.baseSha metadata) w).2 where
  formed k mem' := by
    obtain ⟨old, -⟩ | ⟨r, old, picked, rfl⟩ := of_mem_update mem'
    · exact sound.formed k old
    · obtain ⟨run, -⟩ := picks_iff.mp picked
      obtain rfl := Table.eq_of_key old mem run
      obtain ⟨run, root, sha, repository⟩ := sound.formed r old
      exact ⟨run, root, sha, repository⟩
  backed k mem' := by
    obtain ⟨old, -⟩ | ⟨r, old, picked, rfl⟩ := of_mem_update mem'
    · exact (sound.backed k old).congr fun _ _ => Iff.rfl
    · obtain ⟨run, -⟩ := picks_iff.mp picked
      obtain rfl := Table.eq_of_key old mem run
      exact ⟨t, there, at_root, metadata, read, rfl⟩
  owned u mem' := by
    obtain ⟨k, old, root⟩ := sound.owned u mem'
    refine ⟨_, Table.mem_update_of_mem old, ?_⟩
    split
    · next picked =>
      obtain ⟨run, -⟩ := picks_iff.mp picked
      obtain rfl := Table.eq_of_key old mem run
      exact root
    · exact root

/-- The worktree of a lease that is being created is removed. -/
theorem Sound.removeInterrupted (sound : Sound m w) (mem : l ∈ w.leases)
    (creating : l.status = .creating) :
    Sound m { w with worktrees := w.worktrees.remove (·.root = l.root) } where
  formed := sound.formed
  backed k there := by
    by_cases same : k.root = l.root
    · obtain rfl := sound.eq_of_root there mem same
      rw [backed_creating creating]
      exact (backed_creating creating).mp (sound.backed k mem)
    · refine (sound.backed k there).congr fun u root => ?_
      rw [mem_remove, and_iff_left]
      exact decide_eq_false (root ▸ same)
  owned u there := sound.owned u (mem_remove.mp there).1

/-- A lease that is being created is deleted once its worktree is gone. -/
theorem Sound.delete (sound : Sound m w)
    (gone : ∀ k ∈ w.leases, k.runId = runId → k.status = .creating →
      ∀ t ∈ w.worktrees, t.root ≠ k.root) : Sound m (deleteCreating runId w) where
  formed k mem := sound.formed k (mem_remove.mp mem).1
  backed k mem := (sound.backed k (mem_remove.mp mem).1).congr fun _ _ => Iff.rfl
  owned t mem := by
    obtain ⟨k, old, root⟩ := sound.owned t mem
    refine ⟨k, mem_remove.mpr ⟨old, decide_eq_false fun picked => ?_⟩, root⟩
    exact gone k old picked.1 picked.2 t mem root.symm

/-! ## The changes of a discard -/

/-- The worktree of an active lease is removed, and the lease is marked. -/
theorem Sound.discard {discardedAt : Instant} (sound : Sound m w) (mem : l ∈ w.leases)
    (active : l.status = .active) :
    Sound m (discardLease l.runId discardedAt
      { w with worktrees := w.worktrees.remove (·.root = l.root) }) where
  formed k mem' := by
    obtain ⟨old, -⟩ | ⟨r, old, -, rfl⟩ := of_mem_update mem'
    · exact sound.formed k old
    · obtain ⟨run, root, sha, repository⟩ := sound.formed r old
      exact ⟨run, root, sha, repository⟩
  backed k mem' := by
    obtain ⟨old, other⟩ | ⟨r, old, picked, rfl⟩ := of_mem_update mem'
    · refine (sound.backed k old).congr fun u root => ?_
      have apart : k.root ≠ l.root := by
        intro same
        obtain rfl := sound.eq_of_root old mem same
        exact absurd (decide_eq_false_iff_not.mp other) (not_not_intro ⟨rfl, active⟩)
      show u ∈ w.worktrees ↔ u ∈ w.worktrees.remove _
      rw [mem_remove, and_iff_left]
      exact decide_eq_false (root ▸ apart)
    · obtain ⟨run, -⟩ := picks_iff.mp picked
      obtain rfl := Table.eq_of_key old mem run
      intro u there
      exact decide_eq_false_iff_not.mp (mem_remove.mp there).2
  owned u there := by
    obtain ⟨old, apart⟩ := mem_remove.mp there
    obtain ⟨k, mem', root⟩ := sound.owned u old
    refine ⟨k, mem_update_other mem' (decide_eq_false fun picked => ?_), root⟩
    obtain rfl := Table.eq_of_key mem' mem picked.1
    exact decide_eq_false_iff_not.mp apart root.symm

end Corvus.Worktrees
