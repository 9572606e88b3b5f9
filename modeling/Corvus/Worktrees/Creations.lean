import Corvus.Worktrees.Calls

/-!
# Creations and what takes them back

A creation inserts its lease first and activates it last, so that what is left of it in
between is a lease that is being created, with or without its worktree. A recovery takes such
leases back one by one.
-/

namespace Corvus.Worktrees

open Dialogue Procedure

variable {m : Manager} {D : Draw → Prop} {C : Recorded → Prop} {s s' : Recorded}
  {w w' : Workspace} {l : WorktreeLease} {t : Worktree} {repository target runId baseSha : String}

/-! ## The questions of a creation -/

/-- A creation that could not activate its lease, and that has not got rid of the worktree. -/
def Stranding (s : Recorded) : Prop :=
  (∃ a ∈ activations s.2, a.2 ≠ some 1) ∧ false ∈ removals s.2

def Creating (m : Manager) (s : Recorded) : Prop := Sound m s.1 ∨ Stranding s

theorem steady_creating : Steady (Creating m) := by
  rintro s s' (sound | ⟨unactivated, failed⟩) reads
  · left
    rw [reads.1]
    exact sound
  · right
    exact ⟨by rw [reads.activations_eq]; exact unactivated, by rw [reads.removals_eq]; exact failed⟩

theorem Stranding.later {x : Exchange Port Port.Answer} (stranding : Stranding s) :
    Stranding (w, s.2 ++ [x]) := by
  obtain ⟨⟨a, mem, raised⟩, failed⟩ := stranding
  constructor
  · rw [activations_append]
    exact ⟨a, List.mem_append_left _ mem, raised⟩
  · rw [removals_append]
    exact List.mem_append_left _ failed

/-- No lease has been activated. -/
def Unactivated (asked : Asked) : Prop := ∀ a ∈ activations asked, a.2 ≠ some 1

theorem Unactivated.append {a b : Asked} (first : Unactivated a) (second : Unactivated b) :
    Unactivated (a ++ b) := by
  rw [Unactivated, activations_append]
  exact List.forall_mem_append.mpr ⟨first, second⟩

/-- Another question than an activation. -/
theorem Unactivated.silent {a : Asked} {x : Exchange Port Port.Answer} (first : Unactivated a)
    (other : activations [x] = []) : Unactivated (a ++ [x]) := by
  refine first.append fun b mem => ?_
  rw [other] at mem
  exact absurd mem List.not_mem_nil

theorem Reads.unactivated (reads : Reads s s') (first : Unactivated s.2) : Unactivated s'.2 := by
  rw [Unactivated, reads.activations_eq]
  exact first

/-- A creation that raises has not activated its lease. -/
def Excused (s s' : Recorded) (x : Except Failure WorktreeLease) : Prop :=
  ∀ e, x = .error e → Unactivated s.2 → Unactivated s'.2

theorem insertLease_eq {inserted : Bool} (answered : insertLease m l w = (inserted, w')) :
    inserted = true ∧ (∃ leases : Table WorktreeLease, leases.rows = w.leases.rows ++ [l] ∧
        w' = { w with leases }) ∧ w.Allows m l.repositoryId l.root ∨
      inserted = false ∧ w' = w ∧
        ¬ (w.Allows m l.repositoryId l.root ∧ ∀ k ∈ w.leases, k.runId ≠ l.runId) := by
  rw [insertLease] at answered
  split at answered
  · next allows =>
    split at answered
    · next leases there =>
      obtain ⟨rfl, rfl⟩ := Prod.mk.inj answered
      exact .inl ⟨rfl, ⟨leases, (Table.insert?_eq_some.mp there).2, rfl⟩, allows⟩
    · next taken =>
      obtain ⟨rfl, rfl⟩ := Prod.mk.inj answered
      refine .inr ⟨rfl, rfl, fun possible => ?_⟩
      obtain ⟨leases, there⟩ := Table.exists_insert? (t := w.leases) (r := l) possible.2
      rw [there] at taken
      nomatch taken
  · next refused =>
    obtain ⟨rfl, rfl⟩ := Prod.mk.inj answered
    exact .inr ⟨rfl, rfl, fun allows => refused allows.1⟩

theorem addAt_eq {d : Draw} {added : Bool} (free : ∀ t ∈ w.worktrees, t.root ≠ target)
    (answered : addAt target d w = (added, w')) :
    added = true ∧ (∃ worktrees : Table Worktree, worktrees.rows =
        w.worktrees.rows ++ [⟨target, d.gitFile, d.gitDirectory, d.head⟩] ∧
        w' = { w with worktrees }) ∨
      added = false ∧ w' = w ∧ d.completes ≠ true := by
  obtain ⟨worktrees, there⟩ := Table.exists_insert? (t := w.worktrees)
    (r := ⟨target, d.gitFile, d.gitDirectory, d.head⟩) free
  rw [addAt] at answered
  split at answered
  · rw [there] at answered
    obtain ⟨rfl, rfl⟩ := Prod.mk.inj answered
    exact .inl ⟨rfl, worktrees, (Table.insert?_eq_some.mp there).2, rfl⟩
  · next failed =>
    obtain ⟨rfl, rfl⟩ := Prod.mk.inj answered
    exact .inr ⟨rfl, rfl, failed⟩

/-- One lease is activated, namely the one of the run. -/
theorem activate_count {root digest : String} (mem : l ∈ w.leases)
    (creating : l.status = .creating) :
    (activate l.runId root digest w).1 = 1 := by
  have only : w.leases.rows.filter (fun k => k.runId = l.runId ∧ k.status = .creating) = [l] := by
    refine Table.filter_eq_singleton w.leases.rows_nodup mem (decide_eq_true ⟨rfl, creating⟩) ?_
    intro k there picked
    exact Table.eq_of_key there mem (of_decide_eq_true picked).1
  show (w.leases.rows.filter _).length = 1
  rw [only, List.length_singleton]

/-- The removal of a worktree is undone by nothing, and one that fails is without effect. -/
theorem ensures_cleanup
    (removed : C (⟨s.1.leases, s.1.worktrees.remove (·.root = target)⟩,
      s.2 ++ [⟨.worktreeRemove repository target, true⟩]))
    (failed : C (s.1, s.2 ++ [⟨.worktreeRemove repository target, false⟩])) :
    Ensures m D C (cleanupFailedWorktree repository target)
      (fun x s' => x = .ok () ∧ s' = (⟨s.1.leases, s.1.worktrees.remove (·.root = target)⟩,
          s.2 ++ [⟨.worktreeRemove repository target, true⟩]) ∨
        (∃ e, x = .error e) ∧
          s' = (s.1, s.2 ++ [⟨.worktreeRemove repository target, false⟩])) s := by
  refine ensures_write fun d _ r w answered => ?_
  obtain ⟨rfl, rfl⟩ | ⟨rfl, rfl, -⟩ := removeAt_eq answered
  · exact ⟨removed, .inl ⟨rfl, rfl⟩⟩
  · exact ⟨failed, .inr ⟨⟨_, rfl⟩, rfl⟩⟩

/-! ## Creating -/

/-- A worktree as git adds it for a commit, when everything completes. -/
structure Draw.Provides (d : Draw) (baseSha : String) : Prop where
  completes : d.completes = true
  head : ∃ text, decodeAscii d.head = some text ∧ Text.strip text = baseSha
  gitFile : ∃ raw path, d.gitFile = some raw ∧ gitDirectoryOf raw = .ok path
  gitDirectory : d.gitDirectory = true

/-- What `create` ends with for a new run. -/
def Created (repository : RepositoryRecord) (runId baseSha : String)
    (x : Except Failure WorktreeLease) : Prop :=
  ∃ l, x = .ok l ∧ l.status = .active ∧ l.runId = runId ∧ l.repositoryId = repository.id.text ∧
    l.baseSha = baseSha

theorem ensures_checkWorktree (steady : Steady C) (start : C s) (there : t ∈ s.1.worktrees)
    (at_target : t.root = target) :
    Ensures m D C (checkWorktree m target baseSha) (fun x s' => Reads s s' ∧ C s' ∧
      (∀ metadata, x = .ok metadata → t.metadata m = .ok metadata) ∧
      ((∀ d, D d → d.completes = true) → (∃ text, decodeAscii t.head = some text ∧
        Text.strip text = baseSha) → x = t.metadata m)) s := by
  have here : s.1.worktrees.get? target = some t := Table.get?_eq_some.mpr ⟨there, at_target⟩
  refine ensures_read steady rfl start fun d _ s₁ reads kept => ?_
  have seen : (answer m d (.isThere target) s.1).1 = true := by
    show (s.1.worktrees.get? target).isSome = true
    rw [here]
    rfl
  rw [seen, require_of rfl, settle_ok_bind]
  refine ensures_read steady rfl kept fun d drawn s₂ reads₂ kept₂ => ?_
  have output : (answer m d (.revParse target) s₁.1).1 =
      if d.completes then some t.head else none := by
    show (if d.completes then (s₁.1.worktrees.get? target).map Worktree.head else none) = _
    rw [reads.1, here]
    rfl
  rw [output]
  have reads₂ := reads.trans reads₂
  split
  · next completes =>
    show Ensures m D C (settle (present (decodeAscii t.head) _) >>= _) _ s₂
    cases decoded : decodeAscii t.head with
    | none =>
      refine ⟨reads₂, kept₂, fun _ raised => absurd raised error_ne_ok, fun _ provided => ?_⟩
      obtain ⟨text, same, -⟩ := provided
      exact absurd same.symm (Option.some_ne_none text)
    | some text =>
      show Ensures m D C (settle (require (Text.strip text = baseSha) _) >>= _) _ s₂
      obtain checked | wrong := eq_or_ne (Text.strip text) baseSha
      · rw [require_of checked, settle_ok_bind]
        refine (ensures_gitMetadataDigest steady kept₂).mono ?_
        rintro x s₃ ⟨reads₃, kept₃, rfl⟩
        have read : metadataAt m s₂.1 target = t.metadata m := by
          rw [metadataAt, reads₂.1, here]
          rfl
        rw [read]
        exact ⟨reads₂.trans reads₃, kept₃, fun _ same => same, fun _ _ => rfl⟩
      · rw [require_of_not wrong]
        refine ⟨reads₂, kept₂, fun _ raised => absurd raised error_ne_ok, fun _ provided => ?_⟩
        obtain ⟨text', same, is⟩ := provided
        obtain rfl := Option.some.inj same
        exact absurd is wrong
  · next fails =>
    refine ⟨reads₂, kept₂, fun _ raised => absurd raised error_ne_ok, fun completes => ?_⟩
    exact absurd (completes d drawn) fails

/-- The lease that a creation has inserted, in a sound workspace. -/
structure Underway (m : Manager) (w : Workspace) (l : WorktreeLease) : Prop where
  sound : Sound m w
  mem : l ∈ w.leases
  creating : l.status = .creating

theorem Underway.removed (under : Underway m w l) :
    Underway m { w with worktrees := w.worktrees.remove (·.root = l.root) } l where
  sound := under.sound.removeInterrupted under.mem under.creating
  mem := under.mem
  creating := under.creating

/-- The lease is deleted once there is no worktree at its root. -/
theorem Underway.delete (under : Underway m w l) (gone : ∀ t ∈ w.worktrees, t.root ≠ l.root) :
    Sound m (deleteCreating l.runId w) := by
  refine under.sound.delete fun k mem run _ => ?_
  obtain rfl := Table.eq_of_key mem under.mem run
  exact gone

theorem not_mem_remove {root : String} :
    ∀ t ∈ w.worktrees.remove (·.root = root), t.root ≠ root :=
  fun _ mem => decide_eq_false_iff_not.mp (Table.mem_remove.mp mem).2

theorem mem_activate (root digest : String) (mem : l ∈ w.leases) (creating : l.status = .creating) :
    { l with root, ownershipDigest := digest, status := .active } ∈
      (activate l.runId root digest w).2.leases := by
  refine Table.mem_update.mpr ⟨l, mem, ?_⟩
  rw [if_pos (decide_eq_true ⟨rfl, creating⟩)]
  rfl

variable {record : RepositoryRecord} {metadata : String}

theorem ensures_activateWorktree (under : Underway m s.1 l) (there : t ∈ s.1.worktrees)
    (at_root : t.root = l.root) (read : t.metadata m = .ok metadata)
    (own : l.repositoryId = record.id.text) :
    Ensures m D (Creating m) (activateWorktree m record l.runId l.root l.baseSha metadata)
      (fun x s' => Creating m s' ∧ ((∀ d, D d → d.completes = true) →
        Created record l.runId l.baseSha x) ∧ Excused s s' x) s := by
  refine ensures_write fun d drawn r w answered => ?_
  rw [← own] at answered ⊢
  dsimp only [answer] at answered
  split at answered
  · rw [activate_count under.mem under.creating] at answered
    obtain ⟨rfl, rfl⟩ := Prod.mk.inj answered
    have sound := under.sound.activate under.mem under.creating there at_root read
    have kept : Creating m ((activate l.runId l.root (m.ownershipDigest l.runId l.repositoryId
        l.root l.baseSha metadata) s.1).2, s.2 ++ [⟨.activate l.runId l.root
        (m.ownershipDigest l.runId l.repositoryId l.root l.baseSha metadata), some 1⟩]) :=
      .inl sound
    refine ⟨kept, ?_⟩
    rw [if_pos rfl]
    refine (ensures_get steady_creating kept sound).mono ?_
    rintro x s₁ ⟨-, kept₁, rfl⟩
    have mem := mem_activate l.root (m.ownershipDigest l.runId l.repositoryId l.root l.baseSha
      metadata) under.mem under.creating
    have found := found_eq_ok.mpr ⟨mem, (under.sound.formed l under.mem).runIdOf_eq⟩
    refine ⟨kept₁, fun _ => ⟨_, found, rfl, rfl, own, rfl⟩, fun e raised => ?_⟩
    rw [found] at raised
    nomatch raised
  · next fails =>
    obtain ⟨rfl, rfl⟩ := Prod.mk.inj answered
    refine ⟨.inl under.sound, ?_⟩
    rw [if_neg nofun]
    have raises : ∀ s', Creating m s' → (Unactivated s.2 → Unactivated s'.2) →
        ∀ x : Except Failure WorktreeLease, Creating m s' ∧
          ((∀ d, D d → d.completes = true) → Created record l.runId l.baseSha x) ∧
            Excused s s' x :=
      fun s' kept silent x =>
        ⟨kept, fun completes => absurd (completes d drawn) fails, fun _ _ => silent⟩
    have raised : Unactivated [⟨.activate l.runId l.root (m.ownershipDigest l.runId
        l.repositoryId l.root l.baseSha metadata), none⟩] :=
      List.forall_mem_singleton.mpr nofun
    refine holds_attempt (ensures_cleanup (.inl under.removed.sound) (.inl under.sound)) ?_
    rintro x s₁ (⟨rfl, rfl⟩ | ⟨⟨e, rfl⟩, rfl⟩)
    · refine ensures_write fun d' _ _ w answered => ?_
      obtain ⟨-, rfl⟩ := Prod.mk.inj answered
      have kept := under.removed.delete not_mem_remove
      refine ⟨.inl kept, raises _ (.inl kept) (fun first => ?_) _⟩
      exact ((first.append raised).silent rfl).silent rfl
    · -- nothing is left to say that the worktree is there
      refine ensures_write fun d' _ _ w answered => ?_
      have stranding : Stranding (s.1, s.2 ++ [⟨.activate l.runId l.root (m.ownershipDigest l.runId
          l.repositoryId l.root l.baseSha metadata), none⟩] ++
          [⟨.worktreeRemove record.path l.root, false⟩]) := by
        constructor
        · rw [activations_append, activations_append]
          exact ⟨(l.runId, none), List.mem_append_left _ (List.mem_append_right _ (.head _)), nofun⟩
        · rw [removals_append]
          exact List.mem_append_right _ (.head _)
      refine ⟨.inr stranding.later, raises _ (.inr stranding.later) (fun first => ?_) _⟩
      exact ((first.append raised).silent rfl).silent rfl

/-- The rest of a creation whose worktree is not as it should be. -/
theorem ensures_abandon (under : Underway m s.1 l) {e : Failure} :
    Ensures m D (Creating m)
      (cleanupFailedWorktree repository l.root >>= fun _ =>
        ask (.deleteCreating l.runId) >>= fun _ => settle (.error e))
      (fun x s' => Creating m s' ∧ Excused s s' x) s := by
  refine holds_bind (ensures_cleanup (.inl under.removed.sound) (.inl under.sound)) ?_ ?_
  · rintro u s₁ (⟨-, rfl⟩ | ⟨⟨e, raised⟩, -⟩)
    · refine ensures_write fun d' _ _ w answered => ?_
      obtain ⟨-, rfl⟩ := Prod.mk.inj answered
      have kept := under.removed.delete not_mem_remove
      exact ⟨.inl kept, .inl kept, fun _ _ first => (first.silent rfl).silent rfl⟩
    · nomatch raised
  · rintro e s₁ (⟨raised, -⟩ | ⟨-, rfl⟩)
    · nomatch raised
    · exact ⟨.inl under.sound, fun _ _ first => first.silent rfl⟩

theorem Draw.Provides.metadata_eq {d : Draw} (provides : d.Provides baseSha) (target : String) :
    ∃ metadata, (⟨target, d.gitFile, d.gitDirectory, d.head⟩ : Worktree).metadata m =
      .ok metadata := by
  obtain ⟨raw, path, file, named⟩ := provides.gitFile
  refine ⟨m.sha256 raw, ?_⟩
  show (present d.gitFile _ >>= _) = _
  rw [file]
  show (gitDirectoryOf raw >>= _) = _
  rw [named]
  show (require (d.gitDirectory = true) _ >>= _) = _
  rw [require_of provides.gitDirectory]
  rfl

theorem ensures_addWorktree (under : Underway m s.1 l) (own : l.repositoryId = record.id.text)
    (free : ∀ t ∈ s.1.worktrees, t.root ≠ l.root) :
    Ensures m D (Creating m) (addWorktree m record l.runId l.root l.baseSha)
      (fun x s' => Creating m s' ∧ ((∀ d, D d → d.Provides l.baseSha) →
        Created record l.runId l.baseSha x) ∧ Excused s s' x) s := by
  refine ensures_write fun d drawn added w answered => ?_
  obtain ⟨rfl, worktrees, there, rfl⟩ | ⟨rfl, rfl, fails⟩ := addAt_eq free answered
  · have under' : Underway m ⟨s.1.leases, worktrees⟩ l :=
      ⟨under.sound.add there under.mem under.creating rfl, under.mem, under.creating⟩
    have kept : Creating m (⟨s.1.leases, worktrees⟩,
        s.2 ++ [⟨.worktreeAdd record.path l.root l.baseSha, true⟩]) := .inl under'.sound
    refine ⟨kept, ?_⟩
    rw [if_pos rfl]
    refine holds_attempt (ensures_checkWorktree steady_creating kept (Table.mem_of_append there)
      rfl) ?_
    rintro x s₁ ⟨reads, kept₁, checked, provided⟩
    have same : s₁.1 = ⟨s.1.leases, worktrees⟩ := reads.1
    rw [← same] at under'
    cases x with
    | ok metadata =>
      have there₁ : ⟨l.root, d.gitFile, d.gitDirectory, d.head⟩ ∈ s₁.1.worktrees := by
        rw [same]
        exact Table.mem_of_append there
      refine (ensures_activateWorktree under' there₁ rfl (checked metadata rfl) own).mono ?_
      rintro x s₂ ⟨kept₂, ends, excused⟩
      refine ⟨kept₂, fun provides => ends fun d drawn => (provides d drawn).completes, ?_⟩
      exact fun e raised first => excused e raised (reads.unactivated (first.silent rfl))
    | error e =>
      refine (ensures_abandon under').mono ?_
      rintro x s₂ ⟨kept₂, excused⟩
      refine ⟨kept₂, fun provides => ?_, fun e raised first =>
        excused e raised (reads.unactivated (first.silent rfl))⟩
      obtain ⟨metadata, read⟩ := (provides d drawn).metadata_eq (m := m) l.root
      have raised := provided (fun d drawn => (provides d drawn).completes) (provides d drawn).head
      rw [read] at raised
      nomatch raised
  · refine ⟨.inl under.sound, ?_⟩
    rw [if_neg Bool.false_ne_true]
    refine ensures_write fun d' _ _ w answered => ?_
    obtain ⟨-, rfl⟩ := Prod.mk.inj answered
    have kept := under.delete free
    refine ⟨.inl kept, .inl kept, fun provides => absurd (provides d drawn).completes fails, ?_⟩
    exact fun _ _ first => (first.silent rfl).silent rfl

/-- What a creation needs to end with a lease. -/
structure Creatable (m : Manager) (w : Workspace) (D : Draw → Prop) (record : RepositoryRecord)
    (runId baseSha : String) : Prop where
  fresh : ∀ l ∈ w.leases, l.runId ≠ runId
  registered : (m.canonicalPath record.id.text).isSome
  provides : ∀ d, D d → d.Provides baseSha

/-- There is no worktree for a run without a lease. -/
theorem Sound.target_free {u : Uuid} {repositoryId : String} (sound : Sound m w)
    (fresh : ∀ l ∈ w.leases, l.runId ≠ u.text) :
    ∀ t ∈ w.worktrees, t.root ≠ m.target repositoryId u.text := by
  intro t mem at_target
  obtain ⟨l, there, root⟩ := sound.owned t mem
  obtain ⟨⟨v, run⟩, own, -, -⟩ := sound.formed l there
  rw [root, at_target, ← run] at own
  exact fresh l there (run.symm.trans (target_inj own).symm)

/-- The lease that `create` inserts. -/
def newLease (m : Manager) (record : RepositoryRecord) (runId baseSha : String)
    (createdAt : Instant) : WorktreeLease where
  runId
  repositoryId := record.id.text
  root := m.target record.id.text runId
  baseSha
  ownershipDigest := m.creatingDigest runId record.id.text (m.target record.id.text runId) baseSha
  status := .creating
  createdAt
  discardedAt := none

theorem newLease_repositoryId {createdAt : Instant} :
    (newLease m record runId baseSha createdAt).repositoryId = record.id.text := rfl

theorem Sound.insertNew {leases : Table WorktreeLease} {u : Uuid} {createdAt : Instant}
    (sound : Sound m w) (sha : validSha baseSha = true)
    (registered : (m.canonicalPath record.id.text).isSome)
    (added : leases.rows = w.leases.rows ++ [newLease m record u.text baseSha createdAt]) :
    Underway m { w with leases } (newLease m record u.text baseSha createdAt) where
  sound :=
    sound.insert added { run := ⟨u, rfl⟩, root := rfl, sha, repository := registered } rfl rfl
  mem := Table.mem_of_append added
  creating := rfl

theorem ensures_create (sound : Sound m s.1) :
    Ensures m D (Creating m) (create m record runId baseSha)
      (fun x s' => Creating m s' ∧ (∀ normalized, runIdOf runId = .ok normalized →
        validSha baseSha = true → Creatable m s.1 D record normalized baseSha →
          Created record normalized baseSha x) ∧ Excused s s' x) s := by
  have kept : Creating m s := .inl sound
  rw [create]
  cases normal : runIdOf runId with
  | error e => exact ⟨kept, nofun, fun _ _ first => first⟩
  | ok normalized =>
  rw [settle_ok_bind]
  obtain sha | unsound := em (validSha baseSha = true)
  swap
  · rw [require_of_not unsound]
    exact ⟨kept, fun _ _ sha => absurd sha unsound, fun _ _ first => first⟩
  rw [require_of sha, settle_ok_bind]
  refine ensures_read steady_creating rfl kept fun d drawn s₁ reads kept₁ => ?_
  show Ensures m D _ (settle (require (d.completes = true) _) >>= _) _ s₁
  obtain completes | fails := em (d.completes = true)
  swap
  · rw [require_of_not fails]
    refine ⟨kept₁, fun _ _ _ creatable => ?_, fun _ _ => reads.unactivated⟩
    exact absurd (creatable.provides d drawn).completes fails
  rw [require_of completes, settle_ok_bind]
  refine ensures_read steady_creating rfl kept₁ fun d₁ _ s₂ reads₂ kept₂ => ?_
  show Ensures m D _ (settle (refuse ((s₁.1.worktrees.get? (m.target record.id.text
    normalized)).isSome = true) _) >>= _) _ s₂
  obtain ⟨u, rfl⟩ := exists_text normal
  cases there : s₁.1.worktrees.get? (m.target record.id.text u.text) with
  | some t =>
    refine ⟨kept₂, fun _ same _ creatable => ?_, fun _ _ => (reads.trans reads₂).unactivated⟩
    obtain rfl := Except.ok.inj same
    obtain ⟨mem, at_target⟩ := Table.get?_eq_some.mp there
    rw [reads.1] at mem
    exact absurd at_target (sound.target_free creatable.fresh t mem)
  | none =>
    refine ensures_read steady_creating rfl kept₂ fun d₂ _ s₃ reads₃ kept₃ => ?_
    have all := (reads.trans reads₂).trans reads₃
    have free : ∀ t ∈ s₃.1.worktrees, t.root ≠ m.target record.id.text u.text := by
      rw [reads₃.1, reads₂.1]
      exact Table.get?_eq_none.mp there
    rw [← all.1] at sound ⊢
    refine ensures_write fun d₃ _ inserted w answered => ?_
    obtain ⟨rfl, ⟨leases, added, rfl⟩, allows⟩ | ⟨rfl, rfl, refused⟩ := insertLease_eq answered
    · have under := sound.insertNew sha allows.1 added
      rw [require_of rfl, settle_ok_bind]
      refine ⟨.inl under.sound, (ensures_addWorktree (s := (_, _)) under
        newLease_repositoryId free).mono ?_⟩
      rintro x s₄ ⟨kept₄, ends, excused⟩
      refine ⟨kept₄, fun _ same _ creatable => ?_, fun e raised first => ?_⟩
      · obtain rfl := Except.ok.inj same
        exact ends creatable.provides
      · exact excused e raised ((all.unactivated first).silent rfl)
    · refine ⟨.inl sound, .inl sound, fun _ same _ creatable => ?_, fun _ _ first =>
        (all.unactivated first).silent rfl⟩
      obtain rfl := Except.ok.inj same
      refine absurd ⟨⟨creatable.registered, fun k mem at_target => ?_⟩, creatable.fresh⟩ refused
      obtain ⟨⟨v, run⟩, own, -, -⟩ := sound.formed k mem
      rw [at_target, ← run] at own
      exact creatable.fresh k mem (run.symm.trans (target_inj own).symm)

/-! ## Recovering -/

/-- Nothing that a recovery needs has failed. -/
def Undisturbed (asked : Asked) : Prop := false ∉ removals asked ∧ false ∉ lookups asked

theorem Undisturbed.of_prefix {a b : Asked} (undisturbed : Undisturbed b) (earlier : a <+: b) :
    Undisturbed a := by
  obtain ⟨t, rfl⟩ := earlier
  constructor
  · intro mem
    refine undisturbed.1 ?_
    rw [removals_append]
    exact List.mem_append_left _ mem
  · intro mem
    refine undisturbed.2 ?_
    rw [lookups, List.filterMap_append]
    exact List.mem_append_left _ mem

theorem Reads.earlier (reads : Reads s s') : s.2 <+: s'.2 := by
  obtain ⟨-, t, asked, -⟩ := reads
  exact ⟨t, asked.symm⟩

def Recovering (m : Manager) (s : Recorded) : Prop := Sound m s.1

theorem steady_recovering : Steady (Recovering m) := by
  intro s s' sound reads
  rw [Recovering, reads.1]
  exact sound

/-- A lease that a creation has left, of which nothing but its deletion is to be expected. -/
structure Left (m : Manager) (w : Workspace) (l : WorktreeLease) : Prop where
  formed : l.Formed m
  creating : l.status = .creating
  digest : l.ownershipDigest = m.creatingDigest l.runId l.repositoryId l.root l.baseSha
  only : ∀ k ∈ w.leases, k.runId = l.runId → k = l

/-- What a part of a recovery may do. -/
structure Shrinks (m : Manager) (s s' : Recorded) : Prop where
  sound : Sound m s'.1
  leases : ∀ k ∈ s'.1.leases, k ∈ s.1.leases
  earlier : s.2 <+: s'.2

theorem Shrinks.trans {s'' : Recorded} (first : Shrinks m s s') (second : Shrinks m s' s'') :
    Shrinks m s s'' where
  sound := second.sound
  leases k mem := first.leases k (second.leases k mem)
  earlier := first.earlier.trans second.earlier

theorem Reads.shrinks (reads : Reads s s') (sound : Sound m s.1) : Shrinks m s s' where
  sound := by
    rw [reads.1]
    exact sound
  leases k mem := by
    rw [← reads.1]
    exact mem
  earlier := reads.earlier

theorem Left.shrinks (left : Left m s.1 l) (shrinks : Shrinks m s s') : Left m s'.1 l where
  formed := left.formed
  creating := left.creating
  digest := left.digest
  only k mem := left.only k (shrinks.leases k mem)

/-- The lease of a worktree that stands at the root of one that has been left is that one. -/
theorem Left.mem (left : Left m w l) (sound : Sound m w) (mem : t ∈ w.worktrees)
    (at_root : t.root = l.root) : l ∈ w.leases := by
  obtain ⟨k, there, root⟩ := sound.owned t mem
  have same := (sound.formed k there).eq_runId left.formed (root.trans at_root)
  rw [← left.only k there same]
  exact there

theorem ensures_removeInterrupted (left : Left m s.1 l) (sound : Sound m s.1) :
    Ensures m D (Recovering m) (removeInterrupted repository l.root)
      (fun x s' => Shrinks m s s' ∧ ∃ gone, x = .ok gone ∧
        (gone = true → ∀ t ∈ s'.1.worktrees, t.root ≠ l.root) ∧
        (Undisturbed s'.2 → gone = true)) s := by
  refine ensures_read steady_recovering rfl sound fun d _ s₁ reads kept₁ => ?_
  have shrinks := reads.shrinks sound
  have left₁ := left.shrinks shrinks
  show Ensures m D _ (if (s.1.worktrees.get? l.root).isSome then _ else _) _ s₁
  rw [← reads.1]
  cases there : s₁.1.worktrees.get? l.root with
  | none =>
    rw [Option.isSome_none, if_neg Bool.false_ne_true]
    refine ensures_read steady_recovering rfl kept₁ fun d₁ _ s₂ reads₂ _ => ?_
    refine ⟨shrinks.trans (reads₂.shrinks shrinks.sound), true, rfl, fun _ => ?_, fun _ => rfl⟩
    rw [reads₂.1]
    exact Table.get?_eq_none.mp there
  | some t =>
    obtain ⟨mem, at_root⟩ := Table.get?_eq_some.mp there
    rw [Option.isSome_some, if_pos rfl]
    refine ensures_write fun d₁ _ removed w answered => ?_
    obtain ⟨rfl, rfl⟩ | ⟨rfl, rfl, -⟩ := removeAt_eq answered
    · have own := left₁.mem shrinks.sound mem at_root
      have sound₂ := shrinks.sound.removeInterrupted own left.creating
      have removed : Shrinks m s (⟨s₁.1.leases, s₁.1.worktrees.remove (·.root = l.root)⟩,
          s₁.2 ++ [⟨.worktreeRemove repository l.root, true⟩]) :=
        ⟨sound₂, shrinks.leases, shrinks.earlier.trans (List.prefix_append _ _)⟩
      refine ⟨sound₂, ?_⟩
      rw [if_pos rfl]
      refine ensures_read steady_recovering rfl removed.sound fun d₂ _ s₃ reads₃ _ => ?_
      have gone : (answer m d₂ (.isThere l.root)
          ⟨s₁.1.leases, s₁.1.worktrees.remove (·.root = l.root)⟩).1 = false := by
        show (Option.isSome _) = false
        rw [Table.get?_eq_none.mpr not_mem_remove]
        rfl
      rw [gone]
      refine ⟨removed.trans (reads₃.shrinks sound₂), true, rfl, fun _ => ?_, fun _ => rfl⟩
      rw [reads₃.1]
      exact not_mem_remove
    · refine ⟨shrinks.sound, ?_⟩
      rw [if_neg Bool.false_ne_true]
      refine ⟨⟨shrinks.sound, shrinks.leases, shrinks.earlier.trans (List.prefix_append _ _)⟩,
        false, rfl, nofun, fun undisturbed => absurd ?_ undisturbed.1⟩
      rw [removals_append]
      exact List.mem_append_right _ (.head _)

/-- A lease is settled when it is not there any more, or not as one that is being created. -/
def Settled (w : Workspace) (runId : String) : Prop :=
  ∀ k ∈ w.leases, k.runId = runId → k.status ≠ .creating

theorem ensures_recoverRow (left : Left m s.1 l) (sound : Sound m s.1) :
    Ensures m D (Recovering m) (recoverRow m l repository)
      (fun _ s' => Shrinks m s s' ∧ (Undisturbed s'.2 → Settled s'.1 l.runId)) s := by
  have authentic : m.Authentic l l.runId := by
    refine ⟨left.formed.root, left.formed.sha, ?_⟩
    rw [← left.formed.root]
    exact left.digest
  rw [recoverRow, left.formed.runIdOf_eq, settle_ok_bind, if_pos authentic]
  refine ensures_write fun d _ found w answered => ⟨?_, ?_⟩
  · obtain ⟨-, rfl⟩ := Prod.mk.inj answered
    exact sound
  obtain ⟨-, rfl⟩ := Prod.mk.inj answered
  have shrinks : Shrinks m s (s.1, s.2 ++ [⟨.isRepository repository, found⟩]) :=
    ⟨sound, fun _ mem => mem, List.prefix_append _ _⟩
  cases found with
  | true =>
    rw [if_pos rfl]
    refine holds_bind (ensures_removeInterrupted (left.shrinks shrinks) shrinks.sound) ?_ ?_
    · rintro gone s₂ ⟨shrinks₂, gone', same, absent, finds⟩
      obtain rfl := Except.ok.inj same
      have shrinks₂ := shrinks.trans shrinks₂
      cases gone with
      | true =>
        rw [if_pos rfl]
        refine ensures_write fun d₁ _ _ w answered => ?_
        obtain ⟨-, rfl⟩ := Prod.mk.inj answered
        have sound₃ : Sound m (deleteCreating l.runId s₂.1) := by
          refine shrinks₂.sound.delete fun k mem run _ => ?_
          rw [(left.shrinks shrinks₂).only k mem run]
          exact absent rfl
        refine ⟨sound₃, ⟨sound₃, fun k mem => ?_, ?_⟩, fun _ k mem run creating => ?_⟩
        · exact shrinks₂.leases k (Table.mem_remove.mp mem).1
        · exact shrinks₂.earlier.trans (List.prefix_append _ _)
        · exact decide_eq_false_iff_not.mp (Table.mem_remove.mp mem).2 ⟨run, creating⟩
      | false =>
        rw [if_neg Bool.false_ne_true]
        exact ⟨shrinks₂, fun undisturbed => absurd (finds undisturbed) Bool.false_ne_true⟩
    · rintro e s₂ ⟨-, gone, same, -⟩
      nomatch same
  | false =>
    rw [if_neg Bool.false_ne_true]
    refine ⟨shrinks, fun undisturbed => absurd ?_ undisturbed.2⟩
    rw [lookups, List.filterMap_append]
    exact List.mem_append_right _ (.head _)

theorem ensures_recoverLease (left : Left m s.1 l) (sound : Sound m s.1) :
    Ensures m D (Recovering m) (recoverLease m (l, repository))
      (fun x s' => (∃ runId, x = .ok runId) ∧ Shrinks m s s' ∧
        (Undisturbed s'.2 → Settled s'.1 l.runId)) s := by
  refine holds_attempt (ensures_recoverRow left sound) ?_
  rintro x s₁ settled
  cases x with
  | ok runId => exact ⟨⟨_, rfl⟩, settled⟩
  | error e => exact ⟨⟨_, rfl⟩, settled⟩

theorem Settled.shrinks (settled : Settled s.1 runId) (shrinks : Shrinks m s s') :
    Settled s'.1 runId :=
  fun k mem => settled k (shrinks.leases k mem)

/-- By induction on the rows, each of which is settled and stays so. -/
theorem ensures_recoverLeases {rows : List (WorktreeLease × String)}
    (left : ∀ row ∈ rows, Left m s.1 row.1) (sound : Sound m s.1) :
    Ensures m D (Recovering m) (recoverLeases m rows)
      (fun x s' => (∃ runIds, x = .ok runIds) ∧ Shrinks m s s' ∧
        (Undisturbed s'.2 → ∀ row ∈ rows, Settled s'.1 row.1.runId)) s := by
  induction rows generalizing s with
  | nil =>
    exact ⟨⟨_, rfl⟩, (Reads.refl s).shrinks sound, fun _ _ mem => absurd mem List.not_mem_nil⟩
  | cons row rows ih =>
    obtain ⟨first, rest⟩ := List.forall_mem_cons.mp left
    refine holds_bind (ensures_recoverLease first sound) ?_ ?_
    · rintro runId s₁ ⟨-, shrinks, settled⟩
      have rest₁ : ∀ row ∈ rows, Left m s₁.1 row.1 := fun row mem => (rest row mem).shrinks shrinks
      refine holds_bind (ih rest₁ shrinks.sound) ?_ ?_
      · rintro runIds s₂ ⟨-, shrinks₂, settled₂⟩
        refine ⟨⟨_, rfl⟩, shrinks.trans shrinks₂, fun undisturbed => ?_⟩
        refine List.forall_mem_cons.mpr ⟨?_, settled₂ undisturbed⟩
        exact (settled (undisturbed.of_prefix shrinks₂.earlier)).shrinks shrinks₂
      · rintro e s₂ ⟨⟨runIds, same⟩, -⟩
        nomatch same
    · rintro e s₁ ⟨⟨runId, same⟩, -⟩
      nomatch same

/-- The rows that a recovery starts from are the leases that are being created. -/
theorem mem_creating {row : WorktreeLease × String} (mem : row ∈ w.creating m) :
    row.1 ∈ w.leases ∧ row.1.status = .creating := by
  obtain ⟨l, there, joined⟩ := List.mem_filterMap.mp mem
  obtain ⟨path, -, rfl⟩ := Option.map_eq_some_iff.mp joined
  obtain ⟨own, creating⟩ := List.mem_filter.mp (List.mem_mergeSort.mp there)
  exact ⟨own, of_decide_eq_true creating⟩

theorem exists_creating (sound : Sound m w) (mem : l ∈ w.leases) (creating : l.status = .creating) :
    ∃ path, (l, path) ∈ w.creating m := by
  obtain ⟨path, registered⟩ := Option.isSome_iff_exists.mp (sound.formed l mem).repository
  refine ⟨path, List.mem_filterMap.mpr ⟨l, ?_, by rw [registered]; rfl⟩⟩
  exact List.mem_mergeSort.mpr (List.mem_filter.mpr ⟨mem, decide_eq_true creating⟩)

theorem ensures_recoverInterrupted (sound : Sound m s.1) :
    Ensures m D (Recovering m) (recoverInterrupted m)
      (fun _ s' => Sound m s'.1 ∧
        (Undisturbed s'.2 → ∀ l ∈ s'.1.leases, l.status ≠ .creating)) s := by
  refine ensures_read steady_recovering rfl sound fun d _ s₁ reads _ => ?_
  have shrinks := reads.shrinks sound
  show Ensures m D _ (recoverLeases m (s.1.creating m)) _ s₁
  rw [← reads.1] at sound ⊢
  have left : ∀ row ∈ s₁.1.creating m, Left m s₁.1 row.1 := by
    intro row mem
    obtain ⟨own, creating⟩ := mem_creating mem
    refine ⟨sound.formed _ own, creating, ?_, fun k there => Table.eq_of_key there own⟩
    exact (backed_creating creating).mp (sound.backed _ own)
  refine (ensures_recoverLeases left sound).mono ?_
  rintro x s₂ ⟨-, shrinks₂, settled⟩
  refine ⟨shrinks₂.sound, fun undisturbed l mem creating => ?_⟩
  obtain ⟨path, there⟩ := exists_creating sound (shrinks₂.leases l mem) creating
  exact settled undisturbed _ there l mem rfl creating

end Corvus.Worktrees
