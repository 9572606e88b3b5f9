import Corvus.Worktrees.Leases

/-!
# The calls of the manager

What each procedure of the manager ensures in a sound workspace, and what holds wherever it is
stopped. A condition on the workspace and on what has been asked survives the questions that
only read, so that only those that write are looked at one by one.
-/

namespace Corvus.Worktrees

open Dialogue Procedure

/-- A workspace with what has been asked so far. -/
abbrev Recorded := Workspace × Asked

/-- Questions that leave the workspace as it is. -/
def Port.reading : Port → Bool
  | .insertLease .. | .activate .. | .discardLease .. | .deleteCreating _ | .worktreeAdd .. => false
  | .worktreeRemove .. => false
  | _ => true

/-- What a procedure ensures from a state on, within a condition at each of its questions. -/
abbrev Ensures (m : Manager) (D : Draw → Prop) (C : Recorded → Prop) {α : Type} (p : Program α)
    (P : Except Failure α → Recorded → Prop) (s : Recorded) : Prop :=
  Holds (recorded (answer m)) (Alone D C) p.run P s

variable {m : Manager} {D : Draw → Prop} {C : Recorded → Prop} {s s' s'' : Recorded} {α β : Type}
  {q : Port} {w : Workspace} {l current : WorktreeLease} {root runId : String}

/-! ## Reading -/

theorem answer_reading {d : Draw} (reading : q.reading = true) : (answer m d q w).2 = w := by
  cases q with
  | insertLease | activate | discardLease | deleteCreating | worktreeAdd | worktreeRemove =>
    nomatch reading
  | _ => rfl

/-- Nothing but questions that read lies between two states. -/
def Reads (s s' : Recorded) : Prop :=
  s'.1 = s.1 ∧ ∃ t, s'.2 = s.2 ++ t ∧ ∀ x ∈ t, x.question.reading = true

theorem Reads.refl (s : Recorded) : Reads s s :=
  ⟨rfl, [], (List.append_nil _).symm, fun _ mem => absurd mem List.not_mem_nil⟩

theorem Reads.trans (first : Reads s s') (second : Reads s' s'') : Reads s s'' := by
  obtain ⟨same, t, asked, reading⟩ := first
  obtain ⟨same', t', asked', reading'⟩ := second
  refine ⟨same'.trans same, t ++ t', by rw [asked', asked, List.append_assoc], fun x mem => ?_⟩
  exact (List.mem_append.mp mem).elim (reading x) (reading' x)

theorem filterMap_reading {δ : Type} {f : Exchange Port Port.Answer → Option δ} {t : Asked}
    (reading : ∀ x ∈ t, x.question.reading = true)
    (silent : ∀ x, x.question.reading = true → f x = none) : t.filterMap f = [] :=
  List.filterMap_eq_nil_iff.mpr fun x mem => silent x (reading x mem)

theorem Reads.removals_eq (reads : Reads s s') : removals s'.2 = removals s.2 := by
  obtain ⟨-, t, asked, reading⟩ := reads
  rw [removals, removals, asked, List.filterMap_append, filterMap_reading reading, List.append_nil]
  rintro ⟨q, r⟩ reading
  cases q with
  | worktreeRemove => nomatch reading
  | _ => rfl

theorem Reads.activations_eq (reads : Reads s s') : activations s'.2 = activations s.2 := by
  obtain ⟨-, t, asked, reading⟩ := reads
  rw [activations, activations, asked, List.filterMap_append, filterMap_reading reading,
    List.append_nil]
  rintro ⟨q, r⟩ reading
  cases q with
  | activate => nomatch reading
  | _ => rfl

theorem Reads.marks_eq (reads : Reads s s') : marks s'.2 = marks s.2 := by
  obtain ⟨-, t, asked, reading⟩ := reads
  rw [marks, marks, asked, List.filterMap_append, filterMap_reading reading, List.append_nil]
  rintro ⟨q, r⟩ reading
  cases q with
  | discardLease => nomatch reading
  | _ => rfl

/-- A condition that reading leaves alone. -/
def Steady (C : Recorded → Prop) : Prop := ∀ s s', C s → Reads s s' → C s'

variable {p : Program α} {g : q.Answer → Program β} {P : Except Failure α → Recorded → Prop}
  {F : Except Failure β → Recorded → Prop}

theorem ensures_read (steady : Steady C) (reading : q.reading = true) (start : C s)
    (rest : ∀ d, D d → ∀ s', Reads s s' → C s' →
      Ensures m D C (g (answer m d q s.1).1) F s') :
    Ensures m D C (ask q >>= g) F s := by
  refine alone_ask fun d drawn => ?_
  have reads : Reads s (recorded (answer m) d q s).2 :=
    ⟨answer_reading reading, [⟨q, _⟩], rfl, List.forall_mem_singleton.mpr reading⟩
  have kept := steady _ _ start reads
  exact ⟨kept, rest d drawn _ reads kept⟩

theorem ensures_write (each : ∀ d, D d → ∀ r w, answer m d q s.1 = (r, w) →
    C (w, s.2 ++ [⟨q, r⟩]) ∧ Ensures m D C (g r) F (w, s.2 ++ [⟨q, r⟩])) :
    Ensures m D C (ask q >>= g) F s :=
  alone_ask fun d drawn => each d drawn _ _ rfl

/-- The metadata of the worktree at a path. -/
def metadataAt (m : Manager) (w : Workspace) (root : String) : Except Failure String := do
  let t ← present (w.worktrees.get? root) (.ownership "worktree_git_metadata_invalid")
  t.metadata m

theorem ensures_gitMetadataDigest (steady : Steady C) (start : C s) :
    Ensures m D C (gitMetadataDigest m root)
      (fun x s' => Reads s s' ∧ C s' ∧ x = metadataAt m s.1 root) s := by
  refine ensures_read steady rfl start fun d _ s₁ reads kept => ?_
  show Ensures m D C (settle (present ((s.1.worktrees.get? root).bind Worktree.gitFile) _) >>= _)
    _ s₁
  cases there : s.1.worktrees.get? root with
  | none => exact ⟨reads, kept, by rw [metadataAt, there]; rfl⟩
  | some t =>
    rw [Option.bind_some]
    have read : metadataAt m s.1 root = t.metadata m := by rw [metadataAt, there]; rfl
    cases file : t.gitFile with
    | none => exact ⟨reads, kept, by rw [read, Worktree.metadata, file]; rfl⟩
    | some raw =>
      show Ensures m D C (settle (gitDirectoryOf raw) >>= _) _ s₁
      cases named : gitDirectoryOf raw with
      | error e =>
        refine ⟨reads, kept, ?_⟩
        rw [read, Worktree.metadata, file]
        show _ = (gitDirectoryOf raw >>= _)
        rw [named]
        rfl
      | ok gitDirectory =>
        rw [settle_ok_bind]
        refine ensures_read steady rfl kept fun d _ s₂ reads' kept' => ?_
        have there' : (answer m d (.isGitDirectory root gitDirectory) s₁.1).1 = t.gitDirectory := by
          show (s₁.1.worktrees.get? root).any Worktree.gitDirectory = _
          rw [reads.1, there]
          rfl
        rw [there']
        have same : t.metadata m =
            (require t.gitDirectory (.ownership "worktree_git_metadata_invalid") >>=
              fun _ => .ok (m.sha256 raw)) := by
          rw [Worktree.metadata, file]
          show (gitDirectoryOf raw >>= _) = _
          rw [named]
          rfl
        rw [read, same]
        cases t.gitDirectory with
        | true => exact ⟨reads.trans reads', kept', rfl⟩
        | false => exact ⟨reads.trans reads', kept', rfl⟩

/-- What `_validate_active_lease` returns. -/
def validated (m : Manager) (w : Workspace) (l : WorktreeLease) : Except Failure String := do
  let metadata ← metadataAt m w l.root
  require (l.root = m.target l.repositoryId l.runId ∧ l.ownershipDigest =
    m.ownershipDigest l.runId l.repositoryId (m.target l.repositoryId l.runId) l.baseSha metadata)
    (.ownership "worktree_ownership_invalid")
  require (w.worktrees.get? l.root).isSome (.ownership "worktree_ownership_invalid")
  return l.root

theorem validated_eq_ok (valid : validated m w l = .ok root) : root = l.root := by
  obtain ⟨_, _, rest⟩ := bind_eq_ok.mp valid
  obtain ⟨_, _, rest⟩ := bind_eq_ok.mp rest
  obtain ⟨_, _, same⟩ := bind_eq_ok.mp rest
  exact (Except.ok.inj same).symm

/-- An active lease of a sound workspace is valid. -/
theorem Sound.validated_eq (sound : Sound m w) (mem : l ∈ w.leases) (active : l.status = .active) :
    validated m w l = .ok l.root := by
  obtain ⟨t, there, at_root, metadata, read, digest⟩ :=
    (backed_active active).mp (sound.backed l mem)
  have here : w.worktrees.get? l.root = some t := Table.get?_eq_some.mpr ⟨there, at_root⟩
  have read' : metadataAt m w l.root = .ok metadata := by
    rw [metadataAt, here]
    exact read
  have valid : l.root = m.target l.repositoryId l.runId ∧ l.ownershipDigest =
      m.ownershipDigest l.runId l.repositoryId (m.target l.repositoryId l.runId) l.baseSha
        metadata := by
    refine ⟨(sound.formed l mem).root, ?_⟩
    rw [← (sound.formed l mem).root]
    exact digest
  rw [validated, read', ok_bind, require_of valid, here]
  rfl

theorem ensures_validateActiveLease (steady : Steady C) (start : C s) :
    Ensures m D C (validateActiveLease m l)
      (fun x s' => Reads s s' ∧ C s' ∧ x = validated m s.1 l) s := by
  refine holds_bind (ensures_gitMetadataDigest steady start) ?_ ?_
  · rintro metadata s₁ ⟨reads, kept, read⟩
    rw [validated, ← read, ok_bind]
    dsimp only
    by_cases valid : l.root = m.target l.repositoryId l.runId ∧ l.ownershipDigest =
        m.ownershipDigest l.runId l.repositoryId (m.target l.repositoryId l.runId) l.baseSha
          metadata
    · rw [require_of valid, settle_ok_bind, ok_bind]
      refine ensures_read steady rfl kept fun d _ s₂ reads' kept' => ?_
      have seen : (answer m d (.isThere l.root) s₁.1).1 = (s.1.worktrees.get? l.root).isSome := by
        rw [← reads.1]
        rfl
      rw [seen]
      cases (s.1.worktrees.get? l.root).isSome with
      | true => exact ⟨reads.trans reads', kept', rfl⟩
      | false => exact ⟨reads.trans reads', kept', rfl⟩
    · rw [require_of_not valid]
      exact ⟨reads, kept, rfl⟩
  · rintro e s₁ ⟨reads, kept, read⟩
    refine ⟨reads, kept, ?_⟩
    rw [validated, ← read]
    rfl

/-- What `get` returns from a sound workspace. -/
def found (w : Workspace) (runId : String) : Except Failure WorktreeLease := do
  let normalized ← runIdOf runId
  present (w.leases.get? normalized) (.notFound "worktree_lease_not_found")

theorem ensures_get (steady : Steady C) (start : C s) (sound : Sound m s.1) :
    Ensures m D C (get m runId) (fun x s' => Reads s s' ∧ C s' ∧ x = found s.1 runId) s := by
  rw [get]
  cases normal : runIdOf runId with
  | error e => exact ⟨.refl s, start, by rw [found, normal]; rfl⟩
  | ok normalized =>
    rw [settle_ok_bind]
    refine ensures_read steady rfl start fun d _ s₁ reads kept => ?_
    show Ensures m D C (settle (present (s.1.leases.get? normalized) _) >>= _) _ s₁
    have same : found s.1 runId = present (s.1.leases.get? normalized)
        (.notFound "worktree_lease_not_found") := by
      rw [found, normal, ok_bind]
    cases there : s.1.leases.get? normalized with
    | none => exact ⟨reads, kept, by rw [same, there]; rfl⟩
    | some l =>
      rw [there] at same
      show Ensures m D C (if l.status = .active then _ else _) _ s₁
      split
      · next active =>
        have mem : l ∈ s₁.1.leases := by
          rw [reads.1]
          exact (Table.get?_eq_some.mp there).1
        have sound₁ : Sound m s₁.1 := by
          rw [reads.1]
          exact sound
        refine holds_bind (ensures_validateActiveLease steady kept) ?_ ?_
        · rintro root s₂ ⟨reads', kept', -⟩
          exact ⟨reads.trans reads', kept', same.symm⟩
        · rintro e s₂ ⟨-, -, raised⟩
          rw [sound₁.validated_eq mem active] at raised
          nomatch raised
      · exact ⟨reads, kept, same.symm⟩

/-! ## What the leases say of themselves -/

theorem lower_text (u : Uuid) : Text.lower u.text.toList = u.text.toList := by
  have fixed : ∀ n < 16, Text.lowerChar (Json.hexDigit n) = [Json.hexDigit n] := by decide
  have each : ∀ cs : List Char, (∀ c ∈ cs, Text.lowerChar c = [c]) → Text.lower cs = cs := by
    intro cs
    induction cs with
    | nil => exact fun _ => rfl
    | cons c cs ih =>
      intro all
      obtain ⟨first, rest⟩ := List.forall_mem_cons.mp all
      rw [Text.lower, List.flatMap_cons, first]
      exact congrArg (c :: ·) (ih rest)
  refine each _ fun c mem => ?_
  obtain rfl | ⟨n, small, rfl⟩ := Uuid.mem_text mem
  · decide
  · exact fixed n small

theorem runIdOf_text (u : Uuid) : runIdOf u.text = .ok u.text := by
  have read : Uuid.ofText? (String.ofList (Text.lower u.text.toList)) = some u := by
    rw [Uuid.ofText?_eq_some, lower_text, String.ofList_toList]
  rw [runIdOf, read]
  rfl

theorem WorktreeLease.Formed.runIdOf_eq (formed : l.Formed m) : runIdOf l.runId = .ok l.runId := by
  obtain ⟨u, run⟩ := formed.run
  rw [← run]
  exact runIdOf_text u

theorem exists_text {value : String} (read : runIdOf value = .ok runId) :
    ∃ u : Uuid, u.text = runId := by
  obtain ⟨u, -, same⟩ := bind_eq_ok.mp read
  exact ⟨u, Except.ok.inj same⟩

theorem found_eq_ok : found w runId = .ok l ↔ l ∈ w.leases ∧ runIdOf runId = .ok l.runId := by
  rw [found, bind_eq_ok]
  constructor
  · rintro ⟨normalized, normal, there⟩
    obtain ⟨mem, rfl⟩ := Table.get?_eq_some.mp (present_eq_ok.mp there)
    exact ⟨mem, normal⟩
  · rintro ⟨mem, normal⟩
    exact ⟨_, normal, present_eq_ok.mpr (Table.get?_eq_some.mpr ⟨mem, rfl⟩)⟩

/-! ## Discarding -/

theorem removals_append (a b : Asked) : removals (a ++ b) = removals a ++ removals b :=
  List.filterMap_append

theorem marks_append (a b : Asked) : marks (a ++ b) = marks a ++ marks b :=
  List.filterMap_append

theorem activations_append (a b : Asked) : activations (a ++ b) = activations a ++ activations b :=
  List.filterMap_append

theorem removeAt_eq {target : String} {d : Draw} {removed : Bool} {w' : Workspace}
    (answered : removeAt target d w = (removed, w')) :
    removed = true ∧ w' = { w with worktrees := w.worktrees.remove (·.root = target) } ∨
      removed = false ∧ w' = w ∧
        (d.completes = true → ∀ t ∈ w.worktrees, t.root ≠ target) := by
  rw [removeAt] at answered
  split at answered
  · obtain ⟨rfl, rfl⟩ := Prod.mk.inj answered
    exact .inl ⟨rfl, rfl⟩
  · next failed =>
    obtain ⟨rfl, rfl⟩ := Prod.mk.inj answered
    refine .inr ⟨rfl, rfl, fun completes t mem at_target => failed ⟨completes, ?_⟩⟩
    rw [Table.get?_eq_some.mpr ⟨mem, at_target⟩]
    rfl

/-- A discard that has removed a worktree and has not marked its lease yet. -/
def Removing (s : Recorded) : Prop := true ∈ removals s.2 ∧ marks s.2 = []

def Discarding (m : Manager) (s : Recorded) : Prop := Sound m s.1 ∨ Removing s

theorem steady_discarding : Steady (Discarding m) := by
  rintro s s' (sound | ⟨removed, unmarked⟩) reads
  · left
    rw [reads.1]
    exact sound
  · right
    exact ⟨by rw [reads.removals_eq]; exact removed, by rw [reads.marks_eq]; exact unmarked⟩

/-- What git has left is looked for in vain. -/
theorem ensures_confirmRemoved (steady : Steady C) (start : C s)
    (gone : ∀ t ∈ s.1.worktrees, t.root ≠ root) :
    Ensures m D C (confirmRemoved root) (fun x s' => Reads s s' ∧ C s' ∧ x = .ok ()) s := by
  refine ensures_read steady rfl start fun d _ s₁ reads kept => ?_
  have absent : (answer m d (.isThere root) s.1).1 = false := by
    show (s.1.worktrees.get? root).isSome = false
    rw [Table.get?_eq_none.mpr gone]
    rfl
  rw [absent]
  exact ⟨reads, kept, rfl⟩

/-- What becomes of the lease of a run that is discarded. -/
theorem mem_discardLease {discardedAt : Instant} (mem : l ∈ w.leases)
    (active : l.status = .active) :
    { l with status := .discarded, discardedAt := some discardedAt } ∈
      (discardLease l.runId discardedAt w).leases := by
  refine Table.mem_update.mpr ⟨l, mem, ?_⟩
  rw [if_pos (decide_eq_true ⟨rfl, active⟩)]
  rfl

/-- A lease that is not active is not marked. -/
theorem discardLease_eq {discardedAt : Instant} (mem : l ∈ w.leases) (other : l.status ≠ .active) :
    discardLease l.runId discardedAt w = w := by
  rw [discardLease, Table.update_of_none]
  intro k there
  refine decide_eq_false fun picked => ?_
  obtain rfl := Table.eq_of_key there mem picked.1
  exact other picked.2

/-- A worktree is removed, and the lease is marked if it was active. -/
theorem Sound.removed {discardedAt : Instant} (sound : Sound m w) (mem : l ∈ w.leases)
    (left : l.status ≠ .discarded) :
    Sound m (discardLease l.runId discardedAt
      { w with worktrees := w.worktrees.remove (·.root = l.root) }) := by
  cases status : l.status with
  | active => exact sound.discard mem status
  | creating =>
    have other : l.status ≠ .active := by
      rw [status]
      nofun
    rw [discardLease_eq (w := { w with worktrees := w.worktrees.remove (·.root = l.root) }) mem
      other]
    exact sound.removeInterrupted mem status
  | discarded => exact absurd status left

theorem ensures_removeWorktree (sound : Sound m s.1) (unmarked : marks s.2 = [])
    (mem : l ∈ s.1.leases) (left : l.status ≠ .discarded) :
    Ensures m D (Discarding m) (removeWorktree m l l.root)
      (fun x s' => Sound m s'.1 ∧ (l.status = .active → (∀ d, D d → d.completes = true) →
        ∃ discardedAt,
          x = .ok { l with status := .discarded, discardedAt := some discardedAt })) s := by
  refine ensures_read steady_discarding rfl (.inl sound) fun d _ s₁ reads kept => ?_
  obtain ⟨path, registered⟩ := Option.isSome_iff_exists.mp (sound.formed l mem).repository
  show Ensures m D _ (settle (present (m.canonicalPath l.repositoryId) _) >>= _) _ s₁
  rw [registered]
  rw [← reads.1] at sound mem
  rw [← reads.marks_eq] at unmarked
  refine ensures_write fun d drawn removed w answered => ?_
  obtain ⟨rfl, rfl⟩ | ⟨rfl, rfl, failed⟩ := removeAt_eq answered
  · -- an active lease has no worktree until it is marked
    have gone : ∀ t ∈ s₁.1.worktrees.remove (·.root = l.root), t.root ≠ l.root :=
      fun t mem => decide_eq_false_iff_not.mp (Table.mem_remove.mp mem).2
    have removing : Discarding m (⟨s₁.1.leases, s₁.1.worktrees.remove (·.root = l.root)⟩,
        s₁.2 ++ [⟨.worktreeRemove path l.root, true⟩]) := by
      right
      constructor
      · rw [removals_append]
        exact List.mem_append_right _ (.head _)
      · rw [marks_append, unmarked]
        rfl
    refine ⟨removing, ?_⟩
    rw [require_of rfl, settle_ok_bind]
    refine holds_bind (ensures_confirmRemoved steady_discarding removing gone) ?_ ?_
    · rintro - s₂ ⟨reads₂, kept₂, -⟩
      refine ensures_read steady_discarding rfl kept₂ fun d _ s₃ reads₃ _ => ?_
      have same : s₃.1 = ⟨s₁.1.leases, s₁.1.worktrees.remove (·.root = l.root)⟩ :=
        reads₃.1.trans reads₂.1
      refine ensures_write fun d' _ _ w answered => ?_
      obtain ⟨-, rfl⟩ := Prod.mk.inj answered
      have sound' : Sound m (discardLease l.runId d.now s₃.1) := by
        rw [same]
        exact sound.removed mem left
      have mem' : l ∈ s₃.1.leases := by
        rw [same]
        exact mem
      have marked : Discarding m (discardLease l.runId d.now s₃.1,
          s₃.2 ++ [⟨.discardLease l.runId d.now, ()⟩]) := .inl sound'
      refine ⟨marked, (ensures_get steady_discarding marked sound').mono ?_⟩
      rintro x s₄ ⟨reads₄, -, rfl⟩
      constructor
      · rw [reads₄.1]
        exact sound'
      · intro active _
        refine ⟨d.now, found_eq_ok.mpr ⟨mem_discardLease mem' active, ?_⟩⟩
        exact (sound.formed l mem).runIdOf_eq
    · rintro e s₂ ⟨-, -, raised⟩
      nomatch raised
  · refine ⟨.inl sound, sound, fun active completes => ?_⟩
    obtain ⟨t, there, at_root, -⟩ := (backed_active active).mp (sound.backed l mem)
    exact absurd at_root (failed (completes d drawn) t there)

theorem ensures_discard {lease : WorktreeLease} {runTerminal : Bool} (sound : Sound m s.1)
    (unmarked : marks s.2 = []) :
    Ensures m D (Discarding m) (discard m lease runTerminal)
      (fun x s' => Sound m s'.1 ∧ (lease ∈ s.1.leases → lease.status = .active →
        runTerminal = true → (∀ d, D d → d.completes = true) → ∃ discardedAt,
          x = .ok { lease with status := .discarded, discardedAt := some discardedAt })) s := by
  refine holds_bind (ensures_get steady_discarding (.inl sound) sound) ?_ ?_
  · rintro current s₁ ⟨reads, kept, there⟩
    obtain ⟨mem, normal⟩ := found_eq_ok.mp there.symm
    have own : lease ∈ s.1.leases → lease = current := by
      intro own
      have same : lease.runId = current.runId :=
        Except.ok.inj ((sound.formed lease own).runIdOf_eq.symm.trans normal)
      exact Table.eq_of_key own mem same
    rw [← reads.1] at sound mem
    rw [← reads.marks_eq] at unmarked
    by_cases agrees : lease.Agrees current
    · rw [require_of agrees, settle_ok_bind]
      split
      · next discarded =>
        refine ⟨sound, fun there active => ?_⟩
        rw [own there, discarded] at active
        nomatch active
      · next left =>
        by_cases terminal : runTerminal = true
        · rw [require_of terminal, settle_ok_bind]
          refine holds_bind (ensures_validateActiveLease steady_discarding kept) ?_ ?_
          · rintro root s₂ ⟨reads₂, -, valid⟩
            obtain rfl := validated_eq_ok valid.symm
            rw [← reads₂.1] at sound mem
            rw [← reads₂.marks_eq] at unmarked
            refine (ensures_removeWorktree sound unmarked mem left).mono ?_
            rintro x s₃ ⟨sound₃, ends⟩
            refine ⟨sound₃, fun there active _ completes => ?_⟩
            obtain rfl := own there
            exact ends active completes
          · rintro e s₂ ⟨reads₂, -, raised⟩
            rw [reads₂.1]
            refine ⟨sound, fun there active => ?_⟩
            obtain rfl := own there
            rw [sound.validated_eq mem active] at raised
            nomatch raised
        · rw [require_of_not terminal]
          exact ⟨sound, fun _ _ is => absurd is terminal⟩
    · rw [require_of_not agrees]
      refine ⟨sound, fun there => ?_⟩
      obtain rfl := own there
      exact absurd ⟨rfl, rfl, rfl, rfl⟩ agrees
  · rintro e s₁ ⟨reads, kept, none⟩
    rw [reads.1]
    refine ⟨sound, fun mem => ?_⟩
    rw [found_eq_ok.mpr ⟨mem, (sound.formed lease mem).runIdOf_eq⟩] at none
    nomatch none

end Corvus.Worktrees
