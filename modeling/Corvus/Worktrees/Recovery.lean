import Corvus.Worktrees.Creations

/-!
# Worktree leases after a recovery

Calls are made one after the other, and each may be stopped between any two of its questions.
As long as no discard is stopped between the removal of its worktree and the mark of its lease,
and no creation has to give up on a worktree that git does not remove, whatever has happened is
set right by a recovery of which git completes the removals.
-/

namespace Corvus.Worktrees

open Dialogue Procedure

variable {m : Manager} {D : Draw → Prop} {C : Recorded → Prop} {s s' : Recorded}
  {w : Workspace} {l : WorktreeLease} {h : History} {α β : Type}

/-! ## Who activates a lease -/

def Port.activates : Port → Bool
  | .activate .. => true
  | _ => false

/-- The runs whose leases a procedure may activate. -/
def Activates (R : String → Prop) (p : Program α) : Prop :=
  Within (fun q => ∀ runId root digest, q = .activate runId root digest → R runId)
    (fun _ => True) p.run

variable {R : String → Prop} {p : Program α} {q : Port} {g : q.Answer → Program β}
  {f : α → Program β}

theorem activates_ask (other : q.activates = false) (rest : ∀ r, Activates R (g r)) :
    Activates R (ask q >>= g) := by
  refine ⟨fun runId root digest same => ?_, rest⟩
  rw [same] at other
  exact absurd rfl (Bool.eq_false_iff.mp other)

theorem activates_bind (first : Activates R p) (second : ∀ a, Activates R (f a)) :
    Activates R (p >>= f) :=
  within_bind first (fun a _ => second a) fun _ _ => trivial

theorem activates_settle {x : Except Failure α} : Activates R (settle x) := trivial

theorem activates_pure {a : α} : Activates R (pure a : Program α) := trivial

theorem activates_attempt (first : Activates R p) : Activates R (attempt p) :=
  Within.bind first fun _ _ => trivial

theorem activates_gitMetadataDigest {root : String} : Activates R (gitMetadataDigest m root) := by
  refine activates_ask rfl fun raw => activates_bind activates_settle fun _ => ?_
  refine activates_bind activates_settle fun path => activates_ask rfl fun isDirectory => ?_
  exact activates_bind activates_settle fun _ => activates_pure

theorem activates_validateActiveLease : Activates R (validateActiveLease m l) := by
  refine activates_bind activates_gitMetadataDigest fun metadata => ?_
  refine activates_bind activates_settle fun _ => activates_ask rfl fun there => ?_
  exact activates_bind activates_settle fun _ => activates_pure

theorem activates_get {runId : String} : Activates R (get m runId) := by
  refine activates_bind activates_settle fun normalized => activates_ask rfl fun row => ?_
  refine activates_bind activates_settle fun lease => ?_
  split
  · exact activates_bind activates_validateActiveLease fun _ => activates_pure
  · exact activates_pure

theorem activates_cleanup {repository target : String} :
    Activates R (cleanupFailedWorktree repository target) :=
  activates_ask rfl fun _ => activates_settle

theorem activates_checkWorktree {target baseSha : String} :
    Activates R (checkWorktree m target baseSha) := by
  refine activates_ask rfl fun there => activates_bind activates_settle fun _ => ?_
  refine activates_ask rfl fun stdout => activates_bind activates_settle fun _ => ?_
  refine activates_bind activates_settle fun head => activates_bind activates_settle fun _ => ?_
  exact activates_gitMetadataDigest

theorem activates_create {record : RepositoryRecord} {runId baseSha : String} :
    Activates (fun normalized => runIdOf runId = .ok normalized)
      (create m record runId baseSha) := by
  rw [create]
  cases normal : runIdOf runId with
  | error e => exact activates_settle
  | ok normalized =>
  rw [settle_ok_bind]
  refine activates_bind activates_settle fun _ => activates_ask rfl fun found => ?_
  refine activates_bind activates_settle fun _ => activates_ask rfl fun there => ?_
  refine activates_bind activates_settle fun _ => activates_ask rfl fun createdAt => ?_
  refine activates_ask rfl fun inserted => activates_bind activates_settle fun _ => ?_
  refine activates_ask rfl fun added => ?_
  split
  swap
  · exact activates_ask rfl fun _ => activates_settle
  refine activates_bind (activates_attempt activates_checkWorktree) fun checked => ?_
  cases checked with
  | error e =>
    exact activates_bind activates_cleanup fun _ => activates_ask rfl fun _ => activates_settle
  | ok metadata =>
    refine ⟨fun _ _ _ same => ?_, fun updated => ?_⟩
    · obtain ⟨rfl, -, -⟩ := Port.activate.inj same
      rfl
    · show Activates _ (if updated = some 1 then _ else _)
      split
      · exact activates_get
      · refine activates_bind (activates_attempt activates_cleanup) fun cleaned => ?_
        exact activates_ask rfl fun _ => activates_bind activates_settle fun _ => activates_settle

theorem activates_discard {lease : WorktreeLease} {runTerminal : Bool} :
    Activates R (discard m lease runTerminal) := by
  refine activates_bind activates_get fun current => activates_bind activates_settle fun _ => ?_
  split
  · exact activates_pure
  · refine activates_bind activates_settle fun _ => ?_
    refine activates_bind activates_validateActiveLease fun root => ?_
    refine activates_ask rfl fun repository => activates_bind activates_settle fun _ => ?_
    refine activates_ask rfl fun removed => activates_bind activates_settle fun _ => ?_
    refine activates_bind ?_ fun _ => ?_
    · refine activates_ask rfl fun left => ?_
      split
      · exact activates_ask rfl fun _ => activates_settle
      · exact activates_pure
    · exact activates_ask rfl fun _ => activates_ask rfl fun _ => activates_get

theorem activates_recoverRow {repository : String} : Activates R (recoverRow m l repository) := by
  refine activates_bind activates_settle fun runId => ?_
  split
  swap
  · exact activates_pure
  refine activates_ask rfl fun found => ?_
  split
  swap
  · exact activates_pure
  refine activates_bind ?_ fun gone => ?_
  · refine activates_ask rfl fun there => ?_
    split
    · refine activates_ask rfl fun removed => ?_
      split
      · exact activates_ask rfl fun _ => activates_pure
      · exact activates_pure
    · exact activates_ask rfl fun _ => activates_pure
  · split
    · exact activates_ask rfl fun _ => activates_pure
    · exact activates_pure

theorem activates_recoverInterrupted : Activates R (recoverInterrupted m) := by
  refine activates_ask rfl fun rows => ?_
  show Activates R (recoverLeases m rows)
  induction rows with
  | nil => exact activates_pure
  | cons row rows ih =>
    refine activates_bind (activates_bind (activates_attempt activates_recoverRow) fun x => ?_)
      fun runId => activates_bind ih fun _ => activates_pure
    cases x with
    | ok runId => exact activates_pure
    | error e => exact activates_pure

/-! ## Where the leases come from -/

/-- Every lease that is not being created is known, or has been activated. -/
def Traced (known : String → Prop) (s : Recorded) : Prop :=
  ∀ l ∈ s.1.leases, l.status ≠ .creating →
    known l.runId ∨ (l.runId, some 1) ∈ activations s.2

variable {known : String → Prop}

theorem Traced.later {x : Exchange Port Port.Answer} (traced : Traced known s)
    (leases : ∀ l ∈ w.leases, l.status ≠ .creating →
      ∃ k ∈ s.1.leases, k.runId = l.runId ∧ k.status ≠ .creating) :
    Traced known (w, s.2 ++ [x]) := by
  intro l mem left
  obtain ⟨k, old, run, created⟩ := leases l mem left
  rw [activations_append, ← run]
  exact (traced k old created).imp_right (List.mem_append_left _)

/-- The leases that are there are left as they are. -/
theorem Traced.same {x : Exchange Port Port.Answer} (traced : Traced known s)
    (leases : ∀ l ∈ w.leases, l ∈ s.1.leases) : Traced known (w, s.2 ++ [x]) :=
  traced.later fun l mem left => ⟨l, leases l mem, rfl, left⟩

theorem leases_addAt {target : String} {d : Draw} {added : Bool} {w w' : Workspace}
    (answered : addAt target d w = (added, w')) : w.leases = w'.leases := by
  rw [addAt] at answered
  split at answered
  · split at answered <;> obtain ⟨-, rfl⟩ := Prod.mk.inj answered <;> rfl
  · obtain ⟨-, rfl⟩ := Prod.mk.inj answered
    rfl

theorem traced_answer {d : Draw} {r : q.Answer} (traced : Traced known s)
    (answered : answer m d q s.1 = (r, w)) : Traced known (w, s.2 ++ [⟨q, r⟩]) := by
  cases q with
  | insertLease runId repositoryId root baseSha digest createdAt =>
    obtain ⟨-, ⟨leases, inserted, rfl⟩, -⟩ | ⟨-, rfl, -⟩ := insertLease_eq answered
    · refine traced.later fun l mem left => ?_
      rw [Table.mem_iff, inserted, List.mem_append, List.mem_singleton] at mem
      obtain old | rfl := mem
      · exact ⟨l, old, rfl, left⟩
      · exact absurd rfl left
    · exact traced.same fun _ mem => mem
  | activate runId root digest =>
    dsimp only [answer] at answered
    split at answered
    · obtain ⟨rfl, rfl⟩ := Prod.mk.inj answered
      intro l mem left
      obtain ⟨old, -⟩ | ⟨r, old, picked, rfl⟩ := Table.of_mem_update mem
      · rw [activations_append]
        exact (traced l old left).imp_right (List.mem_append_left _)
      · obtain ⟨rfl, creating⟩ := picks_iff.mp picked
        right
        rw [activations_append, activate_count old creating]
        exact List.mem_append_right _ (.head _)
    · obtain ⟨-, rfl⟩ := Prod.mk.inj answered
      exact traced.same fun _ mem => mem
  | discardLease runId discardedAt =>
    obtain ⟨-, rfl⟩ := Prod.mk.inj answered
    refine traced.later fun l mem left => ?_
    obtain ⟨old, -⟩ | ⟨r, old, picked, rfl⟩ := Table.of_mem_update mem
    · exact ⟨l, old, rfl, left⟩
    · refine ⟨r, old, rfl, ?_⟩
      rw [(picks_iff.mp picked).2]
      nofun
  | deleteCreating runId =>
    obtain ⟨-, rfl⟩ := Prod.mk.inj answered
    exact traced.same fun l mem => (Table.mem_remove.mp mem).1
  | worktreeAdd repository target sha =>
    refine traced.same fun l mem => ?_
    rw [leases_addAt answered]
    exact mem
  | worktreeRemove repository target =>
    obtain ⟨-, rfl⟩ | ⟨-, rfl, -⟩ := removeAt_eq answered
    · exact traced.same fun _ mem => mem
    · exact traced.same fun _ mem => mem
  | _ =>
    obtain ⟨-, rfl⟩ := Prod.mk.inj answered
    exact traced.same fun _ mem => mem

/-! ## One call -/

/-- What holds of a call wherever it is stopped. -/
def Operation.Keeps (m : Manager) : Operation → Recorded → Prop
  | .create .. => Creating m
  | .discard .. => Discarding m
  | .recoverInterrupted => Recovering m

/-- What holds of a call that ends. -/
def Operation.Ends : Operation → Except Failure Outcome → Recorded → Prop
  | .create .., x, s => ∀ failure, x = .error failure → Unactivated s.2
  | .discard .., _, _ => True
  | .recoverInterrupted, _, s => Undisturbed s.2 → ∀ l ∈ s.1.leases, l.status ≠ .creating

theorem ensures_operation (operation : Operation) (sound : Sound m w) :
    Ensures m D (operation.Keeps m) (operation.program m)
      (fun x s => operation.Keeps m s ∧ operation.Ends x s) (w, []) := by
  cases operation with
  | create record runId baseSha =>
    refine holds_map (ensures_create sound) ?_ ?_
    · rintro a s ⟨kept, -, -⟩
      exact ⟨kept, nofun⟩
    · rintro e s ⟨kept, -, excused⟩
      exact ⟨kept, fun _ _ => excused e rfl fun _ mem => absurd mem List.not_mem_nil⟩
  | discard lease runTerminal =>
    refine holds_map (ensures_discard sound rfl) ?_ ?_
    · rintro a s ⟨kept, -⟩
      exact ⟨.inl kept, trivial⟩
    · rintro e s ⟨kept, -⟩
      exact ⟨.inl kept, trivial⟩
  | recoverInterrupted =>
    exact holds_map (ensures_recoverInterrupted sound) (fun _ _ => id) fun _ _ => id

theorem Operation.keeps_start (operation : Operation) (sound : Sound m w) :
    operation.Keeps m (w, []) := by
  cases operation with
  | create => exact .inl sound
  | discard => exact .inl sound
  | recoverInterrupted => exact sound

/-- What a call is known for, whether it was stopped or not. -/
structure Performed (m : Manager) (w : Workspace) (c : Call)
    (done : Option (Except Failure Outcome) × Recorded) : Prop where
  keeps : c.operation.Keeps m done.2
  ends : ∀ x, done.1 = some x → c.operation.Ends x done.2
  stopped : c.stop = none → ∃ x, done.1 = some x

theorem performed (c : Call) (sound : Sound m w) : Performed m w c (c.perform m w) := by
  have ensures := ensures_operation (D := fun _ => True) c.operation sound
  rw [Call.perform]
  cases stop : c.stop with
  | none =>
    obtain ⟨keeps, ends⟩ := ensures.serve (fun n => (trivial : (fun _ => True) (c.draws n)))
    refine ⟨keeps, fun x same => ?_, fun _ => ⟨_, rfl⟩⟩
    rw [← Option.some.inj same]
    exact ends
  | some n =>
    have keeps : c.operation.Keeps m ((c.operation.program m).run.stopped (recorded (answer m)) n
        c.draws (w, [])) :=
      ensures.stopped (c.operation.keeps_start sound) (fun _ => trivial) n
    refine ⟨keeps, nofun, fun ended => ?_⟩
    rw [stop] at ended
    nomatch ended

/-- What every question of a call keeps holds of what it leaves. -/
theorem perform_kept {P : Except Failure Outcome → Recorded → Prop} (c : Call)
    (holds : Ensures m (fun _ => True) C (c.operation.program m) P (w, [])) (start : C (w, []))
    (ends : ∀ x s, P x s → C s) : C (c.perform m w).2 := by
  rw [Call.perform]
  split
  · exact ends _ _ (holds.serve fun _ => trivial)
  · exact holds.stopped start (fun _ => trivial) _

/-- The leases that a call leaves are traced to those before it and to what it has asked. -/
theorem traced_perform (c : Call) (start : Traced known (w, [])) :
    Traced known (c.perform m w).2 :=
  perform_kept c (holds_alone_of_kept (fun _ _ _ traced => traced_answer traced rfl) start) start
    fun _ _ => id

/-- The run whose lease an operation may activate. -/
def Operation.Run (operation : Operation) (runId : String) : Prop :=
  ∃ record value baseSha, operation = .create record value baseSha ∧ runIdOf value = .ok runId

theorem activates_program (operation : Operation) :
    Activates operation.Run (operation.program m) := by
  cases operation with
  | create record value baseSha =>
    refine within_map (A := fun _ => True) ?_ (fun _ _ => trivial) fun _ _ => trivial
    refine activates_create.mono (fun q asks runId root digest same => ?_) fun _ => id
    exact ⟨record, value, baseSha, rfl, asks runId root digest same⟩
  | discard => exact within_map activates_discard (fun _ _ => trivial) fun _ _ => trivial
  | recoverInterrupted =>
    exact within_map activates_recoverInterrupted (fun _ _ => trivial) fun _ _ => trivial

/-- A lease is activated by a creation for its run. -/
theorem activated_by (c : Call) {runId : String} {updated : Option Nat}
    (activated : (runId, updated) ∈ activations (c.perform m w).2.2) : c.operation.Run runId := by
  have start : ∀ x ∈ ([] : Asked), ∀ runId root digest,
      x.question = .activate runId root digest → c.operation.Run runId :=
    fun _ mem => absurd mem List.not_mem_nil
  have asked := perform_kept (m := m) (w := w) c ((activates_program c.operation).recorded start)
    start fun _ _ => id
  obtain ⟨⟨q, r⟩, mem, told⟩ := List.mem_filterMap.mp activated
  cases q with
  | activate run root digest =>
    obtain ⟨rfl, -⟩ := Prod.mk.inj (Option.some.inj told)
    exact asked _ mem run root digest rfl
  | _ => nomatch told

/-! ## Runs -/

/-- What the calls so far have left, when each of them was spared. -/
structure Kept (m : Manager) (h : History) : Prop where
  sound : Sound m h.workspace
  traced : ∀ l ∈ h.workspace.leases, l.status ≠ .creating →
    ∃ e ∈ h.past, e.Creates l.runId ∧ ¬ e.Failed

/-- The entry that a call makes. -/
def entry (m : Manager) (h : History) (c : Call) : Entry :=
  ⟨c, (c.perform m h.workspace).1, (c.perform m h.workspace).2.2⟩

theorem Kept.step {c : Call} (kept : Kept m h) (spared : (entry m h c).Spared) :
    Kept m (h.step m c) := by
  obtain ⟨keeps, ends, -⟩ := performed c kept.sound
  constructor
  · show Sound m (c.perform m h.workspace).2.1
    cases operation : c.operation with
    | create =>
      rw [operation] at keeps
      exact keeps.resolve_right spared.2
    | discard lease runTerminal =>
      rw [operation] at keeps
      refine keeps.resolve_right fun removing => spared.1 ⟨?_, removing⟩
      show c.operation.isDiscard = true
      rw [operation]
      rfl
    | recoverInterrupted =>
      rw [operation] at keeps
      exact keeps
  · have start : Traced (fun runId => ∃ e ∈ h.past, e.Creates runId ∧ ¬ e.Failed)
        (h.workspace, []) := fun l mem left => .inl (kept.traced l mem left)
    intro l mem left
    obtain ⟨e, old, traced⟩ | activated := traced_perform c start l mem left
    · exact ⟨e, List.mem_append_left _ old, traced⟩
    · refine ⟨entry m h c, List.mem_append_right _ (.head _), activated_by c activated, ?_⟩
      obtain ⟨record, value, baseSha, operation, -⟩ := activated_by c activated
      rw [operation] at ends
      rintro (⟨failure, raised⟩ | ⟨-, unactivated⟩)
      · exact ends _ raised failure rfl _ activated rfl
      · exact unactivated _ activated rfl

theorem past_append (calls : List Call) (c : Call) : (history m (calls ++ [c])).past =
    (history m calls).past ++ [entry m (history m calls) c] := by
  rw [history, Run.exec_append]
  rfl

/-- By induction on the calls, of which the last one is performed last. -/
theorem kept_history {calls : List Call} (spared : ∀ e ∈ (history m calls).past, e.Spared) :
    Kept m (history m calls) := by
  induction calls using List.reverseRecOn with
  | nil => exact ⟨sound_empty, fun _ mem => absurd mem Table.not_mem_empty⟩
  | append_singleton calls c ih =>
    rw [past_append] at spared
    obtain ⟨before, last⟩ := List.forall_mem_append.mp spared
    rw [history, Run.exec_append]
    exact (ih before).step (List.forall_mem_singleton.mp last)

/-- What a call of the program ends with in a workspace. -/
def Program.result {α : Type} (p : Program α) (m : Manager) (draws : Nat → Draw) (w : Workspace) :
    Except Failure α :=
  (p.run.serve (answer m) draws w).1

/-- What is to hold after a recovery, with the calls that have been made before it. -/
structure Recovered (m : Manager) (h : History) : Prop where
  settled : ∀ l ∈ h.workspace.leases, l.status ≠ .creating
  gets : ∀ l ∈ h.workspace.leases, ∀ draws,
    (get m l.runId).result m draws h.workspace = .ok l
  owned : ∀ t ∈ h.workspace.worktrees,
    ∃! l, l ∈ h.workspace.leases ∧ l.status = .active ∧ l.root = t.root
  discards : ∀ l ∈ h.workspace.leases, l.status = .active →
    ∀ draws : Nat → Draw, (∀ n, (draws n).completes = true) →
      ∃ discardedAt, (discard m l true).result m draws h.workspace =
        .ok { l with status := .discarded, discardedAt := some discardedAt }
  creates : ∀ record value runId baseSha, runIdOf value = .ok runId →
    (∀ e ∈ h.past, e.Creates runId → e.Failed) →
      (m.canonicalPath record.id.text).isSome → validSha baseSha = true →
        ∀ draws : Nat → Draw, (∀ n, (draws n).Provides baseSha) →
          Created record runId baseSha ((create m record value baseSha).result m draws h.workspace)

/-- A procedure that is served ends as it ensures. -/
theorem ensures_result {P : Except Failure α → Recorded → Prop} (draws : Nat → Draw)
    (ensures : Ensures m D C p P (w, [])) (drawn : ∀ n, D (draws n)) :
    ∃ s, P (p.result m draws w) s := by
  have ends := ensures.serve drawn
  rw [serve_recorded] at ends
  exact ⟨_, ends⟩

/-- A sound workspace in which nothing is being created is as it should be. -/
theorem Kept.recovered (kept : Kept m h)
    (settled : ∀ l ∈ h.workspace.leases, l.status ≠ .creating) : Recovered m h where
  settled := settled
  gets l mem draws := by
    obtain ⟨s, -, -, same⟩ := ensures_result (D := fun _ => True) draws
      (ensures_get steady_recovering kept.sound kept.sound) fun _ => trivial
    rw [same]
    exact found_eq_ok.mpr ⟨mem, (kept.sound.formed l mem).runIdOf_eq⟩
  owned t mem := by
    obtain ⟨l, there, root⟩ := kept.sound.owned t mem
    refine ⟨l, ⟨there, ?_, root⟩, fun k other => ?_⟩
    · cases status : l.status with
      | active => rfl
      | creating => exact absurd status (settled l there)
      | discarded =>
        have gone := (backed_discarded status).mp (kept.sound.backed l there)
        exact absurd root.symm (gone t mem)
    · obtain ⟨there', -, root'⟩ := other
      exact kept.sound.eq_of_root there' there (root'.trans root.symm)
  discards l mem active draws completes := by
    obtain ⟨s, -, ends⟩ := ensures_result draws
      (ensures_discard (D := fun d => d.completes = true) kept.sound rfl) completes
    exact ends mem active rfl fun _ => id
  creates record value runId baseSha normal failed registered sha draws provides := by
    obtain ⟨s, -, ends, -⟩ := ensures_result draws
      (ensures_create (D := fun d => d.Provides baseSha) kept.sound) provides
    refine ends runId normal sha ⟨fun l mem run => ?_, registered, fun _ => id⟩
    obtain ⟨e, past, creates, succeeded⟩ := kept.traced l mem (settled l mem)
    rw [run] at creates
    exact succeeded (failed e past creates)

/-- **Leases recover.** Whatever calls are made and wherever each of them is stopped, as long as
no discard has been stopped between the removal and the mark and no creation has been left with
a worktree that git does not remove, a recovery whose removals are completed and which finds the
repositories leaves every lease and every worktree as it should be. -/
theorem leasesRecover (m : Manager) (calls : List Call) (c : Call)
    (spared : ∀ e ∈ (history m (calls ++ [c])).past, e.Spared)
    (recovers : (entry m (history m calls) c).Recovers) :
    Recovered m (history m (calls ++ [c])) := by
  have kept := kept_history spared
  refine kept.recovered ?_
  rw [past_append] at spared
  have before := kept_history fun e mem => spared e (List.mem_append_left _ mem)
  obtain ⟨keeps, ends, stopped⟩ := performed c before.sound
  obtain ⟨operation, ended, removed, looked⟩ := recovers
  obtain ⟨x, outcome⟩ := stopped ended
  have ends := ends x outcome
  rw [show c.operation = .recoverInterrupted from operation] at ends
  rw [history, Run.exec_append]
  exact ends ⟨removed, looked⟩

/-! ## A manager with one repository -/

def readBytes (bytes : List UInt8) : String :=
  String.ofList (bytes.map fun b => Char.ofNat b.toNat)

def testManager : Manager where
  root := "/managed"
  ownershipSecret := utf8 "worktree-ownership-secret"
  secret_long := by decide +kernel
  hmac _ payload := readBytes payload
  sha256 := readBytes
  repositories := [⟨.ofNat 1, "/source"⟩]

def testSha : String := "0123456789abcdef0123456789abcdef01234567"

/-- Everything completes. -/
def testDraw : Draw where
  now := 0
  completes := true
  gitFile := some (utf8 "gitdir: /source/.git/worktrees/run")
  gitDirectory := true
  head := utf8 testSha

def createCall (run : Nat) (stop : Option Nat) : Call where
  operation := .create ⟨.ofNat 1, "/source"⟩ (Uuid.ofNat run).text testSha
  draws _ := testDraw
  stop

def recoverCall : Call := ⟨.recoverInterrupted, fun _ => testDraw, none⟩

/-- The lease of the first run, once it is active. -/
def testLease : WorktreeLease :=
  let record : RepositoryRecord := ⟨.ofNat 1, "/source"⟩
  let lease := newLease testManager record (Uuid.ofNat 7).text testSha 0
  { lease with
    status := .active
    ownershipDigest := testManager.ownershipDigest lease.runId lease.repositoryId lease.root testSha
      "gitdir: /source/.git/worktrees/run" }

/-- The calls before a recovery, and the recovery. -/
theorem interrupted_recovers :
    (∀ e ∈ (history testManager [createCall 7 none, createCall 8 (some 7), recoverCall]).past,
      e.Spared) ∧
    false ∉ removals (entry testManager (history testManager [createCall 7 none,
      createCall 8 (some 7)]) recoverCall).asked ∧
    false ∉ lookups (entry testManager (history testManager [createCall 7 none,
      createCall 8 (some 7)]) recoverCall).asked := by
  decide +kernel

/-- A creation that is stopped once git has added the worktree is taken back, and the other
lease is left alone. -/
theorem leasesRecover_interrupted :
    Recovered testManager (history testManager [createCall 7 none, createCall 8 (some 7),
      recoverCall]) := by
  obtain ⟨spared, removed, looked⟩ := interrupted_recovers
  exact leasesRecover testManager [createCall 7 none, createCall 8 (some 7)] recoverCall spared
    ⟨rfl, rfl, removed, looked⟩

/-- What a recovery after a discard that was stopped asks and leaves. -/
theorem stopped_recovery :
    (false ∉ removals (entry testManager (history testManager [createCall 7 none,
      ⟨.discard testLease true, fun _ => testDraw, some 9⟩]) recoverCall).asked ∧
    false ∉ lookups (entry testManager (history testManager [createCall 7 none,
      ⟨.discard testLease true, fun _ => testDraw, some 9⟩]) recoverCall).asked) ∧
    testLease ∈ (history testManager [createCall 7 none,
      ⟨.discard testLease true, fun _ => testDraw, some 9⟩, recoverCall]).workspace.leases ∧
    ((get testManager testLease.runId).result testManager (fun _ => testDraw)
      (history testManager [createCall 7 none, ⟨.discard testLease true, fun _ => testDraw, some 9⟩,
        recoverCall]).workspace).isOk = false := by
  decide +kernel

/-- A discard that is stopped once git has removed the worktree: no recovery sees to the lease,
which is active and cannot be read any more. -/
theorem discard_stopped :
    (entry testManager (history testManager [createCall 7 none,
      ⟨.discard testLease true, fun _ => testDraw, some 9⟩]) recoverCall).Recovers ∧
    ¬ Recovered testManager (history testManager [createCall 7 none,
      ⟨.discard testLease true, fun _ => testDraw, some 9⟩, recoverCall]) := by
  obtain ⟨⟨removed, looked⟩, mem, raises⟩ := stopped_recovery
  refine ⟨⟨rfl, rfl, removed, looked⟩, fun recovered => ?_⟩
  rw [recovered.gets testLease mem] at raises
  nomatch raises

end Corvus.Worktrees
