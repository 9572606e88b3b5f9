import Corvus.Deployment.Store
import Corvus.Library.Log
import Corvus.Projects.Writes

/-!
# Safety of the commit protocol

A workspace has one commit in flight, its intents move along the allowed transitions, and
those that have been committed form a chain that leads from where its authority was added to
where it stands. A quarantined authority stands still as long as nobody commits for it: the
repository does not look at its state.
-/

namespace Corvus.Deployment

open Projects (WorkspaceAuthority AuthorityCommitIntent AuthorityCommitState Database)
open Projects.Database (AtPrior allowedCommitTransitions toState advanced quarantined)
open Run

variable {D : Digests} {store : Store D} {db db' : Database}

/-! ## What a call does to the authorities and the intents -/

/-- The authority that a call adds, if it does. -/
def adds (store : Store D) : Operation D → List WorkspaceAuthority
  | .addWorkspaceAuthority a =>
    match store.addWorkspaceAuthority a with
    | .ok _ => [a]
    | .error _ => []
  | _ => []

/-- The intent that a call commits, if it does. -/
def commits (store : Store D) : Operation D → List AuthorityCommitIntent
  | .advanceCommit i expected =>
    match store.database.advanceCommit i expected with
    | .ok _ => if i.state = .dbCommitted then [i] else []
    | .error _ => []
  | _ => []

/-- The authorities that a run adds, in order. -/
def added (store : Store D) : List (Operation D) → List WorkspaceAuthority
  | [] => []
  | op :: ops => adds store op ++ added (step store op) ops

/-- The intents that a run commits, in order. -/
def committed (store : Store D) : List (Operation D) → List AuthorityCommitIntent
  | [] => []
  | op :: ops => commits store op ++ committed (step store op) ops

/-- One call, by what it does to the database and to the lists of what has been added and
committed. -/
inductive Effect (db : Database) : Operation D → Database → List WorkspaceAuthority →
    List AuthorityCommitIntent → Prop
  | nothing {op} : Effect db op db [] []
  | add {a authorities} (new : ∀ b ∈ db.authorities, b.id ≠ a.id)
      (inserted : db.authorities.insert? a = some authorities) :
      Effect db (.addWorkspaceAuthority a) { db with authorities := authorities } [a] []
  | prepare {i db'} (prepares : db.Prepares i db') : Effect db (.prepareCommit i) db' [] []
  | move {i expected} (allowed : i.state ∈ allowedCommitTransitions expected)
      (current : { i with state := expected } ∈ db.intents) (early : i.state ≠ .dbCommitted) :
      Effect db (.advanceCommit i expected) { db with intents := db.moved i } [] []
  | commit {i a} (current : { i with state := .anchorReserved } ∈ db.intents)
      (commits : i.state = .dbCommitted) (found : db.getWorkspaceAuthority i.workspaceId = some a)
      (prior : AtPrior a i) : Effect db (.advanceCommit i .anchorReserved)
        { db with intents := db.moved i, authorities := db.led i } [] [i]
  | quarantine {ws generation root} : Effect db (.quarantineWorkspaceAuthority ws generation root)
      { db with authorities := db.authorities.update (·.workspaceId = ws) quarantined } [] []

theorem step_effect (store : Store D) (op : Operation D) :
    Effect store.database op (step store op).database (adds store op) (commits store op) := by
  unfold step
  cases performed : op.perform store with
  | error e =>
    cases op with
    | addWorkspaceAuthority a =>
      have refused : store.addWorkspaceAuthority a = .error e := performed
      rw [adds, refused]
      exact .nothing
    | advanceCommit i expected =>
      have refused : ∃ e, store.database.advanceCommit i expected = .error e := by
        cases advanced : store.database.advanceCommit i expected with
        | error e => exact ⟨e, rfl⟩
        | ok db =>
          have ok : (Operation.advanceCommit i expected).perform store = _ := performed
          rw [Operation.perform, advanced] at ok
          exact absurd ok nofun
      obtain ⟨e, refused⟩ := refused
      rw [commits, refused]
      exact .nothing
    | _ => exact .nothing
  | ok store' =>
    cases op with
    | addWorkspaceAuthority a =>
      have accepted : store.addWorkspaceAuthority a = .ok store' := performed
      rw [adds, accepted]
      obtain ⟨_, -, rest⟩ := bind_eq_ok.mp accepted
      obtain ⟨_, new, rest⟩ := bind_eq_ok.mp rest
      obtain ⟨authorities, inserted, rest⟩ := bind_eq_ok.mp rest
      obtain rfl := Except.ok.inj rest
      refine .add (fun b mem same => refuse_eq_ok.mp new ⟨b, mem, same⟩) ?_
      exact present_eq_ok.mp inserted
    | prepareCommit i =>
      obtain ⟨db, prepared, rest⟩ := bind_eq_ok.mp performed
      obtain rfl := Except.ok.inj rest
      exact .prepare (Projects.Database.prepareCommit_eq_ok.mp prepared)
    | advanceCommit i expected =>
      obtain ⟨db, ok, rest⟩ := bind_eq_ok.mp performed
      obtain rfl := Except.ok.inj rest
      rw [commits, ok]
      obtain ⟨allowed, current, stored⟩ := Projects.Database.advanceCommit_eq_ok.mp ok
      obtain ⟨early, rfl⟩ | ⟨commits, ⟨a, found, prior⟩, rfl⟩ := stored
      · dsimp only
        rw [if_neg early]
        exact .move allowed current early
      · obtain rfl : expected = .anchorReserved := by
          rw [commits] at allowed
          cases expected <;> first | rfl | exact absurd allowed (by decide)
        dsimp only
        rw [if_pos commits]
        exact .commit current commits found prior
    | quarantineWorkspaceAuthority ws generation root =>
      obtain ⟨db, ok, rest⟩ := bind_eq_ok.mp performed
      obtain rfl := Except.ok.inj rest
      obtain rfl | rfl := Projects.Database.quarantineWorkspaceAuthority_ok ok
      · exact .nothing
      · exact .quarantine
    | addDeploymentProfile p =>
      obtain ⟨_, -, rest⟩ := bind_eq_ok.mp performed
      obtain rfl := Except.ok.inj rest
      exact .nothing
    | addDeploymentInstance i =>
      obtain ⟨_, -, rest⟩ := bind_eq_ok.mp performed
      obtain ⟨_, -, rest⟩ := bind_eq_ok.mp rest
      obtain rfl := Except.ok.inj rest
      exact .nothing
    | addEpochCredential c =>
      obtain ⟨_, -, rest⟩ := bind_eq_ok.mp performed
      obtain ⟨_, -, rest⟩ := bind_eq_ok.mp rest
      obtain ⟨_, -, rest⟩ := bind_eq_ok.mp rest
      obtain ⟨_, -, rest⟩ := bind_eq_ok.mp rest
      obtain rfl := Except.ok.inj rest
      exact .nothing
    | addTrustAnchor a =>
      obtain ⟨_, -, rest⟩ := bind_eq_ok.mp performed
      obtain rfl := Except.ok.inj rest
      exact .nothing
    | acquireLease l =>
      obtain ⟨_, -, rest⟩ := bind_eq_ok.mp performed
      obtain ⟨_, -, rest⟩ := bind_eq_ok.mp rest
      obtain ⟨_, -, rest⟩ := bind_eq_ok.mp rest
      obtain ⟨_, -, rest⟩ := bind_eq_ok.mp rest
      obtain ⟨_, -, rest⟩ := bind_eq_ok.mp rest
      obtain ⟨_, -, rest⟩ := bind_eq_ok.mp rest
      obtain rfl := Except.ok.inj rest
      exact .nothing
    | releaseLease l token =>
      obtain ⟨_, -, rest⟩ := bind_eq_ok.mp performed
      obtain ⟨_, -, rest⟩ := bind_eq_ok.mp rest
      obtain ⟨_, -, rest⟩ := bind_eq_ok.mp rest
      obtain ⟨_, -, rest⟩ := bind_eq_ok.mp rest
      obtain ⟨_, -, rest⟩ := bind_eq_ok.mp rest
      obtain rfl := Except.ok.inj rest
      exact .nothing

/-! ## The chain of the commits -/

/-- An intent starts from where the one before it leads, the first from where the authority has
been added. -/
def StartsFrom (birth : WorkspaceAuthority) (last : Option AuthorityCommitIntent)
    (i : AuthorityCommitIntent) : Prop :=
  i.priorGeneration = (last.map (·.nextGeneration)).getD birth.authorityGeneration ∧
    i.priorStateRoot = (last.map (·.proposedStateRoot)).getD birth.authorityStateRoot

/-- An authority stands where the commits since it has been added lead. -/
structure Standing (birth : WorkspaceAuthority) (log : List AuthorityCommitIntent)
    (a : WorkspaceAuthority) : Prop where
  generation : a.authorityGeneration = birth.authorityGeneration + log.length
  led : a.authorityGeneration = (log.getLast?.map (·.nextGeneration)).getD birth.authorityGeneration
  root : a.authorityStateRoot =
    (log.getLast?.map (·.proposedStateRoot)).getD birth.authorityStateRoot
  chain : Linked (StartsFrom birth) none log
  same : a = { birth with
    authorityGeneration := a.authorityGeneration
    authorityStateRoot := a.authorityStateRoot
    state := a.state
    version := a.version }

/-- The commits of a workspace. -/
def ofWorkspace (ws : Uuid) (log : List AuthorityCommitIntent) : List AuthorityCommitIntent :=
  log.filter (·.workspaceId = ws)

theorem ofWorkspace_concat {ws : Uuid} {log : List AuthorityCommitIntent}
    {i : AuthorityCommitIntent} : ofWorkspace ws (log ++ [i]) =
      if i.workspaceId = ws then ofWorkspace ws log ++ [i] else ofWorkspace ws log := by
  by_cases its : i.workspaceId = ws
  · simp [ofWorkspace, its]
  · simp [ofWorkspace, its]

theorem Standing.quarantined {birth a : WorkspaceAuthority} {log : List AuthorityCommitIntent}
    (h : Standing birth log a) : Standing birth log (quarantined a) where
  generation := h.generation
  led := h.led
  root := h.root
  chain := h.chain
  same := by
    rw [h.same]
    rfl

theorem Standing.advanced {birth a : WorkspaceAuthority} {log : List AuthorityCommitIntent}
    {i : AuthorityCommitIntent} (h : Standing birth log a) (prior : AtPrior a i)
    (next : i.nextGeneration = i.priorGeneration + 1) :
    Standing birth (log ++ [i]) (advanced i a) := by
  obtain ⟨-, -, generation, root⟩ := prior
  constructor
  · have counted := h.generation
    rw [List.length_append, List.length_singleton]
    show i.nextGeneration = _
    omega
  · rw [List.getLast?_concat]
    rfl
  · rw [List.getLast?_concat]
    rfl
  · refine linked_append.mpr ⟨h.chain, ?_⟩
    rw [Option.or_none]
    exact ⟨generation.symm.trans h.led, root.symm.trans h.root⟩
  · rw [h.same]
    rfl

/-! ## The invariant -/

/-- The states of an intent that has been committed. -/
def Passed (s : AuthorityCommitState) : Prop := s ≠ .prepared ∧ s ≠ .anchorReserved

/-- What holds of the authorities and the intents, when `births` have been added and the intents
of `log` have been committed. -/
structure Kept (db : Database) (births : List WorkspaceAuthority)
    (log : List AuthorityCommitIntent) : Prop where
  single : ∀ i ∈ db.intents, ∀ j ∈ db.intents, i.workspaceId = j.workspaceId →
    i.state.ended = false → j.state.ended = false → i = j
  advances : ∀ i ∈ db.intents, i.nextGeneration = i.priorGeneration + 1
  standing : ∀ a ∈ db.authorities, ∃ birth ∈ births,
    Standing birth (ofWorkspace a.workspaceId log) a
  known : ∀ i ∈ log, ∃ a ∈ db.authorities, a.workspaceId = i.workspaceId
  logged : ∀ i ∈ db.intents, i.state = .dbCommitted ∨ i.state = .anchorFinalized →
    { i with state := .dbCommitted } ∈ log
  stored : ∀ i ∈ log, ∃ s, Passed s ∧ { i with state := s } ∈ db.intents
  once : (log.map (·.id)).Nodup

variable {births : List WorkspaceAuthority} {log : List AuthorityCommitIntent}
  {i j : AuthorityCommitIntent} {expected : AuthorityCommitState}

/-- The intents after one of them has moved. -/
theorem mem_moved (current : { i with state := expected } ∈ db.intents) :
    j ∈ db.moved i ↔ (j ∈ db.intents ∧ j.id ≠ i.id) ∨ j = i := by
  constructor
  · intro mem
    obtain ⟨mem, other⟩ | ⟨k, inside, same, rfl⟩ := Table.of_mem_update mem
    · exact .inl ⟨mem, of_decide_eq_false other⟩
    · have old : k = { i with state := expected } :=
        Table.eq_of_key inside current (of_decide_eq_true same)
      rw [old]
      exact .inr rfl
  · rintro (⟨mem, other⟩ | rfl)
    · have image := Table.mem_update_of_mem (p := (·.id = i.id)) (f := toState i.state) mem
      rwa [if_neg (by simpa using other)] at image
    · have image := Table.mem_update_of_mem (p := (·.id = j.id)) (f := toState j.state) current
      rwa [if_pos (by simp)] at image

/-- What a committed intent leads to is committed as well. -/
theorem passed_of_allowed (passed : Passed expected) (allowed : i.state ∈ allowedCommitTransitions expected) :
    Passed i.state := by
  cases expected with
  | prepared => exact absurd rfl passed.1
  | anchorReserved => exact absurd rfl passed.2
  | dbCommitted =>
    obtain at_ | at_ : i.state = .anchorFinalized ∨ i.state = .quarantined := by
      simpa [allowedCommitTransitions] using allowed
    all_goals
      rw [at_]
      exact ⟨nofun, nofun⟩
  | anchorFinalized => exact absurd allowed List.not_mem_nil
  | quarantined => exact absurd allowed List.not_mem_nil

theorem not_ended_of_allowed (allowed : i.state ∈ allowedCommitTransitions expected) :
    expected.ended = false := by
  cases expected with
  | anchorFinalized => exact absurd allowed List.not_mem_nil
  | quarantined => exact absurd allowed List.not_mem_nil
  | _ => rfl

/-- An intent that moves is still the only one in flight. -/
theorem Kept.single_moved (h : Kept db births log)
    (allowed : i.state ∈ allowedCommitTransitions expected)
    (current : { i with state := expected } ∈ db.intents) :
    ∀ j ∈ db.moved i, ∀ k ∈ db.moved i, j.workspaceId = k.workspaceId →
      j.state.ended = false → k.state.ended = false → j = k := by
  have going : ({ i with state := expected } : AuthorityCommitIntent).state.ended = false :=
    not_ended_of_allowed allowed
  intro j hj k hk same openJ openK
  obtain ⟨inJ, other⟩ | rfl := (mem_moved current).mp hj
  · obtain ⟨inK, -⟩ | rfl := (mem_moved current).mp hk
    · exact h.single j inJ k inK same openJ openK
    · exact absurd (congrArg (·.id) (h.single j inJ _ current same openJ going)) other
  · obtain ⟨inK, other⟩ | rfl := (mem_moved current).mp hk
    · exact absurd (congrArg (·.id) (h.single _ current k inK same going openK)).symm other
    · rfl

/-- An intent that is stored in some state advances its authority by one generation. -/
theorem Kept.next (h : Kept db births log) (current : { i with state := expected } ∈ db.intents) :
    i.nextGeneration = i.priorGeneration + 1 :=
  h.advances { i with state := expected } current

theorem Kept.advances_moved (h : Kept db births log)
    (current : { i with state := expected } ∈ db.intents) :
    ∀ j ∈ db.moved i, j.nextGeneration = j.priorGeneration + 1 := by
  intro j mem
  obtain ⟨mem, -⟩ | rfl := (mem_moved current).mp mem
  · exact h.advances j mem
  · exact h.next current

/-- A rewritten table has an authority of each workspace that had one. -/
theorem exists_rewritten {t : Table WorkspaceAuthority} {p : WorkspaceAuthority → Bool}
    {f : Rewrite WorkspaceAuthority} {ws : Uuid} (h : ∃ a ∈ t, a.workspaceId = ws) :
    ∃ a ∈ t.update p f, a.workspaceId = ws := by
  obtain ⟨a, mem, rfl⟩ := h
  exact ⟨_, Table.mem_update_of_mem mem, Table.key_ite (p := p) (f := f) a⟩

theorem Kept.add {a : WorkspaceAuthority} {authorities : Table WorkspaceAuthority}
    (h : Kept db births log) (inserted : db.authorities.insert? a = some authorities) :
    Kept { db with authorities := authorities } (births ++ [a]) log := by
  obtain ⟨free, appended⟩ := Table.insert?_eq_some.mp inserted
  refine { h with standing := ?_, known := ?_ }
  · intro b mem
    rw [Table.mem_iff, appended, List.mem_append, List.mem_singleton] at mem
    obtain mem | rfl := mem
    · obtain ⟨birth, born, standing⟩ := h.standing b mem
      exact ⟨birth, List.mem_append_left _ born, standing⟩
    · have none_committed : ofWorkspace b.workspaceId log = [] := by
        refine List.filter_eq_nil_iff.mpr fun i mem same => free ?_
        obtain ⟨c, inside, its⟩ := h.known i mem
        exact List.mem_map.mpr ⟨c, inside, its.trans (of_decide_eq_true same)⟩
      refine ⟨b, List.mem_append_right _ (List.mem_singleton_self b), ?_⟩
      rw [none_committed]
      exact ⟨rfl, rfl, rfl, trivial, rfl⟩
  · intro i mem
    obtain ⟨b, inside, its⟩ := h.known i mem
    exact ⟨b, Table.mem_append_of_mem appended inside, its⟩

theorem Kept.prepare (h : Kept db births log) (prepares : db.Prepares i db') :
    Kept db' births log := by
  obtain ⟨intents, inserted, rfl⟩ := prepares.stored
  obtain ⟨-, appended⟩ := Table.insert?_eq_some.mp inserted
  have split : ∀ j ∈ intents, j ∈ db.intents ∨ j = i := by
    intro j mem
    rwa [Table.mem_iff, appended, List.mem_append, List.mem_singleton] at mem
  refine { h with single := ?_, advances := ?_, logged := ?_, stored := ?_ }
  · intro j hj k hk same openJ openK
    obtain hj | rfl := split j hj
    · obtain hk | rfl := split k hk
      · exact h.single j hj k hk same openJ openK
      · exact absurd ⟨j, hj, same, openJ⟩ prepares.free
    · obtain hk | rfl := split k hk
      · exact absurd ⟨k, hk, same.symm, openK⟩ prepares.free
      · rfl
  · intro j mem
    obtain mem | rfl := split j mem
    · exact h.advances j mem
    · exact prepares.next
  · intro j mem late
    obtain mem | rfl := split j mem
    · exact h.logged j mem late
    · rw [prepares.prepared] at late
      exact absurd late (by simp)
  · intro j mem
    obtain ⟨s, passed, inside⟩ := h.stored j mem
    exact ⟨s, passed, Table.mem_append_of_mem appended inside⟩

theorem Kept.move (h : Kept db births log) (allowed : i.state ∈ allowedCommitTransitions expected)
    (current : { i with state := expected } ∈ db.intents) (early : i.state ≠ .dbCommitted) :
    Kept { db with intents := db.moved i } births log := by
  refine { h with
    single := h.single_moved allowed current
    advances := h.advances_moved current
    logged := ?_
    stored := ?_ }
  · intro j mem late
    obtain ⟨mem, -⟩ | rfl := (mem_moved current).mp mem
    · exact h.logged j mem late
    · have finalized := late.resolve_left early
      rw [finalized] at allowed
      obtain rfl : expected = .dbCommitted := by
        cases expected <;> first | rfl | exact absurd allowed (by decide)
      have before := h.logged _ current (.inl rfl)
      exact before
  · intro k mem
    obtain ⟨s, passed, inside⟩ := h.stored k mem
    by_cases its : k.id = i.id
    · have old := Table.eq_of_key inside current its
      refine ⟨i.state, ?_, ?_⟩
      · refine passed_of_allowed ?_ allowed
        have at_ : s = expected := congrArg (·.state) old
        rwa [← at_]
      · refine (mem_moved current).mpr (.inr ?_)
        have same := congrArg (fun j : AuthorityCommitIntent => { j with state := i.state }) old
        exact same
    · exact ⟨s, passed, (mem_moved current).mpr (.inl ⟨inside, its⟩)⟩

theorem Kept.commit {a : WorkspaceAuthority} (h : Kept db births log)
    (current : { i with state := .anchorReserved } ∈ db.intents) (commits : i.state = .dbCommitted)
    (found : db.getWorkspaceAuthority i.workspaceId = some a) (prior : AtPrior a i) :
    Kept { db with intents := db.moved i, authorities := db.led i } births (log ++ [i]) := by
  obtain ⟨mem, here⟩ := Projects.Database.getWorkspaceAuthority_eq_some.mp found
  have allowed : i.state ∈ allowedCommitTransitions .anchorReserved := by
    rw [commits]
    decide
  -- an intent that has been committed is not at the state that this one moves from
  have apart : ∀ k ∈ log, k.id ≠ i.id := by
    intro k mem same
    obtain ⟨s, passed, inside⟩ := h.stored k mem
    exact passed.2 (congrArg (·.state) (Table.eq_of_key inside current same))
  constructor
  · exact h.single_moved allowed current
  · exact h.advances_moved current
  · intro b inside
    obtain ⟨there, other⟩ | ⟨c, there, its, rfl⟩ := Table.of_mem_update inside
    · obtain ⟨birth, born, standing⟩ := h.standing b there
      refine ⟨birth, born, ?_⟩
      rw [ofWorkspace_concat, if_neg fun its => of_decide_eq_false other its.symm]
      exact standing
    · obtain rfl : c = a := Table.eq_of_key there mem ((of_decide_eq_true its).trans here.symm)
      obtain ⟨birth, born, standing⟩ := h.standing c mem
      have log_eq : ofWorkspace c.workspaceId (log ++ [i]) = ofWorkspace c.workspaceId log ++ [i] := by
        rw [ofWorkspace_concat, if_pos here.symm]
      exact ⟨birth, born, log_eq ▸ standing.advanced prior (h.next current)⟩
  · intro k inside
    obtain inside | inside := List.mem_append.mp inside
    · exact exists_rewritten (h.known k inside)
    · obtain rfl := List.mem_singleton.mp inside
      exact exists_rewritten ⟨a, mem, here⟩
  · intro j inside late
    obtain ⟨inside, -⟩ | rfl := (mem_moved current).mp inside
    · exact List.mem_append_left _ (h.logged j inside late)
    · refine List.mem_append_right _ (List.mem_singleton.mpr ?_)
      rw [← commits]
  · intro k inside
    obtain inside | inside := List.mem_append.mp inside
    · obtain ⟨s, passed, there⟩ := h.stored k inside
      exact ⟨s, passed, (mem_moved current).mpr (.inl ⟨there, apart k inside⟩)⟩
    · obtain rfl := List.mem_singleton.mp inside
      refine ⟨.dbCommitted, ⟨nofun, nofun⟩, (mem_moved current).mpr (.inr ?_)⟩
      rw [← commits]
  · rw [List.map_append, List.map_singleton, List.nodup_append]
    refine ⟨h.once, List.nodup_singleton _, ?_⟩
    intro id inside other there same
    obtain ⟨k, mem, rfl⟩ := List.mem_map.mp inside
    exact apart k mem (same.trans (List.mem_singleton.mp there))

theorem Kept.quarantine {ws : Uuid} (h : Kept db births log) :
    Kept { db with authorities := db.authorities.update (·.workspaceId = ws) quarantined }
      births log := by
  refine { h with standing := ?_, known := ?_ }
  · intro b inside
    obtain ⟨there, -⟩ | ⟨c, there, -, rfl⟩ := Table.of_mem_update inside
    · exact h.standing b there
    · obtain ⟨birth, born, standing⟩ := h.standing c there
      exact ⟨birth, born, standing.quarantined⟩
  · exact fun k inside => exists_rewritten (h.known k inside)

theorem Effect.kept {op : Operation D} {births' : List WorkspaceAuthority}
    {log' : List AuthorityCommitIntent} (effect : Effect db op db' births' log')
    (h : Kept db births log) : Kept db' (births ++ births') (log ++ log') := by
  cases effect with
  | nothing => simpa using h
  | add new inserted => simpa using h.add inserted
  | prepare prepares => simpa using h.prepare prepares
  | move allowed current early => simpa using h.move allowed current early
  | commit current commits found prior => simpa using h.commit current commits found prior
  | quarantine => simpa using h.quarantine

theorem kept_exec (h : Kept store.database births log) (ops : List (Operation D)) :
    Kept (exec step store ops).database (births ++ added store ops) (log ++ committed store ops) := by
  induction ops generalizing store births log with
  | nil => simpa [added, committed] using h
  | cons op ops ih =>
    rw [exec_cons, added, committed, ← List.append_assoc, ← List.append_assoc]
    exact ih ((step_effect store op).kept h)

/-! ## The path of an intent -/

/-- An intent after a call: as before, or in a state that the one before allows. -/
def Moves (i j : AuthorityCommitIntent) : Prop :=
  j = i ∨ j.state ∈ allowedCommitTransitions i.state ∧ j = { i with state := j.state }

theorem moves_moved (allowed : i.state ∈ allowedCommitTransitions expected)
    (current : { i with state := expected } ∈ db.intents) :
    Table.Evolves db.intents (db.moved i) Moves (·.state = .prepared) := by
  refine Table.Evolves.update (fun j _ _ => .inl rfl) fun j mem its => .inr ?_
  have old : j = { i with state := expected } :=
    Table.eq_of_key mem current (of_decide_eq_true its)
  rw [old]
  exact ⟨allowed, rfl⟩

theorem Effect.moves {op : Operation D} {births : List WorkspaceAuthority}
    {log : List AuthorityCommitIntent} (effect : Effect db op db' births log) :
    Table.Evolves db.intents db'.intents Moves (·.state = .prepared) := by
  cases effect with
  | prepare prepares =>
    obtain ⟨intents, inserted, rfl⟩ := prepares.stored
    exact .insert (Table.insert?_eq_some.mp inserted).2 (fun j _ => .inl rfl) prepares.prepared
  | move allowed current early => exact moves_moved allowed current
  | commit current commits found prior =>
    refine moves_moved ?_ current
    rw [commits]
    decide
  | _ => exact .refl fun j _ => .inl rfl

/-! ## Quarantined authorities -/

/-- A commit for a quarantined authority that the checks of the repository let through: an intent
that can be prepared, or one that can be committed. -/
def LetThrough (store : Store D) : Operation D → Prop
  | .prepareCommit i => ∃ a, store.database.getWorkspaceAuthority i.workspaceId = some a ∧
      a.state = .restoreQuarantine ∧ AtPrior a i ∧ i.state = .prepared ∧
      ¬ store.database.InFlight i.workspaceId ∧ i.nextGeneration = i.priorGeneration + 1 ∧
      ∀ j ∈ store.database.intents, j.id ≠ i.id
  | .advanceCommit i expected => ∃ a, store.database.getWorkspaceAuthority i.workspaceId = some a ∧
      a.state = .restoreQuarantine ∧ AtPrior a i ∧ i.state = .dbCommitted ∧
      expected = .anchorReserved ∧ { i with state := .anchorReserved } ∈ store.database.intents
  | _ => False

/-- No commit for a quarantined authority is let through. -/
def RespectsQuarantine (store : Store D) (op : Operation D) : Prop := ¬ LetThrough store op

/-- The quarantined authority `a` stands where it stood and has no intents but those of `known`. -/
structure Stands (a : WorkspaceAuthority) (known : Table AuthorityCommitIntent)
    (db : Database) : Prop where
  authority : ∃ b ∈ db.authorities, b.workspaceId = a.workspaceId ∧ b.state = .restoreQuarantine ∧
    b.authorityGeneration = a.authorityGeneration ∧ b.authorityStateRoot = a.authorityStateRoot
  intents : ∀ i ∈ db.intents, i.workspaceId = a.workspaceId → ∃ j ∈ known, j.id = i.id

theorem stands_step {a : WorkspaceAuthority} {known : Table AuthorityCommitIntent}
    {op : Operation D} (h : Stands a known store.database) (respects : RespectsQuarantine store op) :
    Stands a known (step store op).database := by
  obtain ⟨b, mem, its, state, at_⟩ := h.authority
  have found : ∀ i : AuthorityCommitIntent, i.workspaceId = a.workspaceId →
      store.database.getWorkspaceAuthority i.workspaceId = some b := fun i here =>
    Projects.Database.getWorkspaceAuthority_eq_some.mpr ⟨mem, its.trans here.symm⟩
  have effect := step_effect store op
  generalize adds store op = births at effect
  generalize commits store op = log at effect
  generalize (step store op).database = db' at effect
  cases effect with
  | nothing => exact h
  | add new inserted =>
    have appended := (Table.insert?_eq_some.mp inserted).2
    exact ⟨⟨b, Table.mem_append_of_mem appended mem, its, state, at_⟩, h.intents⟩
  | @prepare i _ prepares =>
    obtain ⟨intents, inserted, rfl⟩ := prepares.stored
    obtain ⟨free, appended⟩ := Table.insert?_eq_some.mp inserted
    refine ⟨⟨b, mem, its, state, at_⟩, fun j inside here => ?_⟩
    rw [Table.mem_iff, appended, List.mem_append, List.mem_singleton] at inside
    obtain inside | rfl := inside
    · exact h.intents j inside here
    · obtain ⟨c, current, prior⟩ := prepares.prior
      obtain rfl : b = c := Option.some_inj.mp ((found j here).symm.trans current)
      refine absurd ⟨b, current, state, prior, prepares.prepared, prepares.free, prepares.next, ?_⟩
        respects
      exact fun k there same => free (List.mem_map.mpr ⟨k, there, same⟩)
  | @move i expected allowed current early =>
    refine ⟨⟨b, mem, its, state, at_⟩, fun j inside here => ?_⟩
    obtain ⟨inside, -⟩ | rfl := (mem_moved current).mp inside
    · exact h.intents j inside here
    · have known := h.intents _ current here
      exact known
  | @commit i c current commits present prior =>
    by_cases here : i.workspaceId = a.workspaceId
    · obtain rfl : b = c := Option.some_inj.mp ((found i here).symm.trans present)
      exact absurd ⟨b, present, state, prior, commits, rfl, current⟩ respects
    · refine ⟨⟨b, ?_, its, state, at_⟩, fun j inside there => ?_⟩
      · have image := Table.mem_update_of_mem (p := (·.workspaceId = i.workspaceId))
          (f := advanced i) mem
        rwa [if_neg (by simpa [its] using fun same => here (Eq.symm same))] at image
      · obtain ⟨inside, -⟩ | rfl := (mem_moved current).mp inside
        · exact h.intents j inside there
        · exact absurd there here
  | @quarantine ws generation root =>
    refine ⟨⟨_, Table.mem_update_of_mem mem, ?_⟩, h.intents⟩
    by_cases it : decide (b.workspaceId = ws) = true
    · rw [if_pos it]
      exact ⟨its, rfl, at_⟩
    · rw [if_neg it]
      exact ⟨its, state, at_⟩

/-- The authority `a` has moved on, or an intent has been prepared that is not one of `known`. -/
def Beyond (a : WorkspaceAuthority) (known : Table AuthorityCommitIntent) (db : Database) : Prop :=
  (∃ b ∈ db.authorities, b.workspaceId = a.workspaceId ∧
    a.authorityGeneration < b.authorityGeneration) ∨
  ∃ i ∈ db.intents, i.workspaceId = a.workspaceId ∧ ∀ j ∈ known, j.id ≠ i.id

variable {a : WorkspaceAuthority} {known : Table AuthorityCommitIntent} {op : Operation D}

theorem Stands.not_beyond (h : Stands a known db) : ¬ Beyond a known db := by
  rintro (⟨c, mem, its, later⟩ | ⟨i, mem, its, new⟩)
  · obtain ⟨b, mem', its', -, generation, -⟩ := h.authority
    obtain rfl : b = c := Table.eq_of_key mem' mem (its'.trans its.symm)
    omega
  · obtain ⟨j, inside, same⟩ := h.intents i mem its
    exact new j inside same

/-- What is let through takes the authority beyond where it stood. -/
theorem LetThrough.beyond (through : LetThrough store op) (h : Kept store.database births log) :
    ∃ a ∈ store.database.authorities, a.state = .restoreQuarantine ∧
      Beyond a store.database.intents (step store op).database := by
  cases op with
  | prepareCommit i =>
    obtain ⟨a, found, state, prior, prepared, free, next, new⟩ := through
    obtain ⟨mem, here⟩ := Projects.Database.getWorkspaceAuthority_eq_some.mp found
    obtain ⟨intents, inserted⟩ := Table.exists_insert? new
    have ok := Projects.Database.prepareCommit_eq_ok.mpr
      ⟨prepared, ⟨a, found, prior⟩, free, next, ⟨intents, inserted, rfl⟩⟩
    refine ⟨a, mem, state, .inr ⟨i, ?_, here.symm, new⟩⟩
    have performed : (Operation.prepareCommit i : Operation D).perform store = _ :=
      bind_eq_ok.mpr ⟨_, ok, rfl⟩
    rw [step, performed]
    exact Table.mem_of_append (Table.insert?_eq_some.mp inserted).2
  | advanceCommit i expected =>
    obtain ⟨a, found, state, prior, commits, rfl, current⟩ := through
    obtain ⟨mem, here⟩ := Projects.Database.getWorkspaceAuthority_eq_some.mp found
    have ok := Projects.Database.advanceCommit_eq_ok.mpr
      ⟨by rw [commits]; decide, current, .inr ⟨commits, ⟨a, found, prior⟩, rfl⟩⟩
    have performed : (Operation.advanceCommit i .anchorReserved : Operation D).perform store = _ :=
      bind_eq_ok.mpr ⟨_, ok, rfl⟩
    have image := Table.mem_update_of_mem (p := (·.workspaceId = i.workspaceId))
      (f := advanced i) mem
    rw [if_pos (by simpa using here)] at image
    refine ⟨a, mem, state, .inl ⟨advanced i a, ?_, rfl, ?_⟩⟩
    · rw [step, performed]
      exact image
    · have next := h.next current
      have generation := prior.2.2.1
      show a.authorityGeneration < i.nextGeneration
      omega
  | _ => exact absurd through id

/-- The generation of an authority never falls. -/
theorem Effect.rises {births' : List WorkspaceAuthority} {log' : List AuthorityCommitIntent}
    (effect : Effect db op db' births' log') (h : Kept db births log) {a : WorkspaceAuthority}
    (mem : a ∈ db.authorities) : ∃ b ∈ db'.authorities, b.workspaceId = a.workspaceId ∧
      a.authorityGeneration ≤ b.authorityGeneration := by
  cases effect with
  | add new inserted =>
    exact ⟨a, Table.mem_append_of_mem (Table.insert?_eq_some.mp inserted).2 mem, rfl, le_rfl⟩
  | prepare prepares =>
    obtain ⟨intents, -, rfl⟩ := prepares.stored
    exact ⟨a, mem, rfl, le_rfl⟩
  | @commit i c current commits present prior =>
    refine ⟨_, Table.mem_update_of_mem mem, ?_⟩
    by_cases its : decide (a.workspaceId = i.workspaceId) = true
    · rw [if_pos its]
      obtain ⟨there, here⟩ := Projects.Database.getWorkspaceAuthority_eq_some.mp present
      obtain rfl : a = c := Table.eq_of_key mem there ((of_decide_eq_true its).trans here.symm)
      have next := h.next current
      have generation := prior.2.2.1
      refine ⟨rfl, ?_⟩
      show a.authorityGeneration ≤ i.nextGeneration
      omega
    · rw [if_neg its]
      exact ⟨rfl, le_rfl⟩
  | @quarantine ws generation root =>
    refine ⟨_, Table.mem_update_of_mem mem, ?_⟩
    by_cases its : decide (a.workspaceId = ws) = true
    · rw [if_pos its]
      exact ⟨rfl, le_rfl⟩
    · rw [if_neg its]
      exact ⟨rfl, le_rfl⟩
  | _ => exact ⟨a, mem, rfl, le_rfl⟩

/-- There is no way back. -/
theorem beyond_step (h : Beyond a known store.database) (kept : Kept store.database births log)
    (op : Operation D) : Beyond a known (step store op).database := by
  have effect := step_effect store op
  obtain ⟨b, mem, its, later⟩ | ⟨i, mem, its, new⟩ := h
  · obtain ⟨c, inside, same, rises⟩ := effect.rises kept mem
    exact .inl ⟨c, inside, same.trans its, Nat.lt_of_lt_of_le later rises⟩
  · obtain ⟨j, inside, same | ⟨-, same⟩⟩ := effect.moves.forth i mem
    · exact .inr ⟨j, inside, same ▸ its, same ▸ new⟩
    · refine .inr ⟨j, inside, ?_, ?_⟩
      · rw [same]
        exact its
      · rw [same]
        exact new

theorem beyond_exec (h : Beyond a known store.database) (kept : Kept store.database births log)
    (ops : List (Operation D)) : Beyond a known (exec step store ops).database := by
  have both : Beyond a known (exec step store ops).database ∧
      ∃ births log, Kept (exec step store ops).database births log := by
    refine preserves (I := fun s : Store D => Beyond a known s.database ∧
      ∃ births log, Kept s.database births log) ⟨h, births, log, kept⟩ (fun s op holds => ?_) ops
    obtain ⟨beyond, births, log, kept⟩ := holds
    exact ⟨beyond_step beyond kept op, _, _, (step_effect s op).kept kept⟩
  exact both.1

/-! ## Runs -/

/-- What holds of the authorities and the intents after a run. -/
structure CommitSafety (start : Store D) (ops : List (Operation D)) : Prop where
  /-- A workspace has one intent in flight. -/
  single : ∀ i ∈ (exec step start ops).database.intents,
    ∀ j ∈ (exec step start ops).database.intents, i.workspaceId = j.workspaceId →
      i.state.ended = false → j.state.ended = false → i = j
  /-- An intent starts as prepared and moves along the allowed transitions. -/
  path : ∀ before op after, ops = before ++ op :: after →
    Table.Evolves (exec step start before).database.intents
      (exec step start (before ++ [op])).database.intents Moves (·.state = .prepared)
  /-- An authority stands where the chain of the commits leads since it has been added. -/
  standing : ∀ a ∈ (exec step start ops).database.authorities, ∃ birth ∈ added start ops,
    Standing birth (ofWorkspace a.workspaceId (committed start ops)) a
  /-- The commits are those of the intents that have passed the commit, once each. -/
  logged : ∀ i ∈ (exec step start ops).database.intents,
    i.state = .dbCommitted ∨ i.state = .anchorFinalized →
      { i with state := .dbCommitted } ∈ committed start ops
  stored : ∀ i ∈ committed start ops, ∃ s, Passed s ∧
    { i with state := s } ∈ (exec step start ops).database.intents
  once : ((committed start ops).map (·.id)).Nodup
  /-- A quarantined authority stands still. -/
  frozen : ∀ before after, ops = before ++ after →
    ∀ a ∈ (exec step start before).database.authorities, a.state = .restoreQuarantine →
      Stands a (exec step start before).database.intents (exec step start ops).database

theorem kept_of_empty {start : Store D} (authorities : start.database.authorities = ∅)
    (intents : start.database.intents = ∅) (ops : List (Operation D)) :
    Kept (exec step start ops).database (added start ops) (committed start ops) := by
  suffices bare : Kept start.database [] [] from kept_exec bare ops
  have no_intent : ∀ i, i ∉ start.database.intents := fun i mem => by
    rw [intents] at mem
    exact Table.not_mem_empty mem
  constructor
  · exact fun i mem => absurd mem (no_intent i)
  · exact fun i mem => absurd mem (no_intent i)
  · intro a mem
    rw [authorities] at mem
    exact absurd mem Table.not_mem_empty
  · exact fun i mem => absurd mem List.not_mem_nil
  · exact fun i mem => absurd mem (no_intent i)
  · exact fun i mem => absurd mem List.not_mem_nil
  · exact List.nodup_nil

/-- The commit protocol is safe in exactly the runs that respect the quarantine. -/
theorem commit_safety_iff {start : Store D} (authorities : start.database.authorities = ∅)
    (intents : start.database.intents = ∅) (ops : List (Operation D)) :
    CommitSafety start ops ↔ Along step RespectsQuarantine start ops := by
  constructor
  · intro safe
    refine along_of_at fun before op after split through => ?_
    have kept := kept_of_empty authorities intents before
    obtain ⟨a, mem, state, beyond⟩ := through.beyond kept
    have later := beyond_exec beyond ((step_effect _ op).kept kept) after
    refine (safe.frozen before (op :: after) split a mem state).not_beyond ?_
    rw [split, exec_append, exec_cons]
    exact later
  · intro respects
    have kept := kept_of_empty authorities intents ops
    refine ⟨kept.single, ?_, kept.standing, kept.logged, kept.stored, kept.once, ?_⟩
    · intro before op after _
      rw [exec_append]
      exact (step_effect _ op).moves
    · rintro before after rfl a mem state
      rw [exec_append]
      refine (along_append.mp respects).2.preserves
        (I := fun s : Store D => Stands a (exec step start before).database.intents s.database)
        ?_ fun s op => stands_step
      exact ⟨⟨a, mem, rfl, state, rfl, rfl⟩, fun i mem _ => ⟨i, mem, rfl⟩⟩

/-! ## A commit for a quarantined authority -/

namespace Quarantine

def digests : Digests where
  sha256 := id
  uuid5 _ := Uuid.ofNat 0

def workspace : Uuid := Uuid.ofNat 1

def first : String := "1111111111111111111111111111111111111111111111111111111111111111"

def second : String := "2222222222222222222222222222222222222222222222222222222222222222"

def lease : DeploymentInstanceLease digests where
  id := Uuid.ofNat 6
  workspaceId := workspace
  authorityEpoch := 1
  deploymentInstanceId := Uuid.ofNat 3
  lockName := "corvus-workspace-" ++ digests.sha256 (lockMaterial workspace)
  fencingToken := 1
  acquiredAt := 0
  releasedAt := none
  named := rfl
  token_pos := Nat.one_pos

def authority : WorkspaceAuthority where
  id := Uuid.ofNat 7
  workspaceId := workspace
  deploymentProfileId := Uuid.ofNat 2
  deploymentInstanceId := Uuid.ofNat 3
  epoch := 1
  authorityGeneration := 0
  authorityStateRoot := first
  authorityEpochCredentialId := Uuid.ofNat 4
  trustAnchorId := Uuid.ofNat 5
  activeLeaseId := some (Uuid.ofNat 6)
  state := .active
  previousEpochDigest := none
  activatedAt := 0
  closedAt := none
  version := 1

def intent (state : AuthorityCommitState) : AuthorityCommitIntent where
  id := Uuid.ofNat 8
  workspaceId := workspace
  epoch := 1
  deploymentInstanceId := Uuid.ofNat 3
  priorGeneration := 0
  nextGeneration := 1
  priorStateRoot := first
  mutationDigest := second
  proposedStateRoot := second
  state := state
  createdAt := 0

/-- An authority is added, an intent is prepared for it and it is quarantined. -/
def calls : List (Operation digests) := [
  .addDeploymentProfile ⟨Uuid.ofNat 2⟩,
  .addDeploymentInstance ⟨Uuid.ofNat 3, Uuid.ofNat 2, first, .active⟩,
  .addEpochCredential ⟨Uuid.ofNat 4, workspace, 1, Uuid.ofNat 3, first, .active⟩,
  .addTrustAnchor ⟨Uuid.ofNat 5, workspace, .active⟩,
  .acquireLease lease,
  .addWorkspaceAuthority authority,
  .prepareCommit (intent .prepared),
  .quarantineWorkspaceAuthority workspace 0 first]

/-- The intent is committed all the same. -/
def rest : List (Operation digests) := [
  .advanceCommit (intent .anchorReserved) .prepared,
  .advanceCommit (intent .dbCommitted) .anchorReserved]

theorem quarantined_rows : (exec step Store.bare calls).database.authorities.rows =
    [{ authority with state := .restoreQuarantine, version := 2 }] := by
  rfl

theorem committed_rows : (exec step Store.bare (calls ++ rest)).database.authorities.rows =
    [{ authority with
        authorityGeneration := 1
        authorityStateRoot := second
        state := .restoreQuarantine
        version := 3 }] := by
  rfl

/-- The generation of a quarantined authority changes. -/
theorem quarantined_authority_moves : ¬ CommitSafety Store.bare (calls ++ rest) := by
  intro safe
  have mem : { authority with state := .restoreQuarantine, version := 2 } ∈
      (exec step Store.bare calls).database.authorities := by
    rw [Table.mem_iff, quarantined_rows]
    exact List.mem_singleton_self _
  have stands := safe.frozen calls rest rfl _ mem rfl
  obtain ⟨b, inside, -, -, generation, -⟩ := stands.authority
  rw [Table.mem_iff, committed_rows, List.mem_singleton] at inside
  rw [inside] at generation
  exact absurd generation (by decide)

/-- Before the commit nothing has gone wrong. -/
theorem calls_respect : Along step RespectsQuarantine Store.bare calls := by
  refine ⟨id, id, id, id, id, id, ?_, id, trivial⟩
  rintro ⟨a, found, state, -⟩
  have stored : (exec step Store.bare (calls.take 6)).database.getWorkspaceAuthority workspace =
      some authority := by rfl
  obtain rfl : authority = a := Option.some_inj.mp (stored.symm.trans found)
  exact absurd state (by decide)

theorem calls_safe : CommitSafety Store.bare calls :=
  (commit_safety_iff rfl rfl calls).mpr calls_respect

end Quarantine

end Corvus.Deployment
