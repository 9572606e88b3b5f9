import Corvus.Library.Desk
import Corvus.Library.Procedure
import Mathlib.Data.List.Pairwise

/-!
# Transactions that read what is committed

Several sessions put statements to one database, each in its turn. A session sees the rows that
are committed and its own. An insertion that breaks a constraint with rows it sees is refused,
and one that clashes with a row of another session that is not committed yet has to wait. A
commit makes the rows of its session visible to all; rows are never changed or deleted.

Any statement may fail, which the session is told.
-/

namespace Corvus

/-- The constraints of the tables: which rows cannot be there together, and which rows a new one
can be added to. -/
structure Schema (Row : Type) where
  Clash : Row → Row → Prop
  Supported : List Row → Row → Prop
  decClash : DecidableRel Clash
  decSupported : ∀ rows row, Decidable (Supported rows row)
  clash_symm : ∀ {row row'}, Clash row row' → Clash row' row
  supported_mono : ∀ {rows rows' row}, rows ⊆ rows' → Supported rows row → Supported rows' row

namespace ReadCommitted

attribute [instance] Schema.decClash Schema.decSupported

/-- Rows with the sessions that have inserted them. -/
structure Database (Row : Type) where
  committed : List (Nat × Row)
  pending : List (Nat × Row)

inductive Inserted where
  | done
  | refused
  | failed

inductive Statement (V Row : Type) where
  | select (v : V)
  | insert (row : Row)
  | commit
  | rollback

/-- A selection is answered with `none` when it fails, and a commit with `false`. -/
abbrev Statement.Answer {V Row : Type} (A : V → Type) : Statement V Row → Type
  | .select v => Option (A v)
  | .insert _ => Inserted
  | .commit => Bool
  | .rollback => Unit

variable {V Row ρ α : Type} {A : V → Type}

namespace Database

/-- The rows of a session that are not committed. -/
def own (db : Database Row) (n : Nat) : List (Nat × Row) := db.pending.filter (·.1 = n)

def others (db : Database Row) (n : Nat) : List (Nat × Row) := db.pending.filter (·.1 ≠ n)

def visible (db : Database Row) (n : Nat) : List Row := (db.committed ++ db.own n).map Prod.snd

/-- What happens elsewhere, as a session sees it. -/
def Elsewhere (n : Nat) (db db' : Database Row) : Prop :=
  (∃ rows, db'.committed = db.committed ++ rows ∧ ∀ r ∈ rows, r.1 ≠ n) ∧ db'.own n = db.own n

end Database

open Database Dialogue

/-- An insertion that has to wait for another session. -/
def Waits (schema : Schema Row) (n : Nat) (db : Database Row) : Statement V Row → Prop
  | .insert row => ∃ r ∈ db.others n, schema.Clash r.2 row
  | _ => False

instance (schema : Schema Row) (n : Nat) (db : Database Row) (q : Statement V Row) :
    Decidable (Waits schema n db q) := by
  cases q with
  | insert => exact inferInstanceAs (Decidable (∃ r ∈ db.others n, _))
  | _ => exact instDecidableFalse

/-- The answer to a statement of a session. -/
def answer (schema : Schema Row) (evaluate : (v : V) → List Row → A v) (n : Nat) :
    Service (Database Row) Bool (Statement V Row) (Statement.Answer A)
  | fails, .select v, db => (if fails then none else some (evaluate v (db.visible n)), db)
  | fails, .insert row, db =>
      if fails then (.failed, db)
      else if (∃ r ∈ db.visible n, schema.Clash r row) ∨ ¬ schema.Supported (db.visible n) row then
        (.refused, db)
      else (.done, { db with pending := db.pending ++ [(n, row)] })
  | fails, .commit, db =>
      if fails then (false, db)
      else (true, ⟨db.committed ++ db.own n, db.others n⟩)
  | _, .rollback, db => ((), { db with pending := db.others n })

/-- An exchange, with the number of rows that were committed then. -/
structure Stamped (V Row : Type) (A : V → Type) where
  exchange : Exchange (Statement V Row) (Statement.Answer A)
  committed : Nat

abbrev Log (V Row : Type) (A : V → Type) := List (Stamped V Row A)

/-- A database that keeps the log of one session. -/
def logged (schema : Schema Row) (evaluate : (v : V) → List Row → A v) (n : Nat) :
    Service (Database Row × Log V Row A) Bool (Statement V Row) (Statement.Answer A) :=
  fun fails q s =>
    ((answer schema evaluate n fails q s.1).1, (answer schema evaluate n fails q s.1).2,
      s.2 ++ [⟨⟨q, (answer schema evaluate n fails q s.1).1⟩, s.1.committed.length⟩])

/-- An insertion is done, or it changes nothing. -/
theorem logged_insert {schema : Schema Row} {evaluate : (v : V) → List Row → A v} {n : Nat}
    (fails : Bool) (row : Row) (db : Database Row) (log : Log V Row A) :
    ∃ r db', logged schema evaluate n fails (.insert row) (db, log) =
        (r, db', log ++ [⟨⟨.insert row, r⟩, db.committed.length⟩]) ∧
      (r ≠ .done ∧ db' = db ∨
        r = .done ∧ db' = { db with pending := db.pending ++ [(n, row)] }) := by
  refine ⟨_, _, rfl, ?_⟩
  rw [answer]
  split
  · exact .inl ⟨Inserted.noConfusion, rfl⟩
  split
  · exact .inl ⟨Inserted.noConfusion, rfl⟩
  · exact .inr ⟨rfl, rfl⟩

/-! ## Several sessions -/

structure Session (ρ V Row : Type) (A : V → Type) (α : Type) where
  request : ρ
  rest : Dialogue (Statement V Row) (Statement.Answer A) α
  log : Log V Row A

structure Server (ρ V Row : Type) (A : V → Type) (α : Type) where
  db : Database Row
  sessions : List (Session ρ V Row A α)

def Server.empty : Server ρ V Row A α := ⟨⟨[], []⟩, []⟩

/-- A session is opened for a request, or goes on with a statement. -/
inductive Move (ρ : Type) where
  | start (request : ρ)
  | go (session : Nat) (fails : Bool)

/-- A statement that has to wait changes nothing, unless it fails. -/
def Server.step (schema : Schema Row) (evaluate : (v : V) → List Row → A v)
    (program : ρ → Dialogue (Statement V Row) (Statement.Answer A) α)
    (h : Server ρ V Row A α) : Move ρ → Server ρ V Row A α
  | .start request => { h with sessions := h.sessions ++ [⟨request, program request, []⟩] }
  | .go n fails =>
      match h.sessions[n]? with
      | some ⟨request, .ask q k, log⟩ =>
          if fails = false ∧ Waits schema n h.db q then h
          else
            let (r, db, log) := logged schema evaluate n fails q (h.db, log)
            { db, sessions := h.sessions.set n ⟨request, k r, log⟩ }
      | _ => h

/-! ## What a session relies on -/

section Rules

variable {schema : Schema Row} {evaluate : (v : V) → List Row → A v} {n i : Nat}
  {db db' db'' : Database Row} {q : Statement V Row} {fails : Bool}

theorem Database.Elsewhere.refl (n : Nat) (db : Database Row) : Elsewhere n db db :=
  ⟨⟨[], (List.append_nil _).symm, fun _ mem => absurd mem List.not_mem_nil⟩, rfl⟩

theorem Database.Elsewhere.trans (first : Elsewhere n db db') (second : Elsewhere n db' db'') :
    Elsewhere n db db'' := by
  obtain ⟨⟨rows, grown, foreign⟩, same⟩ := first
  obtain ⟨⟨rows', grown', foreign'⟩, same'⟩ := second
  refine ⟨⟨rows ++ rows', by rw [grown', grown, List.append_assoc], ?_⟩, same'.trans same⟩
  exact List.forall_mem_append.mpr ⟨foreign, foreign'⟩

/-- What a session sees stays there for it. -/
theorem Database.Elsewhere.visible (elsewhere : Elsewhere n db db') {row : Row}
    (mem : row ∈ db.visible n) : row ∈ db'.visible n := by
  obtain ⟨⟨rows, grown, -⟩, same⟩ := elsewhere
  obtain ⟨r, there, rfl⟩ := List.mem_map.mp mem
  refine List.mem_map_of_mem ?_
  rw [grown, same]
  obtain committed | own := List.mem_append.mp there
  · exact List.mem_append_left _ (List.mem_append_left _ committed)
  · exact List.mem_append_right _ own

theorem Database.mem_own {r : Nat × Row} : r ∈ db.own n ↔ r ∈ db.pending ∧ r.1 = n := by
  rw [own, List.mem_filter, decide_eq_true_iff]

theorem Database.mem_others {r : Nat × Row} : r ∈ db.others n ↔ r ∈ db.pending ∧ r.1 ≠ n := by
  rw [others, List.mem_filter, decide_eq_true_iff]

/-- The rows of one session are left alone when those of another one are taken out. -/
theorem Database.own_others {rows : List (Nat × Row)} (other : i ≠ n) :
    (⟨rows, db.others n⟩ : Database Row).own i = db.own i := by
  show (db.pending.filter _).filter _ = db.pending.filter _
  rw [List.filter_filter]
  refine List.filter_congr fun r _ => ?_
  by_cases own : r.1 = i
  · simp [own, other]
  · simp [own]

/-- A statement of one session happens elsewhere for the others. -/
theorem elsewhere_answer (other : i ≠ n) :
    Elsewhere i db (answer (A := A) schema evaluate n fails q db).2 := by
  cases q with
  | select v => exact .refl i db
  | insert row =>
    rw [answer]
    split
    · exact .refl i db
    split
    · exact .refl i db
    · refine ⟨⟨[], (List.append_nil _).symm, fun _ mem => absurd mem List.not_mem_nil⟩, ?_⟩
      show (db.pending ++ [(n, row)]).filter _ = db.pending.filter _
      rw [List.filter_append, List.filter_singleton, decide_eq_false (Ne.symm other)]
      exact List.append_nil _
  | commit =>
    rw [answer]
    split
    · exact .refl i db
    · refine ⟨⟨db.own n, rfl, fun r mem => ?_⟩, own_others other⟩
      rw [(mem_own.mp mem).2]
      exact Ne.symm other
  | rollback =>
    refine ⟨⟨[], (List.append_nil _).symm, fun _ mem => absurd mem List.not_mem_nil⟩, ?_⟩
    exact own_others other

/-- A session and what others have committed meanwhile. What it commits itself has to be fit. -/
def Terms (n : Nat) (J : Database Row × Log V Row A → Prop) :
    Dialogue.Terms (Database Row × Log V Row A) Bool (Statement V Row) where
  draw _ := True
  rely _ s t := t.2 = s.2 ∧ Elsewhere n s.1 t.1
  allowed _ _ := True
  step q s _ :=
    match q with
    | .commit => J s
    | _ => True

/-- The rows keep to the constraints. -/
structure Constrained (schema : Schema Row) (db : Database Row) : Prop where
  unique : (db.committed ++ db.pending).Pairwise fun r q => ¬ schema.Clash r.2 q.2
  supported : ∀ r ∈ db.committed, schema.Supported (db.committed.map Prod.snd) r.2
  pending : ∀ r ∈ db.pending, schema.Supported (db.visible r.1) r.2

theorem Constrained.empty : Constrained schema (⟨[], []⟩ : Database Row) where
  unique := .nil
  supported _ mem := absurd mem List.not_mem_nil
  pending _ mem := absurd mem List.not_mem_nil

theorem pending_perm (db : Database Row) (n : Nat) : (db.own n ++ db.others n).Perm db.pending := by
  have split := List.filter_append_perm (fun r : Nat × Row => decide (r.1 = n)) db.pending
  have same : db.others n = db.pending.filter fun r => !decide (r.1 = n) :=
    List.filter_congr fun r _ => by simp
  rw [same]
  exact split

namespace Constrained

variable (constrained : Constrained schema db)

include constrained

/-- The rows of the other sessions are still supported after a statement. -/
theorem others {r : Nat × Row} (mem : r ∈ db.others n) (elsewhere : Elsewhere r.1 db db') :
    schema.Supported (db'.visible r.1) r.2 :=
  schema.supported_mono (fun _ => elsewhere.visible) (constrained.pending r (mem_others.mp mem).1)

theorem insert {row : Row} (free : ¬ Waits (V := V) schema n db (.insert row))
    (accepted : ¬ ((∃ r ∈ db.visible n, schema.Clash r row) ∨
      ¬ schema.Supported (db.visible n) row)) :
    Constrained schema { db with pending := db.pending ++ [(n, row)] } := by
  obtain ⟨apart, supported⟩ := not_or.mp accepted
  have grown : ∀ i, db.visible i ⊆
      ({ db with pending := db.pending ++ [(n, row)] } : Database Row).visible i := by
    intro i
    refine List.map_subset _ (List.append_subset.mpr ⟨List.subset_append_left _ _, ?_⟩)
    refine List.Subset.trans ?_ (List.subset_append_right _ _)
    exact List.filter_subset _ (List.subset_append_left _ _)
  constructor
  · show (db.committed ++ (db.pending ++ [(n, row)])).Pairwise _
    rw [← List.append_assoc, List.pairwise_append]
    refine ⟨constrained.unique, List.pairwise_singleton _ _, fun r mem q there => ?_⟩
    rw [List.mem_singleton.mp there]
    intro clash
    have foreign : r ∉ db.others n := fun other => free ⟨r, other, clash⟩
    refine apart ⟨r.2, List.mem_map_of_mem ?_, clash⟩
    obtain committed | pending := List.mem_append.mp mem
    · exact List.mem_append_left _ committed
    · refine List.mem_append_right _ (mem_own.mpr ⟨pending, ?_⟩)
      by_contra other
      exact foreign (mem_others.mpr ⟨pending, other⟩)
  · exact constrained.supported
  · refine List.forall_mem_append.mpr ⟨fun r mem => ?_, List.forall_mem_singleton.mpr ?_⟩
    · exact schema.supported_mono (grown r.1) (constrained.pending r mem)
    · exact schema.supported_mono (grown n) (not_not.mp supported)

theorem commit : Constrained schema ⟨db.committed ++ db.own n, db.others n⟩ := by
  constructor
  · show (db.committed ++ db.own n ++ db.others n).Pairwise _
    rw [List.append_assoc]
    have apart : ∀ r q : Nat × Row, ¬ schema.Clash r.2 q.2 → ¬ schema.Clash q.2 r.2 :=
      fun r q apart clash => apart (schema.clash_symm clash)
    refine (List.Perm.pairwise_iff (fun {r q} => apart r q) ?_).mpr constrained.unique
    exact (pending_perm db n).append_left _
  · refine List.forall_mem_append.mpr ⟨fun r mem => ?_, fun r mem => ?_⟩
    · refine schema.supported_mono ?_ (constrained.supported r mem)
      exact List.map_subset _ (List.subset_append_left _ _)
    · obtain ⟨pending, rfl⟩ := mem_own.mp mem
      exact constrained.pending r pending
  · intro r mem
    have elsewhere : Elsewhere r.1 db ⟨db.committed ++ db.own n, db.others n⟩ := by
      refine ⟨⟨db.own n, rfl, fun q own => ?_⟩, own_others (mem_others.mp mem).2⟩
      rw [(mem_own.mp own).2]
      exact Ne.symm (mem_others.mp mem).2
    exact constrained.others mem elsewhere

theorem rollback : Constrained schema { db with pending := db.others n } where
  unique := constrained.unique.sublist (List.filter_sublist.append_left db.committed)
  supported := constrained.supported
  pending r mem := by
    refine constrained.others mem ⟨⟨[], (List.append_nil _).symm, ?_⟩, ?_⟩
    · exact fun _ none => absurd none List.not_mem_nil
    · exact own_others (mem_others.mp mem).2

/-- Rows that clash are one. -/
theorem eq_of_clash {r q : Nat × Row}
    (mem : r ∈ db.committed ++ db.pending) (mem' : q ∈ db.committed ++ db.pending)
    (clash : schema.Clash r.2 q.2) : r = q := by
  have symm : Std.Symm fun r q : Nat × Row => ¬ schema.Clash r.2 q.2 :=
    ⟨fun _ _ apart clash => apart (schema.clash_symm clash)⟩
  by_contra other
  exact constrained.unique.forall mem mem' other clash

/-- The constraints hold after each statement that does not have to wait. -/
theorem answer (goes : ¬ (fails = false ∧ Waits schema n db q)) :
    Constrained schema (answer (A := A) schema evaluate n fails q db).2 := by
  cases q with
  | select v => exact constrained
  | insert row =>
    rw [ReadCommitted.answer]
    split
    · exact constrained
    split
    · exact constrained
    · next lasts accepted =>
      refine constrained.insert (V := V) (fun waits => ?_) accepted
      exact goes ⟨Bool.eq_false_iff.mpr lasts, waits⟩
  | commit =>
    rw [ReadCommitted.answer]
    split
    · exact constrained
    · exact constrained.commit
  | rollback => exact constrained.rollback

end Constrained

/-- A statement adds rows of its own session only. -/
theorem origin_answer {r : Nat × Row}
    (mem : r ∈ (answer (A := A) schema evaluate n fails q db).2.committed ++
      (answer (A := A) schema evaluate n fails q db).2.pending) :
    r ∈ db.committed ++ db.pending ∨ r.1 = n := by
  cases q with
  | select v => exact .inl mem
  | insert row =>
    rw [answer] at mem
    split at mem
    · exact .inl mem
    split at mem
    · exact .inl mem
    · rw [← List.append_assoc, List.mem_append, List.mem_singleton] at mem
      exact mem.imp_right fun same => by rw [same]
  | commit =>
    rw [answer] at mem
    split at mem
    · exact .inl mem
    · left
      rw [List.append_assoc, List.mem_append] at mem
      exact List.mem_append.mpr (mem.imp_right (pending_perm db n).mem_iff.mp)
  | rollback =>
    left
    obtain committed | other := List.mem_append.mp mem
    · exact List.mem_append_left _ committed
    · exact List.mem_append_right _ (mem_others.mp other).1

/-! ## Rules for a server -/

variable {program : ρ → Dialogue (Statement V Row) (Statement.Answer A) α}

/-- What is to be shown of the programs: what a session ends with, what it has to show when it
commits, when it may commit, and what holds of the committed rows and the requests. -/
structure Keeps (schema : Schema Row) (evaluate : (v : V) → List Row → A v)
    (program : ρ → Dialogue (Statement V Row) (Statement.Answer A) α)
    (E : Nat → ρ → α → Database Row × Log V Row A → Prop)
    (J : Nat → ρ → Database Row × Log V Row A → Prop)
    (G : List ρ → Nat → Database Row × Log V Row A → Prop)
    (I : List ρ → List (Nat × Row) → Prop) : Prop where
  programs : ∀ n request (db : Database Row), (∀ r ∈ db.committed ++ db.pending, r.1 ≠ n) →
    Holds (logged schema evaluate n) (Terms n (J n request)) (program request) (E n request)
      (db, [])
  stable : ∀ n request a s t, E n request a s → t.2 = s.2 → Elsewhere n s.1 t.1 →
    E n request a t
  starts : ∀ requests request rows, (∀ r ∈ rows, r.1 < requests.length) → I requests rows →
    I (requests ++ [request]) rows
  commits : ∀ requests n request s, requests[n]? = some request → I requests s.1.committed →
    Constrained schema s.1 → J n request s → G requests n s →
      I requests (s.1.committed ++ s.1.own n)

variable {E : Nat → ρ → α → Database Row × Log V Row A → Prop}
  {J : Nat → ρ → Database Row × Log V Row A → Prop}
  {G : List ρ → Nat → Database Row × Log V Row A → Prop} {I : List ρ → List (Nat × Row) → Prop}
  {h : Server ρ V Row A α} {move : Move ρ}

def Server.requests (h : Server ρ V Row A α) : List ρ := h.sessions.map Session.request

/-- A commit that is done when it may be. -/
def Guarded (G : List ρ → Nat → Database Row × Log V Row A → Prop) (h : Server ρ V Row A α) :
    Move ρ → Prop
  | .go n false =>
      match h.sessions[n]? with
      | some ⟨_, .ask .commit _, log⟩ => G h.requests n (h.db, log)
      | _ => True
  | _ => True

instance (G : List ρ → Nat → Database Row × Log V Row A → Prop)
    [∀ requests n s, Decidable (G requests n s)] (h : Server ρ V Row A α) (move : Move ρ) :
    Decidable (Guarded G h move) := by
  dsimp only [Guarded]
  split
  · split <;> infer_instance
  · infer_instance

theorem guarded_always : Guarded (fun _ _ _ => True) h move := by
  cases move with
  | start request => trivial
  | go n fails =>
    cases fails with
    | true => trivial
    | false =>
      rw [Guarded]
      split <;> trivial

theorem Guarded.commit {request : ρ} {log : Log V Row A}
    {k : Bool → Dialogue (Statement V Row) (Statement.Answer A) α}
    (guarded : Guarded G h (.go n false))
    (found : h.sessions[n]? = some ⟨request, .ask .commit k, log⟩) :
    G h.requests n (h.db, log) := by
  rw [Guarded, found] at guarded
  exact guarded

structure Sound (schema : Schema Row) (evaluate : (v : V) → List Row → A v)
    (E : Nat → ρ → α → Database Row × Log V Row A → Prop)
    (J : Nat → ρ → Database Row × Log V Row A → Prop) (I : List ρ → List (Nat × Row) → Prop)
    (h : Server ρ V Row A α) : Prop where
  constrained : Constrained schema h.db
  origins : ∀ r ∈ h.db.committed ++ h.db.pending, r.1 < h.sessions.length
  invariant : I h.requests h.db.committed
  sessions : ∀ n c, h.sessions[n]? = some c → Holds (logged schema evaluate n)
    (Terms n (J n c.request)) c.rest (E n c.request) (h.db, c.log)

theorem Sound.empty (start : I [] []) :
    Sound schema evaluate E J I (.empty : Server ρ V Row A α) where
  constrained := .empty
  origins _ mem := absurd mem List.not_mem_nil
  invariant := start
  sessions _ _ found := (Option.some_ne_none _ (found.symm.trans List.getElem?_nil)).elim

/-- A session that is left alone. -/
theorem Keeps.spares (keeps : Keeps schema evaluate program E J G I) {request : ρ}
    {rest : Dialogue (Statement V Row) (Statement.Answer A) α} {log : Log V Row A}
    (holds : Holds (logged schema evaluate n) (Terms n (J n request)) rest (E n request) (db, log))
    (elsewhere : Elsewhere n db db') :
    Holds (logged schema evaluate n) (Terms n (J n request)) rest (E n request) (db', log) := by
  cases rest with
  | done a => exact keeps.stable n request a _ _ holds rfl elsewhere
  | ask q k =>
    rintro t ⟨log', later⟩
    exact holds t ⟨log', elsewhere.trans later⟩

theorem committed_grows :
    db.committed <+: (answer (A := A) schema evaluate n fails q db).2.committed := by
  cases q with
  | commit =>
    rw [answer]
    split
    · exact List.prefix_rfl
    · exact List.prefix_append _ _
  | insert row =>
    rw [answer]
    split
    · exact List.prefix_rfl
    · split <;> exact List.prefix_rfl
  | _ => exact List.prefix_rfl

/-- The rows that are committed change with a commit only. -/
theorem committed_answer (other : q ≠ .commit) :
    (answer (A := A) schema evaluate n fails q db).2.committed = db.committed := by
  cases q with
  | select v => rfl
  | insert row =>
    rw [answer]
    split
    · rfl
    · split <;> rfl
  | commit => exact absurd rfl other
  | rollback => rfl

theorem Keeps.start (keeps : Keeps schema evaluate program E J G I)
    (sound : Sound schema evaluate E J I h) (request : ρ) :
    Sound schema evaluate E J I (h.step schema evaluate program (.start request)) where
  constrained := sound.constrained
  origins r mem := by
    show r.1 < (h.sessions ++ [_]).length
    rw [List.length_append]
    exact Nat.lt_add_right 1 (sound.origins r mem)
  invariant := by
    show I ((h.sessions ++ [_]).map Session.request) _
    rw [List.map_append]
    refine keeps.starts _ request _ (fun r mem => ?_) sound.invariant
    rw [List.length_map]
    exact sound.origins r (List.mem_append_left _ mem)
  sessions n c found := by
    obtain old | ⟨rfl, rfl⟩ := Dialogue.Desk.getElem?_concat_eq_some found
    · exact sound.sessions n c old
    · exact keeps.programs _ request h.db fun r mem => Nat.ne_of_lt (sound.origins r mem)

/-- A statement that is answered. -/
theorem Keeps.asked (keeps : Keeps schema evaluate program E J G I)
    (sound : Sound schema evaluate E J I h) {request : ρ} {log : Log V Row A}
    {k : Statement.Answer A q → Dialogue (Statement V Row) (Statement.Answer A) α}
    (found : h.sessions[n]? = some ⟨request, .ask q k, log⟩)
    (guarded : q = .commit → fails = false → G h.requests n (h.db, log))
    (goes : ¬ (fails = false ∧ Waits schema n h.db q)) :
    Sound schema evaluate E J I ⟨(answer schema evaluate n fails q h.db).2,
      h.sessions.set n ⟨request, k (answer schema evaluate n fails q h.db).1,
        log ++ [⟨⟨q, (answer schema evaluate n fails q h.db).1⟩, h.db.committed.length⟩]⟩⟩ := by
  obtain ⟨fit, rest⟩ :=
    sound.sessions n _ found (h.db, log) ⟨rfl, .refl n h.db⟩ trivial fails trivial
  have bound : n < h.sessions.length := (List.getElem?_eq_some_iff.mp found).1
  have known : h.requests[n]? = some request := by
    show (h.sessions.map Session.request)[n]? = some request
    rw [List.getElem?_map, found]
    rfl
  have requests : ∀ c : Session ρ V Row A α, c.request = request →
      (h.sessions.set n c).map Session.request = h.requests := by
    intro c same
    rw [List.map_set, same]
    obtain ⟨inside, there⟩ := List.getElem?_eq_some_iff.mp known
    rw [← there]
    exact List.set_getElem_self inside
  constructor
  · exact sound.constrained.answer goes
  · intro r mem
    rw [List.length_set]
    obtain old | rfl := origin_answer mem
    · exact sound.origins r old
    · exact bound
  · show I ((h.sessions.set n _).map Session.request) _
    rw [requests _ rfl]
    by_cases commit : q = .commit
    · subst commit
      rw [answer]
      split
      · exact sound.invariant
      · next lasts =>
        exact keeps.commits _ n request (h.db, log) known sound.invariant sound.constrained fit
          (guarded rfl (Bool.eq_false_iff.mpr lasts))
    · rw [committed_answer commit]
      exact sound.invariant
  · intro i c there
    obtain ⟨rfl, rfl⟩ | ⟨other, old⟩ := Dialogue.Desk.getElem?_set_eq_some there
    · exact rest
    · exact keeps.spares (sound.sessions i c old) (elsewhere_answer other)

theorem Keeps.step (keeps : Keeps schema evaluate program E J G I)
    (sound : Sound schema evaluate E J I h) (guarded : Guarded G h move) :
    Sound schema evaluate E J I (h.step schema evaluate program move) := by
  cases move with
  | start request => exact keeps.start sound request
  | go n fails =>
    rw [Server.step]
    split
    · next request q k log found =>
      split
      · exact sound
      · next goes =>
        refine keeps.asked sound found (fun commit lasts => ?_) goes
        subst commit lasts
        exact guarded.commit found
    · exact sound

theorem committed_step (h : Server ρ V Row A α) (move : Move ρ) :
    h.db.committed <+: (h.step schema evaluate program move).db.committed := by
  cases move with
  | start request => exact List.prefix_rfl
  | go n fails =>
    rw [Server.step]
    split
    · split
      · exact List.prefix_rfl
      · exact committed_grows
    · exact List.prefix_rfl

/-- What is committed stays committed. -/
theorem committed_exec (h : Server ρ V Row A α) (moves : List (Move ρ)) :
    h.db.committed <+: (Run.exec (Server.step schema evaluate program) h moves).db.committed := by
  induction moves generalizing h with
  | nil => exact List.prefix_rfl
  | cons move moves ih => exact (committed_step h move).trans (ih _)

/-- Whatever sessions are opened and whatever order their statements come in, as long as the
commits are put when they may be. -/
theorem Keeps.exec (keeps : Keeps schema evaluate program E J G I)
    (sound : Sound schema evaluate E J I h) {moves : List (Move ρ)}
    (guarded : Run.Along (Server.step schema evaluate program) (Guarded G) h moves) :
    Sound schema evaluate E J I (Run.exec (Server.step schema evaluate program) h moves) :=
  guarded.preserves sound fun _ _ sound guarded => keeps.step sound guarded

end Rules

end ReadCommitted

end Corvus
