import Mathlib.Data.List.Nodup
import Mathlib.Algebra.BigOperators.Group.List.Basic
import Mathlib.Algebra.GroupWithZero.Nat
import Mathlib.Algebra.Order.BigOperators.Group.List
import Mathlib.Algebra.Order.Group.Nat

/-!
# Keyed tables

A relational table is the list of its rows in insertion order together with the
fact that no two rows share a key. The uniqueness proof is a field, so a primary
key is checked once, by `insert?`, and never established again by a later proof.

`update p f` is the statement that rewrites every row satisfying `p`. It may not
touch the key column, and `f` is a `Rewrite`, which carries the proof that it does not.
-/

namespace Corvus

/-- The column that identifies the rows of a table. -/
class Keyed (α : Type) (κ : outParam Type) where
  key : α → κ

export Keyed (key)

/-- The rows of a table, whose keys are pairwise distinct. -/
structure Table (α : Type) {κ : Type} [Keyed α κ] where
  rows : List α
  nodup : (rows.map key).Nodup

/-- A way to rewrite a row that leaves its key alone. -/
structure Rewrite (α : Type) {κ : Type} [Keyed α κ] where
  apply : α → α
  keeps : ∀ r, key (apply r) = key r

instance {α κ : Type} [Keyed α κ] : CoeFun (Rewrite α) fun _ => α → α := ⟨Rewrite.apply⟩

namespace Table

variable {α κ : Type} [Keyed α κ]

instance : Membership α (Table α) := ⟨fun t r => r ∈ t.rows⟩

theorem mem_iff {t : Table α} {r : α} : r ∈ t ↔ r ∈ t.rows := Iff.rfl

instance [DecidableEq α] (t : Table α) (r : α) : Decidable (r ∈ t) :=
  inferInstanceAs (Decidable (r ∈ t.rows))

instance : EmptyCollection (Table α) := ⟨⟨[], by simp⟩⟩

@[simp] theorem rows_empty : (∅ : Table α).rows = [] := rfl

@[simp] theorem not_mem_empty {r : α} : r ∉ (∅ : Table α) := List.not_mem_nil

@[ext] theorem ext {t u : Table α} (h : t.rows = u.rows) : t = u := by
  cases t
  cases u
  cases h
  rfl

/-- Rows with equal keys are the same row. -/
theorem eq_of_key {t : Table α} {r s : α} (hr : r ∈ t) (hs : s ∈ t)
    (h : key r = key s) : r = s :=
  List.inj_on_of_nodup_map t.nodup hr hs h

theorem rows_nodup (t : Table α) : t.rows.Nodup := t.nodup.of_map

/-- In a list without two of one key, each element is found by its key. -/
theorem find?_of_nodup {β : Type} [DecidableEq β] {xs : List α} {k : α → β} {r : α}
    (nodup : (xs.map k).Nodup) (mem : r ∈ xs) : xs.find? (k · = k r) = some r := by
  cases found : xs.find? (k · = k r) with
  | none => exact absurd (decide_eq_true rfl) (List.find?_eq_none.mp found r mem)
  | some s =>
    have same := List.find?_some found
    have inside := List.mem_of_find?_eq_some found
    rw [List.inj_on_of_nodup_map nodup inside mem (of_decide_eq_true same)]

/-- What is the only one of a kind in a list without duplicates is what a filter leaves. -/
theorem filter_eq_singleton {xs : List α} {p : α → Bool} {r : α} (nodup : xs.Nodup) (mem : r ∈ xs)
    (kind : p r = true) (only : ∀ s ∈ xs, p s = true → s = r) : xs.filter p = [r] := by
  have inside : r ∈ xs.filter p := List.mem_filter.mpr ⟨mem, kind⟩
  have same : ∀ s ∈ xs.filter p, s = r := fun s found =>
    only s (List.mem_filter.mp found).1 (List.mem_filter.mp found).2
  have once := nodup.filter p
  cases left : xs.filter p with
  | nil =>
    rw [left] at inside
    exact absurd inside List.not_mem_nil
  | cons s rest =>
    rw [left] at same once
    have first := same s List.mem_cons_self
    have none_left : rest = [] := by
      refine List.eq_nil_iff_forall_not_mem.mpr fun s' found => ?_
      have again := same s' (List.mem_cons_of_mem _ found)
      rw [again, ← first] at found
      exact (List.nodup_cons.mp once).1 found
    rw [first, none_left]

/-! ## Lookup -/

section Lookup

variable [DecidableEq κ]

/-- The row with the given key. -/
def get? (t : Table α) (k : κ) : Option α := t.rows.find? fun r => decide (key r = k)

theorem get?_eq_some {t : Table α} {k : κ} {r : α} :
    t.get? k = some r ↔ r ∈ t ∧ key r = k := by
  constructor
  · intro h
    exact ⟨List.mem_of_find?_eq_some h, by simpa using List.find?_some h⟩
  · rintro ⟨hr, rfl⟩
    obtain ⟨s, hs⟩ : ∃ s, t.rows.find? (fun s => decide (key s = key r)) = some s :=
      Option.isSome_iff_exists.mp (List.find?_isSome.mpr ⟨r, hr, by simp⟩)
    have hk : key s = key r := by simpa using List.find?_some hs
    rw [get?, hs, eq_of_key (List.mem_of_find?_eq_some hs) hr hk]

theorem get?_of_mem {t : Table α} {r : α} (h : r ∈ t) : t.get? (key r) = some r :=
  get?_eq_some.mpr ⟨h, rfl⟩

theorem get?_eq_none {t : Table α} {k : κ} : t.get? k = none ↔ ∀ r ∈ t, key r ≠ k := by
  simp [get?, List.find?_eq_none, mem_iff]

@[simp] theorem get?_empty (k : κ) : (∅ : Table α).get? k = none := rfl

/-! ## Insertion -/

/-- Append a row, unless its key is taken. -/
def insert? (t : Table α) (r : α) : Option (Table α) :=
  if h : key r ∈ t.rows.map key then none
  else some
    { rows := t.rows ++ [r]
      nodup := by
        rw [List.map_append]
        exact List.Nodup.append t.nodup (by simp) (by simpa using h) }

theorem insert?_eq_some {t u : Table α} {r : α} :
    t.insert? r = some u ↔ key r ∉ t.rows.map key ∧ u.rows = t.rows ++ [r] := by
  unfold insert?
  split
  · rename_i taken
    simp [taken]
  · rename_i free
    constructor
    · intro h
      cases h
      exact ⟨free, rfl⟩
    · rintro ⟨_, h⟩
      exact congrArg some (Table.ext h.symm)

omit [DecidableEq κ] in
theorem mem_of_append {t u : Table α} {r : α} (h : u.rows = t.rows ++ [r]) : r ∈ u := by
  rw [mem_iff, h]
  exact List.mem_append_right _ (List.mem_singleton_self r)

omit [DecidableEq κ] in
theorem mem_append_of_mem {t u : Table α} {r s : α} (h : u.rows = t.rows ++ [r]) (mem : s ∈ t) :
    s ∈ u := by
  rw [mem_iff, h]
  exact List.mem_append_left _ mem

theorem get?_append {t u : Table α} {r : α} (h : u.rows = t.rows ++ [r]) (k : κ) :
    u.get? k = if key r = k then some r else t.get? k := by
  by_cases same : key r = k
  · rw [if_pos same, get?_eq_some]
    exact ⟨mem_of_append h, same⟩
  · rw [if_neg same, get?, h, List.find?_append]
    simp [same, get?]

/-- A row that has just been inserted has a key that was free. -/
theorem get?_eq_none_of_append {t u : Table α} {r : α} (h : u.rows = t.rows ++ [r]) :
    t.get? (key r) = none := by
  rw [get?_eq_none]
  intro s hs same
  have nodup := u.nodup
  rw [h, List.map_append, List.nodup_append] at nodup
  exact nodup.2.2 (key s) (List.mem_map_of_mem hs) (key r) (by simp) same

/-- A row with a free key can be inserted. -/
theorem exists_insert? {t : Table α} {r : α} (free : ∀ s ∈ t, key s ≠ key r) :
    ∃ u, t.insert? r = some u := by
  have absent : key r ∉ t.rows.map key := by
    intro taken
    obtain ⟨s, hs, same⟩ := List.mem_map.mp taken
    exact free s hs same
  unfold insert?
  rw [dif_neg absent]
  exact ⟨_, rfl⟩

end Lookup

/-! ## Update in place -/

/-- Rewrite every row that satisfies `p`. -/
def update (t : Table α) (p : α → Bool) (f : Rewrite α) : Table α where
  rows := t.rows.map fun r => if p r then f r else r
  nodup := by
    have same : (key : α → κ) ∘ (fun r => if p r then f r else r) = key := by
      funext r
      simp only [Function.comp_apply]
      split
      · exact f.keeps r
      · rfl
    rw [List.map_map, same]
    exact t.nodup

section Update

variable {t : Table α} {p : α → Bool} {f : Rewrite α}

theorem rows_update :
    (t.update p f).rows = t.rows.map fun r => if p r then f r else r := rfl

theorem mem_update {s : α} :
    s ∈ t.update p f ↔ ∃ r ∈ t, (if p r then f r else r) = s := List.mem_map

theorem mem_update_of_mem {r : α} (h : r ∈ t) :
    (if p r then f r else r) ∈ t.update p f := mem_update.mpr ⟨r, h, rfl⟩

/-- An updated row is either an untouched old row or the image of an old row. -/
theorem of_mem_update {s : α} (h : s ∈ t.update p f) :
    (s ∈ t ∧ p s = false) ∨ ∃ r ∈ t, p r = true ∧ f r = s := by
  obtain ⟨r, hr, rfl⟩ := mem_update.mp h
  by_cases hp : p r = true
  · exact .inr ⟨r, hr, hp, by rw [if_pos hp]⟩
  · refine .inl ⟨by rwa [if_neg hp], ?_⟩
    rw [if_neg hp]
    simpa using hp

theorem key_ite (r : α) : key (if p r then f r else r) = key r := by
  split
  · exact f.keeps r
  · rfl

theorem get?_update [DecidableEq κ] (k : κ) :
    (t.update p f).get? k = (t.get? k).map fun r => if p r then f r else r := by
  cases h : t.get? k with
  | none =>
      rw [Option.map_none, get?_eq_none]
      intro s hs
      obtain ⟨r, hr, rfl⟩ := mem_update.mp hs
      rw [key_ite r]
      exact get?_eq_none.mp h r hr
  | some r =>
      obtain ⟨hr, rfl⟩ := get?_eq_some.mp h
      exact get?_eq_some.mpr ⟨mem_update_of_mem hr, key_ite r⟩

theorem update_of_none (h : ∀ r ∈ t, p r = false) : t.update p f = t := by
  apply Table.ext
  rw [rows_update]
  refine (List.map_congr_left fun r hr => ?_).trans (List.map_id _)
  rw [h r hr, if_neg Bool.false_ne_true, id]

/-- Keys survive an update, so a key is taken after it exactly when it was before. -/
@[simp] theorem map_key_update : (t.update p f).rows.map key = t.rows.map key := by
  rw [rows_update, List.map_map]
  congr 1
  funext r
  exact key_ite r

end Update

/-! ## Removal -/

/-- Delete every row that satisfies `p`. -/
def remove (t : Table α) (p : α → Bool) : Table α where
  rows := t.rows.filter fun r => !p r
  nodup := t.nodup.sublist (List.filter_sublist.map key)

theorem mem_remove {t : Table α} {p : α → Bool} {r : α} :
    r ∈ t.remove p ↔ r ∈ t ∧ p r = false := by
  rw [mem_iff, remove, List.mem_filter, Bool.not_eq_true', mem_iff]

/-! ## Evolution

How one statement or a sequence of statements may change a table: every old row is
kept under `move`, and every row afterwards is a moved old row or a new one. -/

/-- Each row of `u` is a moved row of `t` or a new row, and no row of `t` is lost. -/
structure Evolves (t u : Table α) (move : α → α → Prop) (new : α → Prop) : Prop where
  back : ∀ s ∈ u, (∃ r ∈ t, move r s) ∨ new s
  forth : ∀ r ∈ t, ∃ s ∈ u, move r s

section Evolves

variable {t u v : Table α} {move : α → α → Prop} {new : α → Prop}

theorem Evolves.refl (keep : ∀ r ∈ t, move r r) : Evolves t t move new :=
  ⟨fun r hr => .inl ⟨r, hr, keep r hr⟩, fun r hr => ⟨r, hr, keep r hr⟩⟩

theorem Evolves.update {p : α → Bool} {f : Rewrite α}
    (keep : ∀ r ∈ t, p r = false → move r r) (change : ∀ r ∈ t, p r = true → move r (f r)) :
    Evolves t (t.update p f) move new := by
  have moved : ∀ r ∈ t, move r (if p r then f r else r) := by
    intro r hr
    by_cases hp : p r = true
    · rw [if_pos hp]
      exact change r hr hp
    · rw [if_neg hp]
      exact keep r hr (by simpa using hp)
  refine ⟨fun s hs => .inl ?_, fun r hr => ⟨_, mem_update_of_mem hr, moved r hr⟩⟩
  obtain ⟨r, hr, rfl⟩ := mem_update.mp hs
  exact ⟨r, hr, moved r hr⟩

theorem Evolves.insert {r : α} (h : u.rows = t.rows ++ [r]) (keep : ∀ s ∈ t, move s s)
    (hr : new r) : Evolves t u move new := by
  refine ⟨fun s hs => ?_, fun s hs => ⟨s, ?_, keep s hs⟩⟩
  · rw [mem_iff, h, List.mem_append, List.mem_singleton] at hs
    rcases hs with hs | rfl
    · exact .inl ⟨s, hs, keep s hs⟩
    · exact .inr hr
  · rw [mem_iff, h]
    exact List.mem_append_left _ hs

theorem Evolves.mono {move' : α → α → Prop} {new' : α → Prop} (h : Evolves t u move new)
    (moves : ∀ r ∈ t, ∀ s ∈ u, move r s → move' r s) (news : ∀ s ∈ u, new s → new' s) :
    Evolves t u move' new' := by
  refine ⟨fun s hs => ?_, fun r hr => ?_⟩
  · rcases h.back s hs with ⟨r, hr, m⟩ | n
    · exact .inl ⟨r, hr, moves r hr s hs m⟩
    · exact .inr (news s hs n)
  · obtain ⟨s, hs, m⟩ := h.forth r hr
    exact ⟨s, hs, moves r hr s hs m⟩

/-- Two changes of a table in a row that add nothing. -/
theorem Evolves.trans {first second : α → α → Prop} (h₁ : Evolves t u first fun _ => False)
    (h₂ : Evolves u v second fun _ => False)
    (moves : ∀ r ∈ t, ∀ s ∈ u, ∀ s' ∈ v, first r s → second s s' → move r s') :
    Evolves t v move new := by
  refine ⟨fun s' hs' => .inl ?_, fun r hr => ?_⟩
  · obtain ⟨s, hs, m₂⟩ := (h₂.back s' hs').resolve_right id
    obtain ⟨r, hr, m₁⟩ := (h₁.back s hs).resolve_right id
    exact ⟨r, hr, moves r hr s hs s' hs' m₁ m₂⟩
  · obtain ⟨s, hs, m₁⟩ := h₁.forth r hr
    obtain ⟨s', hs', m₂⟩ := h₂.forth s hs
    exact ⟨s', hs', moves r hr s hs s' hs' m₁ m₂⟩

/-- Two changes of one kind in a row. -/
theorem Evolves.comp (h₁ : Evolves t u move new) (h₂ : Evolves u v move new)
    (moves : ∀ r s s', move r s → move s s' → move r s')
    (renews : ∀ s s', new s → move s s' → new s') : Evolves t v move new := by
  refine ⟨fun s' hs' => ?_, fun r hr => ?_⟩
  · obtain ⟨s, hs, m₂⟩ | n := h₂.back s' hs'
    · obtain ⟨r, hr, m₁⟩ | n := h₁.back s hs
      · exact .inl ⟨r, hr, moves r s s' m₁ m₂⟩
      · exact .inr (renews s s' n m₂)
    · exact .inr n
  · obtain ⟨s, hs, m₁⟩ := h₁.forth r hr
    obtain ⟨s', hs', m₂⟩ := h₂.forth s hs
    exact ⟨s', hs', moves r s s' m₁ m₂⟩

end Evolves

/-! ## Totals -/

/-- The sum of a column over the rows that satisfy a condition. -/
def total (t : Table α) (p : α → Bool) (w : α → Nat) : Nat := ((t.rows.filter p).map w).sum

theorem total_rows (rows : List α) (p : α → Bool) (w : α → Nat) :
    ((rows.filter p).map w).sum = (rows.map fun r => if p r then w r else 0).sum := by
  induction rows with
  | nil => rfl
  | cons r rows ih =>
      by_cases h : p r = true
      · simp [h, ih]
      · simp [h, ih]

@[simp] theorem total_empty (p : α → Bool) (w : α → Nat) : (∅ : Table α).total p w = 0 := rfl

/-- Inserting a row adds its weight where the condition counts it. -/
theorem total_append {t u : Table α} {r : α} (h : u.rows = t.rows ++ [r])
    (p : α → Bool) (w : α → Nat) : u.total p w = t.total p w + if p r then w r else 0 := by
  simp only [total, total_rows, h, List.map_append, List.sum_append, List.map_cons,
    List.map_nil, List.sum_cons, List.sum_nil, Nat.add_zero]

private theorem sum_update_rows [DecidableEq κ] {rows : List α} (nodup : (rows.map key).Nodup) {r : α}
    (hr : r ∈ rows) (f : α → α) (v : α → Nat) :
    (rows.map fun s => v (if key s = key r then f s else s)).sum + v r =
      (rows.map v).sum + v (f r) := by
  induction rows with
  | nil => simp at hr
  | cons s rows ih =>
      simp only [List.map_cons, List.nodup_cons, List.mem_map, not_exists, not_and] at nodup
      simp only [List.map_cons, List.sum_cons]
      rcases List.mem_cons.mp hr with rfl | hr
      · have rest : (rows.map fun s => v (if key s = key r then f s else s)) = rows.map v := by
          apply List.map_congr_left
          intro s hs
          rw [if_neg (nodup.1 s hs)]
        rw [rest, if_pos rfl]
        omega
      · have hne : key s ≠ key r := fun h => nodup.1 r hr h.symm
        have := ih nodup.2 hr
        rw [if_neg hne]
        omega

/-- Rewriting the single row with a given key moves a total by the difference
between the old and the new contribution of that row. -/
theorem total_update_key [DecidableEq κ] {t : Table α} {r : α} (hr : r ∈ t) {f : Rewrite α}
    (p : α → Bool) (w : α → Nat) :
    (t.update (fun s => decide (key s = key r)) f).total p w + (if p r then w r else 0) =
      t.total p w + if p (f r) then w (f r) else 0 := by
  have h := sum_update_rows t.nodup hr f fun s => if p s then w s else 0
  simp only [total, total_rows, rows_update, List.map_map]
  simpa [Function.comp_def] using h

/-- A counted row weighs at most the total. -/
theorem le_total {t : Table α} {r : α} (hr : r ∈ t) {p : α → Bool} (hp : p r = true)
    (w : α → Nat) : w r ≤ t.total p w :=
  List.single_le_sum (by simp) _
    (List.mem_map.mpr ⟨r, List.mem_filter.mpr ⟨hr, hp⟩, rfl⟩)

end Table

end Corvus
