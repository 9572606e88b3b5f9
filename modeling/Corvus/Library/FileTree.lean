import Mathlib.Data.List.Induction
import Mathlib.Data.List.Nodup

/-!
# A directory and what is below it

The entries of a tree are found by their paths from its root. Every entry but the root lies in a
directory of the tree, whatever is made or removed.
-/

namespace Corvus

abbrev FileTree.Path := List String

inductive FileTree.Node where
  | dir
  /-- The number tells a file from another one that comes to the same path. -/
  | file (number : Nat) (content : List UInt8) (executable : Bool)
deriving DecidableEq, Repr

def FileTree.Node.isDir : FileTree.Node → Bool
  | dir => true
  | file .. => false

open FileTree in
structure FileTree where
  entries : List (Path × Node)
  distinct : (entries.map Prod.fst).Nodup
  rooted : ∀ e ∈ entries, e.1 = [] ∨ (e.1.dropLast, Node.dir) ∈ entries

namespace FileTree

/-- There is not even the root. -/
def empty : FileTree := ⟨[], List.nodup_nil, fun _ mem => absurd mem List.not_mem_nil⟩

variable (t : FileTree) (path : Path)

def find : Option Node := t.entries.lookup path

/-- The names in a directory, each with its entry. -/
def children : List (String × Node) :=
  t.entries.filterMap fun e =>
    if e.1.dropLast = path then e.1.getLast?.map fun name => (name, e.2) else none

variable {t path} {node node' : Node} {name : String}

theorem lookup_eq_some {entries : List (Path × Node)} (distinct : (entries.map Prod.fst).Nodup) :
    entries.lookup path = some node ↔ (path, node) ∈ entries := by
  induction entries with
  | nil => exact iff_of_false (fun found => Option.some_ne_none _ found.symm) List.not_mem_nil
  | cons e rest ih =>
    obtain ⟨head, distinct⟩ := List.nodup_cons.mp distinct
    rw [List.lookup_cons]
    by_cases same : path = e.1
    · rw [beq_iff_eq.mpr same]
      constructor
      · intro found
        rw [same, ← Option.some.inj found]
        exact List.mem_cons_self
      · intro mem
        obtain there | later := List.mem_cons.mp mem
        · rw [← there]
        · rw [same] at later
          exact absurd (List.mem_map_of_mem later) head
    · rw [beq_eq_false_iff_ne.mpr same]
      show rest.lookup path = some node ↔ _
      rw [ih distinct, List.mem_cons]
      refine (or_iff_right ?_).symm
      intro there
      exact same (congrArg Prod.fst there)

theorem find_eq_some : t.find path = some node ↔ (path, node) ∈ t.entries :=
  lookup_eq_some t.distinct

theorem find_eq_none : t.find path = none ↔ ∀ node, (path, node) ∉ t.entries := by
  rw [Option.eq_none_iff_forall_ne_some]
  exact forall_congr' fun node => not_congr find_eq_some

theorem mem_children : (name, node) ∈ t.children path ↔ t.find (path ++ [name]) = some node := by
  rw [find_eq_some, children, List.mem_filterMap]
  constructor
  · rintro ⟨e, mem, within⟩
    split at within
    · next parent =>
      obtain ⟨last, is, same⟩ := Option.map_eq_some_iff.mp within
      obtain ⟨rfl, rfl⟩ := Prod.mk.inj same
      have whole := List.dropLast_append_getLast? last is
      rw [parent] at whole
      rw [whole]
      exact mem
    · exact absurd within.symm (Option.some_ne_none _)
  · intro mem
    refine ⟨_, mem, ?_⟩
    rw [if_pos (List.dropLast_concat), List.getLast?_concat]
    rfl

/-- Each name is in a directory once. -/
theorem nodup_children (t : FileTree) (path : Path) :
    ((t.children path).map Prod.fst).Nodup := by
  have apart : t.entries.Pairwise fun e e' => e.1 ≠ e'.1 := List.pairwise_map.mp t.distinct
  refine List.pairwise_map.mpr (List.pairwise_filterMap.mpr (apart.imp ?_))
  intro e e' other b within b' within' same
  have whole : ∀ {e : Path × Node} {b : String × Node},
      (if e.1.dropLast = path then e.1.getLast?.map fun name => (name, e.2) else none) = some b →
        e.1 = path ++ [b.1] := by
    intro e b within
    split at within
    · next parent =>
      obtain ⟨name, last, rfl⟩ := Option.map_eq_some_iff.mp within
      rw [← parent]
      exact (List.dropLast_append_getLast? name last).symm
    · exact absurd within.symm (Option.some_ne_none _)
  exact other (by rw [whole within, whole within', same])

/-- What lies in a directory makes it one. -/
theorem prefix_of_eq {path' : Path} (same : path = path') : path <+: path' :=
  same ▸ List.prefix_rfl

theorem find_parent (found : t.find (path ++ [name]) = some node) : t.find path = some .dir := by
  obtain root | parent := t.rooted _ (find_eq_some.mp found)
  · exact absurd root (List.append_ne_nil_of_right_ne_nil _ (List.cons_ne_nil _ _))
  · rw [List.dropLast_concat] at parent
    exact find_eq_some.mpr parent

/-- Whatever a path starts with is a directory. -/
theorem find_above {above : Path} (found : t.find path = some node) (within : above <+: path)
    (other : above ≠ path) : t.find above = some .dir := by
  obtain ⟨below, rfl⟩ := within
  induction below using List.reverseRecOn generalizing node with
  | nil => exact absurd (List.append_nil _).symm other
  | append_singleton below name ih =>
    rw [← List.append_assoc] at found
    have parent := find_parent found
    by_cases direct : below = []
    · rw [direct, List.append_nil] at parent
      exact parent
    · exact ih parent fun same => direct (List.self_eq_append_right.mp same)

theorem entries_eq_nil (rootless : t.find [] = none) : t.entries = [] := by
  rw [List.eq_nil_iff_forall_not_mem]
  rintro ⟨path, node⟩ mem
  have found := find_eq_some.mpr mem
  by_cases root : path = []
  · rw [root, rootless] at found
    exact absurd found.symm (Option.some_ne_none _)
  · have above := find_above found List.nil_prefix (Ne.symm root)
    rw [rootless] at above
    exact absurd above.symm (Option.some_ne_none _)

/-! ## Making -/

/-- A path that a new entry can have. -/
structure Free (t : FileTree) (path : Path) : Prop where
  fresh : t.find path = none
  parent : path = [] ∨ t.find path.dropLast = some .dir

instance : Decidable (Free t path) :=
  decidable_of_iff (t.find path = none ∧ (path = [] ∨ t.find path.dropLast = some .dir))
    ⟨fun free => ⟨free.1, free.2⟩, fun free => ⟨free.1, free.2⟩⟩

def insert (t : FileTree) (node : Node) (free : t.Free path) : FileTree where
  entries := t.entries ++ [(path, node)]
  distinct := by
    rw [List.map_append]
    refine List.nodup_append.mpr ⟨t.distinct, List.nodup_singleton _, ?_⟩
    intro other there path' new same
    obtain ⟨⟨old, node'⟩, mem, rfl⟩ := List.mem_map.mp there
    have same : old = path := same.trans (List.mem_singleton.mp new)
    rw [same] at mem
    exact find_eq_none.mp free.fresh node' mem
  rooted := by
    intro e mem
    obtain old | new := List.mem_append.mp mem
    · exact (t.rooted e old).imp id (List.mem_append_left _)
    · rw [List.mem_singleton.mp new]
      exact free.parent.imp id fun parent => List.mem_append_left _ (find_eq_some.mp parent)

theorem find_insert (free : t.Free path) (path' : Path) :
    (t.insert node free).find path' = if path' = path then some node else t.find path' := by
  refine Option.ext fun node' => ?_
  rw [find_eq_some]
  split
  · next same =>
    rw [same]
    show (path, node') ∈ t.entries ++ [(path, node)] ↔ _
    rw [List.mem_append, List.mem_singleton]
    constructor
    · intro mem
      obtain old | new := mem
      · exact absurd old (find_eq_none.mp free.fresh node')
      · rw [(Prod.mk.inj new).2]
    · intro is
      rw [Option.some.inj is]
      exact .inr rfl
  · next other =>
    show (path', node') ∈ t.entries ++ [(path, node)] ↔ _
    rw [List.mem_append, List.mem_singleton, find_eq_some]
    exact or_iff_left fun new => other (Prod.mk.inj new).1

/-! ## Removing -/

/-- Nothing lies in the entry. -/
def Leaf (t : FileTree) (path : Path) : Prop := t.children path = []

instance : Decidable (Leaf t path) := inferInstanceAs (Decidable (_ = _))

theorem leaf_of_file {number : Nat} {content : List UInt8} {executable : Bool}
    (found : t.find path = some (.file number content executable)) : t.Leaf path := by
  refine List.eq_nil_iff_forall_not_mem.mpr ?_
  rintro ⟨name, node⟩ mem
  rw [find_parent (mem_children.mp mem)] at found
  exact Node.noConfusion (Option.some.inj found)

def erase (t : FileTree) (leaf : t.Leaf path) : FileTree where
  entries := t.entries.filter fun e => e.1 ≠ path
  distinct := (List.filter_sublist.map _).nodup t.distinct
  rooted := by
    intro e mem
    obtain ⟨mem, other⟩ := List.mem_filter.mp mem
    refine (t.rooted e mem).imp_right fun parent => List.mem_filter.mpr ⟨parent, ?_⟩
    refine decide_eq_true fun above => ?_
    by_cases root : e.1 = []
    · rw [root] at above
      have other := of_decide_eq_true other
      rw [root] at other
      exact other above
    · obtain ⟨name, is⟩ := Option.isSome_iff_exists.mp (List.getLast?_isSome.mpr root)
      have child : (name, e.2) ∈ t.children path := by
        rw [mem_children, find_eq_some, ← above, List.dropLast_append_getLast? name is]
        exact mem
      rw [leaf] at child
      exact List.not_mem_nil child

theorem find_erase (leaf : t.Leaf path) (path' : Path) :
    (t.erase leaf).find path' = if path' = path then none else t.find path' := by
  refine Option.ext fun node => ?_
  rw [find_eq_some]
  show (path', node) ∈ t.entries.filter _ ↔ _
  rw [List.mem_filter]
  split
  · next same =>
    refine iff_of_false ?_ fun is => Option.some_ne_none _ is.symm
    rintro ⟨-, other⟩
    exact of_decide_eq_true other same
  · next other =>
    rw [find_eq_some]
    exact and_iff_left (decide_eq_true other)

/-! ## Changing a file -/

/-- A file after a change of its content or its mode. A directory is not changed. -/
def Node.change (f : Nat → List UInt8 → Bool → List UInt8 × Bool) : Node → Node
  | dir => dir
  | file number content executable =>
      file number (f number content executable).1 (f number content executable).2

def modify (t : FileTree) (path : Path) (f : Nat → List UInt8 → Bool → List UInt8 × Bool) :
    FileTree where
  entries := t.entries.map fun e => if e.1 = path then (e.1, e.2.change f) else e
  distinct := by
    rw [List.map_map]
    have same : Prod.fst ∘ (fun e : Path × Node => if e.1 = path then (e.1, e.2.change f) else e) =
        Prod.fst := by
      funext e
      show (if e.1 = path then (e.1, e.2.change f) else e).1 = e.1
      split <;> rfl
    rw [same]
    exact t.distinct
  rooted := by
    intro e changed
    obtain ⟨e, mem, rfl⟩ := List.mem_map.mp changed
    have same : (if e.1 = path then (e.1, e.2.change f) else e).1 = e.1 := by split <;> rfl
    rw [same]
    refine (t.rooted e mem).imp_right fun parent => List.mem_map.mpr ⟨_, parent, ?_⟩
    split <;> rfl

variable {f : Nat → List UInt8 → Bool → List UInt8 × Bool}

theorem find_modify (path' : Path) : (t.modify path f).find path' =
    if path' = path then (t.find path').map (Node.change f) else t.find path' := by
  have entry : ∀ node, (path', node) ∈ (t.modify path f).entries ↔
      ∃ old, (path', old) ∈ t.entries ∧ (if path' = path then old.change f else old) = node := by
    intro node
    show (path', node) ∈ List.map _ t.entries ↔ _
    rw [List.mem_map]
    constructor
    · rintro ⟨e, mem, same⟩
      split at same
      · next there =>
        obtain ⟨rfl, changed⟩ := Prod.mk.inj same
        exact ⟨e.2, mem, by rw [if_pos there, changed]⟩
      · next other =>
        rw [same] at mem other
        exact ⟨node, mem, if_neg other⟩
    · rintro ⟨old, mem, same⟩
      refine ⟨_, mem, ?_⟩
      rw [← same]
      split <;> rfl
  refine Option.ext fun node => ?_
  rw [find_eq_some, entry]
  split
  · next there =>
    rw [Option.map_eq_some_iff]
    exact exists_congr fun old => and_congr_left fun _ => find_eq_some.symm
  · rw [find_eq_some]
    constructor
    · rintro ⟨old, mem, rfl⟩
      exact mem
    · exact fun mem => ⟨node, mem, rfl⟩

end FileTree

end Corvus
