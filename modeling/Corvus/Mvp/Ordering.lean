import Corvus.Library.Descent
import Corvus.Mvp.Core
import Mathlib.Data.List.Sort

/-!
# The order of work items

`_validate_graph` accepts just the lists whose dependencies lead nowhere in a circle: the keys that
the search has visited descend. What it accepts `_topological_items` puts into an order of its own,
layer by layer.
-/

namespace Corvus.Mvp

open Relation

/-! ## The search -/

/-- The item under the first key names the second one. -/
def DependsOn (items : List WorkItemDefinition) (key dependency : String) : Prop :=
  ∃ item ∈ items, item.key = key ∧ dependency ∈ item.dependsOn

section Search

variable {dependencies : String → List String} {fuel : Nat} {marks after : Marks} {key : String}
  {keys : List String}

/-- The link from a visited key to what it depends on. -/
def VisitedLink (dependencies : String → List String) (visited : List String)
    (key dependency : String) : Prop :=
  key ∈ visited ∧ dependency ∈ dependencies key

/-- The visited keys, the first one last, descend along the dependencies. -/
abbrev Explored (dependencies : String → List String) (marks : Marks) : Prop :=
  Descends (VisitedLink dependencies marks.visited) marks.visited.reverse

/-- What has been visited in the meantime. -/
structure Further (marks after : Marks) : Prop where
  visiting : after.visiting = marks.visiting
  visited : ∀ k ∈ marks.visited, k ∈ after.visited
  others : ∀ k ∈ after.visited, k ∈ marks.visited ∨ k ∉ marks.visiting

theorem Further.refl (marks : Marks) : Further marks marks :=
  ⟨rfl, fun _ mem => mem, fun _ mem => .inl mem⟩

theorem Further.trans {later : Marks} (first : Further marks after) (second : Further after later) :
    Further marks later := by
  refine ⟨second.visiting.trans first.visiting, fun k mem => second.visited k (first.visited k mem),
    fun k mem => ?_⟩
  obtain old | other := second.others k mem
  · exact first.others k old
  · rw [first.visiting] at other
    exact .inr other

/-- One key after the other is visited. -/
theorem foldlM_visit (each : ∀ marks after key, Explored dependencies marks →
      visit dependencies fuel marks key = .ok after →
        Explored dependencies after ∧ Further marks after ∧ key ∈ after.visited)
    (explored : Explored dependencies marks)
    (visits : keys.foldlM (visit dependencies fuel) marks = .ok after) :
    Explored dependencies after ∧ Further marks after ∧ ∀ k ∈ keys, k ∈ after.visited := by
  induction keys generalizing marks with
  | nil =>
    cases Except.ok.inj visits
    exact ⟨explored, .refl _, fun _ mem => absurd mem List.not_mem_nil⟩
  | cons key keys ih =>
    obtain ⟨middle, first, rest⟩ := bind_eq_ok.mp visits
    obtain ⟨explored, further, found⟩ := each _ _ _ explored first
    obtain ⟨explored, further', all⟩ := ih explored rest
    exact ⟨explored, further.trans further',
      List.forall_mem_cons.mpr ⟨further'.visited _ found, all⟩⟩

/-- A visit that does not raise leaves the keys that it has visited behind those they depend on. -/
theorem visit_ok (explored : Explored dependencies marks)
    (visits : visit dependencies fuel marks key = .ok after) :
    Explored dependencies after ∧ Further marks after ∧ key ∈ after.visited := by
  induction fuel generalizing marks after key with
  | zero => exact absurd visits error_ne_ok
  | succ fuel ih =>
    rw [visit] at visits
    split at visits
    · exact absurd visits error_ne_ok
    next away =>
    split at visits
    · next visited =>
      cases Except.ok.inj visits
      exact ⟨explored, .refl _, visited⟩
    next fresh =>
    obtain ⟨inner, nested, ended⟩ := bind_eq_ok.mp visits
    cases Except.ok.inj ended
    have started : Explored dependencies ⟨key :: marks.visiting, marks.visited⟩ := explored
    obtain ⟨explored, further, all⟩ :=
      foldlM_visit (fun _ _ _ explored visits => ih explored visits) started nested
    have unvisited : key ∉ inner.visited := by
      intro mem
      obtain old | other := further.others key mem
      · exact fresh old
      · exact other List.mem_cons_self
    refine ⟨?_, ⟨?_, ?_, ?_⟩, List.mem_cons_self⟩
    · show Descends _ (key :: inner.visited).reverse
      rw [List.reverse_cons]
      refine explored.append (fun mem => unvisited (List.mem_reverse.mp mem)) ?_
      rintro a b ⟨mem, dependency⟩
      obtain rfl | old := List.mem_cons.mp mem
      · exact .inr ⟨rfl, List.mem_reverse.mpr (all b dependency)⟩
      · exact .inl ⟨old, dependency⟩
    · show inner.visiting.erase key = _
      rw [further.visiting, List.erase_cons_head]
    · exact fun k mem => List.mem_cons_of_mem _ (further.visited k mem)
    · intro k mem
      obtain rfl | old := List.mem_cons.mp mem
      · exact .inr away
      · exact (further.others k old).imp id fun other mem => other (List.mem_cons_of_mem _ mem)

/-- Where no chain comes back, a visit does not raise: each key on the path leads to the next. -/
theorem exists_visit (acyclic : ∀ k, ¬ TransGen (fun a b => b ∈ dependencies a) k k)
    (closed : ∀ k ∈ keys, ∀ d ∈ dependencies k, d ∈ keys) (mem : key ∈ keys)
    (path : ∀ k ∈ marks.visiting, k ∈ keys ∧ TransGen (fun a b => b ∈ dependencies a) k key)
    (distinct : marks.visiting.Nodup) (enough : keys.length < fuel + marks.visiting.length) :
    ∃ after, visit dependencies fuel marks key = .ok after ∧ after.visiting = marks.visiting := by
  induction fuel generalizing marks key with
  | zero =>
    have shorter := (List.subperm_of_subset distinct fun k mem => (path k mem).1).length_le
    omega
  | succ fuel ih =>
    rw [visit, if_neg fun back => acyclic key (path key back).2]
    split
    · exact ⟨marks, rfl, rfl⟩
    have all : ∀ (rest : List String) (inner : Marks), (∀ d ∈ rest, d ∈ dependencies key) →
        inner.visiting = key :: marks.visiting →
          ∃ after, rest.foldlM (visit dependencies fuel) inner = .ok after ∧
            after.visiting = key :: marks.visiting := by
      intro rest
      induction rest with
      | nil => exact fun inner _ same => ⟨inner, rfl, same⟩
      | cons d rest ihRest =>
        intro inner named same
        obtain ⟨first, named⟩ := List.forall_mem_cons.mp named
        obtain ⟨middle, visits, same'⟩ := @ih inner d (closed key mem d first) (by
          rw [same]
          refine List.forall_mem_cons.mpr ⟨⟨mem, .single first⟩, fun k there => ?_⟩
          exact ⟨(path k there).1, (path k there).2.tail first⟩) (by
          rw [same]
          exact List.nodup_cons.mpr ⟨fun back => acyclic key (path key back).2, distinct⟩) (by
          rw [same, List.length_cons]
          omega)
        obtain ⟨after, others, same''⟩ := ihRest middle named (same'.trans same)
        exact ⟨after, bind_eq_ok.mpr ⟨middle, visits, others⟩, same''⟩
    obtain ⟨inner, nested, same⟩ :=
      all (dependencies key) ⟨key :: marks.visiting, marks.visited⟩ (fun _ mem => mem) rfl
    refine ⟨_, bind_eq_ok.mpr ⟨inner, nested, rfl⟩, ?_⟩
    show inner.visiting.erase key = _
    rw [same, List.erase_cons_head]

end Search

section Definitions

variable {items : List WorkItemDefinition}

theorem dependenciesOf_eq (distinct : (items.map (·.key)).Nodup) {item : WorkItemDefinition}
    (mem : item ∈ items) : dependenciesOf items item.key = item.dependsOn := by
  have found : (items.find? fun other => decide (other.key = item.key)) = some item := by
    have some_ : (items.find? fun other => decide (other.key = item.key)).isSome = true :=
      List.find?_isSome.mpr ⟨item, mem, decide_eq_true rfl⟩
    obtain ⟨other, found⟩ := Option.isSome_iff_exists.mp some_
    have same : other.key = item.key := by simpa using List.find?_some found
    rw [found, List.inj_on_of_nodup_map distinct (List.mem_of_find?_eq_some found) mem same]
  rw [dependenciesOf, found]
  rfl

theorem mem_dependenciesOf (distinct : (items.map (·.key)).Nodup) {key dependency : String} :
    dependency ∈ dependenciesOf items key ↔ DependsOn items key dependency := by
  constructor
  · intro mem
    rw [dependenciesOf] at mem
    cases found : items.find? fun item => decide (item.key = key) with
    | none =>
      rw [found] at mem
      exact absurd mem List.not_mem_nil
    | some item =>
      rw [found] at mem
      have same : item.key = key := by simpa using List.find?_some found
      exact ⟨item, List.mem_of_find?_eq_some found, same, mem⟩
  · rintro ⟨item, mem, rfl, named⟩
    rw [dependenciesOf_eq distinct mem]
    exact named

/-- The list of definitions as the validation wants it. -/
structure Wellformed (items : List WorkItemDefinition) : Prop where
  nonempty : items ≠ []
  distinct : (items.map (·.key)).Nodup
  known : ∀ item ∈ items, ∀ d ∈ item.dependsOn, d ∈ items.map (·.key)
  acyclic : ∀ key, ¬ TransGen (DependsOn items) key key

theorem validateGraph_eq_ok (distinct : (items.map (·.key)).Nodup) (nonempty : items ≠ [])
    (known : ∀ item ∈ items, ∀ d ∈ item.dependsOn, d ∈ items.map (·.key)) :
    validateGraph items = .ok () ↔ ∃ after, (items.map (·.key)).foldlM
      (visit (dependenciesOf items) ((items.map (·.key)).length + 1)) ⟨[], []⟩ = .ok after := by
  have filled : ¬ items.isEmpty = true := by
    rw [List.isEmpty_iff]
    exact nonempty
  rw [validateGraph, if_neg filled]
  dsimp only
  rw [if_neg (not_not_intro distinct), if_neg (not_not_intro known)]
  constructor
  · intro accepted
    obtain ⟨after, searched, -⟩ := bind_eq_ok.mp accepted
    exact ⟨after, searched⟩
  · rintro ⟨after, searched⟩
    exact bind_eq_ok.mpr ⟨after, searched, rfl⟩

/-- The validation accepts just the lists of definitions that are well formed. -/
theorem validateGraph_iff : validateGraph items = .ok () ↔ Wellformed items := by
  constructor
  · intro accepted
    obtain ⟨nonempty, distinct, known⟩ := validateGraph_ok accepted
    refine ⟨nonempty, distinct, known, ?_⟩
    obtain ⟨after, searched⟩ := (validateGraph_eq_ok distinct nonempty known).mp accepted
    have started : Explored (dependenciesOf items) ⟨[], []⟩ :=
      .nil fun _ _ linked => List.not_mem_nil linked.1
    obtain ⟨explored, -, all⟩ :=
      foldlM_visit (fun _ _ _ explored visits => visit_ok explored visits) started searched
    have links : ∀ a b, DependsOn items a b →
        VisitedLink (dependenciesOf items) after.visited a b := by
      rintro a b ⟨item, mem, rfl, named⟩
      refine ⟨all _ (List.mem_map_of_mem mem), ?_⟩
      rw [dependenciesOf_eq distinct mem]
      exact named
    exact (explored.mono links).acyclic
  · rintro ⟨nonempty, distinct, known, acyclic⟩
    refine (validateGraph_eq_ok distinct nonempty known).mpr ?_
    have same : (fun a b => b ∈ dependenciesOf items a) = DependsOn items :=
      funext fun a => funext fun b => propext (mem_dependenciesOf distinct)
    have closed : ∀ k ∈ items.map (·.key), ∀ d ∈ dependenciesOf items k,
        d ∈ items.map (·.key) := by
      intro k _ d mem
      obtain ⟨item, there, -, named⟩ := (mem_dependenciesOf distinct).mp mem
      exact known item there d named
    have all : ∀ (rest : List String), (∀ k ∈ rest, k ∈ items.map (·.key)) →
        ∀ marks : Marks, marks.visiting = [] → ∃ after, rest.foldlM
          (visit (dependenciesOf items) ((items.map (·.key)).length + 1)) marks = .ok after := by
      intro rest
      induction rest with
      | nil => exact fun _ marks _ => ⟨marks, rfl⟩
      | cons key rest ih =>
        intro listed marks idle
        obtain ⟨first, listed⟩ := List.forall_mem_cons.mp listed
        obtain ⟨middle, visits, idle'⟩ := @exists_visit (dependenciesOf items)
          ((items.map (·.key)).length + 1) marks key _ (same ▸ acyclic) closed first
          (by rw [idle]; exact fun _ mem => absurd mem List.not_mem_nil)
          (by rw [idle]; exact List.nodup_nil) (by omega)
        obtain ⟨after, others⟩ := ih listed middle (idle'.trans idle)
        exact ⟨after, bind_eq_ok.mpr ⟨middle, visits, others⟩⟩
    exact all _ (fun _ mem => mem) ⟨[], []⟩ rfl

end Definitions

/-! ## Layer by layer -/

/-- `{item.key: item for item in items}`. -/
def remainingOf (items : List WorkItemRow) : List WorkItemRow :=
  items.foldl (fun remaining item =>
    remaining.filter (fun other => other.itemKey ≠ item.itemKey) ++ [item]) []

/-- The sorted keys of the items that depend on resolved ones only. -/
def readyKeys (remaining : List WorkItemRow) (resolved : List String) : List String :=
  ((remaining.filter fun item => item.dependsOn ⊆ resolved).map (·.itemKey)).insertionSort (· ≤ ·)

/-- The loop of `_topological_items`, with one round for each of at most `fuel` items. -/
def layers : Nat → List WorkItemRow → List String → Except Error (List WorkItemRow)
  | 0, _, _ => return []
  | fuel + 1, remaining, resolved =>
      if remaining = [] then return []
      else do
        refuse (readyKeys remaining resolved = []) (.conflict "persisted_workflow_dependency_cycle")
        let rest ← layers fuel
          (remaining.filter fun item => item.itemKey ∉ readyKeys remaining resolved)
          (resolved ++ readyKeys remaining resolved)
        return ((readyKeys remaining resolved).filterMap fun key =>
          remaining.find? fun item => item.itemKey = key) ++ rest

/-- `_topological_items`. -/
def topologicalItems (items : List WorkItemRow) : Except Error (List WorkItemRow) :=
  layers (remainingOf items).length (remainingOf items) []

/-- Each item comes after those under the keys that it depends on. -/
def Sequenced (resolved : List String) : List WorkItemRow → Prop
  | [] => True
  | item :: rest => item.dependsOn ⊆ resolved ∧ Sequenced (resolved ++ [item.itemKey]) rest

section Layers

variable {items items' ordered remaining remaining' : List WorkItemRow} {resolved : List String}
  {fuel : Nat} {key : String}

theorem remainingOf_eq (distinct : (items.map (·.itemKey)).Nodup) : remainingOf items = items := by
  have folded : ∀ (before later : List WorkItemRow),
      ((before ++ later).map (·.itemKey)).Nodup →
        later.foldl (fun remaining item =>
          remaining.filter (fun other => other.itemKey ≠ item.itemKey) ++ [item]) before =
            before ++ later := by
    intro before later
    induction later generalizing before with
    | nil =>
      intro _
      exact (List.append_nil before).symm
    | cons item later ih =>
      intro distinct
      have kept : before.filter (fun other => decide (other.itemKey ≠ item.itemKey)) = before := by
        refine List.filter_eq_self.mpr fun other mem => decide_eq_true fun same => ?_
        rw [List.map_append, List.map_cons] at distinct
        have apart := (List.nodup_append.mp distinct).2.2
        exact apart _ (List.mem_map_of_mem mem) _ List.mem_cons_self same
      rw [List.foldl_cons, kept, ih _ (by rw [List.append_assoc]; exact distinct),
        List.append_assoc]
      rfl
  exact folded [] items distinct

theorem mem_readyKeys : key ∈ readyKeys remaining resolved ↔
    ∃ item ∈ remaining, item.dependsOn ⊆ resolved ∧ item.itemKey = key := by
  rw [readyKeys, List.mem_insertionSort, List.mem_map]
  constructor
  · rintro ⟨item, mem, same⟩
    obtain ⟨mem, ready⟩ := List.mem_filter.mp mem
    exact ⟨item, mem, of_decide_eq_true ready, same⟩
  · rintro ⟨item, mem, ready, same⟩
    exact ⟨item, List.mem_filter.mpr ⟨mem, decide_eq_true ready⟩, same⟩

theorem readyKeys_nodup (distinct : (remaining.map (·.itemKey)).Nodup) :
    (readyKeys remaining resolved).Nodup :=
  (List.perm_insertionSort _ _).nodup_iff.mpr ((List.filter_sublist.map _).nodup distinct)

theorem find_key (distinct : (remaining.map (·.itemKey)).Nodup) {item : WorkItemRow}
    (mem : item ∈ remaining) :
    (remaining.find? fun other => other.itemKey = item.itemKey) = some item := by
  have some_ : (remaining.find? fun other => decide (other.itemKey = item.itemKey)).isSome = true :=
    List.find?_isSome.mpr ⟨item, mem, decide_eq_true rfl⟩
  obtain ⟨other, found⟩ := Option.isSome_iff_exists.mp some_
  have same : other.itemKey = item.itemKey := by simpa using List.find?_some found
  rw [found, List.inj_on_of_nodup_map distinct (List.mem_of_find?_eq_some found) mem same]

/-- The items of one round, in the order of their keys. -/
theorem popped_perm (distinct : (remaining.map (·.itemKey)).Nodup) :
    ((readyKeys remaining resolved).filterMap fun key =>
      remaining.find? fun item => item.itemKey = key).Perm
        (remaining.filter fun item => item.itemKey ∈ readyKeys remaining resolved) := by
  refine (List.perm_ext_iff_of_nodup ?_ ?_).mpr fun item => ?_
  · refine (readyKeys_nodup distinct).filterMap fun key key' item found found' => ?_
    have same : item.itemKey = key := by simpa using List.find?_some found
    have same' : item.itemKey = key' := by simpa using List.find?_some found'
    exact same.symm.trans same'
  · exact distinct.of_map.filter _
  · rw [List.mem_filterMap, List.mem_filter]
    constructor
    · rintro ⟨key, mem, found⟩
      have same : item.itemKey = key := by simpa using List.find?_some found
      exact ⟨List.mem_of_find?_eq_some found, decide_eq_true (same ▸ mem)⟩
    · rintro ⟨mem, ready⟩
      exact ⟨item.itemKey, of_decide_eq_true ready, find_key distinct mem⟩

theorem Sequenced.mono {resolved' : List String} (sequenced : Sequenced resolved items)
    (more : resolved ⊆ resolved') : Sequenced resolved' items := by
  induction items generalizing resolved resolved' with
  | nil => trivial
  | cons item items ih =>
    obtain ⟨first, rest⟩ := sequenced
    refine ⟨fun d mem => more (first mem), ih rest ?_⟩
    exact List.append_subset.mpr ⟨fun d mem => List.mem_append_left _ (more mem),
      List.subset_append_right _ _⟩

theorem Sequenced.append (ready : ∀ item ∈ items, item.dependsOn ⊆ resolved)
    (rest : Sequenced (resolved ++ items.map (·.itemKey)) items') :
    Sequenced resolved (items ++ items') := by
  induction items generalizing resolved with
  | nil =>
    rw [List.map_nil, List.append_nil] at rest
    exact rest
  | cons item items ih =>
    obtain ⟨first, ready⟩ := List.forall_mem_cons.mp ready
    refine ⟨first, ih (fun other mem d named => ?_) ?_⟩
    · exact List.mem_append_left _ (ready other mem named)
    · rw [List.map_cons, List.append_cons] at rest
      exact rest

/-- Some item is ready in every round. -/
theorem readyKeys_ne_nil {link : String → String → Prop} (acyclic : ∀ key, ¬ TransGen link key key)
    (links : ∀ item ∈ remaining, ∀ d ∈ item.dependsOn, link item.itemKey d)
    (known : ∀ item ∈ remaining, ∀ d ∈ item.dependsOn,
      d ∈ resolved ∨ d ∈ remaining.map (·.itemKey)) (some_ : remaining ≠ []) :
    readyKeys remaining resolved ≠ [] := by
  have keys : remaining.map (·.itemKey) ≠ [] := fun nil => some_ (List.map_eq_nil_iff.mp nil)
  obtain ⟨key, mem, last⟩ := exists_unlinked acyclic keys
  obtain ⟨item, there, rfl⟩ := List.mem_map.mp mem
  have ready : item.dependsOn ⊆ resolved := by
    intro d named
    obtain before | later := known item there d named
    · exact before
    · exact absurd (links item there d named) (last d later)
  exact List.ne_nil_of_mem (mem_readyKeys.mpr ⟨item, there, ready, rfl⟩)

theorem layers_eq (some_ : remaining ≠ []) (ready : readyKeys remaining resolved ≠ []) :
    layers (fuel + 1) remaining resolved = (do
      let rest ← layers fuel
        (remaining.filter fun item => item.itemKey ∉ readyKeys remaining resolved)
        (resolved ++ readyKeys remaining resolved)
      return ((readyKeys remaining resolved).filterMap fun key =>
        remaining.find? fun item => item.itemKey = key) ++ rest) := by
  rw [layers, if_neg some_, refuse_of_not ready, ok_bind]

/-- Round after round, all items are put into order. -/
theorem layers_ok {link : String → String → Prop} (acyclic : ∀ key, ¬ TransGen link key key)
    (links : ∀ item ∈ remaining, ∀ d ∈ item.dependsOn, link item.itemKey d)
    (distinct : (remaining.map (·.itemKey)).Nodup)
    (known : ∀ item ∈ remaining, ∀ d ∈ item.dependsOn,
      d ∈ resolved ∨ d ∈ remaining.map (·.itemKey))
    (enough : remaining.length ≤ fuel) :
    ∃ ordered, layers fuel remaining resolved = .ok ordered ∧ ordered.Perm remaining ∧
      Sequenced resolved ordered := by
  induction fuel generalizing remaining resolved with
  | zero =>
    have none_ : remaining = [] := List.length_eq_zero_iff.mp (Nat.le_zero.mp enough)
    rw [none_]
    exact ⟨[], rfl, .nil, trivial⟩
  | succ fuel ih =>
    by_cases none_ : remaining = []
    · rw [none_]
      exact ⟨[], rfl, .nil, trivial⟩
    have some_ := readyKeys_ne_nil acyclic links known none_
    have popped := @popped_perm remaining resolved distinct
    have kept : ∀ item ∈ remaining.filter fun item =>
        decide (item.itemKey ∉ readyKeys remaining resolved), item ∈ remaining :=
      fun item mem => (List.mem_filter.mp mem).1
    have halves := List.filter_append_perm (fun item : WorkItemRow =>
      decide (item.itemKey ∈ readyKeys remaining resolved)) remaining
    have same : remaining.filter (fun item =>
          decide (item.itemKey ∉ readyKeys remaining resolved)) =
        remaining.filter fun item => !decide (item.itemKey ∈ readyKeys remaining resolved) :=
      List.filter_congr fun item _ => decide_not
    have fewer : (remaining.filter fun item =>
        decide (item.itemKey ∉ readyKeys remaining resolved)).length ≤ fuel := by
      have total := halves.length_eq
      obtain ⟨key, mem⟩ := List.exists_mem_of_ne_nil _ some_
      obtain ⟨item, there, -, rfl⟩ := mem_readyKeys.mp mem
      have first : item ∈ remaining.filter fun item =>
          decide (item.itemKey ∈ readyKeys remaining resolved) :=
        List.mem_filter.mpr ⟨there, decide_eq_true mem⟩
      have first := List.length_pos_of_mem first
      rw [List.length_append] at total
      rw [same]
      omega
    obtain ⟨rest, ordered, perm, sequenced⟩ := @ih (remaining.filter fun item =>
        decide (item.itemKey ∉ readyKeys remaining resolved))
      (resolved ++ readyKeys remaining resolved)
      (fun item mem => links item (kept item mem))
      ((List.filter_sublist.map _).nodup distinct) (by
        intro item mem d named
        obtain before | later := known item (kept item mem) d named
        · exact .inl (List.mem_append_left _ before)
        · by_cases ready : d ∈ readyKeys remaining resolved
          · exact .inl (List.mem_append_right _ ready)
          · obtain ⟨other, there, rfl⟩ := List.mem_map.mp later
            exact .inr (List.mem_map_of_mem
              (List.mem_filter.mpr ⟨there, decide_eq_true ready⟩))) fewer
    have run : layers (fuel + 1) remaining resolved =
        .ok (((readyKeys remaining resolved).filterMap fun key =>
          remaining.find? fun item => decide (item.itemKey = key)) ++ rest) := by
      rw [layers_eq none_ some_, ordered]
      rfl
    refine ⟨_, run, ?_, Sequenced.append ?_ (sequenced.mono ?_)⟩
    · refine (popped.append perm).trans ?_
      rw [same]
      exact halves
    · intro item mem
      obtain ⟨mem, ready⟩ := List.mem_filter.mp (popped.mem_iff.mp mem)
      obtain ⟨other, there, named, equal⟩ := mem_readyKeys.mp (of_decide_eq_true ready)
      rw [← List.inj_on_of_nodup_map distinct there mem equal]
      exact named
    · refine List.append_subset.mpr ⟨List.subset_append_left _ _, fun key mem => ?_⟩
      obtain ⟨item, there, -, rfl⟩ := mem_readyKeys.mp mem
      exact List.mem_append_right _ (List.mem_map_of_mem
        (popped.mem_iff.mpr (List.mem_filter.mpr ⟨there, decide_eq_true mem⟩)))

theorem readyKeys_perm (perm : remaining.Perm remaining') :
    readyKeys remaining resolved = readyKeys remaining' resolved := by
  have same : ((remaining.filter fun item => decide (item.dependsOn ⊆ resolved)).map
      (·.itemKey)).Perm ((remaining'.filter fun item => decide (item.dependsOn ⊆ resolved)).map
        (·.itemKey)) := (perm.filter _).map _
  exact (((List.perm_insertionSort _ _).trans same).trans
    (List.perm_insertionSort _ _).symm).eq_of_pairwise' (List.pairwise_insertionSort _ _)
      (List.pairwise_insertionSort _ _)

/-- The order of the items before does not matter. -/
theorem layers_perm (distinct : (remaining.map (·.itemKey)).Nodup)
    (perm : remaining.Perm remaining') :
    layers fuel remaining resolved = layers fuel remaining' resolved := by
  induction fuel generalizing remaining remaining' resolved with
  | zero => rfl
  | succ fuel ih =>
    have distinct' := (perm.map (·.itemKey)).nodup_iff.mp distinct
    by_cases none_ : remaining = []
    · rw [none_] at perm ⊢
      rw [List.nil_perm.mp perm]
    have none_' : remaining' ≠ [] := fun nil => none_ (List.perm_nil.mp (nil ▸ perm))
    have popped : ((readyKeys remaining' resolved).filterMap fun key =>
        remaining.find? fun item => decide (item.itemKey = key)) =
        (readyKeys remaining' resolved).filterMap fun key =>
          remaining'.find? fun item => decide (item.itemKey = key) := by
      refine List.filterMap_congr fun key mem => ?_
      obtain ⟨item, there, -, rfl⟩ := mem_readyKeys.mp mem
      rw [find_key distinct (perm.mem_iff.mpr there), find_key distinct' there]
    rw [layers, layers, if_neg none_, if_neg none_', readyKeys_perm perm, popped,
      ih ((List.filter_sublist.map _).nodup distinct) (perm.filter _)]

end Layers

/-! ## What is accepted is put into order -/

/-- The rows hold the keys and the dependencies of the definitions. -/
def Stores (items : List WorkItemDefinition) (rows : List WorkItemRow) : Prop :=
  (rows.map fun row => (row.itemKey, row.dependsOn)).Perm
    (items.map fun item => (item.key, item.dependsOn))

namespace Release

theorem without_approval : false = true → (none : Option EffectBinding).isSome = true := by
  intro required
  cases required

theorem without_cost : 0 ≠ 0 → (none : Option EffectBinding).isSome = true := by
  intro costs
  exact absurd rfl costs

def item (key : String) (dependsOn : List String) (pattern : keyPattern key = true)
    (other : key ∉ dependsOn) : WorkItemDefinition where
  key := key
  title := "Build"
  dependsOn := dependsOn
  costUnits := 0
  requiresApproval := false
  effect := none
  key_pattern := pattern
  title_length := by decide
  approval_requires_effect := without_approval
  budget_cost_requires_effect := without_cost
  not_self_dependent := other

def release : List WorkItemDefinition :=
  [item "publish" ["test", "build"] (by decide) (by decide), item "test" ["build"] (by decide)
    (by decide), item "build" [] (by decide) (by decide)]

end Release

end Corvus.Mvp
