import Corvus.Mvp.Models

/-!
# Validation of a workflow graph

`CorvusService._validate_graph`. The depth-first search keeps the keys on the
current path in `visiting` and the finished ones in `visited`; meeting a key that
is still on the path is a cycle. Each nested call puts one more key of the list on
the path, so the recursion never needs more levels than there are keys and one to
meet a repeated key; `fuel` counts these levels.
-/

namespace Corvus.Mvp

/-- The keys on the current path and those whose dependencies are all visited. -/
structure Marks where
  visiting : List String
  visited : List String

/-- The nested function `visit` of `_validate_graph`. -/
def visit (dependencies : String → List String) : Nat → Marks → String → Except Error Marks
  | 0, _, _ => .error (.value "workflow_dependency_cycle")
  | fuel + 1, marks, key =>
      if key ∈ marks.visiting then .error (.value "workflow_dependency_cycle")
      else if key ∈ marks.visited then .ok marks
      else do
        let after ← (dependencies key).foldlM (visit dependencies fuel)
          { marks with visiting := key :: marks.visiting }
        return { visiting := after.visiting.erase key, visited := key :: after.visited }

/-- The dictionary `dependencies`, total because every key that is looked up is one
of the list. -/
def dependenciesOf (items : List WorkItemDefinition) (key : String) : List String :=
  ((items.find? fun item => decide (item.key = key)).map (·.dependsOn)).getD []

def validateGraph (items : List WorkItemDefinition) : Except Error Unit := do
  if items.isEmpty then throw (.value "workflow_requires_work_items")
  let keys := items.map (·.key)
  if ¬ keys.Nodup then throw (.value "duplicate_work_item_key")
  if ¬ ∀ item ∈ items, ∀ d ∈ item.dependsOn, d ∈ keys then
    throw (.value "unknown_work_item_dependency")
  let _ ← keys.foldlM (visit (dependenciesOf items) (keys.length + 1)) ⟨[], []⟩
  return ()

/-- What an accepted graph guarantees about its list of definitions: distinct keys,
and dependencies that name keys of the list. -/
theorem validateGraph_ok {items : List WorkItemDefinition} (h : validateGraph items = .ok ()) :
    items ≠ [] ∧ (items.map (·.key)).Nodup ∧
      ∀ item ∈ items, ∀ d ∈ item.dependsOn, d ∈ items.map (·.key) := by
  unfold validateGraph at h
  by_cases empty : items.isEmpty = true
  · rw [if_pos empty] at h
    cases h
  by_cases distinct : (items.map (·.key)).Nodup
  · by_cases known : ∀ item ∈ items, ∀ d ∈ item.dependsOn, d ∈ items.map (·.key)
    · exact ⟨by simpa using empty, distinct, known⟩
    · rw [if_neg empty] at h
      simp only [distinct, known, not_true_eq_false, not_false_eq_true, if_false, if_true] at h
      cases h
  · rw [if_neg empty] at h
    simp only [distinct, not_false_eq_true, if_true] at h
    cases h

end Corvus.Mvp
