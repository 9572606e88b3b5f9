import Corvus.Library.Loads

/-!
# JSON text in the order of the members

`compact` writes the members of every object as they stand. The canonical text of a value
is the compact text of the value with its objects sorted, and what is read from a compact
text is the value that was written, so that the two texts of a value agree exactly when
its objects are in order already.
-/

namespace Corvus.Json

variable {r : List Char}

mutual

/-- `json.dumps` of a value whose members come in this order. -/
def compact : Json → List Char
  | arr items => '[' :: [','].intercalate (compactItems items) ++ [']']
  | obj members => '{' :: [','].intercalate ((compactMembers members).map memberText) ++ ['}']
  | null => encode null
  | bool value => encode (bool value)
  | int n => encode (int n)
  | float repr => encode (float repr)
  | str s => encode (str s)

def compactItems : List Json → List (List Char)
  | [] => []
  | x :: xs => compact x :: compactItems xs

def compactMembers : List (String × Json) → List (String × List Char)
  | [] => []
  | (k, x) :: xs => (k, compact x) :: compactMembers xs

end

mutual

/-- A value with the members of every object in the order of their names. -/
def arrange : Json → Json
  | arr items => arr (arrangeItems items)
  | obj members => obj (sortMembers (arrangeMembers members))
  | null => null
  | bool value => bool value
  | int n => int n
  | float repr => float repr
  | str s => str s

def arrangeItems : List Json → List Json
  | [] => []
  | x :: xs => arrange x :: arrangeItems xs

def arrangeMembers : List (String × Json) → List (String × Json)
  | [] => []
  | (k, x) :: xs => (k, arrange x) :: arrangeMembers xs

end

mutual

/-- The floats of a value are told from its integers. -/
def Readable : Json → Prop
  | float repr => Canonical (float repr)
  | arr items => ReadableItems items
  | obj members => ReadableMembers members
  | null | bool _ | int _ | str _ => True

def ReadableItems : List Json → Prop
  | [] => True
  | x :: xs => Readable x ∧ ReadableItems xs

def ReadableMembers : List (String × Json) → Prop
  | [] => True
  | (_, x) :: xs => Readable x ∧ ReadableMembers xs

end

/-! ## Lists of values -/

theorem compactItems_eq (items : List Json) : compactItems items = items.map compact := by
  induction items with
  | nil => rfl
  | cons x xs ih => exact congrArg (compact x :: ·) ih

theorem compactMembers_eq (members : List (String × Json)) :
    compactMembers members = members.map fun m => (m.1, compact m.2) := by
  induction members with
  | nil => rfl
  | cons m ms ih => exact congrArg ((m.1, compact m.2) :: ·) ih

theorem arrangeItems_eq (items : List Json) : arrangeItems items = items.map arrange := by
  induction items with
  | nil => rfl
  | cons x xs ih => exact congrArg (arrange x :: ·) ih

theorem arrangeMembers_eq (members : List (String × Json)) :
    arrangeMembers members = members.map fun m => (m.1, arrange m.2) := by
  induction members with
  | nil => rfl
  | cons m ms ih => exact congrArg ((m.1, arrange m.2) :: ·) ih

theorem compact_arr (items : List Json) :
    compact (arr items) = '[' :: [','].intercalate (items.map compact) ++ [']'] :=
  congrArg (fun texts => '[' :: [','].intercalate texts ++ [']']) (compactItems_eq items)

theorem compact_obj (members : List (String × Json)) : compact (obj members) =
    '{' :: [','].intercalate (members.map fun m => memberText (m.1, compact m.2)) ++ ['}'] := by
  show '{' :: [','].intercalate ((compactMembers members).map memberText) ++ ['}'] = _
  rw [compactMembers_eq, List.map_map]
  rfl

theorem arrange_arr (items : List Json) : arrange (arr items) = arr (items.map arrange) :=
  congrArg arr (arrangeItems_eq items)

theorem arrange_obj (members : List (String × Json)) :
    arrange (obj members) = obj (sortMembers (members.map fun m => (m.1, arrange m.2))) :=
  congrArg (fun members => obj (sortMembers members)) (arrangeMembers_eq members)

theorem readableItems_iff {items : List Json} : ReadableItems items ↔ ∀ v ∈ items, Readable v := by
  induction items with
  | nil => exact ⟨fun _ => List.forall_mem_nil _, fun _ => trivial⟩
  | cons x xs ih => exact (and_congr_right' ih).trans List.forall_mem_cons.symm

theorem readableMembers_iff {members : List (String × Json)} :
    ReadableMembers members ↔ ∀ m ∈ members, Readable m.2 := by
  induction members with
  | nil => exact ⟨fun _ => List.forall_mem_nil _, fun _ => trivial⟩
  | cons m ms ih =>
    rw [List.forall_mem_cons, ← ih]
    exact Iff.rfl

mutual

/-- What holds of an array by its items and of an object by its members holds of every
value. -/
theorem nested {P : Json → Prop} (flat : ∀ v, kind v < 4 → P v)
    (arr_ : ∀ items, (∀ x ∈ items, P x) → P (arr items))
    (obj_ : ∀ members, (∀ m ∈ members, P m.2) → P (obj members)) : ∀ v, P v
  | arr items => arr_ items (nestedItems flat arr_ obj_ items)
  | obj members => obj_ members (nestedMembers flat arr_ obj_ members)
  | null => flat _ (by decide)
  | bool _ | int _ | float _ | str _ => flat _ (by simp [kind])

theorem nestedItems {P : Json → Prop} (flat : ∀ v, kind v < 4 → P v)
    (arr_ : ∀ items, (∀ x ∈ items, P x) → P (arr items))
    (obj_ : ∀ members, (∀ m ∈ members, P m.2) → P (obj members)) :
    ∀ items : List Json, ∀ x ∈ items, P x
  | [] => fun _ mem => absurd mem List.not_mem_nil
  | x :: xs => List.forall_mem_cons.mpr
      ⟨nested flat arr_ obj_ x, nestedItems flat arr_ obj_ xs⟩

theorem nestedMembers {P : Json → Prop} (flat : ∀ v, kind v < 4 → P v)
    (arr_ : ∀ items, (∀ x ∈ items, P x) → P (arr items))
    (obj_ : ∀ members, (∀ m ∈ members, P m.2) → P (obj members)) :
    ∀ members : List (String × Json), ∀ m ∈ members, P m.2
  | [] => fun _ mem => absurd mem List.not_mem_nil
  | (_, x) :: xs => List.forall_mem_cons.mpr
      ⟨nested flat arr_ obj_ x, nestedMembers flat arr_ obj_ xs⟩

end

/-! ## The canonical text -/

theorem encode_flat {v : Json} (flat : kind v < 4) :
    compact v = encode v ∧ arrange v = v := by
  cases v with
  | arr items => exact absurd flat (by simp [kind])
  | obj members => exact absurd flat (by simp [kind])
  | _ => exact ⟨rfl, rfl⟩

theorem map_sortMembers {α β : Type} (f : α → β) (members : List (String × α)) :
    (sortMembers members).map (fun m => (m.1, f m.2)) =
      sortMembers (members.map fun m => (m.1, f m.2)) :=
  List.map_insertionSort _ _ _ _ fun _ _ _ _ => Iff.rfl

/-- The canonical text is the text of the value in order. -/
theorem encode_eq_compact (v : Json) : encode v = compact (arrange v) := by
  induction v using nested with
  | flat v flat => rw [(encode_flat flat).2, (encode_flat flat).1]
  | arr_ items ih =>
    rw [encode_arr, arrange_arr, compact_arr, encodeItems_eq, List.map_map]
    rw [List.map_congr_left ih]
    rfl
  | obj_ members ih =>
    have texts : (members.map fun m => (m.1, encode m.2)) =
        (members.map fun m => (m.1, arrange m.2)).map fun m => (m.1, compact m.2) := by
      rw [List.map_map]
      exact List.map_congr_left fun m mem => Prod.ext rfl (ih m mem)
    rw [encode_obj, arrange_obj, encodeMembers_eq, texts, ← map_sortMembers, List.map_map]
    exact (compact_obj _).symm

theorem mem_sortMembers {α : Type} {m : String × α} {members : List (String × α)} :
    m ∈ sortMembers members ↔ m ∈ members := List.mem_insertionSort _

theorem readable_arrange (v : Json) (readable : Readable v) : Readable (arrange v) := by
  induction v using nested with
  | flat v flat => rwa [(encode_flat flat).2]
  | arr_ items ih =>
    refine readableItems_iff.mpr fun v mem => ?_
    rw [arrangeItems_eq] at mem
    obtain ⟨w, inside, rfl⟩ := List.mem_map.mp mem
    exact ih w inside (readableItems_iff.mp readable w inside)
  | obj_ members ih =>
    refine readableMembers_iff.mpr fun m mem => ?_
    rw [mem_sortMembers, arrangeMembers_eq] at mem
    obtain ⟨w, inside, rfl⟩ := List.mem_map.mp mem
    exact ih w inside (readableMembers_iff.mp readable w inside)

theorem sorted_sortMembers {α : Type} (members : List (String × α)) :
    (sortMembers members).Pairwise fun a b => a.1 ≤ b.1 :=
  List.pairwise_insertionSort _ _

theorem sortMembers_eq_iff {α : Type} {members : List (String × α)} :
    sortMembers members = members ↔ members.Pairwise fun a b => a.1 ≤ b.1 := by
  constructor
  · intro same
    rw [← same]
    exact sorted_sortMembers members
  · intro sorted
    exact sorted.insertionSort_eq

theorem arrange_arr_iff {items : List Json} :
    arrange (arr items) = arr items ↔ ∀ v ∈ items, arrange v = v := by
  rw [arrange_arr, arr.injEq]
  constructor
  · intro same v mem
    obtain ⟨i, bound, rfl⟩ := List.mem_iff_getElem.mp mem
    have at_ := congrArg (·[i]?) same
    simpa [List.getElem?_map, bound] using at_
  · intro each
    exact (List.map_congr_left each).trans (List.map_id items)

theorem arrange_obj_iff {members : List (String × Json)} :
    arrange (obj members) = obj members ↔
      (members.Pairwise fun a b => a.1 ≤ b.1) ∧ ∀ m ∈ members, arrange m.2 = m.2 := by
  rw [arrange_obj, obj.injEq]
  have names : ∀ l : List (String × Json), (l.map fun m => (m.1, arrange m.2)).Pairwise
      (fun a b => a.1 ≤ b.1) ↔ l.Pairwise fun a b => a.1 ≤ b.1 := fun l => List.pairwise_map
  constructor
  · intro same
    have sorted : members.Pairwise fun a b => a.1 ≤ b.1 := by
      rw [← same]
      exact sorted_sortMembers _
    rw [sortMembers_eq_iff.mpr ((names members).mpr sorted)] at same
    refine ⟨sorted, fun m mem => ?_⟩
    obtain ⟨i, bound, rfl⟩ := List.mem_iff_getElem.mp mem
    have at_ := congrArg (·[i]?) same
    simp only [List.getElem?_map, List.getElem?_eq_getElem bound, Option.map_some,
      Option.some.injEq] at at_
    exact congrArg Prod.snd at_
  · rintro ⟨sorted, each⟩
    rw [sortMembers_eq_iff.mpr ((names members).mpr sorted)]
    refine (List.map_congr_left fun m mem => ?_).trans (List.map_id members)
    exact Prod.ext rfl (each m mem)

/-- The members of an object with its names in order stay where they are. -/
theorem arrange_obj_of_sorted {members : List (String × Json)}
    (sorted : (members.map Prod.fst).Pairwise (· ≤ ·)) :
    arrange (obj members) = obj (members.map fun m => (m.1, arrange m.2)) := by
  rw [arrange_obj, sortMembers_eq_iff.mpr]
  rw [List.pairwise_map]
  exact List.pairwise_map.mp sorted

theorem arrange_arrange (v : Json) : arrange (arrange v) = arrange v := by
  induction v using nested with
  | flat v flat => rw [(encode_flat flat).2, (encode_flat flat).2]
  | arr_ items ih =>
    rw [arrange_arr, arrange_arr, List.map_map]
    exact congrArg arr (List.map_congr_left ih)
  | obj_ members ih =>
    have same : (members.map fun m => (m.1, arrange m.2)).map (fun m => (m.1, arrange m.2)) =
        members.map fun m => (m.1, arrange m.2) := by
      rw [List.map_map]
      exact List.map_congr_left fun m mem => Prod.ext rfl (ih m mem)
    rw [arrange_obj, arrange_obj, map_sortMembers, same]
    exact congrArg obj (sortMembers_eq_iff.mpr (sorted_sortMembers _))

/-- Objects that differ in the order of their members have one canonical text. -/
theorem dumps_arrange (v : Json) : dumps (arrange v) = dumps v := by
  rw [dumps, dumps, encode_eq_compact, arrange_arrange, ← encode_eq_compact]

/-! ## Reading -/

theorem Readable.plain (v : Json) (readable : Readable v) : Plain v := by
  induction v using nested with
  | flat v flat =>
    cases v with
    | float repr => exact readable.1
    | arr items => exact absurd flat (by simp [kind])
    | obj members => exact absurd flat (by simp [kind])
    | _ => trivial
  | arr_ items ih =>
    exact plainItems_iff.mpr fun v mem => ih v mem (readableItems_iff.mp readable v mem)
  | obj_ members ih =>
    exact plainMembers_iff.mpr fun m mem => ih m mem (readableMembers_iff.mp readable m mem)

theorem begins_compact {v : Json} (readable : Readable v) : Begins ']' (compact v) := by
  cases v with
  | arr items => exact ⟨'[', _, rfl, by decide⟩
  | obj members => exact ⟨'{', _, rfl, by decide⟩
  | _ => exact Encoded.begins ⟨_, readable.plain, rfl⟩ (by decide)

/-- A value is read from its compact text. -/
theorem readFrom_compact (v : Json) (readable : Readable v) : ReadFrom v (compact v) := by
  induction v using nested with
  | flat v flat =>
    have canonical : Canonical v := by
      cases v with
      | float repr => exact readable
      | arr items => exact absurd flat (by simp [kind])
      | obj members => exact absurd flat (by simp [kind])
      | _ => trivial
    rw [(encode_flat flat).1]
    exact Canonical.reads v canonical
  | arr_ items ih =>
    have readable := readableItems_iff.mp readable
    rw [compact_arr]
    exact readFrom_arr (fun x mem => begins_compact (readable x mem))
      fun x mem => ih x mem (readable x mem)
  | obj_ members ih =>
    rw [compact_obj]
    exact readFrom_obj fun m mem => ih m mem (readableMembers_iff.mp readable m mem)

theorem loads_compact {v : Json} (readable : Readable v) :
    loads (String.ofList (compact v)) = some v := by
  have reads := readFrom_compact v readable (compact v).length le_rfl [] stops_nil
  rw [List.append_nil] at reads
  rw [loads, String.toList_ofList, String.length_ofList, reads]

/-- What is read from the canonical text is the value in order. -/
theorem loads_dumps_arrange {v : Json} (readable : Readable v) :
    loads (dumps v) = some (arrange v) := by
  rw [dumps, encode_eq_compact]
  exact loads_compact (readable_arrange v readable)

/-- The compact text is the canonical one exactly when the value is in order. -/
theorem compact_eq_dumps_iff {v : Json} (readable : Readable v) :
    String.ofList (compact v) = dumps v ↔ arrange v = v := by
  constructor
  · intro same
    have read := loads_dumps_arrange readable
    rw [← same, loads_compact readable] at read
    exact (Option.some.inj read).symm
  · intro same
    rw [dumps, encode_eq_compact, same]

end Corvus.Json
