import Mathlib.Data.List.Basic
import Mathlib.Data.List.MinMax
import Mathlib.Data.List.Sort
import Mathlib.Data.List.TakeWhile

/-!
# Append-only logs

A log is a list of entries that are numbered from one and of which each is linked to the
one before it, as by a digest. Only appending the next number keeps it, and the latest
entry is the last one, however it is looked up.
-/

namespace Corvus

variable {α : Type} {number : α → Nat} {link link' : Option α → α → Prop} {rows more : List α}
  {last : Option α} {a b : α}

/-- Each entry is linked to the one before it, and the first to `last`. -/
def Linked (link : Option α → α → Prop) : Option α → List α → Prop
  | _, [] => True
  | last, a :: rows => link last a ∧ Linked link (some a) rows

theorem linked_append :
    Linked link last (rows ++ [a]) ↔ Linked link last rows ∧ link (rows.getLast?.or last) a := by
  induction rows generalizing last with
  | nil => simp [Linked]
  | cons b rows ih =>
    have same : ((b :: rows).getLast?.or last) = rows.getLast?.or (some b) := by
      rw [List.getLast?_cons]
      cases rows.getLast? <;> rfl
    rw [List.cons_append, Linked, Linked, ih, same, and_assoc]

theorem Linked.map {g : α → α} (h : Linked link last rows)
    (links : ∀ l, ∀ a ∈ rows, link l a → link' (l.map g) (g a)) :
    Linked link' (last.map g) (rows.map g) := by
  induction rows generalizing last with
  | nil => trivial
  | cons b rows ih =>
    refine ⟨links _ b List.mem_cons_self h.1, ih h.2 fun l a mem => ?_⟩
    exact links l a (List.mem_cons_of_mem _ mem)

/-- What each link carries from one entry to the next, and whatever carries on, every entry has
with every later one. -/
theorem Linked.pairwise {R : α → α → Prop} (h : Linked link last rows)
    (step : ∀ b a, link (some b) a → R b a) (trans : ∀ a b c, R a b → R b c → R a c) :
    rows.Pairwise R ∧ ∀ b ∈ last, ∀ a ∈ rows, R b a := by
  induction rows generalizing last with
  | nil => exact ⟨List.Pairwise.nil, fun _ _ _ mem => absurd mem List.not_mem_nil⟩
  | cons c rows ih =>
    obtain ⟨later, from_c⟩ := ih h.2
    refine ⟨List.Pairwise.cons (from_c c rfl) later, fun b hb a mem => ?_⟩
    have first : R b c := by
      have linked := h.1
      rw [Option.mem_def.mp hb] at linked
      exact step b c linked
    obtain rfl | mem := List.mem_cons.mp mem
    · exact first
    · exact trans b c a first (from_c c rfl a mem)

/-- What exceeds every entry of a list is the greatest one when it is appended. -/
theorem argmax_append {f : α → Nat} (exceeds : ∀ b ∈ rows, f b < f a) :
    (rows ++ [a]).argmax f = some a := by
  rw [List.argmax_concat]
  cases greatest : rows.argmax f with
  | none => rfl
  | some b => exact if_pos (exceeds b (List.argmax_mem greatest))

/-- The greatest entry of an increasing list is the last one. -/
theorem argmax_of_pairwise {f : α → Nat} (increasing : rows.Pairwise fun a b => f a < f b) :
    rows.argmax f = rows.getLast? := by
  cases rows using List.reverseRecOn with
  | nil => rfl
  | append_singleton rows a =>
    rw [List.getLast?_concat]
    apply argmax_append
    intro b mem
    exact (List.pairwise_append.mp increasing).2.2 b mem a (List.mem_singleton_self a)

/-- Entries that are numbered from one and linked. -/
structure Log (number : α → Nat) (link : Option α → α → Prop) (rows : List α) : Prop where
  numbered : rows.map number = List.range' 1 rows.length
  linked : Linked link none rows

namespace Log

theorem nil : Log number link [] := ⟨rfl, trivial⟩

/-- Entries that are numbered from one, whatever links them. -/
theorem of_numbered (numbered : rows.map number = List.range' 1 rows.length) :
    Log number (fun _ _ => True) rows := by
  refine ⟨numbered, ?_⟩
  clear numbered
  generalize none = last
  induction rows generalizing last with
  | nil => trivial
  | cons b rows ih => exact ⟨trivial, ih _⟩

theorem append (h : Log number link rows) (next : number a = rows.length + 1)
    (fits : link rows.getLast? a) : Log number link (rows ++ [a]) := by
  constructor
  · rw [List.map_append, h.numbered, List.map_singleton, next, List.length_append,
      List.length_singleton, List.range'_concat]
    simp [Nat.add_comm]
  · exact linked_append.mpr ⟨h.linked, by rwa [Option.or_none]⟩

/-- Appending to a list keeps the log of the entries of a kind when an entry of the kind is the
next of its log. -/
theorem filter_append {p : α → Bool} (h : Log number link (rows.filter p))
    (next : p a = true → number a = (rows.filter p).length + 1 ∧
      link (rows.filter p).getLast? a) : Log number link ((rows ++ [a]).filter p) := by
  rw [List.filter_append]
  by_cases kind : p a = true
  · rw [List.filter_cons_of_pos kind, List.filter_nil]
    exact h.append (next kind).1 (next kind).2
  · rw [List.filter_cons_of_neg kind, List.filter_nil, List.append_nil]
    exact h

/-- Rewriting entries without their numbers and their links. -/
theorem map {g : α → α} (h : Log number link rows) (numbers : ∀ a ∈ rows, number (g a) = number a)
    (links : ∀ l, ∀ a ∈ rows, link l a → link (l.map g) (g a)) :
    Log number link (rows.map g) := by
  constructor
  · rw [List.map_map, List.length_map, ← h.numbered]
    exact List.map_congr_left numbers
  · exact h.linked.map links

theorem filter_map {p : α → Bool} {g : α → α} (h : Log number link (rows.filter p))
    (kinds : ∀ a, p (g a) = p a) (numbers : ∀ a, number (g a) = number a)
    (links : ∀ l a, link l a → link (l.map g) (g a)) :
    Log number link ((rows.map g).filter p) := by
  have same : p ∘ g = p := funext kinds
  rw [List.filter_map, same]
  exact h.map (fun a _ => numbers a) fun l a _ => links l a

theorem number_getLast? (h : Log number link rows) :
    (rows.getLast?.map number).getD 0 = rows.length := by
  rw [← List.getLast?_map, h.numbered, List.getLast?_range']
  split
  · simp_all
  · rw [Option.getD_some]
    omega

theorem number_of_getLast? (h : Log number link rows) (last : rows.getLast? = some a) :
    number a = rows.length := by
  have := h.number_getLast?
  rwa [last] at this

theorem getElem_number (h : Log number link rows) {i : Nat} (lt : i < rows.length) :
    number rows[i] = i + 1 := by
  have same : (rows.map number)[i]? = (List.range' 1 rows.length)[i]? := by rw [h.numbered]
  rw [List.getElem?_map, List.getElem?_eq_getElem lt, List.getElem?_range' lt] at same
  rw [Option.some.inj same]
  omega

/-- The start of a log is one. -/
theorem start (h : Log number link (rows ++ more)) : Log number link rows := by
  induction more using List.reverseRecOn with
  | nil => rwa [List.append_nil] at h
  | append_singleton more a ih =>
    rw [← List.append_assoc] at h
    refine ih ⟨?_, (linked_append.mp h.linked).1⟩
    have numbered := h.numbered
    rw [List.length_append, List.length_singleton, List.range'_concat, List.map_append] at numbered
    exact (List.append_inj' numbered rfl).1

/-- What an entry follows. -/
theorem follows (h : Log number link (rows ++ [a])) :
    number a = rows.length + 1 ∧ link rows.getLast? a := by
  constructor
  · have last := h.number_of_getLast? List.getLast?_concat
    rwa [List.length_append, List.length_singleton] at last
  · have linked := (linked_append.mp h.linked).2
    rwa [Option.or_none] at linked

/-- The entries after a number. -/
theorem filter_gt (h : Log number link rows) (k : Nat) :
    rows.filter (fun a => k < number a) = rows.drop k := by
  conv_lhs => rw [← List.take_append_drop k rows]
  rw [List.filter_append]
  have before : (rows.take k).filter (fun a => k < number a) = [] := by
    refine List.filter_eq_nil_iff.mpr fun a mem => ?_
    obtain ⟨i, lt, rfl⟩ := List.mem_take_iff_getElem.mp mem
    rw [h.getElem_number (by omega)]
    simp only [decide_eq_true_eq]
    omega
  have after : (rows.drop k).filter (fun a => k < number a) = rows.drop k := by
    refine List.filter_eq_self.mpr fun a mem => ?_
    obtain ⟨i, lt, rfl⟩ := List.mem_drop_iff_getElem.mp mem
    rw [h.getElem_number (by omega)]
    simp only [decide_eq_true_eq]
    omega
  rw [before, after, List.nil_append]

/-- The entries up to a number. -/
theorem filter_le (h : Log number link rows) (k : Nat) :
    rows.filter (fun a => number a ≤ k) = rows.take k := by
  conv_lhs => rw [← List.take_append_drop k rows]
  rw [List.filter_append]
  have before : (rows.take k).filter (fun a => number a ≤ k) = rows.take k := by
    refine List.filter_eq_self.mpr fun a mem => ?_
    obtain ⟨i, lt, rfl⟩ := List.mem_take_iff_getElem.mp mem
    rw [h.getElem_number (by omega)]
    simp only [decide_eq_true_eq]
    omega
  have after : (rows.drop k).filter (fun a => number a ≤ k) = [] := by
    refine List.filter_eq_nil_iff.mpr fun a mem => ?_
    obtain ⟨i, lt, rfl⟩ := List.mem_drop_iff_getElem.mp mem
    rw [h.getElem_number (by omega)]
    simp only [decide_eq_true_eq]
    omega
  rw [before, after, List.append_nil]

/-- From a position on, the entries after a number. -/
theorem dropWhile_le (h : Log number link rows) (n k : Nat) :
    (rows.drop n).dropWhile (fun a => number a ≤ k) = rows.drop (max n k) := by
  have split : rows.drop n = (rows.drop n).take (k - n) ++ rows.drop (max n k) := by
    conv_lhs => rw [← List.take_append_drop (k - n) (rows.drop n)]
    rw [List.drop_drop, show n + (k - n) = max n k by omega]
  rw [split, List.dropWhile_append_of_pos]
  · refine List.dropWhile_eq_self_iff.mpr fun some_ => ?_
    rw [List.length_drop] at some_
    rw [List.getElem_drop, h.getElem_number (by omega)]
    simp only [decide_eq_true_eq]
    omega
  · intro a mem
    obtain ⟨i, lt, rfl⟩ := List.mem_take_iff_getElem.mp mem
    rw [List.length_drop] at lt
    rw [List.getElem_drop, h.getElem_number (by omega)]
    simp only [decide_eq_true_eq]
    omega

/-- A number is at least one and at most the length. -/
theorem number_bounds (h : Log number link rows) (mem : a ∈ rows) :
    1 ≤ number a ∧ number a ≤ rows.length := by
  have inside : number a ∈ List.range' 1 rows.length := h.numbered ▸ List.mem_map_of_mem mem
  rw [List.mem_range'_1] at inside
  omega

/-- A log that has an entry has a first one. -/
theorem exists_first (h : Log number link rows) (mem : a ∈ rows) : ∃ b ∈ rows, number b = 1 := by
  have bounds := h.number_bounds mem
  have inside : 1 ∈ rows.map number := by
    rw [h.numbered]
    exact List.mem_range'_1.mpr ⟨by omega, by omega⟩
  exact List.mem_map.mp inside

theorem pairwise (h : Log number link rows) : rows.Pairwise fun a b => number a < number b := by
  have sorted : (rows.map number).Pairwise (· < ·) := h.numbered ▸ List.pairwise_lt_range'
  exact List.pairwise_map.mp sorted

/-- Of two entries with one number there is one. -/
theorem eq_of_number (h : Log number link rows) (first : a ∈ rows) (second : b ∈ rows)
    (same : number a = number b) : a = b := by
  have nodup : (rows.map number).Nodup := h.numbered ▸ List.nodup_range'
  exact List.inj_on_of_nodup_map nodup first second same

/-- What each link carries on holds of every two entries of which one has the lesser number. -/
theorem rel_of_number_lt {R : α → α → Prop} (h : Log number link rows)
    (step : ∀ b a, link (some b) a → R b a) (trans : ∀ a b c, R a b → R b c → R a c)
    (first : a ∈ rows) (second : b ∈ rows) (lt : number a < number b) : R a b := by
  have later := (h.linked.pairwise step trans).1
  refine List.Pairwise.forall_of_forall_of_flip
    (R := fun a b => number a < number b → R a b) ?_ ?_ ?_ first second lt
  · exact fun _ _ lt => absurd lt (Nat.lt_irrefl _)
  · refine later.imp ?_
    exact fun carried _ => carried
  · refine h.pairwise.imp fun lt lt' => ?_
    omega

/-- What no link lets fall does not fall from one number to a greater one. -/
theorem le_of_number_le (h : Log number link rows) {f : α → Nat}
    (step : ∀ b a, link (some b) a → f b ≤ f a) (first : a ∈ rows) (second : b ∈ rows)
    (le : number a ≤ number b) : f a ≤ f b := by
  obtain lt | same := Nat.lt_or_eq_of_le le
  · exact h.rel_of_number_lt (R := fun a b => f a ≤ f b) step (fun _ _ _ => Nat.le_trans) first
      second lt
  · rw [h.eq_of_number first second same]

/-- The greatest number, if there is one, is the length. -/
theorem max? (h : Log number link rows) : ((rows.map number).max?).getD 0 = rows.length := by
  rw [h.numbered]
  cases length : rows.length with
  | zero => rfl
  | succ n =>
    have greatest : (List.range' 1 (n + 1)).max? = some (n + 1) := by
      refine List.max?_eq_some_iff.mpr ⟨?_, fun m mem => ?_⟩
      · exact List.mem_range'_1.mpr ⟨by omega, by omega⟩
      · have bounds := List.mem_range'_1.mp mem
        omega
    rw [greatest, Option.getD_some]

/-- The least number, if there is one, is one. -/
theorem min? (h : Log number link rows) : ((rows.map number).min?).getD 1 = 1 := by
  rw [h.numbered]
  cases length : rows.length with
  | zero => rfl
  | succ n =>
    have least : (List.range' 1 (n + 1)).min? = some 1 := by
      refine List.min?_eq_some_iff.mpr ⟨?_, fun m mem => ?_⟩
      · exact List.mem_range'_1.mpr ⟨by omega, by omega⟩
      · exact (List.mem_range'_1.mp mem).1
    rw [least, Option.getD_some]

/-- The number of the last entry of a part. -/
theorem number_part (h : Log number link rows) {from_ count : Nat}
    (within : from_ + count ≤ rows.length) :
    (((rows.drop from_).take count).getLast?.map number).getD from_ = from_ + count := by
  cases count with
  | zero => simp
  | succ count =>
    have inside : from_ + count < rows.length := by omega
    have last : ((rows.drop from_).take (count + 1)).getLast? = some rows[from_ + count] := by
      rw [List.getLast?_eq_getElem?, List.length_take, List.length_drop,
        Nat.min_eq_left (by omega), List.getElem?_take_of_lt (by omega), List.getElem?_drop,
        Nat.add_sub_cancel, List.getElem?_eq_getElem]
    rw [last, Option.map_some, Option.getD_some, h.getElem_number]
    omega

/-- The entry of the greatest number is the last one. -/
theorem argmax (h : Log number link rows) : rows.argmax number = rows.getLast? := by
  classical
  cases latest : rows.getLast? with
  | none => rw [List.getLast?_eq_none_iff.mp latest, List.argmax_nil]
  | some a =>
    have mem := List.mem_of_getLast? latest
    have number_eq := h.number_of_getLast? latest
    refine List.argmax_eq_some_iff.mpr ⟨mem, fun b inside => ?_, fun b inside le => ?_⟩
    · rw [number_eq]
      exact (h.number_bounds inside).2
    · have same : a = b := by
        refine h.eq_of_number mem inside ?_
        have bounds := h.number_bounds inside
        omega
      rw [same]

/-- Sorting a log by its numbers leaves it as it is. -/
theorem insertionSort (h : Log number link rows) :
    rows.insertionSort (fun a b => number a ≤ number b) = rows :=
  List.Pairwise.insertionSort_eq (h.pairwise.imp fun lt => Nat.le_of_lt lt)

end Log

end Corvus
