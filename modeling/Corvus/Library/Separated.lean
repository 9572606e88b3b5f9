import Mathlib.Data.List.Basic

/-!
# Records written with separators

A list of records, each with a head and a body, is written as one text in which a separator
follows every head and every body. A head never has the separator in it but a body may, and
so the text fixes no more than the pieces between the separators. The lists that give a text
are the groupings of its pieces.
-/

namespace Corvus.Separated

variable {α : Type} [DecidableEq α] {sep : α} {files files' : List (List α × List α)}
  {p c : List α} {segs rest : List (List α)}

/-- The text of a list of records. -/
def joined (sep : α) (files : List (List α × List α)) : List α :=
  files.flatMap fun f => f.1 ++ sep :: (f.2 ++ [sep])

/-- The heads and the pieces of the bodies. -/
def segments (sep : α) (files : List (List α × List α)) : List (List α) :=
  files.flatMap fun f => f.1 :: f.2.splitOn sep

/-- The records whose first one has the head `p` and a body that begins with `c`. -/
def groupFrom (sep : α) : List α → List α → List (List α) → List (List (List α × List α))
  | p, c, [] => [[(p, c)]]
  | p, c, [s] => groupFrom sep p (c ++ sep :: s) []
  | p, c, s :: s' :: rest =>
      groupFrom sep p (c ++ sep :: s) (s' :: rest) ++
        (groupFrom sep s s' rest).map ((p, c) :: ·)

/-- The lists of records that have the given pieces. -/
def groupings (sep : α) : List (List α) → List (List (List α × List α))
  | [] => [[]]
  | [_] => []
  | p :: c :: rest => groupFrom sep p c rest

@[simp] theorem segments_cons {f : List α × List α} :
    segments sep (f :: files) = f.1 :: f.2.splitOn sep ++ segments sep files :=
  List.flatMap_cons

omit [DecidableEq α] in
theorem joined_cons {f : List α × List α} :
    joined sep (f :: files) = f.1 ++ sep :: (f.2 ++ sep :: joined sep files) := by
  simp [joined]

/-- The pieces of the text are those of the records. -/
theorem splitOn_joined (clean : ∀ f ∈ files, sep ∉ f.1) :
    (joined sep files).splitOn sep = segments sep files ++ [[]] := by
  induction files with
  | nil => rfl
  | cons f files ih =>
    obtain ⟨head, clean⟩ := List.forall_mem_cons.mp clean
    rw [joined_cons, List.splitOn_append_cons_self, List.splitOn_append_cons_self,
      List.splitOn_eq_singleton head, ih clean, segments_cons]
    simp

/-- Two lists have one text exactly when they have the same pieces. -/
theorem joined_eq_joined_iff (clean : ∀ f ∈ files, sep ∉ f.1) (clean' : ∀ f ∈ files', sep ∉ f.1) :
    joined sep files = joined sep files' ↔ segments sep files = segments sep files' := by
  constructor
  · intro same
    have split := congrArg (List.splitOn sep) same
    rw [splitOn_joined clean, splitOn_joined clean'] at split
    exact List.append_cancel_right split
  · intro same
    rw [← @List.intercalate_splitOn _ (joined sep files) _ _ sep,
      ← @List.intercalate_splitOn _ (joined sep files') _ _ sep, splitOn_joined clean,
      splitOn_joined clean', same]

/-! ## Groupings -/

theorem splitOn_inj {l m : List α} : l.splitOn sep = m.splitOn sep ↔ l = m := by
  constructor
  · intro same
    rw [← @List.intercalate_splitOn _ l _ _ sep, same, List.intercalate_splitOn]
  · exact congrArg _

/-- A list of records has no pieces or at least two. -/
theorem segments_eq_nil : segments sep files = [] ↔ files = [] := by
  cases files with
  | nil => exact ⟨fun _ => rfl, fun _ => rfl⟩
  | cons f files => simp

theorem segments_ne_singleton {s : List α} : segments sep files ≠ [s] := by
  cases files with
  | nil => exact List.cons_ne_nil s [] ∘ Eq.symm
  | cons f files =>
    rw [segments_cons, List.cons_append]
    intro single
    have empty := (List.cons.inj single).2
    exact List.splitOn_ne_nil sep f.2 (List.append_eq_nil_iff.mp empty).1

/-- The groupings that begin with a record keep its head and go on with its body. -/
theorem mem_groupFrom (clean : ∀ s ∈ segs, sep ∉ s) : files ∈ groupFrom sep p c segs ↔
    ∃ c' more files', files = (p, c') :: files' ∧
      c'.splitOn sep = c.splitOn sep ++ more ∧ segs = more ++ segments sep files' := by
  induction p, c, segs using groupFrom.induct sep generalizing files with
  | case1 p c =>
    rw [groupFrom, List.mem_singleton]
    constructor
    · rintro rfl
      exact ⟨c, [], [], rfl, (List.append_nil _).symm, rfl⟩
    · rintro ⟨c', more, files', rfl, body, rest⟩
      obtain ⟨rfl, none⟩ := List.append_eq_nil_iff.mp rest.symm
      rw [List.append_nil, splitOn_inj] at body
      rw [body, segments_eq_nil.mp none]
  | case2 p c s ih =>
    have piece : s.splitOn sep = [s] :=
      List.splitOn_eq_singleton (clean s (List.mem_singleton_self s))
    rw [groupFrom, ih fun _ mem => nomatch mem]
    constructor
    · rintro ⟨c', more, files', rfl, body, rest⟩
      obtain ⟨rfl, none⟩ := List.append_eq_nil_iff.mp rest.symm
      rw [List.splitOn_append_cons_self, piece, List.append_nil] at body
      exact ⟨c', [s], files', rfl, body, by rw [none, List.append_nil]⟩
    · rintro ⟨c', more, files', rfl, body, rest⟩
      cases more with
      | nil => exact absurd rest.symm segments_ne_singleton
      | cons s' more =>
        obtain ⟨rfl, left⟩ := List.cons.inj rest
        obtain ⟨rfl, none⟩ := List.append_eq_nil_iff.mp left.symm
        refine ⟨c', [], files', rfl, ?_, none.symm⟩
        rw [List.splitOn_append_cons_self, piece, List.append_nil, body]
  | case3 p c s s' rest longer next =>
    obtain ⟨first, clean⟩ := List.forall_mem_cons.mp clean
    obtain ⟨second, rest_clean⟩ := List.forall_mem_cons.mp clean
    have piece : s.splitOn sep = [s] := List.splitOn_eq_singleton first
    have piece' : s'.splitOn sep = [s'] := List.splitOn_eq_singleton second
    rw [groupFrom, List.mem_append, longer clean, List.mem_map]
    constructor
    · rintro (⟨c', more, files', rfl, body, pieces⟩ | ⟨files, mem, rfl⟩)
      · rw [List.splitOn_append_cons_self, piece, List.append_assoc] at body
        exact ⟨c', s :: more, files', rfl, body, by rw [List.cons_append, ← pieces]⟩
      · obtain ⟨c', more, files', rfl, body, pieces⟩ := (next rest_clean).mp mem
        refine ⟨c, [], _, rfl, (List.append_nil _).symm, ?_⟩
        rw [List.nil_append, segments_cons, body, piece', pieces]
        rfl
    · rintro ⟨c', more, files', rfl, body, pieces⟩
      cases more with
      | nil =>
        rw [List.append_nil, splitOn_inj] at body
        subst body
        refine .inr ⟨files', (next rest_clean).mpr ?_, rfl⟩
        cases files' with
        | nil => nomatch pieces
        | cons f files' =>
          rw [List.nil_append, segments_cons, List.cons_append] at pieces
          obtain ⟨same, tail⟩ := List.cons.inj pieces
          obtain ⟨t, more, body⟩ := List.exists_cons_of_ne_nil (List.splitOn_ne_nil sep f.2)
          rw [body, List.cons_append] at tail
          obtain ⟨rfl, left⟩ := List.cons.inj tail
          exact ⟨f.2, more, files', by rw [same], by rw [body, piece']; rfl, left⟩
      | cons t more =>
        obtain ⟨rfl, left⟩ := List.cons.inj pieces
        refine .inl ⟨c', more, files', rfl, ?_, left⟩
        rw [body, List.splitOn_append_cons_self, piece, List.append_assoc]
        rfl

/-- The groupings of pieces are the lists of records that have them. -/
theorem mem_groupings (clean : ∀ s ∈ segs, sep ∉ s) :
    files ∈ groupings sep segs ↔ segments sep files = segs := by
  match segs, clean with
  | [], _ => rw [groupings, List.mem_singleton, segments_eq_nil]
  | [s], _ => exact ⟨(fun mem => nomatch mem), fun single => absurd single segments_ne_singleton⟩
  | p :: c :: rest, clean =>
    obtain ⟨_, clean⟩ := List.forall_mem_cons.mp clean
    obtain ⟨second, clean⟩ := List.forall_mem_cons.mp clean
    rw [groupings, mem_groupFrom clean, List.splitOn_eq_singleton second]
    constructor
    · rintro ⟨c', more, files', rfl, body, rfl⟩
      rw [segments_cons, body]
      rfl
    · intro pieces
      cases files with
      | nil => nomatch pieces
      | cons f files =>
        rw [segments_cons, List.cons_append] at pieces
        obtain ⟨rfl, tail⟩ := List.cons.inj pieces
        obtain ⟨t, more, body⟩ := List.exists_cons_of_ne_nil (List.splitOn_ne_nil sep f.2)
        rw [body, List.cons_append] at tail
        obtain ⟨rfl, rfl⟩ := List.cons.inj tail
        exact ⟨f.2, more, files, rfl, body, rfl⟩

theorem not_mem_of_mem_splitOn {l s : List α} (mem : s ∈ l.splitOn sep) : sep ∉ s := by
  induction l generalizing s with
  | nil =>
    rw [List.splitOn_nil, List.mem_singleton] at mem
    rw [mem]
    exact List.not_mem_nil
  | cons x l ih =>
    rw [List.splitOn_cons_eq_if_modifyHead] at mem
    obtain ⟨t, more, pieces⟩ := List.exists_cons_of_ne_nil (List.splitOn_ne_nil sep l)
    have first : sep ∉ t := ih (by rw [pieces]; exact List.mem_cons_self)
    split at mem
    · obtain rfl | later := List.mem_cons.mp mem
      · exact List.not_mem_nil
      · exact ih later
    · next differs =>
      rw [pieces, List.modifyHead_cons] at mem
      obtain rfl | later := List.mem_cons.mp mem
      · rw [List.mem_cons, not_or]
        exact ⟨fun same => differs (by rw [same, beq_self_eq_true]), first⟩
      · exact ih (by rw [pieces]; exact List.mem_cons_of_mem t later)

/-- No piece has the separator in it. -/
theorem segments_clean (clean : ∀ f ∈ files, sep ∉ f.1) : ∀ s ∈ segments sep files, sep ∉ s := by
  intro s mem
  obtain ⟨f, listed, mem⟩ := List.mem_flatMap.mp mem
  obtain rfl | mem := List.mem_cons.mp mem
  · exact clean f listed
  · exact not_mem_of_mem_splitOn mem

end Corvus.Separated
