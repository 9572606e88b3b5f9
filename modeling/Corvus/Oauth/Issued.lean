import Corvus.Oauth.Google

/-!
# Transactions as they were issued

What a row of the table tells of the start that has drawn its values. A row is never changed but
for being consumed, and what one call has consumed no other call has.
-/

namespace Corvus.Oauth

open Dialogue.Desk (Kept Each Next next_step opened getElem?_concat_eq_some getElem?_set_eq_some)

/-! ## The life of a row -/

/-- A row later: as it was, or consumed. -/
inductive Ages (row : OAuthTransactionRow) : OAuthTransactionRow → Prop
  | same : Ages row row
  | consumed (now : Instant) (version : Nat) :
      Ages row { row with consumedAt := some now, version }

section Ages

variable {row row' row'' : OAuthTransactionRow}

theorem Ages.trans (first : Ages row row') (second : Ages row' row'') : Ages row row'' := by
  cases second with
  | same => exact first
  | consumed now version =>
    cases first with
    | same => exact .consumed now version
    | consumed earlier version' => exact .consumed now version

theorem Ages.stateDigest (ages : Ages row row') : row'.stateDigest = row.stateDigest := by
  cases ages with
  | _ => rfl

theorem Ages.id (ages : Ages row row') : row'.id = row.id := by
  cases ages with
  | _ => rfl

theorem Ages.stays_consumed (ages : Ages row row') (consumed : row.consumedAt.isSome) :
    row'.consumedAt.isSome := by
  cases ages with
  | same => exact consumed
  | consumed now version => rfl

/-- What is disclosed of a row, and where and until when, does not change. -/
theorem Ages.columns (ages : Ages row row') : row'.nonceDigest = row.nonceDigest ∧
    row'.encryptedPkceVerifier = row.encryptedPkceVerifier ∧
      row'.redirectUri = row.redirectUri ∧ row'.expiresAt = row.expiresAt := by
  cases ages with
  | _ => exact ⟨rfl, rfl, rfl, rfl⟩

end Ages

/-- Every row is there later. -/
def Later (s t : Transactions) : Prop := ∀ row ∈ s, ∃ row' ∈ t, Ages row row'

/-- `uq_oauth_transactions_state_digest`. -/
def Unique (s : Transactions) : Prop :=
  ∀ row ∈ s, ∀ row' ∈ s, row.stateDigest = row'.stateDigest → row = row'

section Table

variable {s t u : Transactions} {row : OAuthTransactionRow} {others : (q : Port) → q.Answer}
  {q : Port}

theorem Later.refl : Later s s := fun row mem => ⟨row, mem, .same⟩

theorem Later.trans (first : Later s t) (second : Later t u) : Later s u := by
  intro row mem
  obtain ⟨row', mem', ages⟩ := first row mem
  obtain ⟨row'', mem'', ages'⟩ := second row' mem'
  exact ⟨row'', mem'', ages.trans ages'⟩

theorem insert_eq_some (inserted : s.insert row = some t) :
    t.rows = s.rows ++ [row] ∧ ∀ old ∈ s, old.stateDigest ≠ row.stateDigest := by
  rw [Transactions.insert] at inserted
  split at inserted
  · nomatch inserted
  · next fresh =>
    refine ⟨(Table.insert?_eq_some.mp inserted).2, fun old mem same => fresh ?_⟩
    exact List.any_eq_true.mpr ⟨old, mem, decide_eq_true same⟩

theorem find_eq_some {d : String} (found : s.find d = some row) :
    row ∈ s ∧ row.stateDigest = d := by
  have digested := List.find?_some found
  exact ⟨List.mem_of_find?_eq_some found, of_decide_eq_true digested⟩

theorem ages_consumed (p : OAuthTransactionRow → Bool) (now : Instant) (row : OAuthTransactionRow) :
    Ages row (if p row then Transactions.consumed now row else row) := by
  split
  · exact .consumed now _
  · exact .same

theorem update_evolves (p : OAuthTransactionRow → Bool) (now : Instant)
    (new : OAuthTransactionRow → Prop) :
    Table.Evolves s (s.update p (Transactions.consumed now)) Ages new :=
  Table.Evolves.update (fun _ _ _ => .same) fun _ _ _ => .consumed now _

/-- Whatever is asked, rows are consumed at most, and at most the one that is inserted is new. -/
theorem answer_evolves (others : (q : Port) → q.Answer) (q : Port) (s : Transactions) :
    Table.Evolves s (Transactions.answer others q s).2 Ages
      fun row => (⟨q, (Transactions.answer others q s).1⟩ : Exchange Port Port.Answer) =
        ⟨.insert row, true⟩ := by
  cases q with
  | insert row =>
    cases inserted : s.insert row with
    | none =>
      simp only [Transactions.answer, inserted]
      exact .refl fun _ _ => .same
    | some t =>
      simp only [Transactions.answer, inserted]
      exact .insert (insert_eq_some inserted).1 (fun _ _ => .same) rfl
  | expire id now => exact update_evolves _ now _
  | claim id version now => exact update_evolves _ now _
  | _ => exact .refl fun _ _ => .same

theorem answer_later : Later s (Transactions.answer others q s).2 :=
  (answer_evolves others q s).forth

theorem Unique.update (unique : Unique s) (p : OAuthTransactionRow → Bool) (now : Instant) :
    Unique (s.update p (Transactions.consumed now)) := by
  intro row mem row' mem' same
  obtain ⟨old, old_mem, rfl⟩ := Table.mem_update.mp mem
  obtain ⟨old', old_mem', rfl⟩ := Table.mem_update.mp mem'
  rw [(ages_consumed p now old).stateDigest, (ages_consumed p now old').stateDigest] at same
  rw [unique old old_mem old' old_mem' same]

theorem Unique.answer (unique : Unique s) : Unique (Transactions.answer others q s).2 := by
  cases q with
  | insert row =>
    cases inserted : s.insert row with
    | none =>
      simp only [Transactions.answer, inserted]
      exact unique
    | some t =>
      simp only [Transactions.answer, inserted]
      obtain ⟨rows, fresh⟩ := insert_eq_some inserted
      intro row₁ mem₁ row₂ mem₂ same
      rw [Table.mem_iff, rows, List.mem_append, List.mem_singleton] at mem₁ mem₂
      obtain mem₁ | rfl := mem₁
      · obtain mem₂ | rfl := mem₂
        · exact unique row₁ mem₁ row₂ mem₂ same
        · exact absurd same (fresh row₁ mem₁)
      · obtain mem₂ | rfl := mem₂
        · exact absurd same.symm (fresh row₂ mem₂)
        · rfl
  | expire id now => exact unique.update _ now
  | claim id version now => exact unique.update _ now
  | _ => exact unique

end Table

/-! ## What the calls know of the rows -/

/-- An exchange in which a row is found or inserted. -/
inductive Tells (row : OAuthTransactionRow) : Exchange Port Port.Answer → Prop
  | found (stateDigest : String) : Tells row ⟨.find stateDigest, some row⟩
  | inserted : Tells row ⟨.insert row, true⟩

/-- An exchange in which one row with an id is consumed. -/
inductive Takes (id : Uuid) : Exchange Port Port.Answer → Prop
  | claimed (version : Nat) (now : Instant) : Takes id ⟨.claim id version now, (1 : Nat)⟩

section Knowing

variable {P : Primitives} {config : GoogleOAuthConfig} {s : Transactions}
  {others : (q : Port) → q.Answer} {q : Port} {row : OAuthTransactionRow} {id : Uuid}
  {h : Desk} {acts : List Act}

theorem answer_tells (tells : Tells row ⟨q, (Transactions.answer others q s).1⟩) :
    row ∈ (Transactions.answer others q s).2 := by
  generalize asked : (⟨q, (Transactions.answer others q s).1⟩ : Exchange Port Port.Answer) = x
    at tells
  cases tells with
  | found stateDigest =>
    obtain ⟨rfl, answered⟩ := Exchange.mk.inj asked
    exact (find_eq_some (eq_of_heq answered)).1
  | inserted =>
    obtain ⟨rfl, answered⟩ := Exchange.mk.inj asked
    have accepted : (Transactions.answer others (.insert row) s).1 = true := eq_of_heq answered
    cases inserted : s.insert row with
    | none =>
      simp only [Transactions.answer, inserted] at accepted
      nomatch accepted
    | some t =>
      simp only [Transactions.answer, inserted]
      exact Table.mem_of_append (insert_eq_some inserted).1

theorem answer_found {stateDigest : String}
    (found : (⟨q, (Transactions.answer others q s).1⟩ : Exchange Port Port.Answer) =
      ⟨.find stateDigest, some row⟩) : row.stateDigest = stateDigest := by
  obtain ⟨rfl, answered⟩ := Exchange.mk.inj found
  exact (find_eq_some (eq_of_heq answered)).2

/-- A row that is claimed has been open, and it is not any more. -/
theorem answer_takes (takes : Takes id ⟨q, (Transactions.answer others q s).1⟩) :
    (∃ row ∈ s, row.id = id ∧ row.consumedAt = none) ∧
      ∃ row ∈ (Transactions.answer others q s).2, row.id = id ∧ row.consumedAt.isSome := by
  generalize asked : (⟨q, (Transactions.answer others q s).1⟩ : Exchange Port Port.Answer) = x
    at takes
  cases takes with
  | claimed version now =>
    obtain ⟨rfl, answered⟩ := Exchange.mk.inj asked
    have one : (s.rows.filter (Transactions.isClaimed id version)).length = 1 :=
      eq_of_heq answered
    obtain ⟨row, only⟩ := List.length_eq_one_iff.mp one
    have inside : row ∈ s.rows.filter (Transactions.isClaimed id version) :=
      only ▸ List.mem_singleton_self row
    obtain ⟨mem, claimed⟩ := List.mem_filter.mp inside
    have claims := claimed
    simp only [Transactions.isClaimed, Transactions.isOpen, Bool.and_eq_true, decide_eq_true_eq,
      Option.isNone_iff_eq_none] at claims
    obtain ⟨⟨same, free⟩, -⟩ := claims
    refine ⟨⟨row, mem, same, free⟩, Transactions.consumed now row, ?_, same, rfl⟩
    refine Table.mem_update.mpr ⟨row, mem, ?_⟩
    rw [if_pos claimed]

/-- What a session has been told of is in the table, and what it has taken is consumed. -/
structure Remembers (s : Transactions) (c : Session) : Prop where
  asked : ∀ stateDigest row, ⟨.find stateDigest, some row⟩ ∈ c.transcript →
    row.stateDigest = stateDigest
  told : ∀ x ∈ c.transcript, ∀ row, Tells row x → ∃ row' ∈ s, Ages row row'
  taken : ∀ x ∈ c.transcript, ∀ id, Takes id x → ∃ row ∈ s, row.id = id ∧ row.consumedAt.isSome

theorem later_taken {t : Transactions} (later : Later s t)
    (taken : ∃ row ∈ s, row.id = id ∧ row.consumedAt.isSome) :
    ∃ row ∈ t, row.id = id ∧ row.consumedAt.isSome := by
  obtain ⟨row, mem, same, consumed⟩ := taken
  obtain ⟨row', mem', ages⟩ := later row mem
  exact ⟨row', mem', ages.id.trans same, ages.stays_consumed consumed⟩

theorem later_told {t : Transactions} (later : Later s t) (told : ∃ row' ∈ s, Ages row row') :
    ∃ row' ∈ t, Ages row row' := by
  obtain ⟨row', mem, ages⟩ := told
  obtain ⟨row'', mem', ages'⟩ := later row' mem
  exact ⟨row'', mem', ages.trans ages'⟩

theorem kept_remembers : Kept (Call.program P config) Transactions.answer Unique
    fun _ s c => Remembers s c where
  keeps _ _ _ unique := unique.answer
  enters _ _ _ _ :=
    ⟨fun _ _ mem => absurd mem List.not_mem_nil, fun _ mem => absurd mem List.not_mem_nil,
      fun _ mem => absurd mem List.not_mem_nil⟩
  goes n s request t q k d unique remembers := by
    refine ⟨fun stateDigest row mem => ?_, fun x mem row tells => ?_, fun x mem id takes => ?_⟩
    · obtain old | new := List.mem_append.mp mem
      · exact remembers.asked stateDigest row old
      · exact answer_found (List.mem_singleton.mp new).symm
    · obtain old | new := List.mem_append.mp mem
      · exact later_told answer_later (remembers.told x old row tells)
      · rw [List.mem_singleton.mp new] at tells
        exact ⟨row, answer_tells tells, .same⟩
    · obtain old | new := List.mem_append.mp mem
      · exact later_taken answer_later (remembers.taken x old id takes)
      · rw [List.mem_singleton.mp new] at takes
        exact (answer_takes takes).2
  spares n s c d q unique remembers :=
    ⟨remembers.asked,
      fun x mem row tells => later_told answer_later (remembers.told x mem row tells),
      fun x mem id takes => later_taken answer_later (remembers.taken x mem id takes)⟩

theorem unique_empty : Unique ∅ := fun _ mem => absurd mem Table.not_mem_empty

theorem each_remembers (acts : List Act) :
    Each Unique (fun _ s c => Remembers s c) (serve P config acts) := by
  have start : Each Unique (fun _ s c => Remembers s c) (opened ∅ : Desk) :=
    ⟨unique_empty, fun _ _ found => nomatch found⟩
  exact kept_remembers.exec start acts

/-- A row comes from the session that has inserted it. -/
def Rooted (h : Desk) : Prop :=
  ∀ row ∈ h.store, ∃ (n : Nat) (c : Session) (row₀ : OAuthTransactionRow), h.sessions[n]? = some c ∧
      ⟨.insert row₀, true⟩ ∈ c.transcript ∧ Ages row₀ row

theorem Rooted.step (rooted : Rooted h) (act : Act) :
    Rooted (h.step (Call.program P config) Transactions.answer act) := by
  generalize made : h.step (Call.program P config) Transactions.answer act = h'
  have next : Next (Call.program P config) Transactions.answer h h' := made ▸ next_step
  cases next with
  | idle => exact rooted
  | entered request =>
    intro row mem
    obtain ⟨n, c, row₀, found, inserted, ages⟩ := rooted row mem
    refine ⟨n, c, row₀, ?_, inserted, ages⟩
    rw [List.getElem?_append_left (List.getElem?_eq_some_iff.mp found).1]
    exact found
  | @went n d request t q k found =>
    have bound : n < h.sessions.length := (List.getElem?_eq_some_iff.mp found).1
    intro row mem
    obtain ⟨old, old_mem, ages⟩ | new := (answer_evolves d q h.store).back row mem
    · obtain ⟨i, c, row₀, there, inserted, ages'⟩ := rooted old old_mem
      by_cases same : i = n
      · subst same
        obtain rfl := Option.some.inj (there.symm.trans found)
        refine ⟨i, _, row₀, List.getElem?_set_self bound, ?_, ages'.trans ages⟩
        exact List.mem_append_left _ inserted
      · refine ⟨i, c, row₀, ?_, inserted, ages'.trans ages⟩
        rw [List.getElem?_set_ne (Ne.symm same)]
        exact there
    · refine ⟨n, _, row, List.getElem?_set_self bound, ?_, .same⟩
      rw [new]
      exact List.mem_append_right _ (List.mem_singleton_self _)

theorem rooted_serve (acts : List Act) : Rooted (serve P config acts) :=
  Run.preserves (fun _ mem => absurd mem Table.not_mem_empty)
    (fun _ act rooted => rooted.step act) acts

/-- No two sessions have taken one row. -/
def TakenOnce (h : Desk) : Prop :=
  ∀ (i j : Nat) (c c' : Session) (id : Uuid), h.sessions[i]? = some c → h.sessions[j]? = some c' →
    (∃ x ∈ c.transcript, Takes id x) → (∃ x ∈ c'.transcript, Takes id x) → i = j

theorem TakenOnce.step (once : TakenOnce h) (each : Each Unique (fun _ s c => Remembers s c) h)
    (act : Act) : TakenOnce (h.step (Call.program P config) Transactions.answer act) := by
  generalize made : h.step (Call.program P config) Transactions.answer act = h'
  have next : Next (Call.program P config) Transactions.answer h h' := made ▸ next_step
  cases next with
  | idle => exact once
  | entered request =>
    intro i j c c' id there there' taken taken'
    obtain old | ⟨-, rfl⟩ := getElem?_concat_eq_some there
    · obtain old' | ⟨-, rfl⟩ := getElem?_concat_eq_some there'
      · exact once i j c c' id old old' taken taken'
      · obtain ⟨x, mem, -⟩ := taken'
        exact absurd mem List.not_mem_nil
    · obtain ⟨x, mem, -⟩ := taken
      exact absurd mem List.not_mem_nil
  | @went n d request t q k found =>
    -- Whoever takes a row now has found it open, so no one has taken it before.
    have fresh : ∀ (i : Nat) (c : Session) id, h.sessions[i]? = some c →
        (∃ x ∈ c.transcript, Takes id x) → ¬ Takes id ⟨q, (Transactions.answer d q h.store).1⟩ := by
      rintro i c id there ⟨x, mem, takes⟩ again
      obtain ⟨row, row_mem, rfl, consumed⟩ := (each.sessions i c there).taken x mem id takes
      obtain ⟨⟨row', row_mem', same, free⟩, -⟩ := answer_takes again
      rw [← Table.eq_of_key row_mem' row_mem same, free] at consumed
      nomatch consumed
    have earlier : ∀ id, (∃ x ∈ t ++ [⟨q, (Transactions.answer d q h.store).1⟩], Takes id x) →
        (∃ x ∈ t, Takes id x) ∨ Takes id ⟨q, (Transactions.answer d q h.store).1⟩ := by
      rintro id ⟨x, mem, takes⟩
      obtain old | new := List.mem_append.mp mem
      · exact .inl ⟨x, old, takes⟩
      · exact .inr (List.mem_singleton.mp new ▸ takes)
    intro i j c c' id there there' taken taken'
    obtain ⟨rfl, rfl⟩ | ⟨-, old⟩ := getElem?_set_eq_some there
    · obtain ⟨rfl, -⟩ | ⟨-, old'⟩ := getElem?_set_eq_some there'
      · rfl
      · obtain taken | takes := earlier id taken
        · exact once _ j _ c' id found old' taken taken'
        · exact absurd takes (fresh j c' id old' taken')
    · obtain ⟨rfl, rfl⟩ | ⟨-, old'⟩ := getElem?_set_eq_some there'
      · obtain taken' | takes := earlier id taken'
        · exact once i _ c _ id old found taken taken'
        · exact absurd takes (fresh i c id old taken)
      · exact once i j c c' id old old' taken taken'

theorem takenOnce_serve (acts : List Act) : TakenOnce (serve P config acts) := by
  have start : TakenOnce (opened ∅) := by
    intro i j c c' id found
    nomatch found
  have each : Each Unique (fun _ s c => Remembers s c) (opened ∅) :=
    ⟨unique_empty, fun _ _ found => nomatch found⟩
  have both : TakenOnce (serve P config acts) ∧
      Each Unique (fun _ s c => Remembers s c) (serve P config acts) :=
    Run.preserves
      (I := fun h : Desk => TakenOnce h ∧ Each Unique (fun _ s c => Remembers s c) h)
      ⟨start, each⟩ (fun _ act holds => ⟨holds.1.step holds.2 act, kept_remembers.step holds.2⟩)
      acts
  exact both.1

end Knowing

end Corvus.Oauth
