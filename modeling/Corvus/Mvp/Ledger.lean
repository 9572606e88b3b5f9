import Corvus.Mvp.Integrity
import Mathlib.Data.List.Induction
import Mathlib.Logic.Relation

/-!
# The budget ledger

The budgets of the projects are a second copy of what their reservations sum to. The
books are kept by four postings: an account is opened, an amount is reserved,
reservations are closed, or a limit is moved. Every transaction posts in one of these
ways, except an execution that settles a reservation which was released before.
-/

namespace Corvus.Mvp

open Db

/-- The accounts of the projects and the reservations drawn on them. -/
structure Books where
  budgets : Table BudgetRow
  reservations : Table ReservationRow

def Db.books (db : Db) : Books := ⟨db.budgets, db.reservations⟩

namespace Books

/-- What the reservations of a project with this status sum to. -/
def amount (b : Books) (p : Uuid) (status : ReservationStatus) : Nat :=
  b.reservations.total (fun r => decide (r.projectId = p) && decide (r.status = status))
    (·.amountUnits)

/-- The totals of every account are those of its reservations, and within its limit. -/
structure Balanced (b : Books) : Prop where
  reserved : ∀ a ∈ b.budgets, a.reservedUnits = b.amount a.projectId .reserved
  settled : ∀ a ∈ b.budgets, a.settledUnits = b.amount a.projectId .settled
  limit : ∀ a ∈ b.budgets, a.reservedUnits + a.settledUnits ≤ a.limitUnits

/-- Balanced books in which an effect has one reservation, on an account that exists. -/
structure Sound (b : Books) : Prop extends Balanced b where
  funded : ∀ r ∈ b.reservations, ∃ a ∈ b.budgets, a.projectId = r.projectId
  single : ∀ r ∈ b.reservations, ∀ q ∈ b.reservations, r.effectId = q.effectId → r = q

/-- The accounts, after the one of a project is rewritten. -/
def post (b : Books) (p : Uuid) (f : Rewrite BudgetRow) : Table BudgetRow :=
  b.budgets.update (fun a => decide (a.projectId = p)) f

/-- The reservations, after one of them is closed. -/
def withClosed (b : Books) (id : Uuid) (status : ReservationStatus) : Table ReservationRow :=
  b.reservations.update (fun r => decide (r.id = id)) (ReservationRow.withStatus status)

/-- A reserved amount is settled or given back. -/
inductive Closing (b : Books) : Books → Prop where
  | mk {r : ReservationRow} {status settled} (mem : r ∈ b.reservations)
      (reserved : r.status = .reserved)
      (closed : status = .settled ∧ settled = r.amountUnits ∨ status = .released ∧ settled = 0) :
      Closing b ⟨b.post r.projectId (BudgetRow.debit r.amountUnits settled),
        b.withClosed r.id status⟩

abbrev Closings : Books → Books → Prop := Relation.ReflTransGen Closing

/-- What one transaction enters in the books. -/
inductive Posting (b : Books) : Books → Prop where
  | account (p : Uuid) {budgets} (inserted : b.budgets.insert? ⟨p, 0, 0, 0⟩ = some budgets) :
      Posting b ⟨budgets, b.reservations⟩
  | reserve {r : ReservationRow} {a reservations} (mem : a ∈ b.budgets)
      (project : a.projectId = r.projectId) (status : r.status = .reserved)
      (room : (r.amountUnits : Int) ≤ a.availableUnits)
      (free : ∀ q ∈ b.reservations, q.effectId ≠ r.effectId)
      (inserted : b.reservations.insert? r = some reservations) :
      Posting b ⟨b.post r.projectId (BudgetRow.reserve r.amountUnits), reservations⟩
  | close {b'} (closings : Closings b b') : Posting b b'
  | limit {a : BudgetRow} {limitUnits : Nat} (mem : a ∈ b.budgets)
      (room : a.reservedUnits + a.settledUnits ≤ limitUnits) :
      Posting b ⟨b.post a.projectId (BudgetRow.withLimit limitUnits), b.reservations⟩

variable {b b' : Books}

theorem amount_eq_zero {p : Uuid} (h : ∀ r ∈ b.reservations, r.projectId ≠ p)
    (status : ReservationStatus) : b.amount p status = 0 := by
  have none : b.reservations.rows.filter
      (fun r => decide (r.projectId = p) && decide (r.status = status)) = [] := by
    refine List.filter_eq_nil_iff.mpr fun r hr => ?_
    simp [h r hr]
  rw [amount, Table.total, none]
  rfl

theorem amount_insert {row : ReservationRow} {reservations budgets}
    (inserted : b.reservations.insert? row = some reservations) (p : Uuid)
    (status : ReservationStatus) : amount ⟨budgets, reservations⟩ p status =
      b.amount p status + if row.projectId = p ∧ row.status = status then row.amountUnits else 0 := by
  have sum := Table.total_append (Table.insert?_eq_some.mp inserted).2
    (fun r => decide (r.projectId = p) && decide (r.status = status)) (·.amountUnits)
  simp only [Bool.and_eq_true, decide_eq_true_eq] at sum
  exact sum

/-- Closing a reservation moves its amount from one total to another. -/
theorem amount_close {r : ReservationRow} (mem : r ∈ b.reservations)
    (closed : ReservationStatus) (budgets : Table BudgetRow) (p : Uuid)
    (status : ReservationStatus) :
    amount ⟨budgets, b.withClosed r.id closed⟩ p status +
        (if r.projectId = p ∧ r.status = status then r.amountUnits else 0) =
      b.amount p status + if r.projectId = p ∧ closed = status then r.amountUnits else 0 := by
  have sum := Table.total_update_key mem (f := ReservationRow.withStatus closed)
    (fun r => decide (r.projectId = p) && decide (r.status = status)) (·.amountUnits)
  simp only [Bool.and_eq_true, decide_eq_true_eq] at sum
  exact sum

/-- An account after a posting on the project `p`. -/
theorem mem_post {p : Uuid} {f : Rewrite BudgetRow} {a : BudgetRow} (h : a ∈ b.post p f) :
    (a ∈ b.budgets ∧ a.projectId ≠ p) ∨ ∃ c ∈ b.budgets, c.projectId = p ∧ a = f c := by
  rcases Table.of_mem_update h with ⟨ha, other⟩ | ⟨c, hc, same, rfl⟩
  · exact .inl ⟨ha, of_decide_eq_false other⟩
  · exact .inr ⟨c, hc, of_decide_eq_true same, rfl⟩

theorem account_post {p : Uuid} {f : Rewrite BudgetRow} {a : BudgetRow} (h : a ∈ b.budgets) :
    ∃ a' ∈ b.post p f, a'.projectId = a.projectId := by
  refine ⟨_, Table.mem_update_of_mem h, ?_⟩
  split
  · exact f.keeps a
  · rfl

/-- Rewriting one account: the others keep their totals, the one gets the new ones. -/
theorem balanced_post {p : Uuid} {f : Rewrite BudgetRow} {reservations : Table ReservationRow}
    (h : b.Balanced)
    (others : ∀ q ≠ p, ∀ status, amount ⟨b.post p f, reservations⟩ q status = b.amount q status)
    (one : ∀ a ∈ b.budgets, a.projectId = p →
      (f a).reservedUnits = amount ⟨b.post p f, reservations⟩ p .reserved ∧
      (f a).settledUnits = amount ⟨b.post p f, reservations⟩ p .settled ∧
      (f a).reservedUnits + (f a).settledUnits ≤ (f a).limitUnits) :
    Balanced ⟨b.post p f, reservations⟩ := by
  refine ⟨fun a ha => ?_, fun a ha => ?_, fun a ha => ?_⟩
  · rcases mem_post ha with ⟨ha, other⟩ | ⟨c, hc, same, rfl⟩
    · rw [others _ other, h.reserved a ha]
    · rw [(one c hc same).1, ← same]
      exact congrArg (amount _ · _) (f.keeps c).symm
  · rcases mem_post ha with ⟨ha, other⟩ | ⟨c, hc, same, rfl⟩
    · rw [others _ other, h.settled a ha]
    · rw [(one c hc same).2.1, ← same]
      exact congrArg (amount _ · _) (f.keeps c).symm
  · rcases mem_post ha with ⟨ha, other⟩ | ⟨c, hc, same, rfl⟩
    · exact h.limit a ha
    · exact (one c hc same).2.2

/-! ## Closing a reservation -/

theorem Closing.balanced (h : b.Balanced) (close : Closing b b') : b'.Balanced := by
  obtain @⟨r, kind, settled, mem, reserved, closed⟩ := close
  have moved := amount_close mem kind (b.post r.projectId (BudgetRow.debit r.amountUnits settled))
  refine balanced_post h (fun q other status => ?_) fun c hc same => ?_
  · have sum := moved q status
    rwa [if_neg fun h => other h.1.symm, if_neg fun h => other h.1.symm] at sum
  · have counted : r.amountUnits ≤ b.amount r.projectId .reserved :=
      Table.le_total mem (by simp [reserved]) (·.amountUnits)
    have first := moved r.projectId .reserved
    have second := moved r.projectId .settled
    have reserved_eq := h.reserved c hc
    have settled_eq := h.settled c hc
    have within := h.limit c hc
    rw [same] at reserved_eq settled_eq
    rcases closed with ⟨rfl, rfl⟩ | ⟨rfl, rfl⟩
    all_goals simp only [reserved, BudgetRow.debit, true_and, reduceCtorEq, if_true, if_false] at *
    all_goals omega

/-- What closings do to a reservation. -/
def Forward (r r' : ReservationRow) : Prop :=
  r' = r ∨ r.status = .reserved ∧ ∃ status, r' = ReservationRow.withStatus status r

theorem Forward.same {r r' : ReservationRow} (h : Forward r r') :
    r'.id = r.id ∧ r'.effectId = r.effectId ∧ r'.projectId = r.projectId ∧
      r'.amountUnits = r.amountUnits := by
  obtain rfl | ⟨-, status, rfl⟩ := h
  · exact ⟨rfl, rfl, rfl, rfl⟩
  · exact ⟨rfl, rfl, rfl, rfl⟩

theorem Forward.trans {r r' r'' : ReservationRow} (h : Forward r r') (h' : Forward r' r'') :
    Forward r r'' := by
  obtain rfl | ⟨reserved, status, rfl⟩ := h
  · exact h'
  · obtain rfl | ⟨-, status', rfl⟩ := h'
    · exact .inr ⟨reserved, status, rfl⟩
    · exact .inr ⟨reserved, status', rfl⟩

theorem Closing.evolves (close : Closing b b') :
    b.reservations.Evolves b'.reservations Forward fun _ => False := by
  obtain @⟨r, kind, settled, mem, reserved, closed⟩ := close
  refine .update (fun _ _ _ => .inl rfl) fun q hq same => .inr ⟨?_, kind, rfl⟩
  rwa [Table.eq_of_key hq mem (of_decide_eq_true same)]

/-- Closings keep every account, whatever its totals become. -/
theorem Closing.accounts (close : Closing b b') :
    ∀ a ∈ b.budgets, ∃ a' ∈ b'.budgets, a'.projectId = a.projectId := by
  obtain @⟨r, kind, settled, mem, reserved, closed⟩ := close
  exact fun a ha => account_post ha

theorem Closing.sound (h : b.Sound) (close : Closing b b') : b'.Sound where
  toBalanced := close.balanced h.toBalanced
  funded r' hr' := by
    obtain ⟨r, hr, m⟩ := (close.evolves.back r' hr').resolve_right id
    obtain ⟨a, ha, project⟩ := h.funded r hr
    obtain ⟨a', ha', kept⟩ := close.accounts a ha
    exact ⟨a', ha', kept.trans (project.trans m.same.2.2.1.symm)⟩
  single r' hr' q' hq' same := by
    obtain ⟨r, hr, m⟩ := (close.evolves.back r' hr').resolve_right id
    obtain ⟨q, hq, n⟩ := (close.evolves.back q' hq').resolve_right id
    have effects : r.effectId = q.effectId := by rw [← m.same.2.1, same, n.same.2.1]
    obtain rfl := h.single r hr q hq effects
    exact Table.eq_of_key hr' hq' (m.same.1.trans n.same.1.symm)

theorem Closings.sound (close : Closings b b') (h : b.Sound) : b'.Sound := by
  induction close with
  | refl => exact h
  | tail _ last ih => exact last.sound ih

theorem Closings.evolves (close : Closings b b') :
    b.reservations.Evolves b'.reservations Forward fun _ => False := by
  induction close with
  | refl => exact .refl fun r _ => .inl rfl
  | tail _ last ih => exact ih.trans last.evolves fun _ _ _ _ _ _ m n => m.trans n

/-! ## Posting -/

/-- What a posting adds: an open reservation of an effect that had none. -/
def Opened (b : Books) (r : ReservationRow) : Prop :=
  r.status = .reserved ∧ ∀ q ∈ b.reservations, q.effectId ≠ r.effectId

theorem Posting.evolves (post : Posting b b') :
    b.reservations.Evolves b'.reservations Forward b.Opened := by
  cases post with
  | account p inserted => exact .refl fun r _ => .inl rfl
  | reserve mem project status room free inserted =>
      exact .insert (Table.insert?_eq_some.mp inserted).2 (fun r _ => .inl rfl) ⟨status, free⟩
  | close closings =>
      exact closings.evolves.mono (fun _ _ _ _ m => m) fun _ _ none => none.elim
  | limit mem room => exact .refl fun r _ => .inl rfl

theorem sound_account (h : b.Sound) {p : Uuid} {budgets : Table BudgetRow}
    (inserted : b.budgets.insert? ⟨p, 0, 0, 0⟩ = some budgets) : Sound ⟨budgets, b.reservations⟩ := by
  obtain ⟨fresh, rows⟩ := Table.insert?_eq_some.mp inserted
  have idle : ∀ r ∈ b.reservations, r.projectId ≠ p := by
    intro r hr same
    obtain ⟨a, ha, project⟩ := h.funded r hr
    exact fresh (List.mem_map.mpr ⟨a, ha, project.trans same⟩)
  have accounts : ∀ a, a ∈ budgets ↔ a ∈ b.budgets ∨ a = ⟨p, 0, 0, 0⟩ := by
    intro a
    rw [Table.mem_iff, rows, List.mem_append, List.mem_singleton, Table.mem_iff]
  refine ⟨⟨fun a ha => ?_, fun a ha => ?_, fun a ha => ?_⟩, fun r hr => ?_, h.single⟩
  · rcases (accounts a).mp ha with ha | rfl
    · exact h.reserved a ha
    · exact (amount_eq_zero idle _).symm
  · rcases (accounts a).mp ha with ha | rfl
    · exact h.settled a ha
    · exact (amount_eq_zero idle _).symm
  · rcases (accounts a).mp ha with ha | rfl
    · exact h.limit a ha
    · exact le_rfl
  · obtain ⟨a, ha, project⟩ := h.funded r hr
    exact ⟨a, (accounts a).mpr (.inl ha), project⟩

theorem sound_reserve (h : b.Sound) {row : ReservationRow} {a : BudgetRow}
    {reservations : Table ReservationRow} (mem : a ∈ b.budgets)
    (project : a.projectId = row.projectId) (status : row.status = .reserved)
    (room : (row.amountUnits : Int) ≤ a.availableUnits)
    (free : ∀ r ∈ b.reservations, r.effectId ≠ row.effectId)
    (inserted : b.reservations.insert? row = some reservations) :
    Sound ⟨b.post row.projectId (BudgetRow.reserve row.amountUnits), reservations⟩ := by
  have rows : ∀ r, r ∈ reservations ↔ r ∈ b.reservations ∨ r = row := by
    intro r
    rw [Table.mem_iff, (Table.insert?_eq_some.mp inserted).2, List.mem_append,
      List.mem_singleton, Table.mem_iff]
  refine ⟨balanced_post h.toBalanced (fun q other kind => ?_) fun c hc same => ?_,
    fun r hr => ?_, fun r hr q hq same => ?_⟩
  · rw [amount_insert inserted, if_neg fun h => other h.1.symm, Nat.add_zero]
  · obtain rfl := Table.eq_of_key hc mem (same.trans project.symm)
    rw [amount_insert inserted, amount_insert inserted, if_pos ⟨rfl, status⟩,
      if_neg (by simp [status]), ← same, ← h.reserved c hc, ← h.settled c hc]
    refine ⟨rfl, rfl, ?_⟩
    simp only [BudgetRow.reserve, BudgetRow.availableUnits] at room ⊢
    omega
  · have account : ∃ a ∈ b.budgets, a.projectId = r.projectId := by
      rcases (rows r).mp hr with hr | rfl
      · exact h.funded r hr
      · exact ⟨a, mem, project⟩
    obtain ⟨c, hc, same⟩ := account
    obtain ⟨c', hc', kept⟩ := account_post hc
    exact ⟨c', hc', kept.trans same⟩
  · rcases (rows r).mp hr with old | rfl
    · rcases (rows q).mp hq with old' | rfl
      · exact h.single r old q old' same
      · exact absurd same (free r old)
    · rcases (rows q).mp hq with old' | rfl
      · exact absurd same.symm (free q old')
      · rfl

theorem sound_limit (h : b.Sound) {a : BudgetRow} {limitUnits : Nat} (mem : a ∈ b.budgets)
    (room : a.reservedUnits + a.settledUnits ≤ limitUnits) :
    Sound ⟨b.post a.projectId (BudgetRow.withLimit limitUnits), b.reservations⟩ := by
  refine ⟨balanced_post h.toBalanced (fun q other status => rfl) fun c hc same => ?_,
    fun r hr => ?_, h.single⟩
  · obtain rfl := Table.eq_of_key hc mem same
    exact ⟨h.reserved c hc, h.settled c hc, room⟩
  · obtain ⟨c, hc, same⟩ := h.funded r hr
    obtain ⟨c', hc', kept⟩ := account_post hc
    exact ⟨c', hc', kept.trans same⟩

theorem Posting.sound (post : Posting b b') (h : b.Sound) : b'.Sound := by
  cases post with
  | account p inserted => exact sound_account h inserted
  | reserve mem project status room free inserted =>
      exact sound_reserve h mem project status room free inserted
  | close closings => exact closings.sound h
  | limit mem room => exact sound_limit h mem room

end Books

open Books

/-! ## What the transactions post -/

/-- The executions that settle a released reservation. -/
inductive SettlesReleased (db : Db) : Transaction → Prop where
  | execute (effect now r) (mem : effect ∈ db.effects) (admitted : db.AdmitsExecution effect)
      (drawn : r ∈ db.reservations) (of_effect : r.effectId = effect.id)
      (released : r.status = .released)
      (debited : ∀ a ∈ db.budgets, a.projectId = r.projectId → r.amountUnits ≤ a.reservedUnits) :
      SettlesReleased db (.executeEffect effect.id now)

/-- The step settles no released reservation. -/
def RespectsReleases (s : Service) (c : Call) : Prop := ¬ SettlesReleased s.db c.transaction

def Transaction.executes : Transaction → Bool
  | executeEffect .. => true
  | _ => false

theorem respectsReleases_of_other {s : Service} {c : Call} (h : c.transaction.executes = false) :
    RespectsReleases s c := by
  intro settles
  generalize c.transaction = t at h settles
  cases settles
  cases h

theorem respectsReleases_of_open {s : Service} {c : Call}
    (h : ∀ r ∈ s.db.reservations, r.status ≠ .released) : RespectsReleases s c := by
  intro settles
  generalize c.transaction = t at settles
  cases settles with
  | execute _ _ r _ _ drawn _ released => exact h r drawn released

section Transaction

variable {D : Digests} {db after : Db} {t : Transaction} {reply : Reply}

/-- The loop of `_release_open_reservations` closes the rows it has selected. -/
theorem releases_closings {rows : List ReservationRow}
    (nodup : (rows.map ReservationRow.id).Nodup)
    (selected : ∀ r ∈ rows, r ∈ db.reservations ∧ r.status = .reserved)
    (h : rows.foldlM releaseReservation db = .ok after) : Closings db.books after.books := by
  induction rows generalizing db with
  | nil =>
      cases h
      exact .refl
  | cons r rows ih =>
      rw [List.foldlM_cons, bind_eq_ok] at h
      obtain ⟨mid, first, rest⟩ := h
      obtain ⟨-, rfl⟩ := releaseReservation_ok first
      rw [List.map_cons, List.nodup_cons] at nodup
      obtain ⟨mem, reserved⟩ := selected r List.mem_cons_self
      refine .head (.mk mem reserved (.inr ⟨rfl, rfl⟩)) (ih nodup.2 (fun q hq => ?_) rest)
      -- the first release leaves the other selected rows as they are
      obtain ⟨hq', reserved'⟩ := selected q (List.mem_cons_of_mem r hq)
      have other : q.id ≠ r.id := fun same => nodup.1 (List.mem_map.mpr ⟨q, hq, same⟩)
      refine ⟨?_, reserved'⟩
      have kept := Table.mem_update_of_mem (p := fun q => decide (q.id = r.id))
        (f := ReservationRow.withStatus .released) hq'
      rwa [if_neg (by simp [other])] at kept

theorem openReservations_closings {w : Uuid} (h : db.releaseOpenReservations w = .ok after) :
    Closings db.books after.books := by
  refine releases_closings ?_ (fun r hr => ?_) h
  · exact (db.reservations.nodup.sublist (List.filter_sublist.map _))
  · obtain ⟨mem, selected⟩ := List.mem_filter.mp hr
    simp only [Bool.and_eq_true, decide_eq_true_eq] at selected
    exact ⟨mem, selected.1⟩

theorem settleBudget_closings {e : Uuid} (h : db.settleBudget e = .ok after)
    (respects : ∀ r ∈ db.reservations, r.effectId = e →
      (∀ a ∈ db.budgets, a.projectId = r.projectId → r.amountUnits ≤ a.reservedUnits) →
      r.status ≠ .released) : Closings db.books after.books := by
  obtain ⟨-, rfl⟩ | ⟨r, hr, effect, unsettled, enough, rfl⟩ := settleBudget_ok h
  · exact .refl
  · have reserved : r.status = .reserved := by
      have := respects r hr effect enough
      cases status : r.status with
      | reserved => rfl
      | settled => exact absurd status unsettled
      | released => exact absurd status this
    exact .single (.mk hr reserved (.inl ⟨rfl, rfl⟩))

theorem reserveBudget_posting {id e w : Uuid} {cost : Nat}
    (h : db.reserveBudget id e w cost = .ok after) : Posting db.books after.books := by
  obtain ⟨p, a, reservations, -, account, room, free, inserted, rfl⟩ := reserveBudget_ok h
  obtain ⟨mem, project⟩ := Table.get?_eq_some.mp account
  exact .reserve (r := ⟨id, e, p, cost, .reserved⟩) mem project rfl room free inserted

theorem reserveBudget_reserves {id e w : Uuid} {cost : Nat}
    (h : db.reserveBudget id e w cost = .ok after) : ∃ r ∈ after.reservations, r.effectId = e := by
  obtain ⟨p, a, reservations, -, -, -, -, inserted, rfl⟩ := reserveBudget_ok h
  refine ⟨⟨id, e, p, cost, .reserved⟩, ?_, rfl⟩
  change _ ∈ reservations
  rw [Table.mem_iff, (Table.insert?_eq_some.mp inserted).2]
  exact List.mem_append_right _ (List.mem_singleton.mpr rfl)

theorem transact_posts (h : t.run D db = .ok (reply, after)) (respects : ¬ SettlesReleased db t) :
    Posting db.books after.books := by
  have unchanged : after.budgets = db.budgets → after.reservations = db.reservations →
      Posting db.books after.books := by
    intro budgets reservations
    have same : after.books = db.books := by rw [books, books, budgets, reservations]
    rw [same]
    exact .close .refl
  cases t with
  | createProject id name tenantId now =>
      obtain ⟨⟨_, _⟩, ok, eq⟩ := map_ok h
      cases eq
      obtain ⟨projects, budgets, -, inserted, rfl⟩ := createProject_ok ok
      exact .account id inserted
  | cancelWorkflow w now =>
      obtain ⟨⟨_, _⟩, ok, eq⟩ := map_ok h
      cases eq
      obtain ⟨workflow, released, events, -, release, rfl⟩ := cancelWorkflow_ok ok
      have closings := openReservations_closings release
      exact .close closings
  | ensureEffect item =>
      obtain ⟨⟨_, _⟩, ok, eq⟩ := map_ok h
      cases eq
      obtain ⟨binding, -, ⟨-, -, rfl⟩ |
        ⟨effects, proposed, reserved, events, rfl, -, -, rfl, reserve, rfl⟩⟩ := ensureEffect_ok ok
      · exact unchanged rfl rfl
      · have post := reserveBudget_posting reserve
        exact post
  | rejectEffect approvalId e actor now =>
      obtain ⟨⟨_, _⟩, ok, eq⟩ := map_ok h
      cases eq
      obtain ⟨effect, -, -, ⟨-, rfl⟩ | ⟨approvals, mid, released, events, -, -, -, rfl, release, rfl⟩⟩ :=
        rejectEffect_ok ok
      · exact unchanged rfl rfl
      · have closings := openReservations_closings release
        exact .close closings
  | executeEffect e now =>
      obtain ⟨⟨_, _⟩, ok, eq⟩ := map_ok h
      cases eq
      obtain ⟨effect, mem, item, item_mem, approvals, executed, settled, events, rfl, once, item_id,
        approved, -, -, rfl, settle, rfl⟩ := executeEffect_ok ok
      have closings := settleBudget_closings settle fun r hr drawn debited released =>
        respects (.execute effect now r mem ⟨once, fun q hq id => by
          rwa [Table.eq_of_key hq item_mem (id.trans item_id.symm)]⟩ hr drawn released debited)
      exact .close closings
  | setBudget p limit =>
      obtain ⟨⟨_, _⟩, ok, eq⟩ := map_ok h
      cases eq
      obtain ⟨a, nonneg, account, room, rfl⟩ := setBudget_ok ok
      obtain ⟨mem, rfl⟩ := Table.get?_eq_some.mp account
      exact .limit mem (by omega)
  | _ =>
      have frame := run_frame h
      refine unchanged (frame.budgets.resolve_left ?_) (frame.reservations.resolve_left ?_)
      all_goals simp [Transaction.writes]

theorem transact_reservations (h : t.run D db = .ok (reply, after))
    (respects : ¬ SettlesReleased db t) :
    db.reservations.Evolves after.reservations Forward db.books.Opened :=
  (transact_posts h respects).evolves

theorem settleBudget_settles {e : Uuid} (h : db.settleBudget e = .ok after)
    (single : ∀ r ∈ db.reservations, ∀ q ∈ db.reservations, r.effectId = q.effectId → r = q) :
    ∀ r ∈ after.reservations, r.effectId = e → r.status = .settled := by
  intro q hq drawn
  obtain ⟨settled, rfl⟩ | ⟨r, hr, effect, -, -, rfl⟩ := settleBudget_ok h
  · obtain ⟨r, hr, effect, done⟩ := settled q hq drawn
    rwa [single q hq r hr (drawn.trans effect.symm)]
  · rcases Table.of_mem_update hq with ⟨old, other⟩ | ⟨r', -, -, rfl⟩
    · rw [single q old r hr (drawn.trans effect.symm)] at other
      simp at other
    · rfl

end Transaction

/-! ## The effects of the reservations -/

/-- Every reservation belongs to a stored effect. -/
def Db.Drawn (db : Db) : Prop := ∀ r ∈ db.reservations, ∃ e ∈ db.effects, e.id = r.effectId

section Transaction

variable {D : Digests} {db after : Db} {t : Transaction} {reply : Reply}

theorem release_effects {w : Uuid} (h : db.releaseOpenReservations w = .ok after) :
    ∀ r' ∈ after.reservations, ∃ r ∈ db.reservations, r'.effectId = r.effectId := by
  unfold releaseOpenReservations at h
  generalize db.openReservations w = rows at h
  induction rows generalizing db with
  | nil =>
      cases h
      exact fun r hr => ⟨r, hr, rfl⟩
  | cons r rows ih =>
      rw [List.foldlM_cons, bind_eq_ok] at h
      obtain ⟨mid, first, rest⟩ := h
      obtain ⟨-, rfl⟩ := releaseReservation_ok first
      intro r' hr'
      obtain ⟨q, hq, same⟩ := ih rest r' hr'
      obtain ⟨p, hp, rfl⟩ := Table.mem_update.mp hq
      refine ⟨p, hp, same.trans ?_⟩
      split <;> rfl

theorem settle_effects {e : Uuid} (h : db.settleBudget e = .ok after) :
    ∀ r' ∈ after.reservations, ∃ r ∈ db.reservations, r'.effectId = r.effectId := by
  intro r' hr'
  obtain ⟨-, rfl⟩ | ⟨q, -, -, -, -, rfl⟩ := settleBudget_ok h
  · exact ⟨r', hr', rfl⟩
  · obtain ⟨p, hp, rfl⟩ := Table.mem_update.mp hr'
    refine ⟨p, hp, ?_⟩
    split <;> rfl

theorem Db.Drawn.kept (drawn : db.Drawn) (h : t.run D db = .ok (reply, after)) : after.Drawn := by
  have carry : (∀ r' ∈ after.reservations, ∃ r ∈ db.reservations, r'.effectId = r.effectId) →
      after.Drawn := by
    intro old r' hr'
    obtain ⟨r, hr, same⟩ := old r' hr'
    obtain ⟨e, he, id⟩ := drawn r hr
    obtain ⟨f, hf, kept⟩ := effect_forth h he
    exact ⟨f, hf, kept.id.trans (id.trans same.symm)⟩
  rcases (run_frame h).reservations with written | same
  · cases t with
    | ensureEffect item =>
        obtain ⟨⟨_, _⟩, ok, eq⟩ := map_ok h
        cases eq
        obtain ⟨binding, -, ⟨-, -, rfl⟩ |
          ⟨effects, proposed, reserved, events, rfl, -, inserted, rfl, reserve, rfl⟩⟩ :=
          ensureEffect_ok ok
        · exact drawn
        · obtain ⟨p, a, reservations, -, -, -, -, opened, rfl⟩ := reserveBudget_ok reserve
          intro r (hr : r ∈ reservations)
          change ∃ e ∈ effects, _
          simp only [Table.mem_iff, (Table.insert?_eq_some.mp opened).2,
            (Table.insert?_eq_some.mp inserted).2, List.mem_append, List.mem_singleton] at hr ⊢
          rcases hr with old | rfl
          · obtain ⟨e, he, id⟩ := drawn r old
            exact ⟨e, .inl he, id⟩
          · exact ⟨_, .inr rfl, rfl⟩
    | cancelWorkflow w now =>
        refine carry ?_
        obtain ⟨⟨_, _⟩, ok, eq⟩ := map_ok h
        cases eq
        obtain ⟨workflow, released, events, -, release, rfl⟩ := cancelWorkflow_ok ok
        have old := release_effects release
        exact old
    | rejectEffect approvalId e actor now =>
        refine carry ?_
        obtain ⟨⟨_, _⟩, ok, eq⟩ := map_ok h
        cases eq
        obtain ⟨effect, -, -, ⟨-, rfl⟩ |
          ⟨approvals, mid, released, events, -, -, -, rfl, release, rfl⟩⟩ := rejectEffect_ok ok
        · exact fun r hr => ⟨r, hr, rfl⟩
        · have old := release_effects release
          exact old
    | executeEffect e now =>
        refine carry ?_
        obtain ⟨⟨_, _⟩, ok, eq⟩ := map_ok h
        cases eq
        obtain ⟨_, -, _, -, _, _, settled, _, -, -, -, -, -, -, rfl, settle, rfl⟩ :=
          executeEffect_ok ok
        have old := settle_effects settle
        exact old
    | _ => simp [Transaction.writes] at written
  · exact carry (same ▸ fun r hr => ⟨r, hr, rfl⟩)

end Transaction

theorem drawn {D : Digests} {s : Service} (h : Service.Reachable D s) : s.db.Drawn :=
  Run.Reachable.preserves (I := fun s => s.db.Drawn) h (fun r hr => by cases hr)
    fun _ _ drawn => Service.step_db drawn fun _ _ _ ok => drawn.kept ok

/-! ## The invariant -/

/-- Balanced books in which what was executed is settled. -/
structure LedgerHolds (db : Db) : Prop where
  balanced : db.books.Balanced
  executed : ∀ e ∈ db.effects, e.executionCount ≠ 0 →
    ∀ r ∈ db.reservations, r.effectId = e.id → r.status = .settled

/-- The invariant: every effect was proposed together with its reservation. -/
structure Kept (db : Db) : Prop where
  sound : db.books.Sound
  backed : ∀ e ∈ db.effects, ∃ r ∈ db.reservations, r.effectId = e.id
  executed : ∀ e ∈ db.effects, e.executionCount ≠ 0 →
    ∀ r ∈ db.reservations, r.effectId = e.id → r.status = .settled

section Transaction

variable {D : Digests} {db after : Db} {t : Transaction} {reply : Reply}

theorem backed_after (k : Kept db) (h : t.run D db = .ok (reply, after))
    (respects : ¬ SettlesReleased db t) :
    ∀ e ∈ after.effects, ∃ r ∈ after.reservations, r.effectId = e.id := by
  intro f hf
  obtain ⟨e, he, m⟩ | ⟨item, binding, rfl, -, rfl, free, -⟩ := (transact_effects h).back f hf
  · obtain ⟨r, hr, drawn⟩ := k.backed e he
    obtain ⟨r', hr', n⟩ := (transact_reservations h respects).forth r hr
    exact ⟨r', hr', n.same.2.1.trans (drawn.trans m.sameProposal.id.symm)⟩
  · obtain ⟨⟨_, _⟩, ok, eq⟩ := map_ok h
    cases eq
    obtain ⟨binding', -, ⟨mem, id, rfl⟩ | ⟨effects, proposed, reserved, events, rfl, -, inserted, rfl,
      reserve, rfl⟩⟩ := ensureEffect_ok ok
    · exact absurd rfl (free _ hf)
    · obtain ⟨r, hr, drawn⟩ := reserveBudget_reserves reserve
      exact ⟨r, hr, drawn⟩

theorem executed_after (k : Kept db) (h : t.run D db = .ok (reply, after))
    (respects : ¬ SettlesReleased db t) :
    ∀ f ∈ after.effects, f.executionCount ≠ 0 →
      ∀ r ∈ after.reservations, r.effectId = f.id → r.status = .settled := by
  intro f hf count r' hr' drawn
  obtain ⟨e, he, m⟩ | ⟨item, binding, -, -, rfl, -⟩ := (transact_effects h).back f hf
  · obtain ⟨r, hr, n⟩ | ⟨-, free⟩ := (transact_reservations h respects).back r' hr'
    · have of_effect : r.effectId = e.id := by
        rw [← n.same.2.1, drawn, m.sameProposal.id]
      have old : e.executionCount ≠ 0 → r'.status = .settled := by
        intro done
        have settled := k.executed e he done r hr of_effect
        obtain rfl | ⟨reserved, -⟩ := n
        · exact settled
        · rw [settled] at reserved
          cases reserved
      cases m with
      | keep => exact old count
      | approve => exact old count
      | reject => exact old count
      | execute call admitted =>
          subst call
          obtain ⟨⟨_, _⟩, ok, eq⟩ := map_ok h
          cases eq
          obtain ⟨_, -, _, -, _, _, settled, _, -, -, -, -, -, -, rfl, settle, rfl⟩ :=
            executeEffect_ok ok
          exact settleBudget_settles settle k.sound.single r' hr' drawn
    · -- a new reservation belongs to an effect that had none
      obtain ⟨q, hq, same⟩ := k.backed e he
      exact absurd (same.trans (m.sameProposal.id.symm.trans drawn.symm)) (free q hq)
  · exact absurd rfl count

end Transaction

theorem kept_step {D : Digests} {s : Service} {c : Call} (k : Kept s.db)
    (respects : RespectsReleases s c) : Kept (Service.step D s c).db :=
  Service.step_db k fun _ _ _ ok =>
    ⟨(transact_posts ok respects).sound k.sound, backed_after k ok respects,
      executed_after k ok respects⟩

/-! ## Runs -/

/-- A reservation of the earlier database is in the later one, and as it was, unless it
was still reserved. -/
def ReservationsForward (db later : Db) : Prop :=
  ∀ r ∈ db.reservations, ∃ r' ∈ later.reservations, r'.id = r.id ∧ r'.effectId = r.effectId ∧
    r'.amountUnits = r.amountUnits ∧ (r.status ≠ .reserved → r'.status = r.status)

/-- In some state of the run the reservation was reserved. -/
def WasReserved (D : Digests) (calls : List Call) (r : ReservationRow) : Prop :=
  ∃ earlier rest, calls = earlier ++ rest ∧
    ∃ q ∈ (Run.exec (Service.step D) Service.init earlier).db.reservations,
      q.id = r.id ∧ q.effectId = r.effectId ∧ q.status = .reserved

/-- Every reservation, whatever its status is now, was reserved before. -/
def ReservedFirst (D : Digests) (calls : List Call) : Prop :=
  ∀ r ∈ (Run.exec (Service.step D) Service.init calls).db.reservations, WasReserved D calls r

theorem forward_step {D : Digests} {s : Service} {c : Call} {db : Db}
    (respects : RespectsReleases s c) (h : ReservationsForward db s.db) :
    ReservationsForward db (Service.step D s c).db := by
  refine Service.step_db h fun _ _ _ ok r hr => ?_
  obtain ⟨p, hp, id, effect, amount, closed⟩ := h r hr
  obtain ⟨q, hq, m⟩ := (transact_reservations ok respects).forth p hp
  refine ⟨q, hq, m.same.1.trans id, m.same.2.1.trans effect, m.same.2.2.2.trans amount, ?_⟩
  intro kept
  obtain rfl | ⟨reserved, -⟩ := m
  · exact closed kept
  · exact absurd ((closed kept).symm.trans reserved) kept

theorem reserved_first (D : Digests) (calls : List Call)
    (respects : Run.Along (Service.step D) RespectsReleases Service.init calls) :
    ReservedFirst D calls := by
  induction calls using List.reverseRecOn with
  | nil =>
      intro r hr
      cases hr
  | append_singleton calls c ih =>
      obtain ⟨first, guard, -⟩ := Run.along_append.mp respects
      intro r' hr'
      have old : ∀ r ∈ (Run.exec (Service.step D) Service.init calls).db.reservations,
          r'.id = r.id → r'.effectId = r.effectId → WasReserved D (calls ++ [c]) r' := by
        intro r hr id effect
        obtain ⟨earlier, rest, rfl, q, hq, q_id, q_effect, reserved⟩ := ih first r hr
        exact ⟨earlier, rest ++ [c], List.append_assoc .., q, hq, q_id.trans id.symm,
          q_effect.trans effect.symm, reserved⟩
      rw [Run.exec_append] at hr'
      obtain ⟨reply, db, -, ok, eq⟩ | ⟨same, -, -⟩ :=
        Service.step_cases D (Run.exec (Service.step D) Service.init calls) c
      · rw [Run.exec_cons, Run.exec_nil, eq] at hr'
        obtain ⟨r, hr, m⟩ | ⟨reserved, -⟩ := (transact_reservations ok guard).back r' hr'
        · exact old r hr m.same.1 m.same.2.1
        · refine ⟨calls ++ [c], [], (List.append_nil _).symm, r', ?_, rfl, rfl, reserved⟩
          rw [Run.exec_append, Run.exec_cons, Run.exec_nil, eq]
          exact hr'
      · rw [Run.exec_cons, Run.exec_nil, same] at hr'
        exact old r' hr' rfl rfl

/-- Along a run that settles no released reservation, the budgets are what their
reservations sum to and within their limits, what was executed is settled, and a
reservation is closed once, after it was reserved. -/
theorem budget_ledger (D : Digests) (before later : List Call)
    (respects : Run.Along (Service.step D) RespectsReleases Service.init (before ++ later)) :
    LedgerHolds (Run.exec (Service.step D) Service.init (before ++ later)).db ∧
      ReservationsForward (Run.exec (Service.step D) Service.init before).db
        (Run.exec (Service.step D) Service.init (before ++ later)).db ∧
      ReservedFirst D (before ++ later) := by
  have start : Kept Service.init.db := by
    refine ⟨⟨⟨?_, ?_, ?_⟩, ?_, ?_⟩, ?_, ?_⟩
    all_goals intro x hx
    all_goals cases hx
  have kept := respects.preserves (I := fun s => Kept s.db) start fun s c k guard => kept_step k guard
  have forward := (Run.along_append.mp respects).2.preserves
    (I := fun s => ReservationsForward (Run.exec (Service.step D) Service.init before).db s.db)
    (fun r hr => ⟨r, hr, rfl, rfl, rfl, fun _ => rfl⟩) fun s c h guard => forward_step guard h
  rw [← Run.exec_append] at forward
  exact ⟨⟨kept.sound.toBalanced, kept.executed⟩, forward, reserved_first D _ respects⟩

namespace Sample

/-- The item is claimed and proposed. -/
def proposed (attemptId itemId workflowId : Uuid) : List Call :=
  .make (.claimNext attemptId workflowId "worker" 30 1) ::
    (work true (firstClaim attemptId itemId workflowId 1) 2).take 2

/-- Two workflows of one project, with the two units of each of their items reserved. -/
def proposing : List Call :=
  started [(Uuid.ofNat 4, writing true)] ++
    .make (.createWorkflow (Uuid.ofNat 5) outcome "Other" [(Uuid.ofNat 6, writing true)] 1) ::
    .make (.startWorkflow (Uuid.ofNat 5) 1) ::
      (proposed (Uuid.ofNat 12) (Uuid.ofNat 6) (Uuid.ofNat 5) ++
        proposed (Uuid.ofNat 10) (Uuid.ofNat 4) workflow)

/-- The effect of the first item. -/
def proposal : Uuid := effectId digests workflow (Uuid.ofNat 4)

def approving : Call := .make (.approveEffect (Uuid.ofNat 11) proposal "actor" 9)

def executing : Call := .make (.executeEffect proposal 10)

/-- The reservation of the effect is released, and the effect is executed all the same. -/
def releasing : List Call :=
  proposing ++ [.make (.cancelWorkflow workflow 8), approving, executing]

end Sample

/-- The units of the other workflow are debited for a reservation that was released. -/
theorem released_settled : ¬ LedgerHolds (Sample.run Sample.releasing).db := by
  intro holds
  have debited : ∃ a ∈ (Sample.run Sample.releasing).db.books.budgets.rows,
      a.reservedUnits ≠ (Sample.run Sample.releasing).db.books.amount a.projectId .reserved := by
    decide +kernel
  obtain ⟨a, ha, short⟩ := debited
  exact short (holds.balanced.reserved a ha)

/-- The same run without the cancellation settles the two units of the effect. -/
theorem budget_ledger_sample :
    LedgerHolds (Sample.run (Sample.proposing ++ [Sample.approving, Sample.executing])).db ∧
      ReservationsForward (Sample.run Sample.proposing).db
        (Sample.run (Sample.proposing ++ [Sample.approving, Sample.executing])).db ∧
      ReservedFirst Sample.digests (Sample.proposing ++ [Sample.approving, Sample.executing]) := by
  refine budget_ledger Sample.digests _ _ (Run.along_append.mpr
    ⟨Run.along_of_forall fun c hc s => respectsReleases_of_other ?_,
      respectsReleases_of_other rfl, respectsReleases_of_open ?_, trivial⟩)
  · revert c
    decide +kernel
  · -- nothing is released before the execution
    have reserved : ∀ r ∈ (Sample.run (Sample.proposing ++ [Sample.approving])).db.reservations.rows,
        r.status ≠ .released := by decide +kernel
    rw [Sample.run, Run.exec_append, Run.exec_cons, Run.exec_nil] at reserved
    exact reserved

end Corvus.Mvp
