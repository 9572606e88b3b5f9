import Corvus.Mvp.Integrity

/-!
# Leases and attempts

The lease of an item is in its row, the attempt that holds it in another table. A
claim begins both, and completion, failure, waiting and recovery end both. A
cancellation, and the first approval or rejection of an effect, rewrite the item
only; along runs in which they meet no running item, leases and attempts agree.
-/

namespace Corvus.Mvp

open Db

/-- The item runs under the lease that the attempt holds. -/
def Holds (r : WorkItemRow) (a : AttemptRow) : Prop :=
  r.id = a.workItemId ∧ r.status = .running ∧ r.leaseFence = a.leaseFence ∧
    r.leaseOwner = some a.workerId

/-- The transactions that end a lease and leave its attempt running. -/
inductive Strands (db : Db) : Transaction → Prop where
  | cancel (r now) (mem : r ∈ db.workItems) (running : r.status = .running) :
      Strands db (.cancelWorkflow r.workflowId now)
  | approve (approvalId effect actor now r) (mem : effect ∈ db.effects)
      (first : db.approvalOf effect.id = none) (item_mem : r ∈ db.workItems)
      (id : r.id = effect.workItemId) (running : r.status = .running) :
      Strands db (.approveEffect approvalId effect.id actor now)
  | reject (approvalId effect actor now r) (mem : effect ∈ db.effects)
      (first : db.approvalOf effect.id = none) (item_mem : r ∈ db.workItems)
      (id : r.id = effect.workItemId) (running : r.status = .running) :
      Strands db (.rejectEffect approvalId effect.id actor now)

/-- The step strands no attempt. -/
def RespectsLeases (s : Service) (c : Call) : Prop := ¬ Strands s.db c.transaction

/-- The transactions that rewrite an item without its attempts. -/
def Transaction.itemOnly : Transaction → Bool
  | cancelWorkflow .. | approveEffect .. | rejectEffect .. => true
  | _ => false

theorem respectsLeases_of_other {s : Service} {c : Call} (h : c.transaction.itemOnly = false) :
    RespectsLeases s c := by
  intro strands
  generalize c.transaction = t at h strands
  cases strands <;> cases h

/-- An attempt is running exactly when its item runs under its lease, and an item has
at most one running attempt. -/
structure LeasesAgree (db : Db) : Prop where
  running_iff : ∀ a ∈ db.attempts, a.status = .running ↔ ∃ r ∈ db.workItems, Holds r a
  single : ∀ a ∈ db.attempts, ∀ b ∈ db.attempts, a.status = .running → b.status = .running →
    a.workItemId = b.workItemId → a = b

/-- The fence of an item advances by one with each claim for it, and by nothing else. -/
structure FencesAdvance (D : Digests) (s : Service) : Prop where
  step : ∀ c, ∀ r ∈ s.db.workItems, ∀ r' ∈ (Service.step D s c).db.workItems, r'.id = r.id →
    r'.leaseFence = r.leaseFence ∨
    r'.leaseFence = r.leaseFence + 1 ∧ ∃ attemptId worker duration now,
      c.transaction = .claimNext attemptId r.workflowId worker duration now
  claim : ∀ attemptId w worker duration now claim after,
    s.db.claimNext attemptId w worker duration now = .ok (some claim, after) →
    ∃ r ∈ s.db.workItems, ∃ r' ∈ after.workItems, r.id = claim.workItemId ∧ r'.id = r.id ∧
      r'.leaseFence = r.leaseFence + 1 ∧ claim.leaseFence = r'.leaseFence

/-- A claim that is not current is refused, and nothing is written. -/
def StaleRefused (D : Digests) (s : Service) : Prop :=
  ∀ claim, (¬ ∃ r, s.db.Current claim r) → ∀ ids result duration error now,
    (∀ out, s.db.completeClaim D ids claim result now ≠ .ok out) ∧
    (∀ out, s.db.heartbeat claim duration now ≠ .ok out) ∧
    (∀ out, s.db.failClaim claim error now ≠ .ok out) ∧
    (Service.step D s (.make (.completeClaim ids claim result now))).db = s.db ∧
    (Service.step D s (.make (.heartbeat claim duration now))).db = s.db ∧
    (Service.step D s (.make (.failClaim claim error now))).db = s.db

/-- The invariant: every running attempt holds the lease of its item, and every running
item has the attempt that holds it. -/
structure Leased (db : Db) : Prop where
  attempts : ∀ a ∈ db.attempts, a.status = .running → ∃ r ∈ db.workItems, Holds r a
  items : ∀ r ∈ db.workItems, r.status = .running →
    ∃ a ∈ db.attempts, a.status = .running ∧ Holds r a

section Step

variable {D : Digests} {s : Service} {c : Call} {reply : Reply} {db after : Db} {t : Transaction}

theorem Leased.agree (i : Integrity D s) (l : Leased s.db) : LeasesAgree s.db where
  running_iff a ha := by
    constructor
    · exact l.attempts a ha
    · rintro ⟨r, hr, id, running, fence, owner⟩
      obtain ⟨b, hb, b_running, b_id, -, b_fence, -⟩ := l.items r hr running
      rwa [i.fences a ha b hb (id.symm.trans b_id) (fence.symm.trans b_fence)]
  single a ha b hb a_running b_running same := by
    obtain ⟨r, hr, a_id, -, a_fence, -⟩ := l.attempts a ha a_running
    obtain ⟨q, hq, b_id, -, b_fence, -⟩ := l.attempts b hb b_running
    have eq : r = q := Table.eq_of_key hr hq (a_id.trans (same.trans b_id.symm))
    refine i.fences a ha b hb same ?_
    rw [← a_fence, ← b_fence, eq]

/-- The lease of the item is as it was. -/
def LeaseKept (r r' : WorkItemRow) : Prop :=
  r'.id = r.id ∧ (r'.status = .running ↔ r.status = .running) ∧
    (r.status = .running → r'.leaseFence = r.leaseFence ∧ r'.leaseOwner = r.leaseOwner)

/-- The leases of the items in `ends` are over, the other leases are as they were. -/
def LeaseEnds (ends : WorkItemRow → Prop) (r r' : WorkItemRow) : Prop :=
  ¬ ends r ∧ LeaseKept r r' ∨ ends r ∧ r'.id = r.id ∧ r'.status ≠ .running

/-- Attempts in `ends` run no longer, the others are as they were. -/
def AttemptEnds (ends : AttemptRow → Prop) (a a' : AttemptRow) : Prop :=
  ¬ ends a ∧ a' = a ∨ ends a ∧ a'.status ≠ .running

/-- Leases and attempts that end together keep the invariant. -/
theorem Leased.ends {items : WorkItemRow → Prop} {attempts : AttemptRow → Prop} (l : Leased db)
    (hi : db.workItems.Evolves after.workItems (LeaseEnds items) fun r => r.status ≠ .running)
    (ha : db.attempts.Evolves after.attempts (AttemptEnds attempts) fun _ => False)
    (together : ∀ r ∈ db.workItems, ∀ a ∈ db.attempts, a.status = .running → Holds r a →
      (items r ↔ attempts a)) : Leased after where
  attempts a' ha' running := by
    obtain ⟨a, ha, ⟨alive, rfl⟩ | ⟨-, lapsed⟩⟩ := (ha.back a' ha').resolve_right id
    · obtain ⟨r, hr, holds⟩ := l.attempts a' ha running
      obtain ⟨r', hr', ⟨-, id, still, kept⟩ | ⟨ended, -⟩⟩ := hi.forth r hr
      · obtain ⟨r_id, r_running, fence, owner⟩ := holds
        obtain ⟨same_fence, same_owner⟩ := kept r_running
        exact ⟨r', hr', id.trans r_id, still.mpr r_running, same_fence.trans fence,
          same_owner.trans owner⟩
      · exact absurd ((together r hr a' ha running holds).mp ended) alive
    · exact absurd running lapsed
  items r' hr' running := by
    obtain ⟨r, hr, ⟨alive, id, still, kept⟩ | ⟨-, -, lapsed⟩⟩ | new := hi.back r' hr'
    · have r_running := still.mp running
      obtain ⟨same_fence, same_owner⟩ := kept r_running
      obtain ⟨a, ha', a_running, holds⟩ := l.items r hr r_running
      obtain ⟨a', ha'', ⟨-, rfl⟩ | ⟨ended, -⟩⟩ := ha.forth a ha'
      · obtain ⟨a_id, -, fence, owner⟩ := holds
        exact ⟨a', ha'', a_running, id.trans a_id, running, same_fence.trans fence,
          same_owner.trans owner⟩
      · exact absurd ((together r hr a ha' a_running holds).mpr ended) alive
    · exact absurd running lapsed
    · exact absurd running new

theorem LeaseKept.refl (r : WorkItemRow) : LeaseKept r r := ⟨rfl, Iff.rfl, fun _ => ⟨rfl, rfl⟩⟩

/-- The refresh moves no running item. -/
theorem leaseKept_refresh (db : Db) (w : Uuid) :
    db.workItems.Evolves (db.refreshReadyItems w).workItems LeaseKept fun _ => False := by
  refine (refreshReadyItems_evolves db w).mono (fun r _ s _ m => ?_) fun _ _ h => h
  rcases m with rfl | ⟨-, pending, -, rfl⟩
  · exact .refl s
  · exact ⟨rfl, ⟨nofun, fun h => by simp [pending] at h⟩, fun h => by simp [pending] at h⟩

/-- A table of attempts that no transaction touched. -/
theorem attempts_same (same : after.attempts = db.attempts) :
    db.attempts.Evolves after.attempts (AttemptEnds fun _ => False) fun _ => False := by
  rw [same]
  exact .refl fun a _ => .inl ⟨id, rfl⟩

/-- Leases that are all kept, with the attempts as they are, keep the invariant. -/
theorem Leased.kept (l : Leased db)
    (hi : db.workItems.Evolves after.workItems LeaseKept fun r => r.status ≠ .running)
    (same : after.attempts = db.attempts) : Leased after :=
  l.ends (hi.mono (fun _ _ _ _ kept => .inl ⟨not_false, kept⟩) fun _ _ h => h)
    (attempts_same same) fun _ _ _ _ _ _ => Iff.rfl

/-! ### Transactions that begin and end no lease -/

/-- The transactions that begin or end a lease together with its attempt. -/
def Transaction.leases : Transaction → Bool
  | claimNext .. | completeClaim .. | failClaim .. | recoverWorkflow .. | waitForApproval .. => true
  | _ => false

theorem leaseKept_move (other : t.leases = false) (alone : ¬ Strands db t) {r r' : WorkItemRow}
    (hr : r ∈ db.workItems) (m : ItemMove db after t r r') : LeaseKept r r' := by
  have idle : ∀ {status}, r.status ≠ .running → status ≠ WorkItemStatus.running →
      LeaseKept r (WorkItemRow.withStatus status r) := fun h h' =>
    ⟨rfl, ⟨fun k => absurd k h', fun k => absurd k h⟩, fun k => absurd k h⟩
  cases m with
  | keep => exact .refl r
  | refresh pending met => exact idle (by simp [pending]) (by simp)
  | claim call => simp [call, Transaction.leases] at other
  | complete call => simp [call, Transaction.leases] at other
  | renew call current => exact ⟨rfl, Iff.rfl, fun _ => ⟨rfl, rfl⟩⟩
  | fail call => simp [call, Transaction.leases] at other
  | retry call failed next =>
      refine ⟨rfl, ⟨fun h => ?_, fun h => by simp [failed] at h⟩, fun h => by simp [failed] at h⟩
      rcases next with rfl | ⟨rfl, -⟩ <;> cases h
  | recover call => simp [call, Transaction.leases] at other
  | await call => simp [call, Transaction.leases] at other
  | approve call mem first id =>
      refine idle (fun running => alone ?_) (by simp)
      rw [call]
      exact .approve _ _ _ _ r mem first hr id running
  | reject call mem first id =>
      refine idle (fun running => alone ?_) (by simp)
      rw [call]
      exact .reject _ _ _ _ r mem first hr id running
  | cancel call unfinished =>
      have stopped : r.status ≠ .running := by
        intro running
        rw [call] at alone
        exact alone (.cancel r _ hr running)
      exact ⟨rfl, ⟨nofun, fun h => absurd h stopped⟩, fun h => absurd h stopped⟩

theorem Leased.other (l : Leased db) (h : t.run D db = .ok (reply, after))
    (other : t.leases = false) (alone : ¬ Strands db t) : Leased after := by
  refine l.kept ((transact_items h).mono (fun r hr r' _ m => leaseKept_move other alone hr m) ?_) ?_
  · rintro r' - ⟨id, o, name, items, now, item, -, -, -, -, rfl⟩
    simp [newItem]
  · refine (run_frame h).attempts.resolve_left fun written => ?_
    cases t <;> simp [Transaction.writes, Transaction.leases] at written other

/-! ### Transactions that end a lease -/

/-- Ending the lease of the current item of a held claim, with the attempt of the claim. -/
theorem Leased.finish (i : Integrity D s) (l : Leased s.db) {claim : WorkClaim} {row : WorkItemRow}
    (mem : claim ∈ s.claims) (current : s.db.Current claim row)
    (hi : s.db.workItems.Evolves after.workItems (LeaseEnds fun r => r.id = row.id)
      fun r => r.status ≠ .running)
    (ha : s.db.attempts.Evolves after.attempts (AttemptEnds fun a => a.id = claim.attemptId)
      fun _ => False) : Leased after := by
  refine l.ends hi ha fun r hr a ha' running holds => ?_
  obtain ⟨b, hb, b_id, b_item, b_fence, -⟩ := i.claim_attempt mem current
  obtain ⟨r_id, -, fence, -⟩ := holds
  constructor
  · intro same
    have eq : r = row := Table.eq_of_key hr current.mem same
    rw [i.fences a ha' b hb (r_id.symm.trans (same.trans b_item.symm)) ?_]
    · exact b_id
    · rw [← fence, b_fence, eq]
  · intro same
    rw [r_id, Table.eq_of_key ha' hb (same.trans b_id.symm), b_item]

theorem leaseEnds_setItem {id : Uuid} {f : Rewrite WorkItemRow} (lapsed : ∀ r, (f r).status ≠ .running) :
    db.workItems.Evolves (db.setItem id f).workItems (LeaseEnds fun r => r.id = id)
      fun _ => False := by
  refine (setItem_evolves db id f).mono (fun r _ s _ m => ?_) fun _ _ h => h
  rcases m with ⟨other, rfl⟩ | ⟨hit, rfl⟩
  · exact .inl ⟨other, .refl s⟩
  · exact .inr ⟨hit, f.keeps r, lapsed r⟩

/-- A refresh after the leases have ended. -/
theorem leaseEnds_refresh {ends : WorkItemRow → Prop} {mid : Db} {w : Uuid}
    (h : db.workItems.Evolves mid.workItems (LeaseEnds ends) fun _ => False) :
    db.workItems.Evolves (mid.refreshReadyItems w).workItems (LeaseEnds ends)
      fun r => r.status ≠ .running := by
  refine h.trans (leaseKept_refresh mid w) fun r _ s _ s' _ m₁ m₂ => ?_
  obtain ⟨id', still', kept'⟩ := m₂
  rcases m₁ with ⟨alive, id, still, kept⟩ | ⟨ended, id, lapsed⟩
  · refine .inl ⟨alive, id'.trans id, still'.trans still, fun running => ?_⟩
    obtain ⟨fence, owner⟩ := kept running
    obtain ⟨fence', owner'⟩ := kept' (still.mpr running)
    exact ⟨fence'.trans fence, owner'.trans owner⟩
  · exact .inr ⟨ended, id'.trans id, fun running => lapsed (still'.mp running)⟩

theorem attemptEnds_set {id : Uuid} {f : Rewrite AttemptRow} (lapsed : ∀ a, (f a).status ≠ .running) :
    db.attempts.Evolves (db.setAttempt id f).attempts (AttemptEnds fun a => a.id = id)
      fun _ => False := by
  refine (setAttempt_evolves db id f).mono (fun a _ b _ m => ?_) fun _ _ h => h
  rcases m with ⟨other, rfl⟩ | ⟨hit, rfl⟩
  · exact .inl ⟨other, rfl⟩
  · exact .inr ⟨hit, lapsed a⟩

theorem Leased.complete (i : Integrity D s) (l : Leased s.db) {ids : CompletionIds}
    {claim : WorkClaim} {result : Option (List (String × Json))} {now : Instant} {u : Unit}
    (mem : claim ∈ s.claims) (h : s.db.completeClaim D ids claim result now = .ok (u, after)) :
    Leased after := by
  obtain ⟨row, workflows, workItems, _, artifacts, _, _, _, current, rfl, -, -, rfl⟩ :=
    completeClaim_ok h
  refine l.finish i mem current (leaseEnds_refresh (leaseEnds_setItem ?_)) (attemptEnds_set ?_)
  · exact fun r => nofun
  · exact fun a => nofun

theorem Leased.fail (i : Integrity D s) (l : Leased s.db) {claim : WorkClaim} {error : String}
    {now : Instant} {u : Unit} (mem : claim ∈ s.claims)
    (h : s.db.failClaim claim error now = .ok (u, after)) : Leased after := by
  obtain ⟨row, events, current, rfl⟩ := failClaim_ok h
  refine l.finish i mem current ?_ (attemptEnds_set ?_)
  · rw [current.id]
    refine (leaseEnds_setItem ?_).mono (fun _ _ _ _ m => m) fun _ _ h => h.elim
    exact fun r => nofun
  · exact fun a => nofun

theorem Leased.wait (i : Integrity D s) (l : Leased s.db) {claim : WorkClaim} {e : Uuid}
    {now : Instant} {u : Unit} (mem : claim ∈ s.claims)
    (h : s.db.waitForApproval claim e now = .ok (u, after)) : Leased after := by
  obtain ⟨row, events, current, rfl⟩ := waitForApproval_ok h
  refine l.finish i mem current ?_ (attemptEnds_set ?_)
  · rw [current.id]
    refine (leaseEnds_setItem ?_).mono (fun _ _ _ _ m => m) fun _ _ h => h.elim
    exact fun r => nofun
  · exact fun a => nofun

theorem Leased.recover (l : Leased db) {w : Uuid} {now : Instant} {n : Nat}
    (h : db.recoverWorkflow w now = .ok (n, after)) : Leased after := by
  obtain ⟨workflow, rows, events, -, rfl, -, rfl⟩ := recoverWorkflow_ok h
  have items : db.workItems.Evolves
      (db.recoverItems w now (db.workItems.rows.filter (staleLease w now))).workItems
      (LeaseEnds fun r => staleLease w now r = true) fun _ => False :=
    .update (fun r _ spared => .inl ⟨by simp [spared], .refl r⟩)
      fun r _ hit => .inr ⟨hit, rfl, nofun⟩
  have attempts : db.attempts.Evolves
      (db.recoverItems w now (db.workItems.rows.filter (staleLease w now))).attempts
      (AttemptEnds fun a => a.status = .running ∧
        ∃ r ∈ db.workItems, staleLease w now r = true ∧ r.id = a.workItemId) fun _ => False := by
    refine .update (fun a _ spared => ?_) fun a _ hit => ?_
    · refine .inl ⟨?_, rfl⟩
      rintro ⟨running, r, hr, stale, id⟩
      simp only [running, decide_true, Bool.true_and, List.any_eq_false, List.mem_filter] at spared
      exact spared r ⟨hr, stale⟩ (decide_eq_true id)
    · simp only [Bool.and_eq_true, decide_eq_true_eq, List.any_eq_true, List.mem_filter] at hit
      obtain ⟨running, r, ⟨mem, stale⟩, id⟩ := hit
      exact .inr ⟨⟨running, r, mem, stale, id⟩, nofun⟩
  refine l.ends (leaseEnds_refresh items) attempts ?_
  intro r hr a ha running holds
  constructor
  · exact fun stale => ⟨running, r, hr, stale, holds.1⟩
  · rintro ⟨-, q, hq, stale, id⟩
    rwa [Table.eq_of_key hr hq (holds.1.trans id.symm)]

/-! ### Transactions that begin a lease -/

/-- Every item but the claimed one keeps its lease, and the claimed one had none. -/
theorem claimNext_leases {attemptId w : Uuid} {worker : String} {duration : Int} {now : Instant}
    {claim : WorkClaim} (h : db.claimNext attemptId w worker duration now = .ok (some claim, after)) :
    db.workItems.Evolves after.workItems
      (fun r r' => r.id ≠ claim.workItemId ∧ LeaseKept r r' ∨
        r.id = claim.workItemId ∧ r.status ≠ .running ∧ r'.id = r.id ∧ r'.status = .running ∧
          r'.leaseFence = claim.leaseFence ∧ r'.leaseOwner = some claim.workerId)
      fun _ => False := by
  obtain ⟨workflow, -, ⟨-, ⟨⟩, -⟩ | ⟨-, -, -, ⟨⟩, -⟩ |
    ⟨row, attempts, events, -, -, first, same, -, rfl⟩⟩ := claimNext_ok h
  cases same
  obtain ⟨row_mem, -, row_ready⟩ := mem_readyItems.mp (firstByKey_mem first)
  refine (leaseKept_refresh db w).trans (setItem_evolves _ row.id _) ?_
  intro r hr s hs s' hs' m₁ m₂
  rcases m₂ with ⟨other, rfl⟩ | ⟨hit, rfl⟩
  · exact .inl ⟨fun id => other (m₁.1.trans id), m₁⟩
  · obtain rfl := Table.eq_of_key hs row_mem hit
    have stopped : r.status ≠ .running := by
      intro running
      have := m₁.2.1.mpr running
      rw [row_ready] at this
      cases this
    exact .inr ⟨m₁.1.symm, stopped, m₁.1, rfl, rfl, rfl⟩

theorem Leased.claim (l : Leased db) {attemptId w : Uuid} {worker : String} {duration : Int}
    {now : Instant} {claim : WorkClaim}
    (h : db.claimNext attemptId w worker duration now = .ok (some claim, after)) : Leased after := by
  have items := claimNext_leases h
  obtain ⟨r₀, hr₀, attempts, rfl, rfl, ready, -, -, claimed, inserted, rfl⟩ := claimNext_claimed h
  have rows := (Table.insert?_eq_some.mp inserted).2
  have stopped : r₀.status ≠ .running := by
    rcases ready with h | ⟨h, -⟩ <;> simp [h]
  constructor
  · intro a ha running
    rw [Table.mem_iff, rows, List.mem_append, List.mem_singleton] at ha
    rcases ha with ha | rfl
    · obtain ⟨r, hr, id, r_running, fence, owner⟩ := l.attempts a ha running
      obtain ⟨r', hr', ⟨-, id', still, kept⟩ | ⟨-, lapsed, -⟩⟩ := items.forth r hr
      · obtain ⟨same_fence, same_owner⟩ := kept r_running
        exact ⟨r', hr', id'.trans id, still.mpr r_running, same_fence.trans fence,
          same_owner.trans owner⟩
      · exact absurd r_running lapsed
    · exact ⟨_, claimed, rfl, rfl, rfl, rfl⟩
  · intro r' hr' running
    obtain ⟨r, hr, ⟨-, id, still, kept⟩ | ⟨same, -, id, -, fence, owner⟩⟩ :=
      (items.back r' hr').resolve_right fun none => none
    · have r_running := still.mp running
      obtain ⟨same_fence, same_owner⟩ := kept r_running
      obtain ⟨a, ha, a_running, a_id, -, a_fence, a_owner⟩ := l.items r hr r_running
      refine ⟨a, ?_, a_running, id.trans a_id, running, same_fence.trans a_fence,
        same_owner.trans a_owner⟩
      rw [Table.mem_iff, rows]
      exact List.mem_append_left _ ha
    · refine ⟨⟨attemptId, r₀.id, worker, r₀.leaseFence + 1, .running, none, none, now, none⟩, ?_,
        rfl, id.trans same, running, fence, owner⟩
      rw [Table.mem_iff, rows]
      exact List.mem_append_right _ (List.mem_singleton.mpr rfl)

theorem leased_step (i : Integrity D s) (l : Leased s.db) (respects : RespectsLeases s c) :
    Leased (Service.step D s c).db := by
  refine Service.step_db l fun reply db held ok => ?_
  cases other : c.transaction.leases with
  | false => exact l.other ok other respects
  | true =>
      cases call : c.transaction with
      | claimNext attemptId w worker duration now =>
          rw [call] at ok
          obtain ⟨⟨claim, _⟩, body, eq⟩ := map_ok ok
          cases eq
          cases claim with
          | some claim => exact l.claim body
          | none =>
              obtain ⟨workflow, -, ⟨-, -, rfl⟩ | ⟨-, -, -, -, rfl⟩ |
                ⟨row, attempts, events, -, -, -, ⟨⟩, -⟩⟩ := claimNext_ok body
              · exact l
              · exact l.kept ((leaseKept_refresh s.db w).mono (fun _ _ _ _ m => m)
                  fun _ _ h => h.elim) rfl
      | completeClaim ids claim result now =>
          rw [call] at ok
          obtain ⟨⟨_, _⟩, body, eq⟩ := map_ok ok
          cases eq
          exact l.complete i (i.held held (.inl ⟨ids, result, now, call⟩)) body
      | failClaim claim error now =>
          rw [call] at ok
          obtain ⟨⟨_, _⟩, body, eq⟩ := map_ok ok
          cases eq
          exact l.fail i (i.held held (.inr (.inr (.inl ⟨error, now, call⟩)))) body
      | waitForApproval claim e now =>
          rw [call] at ok
          obtain ⟨⟨_, _⟩, body, eq⟩ := map_ok ok
          cases eq
          exact l.wait i (i.held held (.inr (.inr (.inr ⟨e, now, call⟩)))) body
      | recoverWorkflow w now =>
          rw [call] at ok
          obtain ⟨⟨_, _⟩, body, eq⟩ := map_ok ok
          cases eq
          exact l.recover body
      | _ => simp [call, Transaction.leases] at other

theorem fencesAdvance (D : Digests) (s : Service) : FencesAdvance D s where
  step c r hr r' hr' id := by
    obtain ⟨reply, db, -, ok, eq⟩ | ⟨db, -, -⟩ := Service.step_cases D s c
    · rw [eq] at hr'
      obtain ⟨p, hp, m⟩ := (transact_items ok).forth r hr
      have same : r' = p := Table.eq_of_key hr' hp (id.trans m.sameDefinition.id.symm)
      subst same
      cases m with
      | claim call => exact .inr ⟨rfl, _, _, _, _, call⟩
      | _ => exact .inl rfl
    · rw [db] at hr'
      rw [Table.eq_of_key hr' hr id]
      exact .inl rfl
  claim attemptId w worker duration now claim after h := by
    obtain ⟨r, hr, attempts, -, rfl, -, -, -, claimed, -⟩ := claimNext_claimed h
    exact ⟨r, hr, _, claimed, rfl, rfl, rfl, rfl⟩

theorem staleRefused (D : Digests) (s : Service) : StaleRefused D s := by
  intro claim stale ids result duration error now
  have complete : ∀ out, s.db.completeClaim D ids claim result now ≠ .ok out := by
    rintro ⟨u, after⟩ h
    obtain ⟨row, _, _, _, _, _, _, _, current, -⟩ := completeClaim_ok h
    exact stale ⟨row, current⟩
  have beat : ∀ out, s.db.heartbeat claim duration now ≠ .ok out := by
    rintro ⟨renewed, after⟩ h
    obtain ⟨row, events, current, -⟩ := heartbeat_ok h
    exact stale ⟨row, current⟩
  have fail : ∀ out, s.db.failClaim claim error now ≠ .ok out := by
    rintro ⟨u, after⟩ h
    obtain ⟨row, events, current, -⟩ := failClaim_ok h
    exact stale ⟨row, current⟩
  refine ⟨complete, beat, fail, ?_, ?_, ?_⟩
  · refine Service.step_db (P := (· = s.db)) rfl fun reply db _ ok => ?_
    obtain ⟨out, ok, -⟩ := map_ok ok
    exact absurd ok (complete out)
  · refine Service.step_db (P := (· = s.db)) rfl fun reply db _ ok => ?_
    obtain ⟨out, ok, -⟩ := map_ok ok
    exact absurd ok (beat out)
  · refine Service.step_db (P := (· = s.db)) rfl fun reply db _ ok => ?_
    obtain ⟨out, ok, -⟩ := map_ok ok
    exact absurd ok (fail out)

end Step

/-! ## Runs -/

/-- Along a run whose steps strand no attempt, attempts and leases agree in the state
reached, every further step moves fences as claims do, and stale claims are refused. -/
theorem leases_agree (D : Digests) (calls : List Call)
    (respects : Run.Along (Service.step D) RespectsLeases Service.init calls) :
    LeasesAgree (Run.exec (Service.step D) Service.init calls).db ∧
      FencesAdvance D (Run.exec (Service.step D) Service.init calls) ∧
      StaleRefused D (Run.exec (Service.step D) Service.init calls) := by
  have start : Integrity D Service.init ∧ Leased Service.init.db := by
    refine ⟨.init D, ⟨fun a ha => ?_, fun r hr => ?_⟩⟩
    · cases ha
    · cases hr
  have kept := respects.preserves (I := fun s => Integrity D s ∧ Leased s.db) start
    fun s c h guard => ⟨h.1.step c, leased_step h.1 h.2 guard⟩
  exact ⟨kept.2.agree kept.1, fencesAdvance D _, staleRefused D _⟩

namespace Sample

/-- The only item is claimed. -/
def leased : List Call :=
  started [(Uuid.ofNat 4, plain)] ++ [.make (.claimNext (Uuid.ofNat 10) workflow "worker" 30 1)]

def lease : WorkClaim :=
  ⟨Uuid.ofNat 10, Uuid.ofNat 4, workflow, "plan", "worker", 1, 31⟩

end Sample

/-- A cancellation takes the lease of a running item and leaves its attempt running. -/
theorem cancelled_attempt_running :
    ¬ LeasesAgree (Sample.run (Sample.leased ++
      [.make (.cancelWorkflow Sample.workflow 2)])).db := by
  intro agree
  have attempt : (⟨Uuid.ofNat 10, Uuid.ofNat 4, "worker", 1, .running, none, none, 1, none⟩ :
      AttemptRow) ∈ (Sample.run (Sample.leased ++
        [.make (.cancelWorkflow Sample.workflow 2)])).db.attempts := by decide
  obtain ⟨r, hr, -, running, -⟩ := (agree.running_iff _ attempt).mp rfl
  have stopped : ∀ r ∈ (Sample.run (Sample.leased ++
      [.make (.cancelWorkflow Sample.workflow 2)])).db.workItems.rows, r.status ≠ .running := by
    decide
  exact stopped r hr running

/-- A claim, a renewal and a completion. -/
theorem leases_agree_sample :
    LeasesAgree (Sample.run (Sample.leased ++ [.make (.heartbeat Sample.lease 60 2),
        .make (.completeClaim Sample.ids Sample.lease none 3)])).db ∧
      FencesAdvance Sample.digests (Sample.run (Sample.leased ++
        [.make (.heartbeat Sample.lease 60 2),
          .make (.completeClaim Sample.ids Sample.lease none 3)])) ∧
      StaleRefused Sample.digests (Sample.run (Sample.leased ++
        [.make (.heartbeat Sample.lease 60 2),
          .make (.completeClaim Sample.ids Sample.lease none 3)])) := by
  refine leases_agree Sample.digests _
    (Run.along_of_forall fun c hc s => respectsLeases_of_other ?_)
  revert c
  decide

end Corvus.Mvp
