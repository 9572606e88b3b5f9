import Corvus.Mvp.Progress

/-!
# Crash-safe execution

A round of the recovery that takes another item leaves fewer items to take, and the
round that takes this one completes it or leaves it to the approval of the next round.
So the rounds end, unless a kill switch, a rejection or an execution before the crash
stands in their way: then no round completes the item.
-/

namespace Corvus.Mvp

open Db Service

/-! ## One round -/

section Round

variable {D : Digests} {i r : WorkItemRow} {s : Service} {db : Db} {draw : Draw}
  {left : List Uuid} {decided : Prop} {worker actor : String} {lease : Int}

theorem Resting.worked (h : Resting D i r left decided s) (own : SameDefinition i r)
    (ready : r.status = .ready) (bound : i.effect ≠ none)
    (attempt : ∀ a ∈ s.db.attempts, a.id ≠ draw.attempt) (unused : s.db.Unused draw.completion)
    (undigested : Undigested D i s.db) :
    Completed D i (runNext D draw i.workflowId worker lease s).db ∨
    (¬ decided ∧ ∃ r', SameDefinition i r' ∧ r'.status = .waitingApproval ∧
      Resting D i r' left False (runNext D draw i.workflowId worker lease s)) ∨
    ∃ left', left'.length < left.length ∧
      Resting D i r left' decided (runNext D draw i.workflowId worker lease s) := by
  obtain ⟨claim, db, ok⟩ := @claimNext_enabled _ (draw.clock 5) _ _ worker lease
    h.passable.workflow h.passable.off _ h.mem own.workflowId ready attempt
  have run : (draw.claiming i.workflowId worker lease).transaction.run D s.db =
      .ok (.claimed claim, db) := by
    change (_ <$> s.db.claimNext _ _ _ _ _) = _
    rw [ok]
    rfl
  rw [runNext_claimed ok]
  by_cases mine : claim.workItemId = i.id
  · obtain ⟨flow, r', own', owning⟩ := h.claim_own own ok mine
    have same : (step D s (draw.claiming i.workflowId worker lease)).db = db := by
      rw [step_ok rfl run]
    rw [← same] at run
    obtain done | waits := owning.finish own' flow bound
      (undigested.kept run rfl (by simp [Draw.claiming, Call.transaction])
        (by simp [Draw.claiming, Call.transaction]))
      (unused.kept run (by simp [Draw.claiming, Call.transaction]))
    · exact .inl done
    · exact .inr (.inl waits)
  · obtain ⟨listed, flow, rest⟩ := h.claim_other own ready ok mine
    refine .inr (.inr ⟨left.erase claim.workItemId, ?_, ?_⟩)
    · rw [List.length_erase_of_mem listed]
      have := List.length_pos_of_mem listed
      omega
    · refine follow_preserves (fun s t of_claim rest => ?_) rest
      refine rest.other own ready ?_ ?_
      · rw [of_claim]
        exact flow
      · rw [of_claim]
        exact mine

/-- The effect that the item waits for is approved. -/
theorem Resting.approved (h : Resting D i r left False s) (own : SameDefinition i r)
    (waits : r.status = .waitingApproval) (fresh : ∀ a ∈ s.db.approvals, a.id ≠ draw.approval) :
    ∃ r' row db, s.db.approveEffect draw.approval (effectId D i.workflowId i.id) actor
        (draw.clock 6) = .ok (row, db) ∧ SameDefinition i r' ∧ r'.status = .ready ∧
      Resting D i r' left True (step D s (.make (.approveEffect draw.approval
        (effectId D i.workflowId i.id) actor (draw.clock 6)))) := by
  obtain ⟨e, he, owner, undecided⟩ := h.decisions.waiting r h.mem waits
  obtain ⟨q, hq, q_id, flow, -, key⟩ := h.integrity.effects e he
  obtain rfl := Table.eq_of_key hq h.mem (q_id.trans owner)
  have id : e.id = effectId D i.workflowId i.id := by rw [key, own.workflowId, own.id]
  obtain ⟨row, db, approved⟩ := @approveEffect_enabled _ (draw.clock 6) _ _ actor he undecided
    fresh
  rw [id] at approved undecided
  have run : (Call.make (.approveEffect draw.approval (effectId D i.workflowId i.id) actor
      (draw.clock 6))).transaction.run D s.db = .ok (.done, db) := by
    change _ <$> s.db.approveEffect _ _ _ _ = _
    rw [approved]
    rfl
  have underway := h.toUnderway.stepped fun reply db _ ok =>
    aside_of_frame (t := (Call.make (.approveEffect draw.approval (effectId D i.workflowId i.id) actor
      (draw.clock 6))).transaction) ok rfl (by simp [Call.transaction]) (by simp [Call.transaction])
      (by simp [Call.transaction])
  refine ⟨WorkItemRow.withStatus .ready q, row, db, approved,
    own.trans ⟨rfl, rfl, rfl, rfl, rfl, rfl, rfl⟩, rfl, underway, ?_, ?_, fun _ => ?_⟩
  all_goals
    rw [step_ok rfl run]
    obtain ⟨f, hf, f_id, ⟨found, -⟩ | ⟨approvals, events, -, -, -, rfl⟩⟩ := approveEffect_ok approved
    · rw [undecided] at found
      cases found
    obtain rfl := Table.eq_of_key hf he (f_id.trans id.symm)
  · have moved := Table.mem_update_of_mem (p := fun p => decide (p.id = f.workItemId))
      (f := WorkItemRow.withStatus .ready) h.mem
    rwa [if_pos (decide_eq_true owner.symm)] at moved
  · intro p hp p_flow other open_
    rcases Table.of_mem_update hp with ⟨old, -⟩ | ⟨p, -, hit, rfl⟩
    · exact h.listed p old p_flow other open_
    · exact absurd ((of_decide_eq_true hit).trans (owner.trans own.id)) other
  · intro _
    have moved := Table.mem_update_of_mem
      (p := fun g => decide (g.id = effectId D i.workflowId i.id))
      (f := EffectRow.decided draw.approval .approved) he
    rw [if_pos (decide_eq_true id)] at moved
    exact ⟨_, moved, owner.trans own.id, Option.some_ne_none _⟩

theorem approveWaiting_ready (mem : r ∈ s.db.workItems) (id : r.id = i.id)
    (ready : r.status ≠ .waitingApproval) : approveWaiting D actor i draw s = s := by
  unfold approveWaiting
  refine if_neg fun waits => ?_
  obtain ⟨q, hq, hit⟩ := List.any_eq_true.mp waits
  simp only [Bool.and_eq_true, decide_eq_true_eq] at hit
  obtain rfl := Table.eq_of_key hq mem (hit.1.trans id.symm)
  exact ready hit.2

theorem approveWaiting_waits (mem : r ∈ s.db.workItems) (id : r.id = i.id)
    (waits : r.status = .waitingApproval) : approveWaiting D actor i draw s =
      step D s (.make (.approveEffect draw.approval (effectId D i.workflowId i.id) actor
        (draw.clock 6))) := by
  unfold approveWaiting
  refine if_pos (List.any_eq_true.mpr ⟨r, mem, ?_⟩)
  simp only [id, waits, decide_true, Bool.and_self]

/-- Before a round: so many of them are left at most. -/
inductive Pending (D : Digests) (i : WorkItemRow) (s : Service) : Nat → Prop
  | undecided {r : WorkItemRow} {left : List Uuid} (own : SameDefinition i r)
      (ready : r.status = .ready) (rest : Resting D i r left False s) :
      Pending D i s (left.length + 2)
  | waiting {r : WorkItemRow} {left : List Uuid} (own : SameDefinition i r)
      (waits : r.status = .waitingApproval) (rest : Resting D i r left False s) :
      Pending D i s (left.length + 1)
  | decided {r : WorkItemRow} {left : List Uuid} (own : SameDefinition i r)
      (ready : r.status = .ready) (rest : Resting D i r left True s) :
      Pending D i s left.length

theorem Pending.round {n : Nat} (p : Pending D i s n) (bound : i.effect ≠ none)
    (fresh : Fresh D i s.db draw) :
    let s' := runNext D draw i.workflowId worker lease (approveWaiting D actor i draw s)
    Completed D i s'.db ∨ ∃ m < n, Pending D i s' m := by
  intro s'
  cases p with
  | undecided own ready rest =>
      have same : approveWaiting D actor i draw s = s :=
        approveWaiting_ready rest.mem own.id (by simp [ready])
      have worked := @Resting.worked _ _ _ _ _ _ _ worker lease rest own ready bound fresh.attempt
        fresh.completion fresh.undigested
      rw [← same] at worked
      obtain done | ⟨-, r', own', waits, rest'⟩ | ⟨left', fewer, rest'⟩ := worked
      · exact .inl done
      · exact .inr ⟨_, by omega, .waiting own' waits rest'⟩
      · exact .inr ⟨_, by omega, .undecided own ready rest'⟩
  | decided own ready rest =>
      have same : approveWaiting D actor i draw s = s :=
        approveWaiting_ready rest.mem own.id (by simp [ready])
      have worked := @Resting.worked _ _ _ _ _ _ _ worker lease rest own ready bound fresh.attempt
        fresh.completion fresh.undigested
      rw [← same] at worked
      obtain done | ⟨undecided, -⟩ | ⟨left', fewer, rest'⟩ := worked
      · exact .inl done
      · exact absurd trivial undecided
      · exact .inr ⟨_, fewer, .decided own ready rest'⟩
  | waiting own waits rest =>
      obtain ⟨r', row, db, approved, own', ready, rest'⟩ :=
        @Resting.approved _ _ _ _ _ _ actor rest own waits fresh.approval
      have run : (Call.make (.approveEffect draw.approval (effectId D i.workflowId i.id) actor
          (draw.clock 6))).transaction.run D s.db = .ok (.done, db) := by
        change _ <$> s.db.approveEffect _ _ _ _ = _
        rw [approved]
        rfl
      have stored : (step D s (.make (.approveEffect draw.approval (effectId D i.workflowId i.id)
          actor (draw.clock 6)))).db = db := by rw [step_ok rfl run]
      have attempts : db.attempts = s.db.attempts :=
        (run_frame run).attempts.resolve_left (by simp [Call.transaction, Transaction.writes])
      rw [← approveWaiting_waits rest.mem own.id waits] at rest' stored
      have worked := @Resting.worked _ _ _ _ draw _ _ worker lease rest' own' ready bound
        (by rw [stored, attempts]; exact fresh.attempt)
        (stored ▸ fresh.completion.kept run (by simp [Call.transaction]))
        (stored ▸ fresh.undigested.kept run rfl (by simp [Call.transaction])
          (by simp [Call.transaction]))
      obtain done | ⟨undecided, -⟩ | ⟨left', fewer, rest'⟩ := worked
      · exact .inl done
      · exact absurd trivial undecided
      · exact .inr ⟨_, by omega, .decided own' ready rest'⟩

end Round

/-! ## All rounds -/

/-- The transactions of `run_next`. -/
def Transaction.ofWorker : Transaction → Bool
  | .claimNext .. => true
  | t => t.works

section Rounds

variable {D : Digests} {i : WorkItemRow} {s : Service} {draws : Nat → Draw} {worker actor : String}
  {lease : Int} {n : Nat}

theorem succeeded_still {db after : Db} {t : Transaction} {r r' : WorkItemRow}
    (worker : t.ofWorker = true) (done : r.status = .succeeded) (m : ItemMove db after t r r') :
    r' = r := by
  cases m with
  | keep => rfl
  | refresh pending => simp [done] at pending
  | claim call running off ready => simp [done] at ready
  | complete call current | await call current | renew call current | fail call current =>
      have running := current.running
      rw [done] at running
      cases running
  | retry call | recover call | approve call | reject call | cancel call =>
      rw [call] at worker
      cases worker

theorem Completed.step {c : Call} (done : Completed D i s.db)
    (worker : c.transaction.ofWorker = true) : Completed D i (step D s c).db := by
  refine Service.step_db done fun reply db _ ok => ?_
  obtain ⟨r, hr, id, succeeded, e, he, owner, once, same, result⟩ := done
  obtain ⟨r', hr', m⟩ := (transact_items ok).forth r hr
  obtain rfl := succeeded_still worker succeeded m
  refine ⟨r', hr', id, succeeded, ?_⟩
  obtain ⟨f, hf, k⟩ := (transact_effects ok).forth e he
  cases k with
  | keep => exact ⟨e, hf, owner, once, same, result⟩
  | execute call admitted => exact absurd (admitted.1.symm.trans once) (by decide)
  | approve call | reject call =>
      rw [call] at worker
      cases worker

theorem ofWorker_call (draw : Draw) (task : Task) :
    (draw.call task).transaction.ofWorker = true := by
  have works := task.next_works draw.completion (draw.clock task.stages)
  change (task.next _ _).ofWorker = true
  unfold Transaction.ofWorker
  split
  · rfl
  · exact works

/-- What the transactions of a worker keep, a whole `run_next` keeps. -/
theorem runNext_preserves {P : Service → Prop} {draw : Draw} {w : Uuid}
    (keep : ∀ s c, c.transaction.ofWorker = true → P s → P (Service.step D s c)) (start : P s) :
    P (runNext D draw w worker lease s) := by
  have claimed : P (Service.step D s (draw.claiming w worker lease)) := keep _ _ rfl start
  unfold runNext
  split
  · exact follow_preserves (fun s t _ => keep s _ (ofWorker_call draw t)) claimed
  · exact claimed

theorem Completed.round {draw : Draw} (done : Completed D i s.db) :
    Completed D i (runNext D draw i.workflowId worker lease (approveWaiting D actor i draw s)).db := by
  obtain ⟨r, hr, id, succeeded, -⟩ := id done
  rw [approveWaiting_ready hr id (by simp [succeeded])]
  exact runNext_preserves (P := fun s => Completed D i s.db) (fun _ _ worker done => done.step worker)
    done

theorem Completed.rounds {N : Nat} (done : Completed D i (rounds D draws worker lease actor i s N).db)
    (le : N ≤ n) : Completed D i (rounds D draws worker lease actor i s n).db := by
  induction n, le using Nat.le_induction with
  | base => exact done
  | succ n _ ih => exact ih.round

/-- The rounds come to the completion. -/
theorem Pending.completes {left : Nat} (bound : i.effect ≠ none)
    (fresh : ∀ n, Fresh D i (rounds D draws worker lease actor i s n).db (draws n))
    (p : Pending D i (rounds D draws worker lease actor i s n) left) :
    ∃ N, Completed D i (rounds D draws worker lease actor i s N).db := by
  induction left using Nat.strong_induction_on generalizing n with
  | h left ih =>
      obtain done | ⟨m, fewer, p'⟩ :=
        @Pending.round _ _ _ _ worker actor lease _ p bound (fresh n)
      · exact ⟨n + 1, done⟩
      · exact ih m fewer (n := n + 1) p'

/-! ## The crash -/

variable {now : Instant}

theorem Stopped.underway (h : Reachable D s) (stopped : Stopped s.db i now) (funded : Funded s.db i)
    (free : Unhindered D s.db i) : Underway D i s := by
  refine ⟨integrity h, decisions h, drawn h, stopped.workflow, free.off, free.approved, funded.sound,
    funded.unreleased, ?_, free.unexecuted⟩
  obtain stored | ⟨p, a, ha, project, of_project, room⟩ := funded.room
  · exact .inl stored
  · refine .inr ⟨p, a, ha, project, of_project, ((s.db.workItems.rows.filter fun r =>
      decide (r.workflowId = i.workflowId) && r.effect.isSome &&
        s.db.effects.rows.all fun e => decide (e.workItemId ≠ r.id)).map fun r =>
          (r.id, r.costUnits)), ?_, fun r hr flow bound absent => ?_⟩
    · rw [List.map_map]
      exact room
    · refine List.mem_map.mpr ⟨r, List.mem_filter.mpr ⟨hr, ?_⟩, rfl⟩
      simp only [Bool.and_eq_true, decide_eq_true_eq, List.all_eq_true]
      exact ⟨⟨flow, Option.isSome_iff_ne_none.mpr bound⟩, absent⟩

theorem Stopped.pending (h : Reachable D s) (stopped : Stopped s.db i now) (funded : Funded s.db i)
    (free : Unhindered D s.db i) : ∃ n, Pending D i (recovered D i now s) n := by
  obtain ⟨w, hw, flow, -⟩ := stopped.workflow
  obtain ⟨n, db, recovers⟩ := @recoverWorkflow_enabled _ now _ hw
  rw [flow] at recovers
  have run : (Call.make (.recoverWorkflow i.workflowId now)).transaction.run D s.db =
      .ok (.done, db) := by
    change _ <$> s.db.recoverWorkflow _ _ = _
    rw [recovers]
    rfl
  have stored : (recovered D i now s).db = db := by rw [recovered, step_ok rfl run]
  have underway : Underway D i (recovered D i now s) :=
    (stopped.underway h funded free).stepped fun reply db _ ok =>
      aside_of_frame (t := (Call.make (.recoverWorkflow i.workflowId now)).transaction) ok rfl
        (by simp [Call.transaction]) (by simp [Call.transaction]) (by simp [Call.transaction])
  have listed : Listed i (recovered D i now s).db (db.workItems.rows.map (·.id)) := by
    intro q hq _ _ _
    rw [stored] at hq
    exact List.mem_map.mpr ⟨q, hq, rfl⟩
  obtain ⟨workflow, rows, events, -, rfl, -, rfl⟩ := recoverWorkflow_ok recovers
  have moved := Table.mem_update_of_mem (p := staleLease i.workflowId now) (f := WorkItemRow.recover)
    stopped.mem
  obtain stale | waits := stopped.lapsed
  · rw [if_pos stale] at moved
    refine ⟨_, .undecided (r := WorkItemRow.recover i) ⟨rfl, rfl, rfl, rfl, rfl, rfl, rfl⟩ rfl
      ⟨underway, ?_, listed, False.elim⟩⟩
    rw [stored]
    exact mem_refreshReadyItems moved (by simp [WorkItemRow.recover])
  · rw [if_neg (by simp [staleLease, waits])] at moved
    refine ⟨_, .waiting (.refl i) waits ⟨underway, ?_, listed, False.elim⟩⟩
    rw [stored]
    exact mem_refreshReadyItems moved (by simp [waits])

end Rounds

/-! ## What stands in the way -/

/-- The effect of the item is never executed again. -/
def Refused (D : Digests) (i : WorkItemRow) (db : Db) : Prop :=
  (i.requiresApproval = true ∧ ∃ a ∈ db.approvals,
    a.effectId = effectId D i.workflowId i.id ∧ a.status ≠ .approved) ∨
  ∃ e ∈ db.effects, e.workItemId = i.id ∧ e.executionCount ≠ 0

def Hindered (D : Digests) (i : WorkItemRow) (db : Db) : Prop :=
  db.killSwitchEnabled i.workflowId = true ∨ Refused D i db

/-- The item is not done, and something stands in its way. -/
structure Blocked (D : Digests) (i : WorkItemRow) (way : Db → Prop) (s : Service) : Prop where
  integrity : Integrity D s
  decisions : Decisions s
  stored : ∀ r ∈ s.db.workItems, r.id = i.id → SameDefinition i r
  unfinished : ∀ r ∈ s.db.workItems, r.id = i.id → r.status ≠ .succeeded
  way : way s.db

/-- A task that does not come to complete its item without executing the effect. -/
def Task.Harmless : Task → Prop
  | holding _ item => item.effect ≠ none
  | executed _ _ => False
  | _ => True

section Hindered

variable {D : Digests} {i : WorkItemRow} {s : Service} {db after : Db} {t : Transaction}
  {reply : Reply} {c : Call} {way : Db → Prop} {draw : Draw} {task : Task}

theorem hindered_of_not (h : ¬ Unhindered D db i) : Hindered D i db := by
  by_contra free
  obtain ⟨off, open_⟩ := not_or.mp free
  obtain ⟨granted, unexecuted⟩ := not_or.mp open_
  refine h ⟨Bool.not_eq_true _ ▸ off, fun required a ha of_effect => ?_, fun e he owner => ?_⟩
  · by_contra rejected
    exact granted ⟨required, a, ha, of_effect, rejected⟩
  · by_contra executed
    exact unexecuted ⟨e, he, owner, executed⟩

theorem Refused.kept (refused : Refused D i db) (h : t.run D db = .ok (reply, after)) :
    Refused D i after := by
  obtain ⟨required, a, ha, of_effect, rejected⟩ | ⟨e, he, owner, executed⟩ := refused
  · refine .inl ⟨required, ?_⟩
    obtain n | ⟨effect, new, n⟩ := transact_decides h
    · obtain ⟨b, hb, same⟩ := n.approvals.forth a ha
      exact ⟨b, hb, same.effectId.trans of_effect, same.status ▸ rejected⟩
    · refine ⟨a, ?_, of_effect, rejected⟩
      rw [Table.mem_iff, n.approvals]
      exact List.mem_append_left _ ha
  · obtain ⟨f, hf, m⟩ := (transact_effects h).forth e he
    refine .inr ⟨f, hf, m.sameProposal.workItemId.trans owner, ?_⟩
    cases m with
    | execute call admitted => exact absurd admitted.1 executed
    | _ => exact executed

theorem Hindered.kept (hindered : Hindered D i db) (h : t.run D db = .ok (reply, after))
    (drives : t.drives = true) : Hindered D i after := by
  exact hindered.imp (fun on => (switch_kept h drives _).trans on) fun refused => refused.kept h

theorem Blocked.stepped (b : Blocked D i way s) (drives : c.transaction.drives = true)
    (keeps : ∀ reply db, c.transaction.run D s.db = .ok (reply, db) → way db)
    (completes : ∀ ids claim result now, c.transaction = .completeClaim ids claim result now →
      claim.workItemId ≠ i.id) : Blocked D i way (step D s c) := by
  refine ⟨b.integrity.step c, b.decisions.step b.integrity c, ?_, ?_,
    Service.step_db b.way fun reply db _ ok => keeps reply db ok⟩
  · refine Service.step_db (P := fun db => ∀ r ∈ db.workItems, r.id = i.id → SameDefinition i r)
      b.stored fun reply db _ ok => ?_
    intro r' hr' id
    obtain ⟨r, hr, same⟩ := items_back ok drives r' hr'
    exact (b.stored r hr (same.id.symm.trans id)).trans same
  · refine Service.step_db (P := fun db => ∀ r ∈ db.workItems, r.id = i.id → r.status ≠ .succeeded)
      b.unfinished fun reply db _ ok => ?_
    intro r' hr' id done
    obtain ⟨r, hr, m⟩ | ⟨_, _, _, _, _, _, -, call, -⟩ := (transact_items ok).back r' hr'
    · have before := b.unfinished r hr (m.sameDefinition.id.symm.trans id)
      cases m with
      | keep => exact before done
      | complete call current => exact completes _ _ _ _ call (current.id.symm.trans id)
      | renew call current => exact before done
      | retry call failed next => rcases next with rfl | ⟨rfl, -⟩ <;> cases done
      | _ => cases done
    · rw [call] at drives
      cases drives

/-- A worker that follows a harmless task does not execute the effect. -/
theorem Blocked.refused (b : Blocked D i (Refused D i) s) {claim : WorkClaim} {item : WorkItemRow}
    {e : EffectRow} (mem : Task.proposed claim item e ∈ s.tasks) (mine : claim.workItemId = i.id)
    {result : List (String × Json)} {now : Instant} :
    s.db.executeEffect D e.id now ≠ .ok (result, after) := by
  intro executed
  obtain ⟨-, owner, -, f, hf, same, of_item⟩ := b.integrity.tasks _ mem
  obtain ⟨g, hg, row, hrow, _, _, _, _, id, once, row_id, granted, -⟩ := executeEffect_ok executed
  obtain rfl := Table.eq_of_key hg hf (id.trans same.id)
  have of_i : g.workItemId = i.id := of_item.trans (owner.trans mine)
  obtain ⟨required, a, ha, of_effect, rejected⟩ | ⟨e', he', owner', executed'⟩ := b.way
  · have def_ := b.stored row hrow (row_id.trans of_i)
    obtain ⟨a', found, approved⟩ := granted (def_.requiresApproval.trans required)
    obtain ⟨ha', of_effect'⟩ := approvalOf_eq_some found
    obtain ⟨q, hq, q_id, flow, -, key⟩ := b.integrity.effects g hg
    have same_flow := (b.stored q hq (q_id.trans of_i)).workflowId
    have : a' = a := by
      refine b.decisions.single a' ha' a ha ?_
      rw [of_effect', of_effect, ← id, key, same_flow, q_id, of_i]
    rw [this] at approved
    exact rejected approved
  · rw [b.integrity.single e' he' g hg (owner'.trans of_i.symm)] at executed'
    exact executed' once

theorem Task.Harmless.next_ne (harmless : task.Harmless) (ids : CompletionIds) (now : Instant) :
    ∀ ids' claim result at_, task.next ids now ≠ .completeClaim ids' claim result at_ := by
  intro ids' claim result at_ call
  unfold Task.next at call
  split at call
  · cases call
  · split at call
    · rename_i none_
      exact harmless none_
    · cases call
  · split at call <;> cases call
  · exact harmless

theorem Blocked.onward (b : Blocked D i (Refused D i) s) (bound : i.effect ≠ none)
    (mem : task ∈ s.tasks) (ok : (draw.call task).transaction.run D s.db = .ok (reply, db))
    {u : Task} (after : task.after reply = some u) (mine : u.claim.workItemId = i.id) :
    u.Harmless := by
  cases task with
  | claimed claim =>
      obtain ⟨row, found, eq⟩ := map_ok ok
      cases eq
      cases after
      obtain ⟨hr, id⟩ := Table.get?_eq_some.mp (found_eq_ok.mp found)
      have same := (b.stored row hr (id.trans mine)).effect
      change row.effect ≠ none
      rwa [same]
  | holding claim item =>
      cases reply <;> cases after
      trivial
  | executed claim result => cases reply <;> cases after
  | proposed claim item e =>
      cases reply with
      | result result =>
          cases after
          change (Task.next draw.completion (draw.clock 2) (.proposed claim item e)).run D s.db = _ at ok
          rw [Task.next] at ok
          split at ok
          · obtain ⟨_, -, eq⟩ := map_ok ok
            cases eq
          · obtain ⟨_, executed, eq⟩ := map_ok ok
            cases eq
            exact absurd executed (b.refused mem mine)
      | _ => cases after

theorem Blocked.follow (b : Blocked D i (Refused D i) s) (bound : i.effect ≠ none) {n : Nat}
    (mem : task ∈ s.tasks) (harmless : task.claim.workItemId = i.id → task.Harmless) :
    Blocked D i (Refused D i) (follow D draw n task s) := by
  have stepped : ∀ (t : Task) (s : Service), Blocked D i (Refused D i) s ∧ t ∈ s.tasks ∧
      (t.claim.workItemId = i.id → t.Harmless) →
      Blocked D i (Refused D i) (Service.step D s (draw.call t)) := by
    rintro t s ⟨b, -, harmless⟩
    have works := t.next_works draw.completion (draw.clock t.stages)
    refine b.stepped (Transaction.drives_of_works works) (fun reply db ok => b.way.kept ok) ?_
    intro ids claim result now call mine
    rw [← Task.next_completeClaim call] at mine
    exact (harmless mine).next_ne _ _ ids claim result now call
  refine follow_rule (P := fun t s => Blocked D i (Refused D i) s ∧ t ∈ s.tasks ∧
    (t.claim.workItemId = i.id → t.Harmless)) (fun _ _ h => h.1) stepped ?_ ⟨b, mem, harmless⟩
  intro t s reply db u h ok after
  refine ⟨stepped t s h, ?_, h.1.onward bound h.2.1 ok after⟩
  rw [step_ok (draw.held_call h.2.1) ok]
  exact List.mem_append_right _ (Option.mem_toList.mpr after)

variable {worker actor : String} {lease : Int} {draws : Nat → Draw} {now : Instant}

theorem Blocked.runNext (b : Blocked D i (Hindered D i) s) (bound : i.effect ≠ none) :
    Blocked D i (Hindered D i) (runNext D draw i.workflowId worker lease s) := by
  have stepped : ∀ {way : Db → Prop}, Blocked D i way s →
      (∀ reply db, (draw.claiming i.workflowId worker lease).transaction.run D s.db = .ok (reply, db) →
        way db) → Blocked D i way (Service.step D s (draw.claiming i.workflowId worker lease)) :=
    fun b keeps => b.stepped rfl keeps (by simp [Draw.claiming, Call.transaction])
  have kept := stepped b fun reply db ok => b.way.kept ok rfl
  unfold Service.runNext
  split
  · rename_i claim db ok
    -- a claim is handed out only with the switches off
    obtain ⟨attemptId, w, worker', duration, now', call, claimed⟩ := run_claimed ok
    obtain ⟨-, rfl, -⟩ := Transaction.claimNext.inj call
    have off : s.db.killSwitchEnabled i.workflowId = false := by
      obtain ⟨_, -, ⟨-, ⟨⟩, -⟩ | ⟨-, off, -⟩ | ⟨_, _, _, -, off, -⟩⟩ := claimNext_ok claimed
      · exact off
      · exact off
    obtain on | refused := b.way
    · rw [off] at on
      cases on
    · have other : Blocked D i (Refused D i) s := { b with way := refused }
      have claimed := stepped other fun reply db ok => refused.kept ok
      have mem : .claimed claim ∈
          (Service.step D s (draw.claiming i.workflowId worker lease)).tasks := by
        rw [step_ok rfl ok]
        exact List.mem_append_right _ (List.mem_singleton.mpr rfl)
      have followed := @Blocked.follow _ _ _ draw _ claimed bound 4 mem fun _ => trivial
      exact { followed with way := .inr followed.way }
  · exact kept

theorem Blocked.approveWaiting (b : Blocked D i (Hindered D i) s) :
    Blocked D i (Hindered D i) (approveWaiting D actor i draw s) := by
  unfold Service.approveWaiting
  split
  · exact b.stepped rfl (fun reply db ok => b.way.kept ok rfl) (by simp [Call.transaction])
  · exact b

theorem Blocked.rounds (b : Blocked D i (Hindered D i) s) (bound : i.effect ≠ none) (n : Nat) :
    Blocked D i (Hindered D i) (rounds D draws worker lease actor i s n) := by
  induction n with
  | zero => exact b
  | succ n ih => exact ih.approveWaiting.runNext bound

theorem Stopped.blocked (h : Reachable D s) (stopped : Stopped s.db i now)
    (hindered : Hindered D i s.db) : Blocked D i (Hindered D i) (recovered D i now s) := by
  have same : ∀ r ∈ s.db.workItems, r.id = i.id → r = i := fun r hr id =>
    Table.eq_of_key hr stopped.mem id
  have unfinished : i.status ≠ .succeeded := by
    intro done
    obtain stale | waits := stopped.lapsed
    · simp [staleLease, done] at stale
    · rw [done] at waits
      cases waits
  have b : Blocked D i (Hindered D i) s :=
    ⟨integrity h, decisions h, fun r hr id => same r hr id ▸ .refl _,
      fun r hr id => same r hr id ▸ unfinished, hindered⟩
  exact b.stepped rfl (fun reply db ok => b.way.kept ok rfl) (by simp [Call.transaction])

end Hindered

/-! ## At most one execution -/

/-- No effect is executed twice, and the step that executes one finds it approved where its
item requires that. -/
structure ExecutesOnce (D : Digests) (s : Service) : Prop where
  once : ∀ e ∈ s.db.effects, e.executionCount ≤ 1
  step : ∀ c, ∀ f ∈ (step D s c).db.effects, f.executionCount ≠ 0 →
    ∃ e ∈ s.db.effects, e.id = f.id ∧
      (e.executionCount = f.executionCount ∨
        e.executionCount = 0 ∧ f.executionCount = 1 ∧
          ∀ r ∈ s.db.workItems, r.id = e.workItemId → r.requiresApproval = true →
            ∃ a ∈ s.db.approvals, a.effectId = e.id ∧ a.status = .approved)

section Once

variable {D : Digests} {db after : Db} {t : Transaction} {reply : Reply}

theorem executes_once (h : t.run D db = .ok (reply, after)) : ∀ f ∈ after.effects,
    f.executionCount ≠ 0 → ∃ e ∈ db.effects, e.id = f.id ∧
      (e.executionCount = f.executionCount ∨ f.executionCount = 1 ∧ db.AdmitsExecution e) := by
  intro f hf executed
  obtain ⟨e, he, m⟩ | ⟨item, binding, -, -, rfl, -⟩ := (transact_effects h).back f hf
  · refine ⟨e, he, m.sameProposal.id.symm, ?_⟩
    cases m with
    | execute call admitted => exact .inr ⟨rfl, admitted⟩
    | _ => exact .inl rfl
  · exact absurd rfl executed

theorem executesOnce {s : Service} (h : Reachable D s) : ExecutesOnce D s := by
  refine ⟨?_, fun c => ?_⟩
  · refine Run.Reachable.preserves (I := fun s => ∀ e ∈ s.db.effects, e.executionCount ≤ 1) h
      (fun e he => by cases he) fun s c once => ?_
    refine Service.step_db (P := fun db => ∀ e ∈ db.effects, e.executionCount ≤ 1) once ?_
    intro reply db _ ok f hf
    by_cases executed : f.executionCount = 0
    · omega
    · obtain ⟨e, he, -, same | ⟨one, -⟩⟩ := executes_once ok f hf executed
      · have := once e he
        omega
      · omega
  · refine Service.step_db (P := fun db => ∀ f ∈ db.effects, f.executionCount ≠ 0 →
      ∃ e ∈ s.db.effects, e.id = f.id ∧ (e.executionCount = f.executionCount ∨
        e.executionCount = 0 ∧ f.executionCount = 1 ∧ ∀ r ∈ s.db.workItems, r.id = e.workItemId →
          r.requiresApproval = true → ∃ a ∈ s.db.approvals, a.effectId = e.id ∧
            a.status = .approved)) (fun f hf _ => ⟨f, hf, rfl, .inl rfl⟩) ?_
    intro reply db _ ok f hf executed
    obtain ⟨e, he, id, kept | ⟨one, zero, granted⟩⟩ := executes_once ok f hf executed
    · exact ⟨e, he, id, .inl kept⟩
    · refine ⟨e, he, id, .inr ⟨zero, one, fun r hr owner required => ?_⟩⟩
      obtain ⟨a, found, approved⟩ := granted r hr owner required
      exact ⟨a, (approvalOf_eq_some found).1, (approvalOf_eq_some found).2, approved⟩

end Once

/-- In every reachable state no effect was executed twice or without its approval; and the
recovery of a worker that stopped comes to complete its item exactly when no kill switch is
on and the effect is neither rejected nor executed already. -/
theorem crash_recovery (D : Digests) {s : Service} (h : Reachable D s) :
    ExecutesOnce D s ∧ ∀ (i : WorkItemRow) (now : Instant) (draws : Nat → Draw)
      (worker actor : String) (lease : Int), Stopped s.db i now → Funded s.db i →
      (∀ n, Fresh D i (rounds D draws worker lease actor i (recovered D i now s) n).db (draws n)) →
      ((∃ N, ∀ n, N ≤ n →
          Completed D i (rounds D draws worker lease actor i (recovered D i now s) n).db) ↔
        Unhindered D s.db i) := by
  refine ⟨executesOnce h, fun i now draws worker actor lease stopped funded fresh => ?_⟩
  constructor
  · rintro ⟨N, completed⟩
    by_contra hindered
    have blocked := @Blocked.rounds _ _ _ worker actor lease draws
      (stopped.blocked h (hindered_of_not hindered)) stopped.effect N
    obtain ⟨r, hr, id, done, -⟩ := completed N le_rfl
    exact blocked.unfinished r hr id done
  · intro free
    obtain ⟨n, pending⟩ := stopped.pending h funded free
    obtain ⟨N, completed⟩ := Pending.completes (n := 0) stopped.effect fresh pending
    exact ⟨N, fun n le => completed.rounds le⟩

namespace Sample

def claimed : WorkClaim := firstClaim (Uuid.ofNat 10) (Uuid.ofNat 4) workflow 1

/-- A worker stops after so many transactions on the item that it claimed. -/
def stopped (n : Nat) : Service :=
  run (started [(Uuid.ofNat 4, writing false)] ++
    .make (.claimNext (Uuid.ofNat 10) workflow "worker" 30 1) :: (work false claimed 2).take n)

def stale : WorkItemRow := claimedRow false claimed

theorem stops {s : Service} (mem : ∃ r ∈ s.db.workItems.rows, r = stale)
    (running : ∃ w ∈ s.db.workflows.rows, w.id = workflow ∧ w.status = .running) :
    Stopped s.db stale 60 := by
  obtain ⟨r, hr, rfl⟩ := mem
  exact ⟨hr, running, by decide, .inl (by decide)⟩

theorem funds {db : Db} (balanced : ∀ a ∈ db.books.budgets.rows,
      a.reservedUnits = db.books.amount a.projectId .reserved ∧
        a.settledUnits = db.books.amount a.projectId .settled ∧
          a.reservedUnits + a.settledUnits ≤ a.limitUnits)
    (entries : ∀ r ∈ db.books.reservations.rows, r.status ≠ .released ∧
      (∃ a ∈ db.books.budgets.rows, a.projectId = r.projectId) ∧
        ∀ q ∈ db.books.reservations.rows, r.effectId = q.effectId → r = q)
    (proposed : ∃ e ∈ db.effects.rows, e.workItemId = stale.id) : Funded db stale := by
  refine ⟨⟨⟨?_, ?_, ?_⟩, ?_, ?_⟩, ?_, .inl proposed⟩
  · exact fun a ha => (balanced a ha).1
  · exact fun a ha => (balanced a ha).2.1
  · exact fun a ha => (balanced a ha).2.2
  · exact fun r hr => (entries r hr).2.1
  · exact fun r hr => (entries r hr).2.2
  · exact fun _ _ _ r hr _ => (entries r hr).1

/-- What is drawn in all rounds but the first, which end with their claim. -/
def later : Draw :=
  ⟨Uuid.ofNat 40, Uuid.ofNat 41, ⟨Uuid.ofNat 42, Uuid.ofNat 43, Uuid.ofNat 44, Uuid.ofNat 45⟩,
    fun _ => 62⟩

def draws : Nat → Draw
  | 0 => ⟨Uuid.ofNat 30, Uuid.ofNat 31, ids, fun _ => 61⟩
  | _ => later

def recovering : Nat → Service :=
  rounds digests draws "worker" 30 "actor" stale (recovered digests stale 60 (stopped 2))

end Sample

/-- A worker that stops between the execution and the completion leaves an item that no
recovery brings to its end. -/
theorem executed_stuck : Stopped (Sample.stopped 3).db Sample.stale 60 ∧
    Funded (Sample.stopped 3).db Sample.stale ∧
    (Sample.stopped 3).db.killSwitchEnabled Sample.workflow = false ∧
    Sample.stale.requiresApproval = false ∧
    ∀ (draws : Nat → Draw) (worker actor : String) (lease : Int) (n : Nat),
      ¬ Completed Sample.digests Sample.stale (rounds Sample.digests draws worker lease actor
        Sample.stale (recovered Sample.digests Sample.stale 60 (Sample.stopped 3)) n).db := by
  have stopped : Stopped (Sample.stopped 3).db Sample.stale 60 :=
    Sample.stops (by decide +kernel) (by decide +kernel)
  have executed : ∃ e ∈ (Sample.stopped 3).db.effects.rows,
      e.workItemId = Sample.stale.id ∧ e.executionCount ≠ 0 := by decide +kernel
  have funded : Funded (Sample.stopped 3).db Sample.stale :=
    Sample.funds (by decide +kernel) (by decide +kernel) (by decide +kernel)
  have off : (Sample.stopped 3).db.killSwitchEnabled Sample.workflow = false := by decide +kernel
  refine ⟨stopped, funded, off, by decide, ?_⟩
  have hindered : Hindered Sample.digests Sample.stale (Sample.stopped 3).db := by
    obtain ⟨e, he, owner, once⟩ := executed
    exact .inr (.inr ⟨e, he, owner, once⟩)
  intro draws worker actor lease n ⟨r, hr, id, done, _⟩
  have blocked := @Blocked.rounds _ _ _ worker actor lease draws
    (stopped.blocked (Sample.reachable _) hindered) stopped.effect n
  exact blocked.unfinished r hr id done

/-- Nothing is claimed from a workflow that has ended. -/
theorem runNext_ended {D : Digests} {s : Service} {draw : Draw} {worker : String} {lease : Int}
    {w : Uuid} (ended : ∃ v ∈ s.db.workflows, v.id = w ∧ v.status ≠ .running) :
    runNext D draw w worker lease s = s := by
  obtain ⟨v, hv, rfl, status⟩ := ended
  have workflow_ : s.db.workflows.get? v.id = some v := Table.get?_of_mem hv
  have run : (draw.claiming v.id worker lease).transaction.run D s.db = .ok (.done, s.db) := by
    change (_ <$> s.db.claimNext _ _ _ _ _) = _
    unfold claimNext requireWorkflow
    simp only [workflow_, found, if_pos status, bind, Except.bind, pure, Except.pure]
    rfl
  unfold runNext
  rw [run, step_ok rfl run]
  simp [Call.claims, Call.tasks, Draw.claiming, Service.take]

theorem rounds_ended {D : Digests} {i : WorkItemRow} {draws : Nat → Draw} {worker actor : String}
    {lease : Int} {s : Service} {N : Nat}
    (ended : ∃ v ∈ (rounds D draws worker lease actor i s N).db.workflows,
      v.id = i.workflowId ∧ v.status ≠ .running)
    (rests : ∃ r ∈ (rounds D draws worker lease actor i s N).db.workItems,
      r.id = i.id ∧ r.status ≠ .waitingApproval) (n : Nat) :
    rounds D draws worker lease actor i s (N + n) = rounds D draws worker lease actor i s N := by
  induction n with
  | zero => rfl
  | succ n ih =>
      obtain ⟨r, hr, id, status⟩ := rests
      rw [← Nat.add_assoc, rounds, ih, approveWaiting_ready hr id status]
      exact runNext_ended ended

theorem Sample.freshly {db : Db} {draw : Draw} (apart :
      (∀ a ∈ db.attempts.rows, a.id ≠ draw.attempt) ∧ (∀ a ∈ db.approvals.rows, a.id ≠ draw.approval) ∧
      (∀ r ∈ db.checkpoints.rows, r.id ≠ draw.completion.checkpoint) ∧
      (∀ r ∈ db.artifacts.rows, r.id ≠ draw.completion.artifact) ∧
      (∀ r ∈ db.lineage.rows, r.id ≠ draw.completion.lineage) ∧
      (∀ r ∈ db.conversationEntries.rows, r.id ≠ draw.completion.conversation) ∧
      (∀ e ∈ db.effects.rows, e.workItemId = stale.id) ∧
      ∀ r ∈ db.reservations.rows, r.effectId = effectId digests stale.workflowId stale.id) :
    Fresh digests stale db draw := by
  obtain ⟨attempts, approvals, checkpoints, artifacts, lineage, entries, effects, reservations⟩ := apart
  refine ⟨attempts, approvals, ⟨checkpoints, artifacts, lineage, entries⟩, ?_, ?_⟩
  · exact fun e he other => absurd (effects e he) other
  · exact fun r hr other => absurd (reservations r hr) other

/-- The worker stops before the execution: the first round completes the item. -/
theorem crash_recovery_sample : ExecutesOnce Sample.digests (Sample.stopped 2) ∧
    ∃ N, ∀ n, N ≤ n → Completed Sample.digests Sample.stale (Sample.recovering n).db := by
  have stopped : Stopped (Sample.stopped 2).db Sample.stale 60 :=
    Sample.stops (by decide +kernel) (by decide +kernel)
  have funded : Funded (Sample.stopped 2).db Sample.stale :=
    Sample.funds (by decide +kernel) (by decide +kernel) (by decide +kernel)
  have off : (Sample.stopped 2).db.killSwitchEnabled Sample.workflow = false := by decide +kernel
  have unexecuted : ∀ e ∈ (Sample.stopped 2).db.effects.rows, e.executionCount = 0 := by
    decide +kernel
  have free : Unhindered Sample.digests (Sample.stopped 2).db Sample.stale :=
    ⟨off, by decide, fun e he _ => unexecuted e he⟩
  have fresh : ∀ n, Fresh Sample.digests Sample.stale (Sample.recovering n).db (Sample.draws n) := by
    have ended : ∃ w ∈ (Sample.recovering 1).db.workflows.rows,
        w.id = Sample.stale.workflowId ∧ w.status ≠ .running := by decide +kernel
    have rests : ∃ r ∈ (Sample.recovering 1).db.workItems.rows,
        r.id = Sample.stale.id ∧ r.status ≠ .waitingApproval := by decide +kernel
    intro n
    cases n with
    | zero =>
        apply Sample.freshly
        decide +kernel
    | succ n =>
        have same : Sample.recovering (1 + n) = Sample.recovering 1 := by
          unfold Sample.recovering at ended rests ⊢
          obtain ⟨w, hw, w_id, status⟩ := ended
          obtain ⟨r, hr, r_id, waits⟩ := rests
          rw [← Table.mem_iff] at hw hr
          exact rounds_ended ⟨w, hw, w_id, status⟩ ⟨r, hr, r_id, waits⟩ n
        change Fresh _ _ (Sample.recovering (n + 1)).db Sample.later
        rw [Nat.add_comm, same]
        apply Sample.freshly
        decide +kernel
  obtain ⟨once, recovers⟩ := crash_recovery Sample.digests (Sample.reachable _)
  exact ⟨once, (recovers _ _ _ _ _ _ stopped funded fresh).mpr free⟩

end Corvus.Mvp
