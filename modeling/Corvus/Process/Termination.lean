import Corvus.Process.Tree
import Mathlib.Data.List.Nodup

/-!
# What a confirmed termination says

On POSIX the group of the given process is empty before anything is confirmed, and a process
that has been started by nobody alive is not started at all. On Windows the process may have
exited before its descendants, `taskkill` is believed, and the second snapshot does not show who
has started an orphan; where none of this makes a difference, the answer is right there too.
-/

namespace Corvus.SafeProcess

open Dialogue Relation

/-! ## The descendants in a map of parents -/

section Search

variable {root : Nat} {processes : List (Nat × Nat)} {frontier descendants : List Nat}

/-- A process in the map and its parent. -/
def ParentIn (processes : List (Nat × Nat)) (parent pid : Nat) : Prop := (pid, parent) ∈ processes

theorem mem_nextFrontier {pid : Nat} : pid ∈ nextFrontier root processes frontier descendants ↔
    (∃ parent ∈ frontier, ParentIn processes parent pid) ∧ pid ∉ descendants ∧ pid ≠ root := by
  rw [nextFrontier, List.mem_map]
  constructor
  · rintro ⟨⟨pid, parent⟩, inside, rfl⟩
    obtain ⟨mem, found⟩ := List.mem_filter.mp inside
    obtain ⟨above, new⟩ := of_decide_eq_true found
    exact ⟨⟨parent, above, mem⟩, new⟩
  · rintro ⟨⟨parent, above, mem⟩, new⟩
    exact ⟨(pid, parent), List.mem_filter.mpr ⟨mem, decide_eq_true ⟨above, new⟩⟩, rfl⟩

/-- What the loop has found and finds is reached from the root. -/
theorem descend_sound
    (reached : ∀ p ∈ frontier, p = root ∨ TransGen (ParentIn processes) root p)
    (sound : ∀ p ∈ descendants, p ≠ root ∧ TransGen (ParentIn processes) root p) :
    ∀ p ∈ descend root processes frontier descendants,
      p ≠ root ∧ TransGen (ParentIn processes) root p := by
  induction frontier, descendants using descend.induct root processes with
  | case1 descendants =>
    rw [descend, if_pos rfl]
    exact sound
  | case2 frontier descendants going ih =>
    have next : ∀ p ∈ nextFrontier root processes frontier descendants,
        p ≠ root ∧ TransGen (ParentIn processes) root p := by
      intro p mem
      obtain ⟨⟨parent, above, edge⟩, _, other⟩ := mem_nextFrontier.mp mem
      refine ⟨other, ?_⟩
      obtain rfl | reach := reached parent above
      · exact .single edge
      · exact reach.tail edge
    rw [descend, if_neg going]
    refine ih (fun p mem => .inr (next p mem).2) fun p mem => ?_
    exact (List.mem_append.mp mem).elim (sound p) (next p)

/-- The loop ends with a set that the children of no member leave. -/
theorem descend_closed
    (closed : ∀ p, p = root ∨ p ∈ descendants → p ∉ frontier → ∀ q, ParentIn processes p q →
      q ≠ root → q ∈ descendants) :
    ∀ p, p = root ∨ p ∈ descend root processes frontier descendants →
      ∀ q, ParentIn processes p q → q ≠ root →
        q ∈ descend root processes frontier descendants := by
  induction frontier, descendants using descend.induct root processes with
  | case1 descendants =>
    rw [descend, if_pos rfl]
    exact fun p found => closed p found List.not_mem_nil
  | case2 frontier descendants going ih =>
    rw [descend, if_neg going]
    refine ih fun p found outside q edge other => List.mem_append.mpr ?_
    by_cases old : q ∈ descendants
    · exact .inl old
    · by_cases above : p ∈ frontier
      · exact .inr (mem_nextFrontier.mpr ⟨⟨p, above, edge⟩, old, other⟩)
      · refine .inl (closed p ?_ above q edge other)
        refine found.imp_right fun mem => ?_
        exact (List.mem_append.mp mem).resolve_right outside

/-- `_windows_descendant_pids` ends with the processes that are reached from the root, on maps
with cycles too. -/
theorem mem_windowsDescendantPids {p : Nat} : p ∈ windowsDescendantPids root processes ↔
    p ≠ root ∧ TransGen (ParentIn processes) root p := by
  constructor
  · exact descend_sound (fun p mem => .inl (List.mem_singleton.mp mem))
      (fun p mem => absurd mem List.not_mem_nil) p
  · rintro ⟨other, reach⟩
    have start : ∀ p, p = root ∨ p ∈ ([] : List Nat) → p ∉ [root] → ∀ q,
        ParentIn processes p q → q ≠ root → q ∈ ([] : List Nat) := by
      intro p found outside
      obtain rfl := found.resolve_right List.not_mem_nil
      exact absurd (List.mem_singleton_self _) outside
    have closed := descend_closed start
    have all : ∀ p, TransGen (ParentIn processes) root p →
        p = root ∨ p ∈ descend root processes [root] [] := by
      intro p reach
      induction reach with
      | single edge => exact or_iff_not_imp_left.mpr (closed root (.inl rfl) _ edge)
      | tail _ edge ih => exact or_iff_not_imp_left.mpr (closed _ ih _ edge)
    exact (all p reach).resolve_left other

end Search

/-! ## What happens to a family -/

section Family

variable {root : Nat} {w w' : World}

/-- The given process is one of the processes. -/
def World.Known (w : World) (root : Nat) : Prop := ∃ e ∈ w.processes, e.pid = root

/-- The given process and its descendants are in its group. -/
def World.Grouped (w : World) (root : Nat) : Prop :=
  ∀ e ∈ w.processes, w.Member root e.pid → e.group = root

/-- Neither the given process nor one of its descendants is alive. -/
def World.Over (w : World) (root : Nat) : Prop :=
  ∀ e ∈ w.processes, w.Member root e.pid → e.status ≠ .alive

theorem become_pid (pid : Nat) (status : Status) (e : Entry) :
    (e.become pid status).pid = e.pid ∧ (e.become pid status).starter = e.starter ∧
      (e.become pid status).group = e.group := by
  rw [Entry.become]
  split <;> exact ⟨rfl, rfl, rfl⟩

theorem entry_unique (w : World) {e e' : Entry} (mem : e ∈ w.processes) (mem' : e' ∈ w.processes)
    (same : e.pid = e'.pid) : e = e' :=
  List.inj_on_of_nodup_map w.once mem mem' same

/-- A change of status changes no descent. -/
theorem started_become {pid : Nat} {status : Status}
    (after : w'.processes = w.processes.map (Entry.become pid status)) :
    w'.Started = w.Started := by
  funext a b
  refine propext ⟨?_, ?_⟩
  · rintro ⟨e', mem, rfl, rfl⟩
    rw [after] at mem
    obtain ⟨e, inside, rfl⟩ := List.mem_map.mp mem
    obtain ⟨pid, starter, _⟩ := become_pid pid status e
    exact ⟨e, inside, starter.symm, pid.symm⟩
  · rintro ⟨e, mem, rfl, rfl⟩
    obtain ⟨same, starter, _⟩ := become_pid pid status e
    exact ⟨e.become pid status, after ▸ List.mem_map_of_mem mem, starter, same⟩

/-- A new process descends from the given one if its parent does; of the others it is as before. -/
theorem descends_fork {parent child : Entry} (mem : parent ∈ w.processes)
    (fresh : ∀ e ∈ w.processes, e.pid ≠ child.pid ∧ e.starter ≠ child.pid)
    (starts : child.starter = parent.pid) (after : w'.processes = child :: w.processes) {p : Nat}
    (descends : w'.Descends root p) :
    w.Descends root p ∨ p = child.pid ∧ w.Member root parent.pid := by
  have edge : ∀ {a b}, w'.Started a b →
      w.Started a b ∨ b = child.pid ∧ a = parent.pid := by
    rintro a b ⟨e, inside, rfl, rfl⟩
    rw [after] at inside
    obtain rfl | old := List.mem_cons.mp inside
    · exact .inr ⟨rfl, starts⟩
    · exact .inl ⟨e, old, rfl, rfl⟩
  induction descends with
  | single first =>
    obtain old | ⟨rfl, rfl⟩ := edge first
    · exact .inl (.single old)
    · exact .inr ⟨rfl, .inl rfl⟩
  | tail _ last ih =>
    obtain reach | ⟨rfl, _⟩ := ih
    · obtain old | ⟨rfl, rfl⟩ := edge last
      · exact .inl (reach.tail old)
      · exact .inr ⟨rfl, .inr reach⟩
    -- nobody has been started by a process that is new
    · obtain ⟨e, old, starter, _⟩ | ⟨_, same⟩ := edge last
      · exact absurd starter (fresh e old).2
      · exact absurd same.symm (fresh parent mem).1

theorem known_keeps (changed : Change w w') (known : w.Known root) : w'.Known root := by
  obtain ⟨e, mem, same⟩ := known
  have updated : ∀ {pid status}, w'.processes = w.processes.map (Entry.become pid status) →
      w'.Known root := by
    intro pid status after
    exact ⟨_, after ▸ List.mem_map_of_mem mem, (become_pid pid status e).1.trans same⟩
  cases changed with
  | fork parent child _ _ _ _ _ after => exact ⟨e, after ▸ List.mem_cons_of_mem _ mem, same⟩
  | exit _ _ _ after => exact updated after
  | reap _ _ _ after => exact updated after

theorem descends_known {p : Nat} (descends : w.Descends root p) : w.Known p := by
  cases descends with
  | single last =>
    obtain ⟨e, mem, _, same⟩ := last
    exact ⟨e, mem, same⟩
  | tail _ last =>
    obtain ⟨e, mem, _, same⟩ := last
    exact ⟨e, mem, same⟩

/-- A member after a fork is an old member, or the child of one. -/
theorem member_fork {parent child : Entry} (mem : parent ∈ w.processes) (known : w.Known root)
    (fresh : ∀ e ∈ w.processes, e.pid ≠ child.pid ∧ e.starter ≠ child.pid)
    (starts : child.starter = parent.pid) (after : w'.processes = child :: w.processes)
    {e : Entry} (inside : e ∈ w'.processes) (member : w'.Member root e.pid) :
    e ∈ w.processes ∧ w.Member root e.pid ∨ e = child ∧ w.Member root parent.pid := by
  rw [after] at inside
  have unknown : ∀ p, w.Known p → p ≠ child.pid := by
    rintro p ⟨e, old, rfl⟩
    exact (fresh e old).1
  obtain new | old := List.mem_cons.mp inside
  · refine .inr ⟨new, ?_⟩
    rw [new] at member
    obtain same | descends := member
    · exact absurd same.symm (unknown root known)
    · obtain before | ⟨_, above⟩ := descends_fork mem fresh starts after descends
      · exact absurd rfl (unknown _ (descends_known before))
      · exact above
  · refine .inl ⟨old, member.imp_right fun descends => ?_⟩
    obtain before | ⟨same, _⟩ := descends_fork mem fresh starts after descends
    · exact before
    · exact absurd same (fresh e old).1

/-- A member after a change of status was a member before. -/
theorem member_become {pid : Nat} {status : Status}
    (after : w'.processes = w.processes.map (Entry.become pid status)) {e' : Entry}
    (inside : e' ∈ w'.processes) (member : w'.Member root e'.pid) :
    ∃ e ∈ w.processes, e' = e.become pid status ∧ w.Member root e.pid := by
  rw [after] at inside
  obtain ⟨e, mem, rfl⟩ := List.mem_map.mp inside
  rw [World.Member, World.Descends, started_become after, (become_pid pid status e).1] at member
  exact ⟨e, mem, rfl, member⟩

theorem grouped_keeps (changed : Change w w') (known : w.Known root) (grouped : w.Grouped root) :
    w'.Grouped root := by
  intro e' inside member
  have updated : ∀ {pid status}, w'.processes = w.processes.map (Entry.become pid status) →
      e'.group = root := by
    intro pid status after
    obtain ⟨e, mem, rfl, before⟩ := member_become after inside member
    exact (become_pid pid status e).2.2.trans (grouped e mem before)
  cases changed with
  | fork parent child mem _ fresh starts group after =>
    obtain ⟨old, before⟩ | ⟨rfl, above⟩ := member_fork mem known fresh starts after inside member
    · exact grouped e' old before
    · exact group.trans (grouped parent mem above)
  | exit _ _ _ after => exact updated after
  | reap _ _ _ after => exact updated after

/-- A family of which nobody is alive stays so: there is nobody to start a process. -/
theorem over_keeps (changed : Change w w') (known : w.Known root) (gone : w.Over root) :
    w'.Over root := by
  intro e' inside member
  have updated : ∀ {pid status}, status ≠ .alive →
      w'.processes = w.processes.map (Entry.become pid status) → e'.status ≠ .alive := by
    intro pid status dead after
    obtain ⟨e, mem, rfl, before⟩ := member_become after inside member
    rw [Entry.become]
    split
    · exact dead
    · exact gone e mem before
  cases changed with
  | fork parent child mem alive fresh starts _ after =>
    obtain ⟨old, before⟩ | ⟨rfl, above⟩ := member_fork mem known fresh starts after inside member
    · exact gone e' old before
    · exact absurd alive (gone parent mem above)
  | exit _ _ _ after => exact updated (by decide) after
  | reap _ _ _ after => exact updated (by decide) after

theorem reaped_keeps (changed : Change w w') (reaped : w.Reaped root) : w'.Reaped root := by
  obtain ⟨e, mem, same, status⟩ := reaped
  have updated : ∀ {other : Entry} {next}, other ∈ w.processes → other.status ≠ .reaped →
      w'.processes = w.processes.map (Entry.become other.pid next) → w'.Reaped root := by
    intro other next there going after
    refine ⟨e, ?_, same, status⟩
    rw [after]
    refine List.mem_map.mpr ⟨e, mem, if_neg fun pid => ?_⟩
    rw [entry_unique w mem there pid] at status
    exact going status
  cases changed with
  | fork _ _ _ _ _ _ _ after => exact ⟨e, after ▸ List.mem_cons_of_mem _ mem, same, status⟩
  | exit other there alive after => exact updated there (alive ▸ by decide) after
  | reap other there ended after => exact updated there (ended ▸ by decide) after

/-- The given process has been reaped and no process descended from it is alive. -/
def World.Gone (w : World) (root : Nat) : Prop :=
  w.Reaped root ∧ ∀ e ∈ w.processes, w.Descends root e.pid → e.status ≠ .alive

theorem gone_iff : w.Gone root ↔ w.Reaped root ∧ w.Over root := by
  refine and_congr_right fun ⟨r, there, same, reaped⟩ => ?_
  constructor
  · intro apart e mem member
    obtain other | descends := member
    · rw [entry_unique w mem there (other.trans same.symm), reaped]
      decide
    · exact apart e mem descends
  · exact fun gone e mem descends => gone e mem (.inr descends)

theorem known_of_reaped (reaped : w.Reaped root) : w.Known root := by
  obtain ⟨e, mem, same, _⟩ := reaped
  exact ⟨e, mem, same⟩

theorem gone_keeps (changed : Change w w') (gone : w.Gone root) : w'.Gone root := by
  obtain ⟨reaped, gone⟩ := gone_iff.mp gone
  exact gone_iff.mpr ⟨reaped_keeps changed reaped, over_keeps changed (known_of_reaped reaped) gone⟩

/-- A group without members has no member of the family in it. -/
theorem gone_of_empty (known : w.Known root) (grouped : w.Grouped root)
    (empty : ∀ e ∈ w.processes, e.group = root → e.status = .reaped) : w.Gone root := by
  obtain ⟨r, there, same⟩ := known
  refine ⟨⟨r, there, same, empty r there (grouped r there (.inl same))⟩, fun e mem descends => ?_⟩
  rw [empty e mem (grouped e mem (.inr descends))]
  decide

/-- A snapshot that shows no descendant, where the parents of all that are alive show. -/
theorem over_of_snapshot (reaped : w.Reaped root)
    (none : windowsDescendantPids root w.snapshot = [])
    (parents : ∀ e ∈ w.processes, e.status = .alive → w.Descends root e.pid →
      e.starter = root ∨ ∃ p ∈ w.processes, p.pid = e.starter ∧ p.status = .alive) :
    w.Gone root := by
  obtain ⟨r, there, same, ended⟩ := reaped
  have shown : ∀ e ∈ w.processes, e.status = .alive →
      ParentIn w.snapshot e.starter e.pid := by
    intro e mem alive
    refine List.mem_map.mpr ⟨e, List.mem_filter.mpr ⟨mem, decide_eq_true alive⟩, rfl⟩
  have chain : ∀ p, w.Descends root p → ∀ e ∈ w.processes, e.pid = p → e.status = .alive →
      TransGen (ParentIn w.snapshot) root p := by
    intro p descends
    induction descends with
    | single first =>
      intro e mem same alive
      obtain ⟨e', mem', starter, same'⟩ := first
      obtain rfl := entry_unique w mem mem' (same.trans same'.symm)
      rw [← same, ← starter]
      exact .single (shown e mem alive)
    | @tail q p above last ih =>
      intro e mem same alive
      obtain ⟨e', mem', rfl, same'⟩ := last
      obtain rfl := entry_unique w mem mem' (same.trans same'.symm)
      rw [← same]
      have member : w.Descends root e.pid := above.tail ⟨e, mem, rfl, rfl⟩
      obtain top | ⟨parent, mem', name, alive'⟩ := parents e mem alive member
      · exact .single (top ▸ shown e mem alive)
      · exact (ih parent mem' name alive').tail (shown e mem alive)
  refine ⟨⟨r, there, same, ended⟩, fun e mem descends alive => ?_⟩
  have other : e.pid ≠ root := by
    intro top
    rw [entry_unique w mem there (top.trans same.symm), ended] at alive
    exact absurd alive (by decide)
  have found := mem_windowsDescendantPids.mpr ⟨other, chain _ descends e mem rfl alive⟩
  rw [none] at found
  exact List.not_mem_nil found

end Family

/-! ## The program -/

/-- What goes wrong on Windows does not go wrong: a process that has exited before the call has
no descendant that is alive, a `taskkill` that ends with 0 has ended the process and all its
descendants, and every descendant alive at the second snapshot has a parent that is alive, or is
a child of the process itself. -/
def Sound (root : Nat) : (q : Question) → Answer q → World → Prop
  | .returncodeAtFirst, known, w => known = true →
      ∀ e ∈ w.processes, w.Descends root e.pid → e.status ≠ .alive
  | .taskkill, code, w => code = some 0 → w.Over root
  | .snapshotAfter, _, w => ∀ e ∈ w.processes, e.status = .alive → w.Descends root e.pid →
      e.starter = root ∨ ∃ p ∈ w.processes, p.pid = e.starter ∧ p.status = .alive
  | _, _, _ => True

/-- A run with the answers that the system gives, and on Windows with none that goes wrong. -/
abbrev Runs {α : Type} (root : Nat) (p : Program α) (w : World) (a : α) (w' : World) : Prop :=
  Amid Change (fun q r w => Answers root q r w ∧ Sound root q r w) p w a w'

section Program

variable {root turns : Nat} {w w' : World}

/-- A group without members. -/
def World.Empty (w : World) (root : Nat) : Prop :=
  ∀ e ∈ w.processes, e.group = root → e.status = .reaped

theorem look_bind {q : Question} {β : Type} {f : Answer q → Program β} {b : β}
    (run : Runs root (look q >>= f) w b w') :
    ∃ v r, ReflTransGen Change w v ∧ Answers root q r v ∧ Sound root q r v ∧
      Runs root (f r) v b w' := by
  obtain ⟨v, r, changed, ⟨answered, sound⟩, rest⟩ := amid_query.mp run
  exact ⟨v, r, changed, answered, sound, rest⟩

theorem not_runs_pure {α : Type} {a b : α} (other : a ≠ b) : ¬ Runs root (pure a) w b w' := by
  intro run
  exact other (amid_pure.mp run).1

theorem groupExists_false (run : Runs root groupExists w false w') : w'.Empty root := by
  obtain ⟨v, killed, _, answered, _, rest⟩ := look_bind run
  obtain ⟨absent, rfl⟩ := amid_pure.mp rest
  have lookup : killed = .lookupError := by simpa using absent
  obtain rfl := lookup
  exact answered

theorem waitForGroupAbsence_true (run : Runs root (waitForGroupAbsence turns) w true w') :
    w'.Empty root := by
  have last : ∀ {w}, Runs root (do return !(← groupExists)) w true w' → w'.Empty root := by
    intro w run
    obtain ⟨found, v, first, rest⟩ := amid_bind.mp run
    obtain ⟨absent, rfl⟩ := amid_pure.mp rest
    cases found with
    | true => cases absent
    | false => exact groupExists_false first
  induction turns generalizing w with
  | zero => exact last run
  | succ turns ih =>
    obtain ⟨v, before, _, _, _, rest⟩ := look_bind run
    cases before with
    | false => exact last rest
    | true =>
      obtain ⟨found, v', first, rest⟩ := amid_bind.mp rest
      cases found with
      | true => exact ih rest
      | false =>
        obtain ⟨_, rfl⟩ := amid_pure.mp rest
        exact groupExists_false first

/-- A family that can be found in an empty group. -/
def World.Settled (w : World) (root : Nat) : Prop := w.Known root ∧ w.Grouped root

theorem settled_keeps (changed : Change w w') (settled : w.Settled root) : w'.Settled root :=
  ⟨known_keeps changed settled.1, grouped_keeps changed settled.1 settled.2⟩

theorem settled_runs {α : Type} {p : Program α} {a : α} (run : Runs root p w a w')
    (settled : w.Settled root) : w'.Settled root :=
  run.keeps (I := fun w => w.Settled root) (fun _ _ changed => settled_keeps changed) settled

theorem gone_runs {α : Type} {p : Program α} {a : α} (run : Runs root p w a w')
    (gone : w.Gone root) : w'.Gone root :=
  run.keeps (I := fun w => w.Gone root) (fun _ _ changed => gone_keeps changed) gone

theorem settled_changes (changed : ReflTransGen Change w w') (settled : w.Settled root) :
    w'.Settled root :=
  keeps_changes (I := fun w => w.Settled root) (fun _ _ changed => settled_keeps changed)
    changed settled

theorem gone_of_absent {α : Type} {p : Program α} {a : α} (run : Runs root p w a w')
    (settled : w.Settled root) (empty : w.Empty root) : w'.Gone root :=
  gone_runs run (gone_of_empty settled.1 settled.2 empty)

/-- A signal, and the wait after it: the family is gone, or the program goes on. -/
theorem signalled {signal : Signal} {f : Killed → Program Outcome} {g : Bool → Program Outcome}
    (settled : w.Settled root) (run : Runs root (look (.killpg signal) >>= f) w (.returned true) w')
    (raises : f .osError = pure .raised) (waits : f .sent = waitForGroupAbsence turns >>= g)
    (goes_on : ∀ v, v.Settled root → Runs root (g false) v (.returned true) w' → w'.Gone root) :
    w'.Gone root := by
  obtain ⟨v, killed, changed, answered, _, run⟩ := look_bind run
  have settled := settled_changes changed settled
  cases killed with
  | lookupError => exact gone_of_absent run settled answered
  | osError =>
    rw [raises] at run
    exact (not_runs_pure (by decide) run).elim
  | sent =>
    rw [waits] at run
    obtain ⟨absent, v', waited, run⟩ := amid_bind.mp run
    have settled := settled_runs waited settled
    cases absent with
    | true => exact gone_of_absent run settled (waitForGroupAbsence_true waited)
    | false => exact goes_on v' settled run

theorem posix_confirmed (settled : w.Settled root)
    (run : Runs root (terminatePosixProcessTree turns) w (.returned true) w') : w'.Gone root := by
  obtain ⟨w₁, available, changed, _, _, run⟩ := look_bind run
  have settled := settled_changes changed settled
  cases available with
  | false => exact (not_runs_pure (by decide) run).elim
  | true =>
    obtain ⟨found, w₂, asked, run⟩ := amid_bind.mp run
    have settled := settled_runs asked settled
    cases found with
    | false => exact gone_of_absent run settled (groupExists_false asked)
    | true =>
      refine signalled settled run rfl rfl fun v settled run => ?_
      refine signalled settled run rfl rfl fun v settled run => ?_
      exact (not_runs_pure (by decide) run).elim

theorem known_changes (changed : ReflTransGen Change w w') (known : w.Known root) :
    w'.Known root :=
  keeps_changes (I := fun w => w.Known root) (fun _ _ changed => known_keeps changed) changed known

theorem reaped_changes (changed : ReflTransGen Change w w') (reaped : w.Reaped root) :
    w'.Reaped root :=
  keeps_changes (I := fun w => w.Reaped root) (fun _ _ changed => reaped_keeps changed)
    changed reaped

theorem over_changes (changed : ReflTransGen Change w w') (known : w.Known root)
    (dead : w.Over root) : w'.Over root := by
  have kept := keeps_changes (I := fun w => w.Known root ∧ w.Over root)
    (fun _ _ changed held => ⟨known_keeps changed held.1, over_keeps changed held.1 held.2⟩)
    changed ⟨known, dead⟩
  exact kept.2

theorem windows_confirmed (known : w.Known root)
    (run : Runs root (terminateWindowsProcessTree root) w true w') : w'.Gone root := by
  obtain ⟨w₁, before, changed, _, _, run⟩ := look_bind run
  have known := known_changes changed known
  obtain ⟨w₂, found, changed, _, _, run⟩ := look_bind run
  have known := known_changes changed known
  cases found with
  | false => exact (not_runs_pure (by decide) run).elim
  | true =>
    obtain ⟨w₃, code, changed, _, ended, run⟩ := look_bind run
    have known := known_changes changed known
    cases code with
    | none => exact (not_runs_pure (by decide) run).elim
    | some code =>
      by_cases zero : code = 0
      · rw [zero] at run ended
        obtain ⟨w₄, _, changed, reaped, _, run⟩ := look_bind run
        obtain ⟨_, rfl⟩ := amid_pure.mp run
        exact gone_iff.mpr ⟨reaped, over_changes changed known (ended rfl)⟩
      · simp only [zero, if_false] at run
        obtain ⟨w₄, exited, _, reaped, _, run⟩ := look_bind run
        cases exited with
        | false => exact (not_runs_pure (by decide) run).elim
        | true =>
          cases before with
          | none => exact (not_runs_pure (by decide) run).elim
          | some before =>
            obtain ⟨w₅, after, changed, shown, parents, run⟩ := look_bind run
            cases after with
            | none => exact (not_runs_pure (by decide) run).elim
            | some after =>
              obtain ⟨confirmed, rfl⟩ := amid_pure.mp run
              obtain rfl := shown
              have none := List.isEmpty_iff.mp (Bool.and_eq_true_iff.mp confirmed).2
              exact over_of_snapshot (reaped_changes changed reaped) none parents

/-- A confirmed termination is true, and the descendants in a map of parents are those that are
reached from the root. -/
theorem termination_confirmed (root : Nat) :
    (∀ (platform : Platform) (turns : Nat) (w w' : World), w.Known root →
      (platform = .posix → w.Grouped root) →
      Runs root (terminateProcessTree platform root turns) w (.returned true) w' → w'.Gone root) ∧
    ∀ (processes : List (Nat × Nat)) (p : Nat),
      p ∈ windowsDescendantPids root processes ↔
        p ≠ root ∧ TransGen (ParentIn processes) root p := by
  refine ⟨fun platform turns w w' known grouped run => ?_, fun _ _ => mem_windowsDescendantPids⟩
  cases platform with
  | posix => exact posix_confirmed ⟨known, grouped rfl⟩ run
  | windows =>
    obtain ⟨v, exited, changed, reaped, apart, run⟩ := look_bind run
    have known := known_changes changed known
    cases exited with
    | true =>
      obtain ⟨_, rfl⟩ := amid_pure.mp run
      exact ⟨reaped, apart rfl⟩
    | false =>
      obtain ⟨confirmed, u, first, run⟩ := amid_bind.mp run
      cases confirmed with
      | true =>
        obtain ⟨_, rfl⟩ := amid_pure.mp run
        exact windows_confirmed known first
      | false =>
        obtain ⟨_, _, _, _, _, run⟩ := look_bind run
        exact (not_runs_pure (by decide) run).elim

end Program

namespace Sample

/-- A process that has been reaped and one that it has started. -/
def world (status : Status) : World :=
  ⟨[⟨7, 1, 7, .reaped⟩, ⟨8, 7, 7, status⟩], by simp⟩

theorem known (status : Status) : (world status).Known 7 :=
  ⟨_, List.mem_cons_self, rfl⟩

theorem grouped (status : Status) : (world status).Grouped 7 := by
  intro e mem _
  obtain rfl | mem := List.mem_cons.mp mem
  · rfl
  · obtain rfl := List.mem_singleton.mp mem
    rfl

theorem reaped (status : Status) : (world status).Reaped 7 :=
  ⟨_, List.mem_cons_self, rfl, rfl⟩

theorem empty : (world .reaped).Empty 7 := by
  intro e mem _
  obtain rfl | mem := List.mem_cons.mp mem
  · rfl
  · obtain rfl := List.mem_singleton.mp mem
    rfl

end Sample

/-- On Windows the process has exited before the call, and what it has started is alive. -/
theorem exited_leader_confirmed :
    ¬ ∀ (platform : Platform) (root turns : Nat) (w w' : World), w.Known root →
      (platform = .posix → w.Grouped root) →
      Amid Change (Answers root) (terminateProcessTree platform root turns) w (.returned true) w' →
      w'.Gone root := by
  intro claim
  have run : Amid Change (Answers 7) (terminateProcessTree .windows 7 0) (Sample.world .alive)
      (.returned true) (Sample.world .alive) := by
    refine .ask (q := Question.returncodeAtFirst) (r := true) .refl ?_ (.done _ _)
    exact Sample.reaped .alive
  have gone := claim .windows 7 0 _ _ (Sample.known .alive) (fun posix => by cases posix) run
  have child : ⟨8, 7, 7, .alive⟩ ∈ (Sample.world .alive).processes :=
    List.mem_cons_of_mem _ List.mem_cons_self
  exact gone.2 _ child (.single ⟨_, child, rfl, rfl⟩) rfl

theorem termination_confirmed_sample : (Sample.world .reaped).Gone 7 := by
  have run : Runs 7 (terminateProcessTree .posix 7 0) (Sample.world .reaped) (.returned true)
      (Sample.world .reaped) := by
    refine .ask (q := Question.killpgAvailable) (r := true) .refl ⟨trivial, trivial⟩ ?_
    refine .ask (q := Question.killpg .none) (r := Killed.lookupError) .refl ?_ ?_
    · exact ⟨Sample.empty, trivial⟩
    · refine .ask (q := Question.returncode) (r := true) .refl ?_ (.done _ _)
      exact ⟨Sample.reaped .reaped, trivial⟩
  exact (termination_confirmed 7).1 .posix 0 _ _ (Sample.known .reaped)
    (fun _ => Sample.grouped .reaped) run

end Corvus.SafeProcess
