import Corvus.Library.Amid

/-!
# The termination of a process tree

The processes of a machine start others, end and are reaped while `terminate_process_tree` asks
for their group, sends signals and takes snapshots. What starts a process is kept for good, also
where the system gives an orphan another parent.
-/

namespace Corvus.SafeProcess

inductive Status where
  | alive
  /-- Ended, and not yet waited for. -/
  | ended
  | reaped
  deriving DecidableEq

structure Entry where
  pid : Nat
  starter : Nat
  group : Nat
  status : Status
  deriving DecidableEq

/-- All the processes that were ever started; no identifier is used twice. -/
structure World where
  processes : List Entry
  once : (processes.map Entry.pid).Nodup

/-- One process has started another. -/
def World.Started (w : World) (a b : Nat) : Prop := ∃ e ∈ w.processes, e.starter = a ∧ e.pid = b

/-- The second process descends from the first. -/
def World.Descends (w : World) : Nat → Nat → Prop := Relation.TransGen w.Started

/-- The given process or one that descends from it. -/
def World.Member (w : World) (root p : Nat) : Prop := p = root ∨ w.Descends root p

def Entry.become (pid : Nat) (status : Status) (e : Entry) : Entry :=
  if e.pid = pid then { e with status } else e

/-- What happens to the processes. A process starts in the group of its starter. -/
inductive Change (w w' : World) : Prop
  | fork (parent child : Entry) (mem : parent ∈ w.processes) (alive : parent.status = .alive)
      (fresh : ∀ e ∈ w.processes, e.pid ≠ child.pid ∧ e.starter ≠ child.pid)
      (starts : child.starter = parent.pid) (group : child.group = parent.group)
      (after : w'.processes = child :: w.processes)
  | exit (e : Entry) (mem : e ∈ w.processes) (alive : e.status = .alive)
      (after : w'.processes = w.processes.map (Entry.become e.pid .ended))
  | reap (e : Entry) (mem : e ∈ w.processes) (ended : e.status = .ended)
      (after : w'.processes = w.processes.map (Entry.become e.pid .reaped))

/-! ## The program -/

inductive Platform where
  | posix | windows
  deriving DecidableEq

inductive Signal where
  | none | sigterm | sigkill
  deriving DecidableEq

inductive Killed where
  | sent
  /-- `ProcessLookupError`. -/
  | lookupError
  /-- Another `OSError`. -/
  | osError
  deriving DecidableEq

inductive Question where
  /-- Whether `os` has `killpg`. -/
  | killpgAvailable
  | killpg (signal : Signal)
  /-- `loop.time() < deadline`. -/
  | beforeDeadline
  /-- Whether `process.returncode` is known. -/
  | returncode
  /-- `process.wait()` within the grace period. -/
  | waitFor
  | returncodeAtFirst
  | snapshotBefore
  /-- `taskkill.exe` is found, is a file and is no link. -/
  | taskkillFound
  /-- The exit code of `taskkill`, if it could be run. -/
  | taskkill
  | wait
  | returncodeAfter
  | snapshotAfter
  /-- `_direct_process_cleanup`. -/
  | cleanup

abbrev Answer : Question → Type
  | .killpgAvailable | .beforeDeadline | .returncode | .waitFor | .returncodeAtFirst
  | .taskkillFound | .returncodeAfter => Bool
  | .killpg _ => Killed
  | .snapshotBefore | .snapshotAfter => Option (List (Nat × Nat))
  | .taskkill => Option Int
  | .wait | .cleanup => Unit

inductive Outcome where
  | returned (confirmed : Bool)
  | raised
  deriving DecidableEq

abbrev Program (α : Type) := Dialogue Question Answer α

/-- Look at the system, or ask something of it. -/
def look (q : Question) : Program (Answer q) := Dialogue.query q

/-- The processes with a parent in the frontier that are new. -/
def nextFrontier (root : Nat) (processes : List (Nat × Nat)) (frontier descendants : List Nat) :
    List Nat :=
  (processes.filter fun p => p.2 ∈ frontier ∧ p.1 ∉ descendants ∧ p.1 ≠ root).map Prod.fst

/-- The processes that the loop has not yet found. -/
def unfound (processes : List (Nat × Nat)) (descendants : List Nat) : Nat :=
  (processes.filter fun p => p.1 ∉ descendants).length

theorem unfound_lt {root : Nat} {processes : List (Nat × Nat)} {frontier descendants : List Nat}
    (next : nextFrontier root processes frontier descendants ≠ []) :
    unfound processes (descendants ++ nextFrontier root processes frontier descendants) <
      unfound processes descendants := by
  obtain ⟨pid, found⟩ := List.exists_mem_of_ne_nil _ next
  obtain ⟨p, inside, rfl⟩ := List.mem_map.mp found
  have kept := List.mem_filter.mp inside
  have sub : ((processes.filter fun q => q.1 ∉ descendants).filter fun q =>
      q.1 ∉ descendants ++ nextFrontier root processes frontier descendants) =
      processes.filter fun q =>
        q.1 ∉ descendants ++ nextFrontier root processes frontier descendants := by
    rw [List.filter_filter]
    refine List.filter_congr fun q _ => ?_
    by_cases there : q.1 ∈ descendants <;> simp [there]
  rw [unfound, unfound, ← sub]
  refine List.length_filter_lt_length_iff_exists.mpr ⟨p, ?_, by simp [found]⟩
  have new : p.1 ∉ descendants := (of_decide_eq_true kept.2).2.1
  exact List.mem_filter.mpr ⟨kept.1, decide_eq_true new⟩

/-- The loop of `_windows_descendant_pids`. -/
def descend (root : Nat) (processes : List (Nat × Nat)) (frontier descendants : List Nat) :
    List Nat :=
  if frontier = [] then descendants
  else
    descend root processes (nextFrontier root processes frontier descendants)
      (descendants ++ nextFrontier root processes frontier descendants)
termination_by (unfound processes descendants, frontier.length)
decreasing_by
  rename_i going
  by_cases next : nextFrontier root processes frontier descendants = []
  · rw [next, List.append_nil]
    exact .right _ (List.length_pos_iff.mpr going)
  · exact .left _ _ (unfound_lt next)

def windowsDescendantPids (root : Nat) (processes : List (Nat × Nat)) : List Nat :=
  descend root processes [root] []

def groupExists : Program Bool := do
  let killed ← look (.killpg .none)
  return killed ≠ .lookupError

/-- `_wait_for_posix_group_absence`, whose deadline passes after at most so many turns. -/
def waitForGroupAbsence : Nat → Program Bool
  | 0 => do return !(← groupExists)
  | turns + 1 => do
    if ← look .beforeDeadline then
      if ← groupExists then waitForGroupAbsence turns
      else return true
    else return !(← groupExists)

def confirmLeaderReaped : Program Bool := do
  if ← look .returncode then return true
  else look .waitFor

def confirmed : Program Outcome := do
  return .returned (← confirmLeaderReaped)

def terminatePosixProcessTree (turns : Nat) : Program Outcome := do
  if ← look .killpgAvailable then
    if ← groupExists then
      match ← look (.killpg .sigterm) with
      | .lookupError => confirmed
      | .osError => return .raised
      | .sent =>
        if ← waitForGroupAbsence turns then confirmed
        else match ← look (.killpg .sigkill) with
          | .lookupError => confirmed
          | .osError => return .raised
          | .sent =>
            if ← waitForGroupAbsence turns then confirmed
            else return .returned false
    else confirmed
  else return .raised

def terminateWindowsProcessTree (root : Nat) : Program Bool := do
  let before ← look .snapshotBefore
  let observed := before.map fun b => root :: windowsDescendantPids root b
  if ← look .taskkillFound then
    match ← look .taskkill with
    | none => return false
    | some code =>
      if code = 0 then
        look .wait
        return true
      else if ← look .returncodeAfter then
        match observed with
        | none => return false
        | some observed =>
          match ← look .snapshotAfter with
          | none => return false
          | some after =>
            return observed.all (· ∉ after.map Prod.fst) &&
              (windowsDescendantPids root after).isEmpty
      else return false
  else return false

def terminateProcessTree (platform : Platform) (root turns : Nat) : Program Outcome :=
  match platform with
  | .posix => terminatePosixProcessTree turns
  | .windows => do
    if ← look .returncodeAtFirst then return .returned true
    else if ← terminateWindowsProcessTree root then return .returned true
    else
      look .cleanup
      return .returned false

/-! ## What the system answers -/

/-- The given process has been reaped. -/
def World.Reaped (w : World) (root : Nat) : Prop :=
  ∃ e ∈ w.processes, e.pid = root ∧ e.status = .reaped

/-- The map of the processes that are alive to their parents, as Windows keeps them. -/
def World.snapshot (w : World) : List (Nat × Nat) :=
  (w.processes.filter (·.status = .alive)).map fun e => (e.pid, e.starter)

/-- `ProcessLookupError` says that the group of the given process has no member, and a return
code, that the process has been reaped. Any exit code of `taskkill` is possible. -/
def Answers (root : Nat) : (q : Question) → Answer q → World → Prop
  | .killpg _, .lookupError, w => ∀ e ∈ w.processes, e.group = root → e.status = .reaped
  | .returncode, true, w | .waitFor, true, w | .returncodeAtFirst, true, w
  | .returncodeAfter, true, w | .wait, (), w => w.Reaped root
  | .snapshotBefore, some map, w | .snapshotAfter, some map, w => map = w.snapshot
  | _, _, _ => True

end Corvus.SafeProcess
