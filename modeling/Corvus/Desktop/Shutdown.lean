import Corvus.Desktop.Sidecar
import Mathlib.Data.List.Chain

/-!
# The sidecar does not outlive its owner

Whatever the child does and wherever the monitor is, the lifecycle goes along the allowed
transitions and has stopped when a shutdown returns without an error. A shutdown gives up
before it kills the child when its line cannot be written; one that comes after it does not
write again. So the child has exited when its process is dropped, unless it is the drop that
finds a running child that does not read.
-/

namespace Corvus.Desktop

open Dialogue Procedure

/-- The transitions of the lifecycle. -/
def Allowed : SidecarState → SidecarState → Prop
  | .Stopped, .Starting | .Failed, .Starting => True
  | .Starting, .Ready | .Reconnecting, .Ready => True
  | .Starting, .Failed | .Ready, .Failed | .Reconnecting, .Failed => True
  | .Ready, .Reconnecting => True
  | .Starting, .Stopped | .Ready, .Stopped | .Failed, .Stopped | .Reconnecting, .Stopped => True
  | _, _ => False

/-- A history that starts stopped and goes along the transitions up to the state. -/
structure SidecarLifecycle.Path (l : SidecarLifecycle) : Prop where
  start : l.history.head? = some .Stopped
  chain : l.history.IsChain Allowed
  last : l.history.getLast? = some l.state

/-- What a state of the system has to show. -/
structure Kept (s : System) : Prop where
  path : s.process.lifecycle.Path
  stopped : s.call.shutsDown = true → s.rest = .done (.ok ()) →
    s.process.lifecycle.state = .Stopped

/-- A process that is dropped has no child left. -/
def Reaped (s : System) : Prop :=
  s.call.isDrop = true → ∀ x, s.rest = .done x → s.process.alive = false

/-- A call that writes to its child finds what it has to find. -/
def Hears (W : Call → SidecarProcess → Prop) (s : System) : Move → Prop
  | .go _ =>
      match s.rest with
      | .ask .write _ => W s.call s.process
      | _ => True
  | _ => True

/-- The child of a process that is dropped reads, or has exited. -/
def Attentive (call : Call) (p : SidecarProcess) : Prop :=
  call.isDrop = true → p.alive = true → p.reads = true

instance : DecidableRel Allowed := fun state target => by
  cases state <;> cases target <;> dsimp only [Allowed] <;> infer_instance

instance (call : Call) (p : SidecarProcess) : Decidable (Attentive call p) :=
  inferInstanceAs (Decidable (_ → _ → _))

instance (W : Call → SidecarProcess → Prop) [∀ call p, Decidable (W call p)] (s : System)
    (move : Move) : Decidable (Hears W s move) := by
  dsimp only [Hears]
  split
  · split <;> infer_instance
  · infer_instance

/-! ## The lifecycle -/

section Lifecycle

variable {l : SidecarLifecycle} {target : SidecarState} {allowed : List SidecarState}

namespace SidecarLifecycle

theorem path_default : default.Path := ⟨rfl, .singleton _, rfl⟩

namespace Path

variable (path : l.Path)

include path

theorem transition (sound : ∀ state ∈ allowed, Allowed state target) :
    (l.after (l.transition target allowed)).Path := by
  rw [SidecarLifecycle.transition]
  split
  · next there =>
    constructor
    · show (l.history ++ [target]).head? = _
      rw [List.head?_append, path.start]
      rfl
    · refine List.isChain_append.mpr ⟨path.chain, .singleton _, ?_⟩
      intro state last target' first
      obtain rfl := Option.some.inj first
      obtain rfl := Option.some.inj (path.last.symm.trans last)
      exact sound _ there
    · exact List.getLast?_concat
  · exact path

theorem markReady : (l.after l.markReady).Path := path.transition (by decide)

theorem markFailed : (l.after l.markFailed).Path := path.transition (by decide)

theorem stop : (l.after l.stop).Path := by
  rw [SidecarLifecycle.stop]
  split
  · exact path
  · exact path.transition (by decide)

theorem observeHealth (healthy : Bool) : (l.after (l.observeHealth healthy)).Path := by
  have reconnecting : (l.after (l.transition .Reconnecting [.Ready])).Path :=
    path.transition (by decide)
  have ready : (l.after (l.transition .Ready [.Reconnecting])).Path :=
    path.transition (by decide)
  rw [SidecarLifecycle.observeHealth.eq_def]
  split
  · exact reconnecting
  · exact ready
  · exact path

/-- The monitor goes along the transitions. -/
theorem monitor (m : Monitor) (stop healthy : Bool) : (m.step stop healthy l).2.Path := by
  cases m with
  | checking failures =>
    rw [Monitor.step]
    split <;> exact path
  | sleeping failures =>
    rw [Monitor.step]
    split <;> exact path
  | probed seen failures =>
    have observed := path.observeHealth seen
    rw [Monitor.step]
    split
    · exact path
    · next l' same =>
      rw [same] at observed
      split
      · exact observed.markFailed
      · exact observed

end Path

/-- A lifecycle stops from every state. -/
theorem stop_stopped (l : SidecarLifecycle) :
    ∃ l', l.stop = .ok l' ∧ l'.state = .Stopped := by
  rw [stop]
  split
  · next stopped => exact ⟨l, rfl, stopped⟩
  · next running =>
    have allowed : l.state ∈ [SidecarState.Starting, .Ready, .Failed, .Reconnecting] := by
      cases state : l.state with
      | Stopped => exact absurd state running
      | _ => decide
    exact ⟨_, if_pos allowed, rfl⟩

end SidecarLifecycle

end Lifecycle

/-! ## A shutdown -/

/-- What the child and the monitor may do. -/
structure Elsewhere (p p' : SidecarProcess) : Prop where
  dead : p.alive = false → p'.alive = false
  joined : p.monitor = none → p'.monitor = none ∧ p'.lifecycle = p.lifecycle

/-- A call among the child and the monitor, which writes to a child as told. -/
def terms (W : SidecarProcess → Prop) : Terms SidecarProcess Draw Port where
  draw _ := True
  rely _ := Elsewhere
  allowed q p := ¬ Waits p q ∧ (q = .write → W p)
  step _ _ _ := True

/-- What a shutdown ensures. -/
structure Ends (W : SidecarProcess → Prop) (x : Except String Unit) (p : SidecarProcess) :
    Prop where
  stopped : x = .ok () → p.monitor = none ∧ p.lifecycle.state = .Stopped
  dead : (∀ p, W p → p.alive = true → p.reads = true) → p.alive = false

section Shutdown

variable {W : SidecarProcess → Prop} {p p' p'' : SidecarProcess} {x : Except String Unit}

theorem Elsewhere.refl (p : SidecarProcess) : Elsewhere p p := ⟨id, fun joined => ⟨joined, rfl⟩⟩

theorem Elsewhere.trans (first : Elsewhere p p') (second : Elsewhere p' p'') :
    Elsewhere p p'' where
  dead dead := second.dead (first.dead dead)
  joined joined := by
    obtain ⟨joined, same⟩ := first.joined joined
    obtain ⟨joined, same'⟩ := second.joined joined
    exact ⟨joined, same'.trans same⟩

theorem Ends.elsewhere (ends : Ends W x p) (elsewhere : Elsewhere p p') : Ends W x p' where
  stopped ok := by
    obtain ⟨joined, stopped⟩ := ends.stopped ok
    obtain ⟨joined, same⟩ := elsewhere.joined joined
    exact ⟨joined, by rw [same]; exact stopped⟩
  dead attentive := elsewhere.dead (ends.dead attentive)

theorem holds_stop (joined : p.monitor = none) (dead : p.alive = false) :
    Holds SidecarProcess.answer (terms W) (ask Port.stop >>= fun x => settle x : Program Unit).run
      (Ends W) p := by
  refine holds_ask fun p₁ later _ _ _ => ⟨trivial, ?_⟩
  have dead := later.dead dead
  obtain ⟨l, stops, stopped⟩ := p₁.lifecycle.stop_stopped
  show Ends W ((fun _ => ()) <$> p₁.lifecycle.stop)
    { p₁ with lifecycle := p₁.lifecycle.after p₁.lifecycle.stop }
  rw [stops]
  exact ⟨fun _ => ⟨(later.joined joined).1, stopped⟩, fun _ => dead⟩

/-- The line is written, or the child does not read it. -/
theorem holds_sendShutdown (joined : p.monitor = none) :
    Holds SidecarProcess.answer (terms W) sendShutdown.run
      (fun x p => p.monitor = none ∧ ∀ e, x = .error e →
        (∀ p, W p → p.alive = true → p.reads = true) → p.alive = false) p := by
  refine holds_ask fun p₁ later _ _ _ => ⟨trivial, ?_⟩
  have joined := (later.joined joined).1
  show Holds _ _ (if p₁.stdin = true then _ else _ : Program Unit).run _ _
  split
  · refine holds_ask fun p₂ later allowed _ _ => ⟨trivial, ?_⟩
    have joined := (later.joined joined).1
    have heard := allowed.2 rfl
    show Holds _ _ (settle (require ((p₂.alive && p₂.reads) = true) _) : Program Unit).run _ p₂
    obtain written | unheard := em ((p₂.alive && p₂.reads) = true)
    · rw [require_of written]
      exact ⟨joined, fun _ raised => absurd raised.symm error_ne_ok⟩
    · rw [require_of_not unheard]
      refine ⟨joined, fun _ _ attentive => ?_⟩
      have reads := attentive p₂ heard
      grind
  · exact ⟨joined, fun _ raised => absurd raised.symm error_ne_ok⟩

theorem holds_awaitExit (rounds : Nat) (joined : p.monitor = none) :
    Holds SidecarProcess.answer (terms W) (awaitExit rounds).run
      (fun x p => p.monitor = none ∧ ∃ exited, x = .ok exited ∧ (exited = true → p.alive = false))
      p := by
  induction rounds generalizing p with
  | zero => exact ⟨joined, false, rfl, fun exited => absurd exited Bool.false_ne_true⟩
  | succ rounds ih =>
    refine holds_ask fun p₁ later _ d _ => ⟨trivial, ?_⟩
    have joined := (later.joined joined).1
    show Holds _ _ (if d.late = true then _ else _ : Program Bool).run _ p₁
    split
    · exact ⟨joined, false, rfl, fun exited => absurd exited Bool.false_ne_true⟩
    · refine holds_ask fun p₂ later _ _ _ => ⟨trivial, ?_⟩
      have joined := (later.joined joined).1
      show Holds _ _ (if (!p₂.alive) = true then _ else _ : Program Bool).run _ p₂
      split
      · next exited => exact ⟨joined, true, rfl, fun _ => (Bool.not_eq_true' _).mp exited⟩
      · exact ih joined

/-- A shutdown that returns without an error has stopped the lifecycle, and the child has exited
unless it does not read what is written. -/
theorem holds_shutdown (rounds : Nat) (p : SidecarProcess) :
    Holds SidecarProcess.answer (terms W) (shutdown rounds).run (Ends W) p := by
  refine holds_ask fun p₁ _ _ _ _ => ⟨trivial, ?_⟩
  refine holds_ask fun p₂ _ allowed _ _ => ⟨trivial, ?_⟩
  have joined : p₂.monitor = none := not_not.mp fun running => allowed.1 ⟨rfl, running⟩
  refine holds_ask fun p₃ later _ _ _ => ⟨trivial, ?_⟩
  have joined := (later.joined joined).1
  show Holds _ _ (if (!p₃.alive) = true then _ else _ : Program Unit).run _ p₃
  split
  · next exited => exact holds_stop joined ((Bool.not_eq_true' _).mp exited)
  · refine holds_bind (holds_sendShutdown joined) (fun _ p₄ sent => ?_) fun e p₄ failed => ?_
    · refine holds_bind (holds_awaitExit rounds sent.1) (fun exited p₅ awaited => ?_) ?_
      · obtain ⟨joined, exited', same, dead⟩ := awaited
        obtain rfl := Except.ok.inj same
        show Holds _ _ (if exited = true then _ else _ : Program Unit).run _ p₅
        split
        · next exited => exact holds_stop joined (dead exited)
        · refine holds_ask fun p₆ later _ _ _ => ⟨trivial, ?_⟩
          have joined := (later.joined joined).1
          refine holds_ask fun p₇ later _ _ _ => ⟨trivial, ?_⟩
          exact holds_stop (later.joined joined).1 (later.dead rfl)
      · rintro e p₅ ⟨-, exited, same, -⟩
        exact absurd same error_ne_ok
    · exact ⟨fun ok => absurd ok error_ne_ok, failed.2 e rfl⟩

end Shutdown

/-! ## The system -/

/-- What a call ends with. -/
def Call.Ends (W : Call → SidecarProcess → Prop) (call : Call) (x : Except String Unit)
    (p : SidecarProcess) : Prop :=
  match call with
  | .waitUntilReady _ => True
  | _ => Desktop.Ends (W call) x p

structure Sound (W : Call → SidecarProcess → Prop) (s : System) : Prop where
  path : s.process.lifecycle.Path
  holds : Holds SidecarProcess.answer (terms (W s.call)) s.rest (s.call.Ends W) s.process

section System

variable {W : Call → SidecarProcess → Prop} {s : System} {p' : SidecarProcess} {move : Move}

/-- Nothing is asked of the wait for the child. -/
theorem holds_waitUntilReady (rounds : Nat) (p : SidecarProcess) :
    Holds SidecarProcess.answer (terms (W (.waitUntilReady rounds)))
      (Call.waitUntilReady rounds).program ((Call.waitUntilReady rounds).Ends W) p := by
  have all : ∀ (d : Dialogue Port Port.Answer (Except String Unit)) p,
      Holds SidecarProcess.answer (terms (W (.waitUntilReady rounds))) d (fun _ _ => True) p := by
    intro d
    induction d with
    | done x => exact fun _ => trivial
    | ask q k ih => exact fun p t _ _ _ _ => ⟨trivial, ih _ _⟩
  exact all _ p

/-- What the child and the monitor do leaves a call alone. -/
theorem Sound.elsewhere (sound : Sound W s) (elsewhere : Elsewhere s.process p')
    (path : p'.lifecycle.Path) : Sound W { s with process := p' } := by
  obtain ⟨p, call, rest⟩ := s
  refine ⟨path, ?_⟩
  cases rest with
  | done x =>
    cases call with
    | waitUntilReady rounds => trivial
    | shutdown rounds => exact Ends.elsewhere sound.holds elsewhere
    | drop rounds => exact Ends.elsewhere sound.holds elsewhere
  | ask q k => exact fun t later => sound.holds t (elsewhere.trans later)

theorem path_answer (d : Draw) (q : Port) (path : p'.lifecycle.Path) :
    (SidecarProcess.answer d q p').2.lifecycle.Path := by
  cases q with
  | markReady => exact path.markReady
  | markFailed => exact path.markFailed
  | stop => exact path.stop
  | _ => exact path

theorem Sound.step (sound : Sound W s) (hears : Hears W s move) : Sound W (s.step move) := by
  cases move with
  | exits => exact sound.elsewhere ⟨fun _ => rfl, fun joined => ⟨joined, rfl⟩⟩ sound.path
  | closesStdin => exact sound.elsewhere ⟨id, fun joined => ⟨joined, rfl⟩⟩ sound.path
  | monitor healthy =>
    rw [System.step]
    split
    · exact sound
    · next m running =>
      refine sound.elsewhere ⟨id, fun joined => ?_⟩ ?_
      · exact absurd (joined.symm.trans running) (Option.some_ne_none m).symm
      · exact sound.path.monitor m _ healthy
  | go d =>
    obtain ⟨p, call, rest⟩ := s
    cases rest with
    | done x => exact sound
    | ask q k =>
      show Sound W (if Waits p q then _ else _)
      split
      · exact sound
      · next goes =>
        refine ⟨path_answer d q sound.path, ?_⟩
        refine (sound.holds p (.refl p) ⟨goes, fun write => ?_⟩ d trivial).2
        subst write
        exact hears
  | next call =>
    obtain ⟨p, current, rest⟩ := s
    cases rest with
    | ask q k => exact sound
    | done x =>
      cases current with
      | drop rounds => exact sound
      | _ =>
        cases call with
        | waitUntilReady rounds => exact sound
        | shutdown rounds => exact ⟨sound.path, holds_shutdown rounds p⟩
        | drop rounds => exact ⟨sound.path, holds_shutdown rounds p⟩

theorem sound_spawned (rounds : Nat) : Sound W (.spawned rounds) where
  path := by
    show (SidecarLifecycle.default.after
      (SidecarLifecycle.default.transition .Starting [.Stopped, .Failed])).Path
    exact SidecarLifecycle.path_default.transition (by decide)
  holds := holds_waitUntilReady rounds _

theorem Sound.kept (sound : Sound W s) : Kept s where
  path := sound.path
  stopped call ended := by
    have ends := sound.holds
    rw [ended] at ends
    obtain ⟨p, call', rest⟩ := s
    cases call' with
    | waitUntilReady rounds => exact absurd call Bool.false_ne_true
    | shutdown rounds => exact (Ends.stopped ends rfl).2
    | drop rounds => exact (Ends.stopped ends rfl).2

theorem Sound.reaped (sound : Sound Attentive s) : Reaped s := by
  intro drop x ended
  have ends := sound.holds
  rw [ended] at ends
  obtain ⟨p, call, rest⟩ := s
  cases call with
  | drop rounds => exact Ends.dead ends fun p heard => heard rfl
  | _ => exact absurd drop Bool.false_ne_true

end System

/-! ## Runs -/

def run (rounds : Nat) (moves : List Move) : System :=
  Run.exec System.step (.spawned rounds) moves

theorem kept_run (rounds : Nat) (moves : List Move) : Kept (run rounds moves) := by
  have start : Sound (fun _ _ => True) (.spawned rounds) := sound_spawned rounds
  refine (Run.preserves start (fun s move sound => sound.step ?_) moves).kept
  cases move with
  | go d =>
    rw [Hears]
    split <;> trivial
  | _ => trivial

/-- In every run the lifecycle goes along the transitions and has stopped when a shutdown has
returned without an error. Once a process has been dropped its child has exited, as long as a
drop that writes to a running child finds that it reads. -/
theorem sidecar_ends_with_owner (rounds : Nat) (moves : List Move) :
    Kept (run rounds moves) ∧
      (Run.Along System.step (Hears Attentive) (.spawned rounds) moves →
        Reaped (run rounds moves)) := by
  refine ⟨kept_run rounds moves, fun heard => ?_⟩
  have start : Sound Attentive (.spawned rounds) := sound_spawned rounds
  exact (heard.preserves start fun _ _ sound hears => sound.step hears).reaped

/-- A child that reads its line, and goes on until it is killed. -/
theorem busy_child_reaped :
    Reaped (run 200 (List.replicate 5 (.go ⟨true, false⟩) ++
      [.next (.drop 100), .go ⟨false, true⟩, .monitor true, .monitor true] ++
      List.replicate 9 (.go ⟨false, true⟩))) :=
  (sidecar_ends_with_owner 200 _).2 (by decide +kernel)

/-! ## A child that does not read -/

namespace DeafChild

def draw : Draw := ⟨false, true⟩

/-- The child closes its standard input and does not get ready in time. -/
def moves : List Move :=
  .closesStdin :: List.replicate 2 (.go draw) ++ .next (.drop 100) :: List.replicate 5 (.go draw)

/-- It is still running when its process has been dropped. -/
theorem child_outlives : ¬ Reaped (run 200 moves) := by
  intro reaped
  have alive : (run 200 moves).process.alive = true := by decide +kernel
  have dead := reaped (by decide +kernel) (.error "sidecar_shutdown_command_failed") rfl
  exact Bool.false_ne_true (dead.symm.trans alive)

end DeafChild

end Corvus.Desktop
