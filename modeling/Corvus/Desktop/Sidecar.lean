import Corvus.Library.Except
import Corvus.Library.Procedure

/-!
# The desktop sidecar

A `SidecarProcess` owns a child process, the history of its lifecycle, and a thread that
monitors its health. Its owner waits until the child is ready, and shuts it down in the end.
The child and the monitor go on at any moment in between; each access to the lifecycle is one
step, under its lock.

Status queries and kills are taken to succeed.
-/

namespace Corvus.Desktop

/-! ## The lifecycle -/

inductive SidecarState where
  | Starting | Ready | Failed | Reconnecting | Stopped
deriving DecidableEq, Repr

/-- The name that `{:?}` writes. -/
def SidecarState.name : SidecarState → String
  | Starting => "Starting"
  | Ready => "Ready"
  | Failed => "Failed"
  | Reconnecting => "Reconnecting"
  | Stopped => "Stopped"

structure SidecarLifecycle where
  state : SidecarState
  history : List SidecarState

namespace SidecarLifecycle

def default : SidecarLifecycle := ⟨.Stopped, [.Stopped]⟩

variable (l : SidecarLifecycle)

def transition (target : SidecarState) (allowed : List SidecarState) :
    Except String SidecarLifecycle :=
  if l.state ∈ allowed then .ok ⟨target, l.history ++ [target]⟩
  else .error ("invalid_sidecar_transition:" ++ l.state.name ++ "->" ++ target.name)

def start : Except String SidecarLifecycle := l.transition .Starting [.Stopped, .Failed]

def markReady : Except String SidecarLifecycle := l.transition .Ready [.Starting, .Reconnecting]

def markFailed : Except String SidecarLifecycle :=
  l.transition .Failed [.Starting, .Ready, .Reconnecting]

def observeHealth (healthy : Bool) : Except String SidecarLifecycle :=
  match l.state, healthy with
  | .Ready, false => l.transition .Reconnecting [.Ready]
  | .Reconnecting, true => l.transition .Ready [.Reconnecting]
  | _, _ => .ok l

def stop : Except String SidecarLifecycle :=
  if l.state = .Stopped then .ok l
  else l.transition .Stopped [.Starting, .Ready, .Failed, .Reconnecting]

/-- What an access leaves, which changes nothing when it fails. -/
def after : Except String SidecarLifecycle → SidecarLifecycle
  | .ok l' => l'
  | .error _ => l

end SidecarLifecycle

/-! ## The health monitor -/

def MAX_FAILED_HEALTH_CHECKS : Nat := 6

/-- Where the thread of `start_health_monitor` is, with its `consecutive_failures`. -/
inductive Monitor where
  | checking (failures : Nat)
  | sleeping (failures : Nat)
  | probed (healthy : Bool) (failures : Nat)

/-- One step of the monitor, which may return. A probe that it makes then is answered as given. -/
def Monitor.step (stop healthy : Bool) (l : SidecarLifecycle) :
    Monitor → Option Monitor × SidecarLifecycle
  | .checking failures => if stop then (none, l) else (some (.sleeping failures), l)
  | .sleeping failures =>
      if stop then (none, l)
      else (some (.probed healthy (if healthy then 0 else min (failures + 1) 255)), l)
  | .probed healthy failures =>
      match l.observeHealth healthy with
      | .error _ => (none, l)
      | .ok l' =>
          if MAX_FAILED_HEALTH_CHECKS ≤ failures then (none, l'.after l'.markFailed)
          else (some (.checking failures), l')

/-! ## The process -/

/-- The child and what is shared with the monitor. The child may close its end of the standard
input, and the owner may have taken the other one. -/
structure SidecarProcess where
  alive : Bool
  reads : Bool
  stdin : Bool
  lifecycle : SidecarLifecycle
  monitorStop : Bool
  monitor : Option Monitor

/-- What the owner asks for: `try_wait`, a readiness probe, whether the deadline has passed,
accesses to the lifecycle, and what it does with the monitor and the child. -/
inductive Port where
  | exited
  | probe
  | late
  | markReady
  | markFailed
  | stop
  | startMonitor
  | stopMonitor
  | join
  | takeStdin
  | write
  | kill
  | wait
deriving DecidableEq, Repr

abbrev Port.Answer : Port → Type
  | .exited | .probe | .late | .takeStdin | .write => Bool
  | .markReady | .markFailed | .stop => Except String Unit
  | _ => Unit

/-- What is answered from outside: whether the child is ready, and whether the deadline has
passed. -/
structure Draw where
  ready : Bool
  late : Bool

namespace SidecarProcess

/-- `SidecarProcess::spawn`, of a child that has been started. -/
def spawned : SidecarProcess where
  alive := true
  reads := true
  stdin := true
  lifecycle := SidecarLifecycle.default.after SidecarLifecycle.default.start
  monitorStop := false
  monitor := none

/-- One access to the lifecycle. -/
def access (p : SidecarProcess) (result : Except String SidecarLifecycle) :
    Except String Unit × SidecarProcess :=
  ((fun _ => ()) <$> result, { p with lifecycle := p.lifecycle.after result })

/-- What is written to the child fails once it does not read any more. -/
def answer : Service SidecarProcess Draw Port Port.Answer
  | _, .exited, p => (!p.alive, p)
  | d, .probe, p => (d.ready, p)
  | d, .late, p => (d.late, p)
  | _, .markReady, p => p.access p.lifecycle.markReady
  | _, .markFailed, p => p.access p.lifecycle.markFailed
  | _, .stop, p => p.access p.lifecycle.stop
  | _, .startMonitor, p => ((), { p with monitor := some (.checking 0) })
  | _, .stopMonitor, p => ((), { p with monitorStop := true })
  | _, .join, p => ((), p)
  | _, .takeStdin, p => (p.stdin, { p with stdin := false })
  | _, .write, p => (p.alive && p.reads, p)
  | _, .kill, p => ((), { p with alive := false })
  | _, .wait, p => ((), p)

end SidecarProcess

/-! ## What the owner does -/

open Procedure

abbrev Program := Procedure String Port Port.Answer

def timedOut : Program Unit := do
  settle (← ask Port.markFailed)
  settle (.error "sidecar_readiness_timeout")

/-- `wait_until_ready`, as many rounds as the clock allows at most. -/
def waitUntilReady : Nat → Program Unit
  | 0 => timedOut
  | rounds + 1 => do
    if ← ask Port.late then timedOut
    else if ← ask Port.exited then
      settle (← ask Port.markFailed)
      settle (.error "sidecar_exited_before_ready")
    else if ← ask Port.probe then
      settle (← ask Port.markReady)
      ask Port.startMonitor
    else waitUntilReady rounds

/-- Whether the child exits within the rounds that the clock allows. -/
def awaitExit : Nat → Program Bool
  | 0 => return false
  | rounds + 1 => do
    if ← ask Port.late then return false
    else if ← ask Port.exited then return true
    else awaitExit rounds

def sendShutdown : Program Unit := do
  if ← ask Port.takeStdin then
    let written ← ask Port.write
    settle (require (written = true) "sidecar_shutdown_command_failed")

def shutdown (rounds : Nat) : Program Unit := do
  ask Port.stopMonitor
  ask Port.join
  if ← ask Port.exited then settle (← ask Port.stop)
  else
    sendShutdown
    if ← awaitExit rounds then settle (← ask Port.stop)
    else
      ask Port.kill
      ask Port.wait
      settle (← ask Port.stop)

/-- The calls on a process. It is dropped in the end, which shuts it down once more;
`shutdown_managed_sidecar` is a shutdown and then a drop. -/
inductive Call where
  | waitUntilReady (rounds : Nat)
  | shutdown (rounds : Nat)
  | drop (rounds : Nat)

def Call.program : Call → Dialogue Port Port.Answer (Except String Unit)
  | .waitUntilReady rounds => (Desktop.waitUntilReady rounds).run
  | .shutdown rounds | .drop rounds => (Desktop.shutdown rounds).run

def Call.shutsDown : Call → Bool
  | .waitUntilReady _ => false
  | _ => true

def Call.isDrop : Call → Bool
  | .drop _ => true
  | _ => false

/-! ## The owner, the child and the monitor -/

structure System where
  process : SidecarProcess
  call : Call
  rest : Dialogue Port Port.Answer (Except String Unit)

/-- A step of the child, of the monitor, or of the call that is under way, or the next call. -/
inductive Move where
  | exits
  | closesStdin
  | monitor (healthy : Bool)
  | go (d : Draw)
  | next (call : Call)

/-- The monitor has to have returned before it is joined. -/
def Waits (p : SidecarProcess) (q : Port) : Prop := q = .join ∧ p.monitor ≠ none

instance (p : SidecarProcess) (q : Port) : Decidable (Waits p q) :=
  inferInstanceAs (Decidable (_ ∧ _))

namespace System

/-- `setup_app` waits for the child that it has spawned. -/
def spawned (rounds : Nat) : System :=
  ⟨.spawned, .waitUntilReady rounds, (Call.waitUntilReady rounds).program⟩

/-- Nothing is called on a process that is dropped, and it is waited for only once. -/
def step (s : System) : Move → System
  | .exits => { s with process := { s.process with alive := false } }
  | .closesStdin => { s with process := { s.process with reads := false } }
  | .monitor healthy =>
      match s.process.monitor with
      | none => s
      | some m =>
          let (monitor, lifecycle) := m.step s.process.monitorStop healthy s.process.lifecycle
          { s with process := { s.process with monitor, lifecycle } }
  | .go d =>
      match s.rest with
      | .done _ => s
      | .ask q k =>
          if Waits s.process q then s
          else
            let (r, process) := SidecarProcess.answer d q s.process
            { s with process, rest := k r }
  | .next call =>
      match s.rest, s.call, call with
      | .ask _ _, _, _ | _, .drop _, _ | _, _, .waitUntilReady _ => s
      | .done _, _, call => ⟨s.process, call, call.program⟩

end System

end Corvus.Desktop
