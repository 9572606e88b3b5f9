import Corvus.Adapters.Claude
import Corvus.Adapters.Effects

/-!
# The plans of the two adapters

Codex tells that a run has started about a frame that says so, and Claude about any frame as long as
it has said nothing.
-/

namespace Corvus.Adapters

open Agent Process

variable {around : Surroundings} {rest : List Effect}

/-- A frame that tells of the start of the thread, and of no tool. -/
def Codex.Opens (own : Codex.Own) (terminal _started : Bool) (e : SessionEvent) : Prop :=
  own.workspaceAccess ≠ some .refused ∧ terminal = false ∧ e.kind = .frame ∧
    ∃ members, e.frame = some members ∧ members.lookup "type" = some (.str "thread.started") ∧
      (Codex.itemOf members |>.lookup "type").any (fun type => !Codex.hashable type) = false ∧
      Codex.typeOf (Codex.itemOf members) ∉ Codex.toolItemTypes

/-- Any frame, if there are no events yet. -/
def Claude.Opens (_own : Unit) (terminal started : Bool) (e : SessionEvent) : Prop :=
  terminal = false ∧ started = false ∧ e.kind = .frame ∧ e.frame.isSome

namespace Codex

variable {W : Wording} {own : Own} {members : Payload} {returnCode : Option Int}

theorem plan_failed (reasonCode : String) (over_ : Over rest) :
    Plan (failed reasonCode ++ rest) :=
  .terminal rfl over_

theorem plan_tool (itemType : String) (item : Payload) :
    Plan (tool W own members itemType item) := by
  rw [tool]
  split
  · exact .cancelProcess (plan_failed _ over_nil)
  · exact .say rfl nofun rfl .nil

theorem plan_reasoning (item : Payload) : Plan (reasoning W item) := by
  rw [reasoning]
  split
  · split
    · exact .say rfl nofun rfl .nil
    · split
      · exact .nil
      · exact .say rfl nofun rfl .nil
  · exact .say rfl nofun rfl .nil

theorem plan_message (item : Payload) : Plan (message item) := by
  rw [message]
  split
  · split
    · exact .nil
    · exact .say rfl nofun rfl .nil
  · exact .nil

theorem plan_turnCompleted : Plan (turnCompleted members) := by
  rw [turnCompleted]
  split
  · exact .say rfl nofun rfl .nil
  · exact .nil

theorem plan_exited : Plan (exited own around returnCode).2 := by
  rw [exited]
  split
  · exact plan_failed _ over_nil
  · split
    · exact plan_failed _ over_nil
    · split
      · split
        · exact .say rfl nofun rfl (.terminal rfl over_nil)
        · split
          · exact .terminal rfl over_nil
          · exact plan_failed _ over_nil
        · exact .raise
      · exact .terminal rfl over_nil

variable (W own members) in
/-- The branches of a frame. -/
theorem frame_follows :
    let opens := members.lookup "type" = some (.str "thread.started") ∧
      ((itemOf members).lookup "type").any (fun type => !hashable type) = false ∧
      typeOf (itemOf members) ∉ toolItemTypes
    (opens → ∃ payload rest, (frame W own members).2 = .say .started payload :: rest ∧ Plan rest) ∧
    (¬ opens → Plan (frame W own members).2) := by
  intro opens
  rw [frame]
  split
  · rename_i unhashable
    exact ⟨fun opening => absurd (opening.2.1.symm.trans unhashable) nofun, fun _ => .raise⟩
  rename_i hashable
  split
  · rename_i of_tool
    exact ⟨fun opening => absurd of_tool opening.2.2, fun _ => plan_tool _ _⟩
  rename_i no_tool
  split
  · rename_i starts
    exact ⟨fun _ => ⟨_, _, rfl, .nil⟩,
      fun other => absurd ⟨starts, Bool.eq_false_iff.mpr hashable, no_tool⟩ other⟩
  rename_i other
  refine ⟨fun opening => absurd opening.1 other, fun _ => ?_⟩
  split
  · exact plan_reasoning _
  · split
    · exact plan_message _
    · split
      · exact plan_turnCompleted
      · exact .nil

theorem follows (W : Wording) : (adapter W).Follows Opens := by
  intro own terminal started around e
  show (Opens own terminal started e → ∃ payload rest,
      (read W own terminal started around e).2.2 = .say .started payload :: rest ∧ Plan rest) ∧
    (¬ Opens own terminal started e → Plan (read W own terminal started around e).2.2)
  rw [read]
  split
  · rename_i refused
    refine ⟨fun opening => absurd refused opening.1, fun _ => ?_⟩
    exact .cancelProcess (plan_failed _ over_dismiss)
  rename_i usable
  dsimp only
  split
  · rename_i over_
    exact ⟨fun opening => absurd (over_.symm.trans opening.2.1) nofun, fun _ => .nil⟩
  rename_i going
  have going := Bool.eq_false_iff.mpr going
  generalize (if own.workspaceAccess = some .granted then { own with workspaceAccess := none }
    else own) = own'
  have shut : e.kind ≠ .frame → ¬ Opens own terminal started e :=
    fun other opening => other opening.2.2.1
  split
  · rename_i members kind given
    obtain ⟨starts, silent⟩ := frame_follows W own' members
    refine ⟨fun opening => starts ?_, fun other => silent fun opening => ?_⟩
    · obtain ⟨-, -, -, members', given', opening⟩ := opening
      rw [given] at given'
      rw [Option.some.inj given']
      exact opening
    · exact other ⟨usable, going, kind, members, given, opening⟩
  · rename_i kind given
    refine ⟨fun opening => ?_, fun _ => .nil⟩
    obtain ⟨-, -, -, members, given', -⟩ := opening
    rw [given] at given'
    cases given'
  · rename_i kind
    exact ⟨fun opening => absurd opening (shut (by rw [kind]; exact nofun)),
      fun _ => .terminal rfl over_nil⟩
  · rename_i kind
    exact ⟨fun opening => absurd opening (shut (by rw [kind]; exact nofun)),
      fun _ => plan_failed _ over_nil⟩
  · rename_i kind
    exact ⟨fun opening => absurd opening (shut (by rw [kind]; exact nofun)), fun _ => plan_exited⟩

end Codex

namespace Claude

variable {members : Payload}

theorem plan_status : Plan (status members) := by
  rw [status]
  split
  · split
    · exact .say rfl nofun rfl .nil
    · exact .nil
  · exact .nil

theorem plan_streamEvent : Plan (streamEvent members) := by
  rw [streamEvent]
  split
  · split
    · split
      · split
        · split
          · exact .nil
          · exact .say rfl nofun rfl .nil
        · exact .nil
      · exact .say rfl nofun rfl .nil
      · exact .nil
    · exact .nil
  · exact .nil

theorem plan_result : Plan (result members) := by
  have completed : Plan completed := .terminal rfl over_nil
  rw [result]
  split
  · exact .terminal rfl over_nil
  · split
    · split
      · exact completed
      · exact .say rfl nofun rfl completed
    · exact completed

theorem plan_frame : Plan (frame members) := by
  rw [frame]
  split
  · exact plan_status
  · exact plan_streamEvent
  · exact plan_result
  · exact .nil

theorem follows : adapter.Follows Opens := by
  intro own terminal started around e
  show (Opens own terminal started e → ∃ payload rest,
      (read terminal started e).2 = .say .started payload :: rest ∧ Plan rest) ∧
    (¬ Opens own terminal started e → Plan (read terminal started e).2)
  rw [read]
  split
  · rename_i over_
    exact ⟨fun opening => absurd (over_.symm.trans opening.1) nofun, fun _ => .nil⟩
  rename_i going
  have going := Bool.eq_false_iff.mpr going
  have shut : e.kind ≠ .frame → ¬ Opens own terminal started e :=
    fun other opening => other opening.2.2.1
  split
  · rename_i members kind given
    cases started with
    | true => exact ⟨fun opening => absurd opening.2.1 nofun, fun _ => plan_frame⟩
    | false =>
      refine ⟨fun _ => ⟨_, _, rfl, plan_frame⟩, fun other => ?_⟩
      exact absurd ⟨going, rfl, kind, by rw [given]; rfl⟩ other
  · rename_i kind given
    refine ⟨fun opening => ?_, fun _ => .nil⟩
    have some_ := opening.2.2.2
    rw [given] at some_
    cases some_
  · rename_i kind
    exact ⟨fun opening => absurd opening (shut (by rw [kind]; exact nofun)),
      fun _ => .terminal rfl over_nil⟩
  · rename_i kind
    exact ⟨fun opening => absurd opening (shut (by rw [kind]; exact nofun)),
      fun _ => .terminal rfl over_nil⟩
  · rename_i kind
    refine ⟨fun opening => absurd opening (shut (by rw [kind]; exact nofun)), fun _ => ?_⟩
    dsimp only
    split
    · exact .terminal rfl over_nil
    · exact .terminal rfl over_nil

end Claude

namespace Sample

def parts : Parts where
  digests := ⟨id, fun _ => .ofNat 0⟩
  codec := ⟨fun _ => .error "process_frame_json_invalid", id, id⟩
  limits := ⟨1024, 1024, 256, 8, 16, by decide⟩
  admits := fun _ => true

def wording : Codex.Wording := ⟨id, id⟩

/-- A session in which Codex chats. -/
def chat : Codex.Own := ⟨.chat, false, none, none, false⟩

def surroundings : Surroundings := ⟨0, .raised⟩

end Sample

end Corvus.Adapters
