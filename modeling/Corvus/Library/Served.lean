import Corvus.Library.Dialogue
import Corvus.Library.Run

/-!
# Dialogues served by a store

A store answers a question in one go and may change with it. Beside the question it takes a
draw: what nobody controls, such as the time of the day or a new identifier.

A dialogue may be stopped between any two of its questions, and several dialogues may be
served by one store in any order. `Holds` is the one condition from which both are treated:
other parties may change the store before each question as far as `rely` says, and every
question that is `allowed` changes it as `step` says.
-/

namespace Corvus

/-- How a store answers questions. -/
abbrev Service (σ ι Q : Type) (R : Q → Type) := ι → (q : Q) → σ → R q × σ

namespace Dialogue

variable {σ ι Q : Type} {R : Q → Type} {α β : Type}

/-! ## Serving one dialogue -/

/-- Serve a dialogue up to its end. -/
def serve (answer : Service σ ι Q R) : (Nat → ι) → Dialogue Q R α → σ → α × σ
  | _, done a, s => (a, s)
  | draws, ask q k, s =>
      serve answer (fun n => draws (n + 1)) (k (answer (draws 0) q s).1) (answer (draws 0) q s).2

/-- Serve a dialogue that is stopped after a number of questions, for what it leaves behind. -/
def stopped (answer : Service σ ι Q R) : Nat → (Nat → ι) → Dialogue Q R α → σ → σ
  | 0, _, _, s => s
  | _ + 1, _, done _, s => s
  | n + 1, draws, ask q k, s =>
      stopped answer n (fun n => draws (n + 1)) (k (answer (draws 0) q s).1)
        (answer (draws 0) q s).2

/-! ## What a dialogue ensures -/

/-- What others and the dialogue itself may do to the store. -/
structure Terms (σ ι Q : Type) where
  /-- The draws that are reckoned with. -/
  draw : ι → Prop
  /-- What others may do to the store while a question waits. -/
  rely : Q → σ → σ → Prop
  /-- When a question may be put to the store. -/
  allowed : Q → σ → Prop
  /-- What a question does to the store. -/
  step : Q → σ → σ → Prop

/-- On the terms, whatever others do, every question keeps to them and the end is right. -/
def Holds (answer : Service σ ι Q R) (T : Terms σ ι Q) :
    Dialogue Q R α → (α → σ → Prop) → σ → Prop
  | done a, P, s => P a s
  | ask q k, P, s => ∀ t, T.rely q s t → T.allowed q t → ∀ d, T.draw d →
      T.step q t (answer d q t).2 ∧ Holds answer T (k (answer d q t).1) P (answer d q t).2

variable {answer : Service σ ι Q R} {T : Terms σ ι Q} {p : Dialogue Q R α} {s t : σ}
  {P P' : α → σ → Prop} {F : β → σ → Prop} {f : α → Dialogue Q R β}

theorem Holds.mono (holds : Holds answer T p P s) (ends : ∀ a t, P a t → P' a t) :
    Holds answer T p P' s := by
  induction p generalizing s with
  | done a => exact ends a s holds
  | ask q k ih =>
    intro t later allowed d drawn
    obtain ⟨kept, rest⟩ := holds t later allowed d drawn
    exact ⟨kept, ih _ rest⟩

theorem Holds.bind (first : Holds answer T p P s)
    (second : ∀ a t, P a t → Holds answer T (f a) F t) : Holds answer T (p >>= f) F s := by
  induction p generalizing s with
  | done a => exact second a s first
  | ask q k ih =>
    intro t later allowed d drawn
    obtain ⟨kept, rest⟩ := first t later allowed d drawn
    exact ⟨kept, ih _ rest⟩

/-! ## Alone with the store -/

/-- The terms of a dialogue that is alone with its store, which stays within a condition. -/
def Alone (draw : ι → Prop) (C : σ → Prop) : Terms σ ι Q where
  draw := draw
  rely _ s t := t = s
  allowed _ _ := True
  step _ _ t := C t

section Alone

variable {draw : ι → Prop} {C : σ → Prop} {draws : Nat → ι}

theorem holds_alone_ask {q : Q} {k : R q → Dialogue Q R α} :
    Holds answer (Alone draw C) (ask q k) P s ↔ ∀ d, draw d →
      C (answer d q s).2 ∧ Holds answer (Alone draw C) (k (answer d q s).1) P (answer d q s).2 := by
  constructor
  · intro holds d drawn
    exact holds s rfl trivial d drawn
  · rintro holds t rfl - d drawn
    exact holds d drawn

/-- A dialogue that is served up to its end gets there. -/
theorem Holds.serve (holds : Holds answer (Alone draw C) p P s) (drawn : ∀ n, draw (draws n)) :
    P (p.serve answer draws s).1 (p.serve answer draws s).2 := by
  induction p generalizing s draws with
  | done a => exact holds
  | ask q k ih =>
    obtain ⟨-, rest⟩ := holds_alone_ask.mp holds _ (drawn 0)
    exact ih _ rest fun n => drawn (n + 1)

/-- Wherever a dialogue is stopped, the store is within the condition. -/
theorem Holds.stopped (holds : Holds answer (Alone draw C) p P s) (start : C s)
    (drawn : ∀ n, draw (draws n)) (n : Nat) : C (p.stopped answer n draws s) := by
  induction n generalizing p s draws with
  | zero => exact start
  | succ n ih =>
    cases p with
    | done a => exact start
    | ask q k =>
      obtain ⟨kept, rest⟩ := holds_alone_ask.mp holds _ (drawn 0)
      exact ih rest kept fun n => drawn (n + 1)

/-- A condition that every question keeps. -/
theorem holds_alone_of_kept (keeps : ∀ q s d, C s → C (answer d q s).2) (start : C s) :
    Holds answer (Alone draw C) p (fun _ t => C t) s := by
  induction p generalizing s with
  | done a => exact start
  | ask q k ih => exact holds_alone_ask.mpr fun d _ => ⟨keeps q s d start, ih _ (keeps q s d start)⟩

end Alone

/-! ## Keeping a record -/

/-- A store that keeps a record of what it has been asked. -/
def recorded (answer : Service σ ι Q R) : Service (σ × List (Exchange Q R)) ι Q R :=
  fun d q s => ((answer d q s.1).1, (answer d q s.1).2, s.2 ++ [⟨q, (answer d q s.1).1⟩])

/-- Keeping a record does not change what a dialogue ends with. -/
theorem serve_recorded (p : Dialogue Q R α) (draws : Nat → ι) (s : σ) (t : List (Exchange Q R)) :
    (p.serve (recorded answer) draws (s, t)).1 = (p.serve answer draws s).1 := by
  induction p generalizing draws s t with
  | done a => rfl
  | ask q k ih => exact ih _ _ _ _

/-- Whatever is asked of a store that keeps a record is on it. -/
theorem Within.recorded {S : Q → Prop} {A : α → Prop} (within : Within S A p)
    {draw : ι → Prop} {u : List (Exchange Q R)} (start : ∀ x ∈ u, S x.question) :
    Holds (recorded answer) (Alone draw fun s => ∀ x ∈ s.2, S x.question) p
      (fun _ s => ∀ x ∈ s.2, S x.question) (s, u) := by
  induction p generalizing s u with
  | done a => exact start
  | ask q k ih =>
    refine holds_alone_ask.mpr fun d _ => ?_
    have longer : ∀ x ∈ u ++ [⟨q, (answer d q s).1⟩], S x.question :=
      List.forall_mem_append.mpr ⟨start, List.forall_mem_singleton.mpr within.1⟩
    exact ⟨longer, ih _ (within.2 _) longer⟩

/-! ## Sharing a store -/

/-- What happens to a shared store: a call is taken up, put on or given up. -/
inductive Move (ρ ι : Type) where
  | start (request : ρ)
  | go (call : Nat) (draw : ι)
  | stop (call : Nat)

end Dialogue

end Corvus
