import Corvus.Library.Except

/-!
# Transactions that are rolled back

A body of statements is a program of `EStateM`: what it has written stands, also when it raises.
The transaction around it commits what a body that returns has written, and takes back everything
where the body raises.
-/

namespace Corvus.Rollback

variable {ε σ α β : Type}

/-- A check inside a body, which writes nothing. -/
def checked (x : Except ε α) : EStateM ε σ α := fun s =>
  match x with
  | .ok a => .ok a s
  | .error e => .error e s

/-- Run a body, and go back to the state before it if it raises. -/
def atomically (body : EStateM ε σ α) (s : σ) : Except ε α × σ :=
  match body.run s with
  | .ok a after => (.ok a, after)
  | .error e _ => (.error e, s)

variable {body : EStateM ε σ α} {rest : α → EStateM ε σ β} {s after : σ} {a : α} {b : β} {e : ε}

theorem run_get_bind {rest : σ → EStateM ε σ β} :
    (get >>= rest).run s = (rest s).run s := rfl

theorem run_checked_bind_eq_ok {x : Except ε α} : (checked x >>= rest).run s = .ok b after ↔
    ∃ a, x = .ok a ∧ (rest a).run s = .ok b after := by
  cases x with
  | ok a =>
    show (rest a).run s = _ ↔ _
    simp
  | error e =>
    show EStateM.Result.error e s = _ ↔ _
    simp

theorem run_checked_bind : (checked (.ok a) >>= rest).run s = (rest a).run s := rfl

theorem run_modify_bind {f : σ → σ} {rest : Unit → EStateM ε σ β} :
    ((modify f : EStateM ε σ Unit) >>= rest).run s = (rest ()).run (f s) := rfl

theorem run_pure_eq_ok {a' : α} :
    (pure a' : EStateM ε σ α).run s = .ok a after ↔ a' = a ∧ s = after := by
  show EStateM.Result.ok a' s = .ok a after ↔ _
  rw [EStateM.Result.ok.injEq]

theorem run_throw_ne_ok : (throw e : EStateM ε σ α).run s ≠ .ok a after := by
  intro same
  cases same

/-- What a transaction leaves behind is the state before it, or what a body that returned has
written. -/
theorem atomically_cases (body : EStateM ε σ α) (s : σ) :
    (atomically body s).2 = s ∨ ∃ a, body.run s = .ok a (atomically body s).2 := by
  unfold atomically
  cases body.run s with
  | ok a after => exact .inr ⟨a, rfl⟩
  | error e after => exact .inl rfl

theorem atomically_of_ok (ran : body.run s = .ok a after) :
    atomically body s = (.ok a, after) := by
  rw [atomically, ran]

theorem atomically_of_error {reached : σ} (ran : body.run s = .error e reached) :
    atomically body s = (.error e, s) := by
  rw [atomically, ran]

end Corvus.Rollback
