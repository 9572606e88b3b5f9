import Mathlib.Data.List.Forall2
import Mathlib.Logic.Basic

/-!
# Statements that may raise

What it takes for a sequence of statements in `Except` to end without an error, read
off one statement after the other.
-/

namespace Corvus

variable {ε α β : Type}

theorem bind_eq_ok {x : Except ε α} {f : α → Except ε β} {b : β} :
    (x >>= f) = .ok b ↔ ∃ a, x = .ok a ∧ f a = .ok b := by
  cases x with
  | error e => simp [bind, Except.bind]
  | ok a => simp [bind, Except.bind]

theorem ok_bind {a : α} {f : α → Except ε β} : (Except.ok a >>= f) = f a := rfl

theorem throw_bind {e : ε} {f : α → Except ε β} :
    ((throw e : Except ε α) >>= f) = .error e := rfl

theorem throw_ne_ok {e : ε} {a : α} : ¬ (throw e : Except ε α) = .ok a := nofun

theorem error_ne_ok {e : ε} {a : α} : (Except.error e : Except ε α) ≠ .ok a := nofun

theorem pure_eq_ok {a : α} : (pure a : Except ε α) = .ok a := rfl

theorem ite_error_eq_ok {c : Prop} [Decidable c] {e : ε} {x : Except ε α} {a : α} :
    (if c then .error e else x) = .ok a ↔ ¬ c ∧ x = .ok a := by
  by_cases h : c
  · simp [h]
  · simp [h]

theorem ite_throw_eq_ok {c : Prop} [Decidable c] {e : ε} {x : Except ε α} {a : α} :
    (if c then throw e else x) = .ok a ↔ ¬ c ∧ x = .ok a :=
  ite_error_eq_ok

/-- Raise unless a condition holds. -/
def require (c : Prop) [Decidable c] (e : ε) : Except ε Unit := if c then .ok () else .error e

theorem require_eq_ok {c : Prop} [Decidable c] {e : ε} {u : Unit} :
    require c e = .ok u ↔ c := by
  by_cases h : c
  · simp [require, h]
  · simp [require, h]

theorem require_of {c : Prop} [Decidable c] {e : ε} (h : c) : require c e = .ok () := if_pos h

theorem require_of_not {c : Prop} [Decidable c] {e : ε} (h : ¬ c) : require c e = .error e :=
  if_neg h

/-- Raise if a condition holds. -/
def refuse (c : Prop) [Decidable c] (e : ε) : Except ε Unit := if c then .error e else .ok ()

theorem refuse_of_not {c : Prop} [Decidable c] {e : ε} (h : ¬ c) : refuse c e = .ok () := if_neg h

theorem refuse_eq_ok {c : Prop} [Decidable c] {e : ε} {u : Unit} :
    refuse c e = .ok u ↔ ¬ c := by
  by_cases h : c
  · simp [refuse, h]
  · simp [refuse, h]

/-- Raise unless a value is there. -/
def present (o : Option α) (e : ε) : Except ε α :=
  match o with
  | some a => .ok a
  | none => .error e

theorem present_eq_ok {o : Option α} {e : ε} {a : α} : present o e = .ok a ↔ o = some a := by
  cases o with
  | none => simp [present]
  | some b => simp [present]

theorem map_ok {f : α → β} {x : Except ε α} {b : β} (h : f <$> x = .ok b) :
    ∃ a, x = .ok a ∧ f a = b := by
  cases x with
  | error e => cases h
  | ok a => exact ⟨a, rfl, Except.ok.inj h⟩

/-- Every element on the right goes with one on the left. -/
theorem exists_left {R : α → β → Prop} {xs : List α} {ys : List β} (h : List.Forall₂ R xs ys)
    {y : β} (mem : y ∈ ys) : ∃ x ∈ xs, R x y := by
  induction h with
  | nil => exact absurd mem List.not_mem_nil
  | cons first _ ih =>
    obtain rfl | mem := List.mem_cons.mp mem
    · exact ⟨_, List.mem_cons_self, first⟩
    · obtain ⟨x, inside, related⟩ := ih mem
      exact ⟨x, List.mem_cons_of_mem _ inside, related⟩

/-- Every element on the left goes with one on the right. -/
theorem exists_right {R : α → β → Prop} {xs : List α} {ys : List β} (h : List.Forall₂ R xs ys)
    {x : α} (mem : x ∈ xs) : ∃ y ∈ ys, R x y :=
  exists_left h.flip mem

/-- A list of related elements, if there is one for each. -/
theorem exists_forall₂ {R : α → β → Prop} {xs : List α} (each : ∀ x ∈ xs, ∃ y, R x y) :
    ∃ ys, List.Forall₂ R xs ys := by
  induction xs with
  | nil => exact ⟨[], .nil⟩
  | cons x xs ih =>
    obtain ⟨y, first⟩ := each x List.mem_cons_self
    obtain ⟨ys, rest⟩ := ih fun x mem => each x (List.mem_cons_of_mem _ mem)
    exact ⟨y :: ys, .cons first rest⟩

/-- What related elements have in common, the lists have in common. -/
theorem map_eq_of_forall₂ {γ : Type} {R : α → β → Prop} {f : α → γ} {g : β → γ} {xs : List α}
    {ys : List β} (h : List.Forall₂ R xs ys) (same : ∀ x y, R x y → f x = g y) :
    xs.map f = ys.map g := by
  induction h with
  | nil => rfl
  | cons first _ ih => rw [List.map_cons, List.map_cons, same _ _ first, ih]

/-- The results of a procedure over a list, one for each element. -/
theorem mapM_eq_ok {f : α → Except ε β} {xs : List α} {ys : List β} :
    xs.mapM f = .ok ys ↔ List.Forall₂ (fun x y => f x = .ok y) xs ys := by
  induction xs generalizing ys with
  | nil =>
    rw [List.mapM_nil, List.forall₂_nil_left_iff]
    exact ⟨fun h => (Except.ok.inj h).symm, fun h => congrArg Except.ok h.symm⟩
  | cons x xs ih =>
    rw [List.mapM_cons, bind_eq_ok, List.forall₂_cons_left_iff]
    constructor
    · rintro ⟨y, first, rest⟩
      obtain ⟨ys', rest, same⟩ := bind_eq_ok.mp rest
      exact ⟨y, ys', first, ih.mp rest, (Except.ok.inj same).symm⟩
    · rintro ⟨y, ys', first, rest, rfl⟩
      exact ⟨y, first, bind_eq_ok.mpr ⟨ys', ih.mpr rest, rfl⟩⟩

/-! ## What is raised -/

/-- Whatever is raised is of a kind. -/
def Raises (P : ε → Prop) (x : Except ε α) : Prop := ∀ e, x = .error e → P e

section Raises

variable {P Q : ε → Prop} {x y : Except ε α} {f : α → Except ε β} {e : ε}

theorem raises_ok (a : α) : Raises P (.ok a : Except ε α) := nofun

theorem raises_error (kind : P e) : Raises P (.error e : Except ε α) := by
  intro e' same
  rwa [← Except.error.inj same]

theorem Raises.mono (raises : Raises P x) (imp : ∀ e, P e → Q e) : Raises Q x :=
  fun e same => imp e (raises e same)

theorem Raises.bind (first : Raises P x) (rest : ∀ a, x = .ok a → Raises P (f a)) :
    Raises P (x >>= f) := by
  cases x with
  | error e => exact raises_error (first e rfl)
  | ok a => exact rest a rfl

theorem Raises.map {g : α → β} (raises : Raises P x) : Raises P (g <$> x) := by
  cases x with
  | error e => exact raises_error (raises e rfl)
  | ok a => exact raises_ok _

theorem raises_ite {c : Prop} [Decidable c] (first : Raises P x) (second : Raises P y) :
    Raises P (if c then x else y) := by
  by_cases holds : c
  · rwa [if_pos holds]
  · rwa [if_neg holds]

theorem raises_require {c : Prop} [Decidable c] (kind : P e) : Raises P (require c e) :=
  raises_ite (raises_ok _) (raises_error kind)

theorem raises_refuse {c : Prop} [Decidable c] (kind : P e) : Raises P (refuse c e) :=
  raises_ite (raises_error kind) (raises_ok _)

theorem raises_present {o : Option α} (kind : P e) : Raises P (present o e) := by
  cases o with
  | none => exact raises_error kind
  | some a => exact raises_ok a

end Raises

end Corvus
