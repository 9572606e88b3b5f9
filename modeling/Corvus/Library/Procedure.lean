import Corvus.Library.Served

/-!
# Procedures that may raise

A procedure is a dialogue that ends with a value or with an error, which ends everything that
would have followed.
-/

namespace Corvus

abbrev Procedure (E Q : Type) (R : Q → Type) (α : Type) := ExceptT E (Dialogue Q R) α

namespace Procedure

open Dialogue

variable {E Q σ ι : Type} {R : Q → Type} {α β : Type}

/-- Ask one question. -/
def ask (q : Q) : Procedure E Q R (R q) := ExceptT.lift (query q)

/-- Go on with what has been computed, or end with its error. -/
def settle (x : Except E α) : Procedure E Q R α := ExceptT.mk (done x)

/-- Go on whether or not a part has raised. -/
def attempt (p : Procedure E Q R α) : Procedure E Q R (Except E α) := ExceptT.lift p.run

variable {p : Procedure E Q R α} {f : α → Procedure E Q R β} {q : Q}
  {g : R q → Procedure E Q R β} {t : List (Exchange Q R)}

theorem settle_ok_bind {a : α} : (settle (Except.ok a) >>= f) = f a := rfl

theorem attempt_bind_run {f : Except E α → Procedure E Q R β} :
    (attempt p >>= f).run = p.run >>= fun x => (f x).run := by
  show (p.run >>= fun x => done (Except.ok x : Except E (Except E α))) >>= ExceptT.bindCont f = _
  generalize p.run = d
  induction d with
  | done a => rfl
  | ask q k ih => exact congrArg (Dialogue.ask q) (funext ih)

/-! ## Following a procedure -/

/-- A procedure that has ended has asked its first question. -/
theorem follows_ask {x : Except E β} (followed : Follows (ask q >>= g).run t (done x)) :
    ∃ r u, t = ⟨q, r⟩ :: u ∧ Follows (g r).run u (done x) :=
  follows_ask_done.mp followed

theorem follows_settle {x y : Except E α} (followed : Follows (settle x).run t (done y)) :
    t = [] ∧ y = x := by
  obtain ⟨silent, same⟩ := follows_done.mp followed
  exact ⟨silent, done.inj same⟩

theorem not_follows_throw {e : E} {b : β}
    (followed : Follows (throw e : Procedure E Q R β).run t (done (.ok b))) : False := by
  obtain ⟨-, same⟩ := follows_done.mp followed
  nomatch done.inj same

/-- A procedure that has ended well has ended its first part well. -/
theorem follows_bind {b : β} (followed : Follows (p >>= f).run t (done (.ok b))) :
    ∃ u a v, t = u ++ v ∧ Follows p.run u (done (.ok a)) ∧ Follows (f a).run v (done (.ok b)) := by
  obtain ⟨u, x, v, rfl, first, second⟩ := Follows.parts (f := ExceptT.bindCont f) followed
  cases x with
  | ok a => exact ⟨u, a, v, rfl, first, second⟩
  | error e => exact (not_follows_throw second).elim

theorem follows_settle_bind {x : Except E α} {b : β}
    (followed : Follows (settle x >>= f).run t (done (.ok b))) :
    ∃ a, x = .ok a ∧ Follows (f a).run t (done (.ok b)) := by
  cases x with
  | ok a => exact ⟨a, rfl, followed⟩
  | error e => exact (not_follows_throw followed).elim

theorem follows_map {w : α → β} {b : β} (followed : Follows (w <$> p).run t (done (.ok b))) :
    ∃ a, b = w a ∧ Follows p.run t (done (.ok a)) := by
  obtain ⟨u, x, v, rfl, first, second⟩ := Follows.parts followed
  cases x with
  | ok a =>
    obtain ⟨rfl, same⟩ := follows_done.mp second
    rw [List.append_nil]
    exact ⟨a, Except.ok.inj (done.inj same), first⟩
  | error e =>
    obtain ⟨-, same⟩ := follows_done.mp second
    nomatch done.inj same

/-! ## What a procedure has exchanged -/

/-- What of a trace is looked at. -/
def exchanged (notable : Q → Bool) (t : List (Exchange Q R)) : List (Exchange Q R) :=
  t.filter (notable ·.question)

/-- Whatever the answers are, a procedure that has ended has exchanged, of what is looked at,
what goes with its outcome. -/
def Leaves (notable : Q → Bool) (p : Procedure E Q R α)
    (P : List (Exchange Q R) → Except E α → Prop) : Prop :=
  ∀ t x, Follows p.run t (done x) → P (exchanged notable t) x

section Leaves

variable {notable : Q → Bool} {P P' : List (Exchange Q R) → Except E α → Prop}
  {B : List (Exchange Q R) → Except E β → Prop}

theorem exchanged_append {u v : List (Exchange Q R)} :
    exchanged notable (u ++ v) = exchanged notable u ++ exchanged notable v :=
  List.filter_append u v

theorem exchanged_cons {y : Exchange Q R} (seen : notable y.question = true) :
    exchanged notable (y :: t) = y :: exchanged notable t :=
  List.filter_cons_of_pos (p := fun y : Exchange Q R => notable y.question) seen

theorem exchanged_beside {y : Exchange Q R} (unseen : notable y.question = false) :
    exchanged notable (y :: t) = exchanged notable t :=
  List.filter_cons_of_neg (p := fun y : Exchange Q R => notable y.question) (by simp [unseen])

/-- Looking leaves what it looks at. -/
theorem filterMap_exchanged {γ : Type} {h : Exchange Q R → Option γ}
    (seen : ∀ y, notable y.question = false → h y = none) :
    (exchanged notable t).filterMap h = t.filterMap h := by
  induction t with
  | nil => rfl
  | cons y t ih =>
    cases there : notable y.question with
    | true => rw [exchanged_cons there, List.filterMap_cons, List.filterMap_cons, ih]
    | false => rw [exchanged_beside there, List.filterMap_cons_none (seen y there), ih]

theorem countP_exchanged {kind : Q → Bool} (seen : ∀ q, kind q = true → notable q = true) :
    (exchanged notable t).countP (kind ·.question) = t.countP (kind ·.question) := by
  rw [exchanged, List.countP_filter]
  refine List.countP_congr fun y _ => ?_
  rw [Bool.and_eq_true]
  exact and_iff_left_of_imp (seen y.question)

theorem leaves_mono (leaves : Leaves notable p P) (weaker : ∀ t x, P t x → P' t x) :
    Leaves notable p P' :=
  fun t x followed => weaker _ x (leaves t x followed)

theorem leaves_settle {x : Except E α} (ends : P [] x) :
    Leaves notable (settle x : Procedure E Q R α) P := by
  intro t y followed
  obtain ⟨rfl, rfl⟩ := follows_settle followed
  exact ends

theorem leaves_ask (seen : notable q = true)
    (rest : ∀ r, Leaves notable (g r) fun u x => B (⟨q, r⟩ :: u) x) :
    Leaves notable (ask q >>= g) B := by
  intro t x followed
  obtain ⟨r, u, rfl, after⟩ := follows_ask followed
  rw [exchanged_cons seen]
  exact rest r u x after

/-- A question that is not looked at. -/
theorem leaves_beside (unseen : notable q = false) (rest : ∀ r, Leaves notable (g r) B) :
    Leaves notable (ask q >>= g) B := by
  intro t x followed
  obtain ⟨r, u, rfl, after⟩ := follows_ask followed
  rw [exchanged_beside unseen]
  exact rest r u x after

theorem leaves_bind (first : Leaves notable p P)
    (second : ∀ u a, P u (.ok a) → Leaves notable (f a) fun v x => B (u ++ v) x)
    (raised : ∀ u e, P u (.error e) → B u (.error e)) : Leaves notable (p >>= f) B := by
  intro t y followed
  obtain ⟨u, x, v, rfl, before, after⟩ := Follows.parts (f := ExceptT.bindCont f) followed
  rw [exchanged_append]
  cases x with
  | ok a => exact second _ a (first u _ before) v y after
  | error e =>
    obtain ⟨rfl, rfl⟩ := follows_settle (x := .error e) after
    rw [show exchanged notable ([] : List (Exchange Q R)) = [] from rfl, List.append_nil]
    exact raised _ e (first u _ before)

theorem leaves_attempt {f : Except E α → Procedure E Q R β} (first : Leaves notable p P)
    (second : ∀ u x, P u x → Leaves notable (f x) fun v y => B (u ++ v) y) :
    Leaves notable (attempt p >>= f) B := by
  intro t y followed
  rw [attempt_bind_run] at followed
  obtain ⟨u, x, v, rfl, before, after⟩ := Follows.parts followed
  rw [exchanged_append]
  exact second _ x (first u x before) v y after

theorem leaves_settle_bind {x : Except E α} (goes : ∀ a, x = .ok a → Leaves notable (f a) B)
    (raised : ∀ e, x = .error e → B [] (.error e)) : Leaves notable (settle x >>= f) B := by
  cases x with
  | ok a => exact goes a rfl
  | error e => exact leaves_settle (raised e rfl)

/-- A procedure that asks only what is not looked at. -/
theorem leaves_of_within {A : Except E α → Prop}
    (within : Within (fun q => notable q = false) A p.run) :
    Leaves notable p fun t x => t = [] ∧ A x := by
  intro t x followed
  refine ⟨List.filter_eq_nil_iff.mpr fun y mem => ?_, within.ends followed⟩
  rw [(within.follows followed).1 y mem]
  decide

end Leaves

/-! ## What a procedure asks -/

section Within

variable {S : Q → Prop} {A : Except E α → Prop} {B : Except E β → Prop}

theorem within_ask (asks : S q) (rest : ∀ r, Within S B (g r).run) : Within S B (ask q >>= g).run :=
  ⟨asks, rest⟩

theorem within_settle {x : Except E α} (ends : A x) :
    Within S A (settle x : Procedure E Q R α).run :=
  ends

theorem within_throw {e : E} (ends : A (.error e)) :
    Within S A (throw e : Procedure E Q R α).run :=
  ends

theorem within_bind (first : Within S A p.run) (second : ∀ a, A (.ok a) → Within S B (f a).run)
    (raised : ∀ e, A (.error e) → B (.error e)) : Within S B (p >>= f).run := by
  refine Within.bind (f := ExceptT.bindCont f) first fun x ends => ?_
  cases x with
  | ok a => exact second a ends
  | error e => exact raised e ends

theorem within_map {w : α → β} (first : Within S A p.run) (ends : ∀ a, A (.ok a) → B (.ok (w a)))
    (raised : ∀ e, A (.error e) → B (.error e)) : Within S B (w <$> p).run := by
  refine Within.bind first fun x post => ?_
  cases x with
  | ok a => exact ends a post
  | error e => exact raised e post

theorem within_attempt {f : Except E α → Procedure E Q R β} (first : Within S A p.run)
    (second : ∀ x, A x → Within S B (f x).run) : Within S B (attempt p >>= f).run := by
  rw [attempt_bind_run]
  exact first.bind second

end Within

/-! ## Serving a procedure -/

variable {answer : Service σ ι Q R} {T : Terms σ ι Q} {s : σ} {P : Except E α → σ → Prop}
  {F : Except E β → σ → Prop}

theorem holds_ask (each : ∀ t, T.rely q s t → T.allowed q t → ∀ d, T.draw d →
    T.step q t (answer d q t).2 ∧
      Holds answer T (g (answer d q t).1).run F (answer d q t).2) :
    Holds answer T (ask q >>= g).run F s :=
  each

/-- The second part is entered with what the first one ensures, unless that has raised. -/
theorem holds_bind (first : Holds answer T p.run P s)
    (second : ∀ a t, P (.ok a) t → Holds answer T (f a).run F t)
    (raised : ∀ e t, P (.error e) t → F (.error e) t) : Holds answer T (p >>= f).run F s := by
  refine Holds.bind (f := ExceptT.bindCont f) first fun x t ends => ?_
  cases x with
  | ok a => exact second a t ends
  | error e => exact raised e t ends

/-- Whatever the first part ends with is gone on with. -/
theorem holds_attempt {f : Except E α → Procedure E Q R β} (first : Holds answer T p.run P s)
    (second : ∀ x t, P x t → Holds answer T (f x).run F t) :
    Holds answer T (attempt p >>= f).run F s := by
  rw [attempt_bind_run]
  exact Holds.bind first second

/-- A question of a procedure that is alone with its store. -/
theorem alone_ask {draw : ι → Prop} {C : σ → Prop} (each : ∀ d, draw d → C (answer d q s).2 ∧
    Holds answer (Alone draw C) (g (answer d q s).1).run F (answer d q s).2) :
    Holds answer (Alone draw C) (ask q >>= g).run F s :=
  holds_alone_ask.mpr each

theorem holds_map {w : α → β} (first : Holds answer T p.run P s)
    (ends : ∀ a t, P (.ok a) t → F (.ok (w a)) t)
    (raised : ∀ e t, P (.error e) t → F (.error e) t) :
    Holds answer T (w <$> p).run F s := by
  refine Holds.bind first fun x t post => ?_
  cases x with
  | ok a => exact ends a t post
  | error e => exact raised e t post

end Procedure

end Corvus
