import Mathlib.Data.List.Basic
import Mathlib.Logic.Function.Basic

/-!
# Procedures that consult others

A dialogue is a procedure that asks questions of parties it does not control. Nothing is
assumed of the answers: `Follows p t p'` says that `p` goes on as `p'` after the exchanges
`t`, whatever the answers in them are, and so covers runs that are broken off as well.

Several dialogues may take turns. Each of them runs without a pause up to a question that
it awaits, and goes on from there once the answer is in.
-/

namespace Corvus

/-- A procedure that ends with a value or asks a question and goes on with the answer. -/
inductive Dialogue (Q : Type) (R : Q → Type) (α : Type) where
  | done (value : α)
  | ask (question : Q) (next : R question → Dialogue Q R α)

/-- A question with the answer it got. -/
structure Exchange (Q : Type) (R : Q → Type) where
  question : Q
  answer : R question

namespace Dialogue

variable {Q : Type} {R : Q → Type} {α β : Type}

def bind : Dialogue Q R α → (α → Dialogue Q R β) → Dialogue Q R β
  | done a, f => f a
  | ask q k, f => ask q fun r => (k r).bind f

instance : Monad (Dialogue Q R) where
  pure := done
  bind := bind

/-- Ask one question. -/
def query (q : Q) : Dialogue Q R (R q) := ask q done

@[simp] theorem done_bind (a : α) (f : α → Dialogue Q R β) : (done a >>= f) = f a := rfl

@[simp] theorem pure_bind (a : α) (f : α → Dialogue Q R β) : (pure a >>= f) = f a := rfl

@[simp] theorem query_bind (q : Q) (f : R q → Dialogue Q R β) : (query q >>= f) = ask q f := rfl

theorem ask_bind (q : Q) (k : R q → Dialogue Q R α) (f : α → Dialogue Q R β) :
    (ask q k >>= f) = ask q fun r => k r >>= f := rfl

/-! ## Following a dialogue -/

inductive Follows : Dialogue Q R α → List (Exchange Q R) → Dialogue Q R α → Prop
  | refl (p : Dialogue Q R α) : Follows p [] p
  | next {q : Q} {k : R q → Dialogue Q R α} {r : R q} {t : List (Exchange Q R)}
      {p : Dialogue Q R α} (rest : Follows (k r) t p) : Follows (ask q k) (⟨q, r⟩ :: t) p

variable {p p' p'' : Dialogue Q R α} {f : α → Dialogue Q R β} {d d' : Dialogue Q R β}
  {q : Q} {k : R q → Dialogue Q R α} {t u : List (Exchange Q R)} {a : α}

theorem follows_done : Follows (done a) t p ↔ t = [] ∧ p = done a := by
  constructor
  · intro followed
    cases followed
    exact ⟨rfl, rfl⟩
  · rintro ⟨rfl, rfl⟩
    exact .refl _

/-- A dialogue that asks has not begun or has its answer. -/
theorem follows_ask : Follows (ask q k) t p ↔
    t = [] ∧ p = ask q k ∨ ∃ r u, t = ⟨q, r⟩ :: u ∧ Follows (k r) u p := by
  constructor
  · intro followed
    cases followed with
    | refl => exact .inl ⟨rfl, rfl⟩
    | next rest => exact .inr ⟨_, _, rfl, rest⟩
  · rintro (⟨rfl, rfl⟩ | ⟨r, u, rfl, rest⟩)
    · exact .refl _
    · exact .next rest

theorem follows_ask_done : Follows (ask q k) t (done a) ↔
    ∃ r u, t = ⟨q, r⟩ :: u ∧ Follows (k r) u (done a) := by
  rw [follows_ask]
  exact or_iff_right fun ⟨_, same⟩ => nomatch same

theorem Follows.answered {f : R q → Dialogue Q R α} (followed : Follows (query q >>= f) t (done a)) :
    ∃ r u, t = ⟨q, r⟩ :: u ∧ Follows (f r) u (done a) :=
  follows_ask_done.mp followed

theorem Follows.answer {f : R q → Dialogue Q R α} {r : R q} (rest : Follows (f r) t p) :
    Follows (query q >>= f) (⟨q, r⟩ :: t) p :=
  .next rest

/-- What a dialogue has exchanged beside its first question, it has exchanged after it. -/
theorem Follows.past {x : Exchange Q R} (followed : Follows (ask q k) t p) (mem : x ∈ t)
    (other : x.question ≠ q) : ∃ r u, t = ⟨q, r⟩ :: u ∧ x ∈ u ∧ Follows (k r) u p := by
  obtain ⟨rfl, -⟩ | ⟨r, u, rfl, rest⟩ := follows_ask.mp followed
  · exact absurd mem List.not_mem_nil
  · obtain rfl | later := List.mem_cons.mp mem
    · exact absurd rfl other
    · exact ⟨r, u, rfl, later, rest⟩

theorem Follows.trans (first : Follows p t p') (second : Follows p' u p'') :
    Follows p (t ++ u) p'' := by
  induction first with
  | refl => exact second
  | next _ ih => exact .next (ih second)

/-- The first part of a bound dialogue, in which it is still under way. -/
theorem Follows.bind (followed : Follows p t p') (f : α → Dialogue Q R β) :
    Follows (p >>= f) t (p' >>= f) := by
  induction followed with
  | refl => exact .refl _
  | next _ ih => exact .next ih

/-- A dialogue that has got an answer has waited for it. -/
theorem Follows.split {x : Exchange Q R} (followed : Follows p (t ++ x :: u) p') :
    ∃ k, Follows p t (ask x.question k) ∧ Follows (k x.answer) u p' := by
  induction t generalizing p with
  | nil =>
    cases followed with
    | next rest => exact ⟨_, .refl _, rest⟩
  | cons y t ih =>
    cases followed with
    | next rest =>
      obtain ⟨k, first, second⟩ := ih rest
      exact ⟨k, .next first, second⟩

/-- A bound dialogue waits for an answer in its first part or has ended that part. -/
theorem follows_bind (followed : Follows (p >>= f) t d) :
    (∃ q k, Follows p t (ask q k) ∧ d = ask q fun r => k r >>= f) ∨
      ∃ u a v, t = u ++ v ∧ Follows p u (done a) ∧ Follows (f a) v d := by
  induction p generalizing t with
  | done a => exact .inr ⟨[], a, t, rfl, .refl _, followed⟩
  | ask q k ih =>
    rw [ask_bind, follows_ask] at followed
    obtain ⟨rfl, rfl⟩ | ⟨r, u, rfl, rest⟩ := followed
    · exact .inl ⟨q, k, .refl _, rfl⟩
    · obtain ⟨q', k', first, rfl⟩ | ⟨v, a, w, rfl, first, second⟩ := ih r rest
      · exact .inl ⟨q', k', .next first, rfl⟩
      · exact .inr ⟨_, a, w, rfl, .next first, second⟩

/-- A bound dialogue that has ended has ended both of its parts. -/
theorem Follows.parts {b : β} (followed : Follows (p >>= f) t (done b)) :
    ∃ u a v, t = u ++ v ∧ Follows p u (done a) ∧ Follows (f a) v (done b) := by
  obtain ⟨q, k, _, waits⟩ | parts := follows_bind followed
  · nomatch waits
  · exact parts

/-! ## What a dialogue asks -/

/-- The question a dialogue asks next. -/
def pending : Dialogue Q R α → Option Q
  | done _ => none
  | ask q _ => some q

@[simp] theorem pending_done : (done a : Dialogue Q R α).pending = none := rfl

@[simp] theorem pending_ask : (ask q k).pending = some q := rfl

/-- Whatever the answers are, the dialogue asks only questions that meet a condition and
ends only with values that meet another. -/
def Within (S : Q → Prop) (P : α → Prop) : Dialogue Q R α → Prop
  | done a => P a
  | ask q k => S q ∧ ∀ r, Within S P (k r)

variable {S T : Q → Prop} {P P' : α → Prop} {B : β → Prop}

theorem Within.pure (holds : P a) : Within S P (pure a : Dialogue Q R α) := holds

theorem Within.mono (within : Within S P p) (asks : ∀ q, S q → T q) (ends : ∀ a, P a → P' a) :
    Within T P' p := by
  induction p with
  | done a => exact ends a within
  | ask q k ih => exact ⟨asks q within.1, fun r => ih r (within.2 r)⟩

theorem Within.bind (first : Within S P p) (second : ∀ a, P a → Within S B (f a)) :
    Within S B (p >>= f) := by
  induction p with
  | done a => exact second a first
  | ask q k ih => exact ⟨first.1, fun r => ih r (first.2 r)⟩

theorem Within.query {f : R q → Dialogue Q R α} (holds : S q) (rest : ∀ r, Within S P (f r)) :
    Within S P (Dialogue.query q >>= f) :=
  ⟨holds, rest⟩

theorem Within.follows (within : Within S P p) (followed : Follows p t p') :
    (∀ x ∈ t, S x.question) ∧ Within S P p' := by
  induction followed with
  | refl => exact ⟨fun _ mem => absurd mem List.not_mem_nil, within⟩
  | next _ ih =>
    obtain ⟨earlier, left⟩ := ih (within.2 _)
    exact ⟨List.forall_mem_cons.mpr ⟨within.1, earlier⟩, left⟩

theorem Within.ends (within : Within S P p) (followed : Follows p t (done a)) : P a :=
  (within.follows followed).2

/-! ## What a dialogue asks after what -/

/-- Whatever the answers are, the dialogue asks only questions that meet a condition on what
has been exchanged before, and ends only with values that meet another. -/
def Obeys (G : List (Exchange Q R) → Q → Prop) (E : List (Exchange Q R) → α → Prop) :
    List (Exchange Q R) → Dialogue Q R α → Prop
  | past, done a => E past a
  | past, ask q k => G past q ∧ ∀ r, Obeys G E (past ++ [⟨q, r⟩]) (k r)

variable {G : List (Exchange Q R) → Q → Prop} {E E' : List (Exchange Q R) → α → Prop}
  {F : List (Exchange Q R) → β → Prop} {past : List (Exchange Q R)}

theorem Obeys.done (holds : E past a) : Obeys G E past (done a : Dialogue Q R α) := holds

theorem Obeys.ask (holds : G past q) (rest : ∀ r, Obeys G E (past ++ [⟨q, r⟩]) (k r)) :
    Obeys G E past (ask q k) :=
  ⟨holds, rest⟩

theorem Obeys.bind (first : Obeys G E past p)
    (second : ∀ later a, past <+: later → E later a → Obeys G F later (f a)) :
    Obeys G F past (p.bind f) := by
  induction p generalizing past with
  | done a => exact second past a List.prefix_rfl first
  | ask q k ih =>
    refine ⟨first.1, fun r => ih r (first.2 r) fun later a longer holds => ?_⟩
    exact second later a ((List.prefix_append past _).trans longer) holds

/-- What is left of a dialogue obeys the conditions after what has been exchanged. -/
theorem Obeys.step {r : R q} (obeys : Obeys G E past (Dialogue.ask q k)) :
    Obeys G E (past ++ [⟨q, r⟩]) (k r) :=
  obeys.2 r

/-- The questions of one kind that have been asked, the one that waits for its answer
among them. -/
def asked (kind : Q → Bool) (t : List (Exchange Q R)) (p : Dialogue Q R α) : List Q :=
  (t.map Exchange.question ++ p.pending.toList).filter kind

variable {kind : Q → Bool}

theorem asked_cons {x : Exchange Q R} : asked kind (x :: t) p =
    if kind x.question then x.question :: asked kind t p else asked kind t p := by
  simp [asked, List.filter_cons]

theorem asked_ask : asked kind [] (ask q k) = if kind q then [q] else [] := by
  simp [asked, List.filter_cons]

/-- Nothing of the kind has been asked while such a dialogue waits, whatever follows it. -/
theorem Within.asked_eq_nil {next : R q → Dialogue Q R β}
    (within : Within (fun q => kind q = false) P p) (followed : Follows p t (ask q k)) :
    asked kind t (ask q next) = [] := by
  obtain ⟨earlier, waits, _⟩ := within.follows followed
  refine List.filter_eq_nil_iff.mpr fun q' mem => ?_
  rw [List.mem_append, List.mem_map, pending_ask, Option.mem_toList] at mem
  obtain ⟨x, mem, rfl⟩ | mem := mem
  · simp [earlier x mem]
  · obtain rfl := Option.some.inj mem
    simp [waits]

/-- The questions of one kind come in the order of a list, of which the last ones may be
missing. -/
def AsksInOrder (kind : Q → Bool) (p : Dialogue Q R α) (qs : List Q) : Prop :=
  ∀ t p', Follows p t p' → asked kind t p' <+: qs

theorem AsksInOrder.after {qs : List Q} (first : Within (fun q => kind q = false) P p)
    (second : ∀ a, P a → AsksInOrder kind (f a) qs) : AsksInOrder kind (p >>= f) qs := by
  induction p with
  | done a => exact second a first
  | ask q k ih =>
    intro t d followed
    rw [ask_bind, follows_ask] at followed
    obtain ⟨rfl, rfl⟩ | ⟨r, u, rfl, rest⟩ := followed
    · rw [asked_ask, if_neg (by simp [first.1])]
      exact List.nil_prefix
    · rw [asked_cons, if_neg (by simp [first.1])]
      exact ih r (first.2 r) u d rest

theorem AsksInOrder.done {a : α} {qs : List Q} :
    AsksInOrder kind (done a : Dialogue Q R α) qs := by
  intro t p' followed
  obtain ⟨rfl, rfl⟩ := follows_done.mp followed
  exact List.nil_prefix

/-- A dialogue that asks no question of the kind. -/
theorem Within.inOrder (within : Within (fun q => kind q = false) P p) (qs : List Q) :
    AsksInOrder kind p qs := by
  induction p with
  | done a => exact .done
  | ask q k ih =>
    intro t p' followed
    obtain ⟨rfl, rfl⟩ | ⟨r, u, rfl, rest⟩ := follows_ask.mp followed
    · rw [asked_ask, if_neg (by simp [within.1])]
      exact List.nil_prefix
    · rw [asked_cons, if_neg (by simp [within.1])]
      exact ih r (within.2 r) u p' rest

theorem AsksInOrder.ask {qs : List Q} (holds : kind q = true)
    (rest : ∀ r, AsksInOrder kind (k r) qs) : AsksInOrder kind (ask q k) (q :: qs) := by
  intro t d followed
  obtain ⟨rfl, rfl⟩ | ⟨r, u, rfl, rest'⟩ := follows_ask.mp followed
  · rw [asked_ask, if_pos holds]
    exact (List.prefix_append [q] qs)
  · rw [asked_cons, if_pos holds]
    exact (List.prefix_cons_inj q).mpr (rest r u d rest')

/-! ## Answering -/

/-- Follow a dialogue with the answers of an oracle, which sees the questions only. -/
def play (oracle : (q : Q) → R q) : Dialogue Q R α → List (Exchange Q R) × α
  | done a => ([], a)
  | ask q k =>
      let (t, a) := play oracle (k (oracle q))
      (⟨q, oracle q⟩ :: t, a)

theorem follows_play (oracle : (q : Q) → R q) (p : Dialogue Q R α) :
    Follows p (play oracle p).1 (done (play oracle p).2) := by
  induction p with
  | done a => exact .refl _
  | ask q k ih => exact .next (ih (oracle q))

end Dialogue

end Corvus
