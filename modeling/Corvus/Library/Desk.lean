import Corvus.Library.Served

/-!
# Dialogues on record

A desk is a shared store at which nothing is forgotten: of each dialogue that has been taken up
there it is kept what it was taken up for, what it has exchanged and what is left of it.
`Kept` is the condition from which something follows for each of them in every order of moves.
-/

namespace Corvus.Dialogue

/-- A dialogue that serves a request, with what it has exchanged. -/
structure Session (ρ Q : Type) (R : Q → Type) (α : Type) where
  request : ρ
  transcript : List (Exchange Q R)
  rest : Dialogue Q R α

structure Desk (ρ σ Q : Type) (R : Q → Type) (α : Type) where
  store : σ
  sessions : List (Session ρ Q R α)

/-- What happens at a desk: a dialogue is taken up, or one of them is put on. -/
inductive Act (ρ ι : Type) where
  | enter (request : ρ)
  | go (session : Nat) (draw : ι)

namespace Desk

variable {ρ σ ι Q : Type} {R : Q → Type} {α : Type}

/-- One move. A dialogue that has ended does nothing more. -/
def step (program : ρ → Dialogue Q R α) (answer : Service σ ι Q R) (h : Desk ρ σ Q R α) :
    Act ρ ι → Desk ρ σ Q R α
  | .enter request => { h with sessions := h.sessions ++ [⟨request, [], program request⟩] }
  | .go n d =>
      match h.sessions[n]? with
      | some ⟨request, t, ask q k⟩ =>
          { store := (answer d q h.store).2
            sessions := h.sessions.set n
              ⟨request, t ++ [⟨q, (answer d q h.store).1⟩], k (answer d q h.store).1⟩ }
      | _ => h

/-- A desk without a dialogue. -/
def opened (s : σ) : Desk ρ σ Q R α := ⟨s, []⟩

variable {program : ρ → Dialogue Q R α} {answer : Service σ ι Q R} {h : Desk ρ σ Q R α}
  {act : Act ρ ι} {acts : List (Act ρ ι)}

/-- What a move can come to. -/
inductive Next (program : ρ → Dialogue Q R α) (answer : Service σ ι Q R) (h : Desk ρ σ Q R α) :
    Desk ρ σ Q R α → Prop
  | idle : Next program answer h h
  | entered (request : ρ) : Next program answer h
      ⟨h.store, h.sessions ++ [⟨request, [], program request⟩]⟩
  | went (n : Nat) (d : ι) {request : ρ} {t : List (Exchange Q R)} {q : Q}
      {k : R q → Dialogue Q R α} (found : h.sessions[n]? = some ⟨request, t, ask q k⟩) :
      Next program answer h ⟨(answer d q h.store).2, h.sessions.set n
        ⟨request, t ++ [⟨q, (answer d q h.store).1⟩], k (answer d q h.store).1⟩⟩

theorem next_step : Next program answer h (h.step program answer act) := by
  cases act with
  | enter request => exact .entered request
  | go n d =>
    rw [step]
    split
    · next request t q k found => exact .went n d found
    · exact .idle

/-! ## One session alone -/

/-- The value that a dialogue ends with, if it asks so many questions at most. -/
def ending (answer : Service σ ι Q R) (d : ι) : Nat → Dialogue Q R α → σ → Option α
  | _, done a, _ => some a
  | 0, ask _ _, _ => none
  | n + 1, ask q k, s => ending answer d n (k (answer d q s).1) (answer d q s).2

variable (program) in
/-- A session that is put on until it has to end has ended. -/
theorem exec_go {d : ι} {i n : Nat} {request : ρ} {t : List (Exchange Q R)}
    {p : Dialogue Q R α} {a : α} (found : h.sessions[i]? = some ⟨request, t, p⟩)
    (ends : ending answer d n p h.store = some a) :
    ∃ u, (Run.exec (step program answer) h (List.replicate n (.go i d))).sessions[i]? =
      some ⟨request, u, done a⟩ := by
  induction n generalizing h t p with
  | zero =>
    cases p with
    | done b =>
      obtain rfl := Option.some.inj ends
      exact ⟨t, found⟩
    | ask q k => nomatch ends
  | succ n ih =>
    cases p with
    | done b =>
      have idle : h.step program answer (.go i d) = h := by rw [step, found]
      show ∃ u, (Run.exec _ (h.step program answer (.go i d)) _).sessions[i]? = _
      rw [idle]
      cases n with
      | zero => exact ih found ends
      | succ n => exact ih found ends
    | ask q k =>
      refine ih (h := h.step program answer (.go i d)) (t := t ++ [⟨q, (answer d q h.store).1⟩])
        (p := k (answer d q h.store).1) ?_ ?_
      · rw [step, found]
        exact List.getElem?_set_self (List.getElem?_eq_some_iff.mp found).1
      · rw [step, found]
        exact ends

/-! ## What holds of each session -/

/-- What a session needs to keep to a condition, whichever of them is put on. -/
structure Kept (program : ρ → Dialogue Q R α) (answer : Service σ ι Q R) (I : σ → Prop)
    (K : Nat → σ → Session ρ Q R α → Prop) : Prop where
  keeps : ∀ s d q, I s → I (answer d q s).2
  enters : ∀ n s request, I s → K n s ⟨request, [], program request⟩
  goes : ∀ n s request t q k d, I s → K n s ⟨request, t, ask q k⟩ →
    K n (answer d q s).2 ⟨request, t ++ [⟨q, (answer d q s).1⟩], k (answer d q s).1⟩
  spares : ∀ n s c d q, I s → K n s c → K n (answer d q s).2 c

/-- The store and every session keep to their conditions. -/
structure Each (I : σ → Prop) (K : Nat → σ → Session ρ Q R α → Prop) (h : Desk ρ σ Q R α) :
    Prop where
  store : I h.store
  sessions : ∀ n c, h.sessions[n]? = some c → K n h.store c

variable {I : σ → Prop} {K : Nat → σ → Session ρ Q R α → Prop}

theorem getElem?_concat_eq_some {β : Type} {xs : List β} {x y : β} {n : Nat}
    (found : (xs ++ [x])[n]? = some y) : xs[n]? = some y ∨ n = xs.length ∧ y = x := by
  rw [List.getElem?_append] at found
  split at found
  · exact .inl found
  · next past =>
    rw [List.getElem?_singleton] at found
    split at found
    · exact .inr ⟨by omega, (Option.some.inj found).symm⟩
    · nomatch found

theorem getElem?_set_eq_some {β : Type} {xs : List β} {x y : β} {n i : Nat}
    (found : (xs.set n x)[i]? = some y) : i = n ∧ y = x ∨ i ≠ n ∧ xs[i]? = some y := by
  rw [List.getElem?_set] at found
  split at found
  · next same =>
    split at found
    · exact .inl ⟨same.symm, (Option.some.inj found).symm⟩
    · nomatch found
  · next other => exact .inr ⟨Ne.symm other, found⟩

theorem Kept.step (kept : Kept program answer I K) (each : Each I K h) :
    Each I K (h.step program answer act) := by
  generalize made : h.step program answer act = h'
  have next : Next program answer h h' := made ▸ next_step
  cases next with
  | idle => exact each
  | entered request =>
    refine ⟨each.store, fun n c found => ?_⟩
    obtain old | ⟨rfl, rfl⟩ := getElem?_concat_eq_some found
    · exact each.sessions n c old
    · exact kept.enters _ _ request each.store
  | went n d found =>
    refine ⟨kept.keeps _ d _ each.store, fun i c there => ?_⟩
    obtain ⟨rfl, rfl⟩ | ⟨-, old⟩ := getElem?_set_eq_some there
    · exact kept.goes _ _ _ _ _ _ d each.store (each.sessions _ _ found)
    · exact kept.spares _ _ _ d _ each.store (each.sessions i c old)

theorem Kept.exec (kept : Kept program answer I K) (each : Each I K h) (acts : List (Act ρ ι)) :
    Each I K (Run.exec (Desk.step program answer) h acts) :=
  Run.preserves each (fun _ _ each => kept.step each) acts

/-- Each session has followed the dialogue that it was taken up for. -/
theorem follows_exec (start : ∀ c ∈ h.sessions, Follows (program c.request) c.transcript c.rest) :
    ∀ c ∈ (Run.exec (step program answer) h acts).sessions,
      Follows (program c.request) c.transcript c.rest := by
  have kept : Kept program answer (fun _ => True)
      (fun _ _ c => Follows (program c.request) c.transcript c.rest) :=
    { keeps := fun _ _ _ _ => trivial
      enters := fun _ _ _ _ => .refl _
      goes := fun _ _ _ _ _ _ _ _ followed => followed.trans (.next (.refl _))
      spares := fun _ _ _ _ _ _ followed => followed }
  have each : Each (fun _ => True)
      (fun _ _ c => Follows (program c.request) c.transcript c.rest) h :=
    ⟨trivial, fun _ c found => start c (List.mem_of_getElem? found)⟩
  intro c mem
  obtain ⟨n, found⟩ := List.mem_iff_getElem?.mp mem
  exact (kept.exec each acts).sessions n c found

/-- What a dialogue ensures, it has ensured when it ends at the desk, where every question that
is put keeps to what all of them rely on. -/
theorem kept_of_holds {T : Terms σ ι Q} {E : ρ → α → σ → Prop} {m : Nat} {G : ρ → Prop}
    (keeps : ∀ s d q, I s → I (answer d q s).2) (draws : ∀ d, T.draw d)
    (trans : ∀ q s t u, T.rely q s t → T.rely q t u → T.rely q s u)
    (refl : ∀ q s, T.rely q s s) (allowed : ∀ q s, I s → T.allowed q s)
    (relies : ∀ s d q q', I s → T.rely q' s (answer d q s).2)
    (stable : ∀ request a s d q, I s → E request a s → E request a (answer d q s).2)
    (programs : ∀ request s, G request → I s → Holds answer T (program request) (E request) s) :
    Kept program answer I fun n s c =>
      m ≤ n → G c.request → Holds answer T c.rest (E c.request) s where
  keeps := keeps
  enters _ s request start _ kind := programs request s kind start
  goes _ s _ _ q _ d start holds late kind :=
    (holds late kind s (refl q s) (allowed q s start) d (draws d)).2
  spares _ s c d q start holds late kind := by
    have first := holds late kind
    obtain ⟨request, t, rest⟩ := c
    cases rest with
    | done a => exact stable request a s d q start first
    | ask q' k =>
      intro u later
      exact first u (trans q' _ _ _ (relies s d q q' start) later)

end Desk

end Corvus.Dialogue
