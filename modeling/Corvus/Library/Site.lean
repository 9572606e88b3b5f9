import Corvus.Library.Desk

/-!
# Dialogues on record that may be stopped

A site is a shared store with the dialogues that are under way there, each with what it has
exchanged. A dialogue may be given up at any time. A condition on the store and the sessions holds
of every state of a run if it survives a question that is put to the store, for the session that
puts it and for all others.
-/

namespace Corvus.Dialogue

/-- What holds on some terms holds on terms that ask for less. -/
theorem Holds.weaken {σ ι Q : Type} {R : Q → Type} {α : Type} {answer : Service σ ι Q R}
    {T T' : Terms σ ι Q} {p : Dialogue Q R α} {P : α → σ → Prop} {s : σ}
    (holds : Holds answer T p P s) (relies : ∀ q s t, T'.rely q s t → T.rely q s t)
    (allows : ∀ q t, T'.allowed q t → T.allowed q t) (draws : ∀ d, T'.draw d → T.draw d)
    (steps : ∀ q s t, T.step q s t → T'.step q s t) : Holds answer T' p P s := by
  induction p generalizing s with
  | done a => exact holds
  | ask q k ih =>
    intro t later allowed d drawn
    obtain ⟨kept, rest⟩ := holds t (relies q s t later) (allows q t allowed) d (draws d drawn)
    exact ⟨steps q t _ kept, ih _ rest⟩

structure Site (ρ σ Q : Type) (R : Q → Type) (α : Type) where
  store : σ
  sessions : List (Session ρ Q R α)

namespace Site

variable {ρ σ ι Q : Type} {R : Q → Type} {α : Type}

/-- One move. A dialogue that has ended does nothing more. -/
def step (program : ρ → Dialogue Q R α) (answer : Service σ ι Q R) (h : Site ρ σ Q R α) :
    Move ρ ι → Site ρ σ Q R α
  | .start request => { h with sessions := h.sessions ++ [⟨request, [], program request⟩] }
  | .stop n => { h with sessions := h.sessions.eraseIdx n }
  | .go n d =>
      match h.sessions[n]? with
      | some ⟨request, t, ask q k⟩ =>
          { store := (answer d q h.store).2
            sessions := h.sessions.set n
              ⟨request, t ++ [⟨q, (answer d q h.store).1⟩], k (answer d q h.store).1⟩ }
      | _ => h

/-- A site without a dialogue. -/
def opened (s : σ) : Site ρ σ Q R α := ⟨s, []⟩

variable {program : ρ → Dialogue Q R α} {answer : Service σ ι Q R} {h : Site ρ σ Q R α}
  {m : Move ρ ι} {moves : List (Move ρ ι)}

/-- What a move can come to. -/
inductive Next (program : ρ → Dialogue Q R α) (answer : Service σ ι Q R) (h : Site ρ σ Q R α) :
    Move ρ ι → Site ρ σ Q R α → Prop
  | idle (m : Move ρ ι) : Next program answer h m h
  | started (request : ρ) : Next program answer h (.start request)
      ⟨h.store, h.sessions ++ [⟨request, [], program request⟩]⟩
  | stopped (n : Nat) : Next program answer h (.stop n) ⟨h.store, h.sessions.eraseIdx n⟩
  | went (n : Nat) (d : ι) {request : ρ} {t : List (Exchange Q R)} {q : Q}
      {k : R q → Dialogue Q R α} (found : h.sessions[n]? = some ⟨request, t, ask q k⟩) :
      Next program answer h (.go n d) ⟨(answer d q h.store).2, h.sessions.set n
        ⟨request, t ++ [⟨q, (answer d q h.store).1⟩], k (answer d q h.store).1⟩⟩

theorem next_step (m : Move ρ ι) : Next program answer h m (h.step program answer m) := by
  cases m with
  | start request => exact .started request
  | stop n => exact .stopped n
  | go n d =>
    rw [step]
    split
    · next request t q k found => exact .went n d found
    · exact .idle _

/-! ## What holds of each session -/

/-- What a condition on the sessions needs to survive a question `q` that session `n` puts. -/
structure Survives (program : ρ → Dialogue Q R α) (answer : Service σ ι Q R)
    (K : σ → Session ρ Q R α → Prop) (h : Site ρ σ Q R α) (m : Move ρ ι) : Prop where
  starts : ∀ request, m = .start request → K h.store ⟨request, [], program request⟩
  goes : ∀ n d request t q k, m = .go n d →
    h.sessions[n]? = some ⟨request, t, ask q k⟩ → K h.store ⟨request, t, ask q k⟩ →
      K (answer d q h.store).2 ⟨request, t ++ [⟨q, (answer d q h.store).1⟩],
        k (answer d q h.store).1⟩
  spares : ∀ n d request t q k, m = .go n d → h.sessions[n]? = some ⟨request, t, ask q k⟩ →
    ∀ c ∈ h.sessions.eraseIdx n, K h.store c → K (answer d q h.store).2 c

/-- The condition on each session. -/
def Each (K : σ → Session ρ Q R α → Prop) (h : Site ρ σ Q R α) : Prop :=
  ∀ c ∈ h.sessions, K h.store c

variable {K : σ → Session ρ Q R α → Prop}

theorem Survives.step (survives : Survives program answer K h m) (each : Each K h) :
    Each K (h.step program answer m) := by
  generalize made : h.step program answer m = h'
  have next : Next program answer h m h' := made ▸ next_step m
  cases next with
  | idle => exact each
  | started request =>
    intro c mem
    obtain old | new := List.mem_append.mp mem
    · exact each c old
    · rw [List.mem_singleton.mp new]
      exact survives.starts request rfl
  | stopped n =>
    intro c mem
    exact each c (List.mem_of_mem_eraseIdx mem)
  | went n d found =>
    intro c mem
    obtain ⟨i, there⟩ := List.mem_iff_getElem?.mp mem
    obtain ⟨rfl, rfl⟩ | ⟨other, old⟩ := Desk.getElem?_set_eq_some there
    · exact survives.goes _ d _ _ _ _ rfl found (each _ (List.mem_of_getElem? found))
    · have mem' : c ∈ h.sessions.eraseIdx n := List.mem_eraseIdx_iff_getElem?.mpr ⟨i, other, old⟩
      exact survives.spares n d _ _ _ _ rfl found c mem' (each c (List.mem_of_getElem? old))

/-- A relation between any two sessions. -/
def Pairs (P : Session ρ Q R α → Session ρ Q R α → Prop) (h : Site ρ σ Q R α) : Prop :=
  ∀ (i j : Nat) (c c' : Session ρ Q R α), i ≠ j → h.sessions[i]? = some c →
    h.sessions[j]? = some c' → P c c'

/-- A relation between two sessions survives a move if it survives, for each other session, what
the move does to the one that it puts on. -/
theorem Pairs.step {P : Session ρ Q R α → Session ρ Q R α → Prop} (pairs : Pairs P h)
    (symm : ∀ c c', P c c' → P c' c)
    (starts : ∀ request, m = .start request → ∀ c ∈ h.sessions, P ⟨request, [], program request⟩ c)
    (goes : ∀ n d request t q k, m = .go n d → h.sessions[n]? = some ⟨request, t, ask q k⟩ →
      ∀ c ∈ h.sessions.eraseIdx n, P ⟨request, t, ask q k⟩ c →
        P ⟨request, t ++ [⟨q, (answer d q h.store).1⟩], k (answer d q h.store).1⟩ c) :
    Pairs P (h.step program answer m) := by
  generalize made : h.step program answer m = h'
  have next : Next program answer h m h' := made ▸ next_step m
  cases next with
  | idle => exact pairs
  | started request =>
    intro i j c c' other there there'
    obtain old | ⟨rfl, rfl⟩ := Desk.getElem?_concat_eq_some there
    · obtain old' | ⟨rfl, rfl⟩ := Desk.getElem?_concat_eq_some there'
      · exact pairs i j c c' other old old'
      · exact symm _ _ (starts request rfl c (List.mem_of_getElem? old))
    · obtain old' | ⟨rfl, rfl⟩ := Desk.getElem?_concat_eq_some there'
      · exact starts request rfl c' (List.mem_of_getElem? old')
      · exact absurd rfl other
  | stopped n =>
    intro i j c c' other there there'
    have there : (h.sessions.eraseIdx n)[i]? = some c := there
    have there' : (h.sessions.eraseIdx n)[j]? = some c' := there'
    rw [List.getElem?_eraseIdx] at there there'
    split at there <;> split at there'
    · exact pairs i j c c' other there there'
    · exact pairs i (j + 1) c c' (by omega) there there'
    · exact pairs (i + 1) j c c' (by omega) there there'
    · exact pairs (i + 1) (j + 1) c c' (by omega) there there'
  | went n d found =>
    have each := fun (i : Nat) c (other : i ≠ n) (there : h.sessions[i]? = some c) =>
      goes n d _ _ _ _ rfl found c (List.mem_eraseIdx_iff_getElem?.mpr ⟨i, other, there⟩)
        (pairs n i _ c (Ne.symm other) found there)
    intro i j c c' other there there'
    obtain ⟨rfl, rfl⟩ | ⟨away, old⟩ := Desk.getElem?_set_eq_some there
    · obtain ⟨rfl, rfl⟩ | ⟨away', old'⟩ := Desk.getElem?_set_eq_some there'
      · exact absurd rfl other
      · exact each j c' away' old'
    · obtain ⟨rfl, rfl⟩ | ⟨away', old'⟩ := Desk.getElem?_set_eq_some there'
      · exact symm _ _ (each i c away old)
      · exact pairs i j c c' other old old'

/-- A condition on the store that every question keeps which the dialogues ask. -/
theorem store_exec {S : Q → Prop} {A : α → Prop} {I : σ → Prop} (start : I h.store)
    (sessions : ∀ c ∈ h.sessions, Within S A c.rest)
    (programs : ∀ request, Within S A (program request))
    (keeps : ∀ q, S q → ∀ s d, I s → I (answer d q s).2) :
    I (Run.exec (step program answer) h moves).store := by
  refine (Run.preserves (I := fun h : Site ρ σ Q R α =>
    I h.store ∧ ∀ c ∈ h.sessions, Within S A c.rest) ⟨start, sessions⟩ ?_ moves).1
  rintro h m ⟨store, within⟩
  generalize made : h.step program answer m = h'
  have next : Next program answer h m h' := made ▸ next_step m
  cases next with
  | idle => exact ⟨store, within⟩
  | started request =>
    refine ⟨store, List.forall_mem_append.mpr ⟨within, ?_⟩⟩
    exact List.forall_mem_singleton.mpr (programs request)
  | stopped n => exact ⟨store, fun c mem => within c (List.mem_of_mem_eraseIdx mem)⟩
  | went n d found =>
    have asks := within _ (List.mem_of_getElem? found)
    refine ⟨keeps _ asks.1 _ d store, fun c mem => ?_⟩
    obtain ⟨i, there⟩ := List.mem_iff_getElem?.mp mem
    obtain ⟨rfl, rfl⟩ | ⟨-, old⟩ := Desk.getElem?_set_eq_some there
    · exact asks.2 _
    · exact within c (List.mem_of_getElem? old)

end Site

end Corvus.Dialogue
