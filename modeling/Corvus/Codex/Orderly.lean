import Corvus.Codex.Looking
import Corvus.Library.Site

/-!
# Calls that keep out of each other's way

While no call changes the directory beside another one that is engaged with it, each call finds the
directory as if it were alone from its first look on. Then what it verifies stays as it is: a
package that has been served is never touched again.
-/

namespace Corvus.Codex

open FileTree Dialogue Procedure

abbrev Call := Session Unit Port Port.Answer (Except Failure String)

abbrev Hall := Site Unit Disk Port Port.Answer (Except Failure String)

namespace Installer

variable (I : Installer)

/-- Calls of `install` by any number of processes, any of which may be stopped. -/
def step (h : Hall) (m : Move Unit Draw) : Hall :=
  Site.step (fun _ => I.install.run) answer h m

end Installer

/-- A question with the answer that the disk gives it. -/
abbrev put (d : Draw) (q : Port) (s : Disk) : Exchange Port Port.Answer := ⟨q, (answer d q s).1⟩

/-- The look at the directory, or the attempt to make it. -/
def engages : Exchange Port Port.Answer → Bool
  | ⟨.exists, there⟩ => there
  | ⟨.makeDir path, _⟩ => path = []
  | _ => false

/-- The directory has been changed. -/
def changes : Exchange Port Port.Answer → Bool
  | ⟨.makeDir _, made⟩ => made = .created
  | ⟨.create _, number⟩ => number.isSome
  | ⟨.write .., _⟩ => true
  | ⟨.chmod .., changed⟩ => changed
  | ⟨.unlink _, removed⟩ | ⟨.rmdir _, removed⟩ => removed
  | _ => false

/-- A call that has looked at the directory and has not ended. -/
def Engaged (c : Call) : Prop := c.rest.pending.isSome = true ∧ c.transcript.any engages = true

instance (c : Call) : Decidable (Engaged c) := inferInstanceAs (Decidable (_ ∧ _))

/-- A call that has changed the directory and has not ended. -/
def Working (c : Call) : Prop := c.rest.pending.isSome = true ∧ c.transcript.any changes = true

instance (c : Call) : Decidable (Working c) := inferInstanceAs (Decidable (_ ∧ _))

namespace Installer

variable (I : Installer)

/-- A call changes the directory only while no other is engaged with it, and looks at it only while
no other is working on it; and of a whole package that the call has not made itself the command
answers as it should. -/
structure Considerate (h : Hall) (n : Nat) (c : Call) (d : Draw) (q : Port) : Prop where
  alone : changes (put d q h.store) = true → ∀ other ∈ h.sessions.eraseIdx n, ¬ Engaged other
  late : engages (put d q h.store) = true → ∀ other ∈ h.sessions.eraseIdx n, ¬ Working other
  accepts : q = .runVersion → I.Whole h.store → ¬ Working c → Accepts d

instance (h : Hall) (n : Nat) (c : Call) (d : Draw) (q : Port) :
    Decidable (I.Considerate h n c d q) :=
  decidable_of_iff (_ ∧ _ ∧ _) ⟨fun ⟨alone, late, accepts⟩ => ⟨alone, late, accepts⟩,
    fun considerate => ⟨considerate.alone, considerate.late, considerate.accepts⟩⟩

def Orderly (h : Hall) : Move Unit Draw → Prop
  | .go n d => ∀ c ∈ h.sessions[n]?, ∀ q ∈ c.rest.pending, I.Considerate h n c d q
  | _ => True

instance (h : Hall) : (m : Move Unit Draw) → Decidable (I.Orderly h m)
  | .go n d => inferInstanceAs
      (Decidable (∀ c ∈ h.sessions[n]?, ∀ q ∈ c.rest.pending, I.Considerate h n c d q))
  | .start _ | .stop _ => inferInstanceAs (Decidable True)

end Installer

/-! ## Each call -/

/-- What changes nothing leaves the disk as it is. -/
theorem answer_unchanged {d : Draw} {q : Port} {s : Disk}
    (unchanged : ¬ changes ⟨q, (answer d q s).1⟩ = true) : (answer d q s).2 = s := by
  cases q with
  | makeDir path =>
    rw [answer] at unchanged ⊢
    split at unchanged
    · exact absurd rfl unchanged
    · next taken =>
      rw [dif_neg taken]
      split <;> rfl
  | create path =>
    rw [answer] at unchanged ⊢
    split at unchanged
    · exact absurd rfl unchanged
    · next taken => rw [dif_neg taken]
  | write => exact absurd rfl unchanged
  | chmod path executable =>
    rw [answer] at unchanged ⊢
    cases found : s.tree.find path with
    | none => rfl
    | some node =>
      rw [found] at unchanged
      exact absurd rfl unchanged
  | unlink path =>
    rw [answer] at unchanged ⊢
    split at unchanged
    · exact absurd rfl unchanged
    · next kept => rw [dif_neg kept]
  | rmdir path =>
    rw [answer] at unchanged ⊢
    split at unchanged
    · exact absurd rfl unchanged
    · next kept => rw [dif_neg kept]
  | _ => rfl

theorem not_changes_of_unwritten {q : Port} {r : q.Answer} (reads : q.writes = false) :
    changes ⟨q, r⟩ = false := by
  cases q with
  | makeDir | create | write | chmod | unlink | rmdir => exact absurd reads.symm Bool.false_ne_true
  | _ => rfl

/-- A draw matters only where something is awaited. -/
theorem answer_draw {d d' : Draw} {q : Port} {s : Disk} (same : d.download = d'.download)
    (other : q ≠ .runVersion) : answer d q s = answer d' q s := by
  cases q with
  | runVersion => exact absurd rfl other
  | download => rw [answer, answer, same]
  | _ => rfl

namespace Installer

variable (I : Installer) {s : Disk} {c : Call}

/-- Nothing is served that is not whole. -/
def Serves (x : Except Failure String) (s : Disk) : Prop := ∀ service, x = .ok service → I.Whole s

/-- What is left of a call serves nothing that is not whole, if it is alone with the disk. -/
def Ensures (s : Disk) (p : Dialogue Port Port.Answer (Except Failure String)) : Prop :=
  Holds answer (Alone (fun _ => True) fun _ => True) p I.Serves s

/-- What is left of a call changes nothing, if the command does not answer otherwise than it
should. -/
def Spares (s : Disk) (p : Dialogue Port Port.Answer (Except Failure String)) : Prop :=
  Holds answer (Untouched Accepts) p (fun _ _ => True) s

theorem holds_any {α : Type} (p : Program α) (s : Disk) :
    Holds answer (Alone (fun _ : Draw => True) fun _ => True) p.run (fun _ _ => True) s :=
  holds_alone_of_kept (fun _ _ _ _ => trivial) trivial

theorem alone_verifiedService {D : Draw → Prop} (s : Disk) :
    Holds answer (Alone D fun _ => True) I.verifiedService.run
      (fun x t => t = s ∧ I.Verified D s x) s :=
  (I.holds_verifiedService s).weaken (fun _ _ _ later => later) (fun _ _ _ => trivial)
    (fun _ drawn => drawn) fun _ _ _ _ => trivial

theorem ensures_verifiedService (s : Disk) : I.Ensures s I.verifiedService.run := by
  refine (I.alone_verifiedService s).mono ?_
  rintro x t ⟨rfl, verified⟩
  exact verified.whole

theorem spares_verifiedService (whole : I.Whole s)
    (rest : Except Failure String → Program String)
    (ends : ∀ x, x ≠ .error .install → Spares s (rest x).run) :
    Spares s (attempt I.verifiedService >>= rest).run := by
  refine holds_attempt (I.holds_verifiedService s) ?_
  rintro x t ⟨rfl, verified⟩
  exact ends x (verified.accepted whole fun _ accepts => accepts)

theorem ensures_build (s : Disk) : I.Ensures s I.build.run := by
  intro t _ _ d _
  refine ⟨trivial, ?_⟩
  show I.Ensures t (ExceptT.run (match d.download with
    | .error failure => throw failure
    | .ok content => do
        settle (require (I.admits content) .install)
        I.extract (I.unpack content)
        I.verifiedService))
  cases d.download with
  | error failure => exact fun _ same => absurd same error_ne_ok
  | ok content =>
    refine holds_bind (holds_any _ t) (fun _ u _ => ?_) fun _ _ _ _ same => absurd same error_ne_ok
    refine holds_bind (holds_any _ u) (fun _ v _ => ?_) fun _ _ _ _ same => absurd same error_ne_ok
    exact I.ensures_verifiedService v

theorem ensures_made (made : Made) (s : Disk) : I.Ensures s (ExceptT.run (match made with
    | .missing => throw .install
    | .refused => I.verifiedService
    | .created => do
        match ← attempt I.build with
        | .ok service => return service
        | .error failure => do
            rmtree true I.depth []
            throw failure)) := by
  cases made with
  | missing => exact fun _ same => absurd same error_ne_ok
  | refused => exact I.ensures_verifiedService s
  | created =>
    refine holds_attempt (I.ensures_build s) fun x t ends => ?_
    cases x with
    | ok service => exact ends
    | error failure =>
      refine holds_bind (holds_any _ t) (fun _ u _ => ?_) ?_
      swap
      · exact fun _ _ _ _ same => absurd same error_ne_ok
      exact fun _ same => absurd same error_ne_ok

theorem ensures_create (s : Disk) : I.Ensures s I.create.run := by
  intro t _ _ d _
  exact ⟨trivial, I.ensures_made _ _⟩

theorem ensures_found (s : Disk) : I.Ensures s (ExceptT.run (do
    match ← attempt I.verifiedService with
    | .ok service => return service
    | .error .cancelled => throw .cancelled
    | .error .install => do
        I.removePlainManagedTree
        I.create)) := by
  refine holds_attempt (I.ensures_verifiedService s) fun x t ends => ?_
  cases x with
  | ok service => exact ends
  | error failure =>
    cases failure with
    | cancelled => exact fun _ same => absurd same error_ne_ok
    | install =>
      refine holds_bind (holds_any _ t) (fun _ u _ => ?_) ?_
      swap
      · exact fun _ _ _ _ same => absurd same error_ne_ok
      exact I.ensures_create u

theorem spares_found (whole : I.Whole s) : Spares s (ExceptT.run (do
    match ← attempt I.verifiedService with
    | .ok service => return service
    | .error .cancelled => throw .cancelled
    | .error .install => do
        I.removePlainManagedTree
        I.create)) := by
  refine I.spares_verifiedService whole _ fun x other => ?_
  cases x with
  | ok service => trivial
  | error failure =>
    cases failure with
    | cancelled => trivial
    | install => exact absurd rfl other

/-- How far a call has come that has not ended before its last question. -/
inductive Stage (s : Disk) (c : Call) : Prop
  | fresh (transcript : c.transcript = []) (rest : c.rest = I.install.run)
  | absent (transcript : c.transcript = [⟨.exists, false⟩]) (rest : c.rest = I.create.run)
  | engaged (engaged : c.transcript.any engages = true) (ensures : I.Ensures s c.rest)
      (spares : ¬ c.transcript.any changes = true → I.Whole s → Spares s c.rest)

/-- A call has ended or is at some stage. -/
def Keeps (s : Disk) (c : Call) : Prop := c.rest.pending = none ∨ I.Stage s c

variable {I} {h : Hall} {n : Nat} {d : Draw} {q : Port}
  {k : q.Answer → Dialogue Port Port.Answer (Except Failure String)}
  {t : List (Exchange Port Port.Answer)}

theorem any_concat {f : Exchange Port Port.Answer → Bool} {x : Exchange Port Port.Answer} :
    (t ++ [x]).any f = (t.any f || f x) := by
  rw [List.any_append, List.any_cons, List.any_nil, Bool.or_false]

/-- A call that has asked the first question. -/
theorem stage_entered {there : Bool} (s : Disk) :
    I.Stage s ⟨(), [⟨.exists, there⟩], ExceptT.run (if there = true then do
      match ← attempt I.verifiedService with
      | .ok service => return service
      | .error .cancelled => throw .cancelled
      | .error .install => do
          I.removePlainManagedTree
          I.create
      else I.create)⟩ := by
  cases there with
  | false => exact .absent rfl rfl
  | true => exact .engaged rfl (I.ensures_found s) fun _ => I.spares_found

/-- A call that has tried to make the directory. -/
theorem stage_made {made : Made} (s : Disk) :
    I.Stage s ⟨(), [⟨.exists, false⟩, ⟨.makeDir [], made⟩], ExceptT.run (match made with
      | .missing => throw .install
      | .refused => I.verifiedService
      | .created => do
          match ← attempt I.build with
          | .ok service => return service
          | .error failure => do
              rmtree true I.depth []
              throw failure)⟩ := by
  refine .engaged rfl (I.ensures_made made s) fun unchanged whole => ?_
  cases made with
  | created => exact absurd rfl unchanged
  | missing => trivial
  | refused =>
    exact Holds.mono (I.holds_verifiedService s) fun _ _ _ => trivial

/-- A call that is put on keeps to a stage. -/
theorem Stage.goes (stage : I.Stage h.store ⟨(), t, ask q k⟩)
    (considerate : I.Considerate h n ⟨(), t, ask q k⟩ d q) :
    I.Stage (answer d q h.store).2
      ⟨(), t ++ [put d q h.store], k (answer d q h.store).1⟩ := by
  cases stage with
  | fresh transcript rest =>
    cases rest
    cases transcript
    exact stage_entered _
  | absent transcript rest =>
    cases rest
    cases transcript
    exact stage_made _
  | engaged engaged ensures spares =>
    have engaged' : (t ++ [put d q h.store]).any engages = true := by
      rw [any_concat, engaged, Bool.true_or]
    refine .engaged engaged' (holds_alone_ask.mp ensures d trivial).2 ?_
    intro unchanged whole
    rw [any_concat, Bool.or_eq_true, not_or] at unchanged
    obtain ⟨idle, unchanged⟩ := unchanged
    rw [answer_unchanged unchanged] at whole ⊢
    have spared := spares idle whole
    by_cases runs : q = .runVersion
    · have accepts := considerate.accepts runs whole fun working => idle working.2
      have later := (spared h.store rfl trivial d accepts).2
      rw [answer_unchanged unchanged] at later
      exact later
    · have same : answer d q h.store = answer ⟨d.download, .ok true⟩ q h.store :=
        answer_draw rfl runs
      have later := (spared h.store rfl trivial ⟨d.download, .ok true⟩ (.inl rfl)).2
      rw [← same, answer_unchanged unchanged] at later
      exact later

/-- A call does not notice what is done by one that is considerate of it. -/
theorem Keeps.spared {c other : Call} (keeps : I.Keeps h.store other)
    (considerate : I.Considerate h n c d q) (mem : other ∈ h.sessions.eraseIdx n) :
    I.Keeps (answer d q h.store).2 other := by
  obtain ended | stage := keeps
  · exact .inl ended
  cases stage with
  | fresh transcript rest => exact .inr (.fresh transcript rest)
  | absent transcript rest => exact .inr (.absent transcript rest)
  | engaged engaged ensures spares =>
    cases pending : other.rest.pending with
    | none => exact .inl pending
    | some q' =>
      have live : other.rest.pending.isSome = true := by rw [pending]; rfl
      have unchanged : ¬ changes (put d q h.store) = true :=
        fun changed => considerate.alone changed other mem ⟨live, engaged⟩
      rw [answer_unchanged unchanged]
      exact .inr (.engaged engaged ensures spares)

/-! ## All calls -/

/-- Neither of two calls has changed the directory while the other is engaged with it. -/
def Apart (c c' : Call) : Prop := ¬ (Working c ∧ Engaged c') ∧ ¬ (Working c' ∧ Engaged c)

/-- Calls stay apart when one of them is considerate of the other. -/
theorem apart_goes {other : Call} (apart : Apart ⟨(), t, ask q k⟩ other)
    (considerate : I.Considerate h n ⟨(), t, ask q k⟩ d q)
    (mem : other ∈ h.sessions.eraseIdx n) :
    Apart ⟨(), t ++ [put d q h.store], k (answer d q h.store).1⟩ other := by
  constructor
  · rintro ⟨⟨-, changed⟩, engaged⟩
    have changed : (t ++ [put d q h.store]).any changes = true := changed
    rw [any_concat, Bool.or_eq_true] at changed
    obtain before | now := changed
    · exact apart.1 ⟨⟨rfl, before⟩, engaged⟩
    · exact considerate.alone now other mem engaged
  · rintro ⟨working, ⟨-, engaged⟩⟩
    have engaged : (t ++ [put d q h.store]).any engages = true := engaged
    rw [any_concat, Bool.or_eq_true] at engaged
    obtain before | now := engaged
    · exact apart.2 ⟨working, ⟨rfl, before⟩⟩
    · exact considerate.late now other mem working

/-- Some call has returned a service. -/
def Returned (h : Hall) : Prop := ∃ c ∈ h.sessions, ∃ service, c.rest = .done (.ok service)

/-- What a call has returned. -/
def service : Dialogue Port Port.Answer (Except Failure String) → Option String
  | .done (.ok service) => some service
  | _ => none

theorem service_eq_some {p : Dialogue Port Port.Answer (Except Failure String)} {a : String} :
    service p = some a ↔ p = .done (.ok a) := by
  cases p with
  | ask q k =>
    exact ⟨fun same => absurd same.symm (Option.some_ne_none _), fun same => by cases same⟩
  | done x =>
    cases x with
    | ok a' =>
      exact ⟨fun same => by rw [Option.some.inj same],
        fun same => congrArg some (Except.ok.inj (Dialogue.done.inj same))⟩
    | error e =>
      exact ⟨fun same => absurd same.symm (Option.some_ne_none _),
        fun same => absurd (Dialogue.done.inj same) error_ne_ok⟩

instance (h : Hall) : Decidable (Returned h) :=
  decidable_of_iff (∃ c ∈ h.sessions, (service c.rest).isSome = true) <|
    exists_congr fun c => and_congr_right fun _ => by
      rw [Option.isSome_iff_exists]
      exact exists_congr fun a => service_eq_some

/-- The package is whole, and no call is working on it. -/
structure Settled (I : Installer) (h : Hall) : Prop where
  whole : I.Whole h.store
  idle : ∀ c ∈ h.sessions, ¬ Working c

structure Sound (I : Installer) (h : Hall) : Prop where
  keeps : Site.Each I.Keeps h
  apart : Site.Pairs Apart h
  settled : Returned h → Settled I h

theorem sound_opened (I : Installer) (s : Disk) : Sound I (Site.opened s) := by
  refine ⟨fun _ mem => absurd mem List.not_mem_nil, ?_, ?_⟩
  · intro i j c c' _ there
    exact absurd there.symm (Option.some_ne_none _)
  · rintro ⟨_, mem, -⟩
    exact absurd mem List.not_mem_nil

theorem find_root_of_whole (whole : I.Whole s) : s.tree.find [] = some .dir := by
  by_cases there : s.tree.find [] = some .dir
  · exact there
  · have failed : look I.inspect s = .error .install := by
      rw [look, inspect, verifyInstalledPackage]
      cases I.depth with
      | zero => rfl
      | succ depth =>
        have listed : (answer ⟨.error .cancelled, .ok true⟩ (.list []) s).1 = none := if_neg there
        change (serve answer _ (Dialogue.ask (Port.list []) _) s).1 = _
        rw [serve, listed]
        rfl
    exact absurd (failed.symm.trans whole.1) error_ne_ok

theorem answer_makeDir_root {made : FileTree.Node} (there : s.tree.find [] = some made) :
    (answer d (.makeDir []) s).1 = .refused := by
  have taken : ¬ s.tree.Free [] :=
    fun free => Option.some_ne_none _ (there.symm.trans free.fresh)
  have present : ¬ (s.tree.find [] = none ∧ s.tree.find ([] : Path).dropLast = none) :=
    fun absent => Option.some_ne_none _ (there.symm.trans absent.1)
  rw [answer, dif_neg taken, if_neg present]

/-- What a call does not change while the package is whole and no call is working on it. -/
theorem Keeps.rests {c : Call} (keeps : I.Keeps h.store c) (asks : c.rest.pending = some q)
    (whole : I.Whole h.store) (idle : ¬ Working c) (d : Draw) :
    ¬ changes ⟨q, (answer d q h.store).1⟩ = true := by
  obtain ended | stage := keeps
  · exact absurd (asks.symm.trans ended) (Option.some_ne_none _)
  cases stage with
  | fresh _ rest =>
    rw [rest] at asks
    cases Option.some.inj asks
    exact Bool.false_ne_true
  | absent _ rest =>
    rw [rest] at asks
    cases Option.some.inj asks
    have refused := answer_makeDir_root (d := d) (find_root_of_whole whole)
    intro changed
    have changed : decide ((answer d (.makeDir []) h.store).1 = .created) = true := changed
    rw [refused] at changed
    exact Bool.false_ne_true changed
  | engaged engaged ensures spares =>
    obtain ⟨request, t, rest⟩ := c
    cases rest with
    | done x => exact absurd asks.symm (Option.some_ne_none _)
    | ask q' k =>
      cases Option.some.inj asks
      have spared := spares (fun changed => idle ⟨rfl, changed⟩) whole
      obtain ⟨⟨reads, -⟩, -⟩ := spared h.store rfl trivial ⟨.error .cancelled, .ok true⟩ (.inl rfl)
      rw [not_changes_of_unwritten reads]
      exact Bool.false_ne_true

/-- Once the package is whole and no call is working on it, it stays so and is not changed. -/
theorem Settled.step {m : Move Unit Draw} (settled : Settled I h)
    (keeps : Site.Each I.Keeps h) :
    (I.step h m).store = h.store ∧ Settled I (I.step h m) := by
  have next : Site.Next (fun _ => I.install.run) answer h m (I.step h m) := Site.next_step m
  generalize I.step h m = h' at next ⊢
  cases next with
  | idle => exact ⟨rfl, settled⟩
  | started request =>
    refine ⟨rfl, settled.whole, List.forall_mem_append.mpr ⟨settled.idle, ?_⟩⟩
    refine List.forall_mem_singleton.mpr ?_
    rintro ⟨-, changed⟩
    exact Bool.false_ne_true changed
  | stopped i =>
    exact ⟨rfl, settled.whole, fun c mem => settled.idle c (List.mem_of_mem_eraseIdx mem)⟩
  | went i d found =>
    have mem := List.mem_of_getElem? found
    have unchanged := (keeps _ mem).rests rfl settled.whole (settled.idle _ mem) d
    have same := answer_unchanged unchanged
    refine ⟨same, ?_, ?_⟩
    · show I.Whole _
      rw [same]
      exact settled.whole
    · intro c there
      obtain ⟨j, there⟩ := List.mem_iff_getElem?.mp there
      obtain ⟨rfl, rfl⟩ | ⟨-, old⟩ := Desk.getElem?_set_eq_some there
      · rintro ⟨-, changed⟩
        rw [any_concat, Bool.or_eq_true] at changed
        obtain before | now := changed
        · exact settled.idle _ mem ⟨rfl, before⟩
        · exact unchanged now
      · exact settled.idle c (List.mem_of_getElem? old)

theorem install_pending (I : Installer) : I.install.run.pending = some .exists := rfl

/-- A service is returned of a whole package, and then no call is working on it. -/
theorem Sound.returns {m : Move Unit Draw} (sound : Sound I h) (orderly : I.Orderly h m)
    (returned : Returned (I.step h m)) : Settled I (I.step h m) := by
  by_cases before : Returned h
  · exact ((sound.settled before).step sound.keeps).2
  have next : Site.Next (fun _ => I.install.run) answer h m (I.step h m) := Site.next_step m
  generalize I.step h m = h' at next returned ⊢
  obtain ⟨c, mem, service, ended⟩ := returned
  cases next with
  | idle => exact absurd ⟨c, mem, service, ended⟩ before
  | started request =>
    obtain old | new := List.mem_append.mp mem
    · exact absurd ⟨c, old, service, ended⟩ before
    · rw [List.mem_singleton.mp new] at ended
      have pending := I.install_pending
      rw [show I.install.run = _ from ended] at pending
      exact absurd pending.symm (Option.some_ne_none _)
  | stopped i => exact absurd ⟨c, List.mem_of_mem_eraseIdx mem, service, ended⟩ before
  | went i d found =>
    have asks := List.mem_of_getElem? found
    have considerate := orderly _ found _ rfl
    obtain ended' | stage := sound.keeps _ asks
    · exact absurd ended' (Option.some_ne_none _)
    have stage := stage.goes considerate
    obtain ⟨j, there⟩ := List.mem_iff_getElem?.mp mem
    obtain ⟨rfl, rfl⟩ | ⟨-, old⟩ := Desk.getElem?_set_eq_some there
    swap
    · exact absurd ⟨c, List.mem_of_getElem? old, service, ended⟩ before
    cases stage with
    | fresh transcript =>
      exact absurd transcript (List.append_ne_nil_of_right_ne_nil _ (List.cons_ne_nil _ _))
    | absent _ rest =>
      have pending : I.create.run.pending = some (.makeDir []) := rfl
      rw [← show _ = I.create.run from rest, ended] at pending
      exact absurd pending.symm (Option.some_ne_none _)
    | engaged engaged ensures =>
      dsimp only at ended ensures engaged
      rw [ended] at ensures
      refine ⟨ensures service rfl, fun other there working => ?_⟩
      obtain ⟨i, there⟩ := List.mem_iff_getElem?.mp there
      obtain ⟨rfl, rfl⟩ | ⟨away, old⟩ := Desk.getElem?_set_eq_some there
      · have live := working.1
        dsimp only at live
        rw [ended] at live
        exact Bool.false_ne_true live
      · rw [any_concat, Bool.or_eq_true] at engaged
        obtain before | now := engaged
        · exact (sound.apart _ i _ other (Ne.symm away) found old).2 ⟨working, rfl, before⟩
        · exact considerate.late now other
            (List.mem_eraseIdx_iff_getElem?.mpr ⟨i, away, old⟩) working

/-- An orderly move keeps all calls sound. -/
theorem Sound.step {m : Move Unit Draw} (sound : Sound I h) (orderly : I.Orderly h m) :
    Sound I (I.step h m) := by
  refine ⟨?_, ?_, sound.returns orderly⟩
  · refine Site.Survives.step ⟨?_, ?_, ?_⟩ sound.keeps
    · intro request _
      exact .inr (.fresh rfl rfl)
    · rintro n d request t q k rfl found (ended | stage)
      · exact absurd ended (Option.some_ne_none _)
      · exact .inr (stage.goes (orderly _ found _ rfl))
    · rintro n d request t q k rfl found c mem keeps
      exact keeps.spared (orderly _ found _ rfl) mem
  · refine sound.apart.step (fun c c' apart => ⟨apart.2, apart.1⟩) ?_ ?_
    · intro request _ c mem
      exact ⟨fun both => Bool.false_ne_true both.1.2, fun both => Bool.false_ne_true both.2.2⟩
    · rintro n d request t q k rfl found c mem apart
      exact apart_goes apart (orderly _ found _ rfl) mem

/-- Along an orderly run, nothing of the directory is changed once a service has been returned. -/
theorem store_of_returned {moves before after : List (Move Unit Draw)} {s : Disk}
    (orderly : Run.Along I.step I.Orderly (Site.opened s) moves)
    (within : before ++ after <+: moves)
    (returned : Returned (Run.exec I.step (Site.opened s) before)) :
    I.Whole (Run.exec I.step (Site.opened s) before).store ∧
      (Run.exec I.step (Site.opened s) (before ++ after)).store =
        (Run.exec I.step (Site.opened s) before).store := by
  obtain ⟨rest, rfl⟩ := within
  obtain ⟨first, -⟩ := Run.along_append.mp orderly
  obtain ⟨first, later⟩ := Run.along_append.mp first
  have sound := first.preserves (sound_opened I s) fun h m sound orderly => sound.step orderly
  have settled := sound.settled returned
  refine ⟨settled.whole, ?_⟩
  rw [Run.exec_append]
  generalize Run.exec I.step (Site.opened s) before = h at later sound settled ⊢
  refine (later.preserves (I := fun h' => Sound I h' ∧ Settled I h' ∧ h'.store = h.store)
    ⟨sound, settled, rfl⟩ ?_).2.2
  rintro h' m ⟨sound, settled, same⟩ orderly
  obtain ⟨unchanged, settled⟩ := settled.step sound.keeps
  exact ⟨sound.step orderly, settled, unchanged.trans same⟩

end Installer

end Corvus.Codex
