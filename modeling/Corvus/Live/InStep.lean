import Corvus.Live.Activation

/-!
# The saved and the running route stay in step

What is saved is what the other writers have saved, with the entries of the clients that the
runner has taken in their place. This takes that nobody saves between what an activation has
read and its own save, that it is not cancelled while it saves, and that a runner which does not
take a client leaves something to restore.
-/

namespace Corvus.Live

namespace Saved

/-- The entry of a client takes its place and is the active one. -/
def take (saved : Saved) (client : Client) : Saved where
  active := some client.builtFrom.name
  providers := saved.providers.map fun item =>
    if item.name = client.builtFrom.name then client.builtFrom else item

end Saved

/-- An event in the eyes of those who save: an activation that ends changes nothing more. -/
def Event.apply (saved : Saved) : Event → Saved
  | wrote saved' => saved'
  | took client => saved.take client
  | ended _ _ => saved

/-- What has to be saved after the events. -/
def expected (start : Saved) (log : List Event) : Saved := log.foldl Event.apply start

/-- Whether a client of a provider has been taken. -/
def Event.Takes (name : String) : Event → Prop
  | took client => client.builtFrom.name = name
  | _ => False

def Event.IsWrite : Event → Prop
  | wrote _ => True
  | _ => False

structure InStep (start : Saved) (s : Controller) : Prop where
  saved : s.saved = expected start s.log
  running : s.running.map (·.builtFrom) = s.saved.selected
  kept : ∀ before written after, s.log = before ++ .wrote written :: after →
    (∀ event ∈ after, ¬ event.IsWrite) → ∀ entry ∈ written.providers,
    (∀ event ∈ after, ¬ event.Takes entry.name) → entry ∈ s.saved.providers

/-! ## What has to hold of a step -/

/-- The activation waits for a save. -/
def Call.saves : Call → Prop
  | .saving _ _ _ | .restoring _ _ => True
  | _ => False

instance : DecidablePred Call.saves := fun call => by
  cases call <;> dsimp only [Call.saves] <;> infer_instance

/-- A provider that raises when it is taken leaves what was there before to be restored. -/
def Restorable (s : Controller) (a : Activation) (previousActive : Option String) : Prop :=
  s.touched = false ∧
    ∃ name ∈ previousActive, name ≠ "" ∧ name ∈ a.providers.map (·.name)

/-- Another writer keeps the active entry, and does not come in between a save of an activation
and what it saves next. -/
def Tolerable (s : Controller) (written : Saved) : Prop :=
  written.selected = s.saved.selected ∧
    match s.call, s.handed with
    | some (.saving _ client _), some (_, some _) =>
        written.take client = written
    | some (.restoring _ _), some (_, none) => False
    | _, _ => True

def Orderly (s : Controller) : Move → Prop
  | .enter _ | .orphan _ => True
  | .resume d =>
      match s.call, s.handed with
      | some (.saving a _ previousActive), some (_, some _) =>
          d.set ≠ .error .base ∧
            (d.set = .error .exception → Restorable s a previousActive)
      | _, _ => True
  | .thread =>
      match s.call, s.handed with
      | some (.saving a _ previousActive), some (_, none) =>
          s.saved = ⟨previousActive, a.providers⟩ ∧ a.request.providerName ≠ ""
      | _, _ => True
  | .cancel => ∀ call ∈ s.call, ¬ call.saves
  | .write providers activeProvider =>
      match s.saved.save providers activeProvider with
      | .ok written => Tolerable s written
      | .error _ => True

instance (s : Controller) (a : Activation) (previousActive : Option String) :
    Decidable (Restorable s a previousActive) := by
  unfold Restorable
  infer_instance

instance (s : Controller) (written : Saved) : Decidable (Tolerable s written) := by
  unfold Tolerable
  split <;> infer_instance

instance (s : Controller) (move : Move) : Decidable (Orderly s move) := by
  cases move with
  | write providers activeProvider =>
    dsimp only [Orderly]
    split <;> infer_instance
  | resume d =>
    dsimp only [Orderly]
    split <;> infer_instance
  | thread =>
    dsimp only [Orderly]
    split <;> infer_instance
  | _ =>
    dsimp only [Orderly]
    infer_instance

/-! ## What is saved -/

section Saving

variable {saved start : Saved} {client : Client} {a : Activation} {log after : List Event}
  {event : Event} {providers : List ModelProvider} {name : String}

theorem save_named (there : name ∈ providers.map (·.name)) (named : name ≠ "") :
    saved.save providers (some name) = .ok ⟨some name, providers⟩ := by
  have known : ∀ n ∈ some name, n ∈ providers.map (·.name) := by
    intro n same
    rw [← Option.some.inj same]
    exact there
  refine bind_eq_ok.mpr ⟨(), require_of known, ?_⟩
  show Except.ok (Saved.mk ((some name).filter (· ≠ "")) providers) = _
  rw [Option.filter_some, if_pos (decide_eq_true named)]

/-- The candidate of an activation is in the place of its entry. -/
structure Activation.Fits (a : Activation) : Prop where
  name : a.candidate.name = a.request.providerName
  there : ∃ item ∈ a.providers, item.name = a.request.providerName

namespace Activation.Fits

variable (fits : a.Fits)

include fits

theorem updated_eq (previousActive : Option String) :
    ⟨some a.request.providerName, a.updated⟩ =
      Saved.take ⟨previousActive, a.providers⟩ ⟨a.candidate⟩ := by
  rw [Saved.take, fits.name]
  rfl

theorem name_updated : a.request.providerName ∈ a.updated.map (·.name) := by
  obtain ⟨item, mem, named⟩ := fits.there
  refine List.mem_map.mpr ⟨a.candidate, List.mem_map.mpr ⟨item, mem, ?_⟩, fits.name⟩
  rw [if_pos named]

theorem find_updated : a.updated.find? (·.name = a.request.providerName) = some a.candidate := by
  obtain ⟨item, mem, named⟩ := fits.there
  rw [Activation.updated]
  generalize a.providers = providers at mem
  induction providers with
  | nil => exact absurd mem List.not_mem_nil
  | cons first rest ih =>
    rw [List.map_cons]
    by_cases here : first.name = a.request.providerName
    · rw [if_pos here]
      exact List.find?_cons_of_pos (decide_eq_true fits.name)
    · rw [if_neg here, List.find?_cons_of_neg (by simpa using here)]
      obtain rfl | later := List.mem_cons.mp mem
      · exact absurd named here
      · exact ih later

theorem selected_updated :
    Saved.selected ⟨some a.request.providerName, a.updated⟩ = some a.candidate := by
  simp only [Saved.selected, Option.bind_some]
  rw [fits.find_updated, Option.some_or]

end Activation.Fits

theorem fits_of_candidateOf {C : Catalog} {request : Request} {candidate : ModelProvider}
    (made : candidateOf C request providers = .ok candidate) :
    (⟨request, providers, candidate⟩ : Activation).Fits := by
  simp only [candidateOf, bind_eq_ok, present_eq_ok, require_eq_ok, exists_const] at made
  obtain ⟨target, found, -, -, -, -, -, -, same⟩ := made
  have named : target.name = request.providerName := by simpa using List.find?_some found
  have same := Except.ok.inj same
  exact ⟨by rw [← same]; exact named, target, List.mem_of_find?_eq_some found, named⟩

/-! ## What has to be saved -/

theorem expected_append (more : List Event) :
    expected start (log ++ more) = expected (expected start log) more :=
  List.foldl_append

theorem mem_apply {entry : ModelProvider} (mem : entry ∈ saved.providers)
    (unwritten : ¬ event.IsWrite) (untaken : ¬ event.Takes entry.name) :
    entry ∈ (event.apply saved).providers := by
  cases event with
  | wrote saved' => exact absurd trivial unwritten
  | took client =>
    refine List.mem_map.mpr ⟨entry, mem, if_neg fun same => ?_⟩
    exact untaken same.symm
  | ended request result => exact mem

theorem mem_expected {entry : ModelProvider} (mem : entry ∈ saved.providers)
    (unwritten : ∀ event ∈ after, ¬ event.IsWrite)
    (untaken : ∀ event ∈ after, ¬ event.Takes entry.name) :
    entry ∈ (expected saved after).providers := by
  induction after generalizing saved with
  | nil => exact mem
  | cons event rest ih =>
    have first := mem_apply mem (unwritten event List.mem_cons_self)
      (untaken event List.mem_cons_self)
    exact ih first (fun event mem => unwritten event (List.mem_cons_of_mem _ mem))
      fun event mem => untaken event (List.mem_cons_of_mem _ mem)

end Saving

/-! ## Where an activation stands -/

/-- What is saved is what has to be, and its active entry is that of the running client. -/
structure Quiet (start : Saved) (s : Controller) : Prop where
  saved : s.saved = expected start s.log
  running : s.running.map (·.builtFrom) = s.saved.selected

/-- The data of an activation go together. -/
def Call.Fits : Call → Prop
  | .reading _ => True
  | .ready a | .building a => a.Fits
  | .checking a client | .naming a client | .saving a client _ =>
      a.Fits ∧ client = ⟨a.candidate⟩
  | .restoring _ _ => True

/-- The entry of the client is saved ahead of the event that it is taken. -/
structure Ahead (start : Saved) (s : Controller) (a : Activation) (client : Client)
    (previousActive : Option String) : Prop where
  saved : s.saved = (expected start s.log).take client
  selected : s.saved.selected = some client.builtFrom
  before : s.touched = false → expected start s.log = ⟨previousActive, a.providers⟩
  running : s.touched = false → s.running.map (·.builtFrom) = (expected start s.log).selected

/-- The stages of a save. -/
inductive Stage (start : Saved) (s : Controller) : Prop
  | idle (handed : s.handed = none) (waits : ∀ call ∈ s.call, ¬ call.saves)
      (quiet : Quiet start s)
  | toSave (a : Activation) (client : Client) (previousActive : Option String)
      (call : s.call = some (.saving a client previousActive))
      (handed : s.handed = some (⟨a.updated, some a.request.providerName⟩, none))
      (quiet : Quiet start s)
  | saved (a : Activation) (client : Client) (previousActive : Option String) (task : SaveTask)
      (call : s.call = some (.saving a client previousActive))
      (handed : s.handed = some (task, some (.ok ())))
      (ahead : Ahead start s a client previousActive)
  | toRestore (a : Activation) (name : String)
      (call : s.call = some (.restoring a (some name)))
      (handed : s.handed = some (⟨a.providers, some name⟩, none))
      (named : name ≠ "" ∧ name ∈ a.providers.map (·.name))
      (before : expected start s.log = ⟨some name, a.providers⟩)
      (running : s.running.map (·.builtFrom) = (expected start s.log).selected)
  | restored (a : Activation) (previousActive : Option String) (task : SaveTask)
      (call : s.call = some (.restoring a previousActive))
      (handed : s.handed = some (task, some (.ok ())))
      (quiet : Quiet start s)

structure Sound (start : Saved) (s : Controller) : Prop where
  orphans : s.orphans = []
  fits : ∀ call ∈ s.call, call.Fits
  stage : Stage start s

section Steps

variable {C : Catalog} {start : Saved} {s : Controller} {d : Draw} {request : Request}

theorem expected_ended (result : Except Raised LiveModelState) :
    expected start (s.log ++ [.ended request result]) = expected start s.log :=
  expected_append _

/-- An activation that ends quietly has let go of everything. -/
theorem Sound.ends (orphans : s.orphans = []) (quiet : Quiet start s)
    (result : Except Raised LiveModelState) : Sound start (s.ends request result) where
  orphans := orphans
  fits call mem := absurd mem (Option.not_mem_none _)
  stage := .idle rfl (fun call mem => absurd mem (Option.not_mem_none _)) {
    saved := by
      show s.saved = expected start (s.log ++ [.ended request result])
      rw [expected_ended]
      exact quiet.saved
    running := quiet.running }

theorem Sound.goes (orphans : s.orphans = []) (quiet : Quiet start s) {call : Call}
    (fits : call.Fits) (waits : ¬ call.saves) : Sound start (s.goes call) where
  orphans := orphans
  fits call' mem := by
    rw [← Option.some.inj mem]
    exact fits
  stage := by
    refine .idle rfl ?_ ⟨quiet.saved, quiet.running⟩
    intro call' mem
    rw [← Option.some.inj mem]
    exact waits

theorem Sound.proceeds (orphans : s.orphans = []) (quiet : Quiet start s) {α : Type}
    {x : Except Raised α} {next : α → Controller} (goes : ∀ a, x = .ok a → Sound start (next a)) :
    Sound start (s.proceeds request x next) := by
  cases x with
  | ok a => exact goes a rfl
  | error raised => exact Sound.ends orphans quiet (.error raised)

/-- An activation that does not save goes on quietly. -/
theorem Sound.asks (sound : Sound start s) (quiet : Quiet start s)
    (waits : ∀ call ∈ s.call, ¬ call.saves) : Sound start (s.resume C d) := by
  have orphans := sound.orphans
  rw [Controller.resume.eq_def]
  split
  · exact sound
  · refine Sound.proceeds orphans quiet fun candidate made => ?_
    exact Sound.goes orphans quiet (fits_of_candidateOf made) id
  · next a found =>
    refine Sound.proceeds orphans quiet fun _ _ => ?_
    exact Sound.goes orphans quiet (sound.fits _ found : a.Fits) id
  · next a found =>
    refine Sound.proceeds orphans quiet fun _ _ => ?_
    exact Sound.goes orphans quiet ⟨(sound.fits _ found : a.Fits), rfl⟩ id
  · next a client found =>
    refine Sound.proceeds orphans quiet fun _ _ => ?_
    exact Sound.goes orphans quiet (sound.fits _ found : a.Fits ∧ _) id
  · next a client found =>
    refine ⟨orphans, fun call mem => ?_, ?_⟩
    · rw [← Option.some.inj mem]
      exact (sound.fits _ found : a.Fits ∧ _)
    · exact .toSave a client s.saved.active rfl rfl ⟨quiet.saved, quiet.running⟩
  · next found => exact absurd trivial (waits _ found)
  · next found => exact absurd trivial (waits _ found)

/-- The runner takes a client whose entry is saved. -/
theorem Ahead.take {a : Activation} {client : Client} {previousActive : Option String}
    (ahead : Ahead start s a client previousActive) :
    Quiet start { s with running := some client, log := s.log ++ [Event.took client] } where
  saved := by
    show s.saved = expected start (s.log ++ [Event.took client])
    rw [expected_append]
    exact ahead.saved
  running := ahead.selected.symm

theorem Sound.resume (sound : Sound start s) (orderly : Orderly s (.resume d)) :
    Sound start (s.resume C d) := by
  have orphans := sound.orphans
  cases sound.stage with
  | idle handed waits quiet => exact sound.asks quiet waits
  | toSave a client previousActive call handed quiet =>
    rw [Controller.resume.eq_def, call]
    dsimp only
    rw [handed]
    exact sound
  | saved a client previousActive task call handed ahead =>
    simp only [Orderly, call, handed] at orderly
    obtain ⟨caught, restorable⟩ := orderly
    rw [Controller.resume.eq_def, call]
    dsimp only
    rw [handed]
    dsimp only
    split
    · apply Sound.ends
      · exact orphans
      · exact ⟨ahead.take.saved, ahead.take.running⟩
    · next raised =>
      obtain ⟨untouched, name, rfl, named⟩ := restorable raised
      refine ⟨orphans, fun call mem => ?_, ?_⟩
      · rw [← Option.some.inj mem]
        trivial
      · exact .toRestore a name rfl rfl named (ahead.before untouched) (ahead.running untouched)
    · next raised => exact absurd raised caught
  | toRestore a name call handed named before running =>
    rw [Controller.resume.eq_def, call]
    dsimp only
    rw [handed]
    exact sound
  | restored a previousActive task call handed quiet =>
    rw [Controller.resume.eq_def, call]
    dsimp only
    rw [handed]
    exact Sound.ends orphans quiet _

theorem Sound.runs (sound : Sound start s) (orderly : Orderly s .thread) :
    Sound start s.runs := by
  rw [Controller.runs.eq_def]
  cases sound.stage with
  | idle handed waits quiet =>
    rw [handed]
    exact sound
  | toSave a client previousActive call handed quiet =>
    simp only [Orderly, call, handed] at orderly
    obtain ⟨same, named⟩ := orderly
    obtain ⟨fits, rfl⟩ : a.Fits ∧ client = ⟨a.candidate⟩ := sound.fits _ call
    rw [handed]
    dsimp only
    rw [save_named fits.name_updated named]
    dsimp only
    refine ⟨sound.orphans, sound.fits, .saved a ⟨a.candidate⟩ previousActive _ call rfl ?_⟩
    have before : expected start s.log = ⟨previousActive, a.providers⟩ :=
      quiet.saved.symm.trans same
    exact
      { saved := by
          show _ = (expected start s.log).take _
          rw [before]
          exact fits.updated_eq previousActive
        selected := fits.selected_updated
        before := fun _ => before
        running := fun _ => by
          show _ = (expected start s.log).selected
          rw [← quiet.saved]
          exact quiet.running }
  | saved a client previousActive task call handed ahead =>
    rw [handed]
    exact sound
  | toRestore a name call handed named before running =>
    rw [handed]
    dsimp only
    rw [save_named named.2 named.1]
    dsimp only
    refine ⟨sound.orphans, sound.fits, .restored a (some name) _ call rfl ⟨before.symm, ?_⟩⟩
    show _ = Saved.selected ⟨some name, a.providers⟩
    rw [← before]
    exact running
  | restored a previousActive task call handed quiet =>
    rw [handed]
    exact sound

theorem Sound.cancel (sound : Sound start s) (orderly : Orderly s .cancel) :
    Sound start s.cancel := by
  rw [Controller.cancel.eq_def]
  split
  · exact sound
  · next call found =>
    have waits := orderly call found
    have saving : ∀ call', s.call = some call' → call'.saves → False := by
      intro call' same saves
      rw [found] at same
      rw [Option.some.inj same] at waits
      exact waits saves
    cases sound.stage with
    | idle handed _ quiet =>
      have none : s.orphans ++ s.pending = [] := by
        rw [sound.orphans, Controller.pending, handed]
        rfl
      apply Sound.ends
      · exact none
      · exact ⟨quiet.saved, quiet.running⟩
    | toSave a client previousActive call' => exact (saving _ call' trivial).elim
    | saved a client previousActive task call' => exact (saving _ call' trivial).elim
    | toRestore a name call' => exact (saving _ call' trivial).elim
    | restored a previousActive task call' => exact (saving _ call' trivial).elim

theorem Sound.write (sound : Sound start s) {providers : List ModelProvider}
    {activeProvider : Option String} (orderly : Orderly s (.write providers activeProvider)) :
    Sound start (s.write providers activeProvider) := by
  rw [Controller.write.eq_def]
  simp only [Orderly] at orderly
  split
  · next written saves =>
    rw [saves] at orderly
    obtain ⟨same, window⟩ := orderly
    have written_expected : expected start (s.log ++ [.wrote written]) = written :=
      expected_append _
    have quiet (quiet : Quiet start s) :
        Quiet start { s with
          saved := written, log := s.log ++ [.wrote written], touched := true } :=
      ⟨written_expected.symm, quiet.running.trans same.symm⟩
    refine ⟨sound.orphans, sound.fits, ?_⟩
    cases sound.stage with
    | idle handed waits still => exact .idle handed waits (quiet still)
    | toSave a client previousActive call handed still =>
      exact .toSave a client previousActive call handed (quiet still)
    | saved a client previousActive task call handed ahead =>
      simp only [call, handed] at window
      refine .saved a client previousActive task call handed ?_
      exact
        { saved := by
            show written = (expected start (s.log ++ [.wrote written])).take client
            rw [written_expected]
            exact window.symm
          selected := same.trans ahead.selected
          before := fun untouched => Bool.noConfusion untouched
          running := fun untouched => Bool.noConfusion untouched }
    | toRestore a name call handed named before running =>
      simp only [call, handed] at window
    | restored a previousActive task call handed still =>
      exact .restored a previousActive task call handed (quiet still)
  · exact sound

theorem Sound.step (sound : Sound start s) {move : Move} (orderly : Orderly s move) :
    Sound start (step C s move) := by
  cases move with
  | enter request =>
    show Sound start (if s.call.isNone then s.goes (.reading request) else s)
    split
    · next free =>
      have free := Option.isNone_iff_eq_none.mp free
      cases sound.stage with
      | idle handed waits quiet => exact Sound.goes sound.orphans quiet trivial id
      | toSave a client previousActive call =>
        exact absurd (free.symm.trans call).symm (Option.some_ne_none _)
      | saved a client previousActive task call =>
        exact absurd (free.symm.trans call).symm (Option.some_ne_none _)
      | toRestore a name call =>
        exact absurd (free.symm.trans call).symm (Option.some_ne_none _)
      | restored a previousActive task call =>
        exact absurd (free.symm.trans call).symm (Option.some_ne_none _)
    · exact sound
  | resume d => exact sound.resume orderly
  | thread => exact sound.runs orderly
  | orphan n =>
    show Sound start (s.runsOrphan n)
    rw [Controller.runsOrphan, sound.orphans]
    exact sound
  | cancel => exact sound.cancel orderly
  | write providers activeProvider => exact sound.write orderly

/-- A controller that no activation holds is in step. -/
theorem Sound.inStep (sound : Sound start s) (free : s.call = none) : InStep start s := by
  have quiet : Quiet start s := by
    cases sound.stage with
    | idle handed waits quiet => exact quiet
    | toSave a client previousActive call handed quiet => exact quiet
    | saved a client previousActive task call =>
      exact absurd (free.symm.trans call).symm (Option.some_ne_none _)
    | toRestore a name call =>
      exact absurd (free.symm.trans call).symm (Option.some_ne_none _)
    | restored a previousActive task call handed quiet => exact quiet
  refine ⟨quiet.saved, quiet.running, ?_⟩
  intro before written after split unwritten entry mem untaken
  rw [quiet.saved, split, ← List.singleton_append, ← List.append_assoc, expected_append,
    expected_append]
  exact mem_expected mem unwritten untaken

end Steps

namespace AddedMeanwhile

def provider (name : String) : ModelProvider where
  name := name
  kind := .ollama
  baseUrl := "http://localhost"
  model := "small"
  keyringService := none
  capabilities := ["text"]
  isLocal := true
  executable := none
  executableSha256 := none
  thinkingPreset := none
  reasoningEffort := none
  thinkingEnabled := none

/-- A catalog of one model, which thinks in one way. -/
def catalog : Catalog where
  models _ := [⟨"large", "Large", [⟨"smart", "Smart", some "smart", "default"⟩]⟩]
  settings _ _ _ := ⟨none, none⟩
  providerOptions _ := []

def start : Saved := ⟨some "first", [provider "first", provider "second"]⟩

def running : Option Client := some ⟨provider "first"⟩

def fine : Draw := ⟨.ok true, .ok true, .ok true, .ok (), .ok ()⟩

def request : Request := ⟨"second", "large", "smart"⟩

/-- From the answer of the configuration to the end. -/
def rest : List Move :=
  [.resume fine, .resume fine, .resume fine, .resume fine, .thread, .resume fine]

def undisturbed : List Move := .enter request :: .resume fine :: rest

/-- A third provider is added after the activation has read the providers. -/
def disturbed : List Move :=
  .enter request :: .resume fine ::
    .write [provider "first", provider "second", provider "third"] none :: rest

end AddedMeanwhile

end Corvus.Live
