import Corvus.Credentials.Service

/-!
# Verified models belong to the stored credential

The models that the service has for an owner are those that the provider has listed for the
credential that a call would use now, as long as no answer comes for a credential that has changed
meanwhile and none changes while models are kept under another spelling of the owner. What one
owner does never touches another.
-/

namespace Corvus.Credentials

open Run

variable {Payload : Type} {W : World Payload} {s : Service} {owner other : String}
  {p q : ProviderId} {i : Input Payload}

/-! ## The property -/

/-- An owner that `_account` accepts. -/
def Accepts (owner : String) : Prop :=
  ¬ ((Text.strip owner).isEmpty ∨ 512 < (Text.strip owner).length)

/-- Two spellings of one owner. -/
def SameOwner (owner other : String) : Prop := Text.strip owner = Text.strip other

/-- The models of an owner are those listed for the credential that is required now. -/
def Belongs (W : World Payload) (s : Service) (owner : String) (p : ProviderId) : Prop :=
  s.models owner p = [] ∨ ∃ credential, s.required W owner p true = .ok credential ∧
    ⟨p, credential, s.models owner p⟩ ∈ s.listings

/-- The owner that a call is for. -/
def Input.caller (s : Service) : Input Payload → Option String
  | .connect owner _ _ _ | .remove owner _ _ _ | .verify owner _ _ => some owner
  | .answered index _ => s.verifying[index]?.map (·.owner)

/-- A step of one owner leaves the credential and the models of the others. -/
def Separate (W : World Payload) (s : Service) (i : Input Payload) : Prop :=
  ∀ other, Accepts other → (∀ owner ∈ i.caller s, ¬ SameOwner owner other) → ∀ p,
    (s.step W i).required W other p true = s.required W other p true ∧
      (s.step W i).models other p = s.models other p

/-- In every state in which no verification waits, models belong to the stored credential, and
no step touches another owner. -/
structure Coherent (W : World Payload) (s : Service) (inputs : List (Input Payload)) : Prop where
  belongs : ∀ before, before <+: inputs →
    (exec (Service.step W) s before).verifying = [] → ∀ owner, Accepts owner → ∀ p,
      Belongs W (exec (Service.step W) s before) owner p
  separate : ∀ before i, before ++ [i] <+: inputs →
    Separate W (exec (Service.step W) s before) i

/-- A step that changes a credential finds no models under another spelling of the owner, and an
answer that names models comes while the credential it is for is still the one in use. -/
def Steady (W : World Payload) (s : Service) : Input Payload → Prop
  | .answered index payload => ∀ v ∈ s.verifying[index]?, ∀ found,
      payload.bind (W.modelIds v.provider) = some found → found ≠ [] →
        s.required W v.owner v.provider true = .ok v.credential
  | i => ∀ owner ∈ i.caller s, ∀ other, other ≠ owner → SameOwner owner other → ∀ p,
      (s.step W i).required W other p true = s.required W other p true ∨ s.models other p = []

/-! ## Accounts -/

theorem name_injective (same : p.name = q.name) : p = q := by
  cases p <;> cases q <;> first | rfl | exact absurd same (by decide)

/-- An account tells the owner and the provider. -/
theorem account_injective {key : String} (first : account owner p = some key)
    (second : account other q = some key) : SameOwner owner other ∧ p = q := by
  have form {o : String} {r : ProviderId} (known : account o r = some key) :
      key.toList = (Text.strip o).toList ++ ':' :: r.name.toList := by
    rw [account] at known
    split at known
    · exact nomatch known
    · rw [← Option.some.inj known, String.toList_append, String.toList_append, List.append_assoc]
      rfl
  have clean (r : ProviderId) : ':' ∉ r.name.toList := by cases r <;> decide
  have same := (form first).symm.trans (form second)
  have names : p.name.toList = q.name.toList := by
    have rests := congrArg (Lines.rest ':') same
    rwa [Lines.rest_append_cons, Lines.rest_append_cons, Lines.rest_clean (clean p),
      Lines.rest_clean (clean q)] at rests
  refine ⟨?_, name_injective (String.toList_injective names)⟩
  rw [names] at same
  exact String.toList_injective (List.append_cancel_right same)

/-! ## What a step leaves -/

/-- What a credential depends on. -/
theorem required_congr {s s' : Service} (owner : String) (p : ProviderId)
    (same : ∀ key, account owner p = some key → s'.keyring key = s.keyring key) :
    s'.required W owner p true = s.required W owner p true := by
  have passwords : s'.getPassword owner p true = s.getPassword owner p true := by
    rw [Service.getPassword, if_pos rfl, Service.getPassword, if_pos rfl]
    cases known : account owner p with
    | none => rfl
    | some key => exact congrArg some (same key known)
  rw [Service.required, passwords, Service.required]

theorem models_setModels (value : Option (List String)) :
    (s.setModels owner p value).models other q =
      if other = owner ∧ q = p then value.getD [] else s.models other q := by
  rw [Service.models, Service.setModels]
  by_cases same : other = owner
  · subst same
    by_cases same : q = p
    · subst same
      simp
    · simp [same, Service.models]
  · simp [same, Service.models]

/-- What a step does: nothing, but for the verifications that wait; or it changes one account and
forgets the models of the one who calls; or it keeps the models of an answer. -/
inductive Effect (W : World Payload) (s : Service) : Input Payload → Service → Prop
  | waits (i : Input Payload) (verifying : List Verification) :
      Effect W s i { s with verifying := verifying }
  | stores {i : Input Payload} {owner key : String} {p : ProviderId} {value : Option String}
      (called : i.caller s = some owner) (at_ : account owner p = some key)
      (changes : ¬ ∃ index payload, i = .answered index payload) :
      Effect W s i
        ({ s with keyring := Function.update s.keyring key value }.setModels owner p none)
  | lists {index : Nat} {payload : Option Payload} {v : Verification} {found : List String}
      (waiting : s.verifying[index]? = some v)
      (named : payload.bind (W.modelIds v.provider) = some found) :
      Effect W s (.answered index payload)
        ({ s with
            verifying := s.verifying.eraseIdx index
            listings := s.listings ++ [(⟨v.provider, v.credential, found⟩ : Listing)] }.setModels
          v.owner v.provider (some found))

theorem step_effect (s : Service) (i : Input Payload) : Effect W s i (s.step W i) := by
  have same : Effect W s i s := .waits i s.verifying
  cases i with
  | connect owner provider credential storage =>
    cases named : providerId provider with
    | none => simpa only [Service.step, Service.connect, named] using same
    | some p =>
      by_cases size : (Text.strip credential).length < 8 ∨ 16384 < (Text.strip credential).length
      · simpa only [Service.step, Service.connect, named, if_pos size] using same
      · cases known : account owner p with
        | none => simpa only [Service.step, Service.connect, named, if_neg size, known] using same
        | some key =>
          simp only [Service.step, Service.connect, named, if_neg size, known]
          cases storage with
          | false => exact same
          | true => exact .stores rfl known (by rintro ⟨_, _, ⟨⟩⟩)
  | remove owner provider storage readable =>
    cases named : providerId provider with
    | none => simpa only [Service.step, Service.remove, named] using same
    | some p =>
      cases known : account owner p with
      | none => simpa only [Service.step, Service.remove, named, known] using same
      | some key =>
        simp only [Service.step, Service.remove, named, known]
        cases storage with
        | false => exact same
        | true =>
          have stores (value : Option String) : Effect W s (.remove owner provider true readable)
              ({ s with keyring := Function.update s.keyring key value }.setModels owner p none) :=
            .stores rfl known (by rintro ⟨_, _, ⟨⟩⟩)
          by_cases there : (s.keyring key).getD "" ≠ ""
          · simpa only [if_pos there] using stores none
          · simpa only [if_neg there, Function.update_eq_self] using stores (s.keyring key)
  | verify owner provider storage =>
    cases named : providerId provider with
    | none => simpa only [Service.step, Service.verify, named] using same
    | some p =>
      cases needed : s.required W owner p storage with
      | error e => simpa only [Service.step, Service.verify, named, needed] using same
      | ok credential =>
        simp only [Service.step, Service.verify, named, needed]
        exact .waits _ _
  | answered index payload =>
    cases waiting : s.verifying[index]? with
    | none => simpa only [Service.step, Service.answered, waiting] using same
    | some v =>
      cases found : payload.bind (W.modelIds v.provider) with
      | none =>
        simp only [Service.step, Service.answered, waiting, found]
        exact .waits _ _
      | some found' =>
        simp only [Service.step, Service.answered, waiting, found]
        exact .lists waiting found

/-- What one owner does leaves the others alone. -/
theorem separate (s : Service) (i : Input Payload) : Separate W s i := by
  intro other accepts apart q
  generalize next : s.step W i = s'
  have effect : Effect W s i s' := next ▸ step_effect s i
  cases effect with
  | waits verifying => exact ⟨rfl, rfl⟩
  | stores called at_ changes =>
    have distinct := apart _ called
    constructor
    · refine required_congr other q fun key known => Function.update_of_ne ?_ _ _
      rintro rfl
      exact distinct (account_injective at_ known).1
    · rw [models_setModels, if_neg]
      · rfl
      · rintro ⟨rfl, -⟩
        exact distinct rfl
  | lists waiting named =>
    refine ⟨rfl, ?_⟩
    rw [models_setModels, if_neg]
    · rfl
    · rintro ⟨rfl, -⟩
      exact apart _ (congrArg (Option.map (·.owner)) waiting) rfl

/-- A steady step keeps models where they belong. -/
theorem belongs_step (belongs : ∀ owner, Accepts owner → ∀ p, Belongs W s owner p)
    (steady : Steady W s i) :
    ∀ owner, Accepts owner → ∀ p, Belongs W (s.step W i) owner p := by
  intro other accepts q
  have old := belongs other accepts q
  generalize next : s.step W i = s'
  have effect : Effect W s i s' := next ▸ step_effect s i
  cases effect with
  | waits verifying => exact old
  | @stores _ owner key p value called at_ changes =>
    rw [Belongs, models_setModels]
    by_cases own : other = owner ∧ q = p
    · rw [if_pos own]
      exact .inl rfl
    rw [if_neg own]
    obtain none_ | ⟨credential, needed, listed⟩ := old
    · exact .inl none_
    have kept : Steady W s i = ∀ owner ∈ i.caller s, ∀ other, other ≠ owner →
        SameOwner owner other → ∀ p,
          (s.step W i).required W other p true = s.required W other p true ∨
            s.models other p = [] := by
      cases i with
      | answered index payload => exact absurd ⟨index, payload, rfl⟩ changes
      | _ => rfl
    rw [kept, next] at steady
    by_cases account_ : account other q = some key
    · obtain ⟨spelling, rfl⟩ := account_injective at_ account_
      obtain unchanged | none_ := steady owner called other (fun same => own ⟨same, rfl⟩) spelling p
      · exact .inr ⟨credential, unchanged.trans needed, listed⟩
      · exact .inl none_
    · refine .inr ⟨credential, (required_congr other q fun key' known => ?_).trans needed, listed⟩
      refine Function.update_of_ne ?_ _ _
      rintro rfl
      exact account_ known
  | @lists index payload v found waiting named =>
    rw [Belongs, models_setModels]
    by_cases own : other = v.owner ∧ q = v.provider
    · rw [if_pos own]
      obtain ⟨rfl, rfl⟩ := own
      by_cases none_ : found = []
      · exact .inl none_
      · refine .inr ⟨v.credential, steady v waiting found named none_, ?_⟩
        exact List.mem_append_right _ (List.mem_singleton_self _)
    · rw [if_neg own]
      obtain none_ | ⟨credential, needed, listed⟩ := old
      · exact .inl none_
      · exact .inr ⟨credential, needed, List.mem_append_left _ listed⟩

/-- To begin a verification changes no credential. -/
theorem steady_verify (s : Service) (owner provider : String) (storage : Bool) :
    Steady W s (.verify owner provider storage : Input Payload) := by
  have keyring : (s.step W (.verify owner provider storage)).keyring = s.keyring := by
    rw [Service.step, Service.verify]
    split
    · rfl
    · split <;> rfl
  intro _ _ other _ _ p
  refine .inl (required_congr other p fun key _ => ?_)
  rw [keyring]

/-! ## Every run -/

theorem belongs_start (keyring : String → Option String) (owner : String) (p : ProviderId) :
    Belongs W (.start keyring) owner p :=
  Or.inl rfl

/-- A run whose steps are steady is coherent, from any keyring. -/
theorem coherent_of_steady (W : World Payload) (keyring : String → Option String)
    (inputs : List (Input Payload))
    (steady : Along (Service.step W) (Steady W) (Service.start keyring) inputs) :
    Coherent W (Service.start keyring) inputs := by
  constructor
  · rintro before ⟨after, rfl⟩ - owner accepts p
    have begins : ∀ owner, Accepts owner → ∀ p, Belongs W (Service.start keyring) owner p :=
      fun owner _ p => belongs_start keyring owner p
    have holds := (along_append.mp steady).1.preserves
      (I := fun s => ∀ owner, Accepts owner → ∀ p, Belongs W s owner p) begins
      fun s i belongs guard => belongs_step belongs guard
    exact holds owner accepts p
  · intro before i _
    exact separate _ i

namespace Sample

/-- Providers that answer with their models. -/
def world : World (List String) where
  environment := fun _ => ""
  modelIds := fun _ payload => some payload

/-- A credential is replaced while the provider looks at the old one. -/
def race : List (Input (List String)) :=
  [.connect "ada" "openai" "first-key" true, .verify "ada" "openai" true,
    .connect "ada" "openai" "second-key" true, .answered 0 (some ["gpt"])]

/-- A credential is verified. -/
def calm : List (Input (List String)) :=
  [.connect "ada" "openai" "first-key" true, .verify "ada" "openai" true,
    .answered 0 (some ["gpt"])]

end Sample

/-- The models of the old credential stay with the new one. -/
theorem models_of_old_credential : ¬ Coherent Sample.world (.start fun _ => none) Sample.race := by
  intro coherent
  have accepts : Accepts "ada" := by rw [Accepts]; decide +kernel
  have waits : (exec (Service.step Sample.world) (.start fun _ => none)
      Sample.race).verifying.length = 0 := by decide +kernel
  have kept : (exec (Service.step Sample.world) (.start fun _ => none) Sample.race).models "ada"
      .openai = ["gpt"] := by decide +kernel
  have listed : (exec (Service.step Sample.world) (.start fun _ => none) Sample.race).listings.map
      (·.credential) = ["first-key"] := by decide +kernel
  have needed : (exec (Service.step Sample.world) (.start fun _ => none) Sample.race).required
      Sample.world "ada" .openai true = .ok "second-key" := by decide +kernel
  obtain none_ | ⟨credential, needed', mem⟩ := coherent.belongs Sample.race (List.prefix_refl _)
    (List.eq_nil_of_length_eq_zero waits) "ada" accepts .openai
  · exact absurd (kept.symm.trans none_) (by decide)
  · have same := Except.ok.inj (needed.symm.trans needed')
    have mem' := List.mem_map_of_mem (f := Listing.credential) mem
    rw [listed, ← same] at mem'
    exact absurd mem' (by decide)

/-- A credential that stays while it is verified. -/
theorem calm_coherent :
    Along (Service.step Sample.world) (Steady Sample.world) (.start fun _ => none) Sample.calm ∧
      Coherent Sample.world (.start fun _ => none) Sample.calm := by
  have steady : Along (Service.step Sample.world) (Steady Sample.world) (.start fun _ => none)
      Sample.calm := by
    refine ⟨fun _ _ _ _ _ _ => .inr rfl, steady_verify _ _ _ _, ?_, trivial⟩
    intro v waiting found _ _
    have only : (exec (Service.step Sample.world) (.start fun _ => none)
        [.connect "ada" "openai" "first-key" true, .verify "ada" "openai" true]).verifying[0]? =
          some ⟨"ada", .openai, "first-key"⟩ := by decide +kernel
    have needed : (exec (Service.step Sample.world) (.start fun _ => none)
        [.connect "ada" "openai" "first-key" true, .verify "ada" "openai" true]).required
          Sample.world "ada" .openai true = .ok "first-key" := by decide +kernel
    obtain rfl := Option.some.inj (only.symm.trans waiting)
    exact needed
  exact ⟨steady, coherent_of_steady _ _ _ steady⟩

end Corvus.Credentials
