import Corvus.Agent.Registry

/-!
# Rediscovery

Adapters that keep the identity of their bindings from call to call and change nothing but
their health are served by every discovery exactly as long as not even the health changes:
the registry compares whole bindings with the routed ones, where their digests leave the
health out.
-/

namespace Corvus.Agent

/-! ## Steady adapters -/

def Offer.candidate? : Offer → Option ProviderCandidate
  | .other => none
  | .candidate c => some c

/-- The candidates that an answer offers. -/
def Answer.candidates : Answer → List ProviderCandidate
  | .raised | .other => []
  | .offers list => list.filterMap Offer.candidate?

/-- The candidates that the adapters offer, each with the key of its adapter. -/
def offered (adapters : List ProviderAdapterKey) (call : Discovery) :
    List (ProviderAdapterKey × ProviderCandidate) :=
  adapters.flatMap fun key => (call.answers key).candidates.map fun c => (key, c)

/-- Every adapter answers with valid candidates of its own in the scope of the query, and no
binding is offered twice. -/
structure Steady (D : Digests) (adapters : List ProviderAdapterKey) (call : Discovery) : Prop where
  answered : ∀ key ∈ adapters, ∃ cs : List ProviderCandidate,
    call.answers key = .offers (cs.map .candidate)
  valid : ∀ p ∈ offered adapters call, p.2.valid D call.resolves = true
  scope : ∀ p ∈ offered adapters call, p.2.binding.workspaceId = call.query.workspaceId ∧
    p.2.binding.projectId = call.query.projectId
  keys : ∀ p ∈ offered adapters call, bindingKey p.2.binding = p.1
  distinct : ((offered adapters call).map (·.2.binding.id)).Nodup

/-- Two calls offer the same binding under an id, apart from its health. -/
def SameIdentity (adapters : List ProviderAdapterKey) (call call' : Discovery) : Prop :=
  ∀ p ∈ offered adapters call, ∀ p' ∈ offered adapters call',
    p.2.binding.id = p'.2.binding.id →
      p'.2.binding = p.2.binding.checked p'.2.binding.status p'.2.binding.healthCheckedAt

/-- Two calls offer a binding with the same health. -/
def SameHealth (adapters : List ProviderAdapterKey) (call call' : Discovery) : Prop :=
  ∀ p ∈ offered adapters call, ∀ p' ∈ offered adapters call',
    p.2.binding.id = p'.2.binding.id →
      p'.2.binding.status = p.2.binding.status ∧
        p'.2.binding.healthCheckedAt = p.2.binding.healthCheckedAt

/-- Calls of steady adapters, which change nothing but the health of a binding. -/
structure SteadyRun (D : Digests) (adapters : List ProviderAdapterKey) (calls : List Discovery) :
    Prop where
  steady : ∀ call ∈ calls, Steady D adapters call
  same_identity : calls.Pairwise (SameIdentity adapters)

/-! ## What a discovery is for -/

/-- The place of a binding in an answer: the family, the transport, the id. -/
def bindingOrder (b : ProviderBinding) : (String ×ₗ String) ×ₗ Nat :=
  toLex (keyOrder (bindingKey b), b.id.bits.toNat)

/-- The registry takes operations on the binding: its capabilities and its health are the
ones that its adapter reports. -/
structure Accepted (D : Digests) (registry : ProviderRegistry) (b : ProviderBinding) : Prop where
  adapter : adapterForBinding registry b = .ok (bindingKey b)
  capabilities : ∀ runtime found, runtime (bindingKey b) = some found →
    capabilities registry b runtime = .ok (intersect b.capabilities found)
  health : ∀ runtime found, runtime (bindingKey b) = some found → found.bindingId = b.id →
    found.bindingVersion = b.version → found.bindingDigest = computeProviderBindingDigest D b →
    health D registry b runtime = .ok found

/-- The call returns what was offered, each binding once and in order, and the registry
accepts it from then on. -/
def Serves (D : Digests) (registry : ProviderRegistry) (call : Discovery) : Prop :=
  ∃ cs, (discover D registry call).2 = .ok cs ∧
    cs.Perm ((offered registry.adapters call).map (·.2)) ∧
    (cs.map (·.binding.id)).Nodup ∧
    cs.Pairwise (fun c c' => bindingOrder c.binding ≤ bindingOrder c'.binding) ∧
    ∀ c ∈ cs, Accepted D (discover D registry call).1 c.binding

/-! ## The scan -/

/-- The routes after bindings have been entered. -/
def routed (routes : Uuid → Option BindingRoute)
    (ps : List (ProviderAdapterKey × ProviderCandidate)) : Uuid → Option BindingRoute :=
  ps.foldl (fun r p => Function.update r p.2.binding.id (some ⟨p.1, p.2.binding⟩)) routes

/-- Whatever is routed is offered the way it is routed. -/
def Matches (routes : Uuid → Option BindingRoute)
    (ps : List (ProviderAdapterKey × ProviderCandidate)) : Prop :=
  ∀ p ∈ ps, ∀ r ∈ routes p.2.binding.id, r = ⟨p.1, p.2.binding⟩

section Scan

variable {D : Digests} {call : Discovery} {registry : ProviderRegistry}
  {adapters : List ProviderAdapterKey} {routes : Uuid → Option BindingRoute}
  {p : ProviderAdapterKey × ProviderCandidate}
  {ps : List (ProviderAdapterKey × ProviderCandidate)} {s s' : Scan}

theorem routed_of_not_mem {id : Uuid} (absent : ∀ p ∈ ps, p.2.binding.id ≠ id) :
    routed routes ps id = routes id := by
  induction ps generalizing routes with
  | nil => rfl
  | cons q ps ih =>
    have other : id ≠ q.2.binding.id := fun same => absent q List.mem_cons_self same.symm
    calc routed routes (q :: ps) id
        = Function.update routes q.2.binding.id (some ⟨q.1, q.2.binding⟩) id :=
          ih fun p mem => absent p (List.mem_cons_of_mem _ mem)
      _ = routes id := Function.update_of_ne other _ _

theorem routed_of_mem (distinct : (ps.map (·.2.binding.id)).Nodup) (mem : p ∈ ps) :
    routed routes ps p.2.binding.id = some ⟨p.1, p.2.binding⟩ := by
  induction ps generalizing routes with
  | nil => cases mem
  | cons q ps ih =>
    rw [List.map_cons, List.nodup_cons] at distinct
    rcases List.mem_cons.mp mem with rfl | mem
    · have absent : ∀ q ∈ ps, q.2.binding.id ≠ p.2.binding.id := by
        intro q mem same
        exact distinct.1 (same ▸ List.mem_map_of_mem mem)
      exact (routed_of_not_mem absent).trans (Function.update_self _ _ _)
    · exact ih distinct.2 mem

/-- What one candidate of the right scope and key needs in order to be admitted. -/
theorem admitCandidate_eq_ok (valid : p.2.valid D call.resolves = true)
    (scope : p.2.binding.workspaceId = call.query.workspaceId ∧
      p.2.binding.projectId = call.query.projectId) (key : bindingKey p.2.binding = p.1) :
    admitCandidate D call p.1 s (.candidate p.2) = .ok s' ↔
      p.2.binding.id ∉ s.seen ∧ Matches s.nextRoutes [p] ∧
        s' = ⟨s.candidates ++ [p], p.2.binding.id :: s.seen, routed s.nextRoutes [p]⟩ := by
  simp only [admitCandidate, bind_eq_ok, refuse_eq_ok, revalidateCandidate, valid, if_true, pure_eq_ok,
    Except.ok.injEq]
  constructor
  · rintro ⟨_, rfl, _, _, _, _, _, fresh, _, unchanged, rfl⟩
    refine ⟨fresh, ?_, rfl⟩
    rintro _ (_ | ⟨_, ⟨⟩⟩) r routed
    by_contra differs
    refine unchanged ⟨r, routed, ?_⟩
    by_contra same
    rw [not_or, not_not, not_not] at same
    exact differs (by rw [← same.1, ← same.2])
  · rintro ⟨fresh, same, rfl⟩
    refine ⟨_, rfl, (), ?_, (), not_not.mpr key, (), fresh, (), ?_, rfl⟩
    · rw [not_or, not_not, not_not]
      exact scope
    · rintro ⟨r, routed, differs⟩
      rw [same p List.mem_cons_self r routed] at differs
      exact differs.elim (· rfl) (· rfl)

/-- The loop over candidates of the right scope and keys, with their ids all different. -/
theorem scan_eq_ok (valid : ∀ p ∈ ps, p.2.valid D call.resolves = true)
    (scope : ∀ p ∈ ps, p.2.binding.workspaceId = call.query.workspaceId ∧
      p.2.binding.projectId = call.query.projectId)
    (keys : ∀ p ∈ ps, bindingKey p.2.binding = p.1)
    (distinct : (ps.map (·.2.binding.id)).Nodup)
    (fresh : ∀ p ∈ ps, p.2.binding.id ∉ s.seen) :
    ps.foldlM (fun s p => admitCandidate D call p.1 s (.candidate p.2)) s = .ok s' ↔
      Matches s.nextRoutes ps ∧ s' = ⟨s.candidates ++ ps,
        (ps.map (·.2.binding.id)).reverse ++ s.seen, routed s.nextRoutes ps⟩ := by
  induction ps generalizing s with
  | nil =>
    rw [List.foldlM_nil, pure_eq_ok, Except.ok.injEq, List.append_nil, eq_comm]
    exact ⟨fun same => ⟨fun _ mem => absurd mem List.not_mem_nil, same⟩, fun h => h.2⟩
  | cons p ps ih =>
    rw [List.map_cons, List.nodup_cons] at distinct
    obtain ⟨absent, distinct⟩ := distinct
    have apart : ∀ q ∈ ps, q.2.binding.id ≠ p.2.binding.id := by
      intro q mem same
      exact absent (same ▸ List.mem_map_of_mem mem)
    have next := fun s : Scan => @ih s (fun q mem => valid q (List.mem_cons_of_mem _ mem))
      (fun q mem => scope q (List.mem_cons_of_mem _ mem))
      (fun q mem => keys q (List.mem_cons_of_mem _ mem)) distinct
    have unmoved : ∀ q ∈ ps, routed s.nextRoutes [p] q.2.binding.id =
        s.nextRoutes q.2.binding.id := by
      intro q mem
      apply routed_of_not_mem
      rintro _ (_ | ⟨_, ⟨⟩⟩)
      exact (apart q mem).symm
    have rest : Matches (routed s.nextRoutes [p]) ps ↔ Matches s.nextRoutes ps := by
      constructor
      · intro matched q mem r found
        exact matched q mem r (unmoved q mem ▸ found)
      · intro matched q mem r found
        exact matched q mem r (unmoved q mem ▸ found)
    have fresh_rest : ∀ q ∈ ps, q.2.binding.id ∉ p.2.binding.id :: s.seen := by
      intro q mem
      rw [List.mem_cons, not_or]
      exact ⟨apart q mem, fresh q (List.mem_cons_of_mem _ mem)⟩
    rw [List.foldlM_cons, bind_eq_ok]
    constructor
    · rintro ⟨t, admitted, done⟩
      obtain ⟨_, first, rfl⟩ := (admitCandidate_eq_ok (valid p List.mem_cons_self)
        (scope p List.mem_cons_self) (keys p List.mem_cons_self)).mp admitted
      obtain ⟨matched, rfl⟩ := (next _ fresh_rest).mp done
      refine ⟨?_, by simp [routed]⟩
      rintro q (_ | ⟨_, mem⟩)
      · exact first p List.mem_cons_self
      · exact rest.mp matched q mem
    · rintro ⟨matched, rfl⟩
      refine ⟨_, (admitCandidate_eq_ok (valid p List.mem_cons_self) (scope p List.mem_cons_self)
        (keys p List.mem_cons_self)).mpr ⟨fresh p List.mem_cons_self, ?_, rfl⟩, ?_⟩
      · rintro _ (_ | ⟨_, ⟨⟩⟩)
        exact matched p List.mem_cons_self
      · refine (next _ fresh_rest).mpr ⟨rest.mpr fun q mem => matched q ?_, by simp [routed]⟩
        exact List.mem_cons_of_mem _ mem

theorem candidates_offers (cs : List ProviderCandidate) :
    (Answer.offers (cs.map .candidate)).candidates = cs := by
  simp [Answer.candidates, List.filterMap_map, Function.comp_def, Offer.candidate?]

/-- The two loops together go over the candidates that are offered. -/
theorem polls_eq (answered : ∀ key ∈ adapters, ∃ cs : List ProviderCandidate,
    call.answers key = .offers (cs.map .candidate)) :
    adapters.foldlM (poll D call) s =
      (offered adapters call).foldlM (fun s p => admitCandidate D call p.1 s (.candidate p.2)) s := by
  induction adapters generalizing s with
  | nil => rfl
  | cons key adapters ih =>
    obtain ⟨cs, answer⟩ := answered key List.mem_cons_self
    have polled : poll D call s key = ((call.answers key).candidates.map fun c => (key, c)).foldlM
        (fun s p => admitCandidate D call p.1 s (.candidate p.2)) s := by
      rw [answer, candidates_offers, List.foldlM_map, poll, answer]
      exact List.foldlM_map
    rw [List.foldlM_cons, polled, offered, List.flatMap_cons, List.foldlM_append]
    congr 1
    funext t
    exact ih fun key mem => answered key (List.mem_cons_of_mem _ mem)

/-- The answer to a call: what is offered, in order. -/
def ordered (ps : List (ProviderAdapterKey × ProviderCandidate)) : List ProviderCandidate :=
  (ps.insertionSort fun a b => candidateOrder a ≤ candidateOrder b).map (·.2)

theorem polls_eq_ok (steady : Steady D registry.adapters call) :
    registry.adapters.foldlM (poll D call) ⟨[], [], registry.routes⟩ = .ok s' ↔
      Matches registry.routes (offered registry.adapters call) ∧
        s' = ⟨offered registry.adapters call,
          ((offered registry.adapters call).map (·.2.binding.id)).reverse,
          routed registry.routes (offered registry.adapters call)⟩ := by
  rw [polls_eq steady.answered, scan_eq_ok steady.valid steady.scope steady.keys steady.distinct
    (fun _ _ => List.not_mem_nil), List.nil_append, List.append_nil]

/-- Where what is routed is offered as it is routed, a discovery of steady adapters enters
and returns all that is offered. -/
theorem discover_of_matches (steady : Steady D registry.adapters call)
    (matched : Matches registry.routes (offered registry.adapters call)) :
    discover D registry call =
      ({ registry with routes := routed registry.routes (offered registry.adapters call) },
        .ok (ordered (offered registry.adapters call))) := by
  rw [discover, (polls_eq_ok steady).mpr ⟨matched, rfl⟩]
  rfl

theorem matches_of_discover (steady : Steady D registry.adapters call)
    {cs : List ProviderCandidate} (ok : (discover D registry call).2 = .ok cs) :
    Matches registry.routes (offered registry.adapters call) := by
  rw [discover] at ok
  cases scanned : registry.adapters.foldlM (poll D call) ⟨[], [], registry.routes⟩ with
  | error e =>
    rw [scanned] at ok
    cases ok
  | ok s' => exact ((polls_eq_ok steady).mp scanned).1

/-- A discovery that raises leaves the registry as it was. -/
theorem discover_atomic {e : String} (raised : (discover D registry call).2 = .error e) :
    (discover D registry call).1 = registry := by
  rw [discover] at raised ⊢
  cases scanned : registry.adapters.foldlM (poll D call) ⟨[], [], registry.routes⟩ with
  | error e => rfl
  | ok s' =>
    rw [scanned] at raised
    cases raised

/-! ## One call -/

theorem accepted_of_route {b : ProviderBinding}
    (route : registry.routes b.id = some ⟨bindingKey b, b⟩) : Accepted D registry b := by
  have adapter : adapterForBinding registry b = .ok (bindingKey b) := by
    simp [adapterForBinding, route, present, refuse, ok_bind, pure_eq_ok]
  refine ⟨adapter, ?_, ?_⟩
  · intro runtime found answer
    simp [Agent.capabilities, adapter, answer, present, ok_bind, pure_eq_ok]
  · intro runtime found answer id version digest
    simp [Agent.health, adapter, answer, present, refuse, ok_bind, pure_eq_ok, id, version, digest]

theorem serves_iff (steady : Steady D registry.adapters call) :
    Serves D registry call ↔ Matches registry.routes (offered registry.adapters call) := by
  constructor
  · rintro ⟨cs, ok, -⟩
    exact matches_of_discover steady ok
  · intro matched
    have sorted : ((offered registry.adapters call).insertionSort
        fun a b => candidateOrder a ≤ candidateOrder b).Perm (offered registry.adapters call) :=
      List.perm_insertionSort _ _
    have perm : (ordered (offered registry.adapters call)).Perm
        ((offered registry.adapters call).map (·.2)) := sorted.map _
    rw [Serves, discover_of_matches steady matched]
    refine ⟨_, rfl, perm, ?_, ?_, ?_⟩
    · refine (perm.map _).nodup_iff.mpr ?_
      rw [List.map_map]
      exact steady.distinct
    · have total : Std.Total fun a b : ProviderAdapterKey × ProviderCandidate =>
          candidateOrder a ≤ candidateOrder b := ⟨fun a b => le_total _ _⟩
      have trans : IsTrans (ProviderAdapterKey × ProviderCandidate) fun a b =>
          candidateOrder a ≤ candidateOrder b := ⟨fun a b c => le_trans⟩
      refine (List.pairwise_map.mpr ?_)
      refine (List.pairwise_insertionSort _ _).imp_of_mem fun {p q} hp hq le => ?_
      have placed : ∀ p ∈ offered registry.adapters call,
          candidateOrder p = bindingOrder p.2.binding := by
        intro p mem
        rw [candidateOrder, bindingOrder, steady.keys p mem]
      rwa [placed p (sorted.mem_iff.mp hp), placed q (sorted.mem_iff.mp hq)] at le
    · intro c mem
      obtain ⟨p, inside, rfl⟩ := List.mem_map.mp (perm.mem_iff.mp mem)
      apply accepted_of_route
      rw [steady.keys p inside]
      exact routed_of_mem steady.distinct inside

/-! ## Many calls -/

/-- A route stays what it is when what is offered matches it. -/
theorem route_kept (distinct : (ps.map (·.2.binding.id)).Nodup) (matched : Matches routes ps)
    {id : Uuid} {r : BindingRoute} (found : routes id = some r) : routed routes ps id = some r := by
  by_cases entered : ∃ p ∈ ps, p.2.binding.id = id
  · obtain ⟨p, mem, rfl⟩ := entered
    rw [routed_of_mem distinct mem, matched p mem r found]
  · refine (routed_of_not_mem fun p mem same => ?_).trans found
    exact entered ⟨p, mem, same⟩

/-- What a later call needs once an earlier one is served. -/
theorem matches_routed_iff {later : Discovery} (steady : Steady D adapters call)
    (steady_later : Steady D adapters later) (identity : SameIdentity adapters call later)
    (matched : Matches routes (offered adapters call)) :
    Matches (routed routes (offered adapters call)) (offered adapters later) ↔
      Matches routes (offered adapters later) ∧ SameHealth adapters call later := by
  constructor
  · intro matched_later
    refine ⟨fun q mem r found => ?_, fun p mem q mem_later same => ?_⟩
    · exact matched_later q mem r (route_kept steady.distinct matched found)
    · have entered := @routed_of_mem routes _ _ steady.distinct mem
      rw [same] at entered
      obtain ⟨-, binding⟩ := BindingRoute.mk.inj (matched_later q mem_later _ entered)
      rw [binding]
      exact ⟨rfl, rfl⟩
  · rintro ⟨matched_later, health⟩ q mem r found
    by_cases entered : ∃ p ∈ offered adapters call, p.2.binding.id = q.2.binding.id
    · obtain ⟨p, mem_call, same⟩ := entered
      have route := @routed_of_mem routes _ _ steady.distinct mem_call
      rw [same] at route
      obtain ⟨status, checked⟩ := health p mem_call q mem same
      have binding : q.2.binding = p.2.binding := by
        rw [identity p mem_call q mem same, status, checked]
        rfl
      have key : p.1 = q.1 := by
        rw [← steady.keys p mem_call, ← steady_later.keys q mem, binding]
      rw [← Option.some.inj (route.symm.trans found), key, binding]
    · refine matched_later q mem r ?_
      rw [routed_of_not_mem fun p mem_call same => entered ⟨p, mem_call, same⟩] at found
      exact found

/-- The registry after a call. -/
def next (D : Digests) (registry : ProviderRegistry) (call : Discovery) : ProviderRegistry :=
  (discover D registry call).1

theorem along_serves_iff {calls : List Discovery} (steady : SteadyRun D registry.adapters calls) :
    Run.Along (next D) (Serves D) registry calls ↔
      (∀ call ∈ calls, Matches registry.routes (offered registry.adapters call)) ∧
        calls.Pairwise (SameHealth registry.adapters) := by
  induction calls generalizing registry with
  | nil => simp
  | cons call calls ih =>
    obtain ⟨each, identities⟩ := steady
    have first := each call List.mem_cons_self
    obtain ⟨identity, identities⟩ := List.pairwise_cons.mp identities
    have later : SteadyRun D registry.adapters calls :=
      ⟨fun c mem => each c (List.mem_cons_of_mem _ mem), identities⟩
    rw [Run.along_cons, serves_iff first, List.forall_mem_cons, List.pairwise_cons, and_assoc]
    refine and_congr_right fun matched => ?_
    have after : next D registry call = { registry with
        routes := routed registry.routes (offered registry.adapters call) } := by
      rw [next, discover_of_matches first matched]
    have onward : SteadyRun D (next D registry call).adapters calls := by
      rw [after]
      exact later
    have rest := ih onward
    rw [after] at rest ⊢
    rw [rest]
    have each_later := fun c (mem : c ∈ calls) =>
      matches_routed_iff first (each c (List.mem_cons_of_mem _ mem)) (identity c mem) matched
    constructor
    · rintro ⟨matched_later, health⟩
      exact ⟨fun c mem => ((each_later c mem).mp (matched_later c mem)).1,
        fun c mem => ((each_later c mem).mp (matched_later c mem)).2, health⟩
    · rintro ⟨matched_later, health_first, health⟩
      exact ⟨fun c mem => (each_later c mem).mpr ⟨matched_later c mem, health_first c mem⟩,
        health⟩

end Scan

/-- Discoveries of steady adapters are all served exactly if none of them offers a binding
with another health than an earlier one did. One that raises leaves the registry as it
was. -/
theorem rediscovery_iff (D : Digests) (factories : List ProviderAdapterFactory)
    (registry : ProviderRegistry) (created : ProviderRegistry.init factories = .ok registry)
    (calls : List Discovery) (steady : SteadyRun D registry.adapters calls) :
    (Run.Along (next D) (Serves D) registry calls ↔
      calls.Pairwise (SameHealth registry.adapters)) ∧
    ∀ (r : ProviderRegistry) (call : Discovery) (e : String),
      (discover D r call).2 = .error e → next D r call = r := by
  refine ⟨?_, fun r call e raised => discover_atomic raised⟩
  have empty : ∀ id, registry.routes id = none := by
    simp only [ProviderRegistry.init, bind_eq_ok, pure_eq_ok, Except.ok.injEq] at created
    obtain ⟨_, _, _, _, rfl⟩ := created
    exact fun _ => rfl
  rw [along_serves_iff steady]
  refine and_iff_right fun call _ p _ r found => ?_
  rw [empty] at found
  cases found

/-! ## The Codex adapter -/

/-- `_text_only_capabilities`. -/
def textOnlyCapabilities : AgentCapabilities where
  text := .supported
  streaming := .supported
  tools := .unsupported
  repositoryRead := .unsupported
  repositoryWrite := .unsupported
  shell := .unsupported
  mcp := .unsupported
  sessionResume := .unsupported
  usageCostReporting := .supported
  providerSideBudget := .unsupported
  providerSideCancellation := .supported

/-- `CodexCliAdapter`, with the digest of its executable if that is a file. The id of a
binding is the `uuid5` of its name among the URLs. -/
structure CodexCliAdapter where
  executable : String
  version : String
  file : Option String
  uuid5 : String → Uuid

/-- The binding of a discovery at the given reading of the clock. -/
def CodexCliAdapter.binding (a : CodexCliAdapter) (query : ProviderDiscoveryQuery)
    (executableDigest : String) (now : Instant) : ProviderBinding where
  id := a.uuid5 ("corvus:codex:" ++ query.workspaceId.text ++ ":" ++
    (query.projectId.map Uuid.text).getD "workspace" ++ ":" ++ a.executable ++ ":" ++
    executableDigest)
  workspaceId := query.workspaceId
  projectId := query.projectId
  family := .codex
  transport := .localCli
  status := .available
  executableIdentity := some ⟨a.executable, a.version, executableDigest⟩
  credentialRefId := none
  model := "Codex default"
  capabilities := textOnlyCapabilities
  healthCheckedAt := now
  version := 1
  fallbackBindingIds := []
  dataEgressDisclosure := "Prompts are sent through the user's local Codex login."
  serverStorageDisclosure := "OpenAI retention follows the user's Codex account policy."

/-- `CodexCliAdapter.discover`. -/
def CodexCliAdapter.discover (D : Digests) (a : CodexCliAdapter) (query : ProviderDiscoveryQuery)
    (now : Instant) : List ProviderCandidate :=
  match a.file with
  | none => []
  | some executableDigest =>
      let binding := a.binding query executableDigest now
      [⟨binding, 1, computeProviderBindingDigest D binding⟩]

/-- Another reading of the clock changes nothing but the time of the health check. -/
theorem codex_binding_checked (a : CodexCliAdapter) (query : ProviderDiscoveryQuery)
    (executableDigest : String) (now later : Instant) :
    a.binding query executableDigest later =
      (a.binding query executableDigest now).checked .available later := rfl

namespace CodexSample

/-- Digests of sixty-four hexadecimal digits. -/
def digests : Digests where
  sha256 text := String.ofList (List.replicate 64 (Json.hexDigit (text.length % 16)))
  uuid5 _ := .ofNat 0

theorem sha256_valid (text : String) : isSha256 (digests.sha256 text) = true := by
  have digit : ∀ n < 16, (('0' ≤ Json.hexDigit n && Json.hexDigit n ≤ '9') ||
      ('a' ≤ Json.hexDigit n && Json.hexDigit n ≤ 'f')) = true := by decide
  exact isSha256_replicate (digit _ (Nat.mod_lt _ (by decide)))

def key : ProviderAdapterKey := ⟨.codex, .localCli⟩
def registry : ProviderRegistry := ⟨[key], fun _ => none⟩
def query : ProviderDiscoveryQuery := ⟨.ofNat 1, none⟩
def executableDigest : String := String.ofList (List.replicate 64 'a')

def adapter : CodexCliAdapter where
  executable := "/usr/bin/codex"
  version := "0.1.0"
  file := some executableDigest
  uuid5 := digests.uuid5

def binding (now : Instant) : ProviderBinding := adapter.binding query executableDigest now

def candidate (now : Instant) : ProviderCandidate :=
  ⟨binding now, 1, computeProviderBindingDigest digests (binding now)⟩

/-- A discovery at the given reading of the clock. -/
def call (now : Instant) : Discovery where
  query := query
  resolves := fun _ => true
  answers := fun _ => .offers ((adapter.discover digests query now).map .candidate)

theorem created : ProviderRegistry.init [⟨key, true⟩] = .ok registry := rfl

theorem offered_call (now : Instant) : offered [key] (call now) = [(key, candidate now)] := rfl

theorem digest_valid : isSha256 executableDigest = true := isSha256_replicate (by decide)

theorem binding_valid (now : Instant) : (binding now).valid (fun _ => true) = true := by
  simp [binding, CodexCliAdapter.binding, ProviderBinding.valid, ExecutableIdentity.valid,
    bounded, adapter, digest_valid, ← String.length_toList]

theorem steady (now : Instant) : Steady digests [key] (call now) := by
  have one : ∀ p ∈ offered [key] (call now), p = (key, candidate now) := by
    intro p mem
    rw [offered_call] at mem
    exact List.mem_singleton.mp mem
  refine ⟨fun _ _ => ⟨adapter.discover digests query now, rfl⟩, ?_, ?_, ?_, ?_⟩
  · intro p mem
    rw [one p mem]
    simp only [ProviderCandidate.valid, Bool.and_eq_true, decide_eq_true_eq]
    exact ⟨⟨⟨binding_valid now, sha256_valid _⟩, rfl⟩, rfl⟩
  · intro p mem
    rw [one p mem]
    exact ⟨rfl, rfl⟩
  · intro p mem
    rw [one p mem]
    rfl
  · rw [offered_call]
    exact List.nodup_singleton _

theorem steady_run (now later : Instant) : SteadyRun digests [key] [call now, call later] := by
  refine ⟨?_, List.pairwise_pair.mpr ?_⟩
  · rintro _ (_ | ⟨_, _ | ⟨_, ⟨⟩⟩⟩)
    · exact steady now
    · exact steady later
  · rintro p mem p' mem' -
    rw [offered_call] at mem mem'
    rw [List.mem_singleton.mp mem, List.mem_singleton.mp mem']
    exact codex_binding_checked adapter query executableDigest now later

end CodexSample

/-- The Codex adapter is refused as soon as its clock has moved on. -/
theorem codex_rediscovery_refused :
    SteadyRun CodexSample.digests CodexSample.registry.adapters
        [CodexSample.call 0, CodexSample.call 1] ∧
      ¬ Run.Along (next CodexSample.digests) (Serves CodexSample.digests) CodexSample.registry
        [CodexSample.call 0, CodexSample.call 1] := by
  refine ⟨CodexSample.steady_run 0 1, fun served => ?_⟩
  have health := ((along_serves_iff (CodexSample.steady_run 0 1)).mp served).2
  have same := List.pairwise_pair.mp health (CodexSample.key, CodexSample.candidate 0)
    (List.mem_singleton_self _) (CodexSample.key, CodexSample.candidate 1)
    (List.mem_singleton_self _) rfl
  exact absurd same.2 (by decide)

theorem rediscovery_sample :
    Run.Along (next CodexSample.digests) (Serves CodexSample.digests) CodexSample.registry
      [CodexSample.call 0, CodexSample.call 0] := by
  refine (rediscovery_iff CodexSample.digests _ _ CodexSample.created _
    (CodexSample.steady_run 0 0)).1.mpr (List.pairwise_pair.mpr ?_)
  rintro p mem p' mem' -
  rw [CodexSample.registry, CodexSample.offered_call] at mem mem'
  rw [List.mem_singleton.mp mem, List.mem_singleton.mp mem']
  exact ⟨rfl, rfl⟩

end Corvus.Agent
