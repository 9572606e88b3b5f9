import Corvus.Authorization.Registry
import Corvus.Library.Canonical

/-!
# What an allowed request says about the manifest

The evaluation compares the digest that the request claims with the one in the manifest
record, and checks the leaf families next to it. It never computes the digest of the
families, so it binds them exactly if the record carries their digest, as the repository of
manifests asks of the records it stores.
-/

namespace Corvus.Authorization

/-! ## The text under the digest -/

/-- What the digest covers of a leaf family. -/
structure LeafContent where
  ordinal : Nat
  familyName : String
  coverageKind : CoverageKind
  externalProofKind : Option String
  canonicalizationVersion : Nat

def AuthorityStateRootLeafFamily.content (f : AuthorityStateRootLeafFamily) : LeafContent :=
  ⟨f.ordinal, f.familyName, f.coverageKind, f.externalProofKind, f.canonicalizationVersion⟩

/-- The leaf families in the order of their ordinals. -/
def byOrdinal (families : List AuthorityStateRootLeafFamily) :
    List AuthorityStateRootLeafFamily :=
  families.insertionSort fun f g => f.ordinal ≤ g.ordinal

def leafJson (f : AuthorityStateRootLeafFamily) : Json :=
  .obj [
    ("ordinal", .int f.ordinal),
    ("family_name", .str f.familyName),
    ("coverage_kind", .str f.coverageKind.value),
    ("external_proof_kind", (f.externalProofKind.map Json.str).getD .null),
    ("canonicalization_version", .int f.canonicalizationVersion)]

def manifestJson (schemaVersion canonicalizationVersion : Nat)
    (families : List AuthorityStateRootLeafFamily) : Json :=
  .obj [
    ("schema_version", .int schemaVersion),
    ("canonicalization_version", .int canonicalizationVersion),
    ("families", .arr ((byOrdinal families).map leafJson))]

theorem canonical_digest_eq (D : Digests) (schemaVersion canonicalizationVersion : Nat)
    (families : List AuthorityStateRootLeafFamily) :
    canonicalAuthorityManifestDigest D schemaVersion canonicalizationVersion families =
      D.sha256 (Json.dumps (manifestJson schemaVersion canonicalizationVersion families)) := rfl

theorem leafJson_plain (f : AuthorityStateRootLeafFamily) : (leafJson f).Plain := by
  cases kind : f.externalProofKind with
  | none => simp [leafJson, kind, Json.Plain, Json.PlainMembers]
  | some text => simp [leafJson, kind, Json.Plain, Json.PlainMembers]

theorem manifestJson_plain (schemaVersion canonicalizationVersion : Nat)
    (families : List AuthorityStateRootLeafFamily) :
    (manifestJson schemaVersion canonicalizationVersion families).Plain := by
  have leaves : Json.PlainItems ((byOrdinal families).map leafJson) := by
    refine Json.plainItems_iff.mpr fun v mem => ?_
    obtain ⟨f, _, rfl⟩ := List.mem_map.mp mem
    exact leafJson_plain f
  simp [manifestJson, Json.Plain, Json.PlainMembers, leaves]

theorem coverage_inj {k l : CoverageKind} (h : k.value = l.value) : k = l := by
  cases k <;> cases l <;> first | rfl | exact absurd h (by decide)

theorem optional_text_inj {a b : Option String}
    (h : ((a.map Json.str).getD .null).encode = ((b.map Json.str).getD .null).encode) :
    a = b := by
  have null_ne : ∀ s, Json.encode .null ≠ Json.encode (.str s) :=
    fun s same => absurd (List.cons_eq_cons.mp same).1 (by decide)
  cases a with
  | none =>
    cases b with
    | none => rfl
    | some t => exact absurd h (null_ne t)
  | some s =>
    cases b with
    | none => exact absurd h.symm (null_ne s)
    | some t => exact congrArg some (Json.str_inj h)

/-- The text of a leaf determines what the digest covers of it. -/
theorem leaf_content_eq {f g : AuthorityStateRootLeafFamily}
    (h : (leafJson f).encode = (leafJson g).encode) : f.content = g.content := by
  have values := Json.values_inj h (leafJson_plain f) (leafJson_plain g) (by simp) rfl
  simp only [List.map_cons, List.map_nil, List.cons.injEq, and_true] at values
  obtain ⟨ordinal, name, kind, proof, version⟩ := values
  rw [AuthorityStateRootLeafFamily.content, AuthorityStateRootLeafFamily.content,
    Int.ofNat.inj (Json.int_inj ordinal), Json.str_inj name, coverage_inj (Json.str_inj kind),
    optional_text_inj proof, Int.ofNat.inj (Json.int_inj version)]

/-- The text of a manifest determines its versions and what the digest covers of its leaves. -/
theorem manifest_content_eq {schema schema' canonicalization canonicalization' : Nat}
    {families families' : List AuthorityStateRootLeafFamily}
    (h : (manifestJson schema canonicalization families).encode =
      (manifestJson schema' canonicalization' families').encode) :
    schema = schema' ∧ canonicalization = canonicalization' ∧
      (byOrdinal families).map (·.content) = (byOrdinal families').map (·.content) := by
  have plain := manifestJson_plain schema canonicalization families
  have plain' := manifestJson_plain schema' canonicalization' families'
  have values := Json.values_inj h plain plain' (by simp) rfl
  simp only [List.map_cons, List.map_nil, List.cons.injEq, and_true] at values
  obtain ⟨schema_text, canonicalization_text, leaves⟩ := values
  refine ⟨Int.ofNat.inj (Json.int_inj schema_text),
    Int.ofNat.inj (Json.int_inj canonicalization_text), ?_⟩
  exact Json.records_inj leafJson_plain (fun _ _ => leaf_content_eq) leaves

/-- The leaf family of a manifest version with the given content. -/
def LeafContent.family (version : Uuid) (c : LeafContent) : AuthorityStateRootLeafFamily :=
  ⟨version, c.ordinal, c.familyName, c.coverageKind, c.externalProofKind,
    c.canonicalizationVersion⟩

theorem rebuilt {version : Uuid} {families : List AuthorityStateRootLeafFamily}
    (bound : ∀ family ∈ families, family.manifestVersionId = version) :
    (families.map (·.content)).map (·.family version) = families := by
  rw [List.map_map]
  refine (List.map_congr_left fun family mem => ?_).trans (List.map_id families)
  rw [← bound family mem]
  rfl

theorem byOrdinal_bound {version : Uuid} {families : List AuthorityStateRootLeafFamily}
    (bound : ∀ family ∈ families, family.manifestVersionId = version) :
    ∀ family ∈ byOrdinal families, family.manifestVersionId = version :=
  fun family mem => bound family ((List.mem_insertionSort _).mp mem)

/-! ## The binding -/

/-- The digest that the request claims is the one of the families of the context, which are
unambiguous and list every mutable one. -/
def BindsManifest (D : Digests) (request : AuthorizationRequest)
    (context : AuthorityEvaluationContext) : Prop :=
  ∃ manifest ∈ context.authorityManifest,
    request.authorityManifestDigest = canonicalAuthorityManifestDigest D manifest.schemaVersion
      manifest.canonicalizationVersion context.authorityManifestFamilies ∧
    (context.authorityManifestFamilies.map (·.familyName)).Nodup ∧
    (context.authorityManifestFamilies.map (·.ordinal)).Nodup ∧
    ∀ name ∈ context.mutableAuthorityFamilies,
      name ∈ context.authorityManifestFamilies.map (·.familyName)

/-- The manifest record carries the digest of the families of the context. -/
def RecordCanonical (D : Digests) (context : AuthorityEvaluationContext) : Prop :=
  ∀ manifest ∈ context.authorityManifest,
    manifest.manifestDigest = canonicalAuthorityManifestDigest D manifest.schemaVersion
      manifest.canonicalizationVersion context.authorityManifestFamilies

section Allowed

variable {V : Verification} {request : AuthorizationRequest}
  {context : AuthorityEvaluationContext} {requesterBundle agentBundle : AccessBundle}
  {requesterGrants agentCapabilities : List CapabilityGrant} {agentGrant : Option AgentGrant}
  {delegationGrants : List DelegationGrant}

/-- What the check of the manifest establishes. -/
theorem manifest_of_allow
    (allow : (evaluateCapabilityIntersection V request (some context) requesterBundle
      requesterGrants agentGrant agentBundle agentCapabilities delegationGrants).decision =
        .allow) :
    ∃ manifest, context.authorityManifest = some manifest ∧
      manifest.id = request.authorityManifestVersionId ∧
      manifest.manifestDigest = request.authorityManifestDigest ∧
      (∀ family ∈ context.authorityManifestFamilies, family.manifestVersionId = manifest.id) ∧
      (context.authorityManifestFamilies.map (·.familyName)).Nodup ∧
      (context.authorityManifestFamilies.map (·.ordinal)).Nodup ∧
      ∀ name ∈ context.mutableAuthorityFamilies,
        name ∈ context.authorityManifestFamilies.map (·.familyName) := by
  obtain ⟨_, _, same, _, _, ok⟩ := evidence_of_allow allow
  obtain rfl := Option.some.inj same
  simp only [manifestDenialReason, bind_eq_ok, refuse_eq_ok, present_eq_ok,
    validateAuthorityRootManifest, not_or, not_not] at ok
  obtain ⟨manifest, found, _, ⟨id, digest⟩, _, _, _, _, _, bound, _, ⟨names, ordinals⟩,
    listed⟩ := ok
  refine ⟨manifest, found, id, digest, fun family mem => ?_, names, ordinals, fun name mem => ?_⟩
  · by_contra other
    exact bound ⟨family, mem, .inl other⟩
  · by_contra missing
    exact listed ⟨name, mem, missing⟩

theorem binds_manifest_iff
    (allow : (evaluateCapabilityIntersection V request (some context) requesterBundle
      requesterGrants agentGrant agentBundle agentCapabilities delegationGrants).decision =
        .allow) :
    BindsManifest V.toDigests request context ↔ RecordCanonical V.toDigests context := by
  obtain ⟨manifest, found, -, digest, -, names, ordinals, listed⟩ := manifest_of_allow allow
  constructor
  · rintro ⟨_, held, bound, -⟩ manifest' held'
    obtain rfl := Option.some.inj (held.symm.trans held')
    obtain rfl := Option.some.inj (held.symm.trans found)
    rw [digest, bound]
  · intro canonical
    exact ⟨manifest, found, digest ▸ canonical manifest found, names, ordinals, listed⟩

end Allowed

/-- An allowed request binds the content of the manifest exactly if the manifest record
carries the digest of the families. Two allowed requests of one digest whose records do
were decided against the same families. -/
theorem allow_binds_manifest_iff (V : Verification) (request : AuthorizationRequest)
    (context : AuthorityEvaluationContext) (requesterBundle agentBundle : AccessBundle)
    (requesterGrants agentCapabilities : List CapabilityGrant) (agentGrant : Option AgentGrant)
    (delegationGrants : List DelegationGrant)
    (allow : (evaluateCapabilityIntersection V request (some context) requesterBundle
      requesterGrants agentGrant agentBundle agentCapabilities delegationGrants).decision =
        .allow) :
    (BindsManifest V.toDigests request context ↔ RecordCanonical V.toDigests context) ∧
    ∀ (request' : AuthorizationRequest) (context' : AuthorityEvaluationContext)
      (requesterBundle' agentBundle' : AccessBundle)
      (requesterGrants' agentCapabilities' : List CapabilityGrant)
      (agentGrant' : Option AgentGrant) (delegationGrants' : List DelegationGrant),
      (evaluateCapabilityIntersection V request' (some context') requesterBundle'
        requesterGrants' agentGrant' agentBundle' agentCapabilities' delegationGrants').decision =
          .allow →
      request'.authorityManifestDigest = request.authorityManifestDigest →
      RecordCanonical V.toDigests context → RecordCanonical V.toDigests context' →
      Function.Injective V.sha256 →
      (byOrdinal context'.authorityManifestFamilies).map (·.content) =
          (byOrdinal context.authorityManifestFamilies).map (·.content) ∧
        (request'.authorityManifestVersionId = request.authorityManifestVersionId →
          byOrdinal context'.authorityManifestFamilies =
            byOrdinal context.authorityManifestFamilies) := by
  refine ⟨binds_manifest_iff allow, ?_⟩
  intro request' context' _ _ _ _ _ _ allow' same_digest canonical canonical' injective
  obtain ⟨manifest, found, id, digest, bound, -⟩ := manifest_of_allow allow
  obtain ⟨manifest', found', id', digest', bound', -⟩ := manifest_of_allow allow'
  have one_text : V.sha256 _ = V.sha256 _ :=
    calc V.sha256 _ = manifest'.manifestDigest := (canonical' manifest' found').symm
      _ = manifest.manifestDigest := by rw [digest', digest, same_digest]
      _ = V.sha256 _ := canonical manifest found
  obtain ⟨-, -, leaves⟩ :=
    manifest_content_eq (Json.encode_eq_of_dumps_eq (injective one_text))
  refine ⟨leaves, fun same_version => ?_⟩
  rw [id', same_version, ← id] at bound'
  rw [← rebuilt (byOrdinal_bound bound), ← rebuilt (byOrdinal_bound bound'), leaves]

namespace Sample

/-- The digest of the families of the sample. -/
def manifestDigest : String := canonicalAuthorityManifestDigest digests 1 1 families

end Sample

/-- A request is allowed under a digest that is not the one of the families. -/
theorem unbound_manifest_allowed :
    (Sample.result Sample.digests .active (Sample.hex 'e')).decision = .allow ∧
      ¬ BindsManifest Sample.digests (Sample.request (Sample.hex 'e'))
        (Sample.context Sample.digests .active (Sample.hex 'e')) := by
  refine ⟨Sample.allowed _ _ _, ?_⟩
  rintro ⟨manifest, found, same, -⟩
  rw [canonical_digest_eq] at same
  have texts : List.replicate 64 'e' = Json.encode (manifestJson _ _ _) :=
    String.ofList_injective same
  exact absurd (List.cons_eq_cons.mp texts).1 (by decide)

theorem allow_binds_manifest_sample :
    BindsManifest Sample.digests (Sample.request Sample.manifestDigest)
      (Sample.context Sample.digests .active Sample.manifestDigest) := by
  have allowed := Sample.allowed Sample.digests .active Sample.manifestDigest
  rw [Sample.result] at allowed
  refine (allow_binds_manifest_iff _ _ _ _ _ _ _ _ _ allowed).1.mpr ?_
  rintro _ ⟨⟩
  rfl

end Corvus.Authorization
