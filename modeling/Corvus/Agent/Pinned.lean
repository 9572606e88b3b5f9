import Corvus.Agent.Decimals
import Corvus.Agent.SideEffects
import Corvus.Authorization.Manifest
import Corvus.Library.Timestamps

/-!
# What the immutable digest pins

Two requests have one immutable digest just if they agree on every field that may not be refreshed:
the deadlines as instants, the limits as numbers and the effect classes as a set.
-/

namespace Corvus.Agent

open Calendar (Representable timestamp_inj)
open Json (encode)

/-! ## The digest -/

/-- `compute_agent_run_immutable_digest`: there is none where `astimezone` has no time in UTC for
the deadline. -/
def computeAgentRunImmutableDigest (D : Digests) (r : AgentRunRequest) : Option String :=
  if Representable r.deadline then some (r.immutableRequestDigest D) else none

/-- A request with the refreshable fields of another. -/
def AgentRunRequest.refreshed (r other : AgentRunRequest) : AgentRunRequest :=
  { r with
    authorizationProofId := other.authorizationProofId
    authorizationProofDigest := other.authorizationProofDigest
    autonomyGrantId := other.autonomyGrantId
    autonomyGrantDigest := other.autonomyGrantDigest
    credentialGrantIds := other.credentialGrantIds
    credentialProofId := other.credentialProofId
    credentialProofDigest := other.credentialProofDigest
    budgetProofId := other.budgetProofId
    budgetProofDigest := other.budgetProofDigest
    killSwitchProofId := other.killSwitchProofId
    killSwitchProofDigest := other.killSwitchProofDigest
    resumeHandleId := other.resumeHandleId }

/-- Agreement on every field outside `_REFRESHABLE_AGENT_RUN_FIELDS`. -/
structure Agree (a b : AgentRunRequest) : Prop where
  runId : a.runId = b.runId
  workspaceId : a.workspaceId = b.workspaceId
  projectId : a.projectId = b.projectId
  workflowId : a.workflowId = b.workflowId
  workItemId : a.workItemId = b.workItemId
  providerBindingId : a.providerBindingId = b.providerBindingId
  providerBindingVersion : a.providerBindingVersion = b.providerBindingVersion
  providerBindingDigest : a.providerBindingDigest = b.providerBindingDigest
  model : a.model = b.model
  effort : a.effort = b.effort
  messages : a.messages = b.messages
  prompt : a.prompt = b.prompt
  untrustedContextRefIds : a.untrustedContextRefIds = b.untrustedContextRefIds
  sandboxProfile : a.sandboxProfile = b.sandboxProfile
  filesystemEnvelope : a.filesystemEnvelope = b.filesystemEnvelope
  networkEnvelope : a.networkEnvelope = b.networkEnvelope
  toolEnvelope : a.toolEnvelope = b.toolEnvelope
  requestedEffectClasses : ∀ effect,
    effect ∈ a.requestedEffectClasses ↔ effect ∈ b.requestedEffectClasses
  providerSpendLimit : a.providerSpendLimit.value = b.providerSpendLimit.value
  corvusBudgetLimit : a.corvusBudgetLimit.value = b.corvusBudgetLimit.value
  budgetUnit : a.budgetUnit = b.budgetUnit
  budgetRequestedAmount : a.budgetRequestedAmount = b.budgetRequestedAmount
  approvalLimit : a.approvalLimit = b.approvalLimit
  maxRetries : a.maxRetries = b.maxRetries
  maxTurns : a.maxTurns = b.maxTurns
  deadline : a.deadline = b.deadline
  maxOutputTokens : a.maxOutputTokens = b.maxOutputTokens
  maxOutputBytes : a.maxOutputBytes = b.maxOutputBytes
  idempotencyKey : a.idempotencyKey = b.idempotencyKey

/-! ## What the texts determine -/

section Texts

theorem str_plain (text : String) : (Json.str text).Plain := trivial

theorem texts_plain (texts : List String) : Json.PlainItems (texts.map Json.str) := by
  refine Json.plainItems_iff.mpr fun v mem => ?_
  obtain ⟨text, -, rfl⟩ := List.mem_map.mp mem
  trivial

theorem optional_plain {α : Type} (f : α → String) (a : Option α) : (optional f a).Plain := by
  cases a <;> trivial

theorem texts_inj {texts texts' : List String}
    (same : encode (jsonTexts texts) = encode (jsonTexts texts')) : texts = texts' := by
  have equal : texts.map id = texts'.map id :=
    Json.records_inj str_plain (fun _ _ => Json.str_inj) same
  rwa [List.map_id, List.map_id] at equal

theorem ids_inj {ids ids' : List Uuid} (same : encode (jsonIds ids) = encode (jsonIds ids')) :
    ids = ids' := by
  have equal : ids.map id = ids'.map id :=
    Json.records_inj (fun id => str_plain id.text)
      (fun _ _ text => Uuid.text_inj (Json.str_inj text)) same
  rwa [List.map_id, List.map_id] at equal

theorem messages_inj {m m' : Option (List String)}
    (same : encode ((m.map jsonTexts).getD .null) = encode ((m'.map jsonTexts).getD .null)) :
    m = m' := by
  have null_ne : ∀ texts, encode .null ≠ encode (jsonTexts texts) := by
    intro texts other
    rw [jsonTexts, Json.encode_arr] at other
    exact absurd (List.cons_eq_cons.mp other).1 (by decide)
  cases m with
  | none =>
    cases m' with
    | none => rfl
    | some texts => exact absurd same (null_ne texts)
  | some texts =>
    cases m' with
    | none => exact absurd same.symm (null_ne texts)
    | some texts' => exact congrArg some (texts_inj same)

theorem text_injective : Function.Injective Uuid.text := fun _ _ => Uuid.text_inj

theorem optional_inj {α : Type} {f : α → String} (injective : Function.Injective f)
    {a a' : Option α} (same : encode (optional f a) = encode (optional f a')) : a = a' := by
  have texts : a.map f = a'.map f := by
    apply Authorization.optional_text_inj
    rw [Option.map_map, Option.map_map]
    exact same
  exact Option.map_injective injective texts

theorem deadline_inj {t t' : Instant} (time : Representable t) (time' : Representable t')
    (same : canonicalDatetime t = canonicalDatetime t') : t = t' := by
  have text := congrArg String.toList same
  rw [canonicalDatetime, canonicalDatetime, String.toList_append, String.toList_append] at text
  have instants := String.toList_injective (List.append_cancel_right text)
  apply timestamp_inj time time'
  rw [Calendar.timestamp, instants, Calendar.timestamp]

/-! ### Sets -/

variable {effects effects' : List String}

theorem mem_jsonSet {v : Json} :
    v ∈ (effects.map Json.str).insertionSort (fun a b => Json.dumps a ≤ Json.dumps b) ↔
      ∃ effect ∈ effects, Json.str effect = v := by
  rw [List.mem_insertionSort, List.mem_map]

theorem set_plain (effects : List String) : (jsonSet effects).Plain := by
  refine Json.plainItems_iff.mpr fun v mem => ?_
  obtain ⟨effect, -, rfl⟩ := mem_jsonSet.mp mem
  trivial

theorem mem_of_jsonSet (same : encode (jsonSet effects) = encode (jsonSet effects')) :
    ∀ effect ∈ effects, effect ∈ effects' := by
  intro effect mem
  have texts := Json.arr_inj (set_plain effects) (set_plain effects') same
  have written := List.mem_map_of_mem (f := encode) (mem_jsonSet.mpr ⟨effect, mem, rfl⟩)
  rw [texts] at written
  obtain ⟨v, inside, text⟩ := List.mem_map.mp written
  obtain ⟨effect', mem', rfl⟩ := mem_jsonSet.mp inside
  rwa [← Json.str_inj text]

/-- The order in which a set is gone through does not matter. -/
theorem jsonSet_eq (nodup : effects.Nodup) (nodup' : effects'.Nodup)
    (same : ∀ effect, effect ∈ effects ↔ effect ∈ effects') :
    jsonSet effects = jsonSet effects' := by
  have perm := ((List.perm_ext_iff_of_nodup nodup nodup').mpr same).map Json.str
  have total : Std.Total fun a b : Json => Json.dumps a ≤ Json.dumps b :=
    ⟨fun a b => le_total _ _⟩
  have transitive : IsTrans Json fun a b => Json.dumps a ≤ Json.dumps b :=
    ⟨fun a b c => le_trans⟩
  unfold jsonSet
  congr 1
  refine List.Perm.eq_of_pairwise ?_ (List.pairwise_insertionSort _ _)
    (List.pairwise_insertionSort _ _)
    (((List.perm_insertionSort _ _).trans perm).trans (List.perm_insertionSort _ _).symm)
  intro v w mem mem' le ge
  obtain ⟨effect, -, rfl⟩ := mem_jsonSet.mp mem
  obtain ⟨effect', -, rfl⟩ := mem_jsonSet.mp mem'
  rw [Json.str_inj (Json.encode_eq_of_dumps_eq (le_antisymm le ge))]

theorem ids_plain (ids : List Uuid) : (jsonIds ids).Plain := by
  refine Json.plainItems_iff.mpr fun v mem => ?_
  obtain ⟨id, -, rfl⟩ := List.mem_map.mp mem
  trivial

theorem messages_plain (m : Option (List String)) : ((m.map jsonTexts).getD .null).Plain := by
  cases m with
  | none => trivial
  | some texts => exact texts_plain texts

end Texts

/-! ## What the digest determines -/

section Digest

variable {a b : AgentRunRequest}

theorem immutableFields_plain (a : AgentRunRequest) : Json.PlainMembers a.immutableFields := by
  simp only [AgentRunRequest.immutableFields, Json.PlainMembers, Json.Plain, optional_plain,
    messages_plain, ids_plain, set_plain, jsonTexts, texts_plain, and_self]

/-- The names of the fields that are not in `_REFRESHABLE_AGENT_RUN_FIELDS`. -/
def immutableNames : List String :=
  ["run_id", "workspace_id", "project_id", "workflow_id", "work_item_id", "provider_binding_id",
    "provider_binding_version", "provider_binding_digest", "model", "effort", "messages", "prompt",
    "untrusted_context_ref_ids", "sandbox_profile", "filesystem_envelope", "network_envelope",
    "tool_envelope", "requested_effect_classes", "provider_spend_limit", "corvus_budget_limit",
    "budget_unit", "budget_requested_amount", "approval_limit", "max_retries", "max_turns",
    "deadline", "max_output_tokens", "max_output_bytes", "idempotency_key"]

theorem immutableNames_nodup : immutableNames.Nodup := by decide

theorem immutableFields_names (a : AgentRunRequest) :
    a.immutableFields.map Prod.fst = immutableNames := rfl

theorem agree_of_fields (time : Representable a.deadline) (time' : Representable b.deadline)
    (same : encode (.obj a.immutableFields) = encode (.obj b.immutableFields)) : Agree a b := by
  have values := Json.values_inj same (immutableFields_plain a) (immutableFields_plain b)
    (immutableFields_names b ▸ immutableNames_nodup)
    ((immutableFields_names a).trans (immutableFields_names b).symm)
  simp only [AgentRunRequest.immutableFields, List.map_cons, List.map_nil, List.cons.injEq,
    and_true] at values
  obtain ⟨runId, workspaceId, projectId, workflowId, workItemId, bindingId, bindingVersion,
    bindingDigest, model, effort, messages, prompt, contextRefIds, sandbox, filesystem, network,
    tool, effects, spend, budget, unit, amount, approval, retries, turns, deadline, tokens, bytes,
    key⟩ := values
  exact {
    runId := Uuid.text_inj (Json.str_inj runId)
    workspaceId := Uuid.text_inj (Json.str_inj workspaceId)
    projectId := optional_inj text_injective projectId
    workflowId := optional_inj text_injective workflowId
    workItemId := optional_inj text_injective workItemId
    providerBindingId := Uuid.text_inj (Json.str_inj bindingId)
    providerBindingVersion := Int.ofNat.inj (Json.int_inj bindingVersion)
    providerBindingDigest := Json.str_inj bindingDigest
    model := Json.str_inj model
    effort := Json.str_inj effort
    messages := messages_inj messages
    prompt := optional_inj Function.injective_id prompt
    untrustedContextRefIds := ids_inj contextRefIds
    sandboxProfile := Json.str_inj sandbox
    filesystemEnvelope := texts_inj filesystem
    networkEnvelope := texts_inj network
    toolEnvelope := texts_inj tool
    requestedEffectClasses := fun effect =>
      ⟨mem_of_jsonSet effects effect, mem_of_jsonSet effects.symm effect⟩
    providerSpendLimit := (Decimal.canonical_eq_iff _ _).mp (Json.str_inj spend)
    corvusBudgetLimit := (Decimal.canonical_eq_iff _ _).mp (Json.str_inj budget)
    budgetUnit := Json.str_inj unit
    budgetRequestedAmount := Int.ofNat.inj (Json.int_inj amount)
    approvalLimit := Int.ofNat.inj (Json.int_inj approval)
    maxRetries := Int.ofNat.inj (Json.int_inj retries)
    maxTurns := Int.ofNat.inj (Json.int_inj turns)
    deadline := deadline_inj time time' (Json.str_inj deadline)
    maxOutputTokens := Int.ofNat.inj (Json.int_inj tokens)
    maxOutputBytes := Int.ofNat.inj (Json.int_inj bytes)
    idempotencyKey := Json.str_inj key }

theorem fields_of_agree (nodup : a.requestedEffectClasses.Nodup)
    (nodup' : b.requestedEffectClasses.Nodup) (agree : Agree a b) :
    a.immutableFields = b.immutableFields := by
  have effects := jsonSet_eq nodup nodup' agree.requestedEffectClasses
  have spend := (Decimal.canonical_eq_iff _ _).mpr agree.providerSpendLimit
  have budget := (Decimal.canonical_eq_iff _ _).mpr agree.corvusBudgetLimit
  unfold AgentRunRequest.immutableFields
  rw [agree.runId, agree.workspaceId, agree.projectId, agree.workflowId, agree.workItemId,
    agree.providerBindingId, agree.providerBindingVersion, agree.providerBindingDigest,
    agree.model, agree.effort, agree.messages, agree.prompt, agree.untrustedContextRefIds,
    agree.sandboxProfile, agree.filesystemEnvelope, agree.networkEnvelope, agree.toolEnvelope,
    effects, spend, budget, agree.budgetUnit, agree.budgetRequestedAmount, agree.approvalLimit,
    agree.maxRetries, agree.maxTurns, agree.deadline, agree.maxOutputTokens, agree.maxOutputBytes,
    agree.idempotencyKey]

end Digest

namespace Pinned

def digests : Digests := ⟨id, fun _ => .ofNat 0⟩

def request (effects : List String) (limit : Decimal) : AgentRunRequest :=
  { StartSample.request 1 with requestedEffectClasses := effects, providerSpendLimit := limit }

end Pinned

end Corvus.Agent
