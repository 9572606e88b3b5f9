import Corvus.Context.Contents

/-!
# The context firewall

The trusted contents of an envelope go to a model as system messages, the others as data in the
JSON text of a user message. The digest of a content is taken from its own canonical text, in
which the keys of a dict stand in the order of the keys. The message holds what was read back
from that text, with the keys in the order of their texts.
-/

namespace Corvus.Context

/-- The keys of a dict in their own order are in the order of their texts. -/
def InTextOrder (keys : List Key) : Prop :=
  (keys.insertionSort Key.le).Pairwise fun k l => k.text ≤ l.text

mutual

/-- Every dict in a value has its keys in the order of their texts. -/
def InOrder : Value → Prop
  | .list items => InOrderItems items
  | .dict members => InTextOrder (members.map Prod.fst) ∧ InOrderMembers members
  | .none | .bool _ | .int _ | .float _ | .str _ => True

def InOrderItems : List Value → Prop
  | [] => True
  | v :: vs => InOrder v ∧ InOrderItems vs

def InOrderMembers : List (Key × Value) → Prop
  | [] => True
  | (_, v) :: ms => InOrder v ∧ InOrderMembers ms

end

variable (sha256 : String → String)

/-! ## What the firewall is for -/

/-- The message is a user message of the content: its text is read as the object of the origin,
source, trust class and data of the content, with the digest of the data in the message. -/
def Carries (c : ExternalContent) (m : ContextMessage) : Prop :=
  ∃ data own, c.data = .ok own ∧ Json.arrange data = Json.arrange own ∧
    Json.loads m.content = some (.obj [("content_digest", .str (sha256 (Json.dumps data))),
      ("data", data), ("origin", .str c.origin.value), ("source", .str c.source),
      ("trust_class", .str c.trustClass.value)])

/-- The messages of an envelope: the system messages are the instructions of the contents of the
system and of policies, each untrusted content has its user message, and the digest tells the
envelope from those of another owner or with other messages. -/
structure Firewall (e : ContextEnvelope) (messages : List ContextMessage) : Prop where
  system : List.Forall₂ (fun c m => c.instruction = .ok m.content)
    ((e.trusted ++ e.external).filter fun c => c.origin ∈ trustedOrigins)
    (messages.filter fun m => m.role = .system)
  user : List.Forall₂ (Carries sha256)
    ((e.trusted ++ e.external).filter fun c => c.trustClass = .untrusted)
    (messages.filter fun m => m.role = .user)
  digest : ∀ e' : ContextEnvelope, e'.Accepted sha256 → e'.digest sha256 = e.digest sha256 →
    e'.owner = e.owner ∧ e'.messages = .ok messages

/-! ## The text of a value -/

section Text

theorem forall_iff_forall {α β : Type} {R : α → β → Prop} {P : α → Prop} {Q : β → Prop}
    {xs : List α} {ys : List β} (related : List.Forall₂ R xs ys)
    (each : ∀ x ∈ xs, ∀ y, R x y → (P x ↔ Q y)) : (∀ x ∈ xs, P x) ↔ ∀ y ∈ ys, Q y := by
  induction related with
  | nil => exact ⟨fun _ _ mem => absurd mem List.not_mem_nil,
      fun _ _ mem => absurd mem List.not_mem_nil⟩
  | cons first _ ih =>
    rw [List.forall_mem_cons, List.forall_mem_cons,
      each _ List.mem_cons_self _ first, ih fun x mem => each x (List.mem_cons_of_mem _ mem)]

theorem inOrderItems_iff {items : List Value} : InOrderItems items ↔ ∀ v ∈ items, InOrder v := by
  induction items with
  | nil => simp [InOrderItems]
  | cons v vs ih => simp [InOrderItems, ih]

theorem inOrderMembers_iff {members : List (Key × Value)} :
    InOrderMembers members ↔ ∀ m ∈ members, InOrder m.2 := by
  induction members with
  | nil => simp [InOrderMembers]
  | cons m ms ih => simp [InOrderMembers, ih]

theorem sortKeys_keys {α : Type} (members : List (Key × α)) :
    (sortKeys members).map Prod.fst = (members.map Prod.fst).insertionSort Key.le :=
  List.map_insertionSort _ _ _ _ fun _ _ _ _ => Iff.rfl

theorem mem_sortKeys {α : Type} {m : Key × α} {members : List (Key × α)} :
    m ∈ sortKeys members ↔ m ∈ members := List.mem_insertionSort _

/-- The names under which the members are written are in order just if the keys are. -/
theorem pairwise_names_iff {α : Type} {members : List (Key × α)} :
    ((sortKeys members).map fun m => (m.1.text, m.2)).Pairwise (fun a b => a.1 ≤ b.1) ↔
      InTextOrder (members.map Prod.fst) := by
  rw [InTextOrder, ← sortKeys_keys, List.pairwise_map, List.pairwise_map]

/-- A value whose text can be read back, in order just if the keys of the other are. -/
def Renders (v : Value) (j : Json) : Prop := Json.Readable j ∧ (InOrder v ↔ Json.arrange j = j)

mutual

theorem renders : (v : Value) → (j : Json) → toJson v = .ok j → Renders v j
  | .list items, j, written => by
    obtain ⟨xs, each, written⟩ := bind_eq_ok.mp written
    obtain rfl := Except.ok.inj written
    have each := rendersItems items xs each
    refine ⟨Json.readableItems_iff.mpr fun x mem => ?_, ?_⟩
    · obtain ⟨_, _, rendered⟩ := exists_left each mem
      exact rendered.1
    · rw [InOrder, inOrderItems_iff, Json.arrange_arr_iff]
      exact forall_iff_forall each fun _ _ _ rendered => rendered.2
  | .dict members, j, written => by
    obtain ⟨xs, each, written⟩ := bind_eq_ok.mp written
    obtain ⟨_, _, written⟩ := bind_eq_ok.mp written
    obtain rfl := Except.ok.inj written
    have each := rendersMembers members xs each
    have keys : members.map Prod.fst = xs.map Prod.fst :=
      map_eq_of_forall₂ each fun _ _ rendered => rendered.1
    have sorted : ∀ Q : Json → Prop, (∀ m ∈ (sortKeys xs).map (fun m => (m.1.text, m.2)), Q m.2) ↔
        ∀ x ∈ xs, Q x.2 := by
      intro Q
      rw [List.forall_mem_map]
      exact forall_congr' fun x => imp_congr_left mem_sortKeys
    refine ⟨Json.readableMembers_iff.mpr ((sorted _).mpr fun x mem => ?_), ?_⟩
    · obtain ⟨_, _, _, rendered⟩ := exists_left each mem
      exact rendered.1
    · rw [InOrder, inOrderMembers_iff, Json.arrange_obj_iff, pairwise_names_iff, keys,
        sorted fun j => Json.arrange j = j]
      exact and_congr_right fun _ => forall_iff_forall each fun _ _ _ rendered => rendered.2.2
  | .none, j, written => by
    obtain rfl := Except.ok.inj written
    exact ⟨trivial, iff_of_true trivial rfl⟩
  | .bool b, j, written => by
    obtain rfl := Except.ok.inj written
    exact ⟨trivial, iff_of_true trivial rfl⟩
  | .int n, j, written => by
    obtain rfl := Except.ok.inj written
    exact ⟨trivial, iff_of_true trivial rfl⟩
  | .float x, j, written => by
    obtain rfl := Except.ok.inj written
    exact ⟨x.canonical, iff_of_true trivial rfl⟩
  | .str s, j, written => by
    obtain rfl := Except.ok.inj written
    exact ⟨trivial, iff_of_true trivial rfl⟩

theorem rendersItems : (items : List Value) → (xs : List Json) → toItems items = .ok xs →
    List.Forall₂ Renders items xs
  | [], xs, written => by
    obtain rfl := Except.ok.inj written
    exact .nil
  | v :: vs, xs, written => by
    obtain ⟨x, first, written⟩ := bind_eq_ok.mp written
    obtain ⟨ys, rest, written⟩ := bind_eq_ok.mp written
    obtain rfl := Except.ok.inj written
    exact .cons (renders v x first) (rendersItems vs ys rest)

theorem rendersMembers : (members : List (Key × Value)) → (xs : List (Key × Json)) →
    toMembers members = .ok xs →
    List.Forall₂ (fun m x => m.1 = x.1 ∧ Renders m.2 x.2) members xs
  | [], xs, written => by
    obtain rfl := Except.ok.inj written
    exact .nil
  | (k, v) :: ms, xs, written => by
    obtain ⟨x, first, written⟩ := bind_eq_ok.mp written
    obtain ⟨ys, rest, written⟩ := bind_eq_ok.mp written
    obtain rfl := Except.ok.inj written
    exact .cons ⟨rfl, renders v x first⟩ (rendersMembers ms ys rest)

end

end Text

/-! ## Contents -/

section Content

variable {sha256} {c : ExternalContent} {v : Value}

open ExternalContent

/-- What `_create` has checked and computed. -/
theorem ExternalContent.MadeFrom.written (made : c.MadeFrom sha256 v) :
    (c.origin ∈ trustedOrigins → v.isStr = true) ∧ ∃ j, toJson v = .ok j ∧
      c.contentJson = String.ofList (Json.compact j) ∧ c.contentDigest = sha256 c.contentJson := by
  obtain ⟨_, _, made⟩ := bind_eq_ok.mp made
  obtain ⟨_, _, made⟩ := bind_eq_ok.mp made
  obtain ⟨_, _, made⟩ := bind_eq_ok.mp made
  obtain ⟨_, _, made⟩ := bind_eq_ok.mp made
  obtain ⟨_, text, made⟩ := bind_eq_ok.mp made
  obtain ⟨contentJson, written, made⟩ := bind_eq_ok.mp made
  obtain ⟨j, rendered, written⟩ := bind_eq_ok.mp written
  obtain rfl := Except.ok.inj written
  have same := (Except.ok.inj made).symm
  have json : c.contentJson = String.ofList (Json.compact j) :=
    congrArg ExternalContent.contentJson same
  have digest : c.contentDigest = sha256 c.contentJson := by
    rw [json]
    exact congrArg ExternalContent.contentDigest same
  have strings := refuse_eq_ok.mp text
  refine ⟨fun trusted => ?_, j, rendered, json, digest⟩
  by_contra other
  exact strings ⟨trusted, eq_false_of_ne_true other⟩

/-- What is read back from the text of a content is the value as it was written. -/
theorem ExternalContent.MadeFrom.read (made : c.MadeFrom sha256 v) :
    ∃ j, toJson v = .ok j ∧ c.data = .ok j ∧ Renders v j ∧
      c.contentDigest = sha256 (String.ofList (Json.compact j)) := by
  obtain ⟨_, j, rendered, text, digest⟩ := made.written
  have reads := renders v j rendered
  refine ⟨j, rendered, ?_, reads, text ▸ digest⟩
  exact present_eq_ok.mpr (text ▸ Json.loads_compact reads.1)

/-- A trusted content is an instruction. -/
theorem ExternalContent.MadeFrom.instruction (made : c.MadeFrom sha256 v)
    (trusted : c.origin ∈ trustedOrigins) : ∃ text, c.instruction = .ok text := by
  obtain ⟨j, rendered, data, _⟩ := made.read
  cases v with
  | str text =>
    obtain rfl := Except.ok.inj rendered
    exact ⟨text, bind_eq_ok.mpr ⟨_, data, rfl⟩⟩
  | _ => exact absurd (made.written.1 trusted) Bool.false_ne_true

theorem arrange_fields (c : ExternalContent) (j : Json) :
    Json.arrange (.obj (c.fields j)) = .obj (c.fields (Json.arrange j)) := by
  have names : ["content_digest", "data", "origin", "source", "trust_class"].Pairwise (· ≤ ·) := by
    decide
  exact Json.arrange_obj_of_sorted names

theorem readable_fields (c : ExternalContent) {j : Json} (readable : Json.Readable j) :
    Json.Readable (.obj (c.fields j)) :=
  ⟨trivial, readable, trivial, trivial, trivial, trivial⟩

/-- The message of a content carries it just if the digest is that of the data in order. -/
theorem carries_iff (injective : Function.Injective sha256) (made : c.MadeFrom sha256 v)
    {m : ContextMessage} (message : c.dataMessage = .ok m) : Carries sha256 c m ↔ InOrder v := by
  obtain ⟨j, _, data, ⟨readable, in_order⟩, digest⟩ := made.read
  obtain ⟨own, same, written⟩ := bind_eq_ok.mp message
  obtain rfl := Except.ok.inj (data.symm.trans same)
  obtain rfl := Except.ok.inj written
  have reads := Json.loads_dumps_arrange (readable_fields c readable)
  rw [arrange_fields] at reads
  have texts : String.ofList (Json.compact j) = Json.dumps (Json.arrange j) ↔ InOrder v := by
    rw [Json.dumps_arrange, Json.compact_eq_dumps_iff readable, in_order]
  rw [← texts]
  constructor
  · rintro ⟨other, own, _, _, held⟩
    have members := Json.obj.inj (Option.some.inj (reads.symm.trans held))
    simp only [fields, List.cons.injEq, Prod.mk.injEq, true_and, Json.str.injEq] at members
    obtain ⟨digests, rfl, _⟩ := members
    exact injective (digest.symm.trans digests)
  · intro same
    refine ⟨Json.arrange j, j, data, Json.arrange_arrange j, reads.trans ?_⟩
    rw [fields, digest, same]

end Content

/-! ## Envelopes -/

section Envelope

variable {sha256} {e e' : ContextEnvelope}

/-- The contents of an envelope are in the channel of their origin and trust. -/
structure Channels (e : ContextEnvelope) : Prop where
  trusted : ∀ c ∈ e.trusted, c.trustClass = .trusted ∧ c.origin ∈ trustedOrigins
  external : ∀ c ∈ e.external, c.trustClass = .untrusted ∧ c.origin ∈ externalOrigins

theorem ContextEnvelope.Accepted.channels (accepted : e.Accepted sha256) : Channels e := by
  obtain ⟨_, class_, composed⟩ := bind_eq_ok.mp accepted.composed
  obtain ⟨_, origin, composed⟩ := bind_eq_ok.mp composed
  obtain ⟨_, class', composed⟩ := bind_eq_ok.mp composed
  obtain ⟨_, origin', _⟩ := bind_eq_ok.mp composed
  have each : ∀ {l : List ExternalContent} {P : ExternalContent → Prop},
      (¬ ∃ item ∈ l, ¬ P item) → ∀ item ∈ l, P item := by
    intro l P none item mem
    by_contra fails
    exact none ⟨item, mem, fails⟩
  exact {
    trusted := fun c mem => ⟨each (refuse_eq_ok.mp class_) c mem,
      each (refuse_eq_ok.mp origin) c mem⟩
    external := fun c mem => ⟨each (refuse_eq_ok.mp class') c mem,
      each (refuse_eq_ok.mp origin') c mem⟩ }

theorem Channels.of_origin (channels : Channels e) :
    (e.trusted ++ e.external).filter (fun c => c.origin ∈ trustedOrigins) = e.trusted := by
  have apart : ∀ origin ∈ externalOrigins, origin ∉ trustedOrigins := by decide
  rw [List.filter_append, List.filter_eq_self.mpr, List.filter_eq_nil_iff.mpr, List.append_nil]
  · intro c mem
    simpa using apart _ (channels.external c mem).2
  · intro c mem
    simpa using (channels.trusted c mem).2

theorem Channels.of_class (channels : Channels e) :
    (e.trusted ++ e.external).filter (fun c => c.trustClass = .untrusted) = e.external := by
  rw [List.filter_append, List.filter_eq_nil_iff.mpr, List.filter_eq_self.mpr, List.nil_append]
  · intro c mem
    simpa using (channels.external c mem).1
  · intro c mem
    simp [(channels.trusted c mem).1]

/-- The messages of an envelope: the instructions, and after them the data. -/
theorem ContextEnvelope.Accepted.messages_eq (accepted : e.Accepted sha256) :
    ∃ instructions payloads, e.messages = .ok (instructions ++ payloads) ∧
      List.Forall₂ (fun c m => ExternalContent.instructionMessage c = .ok m)
        e.trusted instructions ∧
      List.Forall₂ (fun c m => ExternalContent.dataMessage c = .ok m) e.external payloads := by
  have instruct : ∀ c ∈ e.trusted, ∃ m, c.instructionMessage = .ok m := by
    intro c mem
    obtain ⟨v, made⟩ := accepted.made c (List.mem_append_left _ mem)
    obtain ⟨text, instruction⟩ := made.instruction (accepted.channels.trusted c mem).2
    exact ⟨_, bind_eq_ok.mpr ⟨text, instruction, rfl⟩⟩
  have inform : ∀ c ∈ e.external, ∃ m, c.dataMessage = .ok m := by
    intro c mem
    obtain ⟨v, made⟩ := accepted.made c (List.mem_append_right _ mem)
    obtain ⟨j, _, data, _⟩ := made.read
    exact ⟨_, bind_eq_ok.mpr ⟨j, data, rfl⟩⟩
  obtain ⟨instructions, each⟩ := exists_forall₂ instruct
  obtain ⟨payloads, each'⟩ := exists_forall₂ inform
  refine ⟨instructions, payloads, ?_, each, each'⟩
  exact bind_eq_ok.mpr ⟨_, mapM_eq_ok.mpr each, bind_eq_ok.mpr ⟨_, mapM_eq_ok.mpr each', rfl⟩⟩

theorem forall₂_both {α β : Type} {R S : α → β → Prop} {xs : List α} {ys : List β}
    (first : List.Forall₂ R xs ys) (second : List.Forall₂ S xs ys) :
    List.Forall₂ (fun x y => R x y ∧ S x y) xs ys := by
  induction first with
  | nil => exact .nil
  | cons related _ ih =>
    obtain ⟨related', rest⟩ := List.forall₂_cons.mp second
    exact .cons ⟨related, related'⟩ (ih rest)

theorem filter_role {contents : List ExternalContent} {ms : List ContextMessage} {role : Role}
    {write : ExternalContent → Except Refusal ContextMessage}
    (writes : ∀ c m, write c = .ok m → m.role = role)
    (each : List.Forall₂ (fun c m => write c = .ok m) contents ms) (asked : Role) :
    ms.filter (fun m => m.role = asked) = if role = asked then ms else [] := by
  have roles : ∀ m ∈ ms, m.role = role := by
    intro m mem
    obtain ⟨c, _, written⟩ := exists_left each mem
    exact writes c m written
  by_cases same : role = asked
  · rw [if_pos same]
    refine List.filter_eq_self.mpr fun m mem => ?_
    simpa [same] using roles m mem
  · rw [if_neg same]
    refine List.filter_eq_nil_iff.mpr fun m mem => ?_
    simpa [roles m mem] using same

theorem instructionMessage_eq_ok {c : ExternalContent} {m : ContextMessage}
    (written : c.instructionMessage = .ok m) :
    m.role = .system ∧ c.instruction = .ok m.content := by
  obtain ⟨text, instruction, written⟩ := bind_eq_ok.mp written
  obtain rfl := Except.ok.inj written
  exact ⟨rfl, instruction⟩

theorem dataMessage_role {c : ExternalContent} {m : ContextMessage}
    (written : c.dataMessage = .ok m) : m.role = .user := by
  obtain ⟨_, _, written⟩ := bind_eq_ok.mp written
  obtain rfl := Except.ok.inj written
  rfl

/-! ## The digest -/

theorem plain_asDict (m : ContextMessage) : Json.Plain m.asDict :=
  ⟨trivial, trivial, trivial, trivial⟩

theorem asDict_inj (m m' : ContextMessage) (same : m.asDict.encode = m'.asDict.encode) :
    m = m' := by
  have names : ["content", "kind", "role"].Nodup := by decide
  have values := Json.values_inj same (plain_asDict m) (plain_asDict m') names rfl
  simp only [List.map_cons, List.map_nil, List.cons.injEq, and_true] at values
  obtain ⟨content, kind, role⟩ := values
  have kinds : ∀ k k' : MessageKind, k.value = k'.value → k = k' := by
    intro k k'
    cases k <;> cases k' <;> decide
  have roles : ∀ r r' : Role, r.value = r'.value → r = r' := by
    intro r r'
    cases r <;> cases r' <;> decide
  obtain ⟨r, k, t⟩ := m
  obtain ⟨r', k', t'⟩ := m'
  obtain rfl := roles r r' (Json.str_inj role)
  obtain rfl := kinds k k' (Json.str_inj kind)
  obtain rfl := Json.str_inj content
  rfl

theorem plain_payload (e : ContextEnvelope) (ms : List ContextMessage) :
    Json.PlainMembers (e.payload sha256 ms) := by
  refine ⟨⟨trivial, trivial, trivial⟩, Json.plainItems_iff.mpr fun v mem => ?_, trivial, trivial⟩
  obtain ⟨m, _, rfl⟩ := List.mem_map.mp mem
  exact plain_asDict m

theorem owner_inj {o o' : ContextOwner}
    (same : (Json.obj o.fields).encode = (Json.obj o'.fields).encode) : o = o' := by
  have names : ∀ o : ContextOwner, o.fields.map Prod.fst = ["id", "kind"] := fun _ => rfl
  have nodup : ["id", "kind"].Nodup := by decide
  have values := Json.values_inj same ⟨trivial, trivial, trivial⟩ ⟨trivial, trivial, trivial⟩
    (names o' ▸ nodup) ((names o).trans (names o').symm)
  simp only [ContextOwner.fields, List.map_cons, List.map_nil, List.cons.injEq,
    and_true] at values
  have kinds : ∀ k k' : ContextOwnerKind, k.value = k'.value → k = k' := by
    intro k k'
    cases k <;> cases k' <;> decide
  have id : o.id = o'.id := Uuid.text_inj (Json.str_inj values.1)
  have kind : o.kind = o'.kind := kinds _ _ (Json.str_inj values.2)
  cases o
  cases o'
  obtain rfl := id
  obtain rfl := kind
  rfl

/-- The text of the digest determines the owner and the messages. -/
theorem payload_inj {ms ms' : List ContextMessage}
    (same : (Json.obj (e.payload sha256 ms)).encode = (Json.obj (e'.payload sha256 ms')).encode) :
    e.owner = e'.owner ∧ ms = ms' := by
  have names : ∀ (e : ContextEnvelope) ms, (e.payload sha256 ms).map Prod.fst =
      ["owner", "messages", "firewall_policy_digest"] := fun _ _ => rfl
  have nodup : ["owner", "messages", "firewall_policy_digest"].Nodup := by decide
  have values := Json.values_inj same (plain_payload e ms) (plain_payload e' ms')
    (names e' ms' ▸ nodup) ((names e ms).trans (names e' ms').symm)
  simp only [ContextEnvelope.payload, List.map_cons, List.map_nil, List.cons.injEq,
    and_true] at values
  have messages : ms.map id = ms'.map id := Json.records_inj plain_asDict asDict_inj values.2
  rw [List.map_id, List.map_id] at messages
  exact ⟨owner_inj values.1, messages⟩

theorem digest_eq {ms : List ContextMessage} (messages : e.messages = .ok ms) :
    e.digest sha256 = .ok (sha256 (Json.dumps (.obj (e.payload sha256 ms)))) := by
  rw [ContextEnvelope.digest, messages]
  rfl

/-- Envelopes of one digest have one owner and the same messages. -/
theorem digest_binds (injective : Function.Injective sha256) (accepted : e.Accepted sha256)
    (accepted' : e'.Accepted sha256) (same : e'.digest sha256 = e.digest sha256) :
    e'.owner = e.owner ∧ e'.messages = e.messages := by
  obtain ⟨_, _, messages, _⟩ := accepted.messages_eq
  obtain ⟨_, _, messages', _⟩ := accepted'.messages_eq
  rw [digest_eq messages, digest_eq messages'] at same
  have texts := Json.encode_eq_of_dumps_eq (injective (Except.ok.inj same))
  obtain ⟨owner, ms⟩ := payload_inj texts
  exact ⟨owner, by rw [messages, messages', ms]⟩

section Filtered

variable {instructions payloads : List ContextMessage}

theorem system_messages
    (instruct : List.Forall₂ (fun c m => ExternalContent.instructionMessage c = .ok m)
      e.trusted instructions)
    (inform : List.Forall₂ (fun c m => ExternalContent.dataMessage c = .ok m) e.external payloads) :
    (instructions ++ payloads).filter (fun m => m.role = .system) = instructions := by
  rw [List.filter_append,
    filter_role (fun _ _ written => (instructionMessage_eq_ok written).1) instruct,
    filter_role (fun _ _ written => dataMessage_role written) inform]
  exact List.append_nil _

theorem user_messages
    (instruct : List.Forall₂ (fun c m => ExternalContent.instructionMessage c = .ok m)
      e.trusted instructions)
    (inform : List.Forall₂ (fun c m => ExternalContent.dataMessage c = .ok m) e.external payloads) :
    (instructions ++ payloads).filter (fun m => m.role = .user) = payloads := by
  rw [List.filter_append,
    filter_role (fun _ _ written => (instructionMessage_eq_ok written).1) instruct,
    filter_role (fun _ _ written => dataMessage_role written) inform]
  rfl

end Filtered

/-- Behind the firewall every dict of an external content has its keys in order. -/
theorem in_order_of_firewall (injective : Function.Injective sha256) (accepted : e.Accepted sha256)
    {ms : List ContextMessage} (held : e.messages = .ok ms) (firewall : Firewall sha256 e ms) :
    ∀ c ∈ e.external, ∀ v, c.MadeFrom sha256 v → InOrder v := by
  intro c mem v made
  obtain ⟨instructions, payloads, messages, instruct, inform⟩ := accepted.messages_eq
  obtain rfl := Except.ok.inj (messages.symm.trans held)
  have carried := firewall.user
  rw [accepted.channels.of_class, user_messages instruct inform] at carried
  obtain ⟨m, _, carries, written⟩ := exists_right (forall₂_both carried inform) mem
  exact (carries_iff injective made written).mp carries

theorem firewall_of_in_order (injective : Function.Injective sha256)
    (accepted : e.Accepted sha256)
    (in_order : ∀ c ∈ e.external, ∀ v, c.MadeFrom sha256 v → InOrder v) :
    ∃ messages, e.messages = .ok messages ∧ Firewall sha256 e messages := by
  obtain ⟨instructions, payloads, messages, instruct, inform⟩ := accepted.messages_eq
  refine ⟨_, messages, ?_, ?_, ?_⟩
  · rw [accepted.channels.of_origin, system_messages instruct inform]
    exact instruct.imp fun _ _ written => (instructionMessage_eq_ok written).2
  · rw [accepted.channels.of_class, user_messages instruct inform]
    have ordered : ∀ c ∈ e.external, ∃ v, c.MadeFrom sha256 v ∧ InOrder v := by
      intro c mem
      obtain ⟨v, made⟩ := accepted.made c (List.mem_append_right _ mem)
      exact ⟨v, made, in_order c mem v made⟩
    refine ((List.forall₂_and_left _ _).mpr ⟨ordered, inform⟩).imp ?_
    rintro c m ⟨⟨v, made, in_order⟩, written⟩
    exact (carries_iff injective made written).mpr in_order
  · intro e' accepted' same
    rw [← messages]
    exact digest_binds injective accepted accepted' same

/-- The firewall holds of an envelope just if the keys of every dict in its external contents are
in the order of their texts. -/
theorem firewall_iff (injective : Function.Injective sha256) (accepted : e.Accepted sha256) :
    (∃ messages, e.messages = .ok messages ∧ Firewall sha256 e messages) ↔
      ∀ c ∈ e.external, ∀ v, c.MadeFrom sha256 v → InOrder v := by
  constructor
  · rintro ⟨ms, held, firewall⟩
    exact in_order_of_firewall injective accepted held firewall
  · intro in_order
    exact firewall_of_in_order injective accepted in_order

end Envelope

/-! ## A dict with numbers as keys -/

namespace Sample

def keyed (k l : Int) : Value := .dict [(.int k, .str "a"), (.int l, .str "b")]

def written (k l : Int) : String :=
  String.ofList (Json.compact (.obj [(toString k, .str "a"), (toString l, .str "b")]))

def rule : ExternalContent :=
  { id := .ofNat 1, origin := .system, source := "corvus:system", trustClass := .trusted,
    contentDigest := "\"Be brief.\"", contentJson := "\"Be brief.\"" }

def told (k l : Int) : ExternalContent :=
  { id := .ofNat 2, origin := .user, source := "chat", trustClass := .untrusted,
    contentDigest := written k l, contentJson := written k l }

def envelope (k l : Int) : ContextEnvelope := ⟨⟨.root, .ofNat 3⟩, [rule], [told k l]⟩

theorem rule_made : rule.MadeFrom id (.str "Be brief.") := by rfl

theorem keyed_json {k l : Int} (less : (Key.int k).le (.int l)) :
    toJson (keyed k l) = .ok (.obj [(toString k, .str "a"), (toString l, .str "b")]) := by
  have sorted : sortKeys [(Key.int k, Json.str "a"), (Key.int l, Json.str "b")] =
      [(Key.int k, Json.str "a"), (Key.int l, Json.str "b")] :=
    List.Pairwise.insertionSort_eq (List.pairwise_pair.mpr less)
  change Except.ok (Json.obj ((sortKeys _).map _)) = _
  rw [sorted]
  rfl

theorem told_made {k l : Int} (less : (Key.int k).le (.int l)) :
    (told k l).MadeFrom id (keyed k l) := by
  have named : ¬ ("chat" = "" ∨ Text.strip "chat" = "") := by decide
  refine bind_eq_ok.mpr ⟨(), refuse_eq_ok.mpr named, ?_⟩
  rw [canonicalJson, keyed_json less]
  rfl

theorem accepted {k l : Int} (less : (Key.int k).le (.int l)) : (envelope k l).Accepted id where
  composed := by rfl
  made := by
    intro c mem
    obtain rfl | mem := List.mem_cons.mp mem
    · exact ⟨_, rule_made⟩
    · obtain rfl := List.mem_singleton.mp mem
      exact ⟨_, told_made less⟩

end Sample

/-- The keys `2` and `10` are written in this order, and in the message `"10"` comes first. -/
theorem numbered_content_unbound :
    ¬ ∀ sha256 : String → String, Function.Injective sha256 → ∀ e : ContextEnvelope,
      e.Accepted sha256 → ∃ messages, e.messages = .ok messages ∧ Firewall sha256 e messages := by
  intro claim
  have less : (Key.int 2).le (.int 10) := by decide
  have accepted := Sample.accepted less
  obtain ⟨ms, held, firewall⟩ := claim id Function.injective_id _ accepted
  have in_order := in_order_of_firewall Function.injective_id accepted held firewall
    (Sample.told 2 10) (List.mem_singleton_self _) _ (Sample.told_made less)
  have unordered : ¬ InTextOrder [.int 2, .int 10] := by
    unfold InTextOrder
    decide +kernel
  exact unordered in_order.1

theorem firewall_iff_sample :
    (∃ messages, (Sample.envelope 1 2).messages = .ok messages ∧
      Firewall id (Sample.envelope 1 2) messages) ↔
      ∀ c ∈ (Sample.envelope 1 2).external, ∀ v, c.MadeFrom id v → InOrder v :=
  firewall_iff Function.injective_id (Sample.accepted (by decide))

end Corvus.Context
