/-
  WHOSE IDENTITY A REQUEST CARRIES after `attach_consumer` and an `attach-consumer-label` node.

  Both only write.  Over two incoming contexts the same entries are written, so a name reads the
  same afterwards exactly when it was written or read the same before
  (`HashMap.get_insertMany_eq_iff`).  An attribute the consumer lacks is not written: what a
  client sent, or an earlier authentication left, under its name stays.  Hence the identity is the
  consumer's alone exactly for the contexts that bring nothing under such names
  (`fromConsumerAlone_iff`), and not in general (`forged_identity`).
-/
import Featherbit.Consumers
import Featherbit.Plugins.AttachConsumerLabel

namespace Featherbit

section Identity

variable [CaseMapping]

/-! ## What the identity is -/

/-- The `context.message` keys that say who the consumer is. -/
def identityKeys : List String :=
  ["consumer.name", "consumer.group", "consumer.labels", "consumer.custom_id"]

/-- A spelling of one of the two headers forwarded about the consumer. -/
def IsConsumerHeader (name : String) : Prop :=
  toLowercase name ∈ ["x-consumer-username", "x-consumer-custom-id"]

namespace AttachConsumerLabelPlugin

/-- A header name under the node's prefix, in any spelling. -/
def UnderPrefix (plugin : AttachConsumerLabelPlugin) (name : String) : Prop :=
  startsWith (toLowercase name) (toLowercase plugin.headerPrefix)

/-- The headers after `attach_consumer` and then the node. -/
def headersAfter (plugin : AttachConsumerLabelPlugin) (ctx : Context) (consumer : Consumer)
    (authType : String) : HashMap (List String) :=
  (PluginResult.context
    (plugin.execute (attachConsumer ctx consumer authType))).request.headers

end AttachConsumerLabelPlugin

/-- From `ctx` and from `ctx'` the consumer gets the same identity: message keys and consumer
    headers after `attach_consumer`, label headers after the node that comes next. -/
structure SameIdentity (plugin : AttachConsumerLabelPlugin) (consumer : Consumer)
    (authType : String) (ctx ctx' : Context) : Prop where
  message : ∀ key ∈ identityKeys,
    (attachConsumer ctx consumer authType).message[key]? =
      (attachConsumer ctx' consumer authType).message[key]?
  headers : ∀ name, IsConsumerHeader name →
    (attachConsumer ctx consumer authType).request.headers[name]? =
      (attachConsumer ctx' consumer authType).request.headers[name]?
  labels : ∀ name, plugin.UnderPrefix name →
    (plugin.headersAfter ctx consumer authType)[name]? =
      (plugin.headersAfter ctx' consumer authType)[name]?

/-! ## What is written -/

namespace Consumer

/-- The message entries `attach_consumer` writes, in its order. -/
def messageWrites (consumer : Consumer) (authType : String) : List (String × Json) :=
  ("consumer.name", .string consumer.name) ::
    ((consumer.group.map fun group => ("consumer.group", .string group)).toList ++
      (if consumer.labels.isEmpty then [] else [("consumer.labels", consumer.labelsJson)]) ++
      ("consumer.auth_type", .string authType) ::
        (consumer.labels["custom_id"]?.map fun id => ("consumer.custom_id", .string id)).toList)

/-- The headers it writes. -/
def headerWrites (consumer : Consumer) : List (String × List String) :=
  ("x-consumer-username", [consumer.name]) ::
    (consumer.labels["custom_id"]?.map fun id => ("x-consumer-custom-id", [id])).toList

/-- The labels as the node reads them. -/
def labelFields (consumer : Consumer) : List (String × Json) :=
  consumer.labels.toList.map fun (key, value) => (key, .string value)

end Consumer

omit [CaseMapping] in
theorem attachConsumer_message (ctx : Context) (consumer : Consumer) (authType : String) :
    (attachConsumer ctx consumer authType).message =
      ctx.message.insertMany (consumer.messageWrites authType) := by
  unfold attachConsumer Consumer.messageWrites
  cases consumer.group <;> cases consumer.labels.isEmpty <;>
    cases consumer.labels["custom_id"]? <;> simp [Std.ExtTreeMap.insertMany_cons]

omit [CaseMapping] in
theorem attachConsumer_headers (ctx : Context) (consumer : Consumer) (authType : String) :
    (attachConsumer ctx consumer authType).request.headers =
      ctx.request.headers.insertMany consumer.headerWrites := by
  unfold attachConsumer Consumer.headerWrites
  cases consumer.labels["custom_id"]? <;> simp [Std.ExtTreeMap.insertMany_cons]

omit [CaseMapping] in
theorem mem_headerWrites {consumer : Consumer} {name : String} :
    name ∈ consumer.headerWrites.map Prod.fst ↔
      name = "x-consumer-username" ∨
        name = "x-consumer-custom-id" ∧ "custom_id" ∈ consumer.labels := by
  rw [Consumer.headerWrites, List.map_cons, List.mem_cons,
    Std.ExtTreeMap.mem_iff_isSome_getElem?]
  cases consumer.labels["custom_id"]? <;> simp

/-- Each label gives one header. -/
theorem mem_labelWrites (plugin : AttachConsumerLabelPlugin) {consumer : Consumer} {name : String} :
    name ∈ (plugin.labelWrites consumer.labelFields).map Prod.fst ↔
      ∃ label ∈ consumer.labels, name = plugin.headerName label := by
  have hwrites : plugin.labelWrites consumer.labelFields =
      consumer.labels.toList.map fun (key, value) => (plugin.headerName key, [value]) := by
    unfold AttachConsumerLabelPlugin.labelWrites Consumer.labelFields
    rw [List.filterMap_map, ← List.filterMap_eq_map]
    rfl
  rw [hwrites, List.map_map]
  constructor
  · intro h
    obtain ⟨⟨key, value⟩, hmem, rfl⟩ := List.mem_map.mp h
    refine ⟨key, ?_, rfl⟩
    rw [Std.ExtTreeMap.mem_iff_isSome_getElem?,
      Std.ExtTreeMap.mem_toList_iff_getElem?_eq_some.mp hmem]
    rfl
  · rintro ⟨key, hkey, rfl⟩
    obtain ⟨value, hvalue⟩ :=
      Option.isSome_iff_exists.mp (Std.ExtTreeMap.mem_iff_isSome_getElem?.mp hkey)
    exact List.mem_map.mpr
      ⟨(key, value), Std.ExtTreeMap.mem_toList_iff_getElem?_eq_some.mpr hvalue, rfl⟩

omit [CaseMapping] in
theorem mem_messageWrites {consumer : Consumer} {authType key : String} :
    key ∈ (consumer.messageWrites authType).map Prod.fst ↔
      key = "consumer.name" ∨ key = "consumer.group" ∧ consumer.group ≠ none ∨
        key = "consumer.labels" ∧ consumer.labels ≠ ∅ ∨ key = "consumer.auth_type" ∨
          key = "consumer.custom_id" ∧ "custom_id" ∈ consumer.labels := by
  have hlabels : consumer.labels.isEmpty = true ↔ consumer.labels = ∅ :=
    Std.ExtTreeMap.isEmpty_iff
  simp only [Consumer.messageWrites, Std.ExtTreeMap.mem_iff_isSome_getElem?, ne_eq, ← hlabels]
  cases consumer.group <;> cases consumer.labels.isEmpty <;>
    cases consumer.labels["custom_id"]? <;> simp

omit [CaseMapping] in
/-- Which labels the node reads: the consumer's, or what was there if it has none. -/
theorem labels_of_attached (ctx : Context) (consumer : Consumer) (authType : String) :
    (attachConsumer ctx consumer authType).message["consumer.labels"]? =
      if consumer.labels.isEmpty then ctx.message["consumer.labels"]?
      else some (.object consumer.labelFields) := by
  unfold attachConsumer
  cases consumer.group <;> cases consumer.labels.isEmpty <;>
    cases consumer.labels["custom_id"]? <;>
    simp only [HashMap.get_insert, String.reduceEq, Bool.false_eq_true, if_false, if_true] <;> rfl

/-! ## The contexts the identity does not depend on -/

/-- The identity is the one a request without headers or message keys would get. -/
def FromConsumerAlone (plugin : AttachConsumerLabelPlugin) (consumer : Consumer)
    (authType : String) (ctx : Context) : Prop :=
  SameIdentity plugin consumer authType ctx (Context.new default)

/-- `ctx` has nothing under an identity name that the consumer's own attributes do not
    overwrite. -/
structure BringsNothing (plugin : AttachConsumerLabelPlugin) (consumer : Consumer)
    (ctx : Context) : Prop where
  group : consumer.group = none → "consumer.group" ∉ ctx.message
  labels : consumer.labels = ∅ → "consumer.labels" ∉ ctx.message
  customId : "custom_id" ∉ consumer.labels → "consumer.custom_id" ∉ ctx.message
  headers : ∀ name ∈ ctx.request.headers, IsConsumerHeader name →
    name = "x-consumer-username" ∨
      name = "x-consumer-custom-id" ∧ "custom_id" ∈ consumer.labels
  labelHeaders : ∀ name ∈ ctx.request.headers, plugin.UnderPrefix name →
    (name = "x-consumer-username" ∨
      name = "x-consumer-custom-id" ∧ "custom_id" ∈ consumer.labels) ∨
    ∃ label ∈ consumer.labels, name = toLowercase (plugin.headerPrefix ++ label)

omit [CaseMapping] in
theorem messageSame_iff (ctx : Context) (consumer : Consumer) (authType : String) :
    (∀ key ∈ identityKeys,
      (attachConsumer ctx consumer authType).message[key]? =
        (attachConsumer (Context.new default) consumer authType).message[key]?) ↔
      (consumer.group = none → "consumer.group" ∉ ctx.message) ∧
        (consumer.labels = ∅ → "consumer.labels" ∉ ctx.message) ∧
        ("custom_id" ∉ consumer.labels → "consumer.custom_id" ∉ ctx.message) := by
  have hkey : ∀ key, (attachConsumer ctx consumer authType).message[key]? =
      (attachConsumer (Context.new default) consumer authType).message[key]? ↔
      key ∈ (consumer.messageWrites authType).map Prod.fst ∨ key ∉ ctx.message := by
    intro key
    rw [attachConsumer_message, attachConsumer_message, HashMap.get_insertMany_eq_iff]
    show _ ∨ ctx.message[key]? = (∅ : HashMap Json)[key]? ↔ _
    rw [Std.ExtTreeMap.getElem?_empty, ← Option.not_isSome_iff_eq_none,
      ← Std.ExtTreeMap.mem_iff_isSome_getElem?]
  simp only [hkey, mem_messageWrites, identityKeys, List.forall_mem_cons]
  simp [or_iff_not_imp_left]

omit [CaseMapping] in
/-- After `attach_consumer` a header reads as it would without anything sent, unless it was sent
    and not overwritten. -/
theorem attachedHeader_same_iff (ctx : Context) (consumer : Consumer) (authType name : String) :
    (attachConsumer ctx consumer authType).request.headers[name]? =
        (attachConsumer (Context.new default) consumer authType).request.headers[name]? ↔
      (name ∈ ctx.request.headers → name ∈ consumer.headerWrites.map Prod.fst) := by
  rw [attachConsumer_headers, attachConsumer_headers, HashMap.get_insertMany_eq_iff]
  show _ ∨ ctx.request.headers[name]? = (∅ : HashMap (List String))[name]? ↔ _
  rw [Std.ExtTreeMap.getElem?_empty, ← Option.not_isSome_iff_eq_none,
    ← Std.ExtTreeMap.mem_iff_isSome_getElem?, or_comm, imp_iff_not_or]

/-- The node writes the consumer's labels, provided no others were left behind. -/
theorem headersAfter_eq (plugin : AttachConsumerLabelPlugin) {ctx : Context} {consumer : Consumer}
    (hleft : consumer.labels = ∅ → "consumer.labels" ∉ ctx.message) (authType : String) :
    plugin.headersAfter ctx consumer authType =
      (attachConsumer ctx consumer authType).request.headers.insertMany
        (plugin.labelWrites consumer.labelFields) := by
  rw [AttachConsumerLabelPlugin.headersAfter, AttachConsumerLabelPlugin.execute_headers,
    labels_of_attached]
  cases hempty : consumer.labels.isEmpty with
  | false => rfl
  | true =>
    -- the node reads what was there before, which is nothing
    have hlabels : consumer.labels = ∅ := Std.ExtTreeMap.isEmpty_iff.mp hempty
    have hnone : ctx.message["consumer.labels"]? = none :=
      Std.ExtTreeMap.getElem?_eq_none (hleft hlabels)
    have hfields : consumer.labelFields = [] := by
      rw [Consumer.labelFields, hlabels]
      rfl
    rw [if_pos rfl, hnone, hfields]
    rfl

theorem labelHeader_same_iff (plugin : AttachConsumerLabelPlugin) {ctx : Context}
    {consumer : Consumer} (hleft : consumer.labels = ∅ → "consumer.labels" ∉ ctx.message)
    (authType name : String) :
    (plugin.headersAfter ctx consumer authType)[name]? =
        (plugin.headersAfter (Context.new default) consumer authType)[name]? ↔
      (name ∈ ctx.request.headers → name ∈ consumer.headerWrites.map Prod.fst ∨
        ∃ label ∈ consumer.labels, name = plugin.headerName label) := by
  have hblank : consumer.labels = ∅ →
      "consumer.labels" ∉ (Context.new default).message :=
    fun _ => Std.ExtTreeMap.not_mem_empty
  rw [headersAfter_eq plugin hleft, headersAfter_eq plugin hblank,
    HashMap.get_insertMany_eq_iff, attachedHeader_same_iff, mem_labelWrites]
  -- written by the node, or by `attach_consumer`, or not sent
  constructor
  · rintro (hlabel | hattached) hmem
    · exact .inr hlabel
    · exact .inl (hattached hmem)
  · intro h
    by_cases hmem : name ∈ ctx.request.headers
    · exact (h hmem).symm.imp_right fun hwritten _ => hwritten
    · exact .inr fun hmem' => absurd hmem' hmem

theorem bringsNothing_of_fromConsumerAlone {plugin : AttachConsumerLabelPlugin}
    {consumer : Consumer} {authType : String} {ctx : Context}
    (h : FromConsumerAlone plugin consumer authType ctx) : BringsNothing plugin consumer ctx := by
  obtain ⟨hgroup, hlabels, hid⟩ := (messageSame_iff ctx consumer authType).mp h.message
  refine ⟨hgroup, hlabels, hid, fun name hmem hname => ?_, fun name hmem hname => ?_⟩
  · exact mem_headerWrites.mp ((attachedHeader_same_iff ..).mp (h.headers name hname) hmem)
  · rw [← mem_headerWrites]
    exact (labelHeader_same_iff plugin hlabels ..).mp (h.labels name hname) hmem

theorem fromConsumerAlone_of_bringsNothing {plugin : AttachConsumerLabelPlugin}
    {consumer : Consumer} {ctx : Context} (h : BringsNothing plugin consumer ctx)
    (authType : String) : FromConsumerAlone plugin consumer authType ctx := by
  refine ⟨(messageSame_iff ctx consumer authType).mpr ⟨h.group, h.labels, h.customId⟩,
    fun name hname => ?_, fun name hname => ?_⟩
  · exact (attachedHeader_same_iff ..).mpr fun hmem =>
      mem_headerWrites.mpr (h.headers name hmem hname)
  · refine (labelHeader_same_iff plugin h.labels ..).mpr fun hmem => ?_
    rw [mem_headerWrites]
    exact h.labelHeaders name hmem hname

/-- **The identity is the consumer's alone** exactly from a context that brings nothing under the
    names the consumer does not overwrite. -/
theorem fromConsumerAlone_iff (plugin : AttachConsumerLabelPlugin) (consumer : Consumer)
    (authType : String) (ctx : Context) :
    FromConsumerAlone plugin consumer authType ctx ↔ BringsNothing plugin consumer ctx :=
  ⟨bringsNothing_of_fromConsumerAlone, fun h => fromConsumerAlone_of_bringsNothing h authType⟩

/-- Two such contexts give the consumer one identity. -/
theorem sameIdentity_of_bringNothing {plugin : AttachConsumerLabelPlugin} {consumer : Consumer}
    {ctx ctx' : Context} (h : BringsNothing plugin consumer ctx)
    (h' : BringsNothing plugin consumer ctx') (authType : String) :
    SameIdentity plugin consumer authType ctx ctx' := by
  have hblank := fromConsumerAlone_of_bringsNothing h authType
  have hblank' := fromConsumerAlone_of_bringsNothing h' authType
  exact ⟨fun key hkey => (hblank.message key hkey).trans (hblank'.message key hkey).symm,
    fun name hname => (hblank.headers name hname).trans (hblank'.headers name hname).symm,
    fun name hname => (hblank.labels name hname).trans (hblank'.labels name hname).symm⟩

end Identity

/-! ## A forged identity -/

/-- A consumer without group or labels. -/
def guest : Consumer where
  name := "guest"
  group := none
  labels := ∅
  credentials := ∅

/-- A request whose client sends a custom id, on a path where an earlier authentication has left
    its group. -/
def forgedContext : Context where
  request :=
    { (default : GatewayRequest) with
      headers := (∅ : HashMap (List String)).insert "x-consumer-custom-id" ["1"] }
  response := { statusCode := 0, headers := ∅, body := [] }
  message := (∅ : HashMap Json).insert "consumer.group" (.string "admins")
  errors := []

/-- The guest goes on as a member of `admins` with custom id `1`. -/
theorem forged_identity :
    (attachConsumer forgedContext guest "key-auth").message["consumer.group"]? =
        some (.string "admins") ∧
      (attachConsumer forgedContext guest "key-auth").request.headers["x-consumer-custom-id"]? =
        some ["1"] ∧
      ¬ ∀ plugin consumer authType ctx ctx',
        @SameIdentity asciiCaseMapping plugin consumer authType ctx ctx' := by
  have hmessage : (attachConsumer forgedContext guest "key-auth").message =
      (forgedContext.message.insert "consumer.name" (.string "guest")).insert
        "consumer.auth_type" (.string "key-auth") := rfl
  have hheaders : (attachConsumer forgedContext guest "key-auth").request.headers =
      forgedContext.request.headers.insert "x-consumer-username" ["guest"] := rfl
  refine ⟨?_, ?_, fun h => ?_⟩
  · rw [hmessage, HashMap.get_insert, if_neg (by decide), HashMap.get_insert,
      if_neg (by decide)]
    exact Std.ExtTreeMap.getElem?_insert_self
  · rw [hheaders, HashMap.get_insert, if_neg (by decide)]
    exact Std.ExtTreeMap.getElem?_insert_self
  · have hsame := h ⟨"X-Consumer-"⟩ guest "key-auth" forgedContext (Context.new default)
    obtain ⟨hgroup, -⟩ := (messageSame_iff forgedContext guest "key-auth").mp
      (@SameIdentity.message asciiCaseMapping _ _ _ _ _ hsame)
    exact hgroup rfl Std.ExtTreeMap.mem_insert_self

end Featherbit
