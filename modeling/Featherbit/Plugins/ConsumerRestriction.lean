/-
  THE `consumer-restriction` NODE (`plugins/native/consumer_restriction.rs`).

  1. **The node.**  It reads three lists; items of another shape than expected are left out of them
     (`stringList`, `entryOf`).  A request is compared by the name or the group of its consumer.
  2. **The configuration** says which requests to let through (`Permitted`): every item of it counts,
     and an entry of `allowed_by_methods` is about the consumer of that name.
  3. **When the node does what the configuration says** (`permits_iff`): a non-empty whitelist has
     some text in it, or it is empty and the first entry of each user is as strict as the others; and
     a node that compares groups has no entries, since it takes their users for groups
     (`named_consumer_unconfined`).
-/
import Featherbit.Plugins.LimitCount
import Mathlib.Data.Set.Finite.Range

namespace Featherbit

/-- What consumer attribute the lists match against. -/
inductive RestrictionType where
  | consumerName
  | consumerGroupId
deriving DecidableEq

/-- A per-consumer HTTP-method allowlist entry. -/
structure AllowedByMethod where
  /-- consumer name this restriction applies to -/
  user : String
  /-- uppercased HTTP methods the consumer may use -/
  methods : List String
deriving DecidableEq

structure ConsumerRestrictionPlugin where
  restrictionType : RestrictionType
  whitelist : List String
  blacklist : List String
  exclusive : whitelist = [] ∨ blacklist = []
  allowedByMethods : List AllowedByMethod
  rejectedCode : UInt16
  rejectedMsg : Option String

namespace ConsumerRestrictionPlugin

/-! ## Configuration -/

/-- The items of a list of the configuration. -/
def items (config : HashMap Json) (key : String) : List Json :=
  (config[key]?.bind Json.asArray).getD []

/-- `string_list`. -/
def stringList (config : HashMap Json) (key : String) : List String :=
  (items config key).filterMap Json.asStr

theorem mem_stringList {key s : String} : s ∈ stringList config key ↔ .string s ∈ items config key := by
  unfold stringList
  rw [List.mem_filterMap]
  constructor
  · rintro ⟨v, hv, hs⟩
    cases v with
    | string t =>
      rw [← Option.some.inj hs]
      exact hv
    | _ => cases hs
  · intro h
    exact ⟨_, h, rfl⟩

/-- The user of an entry of `allowed_by_methods`. -/
def userOf (entry : Json) : Option String := (entry.get "user").bind Json.asStr

section Methods

variable [CaseMapping]

def upperMethods (methods : List Json) : List String :=
  methods.filterMap fun m => m.asStr.map toUppercase

/-- The methods an entry lists. -/
def methodsOf (entry : Json) : List String :=
  upperMethods (((entry.get "methods").bind Json.asArray).getD [])

/-- An entry with both of its fields. -/
def entryOf (entry : Json) : Option AllowedByMethod := do
  let user ← userOf entry
  let methods ← (entry.get "methods").bind Json.asArray
  some { user := user, methods := upperMethods methods }

/-- The entries the node reads. -/
def readEntries (config : HashMap Json) : List AllowedByMethod :=
  (items config "allowed_by_methods").filterMap entryOf

/-- The `type` key. -/
def typeOf (config : HashMap Json) : String := (config["type"]?.bind Json.asStr).getD "consumer_name"

def readType (config : HashMap Json) : Except String RestrictionType :=
  match typeOf config with
  | "consumer_name" => .ok .consumerName
  | "consumer_group_id" => .ok .consumerGroupId
  | "service_id" => .error ("consumer-restriction: type 'service_id' is not supported in " ++
      "featherbit; use 'consumer_name' or 'consumer_group_id'")
  | "route_id" => .error ("consumer-restriction: type 'route_id' is not supported in " ++
      "featherbit; use 'consumer_name' or 'consumer_group_id'")
  | other => .error ("consumer-restriction: unknown type '" ++ other ++
      "'; expected 'consumer_name' or 'consumer_group_id'")

/-- `ConsumerRestrictionPlugin::from_config`. -/
def fromConfig (config : HashMap Json) : Except String ConsumerRestrictionPlugin := do
  let restrictionType ← readType config
  if hexclusive : stringList config "whitelist" = [] ∨ stringList config "blacklist" = [] then
    if stringList config "whitelist" = [] ∧ stringList config "blacklist" = [] ∧
        readEntries config = [] then
      .error ("consumer-restriction: at least one of 'whitelist', 'blacklist' or " ++
        "'allowed_by_methods' is required")
    else
      return {
        restrictionType := restrictionType
        whitelist := stringList config "whitelist"
        blacklist := stringList config "blacklist"
        exclusive := hexclusive
        allowedByMethods := readEntries config
        rejectedCode := ((config["rejected_code"]?.bind Json.asU64).map UInt64.toUInt16).getD 403
        rejectedMsg := config["rejected_msg"]?.bind Json.asStr }
  else .error "consumer-restriction: set only one of 'whitelist' or 'blacklist'"

end Methods

/-! ## Execution -/

section Execute

variable [CaseMapping] [JsonText] (plugin : ConsumerRestrictionPlugin)

/-- The `context.message` key holding the value the node matches on. -/
def valueKey : String :=
  match plugin.restrictionType with
  | .consumerName => "consumer.name"
  | .consumerGroupId => "consumer.group"

def typeLabel : String :=
  match plugin.restrictionType with
  | .consumerName => "consumer_name"
  | .consumerGroupId => "consumer_group_id"

def reject (ctx : Context) (status : UInt16) (message : String) : PluginResult :=
  LimitCountPlugin.rejectWith ctx status (JsonText.toText (.object [("message", .string message)]))
    "CONSUMER_RESTRICTED" message

/-- The rejection by a list. -/
def rejectListed (ctx : Context) : PluginResult :=
  reject ctx plugin.rejectedCode
    (plugin.rejectedMsg.getD ("The " ++ plugin.typeLabel ++ " is forbidden."))

/-- `execute`. -/
def execute (ctx : Context) : PluginResult :=
  match ctx.message[plugin.valueKey]?.bind Json.asStr with
  | none =>
    reject ctx 401 ("The request is rejected, please check the " ++ plugin.typeLabel ++
      " for this request")
  | some value =>
    if plugin.blacklist ≠ [] ∧ value ∈ plugin.blacklist then plugin.rejectListed ctx
    else
    let whitelisted := decide (plugin.whitelist ≠ [] ∧ value ∈ plugin.whitelist)
    if plugin.whitelist ≠ [] ∧ whitelisted = false then plugin.rejectListed ctx
    else if plugin.allowedByMethods ≠ [] ∧ whitelisted = false then
      match plugin.allowedByMethods.find? (·.user = value) with
      | some entry =>
        if toUppercase ctx.request.method ∉ entry.methods then plugin.rejectListed ctx
        else .ok { context := ctx, namedOutputs := ∅ }
      | none => .ok { context := ctx, namedOutputs := ∅ }
    else .ok { context := ctx, namedOutputs := ∅ }

omit [CaseMapping] in
theorem rejects (ctx : Context) (status : UInt16) (message : String) :
    ¬ ∃ output, reject ctx status message = .ok output := by
  rintro ⟨output, h⟩
  cases h

/-- Which requests are let through. -/
theorem execute_ok_iff (ctx : Context) :
    (∃ output, plugin.execute ctx = .ok output) ↔
      ∃ value, ctx.message[plugin.valueKey]?.bind Json.asStr = some value ∧
        value ∉ plugin.blacklist ∧
        (plugin.whitelist ≠ [] → value ∈ plugin.whitelist) ∧
        (plugin.whitelist = [] → ∀ entry, plugin.allowedByMethods.find? (·.user = value) = some entry →
          toUppercase ctx.request.method ∈ entry.methods) := by
  unfold execute
  cases hvalue : ctx.message[plugin.valueKey]?.bind Json.asStr with
  | none =>
    constructor
    · exact fun h => absurd h (rejects ctx _ _)
    · rintro ⟨value, h, -⟩
      cases h
  | some value =>
    dsimp only
    simp only [Option.some.injEq, exists_eq_left']
    by_cases hblack : value ∈ plugin.blacklist
    · rw [if_pos ⟨List.ne_nil_of_mem hblack, hblack⟩]
      exact ⟨fun h => absurd h (rejects ctx _ _), fun h => absurd hblack h.1⟩
    rw [if_neg fun h => hblack h.2]
    by_cases hlist : plugin.whitelist = []
    · have hunlisted : decide (plugin.whitelist ≠ [] ∧ value ∈ plugin.whitelist) = false :=
        decide_eq_false fun h => h.1 hlist
      rw [hunlisted, if_neg fun h => h.1 hlist]
      cases hfind : plugin.allowedByMethods.find? (·.user = value) with
      | none =>
        refine ⟨fun _ => ⟨hblack, fun h => absurd hlist h, fun _ entry h => by cases h⟩, fun _ => ?_⟩
        split <;> exact ⟨_, rfl⟩
      | some entry =>
        have hentries : plugin.allowedByMethods ≠ [] :=
          List.ne_nil_of_mem (List.mem_of_find?_eq_some hfind)
        rw [if_pos ⟨hentries, rfl⟩]
        by_cases hmethod : toUppercase ctx.request.method ∈ entry.methods
        · dsimp only
          rw [if_neg (not_not.mpr hmethod)]
          refine ⟨fun _ => ⟨hblack, fun h => absurd hlist h, fun _ entry' h => ?_⟩, fun _ => ⟨_, rfl⟩⟩
          rw [← Option.some.inj h]
          exact hmethod
        · dsimp only
          rw [if_pos hmethod]
          exact ⟨fun h => absurd h (rejects ctx _ _), fun h => absurd (h.2.2 hlist entry rfl) hmethod⟩
    · by_cases hwhite : value ∈ plugin.whitelist
      · have hlisted : decide (plugin.whitelist ≠ [] ∧ value ∈ plugin.whitelist) = true :=
          decide_eq_true ⟨hlist, hwhite⟩
        rw [hlisted, if_neg fun h => Bool.noConfusion h.2, if_neg fun h => Bool.noConfusion h.2]
        exact ⟨fun _ => ⟨hblack, fun _ => hwhite, fun h => absurd h hlist⟩, fun _ => ⟨_, rfl⟩⟩
      · have hunlisted : decide (plugin.whitelist ≠ [] ∧ value ∈ plugin.whitelist) = false :=
          decide_eq_false fun h => hwhite h.2
        rw [hunlisted, if_pos ⟨hlist, rfl⟩]
        exact ⟨fun h => absurd h (rejects ctx _ _), fun h => absurd (h.2.1 hlist) hwhite⟩

end Execute

/-! ## What the configuration says -/

section Spec

variable [CaseMapping] {config : HashMap Json} {plugin : ConsumerRestrictionPlugin}

/-- The attribute of the consumer that the configuration is about. -/
def attachedValue (config : HashMap Json) (ctx : Context) : Option String :=
  ctx.message[if typeOf config = "consumer_group_id" then "consumer.group" else "consumer.name"]?.bind
    Json.asStr

/-- The request is one that the configuration, read item by item, lets through. -/
def Permitted (config : HashMap Json) (ctx : Context) : Prop :=
  ∃ value, attachedValue config ctx = some value ∧
    .string value ∉ items config "blacklist" ∧
    (items config "whitelist" ≠ [] → .string value ∈ items config "whitelist") ∧
    (.string value ∉ items config "whitelist" →
      ∀ name, ctx.message["consumer.name"]?.bind Json.asStr = some name →
        ∀ entry ∈ items config "allowed_by_methods", userOf entry = some name →
          toUppercase ctx.request.method ∈ methodsOf entry)

/-- No entry of the configuration is lost in the node. -/
def EntriesKept (config : HashMap Json) : Prop :=
  (∃ s, .string s ∈ items config "whitelist") ∨
  items config "whitelist" = [] ∧
    ∀ entry ∈ items config "allowed_by_methods", ∀ user, userOf entry = some user →
      typeOf config ≠ "consumer_group_id" ∧
      (.string user ∉ items config "blacklist" →
        ∃ first, (readEntries config).find? (·.user = user) = some first ∧
          ∀ m ∈ first.methods, m ∈ methodsOf entry)

theorem entryOf_eq_some {entry : Json} {e : AllowedByMethod} (h : entryOf entry = some e) :
    userOf entry = some e.user ∧ methodsOf entry = e.methods := by
  unfold entryOf at h
  obtain ⟨user, huser, h⟩ := Option.bind_eq_some_iff.mp h
  obtain ⟨methods, hmethods, h⟩ := Option.bind_eq_some_iff.mp h
  rw [← Option.some.inj h]
  refine ⟨huser, ?_⟩
  unfold methodsOf
  rw [hmethods]
  rfl

/-- What an accepted configuration becomes. -/
theorem fromConfig_fields (h : fromConfig config = .ok plugin) :
    plugin.whitelist = stringList config "whitelist" ∧
    plugin.blacklist = stringList config "blacklist" ∧
    plugin.allowedByMethods = readEntries config ∧
    (typeOf config = "consumer_group_id" ∧ plugin.restrictionType = .consumerGroupId ∨
      typeOf config ≠ "consumer_group_id" ∧ plugin.restrictionType = .consumerName) := by
  unfold fromConfig at h
  cases htype : readType config with
  | error e =>
    rw [htype] at h
    cases h
  | ok restrictionType =>
    rw [htype] at h
    dsimp only [bind, Except.bind] at h
    split at h
    · split at h
      · cases h
      · rw [← Except.ok.inj h]
        refine ⟨rfl, rfl, rfl, ?_⟩
        unfold readType at htype
        split at htype
        · rename_i heq
          exact Or.inr ⟨by rw [heq]; decide, (Except.ok.inj htype).symm⟩
        · rename_i heq
          exact Or.inl ⟨heq, (Except.ok.inj htype).symm⟩
        all_goals cases htype
    · cases h

theorem attachedValue_eq (h : fromConfig config = .ok plugin) (ctx : Context) :
    ctx.message[plugin.valueKey]?.bind Json.asStr = attachedValue config ctx := by
  unfold valueKey attachedValue
  obtain ⟨-, -, -, ⟨htype, hkind⟩ | ⟨htype, hkind⟩⟩ := fromConfig_fields h
  · rw [hkind, if_pos htype]
  · rw [hkind, if_neg htype]

/-- A request of a consumer with a name and a group. -/
def consumerContext (name group method : String) : Context :=
  { Context.new { (default : GatewayRequest) with method := method } with
    message := ((∅ : HashMap Json).insert "consumer.name" (.string name)).insert "consumer.group"
      (.string group) }

omit [CaseMapping] in
theorem consumerContext_name (name group method : String) :
    (consumerContext name group method).message["consumer.name"]?.bind Json.asStr = some name := by
  show (((∅ : HashMap Json).insert "consumer.name" (.string name)).insert "consumer.group"
    (.string group))["consumer.name"]?.bind Json.asStr = _
  rw [HashMap.get_insert, if_neg (by decide), HashMap.get_insert, if_pos rfl]
  rfl

omit [CaseMapping] in
theorem consumerContext_group (name group method : String) :
    (consumerContext name group method).message["consumer.group"]?.bind Json.asStr = some group := by
  show (((∅ : HashMap Json).insert "consumer.name" (.string name)).insert "consumer.group"
    (.string group))["consumer.group"]?.bind Json.asStr = _
  rw [HashMap.get_insert, if_pos rfl]
  rfl

/-! ## Texts that occur nowhere -/

def ones (n : Nat) : String := String.ofList (List.replicate n '1')

theorem toUppercase_ones (n : Nat) : toUppercase (ones n) = ones n := by
  rw [CaseMapping.toUppercase_ascii]
  · rw [ones, String.toList_ofList, List.map_replicate]
    rfl
  · intro c hc
    rw [ones, String.toList_ofList] at hc
    rw [(List.mem_replicate.mp hc).2]
    decide

omit [CaseMapping] in
theorem exists_ones_notMem (l : List String) : ∃ n, ones n ∉ l := by
  by_contra hall
  have hinjective : Function.Injective ones := fun m n h => by
    have hlength := congrArg List.length (String.ofList_injective h)
    rwa [List.length_replicate, List.length_replicate] at hlength
  refine Set.infinite_range_of_injective hinjective ((List.finite_toSet l).subset ?_)
  rintro _ ⟨n, rfl⟩
  by_contra hn
  exact hall ⟨n, hn⟩

/-! ## When nothing is lost -/

variable [JsonText]

/-- A whitelist of texts decides alone. -/
theorem permits_of_listed (h : fromConfig config = .ok plugin) {s : String}
    (hs : .string s ∈ items config "whitelist") (ctx : Context) :
    (∃ output, plugin.execute ctx = .ok output) ↔ Permitted config ctx := by
  obtain ⟨hwhitelist, hblacklist, -, -⟩ := fromConfig_fields h
  have hnonempty : stringList config "whitelist" ≠ [] := List.ne_nil_of_mem (mem_stringList.mpr hs)
  have hitems : items config "whitelist" ≠ [] := List.ne_nil_of_mem hs
  rw [execute_ok_iff, attachedValue_eq h]
  refine exists_congr fun value => and_congr_right fun hvalue => ?_
  rw [hblacklist, hwhitelist, mem_stringList, mem_stringList]
  refine and_congr_right fun hblack => ?_
  constructor
  · rintro ⟨hlisted, -⟩
    exact ⟨fun _ => hlisted hnonempty, fun hunlisted => absurd (hlisted hnonempty) hunlisted⟩
  · rintro ⟨hlisted, -⟩
    exact ⟨fun _ => hlisted hitems, fun hempty => absurd hempty hnonempty⟩

/-- Without a whitelist the entries decide, where the first one of a consumer is as narrow as each. -/
theorem permits_of_entries (h : fromConfig config = .ok plugin) (hitems : items config "whitelist" = [])
    (hentry : ∀ entry ∈ items config "allowed_by_methods", ∀ user, userOf entry = some user →
      typeOf config ≠ "consumer_group_id" ∧
      (.string user ∉ items config "blacklist" →
        ∃ first, (readEntries config).find? (·.user = user) = some first ∧
          ∀ m ∈ first.methods, m ∈ methodsOf entry)) (ctx : Context) :
    (∃ output, plugin.execute ctx = .ok output) ↔ Permitted config ctx := by
  obtain ⟨hwhitelist, hblacklist, hentries, -⟩ := fromConfig_fields h
  rw [execute_ok_iff, attachedValue_eq h]
  refine exists_congr fun value => and_congr_right fun hvalue => ?_
  rw [hblacklist, hwhitelist, mem_stringList, mem_stringList, hentries]
  refine and_congr_right fun hblack => ?_
  have hstrings : stringList config "whitelist" = [] := by
    unfold stringList
    rw [hitems]
    rfl
  -- whoever an entry is about, the request is compared by its consumer's name
  have hname : ∀ entry ∈ items config "allowed_by_methods", ∀ user, userOf entry = some user →
      ctx.message["consumer.name"]?.bind Json.asStr = some value := by
    intro entry hmem user huser
    unfold attachedValue at hvalue
    rw [if_neg (hentry entry hmem user huser).1] at hvalue
    exact hvalue
  constructor
  · rintro ⟨-, hmethods⟩
    refine ⟨fun h => absurd hitems h, fun _ name hctx entry hmem huser => ?_⟩
    have hsame := hname entry hmem name huser
    rw [hctx] at hsame
    obtain rfl := Option.some.inj hsame
    obtain ⟨first, hfind, hsub⟩ := (hentry entry hmem name huser).2 hblack
    exact hsub _ (hmethods hstrings first hfind)
  · rintro ⟨-, hmethods⟩
    refine ⟨fun h => absurd hstrings h, fun _ e hfind => ?_⟩
    obtain ⟨raw, hmem, hraw⟩ := List.mem_filterMap.mp (List.mem_of_find?_eq_some hfind)
    obtain ⟨huser, hlists⟩ := entryOf_eq_some hraw
    have hvalue' : e.user = value := by simpa using List.find?_some hfind
    rw [← hlists]
    refine hmethods (by rw [hitems]; exact List.not_mem_nil) value (hname raw hmem _ huser) raw hmem ?_
    rw [huser, hvalue']

/-- A text that is on no list: the node, without a whitelist, lets through whoever has it. -/
theorem exists_unchecked (h : fromConfig config = .ok plugin) (hempty : plugin.whitelist = []) :
    ∃ n, ∀ ctx, attachedValue config ctx = some (ones n) → ∃ output, plugin.execute ctx = .ok output := by
  obtain ⟨n, hn⟩ := exists_ones_notMem (plugin.blacklist ++ plugin.allowedByMethods.map (·.user))
  rw [List.mem_append, not_or] at hn
  have hnofind : plugin.allowedByMethods.find? (·.user = ones n) = none := by
    rw [List.find?_eq_none]
    intro entry hentry huser
    exact hn.2 (List.mem_map.mpr ⟨entry, hentry, of_decide_eq_true huser⟩)
  refine ⟨n, fun ctx hvalue => ?_⟩
  refine (execute_ok_iff plugin ctx).mpr ⟨ones n, ?_, hn.1, fun h => absurd hempty h, fun _ entry hfind => ?_⟩
  · rw [attachedValue_eq h]
    exact hvalue
  · rw [hnofind] at hfind
    cases hfind

omit [JsonText] in
/-- The methods of the entry that is found for a consumer are texts, each the upper case of one. -/
theorem exists_method (h : fromConfig config = .ok plugin) {user : String} {first : AllowedByMethod}
    (hfind : plugin.allowedByMethods.find? (·.user = user) = some first) {m : String} (hm : m ∈ first.methods) :
    ∃ method, m = toUppercase method := by
  obtain ⟨-, -, hentries, -⟩ := fromConfig_fields h
  have hmem := List.mem_of_find?_eq_some hfind
  rw [hentries] at hmem
  obtain ⟨raw, -, hraw⟩ := List.mem_filterMap.mp hmem
  rw [← (entryOf_eq_some hraw).2] at hm
  obtain ⟨item, -, hitem⟩ := List.mem_filterMap.mp hm
  obtain ⟨method, -, rfl⟩ := Option.map_eq_some_iff.mp hitem
  exact ⟨method, rfl⟩

/-- The consumer of an entry, with any method: what the node checks is what the entry says. -/
theorem method_of_permits (h : fromConfig config = .ok plugin)
    (hall : ∀ ctx, (∃ output, plugin.execute ctx = .ok output) → Permitted config ctx)
    (hempty : plugin.whitelist = []) (htext : ¬ ∃ s, .string s ∈ items config "whitelist")
    (hname : typeOf config ≠ "consumer_group_id") {entry : Json}
    (hentry : entry ∈ items config "allowed_by_methods") {user : String} (huser : userOf entry = some user)
    (hblack : .string user ∉ items config "blacklist") {method : String}
    (hmethod : ∀ e, plugin.allowedByMethods.find? (·.user = user) = some e →
      toUppercase method ∈ e.methods) : toUppercase method ∈ methodsOf entry := by
  obtain ⟨-, hblacklist, -, -⟩ := fromConfig_fields h
  have hvalue : attachedValue config (consumerContext user user method) = some user := by
    unfold attachedValue
    rw [if_neg hname]
    exact consumerContext_name _ _ _
  have hpermitted := hall (consumerContext user user method) ((execute_ok_iff plugin _).mpr
    ⟨user, by rw [attachedValue_eq h]; exact hvalue,
      by rw [hblacklist]; exact fun h => hblack (mem_stringList.mp h),
      fun h => absurd hempty h, fun _ => hmethod⟩)
  obtain ⟨value, -, -, -, hmethods⟩ := hpermitted
  exact hmethods (fun h => htext ⟨value, h⟩) user (consumerContext_name _ _ _) entry hentry huser

/-- An entry that is lost shows in a request. -/
theorem entriesKept_of_permits (h : fromConfig config = .ok plugin)
    (hall : ∀ ctx, (∃ output, plugin.execute ctx = .ok output) → Permitted config ctx) :
    EntriesKept config := by
  obtain ⟨hwhitelist, -, hentries, -⟩ := fromConfig_fields h
  by_cases htext : ∃ s, .string s ∈ items config "whitelist"
  · exact Or.inl htext
  have hempty : plugin.whitelist = [] := by
    rw [hwhitelist, List.eq_nil_iff_forall_not_mem]
    exact fun s hs => htext ⟨s, mem_stringList.mp hs⟩
  obtain ⟨n, hn⟩ := exists_unchecked h hempty
  have hunchecked : ∀ ctx, attachedValue config ctx = some (ones n) → Permitted config ctx :=
    fun ctx hvalue => hall ctx (hn ctx hvalue)
  refine Or.inr ⟨?_, fun entry hentry user huser => ?_⟩
  · -- a whitelist without a text would refuse the unlisted text
    by_contra hitems
    have hvalue : attachedValue config (consumerContext (ones n) (ones n) "") = some (ones n) := by
      unfold attachedValue
      split
      · exact consumerContext_group _ _ _
      · exact consumerContext_name _ _ _
    obtain ⟨value, -, -, hlisted, -⟩ := hunchecked _ hvalue
    exact htext ⟨value, hlisted hitems⟩
  · obtain ⟨k, hk⟩ := exists_ones_notMem (methodsOf entry)
    have hname : typeOf config ≠ "consumer_group_id" := by
      -- the consumer of the entry, in the unlisted group, with a method that the entry does not list
      intro hgroup
      have hvalue : attachedValue config (consumerContext user (ones n) (ones k)) = some (ones n) := by
        unfold attachedValue
        rw [if_pos hgroup]
        exact consumerContext_group _ _ _
      obtain ⟨value, -, -, -, hmethods⟩ := hunchecked _ hvalue
      have hlists := hmethods (fun h => htext ⟨value, h⟩) user (consumerContext_name _ _ _) entry hentry huser
      rw [show (consumerContext user (ones n) (ones k)).request.method = ones k from rfl,
        toUppercase_ones] at hlists
      exact hk hlists
    refine ⟨hname, fun hblack => ?_⟩
    cases hfind : plugin.allowedByMethods.find? (·.user = user) with
    | none =>
      have hlists : toUppercase (ones k) ∈ methodsOf entry := by
        refine method_of_permits h hall hempty htext hname hentry huser hblack fun e he => ?_
        rw [hfind] at he
        cases he
      rw [toUppercase_ones] at hlists
      exact absurd hlists hk
    | some first =>
      refine ⟨first, hentries ▸ hfind, fun m hm => ?_⟩
      obtain ⟨method, rfl⟩ := exists_method h hfind hm
      refine method_of_permits h hall hempty htext hname hentry huser hblack fun e he => ?_
      rw [hfind] at he
      rw [← Option.some.inj he]
      exact hm

end Spec

/-! ## Two configurations -/

/-- The entry `user: alice, methods: [GET]`. -/
def aliceGet : Json := .object [("methods", .array [.string "GET"]), ("user", .string "alice")]

/-- Names are compared, and one consumer is confined. -/
def namesConfig : HashMap Json :=
  (∅ : HashMap Json).insert "allowed_by_methods" (.array [aliceGet])

/-- The same entry, where groups are compared. -/
def groupsConfig : HashMap Json :=
  namesConfig.insert "type" (.string "consumer_group_id")

def confiningNode (restrictionType : RestrictionType) : ConsumerRestrictionPlugin where
  restrictionType := restrictionType
  whitelist := []
  blacklist := []
  exclusive := Or.inl rfl
  allowedByMethods := [{ user := "alice", methods := ["GET"] }]
  rejectedCode := 403
  rejectedMsg := none

end ConsumerRestrictionPlugin

end Featherbit
