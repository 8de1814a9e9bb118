/-
  THE CONFIG IN ETCD (`config_store/etcd.rs`): one key per resource, and what a range of the prefix
  is assembled to.

  `Content` is the keyspace, a map from byte strings in bytewise order; a put, a delete of one key
  and a range of the prefix are each one atomic call.  The HTTP transport, base64, and the retry
  after a 401 are left out: they decide whether a call fails, and every call may fail here.

  `serde_json` is a parameter (`Codec`): how a resource is written, and read back.

  What later modules use of the keyspace is `mem_range`: a range holds exactly the entries whose
  key begins with the prefix and a slash.
-/
import Featherbit.Lib.PrefixRange
import Featherbit.Lib.TryFold
import Featherbit.Rust.Utf8
import Featherbit.State

namespace Featherbit

/-! ## The keyspace -/

/-- What etcd holds. -/
abbrev Content := Std.ExtTreeMap Bytes Bytes compare

/-- A write call. -/
inductive EtcdOp where
  | put (key : String) (value : Bytes)
  | delete (key : String)

/-- The key a write is about. -/
def EtcdOp.key : EtcdOp → String
  | .put key _ | .delete key => key

/-- What a write leaves under its key. -/
def EtcdOp.value : EtcdOp → Option Bytes
  | .put _ value => some value
  | .delete _ => none

/-- The keyspace after a write. -/
def EtcdOp.apply (kvs : Content) : EtcdOp → Content
  | .put key value => kvs.insert (asBytes key) value
  | .delete key => kvs.erase (asBytes key)

theorem EtcdOp.getElem?_apply (kvs : Content) (op : EtcdOp) (key : Bytes) :
    (op.apply kvs)[key]? = if asBytes op.key = key then op.value else kvs[key]? := by
  cases op with
  | put key' value =>
    show (kvs.insert (asBytes key') value)[key]? = _
    rw [Std.ExtTreeMap.getElem?_insert]
    simp only [Std.compare_eq_iff_eq]
    rfl
  | delete key' =>
    show (kvs.erase (asBytes key'))[key]? = _
    rw [Std.ExtTreeMap.getElem?_erase]
    simp only [Std.compare_eq_iff_eq]
    rfl

/-- The keyspace after a list of writes. -/
def EtcdOp.applyAll (kvs : Content) (ops : List EtcdOp) : Content := ops.foldl EtcdOp.apply kvs

theorem EtcdOp.applyAll_concat (kvs : Content) (ops : List EtcdOp) (op : EtcdOp) :
    EtcdOp.applyAll kvs (ops ++ [op]) = op.apply (EtcdOp.applyAll kvs ops) := by
  simp [EtcdOp.applyAll]

/-- Under each key, the last write to it counts. -/
theorem EtcdOp.getElem?_applyAll (kvs : Content) (ops : List EtcdOp) (key : Bytes) :
    (EtcdOp.applyAll kvs ops)[key]? =
      (Keyed.lookupLast (fun op => asBytes op.key) key ops).elim kvs[key]? EtcdOp.value := by
  induction ops using List.reverseRecOn with
  | nil => rfl
  | append_singleton ops op ih =>
    rw [EtcdOp.applyAll_concat, EtcdOp.getElem?_apply, ih, Keyed.lookupLast_concat]
    by_cases h : asBytes op.key = key
    · rw [if_pos h, if_pos h]
      rfl
    · rw [if_neg h, if_neg h]

/-- The loop of `prefix_range_end`, on the prefix read from its end. -/
def bumpLast : Bytes → Bytes
  | [] => [0]
  | last :: rest => if last < 0xff then ((last + 1) :: rest).reverse else bumpLast rest

/-- `prefix_range_end`. -/
def prefixRangeEnd (key : Bytes) : Bytes := bumpLast key.reverse

/-- What a range call selects: the keys from `key` on and below `rangeEnd`, where `[0]` stands for
    the end of the keyspace. -/
def inRange (key rangeEnd k : Bytes) : Bool :=
  (compare key k).isLE && (decide (rangeEnd = [0]) || decide (compare k rangeEnd = .lt))

theorem covers_succ {b : UInt8} (h : b < 0xff) : PrefixRange.Covers b (b + 1) := by
  intro x
  have hb : b.toNat < 255 := UInt8.lt_iff_toNat_lt.mp h
  have hsucc : (b + 1).toNat = b.toNat + 1 := by
    rw [UInt8.toNat_add]
    show (b.toNat + 1) % 256 = b.toNat + 1
    omega
  rw [Std.isLE_compare, Std.compare_eq_lt, UInt8.le_iff_toNat_le, UInt8.lt_iff_toNat_lt,
    ← UInt8.toNat_inj, hsucc]
  omega

theorem greatest_ff {b : UInt8} (h : ¬ b < 0xff) : PrefixRange.Greatest b := by
  intro x
  have hb : ¬ b.toNat < 255 := fun hlt => h (UInt8.lt_iff_toNat_lt.mpr hlt)
  have hx : x.toNat < 256 := x.toNat_lt
  have hb' : b.toNat < 256 := b.toNat_lt
  rw [Std.isLE_compare, UInt8.le_iff_toNat_le, ← UInt8.toNat_inj]
  omega

/-- How the bound is found: the greatest bytes at the end are cut off. -/
theorem prefixRangeEnd_cases (key : Bytes) :
    (∃ p b t, key = p ++ b :: t ∧ b < 0xff ∧ (∀ x ∈ t, ¬ x < 0xff) ∧
      prefixRangeEnd key = p ++ [b + 1]) ∨
    ((∀ x ∈ key, ¬ x < 0xff) ∧ prefixRangeEnd key = [0]) := by
  induction key using List.reverseRecOn with
  | nil => exact Or.inr ⟨by simp, rfl⟩
  | append_singleton key b ih =>
    have hbump : prefixRangeEnd (key ++ [b]) =
        if b < 0xff then key ++ [b + 1] else prefixRangeEnd key := by
      rw [prefixRangeEnd, List.reverse_append]
      show (if b < 0xff then _ else _) = _
      simp [prefixRangeEnd]
    rw [hbump]
    by_cases hb : b < 0xff
    · rw [if_pos hb]
      exact Or.inl ⟨key, b, [], rfl, hb, by simp, rfl⟩
    · rw [if_neg hb]
      have hlast : ∀ t : Bytes, (∀ x ∈ t, ¬ x < 0xff) → ∀ x ∈ t ++ [b], ¬ x < 0xff := by
        intro t ht x hx
        rcases List.mem_append.mp hx with hx | hx
        · exact ht x hx
        · rw [List.mem_singleton.mp hx]
          exact hb
      rcases ih with ⟨p, c, t, rfl, hc, ht, hend⟩ | ⟨hall, hend⟩
      · exact Or.inl ⟨p, c, t ++ [b], by simp, hc, hlast t ht, hend⟩
      · exact Or.inr ⟨hlast key hall, hend⟩

/-- **A range to `prefix_range_end` selects the keys with the prefix.** -/
theorem inRange_prefixRangeEnd (key k : Bytes) :
    inRange key (prefixRangeEnd key) k = true ↔ key <+: k := by
  rcases prefixRangeEnd_cases key with ⟨p, b, t, rfl, hb, ht, hend⟩ | ⟨hall, hend⟩
  · have hne : p ++ [b + 1] ≠ [0] := by
      intro h
      cases p with
      | nil =>
        have hb0 : b + 1 = 0 := by simpa using h
        have hlt : b.toNat < 255 := UInt8.lt_iff_toNat_lt.mp hb
        have hsum := congrArg UInt8.toNat hb0
        rw [UInt8.toNat_add] at hsum
        have hsum' : (b.toNat + 1) % 256 = 0 := hsum
        omega
      | cons c p => simp at h
    rw [← PrefixRange.between_iff_isPrefix (covers_succ hb) fun x hx => greatest_ff (ht x hx)]
    simp [inRange, hend, hne]
  · rw [← PrefixRange.isLE_iff_of_greatest fun x hx => greatest_ff (hall x hx)]
    simp [inRange, hend]

/-- **`prefix_range_end` is exact**: up to it lie the extensions of a prefix, and without such a
    bound the end of the keyspace is named. -/
theorem prefixRangeEnd_exact (pre : Bytes) :
    (¬ (∀ b ∈ pre, b = 0xff) → ∀ k, pre ≤ k ∧ k < prefixRangeEnd pre ↔ pre <+: k) ∧
      ((∀ b ∈ pre, b = 0xff) → prefixRangeEnd pre = [0]) := by
  have hff : ∀ b : UInt8, b = 0xff ↔ ¬ b < 0xff := by
    intro b
    have hb := b.toNat_lt
    rw [← UInt8.toNat_inj, UInt8.lt_iff_toNat_lt]
    show b.toNat = 255 ↔ ¬ b.toNat < 255
    omega
  rcases prefixRangeEnd_cases pre with ⟨p, b, t, rfl, hb, ht, hend⟩ | ⟨hall, hend⟩
  · constructor
    · intro _ k
      rw [hend, ← PrefixRange.isLE_compare_iff, ← PrefixRange.compare_eq_lt_iff]
      exact PrefixRange.between_iff_isPrefix (covers_succ hb) fun x hx => greatest_ff (ht x hx)
    · intro hall
      exact absurd hb ((hff b).mp (hall b (by simp)))
  · exact ⟨fun hne => absurd (fun b hb => (hff b).mpr (hall b hb)) hne, fun _ => hend⟩

theorem prefixRangeEnd_exact_featherbit :
    asBytes "/featherbit/" ≤ asBytes "/featherbit/routes" ∧
      asBytes "/featherbit/routes" < prefixRangeEnd (asBytes "/featherbit/") :=
  ((prefixRangeEnd_exact (asBytes "/featherbit/")).1 (by decide) (asBytes "/featherbit/routes")).mpr
    (by decide)

example : prefixRangeEnd (asBytes "/featherbit/") = asBytes "/featherbit0" := by decide
example : prefixRangeEnd [0x01, 0xff] = [0x02] := by decide

/-! ## The store -/

/-- `serde_json::to_vec` and `serde_json::from_slice` at one type. -/
structure Serde (α : Type) where
  toVec : α → Bytes
  fromSlice : Bytes → Except String α

/-- The JSON of the three sorts of resource. -/
structure Codec where
  route : Serde RouteConfig
  policy : Serde PolicyConfig
  consumer : Serde ConsumerConfig

/-- `serde_json` reads back what it wrote for each resource of `gw`. -/
structure Codec.RoundTrips (codec : Codec) (gw : GatewayConfig) : Prop where
  route : ∀ r ∈ gw.routes, codec.route.fromSlice (codec.route.toVec r) = .ok r
  policy : ∀ p ∈ gw.policies, codec.policy.fromSlice (codec.policy.toVec p) = .ok p
  consumer : ∀ c ∈ gw.consumers, codec.consumer.fromSlice (codec.consumer.toVec c) = .ok c

/-- The key prefix of an `EtcdConfigStore`, with no trailing slash. -/
structure EtcdConfigStore where
  keyPrefix : String

namespace EtcdConfigStore

/-- `EtcdConfigStore::new`, of the configured prefix. -/
def new (configured : String) : EtcdConfigStore := ⟨trimEndMatches '/' configured⟩

variable (store : EtcdConfigStore)

/-- What every key of the store begins with. -/
def base : String := store.keyPrefix ++ "/"

def routeKey (name : String) : String := store.keyPrefix ++ "/routes/" ++ name
def policyKey (name : String) : String := store.keyPrefix ++ "/policies/" ++ name
def consumerKey (name : String) : String := store.keyPrefix ++ "/consumers/" ++ name

/-- One pair of a range's answer. -/
def decodeKey (kv : Bytes × Bytes) : Except String (String × Bytes) :=
  match fromUtf8 kv.1 with
  | some key => .ok (key, kv.2)
  | none => .error "etcd key not valid base64/utf8"

/-- `range_prefix`, of a call that succeeds: etcd answers in key order, and the first key that is
    not UTF-8 fails the call. -/
def rangePrefix (kvs : Content) : Except String (List (String × Bytes)) :=
  let key := asBytes store.base
  (kvs.toList.filter fun kv => inRange key (prefixRangeEnd key) kv.1).mapM decodeKey

/-- A resource of a key, read; its error names the key. -/
def readResource {α : Type} (kind : String) (serde : Serde α) (kv : String × Bytes) :
    Except String α :=
  match serde.fromSlice kv.2 with
  | .ok a => .ok a
  | .error e => .error ("bad " ++ kind ++ " '" ++ kv.1 ++ "': " ++ e)

/-- The part of a key between the prefix and the next slash; `none` for keys of another shape. -/
def category (keyPrefix key : String) : Option String :=
  ((stripPrefix (keyPrefix ++ "/") key).bind (splitOnceChar '/')).map (·.1)

/-- One key/value pair of `gateway_from_kvs`: its resource is pushed, and a key of an unknown shape
    is skipped. -/
def addKv (codec : Codec) (keyPrefix : String) (gw : GatewayConfig) (kv : String × Bytes) :
    Except String GatewayConfig :=
  match category keyPrefix kv.1 with
  | some "routes" => do
    let r ← readResource "route" codec.route kv
    pure { gw with routes := gw.routes ++ [r] }
  | some "policies" => do
    let p ← readResource "policy" codec.policy kv
    pure { gw with policies := gw.policies ++ [p] }
  | some "consumers" => do
    let c ← readResource "consumer" codec.consumer kv
    pure { gw with consumers := gw.consumers ++ [c] }
  | _ => pure gw

/-- `gateway_from_kvs`. -/
def gatewayFromKvs (codec : Codec) (keyPrefix : String) (kvs : List (String × Bytes)) :
    Except String GatewayConfig :=
  kvs.foldlM (addKv codec keyPrefix) {}

/-- `load_all`, of a range call that succeeds. -/
def loadAll (codec : Codec) (kvs : Content) : Except String GatewayConfig := do
  let pairs ← store.rangePrefix kvs
  gatewayFromKvs codec store.keyPrefix pairs

/-- What a commit and `write_all` put, in this order. -/
def puts (codec : Codec) (gw : GatewayConfig) : List (String × Bytes) :=
  gw.routes.map (fun r => (store.routeKey r.name, codec.route.toVec r)) ++
    gw.policies.map (fun p => (store.policyKey p.name, codec.policy.toVec p)) ++
    gw.consumers.map (fun c => (store.consumerKey c.name, codec.consumer.toVec c))

/-! ## Keys -/

/-- The shape of the three sorts of key. -/
def resourceKey (cat name : String) : String := store.base ++ (cat ++ "/" ++ name)

section Keys

variable {store} {cat a b : String}

theorem routeKey_eq (name : String) : store.routeKey name = store.resourceKey "routes" name := by
  rw [← String.toList_inj]
  simp [routeKey, resourceKey, base]

theorem policyKey_eq (name : String) : store.policyKey name = store.resourceKey "policies" name := by
  rw [← String.toList_inj]
  simp [policyKey, resourceKey, base]

theorem consumerKey_eq (name : String) :
    store.consumerKey name = store.resourceKey "consumers" name := by
  rw [← String.toList_inj]
  simp [consumerKey, resourceKey, base]

theorem base_isPrefix : asBytes store.base <+: asBytes (store.resourceKey cat a) := by
  rw [resourceKey, asBytes_append]
  exact List.prefix_append _ _

theorem category_resourceKey (hcat : '/' ∉ cat.toList) (a : String) :
    category store.keyPrefix (store.resourceKey cat a) = some cat := by
  have hsplit : splitOnceChar '/' (cat ++ "/" ++ a) = some (cat, a) := splitOnceChar_append hcat a
  rw [category, resourceKey, base, stripPrefix_append, Option.bind_some, hsplit]
  rfl

theorem eq_of_category {key : String} (h : category store.keyPrefix key = some cat) :
    ∃ name, key = store.resourceKey cat name := by
  obtain ⟨⟨cat', name⟩, hparts, rfl⟩ := Option.map_eq_some_iff.mp h
  obtain ⟨rest, hrest, hsplit⟩ := Option.bind_eq_some_iff.mp hparts
  refine ⟨name, ?_⟩
  rw [eq_of_stripPrefix hrest, eq_of_splitOnceChar hsplit]
  rfl

/-- Keys of one category compare as their names do. -/
theorem compare_resourceKey :
    compare (asBytes (store.resourceKey cat a)) (asBytes (store.resourceKey cat b)) =
      compare (asBytes a) (asBytes b) := by
  simp only [resourceKey, asBytes_append, PrefixRange.compare_append]

theorem resourceKey_inj : store.resourceKey cat a = store.resourceKey cat b ↔ a = b := by
  simp only [← asBytes_inj, resourceKey, asBytes_append, List.append_cancel_left_eq]

variable {codec : Codec} {gw : GatewayConfig} {kv : String × Bytes}

theorem mem_puts : kv ∈ store.puts codec gw ↔
    (∃ r ∈ gw.routes, kv = (store.resourceKey "routes" r.name, codec.route.toVec r)) ∨
    (∃ p ∈ gw.policies, kv = (store.resourceKey "policies" p.name, codec.policy.toVec p)) ∨
    (∃ c ∈ gw.consumers, kv = (store.resourceKey "consumers" c.name, codec.consumer.toVec c)) := by
  simp only [puts, List.mem_append, List.mem_map, routeKey_eq, policyKey_eq, consumerKey_eq,
    or_assoc, eq_comm]

theorem base_isPrefix_of_mem_puts (h : kv ∈ store.puts codec gw) :
    asBytes store.base <+: asBytes kv.1 := by
  rcases mem_puts.mp h with ⟨_, _, rfl⟩ | ⟨_, _, rfl⟩ | ⟨_, _, rfl⟩ <;> exact base_isPrefix

/-- What is put in a category is read back as a resource of it. -/
theorem read_of_mem_puts (hround : codec.RoundTrips gw) (h : kv ∈ store.puts codec gw) :
    (category store.keyPrefix kv.1 = some "routes" →
      ∃ r ∈ gw.routes, codec.route.fromSlice kv.2 = .ok r) ∧
    (category store.keyPrefix kv.1 = some "policies" →
      ∃ p ∈ gw.policies, codec.policy.fromSlice kv.2 = .ok p) ∧
    (category store.keyPrefix kv.1 = some "consumers" →
      ∃ c ∈ gw.consumers, codec.consumer.fromSlice kv.2 = .ok c) := by
  rcases mem_puts.mp h with ⟨r, hr, rfl⟩ | ⟨p, hp, rfl⟩ | ⟨c, hc, rfl⟩
  · have hcat : category store.keyPrefix (store.resourceKey "routes" r.name) = some "routes" :=
      category_resourceKey (by decide) r.name
    simp only [hcat, Option.some.injEq, String.reduceEq, false_implies, and_true, true_implies]
    exact ⟨r, hr, hround.route r hr⟩
  · have hcat : category store.keyPrefix (store.resourceKey "policies" p.name) = some "policies" :=
      category_resourceKey (by decide) p.name
    simp only [hcat, Option.some.injEq, String.reduceEq, false_implies, and_true, true_and,
      true_implies]
    exact ⟨p, hp, hround.policy p hp⟩
  · have hcat : category store.keyPrefix (store.resourceKey "consumers" c.name) = some "consumers" :=
      category_resourceKey (by decide) c.name
    simp only [hcat, Option.some.injEq, String.reduceEq, false_implies, true_and, true_implies]
    exact ⟨c, hc, hround.consumer c hc⟩

end Keys

/-! ## What a range holds -/

section Range

variable {store} {kvs : Content} {pairs : List (String × Bytes)}

/-- A pair as etcd holds it. -/
def onWire (pair : String × Bytes) : Bytes × Bytes := (asBytes pair.1, pair.2)

theorem decodeKey_eq_ok {kv : Bytes × Bytes} {pair : String × Bytes} :
    decodeKey kv = .ok pair ↔ kv = onWire pair := by
  obtain ⟨key, value⟩ := kv
  obtain ⟨key', value'⟩ := pair
  rw [onWire, Prod.mk.injEq, ← fromUtf8_eq_some, decodeKey]
  cases fromUtf8 key <;> simp

/-- A range that is answered holds the entries whose key begins with the prefix and a slash. -/
theorem rangePrefix_eq_ok : store.rangePrefix kvs = .ok pairs ↔
    (kvs.toList.filter fun kv => decide (asBytes store.base <+: kv.1)) = pairs.map onWire := by
  have hsel : ∀ kv : Bytes × Bytes,
      inRange (asBytes store.base) (prefixRangeEnd (asBytes store.base)) kv.1 =
        decide (asBytes store.base <+: kv.1) := by
    intro kv
    rw [Bool.eq_iff_iff, inRange_prefixRangeEnd, decide_eq_true_iff]
  simp only [rangePrefix, hsel, TryFold.mapM_eq_ok, decodeKey_eq_ok]
  rw [← List.forall₂_map_right_iff, List.forall₂_eq_eq_eq]

theorem onWire_injective : Function.Injective onWire := by
  rintro ⟨key, value⟩ ⟨key', value'⟩ h
  obtain ⟨hkey, hvalue⟩ := Prod.mk.inj h
  exact Prod.ext (asBytes_inj.mp hkey) hvalue

/-- **What a range holds.** -/
theorem mem_rangePrefix (h : store.rangePrefix kvs = .ok pairs) {key : String} {value : Bytes} :
    (key, value) ∈ pairs ↔ kvs[asBytes key]? = some value ∧ asBytes store.base <+: asBytes key := by
  have hwire : (key, value) ∈ pairs ↔ onWire (key, value) ∈ pairs.map onWire :=
    (List.mem_map_of_injective onWire_injective).symm
  rw [hwire, ← rangePrefix_eq_ok.mp h, List.mem_filter, onWire,
    Std.ExtTreeMap.mem_toList_iff_getElem?_eq_some, decide_eq_true_iff]

/-- The keys an answered range selects are text. -/
theorem exists_of_rangePrefix (h : store.rangePrefix kvs = .ok pairs) {key value : Bytes}
    (hkey : kvs[key]? = some value) (hpre : asBytes store.base <+: key) :
    ∃ s, key = asBytes s ∧ (s, value) ∈ pairs := by
  have hmem : (key, value) ∈ pairs.map onWire := by
    rw [← rangePrefix_eq_ok.mp h, List.mem_filter,
      Std.ExtTreeMap.mem_toList_iff_getElem?_eq_some, decide_eq_true_iff]
    exact ⟨hkey, hpre⟩
  obtain ⟨⟨s, value'⟩, hpair, hwire⟩ := List.mem_map.mp hmem
  obtain ⟨rfl, rfl⟩ := Prod.mk.inj hwire
  exact ⟨s, rfl, hpair⟩

/-- The keys come in ascending bytewise order. -/
theorem rangePrefix_sorted (h : store.rangePrefix kvs = .ok pairs) :
    pairs.Pairwise fun a b => compare (asBytes a.1) (asBytes b.1) = .lt := by
  have hsorted : (pairs.map onWire).Pairwise fun a b => compare a.1 b.1 = .lt := by
    rw [← rangePrefix_eq_ok.mp h]
    exact Std.ExtTreeMap.ordered_keys_toList.filter _
  exact List.pairwise_map.mp hsorted

/-- The range is answered when the keys under the prefix are text. -/
theorem exists_rangePrefix
    (h : ∀ key value, kvs[key]? = some value → asBytes store.base <+: key →
      ∃ s, key = asBytes s) :
    ∃ pairs, store.rangePrefix kvs = .ok pairs := by
  have hall : kvs.toList.filter (fun kv => decide (asBytes store.base <+: kv.1)) ∈
      Set.range (List.map onWire) := by
    rw [Set.range_list_map]
    rintro ⟨key, value⟩ hmem
    rw [List.mem_filter, Std.ExtTreeMap.mem_toList_iff_getElem?_eq_some, decide_eq_true_iff] at hmem
    obtain ⟨s, rfl⟩ := h key value hmem.1 hmem.2
    exact ⟨(s, value), rfl⟩
  obtain ⟨pairs, hpairs⟩ := hall
  exact ⟨pairs, rangePrefix_eq_ok.mpr hpairs.symm⟩

end Range

/-! ## What the pairs are assembled to -/

section Assemble

variable {store} {codec : Codec} {keyPrefix : String} {pairs : List (String × Bytes)}
  {gw gw' : GatewayConfig}

/-- `as` are the resources of the pairs of one category, in their order. -/
def Reads {α : Type} (keyPrefix cat : String) (serde : Serde α) (pairs : List (String × Bytes))
    (as : List α) : Prop :=
  List.Forall₂ (fun kv a => serde.fromSlice kv.2 = .ok a)
    (pairs.filter fun kv => decide (category keyPrefix kv.1 = some cat)) as

theorem mem_of_reads {α : Type} {cat : String} {serde : Serde α} {as : List α}
    (h : Reads keyPrefix cat serde pairs as) {a : α} :
    a ∈ as ↔ ∃ kv ∈ pairs, category keyPrefix kv.1 = some cat ∧ serde.fromSlice kv.2 = .ok a := by
  constructor
  · intro ha
    obtain ⟨kv, hkv, hread⟩ := TryFold.exists_row h ha
    rw [List.mem_filter, decide_eq_true_iff] at hkv
    exact ⟨kv, hkv.1, hkv.2, hread⟩
  · rintro ⟨kv, hkv, hcat, hread⟩
    have hmem : kv ∈ pairs.filter fun kv => decide (category keyPrefix kv.1 = some cat) :=
      List.mem_filter.mpr ⟨hkv, decide_eq_true hcat⟩
    obtain ⟨b, hb, hread'⟩ := TryFold.exists_result h hmem
    rw [hread] at hread'
    rwa [Except.ok.inj hread']

theorem exists_reads {α : Type} {cat : String} {serde : Serde α}
    (h : ∀ kv ∈ pairs, category keyPrefix kv.1 = some cat → ∃ a, serde.fromSlice kv.2 = .ok a) :
    ∃ as, Reads keyPrefix cat serde pairs as := by
  refine TryFold.exists_results fun kv hkv => ?_
  rw [List.mem_filter, decide_eq_true_iff] at hkv
  exact h kv hkv.1 hkv.2

theorem reads_concat {α : Type} {cat : String} {serde : Serde α} {kv : String × Bytes}
    {as : List α} :
    Reads keyPrefix cat serde (pairs ++ [kv]) as ↔
      if category keyPrefix kv.1 = some cat then
        ∃ as' a, as = as' ++ [a] ∧ Reads keyPrefix cat serde pairs as' ∧
          serde.fromSlice kv.2 = .ok a
      else Reads keyPrefix cat serde pairs as := by
  by_cases hcat : category keyPrefix kv.1 = some cat
  · rw [Reads, List.filter_append, List.filter_cons_of_pos (by simpa using hcat), List.filter_nil,
      TryFold.forall₂_concat, if_pos hcat]
    rfl
  · rw [Reads, List.filter_append, List.filter_cons_of_neg (by simpa using hcat), List.filter_nil,
      List.append_nil, if_neg hcat]
    rfl

theorem readResource_eq_ok {α : Type} (kind : String) {serde : Serde α} {kv : String × Bytes}
    {a : α} : readResource kind serde kv = .ok a ↔ serde.fromSlice kv.2 = .ok a := by
  unfold readResource
  cases serde.fromSlice kv.2 <;> simp

theorem addKv_routes {kv : String × Bytes} (h : category keyPrefix kv.1 = some "routes") :
    addKv codec keyPrefix gw kv = .ok gw' ↔
      ∃ a, codec.route.fromSlice kv.2 = .ok a ∧ gw' = { gw with routes := gw.routes ++ [a] } := by
  unfold addKv
  simp only [h]
  cases ha : readResource "route" codec.route kv <;>
    simp [← readResource_eq_ok "route", ha, bind, Except.bind, pure, Except.pure, eq_comm]

theorem addKv_policies {kv : String × Bytes} (h : category keyPrefix kv.1 = some "policies") :
    addKv codec keyPrefix gw kv = .ok gw' ↔
      ∃ a, codec.policy.fromSlice kv.2 = .ok a ∧ gw' = { gw with policies := gw.policies ++ [a] } := by
  unfold addKv
  simp only [h]
  cases ha : readResource "policy" codec.policy kv <;>
    simp [← readResource_eq_ok "policy", ha, bind, Except.bind, pure, Except.pure, eq_comm]

theorem addKv_consumers {kv : String × Bytes} (h : category keyPrefix kv.1 = some "consumers") :
    addKv codec keyPrefix gw kv = .ok gw' ↔
      ∃ a, codec.consumer.fromSlice kv.2 = .ok a ∧ gw' = { gw with consumers := gw.consumers ++ [a] } := by
  unfold addKv
  simp only [h]
  cases ha : readResource "consumer" codec.consumer kv <;>
    simp [← readResource_eq_ok "consumer", ha, bind, Except.bind, pure, Except.pure, eq_comm]

theorem addKv_other {kv : String × Bytes} (hr : category keyPrefix kv.1 ≠ some "routes")
    (hp : category keyPrefix kv.1 ≠ some "policies")
    (hc : category keyPrefix kv.1 ≠ some "consumers") :
    addKv codec keyPrefix gw kv = .ok gw' ↔ gw' = gw := by
  unfold addKv
  split
  · rename_i h; exact absurd h hr
  · rename_i h; exact absurd h hp
  · rename_i h; exact absurd h hc
  · simp [pure, Except.pure, eq_comm]

/-- **What `gateway_from_kvs` returns**: of each category the resources of its pairs, in the order of
    the pairs.  Induction from the end of the list, where the last resource is pushed. -/
theorem gatewayFromKvs_eq_ok : gatewayFromKvs codec keyPrefix pairs = .ok gw ↔
    Reads keyPrefix "routes" codec.route pairs gw.routes ∧
      Reads keyPrefix "policies" codec.policy pairs gw.policies ∧
      Reads keyPrefix "consumers" codec.consumer pairs gw.consumers := by
  induction pairs using List.reverseRecOn generalizing gw with
  | nil =>
    obtain ⟨routes, policies, consumers⟩ := gw
    simp [gatewayFromKvs, Reads, pure, Except.pure, eq_comm]
  | append_singleton pairs kv ih =>
    have hstep : gatewayFromKvs codec keyPrefix (pairs ++ [kv]) = .ok gw ↔
        ∃ gw0, gatewayFromKvs codec keyPrefix pairs = .ok gw0 ∧
          addKv codec keyPrefix gw0 kv = .ok gw := TryFold.foldlM_concat_eq_ok
    rw [hstep]
    simp only [reads_concat, ih]
    by_cases hr : category keyPrefix kv.1 = some "routes"
    · simp only [addKv_routes hr, hr, Option.some.injEq, String.reduceEq, if_true, if_false]
      constructor
      · rintro ⟨gw0, ⟨hrs, hps, hcs⟩, r, hread, rfl⟩
        exact ⟨⟨gw0.routes, r, rfl, hrs, hread⟩, hps, hcs⟩
      · rintro ⟨⟨rs, r, hgw, hrs, hread⟩, hps, hcs⟩
        exact ⟨{ gw with routes := rs }, ⟨hrs, hps, hcs⟩, r, hread, by rw [← hgw]⟩
    by_cases hp : category keyPrefix kv.1 = some "policies"
    · simp only [addKv_policies hp, hp, Option.some.injEq, String.reduceEq, if_true, if_false]
      constructor
      · rintro ⟨gw0, ⟨hrs, hps, hcs⟩, p, hread, rfl⟩
        exact ⟨hrs, ⟨gw0.policies, p, rfl, hps, hread⟩, hcs⟩
      · rintro ⟨hrs, ⟨ps, p, hgw, hps, hread⟩, hcs⟩
        exact ⟨{ gw with policies := ps }, ⟨hrs, hps, hcs⟩, p, hread, by rw [← hgw]⟩
    by_cases hc : category keyPrefix kv.1 = some "consumers"
    · simp only [addKv_consumers hc, hc, Option.some.injEq, String.reduceEq, if_true, if_false]
      constructor
      · rintro ⟨gw0, ⟨hrs, hps, hcs⟩, c, hread, rfl⟩
        exact ⟨hrs, hps, gw0.consumers, c, rfl, hcs, hread⟩
      · rintro ⟨hrs, hps, cs, c, hgw, hcs, hread⟩
        exact ⟨{ gw with consumers := cs }, ⟨hrs, hps, hcs⟩, c, hread, by rw [← hgw]⟩
    · simp only [addKv_other hr hp hc, if_neg hr, if_neg hp, if_neg hc]
      constructor
      · rintro ⟨gw0, hreads, rfl⟩
        exact hreads
      · exact fun hreads => ⟨gw, hreads, rfl⟩

theorem loadAll_eq_ok {kvs : Content} : store.loadAll codec kvs = .ok gw ↔
    ∃ pairs, store.rangePrefix kvs = .ok pairs ∧
      gatewayFromKvs codec store.keyPrefix pairs = .ok gw := by
  unfold loadAll
  cases store.rangePrefix kvs <;> simp [bind, Except.bind]

end Assemble

end EtcdConfigStore

end Featherbit
