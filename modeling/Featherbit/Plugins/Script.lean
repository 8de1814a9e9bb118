/-
  THE `script` NODE (`plugins/script/lua_runtime.rs`): a context goes into a Lua table, a script's
  `execute` is called with it, and a context is read from the table it returns.

  1. What a table was filled with comes back in any order: texts (`valuesFromLua_valuesToLua`),
     maps (`multimapFromLua_multimapToLua`), JSON values without `null` and empty arrays
     (`luaToJson_jsonToLua`, by induction on the value).
  2. So a script that returns its argument loses nothing else, and a failure loses nothing at all
     (`execute_preserves`).
-/
import Featherbit.Json.Text
import Featherbit.Lib.TryFold
import Featherbit.Plugins
import Featherbit.Rust.Mlua

namespace Featherbit

/-- `n as f64` for an integer from `2 ^ 63` on: the 53 leading bits, rounded to even. -/
def F64.ofLargeUInt64 (n : UInt64) : F64 :=
  let leading := n.toNat / 2 ^ 11
  let rest := n.toNat % 2 ^ 11
  let up := 2 ^ 10 < rest ∨ rest = 2 ^ 10 ∧ leading % 2 = 1
  ⟨UInt64.ofNat (1086 * 2 ^ 52 + (leading - 2 ^ 52) + if up then 1 else 0)⟩

/-! ## Entries in any order -/

theorem lookup_map_snd {α β γ : Type} [BEq α] (f : β → γ) (l : List (α × β)) (key : α) :
    (l.map fun e => (e.1, f e.2)).lookup key = (l.lookup key).map f := by
  induction l with
  | nil => rfl
  | cons e l ih =>
    rw [List.map_cons, List.lookup_cons, List.lookup_cons]
    cases key == e.1 with
    | true => rfl
    | false => exact ih

/-- The entries of a table, in any order, are the images of what it was made from. -/
theorem exists_perm_of_map {α β : Type} {g : α → β} {l : List α} {l' : List β}
    (h : l'.Perm (l.map g)) : ∃ l₁ : List α, l₁.Perm l ∧ l' = l₁.map g := by
  have himage : List.Forall₂ (fun b a => b = g a) (l.map g) l := by
    rw [List.forall₂_map_left_iff, List.forall₂_same]
    exact fun _ _ => rfl
  obtain ⟨l₁, hl₁, hperm⟩ := List.perm_comp_forall₂ h himage
  refine ⟨l₁, hperm, ?_⟩
  rw [← List.forall₂_eq_eq_eq, List.forall₂_map_right_iff]
  exact hl₁

theorem string_injective : Function.Injective fun k => LuaKey.string (asBytes k) :=
  fun _ _ h => asBytes_inj.mp (LuaKey.string.inj h)

/-- A map is rebuilt from its entries in any order. -/
theorem ofList_of_perm {α : Type} {m : HashMap α} {l : List (String × α)} (h : l.Perm m.toList) :
    Std.ExtTreeMap.ofList l compare = m := by
  have hdistinct : l.Pairwise fun a b => ¬ compare a.1 b.1 = .eq :=
    h.symm.pairwise m.distinct_keys_toList fun hab hba => hab (by
      rw [Std.compare_eq_iff_eq] at hba ⊢
      exact hba.symm)
  refine Std.ExtTreeMap.ext_getElem? fun k => ?_
  cases hk : m[k]? with
  | some v =>
    have hmem : (k, v) ∈ l := h.symm.mem_iff.mp (Std.ExtTreeMap.mem_toList_iff_getElem?_eq_some.mpr hk)
    exact Std.ExtTreeMap.getElem?_ofList_of_mem (Std.compare_eq_iff_eq.mpr rfl) hdistinct hmem
  | none =>
    refine Std.ExtTreeMap.getElem?_ofList_of_contains_eq_false ?_
    rw [Bool.eq_false_iff]
    intro hmem
    obtain ⟨e, he, rfl⟩ := List.mem_map.mp (List.contains_iff_mem.mp hmem)
    have hsome := Std.ExtTreeMap.mem_toList_iff_getElem?_eq_some.mp (h.mem_iff.mp he)
    rw [hk] at hsome
    cases hsome

theorem keys_nodup_toList {α : Type} (m : HashMap α) : (m.toList.map Prod.fst).Nodup := by
  rw [List.nodup_iff_pairwise_ne, List.pairwise_map]
  exact m.distinct_keys_toList.imp fun h heq => h (Std.compare_eq_iff_eq.mpr heq)

theorem foldlM_insert {α β γ : Type} {pair : γ → Except String (String × β)} {l : List α}
    {g : α → γ} {key : α → String} {value : α → β}
    (hpair : ∀ a ∈ l, pair (g a) = .ok (key a, value a)) (m : HashMap β) :
    (l.map g).foldlM (fun map e => do
      let (k, v) ← pair e
      return map.insert k v) m = .ok (m.insertMany (l.map fun a => (key a, value a))) := by
  induction l generalizing m with
  | nil => rfl
  | cons a l ih =>
    rw [List.map_cons, List.foldlM_cons, hpair a List.mem_cons_self, List.map_cons,
      Std.ExtTreeMap.insertMany_cons]
    exact ih (fun a ha => hpair a (List.mem_cons_of_mem _ ha)) _

/-- A new field is all that `insertField` adds. -/
theorem insertField_perm {fields : List (String × Json)} {key : String} {v : Json}
    (hnew : key ∉ fields.map Prod.fst) : (Json.insertField key v fields).Perm ((key, v) :: fields) := by
  induction fields with
  | nil => exact List.Perm.refl _
  | cons f fields ih =>
    obtain ⟨k, w⟩ := f
    rw [List.map_cons, List.mem_cons, not_or] at hnew
    rcases lt_or_gt_of_ne hnew.1 with hlt | hgt
    · rw [Json.insertField_of_lt hlt]
    · rw [Json.insertField_of_gt hgt]
      exact ((ih hnew.2).cons (k, w)).trans (List.Perm.swap _ _ _)

/-- Fields inserted in any order are listed in key order. -/
theorem foldl_insertField {l acc fields : List (String × Json)}
    (hacc : acc.Pairwise (·.1 < ·.1)) (hfields : fields.Pairwise (·.1 < ·.1))
    (hperm : (l ++ acc).Perm fields) :
    l.foldl (fun fields p => Json.insertField p.1 p.2 fields) acc = fields := by
  induction l generalizing acc with
  | nil => exact hperm.eq_of_pairwise (fun _ _ _ _ hab hba => absurd hab (lt_asymm hba)) hacc hfields
  | cons p l ih =>
    have hkeys : (((p :: l) ++ acc).map Prod.fst).Nodup := by
      refine ((hperm.map Prod.fst).nodup_iff).mpr ?_
      exact (List.pairwise_map.mpr hfields).imp fun h => ne_of_lt h
    have hnew : p.1 ∉ acc.map Prod.fst := by
      rw [List.cons_append, List.map_cons, List.nodup_cons, List.map_append, List.mem_append] at hkeys
      exact fun h => hkeys.1 (.inr h)
    have hinsert := insertField_perm (v := p.2) hnew
    refine ih (Json.insertField_pairwise hacc p.1 p.2) (((hinsert.append_left l).trans ?_).trans hperm)
    exact List.perm_middle

/-! ## Integers that fit into 32 bits -/

theorem toInt_cut_posInt {n : UInt64} (h : n.toNat < 2 ^ 31) : n.toInt64.toInt32.toInt = n.toNat := by
  have hwide : n.toInt64.toInt = n.toNat := by
    show n.toBitVec.toInt = n.toNat
    rw [BitVec.toInt_eq_toNat_of_lt]
    · rfl
    · show 2 * n.toNat < _
      omega
  rw [Int64.toInt_toInt32, hwide, Int.bmod_def]
  omega

theorem toInt_cut_negInt {n : Int64} (hlow : -2 ^ 31 ≤ n.toInt) (hneg : n.toInt < 0) :
    n.toInt32.toInt = n.toInt := by
  rw [Int64.toInt_toInt32, Int.bmod_def]
  omega

theorem widen_posInt {n : UInt64} {i : Int32} (h : i.toInt = n.toNat) : i.toInt64.toUInt64 = n := by
  have hwide : i.toInt64.toBitVec.toInt = n.toNat := by
    rw [← h]
    exact Int32.toInt_toInt64 i
  rw [← UInt64.toNat_inj]
  show i.toInt64.toBitVec.toNat = n.toNat
  have hn := n.toNat_lt
  rw [BitVec.toInt_eq_toNat_cond] at hwide
  split at hwide <;> omega

theorem widen_negInt {n : Int64} {i : Int32} (h : i.toInt = n.toInt) : i.toInt64 = n := by
  rw [← Int64.toInt_inj, Int32.toInt_toInt64, h]

section Marshal

variable [Mlua]

open LuaTable

/-- The `LuaValue` of a number: an `i64` is cut to a C `int`. -/
def numberToLua : JsonNumber → LuaValue
  | .posInt n =>
    if n.toNat < 2 ^ 63 then .number (Mlua.ofInt n.toInt64.toInt32)
    else .number (F64.ofLargeUInt64 n)
  | .negInt n => .number (Mlua.ofInt n.toInt32)
  | .float x => .number x

mutual

/-- `json_to_lua`. -/
def jsonToLua : Json → LuaValue
  | .null => .nil
  | .bool b => .boolean b
  | .number n => numberToLua n
  | .string s => .string (asBytes s)
  | .array items => .table (setAll (indexed 1 (itemsToLua items)) [])
  | .object fields => .table (setAll (fieldsToLua fields) [])

def itemsToLua : List Json → List LuaValue
  | [] => []
  | v :: vs => jsonToLua v :: itemsToLua vs

/-- The pairs an object's fields are set by. -/
def fieldsToLua : List (String × Json) → List (LuaKey × LuaValue)
  | [] => []
  | (k, v) :: fields => (.string (asBytes k), jsonToLua v) :: fieldsToLua fields

end

/-- `json!(i)`, `json!(x)`. -/
def numberToJson (x : F64) : Json :=
  match Mlua.asInt x with
  | some i =>
    if i < 0 then .number (.negInt i.toInt64) else .number (.posInt i.toInt64.toUInt64)
  | none => if x.bits.toNat / 2 ^ 52 % 2 ^ 11 = 2 ^ 11 - 1 then .null else .number (.float x)

/-- A table, its values converted: an array if it has a length, an object if not; an object one
    of whose keys is no text has no fields at all. -/
def tableToJson (entries : List (LuaKey × Json)) : Json :=
  let len := Mlua.rawLen (entries.map Prod.fst)
  if 0 < len then
    .array ((List.range' 1 len).map fun i => (entries.lookup (.index i)).getD .null)
  else
    match (Mlua.next entries).mapM fun e => (keyFromLua e.1).map fun k => (k, e.2) with
    | .ok pairs => .object (pairs.foldl (fun fields p => Json.insertField p.1 p.2 fields) [])
    | .error _ => .object []

mutual

/-- `lua_to_json`. -/
def luaToJson : LuaValue → Json
  | .nil => .null
  | .boolean b => .bool b
  | .number x => numberToJson x
  | .string s => .string ((fromUtf8 s).getD "")
  | .table entries => tableToJson (entriesToJson entries)
  | .other _ => .null

def entriesToJson : List (LuaKey × LuaValue) → List (LuaKey × Json)
  | [] => []
  | (k, v) :: entries => (k, luaToJson v) :: entriesToJson entries

end

/-- The values of one header or parameter. -/
def valuesToLua (values : List String) : LuaValue :=
  .table (setAll (indexed 1 (values.map fun s => .string (asBytes s))) [])

/-- A map of headers or parameters. -/
def multimapToLua (map : HashMap (List String)) : LuaValue :=
  .table (setAll (map.toList.map fun e => (.string (asBytes e.1), valuesToLua e.2)) [])

/-- `table.set(name, value)`, for a table under construction. -/
def field (name : String) (value : LuaValue) : LuaKey × LuaValue := (.string (asBytes name), value)

/-- The `request` sub-table. -/
def requestToLua (request : GatewayRequest) : LuaValue :=
  .table
    [field "method" (.string (asBytes request.method)),
      field "path" (.string (asBytes request.path)),
      field "host" (.string (asBytes request.host)),
      field "scheme" (.string (asBytes request.scheme)),
      field "remote_addr" (.string (asBytes request.remoteAddr)),
      field "headers" (multimapToLua request.headers),
      field "query_params" (multimapToLua request.queryParams),
      field "body" (.string request.body)]

/-- The `response` sub-table. -/
def responseToLua (response : GatewayResponse) : LuaValue :=
  .table
    [field "status_code" (.number (Mlua.ofInt (Int32.ofNat response.statusCode.toNat))),
      field "headers" (multimapToLua response.headers),
      field "body" (.string response.body)]

/-- The `message` sub-table. -/
def messageToLua (message : HashMap Json) : LuaValue :=
  .table (setAll (fieldsToLua message.toList) [])

/-- The table a script is called with. -/
def contextTable (ctx : Context) : LuaValue :=
  .table
    [field "request" (requestToLua ctx.request),
      field "response" (responseToLua ctx.response),
      field "message" (messageToLua ctx.message)]

/-- `context_to_lua`. -/
def contextToLua (ctx : Context) : Except String LuaValue := do
  Mlua.allocate (contextTable ctx)
  return contextTable ctx

/-- The values of one header or parameter, read back. -/
def valuesFromLua (v : LuaValue) : Except String (List String) := do
  (sequenceValues (← tableFromLua v)).mapM textFromLua

/-- A loop over the pairs of a table that inserts each of them. -/
def collectPairs {α : Type} (pair : LuaKey × LuaValue → Except String (String × α)) (t : LuaTable) :
    Except String (HashMap α) :=
  (Mlua.next t).foldlM (fun map e => do
    let (k, v) ← pair e
    return map.insert k v) ∅

/-- A map of headers or parameters, read back. -/
def multimapFromLua (t : LuaTable) : Except String (HashMap (List String)) :=
  collectPairs (fun e => do
    let k ← keyFromLua e.1
    let values ← valuesFromLua e.2
    return (k, values)) t

/-- A sub-table that may be missing or no table. -/
def optionalTable (v : LuaValue) : LuaTable :=
  match v with
  | .table entries => entries
  | _ => []

def getField (name : String) (t : LuaTable) : LuaValue := get (.string (asBytes name)) t

/-- The request of `lua_to_context`; the wire protocol is the old one. -/
def requestFromLua (t : LuaTable) (protocol : Protocol) : Except String GatewayRequest := do
  let headers ← tableFromLua (getField "headers" t)
  let headers ← multimapFromLua headers
  let queryParams ← multimapFromLua (optionalTable (getField "query_params" t))
  let body ← stringFromLua (getField "body" t)
  let method ← textFromLua (getField "method" t)
  let path ← textFromLua (getField "path" t)
  let host ← textFromLua (getField "host" t)
  let scheme ← textFromLua (getField "scheme" t)
  let remoteAddr ← textFromLua (getField "remote_addr" t)
  return {
    method := method, path := path, host := host, scheme := scheme, headers := headers,
    queryParams := queryParams, body := body, remoteAddr := remoteAddr, protocol := protocol }

def responseFromLua (t : LuaTable) : Except String GatewayResponse := do
  let headers ← tableFromLua (getField "headers" t)
  let headers ← multimapFromLua headers
  let body ← stringFromLua (getField "body" t)
  let statusCode ← Mlua.toU16 (getField "status_code" t)
  return { statusCode := statusCode, headers := headers, body := body }

/-- The scratch space, read back. -/
def messageFromLua (t : LuaTable) : Except String (HashMap Json) :=
  collectPairs (fun e => do
    let k ← keyFromLua e.1
    return (k, luaToJson e.2)) t

/-- `lua_to_context`. -/
def luaToContext (t : LuaTable) (protocol : Protocol) (errors : List GatewayError) :
    Except String Context := do
  let request ← tableFromLua (getField "request" t)
  let response ← tableFromLua (getField "response" t)
  let request ← requestFromLua request protocol
  let response ← responseFromLua response
  let message ← messageFromLua (optionalTable (getField "message" t))
  return { request := request, response := response, message := message, errors := errors }

/-! ## There and back -/

theorem textFromLua_string (s : String) : textFromLua (.string (asBytes s)) = .ok s := by
  unfold textFromLua stringFromLua
  dsimp only
  rw [fromUtf8_asBytes]

theorem mapM_textFromLua (values : List String) :
    (values.map fun s => LuaValue.string (asBytes s)).mapM textFromLua = .ok values := by
  rw [TryFold.mapM_eq_ok, List.forall₂_map_left_iff, List.forall₂_same]
  exact fun s _ => textFromLua_string s

/-- A list of texts comes back. -/
theorem valuesFromLua_valuesToLua (values : List String) :
    valuesFromLua (valuesToLua values) = .ok values := by
  have hset : setAll (indexed 1 (values.map fun s => LuaValue.string (asBytes s))) [] =
      indexed 1 (values.map fun s => LuaValue.string (asBytes s)) := by
    refine setAll_nil (nodup_keys_indexed _ _) fun e he => ?_
    obtain ⟨v, hv, rfl⟩ := List.mem_map.mp he
    obtain ⟨s, -, hs⟩ := List.mem_map.mp (List.fst_mem_of_mem_zipIdx hv)
    show v.1.isNil = false
    rw [← hs]
    rfl
  rw [valuesToLua, hset, valuesFromLua, tableFromLua]
  show (sequenceValues (indexed 1 _)).mapM textFromLua = _
  rw [sequenceValues_indexed]
  exact mapM_textFromLua values

/-- The entries of a table made from a map, read pair by pair. -/
theorem collectPairs_map {α β : Type} {pair : LuaKey × LuaValue → Except String (String × β)}
    {l : List α} {g : α → LuaKey × LuaValue} {m : HashMap β} (key : α → String) (value : α → β)
    (hpair : ∀ a ∈ l, pair (g a) = .ok (key a, value a))
    (hm : (l.map fun a => (key a, value a)).Perm m.toList) :
    collectPairs pair (l.map g) = .ok m := by
  obtain ⟨l₁, hl₁, hnext⟩ := exists_perm_of_map (Mlua.next_perm (l.map g))
  have hpairs : ∀ a ∈ l₁, pair (g a) = .ok (key a, value a) :=
    fun a ha => hpair a (hl₁.mem_iff.mp ha)
  rw [collectPairs, hnext, foldlM_insert hpairs, ← Std.ExtTreeMap.ofList_eq_insertMany_empty]
  exact congrArg Except.ok (ofList_of_perm ((hl₁.map _).trans hm))

/-- A map of headers or parameters comes back. -/
theorem multimapFromLua_multimapToLua (map : HashMap (List String)) :
    multimapFromLua (optionalTable (multimapToLua map)) = .ok map := by
  have hset : setAll (map.toList.map fun e => (.string (asBytes e.1), valuesToLua e.2)) [] =
      map.toList.map fun e => (.string (asBytes e.1), valuesToLua e.2) := by
    refine setAll_nil ?_ fun e he => ?_
    · rw [List.map_map]
      show (map.toList.map ((fun k => LuaKey.string (asBytes k)) ∘ Prod.fst)).Nodup
      rw [← List.map_map]
      exact (keys_nodup_toList map).map string_injective
    · obtain ⟨entry, -, rfl⟩ := List.mem_map.mp he
      rfl
  rw [multimapToLua, hset]
  show multimapFromLua _ = _
  refine collectPairs_map Prod.fst Prod.snd (fun e _ => ?_) ?_
  · show (do
      let k ← textFromLua (.string (asBytes e.1))
      let values ← valuesFromLua (valuesToLua e.2)
      return (k, values)) = _
    rw [textFromLua_string, valuesFromLua_valuesToLua]
    rfl
  · rw [show (map.toList.map fun e => (e.1, e.2)) = map.toList from List.map_id _]

/-! ## JSON values that come back as they were -/

/-- The integers of 32 bits, and the floats that are not taken for one. -/
def NumberKeptByLua : JsonNumber → Prop
  | .posInt n => n.toNat < 2 ^ 31
  | .negInt n => -2 ^ 31 ≤ n.toInt
  | .float x => Mlua.asInt x = none

mutual

/-- No `null`, no empty array, and only numbers that are kept. -/
def KeptByLua : Json → Prop
  | .null => False
  | .bool _ | .string _ => True
  | .number n => NumberKeptByLua n
  | .array items => items ≠ [] ∧ ItemsKeptByLua items
  | .object fields => FieldsKeptByLua fields

def ItemsKeptByLua : List Json → Prop
  | [] => True
  | v :: vs => KeptByLua v ∧ ItemsKeptByLua vs

def FieldsKeptByLua : List (String × Json) → Prop
  | [] => True
  | (_, v) :: fields => KeptByLua v ∧ FieldsKeptByLua fields

end

theorem numberToJson_numberToLua {n : JsonNumber} (hn : Json.Canonical (.number n))
    (hkept : NumberKeptByLua n) : luaToJson (numberToLua n) = .number n := by
  cases n with
  | posInt n =>
    have hsmall : n.toNat < 2 ^ 31 := hkept
    have hlua : numberToLua (.posInt n) = .number (Mlua.ofInt n.toInt64.toInt32) := by
      rw [numberToLua, if_pos (by omega)]
    rw [hlua]
    have hint := toInt_cut_posInt hsmall
    have hpos : ¬ n.toInt64.toInt32 < 0 := by
      rw [Int32.lt_iff_toInt_lt, hint]
      exact not_lt.mpr (Int.natCast_nonneg _)
    show numberToJson _ = _
    rw [numberToJson, Mlua.asInt_ofInt]
    show (if _ then _ else _) = _
    rw [if_neg hpos, widen_posInt hint]
  | negInt n =>
    have hsmall : -2 ^ 31 ≤ n.toInt := hkept
    have hneg : n.toInt < 0 := hn
    have hint := toInt_cut_negInt hsmall hneg
    have hneg' : n.toInt32 < 0 := by
      rw [Int32.lt_iff_toInt_lt, hint]
      exact hneg
    show numberToJson (Mlua.ofInt n.toInt32) = _
    rw [numberToJson, Mlua.asInt_ofInt]
    show (if _ then _ else _) = _
    rw [if_pos hneg', widen_negInt hint]
  | float x =>
    show numberToJson x = _
    have hnone : Mlua.asInt x = none := hkept
    have hfinite : x.Finite := hn
    rw [numberToJson, hnone]
    exact if_neg hfinite

theorem itemsToLua_eq_map (items : List Json) : itemsToLua items = items.map jsonToLua := by
  induction items with
  | nil => rfl
  | cons v items ih => rw [itemsToLua, ih, List.map_cons]

theorem fieldsToLua_eq_map (fields : List (String × Json)) :
    fieldsToLua fields = fields.map fun f => (.string (asBytes f.1), jsonToLua f.2) := by
  induction fields with
  | nil => rfl
  | cons f fields ih => rw [fieldsToLua, ih, List.map_cons]

theorem entriesToJson_eq_map (entries : List (LuaKey × LuaValue)) :
    entriesToJson entries = entries.map fun e => (e.1, luaToJson e.2) := by
  induction entries with
  | nil => rfl
  | cons e entries ih => rw [entriesToJson, ih, List.map_cons]

/-- Only `null` becomes `nil`. -/
theorem isNil_jsonToLua {v : Json} (h : v ≠ .null) : (jsonToLua v).isNil = false := by
  cases v with
  | null => exact absurd rfl h
  | bool _ | string _ | array _ | object _ => rfl
  | number n =>
    show (numberToLua n).isNil = false
    cases n with
    | posInt n =>
      rw [numberToLua]
      split
      · rfl
      · rfl
    | negInt _ | float _ => rfl

/-- A table with the entries `1` to `n` has that length. -/
theorem rawLen_range' (n : Nat) : Mlua.rawLen ((List.range' 1 n).map LuaKey.index) = n := by
  have hmem : ∀ k, LuaKey.index k ∈ (List.range' 1 n).map LuaKey.index ↔ 1 ≤ k ∧ k ≤ n := by
    intro k
    rw [List.mem_map_of_injective (fun _ _ h => LuaKey.index.inj h), List.mem_range'_1]
    omega
  obtain ⟨hlast, hnext⟩ := Mlua.rawLen_border ((List.range' 1 n).map LuaKey.index)
  rw [hmem] at hlast hnext
  omega

/-- A table without the entry `1` has none. -/
theorem rawLen_string (keys : List String) :
    Mlua.rawLen (keys.map fun k => LuaKey.string (asBytes k)) = 0 := by
  rcases (Mlua.rawLen_border (keys.map fun k => LuaKey.string (asBytes k))).last with h | h
  · exact h
  · obtain ⟨k, -, hk⟩ := List.mem_map.mp h
    cases hk

/-- An array of values that come back. -/
theorem arrayToJson {items : List Json} (hne : items ≠ [])
    (hnil : ∀ v ∈ items, (jsonToLua v).isNil = false)
    (hitems : ∀ v ∈ items, luaToJson (jsonToLua v) = v) :
    luaToJson (jsonToLua (.array items)) = .array items := by
  have hset : setAll (indexed 1 (itemsToLua items)) [] = indexed 1 (items.map jsonToLua) := by
    rw [itemsToLua_eq_map]
    refine setAll_nil (nodup_keys_indexed _ _) fun e he => ?_
    obtain ⟨e, hmem, rfl⟩ := List.mem_map.mp he
    obtain ⟨v, hv, hlua⟩ := List.mem_map.mp (List.fst_mem_of_mem_zipIdx hmem)
    show e.1.isNil = false
    rw [← hlua]
    exact hnil v hv
  have hlen : Mlua.rawLen ((entriesToJson (indexed 1 (items.map jsonToLua))).map Prod.fst) =
      items.length := by
    rw [entriesToJson_eq_map, List.map_map]
    show Mlua.rawLen ((indexed 1 (items.map jsonToLua)).map Prod.fst) = _
    rw [keys_indexed, List.length_map, rawLen_range']
  have hlookup : ∀ k, (entriesToJson (indexed 1 (items.map jsonToLua))).lookup (.index (1 + k)) =
      items[k]? := by
    intro k
    rw [entriesToJson_eq_map, lookup_map_snd, lookup_indexed, List.getElem?_map]
    cases hk : items[k]? with
    | none => rfl
    | some v => exact congrArg some (hitems v (List.mem_of_getElem? hk))
  rw [jsonToLua, hset, luaToJson, tableToJson]
  simp only [hlen]
  rw [if_pos (List.length_pos_iff.mpr hne)]
  refine congrArg Json.array (List.ext_getElem (by simp) fun k hk hk' => ?_)
  rw [List.getElem_map, List.getElem_range', one_mul, hlookup, List.getElem?_eq_getElem hk']
  rfl

theorem objectToJson {fields : List (String × Json)}
    (hsorted : (fields.map Prod.fst).Pairwise (· < ·))
    (hnil : ∀ f ∈ fields, (jsonToLua f.2).isNil = false)
    (hfields : ∀ f ∈ fields, luaToJson (jsonToLua f.2) = f.2) :
    luaToJson (jsonToLua (.object fields)) = .object fields := by
  have hkeys : ((fieldsToLua fields).map Prod.fst).Nodup := by
    rw [fieldsToLua_eq_map, List.map_map]
    show (fields.map ((fun k => LuaKey.string (asBytes k)) ∘ Prod.fst)).Nodup
    rw [← List.map_map]
    exact (hsorted.imp fun h => ne_of_lt h).map _ fun _ _ hne heq => hne (string_injective heq)
  have hset : setAll (fieldsToLua fields) [] = fieldsToLua fields := by
    refine setAll_nil hkeys fun e he => ?_
    rw [fieldsToLua_eq_map] at he
    obtain ⟨f, hf, rfl⟩ := List.mem_map.mp he
    exact hnil f hf
  have hentries : entriesToJson (fieldsToLua fields) =
      fields.map fun f => (LuaKey.string (asBytes f.1), f.2) := by
    rw [entriesToJson_eq_map, fieldsToLua_eq_map, List.map_map]
    refine List.map_congr_left fun f hf => ?_
    show (LuaKey.string (asBytes f.1), luaToJson (jsonToLua f.2)) = _
    rw [hfields f hf]
  have hlen : Mlua.rawLen ((fields.map fun f => (LuaKey.string (asBytes f.1), f.2)).map Prod.fst) =
      0 := by
    rw [List.map_map]
    show Mlua.rawLen (fields.map ((fun k => LuaKey.string (asBytes k)) ∘ Prod.fst)) = 0
    rw [← List.map_map, rawLen_string]
  obtain ⟨pairs, hperm, hnext⟩ := exists_perm_of_map
    (Mlua.next_perm (fields.map fun f => (LuaKey.string (asBytes f.1), f.2)))
  have hread : (pairs.map fun f => (LuaKey.string (asBytes f.1), f.2)).mapM
      (fun e => (keyFromLua e.1).map fun k => (k, e.2)) = .ok pairs := by
    rw [TryFold.mapM_eq_ok, List.forall₂_map_left_iff, List.forall₂_same]
    intro f _
    show (textFromLua (.string (asBytes f.1))).map _ = _
    rw [textFromLua_string]
    rfl
  rw [jsonToLua, hset, luaToJson, hentries, tableToJson]
  simp only [hlen, hnext, hread]
  refine congrArg Json.object (foldl_insertField List.Pairwise.nil (List.pairwise_map.mp hsorted) ?_)
  rw [List.append_nil]
  exact hperm

theorem isNil_of_keptByLua {v : Json} (h : KeptByLua v) : (jsonToLua v).isNil = false := by
  refine isNil_jsonToLua fun hnull => ?_
  rw [hnull] at h
  exact h

theorem kept_of_mem {items : List Json} (h : ItemsKeptByLua items) : ∀ v ∈ items, KeptByLua v := by
  induction items with
  | nil => simp
  | cons w items ih =>
    intro v hv
    rcases List.mem_cons.mp hv with rfl | hv
    · exact h.1
    · exact ih h.2 v hv

theorem kept_of_mem_fields {fields : List (String × Json)} (h : FieldsKeptByLua fields) :
    ∀ f ∈ fields, KeptByLua f.2 := by
  induction fields with
  | nil => simp
  | cons g fields ih =>
    intro f hf
    rcases List.mem_cons.mp hf with rfl | hf
    · exact h.1
    · exact ih h.2 f hf

mutual

/-- A kept value comes back as it was, by induction on the value. -/
theorem luaToJson_jsonToLua : ∀ {v : Json}, v.Canonical → KeptByLua v → luaToJson (jsonToLua v) = v
  | .null, _, hkept => absurd hkept not_false
  | .bool _, _, _ => rfl
  | .string s, _, _ => by
    show Json.string ((fromUtf8 (asBytes s)).getD "") = _
    rw [fromUtf8_asBytes]
    rfl
  | .number _, hv, hkept => numberToJson_numberToLua hv hkept
  | .array _, hv, hkept =>
    arrayToJson hkept.1 (fun v hmem => isNil_of_keptByLua (kept_of_mem hkept.2 v hmem))
      (items_come_back hv hkept.2)
  | .object _, hv, hkept =>
    objectToJson hv.1 (fun f hmem => isNil_of_keptByLua (kept_of_mem_fields hkept f hmem))
      (fields_come_back hv.2 hkept)

theorem items_come_back : ∀ {items : List Json}, Json.CanonicalItems items → ItemsKeptByLua items →
    ∀ v ∈ items, luaToJson (jsonToLua v) = v
  | [], _, _ => by simp
  | v :: vs, hv, hkept => by
    have hfirst : luaToJson (jsonToLua v) = v := luaToJson_jsonToLua hv.1 hkept.1
    have hrest := items_come_back hv.2 hkept.2
    intro w hw
    rcases List.mem_cons.mp hw with rfl | hw
    · exact hfirst
    · exact hrest w hw

theorem fields_come_back : ∀ {fields : List (String × Json)}, Json.CanonicalFields fields →
    FieldsKeptByLua fields → ∀ f ∈ fields, luaToJson (jsonToLua f.2) = f.2
  | [], _, _ => by simp
  | (_, v) :: fields, hv, hkept => by
    have hfirst : luaToJson (jsonToLua v) = v := luaToJson_jsonToLua hv.1 hkept.1
    have hrest := fields_come_back hv.2 hkept.2
    intro f hf
    rcases List.mem_cons.mp hf with rfl | hf
    · exact hfirst
    · exact hrest f hf

end

/-! ## The whole context -/

/-- The scratch space after its passage: without the keys of `null`. -/
def passedMessage (message : HashMap Json) : HashMap Json :=
  message.filterMap fun _ v => if v = .null then none else some (luaToJson (jsonToLua v))

theorem get_passedMessage (message : HashMap Json) (k : String) :
    (passedMessage message)[k]? =
      message[k]?.bind fun v => if v = .null then none else some (luaToJson (jsonToLua v)) := by
  rw [passedMessage, Std.ExtTreeMap.getElem?_filterMap']

theorem messageFromLua_messageToLua (message : HashMap Json) :
    messageFromLua (optionalTable (messageToLua message)) = .ok (passedMessage message) := by
  have hkeys : ((fieldsToLua message.toList).map Prod.fst).Nodup := by
    rw [fieldsToLua_eq_map, List.map_map]
    show (message.toList.map ((fun k => LuaKey.string (asBytes k)) ∘ Prod.fst)).Nodup
    rw [← List.map_map]
    exact (keys_nodup_toList message).map string_injective
  -- what is `null` was never set
  have hset : setAll (fieldsToLua message.toList) [] =
      (message.toList.filter fun f => f.2 ≠ .null).map
        fun f => (LuaKey.string (asBytes f.1), jsonToLua f.2) := by
    rw [setAll_eq hkeys (fun _ _ => List.not_mem_nil), List.nil_append, fieldsToLua_eq_map,
      List.filter_map]
    congr 1
    refine List.filter_congr fun f _ => ?_
    show (!(jsonToLua f.2).isNil) = _
    by_cases hnull : f.2 = .null
    · rw [hnull]
      rfl
    · rw [isNil_jsonToLua hnull, decide_eq_true hnull]
      rfl
  rw [messageToLua, hset]
  show messageFromLua _ = _
  refine collectPairs_map Prod.fst (fun f => luaToJson (jsonToLua f.2)) (fun f _ => ?_) ?_
  · show (do
      let k ← textFromLua (.string (asBytes f.1))
      return (k, luaToJson (jsonToLua f.2))) = _
    rw [textFromLua_string]
    rfl
  · rw [passedMessage, Std.ExtTreeMap.toList_filterMap, ← List.filterMap_eq_filter,
      ← List.filterMap_eq_map, List.filterMap_filterMap]
    refine List.Perm.of_eq (congrArg (List.filterMap · message.toList) (funext fun f => ?_))
    by_cases hnull : f.2 = .null
    · simp [Option.guard, hnull]
    · simp [Option.guard, hnull]

omit [Mlua] in
theorem getField_cons (name name' : String) (v : LuaValue) (t : LuaTable) :
    getField name (field name' v :: t) = if name = name' then v else getField name t := by
  show (List.lookup (LuaKey.string (asBytes name)) ((LuaKey.string (asBytes name'), v) :: t)).getD
    LuaValue.nil = _
  rw [List.lookup_cons]
  by_cases h : name = name'
  · rw [if_pos h, h, beq_self_eq_true]
    rfl
  · have hkey : (LuaKey.string (asBytes name) == LuaKey.string (asBytes name')) = false := by
      rw [beq_eq_false_iff_ne]
      exact fun heq => h (string_injective heq)
    rw [if_neg h, hkey]
    rfl

theorem requestFromLua_requestToLua (request : GatewayRequest) :
    requestFromLua (optionalTable (requestToLua request)) request.protocol = .ok request := by
  have htable : ∀ map, tableFromLua (multimapToLua map) = .ok (optionalTable (multimapToLua map)) :=
    fun _ => rfl
  have hbody : stringFromLua (.string request.body) = .ok request.body := rfl
  rw [requestToLua, optionalTable, requestFromLua]
  simp only [getField_cons, String.reduceEq, if_true, if_false, htable, hbody,
    textFromLua_string, multimapFromLua_multimapToLua, bind, Except.bind]
  rfl

theorem responseFromLua_responseToLua (response : GatewayResponse) :
    responseFromLua (optionalTable (responseToLua response)) = .ok response := by
  have htable : ∀ map, tableFromLua (multimapToLua map) = .ok (optionalTable (multimapToLua map)) :=
    fun _ => rfl
  have hbody : stringFromLua (.string response.body) = .ok response.body := rfl
  rw [responseToLua, optionalTable, responseFromLua]
  simp only [getField_cons, String.reduceEq, if_true, if_false, htable, hbody, Mlua.toU16_ofInt,
    multimapFromLua_multimapToLua, bind, Except.bind]
  rfl

/-- The table of a context, read back. -/
theorem luaToContext_contextTable (ctx : Context) :
    luaToContext (optionalTable (contextTable ctx)) ctx.request.protocol ctx.errors =
      .ok { ctx with message := passedMessage ctx.message } := by
  have hrequest : tableFromLua (requestToLua ctx.request) =
      .ok (optionalTable (requestToLua ctx.request)) := rfl
  have hresponse : tableFromLua (responseToLua ctx.response) =
      .ok (optionalTable (responseToLua ctx.response)) := rfl
  rw [contextTable, optionalTable, luaToContext]
  simp only [getField_cons, String.reduceEq, if_true, if_false, hrequest, hresponse,
    requestFromLua_requestToLua, responseFromLua_responseToLua, messageFromLua_messageToLua, bind,
    Except.bind]
  rfl

end Marshal

/-- `LuaRuntime`. -/
structure LuaRuntime where
  source : String
  modulesPath : Option String
  /-- stored, not enforced -/
  timeoutMs : UInt64

namespace LuaRuntime

variable [Mlua]

/-- `LuaRuntime::new`. -/
def new (source : String) (timeoutMs : UInt64) (modulesPath : Option String) :
    Except String LuaRuntime :=
  match Mlua.exec source modulesPath with
  | .error e => .error ("Lua compilation error: " ++ e)
  | .ok globals =>
    match globals.execute with
    | .error _ => .error "Lua script must define an 'execute(ctx)' function"
    | .ok _ => .ok { source := source, modulesPath := modulesPath, timeoutMs := timeoutMs }

/-- A failure that hands the context back. -/
def failure (ctx : Context) (code message : String) : PluginExecutionError where
  context := ctx
  error := { nodeId := "", code := code, message := message, metadata := ∅ }

/-- `LuaRuntime::execute`. -/
def execute (runtime : LuaRuntime) (ctx : Context) : Except PluginExecutionError Context :=
  match Mlua.exec runtime.source runtime.modulesPath with
  | .error e => .error (failure ctx "LUA_LOAD_ERROR" ("Failed to load Lua script: " ++ e))
  | .ok globals =>
    match contextToLua ctx with
    | .error e =>
      .error (failure ctx "LUA_MARSHAL_ERROR" ("Failed to marshal context to Lua: " ++ e))
    | .ok table =>
      match globals.execute with
      | .error e =>
        .error (failure ctx "LUA_MISSING_EXECUTE" ("Missing execute function: " ++ e))
      | .ok executeFn =>
        match executeFn table >>= tableFromLua with
        | .error e => .error (failure ctx "LUA_EXECUTION_ERROR" ("Lua execution error: " ++ e))
        | .ok result =>
          match luaToContext result ctx.request.protocol ctx.errors with
          | .ok newCtx => .ok newCtx
          | .error e =>
            .error (failure ctx "LUA_UNMARSHAL_ERROR"
              ("Failed to unmarshal context from Lua: " ++ e))

/-- The script defines an `execute` that returns its argument. -/
def Identity (runtime : LuaRuntime) : Prop :=
  ∃ globals, Mlua.exec runtime.source runtime.modulesPath = .ok globals ∧
    globals.execute = .ok .ok

/-- Every failure hands the context back. -/
theorem context_of_error {runtime : LuaRuntime} {ctx : Context} {e : PluginExecutionError}
    (h : runtime.execute ctx = .error e) : e.context = ctx := by
  have hfailure : ∀ {code message}, Except.error (failure ctx code message) =
      (Except.error e : Except PluginExecutionError Context) → e.context = ctx := by
    intro code message heq
    cases heq
    rfl
  rw [execute] at h
  split at h
  · exact hfailure h
  · split at h
    · exact hfailure h
    · split at h
      · exact hfailure h
      · split at h
        · exact hfailure h
        · split at h
          · cases h
          · exact hfailure h

/-- A script that returns the table of a context, but for what it cannot see. -/
theorem execute_returns {runtime : LuaRuntime} {globals : LuaGlobals}
    {executeFn : LuaValue → Except String LuaValue} {ctx ctx' : Context}
    (hexec : Mlua.exec runtime.source runtime.modulesPath = .ok globals)
    (hfn : globals.execute = .ok executeFn) (hfits : Mlua.allocate (contextTable ctx) = .ok ())
    (hreturns : executeFn (contextTable ctx) = .ok (contextTable ctx'))
    (hprotocol : ctx'.request.protocol = ctx.request.protocol) (herrors : ctx'.errors = ctx.errors) :
    runtime.execute ctx = .ok { ctx' with message := passedMessage ctx'.message } := by
  have htable : contextToLua ctx = .ok (contextTable ctx) := by
    rw [contextToLua, hfits]
    rfl
  have hresult : (executeFn (contextTable ctx) >>= tableFromLua) =
      .ok (optionalTable (contextTable ctx')) := by
    rw [hreturns]
    rfl
  rw [execute, hexec]
  simp only [htable, hfn, hresult, ← hprotocol, ← herrors, luaToContext_contextTable]

theorem execute_identity {runtime : LuaRuntime} {ctx : Context} (hscript : runtime.Identity)
    (hfits : Mlua.allocate (contextTable ctx) = .ok ()) :
    runtime.execute ctx = .ok { ctx with message := passedMessage ctx.message } := by
  obtain ⟨globals, hexec, hfn⟩ := hscript
  exact execute_returns hexec hfn hfits rfl rfl rfl

end LuaRuntime

/-- `ScriptPlugin`, with its one runtime. -/
structure ScriptPlugin where
  runtime : LuaRuntime

/-- The file system, as far as a script node asks it. -/
structure ScriptFiles where
  readToString : String → Except String String
  parent : String → Option String

namespace ScriptPlugin

section Node

variable [Mlua]

/-- `ScriptPlugin::from_config`. -/
def fromConfig (files : ScriptFiles) (config : HashMap Json) : Except String ScriptPlugin := do
  let text := fun key => config[key]?.bind Json.asStr
  let source ←
    match text "source", text "inline" with
    | none, none => .error "script plugin requires 'source' or 'inline'"
    | some path, _ =>
      match files.readToString path with
      | .ok source => .ok source
      | .error e => .error ("Failed to read script '" ++ path ++ "': " ++ e)
    | none, some inline => .ok inline
  let timeoutMs := (config["timeout_ms"]?.bind Json.asU64).getD 5000
  let modulesPath := (text "modules_path").or ((text "source").bind files.parent)
  match (text "runtime").getD "lua" with
  | "lua" => return { runtime := ← LuaRuntime.new source timeoutMs modulesPath }
  | other => .error ("Unknown runtime: '" ++ other ++ "' — supported: lua")

/-- `ScriptPlugin::execute`. -/
def execute (plugin : ScriptPlugin) (ctx : Context) : PluginResult :=
  match plugin.runtime.execute ctx with
  | .ok newCtx => .ok { context := newCtx, namedOutputs := ∅ }
  | .error e => .error e

/-- The node in a graph. -/
def toPlugin {σ : Type} (plugin : ScriptPlugin) : Plugin σ where
  pluginType := "script"
  execute ctx _ w := (plugin.execute ctx, w)

/-- The arm of `create_plugin` for script nodes. -/
def factory {σ : Type} (files : ScriptFiles) : PluginFactory σ where
  create nodeType config :=
    if nodeType = "script" then (fromConfig files config).map toPlugin
    else .error ("Unknown plugin type: " ++ nodeType)
  typed := by
    intro nodeType config plugin h
    split at h
    · next htype =>
      cases hnode : fromConfig files config with
      | error e =>
        rw [hnode] at h
        cases h
      | ok node =>
        rw [hnode] at h
        cases h
        exact htype.symm
    · cases h

/-- Whatever a script node answers, nothing of the context is lost on the way: a failure carries
    the context it was given, and a script that returns its argument the same request, response
    and errors, and of the scratch space every key without a `null`, with the very value where
    that is kept. -/
theorem execute_preserves (plugin : ScriptPlugin) (ctx : Context) :
    (∀ e, plugin.execute ctx = .error e → e.context = ctx) ∧
    (plugin.runtime.Identity → Mlua.allocate (contextTable ctx) = .ok () →
      (∀ (k : String) (v : Json), ctx.message[k]? = some v → v.Canonical) →
      ∃ out, plugin.execute ctx = .ok out ∧ out.context.request = ctx.request ∧
        out.context.response = ctx.response ∧ out.context.errors = ctx.errors ∧
        (∀ (k : String) (v : Json), ctx.message[k]? = some v → KeptByLua v →
          out.context.message[k]? = some v) ∧
        ∀ k : String, (out.context.message[k]?).isSome ↔ ∃ v, ctx.message[k]? = some v ∧ v ≠ .null) := by
  refine ⟨fun e h => ?_, fun hscript hfits hcanonical => ?_⟩
  · rw [execute] at h
    cases hrun : plugin.runtime.execute ctx with
    | ok newCtx =>
      rw [hrun] at h
      cases h
    | error e' =>
      rw [hrun] at h
      cases h
      exact LuaRuntime.context_of_error hrun
  · refine ⟨{ context := { ctx with message := passedMessage ctx.message }, namedOutputs := ∅ },
      ?_, rfl, rfl, rfl, fun k v hv hkept => ?_, fun k => ?_⟩
    · rw [execute, LuaRuntime.execute_identity hscript hfits]
    · have hne : v ≠ .null := by
        rintro rfl
        exact hkept
      show (passedMessage ctx.message)[k]? = some v
      rw [get_passedMessage, hv, Option.bind_some, if_neg hne,
        luaToJson_jsonToLua (hcanonical k v hv) hkept]
    · show ((passedMessage ctx.message)[k]?).isSome ↔ _
      rw [get_passedMessage]
      cases hv : ctx.message[k]? with
      | none => simp
      | some v =>
        by_cases hnull : v = .null
        · simp [hnull]
        · simp [hnull]

end Node

/-- The one script this machine knows. -/
def identitySource : String := "function execute(ctx) return ctx end"

def identityExec (source : String) (_ : Option String) : Except String LuaGlobals :=
  if source = identitySource then .ok { execute := .ok .ok } else .error "unknown script"

def identityNode : ScriptPlugin where
  runtime := { source := identitySource, modulesPath := none, timeoutMs := 5000 }

/-- A request after some nodes, with a message of two keys. -/
def enriched : Context where
  request := { (default : GatewayRequest) with
    headers := (∅ : HashMap (List String)).insert "accept" ["text/html", "text/plain"] }
  response := { statusCode := 200, headers := ∅, body := [0, 255] }
  message := ((∅ : HashMap Json).insert "user" (.object [("id", .number (.posInt 7))])).insert
    "roles" (.array [.string "admin", .bool true])
  errors := []

theorem execute_preserves_enriched :
    let _ : Mlua := luauOf identityExec
    ∃ out, identityNode.execute enriched = .ok out ∧ out.context = enriched := by
  let _ : Mlua := luauOf identityExec
  have hscript : identityNode.runtime.Identity := ⟨{ execute := .ok .ok }, rfl, rfl⟩
  have hget : ∀ k : String, enriched.message[k]? = if k = "roles" then some (.array [.string "admin", .bool true])
      else if k = "user" then some (.object [("id", .number (.posInt 7))]) else none := by
    intro k
    show (((∅ : HashMap Json).insert "user" _).insert "roles" _)[k]? = _
    rw [HashMap.get_insert, HashMap.get_insert, Std.ExtTreeMap.getElem?_empty]
  have hvalues : ∀ (k : String) (v : Json), enriched.message[k]? = some v →
      v.Canonical ∧ KeptByLua v := by
    intro k v hv
    rw [hget] at hv
    split at hv
    · cases hv
      exact ⟨⟨trivial, trivial, trivial⟩, by simp, trivial, trivial, trivial⟩
    · split at hv
      · cases hv
        exact ⟨⟨List.pairwise_singleton _ _, trivial, trivial⟩,
          show (7 : UInt64).toNat < 2 ^ 31 by decide, trivial⟩
      · cases hv
  obtain ⟨out, hout, hrequest, hresponse, herrors, hkept, hkeys⟩ :=
    (execute_preserves identityNode enriched).2 hscript rfl fun k v hv => (hvalues k v hv).1
  refine ⟨out, hout, ?_⟩
  have hmessage : out.context.message = enriched.message := by
    refine Std.ExtTreeMap.ext_getElem? fun k => ?_
    cases hv : enriched.message[k]? with
    | some v => exact hkept k v hv (hvalues k v hv).2
    | none =>
      have hnone : ¬ (out.context.message[k]?).isSome := by
        rw [hkeys]
        rintro ⟨v, hsome, -⟩
        rw [hv] at hsome
        cases hsome
      exact Option.not_isSome_iff_eq_none.mp hnone
  cases hcontext : out.context
  rw [hcontext] at hrequest hresponse herrors hmessage
  cases hrequest
  cases hresponse
  cases herrors
  cases hmessage
  rfl

/-- A message of a `null` and an empty list. -/
def hollow : Context :=
  { enriched with
    message := ((∅ : HashMap Json).insert "claims" .null).insert "roles" (.array []) }

/-- The `null` is dropped, and the empty list becomes an empty object. -/
theorem hollow_changed :
    let _ : Mlua := luauOf identityExec
    identityNode.runtime.Identity ∧ ∃ out, identityNode.execute hollow = .ok out ∧
      out.context.message["claims"]? = none ∧ out.context.message["roles"]? = some (.object []) ∧
      out.context ≠ hollow := by
  let _ : Mlua := luauOf identityExec
  have hscript : identityNode.runtime.Identity := ⟨{ execute := .ok .ok }, rfl, rfl⟩
  have hget : ∀ k : String, hollow.message[k]? = if k = "roles" then some (.array [])
      else if k = "claims" then some .null else none := by
    intro k
    show (((∅ : HashMap Json).insert "claims" _).insert "roles" _)[k]? = _
    rw [HashMap.get_insert, HashMap.get_insert, Std.ExtTreeMap.getElem?_empty]
  have hclaims : (passedMessage hollow.message)["claims"]? = none := by
    rw [get_passedMessage, hget]
    rfl
  have hroles : (passedMessage hollow.message)["roles"]? = some (.object []) := by
    have hlen : Mlua.rawLen [] = 0 := rawLen_range' 0
    have hempty : luaToJson (jsonToLua (.array [])) = .object [] := by
      show tableToJson [] = _
      rw [tableToJson]
      simp only [List.map_nil, hlen]
      rfl
    rw [get_passedMessage, hget, if_pos rfl, Option.bind_some, if_neg (by simp), hempty]
  refine ⟨hscript, { context := { hollow with message := passedMessage hollow.message }
                     namedOutputs := ∅ }, ?_, hclaims, hroles, fun heq => ?_⟩
  · rw [execute, LuaRuntime.execute_identity hscript rfl]
  · have hsame : passedMessage hollow.message = hollow.message := congrArg Context.message heq
    rw [hsame, hget] at hclaims
    cases hclaims

end ScriptPlugin

end Featherbit
