/-
  THE `mlua` CRATE over Luau, as far as scripts are run with it.

  A table is the list of its entries.  What the gateway's own code cannot know is left open, with
  the documented laws only: where a table with holes ends (`rawLen` is a border), in which order
  its entries come (`next`), which doubles come back as integers, what a script does.
-/
import Featherbit.Json

namespace Featherbit

/-- A key of a table. -/
inductive LuaKey where
  /-- the numbers 1, 2, 3, … -/
  | index (i : Nat)
  | number (x : F64)
  | string (s : Bytes)
  /-- a boolean, or something with an identity -/
  | other (id : Nat)
deriving DecidableEq

/-- `LuaValue`; a number is a double. -/
inductive LuaValue where
  | nil
  | boolean (b : Bool)
  | number (x : F64)
  | string (s : Bytes)
  | table (entries : List (LuaKey × LuaValue))
  /-- functions, threads, buffers and the like -/
  | other (typeName : String)

def LuaValue.isNil : LuaValue → Bool
  | nil => true
  | boolean _ | number _ | string _ | table _ | other _ => false

abbrev LuaTable := List (LuaKey × LuaValue)

/-- A border of a table: the index of an entry without a next one. -/
structure IsBorder (keys : List LuaKey) (n : Nat) : Prop where
  last : n = 0 ∨ LuaKey.index n ∈ keys
  next : LuaKey.index (n + 1) ∉ keys

/-- A virtual machine after a script was loaded into it. -/
structure LuaGlobals where
  /-- `globals().get::<LuaFunction>("execute")`: what the function does with its argument -/
  execute : Except String (LuaValue → Except String LuaValue)

class Mlua where
  /-- `lua.load(source).exec()` in a fresh machine, `require` reading the modules directory -/
  exec : String → Option String → Except String LuaGlobals
  /-- a value that does not fit into memory -/
  allocate : LuaValue → Except String Unit
  /-- the double of a C `int` -/
  ofInt : Int32 → F64
  /-- the doubles that come back as `LuaValue::Integer` -/
  asInt : F64 → Option Int32
  asInt_ofInt : ∀ i, asInt (ofInt i) = some i
  /-- `u16::from_lua` -/
  toU16 : LuaValue → Except String UInt16
  toU16_ofInt : ∀ n : UInt16, toU16 (.number (ofInt (Int32.ofNat n.toNat))) = .ok n
  /-- a number where a string is asked for -/
  numberText : F64 → String
  indexText : Nat → String
  /-- `raw_len` -/
  rawLen : List LuaKey → Nat
  rawLen_border : ∀ keys, IsBorder keys (rawLen keys)
  /-- the order in which `pairs` goes over a table -/
  next : {α : Type} → List (LuaKey × α) → List (LuaKey × α)
  next_perm : ∀ {α : Type} (entries : List (LuaKey × α)), (next entries).Perm entries
  /-- `error converting Lua … to …` -/
  conversionError : LuaValue → String → String

namespace LuaTable

/-- `t.set(key, value)`; setting `nil` clears the entry. -/
def set (key : LuaKey) (value : LuaValue) (t : LuaTable) : LuaTable :=
  let rest := t.filter fun entry => entry.1 ≠ key
  match value with
  | .nil => rest
  | _ => rest ++ [(key, value)]

/-- `t.get(key)`. -/
def get (key : LuaKey) (t : LuaTable) : LuaValue := (t.lookup key).getD .nil

/-- The values at `i`, `i + 1`, … up to the first `nil`, at most so many. -/
def sequenceFrom : Nat → Nat → LuaTable → List LuaValue
  | 0, _, _ => []
  | fuel + 1, i, t =>
    match t.lookup (.index i) with
    | none => []
    | some v => v :: sequenceFrom fuel (i + 1) t

/-- `t.sequence_values()`. -/
def sequenceValues (t : LuaTable) : List LuaValue := sequenceFrom t.length 1 t

/-- The pairs, set one after another. -/
def setAll (l : List (LuaKey × LuaValue)) (t : LuaTable) : LuaTable :=
  l.foldl (fun t e => set e.1 e.2 t) t

/-- Pairs with keys of their own become the entries, in that order, but for the cleared ones. -/
theorem setAll_eq {l : List (LuaKey × LuaValue)} {t : LuaTable} (hkeys : (l.map Prod.fst).Nodup)
    (hnew : ∀ e ∈ l, e.1 ∉ t.map Prod.fst) : setAll l t = t ++ l.filter fun e => !e.2.isNil := by
  induction l generalizing t with
  | nil => exact (List.append_nil t).symm
  | cons e l ih =>
    obtain ⟨key, value⟩ := e
    obtain ⟨hkey, hkeys'⟩ := List.nodup_cons.mp hkeys
    have hrest : t.filter (fun entry => entry.1 ≠ key) = t := by
      refine List.filter_eq_self.mpr fun entry hentry => decide_eq_true fun heq => ?_
      exact hnew (key, value) List.mem_cons_self (List.mem_map.mpr ⟨entry, hentry, heq⟩)
    have hset : set key value t = t ++ [(key, value)].filter fun e => !e.2.isNil := by
      cases value with
      | nil => exact hrest.trans (List.append_nil t).symm
      | boolean _ | number _ | string _ | table _ | other _ => exact congrArg (· ++ [_]) hrest
    have hnew' : ∀ e ∈ l, e.1 ∉ (set key value t).map Prod.fst := by
      intro e he hmem
      rw [hset, List.map_append, List.mem_append] at hmem
      rcases hmem with hmem | hmem
      · exact hnew e (List.mem_cons_of_mem _ he) hmem
      · obtain ⟨entry, hentry, heq⟩ := List.mem_map.mp hmem
        rw [List.mem_singleton.mp (List.mem_of_mem_filter hentry)] at heq
        exact hkey (List.mem_map.mpr ⟨e, he, heq.symm⟩)
    show setAll l (set key value t) = _
    rw [ih hkeys' hnew', hset, List.append_assoc, ← List.filter_append, List.singleton_append]

/-- Pairs without `nil`, set in an empty table. -/
theorem setAll_nil {l : List (LuaKey × LuaValue)} (hkeys : (l.map Prod.fst).Nodup)
    (hvalues : ∀ e ∈ l, e.2.isNil = false) : setAll l [] = l := by
  rw [setAll_eq hkeys (fun _ _ => List.not_mem_nil), List.nil_append]
  refine List.filter_eq_self.mpr fun e he => ?_
  rw [hvalues e he]
  rfl

/-- The entries `i`, `i + 1`, … of a list of values. -/
def indexed (i : Nat) (values : List LuaValue) : LuaTable :=
  (values.zipIdx i).map fun v => (.index v.2, v.1)

theorem indexed_cons (i : Nat) (v : LuaValue) (values : List LuaValue) :
    indexed i (v :: values) = (.index i, v) :: indexed (i + 1) values := rfl

theorem keys_indexed (i : Nat) (values : List LuaValue) :
    (indexed i values).map Prod.fst = (List.range' i values.length).map LuaKey.index := by
  induction values generalizing i with
  | nil => rfl
  | cons v values ih => rw [indexed_cons, List.map_cons, ih, List.length_cons, List.range'_succ, List.map_cons]

theorem nodup_keys_indexed (i : Nat) (values : List LuaValue) :
    ((indexed i values).map Prod.fst).Nodup := by
  rw [keys_indexed]
  refine List.Nodup.map (fun i j h => ?_) List.nodup_range'
  exact LuaKey.index.inj h

theorem lookup_indexed (i k : Nat) (values : List LuaValue) :
    (indexed i values).lookup (.index (i + k)) = values[k]? := by
  induction values generalizing i k with
  | nil => rfl
  | cons v values ih =>
    rw [indexed_cons, List.lookup_cons]
    cases k with
    | zero => simp
    | succ k =>
      have hne : (LuaKey.index (i + (k + 1)) == LuaKey.index i) = false := by
        rw [beq_eq_false_iff_ne]
        exact fun h => absurd (LuaKey.index.inj h) (by omega)
      have hshift : i + (k + 1) = i + 1 + k := by omega
      rw [hne, hshift, ih, List.getElem?_cons_succ]

/-- A sequence is read back in order. -/
theorem sequenceFrom_eq {values : List LuaValue} {i fuel : Nat} {t : LuaTable}
    (hlookup : ∀ k, t.lookup (.index (i + k)) = values[k]?) (hfuel : values.length ≤ fuel) :
    sequenceFrom fuel i t = values := by
  induction values generalizing i fuel with
  | nil =>
    cases fuel with
    | zero => rfl
    | succ fuel =>
      have hnone : t.lookup (.index i) = none := hlookup 0
      rw [sequenceFrom, hnone]
  | cons v values ih =>
    cases fuel with
    | zero => cases hfuel
    | succ fuel =>
      have hsome : t.lookup (.index i) = some v := hlookup 0
      have hrest : ∀ k, t.lookup (.index (i + 1 + k)) = values[k]? := by
        intro k
        have hk := hlookup (k + 1)
        rwa [List.getElem?_cons_succ, show i + (k + 1) = i + 1 + k by omega] at hk
      rw [sequenceFrom, hsome]
      show v :: sequenceFrom fuel (i + 1) t = _
      rw [ih hrest (Nat.le_of_succ_le_succ hfuel)]

theorem sequenceValues_indexed (values : List LuaValue) :
    sequenceValues (indexed 1 values) = values := by
  refine sequenceFrom_eq (fun k => lookup_indexed 1 k values) ?_
  rw [indexed, List.length_map, List.length_zipIdx]

end LuaTable

section FromLua

variable [Mlua]

open Mlua

/-- `mlua::String::from_lua`: the bytes of a string, or a number's text. -/
def stringFromLua : LuaValue → Except String Bytes
  | .string s => .ok s
  | .number x => .ok (asBytes (numberText x))
  | v => .error (conversionError v "string")

/-- `String::from_lua`. -/
def textFromLua (v : LuaValue) : Except String String :=
  match stringFromLua v with
  | .error e => .error e
  | .ok bytes =>
    match fromUtf8 bytes with
    | some s => .ok s
    | none => .error (conversionError v "String")

/-- `LuaTable::from_lua`. -/
def tableFromLua : LuaValue → Except String LuaTable
  | .table entries => .ok entries
  | v => .error (conversionError v "table")

/-- A key where a `String` is asked for. -/
def keyFromLua : LuaKey → Except String String
  | .index i => .ok (indexText i)
  | .number x => textFromLua (.number x)
  | .string s => textFromLua (.string s)
  | .other _ => .error (conversionError (.other "key") "String")

end FromLua

/-! ## A machine that computes -/

/-- The double of an integer of 32 bits: sign, exponent, and the digits below the leading one. -/
def F64.ofInt32 (i : Int32) : F64 :=
  let m := i.toInt.natAbs
  if m = 0 then ⟨0⟩
  else
    let sign := if i.toInt < 0 then 2 ^ 63 else 0
    ⟨UInt64.ofNat (sign + (1023 + m.log2) * 2 ^ 52 + (m * 2 ^ (52 - m.log2) - 2 ^ 52))⟩

/-- The integer of 32 bits a double stands for, or lies next to. -/
def F64.toInt32? (x : F64) : Option Int32 :=
  let exponent := x.bits.toNat / 2 ^ 52 % 2 ^ 11
  if exponent < 1023 then if exponent < 1023 - 52 then some 0 else none
  else if 1023 + 31 < exponent then none
  else
    let unit := 2 ^ (52 - (exponent - 1023))
    let digits := 2 ^ 52 + x.bits.toNat % 2 ^ 52
    let v : Int := if 2 ^ 63 ≤ x.bits.toNat then -(digits / unit : Nat) else (digits / unit : Nat)
    if digits % unit = 0 ∧ -2 ^ 31 ≤ v ∧ v < 2 ^ 31 then some (Int32.ofInt v) else none

theorem F64.toInt32?_ofInt32 (i : Int32) : (F64.ofInt32 i).toInt32? = some i := by
  have hlow : -2 ^ 31 ≤ i.toInt := Int32.le_toInt i
  have hhigh : i.toInt < 2 ^ 31 := Int32.toInt_lt i
  by_cases hm : i.toInt.natAbs = 0
  · have hi : i = 0 := by
      rw [← Int32.toInt_inj]
      exact Int.natAbs_eq_zero.mp hm
    rw [hi]
    decide
  · have hlog : i.toInt.natAbs.log2 ≤ 31 := by
      have hlt : i.toInt.natAbs.log2 < 32 := (Nat.log2_lt hm).mpr (by omega)
      omega
    have hge : 2 ^ i.toInt.natAbs.log2 ≤ i.toInt.natAbs := Nat.log2_self_le hm
    have hlt : i.toInt.natAbs < 2 ^ (i.toInt.natAbs.log2 + 1) := Nat.lt_log2_self
    generalize hk : i.toInt.natAbs.log2 = k at *
    -- the leading digit stands at place 52
    have hpow : 2 ^ k * 2 ^ (52 - k) = 2 ^ 52 := by
      rw [← Nat.pow_add, Nat.add_sub_cancel' (by omega)]
    have hN : 2 ^ 52 ≤ i.toInt.natAbs * 2 ^ (52 - k) := by
      rw [← hpow]
      exact Nat.mul_le_mul_right _ hge
    have hN' : i.toInt.natAbs * 2 ^ (52 - k) < 2 ^ 53 := by
      have h := Nat.mul_lt_mul_of_pos_right hlt (Nat.two_pow_pos (52 - k))
      rw [Nat.pow_succ, Nat.mul_right_comm, hpow] at h
      omega
    have hdiv : i.toInt.natAbs * 2 ^ (52 - k) / 2 ^ (52 - k) = i.toInt.natAbs :=
      Nat.mul_div_cancel _ (Nat.two_pow_pos _)
    have hmod : i.toInt.natAbs * 2 ^ (52 - k) % 2 ^ (52 - k) = 0 := Nat.mul_mod_left _ _
    have hbits : (F64.ofInt32 i).bits.toNat = (if i.toInt < 0 then 2 ^ 63 else 0) + (1023 + k) * 2 ^ 52 +
        (i.toInt.natAbs * 2 ^ (52 - k) - 2 ^ 52) := by
      rw [F64.ofInt32]
      simp only [if_neg hm, hk, UInt64.toNat_ofNat']
      apply Nat.mod_eq_of_lt
      split <;> omega
    generalize i.toInt.natAbs * 2 ^ (52 - k) = N at *
    have hexponent : (F64.ofInt32 i).bits.toNat / 2 ^ 52 % 2 ^ 11 = 1023 + k := by
      rw [hbits]
      split <;> omega
    have hfrac : 2 ^ 52 + (F64.ofInt32 i).bits.toNat % 2 ^ 52 = N := by
      rw [hbits]
      split <;> omega
    have hsign : 2 ^ 63 ≤ (F64.ofInt32 i).bits.toNat ↔ i.toInt < 0 := by
      rw [hbits]
      split <;> omega
    rw [F64.toInt32?]
    simp only [hexponent, hfrac, hsign, Nat.add_sub_cancel_left, hdiv, hmod]
    rw [if_neg (by omega), if_neg (by omega)]
    have hv : (if i.toInt < 0 then -(i.toInt.natAbs : Int) else i.toInt.natAbs) = i.toInt := by
      split <;> omega
    rw [hv, if_pos ⟨trivial, hlow, hhigh⟩, Int32.ofInt_toInt]

/-- A table has a border. -/
theorem exists_border (keys : List LuaKey) : ∃ n, LuaKey.index (n + 1) ∉ keys := by
  by_contra hall
  push Not at hall
  have hinj : Function.Injective fun n => LuaKey.index (n + 1) :=
    fun _ _ h => Nat.succ.inj (LuaKey.index.inj h)
  exact Set.infinite_range_of_injective hinj
    (keys.finite_toSet.subset (Set.range_subset_iff.mpr hall))

theorem isBorder_find (keys : List LuaKey) : IsBorder keys (Nat.find (exists_border keys)) where
  last := by
    cases hn : Nat.find (exists_border keys) with
    | zero => exact .inl rfl
    | succ n =>
      have hlt : n < Nat.find (exists_border keys) := by
        rw [hn]
        exact Nat.lt_succ_self n
      have hmem := Nat.find_min (exists_border keys) hlt
      exact .inr (not_not.mp hmem)
  next := Nat.find_spec (exists_border keys)

/-- A machine in which scripts do what `exec` says; tables end at their first border and come in
    the order they were filled. -/
abbrev luauOf (exec : String → Option String → Except String LuaGlobals) : Mlua where
  exec := exec
  allocate _ := .ok ()
  ofInt := F64.ofInt32
  asInt := F64.toInt32?
  asInt_ofInt := F64.toInt32?_ofInt32
  toU16 v :=
    match v with
    | .number x =>
      match x.toInt32? with
      | some i =>
        if 0 ≤ i.toInt ∧ i.toInt < 2 ^ 16 then .ok (UInt16.ofNat i.toInt.toNat)
        else .error "out of range"
      | none => .error "out of range"
    | _ => .error "error converting to u16"
  toU16_ofInt n := by
    have hn := n.toNat_lt
    have hint : (Int32.ofNat n.toNat).toInt = n.toNat := Int32.toInt_ofNat_of_lt (by omega)
    simp only [F64.toInt32?_ofInt32, hint]
    rw [if_pos (by omega), Int.toNat_natCast, UInt16.ofNat_toNat]
  numberText _ := "0"
  indexText := showNat
  rawLen keys := Nat.find (exists_border keys)
  rawLen_border := isBorder_find
  next entries := entries
  next_perm _ := List.Perm.refl _
  conversionError _ wanted := "error converting Lua value to " ++ wanted

end Featherbit
