/-
  FORM BODIES (`decode_urlencoded` of `plugins/native/request_validation.rs`).

  1. **Into an object** (`lookup_foldl`) — the pairs are added one by one; under each key is what
     `grouped` says of its values so far, and a value alone turns into an array with the second one.
  2. **Encodings** (`FormText`, `FormBody`) — each byte as it stands where it may, as an escape in
     either case, or as `+` for a space; empty pairs anywhere.
  3. **There and back** (`decode_encoded`) — every encoding of a list of entries is decoded to the
     object of these entries.
-/
import Featherbit.Lib.Multimap
import Featherbit.Rust.Utf8Prefix
import Featherbit.Vars.FormDecode

namespace Featherbit

namespace RequestValidationPlugin

open Vars (hexVal urldecodeBytes)

/-! ## The decoder -/

def urldecode (s : String) : String := Vars.urldecode s

/-- The key and the value of a pair; a key alone is a flag. -/
def decodePair (pair : String) : String × Json :=
  match splitOnceChar '=' pair with
  | some (k, v) => (urldecode k, .string (urldecode v))
  | none => (urldecode pair, .bool true)

/-- One more value under a key. -/
def addValue (map : List (String × Json)) (pair : String × Json) : List (String × Json) :=
  let (key, value) := pair
  match map.lookup key with
  | none => Json.insertField key value map
  | some (.array arr) => Json.insertField key (.array (arr ++ [value])) map
  | some first => Json.insertField key (.array [first, value]) map

/-- `decode_urlencoded`. -/
def decodeUrlencoded (body : String) : Json :=
  .object <| (splitChar '&' body).foldl
    (fun map pair => if pair = "" then map else addValue map (decodePair pair)) []

/-! ## Into an object -/

/-- The values of a key: none, one as it stands, more as an array. -/
def grouped : List Json → Option Json
  | [] => none
  | [value] => some value
  | values => some (.array values)

/-- What a pair can have for a value. -/
def Scalar (value : Json) : Prop := ∀ items, value ≠ .array items

/-- One more value. -/
theorem lookup_addValue {map : List (String × Json)} {values : List Json} {key : String} {value : Json}
    (hvalues : ∀ v ∈ values, Scalar v) (h : map.lookup key = grouped values) (k : String) :
    (addValue map (key, value)).lookup k =
      if k = key then grouped (values ++ [value]) else map.lookup k := by
  unfold addValue
  dsimp only
  rw [h]
  match values, hvalues with
  | [], _ => exact Json.lookup_insertField _ _ _ _
  | [first], hvalues =>
    have hscalar := hvalues first List.mem_cons_self
    unfold grouped
    dsimp only
    split
    · rename_i hnone
      cases hnone
    · rename_i arr harray
      exact absurd (Option.some.inj harray) (hscalar arr)
    · rename_i hsome
      obtain rfl := Option.some.inj hsome
      exact Json.lookup_insertField _ _ _ _
  | first :: second :: more, _ => exact Json.lookup_insertField _ _ _ _

theorem addValue_pairwise {map : List (String × Json)} (h : map.Pairwise (·.1 < ·.1))
    (pair : String × Json) : (addValue map pair).Pairwise (·.1 < ·.1) := by
  unfold addValue
  dsimp only
  split
  · exact Json.insertField_pairwise h _ _
  · exact Json.insertField_pairwise h _ _
  · exact Json.insertField_pairwise h _ _

/-- **Into an object.**  The pairs added so far are under their keys, and the others come in turn. -/
theorem lookup_foldl {pairs done : List (String × Json)} {map : List (String × Json)}
    (hscalar : ∀ pair ∈ done ++ pairs, Scalar pair.2) (hsorted : map.Pairwise (·.1 < ·.1))
    (h : ∀ key, map.lookup key = grouped (Multimap.valuesOf key done)) :
    (pairs.foldl addValue map).Pairwise (·.1 < ·.1) ∧
      ∀ key, (pairs.foldl addValue map).lookup key = grouped (Multimap.valuesOf key (done ++ pairs)) := by
  induction pairs generalizing done map with
  | nil =>
    rw [List.append_nil]
    exact ⟨hsorted, h⟩
  | cons pair pairs ih =>
    obtain ⟨key, value⟩ := pair
    have hdone : done ++ (key, value) :: pairs = (done ++ [(key, value)]) ++ pairs := by
      rw [List.append_assoc, List.singleton_append]
    rw [hdone] at hscalar ⊢
    refine ih hscalar (addValue_pairwise hsorted _) ?_
    intro k
    have hvalues : ∀ v ∈ Multimap.valuesOf key done, Scalar v := by
      intro v hv
      obtain ⟨pair, hpair, rfl⟩ := List.mem_map.mp hv
      have hmem := (List.mem_filter.mp hpair).1
      exact hscalar pair (List.mem_append_left _ (List.mem_append_left _ hmem))
    rw [lookup_addValue hvalues (h key), Multimap.valuesOf_append, Multimap.valuesOf_cons,
      Multimap.valuesOf_nil]
    by_cases hk : k = key
    · rw [if_pos hk, hk, if_pos rfl]
    · rw [if_neg hk, if_neg (Ne.symm hk), List.append_nil, h]

/-! ## Encodings -/

/-- A name with a value, or a name alone; a name alone is not empty, or nothing would stand for it. -/
inductive Entry where
  | pair (key value : String)
  | flag (key : String) (hkey : key ≠ "")

/-- What an entry says. -/
def Entry.decoded : Entry → String × Json
  | .pair key value => (key, .string value)
  | .flag key _ => (key, .bool true)

/-- The bytes that may stand as they are: in a key, and in a value. -/
def keyByte (b : UInt8) : Bool := b ≠ 0x25 && b ≠ 0x26 && b ≠ 0x2B && b ≠ 0x3D

def valueByte (b : UInt8) : Bool := b ≠ 0x25 && b ≠ 0x26 && b ≠ 0x2B

/-- A text of bytes, each as it stands, as `+`, or as an escape. -/
inductive FormEncodes (plain : UInt8 → Bool) : Bytes → Bytes → Prop where
  | nil : FormEncodes plain [] []
  | kept {b : UInt8} {bytes text : Bytes} (hb : plain b = true) (rest : FormEncodes plain bytes text) :
      FormEncodes plain (b :: bytes) (b :: text)
  | space {bytes text : Bytes} (rest : FormEncodes plain bytes text) :
      FormEncodes plain (0x20 :: bytes) (0x2B :: text)
  | escaped {hi lo h l : UInt8} {bytes text : Bytes} (hhi : hexVal hi = some h) (hlo : hexVal lo = some l)
      (rest : FormEncodes plain bytes text) :
      FormEncodes plain ((h * 16 + l) :: bytes) (0x25 :: hi :: lo :: text)

def FormText (plain : UInt8 → Bool) (s text : String) : Prop := FormEncodes plain (asBytes s) (asBytes text)

inductive EntryText : Entry → String → Prop where
  | pair {key value k v : String} (hkey : FormText keyByte key k) (hvalue : FormText valueByte value v) :
      EntryText (.pair key value) (k ++ "=" ++ v)
  | flag {key k : String} (hne : key ≠ "") (hkey : FormText keyByte key k) : EntryText (.flag key hne) k

/-- The pairs of a body: the entries in order, and empty pairs. -/
inductive FormPieces : List Entry → List String → Prop where
  | nil : FormPieces [] []
  | empty {entries : List Entry} {pieces : List String} (rest : FormPieces entries pieces) :
      FormPieces entries ("" :: pieces)
  | entry {entry : Entry} {text : String} {entries : List Entry} {pieces : List String}
      (htext : EntryText entry text) (rest : FormPieces entries pieces) :
      FormPieces (entry :: entries) (text :: pieces)

/-- A body that says these entries. -/
def FormBody (entries : List Entry) (body : String) : Prop :=
  ∃ pieces, FormPieces entries pieces ∧ body = "&".intercalate pieces

section Encoded

variable {plain : UInt8 → Bool} {bytes text : Bytes}

theorem FormEncodes.decode (hplain : ∀ b, plain b = true → b ≠ 0x2B ∧ b ≠ 0x25)
    (h : FormEncodes plain bytes text) : urldecodeBytes text = bytes := by
  induction h with
  | nil => rw [urldecodeBytes]
  | kept hb rest ih =>
    obtain ⟨hplus, hpercent⟩ := hplain _ hb
    rw [Vars.urldecodeBytes_cons hplus fun h => absurd h hpercent, ih]
  | space rest ih => rw [Vars.urldecodeBytes_plus, ih]
  | escaped hhi hlo rest ih => rw [Vars.urldecodeBytes_hex hhi hlo, ih]

theorem FormEncodes.not_mem {b : UInt8} (hplain : plain b = false) (hplus : b ≠ 0x2B) (hpercent : b ≠ 0x25)
    (hhex : hexVal b = none) (h : FormEncodes plain bytes text) : b ∉ text := by
  induction h with
  | nil => exact List.not_mem_nil
  | @kept c bytes text hc rest ih =>
    have hbc : b ≠ c := by
      rintro rfl
      rw [hplain] at hc
      cases hc
    exact List.not_mem_cons_of_ne_of_not_mem hbc ih
  | space rest ih => exact List.not_mem_cons_of_ne_of_not_mem hplus ih
  | @escaped hi lo h l bytes text hhi hlo rest ih =>
    have hbhi : b ≠ hi := by
      rintro rfl
      rw [hhex] at hhi
      cases hhi
    have hblo : b ≠ lo := by
      rintro rfl
      rw [hhex] at hlo
      cases hlo
    exact List.not_mem_cons_of_ne_of_not_mem hpercent (List.not_mem_cons_of_ne_of_not_mem hbhi
      (List.not_mem_cons_of_ne_of_not_mem hblo ih))

theorem FormEncodes.eq_nil (h : FormEncodes plain bytes []) : bytes = [] := by
  cases h
  rfl

end Encoded

theorem keyByte_plain {b : UInt8} (h : keyByte b = true) : b ≠ 0x2B ∧ b ≠ 0x25 := by
  simp only [keyByte, Bool.and_eq_true, decide_eq_true_eq] at h
  exact ⟨h.1.2, h.1.1.1⟩

theorem valueByte_plain {b : UInt8} (h : valueByte b = true) : b ≠ 0x2B ∧ b ≠ 0x25 := by
  simp only [valueByte, Bool.and_eq_true, decide_eq_true_eq] at h
  exact ⟨h.2, h.1.1⟩

/-- A key is read back, and its text has neither separator. -/
theorem key_read {key k : String} (h : FormText keyByte key k) :
    urldecode k = key ∧ '&' ∉ k.toList ∧ '=' ∉ k.toList := by
  refine ⟨Vars.urldecode_of_bytes (h.decode fun b => keyByte_plain), fun hmem => ?_, fun hmem => ?_⟩
  · have hbyte := (mem_asBytes_iff (show '&'.toNat < 128 by decide) k).mpr hmem
    exact h.not_mem (b := 0x26) (by decide) (by decide) (by decide) (by decide) hbyte
  · have hbyte := (mem_asBytes_iff (show '='.toNat < 128 by decide) k).mpr hmem
    exact h.not_mem (b := 0x3D) (by decide) (by decide) (by decide) (by decide) hbyte

theorem value_read {value v : String} (h : FormText valueByte value v) :
    urldecode v = value ∧ '&' ∉ v.toList := by
  refine ⟨Vars.urldecode_of_bytes (h.decode fun b => valueByte_plain), fun hmem => ?_⟩
  have hbyte := (mem_asBytes_iff (show '&'.toNat < 128 by decide) v).mpr hmem
  exact h.not_mem (b := 0x26) (by decide) (by decide) (by decide) (by decide) hbyte

/-- **There and back**, for one entry. -/
theorem entry_read {entry : Entry} {text : String} (h : EntryText entry text) :
    text ≠ "" ∧ '&' ∉ text.toList ∧ decodePair text = entry.decoded := by
  cases h with
  | @pair key value k v hkey hvalue =>
    obtain ⟨hk, hkAmp, hkEq⟩ := key_read hkey
    obtain ⟨hv, hvAmp⟩ := value_read hvalue
    have hchars : (k ++ "=" ++ v).toList = k.toList ++ '=' :: v.toList := by simp
    refine ⟨fun hempty => ?_, fun hmem => ?_, ?_⟩
    · rw [hempty] at hchars
      exact absurd hchars.symm (List.append_ne_nil_of_right_ne_nil _ (List.cons_ne_nil _ _))
    · rw [hchars, List.mem_append, List.mem_cons] at hmem
      rcases hmem with hmem | heq | hmem
      · exact hkAmp hmem
      · exact absurd heq (by decide)
      · exact hvAmp hmem
    · have hsplit : splitOnceChar '=' (k ++ "=" ++ v) = some (k, v) := splitOnceChar_append hkEq v
      unfold decodePair
      rw [hsplit]
      dsimp only
      rw [hk, hv]
      rfl
  | @flag key k hne hkey =>
    obtain ⟨hk, hkAmp, hkEq⟩ := key_read hkey
    refine ⟨fun hempty => ?_, hkAmp, ?_⟩
    · -- an empty piece would be skipped, but no key without a value is empty
      have hbytes : FormEncodes keyByte (asBytes key) [] := by
        rw [hempty] at hkey
        exact hkey
      exact hne (asBytes_inj.mp hbytes.eq_nil)
    · unfold decodePair
      rw [splitOnceChar_eq_none hkEq]
      dsimp only
      rw [hk]
      rfl

theorem decoded_scalar (entry : Entry) : Scalar entry.decoded.2 := by
  intro items h
  cases entry with
  | pair key value => cases h
  | flag key hkey => cases h

/-- The pieces of a body are added as its entries, one after the other. -/
theorem foldl_pieces {entries : List Entry} {pieces : List String} (h : FormPieces entries pieces)
    (map : List (String × Json)) :
    pieces.foldl (fun map pair => if pair = "" then map else addValue map (decodePair pair)) map =
      (entries.map Entry.decoded).foldl addValue map := by
  induction h generalizing map with
  | nil => rfl
  | empty rest ih =>
    rw [List.foldl_cons, if_pos rfl]
    exact ih map
  | entry htext rest ih =>
    obtain ⟨hne, -, hdecode⟩ := entry_read htext
    rw [List.foldl_cons, if_neg hne, hdecode, List.map_cons, List.foldl_cons]
    exact ih _

theorem pieces_plain {entries : List Entry} {pieces : List String} (h : FormPieces entries pieces) :
    ∀ piece ∈ pieces, '&' ∉ piece.toList := by
  induction h with
  | nil => exact fun piece hpiece => absurd hpiece List.not_mem_nil
  | empty rest ih => exact List.forall_mem_cons.mpr ⟨List.not_mem_nil, ih⟩
  | entry htext rest ih => exact List.forall_mem_cons.mpr ⟨(entry_read htext).2.1, ih⟩

/-- What a body is decoded to depends on its entries alone. -/
theorem decode_eq {entries : List Entry} {body : String} (h : FormBody entries body) :
    decodeUrlencoded body = .object ((entries.map Entry.decoded).foldl addValue []) := by
  obtain ⟨pieces, hpieces, rfl⟩ := h
  unfold decodeUrlencoded
  by_cases hne : pieces = []
  · -- no piece is read as an empty one
    subst hne
    cases hpieces
    rfl
  · rw [show "&" = String.singleton '&' from rfl, splitChar_intercalate hne (pieces_plain hpieces),
      foldl_pieces hpieces]

/-- **There and back.**  An encoding of entries is decoded to an object, with the keys of the entries, each with
    its value, its values in order, or `true`. -/
theorem decode_encoded {entries : List Entry} {body : String} (h : FormBody entries body) :
    ∃ fields, decodeUrlencoded body = .object fields ∧ fields.Pairwise (·.1 < ·.1) ∧
      ∀ key, fields.lookup key = grouped (Multimap.valuesOf key (entries.map Entry.decoded)) := by
  have hscalar : ∀ pair ∈ entries.map Entry.decoded, Scalar pair.2 := by
    intro pair hpair
    obtain ⟨entry, -, rfl⟩ := List.mem_map.mp hpair
    exact decoded_scalar entry
  obtain ⟨hsorted, hlookup⟩ :=
    @lookup_foldl (entries.map Entry.decoded) [] [] hscalar List.Pairwise.nil fun _ => rfl
  exact ⟨_, decode_eq h, hsorted, hlookup⟩

/-- One key in two spellings, a flag, and empty pairs. -/
theorem decode_encoded_mixed :
    ∃ fields, decodeUrlencoded "&a=1&&x&%61=%c3%A9+2&" = .object fields ∧ fields.Pairwise (·.1 < ·.1) ∧
      ∀ key, fields.lookup key = grouped (Multimap.valuesOf key
        [("a", .string "1"), ("x", .bool true), ("a", .string "é 2")]) := by
  have ha : FormText keyByte "a" "a" := .kept rfl .nil
  have ha' : FormText keyByte "a" "%61" :=
    .escaped (show hexVal 0x36 = some 6 from rfl) (show hexVal 0x31 = some 1 from rfl) .nil
  have hx : FormText keyByte "x" "x" := .kept rfl .nil
  have hone : FormText valueByte "1" "1" := .kept rfl .nil
  have htwo : FormText valueByte "é 2" "%c3%A9+2" :=
    .escaped (show hexVal 0x63 = some 12 from rfl) (show hexVal 0x33 = some 3 from rfl)
      (.escaped (show hexVal 0x41 = some 10 from rfl) (show hexVal 0x39 = some 9 from rfl)
        (.space (.kept rfl .nil)))
  have hbody : FormBody [.pair "a" "1", .flag "x" (by decide), .pair "a" "é 2"]
      "&a=1&&x&%61=%c3%A9+2&" := by
    refine ⟨["", "a=1", "", "x", "%61=%c3%A9+2", ""], ?_, rfl⟩
    exact .empty (.entry (.pair ha hone) (.empty (.entry (.flag _ hx) (.entry (.pair ha' htwo) (.empty .nil)))))
  exact decode_encoded hbody

example : decodeUrlencoded "a=1&&x&a=2" =
    .object [("a", .array [.string "1", .string "2"]), ("x", .bool true)] := by decide +kernel

end RequestValidationPlugin

end Featherbit
