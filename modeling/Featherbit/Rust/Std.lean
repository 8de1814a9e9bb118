/-
  THE PARTS OF THE RUST STANDARD LIBRARY THE GATEWAY LEANS ON.

  * `HashMap`/`HashSet` are `Std`'s extensional maps and sets: two maps are equal exactly when
    they have the same entries, which is what the gateway can observe of them.  Their iteration
    order is the key order; Rust leaves it open, and where the order could matter the model takes
    the order as data instead (`ConfigStore.Etcd`).
  * `str` functions work on the characters of a `String` (Unicode scalar values, as in Rust);
    `Bytes` are the octets of a body or of an etcd key, `asBytes`/`fromUtf8` go between the two.
  * `to_lowercase`/`to_uppercase` need the Unicode tables.  They are the class `CaseMapping`,
    known only through their documented behaviour on ASCII text; every result holds for any
    table.
-/
import Mathlib
import Featherbit.Lib.Split

namespace Featherbit

/-! ## Collections -/

/-- `HashMap<String, α>`. -/
abbrev HashMap (α : Type) := Std.ExtTreeMap String α compare

instance (α : Type) [DecidableEq α] : DecidableEq (HashMap α) :=
  inferInstanceAs (DecidableEq (Std.ExtTreeMap String α compare))

namespace HashMap

variable {α : Type}

/-- What a map has under a key after an insertion. -/
theorem get_insert (m : HashMap α) (key : String) (v : α) (k : String) :
    (m.insert key v)[k]? = if k = key then some v else m[k]? := by
  rw [Std.ExtTreeMap.getElem?_insert]
  by_cases hk : k = key
  · rw [if_pos (Std.compare_eq_iff_eq.mpr hk.symm), if_pos hk]
  · rw [if_neg (fun h => hk (Std.compare_eq_iff_eq.mp h).symm), if_neg hk]

/-- What it has after a removal. -/
theorem get_erase (m : HashMap α) (key k : String) :
    (m.erase key)[k]? = if k = key then none else m[k]? := by
  rw [Std.ExtTreeMap.getElem?_erase]
  by_cases hk : k = key
  · rw [if_pos (Std.compare_eq_iff_eq.mpr hk.symm), if_pos hk]
  · rw [if_neg (fun h => hk (Std.compare_eq_iff_eq.mp h).symm), if_neg hk]

/-- The same entries written over two maps: a key reads the same in both exactly when it was
    written, or read the same before. -/
theorem get_insertMany_eq_iff {m m' : HashMap α} {l : List (String × α)} {k : String} :
    (m.insertMany l)[k]? = (m'.insertMany l)[k]? ↔ k ∈ l.map Prod.fst ∨ m[k]? = m'[k]? := by
  induction l generalizing m m' with
  | nil => simp
  | cons e l ih =>
    rw [Std.ExtTreeMap.insertMany_cons, Std.ExtTreeMap.insertMany_cons, ih, get_insert, get_insert]
    by_cases hk : k = e.1
    · simp [hk]
    · simp [hk]

/-- A map is rebuilt from its entries. -/
theorem ofList_toList (m : HashMap α) : Std.ExtTreeMap.ofList m.toList compare = m := by
  refine Std.ExtTreeMap.ext_getElem? fun k => ?_
  cases hk : m[k]? with
  | some v =>
    exact Std.ExtTreeMap.getElem?_ofList_of_mem (Std.compare_eq_iff_eq.mpr rfl)
      m.distinct_keys_toList (Std.ExtTreeMap.mem_toList_iff_getElem?_eq_some.mpr hk)
  | none =>
    refine Std.ExtTreeMap.getElem?_ofList_of_contains_eq_false ?_
    rw [Bool.eq_false_iff]
    intro hmem
    rw [List.contains_iff_mem, Std.ExtTreeMap.map_fst_toList_eq_keys, Std.ExtTreeMap.mem_keys,
      Std.ExtTreeMap.mem_iff_isSome_getElem?, hk] at hmem
    cases hmem

/-- The object of the entries, each with a value made of its own, holds what the map holds. -/
theorem lookup_map_toList {β : Type} (m : HashMap α) (f : α → β) (k : String) :
    (m.toList.map fun e => (e.1, f e.2)).lookup k = m[k]?.map f := by
  cases hk : m[k]? with
  | none =>
    rw [Option.map_none, List.lookup_eq_none_iff]
    intro p hp
    obtain ⟨e, he, rfl⟩ := List.mem_map.mp hp
    refine bne_iff_ne.mpr fun heq => ?_
    have hsome := Std.ExtTreeMap.mem_toList_iff_getElem?_eq_some.mp he
    rw [← heq, hk] at hsome
    cases hsome
  | some v =>
    obtain ⟨before, after, hsplit⟩ :=
      List.append_of_mem (Std.ExtTreeMap.mem_toList_iff_getElem?_eq_some.mpr hk)
    have hdistinct := m.distinct_keys_toList
    rw [hsplit, List.pairwise_append] at hdistinct
    rw [hsplit, List.map_append, List.map_cons, Option.map_some, List.lookup_eq_some_iff]
    refine ⟨_, _, rfl, fun p hp => ?_⟩
    obtain ⟨e, he, rfl⟩ := List.mem_map.mp hp
    refine bne_iff_ne.mpr fun heq => ?_
    exact hdistinct.2.2 e he (k, v) List.mem_cons_self (Std.compare_eq_iff_eq.mpr heq.symm)

end HashMap

/-- `HashSet<String>`. -/
abbrev HashSet := Std.ExtTreeSet String compare

/-- `Bytes` / `Vec<u8>`. -/
abbrev Bytes := List UInt8

/-! ## Strings -/

/-- `s.as_bytes()`: the UTF-8 encoding. -/
def asBytes (s : String) : Bytes := s.toUTF8.data.toList

/-- `String::from_utf8(bs).ok()`. -/
def fromUtf8 (bs : Bytes) : Option String := String.fromUTF8? ⟨bs.toArray⟩

@[simp] theorem fromUtf8_asBytes (s : String) : fromUtf8 (asBytes s) = some s := by
  have hvalid : s.toByteArray.IsValidUTF8 := s.isValidUTF8
  simp only [fromUtf8, asBytes, String.fromUTF8?, String.toUTF8, Array.toArray_toList]
  exact dif_pos hvalid

theorem fromUtf8_eq_some {bs : Bytes} {s : String} : fromUtf8 bs = some s ↔ bs = asBytes s := by
  constructor
  · intro h
    unfold fromUtf8 String.fromUTF8? at h
    split at h
    · obtain rfl := Option.some.inj h
      rfl
    · nomatch h
  · rintro rfl
    exact fromUtf8_asBytes s

theorem asBytes_inj {s t : String} : asBytes s = asBytes t ↔ s = t := by
  constructor
  · intro h
    have h' := congrArg fromUtf8 h
    rw [fromUtf8_asBytes, fromUtf8_asBytes] at h'
    exact Option.some.inj h'
  · rintro rfl; rfl

@[simp] theorem asBytes_append (s t : String) : asBytes (s ++ t) = asBytes s ++ asBytes t := by
  simp [asBytes, String.toUTF8]

/-- The bytes of a text of ASCII characters. -/
theorem asBytes_ascii {bytes : Bytes} (h : ∀ b ∈ bytes, b.toNat < 128) :
    asBytes (String.ofList (bytes.map fun b => Char.ofNat b.toNat)) = bytes := by
  have hall : ∀ n < 128, asBytes (String.singleton (Char.ofNat n)) = [UInt8.ofNat n] := by
    decide +kernel
  induction bytes with
  | nil => rfl
  | cons b bytes ih =>
    have hb := hall b.toNat (h b List.mem_cons_self)
    rw [List.map_cons, String.ofList_cons, asBytes_append, hb,
      ih fun b' hb' => h b' (List.mem_cons_of_mem _ hb'), UInt8.ofNat_toNat]
    rfl

/-- A character has a byte at least. -/
theorem length_asBytes_ofList (l : List Char) : l.length ≤ (asBytes (String.ofList l)).length := by
  induction l with
  | nil => exact Nat.zero_le _
  | cons c l ih =>
    have hc : 0 < (asBytes (String.singleton c)).length := by
      show 0 < (String.singleton c).toUTF8.data.toList.length
      rw [Array.length_toList]
      show 0 < (String.singleton c).utf8ByteSize
      rw [String.utf8ByteSize_singleton]
      exact Char.utf8Size_pos c
    rw [String.ofList_cons, asBytes_append, List.length_append, List.length_cons]
    omega

/-- `s.split(sep).next().unwrap_or("")`: the text before the first separator. -/
def splitFirst (sep : Char) (s : String) : String :=
  String.ofList (s.toList.takeWhile (· ≠ sep))

theorem splitFirst_eq_self {sep : Char} {s : String} (h : sep ∉ s.toList) : splitFirst sep s = s := by
  unfold splitFirst
  rw [List.takeWhile_eq_self_iff.mpr, String.ofList_toList]
  intro c hc
  exact decide_eq_true fun heq => h (heq ▸ hc)

/-- `s.split(sep).collect()`. -/
def splitChar (sep : Char) (s : String) : List String :=
  (s.toList.splitOn sep).map String.ofList

/-- Parts without the separator are read back from their joint text. -/
theorem splitChar_intercalate {sep : Char} {pairs : List String} (hne : pairs ≠ [])
    (hpairs : ∀ s ∈ pairs, sep ∉ s.toList) :
    splitChar sep ((String.singleton sep).intercalate pairs) = pairs := by
  unfold splitChar
  rw [String.toList_intercalate, String.toList_singleton,
    List.splitOn_intercalate sep ?_ (fun h => hne (List.map_eq_nil_iff.mp h)), List.map_map]
  · conv_rhs => rw [← List.map_id pairs]
    exact List.map_congr_left fun s _ => String.ofList_toList
  · intro l hl
    obtain ⟨s, hs, rfl⟩ := List.mem_map.mp hl
    exact hpairs s hs

/-- Another character in front goes to the first part. -/
theorem splitChar_cons {sep c : Char} (hc : c ≠ sep) (s : String) :
    ∃ part parts, splitChar sep s = part :: parts ∧
      splitChar sep (String.singleton c ++ s) = (String.singleton c ++ part) :: parts := by
  have hlist : (String.singleton c ++ s).toList = c :: s.toList := by simp
  unfold splitChar List.splitOn
  rw [hlist, List.splitOnP_cons_eq_if_modifyHead, if_neg (by simpa using hc)]
  cases hparts : s.toList.splitOnP (· == sep) with
  | nil => exact absurd hparts (List.splitOnP_ne_nil _ _)
  | cons part parts => exact ⟨String.ofList part, parts.map String.ofList, rfl, by simp⟩

/-- A cut at a separator. -/
theorem splitChar_append (sep : Char) (s t : String) :
    splitChar sep (s ++ String.singleton sep ++ t) = splitChar sep s ++ splitChar sep t := by
  have hlist : (s ++ String.singleton sep ++ t).toList = s.toList ++ sep :: t.toList := by simp
  unfold splitChar
  rw [hlist, List.splitOn_append_cons_self, List.map_append]

theorem splitChar_ne_nil (sep : Char) (s : String) : splitChar sep s ≠ [] := by
  unfold splitChar
  rw [ne_eq, List.map_eq_nil_iff]
  exact List.splitOn_ne_nil sep s.toList

/-- The parts, joined again. -/
theorem intercalate_splitChar (sep : Char) (s : String) :
    (String.singleton sep).intercalate (splitChar sep s) = s := by
  unfold splitChar
  rw [← String.toList_inj, String.toList_intercalate, String.toList_singleton, List.map_map]
  have hid : (String.toList ∘ String.ofList) = id := by
    funext l
    exact String.toList_ofList
  rw [hid, List.map_id, List.intercalate_splitOn]

theorem splitChar_inj {sep : Char} {s t : String} : splitChar sep s = splitChar sep t ↔ s = t := by
  constructor
  · intro h
    rw [← intercalate_splitChar sep s, h, intercalate_splitChar]
  · rintro rfl
    rfl

/-- A part of a split has no separator. -/
theorem not_mem_of_mem_splitChar {sep : Char} {s part : String} (h : part ∈ splitChar sep s) :
    sep ∉ part.toList := by
  obtain ⟨l, hl, rfl⟩ := List.mem_map.mp h
  rw [String.toList_ofList]
  exact Split.not_mem_of_mem_splitOn hl

/-- Any cut between the parts is a cut of the text. -/
theorem eq_append_of_splitChar {sep : Char} {s : String} {before after : List String}
    (h : splitChar sep s = before ++ after) (hbefore : before ≠ []) (hafter : after ≠ []) :
    ∃ a b, s = a ++ String.singleton sep ++ b ∧ splitChar sep a = before ∧ splitChar sep b = after := by
  have hpart : ∀ part ∈ before ++ after, sep ∉ part.toList :=
    fun part hmem => not_mem_of_mem_splitChar (h ▸ hmem)
  refine ⟨(String.singleton sep).intercalate before, (String.singleton sep).intercalate after, ?_,
    splitChar_intercalate hbefore fun part hmem => hpart part (List.mem_append_left _ hmem),
    splitChar_intercalate hafter fun part hmem => hpart part (List.mem_append_right _ hmem)⟩
  rw [← @splitChar_inj sep, splitChar_append,
    splitChar_intercalate hbefore fun part hmem => hpart part (List.mem_append_left _ hmem),
    splitChar_intercalate hafter fun part hmem => hpart part (List.mem_append_right _ hmem), h]
/-- `s.split_once(sep)`. -/
def splitOnceChar (sep : Char) (s : String) : Option (String × String) :=
  (Split.splitOnce sep s.toList).map fun p => (String.ofList p.1, String.ofList p.2)

theorem splitOnceChar_append {sep : Char} {a : String} (ha : sep ∉ a.toList) (b : String) :
    splitOnceChar sep (a ++ String.singleton sep ++ b) = some (a, b) := by
  have hlist : (a ++ String.singleton sep ++ b).toList = a.toList ++ sep :: b.toList := by simp
  rw [splitOnceChar, hlist, Split.splitOnce_append ha]
  simp

theorem eq_of_splitOnceChar {sep : Char} {s a b : String} (h : splitOnceChar sep s = some (a, b)) :
    s = a ++ String.singleton sep ++ b := by
  obtain ⟨⟨x, y⟩, hsplit, heq⟩ := Option.map_eq_some_iff.mp h
  obtain ⟨rfl, rfl⟩ := Prod.mk.inj heq
  rw [← String.toList_inj, Split.eq_of_splitOnce hsplit]
  simp

theorem splitOnceChar_eq_none {sep : Char} {s : String} (h : sep ∉ s.toList) :
    splitOnceChar sep s = none := by
  cases hsplit : splitOnceChar sep s with
  | none => rfl
  | some p =>
    exfalso
    apply h
    rw [eq_of_splitOnceChar (a := p.1) (b := p.2) hsplit]
    simp

/-- A separator is found. -/
theorem exists_splitOnceChar {sep : Char} {s : String} (h : sep ∈ s.toList) :
    ∃ a b, splitOnceChar sep s = some (a, b) := by
  obtain ⟨x, y, hsplit, hx⟩ := List.eq_append_cons_of_mem h
  refine ⟨String.ofList x, String.ofList y, ?_⟩
  rw [splitOnceChar, hsplit, Split.splitOnce_append hx]
  rfl

/-- The two halves of `s` around its last separator (`rfind`, then slicing on both sides). -/
def rsplitOnceChar (sep : Char) (s : String) : Option (String × String) :=
  (Split.rsplitOnce sep s.toList).map fun p => (String.ofList p.1, String.ofList p.2)

theorem rsplitOnceChar_append {sep : Char} {b : String} (hb : sep ∉ b.toList) (a : String) :
    rsplitOnceChar sep (a ++ String.singleton sep ++ b) = some (a, b) := by
  have hlist : (a ++ String.singleton sep ++ b).toList = a.toList ++ sep :: b.toList := by simp
  rw [rsplitOnceChar, hlist, Split.rsplitOnce_append hb]
  simp

theorem rsplitOnceChar_eq_none {sep : Char} {s : String} (hs : sep ∉ s.toList) :
    rsplitOnceChar sep s = none := by
  rw [rsplitOnceChar, Split.rsplitOnce_eq_none hs]
  rfl

/-- `s.strip_prefix(p)`. -/
def stripPrefix (p s : String) : Option String :=
  (s.toList.dropPrefix? p.toList).map String.ofList

theorem stripPrefix_append (p s : String) : stripPrefix p (p ++ s) = some s := by
  have hdrop : (p.toList ++ s.toList).dropPrefix? p.toList = some s.toList :=
    List.dropPrefix?_eq_some_iff.mpr ⟨p.toList, rfl, by simp⟩
  rw [stripPrefix, String.toList_append, hdrop]
  simp

theorem eq_of_stripPrefix {p s t : String} (h : stripPrefix p s = some t) : s = p ++ t := by
  obtain ⟨l, hl, rfl⟩ := Option.map_eq_some_iff.mp h
  obtain ⟨p', hs, hp⟩ := List.dropPrefix?_eq_some_iff.mp hl
  obtain rfl := eq_of_beq hp
  rw [← String.toList_inj, String.toList_append, hs]
  simp

theorem stripPrefix_eq_none {p s : String} (h : ∀ t, s ≠ p ++ t) : stripPrefix p s = none := by
  cases hstrip : stripPrefix p s with
  | none => rfl
  | some t => exact absurd (eq_of_stripPrefix hstrip) (h t)

/-- `s.strip_suffix(p)`. -/
def stripSuffix (p s : String) : Option String :=
  (s.toList.dropSuffix? p.toList).map String.ofList

theorem stripSuffix_append (s p : String) : stripSuffix p (s ++ p) = some s := by
  have hdrop : (s.toList ++ p.toList).dropSuffix? p.toList = some s.toList :=
    List.dropSuffix?_eq_some_iff.mpr ⟨p.toList, rfl, by simp⟩
  unfold stripSuffix
  rw [String.toList_append, hdrop, Option.map_some, String.ofList_toList]

theorem eq_of_stripSuffix {p s t : String} (h : stripSuffix p s = some t) : s = t ++ p := by
  obtain ⟨l, hl, rfl⟩ := Option.map_eq_some_iff.mp h
  obtain ⟨p', hs, hp⟩ := List.dropSuffix?_eq_some_iff.mp hl
  obtain rfl := eq_of_beq hp
  rw [← String.toList_inj, String.toList_append, String.toList_ofList, hs]

/-- `s.starts_with(p)`. -/
def startsWith (s p : String) : Bool := p.toList.isPrefixOf s.toList

theorem startsWith_iff {s p : String} : startsWith s p = true ↔ ∃ rest, s = p ++ rest := by
  unfold startsWith
  rw [List.isPrefixOf_iff_prefix]
  constructor
  · rintro ⟨l, hl⟩
    refine ⟨String.ofList l, ?_⟩
    rw [← String.toList_inj, String.toList_append, String.toList_ofList, hl]
  · rintro ⟨rest, rfl⟩
    exact ⟨rest.toList, (String.toList_append ..).symm⟩

/-- `char::is_whitespace`: the Unicode `White_Space` property. -/
def isWhitespace (c : Char) : Bool :=
  let n := c.toNat
  (9 ≤ n && n ≤ 13) || n = 0x20 || n = 0x85 || n = 0xA0 || n = 0x1680 ||
    (0x2000 ≤ n && n ≤ 0x200A) || n = 0x2028 || n = 0x2029 || n = 0x202F || n = 0x205F ||
    n = 0x3000

/-- `s.trim()`. -/
def trim (s : String) : String :=
  String.ofList ((s.toList.dropWhile isWhitespace).rdropWhile isWhitespace)

/-- Text without white space is not trimmed. -/
theorem trim_eq_self {s : String} (h : ∀ c ∈ s.toList, isWhitespace c = false) : trim s = s := by
  have hdrop : s.toList.dropWhile isWhitespace = s.toList := by
    rw [List.dropWhile_eq_self_iff]
    intro hpos hhead
    rw [h _ (List.getElem_mem hpos)] at hhead
    cases hhead
  have hrdrop : s.toList.rdropWhile isWhitespace = s.toList := by
    rw [List.rdropWhile_eq_self_iff]
    intro hne hlast
    rw [h _ (List.getLast_mem hne)] at hlast
    cases hlast
  unfold trim
  rw [hdrop, hrdrop, String.ofList_toList]

/-- Space in front is trimmed away. -/
theorem trim_space (s : String) : trim (" " ++ s) = trim s := by
  unfold trim
  rw [String.toList_append]
  rfl

/-- `s.trim_end_matches(c)`. -/
def trimEndMatches (c : Char) (s : String) : String :=
  String.ofList (s.toList.rdropWhile (· = c))

/-- `usize::to_string`. -/
def showNat (n : Nat) : String := String.ofList (Nat.toDigits 10 n)

theorem showNat_inj {m n : Nat} : showNat m = showNat n ↔ m = n := by
  constructor
  · intro h
    have hdigits : Nat.toDigits 10 m = Nat.toDigits 10 n := String.ofList_injective h
    have hvalue := congrArg (fun ds => Nat.ofDigitChars 10 ds 0) hdigits
    simpa only [Nat.ofDigitChars_ten_toDigits] using hvalue
  · rintro rfl
    rfl

theorem toList_showNat_ne_nil (n : Nat) : (showNat n).toList ≠ [] := by
  rw [showNat, String.toList_ofList]
  exact Nat.toDigits_ne_nil

theorem isDigit_of_mem_showNat {n : Nat} {c : Char} (hc : c ∈ (showNat n).toList) : c.isDigit = true := by
  rw [showNat, String.toList_ofList] at hc
  exact Nat.isDigit_of_mem_toDigits (by decide) (by decide) hc

/-- Nothing but digits stands in a number. -/
theorem not_mem_showNat {c : Char} (hc : c.isDigit = false) (n : Nat) : c ∉ (showNat n).toList := by
  intro hmem
  rw [isDigit_of_mem_showNat hmem] at hc
  cases hc

/-- `s.to_ascii_lowercase()`. -/
def toAsciiLowercase (s : String) : String := String.ofList (s.toList.map Char.toLower)

/-- `s.eq_ignore_ascii_case(t)`. -/
def eqIgnoreAsciiCase (s t : String) : Bool := toAsciiLowercase s = toAsciiLowercase t

theorem toAsciiLowercase_append (s t : String) :
    toAsciiLowercase (s ++ t) = toAsciiLowercase s ++ toAsciiLowercase t := by
  unfold toAsciiLowercase
  rw [String.toList_append, List.map_append, String.ofList_append]

theorem eqIgnoreAsciiCase_iff {s t : String} :
    eqIgnoreAsciiCase s t = true ↔ toAsciiLowercase s = toAsciiLowercase t := by
  unfold eqIgnoreAsciiCase
  rw [decide_eq_true_eq]

/-- A text in lower case is put together as the text itself is. -/
theorem lowercase_eq_append {s a b : String} (h : toAsciiLowercase s = a ++ b) :
    ∃ s₁ s₂, s = s₁ ++ s₂ ∧ toAsciiLowercase s₁ = a ∧ toAsciiLowercase s₂ = b := by
  unfold toAsciiLowercase at h ⊢
  rw [← String.toList_inj, String.toList_ofList, String.toList_append] at h
  obtain ⟨l₁, l₂, hl, h₁, h₂⟩ := List.map_eq_append_iff.mp h
  refine ⟨String.ofList l₁, String.ofList l₂, ?_, ?_, ?_⟩
  · rw [← String.ofList_append, ← hl, String.ofList_toList]
  · rw [String.toList_ofList, h₁, String.ofList_toList]
  · rw [String.toList_ofList, h₂, String.ofList_toList]

/-- What comes before the letters has no case. -/
theorem toLower_eq_iff {c d : Char} (hd : d.toNat < 65) : c.toLower = d ↔ c = d := by
  have hd' : d.val < 65 := UInt32.lt_iff_toNat_lt.mpr hd
  unfold Char.toLower
  split
  · rename_i hc
    have hle : (65 : UInt32) ≤ c.val := hc.1
    have hge : c.val ≤ (90 : UInt32) := hc.2
    constructor
    · intro h
      have hval : c.val + 32 = d.val := congrArg Char.val h
      grind
    · rintro rfl
      exact absurd hle (UInt32.not_le.mpr hd')
  · exact Iff.rfl

/-- A text without letters and what follows them has one case. -/
theorem lowercase_eq_iff {s t : String} (ht : ∀ c ∈ t.toList, c.toNat < 65) :
    toAsciiLowercase s = t ↔ s = t := by
  unfold toAsciiLowercase
  rw [← String.toList_inj, ← String.toList_inj, String.toList_ofList]
  generalize s.toList = l at *
  generalize t.toList = m at *
  induction m generalizing l with
  | nil => rw [List.map_eq_nil_iff]
  | cons d m ih =>
    cases l with
    | nil => exact iff_of_false (by simp) (by simp)
    | cons c l =>
      rw [List.map_cons, List.cons.injEq, List.cons.injEq, toLower_eq_iff (ht d List.mem_cons_self),
        ih l fun e he => ht e (List.mem_cons_of_mem d he)]

/-- `str::to_lowercase` and `str::to_uppercase`. -/
class CaseMapping where
  toLowercase : String → String
  toUppercase : String → String
  /-- On ASCII text only the letters `A`-`Z` change. -/
  toLowercase_ascii : ∀ s : String, (∀ c ∈ s.toList, c.toNat < 128) →
    toLowercase s = String.ofList (s.toList.map Char.toLower)
  /-- On ASCII text only the letters `a`-`z` change. -/
  toUppercase_ascii : ∀ s : String, (∀ c ∈ s.toList, c.toNat < 128) →
    toUppercase s = String.ofList (s.toList.map Char.toUpper)

export CaseMapping (toLowercase toUppercase)

/-- The mapping of ASCII letters alone, enough for ASCII configurations. -/
abbrev asciiCaseMapping : CaseMapping where
  toLowercase s := String.ofList (s.toList.map Char.toLower)
  toUppercase s := String.ofList (s.toList.map Char.toUpper)
  toLowercase_ascii _ _ := rfl
  toUppercase_ascii _ _ := rfl

end Featherbit
