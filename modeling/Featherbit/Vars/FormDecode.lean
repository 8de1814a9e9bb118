/-
  READING ENCODED TEXT (`urldecode` of `vars/mod.rs`).

  1. **One byte** — `+` is a space, `%` with two hexadecimal digits is a byte, anything else is itself.
  2. **After an encoder** (`urldecodeBytes_percentBytes`) — the encoders of the gateway keep some ASCII
     bytes and write the others as `%XX`; all that is needed of one is that it keeps neither `+` nor `%`.
  3. **What is not encoded** (`urldecodeBytes_eq_self_iff`) — a text is read as it stands exactly when it
     holds no `+` and no escape.  Decoding weighs no more (`weight`, where a `+` counts twice), and less
     wherever something was decoded.
  4. **The pairs of a query** (`queryPieces_joined`) — pairs joined by `&` are read back one by one.
-/
import Featherbit.Context.Query
import Featherbit.Vars

namespace Featherbit

namespace Vars

/-! ## One byte -/

/-- Two hexadecimal digits come next. -/
def startsHex : Bytes → Bool
  | hi :: lo :: _ => (hexVal hi).isSome && (hexVal lo).isSome
  | _ => false

/-- A `+`, or a `%` with two hexadecimal digits, is in the text. -/
def hasEscape : Bytes → Bool
  | [] => false
  | b :: rest => b = 0x2B || (b = 0x25 && startsHex rest) || hasEscape rest

/-- The digits of an escape, and their values. -/
theorem exists_of_startsHex {rest : Bytes} (hhex : startsHex rest = true) :
    ∃ hi lo more h l, rest = hi :: lo :: more ∧ hexVal hi = some h ∧ hexVal lo = some l := by
  cases rest with
  | nil => cases hhex
  | cons hi rest =>
    cases rest with
    | nil => cases hhex
    | cons lo more =>
      obtain ⟨hhi, hlo⟩ := Bool.and_eq_true_iff.mp hhex
      obtain ⟨h, hhi⟩ := Option.isSome_iff_exists.mp hhi
      obtain ⟨l, hlo⟩ := Option.isSome_iff_exists.mp hlo
      exact ⟨hi, lo, more, h, l, rfl, hhi, hlo⟩

theorem urldecodeBytes_plus (rest : Bytes) :
    urldecodeBytes (0x2B :: rest) = 0x20 :: urldecodeBytes rest := by
  rw [urldecodeBytes.eq_def]
  exact if_pos rfl

theorem urldecodeBytes_hex {hi lo h l : UInt8} (hhi : hexVal hi = some h) (hlo : hexVal lo = some l)
    (rest : Bytes) :
    urldecodeBytes (0x25 :: hi :: lo :: rest) = (h * 16 + l) :: urldecodeBytes rest := by
  rw [urldecodeBytes, if_neg (by decide), if_pos rfl]
  simp only [hhi, hlo]

/-- A byte that begins no escape is itself. -/
theorem urldecodeBytes_cons {b : UInt8} {rest : Bytes} (hplus : b ≠ 0x2B)
    (hpercent : b = 0x25 → startsHex rest = false) :
    urldecodeBytes (b :: rest) = b :: urldecodeBytes rest := by
  by_cases hb : b = 0x25
  · have hhex := hpercent hb
    cases rest with
    | nil => simp [urldecodeBytes, hb]
    | cons hi rest =>
      cases rest with
      | nil => simp [urldecodeBytes, hb]
      | cons lo more =>
        rw [urldecodeBytes, if_neg hplus, if_pos hb]
        cases hhi : hexVal hi with
        | none => rfl
        | some h =>
          cases hlo : hexVal lo with
          | none => rfl
          | some l =>
            rw [startsHex, hhi, hlo] at hhex
            cases hhex
  · rw [urldecodeBytes.eq_def]
    exact (if_neg hplus).trans (if_neg hb)

/-! ## After an encoder -/

theorem urldecodeBytes_flatMap {encode : UInt8 → Bytes}
    (hencode : ∀ b rest, urldecodeBytes (encode b ++ rest) = b :: urldecodeBytes rest) (bytes : Bytes) :
    urldecodeBytes (bytes.flatMap encode) = bytes := by
  induction bytes with
  | nil => rw [List.flatMap_nil, urldecodeBytes]
  | cons b bytes ih => rw [List.flatMap_cons, hencode, ih]

/-- The upper-case digit of a value below 16. -/
def hexByte (n : Nat) : UInt8 := UInt8.ofNat (if n < 10 then 0x30 + n else 0x37 + n)

/-- `%` and the two digits of a byte. -/
def percentByte (b : UInt8) : Bytes := [0x25, hexByte (b.toNat / 16), hexByte (b.toNat % 16)]

theorem hexVal_hexByte : ∀ n < 16, hexVal (hexByte n) = some (UInt8.ofNat n) := by decide

theorem urldecodeBytes_percentByte (b : UInt8) (rest : Bytes) :
    urldecodeBytes (percentByte b ++ rest) = b :: urldecodeBytes rest := by
  have hb := b.toNat_lt
  have hhi := hexVal_hexByte (b.toNat / 16) (by omega)
  have hlo := hexVal_hexByte (b.toNat % 16) (by omega)
  have hvalue : UInt8.ofNat (b.toNat / 16) * 16 + UInt8.ofNat (b.toNat % 16) = b := by
    apply UInt8.toNat_inj.mp
    rw [UInt8.toNat_add, UInt8.toNat_mul, UInt8.toNat_ofNat', UInt8.toNat_ofNat',
      show (16 : UInt8).toNat = 16 from rfl]
    omega
  show urldecodeBytes (0x25 :: _ :: _ :: rest) = _
  rw [urldecodeBytes_hex hhi hlo, hvalue]

/-- A hexadecimal digit in upper case. -/
def upperDigit (n : Nat) : Char := "0123456789ABCDEF".toList.getD n '0'

/-- The bytes that `keep` accepts as they are, the others as `%XX`. -/
def percentText (keep : UInt8 → Bool) (s : String) : String :=
  String.ofList ((asBytes s).flatMap fun b =>
    if keep b then [Char.ofNat b.toNat]
    else ['%', upperDigit (b.toNat / 16), upperDigit (b.toNat % 16)])

/-- `percentText`, of bytes that need not be text. -/
def percentBytes (keep : UInt8 → Bool) (bytes : Bytes) : String :=
  String.ofList (bytes.flatMap fun b =>
    if keep b then [Char.ofNat b.toNat]
    else ['%', upperDigit (b.toNat / 16), upperDigit (b.toNat % 16)])

section PercentText

variable {keep : UInt8 → Bool}

theorem percentText_eq (s : String) : percentText keep s = percentBytes keep (asBytes s) := rfl

/-- The bytes of an encoded text, where only ASCII is kept. -/
theorem asBytes_percentBytes (hkeep : ∀ b, keep b = true → b.toNat < 128) (bytes : Bytes) :
    asBytes (percentBytes keep bytes) = bytes.flatMap fun b => if keep b then [b] else percentByte b := by
  have hdigit : ∀ n < 16, upperDigit n = Char.ofNat (hexByte n).toNat ∧ (hexByte n).toNat < 128 := by
    decide
  have hchars : (bytes.flatMap fun b =>
      if keep b then [Char.ofNat b.toNat]
      else ['%', upperDigit (b.toNat / 16), upperDigit (b.toNat % 16)]) =
      (bytes.flatMap fun b => if keep b then [b] else percentByte b).map
        fun b => Char.ofNat b.toNat := by
    rw [List.map_flatMap]
    congr 1
    funext b
    have hb := b.toNat_lt
    split
    · rfl
    · rw [(hdigit (b.toNat / 16) (by omega)).1, (hdigit (b.toNat % 16) (by omega)).1]
      rfl
  unfold percentBytes
  rw [hchars]
  apply asBytes_ascii
  intro c hc
  obtain ⟨b, -, hc⟩ := List.mem_flatMap.mp hc
  have hb := b.toNat_lt
  split at hc
  · rename_i hkept
    rw [List.mem_singleton.mp hc]
    exact hkeep b hkept
  · rcases List.mem_cons.mp hc with rfl | hc
    · decide
    · rcases List.mem_cons.mp hc with rfl | hc
      · exact (hdigit _ (by omega)).2
      · rw [List.mem_singleton.mp hc]
        exact (hdigit _ (by omega)).2

/-- **After an encoder.**  An encoder that keeps neither `+` nor `%` is undone. -/
theorem urldecodeBytes_percentBytes
    (hkeep : ∀ b, keep b = true → b.toNat < 128 ∧ b ≠ 0x2B ∧ b ≠ 0x25) (bytes : Bytes) :
    urldecodeBytes (asBytes (percentBytes keep bytes)) = bytes := by
  rw [asBytes_percentBytes fun b hb => (hkeep b hb).1]
  apply urldecodeBytes_flatMap
  intro b rest
  split
  · rename_i hkept
    obtain ⟨-, hplus, hpercent⟩ := hkeep b hkept
    exact urldecodeBytes_cons hplus fun h => absurd h hpercent
  · exact urldecodeBytes_percentByte b rest

theorem urldecodeBytes_percentText
    (hkeep : ∀ b, keep b = true → b.toNat < 128 ∧ b ≠ 0x2B ∧ b ≠ 0x25) (s : String) :
    urldecodeBytes (asBytes (percentText keep s)) = asBytes s := by
  rw [percentText_eq, urldecodeBytes_percentBytes hkeep]

/-- The characters of an encoded text. -/
theorem mem_percentText {s : String} {c : Char} (hc : c ∈ (percentText keep s).toList) :
    (∃ b, keep b = true ∧ c = Char.ofNat b.toNat) ∨ c = '%' ∨ ∃ n < 16, c = upperDigit n := by
  unfold percentText at hc
  rw [String.toList_ofList] at hc
  obtain ⟨b, -, hc⟩ := List.mem_flatMap.mp hc
  have hb := b.toNat_lt
  split at hc
  · rename_i hkept
    exact Or.inl ⟨b, hkept, List.mem_singleton.mp hc⟩
  · rcases List.mem_cons.mp hc with rfl | hc
    · exact Or.inr (Or.inl rfl)
    · rcases List.mem_cons.mp hc with rfl | hc
      · exact Or.inr (Or.inr ⟨_, by omega, rfl⟩)
      · exact Or.inr (Or.inr ⟨_, by omega, List.mem_singleton.mp hc⟩)

end PercentText

/-- A text is read back where its bytes are. -/
theorem urldecode_of_bytes {s t : String} (h : urldecodeBytes (asBytes s) = asBytes t) :
    urldecode s = t := by
  unfold urldecode fromUtf8Lossy
  rw [h, fromUtf8_asBytes]

/-! ## What is not encoded -/

/-- The length, a `+` counted twice. -/
def weight : Bytes → Nat
  | [] => 0
  | b :: rest => (if b = 0x2B then 2 else 1) + weight rest

theorem weight_cons_le (b : UInt8) (rest : Bytes) : weight (b :: rest) ≤ 2 + weight rest := by
  rw [weight]
  split <;> omega

/-- Decoding makes no text heavier, and one with an escape lighter. -/
theorem weight_urldecodeBytes (bytes : Bytes) : weight (urldecodeBytes bytes) ≤ weight bytes ∧
    (hasEscape bytes = true → weight (urldecodeBytes bytes) < weight bytes) := by
  induction hlen : bytes.length using Nat.strong_induction_on generalizing bytes with
  | _ n ih =>
    cases bytes with
    | nil =>
      rw [urldecodeBytes]
      refine ⟨Nat.le_refl _, fun h => ?_⟩
      cases h
    | cons b rest =>
      have hrest := ih rest.length (by rw [← hlen]; exact Nat.lt_succ_self _) rest rfl
      by_cases hplus : b = 0x2B
      · rw [hplus, urldecodeBytes_plus, weight, weight, if_neg (by decide), if_pos rfl]
        exact ⟨by omega, fun _ => by omega⟩
      · by_cases hescape : b = 0x25 ∧ startsHex rest = true
        · obtain ⟨rfl, hhex⟩ := hescape
          obtain ⟨hi, lo, more, h, l, rfl, hhi, hlo⟩ := exists_of_startsHex hhex
          -- three bytes become one, which weighs two at most
          have hmore := (ih more.length (by rw [← hlen]; simp only [List.length_cons]; omega) more rfl).1
          have hbyte := weight_cons_le (h * 16 + l) (urldecodeBytes more)
          have hthree : 3 + weight more ≤ weight (0x25 :: hi :: lo :: more) := by
            rw [weight, weight, weight]
            split <;> split <;> split <;> omega
          rw [urldecodeBytes_hex hhi hlo]
          exact ⟨by omega, fun _ => by omega⟩
        · have hpercent : b = 0x25 → startsHex rest = false := by
            intro hb
            exact Bool.eq_false_iff.mpr fun hhex => hescape ⟨hb, hhex⟩
          rw [urldecodeBytes_cons hplus hpercent, weight, weight]
          refine ⟨by omega, fun hhas => ?_⟩
          have hafter : hasEscape rest = true := by
            rw [hasEscape, decide_eq_false hplus, Bool.false_or] at hhas
            rcases Bool.or_eq_true_iff.mp hhas with hhas | hhas
            · obtain ⟨hb, hhex⟩ := Bool.and_eq_true_iff.mp hhas
              exact absurd ⟨of_decide_eq_true hb, hhex⟩ hescape
            · exact hhas
          have hlt := hrest.2 hafter
          omega

/-- **What is not encoded.**  A text is read as it stands exactly when it holds no `+` and no escape. -/
theorem urldecodeBytes_eq_self_iff (bytes : Bytes) :
    urldecodeBytes bytes = bytes ↔ hasEscape bytes = false := by
  constructor
  · intro hself
    refine Bool.eq_false_iff.mpr fun hescape => ?_
    have hlt := (weight_urldecodeBytes bytes).2 hescape
    rw [hself] at hlt
    exact Nat.lt_irrefl _ hlt
  · intro hnone
    induction bytes with
    | nil => rw [urldecodeBytes]
    | cons b rest ih =>
      obtain ⟨hhere, hrest⟩ := Bool.or_eq_false_iff.mp hnone
      obtain ⟨hplus, hpercent⟩ := Bool.or_eq_false_iff.mp hhere
      rw [urldecodeBytes_cons (of_decide_eq_false hplus) ?_, ih hrest]
      intro hb
      rw [decide_eq_true hb, Bool.true_and] at hpercent
      exact hpercent

/-! ## The pairs of a query -/

/-- A pair, decoded. -/
def decodePair (pair : String × String) : Bytes × Bytes :=
  (urldecodeBytes (asBytes pair.1), urldecodeBytes (asBytes pair.2))

/-- What a query says: its pairs, decoded. -/
def decodedPairs (query : String) : List (Bytes × Bytes) := (queryPieces query).map decodePair

/-- What the query of a URL says; a URL without one says nothing. -/
def decodedQuery (url : String) : List (Bytes × Bytes) :=
  match (HttpUri.ofReference url).query with
  | some query => decodedPairs query
  | none => []

/-- Pairs are read back from their texts where the keys hold no `=` and no text an `&`. -/
theorem queryPieces_joined {pairs : List (String × String)} (hne : pairs ≠ [])
    (hpairs : ∀ pair ∈ pairs, '=' ∉ pair.1.toList ∧ '&' ∉ (joinPair pair).toList) :
    queryPieces ("&".intercalate (pairs.map joinPair)) = pairs := by
  unfold queryPieces
  rw [show "&" = String.singleton '&' from rfl, splitChar_intercalate, List.map_map]
  · conv_rhs => rw [← List.map_id pairs]
    exact List.map_congr_left fun pair hpair => splitPair_joinPair (hpairs pair hpair).1
  · exact fun h => hne (List.map_eq_nil_iff.mp h)
  · intro text htext
    obtain ⟨pair, hpair, rfl⟩ := List.mem_map.mp htext
    exact (hpairs pair hpair).2

end Vars

end Featherbit
