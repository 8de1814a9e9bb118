/-
  WHAT THE TOKENS OF `csrf` ARE DECODED FROM (`hex_decode`, `check_token` of
  `plugins/native/csrf.rs`).

  `hex_decode` undoes `hex_encode`, and takes two sorts of text that are not hex.  Each pair is read
  by `u8::from_str_radix`, which allows a plus sign before a digit; and the pairs are cut out at
  byte offsets, which panics inside a character (`none` here).

  `afterPairs` is where the reading stops; what lies there decides both (`hexPairs_eq_none_iff`,
  `hexText_of_hexPairs`).
-/
import Featherbit.Plugins.Csrf

namespace Featherbit

/-! ## Hex text -/

/-- A digit of base sixteen, in either case. -/
def HexDigit (c : Char) (n : Nat) : Prop := n < 16 ∧ (c = n.digitChar ∨ c = n.digitChar.toUpper)

instance (c : Char) (n : Nat) : Decidable (HexDigit c n) := inferInstanceAs (Decidable (_ ∧ _))

/-- The text writes each of the bytes in two digits. -/
inductive HexText : List Char → Bytes → Prop
  | nil : HexText [] []
  | cons {high low : Char} {b : UInt8} {chars : List Char} {bytes : Bytes} :
      HexDigit high (b.toNat / 16) → HexDigit low (b.toNat % 16) → HexText chars bytes →
      HexText (high :: low :: chars) (b :: bytes)

/-- `hex_decode` answers, and with no bytes but those the text denotes. -/
def HexExact (s : String) : Prop :=
  ∃ answer, hexDecode s = some answer ∧ ∀ bytes, answer = some bytes → HexText s.toList bytes

def isHexDigit (c : Char) : Bool :=
  c.isDigit || ('a' ≤ c && c ≤ 'f') || ('A' ≤ c && c ≤ 'F')

/-- What `from_str_radix` takes for a byte. -/
def isBytePair (c d : Char) : Bool := (c = '+' || isHexDigit c) && isHexDigit d

/-- The text from the first two characters on that are not taken for a byte. -/
def afterPairs : List Char → List Char
  | [] => []
  | [c] => [c]
  | c :: d :: rest => if isBytePair c d then afterPairs rest else c :: d :: rest

/-- The first two bytes, where there are any, end with a character. -/
def endsAtTwo : List Char → Bool
  | [] => true
  | [c] => c.utf8Size ≤ 2
  | c :: d :: _ => c.utf8Size = 2 || (c.utf8Size = 1 && d.utf8Size = 1)

/-- No slice of `hex_decode` ends inside a character. -/
def hexSliceable (s : String) : Bool := s.utf8ByteSize % 2 = 1 || endsAtTwo (afterPairs s.toList)

/-- The text is not one of pairs up to its end, with a sign among them. -/
def hexUnsigned (s : String) : Bool :=
  s.utf8ByteSize % 2 = 1 || !(afterPairs s.toList).isEmpty || !s.toList.contains '+'

/-! ### One pair -/

theorem lt_of_isHexDigit {c : Char} (h : isHexDigit c = true) : c.toNat < 128 := by
  simp only [isHexDigit, Char.isDigit, Bool.or_eq_true, Bool.and_eq_true, decide_eq_true_eq,
    Char.le_def, UInt32.le_iff_toNat_le] at h
  change c.val.toNat < 128
  have h9 : '9'.val.toNat = 57 := rfl
  have hf : 'f'.val.toNat = 102 := rfl
  have hF : 'F'.val.toNat = 70 := rfl
  omega

/-- A digit is one byte, and read as its value. -/
theorem hexVal_of_isHexDigit {c : Char} (h : isHexDigit c = true) :
    ∃ v, Vars.hexVal (UInt8.ofNat c.toNat) = some v ∧ HexDigit c v.toNat := by
  have hall : ∀ n < 128, isHexDigit (Char.ofNat n) = true →
      ((Vars.hexVal (UInt8.ofNat n)).any fun v => HexDigit (Char.ofNat n) v.toNat) = true := by
    decide +kernel
  have hc := hall c.toNat (lt_of_isHexDigit h)
  rw [Char.ofNat_toNat] at hc
  obtain ⟨v, hv, hdigit⟩ := (Option.any_eq_true _ _).mp (hc h)
  exact ⟨v, hv, of_decide_eq_true hdigit⟩

theorem hexVal_eq_none {c : Char} (hc : c.toNat < 128) (h : ¬ isHexDigit c = true) :
    Vars.hexVal (UInt8.ofNat c.toNat) = none := by
  have hall : ∀ n < 128, ¬ isHexDigit (Char.ofNat n) = true →
      Vars.hexVal (UInt8.ofNat n) = none := by decide +kernel
  refine hall c.toNat hc ?_
  rwa [Char.ofNat_toNat]

/-- Two digits are the byte with these halves. -/
theorem halves_of_digits {c d : Char} {high low : UInt8} (hc : HexDigit c high.toNat)
    (hd : HexDigit d low.toNat) :
    HexDigit c ((high * 16 + low).toNat / 16) ∧ HexDigit d ((high * 16 + low).toNat % 16) := by
  have hhigh := hc.1
  have hlow := hd.1
  have hsum : (high * 16 + low).toNat = high.toNat * 16 + low.toNat := by
    rw [UInt8.toNat_add, UInt8.toNat_mul]
    show (high.toNat * 16 % 256 + low.toNat) % 256 = _
    omega
  rw [hsum, show (high.toNat * 16 + low.toNat) / 16 = high.toNat by omega,
    show (high.toNat * 16 + low.toNat) % 16 = low.toNat by omega]
  exact ⟨hc, hd⟩

/-- The pairs that are read. -/
theorem fromHexPair_of_isBytePair {c d : Char} (h : isBytePair c d = true) :
    ∃ b, fromHexPair c d = some b ∧
      (c ≠ '+' → HexDigit c (b.toNat / 16) ∧ HexDigit d (b.toNat % 16)) := by
  rw [isBytePair, Bool.and_eq_true, Bool.or_eq_true, decide_eq_true_eq] at h
  obtain ⟨hc, hd⟩ := h
  obtain ⟨low, hlow, hlowDigit⟩ := hexVal_of_isHexDigit hd
  have hdlt := lt_of_isHexDigit hd
  by_cases hplus : c = '+'
  · refine ⟨low, ?_, fun hne => absurd hplus hne⟩
    rw [fromHexPair, if_pos hplus, if_pos hdlt, hlow]
  · obtain hc := hc.resolve_left hplus
    obtain ⟨high, hhigh, hhighDigit⟩ := hexVal_of_isHexDigit hc
    refine ⟨high * 16 + low, ?_, fun _ => halves_of_digits hhighDigit hlowDigit⟩
    rw [fromHexPair, if_neg hplus, if_pos ⟨lt_of_isHexDigit hc, hdlt⟩, hhigh, hlow]
    rfl

theorem fromHexPair_eq_none {c d : Char} (h : ¬ isBytePair c d = true) : fromHexPair c d = none := by
  rw [isBytePair, Bool.and_eq_true, Bool.or_eq_true, decide_eq_true_eq] at h
  rw [fromHexPair]
  split
  · rename_i hplus
    split
    · rename_i hdlt
      exact hexVal_eq_none hdlt fun hd => h ⟨Or.inl hplus, hd⟩
    · rfl
  · split
    · rename_i hlt
      by_cases hc : isHexDigit c = true
      · rw [hexVal_eq_none hlt.2 fun hd => h ⟨Or.inr hc, hd⟩]
        cases Vars.hexVal (UInt8.ofNat c.toNat) <;> rfl
      · rw [hexVal_eq_none hlt.1 hc]
        rfl
    · rfl

theorem utf8Size_of_lt {c : Char} (h : c.toNat < 128) : c.utf8Size = 1 := by
  rw [Char.utf8Size, if_pos]
  rw [UInt32.le_iff_toNat_le]
  show c.toNat ≤ 127
  omega

/-- Both characters of a pair are one byte. -/
theorem utf8Size_of_isBytePair {c d : Char} (h : isBytePair c d = true) :
    c.utf8Size = 1 ∧ d.utf8Size = 1 := by
  rw [isBytePair, Bool.and_eq_true, Bool.or_eq_true, decide_eq_true_eq] at h
  refine ⟨?_, utf8Size_of_lt (lt_of_isHexDigit h.2)⟩
  rcases h.1 with rfl | hc
  · rfl
  · exact utf8Size_of_lt (lt_of_isHexDigit hc)

/-! ### The whole text -/

theorem hexPairs_cons_of_isBytePair {c d : Char} (rest : List Char) (h : isBytePair c d = true) :
    ∃ b, fromHexPair c d = some b ∧
      hexPairs (c :: d :: rest) = (hexPairs rest).map fun bytes => bytes.map (b :: ·) := by
  obtain ⟨b, hb, -⟩ := fromHexPair_of_isBytePair h
  obtain ⟨hc, hd⟩ := utf8Size_of_isBytePair h
  refine ⟨b, hb, ?_⟩
  rw [hexPairs, if_neg (by omega), if_neg (by omega), if_neg (by omega), hb]

/-- Where the pairs end, the reading stops or panics. -/
theorem hexPairs_cons_of_not_isBytePair {c d : Char} {rest : List Char}
    (h : ¬ isBytePair c d = true) :
    hexPairs (c :: d :: rest) = if endsAtTwo (c :: d :: rest) then some none else none := by
  have hc := c.utf8Size_pos
  have hd := d.utf8Size_pos
  rw [hexPairs, fromHexPair_eq_none h]
  simp only [endsAtTwo, Bool.or_eq_true, Bool.and_eq_true, decide_eq_true_eq]
  split_ifs <;> first | rfl | omega

/-- **A panic**: the slice after the pairs ends inside a character. -/
theorem hexPairs_eq_none_iff (l : List Char) :
    hexPairs l = none ↔ endsAtTwo (afterPairs l) = false := by
  fun_induction afterPairs l with
  | case1 => simp [hexPairs, endsAtTwo]
  | case2 c =>
    rw [hexPairs, endsAtTwo, decide_eq_false_iff_not]
    split
    · rename_i h
      exact ⟨fun _ => by omega, fun _ => rfl⟩
    · rename_i h
      refine ⟨fun h' => ?_, fun h' => absurd (by omega) h⟩
      cases h'
  | case3 c d rest hpair ih =>
    obtain ⟨b, -, hrest⟩ := hexPairs_cons_of_isBytePair rest hpair
    rw [hrest, Option.map_eq_none_iff, ih]
  | case4 c d rest hpair =>
    rw [hexPairs_cons_of_not_isBytePair hpair]
    split <;> simp_all

/-- The pairs reach to the end of every text that is taken for bytes. -/
theorem afterPairs_of_hexPairs {l : List Char} {bytes : Bytes}
    (h : hexPairs l = some (some bytes)) : afterPairs l = [] := by
  fun_induction afterPairs l generalizing bytes with
  | case1 => rfl
  | case2 c =>
    rw [hexPairs] at h
    split at h <;> cases h
  | case3 c d rest hpair ih =>
    obtain ⟨b, -, hrest⟩ := hexPairs_cons_of_isBytePair rest hpair
    rw [hrest] at h
    obtain ⟨answer, hanswer, hmap⟩ := Option.map_eq_some_iff.mp h
    obtain ⟨bytes', rfl, -⟩ := Option.map_eq_some_iff.mp hmap
    exact ih hanswer
  | case4 c d rest hpair =>
    rw [hexPairs_cons_of_not_isBytePair hpair] at h
    split at h <;> cases h

theorem exists_hexPairs {l : List Char} (h : afterPairs l = []) :
    ∃ bytes, hexPairs l = some (some bytes) := by
  fun_induction afterPairs l with
  | case1 => exact ⟨[], rfl⟩
  | case2 c => nomatch h
  | case3 c d rest hpair ih =>
    obtain ⟨b, -, hrest⟩ := hexPairs_cons_of_isBytePair rest hpair
    obtain ⟨bytes, hbytes⟩ := ih h
    exact ⟨b :: bytes, by rw [hrest, hbytes]; rfl⟩
  | case4 c d rest hpair => nomatch h

/-- Without a sign, the bytes are what the text denotes. -/
theorem hexText_of_hexPairs {l : List Char} {bytes : Bytes}
    (h : hexPairs l = some (some bytes)) (hplus : '+' ∉ l) : HexText l bytes := by
  fun_induction afterPairs l generalizing bytes with
  | case1 =>
    cases h
    exact HexText.nil
  | case2 c =>
    rw [hexPairs] at h
    split at h <;> cases h
  | case3 c d rest hpair ih =>
    obtain ⟨b, hb, hdigits⟩ := fromHexPair_of_isBytePair hpair
    obtain ⟨b', hb', hrest⟩ := hexPairs_cons_of_isBytePair rest hpair
    obtain rfl : b = b' := Option.some.inj (hb.symm.trans hb')
    rw [hrest] at h
    obtain ⟨answer, hanswer, hmap⟩ := Option.map_eq_some_iff.mp h
    obtain ⟨bytes', rfl, rfl⟩ := Option.map_eq_some_iff.mp hmap
    have hc : c ≠ '+' := fun heq => hplus (heq ▸ List.mem_cons_self)
    have hrest : '+' ∉ rest := fun hmem =>
      hplus (List.mem_cons_of_mem c (List.mem_cons_of_mem d hmem))
    exact HexText.cons (hdigits hc).1 (hdigits hc).2 (ih hanswer hrest)
  | case4 c d rest hpair =>
    rw [hexPairs_cons_of_not_isBytePair hpair] at h
    split at h <;> cases h

theorem HexDigit.ne_plus {c : Char} {n : Nat} (h : HexDigit c n) : c ≠ '+' := by
  obtain ⟨hn, hc⟩ := h
  have hall : ∀ n < 16, n.digitChar ≠ '+' ∧ n.digitChar.toUpper ≠ '+' := by decide +kernel
  rcases hc with rfl | rfl
  · exact (hall n hn).1
  · exact (hall n hn).2

theorem HexText.not_mem_plus {l : List Char} {bytes : Bytes} (h : HexText l bytes) : '+' ∉ l := by
  induction h with
  | nil => exact List.not_mem_nil
  | cons hhigh hlow _ ih =>
    intro hmem
    rcases List.mem_cons.mp hmem with heq | hmem
    · exact hhigh.ne_plus heq.symm
    · rcases List.mem_cons.mp hmem with heq | hmem
      · exact hlow.ne_plus heq.symm
      · exact ih hmem

/-- `hex_decode` answers exactly on the texts it can slice. -/
theorem hexDecode_eq_none_iff (s : String) : hexDecode s = none ↔ hexSliceable s = false := by
  rw [hexDecode, hexSliceable, Bool.or_eq_false_iff, decide_eq_false_iff_not]
  split
  · rename_i heven
    rw [hexPairs_eq_none_iff]
    exact ⟨fun h => ⟨by omega, h⟩, fun h => h.2⟩
  · rename_i hodd
    refine ⟨fun h => ?_, fun h => absurd (by omega) h.1⟩
    cases h

/-- `hex_decode` takes a text for bytes if it has an even length and is one of pairs. -/
theorem hexDecode_eq_some_iff (s : String) : (∃ bytes, hexDecode s = some (some bytes)) ↔
    s.utf8ByteSize % 2 = 0 ∧ afterPairs s.toList = [] := by
  rw [hexDecode]
  split
  · rename_i heven
    constructor
    · rintro ⟨bytes, h⟩
      exact ⟨heven, afterPairs_of_hexPairs h⟩
    · rintro ⟨-, h⟩
      exact exists_hexPairs h
  · rename_i hodd
    refine ⟨?_, fun h => absurd h.1 hodd⟩
    rintro ⟨bytes, h⟩
    cases h

theorem hexText_of_hexDecode {s : String} {bytes : Bytes} (h : hexDecode s = some (some bytes))
    (hplus : '+' ∉ s.toList) : HexText s.toList bytes := by
  rw [hexDecode] at h
  split at h
  · exact hexText_of_hexPairs h hplus
  · cases h

theorem hexUnsigned_eq_false_iff (s : String) : hexUnsigned s = false ↔
    (s.utf8ByteSize % 2 = 0 ∧ afterPairs s.toList = []) ∧ '+' ∈ s.toList := by
  rw [hexUnsigned, Bool.or_eq_false_iff, Bool.or_eq_false_iff, decide_eq_false_iff_not]
  simp

/-- **Where `hex_decode` is exact**: no slice ends inside a character, and no sign is read. -/
theorem hexExact_iff (s : String) :
    HexExact s ↔ hexSliceable s = true ∧ hexUnsigned s = true := by
  constructor
  · rintro ⟨answer, hanswer, hexact⟩
    constructor
    · by_contra hcut
      rw [(hexDecode_eq_none_iff s).mpr (Bool.eq_false_iff.mpr hcut)] at hanswer
      nomatch hanswer
    · by_contra hsign
      obtain ⟨hpairs, hplus⟩ := (hexUnsigned_eq_false_iff s).mp (Bool.eq_false_iff.mpr hsign)
      obtain ⟨bytes, hbytes⟩ := (hexDecode_eq_some_iff s).mpr hpairs
      obtain rfl := Option.some.inj (hanswer.symm.trans hbytes)
      exact (hexact bytes rfl).not_mem_plus hplus
  · rintro ⟨hslice, hunsigned⟩
    cases hanswer : hexDecode s with
    | none =>
      rw [(hexDecode_eq_none_iff s).mp hanswer] at hslice
      nomatch hslice
    | some answer =>
      refine ⟨answer, hanswer, ?_⟩
      rintro bytes rfl
      refine hexText_of_hexDecode hanswer fun hplus => ?_
      have hpairs := (hexDecode_eq_some_iff s).mp ⟨bytes, hanswer⟩
      rw [(hexUnsigned_eq_false_iff s).mpr ⟨hpairs, hplus⟩] at hunsigned
      nomatch hunsigned

/-! ## The check of a token -/

namespace CsrfPlugin

section Tokens

variable [Hmac] [Base64Codec] [JsonCodec] (plugin : CsrfPlugin)

/-- The text that is decoded as the signature: the sign field, if the two fields before it are
    there and the token is not expired. -/
def signatureText (now : UInt64) (token : String) : Option String := do
  let parsed ← readToken token
  let (_, expires) ← tokenPair token
  if 0 < plugin.expires ∧ plugin.expires < elapsed now expires then none
  else (parsed.get "sign").bind Json.asStr

/-- A check panics exactly on a signature that is cut inside a character. -/
theorem checkToken_eq_none_iff (now : UInt64) (token : String) :
    plugin.checkToken now token = none ↔
      ∃ signature, plugin.signatureText now token = some signature ∧
        hexSliceable signature = false := by
  unfold checkToken signatureText tokenPair
  cases hparsed : readToken token with
  | none => simp
  | some parsed =>
    cases hrandom : (parsed.get "random").bind Json.asStr with
    | none => simp [hrandom]
    | some random =>
      cases hexpires : (parsed.get "expires").bind Json.asU64 with
      | none => simp [hrandom, hexpires]
      | some expires =>
        by_cases hold : 0 < plugin.expires ∧ plugin.expires < elapsed now expires
        · simp [hrandom, hexpires, hold]
        · cases hsign : (parsed.get "sign").bind Json.asStr with
          | none => simp [hrandom, hexpires, hold, hsign]
          | some signature =>
            simp [hrandom, hexpires, hold, hsign, hexDecode_eq_none_iff]

/-- **Hex text and tokens**: the decoder undoes the encoder; it is exact on the texts that
    `hexExact_iff` names; and a check answers on the tokens whose signature can be sliced. -/
theorem hex_exact_and_total_iff :
    (∀ bytes, hexDecode (hexEncode bytes) = some (some bytes)) ∧
    (∀ s, HexExact s ↔ hexSliceable s = true ∧ hexUnsigned s = true) ∧
    ∀ now token, (plugin.checkToken now token).isSome = true ↔
      ∀ signature, plugin.signatureText now token = some signature →
        hexSliceable signature = true := by
  refine ⟨hexDecode_hexEncode, hexExact_iff, fun now token => ?_⟩
  rw [← Option.ne_none_iff_isSome, ne_eq, checkToken_eq_none_iff]
  simp

end Tokens

/-- A sign is taken for a digit, and a letter of two bytes in the signature ends the check. -/
theorem sign_read_and_letter_cut :
    hexDecode "+5" = some (some [5]) ∧ ¬ HexExact "+5" ∧ hexDecode "aéb" = none ∧
    ∀ (_ : Hmac) (_ : Base64Codec) (_ : JsonCodec),
      twoHours.checkToken 0 (encodeToken "" 0 "aéb") = none := by
  have hcut : hexDecode "aéb" = none := by decide
  refine ⟨by decide, ?_, hcut, ?_⟩
  · rw [hexExact_iff]
    decide
  · intro _ _ _
    refine (twoHours.checkToken_eq_none_iff 0 _).mpr ⟨"aéb", ?_, by decide⟩
    rw [signatureText, tokenPair_encodeToken, readToken_encodeToken]
    rfl

end CsrfPlugin

end Featherbit
