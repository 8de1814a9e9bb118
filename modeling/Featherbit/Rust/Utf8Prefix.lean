/-
  THE LONGEST VALID PREFIX of a byte string (`core::str::Utf8Error`).

  1. **One character.**  The decoder reads the encoding of a character, and what it reads is one
     (`readUtf8Char_encode`, `exists_char_of_read`).  What it takes for a cut character can be completed to
     one, and nothing else can (`readUtf8Char_cut_iff`).

  2. **A text.**  A byte string is a text, or it is a text with something after it that is no character
     (`utf8Error_spec`); and then every text it begins with is the beginning of that one (`prefix_of_text`).

  3. **With replacements.**  Where an ASCII character stands, a byte string is read in two parts
     (`fromUtf8Lossy_append_ascii`).
-/
import Mathlib
import Featherbit.Rust.Utf8

namespace Featherbit

open String (utf8EncodeChar)

/-! ## Bytes by their values -/

/-- The encoding of a scalar value. -/
def encodeNat (v : Nat) : Bytes :=
  if v ≤ 0x7f then [UInt8.ofNat v]
  else if v ≤ 0x7ff then [UInt8.ofNat (v / 64 % 0x20 + 0xc0), UInt8.ofNat (v % 0x40 + 0x80)]
  else if v ≤ 0xffff then
    [UInt8.ofNat (v / 4096 % 0x10 + 0xe0), UInt8.ofNat (v / 64 % 0x40 + 0x80),
      UInt8.ofNat (v % 0x40 + 0x80)]
  else
    [UInt8.ofNat (v / 262144 % 0x08 + 0xf0), UInt8.ofNat (v / 4096 % 0x40 + 0x80),
      UInt8.ofNat (v / 64 % 0x40 + 0x80), UInt8.ofNat (v % 0x40 + 0x80)]

theorem utf8EncodeChar_eq (c : Char) : utf8EncodeChar c = encodeNat c.toNat := rfl

/-- A scalar value. -/
def IsScalar (v : Nat) : Prop := v < 0xd800 ∨ 0xdfff < v ∧ v < 0x110000

theorem isScalar_toNat (c : Char) : IsScalar c.toNat := c.valid

theorem exists_char {v : Nat} (h : IsScalar v) : ∃ c : Char, c.toNat = v := by
  have hlt : v < 2 ^ 32 := by
    rcases h with h | h
    · omega
    · omega
  refine ⟨⟨UInt32.ofNat v, ?_⟩, ?_⟩
  · show Nat.isValidChar (UInt32.ofNat v).toNat
    rw [UInt32.toNat_ofNat_of_lt' hlt]
    exact h
  · exact UInt32.toNat_ofNat_of_lt' hlt

theorem utf8Width_ofNat : ∀ n < 256, utf8Width (UInt8.ofNat n) =
    if n < 128 then 1 else if 194 ≤ n ∧ n ≤ 223 then 2 else if 224 ≤ n ∧ n ≤ 239 then 3
    else if 240 ≤ n ∧ n ≤ 244 then 4 else 0 := by
  decide +kernel

theorem isContinuation_ofNat : ∀ n < 256, isContinuation (UInt8.ofNat n) =
    decide (128 ≤ n ∧ n ≤ 191) := by
  decide +kernel

/-- The least and the greatest second byte after a first one. -/
def secondRange (first : Nat) : Nat × Nat :=
  if first = 224 then (160, 191) else if first = 237 then (128, 159)
  else if first = 240 then (144, 191) else if first = 244 then (128, 143) else (128, 191)

theorem ofNat_inj {m n : Nat} (hm : m < 256) (hn : n < 256) : UInt8.ofNat m = UInt8.ofNat n ↔ m = n := by
  rw [← UInt8.toNat_inj, UInt8.toNat_ofNat_of_lt' hm, UInt8.toNat_ofNat_of_lt' hn]

theorem ofNat_le {m n : Nat} (hm : m < 256) (hn : n < 256) : UInt8.ofNat m ≤ UInt8.ofNat n ↔ m ≤ n := by
  rw [UInt8.le_iff_toNat_le, UInt8.toNat_ofNat_of_lt' hm, UInt8.toNat_ofNat_of_lt' hn]

theorem secondByteOk_ofNat {first second : Nat} (hfirst : first < 256) (hsecond : second < 256) :
    secondByteOk (UInt8.ofNat first) (UInt8.ofNat second) =
      decide ((secondRange first).1 ≤ second ∧ second ≤ (secondRange first).2) := by
  have hrange : ∀ lo hi : Nat, lo < 256 → hi < 256 →
      (decide (UInt8.ofNat lo ≤ UInt8.ofNat second) && decide (UInt8.ofNat second ≤ UInt8.ofNat hi)) =
        decide (lo ≤ second ∧ second ≤ hi) := by
    intro lo hi hlo hhi
    rw [Bool.decide_and, decide_eq_decide.mpr (ofNat_le hlo hsecond),
      decide_eq_decide.mpr (ofNat_le hsecond hhi)]
  unfold secondByteOk secondRange
  rw [show (0xE0 : UInt8) = UInt8.ofNat 224 from rfl, show (0xED : UInt8) = UInt8.ofNat 237 from rfl,
    show (0xF0 : UInt8) = UInt8.ofNat 240 from rfl, show (0xF4 : UInt8) = UInt8.ofNat 244 from rfl]
  simp only [ofNat_inj hfirst (show 224 < 256 by decide), ofNat_inj hfirst (show 237 < 256 by decide),
    ofNat_inj hfirst (show 240 < 256 by decide), ofNat_inj hfirst (show 244 < 256 by decide)]
  split
  · exact hrange 160 191 (by decide) (by decide)
  split
  · exact hrange 128 159 (by decide) (by decide)
  split
  · exact hrange 144 191 (by decide) (by decide)
  split
  · exact hrange 128 143 (by decide) (by decide)
  · exact hrange 128 191 (by decide) (by decide)

/-! ## One character -/

/-- Good continuation bytes are passed over. -/
theorem readContinuation_of_good (conts : Bytes) (h : ∀ b ∈ conts, isContinuation b = true) (done : Nat)
    (rest : Bytes) : readContinuation conts.length done (conts ++ rest) = .ok rest := by
  induction conts generalizing done with
  | nil => rfl
  | cons b conts ih =>
    show (if isContinuation b then readContinuation conts.length (done + 1) (conts ++ rest)
      else .error (some done)) = _
    rw [if_pos (h b List.mem_cons_self), ih fun c hc => h c (List.mem_cons_of_mem _ hc)]

theorem good_of_readContinuation {n done : Nat} {bs rest : Bytes}
    (h : readContinuation n done bs = .ok rest) :
    ∃ conts, conts.length = n ∧ bs = conts ++ rest ∧ ∀ b ∈ conts, isContinuation b = true := by
  induction n generalizing done bs with
  | zero =>
    obtain rfl := Except.ok.inj h
    exact ⟨[], rfl, rfl, fun b hb => nomatch hb⟩
  | succ n ih =>
    cases bs with
    | nil => nomatch h
    | cons b bs =>
      unfold readContinuation at h
      split at h
      · rename_i hb
        obtain ⟨conts, hlength, rfl, hgood⟩ := ih h
        refine ⟨b :: conts, by rw [List.length_cons, hlength], rfl, fun c hc => ?_⟩
        rcases List.mem_cons.mp hc with rfl | hc
        · exact hb
        · exact hgood c hc
      · nomatch h

theorem exists_ofNat (b : UInt8) : ∃ n < 256, b = UInt8.ofNat n :=
  ⟨b.toNat, b.toNat_lt, UInt8.ofNat_toNat.symm⟩

theorem isContinuation_of_range {n : Nat} (hlo : 128 ≤ n) (hhi : n ≤ 191) :
    isContinuation (UInt8.ofNat n) = true := by
  rw [isContinuation_ofNat n (by omega)]
  exact decide_eq_true ⟨hlo, hhi⟩

theorem readUtf8Char_one {first : UInt8} (h : utf8Width first = 1) (rest : Bytes) :
    readUtf8Char (first :: rest) = .ok rest := by
  unfold readUtf8Char
  dsimp only
  rw [h]

theorem readUtf8Char_more {first : UInt8} {w : Nat} (h : utf8Width first = w + 2) (second : UInt8)
    (rest : Bytes) : readUtf8Char (first :: second :: rest) =
      if secondByteOk first second then readContinuation w 2 rest else .error (some 1) := by
  unfold readUtf8Char
  dsimp only
  rw [h]

/-- A lead byte, a second byte it allows, and good continuation bytes. -/
theorem readUtf8Char_of_good {first second : Nat} (conts rest : Bytes)
    (hwidth : utf8Width (UInt8.ofNat first) = conts.length + 2) (hfirst : first < 256)
    (hsecond : (secondRange first).1 ≤ second ∧ second ≤ (secondRange first).2) (hlt : second < 256)
    (hconts : ∀ b ∈ conts, isContinuation b = true) :
    readUtf8Char (UInt8.ofNat first :: UInt8.ofNat second :: (conts ++ rest)) = .ok rest := by
  rw [readUtf8Char_more hwidth, secondByteOk_ofNat hfirst hlt, decide_eq_true hsecond, if_pos rfl,
    readContinuation_of_good conts hconts]

/-- The encoding of a character is read. -/
theorem readUtf8Char_encode (c : Char) (rest : Bytes) :
    readUtf8Char (utf8EncodeChar c ++ rest) = .ok rest := by
  rw [utf8EncodeChar_eq]
  have hv := isScalar_toNat c
  generalize c.toNat = v at hv
  unfold encodeNat
  unfold IsScalar at hv
  split
  · rename_i hone
    show readUtf8Char (UInt8.ofNat v :: rest) = _
    exact readUtf8Char_one (by rw [utf8Width_ofNat v (by omega), if_pos (by omega)]) rest
  split
  · refine readUtf8Char_of_good [] rest ?_ (by omega) ?_ (by omega)
      (fun b hb => nomatch hb)
    · rw [utf8Width_ofNat _ (by omega), if_neg (by omega), if_pos (by omega)]
      rfl
    · unfold secondRange
      split_ifs <;> dsimp only <;> omega
  split
  · refine readUtf8Char_of_good [_] rest ?_ (by omega) ?_ (by omega)
      (fun b hb => ?_)
    · rw [utf8Width_ofNat _ (by omega), if_neg (by omega), if_neg (by omega), if_pos (by omega)]
      rfl
    · unfold secondRange
      split_ifs <;> dsimp only <;> omega
    · rw [List.mem_singleton.mp hb]
      exact isContinuation_of_range (by omega) (by omega)
  · refine readUtf8Char_of_good [_, _] rest ?_ (by omega) ?_ (by omega)
      (fun b hb => ?_)
    · rw [utf8Width_ofNat _ (by omega), if_neg (by omega), if_neg (by omega), if_neg (by omega),
        if_pos (by omega)]
      rfl
    · unfold secondRange
      split_ifs <;> dsimp only <;> omega
    · rcases List.mem_cons.mp hb with rfl | hb
      · exact isContinuation_of_range (by omega) (by omega)
      · rw [List.mem_singleton.mp hb]
        exact isContinuation_of_range (by omega) (by omega)

/-- The two bytes of a value. -/
theorem encodeNat_two {a b : Nat} (ha : 194 ≤ a ∧ a ≤ 223) (hb : 128 ≤ b ∧ b ≤ 191) :
    ∃ v, IsScalar v ∧ encodeNat v = [UInt8.ofNat a, UInt8.ofNat b] := by
  obtain ⟨v, hv⟩ : ∃ v, v = (a - 192) * 64 + (b - 128) := ⟨_, rfl⟩
  have h1 : v / 64 % 0x20 + 0xc0 = a := by omega
  have h2 : v % 0x40 + 0x80 = b := by omega
  refine ⟨v, Or.inl (by omega), ?_⟩
  unfold encodeNat
  rw [if_neg (by omega), if_pos (by omega), h1, h2]

theorem secondRange_three {a b : Nat} (ha : 224 ≤ a ∧ a ≤ 239)
    (hb : (secondRange a).1 ≤ b ∧ b ≤ (secondRange a).2) :
    128 ≤ b ∧ b ≤ 191 ∧ (a = 224 → 160 ≤ b) ∧ (a = 237 → b ≤ 159) := by
  unfold secondRange at hb
  split_ifs at hb
  all_goals
    dsimp only at hb
    omega

theorem secondRange_four {a b : Nat} (ha : 240 ≤ a ∧ a ≤ 244)
    (hb : (secondRange a).1 ≤ b ∧ b ≤ (secondRange a).2) :
    128 ≤ b ∧ b ≤ 191 ∧ (a = 240 → 144 ≤ b) ∧ (a = 244 → b ≤ 143) := by
  unfold secondRange at hb
  split_ifs at hb
  all_goals
    dsimp only at hb
    omega

/-- The three bytes of a value: no overlong form, no surrogate. -/
theorem encodeNat_three {a b c : Nat} (ha : 224 ≤ a ∧ a ≤ 239)
    (hb : (secondRange a).1 ≤ b ∧ b ≤ (secondRange a).2) (hc : 128 ≤ c ∧ c ≤ 191) :
    ∃ v, IsScalar v ∧ encodeNat v = [UInt8.ofNat a, UInt8.ofNat b, UInt8.ofNat c] := by
  have hrange := secondRange_three ha hb
  clear hb
  obtain ⟨v, hv⟩ : ∃ v, v = (a - 224) * 4096 + (b - 128) * 64 + (c - 128) := ⟨_, rfl⟩
  have h1 : v / 4096 % 0x10 + 0xe0 = a := by omega
  have h2 : v / 64 % 0x40 + 0x80 = b := by omega
  have h3 : v % 0x40 + 0x80 = c := by omega
  refine ⟨v, ?_, ?_⟩
  · unfold IsScalar
    omega
  · unfold encodeNat
    rw [if_neg (by omega), if_neg (by omega), if_pos (by omega), h1, h2, h3]

/-- The four bytes of a value: no overlong form, nothing above U+10FFFF. -/
theorem encodeNat_four {a b c d : Nat} (ha : 240 ≤ a ∧ a ≤ 244)
    (hb : (secondRange a).1 ≤ b ∧ b ≤ (secondRange a).2) (hc : 128 ≤ c ∧ c ≤ 191)
    (hd : 128 ≤ d ∧ d ≤ 191) :
    ∃ v, IsScalar v ∧
      encodeNat v = [UInt8.ofNat a, UInt8.ofNat b, UInt8.ofNat c, UInt8.ofNat d] := by
  have hrange := secondRange_four ha hb
  clear hb
  obtain ⟨v, hv⟩ : ∃ v, v = (a - 240) * 262144 + (b - 128) * 4096 + (c - 128) * 64 + (d - 128) :=
    ⟨_, rfl⟩
  have h1 : v / 262144 % 0x08 + 0xf0 = a := by omega
  have h2 : v / 4096 % 0x40 + 0x80 = b := by omega
  have h3 : v / 64 % 0x40 + 0x80 = c := by omega
  have h4 : v % 0x40 + 0x80 = d := by omega
  refine ⟨v, ?_, ?_⟩
  · unfold IsScalar
    omega
  · unfold encodeNat
    rw [if_neg (by omega), if_neg (by omega), if_neg (by omega), h1, h2, h3, h4]

/-- A good continuation byte, by its value. -/
theorem exists_continuation {byte : UInt8} (h : isContinuation byte = true) :
    ∃ n, (128 ≤ n ∧ n ≤ 191) ∧ byte = UInt8.ofNat n := by
  obtain ⟨n, hn, rfl⟩ := exists_ofNat byte
  rw [isContinuation_ofNat n hn] at h
  exact ⟨n, of_decide_eq_true h, rfl⟩

/-- What is read is the encoding of a character. -/
theorem exists_char_of_read {bs rest : Bytes} (h : readUtf8Char bs = .ok rest) :
    ∃ c, bs = utf8EncodeChar c ++ rest := by
  -- it is enough to find the value
  have hvalue : ∀ {bytes : Bytes}, (∃ v, IsScalar v ∧ encodeNat v = bytes) →
      ∃ c, bytes ++ rest = utf8EncodeChar c ++ rest := by
    rintro _ ⟨v, hv, rfl⟩
    obtain ⟨c, rfl⟩ := exists_char hv
    exact ⟨c, rfl⟩
  cases bs with
  | nil => nomatch h
  | cons first more =>
  obtain ⟨a, ha, rfl⟩ := exists_ofNat first
  have hwidth := utf8Width_ofNat a ha
  by_cases hone : a < 128
  · rw [if_pos hone] at hwidth
    rw [readUtf8Char_one hwidth] at h
    obtain rfl := Except.ok.inj h
    refine hvalue (show ∃ v, IsScalar v ∧ encodeNat v = [_] from ⟨a, Or.inl (by omega), ?_⟩)
    unfold encodeNat
    rw [if_pos (by omega)]
  rw [if_neg hone] at hwidth
  cases more with
  | nil =>
    exfalso
    unfold readUtf8Char at h
    dsimp only at h
    split at h
    · nomatch h
    · rename_i hw
      rw [hw] at hwidth
      split_ifs at hwidth
      all_goals omega
    · nomatch h
  | cons second more =>
  obtain ⟨b, hb, rfl⟩ := exists_ofNat second
  have hread : ∀ {w : Nat}, utf8Width (UInt8.ofNat a) = w + 2 →
      ((secondRange a).1 ≤ b ∧ b ≤ (secondRange a).2) ∧ ∃ conts, conts.length = w ∧
        more = conts ++ rest ∧ ∀ byte ∈ conts, isContinuation byte = true := by
    intro w hw
    rw [readUtf8Char_more hw, secondByteOk_ofNat ha hb] at h
    split at h
    · rename_i hsecond
      exact ⟨of_decide_eq_true hsecond, good_of_readContinuation h⟩
    · nomatch h
  by_cases htwo : 194 ≤ a ∧ a ≤ 223
  · rw [if_pos htwo] at hwidth
    obtain ⟨hsecond, conts, hlength, rfl, -⟩ := hread hwidth
    obtain rfl := List.eq_nil_of_length_eq_zero hlength
    refine hvalue (encodeNat_two htwo ?_)
    unfold secondRange at hsecond
    split_ifs at hsecond <;> dsimp only at hsecond <;> omega
  rw [if_neg htwo] at hwidth
  by_cases hthree : 224 ≤ a ∧ a ≤ 239
  · rw [if_pos hthree] at hwidth
    obtain ⟨hsecond, conts, hlength, rfl, hgood⟩ := hread hwidth
    obtain ⟨third, rfl⟩ := List.length_eq_one_iff.mp hlength
    obtain ⟨c, hc, rfl⟩ := exists_continuation (hgood third List.mem_cons_self)
    exact hvalue (encodeNat_three hthree hsecond hc)
  rw [if_neg hthree] at hwidth
  by_cases hfour : 240 ≤ a ∧ a ≤ 244
  · rw [if_pos hfour] at hwidth
    obtain ⟨hsecond, conts, hlength, rfl, hgood⟩ := hread hwidth
    obtain ⟨third, fourth, rfl⟩ := List.length_eq_two.mp hlength
    obtain ⟨c, hc, rfl⟩ := exists_continuation (hgood third (by simp))
    obtain ⟨d, hd, rfl⟩ := exists_continuation (hgood fourth (by simp))
    exact hvalue (encodeNat_four hfour hsecond hc hd)
  · rw [if_neg hfour] at hwidth
    unfold readUtf8Char at h
    dsimp only at h
    rw [hwidth] at h
    nomatch h

/-- More bytes do not change what is read. -/
theorem readUtf8Char_append {bs rest : Bytes} (h : readUtf8Char bs = .ok rest) (more : Bytes) :
    readUtf8Char (bs ++ more) = .ok (rest ++ more) := by
  obtain ⟨c, rfl⟩ := exists_char_of_read h
  rw [List.append_assoc, readUtf8Char_encode]

theorem readContinuation_invalid {n done len : Nat} {bs : Bytes}
    (h : readContinuation n done bs = .error (some len)) (more : Bytes) :
    readContinuation n done (bs ++ more) = .error (some len) := by
  induction n generalizing done bs with
  | zero => nomatch h
  | succ n ih =>
    cases bs with
    | nil => nomatch h
    | cons b bs =>
      unfold readContinuation at h
      show (if isContinuation b then readContinuation n (done + 1) (bs ++ more)
        else .error (some done)) = _
      split at h
      · rename_i hb
        rw [if_pos hb]
        exact ih h
      · rename_i hb
        rw [if_neg hb]
        exact h

/-- An invalid byte stays one. -/
theorem readUtf8Char_invalid {bs : Bytes} {len : Nat} (h : readUtf8Char bs = .error (some len))
    (more : Bytes) : readUtf8Char (bs ++ more) = .error (some len) := by
  cases bs with
  | nil => nomatch h
  | cons first bs =>
    unfold readUtf8Char at h
    show readUtf8Char (first :: (bs ++ more)) = _
    unfold readUtf8Char
    dsimp only at h ⊢
    split at h
    · exact h
    · nomatch h
    · cases bs with
      | nil => nomatch h
      | cons second bs =>
        dsimp only [List.cons_append] at h ⊢
        split at h
        · rename_i hsecond
          rw [if_pos hsecond]
          exact readContinuation_invalid h more
        · rename_i hsecond
          rw [if_neg hsecond]
          exact h

/-- Good continuation bytes, and too few of them. -/
theorem cut_of_readContinuation {n done : Nat} {bs : Bytes}
    (h : readContinuation n done bs = .error none) :
    bs.length < n ∧ ∀ b ∈ bs, isContinuation b = true := by
  induction n generalizing done bs with
  | zero => nomatch h
  | succ n ih =>
    cases bs with
    | nil => exact ⟨Nat.zero_lt_succ n, fun b hb => nomatch hb⟩
    | cons b bs =>
      unfold readContinuation at h
      split at h
      · rename_i hb
        obtain ⟨hlength, hgood⟩ := ih h
        refine ⟨Nat.succ_lt_succ hlength, fun c hc => ?_⟩
        rcases List.mem_cons.mp hc with rfl | hc
        · exact hb
        · exact hgood c hc
      · nomatch h

/-- A cut character can be completed. -/
theorem exists_completion {bs : Bytes} (hne : bs ≠ []) (h : readUtf8Char bs = .error none) :
    ∃ more, more ≠ [] ∧ readUtf8Char (bs ++ more) = .ok [] := by
  have hfill : isContinuation 0x80 = true := by decide
  cases bs with
  | nil => exact absurd rfl hne
  | cons first bs =>
  unfold readUtf8Char at h
  dsimp only at h
  split at h
  · nomatch h
  · nomatch h
  · rename_i w hw
    cases bs with
    | nil =>
      -- the least second byte, and continuation bytes
      obtain ⟨a, ha, rfl⟩ := exists_ofNat first
      have hrange : (secondRange a).1 ≤ (secondRange a).2 ∧ (secondRange a).1 < 256 := by
        unfold secondRange
        split_ifs
        all_goals decide
      refine ⟨UInt8.ofNat (secondRange a).1 :: List.replicate w 0x80, List.cons_ne_nil _ _, ?_⟩
      have hread := readUtf8Char_of_good (List.replicate w 0x80) []
        (by rw [List.length_replicate]; exact hw) ha ⟨Nat.le_refl _, hrange.1⟩ hrange.2
        (fun b hb => by rw [List.eq_of_mem_replicate hb]; exact hfill)
      rwa [List.append_nil] at hread
    | cons second bs =>
      dsimp only at h
      split at h
      · rename_i hsecond
        obtain ⟨hlength, hgood⟩ := cut_of_readContinuation h
        refine ⟨List.replicate (w - bs.length) 0x80, ?_, ?_⟩
        · intro hnil
          have hzero := congrArg List.length hnil
          rw [List.length_replicate, List.length_nil] at hzero
          omega
        · show readUtf8Char (first :: second :: (bs ++ _)) = _
          rw [readUtf8Char_more hw, if_pos hsecond]
          have hconts := readContinuation_of_good
            (bs ++ List.replicate (w - bs.length) 0x80) (fun b hb => by
              rcases List.mem_append.mp hb with hb | hb
              · exact hgood b hb
              · rw [List.eq_of_mem_replicate hb]
                exact hfill) 2 []
          rw [List.length_append, List.length_replicate, List.append_nil,
            Nat.add_sub_cancel' (Nat.le_of_lt hlength)] at hconts
          exact hconts
      · nomatch h

/-- **Cut.**  What reads as a cut character is the beginning of one, and not all of it. -/
theorem readUtf8Char_cut_iff {bs : Bytes} (hne : bs ≠ []) : readUtf8Char bs = .error none ↔
    ∃ c more, more ≠ [] ∧ utf8EncodeChar c = bs ++ more := by
  constructor
  · intro h
    obtain ⟨more, hmore, hread⟩ := exists_completion hne h
    obtain ⟨c, hc⟩ := exists_char_of_read hread
    rw [List.append_nil] at hc
    exact ⟨c, more, hmore, hc.symm⟩
  · rintro ⟨c, more, hmore, hc⟩
    have hread := readUtf8Char_encode c []
    rw [List.append_nil, hc] at hread
    cases h : readUtf8Char bs with
    | ok rest =>
      rw [readUtf8Char_append h] at hread
      exact absurd (List.append_eq_nil_iff.mp (Except.ok.inj hread)).2 hmore
    | error e =>
      cases e with
      | none => rfl
      | some len =>
        rw [readUtf8Char_invalid h] at hread
        nomatch hread

/-! ## A text -/

theorem asBytes_ofList (l : List Char) : asBytes (String.ofList l) = l.flatMap utf8EncodeChar := by
  show (String.ofList l).toByteArray.data.toList = _
  rw [String.toByteArray_ofList, List.utf8Encode, List.data_toByteArray, List.toList_toArray]

/-- The error of a byte string: a text, and what is no character after it. -/
theorem utf8ErrorFrom_spec (fuel pos : Nat) (bs : Bytes) (hfuel : bs.length ≤ fuel) :
    (∃ l : List Char, bs = l.flatMap utf8EncodeChar ∧ utf8ErrorFrom fuel pos bs = none) ∨
    ∃ (l : List Char) (rest : Bytes) (e : Option Nat), bs = l.flatMap utf8EncodeChar ++ rest ∧
      rest ≠ [] ∧ readUtf8Char rest = .error e ∧
      utf8ErrorFrom fuel pos bs = some ⟨pos + (l.flatMap utf8EncodeChar).length, e⟩ := by
  induction fuel generalizing pos bs with
  | zero =>
    obtain rfl := List.eq_nil_of_length_eq_zero (Nat.le_zero.mp hfuel)
    exact Or.inl ⟨[], rfl, rfl⟩
  | succ fuel ih =>
    cases bs with
    | nil => exact Or.inl ⟨[], rfl, rfl⟩
    | cons b bs =>
      cases hread : readUtf8Char (b :: bs) with
      | error e =>
        have hfirst : utf8ErrorFrom (fuel + 1) pos (b :: bs) = some ⟨pos, e⟩ := by
          rw [utf8ErrorFrom, hread]
        exact Or.inr ⟨[], b :: bs, e, rfl, List.cons_ne_nil _ _, hread, hfirst⟩
      | ok rest =>
        have hfirst : utf8ErrorFrom (fuel + 1) pos (b :: bs) =
            utf8ErrorFrom fuel (pos + ((b :: bs).length - rest.length)) rest := by
          rw [utf8ErrorFrom, hread]
        obtain ⟨c, hc⟩ := exists_char_of_read hread
        have hpos : 0 < (utf8EncodeChar c).length := by
          rw [String.length_utf8EncodeChar]
          exact Char.utf8Size_pos c
        have hlength : (b :: bs).length = (utf8EncodeChar c).length + rest.length := by
          rw [hc, List.length_append]
        rw [hfirst]
        rcases ih (pos + ((b :: bs).length - rest.length)) rest (by omega) with
          ⟨l, hl, hnone⟩ | ⟨l, tail, e, hl, hne, he, hsome⟩
        · exact Or.inl ⟨c :: l, by rw [List.flatMap_cons, ← hl, hc], hnone⟩
        · refine Or.inr ⟨c :: l, tail, e, ?_, hne, he, ?_⟩
          · rw [List.flatMap_cons, List.append_assoc, ← hl, hc]
          · rw [hsome, List.flatMap_cons, List.length_append, hlength]
            congr 2
            omega

/-- What a byte string begins with, up to what is no character. -/
theorem prefix_of_read {rest : Bytes} {e : Option Nat} (hrest : readUtf8Char rest = .error e)
    (l l' : List Char) (h : l'.flatMap utf8EncodeChar <+: l.flatMap utf8EncodeChar ++ rest) :
    l'.flatMap utf8EncodeChar <+: l.flatMap utf8EncodeChar := by
  induction l generalizing l' with
  | nil =>
    cases l' with
    | nil => exact List.nil_prefix
    | cons c l' =>
      exfalso
      obtain ⟨more, hmore⟩ := h
      rw [List.flatMap_cons, List.append_assoc] at hmore
      have hread := readUtf8Char_encode c (l'.flatMap utf8EncodeChar ++ more)
      rw [hmore] at hread
      exact absurd (hread.symm.trans hrest) (fun h => nomatch h)
  | cons c l ih =>
    cases l' with
    | nil => exact List.nil_prefix
    | cons c' l' =>
      obtain ⟨more, hmore⟩ := h
      rw [List.flatMap_cons, List.flatMap_cons, List.append_assoc, List.append_assoc] at hmore
      have hread := readUtf8Char_encode c' (l'.flatMap utf8EncodeChar ++ more)
      rw [hmore, readUtf8Char_encode] at hread
      have htail := Except.ok.inj hread
      rw [htail] at hmore
      have hchar := List.append_cancel_right hmore
      obtain ⟨rest', hrest'⟩ := ih l' ⟨more, htail.symm⟩
      exact ⟨rest', by rw [List.flatMap_cons, List.flatMap_cons, List.append_assoc, hrest', hchar]⟩

theorem asBytes_eq (s : String) : asBytes s = s.toList.flatMap utf8EncodeChar := by
  rw [← asBytes_ofList, String.ofList_toList]

/-- The error of a byte string. -/
theorem utf8Error_spec (bs : Bytes) : (∃ s, bs = asBytes s ∧ utf8Error bs = none) ∨
    ∃ s rest e, bs = asBytes s ++ rest ∧ rest ≠ [] ∧ readUtf8Char rest = .error e ∧
      utf8Error bs = some ⟨(asBytes s).length, e⟩ := by
  rcases utf8ErrorFrom_spec bs.length 0 bs (Nat.le_refl _) with ⟨l, hl, hnone⟩ |
    ⟨l, rest, e, hl, hne, hread, hsome⟩
  · exact Or.inl ⟨String.ofList l, by rw [asBytes_ofList, ← hl], hnone⟩
  · refine Or.inr ⟨String.ofList l, rest, e, by rw [asBytes_ofList, ← hl], hne, hread, ?_⟩
    rw [asBytes_ofList]
    exact hsome.trans (by rw [Nat.zero_add])

/-- **The longest text.**  Every text that a byte string begins with is the beginning of the one up to what
    is no character. -/
theorem prefix_of_text {rest : Bytes} {e : Option Nat} (hrest : readUtf8Char rest = .error e)
    {s s' : String} (h : asBytes s' <+: asBytes s ++ rest) : asBytes s' <+: asBytes s := by
  rw [asBytes_eq, asBytes_eq] at h ⊢
  exact prefix_of_read hrest _ _ h

/-- A text and what is no character are told apart in one way. -/
theorem text_unique {s s' : String} {rest rest' : Bytes} {e e' : Option Nat}
    (hrest : readUtf8Char rest = .error e) (hrest' : readUtf8Char rest' = .error e')
    (h : asBytes s ++ rest = asBytes s' ++ rest') : s = s' ∧ rest = rest' := by
  have hle : asBytes s' <+: asBytes s := prefix_of_text hrest (h ▸ List.prefix_append _ _)
  have hge : asBytes s <+: asBytes s' := prefix_of_text hrest' (h ▸ List.prefix_append _ _)
  have heq := asBytes_inj.mp (hge.eq_of_length (Nat.le_antisymm hge.length_le hle.length_le))
  subst heq
  exact ⟨rfl, List.append_cancel_left h⟩

/-! ## ASCII characters -/

theorem utf8EncodeChar_ascii {c : Char} (hc : c.toNat < 128) :
    utf8EncodeChar c = [UInt8.ofNat c.toNat] := by
  rw [utf8EncodeChar_eq, encodeNat, if_pos (by omega)]

/-- The byte of an ASCII character is in no other one. -/
theorem mem_utf8EncodeChar_iff {c d : Char} (hc : c.toNat < 128) :
    UInt8.ofNat c.toNat ∈ utf8EncodeChar d ↔ d = c := by
  constructor
  · intro h
    rw [utf8EncodeChar_eq, encodeNat] at h
    have hvalid := isScalar_toNat d
    unfold IsScalar at hvalid
    split at h
    · rw [List.mem_singleton, ofNat_inj (by omega) (by omega)] at h
      exact Char.toNat_inj.mp h.symm
    split at h
    · simp only [List.mem_cons, List.not_mem_nil, or_false] at h
      rcases h with h | h
      · rw [ofNat_inj (by omega) (by omega)] at h
        omega
      · rw [ofNat_inj (by omega) (by omega)] at h
        omega
    split at h
    · simp only [List.mem_cons, List.not_mem_nil, or_false] at h
      rcases h with h | h | h
      · rw [ofNat_inj (by omega) (by omega)] at h
        omega
      · rw [ofNat_inj (by omega) (by omega)] at h
        omega
      · rw [ofNat_inj (by omega) (by omega)] at h
        omega
    · simp only [List.mem_cons, List.not_mem_nil, or_false] at h
      rcases h with h | h | h | h
      · rw [ofNat_inj (by omega) (by omega)] at h
        omega
      · rw [ofNat_inj (by omega) (by omega)] at h
        omega
      · rw [ofNat_inj (by omega) (by omega)] at h
        omega
      · rw [ofNat_inj (by omega) (by omega)] at h
        omega
  · rintro rfl
    rw [utf8EncodeChar_ascii hc]
    exact List.mem_cons_self

theorem mem_asBytes_iff {c : Char} (hc : c.toNat < 128) (s : String) :
    UInt8.ofNat c.toNat ∈ asBytes s ↔ c ∈ s.toList := by
  rw [asBytes_eq, List.mem_flatMap]
  constructor
  · rintro ⟨d, hd, hmem⟩
    exact (mem_utf8EncodeChar_iff hc).mp hmem ▸ hd
  · intro h
    exact ⟨c, h, (mem_utf8EncodeChar_iff hc).mpr rfl⟩

theorem head_asBytes_iff {c : Char} (hc : c.toNat < 128) (s : String) :
    (asBytes s).head? = some (UInt8.ofNat c.toNat) ↔ s.toList.head? = some c := by
  rw [asBytes_eq]
  cases s.toList with
  | nil => exact iff_of_false nofun nofun
  | cons d l =>
    rw [List.flatMap_cons, List.head?_cons, Option.some.injEq]
    constructor
    · intro h
      refine (mem_utf8EncodeChar_iff hc).mp ?_
      have hpos : utf8EncodeChar d ≠ [] := by
        intro hnil
        have hsize := Char.utf8Size_pos d
        rw [← String.length_utf8EncodeChar, hnil] at hsize
        exact absurd hsize (Nat.lt_irrefl 0)
      rw [List.head?_append_of_ne_nil _ hpos] at h
      exact List.mem_of_head? h
    · rintro rfl
      rw [utf8EncodeChar_ascii hc]
      rfl

/-! ## Read with replacements -/

theorem readContinuation_len {n done len : Nat} {bs : Bytes}
    (h : readContinuation n done bs = .error (some len)) : done ≤ len ∧ len < done + bs.length := by
  induction n generalizing done bs with
  | zero => nomatch h
  | succ n ih =>
    cases bs with
    | nil => nomatch h
    | cons b bs =>
      unfold readContinuation at h
      rw [List.length_cons]
      split at h
      · have hrest := ih h
        omega
      · obtain rfl := Option.some.inj (Except.error.inj h)
        omega

/-- What is replaced is there. -/
theorem readUtf8Char_len {bs : Bytes} {len : Nat} (h : readUtf8Char bs = .error (some len)) :
    0 < len ∧ len ≤ bs.length := by
  cases bs with
  | nil => nomatch h
  | cons first bs =>
    unfold readUtf8Char at h
    dsimp only at h
    rw [List.length_cons]
    split at h
    · obtain rfl := Option.some.inj (Except.error.inj h)
      omega
    · nomatch h
    · cases bs with
      | nil => nomatch h
      | cons second bs =>
        dsimp only at h
        rw [List.length_cons]
        split at h
        · have hlen := readContinuation_len h
          omega
        · obtain rfl := Option.some.inj (Except.error.inj h)
          omega

theorem readUtf8Char_length_lt {bs rest : Bytes} (h : readUtf8Char bs = .ok rest) :
    rest.length < bs.length := by
  obtain ⟨c, rfl⟩ := exists_char_of_read h
  have hpos := Char.utf8Size_pos c
  rw [List.length_append, String.length_utf8EncodeChar]
  omega

theorem ascii_not_continuation {a : UInt8} (ha : a.toNat < 128) (first : UInt8) :
    isContinuation a = false ∧ secondByteOk first a = false := by
  obtain ⟨n, hn, rfl⟩ := exists_ofNat a
  obtain ⟨m, hm, rfl⟩ := exists_ofNat first
  rw [UInt8.toNat_ofNat_of_lt' hn] at ha
  rw [isContinuation_ofNat n hn, secondByteOk_ofNat hm hn]
  have hrange : 128 ≤ (secondRange m).1 := by
    unfold secondRange
    split_ifs
    all_goals decide
  exact ⟨decide_eq_false (by omega), decide_eq_false (by omega)⟩

theorem readContinuation_cut_ascii {a : UInt8} (ha : a.toNat < 128) {n done : Nat} {bs : Bytes}
    (h : readContinuation n done bs = .error none) (more : Bytes) :
    readContinuation n done (bs ++ a :: more) = .error (some (done + bs.length)) := by
  induction n generalizing done bs with
  | zero => nomatch h
  | succ n ih =>
    cases bs with
    | nil =>
      show (if isContinuation a then readContinuation n (done + 1) more else .error (some done)) = _
      rw [(ascii_not_continuation ha 0).1]
      rfl
    | cons b bs =>
      unfold readContinuation at h
      show (if isContinuation b then readContinuation n (done + 1) (bs ++ a :: more)
        else .error (some done)) = _
      split at h
      · rename_i hb
        rw [if_pos hb, ih h, List.length_cons]
        congr 2
        omega
      · nomatch h

/-- A character that ASCII cuts is invalid as far as it goes. -/
theorem readUtf8Char_cut_ascii {a : UInt8} (ha : a.toNat < 128) {bs : Bytes} (hne : bs ≠ [])
    (h : readUtf8Char bs = .error none) (more : Bytes) :
    readUtf8Char (bs ++ a :: more) = .error (some bs.length) := by
  cases bs with
  | nil => exact absurd rfl hne
  | cons first bs =>
    unfold readUtf8Char at h
    dsimp only at h
    split at h
    · nomatch h
    · nomatch h
    · rename_i w hw
      cases bs with
      | nil =>
        show readUtf8Char (first :: a :: more) = _
        rw [readUtf8Char_more hw, (ascii_not_continuation ha first).2]
        rfl
      | cons second bs =>
        dsimp only at h
        show readUtf8Char (first :: second :: (bs ++ a :: more)) = _
        split at h
        · rename_i hsecond
          rw [readUtf8Char_more hw, if_pos hsecond, readContinuation_cut_ascii ha h]
          congr 2
          rw [List.length_cons, List.length_cons]
          omega
        · nomatch h

/-- The bound on the characters is no matter. -/
theorem lossyBytes_fuel {fuel fuel' : Nat} {bs : Bytes} (h : bs.length ≤ fuel) (h' : bs.length ≤ fuel') :
    lossyBytes fuel bs = lossyBytes fuel' bs := by
  induction fuel generalizing fuel' bs with
  | zero =>
    obtain rfl := List.eq_nil_of_length_eq_zero (Nat.le_zero.mp h)
    cases fuel' <;> rfl
  | succ fuel ih =>
    cases bs with
    | nil => cases fuel' <;> rfl
    | cons b bs =>
      cases fuel' with
      | zero => exact absurd h' (Nat.not_succ_le_zero _)
      | succ fuel' =>
        rw [lossyBytes, lossyBytes]
        rw [List.length_cons] at h h'
        split
        · rename_i rest hread
          have hlt := readUtf8Char_length_lt hread
          rw [List.length_cons] at hlt
          rw [ih (show rest.length ≤ fuel by omega) (show rest.length ≤ fuel' by omega)]
        · rename_i len hread
          have hlen := (readUtf8Char_len hread).1
          have hdrop := List.length_drop (i := len) (l := b :: bs)
          rw [List.length_cons] at hdrop
          have hfuel := ih (show ((b :: bs).drop len).length ≤ fuel by omega)
            (show ((b :: bs).drop len).length ≤ fuel' by omega)
          rw [hfuel]
        · rfl

theorem lossyBytes_nil (fuel : Nat) : lossyBytes fuel [] = [] := by
  cases fuel <;> rfl

theorem take_char (c : Char) (rest : Bytes) :
    (utf8EncodeChar c ++ rest).take ((utf8EncodeChar c ++ rest).length - rest.length) = utf8EncodeChar c := by
  rw [List.length_append, Nat.add_sub_cancel, List.take_left' rfl]

/-- A character, and what is after it. -/
theorem lossyBytes_char (c : Char) (fuel : Nat) (rest : Bytes) :
    lossyBytes (fuel + 1) (utf8EncodeChar c ++ rest) = utf8EncodeChar c ++ lossyBytes fuel rest := by
  cases hbytes : utf8EncodeChar c ++ rest with
  | nil =>
    have hpos := Char.utf8Size_pos c
    rw [← String.length_utf8EncodeChar, (List.append_eq_nil_iff.mp hbytes).1] at hpos
    exact absurd hpos (Nat.lt_irrefl 0)
  | cons b bs =>
    rw [lossyBytes, ← hbytes, readUtf8Char_encode]
    dsimp only
    rw [take_char]

/-- What is left of a text is that text. -/
theorem lossyBytes_text (l : List Char) {fuel : Nat} (h : (l.flatMap utf8EncodeChar).length ≤ fuel) :
    lossyBytes fuel (l.flatMap utf8EncodeChar) = l.flatMap utf8EncodeChar := by
  induction l generalizing fuel with
  | nil => exact lossyBytes_nil fuel
  | cons c l ih =>
    rw [List.flatMap_cons] at h ⊢
    have hpos := Char.utf8Size_pos c
    rw [List.length_append, String.length_utf8EncodeChar] at h
    obtain ⟨fuel, rfl⟩ := Nat.exists_eq_succ_of_ne_zero (show fuel ≠ 0 by omega)
    rw [lossyBytes_char, ih (by omega)]

/-- What is read with replacements is a text. -/
theorem exists_text_lossyBytes (fuel : Nat) (bs : Bytes) : ∃ s, lossyBytes fuel bs = asBytes s := by
  induction fuel generalizing bs with
  | zero => exact ⟨"", rfl⟩
  | succ fuel ih =>
    cases bs with
    | nil => exact ⟨"", rfl⟩
    | cons b bs =>
      rw [lossyBytes]
      split
      · rename_i rest hread
        obtain ⟨c, hc⟩ := exists_char_of_read hread
        obtain ⟨s, hs⟩ := ih rest
        refine ⟨String.singleton c ++ s, ?_⟩
        rw [hs, hc, take_char, asBytes_append, asBytes_eq (String.singleton c), String.toList_singleton, List.flatMap_singleton]
      · rename_i len _
        obtain ⟨s, hs⟩ := ih ((b :: bs).drop len)
        exact ⟨"\uFFFD" ++ s, by rw [hs, asBytes_append]⟩
      · exact ⟨"\uFFFD", rfl⟩

theorem asBytes_fromUtf8Lossy (bs : Bytes) : asBytes (fromUtf8Lossy bs) = lossyBytes bs.length bs := by
  unfold fromUtf8Lossy
  cases h : fromUtf8 bs with
  | some s =>
    obtain rfl := fromUtf8_eq_some.mp h
    dsimp only
    rw [asBytes_eq s]
    exact (lossyBytes_text s.toList (Nat.le_refl _)).symm
  | none =>
    obtain ⟨s, hs⟩ := exists_text_lossyBytes bs.length bs
    rw [hs, fromUtf8_asBytes]
    rfl

theorem lossyBytes_ascii {a : UInt8} (ha : a.toNat < 128) {fuel : Nat} {rest : Bytes} :
    lossyBytes (fuel + 1) (a :: rest) = a :: lossyBytes fuel rest := by
  have hwidth : utf8Width a = 1 := if_pos (UInt8.lt_iff_toNat_lt.mpr ha)
  rw [lossyBytes, readUtf8Char_one hwidth]
  dsimp only
  rw [List.length_cons, Nat.add_sub_cancel_left]
  rfl

/-- An ASCII byte parts what is before it from what is after it. -/
theorem lossyBytes_append_ascii {a : UInt8} (ha : a.toNat < 128) {fuel : Nat} (bs rest : Bytes)
    (h : bs.length + rest.length < fuel) :
    lossyBytes fuel (bs ++ a :: rest) = lossyBytes bs.length bs ++ a :: lossyBytes rest.length rest := by
  induction fuel generalizing bs with
  | zero => omega
  | succ fuel ih =>
    cases bs with
    | nil =>
      rw [List.nil_append, lossyBytes_ascii ha, lossyBytes_nil, List.nil_append,
        lossyBytes_fuel (by simpa using Nat.lt_succ_iff.mp h) (Nat.le_refl _)]
    | cons b bs =>
      have hhere : ∀ tail, tail.length < (b :: bs).length →
          lossyBytes bs.length tail = lossyBytes tail.length tail := by
        intro tail htail
        exact lossyBytes_fuel (Nat.lt_succ_iff.mp htail) (Nat.le_refl _)
      have hfuel : ∀ tail : Bytes, tail.length < (b :: bs).length → tail.length + rest.length < fuel := by
        intro tail htail
        omega
      rw [List.length_cons, lossyBytes, List.cons_append, lossyBytes, ← List.cons_append]
      cases hread : readUtf8Char (b :: bs) with
      | ok tail =>
        have hlt := readUtf8Char_length_lt hread
        obtain ⟨c, hc⟩ := exists_char_of_read hread
        rw [readUtf8Char_append hread]
        dsimp only
        rw [hhere tail hlt, ih tail (hfuel tail hlt), hc, take_char, List.append_assoc, take_char,
          List.append_assoc]
      | error e =>
        cases e with
        | none =>
          -- a cut character: the ASCII byte makes it invalid, and is read next
          rw [readUtf8Char_cut_ascii ha (List.cons_ne_nil _ _) hread]
          dsimp only
          have hrest := ih [] (hfuel [] (Nat.succ_pos _))
          rw [List.nil_append, lossyBytes_nil, List.nil_append] at hrest
          rw [List.drop_left' rfl, hrest]
        | some len =>
          obtain ⟨hpos, hle⟩ := readUtf8Char_len hread
          rw [readUtf8Char_invalid hread]
          dsimp only
          have hlt : ((b :: bs).drop len).length < (b :: bs).length := by
            rw [List.length_drop]
            omega
          rw [List.drop_append_of_le_length hle, ih _ (hfuel _ hlt), hhere _ hlt, List.append_assoc]

/-- **ASCII.**  A text read with replacements can be read in two parts at an ASCII character. -/
theorem fromUtf8Lossy_append_ascii {c : Char} (hc : c.toNat < 128) (bs rest : Bytes) :
    fromUtf8Lossy (bs ++ asBytes (String.singleton c) ++ rest) =
      fromUtf8Lossy bs ++ String.singleton c ++ fromUtf8Lossy rest := by
  have hbyte : asBytes (String.singleton c) = [UInt8.ofNat c.toNat] := by
    rw [asBytes_eq, String.toList_singleton, List.flatMap_singleton, utf8EncodeChar_ascii hc]
  have hlt : (UInt8.ofNat c.toNat).toNat < 128 := by
    rw [UInt8.toNat_ofNat_of_lt' (Nat.lt_of_lt_of_le hc (by decide))]
    exact hc
  apply asBytes_inj.mp
  rw [asBytes_append, asBytes_append, asBytes_fromUtf8Lossy, asBytes_fromUtf8Lossy, asBytes_fromUtf8Lossy,
    hbyte, List.append_assoc, List.append_assoc, List.singleton_append]
  refine lossyBytes_append_ascii hlt bs rest ?_
  rw [List.length_append, List.length_cons]
  omega

end Featherbit
