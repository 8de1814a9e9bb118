/-
  DISTINGUISHED NAMES AS TEXT (RFC 4514), as a library.

  1. **Letters** — a text is read as bytes that stand for themselves (`raw`) and bytes behind a backslash
     (`escaped`).  `Written letters text` is the inverse of `lex`: it says how each letter may be written.
  2. **The grammar** — names are separated by a raw `,`, the parts of one by a raw `+`, an attribute type
     and its value by the first raw `=`.  A value is a string, or hexadecimal behind a raw `#`.
  3. **A value between a type and a name** (`readDn_join_iff`) — `type=value,rest` is the name `rest` with one
     part of that type and value in front exactly when the value needs no escape (`Plain`).  If the text of
     the value goes on behind the first comma, then it holds more commas than the value does; if not, then
     a letter per byte leaves no room for an escape.
-/
import Mathlib.Data.FinEnum
import Mathlib.Data.List.Basic
import Mathlib.Data.List.Infix
import Featherbit.Lib.Split

namespace DistinguishedName

/-! ## Letters -/

/-- A byte that stands for itself, or one that is escaped. -/
inductive Letter where
  | raw (b : UInt8)
  | escaped (b : UInt8)
deriving DecidableEq

def Letter.byte : Letter → UInt8
  | .raw b => b
  | .escaped b => b

@[simp] theorem byte_raw (b : UInt8) : (Letter.raw b).byte = b := rfl

/-- A hexadecimal digit. -/
def hexDigit (b : UInt8) : Option UInt8 :=
  if 0x30 ≤ b ∧ b ≤ 0x39 then some (b - 0x30)
  else if 0x41 ≤ b ∧ b ≤ 0x46 then some (b - 0x37)
  else if 0x61 ≤ b ∧ b ≤ 0x66 then some (b - 0x57)
  else none

/-- What may stand behind a backslash: one of space `"` `#` `+` `,` `;` `<` `=` `>` and the backslash. -/
def escapable : List UInt8 := [0x20, 0x22, 0x23, 0x2B, 0x2C, 0x3B, 0x3C, 0x3D, 0x3E, 0x5C]

/-- The letters of a text. -/
def lex : List UInt8 → Option (List Letter)
  | [] => some []
  | b :: rest =>
    if b ≠ 0x5C then (lex rest).map (.raw b :: ·)
    else
      match rest with
      | [] => none
      | c :: rest =>
        if c ∈ escapable then (lex rest).map (.escaped c :: ·)
        else
          match rest with
          | [] => none
          | d :: rest =>
            match hexDigit c, hexDigit d with
            | some hi, some lo => (lex rest).map (.escaped (hi * 16 + lo) :: ·)
            | _, _ => none

/-- How letters may be written. -/
inductive Written : List Letter → List UInt8 → Prop where
  | nil : Written [] []
  | raw {b : UInt8} {letters : List Letter} {text : List UInt8} (hb : b ≠ 0x5C) (rest : Written letters text) :
      Written (.raw b :: letters) (b :: text)
  | special {b : UInt8} {letters : List Letter} {text : List UInt8} (hb : b ∈ escapable)
      (rest : Written letters text) : Written (.escaped b :: letters) (0x5C :: b :: text)
  | hex {c d hi lo : UInt8} {letters : List Letter} {text : List UInt8} (hc : hexDigit c = some hi)
      (hd : hexDigit d = some lo) (rest : Written letters text) :
      Written (.escaped (hi * 16 + lo) :: letters) (0x5C :: c :: d :: text)

theorem lex_cons_raw {b : UInt8} (hb : b ≠ 0x5C) (rest : List UInt8) :
    lex (b :: rest) = (lex rest).map (.raw b :: ·) := by
  rw [lex.eq_def]
  exact if_pos hb

/-- Bytes that need no backslash stand for themselves. -/
theorem lex_append {bytes : List UInt8} (hbytes : ∀ b ∈ bytes, b ≠ 0x5C) (rest : List UInt8) :
    lex (bytes ++ rest) = (lex rest).map (bytes.map .raw ++ ·) := by
  induction bytes with
  | nil => exact Option.map_id'.symm
  | cons b bytes ih =>
    have hb : b ≠ 0x5C := hbytes b List.mem_cons_self
    rw [List.cons_append, lex_cons_raw hb, ih fun c hc => hbytes c (List.mem_cons_of_mem b hc),
      Option.map_map]
    rfl

theorem written_of_lex {text : List UInt8} {letters : List Letter} (h : lex text = some letters) :
    Written letters text := by
  fun_induction lex text generalizing letters with
  | case1 =>
    obtain rfl := Option.some.inj h
    exact Written.nil
  | case2 b rest hb ih =>
    obtain ⟨more, hmore, rfl⟩ := Option.map_eq_some_iff.mp h
    exact Written.raw hb (ih hmore)
  | case3 b hb => nomatch h
  | case4 b hb c rest hc ih =>
    obtain ⟨more, hmore, rfl⟩ := Option.map_eq_some_iff.mp h
    rw [not_not.mp hb]
    exact Written.special hc (ih hmore)
  | case5 b hb c hc => nomatch h
  | case6 b hb c hc d rest hi lo hlo hhi ih =>
    obtain ⟨more, hmore, rfl⟩ := Option.map_eq_some_iff.mp h
    rw [not_not.mp hb]
    exact Written.hex hhi hlo (ih hmore)
  | case7 => nomatch h

/-- A text is cut where its letters are. -/
theorem Written.append {first second : List Letter} {text : List UInt8} (h : Written (first ++ second) text) :
    ∃ x y, text = x ++ y ∧ Written first x ∧ Written second y := by
  induction first generalizing text with
  | nil => exact ⟨[], text, rfl, Written.nil, h⟩
  | cons letter first ih =>
    rw [List.cons_append] at h
    cases h with
    | raw hb rest =>
      obtain ⟨x, y, rfl, hx, hy⟩ := ih rest
      exact ⟨_ :: x, y, rfl, hx.raw hb, hy⟩
    | special hb rest =>
      obtain ⟨x, y, rfl, hx, hy⟩ := ih rest
      exact ⟨_ :: _ :: x, y, rfl, hx.special hb, hy⟩
    | hex hc hd rest =>
      obtain ⟨x, y, rfl, hx, hy⟩ := ih rest
      exact ⟨_ :: _ :: _ :: x, y, rfl, hx.hex hc hd, hy⟩

/-- Bytes that stand for themselves are written one way. -/
theorem written_map_raw {bytes text : List UInt8} (h : Written (bytes.map .raw) text) : text = bytes := by
  induction bytes generalizing text with
  | nil =>
    cases h
    rfl
  | cons b bytes ih =>
    rw [List.map_cons] at h
    cases h with
    | raw hb rest => rw [ih rest]

/-- A letter takes a byte at least. -/
theorem Written.length_le {letters : List Letter} {text : List UInt8} (h : Written letters text) :
    letters.length ≤ text.length := by
  induction h with
  | nil => exact Nat.le_refl _
  | raw hb rest ih =>
    simp only [List.length_cons]
    omega
  | special hb rest ih =>
    simp only [List.length_cons]
    omega
  | hex hc hd rest ih =>
    simp only [List.length_cons]
    omega

/-- With a byte per letter nothing is escaped. -/
theorem Written.eq_raw {letters : List Letter} {text : List UInt8} (h : Written letters text)
    (hlength : text.length = letters.length) : letters = text.map .raw := by
  induction h with
  | nil => rfl
  | raw hb rest ih =>
    simp only [List.length_cons] at hlength
    rw [List.map_cons, ih (by omega)]
  | special hb rest ih =>
    have hle := rest.length_le
    simp only [List.length_cons] at hlength
    omega
  | hex hc hd rest ih =>
    have hle := rest.length_le
    simp only [List.length_cons] at hlength
    omega

theorem comma_ne_hex {c v : UInt8} (hc : hexDigit c = some v) : c ≠ 0x2C := by
  rintro rfl
  cases hc

/-- Letters without a raw comma are written with no more commas than they have. -/
theorem Written.count_le {letters : List Letter} {text : List UInt8} (h : Written letters text)
    (hraw : .raw 0x2C ∉ letters) : text.count 0x2C ≤ (letters.map Letter.byte).count 0x2C := by
  induction h with
  | nil => exact Nat.le_refl _
  | @raw b letters text hb rest ih =>
    have hcomma : b ≠ 0x2C := by
      rintro rfl
      exact hraw List.mem_cons_self
    have hrest := ih fun hmem => hraw (List.mem_cons_of_mem _ hmem)
    rw [List.map_cons, List.count_cons_of_ne hcomma, byte_raw, List.count_cons_of_ne hcomma]
    exact hrest
  | @special b letters text hb rest ih =>
    have hrest := ih fun hmem => hraw (List.mem_cons_of_mem _ hmem)
    rw [List.map_cons, List.count_cons_of_ne (by decide), Letter.byte, List.count_cons, List.count_cons]
    omega
  | @hex c d hi lo letters text hc hd rest ih =>
    have hrest := ih fun hmem => hraw (List.mem_cons_of_mem _ hmem)
    rw [List.map_cons, List.count_cons_of_ne (by decide), List.count_cons_of_ne (comma_ne_hex hc),
      List.count_cons_of_ne (comma_ne_hex hd), List.count_cons]
    omega

/-! ## The grammar -/

/-- The value of an attribute: a string, or the octets behind a `#`. -/
inductive Value where
  | string (octets : List UInt8)
  | hex (octets : List UInt8)
deriving DecidableEq

/-- `attributeTypeAndValue`. -/
structure Attribute where
  type : List UInt8
  value : Value
deriving DecidableEq

/-- `relativeDistinguishedName`. -/
abbrev Rdn := List Attribute

/-- `distinguishedName`. -/
abbrev Dn := List Rdn

def isDigit (b : UInt8) : Bool := 0x30 ≤ b ∧ b ≤ 0x39

def isAlpha (b : UInt8) : Bool := (0x41 ≤ b ∧ b ≤ 0x5A) ∨ (0x61 ≤ b ∧ b ≤ 0x7A)

/-- `descr`: a letter, and then letters, digits and hyphens. -/
def isDescr : List UInt8 → Bool
  | [] => false
  | b :: rest => isAlpha b && rest.all fun c => isAlpha c || isDigit c || c = 0x2D

/-- `number`: digits, without a leading zero. -/
def isNumber (digits : List UInt8) : Bool :=
  digits ≠ [] ∧ digits.all isDigit ∧ (digits = [0x30] ∨ digits.head? ≠ some 0x30)

/-- `numericoid`: two numbers or more, between dots. -/
def isNumericoid (type : List UInt8) : Bool :=
  2 ≤ (type.splitOn 0x2E).length ∧ (type.splitOn 0x2E).all isNumber

/-- `attributeType`. -/
def isType (type : List UInt8) : Bool := isDescr type || isNumericoid type

/-- Letters that all stand for themselves. -/
def rawBytes : List Letter → Option (List UInt8)
  | [] => some []
  | .raw b :: rest => (rawBytes rest).map (b :: ·)
  | .escaped _ :: _ => none

def readType (letters : List Letter) : Option (List UInt8) := (rawBytes letters).filter isType

/-- Pairs of hexadecimal digits. -/
def readHex : List UInt8 → Option (List UInt8)
  | [] => some []
  | [_] => none
  | c :: d :: rest => do
    let hi ← hexDigit c
    let lo ← hexDigit d
    (readHex rest).map ((hi * 16 + lo) :: ·)

/-- What only stands escaped in a string: NUL, `"`, `+`, `,`, `;`, `<`, `>` and the backslash. -/
def reserved : List UInt8 := [0x00, 0x22, 0x2B, 0x2C, 0x3B, 0x3C, 0x3E, 0x5C]

/-- `string`: nothing reserved, and no space at either end. -/
def readString (letters : List Letter) : Option (List UInt8) :=
  if (∀ b ∈ reserved, .raw b ∉ letters) ∧ letters.head? ≠ some (.raw 0x20) ∧
      letters.getLast? ≠ some (.raw 0x20) then
    some (letters.map Letter.byte)
  else none

/-- `attributeValue`. -/
def readValue (letters : List Letter) : Option Value :=
  if letters.head? = some (.raw 0x23) then
    (((rawBytes letters.tail).filter (· ≠ [])).bind readHex).map .hex
  else (readString letters).map .string

/-- The type ends at the first raw `=`. -/
def readAttribute (letters : List Letter) : Option Attribute := do
  let (before, after) ← Split.splitOnce (.raw 0x3D) letters
  let type ← readType before
  let value ← readValue after
  some ⟨type, value⟩

def readRdn (letters : List Letter) : Option Rdn := (letters.splitOn (.raw 0x2B)).mapM readAttribute

/-- A distinguished name; nothing at all is the name without parts. -/
def readDn (text : List UInt8) : Option Dn :=
  if text = [] then some []
  else (lex text).bind fun letters => (letters.splitOn (.raw 0x2C)).mapM readRdn

example : readDn [0x63, 0x6E, 0x3D, 0x61, 0x5C, 0x2C, 0x62] =
    some [[⟨[0x63, 0x6E], .string [0x61, 0x2C, 0x62]⟩]] := by decide +kernel

/-! ## A value between a type and a name -/

/-- A value that is written as it stands. -/
structure Plain (value : List UInt8) : Prop where
  reserved : ∀ b ∈ value, b ∉ reserved
  first_hash : value.head? ≠ some 0x23
  first_space : value.head? ≠ some 0x20
  last_space : value.getLast? ≠ some 0x20

/-- The text `type=value,rest`. -/
def join (type value rest : List UInt8) : List UInt8 := type ++ 0x3D :: value ++ 0x2C :: rest

theorem rawBytes_eq_some {letters : List Letter} {bytes : List UInt8} (h : rawBytes letters = some bytes) :
    letters = bytes.map .raw := by
  fun_induction rawBytes letters generalizing bytes with
  | case1 =>
    obtain rfl := Option.some.inj h
    rfl
  | case2 b rest ih =>
    obtain ⟨more, hmore, rfl⟩ := Option.map_eq_some_iff.mp h
    rw [ih hmore, List.map_cons]
  | case3 => nomatch h

theorem rawBytes_map_raw (bytes : List UInt8) : rawBytes (bytes.map .raw) = some bytes := by
  induction bytes with
  | nil => rfl
  | cons b bytes ih => rw [List.map_cons, rawBytes, ih, Option.map_some]

theorem raw_mem_map {b : UInt8} {bytes : List UInt8} : Letter.raw b ∈ bytes.map .raw ↔ b ∈ bytes := by
  constructor
  · intro h
    obtain ⟨c, hc, heq⟩ := List.mem_map.mp h
    exact Letter.raw.inj heq ▸ hc
  · exact List.mem_map_of_mem

theorem head_map_raw (b : UInt8) (bytes : List UInt8) :
    (bytes.map Letter.raw).head? = some (.raw b) ↔ bytes.head? = some b := by
  rw [List.head?_map, Option.map_eq_some_iff]
  constructor
  · rintro ⟨c, hc, heq⟩
    exact Letter.raw.inj heq ▸ hc
  · intro h
    exact ⟨b, h, rfl⟩

theorem getLast_map_raw (b : UInt8) (bytes : List UInt8) :
    (bytes.map Letter.raw).getLast? = some (.raw b) ↔ bytes.getLast? = some b := by
  rw [List.getLast?_map, Option.map_eq_some_iff]
  constructor
  · rintro ⟨c, hc, heq⟩
    exact Letter.raw.inj heq ▸ hc
  · intro h
    exact ⟨b, h, rfl⟩

/-- Letters that stand for themselves are a string exactly when it is plain. -/
theorem readValue_map_raw (value octets : List UInt8) :
    readValue (value.map .raw) = some (.string octets) ↔ Plain value ∧ octets = value := by
  have hbytes : (value.map Letter.raw).map Letter.byte = value := by
    rw [List.map_map]
    exact List.map_id value
  unfold readValue
  by_cases hhash : value.head? = some 0x23
  · rw [if_pos ((head_map_raw _ _).mpr hhash)]
    constructor
    · intro h
      obtain ⟨v, -, hv⟩ := Option.map_eq_some_iff.mp h
      nomatch hv
    · exact fun h => absurd hhash h.1.first_hash
  · rw [if_neg ((head_map_raw _ _).not.mpr hhash), Option.map_eq_some_iff]
    unfold readString
    constructor
    · rintro ⟨v, hv, heq⟩
      obtain rfl := Value.string.inj heq
      split at hv
      · rename_i hcond
        obtain ⟨hreserved, hfirst, hlast⟩ := hcond
        refine ⟨⟨fun b hb hmem => hreserved b hmem (raw_mem_map.mpr hb), hhash,
          (head_map_raw _ _).not.mp hfirst, (getLast_map_raw _ _).not.mp hlast⟩, ?_⟩
        exact (Option.some.inj hv).symm.trans hbytes
      · nomatch hv
    · rintro ⟨hplain, rfl⟩
      refine ⟨octets, ?_, rfl⟩
      rw [if_pos ⟨fun b hb hmem => hplain.reserved b (raw_mem_map.mp hmem) hb,
        (head_map_raw _ _).not.mpr hplain.first_space, (getLast_map_raw _ _).not.mpr hplain.last_space⟩,
        hbytes]

theorem readValue_string {letters : List Letter} {octets : List UInt8}
    (h : readValue letters = some (.string octets)) :
    letters.map Letter.byte = octets ∧ .raw 0x2C ∉ letters := by
  unfold readValue at h
  split at h
  · obtain ⟨v, -, hv⟩ := Option.map_eq_some_iff.mp h
    nomatch hv
  · obtain ⟨v, hv, heq⟩ := Option.map_eq_some_iff.mp h
    obtain rfl := Value.string.inj heq
    unfold readString at hv
    split at hv
    · rename_i hcond
      exact ⟨Option.some.inj hv, hcond.1 0x2C (by decide)⟩
    · nomatch hv

theorem digit_or_letter {b : UInt8} (h : isAlpha b = true ∨ isDigit b = true ∨ b = 0x2D ∨ b = 0x2E) :
    b ≠ 0x5C ∧ b ≠ 0x3D ∧ b ≠ 0x2B ∧ b ≠ 0x2C := by
  refine ⟨?_, ?_, ?_, ?_⟩ <;> rintro rfl <;> revert h <;> decide

/-- A type has nothing that the grammar cuts at. -/
theorem byte_of_isType {type : List UInt8} (h : isType type = true) :
    ∀ b ∈ type, b ≠ 0x5C ∧ b ≠ 0x3D ∧ b ≠ 0x2B ∧ b ≠ 0x2C := by
  intro b hb
  apply digit_or_letter
  rcases Bool.or_eq_true_iff.mp h with hdescr | hnumeric
  · cases type with
    | nil => nomatch hb
    | cons c rest =>
      obtain ⟨hc, hrest⟩ := Bool.and_eq_true_iff.mp hdescr
      rcases List.mem_cons.mp hb with rfl | hmem
      · exact Or.inl hc
      · have hcases := List.all_eq_true.mp hrest b hmem
        simp only [Bool.or_eq_true, decide_eq_true_eq] at hcases
        rcases hcases with (halpha | hdigit) | hhyphen
        · exact Or.inl halpha
        · exact Or.inr (Or.inl hdigit)
        · exact Or.inr (Or.inr (Or.inl hhyphen))
  · have hall := (of_decide_eq_true hnumeric).2
    rw [← @List.intercalate_splitOn _ type _ _ (0x2E : UInt8)] at hb
    rcases Split.mem_intercalate hb with rfl | ⟨part, hpart, hmem⟩
    · exact Or.inr (Or.inr (Or.inr rfl))
    · have hnumber := of_decide_eq_true (List.all_eq_true.mp hall part hpart)
      exact Or.inr (Or.inl (List.all_eq_true.mp hnumber.2.1 b hmem))

theorem readType_eq_some {letters : List Letter} {type : List UInt8} :
    readType letters = some type ↔ letters = type.map .raw ∧ isType type = true := by
  unfold readType
  rw [Option.filter_eq_some_iff]
  constructor
  · rintro ⟨hraw, htype⟩
    exact ⟨rawBytes_eq_some hraw, htype⟩
  · rintro ⟨rfl, htype⟩
    exact ⟨rawBytes_map_raw type, htype⟩

theorem readAttribute_eq_some {letters : List Letter} {type : List UInt8} {value : Value} :
    readAttribute letters = some ⟨type, value⟩ ↔
      ∃ after, letters = type.map .raw ++ .raw 0x3D :: after ∧ isType type = true ∧
        readValue after = some value := by
  unfold readAttribute
  constructor
  · intro h
    obtain ⟨⟨before, after⟩, hsplit, h⟩ := Option.bind_eq_some_iff.mp h
    obtain ⟨type', htype, h⟩ := Option.bind_eq_some_iff.mp h
    obtain ⟨value', hvalue, h⟩ := Option.bind_eq_some_iff.mp h
    obtain ⟨rfl, rfl⟩ := Attribute.mk.inj (Option.some.inj h)
    obtain ⟨rfl, hok⟩ := readType_eq_some.mp htype
    exact ⟨after, Split.eq_of_splitOnce hsplit, hok, hvalue⟩
  · rintro ⟨after, rfl, hok, hvalue⟩
    have hequals : Letter.raw 0x3D ∉ type.map .raw := fun hmem =>
      (byte_of_isType hok _ (raw_mem_map.mp hmem)).2.1 rfl
    rw [Split.splitOnce_append hequals]
    show ((readType (type.map .raw)).bind fun type => (readValue after).bind fun value =>
      some (Attribute.mk type value)) = _
    rw [readType_eq_some.mpr ⟨rfl, hok⟩, hvalue]
    rfl

/-- A name of one part of one attribute. -/
theorem readRdn_eq_singleton {letters : List Letter} {a : Attribute} :
    readRdn letters = some [a] ↔ .raw 0x2B ∉ letters ∧ readAttribute letters = some a := by
  unfold readRdn
  constructor
  · intro h
    rcases hsplit : letters.splitOn (.raw 0x2B) with - | ⟨part, more⟩
    · exact absurd hsplit (List.splitOn_ne_nil _ _)
    · rw [hsplit, List.mapM_cons] at h
      obtain ⟨a', ha, h⟩ := Option.bind_eq_some_iff.mp h
      obtain ⟨as, has, h⟩ := Option.bind_eq_some_iff.mp h
      obtain ⟨rfl, rfl⟩ := List.cons.inj (Option.some.inj h)
      cases more with
      | nil =>
        have hjoin := @List.intercalate_splitOn _ letters _ _ (Letter.raw 0x2B)
        rw [hsplit, List.intercalate_singleton] at hjoin
        rw [← hjoin]
        have hpart : part ∈ letters.splitOn (Letter.raw 0x2B) := hsplit ▸ List.mem_cons_self
        exact ⟨Split.not_mem_of_mem_splitOn hpart, ha⟩
      | cons next more =>
        rw [List.mapM_cons] at has
        obtain ⟨b, -, has⟩ := Option.bind_eq_some_iff.mp has
        obtain ⟨bs, -, has⟩ := Option.bind_eq_some_iff.mp has
        nomatch Option.some.inj has
  · rintro ⟨hplus, ha⟩
    rw [List.splitOn_eq_singleton hplus, List.mapM_cons, ha]
    rfl

/-- A name with a part in front of others. -/
theorem readDn_eq_cons {text : List UInt8} {rdn : Rdn} {dn : Dn} (hdn : dn ≠ [])
    (h : readDn text = some (rdn :: dn)) :
    ∃ first rest, lex text = some (first ++ .raw 0x2C :: rest) ∧ .raw 0x2C ∉ first ∧
      readRdn first = some rdn := by
  unfold readDn at h
  split at h
  · nomatch Option.some.inj h
  obtain ⟨letters, hlex, h⟩ := Option.bind_eq_some_iff.mp h
  have hjoin := @List.intercalate_splitOn _ letters _ _ (Letter.raw 0x2C)
  rcases hsplit : letters.splitOn (.raw 0x2C) with - | ⟨first, - | ⟨next, more⟩⟩
  · exact absurd hsplit (List.splitOn_ne_nil _ _)
  · rw [hsplit, List.mapM_cons] at h
    obtain ⟨_, -, h⟩ := Option.bind_eq_some_iff.mp h
    obtain ⟨rdns, hrdns, h⟩ := Option.bind_eq_some_iff.mp h
    obtain rfl := Option.some.inj hrdns
    exact absurd (List.cons.inj (Option.some.inj h)).2.symm hdn
  · rw [hsplit, List.mapM_cons] at h
    obtain ⟨rdn', hfirst, h⟩ := Option.bind_eq_some_iff.mp h
    obtain ⟨rdns, -, h⟩ := Option.bind_eq_some_iff.mp h
    obtain ⟨rfl, rfl⟩ := List.cons.inj (Option.some.inj h)
    rw [hsplit, List.intercalate_cons_cons, List.append_assoc, List.singleton_append] at hjoin
    have hpart : first ∈ letters.splitOn (Letter.raw 0x2C) := hsplit ▸ List.mem_cons_self
    exact ⟨first, [Letter.raw 0x2C].intercalate (next :: more), by rw [hlex, hjoin],
      Split.not_mem_of_mem_splitOn hpart, hfirst⟩

/-- A plain value is read back, in front of the rest. -/
theorem readDn_join {type value rest : List UInt8} {dn : Dn} (htype : isType type = true)
    (hvalue : Plain value) (hrest : rest ≠ []) (hdn : readDn rest = some dn) :
    readDn (join type value rest) = some ([⟨type, .string value⟩] :: dn) := by
  have hbytes := byte_of_isType htype
  have hplain : ∀ b ∈ value, b ≠ 0x5C ∧ b ≠ 0x2B ∧ b ≠ 0x2C := fun b hb =>
    ⟨fun h => hvalue.reserved b hb (h ▸ by decide), fun h => hvalue.reserved b hb (h ▸ by decide),
      fun h => hvalue.reserved b hb (h ▸ by decide)⟩
  rw [readDn, if_neg hrest] at hdn
  obtain ⟨letters, hlex, hletters⟩ := Option.bind_eq_some_iff.mp hdn
  have hne : join type value rest ≠ [] := by
    unfold join
    exact List.append_ne_nil_of_right_ne_nil _ (List.cons_ne_nil _ _)
  -- nothing in front of the rest is escaped
  have hall : lex (join type value rest) =
      some ((type ++ 0x3D :: value).map .raw ++ .raw 0x2C :: letters) := by
    have hslash : ∀ b ∈ type ++ 0x3D :: value, b ≠ 0x5C := by
      intro b hb
      rcases List.mem_append.mp hb with hb | hb
      · exact (hbytes b hb).1
      · rcases List.mem_cons.mp hb with rfl | hb
        · decide
        · exact (hplain b hb).1
    rw [join, lex_append hslash, lex_cons_raw (by decide), hlex]
    rfl
  have hcomma : Letter.raw 0x2C ∉ (type ++ 0x3D :: value).map .raw := by
    intro hmem
    rcases List.mem_append.mp (raw_mem_map.mp hmem) with hb | hb
    · exact (hbytes _ hb).2.2.2 rfl
    · rcases List.mem_cons.mp hb with hb | hb
      · nomatch hb
      · exact (hplain _ hb).2.2 rfl
  have hplus : Letter.raw 0x2B ∉ (type ++ 0x3D :: value).map .raw := by
    intro hmem
    rcases List.mem_append.mp (raw_mem_map.mp hmem) with hb | hb
    · exact (hbytes _ hb).2.2.1 rfl
    · rcases List.mem_cons.mp hb with hb | hb
      · nomatch hb
      · exact (hplain _ hb).2.1 rfl
  have hfirst : readRdn ((type ++ 0x3D :: value).map .raw) = some [⟨type, .string value⟩] := by
    refine readRdn_eq_singleton.mpr ⟨hplus, readAttribute_eq_some.mpr ⟨value.map .raw, ?_, htype, ?_⟩⟩
    · rw [List.map_append, List.map_cons]
    · exact (readValue_map_raw value value).mpr ⟨hvalue, rfl⟩
  have hsplit : ((type ++ 0x3D :: value).map Letter.raw ++ .raw 0x2C :: letters).splitOn (.raw 0x2C) =
      (type ++ 0x3D :: value).map Letter.raw :: letters.splitOn (.raw 0x2C) := by
    rw [List.splitOn_append_cons_self, List.splitOn_eq_singleton hcomma]
    rfl
  rw [readDn, if_neg hne, hall, Option.bind_some, hsplit, List.mapM_cons, hfirst, hletters]
  rfl

/-- **The value in front.**  Between a type and a name a value is read back exactly when it is plain. -/
theorem readDn_join_iff {type value rest : List UInt8} {dn : Dn} (htype : isType type = true)
    (hrest : rest ≠ []) (hdn : readDn rest = some dn) :
    readDn (join type value rest) = some ([⟨type, .string value⟩] :: dn) ↔ Plain value := by
  refine ⟨fun h => ?_, fun hvalue => readDn_join htype hvalue hrest hdn⟩
  have hne : dn ≠ [] := by
    rintro rfl
    rw [readDn, if_neg hrest] at hdn
    obtain ⟨letters, -, hletters⟩ := Option.bind_eq_some_iff.mp hdn
    rcases hsplit : letters.splitOn (.raw 0x2C) with - | ⟨first, more⟩
    · exact absurd hsplit (List.splitOn_ne_nil _ _)
    · rw [hsplit, List.mapM_cons] at hletters
      obtain ⟨_, -, hletters⟩ := Option.bind_eq_some_iff.mp hletters
      obtain ⟨_, -, hletters⟩ := Option.bind_eq_some_iff.mp hletters
      nomatch Option.some.inj hletters
  obtain ⟨first, more, hlex, -, hfirst⟩ := readDn_eq_cons hne h
  obtain ⟨-, hattribute⟩ := readRdn_eq_singleton.mp hfirst
  obtain ⟨after, rfl, -, hafter⟩ := readAttribute_eq_some.mp hattribute
  obtain ⟨hoctets, hcomma⟩ := readValue_string hafter
  -- the text is cut where the letters are
  have hwritten := written_of_lex hlex
  rw [List.append_assoc] at hwritten
  obtain ⟨x, y, htext, hx, hy⟩ := hwritten.append
  obtain rfl := written_map_raw hx
  rw [join, List.append_assoc] at htext
  rw [← List.append_cancel_left htext, List.cons_append] at hy
  cases hy with
  | raw _ hy =>
    obtain ⟨written, z, htext, hwritten, hz⟩ := hy.append
    cases hz with
    | raw _ hz =>
      rename_i tail
      have hlength := hwritten.length_le
      rw [← List.length_map Letter.byte, hoctets] at hlength
      have hvalue : value <+: written := List.prefix_of_prefix_length_le (List.prefix_append _ _)
        (htext ▸ List.prefix_append _ _) hlength
      obtain ⟨z, rfl⟩ := hvalue
      rw [List.append_assoc] at htext
      cases z with
      | nil =>
        -- a byte per letter: nothing is escaped
        rw [List.append_nil] at hwritten
        have hraw := hwritten.eq_raw (by rw [← hoctets, List.length_map])
        rw [hraw] at hafter
        exact ((readValue_map_raw value value).mp hafter).1
      | cons b z =>
        -- the text goes on behind the first comma
        have hb : (0x2C : UInt8) = b := (List.cons.inj (List.append_cancel_left htext)).1
        have hcount := hwritten.count_le hcomma
        rw [hoctets, List.count_append, ← hb, List.count_cons_self] at hcount
        omega

end DistinguishedName
