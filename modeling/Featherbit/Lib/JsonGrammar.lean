/-
  READING JSON TEXT, as a library (RFC 8259, over characters).

  The reader takes white space between tokens, numbers as their text, and escapes with their
  surrogate pairs; a name that repeats counts as its last value.  Its fuel is the length of the text,
  since every call has read a character before the next one.

  1. **A string** (`readString_plain`, `readString_length`) — text without quotes, backslashes and control
     characters is read as it stands; what is read is never longer than its text, and as long only
     where it stands there as it is.
  2. **Members** (`readMembers_length`) — so a string in an object is shorter than the object's text.
-/
import Mathlib.Data.List.Basic
import Mathlib.Data.List.Infix

namespace JsonGrammar

/-- A JSON value; a number is its text. -/
inductive Tree where
  | null
  | bool (b : Bool)
  | number (text : List Char)
  | string (text : List Char)
  | array (items : List Tree)
  | object (fields : List (List Char × Tree))

/-- The white space between tokens. -/
def isSpace (c : Char) : Bool := c = ' ' || c = '\t' || c = '\n' || c = '\r'

def skipSpace (l : List Char) : List Char := l.dropWhile isSpace

/-! ## Strings -/

/-- A character that stands for itself in a string. -/
def Plain (c : Char) : Prop := c ≠ '"' ∧ c ≠ '\\' ∧ 0x20 ≤ c.toNat

instance (c : Char) : Decidable (Plain c) := by unfold Plain; infer_instance

def hexValue (c : Char) : Option Nat :=
  if '0' ≤ c ∧ c ≤ '9' then some (c.toNat - '0'.toNat)
  else if 'a' ≤ c ∧ c ≤ 'f' then some (c.toNat - 'a'.toNat + 10)
  else if 'A' ≤ c ∧ c ≤ 'F' then some (c.toNat - 'A'.toNat + 10)
  else none

/-- Four hexadecimal digits. -/
def readUnit : List Char → Option (Nat × List Char)
  | a :: b :: c :: d :: rest => do
    let a ← hexValue a
    let b ← hexValue b
    let c ← hexValue c
    let d ← hexValue d
    some (((a * 16 + b) * 16 + c) * 16 + d, rest)
  | _ => none

/-- What `\u` begins: a character, or the first half of one. -/
def readUnicode (l : List Char) : Option (Char × List Char) := do
  let (high, rest) ← readUnit l
  if 0xD800 ≤ high ∧ high < 0xDC00 then
    match rest with
    | '\\' :: 'u' :: rest => do
      let (low, rest) ← readUnit rest
      if 0xDC00 ≤ low ∧ low < 0xE000 then
        some (Char.ofNat (0x10000 + (high - 0xD800) * 0x400 + (low - 0xDC00)), rest)
      else none
    | _ => none
  else if 0xDC00 ≤ high ∧ high < 0xE000 then none
  else some (Char.ofNat high, rest)

/-- What a backslash begins. -/
def readEscape : List Char → Option (Char × List Char)
  | '"' :: rest => some ('"', rest)
  | '\\' :: rest => some ('\\', rest)
  | '/' :: rest => some ('/', rest)
  | 'b' :: rest => some ('\x08', rest)
  | 'f' :: rest => some ('\x0C', rest)
  | 'n' :: rest => some ('\n', rest)
  | 'r' :: rest => some ('\r', rest)
  | 't' :: rest => some ('\t', rest)
  | 'u' :: rest => readUnicode rest
  | _ => none

/-- The characters up to the closing quote. -/
def readChars : Nat → List Char → Option (List Char × List Char)
  | 0, _ => none
  | _ + 1, [] => none
  | n + 1, c :: rest =>
    if c = '"' then some ([], rest)
    else if c = '\\' then do
      let (d, rest) ← readEscape rest
      let (text, rest) ← readChars n rest
      some (d :: text, rest)
    else if c.toNat < 0x20 then none
    else do
      let (text, rest) ← readChars n rest
      some (c :: text, rest)

/-- A string behind its opening quote. -/
def readString (l : List Char) : Option (List Char × List Char) := readChars l.length l

/-! ## Numbers -/

def readDigits (l : List Char) : Option (List Char) :=
  if l.takeWhile Char.isDigit = [] then none else some (l.dropWhile Char.isDigit)

def readWhole : List Char → Option (List Char)
  | '0' :: rest => some rest
  | l => readDigits l

def readFraction : List Char → Option (List Char)
  | '.' :: rest => readDigits rest
  | l => some l

def readExponent : List Char → Option (List Char)
  | [] => some []
  | c :: rest =>
    if c = 'e' ∨ c = 'E' then
      match rest with
      | '+' :: rest => readDigits rest
      | '-' :: rest => readDigits rest
      | rest => readDigits rest
    else some (c :: rest)

def readMinus : List Char → List Char
  | '-' :: rest => rest
  | l => l

def readNumber (l : List Char) : Option (Tree × List Char) := do
  let rest ← readExponent (← readFraction (← readWhole (readMinus l)))
  some (.number (l.take (l.length - rest.length)), rest)

/-! ## Values -/

/-- The words, and numbers. -/
def readScalar (l : List Char) : Option (Tree × List Char) :=
  match l.dropPrefix? "null".toList with
  | some rest => some (.null, rest)
  | none =>
  match l.dropPrefix? "true".toList with
  | some rest => some (.bool true, rest)
  | none =>
  match l.dropPrefix? "false".toList with
  | some rest => some (.bool false, rest)
  | none => readNumber l

mutual

def readValue : Nat → List Char → Option (Tree × List Char)
  | 0, _ => none
  | n + 1, l =>
    match skipSpace l with
    | '"' :: rest => (readString rest).map fun (text, rest) => (.string text, rest)
    | '{' :: rest =>
      match skipSpace rest with
      | '}' :: rest => some (.object [], rest)
      | rest => (readMembers n rest).map fun (fields, rest) => (.object fields, rest)
    | '[' :: rest =>
      match skipSpace rest with
      | ']' :: rest => some (.array [], rest)
      | rest => (readItems n rest).map fun (items, rest) => (.array items, rest)
    | rest => readScalar rest

/-- The members of an object, up to its closing brace. -/
def readMembers : Nat → List Char → Option (List (List Char × Tree) × List Char)
  | 0, _ => none
  | n + 1, l =>
    match skipSpace l with
    | '"' :: rest => do
      let (name, rest) ← readString rest
      match skipSpace rest with
      | ':' :: rest => do
        let (value, rest) ← readValue n rest
        match skipSpace rest with
        | '}' :: rest => some ([(name, value)], rest)
        | ',' :: rest => do
          let (fields, rest) ← readMembers n rest
          some ((name, value) :: fields, rest)
        | _ => none
      | _ => none
    | _ => none

/-- The items of an array, up to its closing bracket. -/
def readItems : Nat → List Char → Option (List Tree × List Char)
  | 0, _ => none
  | n + 1, l => do
    let (value, rest) ← readValue n l
    match skipSpace rest with
    | ']' :: rest => some ([value], rest)
    | ',' :: rest => do
      let (items, rest) ← readItems n rest
      some (value :: items, rest)
    | _ => none

end

/-- The value of a text. -/
def parse (l : List Char) : Option Tree :=
  match readValue (l.length + 1) l with
  | some (value, rest) => if skipSpace rest = [] then some value else none
  | none => none

/-- The last value under a name. -/
def Tree.field (name : List Char) : Tree → Option Tree
  | .object fields => fields.reverse.lookup name
  | _ => none

/-- The text is a JSON object whose field is this string. -/
def Says (l name text : List Char) : Prop :=
  (parse l).bind (Tree.field name) = some (.string text)

/-! ## What a string takes -/

section Strings

variable {l rest text : List Char}

theorem skipSpace_append {space : List Char} (hspace : ∀ c ∈ space, isSpace c = true) (l : List Char) :
    skipSpace (space ++ l) = skipSpace l := List.dropWhile_append_of_pos hspace

theorem skipSpace_cons {c : Char} (hc : isSpace c = false) (l : List Char) :
    skipSpace (c :: l) = c :: l := List.dropWhile_cons_of_neg (by rw [hc]; exact Bool.false_ne_true)

theorem skipSpace_length (l : List Char) : (skipSpace l).length ≤ l.length :=
  (List.dropWhile_sublist isSpace).length_le

/-- Text that stands for itself is read up to the quote. -/
theorem readChars_plain {n : Nat} (htext : ∀ c ∈ text, Plain c) (hn : text.length < n)
    (rest : List Char) : readChars n (text ++ '"' :: rest) = some (text, rest) := by
  induction text generalizing n with
  | nil =>
    cases n with
    | zero => cases hn
    | succ n => exact if_pos rfl
  | cons c text ih =>
    obtain ⟨hquote, hslash, hcontrol⟩ := htext c List.mem_cons_self
    cases n with
    | zero => cases hn
    | succ n =>
      have hrest := ih (fun c hc => htext c (List.mem_cons_of_mem _ hc)) (Nat.lt_of_succ_lt_succ hn)
      rw [List.cons_append, readChars, if_neg hquote, if_neg hslash, if_neg (Nat.not_lt.mpr hcontrol), hrest]
      rfl

theorem readString_plain (htext : ∀ c ∈ text, Plain c) (rest : List Char) :
    readString (text ++ '"' :: rest) = some (text, rest) := by
  refine readChars_plain htext ?_ rest
  rw [List.length_append, List.length_cons]
  omega

theorem readUnit_length {n : Nat} (h : readUnit l = some (n, rest)) : l.length = rest.length + 4 := by
  unfold readUnit at h
  split at h
  · simp only [Option.bind_eq_bind, Option.bind_eq_some_iff, Option.some.injEq, Prod.mk.injEq] at h
    obtain ⟨-, -, -, -, -, -, -, -, -, rfl⟩ := h
    rfl
  · cases h

theorem readUnicode_length {c : Char} (h : readUnicode l = some (c, rest)) :
    rest.length < l.length := by
  unfold readUnicode at h
  obtain ⟨⟨high, after⟩, hunit, h⟩ := Option.bind_eq_some_iff.mp h
  have hlen := readUnit_length hunit
  dsimp only at h
  split at h
  · split at h
    · rename_i low
      obtain ⟨⟨low, final⟩, hlow, h⟩ := Option.bind_eq_some_iff.mp h
      have hlen' := readUnit_length hlow
      dsimp only at h
      split at h
      · obtain ⟨-, rfl⟩ := Prod.mk.inj (Option.some.inj h)
        rw [List.length_cons, List.length_cons] at hlen
        omega
      · cases h
    · cases h
  · split at h
    · cases h
    · obtain ⟨-, rfl⟩ := Prod.mk.inj (Option.some.inj h)
      omega

theorem readEscape_length {c : Char} (h : readEscape l = some (c, rest)) :
    rest.length < l.length := by
  unfold readEscape at h
  split at h
  all_goals first
    | (obtain ⟨-, rfl⟩ := Prod.mk.inj (Option.some.inj h)
       exact Nat.lt_succ_self _)
    | (have hlen := readUnicode_length h
       rw [List.length_cons]
       omega)
    | cases h

/-- What is read is no longer than its text, and as long only where it stands there as it is. -/
theorem readChars_length {n : Nat} (h : readChars n l = some (text, rest)) :
    text.length + rest.length + 1 ≤ l.length ∧
      (l.length ≤ text.length + rest.length + 1 → l = text ++ '"' :: rest ∧ ∀ c ∈ text, Plain c) := by
  induction n generalizing l text with
  | zero => cases h
  | succ n ih =>
    cases l with
    | nil => cases h
    | cons c l =>
      rw [readChars] at h
      split at h
      · rename_i hquote
        obtain ⟨rfl, rfl⟩ := Prod.mk.inj (Option.some.inj h)
        refine ⟨by simp, fun _ => ⟨by rw [hquote]; rfl, fun c hc => ?_⟩⟩
        cases hc
      · rename_i hquote
        split at h
        · -- an escape takes two characters at least, and gives one
          obtain ⟨⟨d, after⟩, hescape, h⟩ := Option.bind_eq_some_iff.mp h
          obtain ⟨⟨more, final⟩, hmore, h⟩ := Option.bind_eq_some_iff.mp h
          obtain ⟨rfl, rfl⟩ := Prod.mk.inj (Option.some.inj h)
          have hlen := readEscape_length hescape
          have hrest := (ih hmore).1
          rw [List.length_cons, List.length_cons]
          exact ⟨by omega, fun hle => by omega⟩
        · rename_i hslash
          split at h
          · cases h
          · rename_i hcontrol
            obtain ⟨⟨more, final⟩, hmore, h⟩ := Option.bind_eq_some_iff.mp h
            obtain ⟨rfl, rfl⟩ := Prod.mk.inj (Option.some.inj h)
            obtain ⟨hle, hsame⟩ := ih hmore
            rw [List.length_cons, List.length_cons]
            refine ⟨by omega, fun hlen => ?_⟩
            obtain ⟨rfl, hplain⟩ := hsame (by omega)
            refine ⟨rfl, fun d hd => ?_⟩
            rcases List.mem_cons.mp hd with rfl | hd
            · exact ⟨hquote, hslash, Nat.not_lt.mp hcontrol⟩
            · exact hplain d hd

theorem readString_length (h : readString l = some (text, rest)) :
    text.length + rest.length + 1 ≤ l.length ∧
      (l.length ≤ text.length + rest.length + 1 → l = text ++ '"' :: rest ∧ ∀ c ∈ text, Plain c) :=
  readChars_length h

end Strings

/-! ## What a value takes -/

section Lengths

variable {l rest : List Char}

theorem readDigits_length (h : readDigits l = some rest) : rest.length ≤ l.length := by
  unfold readDigits at h
  split at h
  · cases h
  · obtain rfl := Option.some.inj h
    exact (List.dropWhile_sublist Char.isDigit).length_le

theorem readWhole_length (h : readWhole l = some rest) : rest.length ≤ l.length := by
  unfold readWhole at h
  split at h
  · obtain rfl := Option.some.inj h
    exact Nat.le_succ _
  · exact readDigits_length h

theorem readFraction_length (h : readFraction l = some rest) : rest.length ≤ l.length := by
  unfold readFraction at h
  split at h
  · exact (readDigits_length h).trans (Nat.le_succ _)
  · obtain rfl := Option.some.inj h
    exact Nat.le_refl _

theorem readExponent_length (h : readExponent l = some rest) : rest.length ≤ l.length := by
  unfold readExponent at h
  split at h
  · obtain rfl := Option.some.inj h
    exact Nat.le_refl _
  · split at h
    · split at h
      all_goals
        have hlen := readDigits_length h
        simp only [List.length_cons] at hlen ⊢
        omega
    · obtain rfl := Option.some.inj h
      exact Nat.le_refl _

theorem readMinus_length (l : List Char) : (readMinus l).length ≤ l.length := by
  unfold readMinus
  split
  · exact Nat.le_succ _
  · exact Nat.le_refl _

theorem readNumber_length {value : Tree} (h : readNumber l = some (value, rest)) :
    rest.length ≤ l.length ∧ ∀ text, value ≠ .string text := by
  unfold readNumber at h
  obtain ⟨whole, hwhole, h⟩ := Option.bind_eq_some_iff.mp h
  obtain ⟨fraction, hfraction, h⟩ := Option.bind_eq_some_iff.mp h
  obtain ⟨final, hexponent, h⟩ := Option.bind_eq_some_iff.mp h
  obtain ⟨rfl, rfl⟩ := Prod.mk.inj (Option.some.inj h)
  refine ⟨?_, fun text h => nomatch h⟩
  exact ((readExponent_length hexponent).trans (readFraction_length hfraction)).trans
    ((readWhole_length hwhole).trans (readMinus_length l))

theorem dropPrefix_length {word : List Char} (h : l.dropPrefix? word = some rest) :
    rest.length ≤ l.length := by
  obtain ⟨front, rfl, -⟩ := List.dropPrefix?_eq_some_iff.mp h
  rw [List.length_append]
  exact Nat.le_add_left _ _

theorem readScalar_length {value : Tree} (h : readScalar l = some (value, rest)) :
    rest.length ≤ l.length ∧ ∀ text, value ≠ .string text := by
  unfold readScalar at h
  split at h
  · rename_i after hword
    obtain ⟨rfl, rfl⟩ := Prod.mk.inj (Option.some.inj h)
    exact ⟨dropPrefix_length hword, fun text h => nomatch h⟩
  · split at h
    · rename_i after hword
      obtain ⟨rfl, rfl⟩ := Prod.mk.inj (Option.some.inj h)
      exact ⟨dropPrefix_length hword, fun text h => nomatch h⟩
    · split at h
      · rename_i after hword
        obtain ⟨rfl, rfl⟩ := Prod.mk.inj (Option.some.inj h)
        exact ⟨dropPrefix_length hword, fun text h => nomatch h⟩
      · exact readNumber_length h

/-- What a value takes: a string two quotes besides itself. -/
def ValueTakes (n : Nat) : Prop := ∀ l value rest, readValue n l = some (value, rest) →
  rest.length ≤ l.length ∧ ∀ text, value = .string text → text.length + rest.length + 2 ≤ l.length

/-- What members take: a string among them six characters besides itself. -/
def MembersTake (n : Nat) : Prop := ∀ l fields rest, readMembers n l = some (fields, rest) →
  rest.length ≤ l.length ∧
    ∀ name text, (name, Tree.string text) ∈ fields → text.length + rest.length + 6 ≤ l.length

def ItemsTake (n : Nat) : Prop := ∀ l items rest, readItems n l = some (items, rest) →
  rest.length ≤ l.length

theorem valueTakes_succ {n : Nat} (hmembers : MembersTake n) (hitems : ItemsTake n) :
    ValueTakes (n + 1) := by
  intro l value rest h
  have hspace := skipSpace_length l
  rw [readValue] at h
  split at h
  · rename_i after hfirst
    obtain ⟨⟨text, final⟩, hread, h⟩ := Option.map_eq_some_iff.mp h
    obtain ⟨rfl, rfl⟩ := Prod.mk.inj h
    have hlen := (readString_length hread).1
    rw [hfirst, List.length_cons] at hspace
    refine ⟨by omega, fun text' htext => ?_⟩
    obtain rfl := Tree.string.inj htext
    omega
  · rename_i after hfirst
    rw [hfirst, List.length_cons] at hspace
    have hinner := skipSpace_length after
    split at h
    · rename_i final hclose
      obtain ⟨rfl, rfl⟩ := Prod.mk.inj (Option.some.inj h)
      rw [hclose, List.length_cons] at hinner
      exact ⟨by omega, fun text h => nomatch h⟩
    · obtain ⟨⟨fields, final⟩, hread, h⟩ := Option.map_eq_some_iff.mp h
      obtain ⟨rfl, rfl⟩ := Prod.mk.inj h
      have hlen := (hmembers _ _ _ hread).1
      exact ⟨by omega, fun text h => nomatch h⟩
  · rename_i after hfirst
    rw [hfirst, List.length_cons] at hspace
    have hinner := skipSpace_length after
    split at h
    · rename_i final hclose
      obtain ⟨rfl, rfl⟩ := Prod.mk.inj (Option.some.inj h)
      rw [hclose, List.length_cons] at hinner
      exact ⟨by omega, fun text h => nomatch h⟩
    · obtain ⟨⟨items, final⟩, hread, h⟩ := Option.map_eq_some_iff.mp h
      obtain ⟨rfl, rfl⟩ := Prod.mk.inj h
      have hlen := hitems _ _ _ hread
      exact ⟨by omega, fun text h => nomatch h⟩
  · have hscalar := readScalar_length h
    exact ⟨by omega, fun text htext => absurd htext (hscalar.2 text)⟩

theorem membersTake_succ {n : Nat} (hvalue : ValueTakes n) (hmembers : MembersTake n) :
    MembersTake (n + 1) := by
  intro l fields rest h
  have hspace := skipSpace_length l
  rw [readMembers] at h
  split at h
  · rename_i after hfirst
    rw [hfirst, List.length_cons] at hspace
    obtain ⟨⟨name, afterName⟩, hname, h⟩ := Option.bind_eq_some_iff.mp h
    have hnameLen := (readString_length hname).1
    have hcolonSpace := skipSpace_length afterName
    dsimp only at h
    split at h
    · rename_i afterColon hcolon
      rw [hcolon, List.length_cons] at hcolonSpace
      obtain ⟨⟨value, afterValue⟩, hread, h⟩ := Option.bind_eq_some_iff.mp h
      obtain ⟨hvalueLen, hstring⟩ := hvalue _ _ _ hread
      have hendSpace := skipSpace_length afterValue
      dsimp only at h
      split at h
      · rename_i final hend
        rw [hend, List.length_cons] at hendSpace
        obtain ⟨rfl, rfl⟩ := Prod.mk.inj (Option.some.inj h)
        refine ⟨by omega, fun name' text hmem => ?_⟩
        obtain ⟨-, rfl⟩ := Prod.mk.inj (List.mem_singleton.mp hmem)
        have htext := hstring text rfl
        omega
      · rename_i afterComma hend
        rw [hend, List.length_cons] at hendSpace
        obtain ⟨⟨more, final⟩, hmore, h⟩ := Option.bind_eq_some_iff.mp h
        dsimp only at h
        obtain ⟨rfl, rfl⟩ := Prod.mk.inj (Option.some.inj h)
        obtain ⟨hmoreLen, hmoreString⟩ := hmembers _ _ _ hmore
        refine ⟨by omega, fun name' text hmem => ?_⟩
        rcases List.mem_cons.mp hmem with heq | hmem
        · obtain ⟨-, rfl⟩ := Prod.mk.inj heq
          have htext := hstring text rfl
          omega
        · have htext := hmoreString name' text hmem
          omega
      · cases h
    · cases h
  · cases h

theorem itemsTake_succ {n : Nat} (hvalue : ValueTakes n) (hitems : ItemsTake n) :
    ItemsTake (n + 1) := by
  intro l items rest h
  rw [readItems] at h
  obtain ⟨⟨value, afterValue⟩, hread, h⟩ := Option.bind_eq_some_iff.mp h
  have hvalueLen := (hvalue _ _ _ hread).1
  have hspace := skipSpace_length afterValue
  dsimp only at h
  split at h
  · rename_i final hend
    rw [hend, List.length_cons] at hspace
    obtain ⟨-, rfl⟩ := Prod.mk.inj (Option.some.inj h)
    omega
  · rename_i afterComma hend
    rw [hend, List.length_cons] at hspace
    obtain ⟨⟨more, final⟩, hmore, h⟩ := Option.bind_eq_some_iff.mp h
    dsimp only at h
    obtain ⟨-, rfl⟩ := Prod.mk.inj (Option.some.inj h)
    have hmoreLen := hitems _ _ _ hmore
    omega
  · cases h

theorem takes (n : Nat) : ValueTakes n ∧ MembersTake n ∧ ItemsTake n := by
  induction n with
  | zero =>
    refine ⟨?_, ?_, ?_⟩
    all_goals
      intro l result rest h
      cases h
  | succ n ih =>
    obtain ⟨hvalue, hmembers, hitems⟩ := ih
    exact ⟨valueTakes_succ hmembers hitems, membersTake_succ hvalue hmembers,
      itemsTake_succ hvalue hitems⟩

/-- **Members.**  A string in an object is shorter than the text of its members. -/
theorem readMembers_length {n : Nat} {fields : List (List Char × Tree)}
    (h : readMembers n l = some (fields, rest)) {name text : List Char}
    (hmem : (name, Tree.string text) ∈ fields) : text.length + rest.length + 6 ≤ l.length :=
  ((takes n).2.1 _ _ _ h).2 name text hmem

end Lengths

/-! ## Objects that begin with known members -/

section Objects

variable {space name l : List Char}

/-- What follows the value of a member. -/
def closeMember (n : Nat) (field : List Char × Tree) (rest : List Char) :
    Option (List (List Char × Tree) × List Char) :=
  match skipSpace rest with
  | '}' :: rest => some ([field], rest)
  | ',' :: rest => (readMembers n rest).map fun (fields, rest) => (field :: fields, rest)
  | _ => none

theorem closeMember_comma (n : Nat) (field : List Char × Tree) (rest : List Char) :
    closeMember n field (',' :: rest) =
      (readMembers n rest).map fun (fields, rest) => (field :: fields, rest) := rfl

/-- A member with a plain name and a string. -/
theorem readMembers_string {before : List Char} (hbefore : ∀ c ∈ before, isSpace c = true)
    (hname : ∀ c ∈ name, Plain c) (hspace : ∀ c ∈ space, isSpace c = true) (n : Nat) (l : List Char) :
    readMembers (n + 2) (before ++ '"' :: (name ++ '"' :: ':' :: (space ++ '"' :: l))) =
      (readString l).bind fun (text, rest) => closeMember (n + 1) (name, .string text) rest := by
  have hquote : skipSpace (before ++ '"' :: (name ++ '"' :: ':' :: (space ++ '"' :: l))) =
      '"' :: (name ++ '"' :: ':' :: (space ++ '"' :: l)) := by
    rw [skipSpace_append hbefore, skipSpace_cons rfl]
  have hvalue : readValue (n + 1) (space ++ '"' :: l) =
      (readString l).map fun (text, rest) => (.string text, rest) := by
    rw [readValue, skipSpace_append hspace, skipSpace_cons rfl]
    rfl
  rw [readMembers, hquote]
  change (Option.bind (readString (name ++ '"' :: ':' :: (space ++ '"' :: l))) _) = _
  rw [readString_plain hname, Option.bind_some]
  dsimp only
  rw [skipSpace_cons rfl]
  change (Option.bind (readValue (n + 1) (space ++ '"' :: l)) _) = _
  rw [hvalue]
  cases readString l with
  | none => rfl
  | some read =>
    obtain ⟨text, rest⟩ := read
    unfold closeMember
    rw [Option.map_some, Option.bind_some, Option.bind_some]
    dsimp only
    split
    · rfl
    · rename_i after _
      cases readMembers (n + 1) after <;> rfl
    · rfl

/-- An object that begins with a name says what its members say. -/
theorem says_object (name text l : List Char) : Says ('{' :: '"' :: l) name text ↔
    ∃ fields rest, readMembers (l.length + 2) ('"' :: l) = some (fields, rest) ∧
      skipSpace rest = [] ∧ fields.reverse.lookup name = some (.string text) := by
  have hread : readValue (('{' :: '"' :: l).length + 1) ('{' :: '"' :: l) =
      (readMembers (l.length + 2) ('"' :: l)).map fun (fields, rest) => (.object fields, rest) := by
    rw [List.length_cons, List.length_cons, readValue, skipSpace_cons rfl]
    show (match skipSpace ('"' :: l) with
      | '}' :: rest => some (Tree.object [], rest)
      | rest => (readMembers (l.length + 2) rest).map fun (fields, rest) => (.object fields, rest)) = _
    rw [skipSpace_cons rfl]
    rfl
  unfold Says parse
  rw [hread]
  cases readMembers (l.length + 2) ('"' :: l) with
  | none =>
    refine iff_of_false (fun h => nomatch h) ?_
    rintro ⟨fields, rest, h, -⟩
    cases h
  | some read =>
    obtain ⟨fields, rest⟩ := read
    rw [Option.map_some]
    dsimp only
    by_cases hrest : skipSpace rest = []
    · rw [if_pos hrest, Option.bind_some]
      constructor
      · intro h
        exact ⟨fields, rest, rfl, hrest, h⟩
      · rintro ⟨fields', rest', h, -, hlookup⟩
        obtain ⟨rfl, rfl⟩ := Prod.mk.inj (Option.some.inj h)
        exact hlookup
    · rw [if_neg hrest]
      refine iff_of_false (fun h => nomatch h) ?_
      rintro ⟨fields', rest', h, hspace, -⟩
      obtain ⟨rfl, rfl⟩ := Prod.mk.inj (Option.some.inj h)
      exact hrest hspace

/-- A raw text put between the quotes of the last value: it is the value exactly where it is plain, if it
    is no longer than that. -/
theorem lastString_iff {raw text name : List Char} (hlen : raw.length ≤ text.length)
    {before : List (List Char × Tree)} (hbefore : ∀ field ∈ before, field.1 ≠ name) (n : Nat) :
    (∃ fields rest, ((readString (raw ++ ['"', '}'])).bind fun (value, rest) =>
        closeMember n (name, .string value) rest) = some (fields, rest) ∧ skipSpace rest = [] ∧
      (before ++ fields).reverse.lookup name = some (.string text)) ↔
    raw = text ∧ ∀ c ∈ text, Plain c := by
  constructor
  · rintro ⟨fields, rest, hread, -, hlookup⟩
    obtain ⟨⟨value, afterValue⟩, hvalue, hclose⟩ := Option.bind_eq_some_iff.mp hread
    obtain ⟨hle, hsame⟩ := readString_length hvalue
    rw [List.length_append, show ['"', '}'].length = 2 from rfl] at hle hsame
    have hmem : (name, Tree.string text) ∈ fields := by
      obtain ⟨front, back, hsplit, -⟩ := List.lookup_eq_some_iff.mp hlookup
      have hall : (name, Tree.string text) ∈ (before ++ fields).reverse := by
        rw [hsplit]
        exact List.mem_append_right _ List.mem_cons_self
      rcases List.mem_append.mp (List.mem_reverse.mp hall) with h | h
      · exact absurd rfl (hbefore _ h)
      · exact h
    have hspace := skipSpace_length afterValue
    -- where the value is the text, nothing was escaped
    have hdone : value = text → 1 ≤ afterValue.length → raw = text ∧ ∀ c ∈ text, Plain c := by
      rintro rfl hafter
      obtain ⟨heq, hplain⟩ := hsame (by omega)
      have hlength := congrArg List.length heq
      simp only [List.length_append, List.length_cons, List.length_nil] at hlength
      exact ⟨(List.append_inj heq (by omega)).1, hplain⟩
    dsimp only at hclose
    unfold closeMember at hclose
    split at hclose
    · rename_i final hend
      rw [hend, List.length_cons] at hspace
      obtain ⟨rfl, rfl⟩ := Prod.mk.inj (Option.some.inj hclose)
      have hvalueText := Tree.string.inj (Prod.mk.inj (List.mem_singleton.mp hmem)).2
      exact hdone hvalueText.symm (by omega)
    · rename_i after hend
      rw [hend, List.length_cons] at hspace
      obtain ⟨⟨more, final⟩, hmore, heq⟩ := Option.map_eq_some_iff.mp hclose
      obtain ⟨rfl, rfl⟩ := Prod.mk.inj heq
      rcases List.mem_cons.mp hmem with h | h
      · have hvalueText := Tree.string.inj (Prod.mk.inj h).2
        exact hdone hvalueText.symm (by omega)
      · have hlong := readMembers_length hmore h
        omega
    · cases hclose
  · rintro ⟨rfl, hplain⟩
    refine ⟨[(name, .string raw)], [], ?_, rfl, ?_⟩
    · rw [readString_plain hplain]
      rfl
    · rw [List.reverse_append]
      simp

end Objects

end JsonGrammar
