/-
  JSON AS TEXT (`serde_json::to_string`, `from_slice`).

  `JsonCodec` is what is relied on: a value is read back from its own text, but for its floats,
  which the fast float parser may read back a little off, and but for a value nested too deep for
  the reader.

  `compactJson` is an instance that computes.  It covers the compact text `to_string` writes,
  with every float written `0.0`; that is enough to run the programs that use it on examples.
  The round trip (`parseValue_print`) goes by induction on the value; the fuel is the text's
  length, since every call of the reader has read a character before the next one.
-/
import Featherbit.Json

namespace Featherbit

/-- Neither infinite nor a NaN. -/
def F64.Finite (x : F64) : Prop := x.bits.toNat / 2 ^ 52 % 2 ^ 11 ≠ 2 ^ 11 - 1

namespace Json

mutual

/-- What holds of every `serde_json::Value`: a `NegInt` is negative, a float finite, and the
    fields of an object are in key order. -/
def Canonical : Json → Prop
  | number (.negInt n) => n.toInt < 0
  | number (.float x) => x.Finite
  | array items => CanonicalItems items
  | object fields => (fields.map Prod.fst).Pairwise (· < ·) ∧ CanonicalFields fields
  | null | bool _ | number (.posInt _) | string _ => True

def CanonicalItems : List Json → Prop
  | [] => True
  | v :: vs => Canonical v ∧ CanonicalItems vs

def CanonicalFields : List (String × Json) → Prop
  | [] => True
  | (_, v) :: fields => Canonical v ∧ CanonicalFields fields

end

mutual

/-- How deep arrays and objects are nested. -/
def depth : Json → Nat
  | array items => 1 + depthItems items
  | object fields => 1 + depthFields fields
  | null | bool _ | number _ | string _ => 0

def depthItems : List Json → Nat
  | [] => 0
  | v :: vs => max (depth v) (depthItems vs)

def depthFields : List (String × Json) → Nat
  | [] => 0
  | (_, v) :: fields => max (depth v) (depthFields fields)

end

mutual

/-- The value with `f` at its floats. -/
def mapFloats (f : F64 → F64) : Json → Json
  | number (.float x) => number (.float (f x))
  | array items => array (mapFloatsItems f items)
  | object fields => object (mapFloatsFields f fields)
  | null => null
  | bool b => bool b
  | number (.posInt n) => number (.posInt n)
  | number (.negInt n) => number (.negInt n)
  | string s => string s

def mapFloatsItems (f : F64 → F64) : List Json → List Json
  | [] => []
  | v :: vs => mapFloats f v :: mapFloatsItems f vs

def mapFloatsFields (f : F64 → F64) : List (String × Json) → List (String × Json)
  | [] => []
  | (k, v) :: fields => (k, mapFloats f v) :: mapFloatsFields f fields

end

theorem mapFloatsFields_keys (f : F64 → F64) (fields : List (String × Json)) :
    (mapFloatsFields f fields).map Prod.fst = fields.map Prod.fst := by
  induction fields with
  | nil => rfl
  | cons field fields ih =>
    rw [mapFloatsFields, List.map_cons, List.map_cons, ih]

end Json

/-- `to_string` and `from_slice`. -/
class JsonCodec extends JsonText where
  parse : Bytes → Option Json
  /-- what a float is read back as -/
  reread : F64 → F64
  parse_toText : ∀ v : Json, v.Canonical → v.depth < 128 →
    parse (asBytes (toText v)) = some (v.mapFloats reread)
  /-- a value that is nested deeper is not read back as another one -/
  eq_of_parse_toText : ∀ v w : Json, v.Canonical → parse (asBytes (toText v)) = some w →
    w = v.mapFloats reread

/-! ## Compact text, computed -/

namespace CompactJson

def hexDigit (n : Nat) : Char := "0123456789abcdef".toList.getD n '0'

def hexValue (c : Char) : Option Nat := "0123456789abcdef".toList.findIdx? (· = c)

/-- The characters that have an escape of their own. -/
def shortEscapes : List (Char × Char) :=
  [('"', '"'), ('\\', '\\'), ('\x08', 'b'), ('\x0c', 'f'), ('\n', 'n'), ('\r', 'r'), ('\t', 't')]

def escape (c : Char) : List Char :=
  match shortEscapes.find? (·.1 = c) with
  | some pair => ['\\', pair.2]
  | none =>
    if c.toNat < 32 then ['\\', 'u', '0', '0', hexDigit (c.toNat / 16), hexDigit (c.toNat % 16)]
    else [c]

def printString (s : String) : List Char := '"' :: (s.toList.flatMap escape ++ ['"'])

def printNumber : JsonNumber → List Char
  | .posInt n => Nat.toDigits 10 n.toNat
  | .negInt n => '-' :: Nat.toDigits 10 n.toInt.natAbs
  | .float _ => ['0', '.', '0']

mutual

def print : Json → List Char
  | .null => ['n', 'u', 'l', 'l']
  | .bool true => ['t', 'r', 'u', 'e']
  | .bool false => ['f', 'a', 'l', 's', 'e']
  | .number n => printNumber n
  | .string s => printString s
  | .array items => '[' :: (printItems items ++ [']'])
  | .object fields => '{' :: (printFields fields ++ ['}'])

def printItems : List Json → List Char
  | [] => []
  | [v] => print v
  | v :: w :: vs => print v ++ ',' :: printItems (w :: vs)

def printFields : List (String × Json) → List Char
  | [] => []
  | [(k, v)] => printString k ++ ':' :: print v
  | (k, v) :: field :: fields =>
    printString k ++ ':' :: (print v ++ ',' :: printFields (field :: fields))

end

/-- The characters of a string up to its closing quote, and what follows it. -/
def readChars : List Char → Option (List Char × List Char)
  | [] => none
  | '"' :: rest => some ([], rest)
  | '\\' :: 'u' :: a :: b :: c :: d :: rest => do
    let high ← hexValue c
    let low ← hexValue d
    if a = '0' ∧ b = '0' then
      (readChars rest).map fun p => (Char.ofNat (high * 16 + low) :: p.1, p.2)
    else none
  | '\\' :: e :: rest => do
    let pair ← shortEscapes.find? (·.2 = e)
    (readChars rest).map fun p => (pair.1 :: p.1, p.2)
  | c :: rest => if c.toNat < 32 then none else (readChars rest).map fun p => (c :: p.1, p.2)

def readString (l : List Char) : Option (String × List Char) :=
  (readChars l).map fun p => (String.ofList p.1, p.2)

/-- The integer of some digits. -/
def integer (negative : Bool) (n : Nat) : Option JsonNumber :=
  if negative then
    if 0 < n ∧ n ≤ 2 ^ 63 then some (.negInt (Int64.ofInt (-n))) else none
  else if n < 2 ^ 64 then some (.posInt (UInt64.ofNat n))
  else none

def readUnsigned (negative : Bool) (l : List Char) : Option (Json × List Char) :=
  if (l.takeWhile Char.isDigit).isEmpty then none
  else if (l.dropWhile Char.isDigit).head? = some '.' then
    some (.number (.float ⟨0⟩), (l.dropWhile Char.isDigit).tail.dropWhile Char.isDigit)
  else
    (integer negative (Nat.ofDigitChars 10 (l.takeWhile Char.isDigit) 0)).map fun n =>
      (.number n, l.dropWhile Char.isDigit)

def readNumber (l : List Char) : Option (Json × List Char) :=
  if l.head? = some '-' then readUnsigned true l.tail else readUnsigned false l

/-- The rest of a literal. -/
def readWord (word : List Char) (v : Json) (l : List Char) : Option (Json × List Char) :=
  (l.dropPrefix? word).map fun rest => (v, rest)

/-- A key with its colon. -/
def readKey : List Char → Option (String × List Char)
  | '"' :: l =>
    match readString l with
    | some (k, ':' :: rest) => some (k, rest)
    | _ => none
  | _ => none

/-- A field before those that are read after it; the last one of a key counts. -/
def addField (k : String) (v : Json) (fields : List (String × Json)) : List (String × Json) :=
  if (fields.lookup k).isSome then fields else Json.insertField k v fields

mutual

def parseValue : Nat → List Char → Option (Json × List Char)
  | 0, _ => none
  | _ + 1, [] => none
  | n + 1, c :: rest =>
    if c = 'n' then readWord ['u', 'l', 'l'] .null rest
    else if c = 't' then readWord ['r', 'u', 'e'] (.bool true) rest
    else if c = 'f' then readWord ['a', 'l', 's', 'e'] (.bool false) rest
    else if c = '"' then (readString rest).map fun p => (.string p.1, p.2)
    else if c = '[' then
      if rest.head? = some ']' then some (.array [], rest.tail)
      else (parseItems n rest).map fun p => (.array p.1, p.2)
    else if c = '{' then
      if rest.head? = some '}' then some (.object [], rest.tail)
      else (parseFields n rest).map fun p => (.object p.1, p.2)
    else readNumber (c :: rest)

def parseItems : Nat → List Char → Option (List Json × List Char)
  | 0, _ => none
  | n + 1, l =>
    match parseValue n l with
    | some (v, ',' :: rest) => (parseItems n rest).map fun p => (v :: p.1, p.2)
    | some (v, ']' :: rest) => some ([v], rest)
    | _ => none

def parseFields : Nat → List Char → Option (List (String × Json) × List Char)
  | 0, _ => none
  | n + 1, l =>
    match readKey l with
    | some (k, l) =>
      match parseValue n l with
      | some (v, ',' :: rest) => (parseFields n rest).map fun p => (addField k v p.1, p.2)
      | some (v, '}' :: rest) => some ([(k, v)], rest)
      | _ => none
    | none => none

end

/-- A whole text. -/
def parse (text : Bytes) : Option Json :=
  match fromUtf8 text with
  | some s =>
    match parseValue s.toList.length s.toList with
    | some (v, []) => some v
    | _ => none
  | none => none

def toText (v : Json) : String := String.ofList (print v)

/-! ### Strings and numbers are read back -/

theorem readChars_escape (c : Char) (l : List Char) :
    readChars (escape c ++ l) = (readChars l).map fun p => (c :: p.1, p.2) := by
  unfold escape
  cases hc : shortEscapes.find? (·.1 = c) with
  | some pair =>
    have hpair : pair ∈ shortEscapes := List.mem_of_find?_eq_some hc
    obtain rfl : pair.1 = c := by simpa using List.find?_some hc
    have hback : ∀ p ∈ shortEscapes, p.2 ≠ 'u' ∧ shortEscapes.find? (·.2 = p.2) = some p := by
      decide
    obtain ⟨hu, hfind⟩ := hback pair hpair
    show readChars ('\\' :: pair.2 :: l) = _
    rw [readChars]
    · rw [hfind]
      rfl
    · intro a b c d rest h
      exact absurd h hu
  | none =>
    show readChars ((if c.toNat < 32 then _ else _) ++ l) = _
    split
    · rename_i hlow
      have hhex : ∀ n < 32, hexValue (hexDigit (n / 16)) = some (n / 16) ∧
          hexValue (hexDigit (n % 16)) = some (n % 16) := by decide
      obtain ⟨hhigh, hlow'⟩ := hhex c.toNat hlow
      have hchar : Char.ofNat (c.toNat / 16 * 16 + c.toNat % 16) = c := by
        rw [show c.toNat / 16 * 16 + c.toNat % 16 = c.toNat by omega, Char.ofNat_toNat]
      show readChars ('\\' :: 'u' :: '0' :: '0' :: _ :: _ :: l) = _
      rw [readChars, hhigh, hlow']
      show (readChars l).map (fun p => (Char.ofNat (c.toNat / 16 * 16 + c.toNat % 16) :: p.1, p.2)) = _
      rw [hchar]
    · rename_i hhigh
      have hplain : c ≠ '"' ∧ c ≠ '\\' := by
        rw [List.find?_eq_none] at hc
        constructor
        · rintro rfl
          exact absurd (hc ('"', '"') (by decide)) (by decide)
        · rintro rfl
          exact absurd (hc ('\\', '\\') (by decide)) (by decide)
      show readChars (c :: l) = _
      rw [readChars, if_neg hhigh]
      · exact fun h => absurd h hplain.1
      · exact fun _ _ _ _ _ h => absurd h hplain.2
      · exact fun _ _ h => absurd h hplain.2

theorem readString_print (s : String) (rest : List Char) :
    readString (s.toList.flatMap escape ++ '"' :: rest) = some (s, rest) := by
  have hchars : ∀ cs : List Char,
      readChars (cs.flatMap escape ++ '"' :: rest) = some (cs, rest) := by
    intro cs
    induction cs with
    | nil => rw [List.flatMap_nil, List.nil_append, readChars]
    | cons c cs ih =>
      rw [List.flatMap_cons, List.append_assoc, readChars_escape, ih]
      rfl
  rw [readString, hchars]
  simp

theorem readKey_print (k : String) (rest : List Char) :
    readKey (printString k ++ ':' :: rest) = some (k, rest) := by
  rw [printString, List.cons_append, List.append_assoc, readKey]
  show (match readString (k.toList.flatMap escape ++ '"' :: ':' :: rest) with
    | some (k, ':' :: rest) => some (k, rest)
    | _ => none) = _
  rw [readString_print]
  rfl

/-- Nothing that would go on with a number. -/
def Stops (rest : List Char) : Prop := ∀ c ∈ rest.head?, c.isDigit = false ∧ c ≠ '.'

theorem takeWhile_digits {ds rest : List Char} (hds : ∀ c ∈ ds, c.isDigit) (hrest : Stops rest) :
    (ds ++ rest).takeWhile Char.isDigit = ds ∧ (ds ++ rest).dropWhile Char.isDigit = rest := by
  have hhead : rest.takeWhile Char.isDigit = [] ∧ rest.dropWhile Char.isDigit = rest := by
    cases rest with
    | nil => exact ⟨rfl, rfl⟩
    | cons c rest =>
      have hc := (hrest c rfl).1
      rw [List.takeWhile_cons_of_neg (by simp [hc]), List.dropWhile_cons_of_neg (by simp [hc])]
      exact ⟨rfl, rfl⟩
  rw [List.takeWhile_append_of_pos hds, List.dropWhile_append_of_pos hds, hhead.1, hhead.2]
  simp

theorem readUnsigned_toDigits {negative : Bool} {n : Nat} {number : JsonNumber} {rest : List Char}
    (hn : integer negative n = some number) (hrest : Stops rest) :
    readUnsigned negative (Nat.toDigits 10 n ++ rest) = some (.number number, rest) := by
  have hdigits : ∀ c ∈ Nat.toDigits 10 n, c.isDigit := fun c hc =>
    Nat.isDigit_of_mem_toDigits (by omega) (by omega) hc
  obtain ⟨htake, hdrop⟩ := takeWhile_digits hdigits hrest
  have hdot : rest.head? ≠ some '.' := fun h => (hrest '.' h).2 rfl
  rw [readUnsigned, htake, hdrop, if_neg (by simp [Nat.toDigits_ne_nil]), if_neg hdot,
    Nat.ofDigitChars_ten_toDigits, hn]
  rfl

theorem toDigits_head (n : Nat) : ∃ c l, Nat.toDigits 10 n = c :: l ∧ c.isDigit := by
  cases hd : Nat.toDigits 10 n with
  | nil => exact absurd hd Nat.toDigits_ne_nil
  | cons c l =>
    refine ⟨c, l, rfl, Nat.isDigit_of_mem_toDigits (b := 10) (by omega) (by omega) (n := n) ?_⟩
    rw [hd]
    exact List.mem_cons_self

theorem readNumber_print {number : JsonNumber} (hnumber : Json.Canonical (.number number))
    {rest : List Char} (hrest : Stops rest) :
    readNumber (printNumber number ++ rest) =
      some (Json.mapFloats (fun _ => ⟨0⟩) (.number number), rest) := by
  cases number with
  | posInt n =>
    obtain ⟨c, l, hc, hdigit⟩ := toDigits_head n.toNat
    have hhead : (printNumber (.posInt n) ++ rest).head? ≠ some '-' := by
      rw [printNumber, hc]
      intro h
      rw [Option.some.inj h] at hdigit
      exact absurd hdigit (by decide)
    rw [readNumber, if_neg hhead]
    refine readUnsigned_toDigits ?_ hrest
    rw [integer, if_neg Bool.false_ne_true, if_pos n.toNat_lt, UInt64.ofNat_toNat]
  | negInt n =>
    have hneg : n.toInt < 0 := hnumber
    have hlow := n.le_toInt
    rw [readNumber, printNumber, List.cons_append, if_pos (by rfl), List.tail_cons]
    refine readUnsigned_toDigits ?_ hrest
    have hback : Int64.ofInt (-(n.toInt.natAbs : Int)) = n := by
      rw [show -(n.toInt.natAbs : Int) = n.toInt by omega, Int64.ofInt_toInt]
    rw [integer, if_pos rfl, if_pos (by omega), hback]
  | float x =>
    have hfraction := (takeWhile_digits (show ∀ c ∈ ['0'], c.isDigit by simp) hrest).2
    show some (Json.number (.float ⟨0⟩), (['0'] ++ rest).dropWhile Char.isDigit) = _
    rw [hfraction]
    rfl

/-! ### A value is read back from its text -/

/-- The text of a value starts with a character that closes nothing. -/
theorem print_head (v : Json) : ∃ c l, print v = c :: l ∧ c ≠ ']' := by
  have hdigit : ∀ n, ∃ c l, Nat.toDigits 10 n = c :: l ∧ c ≠ ']' := fun n => by
    obtain ⟨c, l, h, hc⟩ := toDigits_head n
    refine ⟨c, l, h, ?_⟩
    rintro rfl
    exact absurd hc (by decide)
  cases v with
  | null => exact ⟨_, _, rfl, by decide⟩
  | bool b => cases b <;> exact ⟨_, _, rfl, by decide⟩
  | number n =>
    cases n with
    | posInt n => exact hdigit n.toNat
    | negInt n => exact ⟨_, _, rfl, by decide⟩
    | float x => exact ⟨_, _, rfl, by decide⟩
  | string s => exact ⟨_, _, rfl, by decide⟩
  | array items => exact ⟨_, _, rfl, by decide⟩
  | object fields => exact ⟨_, _, rfl, by decide⟩

theorem readWord_append (word : List Char) (v : Json) (rest : List Char) :
    readWord word v (word ++ rest) = some (v, rest) := by
  have hdrop : (word ++ rest).dropPrefix? word = some rest :=
    List.dropPrefix?_eq_some_iff.mpr ⟨word, rfl, by simp⟩
  rw [readWord, hdrop]
  rfl

theorem addField_sorted {k : String} {v : Json} {fields : List (String × Json)}
    (h : ((k, v) :: fields).map Prod.fst |>.Pairwise (· < ·)) :
    addField k v fields = (k, v) :: fields := by
  have hlt : ∀ field ∈ fields, k < field.1 := fun field hf =>
    (List.pairwise_cons.mp h).1 _ (List.mem_map_of_mem hf)
  have hnone : fields.lookup k = none := by
    rw [List.lookup_eq_none_iff]
    intro field hf
    simpa using (hlt field hf).ne
  rw [addField, hnone, if_neg (by simp)]
  cases fields with
  | nil => rfl
  | cons field fields => exact Json.insertField_of_lt (hlt field List.mem_cons_self) v field.2 fields

theorem printNumber_head (number : JsonNumber) :
    ∃ c l, printNumber number = c :: l ∧ (c.isDigit ∨ c = '-') := by
  cases number with
  | posInt n =>
    obtain ⟨c, l, h, hc⟩ := toDigits_head n.toNat
    exact ⟨c, l, h, Or.inl hc⟩
  | negInt n => exact ⟨_, _, rfl, Or.inr rfl⟩
  | float x => exact ⟨_, _, rfl, by decide⟩

/-- A digit or a minus sign starts a number and nothing else. -/
theorem parseValue_number {c : Char} (hc : c.isDigit ∨ c = '-') (n : Nat) (rest : List Char) :
    parseValue (n + 1) (c :: rest) = readNumber (c :: rest) := by
  have hother : ∀ d ∈ ['n', 't', 'f', '"', '[', '\x7b'], c ≠ d := by
    have hstart : ∀ d ∈ ['n', 't', 'f', '"', '[', '\x7b'], ¬ (d.isDigit ∨ d = '-') := by simp
    rintro d hd rfl
    exact hstart c hd hc
  rw [parseValue, if_neg (hother _ (by simp)), if_neg (hother _ (by simp)),
    if_neg (hother _ (by simp)), if_neg (hother _ (by simp)), if_neg (hother _ (by simp)),
    if_neg (hother _ (by simp))]

theorem printItems_head (v : Json) (vs : List Json) :
    ∃ c l, printItems (v :: vs) = c :: l ∧ c ≠ ']' := by
  obtain ⟨c, l, h, hc⟩ := print_head v
  cases vs with
  | nil => exact ⟨c, l, h, hc⟩
  | cons w vs => exact ⟨c, l ++ ',' :: printItems (w :: vs), by rw [printItems, h]; rfl, hc⟩

theorem printFields_head (field : String × Json) (fields : List (String × Json)) :
    ∃ l, printFields (field :: fields) = '"' :: l := by
  cases fields with
  | nil => exact ⟨_, rfl⟩
  | cons other fields => exact ⟨_, rfl⟩

theorem stops_of_mem {c : Char} (hc : c ∈ [',', ']', '\x7d']) (rest : List Char) :
    Stops (c :: rest) := by
  have hall : ∀ d ∈ [',', ']', '\x7d'], d.isDigit = false ∧ d ≠ '.' := by simp
  intro d hd
  obtain rfl := Option.some.inj hd
  exact hall c hc

/-- What a float is read back as. -/
def zero (_ : F64) : F64 := ⟨0⟩

mutual

theorem parseValue_print : ∀ (v : Json) {n : Nat} {rest : List Char}, v.Canonical →
    (print v).length ≤ n → Stops rest →
    parseValue n (print v ++ rest) = some (v.mapFloats zero, rest)
  | v, 0, rest, _, hn, _ => by
    obtain ⟨c, l, h, -⟩ := print_head v
    rw [h] at hn
    cases hn
  | .null, n + 1, rest, _, _, _ => readWord_append ['u', 'l', 'l'] .null rest
  | .bool true, n + 1, rest, _, _, _ => readWord_append ['r', 'u', 'e'] (.bool true) rest
  | .bool false, n + 1, rest, _, _, _ => readWord_append ['a', 'l', 's', 'e'] (.bool false) rest
  | .number number, n + 1, rest, hv, _, hrest => by
    obtain ⟨c, l, h, hc⟩ := printNumber_head number
    have hread := readNumber_print hv hrest
    rw [h] at hread
    rw [print, h, List.cons_append, parseValue_number hc]
    exact hread
  | .string s, n + 1, rest, _, _, _ => by
    show (readString (s.toList.flatMap escape ++ ['"'] ++ rest)).map _ = _
    rw [List.append_assoc, List.singleton_append, readString_print]
    rfl
  | .array [], n + 1, rest, _, _, _ => rfl
  | .array (v :: vs), n + 1, rest, hv, hn, _ => by
    obtain ⟨c, l, h, hc⟩ := printItems_head v vs
    have hhead : (printItems (v :: vs) ++ ']' :: rest).head? ≠ some ']' := by
      rw [h]
      exact fun heq => hc (Option.some.inj heq)
    rw [print, List.length_cons, List.length_append, List.length_singleton] at hn
    rw [print, List.cons_append, List.append_assoc, List.singleton_append]
    show (if (printItems (v :: vs) ++ ']' :: rest).head? = some ']' then _
      else (parseItems n (printItems (v :: vs) ++ ']' :: rest)).map _) = _
    rw [if_neg hhead, parseItems_print (v :: vs) (List.cons_ne_nil _ _) hv (by omega)]
    rfl
  | .object [], n + 1, rest, _, _, _ => rfl
  | .object (field :: fields), n + 1, rest, hv, hn, _ => by
    obtain ⟨l, h⟩ := printFields_head field fields
    have hhead : (printFields (field :: fields) ++ '\x7d' :: rest).head? ≠ some '\x7d' := by
      rw [h]
      exact fun heq => absurd (Option.some.inj heq) (by decide)
    rw [print, List.length_cons, List.length_append, List.length_singleton] at hn
    rw [print, List.cons_append, List.append_assoc, List.singleton_append]
    show (if (printFields (field :: fields) ++ '\x7d' :: rest).head? = some '\x7d' then _
      else (parseFields n (printFields (field :: fields) ++ '\x7d' :: rest)).map _) = _
    rw [if_neg hhead,
      parseFields_print (field :: fields) (List.cons_ne_nil _ _) hv.1 hv.2 (by omega)]
    rfl

theorem parseItems_print : ∀ (items : List Json) {n : Nat} {rest : List Char}, items ≠ [] →
    Json.CanonicalItems items → (printItems items).length < n →
    parseItems n (printItems items ++ ']' :: rest) = some (Json.mapFloatsItems zero items, rest)
  | [], _, _, h, _, _ => absurd rfl h
  | v :: vs, 0, _, _, _, hn => absurd hn (Nat.not_lt_zero _)
  | [v], n + 1, rest, _, hv, hn => by
    rw [printItems] at hn
    rw [parseItems, printItems,
      parseValue_print v hv.1 (by omega) (stops_of_mem (c := ']') (by simp) rest)]
    rfl
  | v :: w :: vs, n + 1, rest, _, hv, hn => by
    rw [printItems, List.length_append, List.length_cons] at hn
    rw [parseItems, printItems, List.append_assoc, List.cons_append,
      parseValue_print v hv.1 (by omega) (stops_of_mem (c := ',') (by simp) _)]
    show (parseItems n (printItems (w :: vs) ++ ']' :: rest)).map _ = _
    rw [parseItems_print (w :: vs) (List.cons_ne_nil _ _) hv.2 (by omega)]
    rfl

theorem parseFields_print : ∀ (fields : List (String × Json)) {n : Nat} {rest : List Char},
    fields ≠ [] → (fields.map Prod.fst).Pairwise (· < ·) → Json.CanonicalFields fields →
    (printFields fields).length < n →
    parseFields n (printFields fields ++ '}' :: rest) =
      some (Json.mapFloatsFields zero fields, rest)
  | [], _, _, h, _, _, _ => absurd rfl h
  | _ :: _, 0, _, _, _, _, hn => absurd hn (Nat.not_lt_zero _)
  | [(k, v)], n + 1, rest, _, _, hv, hn => by
    rw [printFields, List.length_append, List.length_cons] at hn
    have hread := parseValue_print v hv.1 (show (print v).length ≤ n by omega)
      (stops_of_mem (c := '\x7d') (by simp) rest)
    simp only [parseFields, printFields, List.append_assoc, List.cons_append, readKey_print, hread]
    rfl
  | (k, v) :: field :: fields, n + 1, rest, _, hs, hv, hn => by
    rw [printFields, List.length_append, List.length_cons, List.length_append,
      List.length_cons] at hn
    have hread := parseValue_print v hv.1 (show (print v).length ≤ n by omega)
      (stops_of_mem (c := ',') (by simp) (printFields (field :: fields) ++ '\x7d' :: rest))
    have hrest : parseFields n (printFields (field :: fields) ++ '\x7d' :: rest) =
        some (Json.mapFloatsFields zero (field :: fields), rest) :=
      parseFields_print (field :: fields) (List.cons_ne_nil _ _) hs.tail hv.2 (by omega)
    simp only [parseFields, printFields, List.append_assoc, List.cons_append, readKey_print, hread,
      hrest, Option.map_some]
    have hsorted : ((k, v.mapFloats zero) :: Json.mapFloatsFields zero (field :: fields)).map Prod.fst
        |>.Pairwise (· < ·) := by
      rw [List.map_cons, Json.mapFloatsFields_keys]
      exact hs
    exact congrArg (fun fs => some (fs, rest)) (addField_sorted hsorted)

end

theorem parse_toText {v : Json} (hv : v.Canonical) :
    parse (asBytes (toText v)) = some (v.mapFloats zero) := by
  have hend : Stops [] := fun c hc => by cases hc
  have hread := parseValue_print v hv (Nat.le_refl _) hend
  rw [List.append_nil] at hread
  rw [parse, fromUtf8_asBytes, toText]
  simp only [String.toList_ofList, hread]

end CompactJson

/-- Compact JSON, computed. -/
abbrev compactJson : JsonCodec where
  toText := CompactJson.toText
  parse := CompactJson.parse
  reread := CompactJson.zero
  parse_toText _ hv _ := CompactJson.parse_toText hv
  eq_of_parse_toText _ _ hv h := Option.some.inj (h.symm.trans (CompactJson.parse_toText hv))

example : compactJson.toText (.object [("a", .array [.null, .number (.posInt 7)]), ("b", .string "é\n")]) =
    "\x7b\"a\":[null,7],\"b\":\"é\\n\"\x7d" := by decide +kernel

end Featherbit
