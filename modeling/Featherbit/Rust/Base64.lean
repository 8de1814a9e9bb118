/-
  BASE64 (RFC 4648): the two engines of the `base64` crate the gateway uses, `STANDARD` and
  `URL_SAFE_NO_PAD`.

  They are parameters, known through what decoding an encoding gives.  `standardBase64` and
  `urlSafeBase64` are instances of them that compute: three octets are four digits, one or two
  octets at the end are two or three, and the standard alphabet fills those up with `=`.
-/
import Featherbit.Rust.Std

namespace Featherbit

/-- Standard base64 (RFC 4648), as far as it is used here. -/
class Base64 where
  decode : Bytes → Except String Bytes

/-- Both directions. -/
class Base64Codec extends Base64 where
  encode : Bytes → String
  decode_encode : ∀ bytes, decode (asBytes (encode bytes)) = .ok bytes

/-- The URL-safe alphabet, without padding. -/
class Base64Url where
  encode : Bytes → String
  decode : Bytes → Option Bytes
  decode_encode : ∀ bytes, decode (asBytes (encode bytes)) = some bytes

namespace Rfc4648

/-- What sets the two alphabets apart. -/
structure Alphabet where
  c62 : Char
  c63 : Char
  padded : Bool
deriving DecidableEq

def standard : Alphabet := { c62 := '+', c63 := '/', padded := true }

def urlSafe : Alphabet := { c62 := '-', c63 := '_', padded := false }

def digits (a : Alphabet) : List Char :=
  "ABCDEFGHIJKLMNOPQRSTUVWXYZabcdefghijklmnopqrstuvwxyz0123456789".toList ++ [a.c62, a.c63]

def digit (a : Alphabet) (n : Nat) : Char := (digits a).getD n 'A'

def value (a : Alphabet) (c : Char) : Option Nat := (digits a).findIdx? (· = c)

/-- The digits of some octets. -/
def encode (a : Alphabet) : List Nat → List Char
  | [] => []
  | [x] => [digit a (x / 4), digit a (x % 4 * 16)] ++ if a.padded then ['=', '='] else []
  | [x, y] =>
    [digit a (x / 4), digit a (x % 4 * 16 + y / 16), digit a (y % 16 * 4)] ++
      if a.padded then ['='] else []
  | x :: y :: z :: rest =>
    digit a (x / 4) :: digit a (x % 4 * 16 + y / 16) :: digit a (y % 16 * 4 + z / 64) ::
      digit a (z % 64) :: encode a rest

/-- One octet from the two digits at the end; the bits left over must be zero. -/
def decodeOne (a : Alphabet) (c d : Char) : Option (List Nat) := do
  let x ← value a c
  let y ← value a d
  if y % 16 = 0 then some [x * 4 + y / 16] else none

/-- Two octets from the three digits at the end. -/
def decodeTwo (a : Alphabet) (c d e : Char) : Option (List Nat) := do
  let x ← value a c
  let y ← value a d
  let z ← value a e
  if z % 4 = 0 then some [x * 4 + y / 16, y % 16 * 16 + z / 4] else none

/-- The octets of some digits. -/
def decode (a : Alphabet) : List Char → Option (List Nat)
  | [] => some []
  | [c, d] => if a.padded then none else decodeOne a c d
  | [c, d, e] => if a.padded then none else decodeTwo a c d e
  | c :: d :: e :: f :: rest =>
    if a.padded ∧ f = '=' ∧ rest = [] then
      if e = '=' then decodeOne a c d else decodeTwo a c d e
    else do
      let x ← value a c
      let y ← value a d
      let z ← value a e
      let w ← value a f
      let octets ← decode a rest
      some ([x * 4 + y / 16, y % 16 * 16 + z / 4, z % 4 * 64 + w] ++ octets)
  | _ => none

/-- The two alphabets in use. -/
def Known (a : Alphabet) : Prop := a = standard ∨ a = urlSafe

theorem value_digit {a : Alphabet} (ha : Known a) {n : Nat} (hn : n < 64) :
    value a (digit a n) = some n := by
  have hall : ∀ a ∈ [standard, urlSafe], ∀ i : Fin 64, value a (digit a i) = some i.val := by
    decide +kernel
  exact hall a (by simpa [Known] using ha) ⟨n, hn⟩

theorem digit_ne_pad {a : Alphabet} (ha : Known a) {n : Nat} (hn : n < 64) : digit a n ≠ '=' := by
  have hall : ∀ a ∈ [standard, urlSafe], ∀ i : Fin 64, digit a i ≠ '=' := by
    decide +kernel
  exact hall a (by simpa [Known] using ha) ⟨n, hn⟩

theorem decode_encode {a : Alphabet} (ha : Known a) (octets : List Nat)
    (hoctets : ∀ x ∈ octets, x < 256) : decode a (encode a octets) = some octets := by
  induction octets using encode.induct with
  | case1 => simp [encode, decode]
  | case2 x =>
    have hx := hoctets x (by simp)
    have hone : decodeOne a (digit a (x / 4)) (digit a (x % 4 * 16)) = some [x] := by
      have hback : x / 4 * 4 + x % 4 * 16 / 16 = x := by omega
      rw [decodeOne, value_digit ha (by omega), value_digit ha (by omega)]
      show (if x % 4 * 16 % 16 = 0 then some [x / 4 * 4 + x % 4 * 16 / 16] else none) = _
      rw [if_pos (by omega), hback]
    rw [encode]
    split
    · rename_i hp
      rw [List.cons_append, List.cons_append, List.nil_append, decode]
      simpa [hp] using hone
    · rename_i hp
      rw [List.append_nil, decode]
      simpa [hp] using hone
  | case3 x y =>
    have hx := hoctets x (by simp)
    have hy := hoctets y (by simp)
    have htwo : decodeTwo a (digit a (x / 4)) (digit a (x % 4 * 16 + y / 16))
        (digit a (y % 16 * 4)) = some [x, y] := by
      have hfirst : x / 4 * 4 + (x % 4 * 16 + y / 16) / 16 = x := by omega
      have hsecond : (x % 4 * 16 + y / 16) % 16 * 16 + y % 16 * 4 / 4 = y := by omega
      rw [decodeTwo, value_digit ha (by omega), value_digit ha (by omega),
        value_digit ha (by omega)]
      show (if y % 16 * 4 % 4 = 0 then some [x / 4 * 4 + (x % 4 * 16 + y / 16) / 16,
        (x % 4 * 16 + y / 16) % 16 * 16 + y % 16 * 4 / 4] else none) = _
      rw [if_pos (by omega), hfirst, hsecond]
    have hpad : digit a (y % 16 * 4) ≠ '=' := digit_ne_pad ha (by omega)
    rw [encode]
    split
    · rename_i hp
      rw [List.cons_append, List.cons_append, List.cons_append, List.nil_append, decode]
      simpa [hp, hpad] using htwo
    · rename_i hp
      rw [List.append_nil, decode]
      simpa [hp] using htwo
  | case4 x y z rest ih =>
    have hx := hoctets x (by simp)
    have hy := hoctets y (by simp)
    have hz := hoctets z (by simp)
    have hpad : digit a (z % 64) ≠ '=' := digit_ne_pad ha (by omega)
    have hfirst : x / 4 * 4 + (x % 4 * 16 + y / 16) / 16 = x := by omega
    have hsecond : (x % 4 * 16 + y / 16) % 16 * 16 + (y % 16 * 4 + z / 64) / 4 = y := by omega
    have hthird : (y % 16 * 4 + z / 64) % 4 * 64 + z % 64 = z := by omega
    rw [encode, decode, if_neg fun h => hpad h.2.1, value_digit ha (by omega),
      value_digit ha (by omega), value_digit ha (by omega), value_digit ha (by omega),
      ih fun v hv => hoctets v (by simp [hv])]
    show some ([x / 4 * 4 + (x % 4 * 16 + y / 16) / 16,
      (x % 4 * 16 + y / 16) % 16 * 16 + (y % 16 * 4 + z / 64) / 4,
      (y % 16 * 4 + z / 64) % 4 * 64 + z % 64] ++ rest) = _
    rw [hfirst, hsecond, hthird]
    rfl

/-- Octets as text, and back. -/
def encodeBytes (a : Alphabet) (bytes : Bytes) : String :=
  String.ofList (encode a (bytes.map UInt8.toNat))

def decodeBytes (a : Alphabet) (text : Bytes) : Option Bytes := do
  let s ← fromUtf8 text
  let octets ← decode a s.toList
  some (octets.map UInt8.ofNat)

theorem decodeBytes_encodeBytes {a : Alphabet} (ha : Known a) (bytes : Bytes) :
    decodeBytes a (asBytes (encodeBytes a bytes)) = some bytes := by
  have hoctets : ∀ x ∈ bytes.map UInt8.toNat, x < 256 := by
    intro x hx
    obtain ⟨b, -, rfl⟩ := List.mem_map.mp hx
    exact b.toNat_lt
  have hback : (bytes.map UInt8.toNat).map UInt8.ofNat = bytes := by
    rw [List.map_map]
    exact List.map_id'' (fun b => UInt8.ofNat_toNat) bytes
  rw [decodeBytes, fromUtf8_asBytes, encodeBytes]
  show (decode a (String.ofList _).toList >>= _) = _
  rw [String.toList_ofList, decode_encode ha _ hoctets]
  exact congrArg some hback

end Rfc4648

/-- `STANDARD`, computed. -/
abbrev standardBase64 : Base64Codec where
  decode text :=
    match Rfc4648.decodeBytes Rfc4648.standard text with
    | some bytes => .ok bytes
    | none => .error "invalid base64"
  encode := Rfc4648.encodeBytes Rfc4648.standard
  decode_encode bytes := by rw [Rfc4648.decodeBytes_encodeBytes (Or.inl rfl)]

/-- `URL_SAFE_NO_PAD`, computed. -/
abbrev urlSafeBase64 : Base64Url where
  encode := Rfc4648.encodeBytes Rfc4648.urlSafe
  decode := Rfc4648.decodeBytes Rfc4648.urlSafe
  decode_encode := Rfc4648.decodeBytes_encodeBytes (Or.inr rfl)

example : standardBase64.encode (asBytes "Ma") = "TWE=" := by decide +kernel

end Featherbit
