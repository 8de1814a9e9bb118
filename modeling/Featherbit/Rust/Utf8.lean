/-
  WHY A BYTE STRING IS NOT UTF-8 (`core::str::Utf8Error`).

  `fromUtf8` says whether a byte string decodes; a caller that wants the longest valid prefix, or
  wants to tell a character cut by the end of the input from an invalid byte, reads the error.
  The byte ranges are those of the standard library's decoder (no overlong forms, no surrogates,
  nothing above U+10FFFF).
-/
import Featherbit.Rust.Std

namespace Featherbit

/-- `Utf8Error`: the length of the longest valid prefix, and the length of the invalid sequence
    after it (`none` when the input ended inside a character). -/
structure Utf8Error where
  validUpTo : Nat
  errorLen : Option Nat
deriving DecidableEq

def isContinuation (b : UInt8) : Bool := 0x80 ≤ b && b ≤ 0xBF

/-- Number of bytes of the character a first byte announces, `0` for a byte that starts none. -/
def utf8Width (b : UInt8) : Nat :=
  if b < 0x80 then 1
  else if 0xC2 ≤ b ∧ b ≤ 0xDF then 2
  else if 0xE0 ≤ b ∧ b ≤ 0xEF then 3
  else if 0xF0 ≤ b ∧ b ≤ 0xF4 then 4
  else 0

/-- The second bytes a first byte allows. -/
def secondByteOk (first second : UInt8) : Bool :=
  if first = 0xE0 then 0xA0 ≤ second && second ≤ 0xBF
  else if first = 0xED then 0x80 ≤ second && second ≤ 0x9F
  else if first = 0xF0 then 0x90 ≤ second && second ≤ 0xBF
  else if first = 0xF4 then 0x80 ≤ second && second ≤ 0x8F
  else isContinuation second

/-- The continuation bytes still due after `done` good bytes of a character: the bytes left over,
    or the length of the sequence that went wrong. -/
def readContinuation : Nat → Nat → Bytes → Except (Option Nat) Bytes
  | 0, _, rest => .ok rest
  | _ + 1, _, [] => .error none
  | n + 1, done, b :: rest =>
    if isContinuation b then readContinuation n (done + 1) rest else .error (some done)

/-- One character at the head of the input: the bytes after it, or the `error_len` of the failure. -/
def readUtf8Char : Bytes → Except (Option Nat) Bytes
  | [] => .error none
  | first :: rest =>
    match utf8Width first with
    | 0 => .error (some 1)
    | 1 => .ok rest
    | w + 2 =>
      match rest with
      | [] => .error none
      | second :: rest' =>
        if secondByteOk first second then readContinuation w 2 rest' else .error (some 1)

/-- The error of `std::str::from_utf8`, found by reading character after character from offset
    `pos`; every character takes a byte, so the input's length is enough fuel. -/
def utf8ErrorFrom : Nat → Nat → Bytes → Option Utf8Error
  | 0, _, _ => none
  | _ + 1, _, [] => none
  | fuel + 1, pos, b :: bs =>
    match readUtf8Char (b :: bs) with
    | .ok rest => utf8ErrorFrom fuel (pos + ((b :: bs).length - rest.length)) rest
    | .error errorLen => some { validUpTo := pos, errorLen := errorLen }

def utf8Error (bs : Bytes) : Option Utf8Error := utf8ErrorFrom bs.length 0 bs

/-- The bytes of the text with U+FFFD for every invalid sequence; a character cut by the end of the
    input is one. -/
def lossyBytes : Nat → Bytes → Bytes
  | 0, _ => []
  | _ + 1, [] => []
  | fuel + 1, b :: bs =>
    match readUtf8Char (b :: bs) with
    | .ok rest => (b :: bs).take ((b :: bs).length - rest.length) ++ lossyBytes fuel rest
    | .error (some errorLen) => asBytes "\uFFFD" ++ lossyBytes fuel ((b :: bs).drop errorLen)
    | .error none => asBytes "\uFFFD"

/-- `String::from_utf8_lossy`. -/
def fromUtf8Lossy (bs : Bytes) : String :=
  match fromUtf8 bs with
  | some s => s
  | none => (fromUtf8 (lossyBytes bs.length bs)).getD ""

example : utf8Error (asBytes "aé") = none := by decide
example : utf8Error [0x61, 0xC3] = some ⟨1, none⟩ := by decide
example : utf8Error [0x61, 0xED, 0xA0, 0x80] = some ⟨1, some 1⟩ := by decide
example : lossyBytes 3 [0x61, 0xFF, 0x62] = asBytes "a\uFFFDb" := by decide

end Featherbit
