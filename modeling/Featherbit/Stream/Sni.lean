/-
  THE SERVER NAME OF A TLS CLIENTHELLO (`stream/sni.rs`), read without terminating TLS.

  `extractSni` works on what has been received so far.  Every length it reads is clamped twice: to
  the region that declares it, and to the bytes received.  The parser is cut at its two loops and
  at the stages before them:

  * `handshakeEnd` reads the record header and the handshake header;
  * `skipFields` walks over the fixed fields and the three vectors before the extensions;
  * `scanExtensions` looks for the server_name extension, `parseServerName` for a host name in it.

  A stage that answers early is an `Except.error` of the answer.  `usize` is `Nat`: every sum is of
  a position in the buffer and lengths of at most three bytes.
-/
import Featherbit.Lib.Wire
import Featherbit.Rust.Std

namespace Featherbit

/-- Outcome of parsing a (possibly partial) TLS record for the SNI hostname. -/
inductive SniResult where
  /-- SNI hostname found (lowercased) -/
  | found (host : String)
  /-- no SNI, or not a ClientHello: route to the default pool -/
  | notPresent
  /-- the buffer is shorter than a declared length: read more and retry -/
  | incomplete
deriving DecidableEq

/-- Big-endian `u16` at `buf[p..p+2]`. -/
def be16 (buf : Bytes) (p : Nat) : Option Nat := do
  let hi ← buf[p]?
  let lo ← buf[p + 1]?
  some (hi.toNat <<< 8 ||| lo.toNat)

/-- Big-endian `u24` at `buf[p..p+3]`. -/
def be24 (buf : Bytes) (p : Nat) : Option Nat := do
  let a ← buf[p]?
  let b ← buf[p + 1]?
  let c ← buf[p + 2]?
  some (a.toNat <<< 16 ||| b.toNat <<< 8 ||| c.toNat)

/-- Max TLS record length; a larger declared length is treated as malformed. -/
def maxRecordLen : Nat := 16640

/-- Advances `p` by `n`, or `none` if that would exceed `ceiling`. -/
def advance (p n ceiling : Nat) : Option Nat :=
  let next := p + n
  if next ≤ ceiling then some next else none

/-- Skips a vector with a length prefix of `lenBytes` (1 or 2) bytes; `none` is `Skip::Short`. -/
def skipVec (buf : Bytes) (p lenBytes ceiling : Nat) : Option Nat := do
  let len ←
    if lenBytes = 1 then
      match buf[p]? with
      | some b => if p < ceiling then some b.toNat else none
      | none => none
    else
      match be16 buf p with
      | some n => if p + 2 ≤ ceiling then some n else none
      | none => none
  advance (p + lenBytes) len ceiling

/-- The answer for the bytes of a host_name: the name in lower case, if it is non-empty UTF-8. -/
def hostNameAnswer (name : Bytes) : SniResult :=
  match fromUtf8 name with
  | some s => if s ≠ "" then .found (toAsciiLowercase s) else .notPresent
  | none => .notPresent

/-- The entries of a server_name list, from `q` on: the first host_name decides. -/
def scanNames (buf : Bytes) (listEnd q : Nat) : SniResult :=
  if q + 3 ≤ listEnd then
    let nameType := buf[q]?
    match be16 buf (q + 1) with
    | none => .incomplete
    | some nameLen =>
      let nameEnd := q + 3 + nameLen
      if nameEnd > buf.length then .incomplete
      else if nameEnd > listEnd then .notPresent
      else if nameType = some 0x00 then hostNameAnswer ((buf.drop (q + 3)).take nameLen)
      else scanNames buf listEnd nameEnd
  else .notPresent
termination_by listEnd - q

/-- `parse_server_name`: the `server_name` extension body `buf[start..end]`. -/
def parseServerName (buf : Bytes) (start bodyEnd : Nat) : SniResult :=
  match be16 buf start with
  | none => .incomplete
  | some listLen =>
    let q := start + 2
    let listEnd := q + listLen
    if listEnd > buf.length then .incomplete
    else if listEnd > bodyEnd then .notPresent
    else scanNames buf listEnd q

/-- The extensions, from the header at `p` on: the first server_name decides. -/
def scanExtensions (buf : Bytes) (extEnd p : Nat) : SniResult :=
  if p + 4 ≤ extEnd then
    match be16 buf p with
    | none => .incomplete
    | some extType =>
      match be16 buf (p + 2) with
      | none => .incomplete
      | some extLen =>
        let bodyStart := p + 4
        let bodyEnd := bodyStart + extLen
        if bodyEnd > buf.length then .incomplete
        else if bodyEnd > extEnd then .notPresent
        else if extType = 0x0000 then parseServerName buf bodyStart bodyEnd
        else scanExtensions buf extEnd bodyEnd
  else .notPresent
termination_by extEnd - p

/-- The record header and the handshake header: where the handshake ends (`hs_end`). -/
def handshakeEnd (buf : Bytes) : Except SniResult Nat :=
  if buf.length < 5 then .error .incomplete
  else if buf[0]? ≠ some 0x16 then .error .notPresent
  else if buf[1]? ≠ some 0x03 then .error .notPresent
  else
    match be16 buf 3 with
    | none => .error .incomplete
    | some recordLen =>
      if recordLen > maxRecordLen then .error .notPresent
      else
        let recordEnd := min (5 + recordLen) buf.length
        if recordEnd < 9 then .error .incomplete
        else if buf[5]? ≠ some 0x01 then .error .notPresent
        else
          match be24 buf 6 with
          | none => .error .incomplete
          | some hsLen => .ok (min (9 + hsLen) recordEnd)

/-- The ClientHello body up to the extensions: legacy_version and random, session_id,
    cipher_suites, compression_methods. -/
def skipFields (buf : Bytes) (hsEnd : Nat) : Option Nat := do
  let p ← advance 9 (2 + 32) hsEnd
  let p ← skipVec buf p 1 hsEnd
  let p ← skipVec buf p 2 hsEnd
  skipVec buf p 1 hsEnd

/-- The extensions block, whose length is at `p`. -/
def readExtensions (buf : Bytes) (hsEnd p : Nat) : SniResult :=
  if p = hsEnd then .notPresent
  else
    match be16 buf p with
    | none => .incomplete
    | some extTotal => scanExtensions buf (min (p + 2 + extTotal) hsEnd) (p + 2)

/-- `extract_sni`. -/
def extractSni (buf : Bytes) : SniResult :=
  match handshakeEnd buf with
  | .error answer => answer
  | .ok hsEnd =>
    match skipFields buf hsEnd with
    | none => .incomplete
    | some p => readExtensions buf hsEnd p

/-! ## Choosing a pool -/

/-- An SNI match pattern: exact hostname or a single-label wildcard. -/
inductive SniPattern where
  | exact (host : String)
  /-- the suffix after `*.` -/
  | wildcard (base : String)
deriving DecidableEq

namespace SniPattern

def parse (s : String) : SniPattern :=
  let s := toAsciiLowercase s
  match stripPrefix "*." s with
  | some rest => .wildcard rest
  | none => .exact s

def «matches» (pattern : SniPattern) (host : String) : Bool :=
  let host := toAsciiLowercase host
  match pattern with
  | .exact e => e = host
  | .wildcard base =>
    match stripSuffix base host with
    | some pre =>
      pre.toList.getLast? = some '.' && decide (pre.toList.length > 1) &&
        !pre.toList.dropLast.contains '.'
    | none => false

end SniPattern

/-- Backend pools by SNI hostname, and a default pool. -/
structure SniRouter (β : Type) where
  routes : List (SniPattern × β)
  default : β

namespace SniRouter

variable {β : Type}

def new (routes : List (String × β)) (default : β) : SniRouter β where
  routes := routes.map fun (name, pool) => (SniPattern.parse name, pool)
  default := default

def hasSniRoutes (router : SniRouter β) : Bool := !router.routes.isEmpty

/-- The pool of the first matching route, else the default. -/
def select (router : SniRouter β) (sni : Option String) : β :=
  match sni with
  | some host => ((router.routes.find? fun route => route.1.matches host).map (·.2)).getD router.default
  | none => router.default

end SniRouter

/-! ## What the readers read -/

section Readers

variable {buf : Bytes} {p n : Nat}

theorem be16_eq_some : be16 buf p = some n ↔
    ∃ hi lo, buf[p]? = some hi ∧ buf[p + 1]? = some lo ∧ n = hi.toNat * 256 + lo.toNat := by
  have hor : ∀ hi lo : UInt8, hi.toNat <<< 8 ||| lo.toNat = hi.toNat * 256 + lo.toNat := by
    intro hi lo
    have hlt := lo.toNat_lt
    rw [← Nat.shiftLeft_add_eq_or_of_lt (by omega), Nat.shiftLeft_eq]
  unfold be16
  cases hhi : buf[p]? with
  | none => simp
  | some hi => cases hlo : buf[p + 1]? <;> simp [hor, eq_comm]

theorem be24_eq_some : be24 buf p = some n ↔
    ∃ a b c, buf[p]? = some a ∧ buf[p + 1]? = some b ∧ buf[p + 2]? = some c ∧
      n = a.toNat * 65536 + b.toNat * 256 + c.toNat := by
  have hor : ∀ a b c : UInt8, a.toNat <<< 16 ||| b.toNat <<< 8 ||| c.toNat =
      a.toNat * 65536 + b.toNat * 256 + c.toNat := by
    intro a b c
    have hb := b.toNat_lt
    have hc := c.toNat_lt
    have hbc : b.toNat <<< 8 ||| c.toNat = b.toNat * 256 + c.toNat := by
      rw [← Nat.shiftLeft_add_eq_or_of_lt (by omega), Nat.shiftLeft_eq]
    rw [Nat.lor_assoc, hbc, ← Nat.shiftLeft_add_eq_or_of_lt (by omega), Nat.shiftLeft_eq,
      ← Nat.add_assoc]
  unfold be24
  cases ha : buf[p]? with
  | none => simp
  | some a =>
    cases hb : buf[p + 1]? with
    | none => simp
    | some b => cases hc : buf[p + 2]? <;> simp [hor, eq_comm]

/-- A number is read exactly where its bytes have been received. -/
theorem be16_eq_none : be16 buf p = none ↔ buf.length < p + 2 := by
  rw [Option.eq_none_iff_forall_ne_some]
  constructor
  · intro h
    by_contra hlen
    have hp : p < buf.length := by omega
    have hp' : p + 1 < buf.length := by omega
    exact h _ (be16_eq_some.mpr ⟨buf[p], buf[p + 1], List.getElem?_eq_getElem hp,
      List.getElem?_eq_getElem hp', rfl⟩)
  · intro h n hn
    obtain ⟨_, _, -, hlo, -⟩ := be16_eq_some.mp hn
    have hlt := (List.getElem?_eq_some_iff.mp hlo).1
    omega

theorem length_of_be16 (h : be16 buf p = some n) : p + 2 ≤ buf.length := by
  by_contra hlen
  rw [be16_eq_none.mpr (by omega)] at h
  nomatch h

theorem length_of_be24 (h : be24 buf p = some n) : p + 3 ≤ buf.length := by
  obtain ⟨_, _, _, -, -, hc, -⟩ := be24_eq_some.mp h
  have hlt := (List.getElem?_eq_some_iff.mp hc).1
  omega

theorem advance_eq_some {k ceiling q : Nat} :
    advance p k ceiling = some q ↔ p + k = q ∧ q ≤ ceiling := by
  unfold advance
  dsimp only
  split
  · rename_i hle
    rw [Option.some.injEq]
    omega
  · rename_i hgt
    constructor
    · nofun
    · omega

/-- A vector that is skipped: its length is read below the ceiling and its end is not above it. -/
theorem skipVec_one {ceiling q : Nat} : skipVec buf p 1 ceiling = some q ↔
    ∃ b, buf[p]? = some b ∧ p + 1 + b.toNat = q ∧ q ≤ ceiling := by
  unfold skipVec
  rw [if_pos rfl]
  cases hb : buf[p]? with
  | none => simp
  | some b =>
    by_cases hp : p < ceiling
    · simp [hp, advance_eq_some]
    · simp only [if_neg hp, Option.bind_eq_bind, Option.bind_none, reduceCtorEq, Option.some.injEq,
        exists_eq_left', false_iff]
      omega

theorem skipVec_two {ceiling q : Nat} : skipVec buf p 2 ceiling = some q ↔
    ∃ n, be16 buf p = some n ∧ p + 2 + n = q ∧ q ≤ ceiling := by
  unfold skipVec
  rw [if_neg (by decide)]
  cases hn : be16 buf p with
  | none => simp
  | some n =>
    by_cases hp : p + 2 ≤ ceiling
    · simp [hp, advance_eq_some]
    · simp only [if_neg hp, Option.bind_eq_bind, Option.bind_none, reduceCtorEq, Option.some.injEq,
        exists_eq_left', false_iff]
      omega

/-- The fields before the extensions, where they are walked over. -/
theorem skipFields_eq_some {hsEnd q : Nat} : skipFields buf hsEnd = some q ↔
    ∃ session ciphers compression : Nat,
      buf[43]?.map UInt8.toNat = some session ∧
      be16 buf (44 + session) = some ciphers ∧
      buf[46 + session + ciphers]?.map UInt8.toNat = some compression ∧
      q = 47 + session + ciphers + compression ∧ q ≤ hsEnd := by
  have hdo : skipFields buf hsEnd = some q ↔ ∃ p1, advance 9 34 hsEnd = some p1 ∧
      ∃ p2, skipVec buf p1 1 hsEnd = some p2 ∧ ∃ p3, skipVec buf p2 2 hsEnd = some p3 ∧
        skipVec buf p3 1 hsEnd = some q := by
    simp only [skipFields, Option.bind_eq_bind, Option.bind_eq_some_iff]
  rw [hdo]
  simp only [advance_eq_some, skipVec_one, skipVec_two, Option.map_eq_some_iff]
  constructor
  · rintro ⟨_, ⟨rfl, -⟩, _, ⟨s, hs, rfl, -⟩, _, ⟨n, hn, rfl, -⟩, c, hc, rfl, hle⟩
    refine ⟨s.toNat, n, c.toNat, ⟨s, hs, rfl⟩, hn, ⟨c, ?_, rfl⟩, by omega, hle⟩
    rw [← hc]
    congr 1
    omega
  · rintro ⟨_, n, _, ⟨s, hs, rfl⟩, hn, ⟨c, hc, rfl⟩, rfl, hle⟩
    refine ⟨43, ⟨rfl, by omega⟩, _, ⟨s, hs, rfl, by omega⟩, _, ⟨n, hn, rfl, by omega⟩, c, ?_,
      by omega, hle⟩
    rw [← hc]
    congr 1
    omega

end Readers

end Featherbit
