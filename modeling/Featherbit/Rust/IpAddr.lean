/-
  IP ADDRESSES AND THEIR TEXTS (`core::net`): parsing and printing.

  1. **The parser** — numbers of at most so many digits, an IPv4 address as four of them, an IPv6
     address as groups up to the first `::` and the groups after it, either run closed by an embedded
     IPv4 address where two groups are still free.

  2. **The printer** — `::ffff:` before an IPv4 address that is mapped into IPv6, `::` for the longest
     run of zero groups (the first of the longest, if it has two groups or more), hexadecimal groups
     otherwise.

  3. **What is printed parses back** (`parse_display`).  An IPv6 text without an embedded IPv4 address
     has no dot, so every attempt to read one there fails (`readIpv4_eq_none`).
-/
import Featherbit.Rust.Std

namespace Featherbit

/-- `Ipv4Addr`, by its octets. -/
structure Ipv4Addr where
  a : UInt8
  b : UInt8
  c : UInt8
  d : UInt8
deriving DecidableEq

/-- `Ipv6Addr`, by its eight groups. -/
structure Ipv6Addr where
  segments : List UInt16
  length_eq : segments.length = 8
deriving DecidableEq

inductive IpAddr where
  | v4 (addr : Ipv4Addr)
  | v6 (addr : Ipv6Addr)
deriving DecidableEq

namespace IpText

/-! ## Numbers -/

/-- `c.to_digit(16)`. -/
def hexDigit (c : Char) : Option Nat :=
  if '0' ≤ c ∧ c ≤ '9' then some (c.toNat - '0'.toNat)
  else if 'a' ≤ c ∧ c ≤ 'f' then some (c.toNat - 'a'.toNat + 10)
  else if 'A' ≤ c ∧ c ≤ 'F' then some (c.toNat - 'A'.toNat + 10)
  else none

/-- `c.to_digit(radix)`, for a radix of 10 or 16. -/
def toDigit (radix : Nat) (c : Char) : Option Nat := (hexDigit c).filter fun d => d < radix

/-- The value of digits. -/
def valueOf (radix : Nat) (digits : List Char) : Nat :=
  digits.foldl (fun n c => n * radix + (toDigit radix c).getD 0) 0

/-- `read_number`: at most `maxDigits` digits, a value below `bound`. -/
def readNumber (radix maxDigits bound : Nat) (allowZeroPrefix : Bool) (cs : List Char) :
    Option (Nat × List Char) :=
  let digits := cs.takeWhile fun c => (toDigit radix c).isSome
  let n := valueOf radix digits
  if digits = [] ∨ maxDigits < digits.length ∨ bound ≤ n then none
  else if allowZeroPrefix = false ∧ digits.head? = some '0' ∧ 1 < digits.length then none
  else some (n, cs.dropWhile fun c => (toDigit radix c).isSome)

/-- `read_given_char`. -/
def readGivenChar (target : Char) : List Char → Option (List Char)
  | [] => none
  | c :: cs => if c = target then some cs else none

/-! ## Addresses -/

/-- One octet of an IPv4 text: no octal number. -/
def readOctet (cs : List Char) : Option (UInt8 × List Char) :=
  (readNumber 10 3 256 false cs).map fun r => (UInt8.ofNat r.1, r.2)

/-- `read_ipv4_addr`. -/
def readIpv4 (cs : List Char) : Option (Ipv4Addr × List Char) := do
  let (a, cs) ← readOctet cs
  let cs ← readGivenChar '.' cs
  let (b, cs) ← readOctet cs
  let cs ← readGivenChar '.' cs
  let (c, cs) ← readOctet cs
  let cs ← readGivenChar '.' cs
  let (d, cs) ← readOctet cs
  return (⟨a, b, c, d⟩, cs)

/-- One group of an IPv6 text. -/
def readGroup (cs : List Char) : Option (UInt16 × List Char) :=
  (readNumber 16 4 65536 true cs).map fun r => (UInt16.ofNat r.1, r.2)

/-- `read_separator` before the groups: none before the first one. -/
def readSeparator (first : Bool) (cs : List Char) : Option (List Char) :=
  if first then some cs else readGivenChar ':' cs

/-- The two groups of an embedded IPv4 address. -/
def embedded (v4 : Ipv4Addr) : List UInt16 :=
  [UInt16.ofNat (v4.a.toNat * 256 + v4.b.toNat), UInt16.ofNat (v4.c.toNat * 256 + v4.d.toNat)]

/-- `read_groups`: up to the given number of groups, and whether they end in an IPv4 address, which
    is tried where two groups are free. -/
def readGroups : Nat → Bool → List Char → List UInt16 × Bool × List Char
  | 0, _, cs => ([], false, cs)
  | free + 1, first, cs =>
    match if 0 < free then (readSeparator first cs).bind readIpv4 else none with
    | some (v4, cs) => (embedded v4, true, cs)
    | none =>
      match (readSeparator first cs).bind readGroup with
      | some (group, cs) =>
        let (groups, v4, cs) := readGroups free false cs
        (group :: groups, v4, cs)
      | none => ([], false, cs)

theorem readGroups_length : ∀ (free : Nat) (first : Bool) (cs : List Char),
    (readGroups free first cs).1.length ≤ free := by
  intro free
  induction free with
  | zero => intro first cs; exact Nat.le_refl 0
  | succ free ih =>
    intro first cs
    rw [readGroups]
    split
    · rename_i hv4
      split at hv4
      · rename_i hfree
        show 2 ≤ free + 1
        omega
      · cases hv4
    · split
      · rename_i group rest _
        show (readGroups free false rest).1.length + 1 ≤ free + 1
        have := ih false rest
        omega
      · exact Nat.zero_le _

/-- The groups before and after a `::`, with the zeros between them. -/
def aroundZeros (head tail : List UInt16) : List UInt16 :=
  head ++ List.replicate (8 - head.length - tail.length) 0 ++ tail

theorem aroundZeros_length {head tail : List UInt16} (h : head.length + tail.length ≤ 8) :
    (aroundZeros head tail).length = 8 := by
  simp only [aroundZeros, List.length_append, List.length_replicate]
  omega

/-- The groups read before a `::`. -/
def readHead (cs : List Char) : List UInt16 × Bool × List Char := readGroups 8 true cs

/-- The groups read after a `::`, which stands for one group at least. -/
def readTail (head : List UInt16) (cs : List Char) : List UInt16 × Bool × List Char :=
  readGroups (8 - (head.length + 1)) true cs

theorem readHead_readTail_length (cs cs' : List Char) :
    (readHead cs).1.length + (readTail (readHead cs).1 cs').1.length ≤ 8 := by
  have hhead : (readHead cs).1.length ≤ 8 := readGroups_length 8 true cs
  have htail : (readTail (readHead cs).1 cs').1.length ≤ 8 - ((readHead cs).1.length + 1) :=
    readGroups_length _ true cs'
  omega

/-- `read_ipv6_addr`. -/
def readIpv6 (cs : List Char) : Option (Ipv6Addr × List Char) :=
  let head := readHead cs
  if h : head.1.length = 8 then some (⟨head.1, h⟩, head.2.2)
  else if head.2.1 then none
  else
    ((readGivenChar ':' head.2.2).bind (readGivenChar ':')).map fun cs' =>
      (⟨aroundZeros head.1 (readTail head.1 cs').1, aroundZeros_length (readHead_readTail_length cs cs')⟩,
        (readTail head.1 cs').2.2)

/-- `parse_with`: the whole text is read. -/
def whole {α : Type} : Option (α × List Char) → Option α
  | some (value, []) => some value
  | _ => none

end IpText

/-- `s.parse::<IpAddr>()`: an IPv6 address is tried where no IPv4 address could be read. -/
def IpAddr.parse (s : String) : Option IpAddr :=
  IpText.whole <|
    match IpText.readIpv4 s.toList with
    | some (addr, rest) => some (.v4 addr, rest)
    | none => (IpText.readIpv6 s.toList).map fun r => (.v6 r.1, r.2)

/-! ## Printing -/

namespace IpText

/-- `Display for Ipv4Addr`. -/
def displayIpv4 (v4 : Ipv4Addr) : List Char :=
  Nat.toDigits 10 v4.a.toNat ++ '.' :: Nat.toDigits 10 v4.b.toNat ++
    '.' :: Nat.toDigits 10 v4.c.toNat ++ '.' :: Nat.toDigits 10 v4.d.toNat

/-- A run of groups. -/
structure Span where
  start : Nat
  len : Nat
deriving DecidableEq

/-- The longest run of zero groups from the `i`-th group on, with the run that ends there and the
    longest one before. -/
def longestZeros : Nat → Span → Span → List UInt16 → Span
  | _, _, longest, [] => longest
  | i, current, longest, segment :: segments =>
    if segment = 0 then
      let current := { start := if current.len = 0 then i else current.start, len := current.len + 1 }
      longestZeros (i + 1) current (if longest.len < current.len then current else longest) segments
    else longestZeros (i + 1) ⟨0, 0⟩ longest segments

/-- `fmt_subslice`. -/
def displayGroups : List UInt16 → List Char
  | [] => []
  | [group] => Nat.toDigits 16 group.toNat
  | group :: groups => Nat.toDigits 16 group.toNat ++ ':' :: displayGroups groups

/-- `to_ipv4_mapped`. -/
def toIpv4Mapped (v6 : Ipv6Addr) : Option Ipv4Addr :=
  match v6.segments with
  | [0, 0, 0, 0, 0, 0xffff, ab, cd] =>
    some ⟨UInt8.ofNat (ab.toNat / 256), UInt8.ofNat ab.toNat, UInt8.ofNat (cd.toNat / 256),
      UInt8.ofNat cd.toNat⟩
  | _ => none

/-- `Display for Ipv6Addr`. -/
def displayIpv6 (v6 : Ipv6Addr) : List Char :=
  match toIpv4Mapped v6 with
  | some v4 => "::ffff:".toList ++ displayIpv4 v4
  | none =>
    let zeros := longestZeros 0 ⟨0, 0⟩ ⟨0, 0⟩ v6.segments
    if 1 < zeros.len then
      displayGroups (v6.segments.take zeros.start) ++ ':' :: ':' ::
        displayGroups (v6.segments.drop (zeros.start + zeros.len))
    else displayGroups v6.segments

end IpText

/-- `ip.to_string()`. -/
def IpAddr.display : IpAddr → String
  | .v4 addr => String.ofList (IpText.displayIpv4 addr)
  | .v6 addr => String.ofList (IpText.displayIpv6 addr)

example : IpAddr.parse "10.0.0.05" = none := by decide
example : IpAddr.parse "2001:DB8::1" = IpAddr.parse "2001:db8:0:0::1" := by decide
example : (IpAddr.parse "2001:DB8:0:0:1:0:0:1").map IpAddr.display = some "2001:db8::1:0:0:1" := by
  decide
example : (IpAddr.parse "0:0:0:0:0:FFFF:102:304").map IpAddr.display = some "::ffff:1.2.3.4" := by
  decide

namespace IpText

/-! ## Numbers that are printed and read -/

theorem hexDigit_digitChar : ∀ d : Fin 16, hexDigit (Nat.digitChar d) = some d.val := by decide

theorem toDigit_digitChar {radix d : Nat} (hradix : radix ≤ 16) (hd : d < radix) :
    toDigit radix (Nat.digitChar d) = some d := by
  have h : hexDigit (Nat.digitChar d) = some d := hexDigit_digitChar ⟨d, by omega⟩
  simp [toDigit, h, hd]

/-- Digits are printed from the highest on. -/
theorem toDigits_induction {radix : Nat} (hradix : 1 < radix) {P : Nat → List Char → Prop}
    (hone : ∀ d, d < radix → P d [Nat.digitChar d])
    (hmore : ∀ n d, 0 < n → d < radix → P n (Nat.toDigits radix n) →
      P (n * radix + d) (Nat.toDigits radix n ++ [Nat.digitChar d])) :
    ∀ n, P n (Nat.toDigits radix n) := by
  intro n
  induction n using Nat.strongRecOn with
  | _ n ih =>
    by_cases hn : n < radix
    · rw [Nat.toDigits_of_lt_base hn]
      exact hone n hn
    · have hpos : 0 < n / radix := Nat.div_pos (by omega) (by omega)
      rw [Nat.toDigits_of_base_le hradix (by omega)]
      have hstep := hmore (n / radix) (n % radix) hpos (Nat.mod_lt n (by omega))
        (ih (n / radix) (Nat.div_lt_self (by omega) hradix))
      rwa [Nat.mul_comm, Nat.div_add_mod] at hstep

theorem toDigit_of_mem {radix n : Nat} (hradix : 1 < radix) (hle : radix ≤ 16) :
    ∀ c ∈ Nat.toDigits radix n, (toDigit radix c).isSome := by
  apply toDigits_induction hradix (P := fun _ digits => ∀ c ∈ digits, (toDigit radix c).isSome)
  · intro d hd c hc
    rw [List.mem_singleton.mp hc, toDigit_digitChar hle hd]
    rfl
  · intro n d _ hd ih c hc
    rcases List.mem_append.mp hc with hc | hc
    · exact ih c hc
    · rw [List.mem_singleton.mp hc, toDigit_digitChar hle hd]
      rfl

theorem valueOf_toDigits {radix : Nat} (hradix : 1 < radix) (hle : radix ≤ 16) (n : Nat) :
    valueOf radix (Nat.toDigits radix n) = n := by
  apply toDigits_induction hradix (P := fun n digits => valueOf radix digits = n)
  · intro d hd
    simp [valueOf, toDigit_digitChar hle hd]
  · intro n d _ hd ih
    have happend : valueOf radix (Nat.toDigits radix n ++ [Nat.digitChar d]) =
        valueOf radix (Nat.toDigits radix n) * radix + d := by
      simp [valueOf, List.foldl_append, toDigit_digitChar hle hd]
    rw [happend, ih]

theorem digitChar_ne_zero : ∀ d : Fin 16, d.val ≠ 0 → Nat.digitChar d ≠ '0' := by decide

/-- No number of two digits or more begins with a zero. -/
theorem toDigits_head_ne_zero {radix n : Nat} (hradix : 1 < radix) (hle : radix ≤ 16) (hn : 0 < n) :
    (Nat.toDigits radix n).head? ≠ some '0' := by
  have h := toDigits_induction hradix
    (P := fun n digits => 0 < n → digits ≠ [] ∧ digits.head? ≠ some '0')
  refine (h ?_ ?_ n hn).2
  · intro d hd hpos
    refine ⟨List.cons_ne_nil _ _, fun h0 => ?_⟩
    exact digitChar_ne_zero ⟨d, by omega⟩ (by show d ≠ 0; omega) (Option.some.inj h0)
  · intro n d hn _ ih _
    obtain ⟨hne, hhead⟩ := ih hn
    refine ⟨by simp, ?_⟩
    cases hdigits : Nat.toDigits radix n with
    | nil => exact absurd hdigits hne
    | cons c cs =>
      rw [hdigits] at hhead
      exact hhead

/-- A number is read where it was printed, up to what is no digit. -/
theorem readNumber_toDigits {radix maxDigits bound n : Nat} (allowZeroPrefix : Bool)
    (hradix : 1 < radix) (hle : radix ≤ 16) (hbound : n < bound) (hmax : 0 < maxDigits)
    (hdigits : n < radix ^ maxDigits) {rest : List Char}
    (hrest : ∀ c, rest.head? = some c → toDigit radix c = none) :
    readNumber radix maxDigits bound allowZeroPrefix (Nat.toDigits radix n ++ rest) =
      some (n, rest) := by
  have hall := toDigit_of_mem (n := n) hradix hle
  have hstop : ∀ c, rest.head? = some c → ((toDigit radix c).isSome) = false := by
    intro c hc
    rw [hrest c hc]
    rfl
  have htake : (Nat.toDigits radix n ++ rest).takeWhile (fun c => (toDigit radix c).isSome) =
      Nat.toDigits radix n := by
    rw [List.takeWhile_append_of_pos hall]
    cases rest with
    | nil => simp
    | cons c cs => simp [hstop c rfl]
  have hdrop : (Nat.toDigits radix n ++ rest).dropWhile (fun c => (toDigit radix c).isSome) = rest := by
    rw [List.dropWhile_append_of_pos hall]
    cases rest with
    | nil => rfl
    | cons c cs => simp [hstop c rfl]
  have hlength : (Nat.toDigits radix n).length ≤ maxDigits :=
    (Nat.length_toDigits_le_iff hradix hmax).mpr hdigits
  unfold readNumber
  dsimp only
  rw [htake, hdrop, valueOf_toDigits hradix hle]
  rw [if_neg, if_neg]
  · rintro ⟨-, hzero, hlong⟩
    rcases Nat.eq_zero_or_pos n with h0 | hpos
    · rw [h0, Nat.toDigits_zero] at hlong
      exact absurd hlong (by decide)
    · exact toDigits_head_ne_zero hradix hle hpos hzero
  · rintro (hnil | hlong | hlarge)
    · exact Nat.toDigits_ne_nil hnil
    · omega
    · omega

/-- No number is read where no digit stands. -/
theorem readNumber_eq_none {radix maxDigits bound : Nat} {allowZeroPrefix : Bool} {cs : List Char}
    (h : ∀ c, cs.head? = some c → toDigit radix c = none) :
    readNumber radix maxDigits bound allowZeroPrefix cs = none := by
  have htake : cs.takeWhile (fun c => (toDigit radix c).isSome) = [] := by
    cases cs with
    | nil => rfl
    | cons c cs => simp [h c rfl]
  unfold readNumber
  dsimp only
  rw [if_pos (Or.inl htake)]

theorem readNumber_suffix {radix maxDigits bound : Nat} {allowZeroPrefix : Bool} {cs rest : List Char}
    {n : Nat} (h : readNumber radix maxDigits bound allowZeroPrefix cs = some (n, rest)) :
    rest <:+ cs := by
  unfold readNumber at h
  dsimp only at h
  split at h
  · cases h
  · split at h
    · cases h
    · cases h
      exact List.dropWhile_suffix _

/-! ## IPv4 -/

theorem readOctet_toDigits (o : UInt8) {rest : List Char}
    (hrest : ∀ c, rest.head? = some c → toDigit 10 c = none) :
    readOctet (Nat.toDigits 10 o.toNat ++ rest) = some (o, rest) := by
  have hlt : o.toNat < 256 := o.toNat_lt
  unfold readOctet
  rw [readNumber_toDigits false (by omega) (by omega) hlt (by omega) (by omega) hrest]
  simp

theorem toDigit_dot (radix : Nat) : toDigit radix '.' = none := rfl
theorem toDigit_colon (radix : Nat) : toDigit radix ':' = none := rfl

/-- A printed IPv4 address is read. -/
theorem readIpv4_display (v4 : Ipv4Addr) {rest : List Char}
    (hrest : ∀ c, rest.head? = some c → toDigit 10 c = none) :
    readIpv4 (displayIpv4 v4 ++ rest) = some (v4, rest) := by
  have hdot : ∀ cs : List Char, ∀ c, ('.' :: cs).head? = some c → toDigit 10 c = none := by
    intro cs c hc
    cases hc
    exact toDigit_dot 10
  have htext : displayIpv4 v4 ++ rest = Nat.toDigits 10 v4.a.toNat ++ '.' ::
      (Nat.toDigits 10 v4.b.toNat ++ '.' :: (Nat.toDigits 10 v4.c.toNat ++ '.' ::
        (Nat.toDigits 10 v4.d.toNat ++ rest))) := by
    simp [displayIpv4]
  unfold readIpv4
  rw [htext, readOctet_toDigits v4.a (hdot _)]
  simp only [Option.bind_eq_bind, Option.bind_some, readGivenChar, if_true]
  rw [readOctet_toDigits v4.b (hdot _)]
  simp only [Option.bind_some, if_true]
  rw [readOctet_toDigits v4.c (hdot _)]
  simp only [Option.bind_some, if_true]
  rw [readOctet_toDigits v4.d hrest]
  rfl

theorem readIpv4_displayIpv4 (v4 : Ipv4Addr) : readIpv4 (displayIpv4 v4) = some (v4, []) := by
  have hnil : ∀ c, ([] : List Char).head? = some c → toDigit 10 c = none := fun c hc => by cases hc
  have hread := readIpv4_display v4 hnil
  rwa [List.append_nil] at hread

/-- No IPv4 address is read out of a text without a dot. -/
theorem readIpv4_eq_none {cs : List Char} (h : '.' ∉ cs) : readIpv4 cs = none := by
  unfold readIpv4
  cases hoctet : readOctet cs with
  | none => rfl
  | some r =>
    obtain ⟨a, rest⟩ := r
    have hsuffix : rest <:+ cs := by
      unfold readOctet at hoctet
      obtain ⟨r, hr, heq⟩ := Option.map_eq_some_iff.mp hoctet
      cases heq
      exact readNumber_suffix hr
    have hchar : readGivenChar '.' rest = none := by
      cases rest with
      | nil => rfl
      | cons c cs' =>
        have hc : c ≠ '.' := fun hc => h (hsuffix.subset (hc ▸ List.mem_cons_self))
        simp [readGivenChar, hc]
    simp [hchar]

/-- No IPv4 address is read where no digit stands. -/
theorem readIpv4_of_head {cs : List Char} (h : ∀ c, cs.head? = some c → toDigit 10 c = none) :
    readIpv4 cs = none := by
  unfold readIpv4 readOctet
  rw [readNumber_eq_none h]
  rfl

end IpText

namespace IpText

/-! ## Groups -/

/-- Groups, with a colon before the first one unless it is the first of all. -/
def groupsText (first : Bool) : List UInt16 → List Char
  | [] => []
  | group :: groups =>
    (if first then [] else [':']) ++ Nat.toDigits 16 group.toNat ++ groupsText false groups

theorem displayGroups_eq (groups : List UInt16) : displayGroups groups = groupsText true groups := by
  induction groups with
  | nil => rfl
  | cons group groups ih =>
    cases groups with
    | nil => simp [displayGroups, groupsText]
    | cons next groups =>
      have hnext : ':' :: displayGroups (next :: groups) = groupsText false (next :: groups) := by
        rw [ih]
        rfl
      show Nat.toDigits 16 group.toNat ++ ':' :: displayGroups (next :: groups) = _
      rw [hnext]
      rfl

theorem dot_not_mem_groupsText (groups : List UInt16) :
    ∀ first, '.' ∉ groupsText first groups := by
  induction groups with
  | nil => intro first; exact List.not_mem_nil
  | cons group groups ih =>
    intro first hmem
    rcases List.mem_append.mp hmem with hmem | hmem
    · rcases List.mem_append.mp hmem with hmem | hmem
      · cases first with
        | true => exact List.not_mem_nil hmem
        | false => exact absurd (List.mem_singleton.mp hmem) (by decide)
      · have hdigit := toDigit_of_mem (n := group.toNat) (by omega) (by omega) '.' hmem
        rw [toDigit_dot] at hdigit
        cases hdigit
    · exact ih false hmem

/-- No group can be read any more. -/
def GroupsEnd (rest : List Char) : Prop :=
  (∀ c, rest.head? = some c → toDigit 16 c = none) ∧
    ∀ first, (readSeparator first rest).bind readGroup = none

theorem groupsEnd_nil : GroupsEnd [] := by
  refine ⟨fun c hc => ?_, fun first => ?_⟩
  · cases hc
  · cases first <;> rfl

theorem readGroup_eq_none {cs : List Char} (h : ∀ c, cs.head? = some c → toDigit 16 c = none) :
    readGroup cs = none := by
  unfold readGroup
  rw [readNumber_eq_none h]
  rfl

theorem groupsEnd_colons (rest : List Char) : GroupsEnd (':' :: ':' :: rest) := by
  have hcolon : ∀ cs : List Char, ∀ c, (':' :: cs).head? = some c → toDigit 16 c = none := by
    intro cs c hc
    cases hc
    exact toDigit_colon 16
  refine ⟨hcolon _, fun first => ?_⟩
  cases first with
  | true => exact readGroup_eq_none (hcolon _)
  | false => exact readGroup_eq_none (hcolon rest)

theorem readSeparator_readIpv4 {first : Bool} {cs : List Char} (h : '.' ∉ cs) :
    (readSeparator first cs).bind readIpv4 = none := by
  cases first with
  | true => exact readIpv4_eq_none h
  | false =>
    cases cs with
    | nil => rfl
    | cons c cs =>
      by_cases hc : c = ':'
      · simp only [readSeparator, readGivenChar, hc]
        exact readIpv4_eq_none fun hmem => h (List.mem_cons_of_mem _ hmem)
      · simp [readSeparator, readGivenChar, hc]

theorem readGroup_toDigits (group : UInt16) {rest : List Char}
    (hrest : ∀ c, rest.head? = some c → toDigit 16 c = none) :
    readGroup (Nat.toDigits 16 group.toNat ++ rest) = some (group, rest) := by
  have hlt : group.toNat < 65536 := group.toNat_lt
  unfold readGroup
  rw [readNumber_toDigits true (by omega) (by omega) hlt (by omega) (by omega) hrest]
  simp

/-- Printed groups are read, as many as there are, where the reading ends after them or no group is
    free any more. -/
theorem readGroups_groupsText {rest : List Char} (hdot : '.' ∉ rest)
    (hhead : ∀ c, rest.head? = some c → toDigit 16 c = none) (groups : List UInt16) :
    ∀ (free : Nat) (first : Bool), groups.length ≤ free → (groups.length = free ∨ GroupsEnd rest) →
      readGroups free first (groupsText first groups ++ rest) = (groups, false, rest) := by
  induction groups with
  | nil =>
    intro free first _ hend
    cases free with
    | zero => rfl
    | succ free =>
      have hgroup : (readSeparator first rest).bind readGroup = none := by
        rcases hend with hfull | hend
        · cases hfull
        · exact hend.2 first
      show readGroups (free + 1) first rest = _
      rw [readGroups, readSeparator_readIpv4 hdot, hgroup]
      simp
  | cons group groups ih =>
    intro free first hle hend
    cases free with
    | zero => exact absurd hle (Nat.not_succ_le_zero _)
    | succ free =>
      have hcolon : ∀ c, (groupsText false groups ++ rest).head? = some c → toDigit 16 c = none := by
        cases groups with
        | nil => exact hhead
        | cons next groups =>
          intro c hc
          cases hc
          exact toDigit_colon 16
      have hdots : '.' ∉ groupsText first (group :: groups) ++ rest := fun hmem =>
        (List.mem_append.mp hmem).elim (dot_not_mem_groupsText _ first) hdot
      have hsep : (readSeparator first (groupsText first (group :: groups) ++ rest)).bind readGroup =
          some (group, groupsText false groups ++ rest) := by
        have hread := readGroup_toDigits group hcolon
        cases first with
        | true => simpa [groupsText, readSeparator] using hread
        | false => simpa [groupsText, readSeparator, readGivenChar] using hread
      have hrest := ih free false (Nat.le_of_succ_le_succ hle) (hend.imp_left Nat.succ.inj)
      rw [readGroups, readSeparator_readIpv4 hdots, hsep]
      simp [hrest]

/-! ## The longest run of zeros -/

/-- The span is a run of zeros. -/
def IsZeros (segments : List UInt16) (span : Span) : Prop :=
  ∃ before after, segments = before ++ List.replicate span.len 0 ++ after ∧
    before.length = span.start

theorem IsZeros.snoc {segments : List UInt16} {span : Span} (h : IsZeros segments span)
    (segment : UInt16) : IsZeros (segments ++ [segment]) span := by
  obtain ⟨before, after, hsegments, hstart⟩ := h
  exact ⟨before, after ++ [segment], by simp [hsegments], hstart⟩

/-- The current run ends at the end of what was scanned. -/
def EndsHere (segments : List UInt16) (span : Span) : Prop :=
  span.len = 0 ∨ ∃ before, segments = before ++ List.replicate span.len 0 ∧ before.length = span.start

/-- The run grows by a zero, from here on if there was none. -/
theorem EndsHere.snoc_zero {scanned : List UInt16} {current : Span} (h : EndsHere scanned current)
    {segment : UInt16} (hzero : segment = 0) :
    ∃ before, scanned ++ [segment] = before ++ List.replicate (current.len + 1) 0 ∧
      before.length = if current.len = 0 then scanned.length else current.start := by
  rcases h with hnone | ⟨before, hbefore, hstart⟩
  · exact ⟨scanned, by simp [hnone, hzero], by simp [hnone]⟩
  · by_cases hnone : current.len = 0
    · exact ⟨scanned, by simp [hnone, hzero], by simp [hnone]⟩
    · refine ⟨before, ?_, by simp [hnone, hstart]⟩
      rw [hbefore, hzero, List.replicate_succ', List.append_assoc]

theorem longestZeros_isZeros :
    ∀ (segments scanned : List UInt16) (current longest : Span),
      EndsHere scanned current → IsZeros scanned longest →
      IsZeros (scanned ++ segments) (longestZeros scanned.length current longest segments) := by
  intro segments
  induction segments with
  | nil =>
    intro scanned current longest _ hlongest
    rw [List.append_nil]
    exact hlongest
  | cons segment segments ih =>
    intro scanned current longest hcurrent hlongest
    have hlength : scanned.length + 1 = (scanned ++ [segment]).length := by simp
    have hsplit : scanned ++ segment :: segments = (scanned ++ [segment]) ++ segments := by simp
    rw [longestZeros, hsplit]
    by_cases hzero : segment = 0
    · simp only [if_pos hzero]
      rw [hlength]
      obtain ⟨before, hbefore, hstart⟩ := hcurrent.snoc_zero hzero
      apply ih
      · exact Or.inr ⟨before, hbefore, hstart⟩
      · split
        · exact ⟨before, [], by simpa using hbefore, hstart⟩
        · exact hlongest.snoc segment
    · simp only [if_neg hzero]
      rw [hlength]
      apply ih
      · exact Or.inl rfl
      · exact hlongest.snoc segment

/-! ## IPv6 -/

/-- Groups around zeros are read. -/
theorem readIpv6_around {segments before after : List UInt16} {len : Nat}
    (height : segments.length = 8) (hsegments : segments = before ++ List.replicate len 0 ++ after)
    (hlen : 1 < len) :
    readIpv6 (displayGroups before ++ ':' :: ':' :: displayGroups after) =
      some (⟨segments, height⟩, []) := by
  have hsum : before.length + len + after.length = 8 := by
    rw [hsegments] at height
    simpa [Nat.add_assoc] using height
  have hdot : '.' ∉ ':' :: ':' :: displayGroups after := by
    rw [displayGroups_eq]
    intro hmem
    simp only [List.mem_cons] at hmem
    rcases hmem with hmem | hmem | hmem
    · exact absurd hmem (by decide)
    · exact absurd hmem (by decide)
    · exact dot_not_mem_groupsText after true hmem
  have hhead : readHead (displayGroups before ++ ':' :: ':' :: displayGroups after) =
      (before, false, ':' :: ':' :: displayGroups after) := by
    rw [displayGroups_eq before]
    exact readGroups_groupsText hdot (groupsEnd_colons _).1 before 8 true (by omega)
      (Or.inr (groupsEnd_colons _))
  have htail : readTail before (displayGroups after) = (after, false, []) := by
    have h := readGroups_groupsText List.not_mem_nil groupsEnd_nil.1 after
      (8 - (before.length + 1)) true (by omega) (Or.inr groupsEnd_nil)
    rw [List.append_nil, ← displayGroups_eq] at h
    exact h
  have hzeros : aroundZeros before after = segments := by
    have hcount : 8 - before.length - after.length = len := by omega
    rw [aroundZeros, hcount, hsegments]
  have hshort : before.length ≠ 8 := by omega
  unfold readIpv6
  simp [hhead, htail, hshort, hzeros, readGivenChar]

/-- Eight groups are read. -/
theorem readIpv6_groups (v6 : Ipv6Addr) : readIpv6 (displayGroups v6.segments) = some (v6, []) := by
  have hhead : readHead (displayGroups v6.segments) = (v6.segments, false, []) := by
    have h := readGroups_groupsText List.not_mem_nil groupsEnd_nil.1 v6.segments 8 true
      (by rw [v6.length_eq]) (Or.inl v6.length_eq)
    rw [List.append_nil, ← displayGroups_eq] at h
    exact h
  unfold readIpv6
  simp [hhead, v6.length_eq]

theorem embedded_octets (group : UInt16) :
    UInt16.ofNat ((UInt8.ofNat (group.toNat / 256)).toNat * 256 + (UInt8.ofNat group.toNat).toNat) =
      group := by
  have hlt : group.toNat < 65536 := group.toNat_lt
  rw [← UInt16.toNat_inj]
  simp only [UInt16.toNat_ofNat', UInt8.toNat_ofNat']
  omega

/-- No group is read at a colon. -/
theorem readGroups_colon (free : Nat) (cs : List Char) :
    readGroups (free + 1) true (':' :: cs) = ([], false, ':' :: cs) := by
  have hv4 : readIpv4 (':' :: cs) = none := readIpv4_of_head fun c hc => by
    cases hc
    exact toDigit_colon 10
  have hgroup : readGroup (':' :: cs) = none := readGroup_eq_none fun c hc => by
    cases hc
    exact toDigit_colon 16
  rw [readGroups]
  simp only [readSeparator, if_true, Option.bind_some, hv4, hgroup, ite_self]

/-- The groups of a mapped IPv4 address are read. -/
theorem readGroups_mapped (v4 : Ipv4Addr) :
    readGroups 7 true (Nat.toDigits 16 (0xffff : UInt16).toNat ++ ':' :: displayIpv4 v4) =
      (0xffff :: embedded v4, true, []) := by
  have hnot : readIpv4 (Nat.toDigits 16 (0xffff : UInt16).toNat ++ ':' :: displayIpv4 v4) = none := by
    apply readIpv4_of_head
    intro c hc
    cases hc
    rfl
  have hffff : readGroup (Nat.toDigits 16 (0xffff : UInt16).toNat ++ ':' :: displayIpv4 v4) =
      some (0xffff, ':' :: displayIpv4 v4) := by
    apply readGroup_toDigits
    intro c hc
    cases hc
    exact toDigit_colon 16
  have hv4 := readIpv4_displayIpv4 v4
  have hrest : readGroups 6 false (':' :: displayIpv4 v4) = (embedded v4, true, []) := by
    rw [readGroups]
    simp [readSeparator, readGivenChar, hv4]
  rw [readGroups]
  simp only [readSeparator, if_true, Option.bind_some, hnot, hffff, ite_self, hrest]

/-- A mapped IPv4 address is read. -/
theorem readIpv6_mapped {v6 : Ipv6Addr} {v4 : Ipv4Addr} (h : toIpv4Mapped v6 = some v4) :
    readIpv6 ("::ffff:".toList ++ displayIpv4 v4) = some (v6, []) := by
  obtain ⟨ab, cd, hsegments, hv4⟩ : ∃ ab cd, v6.segments = [0, 0, 0, 0, 0, 0xffff, ab, cd] ∧
      v4 = ⟨UInt8.ofNat (ab.toNat / 256), UInt8.ofNat ab.toNat, UInt8.ofNat (cd.toNat / 256),
        UInt8.ofNat cd.toNat⟩ := by
    unfold toIpv4Mapped at h
    split at h
    · rename_i ab cd hsegments
      exact ⟨ab, cd, hsegments, (Option.some.inj h).symm⟩
    · cases h
  have hgroups : embedded v4 = [ab, cd] := by
    rw [hv4]
    simp only [embedded, embedded_octets]
  have htext : "::ffff:".toList ++ displayIpv4 v4 =
      ':' :: ':' :: (Nat.toDigits 16 (0xffff : UInt16).toNat ++ ':' :: displayIpv4 v4) := rfl
  have hzeros : aroundZeros [] (0xffff :: embedded v4) = v6.segments := by
    rw [hgroups, hsegments]
    rfl
  have hhead : readHead (':' :: ':' :: (Nat.toDigits 16 (0xffff : UInt16).toNat ++
      ':' :: displayIpv4 v4)) = ([], false, ':' :: ':' :: (Nat.toDigits 16 (0xffff : UInt16).toNat ++
      ':' :: displayIpv4 v4)) := readGroups_colon 7 _
  have htail : readTail [] (Nat.toDigits 16 (0xffff : UInt16).toNat ++ ':' :: displayIpv4 v4) =
      (0xffff :: embedded v4, true, []) := readGroups_mapped v4
  rw [htext]
  generalize Nat.toDigits 16 (0xffff : UInt16).toNat ++ ':' :: displayIpv4 v4 = text at hhead htail
  unfold readIpv6
  simp [hhead, htail, hzeros, readGivenChar]

theorem take_before {segments before after : List UInt16} {len start : Nat}
    (h : segments = before ++ List.replicate len 0 ++ after) (hstart : before.length = start) :
    segments.take start = before := by
  rw [h, ← hstart, List.append_assoc, List.take_left]

theorem drop_after {segments before after : List UInt16} {len start : Nat}
    (h : segments = before ++ List.replicate len 0 ++ after) (hstart : before.length = start) :
    segments.drop (start + len) = after := by
  have hlength : (before ++ List.replicate len (0 : UInt16)).length = start + len := by
    simp [hstart]
  rw [h, ← hlength, List.drop_left]

/-- A printed IPv6 address is read. -/
theorem readIpv6_display (v6 : Ipv6Addr) : readIpv6 (displayIpv6 v6) = some (v6, []) := by
  unfold displayIpv6
  cases hmapped : toIpv4Mapped v6 with
  | some v4 => exact readIpv6_mapped hmapped
  | none =>
    dsimp only
    split
    · rename_i hlong
      obtain ⟨before, after, hsegments, hstart⟩ := longestZeros_isZeros v6.segments [] ⟨0, 0⟩ ⟨0, 0⟩
        (Or.inl rfl) ⟨[], [], rfl, rfl⟩
      simp only [List.nil_append, List.length_nil] at hsegments hstart
      have htake : v6.segments.take (longestZeros 0 ⟨0, 0⟩ ⟨0, 0⟩ v6.segments).start = before :=
        take_before hsegments hstart
      have hdrop : v6.segments.drop ((longestZeros 0 ⟨0, 0⟩ ⟨0, 0⟩ v6.segments).start +
          (longestZeros 0 ⟨0, 0⟩ ⟨0, 0⟩ v6.segments).len) = after := drop_after hsegments hstart
      rw [htake, hdrop]
      exact readIpv6_around v6.length_eq hsegments hlong
    · exact readIpv6_groups v6

/-- No IPv4 address is read out of a printed IPv6 address. -/
theorem readIpv4_displayIpv6 (v6 : Ipv6Addr) : readIpv4 (displayIpv6 v6) = none := by
  unfold displayIpv6
  cases toIpv4Mapped v6 with
  | some v4 =>
    apply readIpv4_of_head
    intro c hc
    cases hc
    exact toDigit_colon 10
  | none =>
    apply readIpv4_eq_none
    dsimp only
    split
    · rw [displayGroups_eq, displayGroups_eq]
      intro hmem
      simp only [List.mem_append, List.mem_cons] at hmem
      rcases hmem with hmem | hmem | hmem | hmem
      · exact dot_not_mem_groupsText _ true hmem
      · exact absurd hmem (by decide)
      · exact absurd hmem (by decide)
      · exact dot_not_mem_groupsText _ true hmem
    · rw [displayGroups_eq]
      exact dot_not_mem_groupsText _ true

end IpText

/-- What is printed parses back. -/
theorem IpAddr.parse_display (ip : IpAddr) : IpAddr.parse ip.display = some ip := by
  cases ip with
  | v4 addr =>
    simp [IpAddr.parse, IpAddr.display, IpText.readIpv4_displayIpv4, IpText.whole]
  | v6 addr =>
    simp [IpAddr.parse, IpAddr.display, IpText.readIpv4_displayIpv6, IpText.readIpv6_display,
      IpText.whole]

/-! ## What no address holds -/

namespace IpText

theorem mem_of_readNumber {radix maxDigits bound : Nat} {allowZeroPrefix : Bool} {cs rest : List Char}
    {n : Nat} (h : readNumber radix maxDigits bound allowZeroPrefix cs = some (n, rest)) {c : Char}
    (hc : toDigit radix c = none) (hmem : c ∈ cs) : c ∈ rest := by
  unfold readNumber at h
  dsimp only at h
  split at h
  · cases h
  · split at h
    · cases h
    · cases h
      rw [← List.takeWhile_append_dropWhile (p := fun c => (toDigit radix c).isSome) (l := cs)] at hmem
      rcases List.mem_append.mp hmem with hmem | hmem
      · have hdigit := List.mem_takeWhile_imp hmem
        rw [hc] at hdigit
        cases hdigit
      · exact hmem

theorem mem_of_readGivenChar {target c : Char} {cs rest : List Char}
    (h : readGivenChar target cs = some rest) (hc : c ≠ target) (hmem : c ∈ cs) : c ∈ rest := by
  cases cs with
  | nil => cases h
  | cons c' cs =>
    rw [readGivenChar] at h
    split at h
    · rename_i heq
      cases h
      rcases List.mem_cons.mp hmem with hmem | hmem
      · exact absurd (hmem.trans heq) hc
      · exact hmem
    · cases h

theorem mem_of_readOctet {cs rest : List Char} {o : UInt8} (h : readOctet cs = some (o, rest))
    {c : Char} (hc : toDigit 10 c = none) (hmem : c ∈ cs) : c ∈ rest := by
  obtain ⟨r, hr, heq⟩ := Option.map_eq_some_iff.mp h
  cases heq
  exact mem_of_readNumber hr hc hmem

/-- A slash is never read. -/
theorem slash_of_readIpv4 {cs rest : List Char} {v4 : Ipv4Addr} (h : readIpv4 cs = some (v4, rest))
    (hmem : '/' ∈ cs) : '/' ∈ rest := by
  have hoctet : ∀ {cs rest o}, readOctet cs = some (o, rest) → '/' ∈ cs → '/' ∈ rest :=
    fun h => mem_of_readOctet h rfl
  have hdot : ∀ {cs rest}, readGivenChar '.' cs = some rest → '/' ∈ cs → '/' ∈ rest :=
    fun h => mem_of_readGivenChar h (by decide)
  unfold readIpv4 at h
  simp only [Option.bind_eq_bind, Option.bind_eq_some_iff] at h
  obtain ⟨a, ha, cs1, h1, b, hb, cs2, h2, c, hc, cs3, h3, d, hd, heq⟩ := h
  cases heq
  exact hoctet hd (hdot h3 (hoctet hc (hdot h2 (hoctet hb (hdot h1 (hoctet ha hmem))))))

theorem slash_of_readSeparator {first : Bool} {cs rest : List Char}
    (h : readSeparator first cs = some rest) (hmem : '/' ∈ cs) : '/' ∈ rest := by
  cases first with
  | true =>
    cases h
    exact hmem
  | false => exact mem_of_readGivenChar h (by decide) hmem

theorem slash_of_readGroups : ∀ (free : Nat) (first : Bool) (cs : List Char), '/' ∈ cs →
    '/' ∈ (readGroups free first cs).2.2 := by
  intro free
  induction free with
  | zero => intro first cs hmem; exact hmem
  | succ free ih =>
    intro first cs hmem
    rw [readGroups]
    split
    · rename_i hv4
      split at hv4
      · obtain ⟨cs', hsep, hread⟩ := Option.bind_eq_some_iff.mp hv4
        exact slash_of_readIpv4 hread (slash_of_readSeparator hsep hmem)
      · cases hv4
    · split
      · rename_i hgroup
        obtain ⟨cs', hsep, hread⟩ := Option.bind_eq_some_iff.mp hgroup
        obtain ⟨r, hr, heq⟩ := Option.map_eq_some_iff.mp hread
        cases heq
        exact ih false _ (mem_of_readNumber hr rfl (slash_of_readSeparator hsep hmem))
      · exact hmem

theorem slash_of_readIpv6 {cs rest : List Char} {v6 : Ipv6Addr} (h : readIpv6 cs = some (v6, rest))
    (hmem : '/' ∈ cs) : '/' ∈ rest := by
  have hhead : '/' ∈ (readHead cs).2.2 := slash_of_readGroups 8 true cs hmem
  unfold readIpv6 at h
  dsimp only at h
  split at h
  · cases h
    exact hhead
  · split at h
    · cases h
    · obtain ⟨cs', hcolons, heq⟩ := Option.map_eq_some_iff.mp h
      cases heq
      obtain ⟨cs1, h1, h2⟩ := Option.bind_eq_some_iff.mp hcolons
      have hcs' : '/' ∈ cs' :=
        mem_of_readGivenChar h2 (by decide) (mem_of_readGivenChar h1 (by decide) hhead)
      exact slash_of_readGroups _ true cs' hcs'

theorem eq_of_whole {α : Type} {r : Option (α × List Char)} {value : α} (h : whole r = some value) :
    r = some (value, []) := by
  unfold whole at h
  split at h
  · cases h
    rfl
  · cases h

end IpText

/-- No address holds a slash. -/
theorem IpAddr.slash_not_mem {s : String} {ip : IpAddr} (h : IpAddr.parse s = some ip) :
    '/' ∉ s.toList := by
  intro hmem
  have hread := IpText.eq_of_whole h
  split at hread
  · rename_i hv4
    cases hread
    exact List.not_mem_nil (IpText.slash_of_readIpv4 hv4 hmem)
  · obtain ⟨r, hv6, heq⟩ := Option.map_eq_some_iff.mp hread
    rcases r with ⟨v6, rest⟩
    cases heq
    exact List.not_mem_nil (IpText.slash_of_readIpv6 hv6 hmem)

/-- No address begins with a bracket. -/
theorem IpAddr.parse_bracket (cs : List Char) : IpAddr.parse (String.ofList ('[' :: cs)) = none := by
  have hv4 : IpText.readIpv4 ('[' :: cs) = none := IpText.readIpv4_of_head fun c hc => by
    cases hc
    rfl
  have hgroup : IpText.readGroup ('[' :: cs) = none := IpText.readGroup_eq_none fun c hc => by
    cases hc
    rfl
  have hhead : IpText.readHead ('[' :: cs) = ([], false, '[' :: cs) := by
    show IpText.readGroups (7 + 1) true ('[' :: cs) = _
    rw [IpText.readGroups]
    simp only [IpText.readSeparator, if_true, Option.bind_some, hv4, hgroup, ite_self]
  have hv6 : IpText.readIpv6 ('[' :: cs) = none := by
    unfold IpText.readIpv6
    simp [hhead, IpText.readGivenChar]
  simp [IpAddr.parse, hv4, hv6, IpText.whole]

/-- No address is an IPv4 address and more. -/
theorem IpAddr.parse_v4_append (v4 : Ipv4Addr) {c : Char} (hc : IpText.toDigit 10 c = none)
    (cs : List Char) : IpAddr.parse (String.ofList (IpText.displayIpv4 v4 ++ c :: cs)) = none := by
  have hread : IpText.readIpv4 (IpText.displayIpv4 v4 ++ c :: cs) = some (v4, c :: cs) :=
    IpText.readIpv4_display v4 fun c' hc' => by
      cases hc'
      exact hc
  simp [IpAddr.parse, hread, IpText.whole]

/-! ## An IPv4 address has one spelling -/

namespace IpText

theorem digitChar_of_toDigit {c : Char} {d : Nat} (h : toDigit 10 c = some d) :
    Nat.digitChar d = c ∧ d < 10 := by
  obtain ⟨hdigit, hlt⟩ := Option.filter_eq_some_iff.mp h
  have hd : d < 10 := of_decide_eq_true hlt
  refine ⟨?_, hd⟩
  unfold hexDigit at hdigit
  split at hdigit
  · rename_i hrange
    have hd' : c.toNat - '0'.toNat = d := Option.some.inj hdigit
    have hlow : '0'.toNat ≤ c.toNat := hrange.1
    have hchars : ∀ d : Fin 10, (Nat.digitChar d).toNat = '0'.toNat + d := by decide
    have hnat : (Nat.digitChar d).toNat = c.toNat := by
      have h := hchars ⟨d, hd⟩
      simp only at h
      omega
    exact Char.toNat_inj.mp hnat
  · split at hdigit
    · have hd' := Option.some.inj hdigit
      omega
    · split at hdigit
      · have hd' := Option.some.inj hdigit
        omega
      · cases hdigit

/-- Digits without a zero in front are those their value is printed as. -/
theorem toDigits_valueOf (digits : List Char) : digits ≠ [] →
    (∀ c ∈ digits, (toDigit 10 c).isSome) → (digits.head? = some '0' → digits.length = 1) →
    Nat.toDigits 10 (valueOf 10 digits) = digits := by
  induction digits using List.reverseRecOn with
  | nil => intro hne; exact absurd rfl hne
  | append_singleton digits c ih =>
    intro _ hall hzero
    obtain ⟨d, hd⟩ := Option.isSome_iff_exists.mp (hall c (by simp))
    obtain ⟨hchar, hlt⟩ := digitChar_of_toDigit hd
    have hvalue : valueOf 10 (digits ++ [c]) = 10 * valueOf 10 digits + d := by
      simp [valueOf, List.foldl_append, hd, Nat.mul_comm]
    by_cases hnil : digits = []
    · subst hnil
      have hone : valueOf 10 ([] ++ [c]) = d := by simpa [valueOf] using hvalue
      rw [hone, Nat.toDigits_of_lt_base hlt, hchar]
      rfl
    · have hlong : (digits ++ [c]).length ≠ 1 := by
        have := List.length_pos_iff.mpr hnil
        rw [List.length_append, List.length_singleton]
        omega
      have hhead : digits.head? ≠ some '0' := by
        intro h
        apply hlong (hzero _)
        rw [List.head?_append, h]
        rfl
      have hprefix := ih hnil (fun x hx => hall x (List.mem_append_left _ hx)) (absurd · hhead)
      have hpos : 0 < valueOf 10 digits := by
        rcases Nat.eq_zero_or_pos (valueOf 10 digits) with h0 | hpos
        · rw [h0, Nat.toDigits_zero] at hprefix
          rw [← hprefix] at hhead
          exact absurd rfl hhead
        · exact hpos
      rw [hvalue, ← Nat.toDigits_append_toDigits (by omega) hpos hlt, hprefix,
        Nat.toDigits_of_lt_base hlt, hchar]

theorem eq_of_readOctet {cs rest : List Char} {o : UInt8} (h : readOctet cs = some (o, rest)) :
    cs = Nat.toDigits 10 o.toNat ++ rest := by
  obtain ⟨r, hr, heq⟩ := Option.map_eq_some_iff.mp h
  unfold readNumber at hr
  dsimp only at hr
  split at hr
  · cases hr
  · rename_i hbounds
    split at hr
    · cases hr
    · rename_i hoctal
      rw [not_or, not_or] at hbounds
      obtain ⟨hne, -, hlt⟩ := hbounds
      have hall : ∀ c ∈ cs.takeWhile (fun c => (toDigit 10 c).isSome), (toDigit 10 c).isSome :=
        fun c hc => List.mem_takeWhile_imp (p := fun c => (toDigit 10 c).isSome) hc
      have hzero : (cs.takeWhile fun c => (toDigit 10 c).isSome).head? = some '0' →
          (cs.takeWhile fun c => (toDigit 10 c).isSome).length = 1 := by
        intro h0
        have hpos := List.length_pos_iff.mpr hne
        have hshort : ¬ 1 < (cs.takeWhile fun c => (toDigit 10 c).isSome).length :=
          fun hlong => hoctal ⟨rfl, h0, hlong⟩
        omega
      have hdigits := toDigits_valueOf _ hne hall hzero
      cases Option.some.inj hr
      cases heq
      have hvalue : (UInt8.ofNat (valueOf 10 (cs.takeWhile fun c => (toDigit 10 c).isSome))).toNat =
          valueOf 10 (cs.takeWhile fun c => (toDigit 10 c).isSome) := by
        rw [UInt8.toNat_ofNat']
        exact Nat.mod_eq_of_lt (by omega)
      show cs = Nat.toDigits 10 (UInt8.toNat (UInt8.ofNat _)) ++ _
      rw [hvalue, hdigits, List.takeWhile_append_dropWhile]

theorem eq_of_readGivenChar {target : Char} {cs rest : List Char}
    (h : readGivenChar target cs = some rest) : cs = target :: rest := by
  cases cs with
  | nil => cases h
  | cons c cs =>
    rw [readGivenChar] at h
    split at h
    · rename_i heq
      cases h
      rw [heq]
    · cases h

theorem eq_of_readIpv4 {cs rest : List Char} {v4 : Ipv4Addr} (h : readIpv4 cs = some (v4, rest)) :
    cs = displayIpv4 v4 ++ rest := by
  unfold readIpv4 at h
  simp only [Option.bind_eq_bind, Option.bind_eq_some_iff] at h
  obtain ⟨a, ha, cs1, h1, b, hb, cs2, h2, c, hc, cs3, h3, d, hd, heq⟩ := h
  cases heq
  rw [eq_of_readOctet ha, eq_of_readGivenChar h1, eq_of_readOctet hb, eq_of_readGivenChar h2,
    eq_of_readOctet hc, eq_of_readGivenChar h3, eq_of_readOctet hd]
  simp [displayIpv4]

end IpText

/-- An IPv4 address is written in one way. -/
theorem IpAddr.eq_display_of_v4 {s : String} {v4 : Ipv4Addr} (h : IpAddr.parse s = some (.v4 v4)) :
    s = (IpAddr.v4 v4).display := by
  have hread := IpText.eq_of_whole h
  split at hread
  · rename_i hv4
    cases hread
    have hchars := IpText.eq_of_readIpv4 hv4
    rw [List.append_nil] at hchars
    rw [← String.toList_inj, hchars]
    exact String.toList_ofList.symm
  · obtain ⟨r, -, heq⟩ := Option.map_eq_some_iff.mp hread
    cases heq

/-! ## What a printed address is made of -/

namespace IpText

/-- Digits, colons and dots. -/
def AddressChar (c : Char) : Prop := (toDigit 16 c).isSome ∨ c = ':' ∨ c = '.'

theorem addressChar_toDigits {radix n : Nat} (hradix : 1 < radix) (hle : radix ≤ 16) :
    ∀ c ∈ Nat.toDigits radix n, AddressChar c := by
  intro c hc
  left
  obtain ⟨d, hd⟩ := Option.isSome_iff_exists.mp (toDigit_of_mem hradix hle c hc)
  obtain ⟨hhex, hlt⟩ := Option.filter_eq_some_iff.mp hd
  have hlt' : d < radix := of_decide_eq_true hlt
  have h16 : toDigit 16 c = some d :=
    Option.filter_eq_some_iff.mpr ⟨hhex, decide_eq_true (show d < 16 by omega)⟩
  rw [h16]
  rfl

theorem addressChar_displayIpv4 (v4 : Ipv4Addr) : ∀ c ∈ displayIpv4 v4, AddressChar c := by
  have hdigits : ∀ {n c}, c ∈ Nat.toDigits 10 n → AddressChar c :=
    fun {n c} hc => addressChar_toDigits (by decide) (by decide) c hc
  intro c hc
  unfold displayIpv4 at hc
  simp only [List.mem_append, List.mem_cons] at hc
  rcases hc with ((hc | hc | hc) | hc | hc) | hc | hc
  · exact hdigits hc
  · exact Or.inr (Or.inr hc)
  · exact hdigits hc
  · exact Or.inr (Or.inr hc)
  · exact hdigits hc
  · exact Or.inr (Or.inr hc)
  · exact hdigits hc

theorem addressChar_displayGroups (groups : List UInt16) : ∀ c ∈ displayGroups groups, AddressChar c := by
  rw [displayGroups_eq]
  generalize true = first
  induction groups generalizing first with
  | nil => exact fun c hc => absurd hc List.not_mem_nil
  | cons group groups ih =>
    intro c hc
    rcases List.mem_append.mp hc with hc | hc
    · rcases List.mem_append.mp hc with hc | hc
      · cases first with
        | true => exact absurd hc List.not_mem_nil
        | false => exact Or.inr (Or.inl (List.mem_singleton.mp hc))
      · exact addressChar_toDigits (by decide) (by decide) c hc
    · exact ih false c hc

theorem addressChar_displayIpv6 (v6 : Ipv6Addr) : ∀ c ∈ displayIpv6 v6, AddressChar c := by
  intro c hc
  unfold displayIpv6 at hc
  split at hc
  · rcases List.mem_append.mp hc with hc | hc
    · have hmapped : ("::ffff:".toList.all fun c => (toDigit 16 c).isSome || c = ':') = true := by
        decide
      have hchar := List.all_eq_true.mp hmapped c hc
      rw [Bool.or_eq_true, decide_eq_true_eq] at hchar
      exact hchar.imp_right Or.inl
    · exact addressChar_displayIpv4 _ c hc
  · dsimp only at hc
    split at hc
    · rcases List.mem_append.mp hc with hc | hc
      · exact addressChar_displayGroups _ c hc
      · rcases List.mem_cons.mp hc with hc | hc
        · exact Or.inr (Or.inl hc)
        · rcases List.mem_cons.mp hc with hc | hc
          · exact Or.inr (Or.inl hc)
          · exact addressChar_displayGroups _ c hc
    · exact addressChar_displayGroups _ c hc

theorem AddressChar.not_whitespace {c : Char} (h : AddressChar c) : isWhitespace c = false := by
  have hdigit : (toDigit 16 c).isSome → isWhitespace c = false := by
    intro hc
    obtain ⟨d, hd⟩ := Option.isSome_iff_exists.mp hc
    obtain ⟨hhex, -⟩ := Option.filter_eq_some_iff.mp hd
    have hrange : (48 ≤ c.toNat ∧ c.toNat ≤ 57) ∨ (97 ≤ c.toNat ∧ c.toNat ≤ 102) ∨
        (65 ≤ c.toNat ∧ c.toNat ≤ 70) := by
      unfold hexDigit at hhex
      split at hhex
      · rename_i hr
        exact Or.inl hr
      · split at hhex
        · rename_i hr
          exact Or.inr (Or.inl hr)
        · split at hhex
          · rename_i hr
            exact Or.inr (Or.inr hr)
          · cases hhex
    unfold isWhitespace
    simp
    omega
  rcases h with hc | rfl | rfl
  · exact hdigit hc
  · decide
  · decide

end IpText

theorem IpAddr.addressChar_display (ip : IpAddr) : ∀ c ∈ ip.display.toList, IpText.AddressChar c := by
  cases ip with
  | v4 v4 =>
    show ∀ c ∈ (String.ofList (IpText.displayIpv4 v4)).toList, _
    rw [String.toList_ofList]
    exact IpText.addressChar_displayIpv4 v4
  | v6 v6 =>
    show ∀ c ∈ (String.ofList (IpText.displayIpv6 v6)).toList, _
    rw [String.toList_ofList]
    exact IpText.addressChar_displayIpv6 v6

end Featherbit
