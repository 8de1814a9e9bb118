/-
  THE CLIENTHELLO PARSER IS SAFE ON EVERY BUFFER (`stream/sni.rs`).

  `Stream/Sni.lean` says what the parser answers, with numbers that do not end and reads that
  cannot miss.  Here it is written a second time as the machine runs it: each index and slice is
  one of a buffer, each sum of offsets one of `usize`, each loop has a bound on its turns.  A read
  through `get` is no fault; it is `none` past the end.

  The lemmas go from the readers up.  Each says that a function, called at an offset that is not
  above the buffer's end, is the one of `Stream/Sni.lean` and nothing else (`be16_eq`,
  `skipVec_one_eq`, `turns_namesTurn`, `turns_extensionsTurn`).  The room for the sums is `Room`: a
  slice is no longer than `isize::MAX`, and what is added to an offset has at most three bytes.
-/
import Featherbit.Lib.Fault
import Featherbit.Stream.Stability

namespace Featherbit

/-- A buffer of a machine with addresses of `width` bits: no slice is longer than `isize::MAX`. -/
structure Slice (width : Nat) where
  bytes : Bytes
  length_lt : bytes.length < 2 ^ (width - 1)
  width_ge : 32 ≤ width

/-- `usize::MAX`. -/
def usizeMax (width : Nat) : Nat := 2 ^ width - 1

namespace Checked

open Fault

section Parser

variable (max : Nat) (buf : Bytes)

def be16 (p : Nat) : Except Fault (Option Nat) :=
  match buf[p]? with
  | none => .ok none
  | some hi => do
    let p1 ← add max p 1
    match buf[p1]? with
    | none => .ok none
    | some lo => .ok (some (hi.toNat <<< 8 ||| lo.toNat))

def be24 (p : Nat) : Except Fault (Option Nat) :=
  match buf[p]? with
  | none => .ok none
  | some a => do
    let p1 ← add max p 1
    match buf[p1]? with
    | none => .ok none
    | some b => do
      let p2 ← add max p 2
      match buf[p2]? with
      | none => .ok none
      | some c => .ok (some (a.toNat <<< 16 ||| b.toNat <<< 8 ||| c.toNat))

def advance (p n ceiling : Nat) : Except Fault (Option Nat) := do
  let next ← add max p n
  .ok (if next ≤ ceiling then some next else none)

def skipVec (p lenBytes ceiling : Nat) : Except Fault (Option Nat) := do
  let len ←
    if lenBytes = 1 then
      match buf[p]? with
      | some b => .ok (if p < ceiling then some b.toNat else none)
      | none => .ok none
    else do
      match ← be16 max buf p with
      | some n => do
        let p2 ← add max p 2
        .ok (if p2 ≤ ceiling then some n else none)
      | none => .ok none
  match len with
  | none => .ok none
  | some len => do
    let start ← add max p lenBytes
    advance max start len ceiling

/-- One turn of the loop over the entries of a server_name list. -/
def namesTurn (listEnd q : Nat) : Except Fault (Nat ⊕ SniResult) := do
  let header ← add max q 3
  if header ≤ listEnd then
    let nameType ← index buf q
    let q1 ← add max q 1
    match ← be16 max buf q1 with
    | none => .ok (.inr .incomplete)
    | some nameLen => do
      let start ← add max q 3
      let nameEnd ← add max start nameLen
      if nameEnd > buf.length then .ok (.inr .incomplete)
      else if nameEnd > listEnd then .ok (.inr .notPresent)
      else if nameType = 0x00 then do
        let name ← slice buf start nameEnd
        .ok (.inr (hostNameAnswer name))
      else .ok (.inl nameEnd)
  else .ok (.inr .notPresent)

def parseServerName (fuel start bodyEnd : Nat) : Except Fault SniResult := do
  match ← be16 max buf start with
  | none => .ok .incomplete
  | some listLen => do
    let q ← add max start 2
    let listEnd ← add max q listLen
    if listEnd > buf.length then .ok .incomplete
    else if listEnd > bodyEnd then .ok .notPresent
    else turns (namesTurn max buf listEnd) fuel q

/-- One turn of the loop over the extensions. -/
def extensionsTurn (fuel extEnd p : Nat) : Except Fault (Nat ⊕ SniResult) := do
  let header ← add max p 4
  if header ≤ extEnd then
    match ← be16 max buf p with
    | none => .ok (.inr .incomplete)
    | some extType => do
      let p2 ← add max p 2
      match ← be16 max buf p2 with
      | none => .ok (.inr .incomplete)
      | some extLen => do
        let bodyStart ← add max p 4
        let bodyEnd ← add max bodyStart extLen
        if bodyEnd > buf.length then .ok (.inr .incomplete)
        else if bodyEnd > extEnd then .ok (.inr .notPresent)
        else if extType = 0x0000 then do
          let answer ← parseServerName max buf fuel bodyStart bodyEnd
          .ok (.inr answer)
        else .ok (.inl bodyEnd)
  else .ok (.inr .notPresent)

/-- `extract_sni` up to the handshake's end. -/
def handshakeEnd : Except Fault (Except SniResult Nat) := do
  if buf.length < 5 then .ok (.error .incomplete)
  else do
    let contentType ← index buf 0
    if contentType ≠ 0x16 then .ok (.error .notPresent)
    else do
      let major ← index buf 1
      if major ≠ 0x03 then .ok (.error .notPresent)
      else do
        match ← be16 max buf 3 with
        | none => .ok (.error .incomplete)
        | some recordLen =>
          if recordLen > maxRecordLen then .ok (.error .notPresent)
          else do
            let declaredEnd ← add max 5 recordLen
            let recordEnd := min declaredEnd buf.length
            if recordEnd < 9 then .ok (.error .incomplete)
            else do
              let handshakeType ← index buf 5
              if handshakeType ≠ 0x01 then .ok (.error .notPresent)
              else do
                match ← be24 max buf 6 with
                | none => .ok (.error .incomplete)
                | some hsLen => do
                  let helloEnd ← add max 9 hsLen
                  .ok (.ok (min helloEnd recordEnd))

/-- `extract_sni` from there to the extensions. -/
def skipFields (hsEnd : Nat) : Except Fault (Option Nat) := do
  match ← advance max 9 (2 + 32) hsEnd with
  | none => .ok none
  | some p => do
    match ← skipVec max buf p 1 hsEnd with
    | none => .ok none
    | some p => do
      match ← skipVec max buf p 2 hsEnd with
      | none => .ok none
      | some p => skipVec max buf p 1 hsEnd

/-- `extract_sni`; each loop may take `fuel` turns. -/
def extractSni (fuel : Nat) : Except Fault SniResult := do
  match ← handshakeEnd max buf with
  | .error answer => .ok answer
  | .ok hsEnd => do
    match ← skipFields max buf hsEnd with
    | none => .ok .incomplete
    | some p =>
      if p = hsEnd then .ok .notPresent
      else do
        match ← be16 max buf p with
        | none => .ok .incomplete
        | some extTotal => do
          let p ← add max p 2
          let extEnd ← add max p extTotal
          turns (extensionsTurn max buf fuel (min extEnd hsEnd)) fuel p

end Parser

/-! ### From the readers up -/

section Safe

variable {max : Nat} {buf : Bytes}

/-- What the sums of offsets have: three bytes of length and a few more above the buffer's end. -/
def Room (max : Nat) (buf : Bytes) : Prop := buf.length + 2 ^ 25 ≤ max

theorem be16_eq (hroom : Room max buf) (p : Nat) :
    Checked.be16 max buf p = .ok (Featherbit.be16 buf p) := by
  rw [Checked.be16, Featherbit.be16]
  cases hhi : buf[p]? with
  | none => rfl
  | some hi =>
    have hp := (List.getElem?_eq_some_iff.mp hhi).1
    have hp1 : p + 1 ≤ max := by
      unfold Room at hroom
      omega
    simp only [add_eq_ok hp1, ok_bind]
    cases buf[p + 1]? <;> rfl

theorem be24_eq (hroom : Room max buf) (p : Nat) :
    Checked.be24 max buf p = .ok (Featherbit.be24 buf p) := by
  rw [Checked.be24, Featherbit.be24]
  cases ha : buf[p]? with
  | none => rfl
  | some a =>
    have hp := (List.getElem?_eq_some_iff.mp ha).1
    have hp2 : p + 2 ≤ max := by
      unfold Room at hroom
      omega
    simp only [add_eq_ok (show p + 1 ≤ max by omega), ok_bind]
    cases buf[p + 1]? with
    | none => rfl
    | some b =>
      simp only [add_eq_ok hp2, ok_bind]
      cases buf[p + 2]? <;> rfl

/-- A number that is read has two bytes. -/
theorem be16_lt {p n : Nat} (h : Featherbit.be16 buf p = some n) : n < 2 ^ 16 := by
  obtain ⟨hi, lo, -, -, rfl⟩ := be16_eq_some.mp h
  have hhi := hi.toNat_lt
  have hlo := lo.toNat_lt
  omega

theorem be24_lt {p n : Nat} (h : Featherbit.be24 buf p = some n) : n < 2 ^ 24 := by
  obtain ⟨a, b, c, -, -, -, rfl⟩ := be24_eq_some.mp h
  have ha := a.toNat_lt
  have hb := b.toNat_lt
  have hc := c.toNat_lt
  omega

theorem advance_eq {p n ceiling : Nat} (h : p + n ≤ max) :
    Checked.advance max p n ceiling = .ok (Featherbit.advance p n ceiling) := by
  rw [Checked.advance, add_eq_ok h]
  rfl

theorem skipVec_one_eq (hroom : Room max buf) (p ceiling : Nat) :
    Checked.skipVec max buf p 1 ceiling = .ok (Featherbit.skipVec buf p 1 ceiling) := by
  rw [Checked.skipVec, Featherbit.skipVec, if_pos rfl, if_pos rfl]
  cases hb : buf[p]? with
  | none => rfl
  | some b =>
    have hp := (List.getElem?_eq_some_iff.mp hb).1
    have hlt := b.toNat_lt
    unfold Room at hroom
    by_cases hceiling : p < ceiling
    · simp only [if_pos hceiling, ok_bind, add_eq_ok (show p + 1 ≤ max by omega)]
      exact advance_eq (by omega)
    · simp only [if_neg hceiling, ok_bind]
      rfl

theorem skipVec_two_eq (hroom : Room max buf) (p ceiling : Nat) :
    Checked.skipVec max buf p 2 ceiling = .ok (Featherbit.skipVec buf p 2 ceiling) := by
  rw [Checked.skipVec, Featherbit.skipVec, if_neg (by decide), if_neg (by decide),
    be16_eq hroom]
  cases hn : Featherbit.be16 buf p with
  | none => rfl
  | some n =>
    have hp := length_of_be16 hn
    have hlt := be16_lt hn
    unfold Room at hroom
    simp only [ok_bind, add_eq_ok (show p + 2 ≤ max by omega)]
    by_cases hceiling : p + 2 ≤ ceiling
    · simp only [if_pos hceiling]
      exact advance_eq (by omega)
    · simp only [if_neg hceiling]
      rfl

/-! ### The two loops -/

/-- A turn over the names: it answers, or goes on three bytes further at least. -/
theorem namesTurn_cases (hroom : Room max buf) {listEnd q : Nat} (hend : listEnd ≤ buf.length)
    (hq : q ≤ listEnd) :
    namesTurn max buf listEnd q = .ok (.inr (scanNames buf listEnd q)) ∨
      ∃ q', namesTurn max buf listEnd q = .ok (.inl q') ∧ (q + 3 ≤ q' ∧ q' ≤ listEnd) ∧
        scanNames buf listEnd q = scanNames buf listEnd q' := by
  have hsum : q + 3 + 2 ^ 16 ≤ max := by
    unfold Room at hroom
    omega
  rw [namesTurn, scanNames]
  simp only [add_eq_ok (show q + 3 ≤ max by omega), ok_bind]
  by_cases hheader : q + 3 ≤ listEnd
  · rw [if_pos hheader, if_pos hheader, index_eq_ok (List.getElem?_eq_getElem (by omega))]
    simp only [add_eq_ok (show q + 1 ≤ max by omega), ok_bind, be16_eq hroom]
    cases hlen : Featherbit.be16 buf (q + 1) with
    | none => exact Or.inl rfl
    | some nameLen =>
      have hlt := be16_lt hlen
      simp only [add_eq_ok (show q + 3 + nameLen ≤ max by omega), ok_bind]
      by_cases hlong : q + 3 + nameLen > buf.length
      · simp only [if_pos hlong]
        exact Or.inl trivial
      · by_cases hover : q + 3 + nameLen > listEnd
        · simp only [if_neg hlong, if_pos hover]
          exact Or.inl trivial
        · simp only [if_neg hlong, if_neg hover]
          by_cases htype : buf[q] = 0x00
          · -- a host_name: the loop is left with it
            rw [if_pos htype, if_pos (by rw [List.getElem?_eq_getElem (by omega), htype]),
              slice_eq_ok (by omega)]
            exact Or.inl rfl
          · rw [if_neg htype, if_neg]
            · exact Or.inr ⟨q + 3 + nameLen, rfl, ⟨by omega, by omega⟩, rfl⟩
            · rw [List.getElem?_eq_getElem (by omega)]
              exact fun h => htype (Option.some.inj h)
  · rw [if_neg hheader, if_neg hheader]
    exact Or.inl rfl

theorem turns_namesTurn (hroom : Room max buf) {listEnd q fuel : Nat}
    (hend : listEnd ≤ buf.length) (hq : q ≤ listEnd) (hfuel : listEnd - q < fuel) :
    turns (namesTurn max buf listEnd) fuel q = .ok (scanNames buf listEnd q) := by
  refine turns_eq_ok (fun q => q ≤ listEnd) (fun q => listEnd - q) ?_ hq hfuel
  intro q hq
  rcases namesTurn_cases hroom hend hq with hleave | ⟨q', hgo, hq', hanswer⟩
  · exact Or.inl hleave
  · exact Or.inr ⟨q', hgo, hq'.2, by omega, hanswer⟩

theorem parseServerName_eq (hroom : Room max buf) {fuel start bodyEnd : Nat}
    (hfuel : buf.length ≤ fuel) :
    Checked.parseServerName max buf fuel start bodyEnd =
      .ok (Featherbit.parseServerName buf start bodyEnd) := by
  rw [Checked.parseServerName, Featherbit.parseServerName, be16_eq hroom]
  cases hlen : Featherbit.be16 buf start with
  | none => rfl
  | some listLen =>
    have hstart := length_of_be16 hlen
    have hlt := be16_lt hlen
    have hsum : start + 2 + listLen ≤ max := by
      unfold Room at hroom
      omega
    simp only [ok_bind, add_eq_ok (show start + 2 ≤ max by omega), add_eq_ok hsum]
    by_cases hlong : start + 2 + listLen > buf.length
    · rw [if_pos hlong, if_pos hlong]
    · by_cases hover : start + 2 + listLen > bodyEnd
      · rw [if_neg hlong, if_neg hlong, if_pos hover, if_pos hover]
      · rw [if_neg hlong, if_neg hlong, if_neg hover, if_neg hover]
        exact turns_namesTurn hroom (by omega) (by omega) (by omega)

/-- A turn over the extensions: it answers, or goes on four bytes further at least. -/
theorem extensionsTurn_cases (hroom : Room max buf) {fuel extEnd p : Nat}
    (hfuel : buf.length ≤ fuel) (hp : p ≤ buf.length) :
    extensionsTurn max buf fuel extEnd p = .ok (.inr (scanExtensions buf extEnd p)) ∨
      ∃ p', extensionsTurn max buf fuel extEnd p = .ok (.inl p') ∧ (p + 4 ≤ p' ∧ p' ≤ extEnd) ∧
        scanExtensions buf extEnd p = scanExtensions buf extEnd p' := by
  have hsum : p + 4 + 2 ^ 16 ≤ max := by
    unfold Room at hroom
    omega
  rw [extensionsTurn, scanExtensions]
  simp only [add_eq_ok (show p + 4 ≤ max by omega), ok_bind, be16_eq hroom]
  by_cases hheader : p + 4 ≤ extEnd
  · rw [if_pos hheader, if_pos hheader]
    cases htype : Featherbit.be16 buf p with
    | none => exact Or.inl rfl
    | some extType =>
      simp only [add_eq_ok (show p + 2 ≤ max by omega), ok_bind]
      cases hlen : Featherbit.be16 buf (p + 2) with
      | none => exact Or.inl rfl
      | some extLen =>
        have hlt := be16_lt hlen
        simp only [add_eq_ok (show p + 4 + extLen ≤ max by omega), ok_bind]
        by_cases hlong : p + 4 + extLen > buf.length
        · simp only [if_pos hlong]
          exact Or.inl trivial
        · by_cases hover : p + 4 + extLen > extEnd
          · simp only [if_neg hlong, if_pos hover]
            exact Or.inl trivial
          · simp only [if_neg hlong, if_neg hover]
            by_cases hserver : extType = 0x0000
            · rw [if_pos hserver, if_pos hserver, parseServerName_eq hroom hfuel]
              exact Or.inl rfl
            · rw [if_neg hserver, if_neg hserver]
              exact Or.inr ⟨p + 4 + extLen, rfl, ⟨by omega, by omega⟩, rfl⟩
  · rw [if_neg hheader, if_neg hheader]
    exact Or.inl rfl

theorem turns_extensionsTurn (hroom : Room max buf) {fuel extEnd p : Nat}
    (hfuel : buf.length ≤ fuel) (hend : extEnd ≤ buf.length) (hp : p ≤ buf.length)
    (hturns : extEnd - p < fuel) :
    turns (extensionsTurn max buf fuel extEnd) fuel p = .ok (scanExtensions buf extEnd p) := by
  refine turns_eq_ok (fun p => p ≤ buf.length) (fun p => extEnd - p) ?_ hp hturns
  intro p hp
  rcases extensionsTurn_cases hroom hfuel hp with hleave | ⟨p', hgo, hp', hanswer⟩
  · exact Or.inl hleave
  · exact Or.inr ⟨p', hgo, by omega, by omega, hanswer⟩

/-! ### The whole parser -/

theorem handshakeEnd_eq (hroom : Room max buf) :
    Checked.handshakeEnd max buf = .ok (Featherbit.handshakeEnd buf) := by
  unfold Room at hroom
  rw [Checked.handshakeEnd, Featherbit.handshakeEnd]
  by_cases hshort : buf.length < 5
  · rw [if_pos hshort, if_pos hshort]
  · have hbyte : ∀ {i} (hi : i < buf.length) (b : UInt8), buf[i]? ≠ some b ↔ buf[i] ≠ b := by
      intro i hi b
      rw [List.getElem?_eq_getElem hi, ne_eq, Option.some.injEq]
    rw [if_neg hshort, if_neg hshort, index_eq_ok (List.getElem?_eq_getElem (by omega)),
      index_eq_ok (List.getElem?_eq_getElem (show 1 < buf.length by omega))]
    simp only [ok_bind, hbyte (show 0 < buf.length by omega), hbyte (show 1 < buf.length by omega)]
    by_cases htype : buf[0] ≠ 0x16
    · rw [if_pos htype, if_pos htype]
    · rw [if_neg htype, if_neg htype]
      by_cases hmajor : buf[1] ≠ 0x03
      · rw [if_pos hmajor, if_pos hmajor]
      · rw [if_neg hmajor, if_neg hmajor, be16_eq hroom]
        cases hrecord : Featherbit.be16 buf 3 with
        | none => rfl
        | some recordLen =>
          have hrecordLen := be16_lt hrecord
          simp only [ok_bind]
          by_cases hlarge : recordLen > maxRecordLen
          · rw [if_pos hlarge, if_pos hlarge]
          · rw [if_neg hlarge, if_neg hlarge]
            simp only [add_eq_ok (show 5 + recordLen ≤ max by omega), ok_bind]
            by_cases hend : min (5 + recordLen) buf.length < 9
            · rw [if_pos hend, if_pos hend]
            · rw [if_neg hend, if_neg hend, be24_eq hroom,
                index_eq_ok (List.getElem?_eq_getElem (show 5 < buf.length by omega))]
              simp only [ok_bind, hbyte (show 5 < buf.length by omega)]
              by_cases hhello : buf[5] ≠ 0x01
              · rw [if_pos hhello, if_pos hhello]
              · rw [if_neg hhello, if_neg hhello]
                cases hlen : Featherbit.be24 buf 6 with
                | none => rfl
                | some hsLen =>
                  have hhsLen := be24_lt hlen
                  simp only [add_eq_ok (show 9 + hsLen ≤ max by omega), ok_bind]

theorem skipFields_eq (hroom : Room max buf) (hsEnd : Nat) :
    Checked.skipFields max buf hsEnd = .ok (Featherbit.skipFields buf hsEnd) := by
  rw [Checked.skipFields, Featherbit.skipFields]
  have hadvance : 9 + (2 + 32) ≤ max := by
    unfold Room at hroom
    omega
  rw [advance_eq hadvance]
  cases Featherbit.advance 9 (2 + 32) hsEnd with
  | none => rfl
  | some p =>
    simp only [ok_bind, skipVec_one_eq hroom, Option.bind_eq_bind, Option.bind_some]
    cases Featherbit.skipVec buf p 1 hsEnd with
    | none => rfl
    | some p =>
      simp only [ok_bind, skipVec_two_eq hroom, Option.bind_some]
      cases Featherbit.skipVec buf p 2 hsEnd with
      | none => rfl
      | some p => rfl

/-- **The parser is safe**: it is the one whose reads cannot miss and whose numbers do not end. -/
theorem extractSni_eq (hroom : Room max buf) {fuel : Nat} (hfuel : buf.length ≤ fuel) :
    Checked.extractSni max buf fuel = .ok (Featherbit.extractSni buf) := by
  rw [Checked.extractSni, Featherbit.extractSni, handshakeEnd_eq hroom]
  cases hhs : Featherbit.handshakeEnd buf with
  | error answer => rfl
  | ok hsEnd =>
    obtain ⟨_, -, hmin⟩ := handshakeEnd_eq_ok.mp hhs
    have hend : hsEnd ≤ buf.length := by omega
    simp only [ok_bind, skipFields_eq hroom]
    cases hfields : Featherbit.skipFields buf hsEnd with
    | none => rfl
    | some p =>
      simp only [readExtensions]
      by_cases hp : p = hsEnd
      · simp only [if_pos hp]
      · simp only [if_neg hp, be16_eq hroom, ok_bind]
        cases htotal : Featherbit.be16 buf p with
        | none => rfl
        | some extTotal =>
          have hlen := length_of_be16 htotal
          have hlt := be16_lt htotal
          have hsum : p + 2 + extTotal ≤ max := by
            unfold Room at hroom
            omega
          simp only [add_eq_ok (show p + 2 ≤ max by omega), add_eq_ok hsum, ok_bind]
          exact turns_extensionsTurn hroom hfuel (by omega) hlen (by omega)

end Safe

end Checked

/-! ## Every buffer -/

theorem Slice.room {width : Nat} (buf : Slice width) :
    Checked.Room (usizeMax width) buf.bytes := by
  have hlength := buf.length_lt
  have hwidth := buf.width_ge
  obtain ⟨w, rfl⟩ : ∃ w, width = w + 32 := ⟨width - 32, by omega⟩
  have hhalf : 2 ^ (w + 32) = 2 * 2 ^ (w + 32 - 1) := by
    rw [← Nat.pow_succ']
    rfl
  have hlarge : 2 ^ 31 ≤ 2 ^ (w + 32 - 1) := Nat.pow_le_pow_right (by omega) (by omega)
  rw [Checked.Room, usizeMax, hhalf]
  omega

/-- **No access of `extract_sni` leaves the buffer, no sum of offsets overflows, and every loop
    ends**: each turn goes on by the header it has read, so that as many turns as there are bytes
    are enough. -/
theorem extractSni_safe {width : Nat} (buf : Slice width) :
    (∀ fuel, buf.bytes.length ≤ fuel → Checked.extractSni (usizeMax width) buf.bytes fuel =
      .ok (extractSni buf.bytes)) ∧
    (∀ listEnd q q', q ≤ listEnd → listEnd ≤ buf.bytes.length →
      Checked.namesTurn (usizeMax width) buf.bytes listEnd q = .ok (.inl q') →
      q + 3 ≤ q' ∧ q' ≤ listEnd) ∧
    ∀ fuel extEnd p p', buf.bytes.length ≤ fuel → p ≤ buf.bytes.length →
      Checked.extensionsTurn (usizeMax width) buf.bytes fuel extEnd p = .ok (.inl p') →
      p + 4 ≤ p' ∧ p' ≤ extEnd := by
  refine ⟨fun fuel hfuel => Checked.extractSni_eq buf.room hfuel, ?_, ?_⟩
  · intro listEnd q q' hq hend hgo
    rcases Checked.namesTurn_cases buf.room hend hq with hleave | ⟨_, hgo', hq', -⟩
    · rw [hleave] at hgo
      nomatch hgo
    · rw [hgo'] at hgo
      cases hgo
      exact hq'
  · intro fuel extEnd p p' hfuel hp hgo
    rcases Checked.extensionsTurn_cases buf.room hfuel hp with hleave | ⟨_, hgo', hp', -⟩
    · rw [hleave] at hgo
      nomatch hgo
    · rw [hgo'] at hgo
      cases hgo
      exact hp'

/-- Five bytes of a record header, received on a machine with 64-bit addresses. -/
def recordHeader : Slice 64 where
  bytes := [0x16, 0x03, 0x01, 0x02, 0x00]
  length_lt := by decide
  width_ge := by decide

theorem extractSni_safe_recordHeader :
    Checked.extractSni (usizeMax 64) recordHeader.bytes 5 = .ok .incomplete :=
  (extractSni_safe recordHeader).1 5 (by decide)

end Featherbit
