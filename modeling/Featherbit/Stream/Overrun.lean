/-
  WHEN A WHOLE RECORD STILL GETS NO ANSWER.

  Once the first record has been received no answer should ask for more bytes: what does not fit
  the record is malformed.  The parser cannot tell.  The fields before the extensions answer
  `incomplete` when they overrun the handshake, and inside the extensions a length is compared with
  the bytes received BEFORE it is compared with the region around it, so a length that overruns
  both asks for bytes that could never make the hello well formed.

  `Overruns` lists these lengths, and `extractSni_definitive_iff` says that they are the only ones.
-/
import Featherbit.Stream.Stability

namespace Featherbit

theorem hostNameAnswer_ne_incomplete (name : Bytes) : hostNameAnswer name ≠ .incomplete := by
  unfold hostNameAnswer
  split
  · split <;> nofun
  · nofun

/-! ## The entries of a server_name list -/

/-- From the entry at `q` the scan goes on to the one at `q'`. -/
def NextName (buf : Bytes) (listEnd q q' : Nat) : Prop :=
  ∃ nameLen, q + 3 ≤ listEnd ∧ buf[q]? ≠ some 0x00 ∧ be16 buf (q + 1) = some nameLen ∧
    q' = q + 3 + nameLen ∧ q' ≤ listEnd

/-- The scan comes from the entry at `q` to the entry at `r`. -/
def NameReached (buf : Bytes) (listEnd : Nat) : Nat → Nat → Prop :=
  Relation.ReflTransGen (NextName buf listEnd)

/-- The name of the entry at `r` runs past the bytes received. -/
def NameOverruns (buf : Bytes) (listEnd r : Nat) : Prop :=
  ∃ nameLen, r + 3 ≤ listEnd ∧ be16 buf (r + 1) = some nameLen ∧ buf.length < r + 3 + nameLen

/-- The list of the server_name body at `start`, or a name reached in it, runs past the bytes
    received. -/
def ServerNameOverruns (buf : Bytes) (start bodyEnd : Nat) : Prop :=
  buf.length < start + 2 ∨
  ∃ listLen, be16 buf start = some listLen ∧
    (buf.length < start + 2 + listLen ∨
      start + 2 + listLen ≤ bodyEnd ∧
        ∃ r, NameReached buf (start + 2 + listLen) (start + 2) r ∧
          NameOverruns buf (start + 2 + listLen) r)

section Names

variable {buf : Bytes} {listEnd q r start bodyEnd : Nat}

theorem scanNames_of_reached (hin : listEnd ≤ buf.length) (h : NameReached buf listEnd q r) :
    scanNames buf listEnd q = scanNames buf listEnd r := by
  induction h with
  | refl => rfl
  | tail _ hnext ih =>
    obtain ⟨nameLen, hq, htype, hlen, rfl, hle⟩ := hnext
    rw [ih, scanNames, if_pos hq, hlen]
    dsimp only
    rw [if_neg (by omega), if_neg (by omega), if_neg htype]

theorem scanNames_eq_incomplete (hin : listEnd ≤ buf.length) :
    scanNames buf listEnd q = .incomplete ↔
      ∃ r, NameReached buf listEnd q r ∧ NameOverruns buf listEnd r := by
  constructor
  · intro h
    fun_induction scanNames buf listEnd q with
    | case1 q hq hnone =>
      have hshort := be16_eq_none.mp hnone
      omega
    | case2 q hq nameLen hlen nameEnd hover => exact ⟨q, .refl, nameLen, hq, hlen, hover⟩
    | case3 | case6 => cases h
    | case4 => exact (hostNameAnswer_ne_incomplete _ h).elim
    | case5 q hq nameType nameLen hlen nameEnd hfit hinside htype ih =>
      have hnext : NextName buf listEnd q nameEnd := ⟨nameLen, hq, htype, hlen, rfl, by omega⟩
      obtain ⟨r, hr, hover⟩ := ih h
      exact ⟨r, .head hnext hr, hover⟩
  · rintro ⟨r, hr, nameLen, hle, hlen, hover⟩
    rw [scanNames_of_reached hin hr, scanNames, if_pos hle, hlen]
    dsimp only
    rw [if_pos hover]

theorem parseServerName_eq_incomplete :
    parseServerName buf start bodyEnd = .incomplete ↔ ServerNameOverruns buf start bodyEnd := by
  unfold parseServerName ServerNameOverruns
  cases hlen : be16 buf start with
  | none =>
    have hshort := be16_eq_none.mp hlen
    exact ⟨fun _ => .inl hshort, fun _ => rfl⟩
  | some listLen =>
    have hread := length_of_be16 hlen
    have honly : ∀ P : Nat → Prop,
        (buf.length < start + 2 ∨ ∃ n, some listLen = some n ∧ P n) ↔ P listLen := by
      intro P
      constructor
      · rintro (hshort | ⟨n, hn, hP⟩)
        · omega
        · rwa [Option.some.inj hn]
      · exact fun hP => .inr ⟨listLen, rfl, hP⟩
    rw [honly]
    dsimp only
    by_cases hover : start + 2 + listLen > buf.length
    · rw [if_pos hover]
      exact ⟨fun _ => .inl hover, fun _ => rfl⟩
    rw [if_neg hover]
    by_cases hend : start + 2 + listLen > bodyEnd
    · rw [if_pos hend]
      constructor
      · nofun
      · rintro (h | ⟨h, -⟩) <;> omega
    rw [if_neg hend, scanNames_eq_incomplete (by omega)]
    constructor
    · exact fun h => .inr ⟨by omega, h⟩
    · rintro (h | ⟨-, h⟩)
      · omega
      · exact h

end Names

/-! ## The extensions -/

/-- The extension at `q` runs past the bytes received, or is a server_name in which something
    does. -/
def ExtensionOverruns (buf : Bytes) (extEnd q : Nat) : Prop :=
  ∃ extType extLen, q + 4 ≤ extEnd ∧ be16 buf q = some extType ∧ be16 buf (q + 2) = some extLen ∧
    (buf.length < q + 4 + extLen ∨
      q + 4 + extLen ≤ extEnd ∧ extType = 0x0000 ∧
        ServerNameOverruns buf (q + 4) (q + 4 + extLen))

section Extensions

variable {buf : Bytes} {extEnd p : Nat}

theorem scanExtensions_eq_incomplete (hin : extEnd ≤ buf.length) :
    scanExtensions buf extEnd p = .incomplete ↔
      ∃ q, HeaderReached buf extEnd p q ∧ ExtensionOverruns buf extEnd q := by
  constructor
  · intro h
    fun_induction scanExtensions buf extEnd p with
    | case1 p hp hnone =>
      have hshort := be16_eq_none.mp hnone
      omega
    | case2 p hp extType htype hnone =>
      have hshort := be16_eq_none.mp hnone
      omega
    | case3 p hp extType htype extLen hlen bodyStart bodyEnd hover =>
      exact ⟨p, .refl, extType, extLen, hp, htype, hlen, .inl hover⟩
    | case4 | case7 => cases h
    | case5 p hp extLen hlen bodyStart bodyEnd hfit hinside hsni =>
      exact ⟨p, .refl, 0x0000, extLen, hp, hsni, hlen,
        .inr ⟨by omega, rfl, parseServerName_eq_incomplete.mp h⟩⟩
    | case6 p hp extType htype extLen hlen bodyStart bodyEnd hfit hinside hother ih =>
      have hnext : NextHeader buf extEnd p bodyEnd :=
        ⟨extType, extLen, htype, hother, hlen, rfl, by omega⟩
      obtain ⟨q, hq, hover⟩ := ih h
      exact ⟨q, .head hnext hq, hover⟩
  · rintro ⟨q, hq, extType, extLen, hle, htype, hlen, hover⟩
    rw [scanExtensions_of_reached hin hq, scanExtensions, if_pos hle, htype, hlen]
    dsimp only
    rcases hover with hover | ⟨hinside, hsni, hname⟩
    · rw [if_pos hover]
    · by_cases hover : q + 4 + extLen > buf.length
      · rw [if_pos hover]
      · rw [if_neg hover, if_neg (by omega), if_pos hsni]
        exact parseServerName_eq_incomplete.mpr hname

end Extensions

/-! ## The whole record -/

/-- The first record has been received, and the handshake it declares fits in it. -/
def RecordReceived (buf : Bytes) : Prop :=
  ∃ recordLen hsLen, be16 buf 3 = some recordLen ∧ 5 + recordLen ≤ buf.length ∧
    be24 buf 6 = some hsLen ∧ 4 + hsLen ≤ recordLen

/-- What the parser takes for bytes not received yet, in a hello whose handshake ends at `hsEnd`:
    the fields before the extensions overrun the handshake, or the bytes end inside the length of
    the extensions block, or a length read in the block runs past the bytes received. -/
def Overruns (buf : Bytes) (hsEnd : Nat) : Prop :=
  skipFields buf hsEnd = none ∨
  ∃ p, skipFields buf hsEnd = some p ∧ p ≠ hsEnd ∧
    (buf.length < p + 2 ∨
      ∃ extTotal q, be16 buf p = some extTotal ∧
        HeaderReached buf (min (p + 2 + extTotal) hsEnd) (p + 2) q ∧
        ExtensionOverruns buf (min (p + 2 + extTotal) hsEnd) q)

section Record

variable {buf : Bytes} {hsEnd : Nat}

/-- The answer after the headers. -/
theorem extractSni_eq_incomplete (hhs : handshakeEnd buf = .ok hsEnd) (hin : hsEnd ≤ buf.length) :
    extractSni buf = .incomplete ↔ Overruns buf hsEnd := by
  unfold Overruns
  rw [extractSni, hhs]
  dsimp only
  cases hskip : skipFields buf hsEnd with
  | none => exact ⟨fun _ => .inl rfl, fun _ => rfl⟩
  | some p =>
    dsimp only
    unfold readExtensions
    by_cases hpe : p = hsEnd
    · rw [if_pos hpe]
      constructor
      · intro h
        cases h
      · rintro (h | ⟨_, hp, hne, -⟩)
        · cases h
        · exact absurd ((Option.some.inj hp).symm.trans hpe) hne
    rw [if_neg hpe]
    cases htotal : be16 buf p with
    | none =>
      have hshort := be16_eq_none.mp htotal
      exact ⟨fun _ => .inr ⟨p, rfl, hpe, .inl hshort⟩, fun _ => rfl⟩
    | some extTotal =>
      have hread := length_of_be16 htotal
      dsimp only
      rw [scanExtensions_eq_incomplete (by omega)]
      constructor
      · rintro ⟨q, hq, hover⟩
        exact .inr ⟨p, rfl, hpe, .inr ⟨extTotal, q, htotal, hq, hover⟩⟩
      · rintro (h | ⟨p', hp, -, hcase⟩)
        · cases h
        obtain rfl := Option.some.inj hp
        rcases hcase with hshort | ⟨n, q, hn, hq, hover⟩
        · omega
        · obtain rfl := Option.some.inj (htotal.symm.trans hn)
          exact ⟨q, hq, hover⟩

/-- With the headers of a whole record there is an answer, or a handshake to look into. -/
theorem handshakeEnd_of_received (h : RecordReceived buf) :
    handshakeEnd buf = .error .notPresent ∨
      ∃ declared, Declares buf declared ∧ declared ≤ buf.length := by
  obtain ⟨recordLen, hsLen, hrecord, hin, hhs, hfit⟩ := h
  by_cases hdecl : buf[0]? = some 0x16 ∧ buf[1]? = some 0x03 ∧ buf[5]? = some 0x01 ∧
      recordLen ≤ maxRecordLen
  · obtain ⟨htype, hversion, hhello, hmax⟩ := hdecl
    exact .inr ⟨_, ⟨htype, hversion, hhello, recordLen, hsLen, hrecord, by omega, hmax, hhs, rfl⟩,
      by omega⟩
  · left
    unfold handshakeEnd
    rw [if_neg (by omega), hrecord]
    dsimp only
    by_cases htype : buf[0]? ≠ some 0x16
    · rw [if_pos htype]
    rw [if_neg htype]
    by_cases hversion : buf[1]? ≠ some 0x03
    · rw [if_pos hversion]
    rw [if_neg hversion]
    by_cases hmax : recordLen > maxRecordLen
    · rw [if_pos hmax]
    rw [if_neg hmax, if_neg (by omega)]
    have hhello : buf[5]? ≠ some 0x01 := fun hhello =>
      hdecl ⟨not_not.mp htype, not_not.mp hversion, hhello, by omega⟩
    rw [if_pos hhello]

/-- **When a whole record is answered.**  The answer is definitive iff the record is not that of a
    ClientHello in which something overruns. -/
theorem extractSni_definitive_iff (h : RecordReceived buf) :
    extractSni buf ≠ .incomplete ↔ ¬ ∃ hsEnd, Declares buf hsEnd ∧ Overruns buf hsEnd := by
  rw [not_iff_not]
  rcases handshakeEnd_of_received h with herr | ⟨declared, hdecl, hle⟩
  · constructor
    · intro hinc
      rw [extractSni, herr] at hinc
      cases hinc
    · rintro ⟨hsEnd, hdecl, -⟩
      rw [handshakeEnd_eq_ok.mpr ⟨hsEnd, hdecl, rfl⟩] at herr
      cases herr
  · -- the handshake is all there, and ends where it declares
    have hok : handshakeEnd buf = .ok declared :=
      handshakeEnd_eq_ok.mpr ⟨declared, hdecl, (Nat.min_eq_left hle).symm⟩
    have honly : ∀ hsEnd, Declares buf hsEnd → hsEnd = declared := by
      rintro hsEnd ⟨-, -, -, _, _, hrecord, -, -, hhs, rfl⟩
      obtain ⟨-, -, -, _, _, hrecord', -, -, hhs', rfl⟩ := hdecl
      rw [Option.some.inj (hrecord.symm.trans hrecord'), Option.some.inj (hhs.symm.trans hhs')]
    rw [extractSni_eq_incomplete hok hle]
    constructor
    · exact fun hover => ⟨declared, hdecl, hover⟩
    · rintro ⟨hsEnd, hdecl', hover⟩
      rwa [honly hsEnd hdecl'] at hover

end Record

/-- A record that holds a ClientHello header and a handshake of no bytes. -/
def emptyHello : Bytes := [0x16, 0x03, 0x01, 0x00, 0x04, 0x01, 0x00, 0x00, 0x00]

theorem extractSni_definitive_iff_emptyHello :
    extractSni emptyHello ≠ .incomplete ↔
      ¬ ∃ hsEnd, Declares emptyHello hsEnd ∧ Overruns emptyHello hsEnd :=
  extractSni_definitive_iff ⟨4, 0, by decide⟩

/-- It has been received whole, and no answer is given. -/
theorem emptyHello_waits :
    (∃ recordLen hsLen, be16 emptyHello 3 = some recordLen ∧
      5 + recordLen ≤ emptyHello.length ∧ be24 emptyHello 6 = some hsLen ∧ 4 + hsLen ≤ recordLen) ∧
    extractSni emptyHello = .incomplete :=
  ⟨⟨4, 0, by decide⟩, by decide +kernel⟩

end Featherbit
