/-
  DOES AN ANSWER SURVIVE THE BYTES THAT ARRIVE AFTER IT?

  The caller of `extractSni` acts on its first definitive answer, so that answer should not depend
  on how the hello was cut into segments.  The inner lengths do not: an extension body and a
  server_name list are only entered when they have been received whole.  The regions around them
  are clamped to the bytes received, and there a region that is not complete yet looks like one
  that has ended: a hello cut before the extensions block, or inside the header of an extension,
  is answered `notPresent`.

  `extractSni_stable_iff` says that these are the only answers that do not survive.
-/
import Featherbit.Stream.Sni
import Mathlib.Logic.Relation

namespace Featherbit

/-! ## The readers, on a buffer that has grown -/

section Append

variable {buf : Bytes} {p n : Nat} (more : Bytes)

theorem be16_append (h : p + 2 ≤ buf.length) : be16 (buf ++ more) p = be16 buf p := by
  unfold be16
  rw [List.getElem?_append_left (by omega), List.getElem?_append_left (by omega)]

theorem be24_append (h : p + 3 ≤ buf.length) : be24 (buf ++ more) p = be24 buf p := by
  unfold be24
  rw [List.getElem?_append_left (by omega), List.getElem?_append_left (by omega),
    List.getElem?_append_left (by omega)]

theorem slice_append (h : p + n ≤ buf.length) :
    ((buf ++ more).drop p).take n = (buf.drop p).take n := by
  rw [List.drop_append_of_le_length (by omega), List.take_append_of_le_length]
  rw [List.length_drop]
  omega

theorem skipFields_append {ceiling ceiling' q : Nat} (h : skipFields buf ceiling = some q)
    (hle : ceiling ≤ ceiling') : skipFields (buf ++ more) ceiling' = some q := by
  obtain ⟨session, ciphers, compression, hs, hc, hm, hq, hqle⟩ := skipFields_eq_some.mp h
  obtain ⟨_, hs', -⟩ := Option.map_eq_some_iff.mp hs
  obtain ⟨_, hm', -⟩ := Option.map_eq_some_iff.mp hm
  have hs_lt := (List.getElem?_eq_some_iff.mp hs').1
  have hm_lt := (List.getElem?_eq_some_iff.mp hm').1
  have hc_le := length_of_be16 hc
  refine skipFields_eq_some.mpr ⟨session, ciphers, compression, ?_, ?_, ?_, hq, by omega⟩
  · rw [List.getElem?_append_left hs_lt, hs]
  · rw [be16_append more hc_le, hc]
  · rw [List.getElem?_append_left hm_lt, hm]

/-- The names of a list that has been received whole are read once and for all. -/
theorem scanNames_append {listEnd q : Nat} (hle : listEnd ≤ buf.length)
    (h : scanNames buf listEnd q ≠ .incomplete) :
    scanNames (buf ++ more) listEnd q = scanNames buf listEnd q := by
  fun_induction scanNames buf listEnd q with
  | case1 | case2 => exact absurd rfl h
  | case3 q hq nameLen hread nameEnd hin hover =>
    rw [scanNames, if_pos hq, be16_append more (by omega), hread]
    dsimp only
    rw [if_neg (by rw [List.length_append]; omega), if_pos hover]
  | case4 q hq nameType nameLen hread nameEnd hin hfit htype =>
    rw [scanNames, if_pos hq, be16_append more (by omega), hread,
      List.getElem?_append_left (by omega)]
    dsimp only
    rw [if_neg (by rw [List.length_append]; omega), if_neg hfit, if_pos htype,
      slice_append more (by omega)]
  | case5 q hq nameType nameLen hread nameEnd hin hfit htype ih =>
    rw [scanNames, if_pos hq, be16_append more (by omega), hread,
      List.getElem?_append_left (by omega)]
    dsimp only
    rw [if_neg (by rw [List.length_append]; omega), if_neg hfit, if_neg htype]
    exact ih h
  | case6 q hq => rw [scanNames, if_neg hq]

theorem parseServerName_append {start bodyEnd : Nat}
    (h : parseServerName buf start bodyEnd ≠ .incomplete) :
    parseServerName (buf ++ more) start bodyEnd = parseServerName buf start bodyEnd := by
  unfold parseServerName at h ⊢
  cases hlen : be16 buf start with
  | none =>
    rw [hlen] at h
    exact absurd rfl h
  | some listLen =>
    rw [be16_append more (length_of_be16 hlen), hlen]
    rw [hlen] at h
    dsimp only at h ⊢
    by_cases hin : start + 2 + listLen > buf.length
    · rw [if_pos hin] at h
      exact absurd rfl h
    rw [if_neg hin] at h
    rw [if_neg hin, if_neg (by rw [List.length_append]; omega)]
    by_cases hover : start + 2 + listLen > bodyEnd
    · rw [if_pos hover, if_pos hover]
    · rw [if_neg hover] at h
      rw [if_neg hover, if_neg hover, scanNames_append more (by omega) h]

end Append

/-! ## The two headers -/

/-- The headers of a ClientHello have been received, and put the end of its handshake at
    `declared`. -/
structure Declares (buf : Bytes) (declared : Nat) : Prop where
  contentType : buf[0]? = some 0x16
  version : buf[1]? = some 0x03
  handshakeType : buf[5]? = some 0x01
  lengths : ∃ recordLen hsLen, be16 buf 3 = some recordLen ∧ 4 ≤ recordLen ∧
    recordLen ≤ maxRecordLen ∧ be24 buf 6 = some hsLen ∧
    declared = min (9 + hsLen) (5 + recordLen)

section Headers

variable {buf : Bytes} {hsEnd declared : Nat}

theorem Declares.length_le (h : Declares buf declared) : 9 ≤ buf.length := by
  obtain ⟨_, _, -, -, -, hhs, -⟩ := h.lengths
  exact length_of_be24 hhs

/-- What `handshakeEnd` answers when it goes on: the declared end, or the end of what has been
    received. -/
theorem handshakeEnd_eq_ok : handshakeEnd buf = .ok hsEnd ↔
    ∃ declared, Declares buf declared ∧ hsEnd = min declared buf.length := by
  constructor
  · intro h
    unfold handshakeEnd at h
    split at h
    · nomatch h
    split at h
    · nomatch h
    rename_i htype
    split at h
    · nomatch h
    rename_i hversion
    split at h
    · nomatch h
    rename_i recordLen hrecord
    split at h
    · nomatch h
    rename_i hmax
    dsimp only at h
    split at h
    · nomatch h
    rename_i hnine
    split at h
    · nomatch h
    rename_i hhello
    split at h
    · nomatch h
    rename_i hsLen hhs
    obtain rfl := Except.ok.inj h
    refine ⟨_, ⟨not_not.mp htype, not_not.mp hversion, not_not.mp hhello, recordLen, hsLen, hrecord,
      by omega, by omega, hhs, rfl⟩, by omega⟩
  · rintro ⟨declared, hdecl, rfl⟩
    have hlen := hdecl.length_le
    obtain ⟨htype, hversion, hhello, recordLen, hsLen, hrecord, hfour, hmax, hhs, rfl⟩ := hdecl
    unfold handshakeEnd
    rw [if_neg (by omega), if_neg (not_not.mpr htype), if_neg (not_not.mpr hversion), hrecord]
    dsimp only
    rw [if_neg (by omega), if_neg (by omega), if_neg (not_not.mpr hhello), hhs]
    dsimp only
    congr 1
    omega

theorem Declares.append (h : Declares buf declared) (more : Bytes) :
    Declares (buf ++ more) declared := by
  have hlen := h.length_le
  obtain ⟨htype, hversion, hhello, recordLen, hsLen, hrecord, hfour, hmax, hhs, hdecl⟩ := h
  refine ⟨?_, ?_, ?_, recordLen, hsLen, ?_, hfour, hmax, ?_, hdecl⟩
  · rw [List.getElem?_append_left (by omega), htype]
  · rw [List.getElem?_append_left (by omega), hversion]
  · rw [List.getElem?_append_left (by omega), hhello]
  · rw [be16_append more (by omega), hrecord]
  · rw [be24_append more (by omega), hhs]

/-- An answer the headers decide. -/
theorem handshakeEnd_append_error {answer : SniResult} (h : handshakeEnd buf = .error answer)
    (hne : answer ≠ .incomplete) (more : Bytes) : handshakeEnd (buf ++ more) = .error answer := by
  have hincomplete : ∀ {r : SniResult}, (.error .incomplete : Except SniResult Nat) = .error r →
      r ≠ .incomplete → False := fun heq hr => hr (Except.error.inj heq).symm
  unfold handshakeEnd at h ⊢
  by_cases hfive : buf.length < 5
  · rw [if_pos hfive] at h
    exact (hincomplete h hne).elim
  rw [if_neg hfive] at h
  rw [if_neg (by rw [List.length_append]; omega), List.getElem?_append_left (by omega),
    List.getElem?_append_left (by omega), be16_append more (by omega)]
  by_cases htype : buf[0]? ≠ some 0x16
  · rw [if_pos htype] at h ⊢
    exact h
  rw [if_neg htype] at h ⊢
  by_cases hversion : buf[1]? ≠ some 0x03
  · rw [if_pos hversion] at h ⊢
    exact h
  rw [if_neg hversion] at h ⊢
  cases hrecord : be16 buf 3 with
  | none =>
    rw [hrecord] at h
    exact (hincomplete h hne).elim
  | some recordLen =>
    rw [hrecord] at h
    dsimp only at h ⊢
    by_cases hmax : recordLen > maxRecordLen
    · rw [if_pos hmax] at h ⊢
      exact h
    rw [if_neg hmax] at h ⊢
    by_cases hnine : min (5 + recordLen) buf.length < 9
    · rw [if_pos hnine] at h
      exact (hincomplete h hne).elim
    rw [if_neg hnine] at h
    rw [if_neg (by rw [List.length_append]; omega), List.getElem?_append_left (by omega),
      be24_append more (by omega)]
    by_cases hhello : buf[5]? ≠ some 0x01
    · rw [if_pos hhello] at h ⊢
      exact h
    rw [if_neg hhello] at h
    cases hhs : be24 buf 6 with
    | none =>
      rw [hhs] at h
      exact (hincomplete h hne).elim
    | some hsLen =>
      rw [hhs] at h
      nomatch h

end Headers

/-! ## The extension headers that are reached -/

/-- From the extension header at `p` the loop goes on to the one at `p'`. -/
def NextHeader (buf : Bytes) (extEnd p p' : Nat) : Prop :=
  ∃ extType extLen, be16 buf p = some extType ∧ extType ≠ 0x0000 ∧
    be16 buf (p + 2) = some extLen ∧ p' = p + 4 + extLen ∧ p' ≤ extEnd

/-- The loop comes from the header at `p` to the header at `q`. -/
def HeaderReached (buf : Bytes) (extEnd : Nat) : Nat → Nat → Prop :=
  Relation.ReflTransGen (NextHeader buf extEnd)

section Reached

variable {buf : Bytes} {extEnd extEnd' p q : Nat}

theorem HeaderReached.le (h : HeaderReached buf extEnd p q) (hp : p ≤ extEnd) : q ≤ extEnd := by
  induction h with
  | refl => exact hp
  | tail _ hnext _ =>
    obtain ⟨_, _, -, -, -, -, hle⟩ := hnext
    exact hle

theorem HeaderReached.append (h : HeaderReached buf extEnd p q) (hle : extEnd ≤ extEnd')
    (more : Bytes) : HeaderReached (buf ++ more) extEnd' p q := by
  have hstep : ∀ a b, NextHeader buf extEnd a b → NextHeader (buf ++ more) extEnd' a b := by
    rintro a b ⟨extType, extLen, htype, hother, hlen, rfl, hb⟩
    refine ⟨extType, extLen, ?_, hother, ?_, rfl, by omega⟩
    · rw [be16_append more (length_of_be16 htype), htype]
    · rw [be16_append more (length_of_be16 hlen), hlen]
  exact Relation.ReflTransGen.mono hstep _ _ h

/-- The answer at a header is the answer at every header reached from it. -/
theorem scanExtensions_of_reached (hin : extEnd ≤ buf.length) (h : HeaderReached buf extEnd p q) :
    scanExtensions buf extEnd p = scanExtensions buf extEnd q := by
  induction h with
  | refl => rfl
  | tail _ hnext ih =>
    obtain ⟨extType, extLen, htype, hother, hlen, rfl, hle⟩ := hnext
    rw [ih, scanExtensions, if_pos (by omega), htype, hlen]
    dsimp only
    rw [if_neg (by omega), if_neg (by omega), if_neg hother]

/-- The extensions are read once and for all, unless the bytes received end before the end of a
    header the block has room for.  `roomEnd` is the end of the block as declared. -/
theorem scanExtensions_append {roomEnd : Nat} (more : Bytes)
    (hroom : ∀ q, HeaderReached buf (min roomEnd buf.length) p q → buf.length < q + 4 →
      roomEnd < q + 4)
    (h : scanExtensions buf (min roomEnd buf.length) p ≠ .incomplete) :
    scanExtensions (buf ++ more) (min roomEnd (buf ++ more).length) p =
      scanExtensions buf (min roomEnd buf.length) p := by
  have hgrow : (buf ++ more).length = buf.length + more.length := List.length_append
  generalize hend : min roomEnd buf.length = extEnd at h hroom ⊢
  generalize hend' : min roomEnd (buf ++ more).length = extEnd'
  fun_induction scanExtensions buf extEnd p with
  | case1 | case2 | case3 => exact absurd rfl h
  | case4 p hp extType htype extLen hlen bodyStart bodyEnd hin hover =>
    rw [scanExtensions, if_pos (by omega), be16_append more (by omega), htype,
      be16_append more (by omega), hlen]
    dsimp only
    rw [if_neg (by omega), if_pos (by omega)]
  | case5 p hp extLen hlen bodyStart bodyEnd hin hfit hsni =>
    rw [scanExtensions, if_pos (by omega), be16_append more (by omega), hsni,
      be16_append more (by omega), hlen]
    dsimp only
    rw [if_neg (by omega), if_neg (by omega), if_pos rfl]
    exact parseServerName_append more h
  | case6 p hp extType htype extLen hlen bodyStart bodyEnd hin hfit hother ih =>
    have hnext : NextHeader buf extEnd p bodyEnd :=
      ⟨extType, extLen, htype, hother, hlen, rfl, by omega⟩
    rw [scanExtensions, if_pos (by omega), be16_append more (by omega), htype,
      be16_append more (by omega), hlen]
    dsimp only
    rw [if_neg (by omega), if_neg (by omega), if_neg hother]
    exact ih h (fun q hq => hroom q (.head hnext hq))
  | case7 p hp =>
    have hshort : roomEnd < p + 4 ∨ buf.length < p + 4 := by omega
    have hfull : roomEnd < p + 4 := hshort.elim id (hroom p .refl)
    rw [scanExtensions, if_neg (by omega)]

end Reached

/-! ## The cuts that are answered too early -/

/-- The bytes end inside the extensions block: the declared handshake goes on after them, the
    fields before the block have been received, and either nothing of the block has, or the bytes
    end before the end of an extension header that is reached and that the block has room for. -/
def CutInExtensions (buf : Bytes) : Prop :=
  ∃ declared p, Declares buf declared ∧ buf.length < declared ∧
    skipFields buf buf.length = some p ∧
    (p = buf.length ∨ ∃ extTotal q, be16 buf p = some extTotal ∧
      HeaderReached buf buf.length (p + 2) q ∧ buf.length < q + 4 ∧
      q + 4 ≤ min (p + 2 + extTotal) declared)

section Stable

variable {buf : Bytes}

/-- An answer given anywhere else survives whatever arrives. -/
theorem extractSni_append (hcut : ¬ CutInExtensions buf) (h : extractSni buf ≠ .incomplete)
    (more : Bytes) : extractSni (buf ++ more) = extractSni buf := by
  have hgrow : (buf ++ more).length = buf.length + more.length := List.length_append
  unfold extractSni at h ⊢
  cases hhs : handshakeEnd buf with
  | error answer =>
    rw [hhs] at h
    rw [handshakeEnd_append_error hhs h more]
  | ok hsEnd =>
    obtain ⟨declared, hdecl, rfl⟩ := handshakeEnd_eq_ok.mp hhs
    rw [handshakeEnd_eq_ok.mpr ⟨declared, hdecl.append more, rfl⟩]
    rw [hhs] at h
    dsimp only at h ⊢
    cases hskip : skipFields buf (min declared buf.length) with
    | none =>
      rw [hskip] at h
      exact absurd rfl h
    | some p =>
      rw [skipFields_append more hskip (by omega)]
      rw [hskip] at h
      dsimp only at h ⊢
      obtain ⟨-, -, -, -, -, -, -, hp⟩ := skipFields_eq_some.mp hskip
      -- with the handshake cut short, the fields end where the bytes do
      have hskip' : buf.length < declared → skipFields buf buf.length = some p := by
        intro hlt
        rw [← hskip]
        congr 1
        omega
      unfold readExtensions at h ⊢
      by_cases hpe : p = min declared buf.length
      · -- the block is absent, unless it has not been received
        have hdone : ¬ buf.length < declared := fun hlt =>
          hcut ⟨declared, p, hdecl, hlt, hskip' hlt, Or.inl (by omega)⟩
        rw [if_pos hpe, if_pos (by omega)]
      · rw [if_neg hpe] at h
        cases htotal : be16 buf p with
        | none =>
          rw [htotal] at h
          exact absurd rfl h
        | some extTotal =>
          have hread := length_of_be16 htotal
          rw [if_neg hpe, if_neg (by omega), be16_append more hread, htotal]
          rw [htotal] at h
          dsimp only at h ⊢
          rw [← Nat.min_assoc] at h ⊢
          rw [← Nat.min_assoc]
          -- a header that more bytes would complete is a cut
          refine scanExtensions_append more (fun q hq hshort => ?_) h
          by_contra hroom
          have hlt : buf.length < declared := by omega
          have hq' : HeaderReached buf buf.length (p + 2) q := by
            have hbound : min (min (p + 2 + extTotal) declared) buf.length = buf.length := by omega
            rw [hbound] at hq
            exact hq
          exact hcut ⟨declared, p, hdecl, hlt, hskip' hlt,
            Or.inr ⟨extTotal, q, htotal, hq', hshort, by omega⟩⟩

/-- An extension header that is not all there can be completed, with a length of at least one. -/
theorem exists_header_completion {q : Nat} (hq : q ≤ buf.length) (hshort : buf.length < q + 4) :
    ∃ more extType extLen, (buf ++ more).length = q + 4 ∧ be16 (buf ++ more) q = some extType ∧
      be16 (buf ++ more) (q + 2) = some extLen ∧ 1 ≤ extLen := by
  refine ⟨List.replicate (q + 4 - buf.length) 0x01, ?_⟩
  generalize hmore : List.replicate (q + 4 - buf.length) (0x01 : UInt8) = more
  have hgrow : (buf ++ more).length = q + 4 := by
    rw [List.length_append, ← hmore, List.length_replicate]
    omega
  have hreadable : ∀ i, i + 2 ≤ q + 4 → ∃ n, be16 (buf ++ more) i = some n := fun i hi =>
    Option.ne_none_iff_exists'.mp fun hnone => by
      have := be16_eq_none.mp hnone
      omega
  obtain ⟨extType, htype⟩ := hreadable q (by omega)
  obtain ⟨extLen, hlen⟩ := hreadable (q + 2) (by omega)
  -- the last byte of the length is a one of the filling
  obtain ⟨hi, lo, -, hlo, hval⟩ := be16_eq_some.mp hlen
  have hlast : (buf ++ more)[q + 2 + 1]? = some 0x01 := by
    rw [List.getElem?_append_right (by omega), ← hmore, List.getElem?_replicate_of_lt (by omega)]
  obtain rfl := Option.some.inj (hlo.symm.trans hlast)
  have hone : (0x01 : UInt8).toNat = 1 := rfl
  exact ⟨extType, extLen, hgrow, htype, hlen, by omega⟩

/-- An answer given at such a cut is `notPresent`, and is taken back for some next bytes. -/
theorem extractSni_of_cut (hcut : CutInExtensions buf) :
    extractSni buf = .notPresent ∧ ∃ more, extractSni (buf ++ more) = .incomplete := by
  obtain ⟨declared, p, hdecl, hlt, hskip, hcase⟩ := hcut
  have hhs : handshakeEnd buf = .ok buf.length := handshakeEnd_eq_ok.mpr ⟨declared, hdecl, by omega⟩
  have hgrown : ∀ more : Bytes, handshakeEnd (buf ++ more) =
      .ok (min declared (buf ++ more).length) := fun more =>
    handshakeEnd_eq_ok.mpr ⟨declared, hdecl.append more, rfl⟩
  rcases hcase with rfl | ⟨extTotal, q, htotal, hq, hshort, hroom⟩
  · -- one more byte, and the length of the block is half there
    refine ⟨?_, [0], ?_⟩
    · simp only [extractSni, hhs, hskip, readExtensions, if_true]
    · have hgrow : (buf ++ [0]).length = buf.length + 1 := List.length_append
      have hnone : be16 (buf ++ [0]) buf.length = none := be16_eq_none.mpr (by omega)
      have hskip' := skipFields_append [0] hskip
        (show buf.length ≤ min declared (buf ++ [0]).length by omega)
      simp only [extractSni, hgrown, hskip', readExtensions, hnone]
      rw [if_neg (by omega)]
  · have hread := length_of_be16 htotal
    have hpne : p ≠ buf.length := by omega
    constructor
    · simp only [extractSni, hhs, hskip, readExtensions, if_neg hpne, htotal]
      rw [show min (p + 2 + extTotal) buf.length = buf.length by omega,
        scanExtensions_of_reached (Nat.le_refl _) hq, scanExtensions, if_neg (by omega)]
    · obtain ⟨more, extType, extLen, hgrow, htype, hextLen, hpos⟩ :=
        exists_header_completion (hq.le hread) (by omega)
      refine ⟨more, ?_⟩
      have hskip' := skipFields_append more hskip
        (show buf.length ≤ min declared (buf ++ more).length by omega)
      have hext : min (p + 2 + extTotal) (min declared (buf ++ more).length) = q + 4 := by omega
      have hreached := hq.append (by omega : buf.length ≤ q + 4) more
      rw [extractSni, hgrown]
      dsimp only
      rw [hskip']
      dsimp only
      rw [readExtensions, if_neg (by omega), be16_append more hread, htotal]
      dsimp only
      rw [hext, scanExtensions_of_reached (by omega) hreached, scanExtensions,
        if_pos (Nat.le_refl _), htype, hextLen]
      dsimp only
      rw [if_pos (by omega)]

/-- **When an answer survives.**  A definitive answer for `buf` is the answer for every longer
    buffer iff the bytes do not end inside the extensions block. -/
theorem extractSni_stable_iff (buf : Bytes) :
    (∀ more, extractSni buf ≠ .incomplete → extractSni (buf ++ more) = extractSni buf) ↔
      ¬ CutInExtensions buf := by
  constructor
  · intro hstable hcut
    obtain ⟨hanswer, more, hmore⟩ := extractSni_of_cut hcut
    have hsame := hstable more (by rw [hanswer]; nofun)
    rw [hmore, hanswer] at hsame
    nomatch hsame
  · intro hcut more h
    exact extractSni_append hcut h more

end Stable

/-- A ClientHello for `example.com`. -/
def wholeHello : Bytes :=
  [0x16, 0x03, 0x01, 0x00, 0x43, 0x01, 0x00, 0x00, 0x3f, 0x03, 0x03] ++ List.replicate 32 0x00 ++
    [0x00, 0x00, 0x02, 0x00, 0x2f, 0x01, 0x00, 0x00, 0x14, 0x00, 0x00, 0x00, 0x10, 0x00, 0x0e,
      0x00, 0x00, 0x0b] ++ asBytes "example.com"

/-- Its first 50 bytes, up to the extensions block, are answered `notPresent`. -/
theorem cut_hello_answered_early :
    wholeHello = wholeHello.take 50 ++ wholeHello.drop 50 ∧
    extractSni (wholeHello.take 50) = .notPresent ∧
    extractSni (wholeHello.take 50 ++ wholeHello.drop 50) = .found "example.com" := by
  decide +kernel

end Featherbit
