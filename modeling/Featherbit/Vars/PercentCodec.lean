/-
  PERCENT-ENCODING THERE AND BACK (`urldecode` of `vars/mod.rs`, `uri_encode` of
  `plugins/native/aws_lambda.rs`).

  `urldecodeBytes` is the decoder by recursion on what is left to read.  Here it is written as the
  machine runs it, with an offset, an output that grows, and a byte for each sum and product.

  1. **The loop** (`urldecodeMachine_eq`) — it ends, reads no byte past the end, computes none above
     255, and answers what the recursion does.
  2. **Malformed sequences** (`urldecode_percent`) — a `%` that no two hexadecimal digits follow stays,
     and what is before it and after it is read as if it stood alone.
  3. **There and back** (`percent_codec`) — what `uri_encode` wrote is read again.
-/
import Featherbit.Lib.Fault
import Featherbit.Rust.Utf8Prefix
import Featherbit.Vars.SortedQuery

namespace Featherbit

namespace Vars

open Fault (index add mul turns)

/-! ## The loop -/

/-- The byte of two digits, where there are two. -/
def escapedByte (hi lo : UInt8) : Except Fault (Option UInt8) :=
  match hexVal hi, hexVal lo with
  | some h, some l => do
    let high ← mul 255 h.toNat 16
    let byte ← add 255 high l.toNat
    .ok (some (UInt8.ofNat byte))
  | _, _ => .ok none

/-- One turn at offset `i`, which is below the length of a slice: no sum of offsets overflows. -/
def urldecodeTurn (bytes : Bytes) (state : Nat × Bytes) : Except Fault ((Nat × Bytes) ⊕ Bytes) :=
  let (i, out) := state
  if i < bytes.length then do
    let b ← index bytes i
    if b = 0x2B then .ok (.inl (i + 1, out ++ [0x20]))
    else if b = 0x25 ∧ i + 2 < bytes.length then do
      let hi ← index bytes (i + 1)
      let lo ← index bytes (i + 2)
      match ← escapedByte hi lo with
      | some byte => .ok (.inl (i + 3, out ++ [byte]))
      | none => .ok (.inl (i + 1, out ++ [0x25]))
    else .ok (.inl (i + 1, out ++ [b]))
  else .ok (.inr out)

/-- `urldecode`, with as many turns as there are bytes and one to leave the loop. -/
def urldecodeMachine (s : String) : Except Fault String := do
  let bytes := asBytes s
  let out ← turns (urldecodeTurn bytes) (bytes.length + 1) (0, [])
  .ok (fromUtf8Lossy out)

/-- The value of a letter not more than five after `a`. -/
theorem letterValue_lt {a b : UInt8} (hlow : a ≤ b) (hhigh : b.toNat ≤ a.toNat + 5) :
    (b - a + 10).toNat < 16 := by
  rw [UInt8.toNat_add, UInt8.toNat_sub_of_le _ _ hlow]
  change (b.toNat - a.toNat + 10) % 256 < 16
  omega

theorem hexVal_lt {b h : UInt8} (hb : hexVal b = some h) : h.toNat < 16 := by
  unfold hexVal at hb
  split at hb
  · rename_i hdigit
    obtain rfl := Option.some.inj hb
    have hhigh : b.toNat ≤ 0x39 := UInt8.le_iff_toNat_le.mp hdigit.2
    rw [UInt8.toNat_sub_of_le _ _ hdigit.1]
    change b.toNat - 0x30 < 16
    omega
  · split at hb
    · rename_i hlower
      obtain rfl := Option.some.inj hb
      exact letterValue_lt hlower.1 (UInt8.le_iff_toNat_le.mp hlower.2)
    · split at hb
      · rename_i hupper
        obtain rfl := Option.some.inj hb
        exact letterValue_lt hupper.1 (UInt8.le_iff_toNat_le.mp hupper.2)
      · cases hb

/-- The byte of two digits is not above 255. -/
theorem escapedByte_eq {hi lo h l : UInt8} (hhi : hexVal hi = some h) (hlo : hexVal lo = some l) :
    escapedByte hi lo = .ok (some (h * 16 + l)) := by
  have hh := hexVal_lt hhi
  have hl := hexVal_lt hlo
  have hvalue : UInt8.ofNat (h.toNat * 16 + l.toNat) = h * 16 + l := by
    apply UInt8.toNat_inj.mp
    rw [UInt8.toNat_ofNat_of_lt' (show h.toNat * 16 + l.toNat < 256 by omega), UInt8.toNat_add,
      UInt8.toNat_mul, show (16 : UInt8).toNat = 16 from rfl]
    omega
  unfold escapedByte
  rw [hhi, hlo]
  simp only [Fault.mul_eq_ok (show h.toNat * 16 ≤ 255 by omega),
    Fault.add_eq_ok (show h.toNat * 16 + l.toNat ≤ 255 by omega), Fault.ok_bind, hvalue]

theorem escapedByte_none {hi lo : UInt8} {rest : Bytes} (h : startsHex (hi :: lo :: rest) = false) :
    escapedByte hi lo = .ok none := by
  have h : ((hexVal hi).isSome && (hexVal lo).isSome) = false := h
  unfold escapedByte
  cases hhi : hexVal hi with
  | none => rfl
  | some _ =>
    cases hlo : hexVal lo with
    | none => rfl
    | some _ =>
      rw [hhi, hlo] at h
      cases h

/-- One turn reads what the recursion reads next. -/
theorem urldecodeTurn_spec {bytes : Bytes} {i : Nat} (out : Bytes) (hi : i < bytes.length) :
    ∃ n b, 0 < n ∧ urldecodeTurn bytes (i, out) = .ok (.inl (i + n, out ++ [b])) ∧
      urldecodeBytes (bytes.drop i) = b :: urldecodeBytes (bytes.drop (i + n)) := by
  have hdrop := List.drop_eq_getElem_cons hi
  unfold urldecodeTurn
  dsimp only
  rw [if_pos hi, Fault.index_eq_ok (List.getElem?_eq_getElem hi), Fault.ok_bind, hdrop]
  generalize bytes[i] = b
  by_cases hplus : b = 0x2B
  · rw [if_pos hplus, hplus, urldecodeBytes_plus]
    exact ⟨1, 0x20, Nat.one_pos, rfl, rfl⟩
  rw [if_neg hplus]
  by_cases hpercent : b = 0x25 ∧ i + 2 < bytes.length
  · obtain ⟨rfl, hlen⟩ := hpercent
    have hrest : bytes.drop (i + 1) = bytes[i + 1] :: bytes[i + 2] :: bytes.drop (i + 3) := by
      rw [List.drop_eq_getElem_cons (show i + 1 < bytes.length by omega), List.drop_eq_getElem_cons hlen]
    rw [if_pos ⟨rfl, hlen⟩, Fault.index_eq_ok (List.getElem?_eq_getElem (show i + 1 < bytes.length by omega)),
      Fault.index_eq_ok (List.getElem?_eq_getElem hlen), Fault.ok_bind, Fault.ok_bind]
    -- an escape takes three bytes, a `%` without digits only itself
    cases hhex : startsHex (bytes.drop (i + 1)) with
    | true =>
      rw [hrest] at hhex ⊢
      obtain ⟨hh, hl⟩ := Bool.and_eq_true_iff.mp hhex
      obtain ⟨h, hh⟩ := Option.isSome_iff_exists.mp hh
      obtain ⟨l, hl⟩ := Option.isSome_iff_exists.mp hl
      rw [escapedByte_eq hh hl, urldecodeBytes_hex hh hl]
      exact ⟨3, h * 16 + l, by omega, rfl, rfl⟩
    | false =>
      rw [urldecodeBytes_cons hplus fun _ => hhex]
      rw [hrest] at hhex
      rw [escapedByte_none hhex]
      exact ⟨1, 0x25, Nat.one_pos, rfl, rfl⟩
  · -- no room for two digits
    rw [if_neg hpercent, urldecodeBytes_cons hplus]
    · exact ⟨1, b, Nat.one_pos, rfl, rfl⟩
    · intro hb
      have hshort : (bytes.drop (i + 1)).length < 2 := by
        have hlen : ¬ i + 2 < bytes.length := fun hlen => hpercent ⟨hb, hlen⟩
        rw [List.length_drop]
        omega
      generalize bytes.drop (i + 1) = more at hshort
      cases more with
      | nil => rfl
      | cons hi more =>
        obtain rfl := List.length_eq_zero_iff.mp (Nat.lt_one_iff.mp (Nat.lt_of_succ_lt_succ hshort))
        rfl

/-- What the loop has read, and what it will. -/
def decodedFrom (bytes : Bytes) (state : Nat × Bytes) : Bytes :=
  state.2 ++ urldecodeBytes (bytes.drop state.1)

/-- **The loop.**  It ends, and nothing in it faults. -/
theorem urldecodeMachine_eq (s : String) : urldecodeMachine s = .ok (urldecode s) := by
  have hturns : turns (urldecodeTurn (asBytes s)) ((asBytes s).length + 1) (0, []) =
      .ok (decodedFrom (asBytes s) (0, [])) := by
    refine Fault.turns_eq_ok (fun _ => True) (fun (i, _) => (asBytes s).length - i) ?_ trivial
      (Nat.lt_succ_self _)
    rintro ⟨i, out⟩ -
    unfold decodedFrom
    by_cases hi : i < (asBytes s).length
    · obtain ⟨n, b, hn, hturn, hread⟩ := urldecodeTurn_spec out hi
      refine Or.inr ⟨_, hturn, trivial, ?_, ?_⟩
      · dsimp only
        omega
      · rw [hread, List.append_assoc, List.singleton_append]
    · refine Or.inl ?_
      rw [List.drop_eq_nil_of_le (by omega), urldecodeBytes, List.append_nil]
      exact if_neg hi
  unfold urldecodeMachine
  dsimp only
  rw [hturns]
  rfl

/-! ## Malformed sequences -/

theorem startsHex_append_percent {x : Bytes} (hx : startsHex x = false) (y : Bytes) :
    startsHex (x ++ 0x25 :: y) = false := by
  cases x with
  | nil =>
    cases y with
    | nil => rfl
    | cons lo y => rfl
  | cons hi x =>
    cases x with
    | nil => exact Bool.and_false _
    | cons lo more => exact hx

/-- A `%` that begins no escape stays, and parts what is before it from what is after it. -/
theorem urldecodeBytes_percent {y : Bytes} (hy : startsHex y = false) (x : Bytes) :
    urldecodeBytes (x ++ 0x25 :: y) = urldecodeBytes x ++ 0x25 :: urldecodeBytes y := by
  induction hlen : x.length using Nat.strong_induction_on generalizing x with
  | _ n ih =>
    cases x with
    | nil =>
      rw [urldecodeBytes.eq_1, List.nil_append, List.nil_append]
      exact urldecodeBytes_cons (by decide) fun _ => hy
    | cons b rest =>
      rw [List.length_cons] at hlen
      have hrest := ih rest.length (by omega) rest rfl
      by_cases hplus : b = 0x2B
      · rw [hplus, List.cons_append, urldecodeBytes_plus, urldecodeBytes_plus, hrest, List.cons_append]
      by_cases hescape : b = 0x25 ∧ startsHex rest = true
      · obtain ⟨rfl, hhex⟩ := hescape
        obtain ⟨hi, lo, more, h, l, rfl, hh, hl⟩ := exists_of_startsHex hhex
        rw [List.length_cons, List.length_cons] at hlen
        show urldecodeBytes (0x25 :: hi :: lo :: (more ++ 0x25 :: y)) = _
        rw [urldecodeBytes_hex hh hl, urldecodeBytes_hex hh hl, ih more.length (by omega) more rfl,
          List.cons_append]
      · have hnot : b = 0x25 → startsHex rest = false := by
          intro hb
          exact Bool.eq_false_iff.mpr fun hhex => hescape ⟨hb, hhex⟩
        rw [List.cons_append, urldecodeBytes_cons hplus fun hb => startsHex_append_percent (hnot hb) y,
          urldecodeBytes_cons hplus hnot, hrest, List.cons_append]

/-- **Malformed sequences.** -/
theorem urldecode_percent {y : String} (hy : startsHex (asBytes y) = false) (x : String) :
    urldecode (x ++ "%" ++ y) = urldecode x ++ "%" ++ urldecode y := by
  unfold urldecode
  have hpercent : asBytes (String.singleton '%') = [0x25] := rfl
  rw [asBytes_append, asBytes_append, show asBytes "%" = [0x25] from rfl, List.append_assoc,
    List.singleton_append, urldecodeBytes_percent hy]
  have hsplit := fromUtf8Lossy_append_ascii (c := '%') (by decide) (urldecodeBytes (asBytes x))
    (urldecodeBytes (asBytes y))
  rw [hpercent, List.append_assoc, List.singleton_append] at hsplit
  exact hsplit

/-! ## There and back -/

theorem urldecode_uriEncode (s : String) : urldecode (uriEncode s) = s :=
  urldecode_of_bytes (OpenidConnect.urldecodeBytes_formEncode s)

/-- **There and back.**  What `uri_encode` wrote is read again; every text is read without a fault; and
    wherever a `%` begins no escape, it is left as it is. -/
theorem percent_codec (s : String) :
    urldecode (uriEncode s) = s ∧ urldecodeMachine s = .ok (urldecode s) ∧
    ∀ x y, s = x ++ "%" ++ y → startsHex (asBytes y) = false →
      urldecode s = urldecode x ++ "%" ++ urldecode y := by
  refine ⟨urldecode_uriEncode s, urldecodeMachine_eq s, ?_⟩
  rintro x y rfl hy
  exact urldecode_percent hy x

example : urldecode "100%" = "100%" := by decide +kernel

end Vars

end Featherbit
