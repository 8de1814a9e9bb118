/-
  AN IPv6 TEXT WITHOUT WHAT FOLLOWS ITS LAST COLON.

  It is never a text of the same address (`cut_ne`).  A group is missing where all eight were printed; a
  single colon is left where nothing, or one group, followed the `::`; and where more groups followed it,
  they move by one, which changes the address because the first of them is not zero
  (`longestZeros_after`).
-/
import Featherbit.Rust.IpAddr

namespace Featherbit

namespace IpText

/-! ## After the longest run of zeros -/

/-- The longest run so far is followed by another group, or is the run that goes on. -/
def Stops (scanned : List UInt16) (current longest : Span) : Prop :=
  longest.len = 0 ∨ ∃ before after, scanned = before ++ List.replicate longest.len 0 ++ after ∧
    before.length = longest.start ∧ after.head? ≠ some 0 ∧ (after = [] → longest = current)

theorem longestZeros_stops :
    ∀ (segments scanned : List UInt16) (current longest : Span),
      EndsHere scanned current → Stops scanned current longest →
      ∃ current', Stops (scanned ++ segments) current'
        (longestZeros scanned.length current longest segments) := by
  intro segments
  induction segments with
  | nil =>
    intro scanned current longest _ hlongest
    rw [List.append_nil]
    exact ⟨current, hlongest⟩
  | cons segment segments ih =>
    intro scanned current longest hcurrent hlongest
    have hlength : scanned.length + 1 = (scanned ++ [segment]).length := by simp
    have hsplit : scanned ++ segment :: segments = (scanned ++ [segment]) ++ segments := by simp
    rw [longestZeros, hsplit]
    by_cases hzero : segment = 0
    · simp only [if_pos hzero]
      rw [hlength]
      obtain ⟨before, hbefore, hstart⟩ := hcurrent.snoc_zero hzero
      apply ih
      · exact Or.inr ⟨before, hbefore, hstart⟩
      · by_cases hgrow : longest.len < current.len + 1
        · rw [if_pos hgrow]
          exact Or.inr ⟨before, [], by simpa using hbefore, hstart, by simp, fun _ => rfl⟩
        · rw [if_neg hgrow]
          rcases hlongest with hnone | ⟨before', after, hscanned, hstart', hhead, hlast⟩
          · exact Or.inl hnone
          · have hne : after ≠ [] := by
              intro hnil
              rw [hlast hnil] at hgrow
              exact hgrow (Nat.lt_succ_self _)
            refine Or.inr ⟨before', after ++ [segment], by simp [hscanned], hstart', ?_, by simp⟩
            rwa [List.head?_append_of_ne_nil _ hne]
    · simp only [if_neg hzero]
      rw [hlength]
      apply ih
      · exact Or.inl rfl
      · rcases hlongest with hnone | ⟨before, after, hscanned, hstart, hhead, -⟩
        · exact Or.inl hnone
        · refine Or.inr ⟨before, after ++ [segment], by simp [hscanned], hstart, ?_, by simp⟩
          cases after with
          | nil => exact fun h => hzero (Option.some.inj h)
          | cons group after => exact hhead

/-- The group after the longest run of zeros, where there is one, is not zero. -/
theorem longestZeros_after {segments : List UInt16} (hlen : 0 < (longestZeros 0 ⟨0, 0⟩ ⟨0, 0⟩ segments).len) :
    ∃ before after, segments = before ++
        List.replicate (longestZeros 0 ⟨0, 0⟩ ⟨0, 0⟩ segments).len 0 ++ after ∧
      before.length = (longestZeros 0 ⟨0, 0⟩ ⟨0, 0⟩ segments).start ∧ after.head? ≠ some 0 := by
  obtain ⟨current, hstops⟩ := longestZeros_stops segments [] ⟨0, 0⟩ ⟨0, 0⟩ (Or.inl rfl) (Or.inl rfl)
  rcases hstops with hnone | ⟨before, after, hsegments, hstart, hhead, -⟩
  · have hzero : (longestZeros 0 ⟨0, 0⟩ ⟨0, 0⟩ segments).len = 0 := hnone
    omega
  · exact ⟨before, after, hsegments, hstart, hhead⟩

/-! ## The cut -/

theorem colon_not_mem_toDigits (n : Nat) : ':' ∉ Nat.toDigits 16 n := by
  intro hmem
  have hdigit := toDigit_of_mem (by decide) (by decide) ':' hmem
  exact absurd hdigit (by decide)

theorem colon_not_mem_displayIpv4 (v4 : Ipv4Addr) : ':' ∉ displayIpv4 v4 := by
  have hdigits : ∀ n, ':' ∉ Nat.toDigits 10 n := by
    intro n hmem
    have hdigit := toDigit_of_mem (by decide) (by decide) ':' hmem
    exact absurd hdigit (by decide)
  unfold displayIpv4
  simp [hdigits]

/-- Groups end in a last one. -/
theorem displayGroups_concat (groups : List UInt16) (last : UInt16) :
    displayGroups (groups ++ [last]) =
      if groups = [] then Nat.toDigits 16 last.toNat
      else displayGroups groups ++ ':' :: Nat.toDigits 16 last.toNat := by
  induction groups with
  | nil => rfl
  | cons group groups ih =>
    rw [if_neg (List.cons_ne_nil _ _)]
    cases groups with
    | nil => rfl
    | cons next groups =>
      rw [if_neg (List.cons_ne_nil _ _)] at ih
      show Nat.toDigits 16 group.toNat ++ ':' :: displayGroups (next :: groups ++ [last]) = _
      rw [ih]
      show _ = (Nat.toDigits 16 group.toNat ++ ':' :: displayGroups (next :: groups)) ++ _
      rw [List.append_assoc, List.cons_append]

theorem groupsEnd_colon : GroupsEnd [':'] := by
  have hcolon : ∀ c, [':'].head? = some c → toDigit 16 c = none := by
    intro c hc
    cases hc
    exact toDigit_colon 16
  refine ⟨hcolon, fun first => ?_⟩
  cases first with
  | true => exact readGroup_eq_none hcolon
  | false => rfl

/-- Fewer than eight groups, and no `::` after them. -/
theorem readIpv6_short {groups : List UInt16} (hlength : groups.length < 8) {rest : List Char}
    (hrest : rest = [] ∨ rest = [':']) : readIpv6 (displayGroups groups ++ rest) = none := by
  have hdot : '.' ∉ rest := by
    rcases hrest with rfl | rfl
    · exact List.not_mem_nil
    · decide
  have hend : GroupsEnd rest := by
    rcases hrest with rfl | rfl
    · exact groupsEnd_nil
    · exact groupsEnd_colon
  have hhead : readHead (displayGroups groups ++ rest) = (groups, false, rest) := by
    rw [displayGroups_eq]
    exact readGroups_groupsText hdot hend.1 groups 8 true hlength.le (Or.inr hend)
  have hnone : (readGivenChar ':' rest).bind (readGivenChar ':') = none := by
    rcases hrest with rfl | rfl
    · rfl
    · rfl
  unfold readIpv6
  simp [hhead, hnone, Nat.ne_of_lt hlength]

/-- What is cut off has no colon, and what is left is no text of the address. -/
def CutOff (v6 : Ipv6Addr) (text : List Char) : Prop :=
  ∃ front last, text = front ++ ':' :: last ∧ ':' ∉ last ∧ readIpv6 front ≠ some (v6, [])

theorem cutOff_mapped {v6 : Ipv6Addr} {v4 : Ipv4Addr} (h : toIpv4Mapped v6 = some v4) :
    CutOff v6 ("::ffff:".toList ++ displayIpv4 v4) := by
  refine ⟨"::ffff".toList, displayIpv4 v4, rfl, colon_not_mem_displayIpv4 v4, fun heq => ?_⟩
  have hread : readIpv6 "::ffff".toList = some (⟨[0, 0, 0, 0, 0, 0, 0, 0xffff], rfl⟩, []) := by decide
  rw [hread] at heq
  have hsegments : [0, 0, 0, 0, 0, 0, 0, 0xffff] = v6.segments :=
    congrArg (fun r => r.1.segments) (Option.some.inj heq)
  unfold toIpv4Mapped at h
  rw [← hsegments] at h
  cases h

theorem cutOff_groups (v6 : Ipv6Addr) : CutOff v6 (displayGroups v6.segments) := by
  obtain ⟨groups, last, hsegments⟩ : ∃ groups last, v6.segments = groups ++ [last] := by
    have hne : v6.segments ≠ [] := List.ne_nil_of_length_pos (by rw [v6.length_eq]; decide)
    exact ⟨_, _, (List.dropLast_append_getLast hne).symm⟩
  have hseven : groups.length = 7 := by
    have height := v6.length_eq
    rw [hsegments, List.length_append, List.length_singleton] at height
    omega
  have hne : groups ≠ [] := List.ne_nil_of_length_pos (by omega)
  refine ⟨displayGroups groups, Nat.toDigits 16 last.toNat, ?_, colon_not_mem_toDigits _, ?_⟩
  · rw [hsegments, displayGroups_concat, if_neg hne]
  · have hshort := @readIpv6_short groups (by omega) _ (Or.inl rfl)
    rw [List.append_nil] at hshort
    rw [hshort]
    exact fun h => by cases h

theorem cutOff_around {v6 : Ipv6Addr} {before after : List UInt16} {len : Nat}
    (hsegments : v6.segments = before ++ List.replicate len 0 ++ after) (hlen : 1 < len)
    (hafter : after.head? ≠ some 0) :
    CutOff v6 (displayGroups before ++ ':' :: ':' :: displayGroups after) := by
  have hsum : before.length + len + after.length = 8 := by
    have height := v6.length_eq
    rw [hsegments] at height
    simpa [Nat.add_assoc] using height
  have hcolon : readIpv6 (displayGroups before ++ [':']) ≠ some (v6, []) := by
    rw [readIpv6_short (by omega) (Or.inr rfl)]
    exact fun h => by cases h
  rcases List.eq_nil_or_concat' after with rfl | ⟨groups, last, rfl⟩
  · refine ⟨displayGroups before ++ [':'], [], ?_, List.not_mem_nil, hcolon⟩
    show _ ++ [':', ':'] = _
    rw [List.append_assoc]
    rfl
  · rw [displayGroups_concat]
    by_cases hone : groups = []
    · refine ⟨displayGroups before ++ [':'], Nat.toDigits 16 last.toNat, ?_,
        colon_not_mem_toDigits _, hcolon⟩
      rw [if_pos hone, List.append_assoc]
      rfl
    · refine ⟨displayGroups before ++ ':' :: ':' :: displayGroups groups, Nat.toDigits 16 last.toNat,
        ?_, colon_not_mem_toDigits _, ?_⟩
      · rw [if_neg hone, List.append_assoc]
        rfl
      · -- the groups have moved by one
        have hmoved : (before ++ List.replicate (len + 1) 0 ++ groups).length = 8 := by
          rw [List.length_append, List.length_singleton] at hsum
          simp
          omega
        rw [readIpv6_around hmoved rfl (by omega)]
        intro heq
        have hsame : before ++ List.replicate (len + 1) 0 ++ groups = v6.segments :=
          congrArg (fun r => r.1.segments) (Option.some.inj heq)
        rw [hsegments, List.replicate_succ', List.append_assoc, List.append_assoc, List.append_assoc,
          List.append_cancel_left_eq, List.append_cancel_left_eq] at hsame
        apply hafter
        rw [← hsame]
        rfl

/-- A printed IPv6 address, cut at its last colon. -/
theorem cutOff_display (v6 : Ipv6Addr) : CutOff v6 (displayIpv6 v6) := by
  unfold displayIpv6
  cases hmapped : toIpv4Mapped v6 with
  | some v4 => exact cutOff_mapped hmapped
  | none =>
    dsimp only
    split
    · rename_i hlong
      obtain ⟨before, after, hsegments, hstart, hhead⟩ := @longestZeros_after v6.segments
        (Nat.lt_trans Nat.zero_lt_one hlong)
      rw [take_before hsegments hstart, drop_after hsegments hstart]
      exact cutOff_around hsegments hlong hhead
    · exact cutOff_groups v6

end IpText

/-- **The cut.**  What stands before the last colon of an IPv6 text is no text of the address. -/
theorem IpAddr.cut_ne (v6 : Ipv6Addr) : ∃ front last,
    rsplitOnceChar ':' (IpAddr.v6 v6).display = some (front, last) ∧
      IpAddr.parse front ≠ some (.v6 v6) ∧ front.toList.head? ≠ some '[' := by
  obtain ⟨front, last, htext, hlast, hread⟩ := IpText.cutOff_display v6
  refine ⟨String.ofList front, String.ofList last, ?_, fun hparse => ?_, fun hbracket => ?_⟩
  · unfold rsplitOnceChar IpAddr.display
    rw [String.toList_ofList, htext, Split.rsplitOnce_append hlast]
    rfl
  · have hwhole := IpText.eq_of_whole hparse
    rw [String.toList_ofList] at hwhole
    split at hwhole
    · cases hwhole
    · obtain ⟨⟨v6', rest⟩, hv6, heq⟩ := Option.map_eq_some_iff.mp hwhole
      cases heq
      exact hread hv6
  · rw [String.toList_ofList] at hbracket
    obtain ⟨cs, rfl⟩ := List.head?_eq_some_iff.mp hbracket
    have hdisplay : IpAddr.parse (String.ofList (IpText.displayIpv6 v6)) = some (.v6 v6) :=
      IpAddr.parse_display (.v6 v6)
    rw [htext, List.cons_append, IpAddr.parse_bracket] at hdisplay
    cases hdisplay

end Featherbit
