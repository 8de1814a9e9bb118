/-
  ROUTING BY HOST NAME (`stream/sni.rs`, and the certificates of `server/tls.rs`).

  A pattern is a host name, or `*.` and a base: then one label, which is not empty and has no dot, may
  stand before the base.  Both are compared up to ASCII case (`SniMatches`, `sni_matches_iff`).

  Backend pools and certificates are looked up the same way: the first pattern of the list that matches
  decides, and where none does there is a default (`FirstMatch`).
-/
import Featherbit.Stream.Sni

namespace Featherbit

/-- A pattern matches a host. -/
def SniMatches (pattern host : String) : Prop :=
  eqIgnoreAsciiCase pattern host = true ∨
    ∃ base label, pattern = "*." ++ base ∧ label ≠ "" ∧ '.' ∉ label.toList ∧
      eqIgnoreAsciiCase host (label ++ "." ++ base) = true

/-! ## Case -/

theorem dot_mem_lowercase {s : String} : '.' ∈ (toAsciiLowercase s).toList ↔ '.' ∈ s.toList := by
  unfold toAsciiLowercase
  rw [String.toList_ofList, List.mem_map]
  constructor
  · rintro ⟨c, hc, hlower⟩
    rwa [← (toLower_eq_iff (by decide)).mp hlower]
  · intro h
    exact ⟨'.', h, by decide⟩

/-! ## The pattern -/

theorem parse_wildcard (base : String) :
    SniPattern.parse ("*." ++ base) = .wildcard (toAsciiLowercase base) := by
  have hlower : toAsciiLowercase ("*." ++ base) = "*." ++ toAsciiLowercase base := by
    rw [toAsciiLowercase_append]
    rfl
  unfold SniPattern.parse
  dsimp only
  rw [hlower, stripPrefix_append]

/-- A pattern without `*.` in front. -/
theorem parse_exact {pattern : String} (h : ∀ base, pattern ≠ "*." ++ base) :
    SniPattern.parse pattern = .exact (toAsciiLowercase pattern) := by
  unfold SniPattern.parse
  dsimp only
  cases hstrip : stripPrefix "*." (toAsciiLowercase pattern) with
  | none => rfl
  | some rest =>
    obtain ⟨star, base, rfl, hstar, -⟩ := lowercase_eq_append (eq_of_stripPrefix hstrip)
    have hnoletter : ∀ c ∈ "*.".toList, c.toNat < 65 := by
      intro c hc
      rcases List.mem_cons.mp hc with rfl | hc
      · decide
      · rw [List.mem_singleton.mp hc]
        decide
    rw [lowercase_eq_iff hnoletter] at hstar
    exact absurd (by rw [hstar]) (h base)

/-- A wildcard lets one label stand before its base. -/
theorem wildcard_matches_iff (base host : String) :
    (SniPattern.wildcard (toAsciiLowercase base)).matches host = true ↔
      ∃ label, label ≠ "" ∧ '.' ∉ label.toList ∧
        eqIgnoreAsciiCase host (label ++ "." ++ base) = true := by
  unfold SniPattern.matches
  dsimp only
  constructor
  · intro h
    cases hstrip : stripSuffix (toAsciiLowercase base) (toAsciiLowercase host) with
    | none =>
      rw [hstrip] at h
      cases h
    | some pre =>
      rw [hstrip] at h
      simp only [Bool.and_eq_true, decide_eq_true_eq, Bool.not_eq_true', List.contains_eq_mem,
        decide_eq_false_iff_not] at h
      obtain ⟨⟨hlast, hlength⟩, hdot⟩ := h
      have hpre : pre = String.ofList pre.toList.dropLast ++ "." := by
        rw [← String.toList_inj, String.toList_append, String.toList_ofList]
        exact (List.dropLast_append_getLast? '.' hlast).symm
      have hhost := eq_of_stripSuffix hstrip
      obtain ⟨front, _, rfl, hfront, -⟩ := lowercase_eq_append hhost
      rw [hpre] at hfront
      obtain ⟨label, _, rfl, hlabel, -⟩ := lowercase_eq_append hfront
      refine ⟨label, ?_, ?_, ?_⟩
      · rintro rfl
        have hnil := congrArg (fun s => s.toList.length) hlabel
        rw [String.toList_ofList, List.length_dropLast] at hnil
        have hzero : (toAsciiLowercase "").toList.length = 0 := rfl
        omega
      · rw [← dot_mem_lowercase, hlabel, String.toList_ofList]
        exact hdot
      · rw [eqIgnoreAsciiCase_iff, hhost, toAsciiLowercase_append, toAsciiLowercase_append, hlabel]
        exact congrArg (· ++ toAsciiLowercase base) hpre
  · rintro ⟨label, hne, hdot, hhost⟩
    have hlower : toAsciiLowercase host = toAsciiLowercase label ++ "." ++ toAsciiLowercase base := by
      rw [eqIgnoreAsciiCase_iff, toAsciiLowercase_append, toAsciiLowercase_append] at hhost
      exact hhost
    have hchars : (toAsciiLowercase label ++ ".").toList = (toAsciiLowercase label).toList ++ ['.'] :=
      String.toList_append ..
    have hpos : 0 < (toAsciiLowercase label).toList.length := by
      unfold toAsciiLowercase
      rw [String.toList_ofList, List.length_map]
      exact List.length_pos_of_ne_nil fun h => hne (String.toList_eq_nil_iff.mp h)
    rw [hlower, stripSuffix_append]
    simp only [Bool.and_eq_true, decide_eq_true_eq, Bool.not_eq_true', List.contains_eq_mem,
      decide_eq_false_iff_not]
    rw [hchars, List.getLast?_concat, List.dropLast_concat, List.length_append, dot_mem_lowercase]
    exact ⟨⟨rfl, Nat.lt_add_of_pos_left hpos⟩, hdot⟩

/-- **The pattern.** -/
theorem sni_matches_iff (pattern host : String) :
    (SniPattern.parse pattern).matches host = true ↔ SniMatches pattern host := by
  by_cases hwild : ∃ base, pattern = "*." ++ base
  · obtain ⟨base, rfl⟩ := hwild
    rw [parse_wildcard, wildcard_matches_iff]
    constructor
    · rintro ⟨label, hlabel⟩
      exact Or.inr ⟨base, label, rfl, hlabel⟩
    · rintro (hsame | ⟨base', label, hbase, hlabel⟩)
      · -- the host is the pattern, so its first label is the star
        refine ⟨"*", by decide, by decide, ?_⟩
        rw [eqIgnoreAsciiCase_iff] at hsame ⊢
        exact hsame.symm
      · obtain rfl := (String.append_right_inj "*.").mp hbase
        exact ⟨label, hlabel⟩
  · have hexact : ∀ base, pattern ≠ "*." ++ base := fun base h => hwild ⟨base, h⟩
    rw [parse_exact hexact]
    show decide (toAsciiLowercase pattern = toAsciiLowercase host) = true ↔ _
    constructor
    · exact fun hsame => Or.inl hsame
    · rintro (hsame | ⟨base, label, hbase, -⟩)
      · exact hsame
      · exact absurd hbase (hexact base)

/-! ## The list -/

/-- What a list of patterns gives for a host: the entry of the first pattern that matches, or the
    default. -/
inductive FirstMatch {β : Type} (routes : List (String × β)) (default : β) (host : String) : β → Prop
  | route (before : List (String × β)) (pattern : String) (entry : β) (after : List (String × β)) :
      routes = before ++ (pattern, entry) :: after → (∀ route ∈ before, ¬ SniMatches route.1 host) →
      SniMatches pattern host → FirstMatch routes default host entry
  | default : (∀ route ∈ routes, ¬ SniMatches route.1 host) → FirstMatch routes default host default

/-- Certificates by host name (`SniCertResolver`), and a default one. -/
structure SniCertResolver (κ : Type) where
  certs : List (SniPattern × κ)
  default : κ

/-- `SniCertResolver::resolve`, for the server name of the `ClientHello`. -/
def SniCertResolver.resolve {κ : Type} (resolver : SniCertResolver κ) (serverName : Option String) :
    Option κ :=
  match serverName with
  | some name =>
    match resolver.certs.find? fun cert => cert.1.matches name with
    | some cert => some cert.2
    | none => some resolver.default
  | none => some resolver.default

/-- The scan finds the first route whose pattern matches. -/
theorem firstMatch_find {β : Type} (routes : List (String × β)) (default : β) (host : String) :
    FirstMatch routes default host
      ((((routes.map fun route => (SniPattern.parse route.1, route.2)).find?
        fun route => route.1.matches host).map Prod.snd).getD default) := by
  have hmatch : ∀ route : String × β, (SniPattern.parse route.1).matches host = true ↔
      SniMatches route.1 host := fun route => sni_matches_iff route.1 host
  have htest : ((fun route : SniPattern × β => route.1.matches host) ∘
      fun route : String × β => (SniPattern.parse route.1, route.2)) =
        fun route => (SniPattern.parse route.1).matches host := rfl
  rw [List.find?_map, htest]
  cases hfind : routes.find? fun route => (SniPattern.parse route.1).matches host with
  | none =>
    rw [List.find?_eq_none] at hfind
    exact .default fun route hroute hmatches => hfind route hroute ((hmatch route).mpr hmatches)
  | some route =>
    obtain ⟨htrue, before, after, hsplit, hbefore⟩ := List.find?_eq_some_iff_append.mp hfind
    refine .route before route.1 route.2 after hsplit (fun earlier hearlier hmatches => ?_)
      ((hmatch route).mp htrue)
    have hfalse := hbefore earlier hearlier
    rw [(hmatch earlier).mpr hmatches] at hfalse
    cases hfalse

/-- **Routing by host name.**  A pattern matches a host up to ASCII case; the stream router and the
    certificate resolver take the first entry of their lists whose pattern matches, and the default
    where none does or there is no name. -/
theorem sni_routing {β : Type} (pattern host : String) (routes : List (String × β)) (default : β) :
    ((SniPattern.parse pattern).matches host = true ↔ SniMatches pattern host) ∧
    FirstMatch routes default host ((SniRouter.new routes default).select (some host)) ∧
    (SniRouter.new routes default).select none = default ∧
    (∃ cert, SniCertResolver.resolve ⟨routes.map fun route => (SniPattern.parse route.1, route.2),
        default⟩ (some host) = some cert ∧ FirstMatch routes default host cert) ∧
    SniCertResolver.resolve ⟨routes.map fun route => (SniPattern.parse route.1, route.2), default⟩
      none = some default := by
  refine ⟨sni_matches_iff pattern host, firstMatch_find routes default host, rfl, ?_, rfl⟩
  refine ⟨_, ?_, firstMatch_find routes default host⟩
  unfold SniCertResolver.resolve
  dsimp only
  cases (routes.map fun route => (SniPattern.parse route.1, route.2)).find?
    fun cert => cert.1.matches host with
  | none => rfl
  | some cert => rfl

end Featherbit
