/-
  `referer-restriction` (`plugins/native/referer_restriction.rs`): allow and deny lists over the host
  of the `Referer` header.

  1. **The URL a referer is** — its components, each of its own letters (`HttpUrl`), and the text
     they are written as.

  2. **What the plugin compares** — the text behind the scheme up to the first `:`, `/`, `?` or `#`.
     A userinfo and the brackets of an IPv6 address are not known to it.

  3. **Where that is the host** (`refererHost_iff`), and the decision that follows from it
     (`execute_iff`): on the patterns of the configuration, whatever the host.
-/
import Featherbit.Lib.TextSearch
import Featherbit.Lib.UriRef
import Featherbit.Lib.TryFold
import Featherbit.Plugins
import Featherbit.Rust.IpCut

namespace Featherbit

/-! ## Referring URLs -/

def isUnreservedChar (c : Char) : Bool := c.isAlphanum || c = '-' || c = '.' || c = '_' || c = '~'

def isSubDelim (c : Char) : Bool :=
  c = '!' || c = '$' || c = '&' || c = '\'' || c = '(' || c = ')' || c = '*' || c = '+' ||
    c = ',' || c = ';' || c = '='

/-- A letter of a registered name; the percent sign begins an escaped byte. -/
def isRegNameChar (c : Char) : Bool := isUnreservedChar c || isSubDelim c || c = '%'

inductive UrlHost where
  | domain (name : List Char) (ne : name ≠ []) (letters : ∀ c ∈ name, isRegNameChar c = true)
  | ipv4 (addr : Ipv4Addr)
  | ipv6 (text : List Char) (addr : Ipv6Addr)
    (reads : IpText.whole (IpText.readIpv6 text) = some addr)

/-- The host component as it is written. -/
def UrlHost.text : UrlHost → List Char
  | .domain name _ _ => name
  | .ipv4 addr => IpText.displayIpv4 addr
  | .ipv6 text _ _ => '[' :: text ++ [']']

/-- An absolute URL with the scheme `http` or `https`. -/
structure HttpUrl where
  scheme : List Char
  userinfo : Option (List Char)
  host : UrlHost
  port : Option (List Char)
  path : List Char
  query : Option (List Char)
  fragment : Option (List Char)
  scheme_http : scheme.map Char.toLower = "http".toList ∨ scheme.map Char.toLower = "https".toList
  userinfo_letters : ∀ info ∈ userinfo, ∀ c ∈ info, isRegNameChar c = true ∨ c = ':'
  port_digits : ∀ digits ∈ port, ∀ c ∈ digits, c.isDigit = true
  path_rooted : path = [] ∨ path.head? = some '/'
  path_letters : ∀ c ∈ path, UriRef.endsPath c = false
  query_letters : ∀ text ∈ query, '#' ∉ text

namespace HttpUrl

/-- A component that may be missing, behind the letter that announces it. -/
def announced (c : Char) : Option (List Char) → List Char
  | none => []
  | some text => c :: text

variable (url : HttpUrl)

/-- What stands behind the host. -/
def behindHost : List Char :=
  announced ':' url.port ++ url.path ++ announced '?' url.query ++ announced '#' url.fragment

/-- What stands behind the scheme. -/
def hier : List Char :=
  match url.userinfo with
  | none => url.host.text ++ url.behindHost
  | some info => info ++ '@' :: (url.host.text ++ url.behindHost)

def text : String := String.ofList (url.scheme ++ "://".toList ++ url.hier)

/-- The host component in lower case. -/
def lowerHost : String := toAsciiLowercase (String.ofList url.host.text)

/-- What comes first behind the scheme is the host: there is no userinfo and no colon in the host,
    or the userinfo has a colon and the host itself in front of it. -/
def HostFirst : Prop :=
  match url.userinfo with
  | none => ':' ∉ url.host.text
  | some info => ':' ∈ info ∧
      (info.takeWhile (· ≠ ':')).map Char.toLower = url.host.text.map Char.toLower

end HttpUrl

/-! ## The plugin -/

/-- Pre-split host patterns: exact hosts and `*`-prefix wildcard suffixes. -/
structure HostMatcher where
  exact : List String
  suffixes : List String
deriving DecidableEq

namespace HostMatcher

def isEmpty (matcher : HostMatcher) : Bool := matcher.exact.isEmpty && matcher.suffixes.isEmpty

def «matches» (matcher : HostMatcher) (host : String) : Bool :=
  matcher.exact.any (· = host) || matcher.suffixes.any fun s => (stripSuffix s host).isSome

/-- One entry of a list. -/
def addPattern (key : String) (matcher : HostMatcher) (item : Json) : Except String HostMatcher :=
  match item.asStr with
  | none => .error (key ++ " entries must be strings")
  | some s =>
    if s = "" ∨ s = "*" then
      .error (key ++ " entries must be hosts like example.com or *.example.com")
    else
      match stripPrefix "*" s with
      | some suffix =>
        .ok { matcher with suffixes := matcher.suffixes ++ [toAsciiLowercase suffix] }
      | none => .ok { matcher with exact := matcher.exact ++ [toAsciiLowercase s] }

end HostMatcher

/-- `parse_host_list`. -/
def parseHostList (config : HashMap Json) (key : String) : Except String HostMatcher :=
  match config[key]? with
  | none => .ok { exact := [], suffixes := [] }
  | some raw =>
    match raw.asArray with
    | none => .error (key ++ " must be an array of host patterns")
    | some arr => arr.foldlM (HostMatcher.addPattern key) { exact := [], suffixes := [] }

/-- Ends what is taken for a host. -/
def endsHost (c : Char) : Bool := c = ':' || UriRef.endsAuthority c

/-- `referer_host`. -/
def refererHost (referer : String) : Option String :=
  match TextSearch.cut "://".toList referer.toList with
  | none => none
  | some (scheme, rest) =>
    if eqIgnoreAsciiCase (String.ofList scheme) "http" = false ∧
        eqIgnoreAsciiCase (String.ofList scheme) "https" = false then none
    else
      let host := rest.takeWhile fun c => !endsHost c
      if host = [] then none else some (toAsciiLowercase (String.ofList host))

structure RefererRestrictionPlugin where
  /-- host patterns that may pass; non-empty means whitelist mode -/
  whitelist : HostMatcher
  /-- host patterns that are rejected; non-empty means blacklist mode -/
  blacklist : HostMatcher
  /-- pass requests whose Referer is missing or malformed -/
  bypassMissing : Bool
  message : String

namespace RefererRestrictionPlugin

/-- `RefererRestrictionPlugin::from_config`. -/
def fromConfig (config : HashMap Json) : Except String RefererRestrictionPlugin := do
  let whitelist ← parseHostList config "whitelist"
  let blacklist ← parseHostList config "blacklist"
  if whitelist.isEmpty = false ∧ blacklist.isEmpty = false then
    .error "referer-restriction: whitelist and blacklist cannot both be set"
  else if whitelist.isEmpty = true ∧ blacklist.isEmpty = true then
    .error "referer-restriction: exactly one of whitelist or blacklist must be non-empty"
  else
    .ok {
      whitelist := whitelist
      blacklist := blacklist
      bypassMissing := (config["bypass_missing"]?.bind Json.asBool).getD false
      message := (config["message"]?.bind Json.asStr).getD "Your referer host is not allowed"
    }

section Execute

variable [JsonText] (plugin : RefererRestrictionPlugin)

/-- `reject`. -/
def reject (ctx : Context) : PluginResult :=
  .error {
    context := { ctx with response := {
      statusCode := 403
      headers := ctx.response.headers.insert "content-type" ["application/json"]
      body := asBytes (JsonText.toText (.object [("message", .string plugin.message)])) } }
    error := {
      nodeId := ""
      code := "REFERER_RESTRICTED"
      message := plugin.message
      metadata := ∅ } }

/-- Whether a request with this host is blocked. -/
def blocks : Option String → Bool
  | none => !plugin.bypassMissing
  | some host =>
    if plugin.whitelist.isEmpty = false then !plugin.whitelist.matches host
    else plugin.blacklist.matches host

/-- `execute`. -/
def execute (ctx : Context) : PluginResult :=
  let host := ((ctx.request.headers["referer"]?).bind List.head?).bind refererHost
  if plugin.blocks host then plugin.reject ctx else .ok { context := ctx, namedOutputs := ∅ }

end Execute

end RefererRestrictionPlugin

/-! ## The lists -/

/-- The patterns of a list. -/
def hostPatterns (config : HashMap Json) (key : String) : List String :=
  ((config[key]?.bind Json.asArray).getD []).filterMap Json.asStr

/-- The pattern names the host: it is the host itself, or a star and the host's ending. -/
def PatternNames (pattern host : String) : Prop :=
  (stripPrefix "*" pattern = none ∧ toAsciiLowercase pattern = host) ∨
    ∃ suffix front, pattern = "*" ++ suffix ∧ host = front ++ toAsciiLowercase suffix

/-- What the lists of the configuration say of a host. -/
def ListsAllow (config : HashMap Json) (host : String) : Prop :=
  if hostPatterns config "whitelist" ≠ [] then
    ∃ pattern ∈ hostPatterns config "whitelist", PatternNames pattern host
  else ¬ ∃ pattern ∈ hostPatterns config "blacklist", PatternNames pattern host

namespace HostMatcher

theorem matches_iff (matcher : HostMatcher) (host : String) : matcher.matches host = true ↔
    host ∈ matcher.exact ∨ ∃ suffix ∈ matcher.suffixes, ∃ front, host = front ++ suffix := by
  rw [«matches», Bool.or_eq_true, List.any_eq_true, List.any_eq_true]
  have hsuffix : ∀ s, (stripSuffix s host).isSome = true ↔ ∃ front, host = front ++ s := by
    intro s
    rw [Option.isSome_iff_exists]
    constructor
    · rintro ⟨front, h⟩
      exact ⟨front, eq_of_stripSuffix h⟩
    · rintro ⟨front, rfl⟩
      exact ⟨front, stripSuffix_append front s⟩
  simp only [hsuffix, decide_eq_true_eq, exists_eq_right]

/-- What one entry adds. -/
theorem addPattern_ok {key : String} {matcher matcher' : HostMatcher} {item : Json}
    (h : addPattern key matcher item = .ok matcher') :
    ∃ pattern, item.asStr = some pattern ∧ matcher'.isEmpty = false ∧
      ∀ host, matcher'.matches host = true ↔
        matcher.matches host = true ∨ PatternNames pattern host := by
  unfold addPattern at h
  split at h
  · nomatch h
  · rename_i pattern hpattern
    refine ⟨pattern, hpattern, ?_⟩
    split at h
    · nomatch h
    · split at h
      · rename_i suffix hstar
        cases h
        obtain rfl := eq_of_stripPrefix hstar
        refine ⟨by simp [isEmpty], fun host => ?_⟩
        rw [matches_iff, matches_iff, PatternNames, stripPrefix_append]
        constructor
        · rintro (hexact | ⟨s, hs, front, rfl⟩)
          · exact Or.inl (Or.inl hexact)
          · rcases List.mem_append.mp hs with hs | hs
            · exact Or.inl (Or.inr ⟨s, hs, front, rfl⟩)
            · rw [List.mem_singleton.mp hs]
              exact Or.inr (Or.inr ⟨suffix, front, rfl, rfl⟩)
        · rintro ((hexact | ⟨s, hs, front, rfl⟩) | ⟨hnone, -⟩ | ⟨suffix', front, heq, rfl⟩)
          · exact Or.inl hexact
          · exact Or.inr ⟨s, List.mem_append_left _ hs, front, rfl⟩
          · nomatch hnone
          · rw [(String.append_right_inj "*").mp heq.symm]
            exact Or.inr ⟨_, List.mem_append_right _ List.mem_cons_self, front, rfl⟩
      · rename_i hstar
        cases h
        refine ⟨by simp [isEmpty], fun host => ?_⟩
        rw [matches_iff, matches_iff, PatternNames, List.mem_append, List.mem_singleton]
        constructor
        · rintro ((hexact | rfl) | hsuffix)
          · exact Or.inl (Or.inl hexact)
          · exact Or.inr (Or.inl ⟨hstar, rfl⟩)
          · exact Or.inl (Or.inr hsuffix)
        · rintro ((hexact | hsuffix) | ⟨-, rfl⟩ | ⟨suffix, front, rfl, -⟩)
          · exact Or.inl (Or.inl hexact)
          · exact Or.inr hsuffix
          · exact Or.inl (Or.inr rfl)
          · rw [stripPrefix_append] at hstar
            nomatch hstar

/-- What a whole list adds. -/
theorem foldlM_addPattern {key : String} {arr : List Json} {matcher matcher' : HostMatcher}
    (h : arr.foldlM (addPattern key) matcher = .ok matcher') :
    (∀ host, matcher'.matches host = true ↔ matcher.matches host = true ∨
      ∃ pattern ∈ arr.filterMap Json.asStr, PatternNames pattern host) ∧
    (matcher'.isEmpty = true ↔ matcher.isEmpty = true ∧ arr.filterMap Json.asStr = []) := by
  induction arr generalizing matcher with
  | nil =>
    cases h
    simp
  | cons item arr ih =>
    rw [List.foldlM_cons] at h
    obtain ⟨next, hnext, hrest⟩ := TryFold.bind_eq_ok.mp h
    obtain ⟨pattern, hpattern, hnonempty, hmatches⟩ := addPattern_ok hnext
    obtain ⟨hall, hempty⟩ := ih hrest
    rw [List.filterMap_cons_some hpattern]
    refine ⟨fun host => ?_, ?_⟩
    · rw [hall, hmatches, or_assoc, List.exists_mem_cons_iff]
    · rw [hempty, hnonempty]
      simp

end HostMatcher

/-- A list that is accepted matches by its patterns, and is empty only if it has none. -/
theorem parseHostList_ok {config : HashMap Json} {key : String} {matcher : HostMatcher}
    (h : parseHostList config key = .ok matcher) :
    (∀ host, matcher.matches host = true ↔
      ∃ pattern ∈ hostPatterns config key, PatternNames pattern host) ∧
    (matcher.isEmpty = true ↔ hostPatterns config key = []) := by
  unfold parseHostList at h
  unfold hostPatterns
  cases hraw : config[key]? with
  | none =>
    rw [hraw] at h
    cases h
    exact ⟨fun host => by simp [HostMatcher.matches_iff], by simp [HostMatcher.isEmpty]⟩
  | some raw =>
    simp only [hraw] at h
    cases harr : raw.asArray with
    | none =>
      rw [harr] at h
      nomatch h
    | some arr =>
      simp only [harr] at h
      obtain ⟨hall, hempty⟩ := HostMatcher.foldlM_addPattern h
      simp only [Option.bind_some, harr, Option.getD_some]
      refine ⟨fun host => ?_, ?_⟩
      · rw [hall]
        simp [HostMatcher.matches_iff]
      · rw [hempty]
        simp [HostMatcher.isEmpty]

/-! ## The host that is cut out -/

namespace IpText

theorem readGivenChar_eq_none {target : Char} {cs : List Char} (h : target ∉ cs) :
    readGivenChar target cs = none := by
  cases cs with
  | nil => rfl
  | cons c cs =>
    rw [readGivenChar, if_neg]
    rintro rfl
    exact h List.mem_cons_self

/-- Behind a group, nothing is read without a colon. -/
theorem readGroups_stop {cs : List Char} (h : ':' ∉ cs) (free : Nat) :
    readGroups free false cs = ([], false, cs) := by
  cases free with
  | zero => rfl
  | succ free =>
    have hsep : readSeparator false cs = none := readGivenChar_eq_none h
    rw [readGroups, hsep]
    cases free <;> rfl

/-- An address has a colon: without one there is a single group, or an embedded IPv4 address. -/
theorem colon_of_readIpv6 {cs : List Char} {v6 : Ipv6Addr} (h : whole (readIpv6 cs) = some v6) :
    ':' ∈ cs := by
  by_contra hcolon
  have hhead : (readHead cs).1.length ≠ 8 ∧
      ((readHead cs).2.1 = true ∨ ':' ∉ (readHead cs).2.2) := by
    rw [readHead, readGroups, if_pos (by decide)]
    cases hv4 : (readSeparator true cs).bind readIpv4 with
    | some r =>
      refine ⟨?_, Or.inl rfl⟩
      show 2 ≠ 8
      decide
    | none =>
      cases hgroup : (readSeparator true cs).bind readGroup with
      | none =>
        refine ⟨?_, Or.inr hcolon⟩
        show 0 ≠ 8
        decide
      | some r =>
        have hrest : ':' ∉ r.2 := by
          obtain ⟨number, hnumber, rfl⟩ := Option.map_eq_some_iff.mp hgroup
          exact fun hmem => hcolon ((readNumber_suffix hnumber).subset hmem)
        simp only [readGroups_stop hrest]
        refine ⟨?_, Or.inr hrest⟩
        show 1 ≠ 8
        decide
  have hread := eq_of_whole h
  unfold readIpv6 at hread
  dsimp only at hread
  rw [dif_neg hhead.1] at hread
  rcases hhead.2 with hv4 | hrest
  · rw [if_pos hv4] at hread
    cases hread
  · split at hread
    · cases hread
    · rw [readGivenChar_eq_none hrest] at hread
      cases hread

end IpText

theorem lowercase_ofList_eq_iff {l : List Char} {s : String} :
    toAsciiLowercase (String.ofList l) = toAsciiLowercase s ↔
      l.map Char.toLower = s.toList.map Char.toLower := by
  rw [toAsciiLowercase, toAsciiLowercase, ← String.toList_inj, String.toList_ofList,
    String.toList_ofList, String.toList_ofList]

namespace UrlHost

/-- A letter with a meaning of its own in an authority. -/
def isDelimiter (c : Char) : Bool := endsHost c || c = '@'

theorem not_delimiter_of_regName {c : Char} (h : isRegNameChar c = true) : isDelimiter c = false := by
  by_contra hc
  rw [Bool.not_eq_false, isDelimiter, endsHost, UriRef.endsAuthority] at hc
  simp only [Bool.or_eq_true, decide_eq_true_eq] at hc
  rcases hc with (rfl | (rfl | rfl) | rfl) | rfl <;> revert h <;> decide

theorem not_delimiter_of_address {c : Char} (h : IpText.AddressChar c) (hc : c ≠ ':') :
    isDelimiter c = false := by
  by_contra hd
  rw [Bool.not_eq_false, isDelimiter, endsHost, UriRef.endsAuthority] at hd
  simp only [Bool.or_eq_true, decide_eq_true_eq] at hd
  unfold IpText.AddressChar at h
  rcases hd with (rfl | (rfl | rfl) | rfl) | rfl
  · exact hc rfl
  all_goals revert h; decide

/-- A host is no IPv6 address, or has a colon. -/
theorem plain_or_colon (host : UrlHost) :
    (∀ c ∈ host.text, isDelimiter c = false) ∨ ':' ∈ host.text := by
  cases host with
  | domain name ne letters => exact Or.inl fun c hc => not_delimiter_of_regName (letters c hc)
  | ipv4 addr =>
    left
    intro c hc
    refine not_delimiter_of_address (IpText.addressChar_displayIpv4 addr c hc) ?_
    rintro rfl
    exact IpText.colon_not_mem_displayIpv4 addr hc
  | ipv6 text addr reads =>
    right
    have hcolon := IpText.colon_of_readIpv6 reads
    simp [UrlHost.text, hcolon]

theorem text_ne_nil (host : UrlHost) : host.text ≠ [] := by
  cases host with
  | domain name ne letters => exact ne
  | ipv4 addr => simp [UrlHost.text, IpText.displayIpv4]
  | ipv6 text addr reads => simp [UrlHost.text]

end UrlHost

namespace HttpUrl

variable (url : HttpUrl)

/-- What stands behind the host does not go on with it. -/
theorem endsHost_of_behindHost {c : Char} (h : url.behindHost.head? = some c) :
    endsHost c = true := by
  unfold behindHost at h
  cases hport : url.port with
  | some digits =>
    rw [hport] at h
    cases h
    rfl
  | none =>
    rcases url.path_rooted with hpath | hpath
    · cases hquery : url.query with
      | some text =>
        rw [hport, hpath, hquery] at h
        cases h
        rfl
      | none =>
        cases hfragment : url.fragment with
        | some text =>
          rw [hport, hpath, hquery, hfragment] at h
          cases h
          rfl
        | none =>
          rw [hport, hpath, hquery, hfragment] at h
          nomatch h
    · obtain ⟨path, hcons⟩ := List.head?_eq_some_iff.mp hpath
      rw [hport, hcons] at h
      cases h
      rfl

/-- What is cut out of the text of a URL. -/
theorem refererHost_text : refererHost url.text =
    if url.hier.takeWhile (fun c => !endsHost c) = [] then none
    else some (toAsciiLowercase (String.ofList (url.hier.takeWhile fun c => !endsHost c))) := by
  have hscheme : ':' ∉ url.scheme := by
    intro hmem
    have hlower : ':' ∈ url.scheme.map Char.toLower := List.mem_map.mpr ⟨':', hmem, rfl⟩
    rcases url.scheme_http with h | h
    · rw [h] at hlower
      revert hlower
      decide
    · rw [h] at hlower
      revert hlower
      decide
  have hcut : TextSearch.cut "://".toList (url.scheme ++ "://".toList ++ url.hier) =
      some (url.scheme, url.hier) := by
    refine TextSearch.cut_append (c := ':') (q := ['/', '/']) (by decide) ?_ url.hier
    rintro ⟨before, after, h⟩
    apply hscheme
    rw [← h]
    simp
  have hhttp : ¬ (eqIgnoreAsciiCase (String.ofList url.scheme) "http" = false ∧
      eqIgnoreAsciiCase (String.ofList url.scheme) "https" = false) := by
    rintro ⟨hnot, hnot'⟩
    rcases url.scheme_http with h | h
    · have heq : eqIgnoreAsciiCase (String.ofList url.scheme) "http" = true := by
        rw [eqIgnoreAsciiCase_iff, lowercase_ofList_eq_iff, h]
        rfl
      rw [hnot] at heq
      nomatch heq
    · have heq : eqIgnoreAsciiCase (String.ofList url.scheme) "https" = true := by
        rw [eqIgnoreAsciiCase_iff, lowercase_ofList_eq_iff, h]
        rfl
      rw [hnot'] at heq
      nomatch heq
  have hchars : url.text.toList = url.scheme ++ "://".toList ++ url.hier := String.toList_ofList
  rw [refererHost, hchars, hcut]
  simp only [if_neg hhttp]

/-- What is cut out, compared with the host letter by letter. -/
theorem refererHost_eq_iff : refererHost url.text = some url.lowerHost ↔
    (url.hier.takeWhile fun c => !endsHost c).map Char.toLower = url.host.text.map Char.toLower := by
  have hhost : url.host.text.map Char.toLower ≠ [] := by
    rw [ne_eq, List.map_eq_nil_iff]
    exact url.host.text_ne_nil
  rw [refererHost_text]
  split
  · rename_i hnil
    rw [hnil]
    exact ⟨nofun, fun h => absurd h.symm hhost⟩
  · rw [Option.some.injEq, lowerHost, lowercase_ofList_eq_iff, String.toList_ofList]

/-- The letters that are kept are in the host, in lower case. -/
theorem mem_lower_iff {c : Char} (hc : c.toNat < 65) (l : List Char) :
    c ∈ l.map Char.toLower ↔ c ∈ l := by
  rw [List.mem_map]
  simp only [toLower_eq_iff hc, exists_eq_right]

theorem takeWhile_to_colon {info rest : List Char}
    (h : ∀ c ∈ info, c ≠ ':' → (!endsHost c) = true) (hcolon : ':' ∈ info) :
    (info ++ rest).takeWhile (fun c => !endsHost c) = info.takeWhile (· ≠ ':') := by
  induction info with
  | nil => nomatch hcolon
  | cons c info ih =>
    by_cases hc : c = ':'
    · subst hc
      rfl
    · have hmem : ':' ∈ info := (List.mem_cons.mp hcolon).resolve_left fun heq => hc heq.symm
      have hletter := h c List.mem_cons_self hc
      rw [List.cons_append, List.takeWhile_cons_of_pos (p := fun c => !endsHost c) hletter,
        List.takeWhile_cons_of_pos (p := (· ≠ ':')) (decide_eq_true hc),
        ih (fun d hd => h d (List.mem_cons_of_mem c hd)) hmem]

/-- **The host is compared** exactly if it comes first behind the scheme. -/
theorem refererHost_iff : refererHost url.text = some url.lowerHost ↔ url.HostFirst := by
  rw [refererHost_eq_iff]
  have hbehind : ∀ c, url.behindHost.head? = some c → (!endsHost c) = false := by
    intro c hc
    rw [url.endsHost_of_behindHost hc]
    rfl
  have hcolon_cut : ':' ∉ url.hier.takeWhile fun c => !endsHost c := by
    intro hmem
    exact absurd (List.mem_takeWhile_imp hmem) (by decide)
  -- a host with a colon is never what is cut out
  have hno : ':' ∈ url.host.text →
      (url.hier.takeWhile fun c => !endsHost c).map Char.toLower ≠
        url.host.text.map Char.toLower := by
    intro hmem heq
    rw [← mem_lower_iff (by decide), ← heq, mem_lower_iff (by decide)] at hmem
    exact hcolon_cut hmem
  unfold HostFirst hier at *
  cases huser : url.userinfo with
  | none =>
    simp only [huser] at hno ⊢
    rcases url.host.plain_or_colon with hplain | hmem
    · have hends : ∀ c ∈ url.host.text, (!endsHost c) = true := by
        intro c hc
        have hfalse := hplain c hc
        rw [UrlHost.isDelimiter, Bool.or_eq_false_iff] at hfalse
        rw [hfalse.1]
        rfl
      rw [UriRef.takeWhile_append_eq_iff.mpr ⟨hends, hbehind⟩]
      exact iff_of_true rfl fun hmem => absurd (hends _ hmem) (by decide)
    · exact iff_of_false (hno hmem) fun hnot => hnot hmem
  | some info =>
    simp only [huser] at hno ⊢
    have hinfo : ∀ c ∈ info, c ≠ ':' → (!endsHost c) = true := by
      intro c hc hne
      have hfalse := UrlHost.not_delimiter_of_regName
        ((url.userinfo_letters info huser c hc).resolve_right hne)
      rw [UrlHost.isDelimiter, Bool.or_eq_false_iff] at hfalse
      rw [hfalse.1]
      rfl
    by_cases hcolon : ':' ∈ info
    · -- the userinfo is cut at its first colon
      rw [takeWhile_to_colon hinfo hcolon]
      exact ⟨fun h => ⟨hcolon, h⟩, fun h => h.2⟩
    · have hcut : '@' ∈ (info ++ '@' :: (url.host.text ++ url.behindHost)).takeWhile
          fun c => !endsHost c := by
        rw [List.takeWhile_append_of_pos fun c hc => hinfo c hc fun heq => hcolon (heq ▸ hc),
          List.takeWhile_cons_of_pos (by decide)]
        exact List.mem_append_right _ List.mem_cons_self
      refine iff_of_false (fun heq => ?_) fun h => hcolon h.1
      rcases url.host.plain_or_colon with hplain | hmem
      · have hat : '@' ∈ url.host.text := by
          rw [← mem_lower_iff (by decide), ← heq, mem_lower_iff (by decide)]
          exact hcut
        exact absurd (hplain _ hat) (by decide)
      · exact hno hmem heq

end HttpUrl

/-! ## The decision -/

namespace RefererRestrictionPlugin

/-- A configuration that is accepted has one list with a pattern. -/
theorem fromConfig_ok {config : HashMap Json} {plugin : RefererRestrictionPlugin}
    (h : fromConfig config = .ok plugin) :
    parseHostList config "whitelist" = .ok plugin.whitelist ∧
      parseHostList config "blacklist" = .ok plugin.blacklist := by
  obtain ⟨whitelist, hwhitelist, h⟩ := TryFold.bind_eq_ok.mp h
  obtain ⟨blacklist, hblacklist, h⟩ := TryFold.bind_eq_ok.mp h
  split at h
  · nomatch h
  · split at h
    · nomatch h
    · cases h
      exact ⟨hwhitelist, hblacklist⟩

/-- A request with this host is let through if the lists say so. -/
theorem blocks_iff {config : HashMap Json} {plugin : RefererRestrictionPlugin}
    (h : fromConfig config = .ok plugin) (host : String) :
    plugin.blocks (some host) = false ↔ ListsAllow config host := by
  obtain ⟨hwhitelist, hblacklist⟩ := fromConfig_ok h
  obtain ⟨hmatches, hempty⟩ := parseHostList_ok hwhitelist
  obtain ⟨hmatches', -⟩ := parseHostList_ok hblacklist
  rw [blocks, ListsAllow, ← hmatches, ← hmatches']
  by_cases hnil : hostPatterns config "whitelist" = []
  · rw [if_neg (by rw [hempty.mpr hnil]; decide), if_neg (not_not.mpr hnil), Bool.not_eq_true]
  · have hsome : plugin.whitelist.isEmpty = false :=
      Bool.eq_false_iff.mpr fun htrue => hnil (hempty.mp htrue)
    rw [if_pos hsome, if_pos hnil, Bool.not_eq_false']

section Execute

variable [JsonText]

/-- **The decision is on the referring host**: it is what is compared, and a request passes exactly
    if the lists allow it. -/
def DecidesOnHost (url : HttpUrl) : Prop :=
  refererHost url.text = some url.lowerHost ∧
    ∀ config plugin, fromConfig config = .ok plugin → ∀ ctx : Context,
      (ctx.request.headers["referer"]?).bind List.head? = some url.text →
      ((∃ output, plugin.execute ctx = .ok output) ↔ ListsAllow config url.lowerHost)

/-- Where the plugin decides on the host. -/
theorem decidesOnHost_iff (url : HttpUrl) : DecidesOnHost url ↔ url.HostFirst := by
  constructor
  · intro h
    exact url.refererHost_iff.mp h.1
  · intro hfirst
    have hhost := url.refererHost_iff.mpr hfirst
    refine ⟨hhost, fun config plugin hplugin ctx hreferer => ?_⟩
    rw [← blocks_iff hplugin, execute, hreferer, Option.bind_some, hhost]
    cases hblocks : plugin.blocks (some url.lowerHost) with
    | true => exact iff_of_false (by rintro ⟨_, h⟩; nomatch h) (by decide)
    | false => exact iff_of_true ⟨_, rfl⟩ rfl

end Execute

/-- A URL of the host `b`, with the user `a` and a password. -/
def userUrl : HttpUrl where
  scheme := ['h', 't', 't', 'p']
  userinfo := some ['a', ':', 'p']
  host := .domain ['b'] (by decide) (List.forall_mem_singleton.mpr rfl)
  port := none
  path := ['/']
  query := none
  fragment := none
  scheme_http := Or.inl rfl
  userinfo_letters := by
    rintro _ ⟨rfl⟩ c hc
    have hall : ['a', ':', 'p'].all (fun c => isRegNameChar c || c = ':') = true := rfl
    simpa using List.all_eq_true.mp hall c hc
  port_digits := nofun
  path_rooted := Or.inr rfl
  path_letters := List.forall_mem_singleton.mpr rfl
  query_letters := nofun

/-- A URL of the loopback address. -/
def loopbackUrl : HttpUrl where
  scheme := ['h', 't', 't', 'p']
  userinfo := none
  host := .ipv6 [':', ':', '1'] ⟨[0, 0, 0, 0, 0, 0, 0, 1], rfl⟩ (by decide)
  port := none
  path := ['/']
  query := none
  fragment := none
  scheme_http := Or.inl rfl
  userinfo_letters := nofun
  port_digits := nofun
  path_rooted := Or.inr rfl
  path_letters := List.forall_mem_singleton.mpr rfl
  query_letters := nofun

/-- The user is taken for the host, and of an address only the bracket is left. -/
theorem user_taken_for_host :
    userUrl.text = "http://a:p@b/" ∧ userUrl.lowerHost = "b" ∧
    refererHost userUrl.text = some "a" ∧
    loopbackUrl.text = "http://[::1]/" ∧ refererHost loopbackUrl.text = some "[" ∧
    ∀ (_ : JsonText), ¬ DecidesOnHost userUrl ∧ ¬ DecidesOnHost loopbackUrl := by
  refine ⟨by decide, by decide, by decide, by decide, by decide, fun _ => ?_⟩
  rw [decidesOnHost_iff, decidesOnHost_iff]
  constructor
  · exact fun h => absurd h.2 (by decide)
  · exact fun h => h (by decide)

end RefererRestrictionPlugin

end Featherbit
