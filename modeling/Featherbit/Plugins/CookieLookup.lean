/-
  WHAT A COOKIE OR A FORM FIELD IS LOOKED UP AS.

  1. **What is there** (`firstPair`): the first pair of the name among the parts of the field lines joined
     by `; `, or of the body.  A part without `=` is no pair.

  2. **The variables** (`vars/mod.rs`: `cookie_<name>`, `post_arg_<name>`) give up at the first part
     without `=` (`findPair_eq_iff`); the session cookies (`read_cookie`) and wolf-rbac pass it over.

  3. All of them read the first field line and no other, although a client of HTTP/2 may send several
     (`lookups_find_iff`).
-/
import Featherbit.Plugins.ExternalAuth
import Featherbit.Plugins.OpenidConnect
import Featherbit.Vars

namespace Featherbit

namespace Lookup

/-! ## What is there -/

/-- A part of a list, as a pair of the name. -/
def pairValue (name part : String) : Option String :=
  (splitOnceChar '=' part).bind fun pair => if pair.1 = name then some pair.2 else none

/-- The value of the first pair of the name; a part without `=` is none. -/
def firstPair (name : String) (parts : List String) : Option String := parts.findSome? (pairValue name)

/-- The part is a pair of the name. -/
def IsPair (name part : String) : Prop := ∃ value, splitOnceChar '=' part = some (name, value)

/-- The parts of a `Cookie` header. -/
def cookieParts (header : String) : List String := (splitChar ';' header).map trim

theorem pairValue_eq_some {name part value : String} :
    pairValue name part = some value ↔ splitOnceChar '=' part = some (name, value) := by
  unfold pairValue
  constructor
  · intro h
    obtain ⟨⟨k, v⟩, hsplit, hvalue⟩ := Option.bind_eq_some_iff.mp h
    dsimp only at hvalue
    split at hvalue
    · rename_i hname
      rw [hsplit, hname, Option.some.inj hvalue]
    · cases hvalue
  · intro h
    rw [h, Option.bind_some, if_pos rfl]

theorem isPair_iff {name part : String} : IsPair name part ↔ (pairValue name part).isSome = true := by
  rw [Option.isSome_iff_exists]
  exact exists_congr fun value => pairValue_eq_some.symm

theorem firstPair_eq_none {name : String} {parts : List String} :
    firstPair name parts = none ↔ ∀ part ∈ parts, ¬ IsPair name part := by
  unfold firstPair
  rw [List.findSome?_eq_none_iff]
  refine forall₂_congr fun part _ => ?_
  rw [isPair_iff, Option.not_isSome_iff_eq_none]

theorem firstPair_append (name : String) (parts others : List String) :
    firstPair name (parts ++ others) = (firstPair name parts).or (firstPair name others) :=
  List.findSome?_append

/-- The parts of the joined field lines are those of the lines. -/
theorem cookieParts_join {values : List String} (hne : values ≠ []) :
    cookieParts ("; ".intercalate values) = values.flatMap cookieParts := by
  induction values with
  | nil => exact absurd rfl hne
  | cons value values ih =>
    cases values with
    | nil => simp
    | cons next values =>
      have hjoin : ∀ rest : String, cookieParts (value ++ "; " ++ rest) =
          cookieParts value ++ cookieParts rest := by
        intro rest
        -- the blank after the semicolon is trimmed off the next part
        have hsep : value ++ "; " ++ rest = value ++ String.singleton ';' ++ (" " ++ rest) := by
          rw [String.append_assoc, String.append_assoc, ← @String.append_assoc (String.singleton ';')]
          rfl
        obtain ⟨part, parts, hrest, hspace⟩ := splitChar_cons (show ' ' ≠ ';' by decide) rest
        have htrim : trim (String.singleton ' ' ++ part) = trim part := trim_space part
        unfold cookieParts
        rw [hsep, splitChar_append, List.map_append, show " " = String.singleton ' ' from rfl, hspace,
          hrest, List.map_cons, List.map_cons, htrim]
      rw [String.intercalate_cons_cons, hjoin, ih (List.cons_ne_nil _ _)]
      rfl

/-! ## What is reached -/

/-- There is no pair of the name, or the first one is in this list and no part before it lacks its `=`. -/
def Reached (name : String) (parts others : List String) : Prop :=
  (∀ part ∈ parts ++ others, ¬ IsPair name part) ∨
    ∃ before part after, parts = before ++ part :: after ∧ IsPair name part ∧
      ∀ other ∈ before, '=' ∈ other.toList

section Reached

variable {name : String} {parts others : List String}

theorem mem_of_splitOnceChar {part : String} {pair : String × String}
    (h : splitOnceChar '=' part = some pair) : '=' ∈ part.toList := by
  by_contra hsep
  rw [splitOnceChar_eq_none hsep] at h
  cases h

theorem reached_nil : Reached name [] others ↔ firstPair name others = none := by
  rw [firstPair_eq_none]
  constructor
  · rintro (hnone | ⟨before, part, after, hsplit, -⟩)
    · exact hnone
    · exact absurd hsplit.symm (List.append_ne_nil_of_right_ne_nil _ (List.cons_ne_nil _ _))
  · exact Or.inl

/-- A part without `=` must not hide a pair. -/
theorem reached_cons_none {part : String} (h : splitOnceChar '=' part = none) :
    Reached name (part :: parts) others ↔ firstPair name (parts ++ others) = none := by
  have hno : ¬ IsPair name part := by
    rintro ⟨value, hvalue⟩
    rw [h] at hvalue
    cases hvalue
  rw [firstPair_eq_none]
  constructor
  · rintro (hnone | ⟨before, found, after, hsplit, hpair, hbefore⟩)
    · exact fun other hother => hnone other (List.mem_cons_of_mem _ hother)
    · exfalso
      cases before with
      | nil =>
        rw [(List.cons.inj hsplit).1] at hno
        exact hno hpair
      | cons first before =>
        obtain ⟨a, b, hsome⟩ := exists_splitOnceChar (hbefore first List.mem_cons_self)
        rw [(List.cons.inj hsplit).1, hsome] at h
        cases h
  · intro hnone
    refine Or.inl fun other hother => ?_
    rcases List.mem_cons.mp hother with rfl | hother
    · exact hno
    · exact hnone other hother

/-- A pair of another name is passed over. -/
theorem reached_cons_other {part : String} {pair : String × String}
    (h : splitOnceChar '=' part = some pair) (hname : pair.1 ≠ name) :
    Reached name (part :: parts) others ↔ Reached name parts others := by
  have hno : ¬ IsPair name part := by
    rintro ⟨value, hvalue⟩
    rw [h] at hvalue
    exact hname (congrArg Prod.fst (Option.some.inj hvalue))
  constructor
  · rintro (hnone | ⟨before, found, after, hsplit, hpair, hbefore⟩)
    · exact Or.inl fun other hother => hnone other (List.mem_cons_of_mem _ hother)
    · cases before with
      | nil =>
        rw [(List.cons.inj hsplit).1] at hno
        exact absurd hpair hno
      | cons first before =>
        exact Or.inr ⟨before, found, after, (List.cons.inj hsplit).2, hpair,
          fun other hother => hbefore other (List.mem_cons_of_mem _ hother)⟩
  · rintro (hnone | ⟨before, found, after, rfl, hpair, hbefore⟩)
    · refine Or.inl fun other hother => ?_
      rcases List.mem_cons.mp hother with rfl | hother
      · exact hno
      · exact hnone other hother
    · refine Or.inr ⟨part :: before, found, after, rfl, hpair, fun other hother => ?_⟩
      rcases List.mem_cons.mp hother with rfl | hother
      · exact mem_of_splitOnceChar h
      · exact hbefore other hother

/-- **The scan of the variables**, which gives up at the first part without `=`. -/
theorem findPair_eq_iff (name : String) (parts others : List String) :
    Vars.findPair name parts = firstPair name (parts ++ others) ↔ Reached name parts others := by
  induction parts with
  | nil =>
    rw [reached_nil]
    exact eq_comm
  | cons part parts ih =>
    have hfirst : firstPair name (part :: parts ++ others) =
        (pairValue name part).or (firstPair name (parts ++ others)) := by
      show List.findSome? _ (part :: (parts ++ others)) = _
      rw [List.findSome?_cons]
      cases pairValue name part with
      | none => rfl
      | some value => rfl
    rw [hfirst]
    unfold Vars.findPair pairValue
    cases hsplit : splitOnceChar '=' part with
    -- the scan is over, and the list is read as if it had no pair
    | none =>
      rw [reached_cons_none hsplit]
      exact eq_comm
    | some pair =>
      dsimp only [Option.bind_some]
      by_cases hname : pair.1 = name
      · rw [if_pos hname, if_pos hname]
        have hpair : IsPair name part := ⟨pair.2, by rw [hsplit, ← hname]⟩
        exact iff_of_true rfl (Or.inr ⟨[], part, parts, rfl, hpair,
          fun other hother => absurd hother List.not_mem_nil⟩)
      · rw [if_neg hname, if_neg hname, reached_cons_other hsplit hname, ← ih]
        rfl

/-- What is reached is found without the other lists. -/
theorem Reached.firstPair_eq (h : Reached name parts others) :
    firstPair name parts = firstPair name (parts ++ others) := by
  rw [firstPair_append]
  rcases h with hnone | ⟨before, part, after, hsplit, hpair, -⟩
  · rw [firstPair_eq_none.mpr fun part hpart => hnone part (List.mem_append_left _ hpart),
      firstPair_eq_none.mpr fun part hpart => hnone part (List.mem_append_right _ hpart)]
    rfl
  · cases hfirst : firstPair name parts with
    | some value => rfl
    | none =>
      refine absurd hpair (firstPair_eq_none.mp hfirst part ?_)
      rw [hsplit]
      exact List.mem_append_right _ List.mem_cons_self

/-- It finds nothing, or the first pair. -/
theorem findPair_eq_or (name : String) (parts : List String) :
    Vars.findPair name parts = none ∨ Vars.findPair name parts = firstPair name parts := by
  induction parts with
  | nil => exact Or.inl rfl
  | cons part parts ih =>
    unfold Vars.findPair firstPair
    rw [List.findSome?_cons]
    unfold pairValue
    cases hsplit : splitOnceChar '=' part with
    | none => exact Or.inl rfl
    | some pair =>
      dsimp only [Option.bind_some]
      by_cases hname : pair.1 = name
      · rw [if_pos hname, if_pos hname]
        exact Or.inr rfl
      · rw [if_neg hname, if_neg hname]
        exact ih

end Reached

/-! ## The lookups -/

theorem stripPrefix_of_head {front text : String} {c d : Char} {l m : List Char}
    (hfront : front.toList = c :: l) (htext : text.toList = d :: m) (hne : c ≠ d) :
    stripPrefix front text = none := by
  refine stripPrefix_eq_none fun rest h => ?_
  rw [h, String.toList_append, hfront, List.cons_append] at htext
  exact hne (List.cons.inj htext).1

section Lookups

variable [CaseMapping] [JsonText] (ctx : Context) (name : String)

/-- A name that begins as no variable of one word does. -/
theorem resolve_keyed {key : String} (hkey : key.toList.take 3 ∉
    ["uri", "req", "met", "hos", "sch", "pro", "rem", "que", "sta", "res", "con"].map String.toList) :
    Vars.resolve ctx key = Vars.resolveKeyed ctx key := by
  unfold Vars.resolve
  split
  all_goals first
    | exact absurd (by decide) hkey
    | rfl

theorem resolve_cookie : Vars.resolve ctx ("cookie_" ++ name) = Vars.cookieValue ctx name := by
  have hlist : ("cookie_" ++ name).toList = 'c' :: 'o' :: 'o' :: ("kie_" ++ name).toList := by
    rw [String.toList_append, String.toList_append]
    rfl
  have htake : ("cookie_" ++ name).toList.take 3 = ['c', 'o', 'o'] := by
    rw [hlist]
    rfl
  rw [resolve_keyed ctx (by rw [htake]; decide)]
  unfold Vars.resolveKeyed
  rw [stripPrefix_of_head (show "arg_".toList = 'a' :: _ from rfl) hlist (by decide),
    stripPrefix_of_head (show "http_".toList = 'h' :: _ from rfl) hlist (by decide), stripPrefix_append]

theorem resolve_postArg : Vars.resolve ctx ("post_arg_" ++ name) = Vars.postArg ctx name := by
  have hlist : ("post_arg_" ++ name).toList = 'p' :: 'o' :: 's' :: ("t_arg_" ++ name).toList := by
    rw [String.toList_append, String.toList_append]
    rfl
  have htake : ("post_arg_" ++ name).toList.take 3 = ['p', 'o', 's'] := by
    rw [hlist]
    rfl
  rw [resolve_keyed ctx (by rw [htake]; decide)]
  unfold Vars.resolveKeyed
  rw [stripPrefix_of_head (show "arg_".toList = 'a' :: _ from rfl) hlist (by decide),
    stripPrefix_of_head (show "http_".toList = 'h' :: _ from rfl) hlist (by decide),
    stripPrefix_of_head (show "cookie_".toList = 'c' :: _ from rfl) hlist (by decide),
    stripPrefix_append]

end Lookups

section Cookies

variable (ctx : Context) (name : String)

/-- The `Cookie` field lines of a request. -/
def cookieLines : List String := ctx.request.headers["cookie"]?.getD []

/-- The parts of the first of them. -/
def firstLine : List String := ((cookieLines ctx).head?.map cookieParts).getD []

def otherLines : List String := (cookieLines ctx).tail.flatMap cookieParts

/-- The cookie of the name in the joined list. -/
def cookie : Option String := firstPair name (cookieParts ("; ".intercalate (cookieLines ctx)))

theorem cookie_eq : cookie ctx name = firstPair name (firstLine ctx ++ otherLines ctx) := by
  unfold cookie firstLine otherLines
  cases hlines : cookieLines ctx with
  | nil =>
    have hparts : cookieParts ("; ".intercalate []) = [""] := by decide
    rw [hparts]
    rfl
  | cons line lines =>
    rw [cookieParts_join (List.cons_ne_nil _ _)]
    rfl

theorem head_cookieLines :
    (ctx.request.headers["cookie"]?.bind List.head?) = (cookieLines ctx).head? := by
  unfold cookieLines
  cases ctx.request.headers["cookie"]? with
  | none => rfl
  | some lines => rfl

/-- What reads the first field line reads its parts. -/
theorem bind_firstLine {read : String → Option String} {find : List String → Option String}
    (hread : ∀ header, read header = find (cookieParts header)) (hnone : find [] = none) :
    ((ctx.request.headers["cookie"]?.bind List.head?).bind read) = find (firstLine ctx) := by
  rw [head_cookieLines, funext hread]
  unfold firstLine
  cases (cookieLines ctx).head? with
  | none => exact hnone.symm
  | some line => rfl

theorem cookieValue_eq : Vars.cookieValue ctx name = Vars.findPair name (firstLine ctx) := by
  have hread : Vars.cookieValue ctx name = (ctx.request.headers["cookie"]?.bind List.head?).bind
      fun header => Vars.findPair name (cookieParts header) := (Option.bind_assoc ..).symm
  rw [hread]
  exact bind_firstLine ctx (fun header => rfl) rfl

theorem cookieOf_eq (part : String) : cookieOf name part = pairValue name (trim part) := by
  unfold cookieOf pairValue
  cases splitOnceChar '=' (trim part) with
  | none => rfl
  | some pair => rfl

/-- The session cookies are read as they are meant to be, in the first field line. -/
theorem requestCookie_eq :
    OpenidConnectPlugin.requestCookie ctx name = firstPair name (firstLine ctx) := by
  have hpair : cookieOf name = pairValue name ∘ trim := by
    funext part
    rw [Function.comp_apply, cookieOf_eq]
  refine bind_firstLine ctx (fun header => ?_) rfl
  unfold readCookie firstPair cookieParts
  rw [List.findSome?_map, hpair]

/-- A part with the name and `=` in front of it is a pair of the name. -/
theorem stripPrefix_pair {name : String} (hname : '=' ∉ name.toList) (part : String) :
    stripPrefix (name ++ "=") part = pairValue name part := by
  cases hstrip : stripPrefix (name ++ "=") part with
  | some value =>
    rw [eq_of_stripPrefix hstrip]
    exact (pairValue_eq_some.mpr (splitOnceChar_append hname value)).symm
  | none =>
    cases hvalue : pairValue name part with
    | none => rfl
    | some value =>
      have hpart := eq_of_splitOnceChar (pairValue_eq_some.mp hvalue)
      rw [hpart, show String.singleton '=' = "=" from rfl, stripPrefix_append] at hstrip
      cases hstrip

/-- No token where wolf-rbac looks before the cookies. -/
structure NoOtherToken : Prop where
  query : ctx.request.queryParams["rbac_token"]?.bind List.head? = none
  authorization : ctx.request.headers["authorization"]?.bind List.head? = none
  header : ctx.request.headers["x-rbac-token"]?.bind List.head? = none

theorem extractRbacToken_eq (h : NoOtherToken ctx) :
    WolfRbacPlugin.extractRbacToken ctx.request.headers ctx.request.queryParams =
      firstPair "x-rbac-token" (firstLine ctx) := by
  have hpair : (fun part => stripPrefix "x-rbac-token=" (trim part)) =
      pairValue "x-rbac-token" ∘ trim := by
    funext part
    rw [Function.comp_apply, ← stripPrefix_pair (by decide), show "x-rbac-token" ++ "=" = "x-rbac-token=" by decide]
  unfold WolfRbacPlugin.extractRbacToken
  rw [h.query, h.authorization, h.header]
  refine bind_firstLine ctx (fun header => ?_) rfl
  unfold firstPair cookieParts
  rw [List.findSome?_map, hpair]

end Cookies

section Form

variable (ctx : Context) (name : String)

/-- The text of a form. -/
def formBody : Option String := do
  let contentType ← (← ctx.request.headers["content-type"]?).head?
  if startsWith contentType "application/x-www-form-urlencoded" then fromUtf8 ctx.request.body else none

theorem postArg_eq {body : String} (h : formBody ctx = some body) :
    Vars.postArg ctx name = (Vars.findPair name (splitChar '&' body)).map Vars.urldecode := by
  obtain ⟨values, hvalues, h⟩ := Option.bind_eq_some_iff.mp h
  obtain ⟨contentType, hhead, h⟩ := Option.bind_eq_some_iff.mp h
  split at h
  · rename_i hform
    unfold Vars.postArg
    rw [hvalues, Option.bind_eq_bind, Option.bind_some, hhead]
    simp only [Option.bind_eq_bind, Option.bind_some, hform, h, Bool.not_true]
    cases Vars.findPair name (splitChar '&' body) with
    | none => rfl
    | some value => rfl
  · cases h

end Form

section Found

variable [CaseMapping] [JsonText] (ctx : Context) (name : String)

/-- Every lookup of a cookie yields the cookie of the joined list; `cookie_<name>` is also what the `csrf`
    node looks up, under its own name. -/
structure CookieFound : Prop where
  vars : Vars.resolve ctx ("cookie_" ++ name) = cookie ctx name
  session : OpenidConnectPlugin.requestCookie ctx name = cookie ctx name
  wolf : name = "x-rbac-token" → NoOtherToken ctx →
    WolfRbacPlugin.extractRbacToken ctx.request.headers ctx.request.queryParams = cookie ctx name

/-- The lookup of a form field yields the field. -/
def FieldFound : Prop := ∀ body, formBody ctx = some body →
  Vars.resolve ctx ("post_arg_" ++ name) = (firstPair name (splitChar '&' body)).map Vars.urldecode

/-- **What the lookups find**: the cookie, exactly where it is in the first field line with no part before
    it that lacks its `=`, or nowhere; and the field, in a form of which the same is true. -/
theorem lookups_find_iff :
    (CookieFound ctx name ↔ Reached name (firstLine ctx) (otherLines ctx)) ∧
      (FieldFound ctx name ↔
        ∀ body, formBody ctx = some body → Reached name (splitChar '&' body) []) := by
  constructor
  · constructor
    · intro h
      have hvars := h.vars
      rw [resolve_cookie, cookieValue_eq, cookie_eq] at hvars
      exact (findPair_eq_iff name _ _).mp hvars
    · intro h
      refine ⟨?_, ?_, ?_⟩
      · rw [resolve_cookie, cookieValue_eq, cookie_eq]
        exact (findPair_eq_iff name _ _).mpr h
      · rw [requestCookie_eq, cookie_eq]
        exact h.firstPair_eq
      · rintro rfl hother
        rw [extractRbacToken_eq ctx hother, cookie_eq]
        exact h.firstPair_eq
  -- a field that is found is decoded, so that it is the same field where the raw values are the same
  · refine forall₂_congr fun body hbody => ?_
    rw [resolve_postArg, postArg_eq ctx name hbody, ← findPair_eq_iff, List.append_nil]
    constructor
    · intro h
      rcases findPair_eq_or name (splitChar '&' body) with hnone | hsame
      · rw [hnone, Option.map_none] at h
        rw [hnone, Option.map_eq_none_iff.mp h.symm]
      · exact hsame
    · intro h
      rw [h]

end Found

/-- A form with these `Cookie` field lines. -/
def formWith (lines : List String) (body : String) : Context := Context.new {
  method := "POST", path := "/", host := "", scheme := "http", queryParams := ∅
  headers := ((∅ : HashMap (List String)).insert "cookie" lines).insert "content-type"
    ["application/x-www-form-urlencoded"]
  body := asBytes body, remoteAddr := "10.0.0.1:1111", protocol := .http2 }

/-- A cookie behind an odd part, one in a second field line, and a field behind an odd part. -/
theorem lookups_miss :
    let _ : CaseMapping := asciiCaseMapping
    let _ : JsonText := oneFieldText
    (Vars.resolve (formWith ["theme; session=abc"] "") "cookie_session" = none ∧
      OpenidConnectPlugin.requestCookie (formWith ["theme; session=abc"] "") "session" = some "abc" ∧
      ¬ CookieFound (formWith ["theme; session=abc"] "") "session") ∧
    (cookie (formWith ["theme=dark", "session=abc"] "") "session" = some "abc" ∧
      OpenidConnectPlugin.requestCookie (formWith ["theme=dark", "session=abc"] "") "session" = none ∧
      ¬ CookieFound (formWith ["theme=dark", "session=abc"] "") "session") ∧
    (Vars.resolve (formWith [] "flag&color=red") "post_arg_color" = none ∧
      ¬ FieldFound (formWith [] "flag&color=red") "color") := by
  intro _ _
  have hodd : Vars.resolve (formWith ["theme; session=abc"] "") ("cookie_" ++ "session") = none := by
    rw [resolve_cookie]
    decide
  have hline : OpenidConnectPlugin.requestCookie (formWith ["theme=dark", "session=abc"] "") "session" =
      none := by decide
  have hbody : formBody (formWith [] "flag&color=red") = some "flag&color=red" := by
    rw [← fromUtf8_asBytes "flag&color=red"]
    rfl
  have hfield : Vars.resolve (formWith [] "flag&color=red") ("post_arg_" ++ "color") = none := by
    rw [resolve_postArg, postArg_eq _ _ hbody]
    decide
  refine ⟨⟨hodd, by decide, fun h => ?_⟩, ⟨by decide, hline, fun h => ?_⟩, ⟨hfield, fun h => ?_⟩⟩
  · have hvars := h.vars
    rw [hodd] at hvars
    exact absurd hvars (by decide)
  · have hsession := h.session
    rw [hline] at hsession
    exact absurd hsession (by decide)
  · have hfound := h _ hbody
    rw [hfield] at hfound
    exact absurd (Option.map_eq_none_iff.mp hfound.symm) (by decide)

end Lookup

end Featherbit
