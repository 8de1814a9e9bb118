/-
  LOGINS OF MANY BROWSERS AT MANY `openid-connect` NODES.

  Any number of requests are executed at once, each at some node, in any order of their calls.  The
  requests are arbitrary, and so are the peers; of the cookies it is assumed that a value that
  decrypts under a key was sealed under it (`Unforged`).

  1. **Cookies have an origin** (`opened_sealed`): what is opened was sealed before, with that payload,
     and has not expired.
  2. **Keys have an origin** (`keys_fetched`): cached keys were fetched by some request at that node.
  3. **Logins are bound** (`session_bound`): a session is sealed at the end of the login that its own
     request's flow cookie belongs to.
  4. **Sessions are trusted as they are.**  A node does not look at the claims of a session again, so
     they satisfy its rules in runs where every session it opens comes from a node at least as strict
     (`let_through_accepted`), and not in others (`foreign_session_let_through`).
-/
import Featherbit.Plugins.OidcRun

namespace Featherbit

open Tasks

set_option linter.unusedSectionVars false

namespace OpenidConnectPlugin

open OpenidConnect

section System

variable [Sha256] [Aes256Gcm] [Base64Url] [Base64Codec] [JsonStructCodec] [JsonWebToken]
  [DurationText] {ι N : Type} [DecidableEq ι] [DecidableEq N]
  (nodes : N → OpenidConnectPlugin) (node : ι → N) (ctx : ι → Context)

/-! ## The outside -/

/-- What a URL cell of a node holds. -/
def uriIn (n : N) (cell : UriCell) (history : List (ι × OidcEvent)) : Option String :=
  history.foldl (fun found entry =>
    if node entry.1 = n then
      match entry.2.what.1 with
      | .writeUri cell' uri => if cell' = cell then some uri else found
      | _ => found
    else found) none

/-- The key cache of a node: `none` while some request has it locked. -/
def jwksIn (n : N) (history : List (ι × OidcEvent)) : Option (Option CachedJwks) :=
  history.foldl (fun found entry =>
    if node entry.1 = n then
      match entry.2.what.1 with
      | .lockJwks => none
      | .unlockJwks cache => some cache
      | _ => found
    else found) (some none)

/-- A value that decrypts under the key was sealed under it. -/
def Unforged (history : List (ι × OidcEvent)) (sealer : CookieSealer) (value : String) : Prop :=
  ∀ plaintext, sealer.decrypt value = .ok plaintext →
    ∃ entry ∈ history, ∃ payload ttl, entry.2.what = ⟨.sealCookie sealer payload ttl, value⟩

/-- What the outside may answer: clocks and caches as they are, the sealer as it computes, peers
    anything. -/
def Answered (history : List (ι × OidcEvent)) (i : ι) (e : OidcEvent) : Prop :=
  (∀ entry ∈ history, entry.2.time.instant ≤ e.time.instant) ∧
    match e.what with
    | ⟨.unixNow, now⟩ => now = e.time.unix
    | ⟨.instant, now⟩ => now = e.time.instant
    | ⟨.random size, bytes⟩ => List.length bytes = size
    | ⟨.request _, _⟩ => True
    | ⟨.readUri cell, found⟩ => found = uriIn node (node i) cell history
    | ⟨.writeUri _ _, _⟩ => True
    | ⟨.lockJwks, cache⟩ => jwksIn node (node i) history = some cache
    | ⟨.unlockJwks _, _⟩ => True
    | ⟨.sealCookie sealer payload ttl, value⟩ =>
      ∃ nonce, value = sealer.sealCookie e.time.unix nonce payload.toVec ttl
    | ⟨.openCookie sealer value, opened⟩ =>
      opened = sealer.openCookie e.time.unix value ∧ Unforged history sealer value

/-- Every request is executed at its node. -/
def executions (i : ι) : OidcTask PluginResult := (nodes (node i)).execute (ctx i)

variable {nodes node ctx} {p : Pool ι Stamp OidcCall.Answer PluginResult}

/-! ## Origins -/

theorem split_of_mem {i : ι} {history : List (ι × OidcEvent)} {e : OidcEvent} (h : e ∈ own i history) :
    ∃ before after, history = before ++ (i, e) :: after :=
  List.append_of_mem (mem_own.mp h)

/-- An opened cookie was sealed before, and has not expired. -/
theorem opened_sealed (hanswered : Each (Answered node) p.history)
    {before after : List (ι × OidcEvent)} {i : ι} {e : OidcEvent} {sealer : CookieSealer}
    {value : String} {bytes : Bytes} (hsplit : p.history = before ++ (i, e) :: after)
    (hwhat : e.what = ⟨.openCookie sealer value, .ok bytes⟩) :
    ∃ older j sealed later payload ttl, before = older ++ (j, sealed) :: later ∧
      sealed.what = ⟨.sealCookie sealer payload ttl, value⟩ ∧ bytes = payload.toVec ∧
      e.time.unix ≤ saturatingAdd sealed.time.unix ttl := by
  have hopen := (hanswered before i e after hsplit).2
  rw [hwhat] at hopen
  obtain ⟨hopen, hunforged⟩ := hopen
  cases hplain : sealer.decrypt value with
  | error err =>
    rw [CookieSealer.openCookie, hplain] at hopen
    cases hopen
  | ok plaintext =>
    obtain ⟨⟨j, sealed⟩, hmem, payload, ttl, hsealed⟩ := hunforged plaintext hplain
    obtain ⟨older, later, rfl⟩ := List.append_of_mem hmem
    have hseal := (hanswered older j sealed (later ++ (i, e) :: after) (by rw [hsplit]; simp)).2
    rw [hsealed] at hseal
    obtain ⟨nonce, rfl⟩ := hseal
    rw [CookieSealer.openCookie_sealCookie] at hopen
    split at hopen
    · cases hopen
    · rename_i hexpiry
      exact ⟨older, j, sealed, later, payload, ttl, rfl, hsealed, Except.ok.inj hopen,
        UInt64.not_lt.mp hexpiry⟩

/-- What a cache holds was put there. -/
theorem unlocked_of_jwksIn {n : N} {cache : CachedJwks} (history : List (ι × OidcEvent))
    (h : jwksIn node n history = some (some cache)) :
    ∃ before k e after, history = before ++ (k, e) :: after ∧ node k = n ∧
      e.what.1 = .unlockJwks (some cache) := by
  induction history using List.reverseRecOn with
  | nil => cases h
  | append_singleton history entry ih =>
    have hearlier : jwksIn node n history = some (some cache) →
        ∃ before k e after, history ++ [entry] = before ++ (k, e) :: after ∧ node k = n ∧
          e.what.1 = .unlockJwks (some cache) := by
      intro h
      obtain ⟨before, k, e, after, rfl, hk⟩ := ih h
      exact ⟨before, k, e, after ++ [entry], by simp, hk⟩
    obtain ⟨k, e⟩ := entry
    rw [jwksIn, List.foldl_append, List.foldl_cons, List.foldl_nil] at h
    split at h
    · rename_i hk
      split at h
      · cases h
      · rename_i cache' hcall
        rw [Option.some.inj h] at hcall
        exact ⟨history, k, e, [], rfl, hk, hcall⟩
      · exact hearlier h
    · exact hearlier h

theorem own_later (i : ι) {before history : List (ι × OidcEvent)} (h : before <+: history) :
    own i before <+: own i history := by
  obtain ⟨rest, rfl⟩ := h
  unfold own
  rw [List.filter_append, List.map_append]
  exact List.prefix_append _ _

/-- Keys that a request saw were fetched by some request at the same node. -/
theorem keys_fetched (hanswered : Each (Answered node) p.history)
    (hcalls : Each (fun before i e =>
      (nodes (node i)).Allowed (stripUserinfo (ctx i)) (own i before) e.what.1) p.history)
    {i : ι} {keys : List Jwk} {before after : List (ι × OidcEvent)}
    (hsplit : p.history = before ++ after)
    (hseen : (nodes (node i)).KeysSeen (own i before) keys) :
    ∃ k, node k = node i ∧ (nodes (node i)).KeysFetched (own k before) keys := by
  -- the cache is older than the request: induction on how much has happened
  induction hlen : before.length using Nat.strongRecOn generalizing i keys before after with
  | ind n ih =>
    subst hlen
    rcases hseen with hfetched | ⟨cached, ⟨e, he, hwhat⟩, rfl⟩
    · exact ⟨i, rfl, hfetched⟩
    · obtain ⟨older, later, rfl⟩ := split_of_mem he
      have hlock := (hanswered older i e (later ++ after) (by rw [hsplit]; simp)).2
      rw [hwhat] at hlock
      obtain ⟨oldest, k, put, rest, rfl, hk, hput⟩ := unlocked_of_jwksIn older hlock
      have hallowed : (nodes (node k)).Allowed (stripUserinfo (ctx k)) (own k oldest) put.what.1 :=
        hcalls oldest k put (rest ++ (i, e) :: later ++ after) (by rw [hsplit]; simp)
      rw [hput] at hallowed
      have hoccurs : p.history = oldest ++ ((k, put) :: rest ++ (i, e) :: later ++ after) := by
        rw [hsplit]
        simp
      obtain ⟨k', hk', hfetched⟩ := ih oldest.length (by simp) hoccurs hallowed rfl
      refine ⟨k', hk'.trans hk, ?_⟩
      rw [hk] at hfetched
      exact hfetched.later (own_later k' (by simp))

theorem requestCookie_stripUserinfo (ctx : Context) (name : String) :
    requestCookie (stripUserinfo ctx) name = requestCookie ctx name := by
  have hheader : (ctx.request.headers.erase "x-userinfo")["cookie"]? = ctx.request.headers["cookie"]? := by
    rw [HashMap.get_erase, if_neg (by decide)]
  show ((ctx.request.headers.erase "x-userinfo")["cookie"]?.bind List.head?).bind _ = _
  rw [hheader]
  rfl

theorem claimsValue_canonical {claims : HashMap Json}
    (h : ∀ (k : String) (v : Json), claims[k]? = some v → v.Canonical) : (claimsValue claims).Canonical := by
  refine ⟨?_, ?_⟩
  · rw [List.pairwise_map]
    exact claims.ordered_keys_toList.imp fun h => compare_lt_iff_lt.mp h
  · have hall : ∀ field ∈ claims.toList, field.2.Canonical := fun field hf =>
      h field.1 field.2 (Std.ExtTreeMap.mem_toList_iff_getElem?_eq_some.mp hf)
    generalize claims.toList = fields at hall
    induction fields with
    | nil => trivial
    | cons field fields ih =>
      exact ⟨hall field List.mem_cons_self, ih fun f hf => hall f (List.mem_cons_of_mem _ hf)⟩

end System

/-! ## A login -/

section Example

variable [Sha256] [Aes256Gcm] [Base64Url] [Base64Codec] [JsonStructCodec] [DurationText]

/-- The configuration of an app below a path; the cookie names are the default ones. -/
def appConfig (app : String) : HashMap Json :=
  (((((((((∅ : HashMap Json).insert "bearer_only" (.bool false)).insert
    "jwks_uri" (.string "https://idp.example.com/jwks")).insert
    "authorization_endpoint" (.string "https://idp.example.com/authorize")).insert
    "token_endpoint" (.string "https://idp.example.com/token")).insert
    "client_id" (.string app)).insert
    "client_secret" (.string "client-secret")).insert
    "redirect_uri" (.string ("https://example.com/" ++ app ++ "/callback"))).insert
    "session_secret" (.string "session-secret")).insert
    "claim_validator" (.object [("audience", .object [("match_with_client_id", .bool true)])])

/-- What it is read as. -/
def appFlow (app : String) : Interactive where
  sealer := CookieSealer.new "session-secret"
  authorizationEndpointCfg := some "https://idp.example.com/authorize"
  tokenEndpointCfg := some "https://idp.example.com/token"
  redirectUri := "https://example.com/" ++ app ++ "/callback"
  redirectPath := "/" ++ app ++ "/callback"
  scope := "openid"
  sessionCookie := "oidc_session"
  flowCookie := "oidc_session_flow"
  cookiePath := "/"
  sessionLifetime := 3600
  logoutPath := none
  postLogoutRedirectUri := "/"

def appNode (app : String) : OpenidConnectPlugin where
  discovery := none
  jwksUriCfg := some "https://idp.example.com/jwks"
  introspectionEndpoint := none
  clientId := some app
  clientSecret := some "client-secret"
  sslVerify := true
  timeout := durationFromSecs 3
  allowedAlgs := defaultAlgs
  validIssuers := []
  audienceClaim := "aud"
  audienceRequired := false
  audienceMatchClientId := true
  setUserinfoHeader := true
  setAccessTokenHeader := true
  accessTokenInAuthorizationHeader := false
  useJwks := true
  jwkTtl := durationFromSecs 86400
  interactive := some (appFlow app)

/-- A request with a path, a `Cookie` header and query parameters. -/
def browserRequest (path : String) (headers : HashMap (List String))
    (queryParams : HashMap (List String)) : Context :=
  Context.new { (default : GatewayRequest) with
    path := path, headers := headers, queryParams := queryParams }

def cookieHeader (name value : String) : HashMap (List String) :=
  (∅ : HashMap (List String)).insert "cookie" [name ++ "=" ++ value]

/-- The flow state of the login. -/
def aliceFlow : FlowState where
  state := randomToken (List.replicate 32 1)
  nonce := randomToken (List.replicate 32 2)
  verifier := randomToken (List.replicate 32 3)
  originalUri := "/a/home"

/-- The claims of the token, with the nonce it was asked for. -/
def aliceClaims (nonce : String) : HashMap Json :=
  ((∅ : HashMap Json).insert "aud" (.string "a")).insert "nonce" (.string nonce)

theorem aliceClaims_string {nonce k : String} {v : Json} (h : (aliceClaims nonce)[k]? = some v) :
    ∃ s, v = .string s := by
  unfold aliceClaims at h
  rw [HashMap.get_insert, HashMap.get_insert] at h
  split at h
  · exact ⟨_, (Option.some.inj h).symm⟩
  · split at h
    · exact ⟨_, (Option.some.inj h).symm⟩
    · cases h

/-- The provider's token. -/
abbrev aliceToken : JsonWebToken :=
  oneToken "id-token" (some "k1") (aliceClaims aliceFlow.nonce) fun k v h => by
    obtain ⟨s, rfl⟩ := aliceClaims_string h
    trivial

/-- What is sealed with the nonce of zeros, at second 100. -/
def sealedCookieOf (payload : CookiePayload) (ttl : UInt64) : String :=
  (CookieSealer.new "session-secret").sealCookie 100
    ⟨List.replicate nonceLen 0, List.length_replicate⟩ payload.toVec ttl

def aliceSession : SessionData where
  claims := claimsValue (aliceClaims aliceFlow.nonce)
  accessToken := none

/-- A login at the first app, and a request at another one with the session it ended in. -/
def aliceRequests (reader : String) : Fin 3 → Context
  | 0 => browserRequest "/a/home" ∅ ∅
  | 1 => browserRequest "/a/callback" (cookieHeader "oidc_session_flow" (sealedCookieOf (.flow aliceFlow) 300))
      (((∅ : HashMap (List String)).insert "code" ["c1"]).insert "state" [aliceFlow.state])
  | 2 => browserRequest ("/" ++ reader ++ "/home")
      (cookieHeader "oidc_session" (sealedCookieOf (.session aliceSession) 3600)) ∅

/-- Where they are executed. -/
def aliceApps (reader : String) : Fin 3 → String
  | 0 => "a"
  | 1 => "a"
  | 2 => reader

theorem flowCookie_plain : ∀ c ∈ "oidc_session_flow".toList, c ∈ Rfc4648.digits Rfc4648.urlSafe := by
  have hchars : ∀ i : Fin "oidc_session_flow".toList.length,
      "oidc_session_flow".toList.get i ∈ Rfc4648.digits Rfc4648.urlSafe := by
    decide +kernel
  intro c hc
  obtain ⟨i, rfl⟩ := List.mem_iff_get.mp hc
  exact hchars i

theorem sessionCookie_plain : ∀ c ∈ "oidc_session".toList, c ∈ Rfc4648.digits Rfc4648.urlSafe := by
  intro c hc
  refine flowCookie_plain c ?_
  rw [show "oidc_session_flow" = "oidc_session" ++ "_flow" from rfl, String.toList_append]
  exact List.mem_append_left _ hc

theorem requestCookie_cookieHeader {path name value : String} {queryParams : HashMap (List String)}
    (hname : ∀ c ∈ name.toList, c ∈ Rfc4648.digits Rfc4648.urlSafe)
    (hvalue : ∀ c ∈ value.toList, c ∈ Rfc4648.digits Rfc4648.urlSafe) :
    requestCookie (browserRequest path (cookieHeader name value) queryParams) name = some value := by
  have hheader : (cookieHeader name value)["cookie"]? = some [name ++ "=" ++ value] := by
    rw [cookieHeader, HashMap.get_insert, if_pos rfl]
  show ((cookieHeader name value)["cookie"]?.bind List.head?).bind _ = _
  rw [hheader]
  exact readCookie_single hname hvalue

theorem validateClaims_alice (app nonce : String) :
    (appNode app).validateClaims (aliceClaims nonce) =
      if app = "a" then .ok () else .error "audience does not match client_id" := by
  have haud : (aliceClaims nonce)["aud"]? = some (.string "a") := by
    rw [aliceClaims, HashMap.get_insert, if_neg (by decide), HashMap.get_insert, if_pos rfl]
  have hjson : audienceContains (.string "a") app = decide ("a" = app) := rfl
  have hissuers : (appNode app).validIssuers = [] := rfl
  have hclaim : (appNode app).audienceClaim = "aud" := rfl
  have hrequired : (appNode app).audienceRequired = false := rfl
  have hmatch : (appNode app).audienceMatchClientId = true := rfl
  have hclient : (appNode app).clientId = some app := rfl
  unfold validateClaims
  simp only [hissuers, hclaim, hrequired, hmatch, hclient, haud, hjson, ne_eq, not_true_eq_false,
    if_false, if_true, false_and, Bool.false_eq_true, Option.getD_some, decide_eq_false_iff_not]
  by_cases happ : app = "a"
  · rw [if_pos happ, if_neg (not_not.mpr happ.symm)]
    rfl
  · rw [if_neg happ, if_pos (Ne.symm happ)]

/-- The calls of the first request. -/
def beginEvents : List OidcEvent :=
  [⟨⟨100, 0⟩, ⟨.random 32, List.replicate 32 1⟩⟩, ⟨⟨100, 0⟩, ⟨.random 32, List.replicate 32 2⟩⟩,
    ⟨⟨100, 0⟩, ⟨.random 32, List.replicate 32 3⟩⟩,
    ⟨⟨100, 0⟩, ⟨.sealCookie (CookieSealer.new "session-secret") (.flow aliceFlow) flowTtl,
      sealedCookieOf (.flow aliceFlow) 300⟩⟩]

/-- The answers of the provider. -/
def tokenResponse : OutboundResponse where
  status := 200
  headers := ∅
  body := asBytes (JsonText.toText (.object [("id_token", .string "id-token")]))

def keyFields : List (String × Json) :=
  [("keys", .array [.object [("e", .string "e"), ("kid", .string "k1"), ("kty", .string "RSA"),
    ("n", .string "n")]])]

def keysResponse : OutboundResponse where
  status := 200
  headers := ∅
  body := asBytes (JsonText.toText (.object keyFields))

def aliceKey : Jwk where
  kty := "RSA"
  kid := some "k1"
  alg := none
  n := some "n"
  e := some "e"
  x := none
  y := none
  crv := none

theorem readJwks_keysResponse : readJwks keysResponse = .ok [aliceKey] := by
  have hdepth : (Json.object keyFields).depth < 128 := by decide +kernel
  have hentries := JsonStructCodec.entries_toText keyFields
    ⟨⟨⟨by decide, trivial, trivial, trivial, trivial, trivial⟩, trivial⟩, trivial⟩ hdepth
  unfold readJwks
  rw [if_neg (show ¬ keysResponse.status ≠ 200 from not_not.mpr rfl)]
  rw [show JsonStructCodec.entries keysResponse.body = _ from hentries]
  rfl

theorem parse_tokenResponse :
    JsonCodec.parse tokenResponse.body = some (.object [("id_token", .string "id-token")]) :=
  JsonCodec.parse_toText (.object [("id_token", .string "id-token")]) ⟨by decide, trivial, trivial⟩
    (by decide +kernel)

/-- The calls of the callback. -/
def callbackEvents : List OidcEvent :=
  [⟨⟨100, 0⟩, ⟨.openCookie (CookieSealer.new "session-secret") (sealedCookieOf (.flow aliceFlow) 300),
      .ok (CookiePayload.flow aliceFlow).toVec⟩⟩,
    ⟨⟨100, 0⟩, ⟨.request ((appNode "a").exchangeRequest "https://idp.example.com/token" "c1"
      aliceFlow.verifier "https://example.com/a/callback"), .ok tokenResponse⟩⟩] ++
  (appNode "a").keyEvents ⟨100, 0⟩ "https://idp.example.com/jwks" keysResponse [aliceKey] ++
  [⟨⟨100, 0⟩, ⟨.unixNow, (100 : UInt64)⟩⟩,
    ⟨⟨100, 0⟩, ⟨.sealCookie (CookieSealer.new "session-secret") (.session aliceSession) 3600,
      sealedCookieOf (.session aliceSession) 3600⟩⟩]

/-- The call of the last request. -/
def readEvents : List OidcEvent :=
  [⟨⟨100, 0⟩, ⟨.openCookie (CookieSealer.new "session-secret") (sealedCookieOf (.session aliceSession) 3600),
      .ok (CookiePayload.session aliceSession).toVec⟩⟩]

section Token

attribute [local instance] aliceToken

theorem begin_ran : ∃ result, ((appNode "a").execute (aliceRequests "a" 0)).Ran beginEvents result := by
  have huri : requestUri (aliceRequests "a" 0) = aliceFlow.originalUri := by
    show requestUri (browserRequest "/a/home" ∅ ∅) = "/a/home"
    have hpairs : queryPairs (browserRequest "/a/home" ∅ ∅).request.queryParams = [] := rfl
    unfold requestUri
    rw [hpairs, List.mergeSort_nil]
    rfl
  have hstate : aliceFlow = {
      state := randomToken (List.replicate 32 1), nonce := randomToken (List.replicate 32 2)
      verifier := randomToken (List.replicate 32 3), originalUri := requestUri (aliceRequests "a" 0) } := by
    rw [huri]
    rfl
  unfold beginEvents
  rw [hstate]
  refine beginAuth_ran (show (appNode "a").interactive = some (appFlow "a") from rfl) (fun h => ?_)
    (fun h => ?_) ?_ rfl ⟨100, 0⟩ _ _ _ _
  · cases (show none = some _ from h)
  · have hpath : "/a/home" = "/" ++ "a" ++ "/callback" := h.1
    exact absurd hpath (by decide)
  · rw [requestCookie_stripUserinfo]
    rfl

/-- A callback that carries a flow cookie. -/
def callbackRequest (flowState : FlowState) (cookie : String) : Context :=
  browserRequest "/a/callback" (cookieHeader "oidc_session_flow" cookie)
    (((∅ : HashMap (List String)).insert "code" ["c1"]).insert "state" [flowState.state])

/-- The calls of a callback whose cookie was sealed for a flow state. -/
def callbackEventsOf (flowState : FlowState) (cookie : String) : List OidcEvent :=
  [⟨⟨100, 0⟩, ⟨.openCookie (CookieSealer.new "session-secret") cookie,
      .ok (CookiePayload.flow flowState).toVec⟩⟩,
    ⟨⟨100, 0⟩, ⟨.request ((appNode "a").exchangeRequest "https://idp.example.com/token" "c1"
      flowState.verifier "https://example.com/a/callback"), .ok tokenResponse⟩⟩] ++
  (appNode "a").keyEvents ⟨100, 0⟩ "https://idp.example.com/jwks" keysResponse [aliceKey] ++
  [⟨⟨100, 0⟩, ⟨.unixNow, (100 : UInt64)⟩⟩,
    ⟨⟨100, 0⟩, ⟨.sealCookie (CookieSealer.new "session-secret") (.session aliceSession) 3600,
      sealedCookieOf (.session aliceSession) 3600⟩⟩]

theorem checkToken_alice : (appNode "a").checkToken 100 "id-token" aliceKey =
    .ok (aliceClaims aliceFlow.nonce) := by
  have halgs : algsForKey (appNode "a").allowedAlgs aliceKey.kty = .ok [.rs256, .rs384, .rs512] := rfl
  have hvalid := validateClaims_alice "a" aliceFlow.nonce
  rw [if_pos rfl] at hvalid
  unfold checkToken
  rw [halgs]
  show (do
    (appNode "a").validateClaims (aliceClaims aliceFlow.nonce)
    return aliceClaims aliceFlow.nonce) = _
  rw [hvalid]
  rfl

/-- A callback with the nonce of the token ends in the session. -/
theorem callback_ran_flow {flowState : FlowState} {cookie : String}
    (hplain : ∀ c ∈ cookie.toList, c ∈ Rfc4648.digits Rfc4648.urlSafe)
    (hnonce : flowState.nonce = aliceFlow.nonce) (hstate : flowState.state ≠ "") :
    ∃ cookies, ((appNode "a").execute (callbackRequest flowState cookie)).Ran
      (callbackEventsOf flowState cookie)
      (redirect (stripUserinfo (callbackRequest flowState cookie)) (callbackTarget flowState) cookies) := by
  have hcookie : requestCookie (stripUserinfo (callbackRequest flowState cookie)) "oidc_session_flow" =
      some cookie := by
    rw [requestCookie_stripUserinfo]
    exact requestCookie_cookieHeader flowCookie_plain hplain
  have hquery : firstQuery (callbackRequest flowState cookie) "state" = some flowState.state := by
    show ((((∅ : HashMap (List String)).insert "code" ["c1"]).insert "state" [flowState.state])["state"]?).bind
      List.head? = _
    rw [HashMap.get_insert, if_pos rfl]
    rfl
  have hclaim : (aliceClaims aliceFlow.nonce)["nonce"]?.bind Json.asStr = some flowState.nonce := by
    rw [aliceClaims, HashMap.get_insert, if_pos rfl, hnonce]
    rfl
  have hcode : (((∅ : HashMap (List String)).insert "code" ["c1"]).insert "state"
      [flowState.state])["code"]? = some ["c1"] := by
    rw [HashMap.get_insert, if_neg (by decide), HashMap.get_insert, if_pos rfl]
  have hcallback : IsCallback (appFlow "a") (callbackRequest flowState cookie) := by
    refine ⟨show "/a/callback" = "/" ++ "a" ++ "/callback" by decide, ?_⟩
    show ((((∅ : HashMap (List String)).insert "code" ["c1"]).insert "state"
      [flowState.state])["code"]?).isSome
    rw [hcode]
    rfl
  have hlogout : ¬ IsLogout (appFlow "a") (callbackRequest flowState cookie) := fun h => by
    cases (show none = some _ from h)
  have hran := callback_ran (show (appNode "a").interactive = some (appFlow "a") from rfl) hlogout hcallback hcookie
    (FlowState.fromSlice_flow _) hquery hstate rfl rfl rfl parse_tokenResponse rfl rfl
    readJwks_keysResponse rfl ⟨100, 0⟩ checkToken_alice hclaim (sealedCookieOf (.session aliceSession) 3600)
  have hfirst : (firstQuery (callbackRequest flowState cookie) "code").getD "" = "c1" := by
    show ((((((∅ : HashMap (List String)).insert "code" ["c1"]).insert "state"
      [flowState.state])["code"]?).bind List.head?).getD "") = _
    rw [hcode]
    rfl
  rw [hfirst] at hran
  exact hran

theorem callback_ran_alice (hplain : ∀ bytes : Bytes, ∀ c ∈ (Base64Url.encode bytes).toList,
    c ∈ Rfc4648.digits Rfc4648.urlSafe) (hstate : aliceFlow.state ≠ "") :
    ∃ result, ((appNode "a").execute (aliceRequests "a" 1)).Ran callbackEvents result := by
  have hcookie : ∀ c ∈ (sealedCookieOf (.flow aliceFlow) 300).toList,
      c ∈ Rfc4648.digits Rfc4648.urlSafe := hplain _
  obtain ⟨cookies, hran⟩ := callback_ran_flow hcookie rfl hstate
  exact ⟨_, hran⟩

theorem aliceSession_canonical : aliceSession.claims.Canonical :=
  claimsValue_canonical fun k v h => by
    obtain ⟨s, rfl⟩ := aliceClaims_string h
    trivial

theorem aliceSession_depth : (Json.object aliceSession.entries).depth < 128 := by
  have hfields : ∀ fields : List (String × Json), (∀ field ∈ fields, ∃ s, field.2 = .string s) →
      Json.depthFields fields = 0 := by
    intro fields hfields
    induction fields with
    | nil => rfl
    | cons field fields ih =>
      obtain ⟨k, v⟩ := field
      obtain ⟨s, rfl⟩ := hfields (k, v) List.mem_cons_self
      show max 0 (Json.depthFields fields) = 0
      rw [ih fun f hf => hfields f (List.mem_cons_of_mem _ hf)]
      rfl
  have hclaims := hfields (aliceClaims aliceFlow.nonce).toList fun field hf =>
    aliceClaims_string (Std.ExtTreeMap.mem_toList_iff_getElem?_eq_some.mp hf)
  show 1 + max (1 + Json.depthFields (aliceClaims aliceFlow.nonce).toList) 0 < 128
  rw [hclaims]
  decide

theorem read_ran (hplain : ∀ bytes : Bytes, ∀ c ∈ (Base64Url.encode bytes).toList,
    c ∈ Rfc4648.digits Rfc4648.urlSafe) {reader : String} (hreader : reader = "a" ∨ reader = "b") :
    ((appNode reader).execute (aliceRequests reader 2)).Ran readEvents
      (.ok {
        context := (appNode reader).attachSession (stripUserinfo (aliceRequests reader 2)) {
          claims := aliceSession.claims.mapFloats JsonCodec.reread, accessToken := none }
        namedOutputs := ∅ }) := by
  have hcookie : requestCookie (stripUserinfo (aliceRequests reader 2)) "oidc_session" =
      some (sealedCookieOf (.session aliceSession) 3600) := by
    rw [requestCookie_stripUserinfo]
    exact requestCookie_cookieHeader sessionCookie_plain (hplain _)
  refine session_ran (show (appNode reader).interactive = some (appFlow reader) from rfl) (fun h => ?_) (fun h => ?_) hcookie
    (SessionData.fromSlice_session aliceSession_canonical aliceSession_depth) _
  · cases (show none = some _ from h)
  · have hpath : "/" ++ reader ++ "/home" = "/" ++ reader ++ "/callback" := h.1
    rcases hreader with rfl | rfl
    · exact absurd hpath (by decide)
    · exact absurd hpath (by decide)

theorem login_reaches (hplain : ∀ bytes : Bytes, ∀ c ∈ (Base64Url.encode bytes).toList,
    c ∈ Rfc4648.digits Rfc4648.urlSafe) (hstate : aliceFlow.state ≠ "") {reader : String}
    (hreader : reader = "a" ∨ reader = "b") :
    ∃ begun called, ∃ p : Pool (Fin 3) Stamp OidcCall.Answer PluginResult,
      Pool.Reaches (Answered (aliceApps reader)) (executions appNode (aliceApps reader)
        (aliceRequests reader)) p ∧
      p = (((Pool.start (executions appNode (aliceApps reader) (aliceRequests reader))).executed 0
        beginEvents begun).executed 1 callbackEvents called).executed 2 readEvents
          (.ok {
            context := (appNode reader).attachSession (stripUserinfo (aliceRequests reader 2)) {
              claims := aliceSession.claims.mapFloats JsonCodec.reread, accessToken := none }
            namedOutputs := ∅ }) := by
  obtain ⟨begun, hbegun⟩ := begin_ran
  obtain ⟨called, hcalled⟩ := callback_ran_alice hplain hstate
  refine ⟨begun, called, _, ?_, rfl⟩
  have hopenFlow := (CookieSealer.new "session-secret").openCookie_sealCookie 100 100
    ⟨List.replicate nonceLen 0, List.length_replicate⟩ (CookiePayload.flow aliceFlow).toVec 300
  have hopenSession := (CookieSealer.new "session-secret").openCookie_sealCookie 100 100
    ⟨List.replicate nonceLen 0, List.length_replicate⟩ (CookiePayload.session aliceSession).toVec 3600
  have hfirst : Pool.Reaches (Answered (aliceApps reader))
      (executions appNode (aliceApps reader) (aliceRequests reader))
      ((Pool.start (executions appNode (aliceApps reader) (aliceRequests reader))).executed 0
        beginEvents begun) := by
    refine Pool.Reaches.executed .refl rfl hbegun ⟨⟨?_, ?_⟩, ⟨?_, ?_⟩, ⟨?_, ?_⟩, ⟨?_, ?_⟩, trivial⟩
    any_goals exact List.length_replicate
    any_goals simp [Pool.start]
    exact ⟨_, List.length_replicate, rfl⟩
  have hsecond := Pool.Reaches.executed hfirst (show _ = (appNode "a").execute (aliceRequests "a" 1) from rfl)
    hcalled (i := 1) ?_
  · refine Pool.Reaches.executed hsecond rfl (read_ran hplain hreader) ⟨⟨?_, ?_, ?_⟩, trivial⟩
    · simp [Pool.start, Pool.executed, beginEvents, callbackEvents, keyEvents]
    · rw [sealedCookieOf, hopenSession]
      exact (if_neg (by decide)).symm
    · intro plaintext _
      refine ⟨(1, ⟨⟨100, 0⟩, ⟨.sealCookie (CookieSealer.new "session-secret") (.session aliceSession) 3600,
        sealedCookieOf (.session aliceSession) 3600⟩⟩), ?_, _, _, rfl⟩
      simp [Pool.start, Pool.executed, beginEvents, callbackEvents, keyEvents]
  · refine ⟨⟨?_, ?_, ?_⟩, ⟨?_, trivial⟩, ⟨?_, ?_⟩, ⟨?_, rfl⟩, ⟨?_, trivial⟩, ⟨?_, rfl⟩, ⟨?_, trivial⟩,
      ⟨?_, rfl⟩, ⟨?_, _, rfl⟩, trivial⟩
    any_goals simp [Pool.start, Pool.executed, beginEvents]
    · rw [sealedCookieOf, hopenFlow]
      exact (if_neg (by decide)).symm
    · intro plaintext _
      refine ⟨(0, ⟨⟨100, 0⟩, ⟨.sealCookie (CookieSealer.new "session-secret") (.flow aliceFlow) flowTtl,
        sealedCookieOf (.flow aliceFlow) 300⟩⟩), ?_, _, _, rfl⟩
      simp
    · rfl

end Token

end Example

/-! ## Logins are bound to the browser that started them -/

section Bound

variable [Sha256] [Aes256Gcm] [Base64Url] [Base64Codec] [JsonStructCodec] [JsonWebToken]
  [DurationText] {ι N : Type} [DecidableEq ι] [DecidableEq N]
  {nodes : N → OpenidConnectPlugin} {node : ι → N} {ctx : ι → Context}
  {p : Pool ι Stamp OidcCall.Answer PluginResult}

variable (nodes node ctx) in
/-- The session that request `i` ends with belongs to the login that its own flow cookie started:
    request `j` began it, `flowState` is what it sealed, `cookie` the sealed value. -/
structure LoginOf (before : List (ι × OidcEvent)) (i : ι) (session : SessionData) (flow : Interactive)
    (flowState : FlowState) (cookie : String) (j : ι) (begun opened : OidcEvent) (idToken : String)
    (claims : HashMap Json) : Prop where
  interactive : (nodes (node i)).interactive = some flow
  callback : IsCallback flow (ctx i)
  carried : requestCookie (ctx i) flow.flowCookie = some cookie
  /-- `begin_auth` of an earlier request sealed it, of its own random bytes -/
  sealedBefore : ∃ older later, before = older ++ (j, begun) :: later ∧ (i, opened) ∈ later ∧
    begun.what = ⟨.sealCookie flow.sealer (.flow flowState) flowTtl, cookie⟩ ∧
    Began (ctx j) (own j older) flowState
  openedAs : opened.what = ⟨.openCookie flow.sealer cookie, .ok (CookiePayload.flow flowState).toVec⟩
  unexpired : opened.time.unix ≤ saturatingAdd begun.time.unix flowTtl
  state : firstQuery (ctx i) "state" = some flowState.state ∧ flowState.state ≠ ""
  /-- the code was redeemed with the verifier, for the token -/
  exchanged : ∃ endpoint resp tokens,
    Did (own i before) (.request ((nodes (node i)).exchangeRequest endpoint
      ((firstQuery (ctx i) "code").getD "") flowState.verifier flow.redirectUri)) (.ok resp) ∧
    JsonCodec.parse resp.body = some tokens ∧ (tokens.get "id_token").bind Json.asStr = some idToken
  /-- the token was verified under a key of the provider -/
  validated : ∃ kid keys jwk now k, JsonWebToken.decodeHeader idToken = .ok kid ∧ node k = node i ∧
    (nodes (node i)).KeysFetched (own k before) keys ∧ selectJwk keys kid = some jwk ∧
    Did (own i before) .unixNow now ∧ (nodes (node i)).checkToken now idToken jwk = .ok claims
  nonce : claims["nonce"]?.bind Json.asStr = some flowState.nonce
  claimsSealed : session.claims = claimsValue claims

/-- What the claims of a checked token are: accepted, and JSON values. -/
theorem checkToken_spec {plugin : OpenidConnectPlugin} {now : UInt64} {token : String} {jwk : Jwk}
    {claims : HashMap Json} (h : plugin.checkToken now token jwk = .ok claims) :
    plugin.validateClaims claims = .ok () ∧ (claimsValue claims).Canonical := by
  unfold checkToken at h
  cases hkey : jwkToDecodingKey jwk with
  | error e =>
    rw [hkey] at h
    cases h
  | ok key =>
    cases halgs : algsForKey plugin.allowedAlgs jwk.kty with
    | error e =>
      rw [hkey, halgs] at h
      cases h
    | ok algs =>
      cases hdecode : decodeAndValidate now token key algs with
      | error e =>
        rw [hkey, halgs] at h
        simp only [bind, Except.bind, hdecode] at h
        cases h
      | ok found =>
        cases hvalid : plugin.validateClaims found with
        | error e =>
          rw [hkey, halgs] at h
          simp only [bind, Except.bind, hdecode, hvalid] at h
          cases h
        | ok _ =>
          rw [hkey, halgs] at h
          simp only [bind, Except.bind, hdecode, hvalid] at h
          obtain rfl := Except.ok.inj h
          refine ⟨hvalid, claimsValue_canonical fun k v hv => ?_⟩
          unfold decodeAndValidate at hdecode
          split at hdecode
          · rename_i claims hclaims
            obtain rfl := Except.ok.inj hdecode
            exact JsonWebToken.decode_canonical hclaims k v hv
          · cases hdecode

theorem readIntrospection_accepts {plugin : OpenidConnectPlugin} {resp : OutboundResponse}
    {claims : HashMap Json} (h : plugin.readIntrospection resp = .ok claims) :
    plugin.validateClaims claims = .ok () := by
  unfold readIntrospection at h
  split at h
  · cases h
  · cases hparse : parseIntrospection resp.body with
    | error e =>
      simp only [bind, Except.bind, hparse] at h
      cases h
    | ok found =>
      cases hvalid : plugin.validateClaims found with
      | error e =>
        simp only [bind, Except.bind, hparse, hvalid] at h
        cases h
      | ok _ =>
        simp only [bind, Except.bind, hparse, hvalid] at h
        rw [← Except.ok.inj h]
        exact hvalid

/-- A session that was sealed is made of canonical claims its node accepts. -/
theorem Completed.claims {plugin : OpenidConnectPlugin} {flow : Interactive} {ctx : Context}
    {past : List OidcEvent} {flowState : FlowState} {session : SessionData}
    (h : plugin.Completed flow ctx past flowState session) :
    ∃ claims, session.claims = claimsValue claims ∧ plugin.validateClaims claims = .ok () ∧
      (claimsValue claims).Canonical := by
  obtain ⟨endpoint, resp, tokens, idToken, claims, -, -, -, htoken, -, rfl⟩ := h.token
  obtain ⟨kid, keys, jwk, now, -, -, -, -, hcheck⟩ := htoken
  obtain ⟨hvalid, hcanonical⟩ := checkToken_spec hcheck
  exact ⟨claims, rfl, hvalid, hcanonical⟩

/-- A session is issued only at the end of the login that the flow cookie of the same request started. -/
theorem session_bound (hreach : Pool.Reaches (Answered node) (executions nodes node ctx) p)
    {before after : List (ι × OidcEvent)} {i : ι} {e : OidcEvent} {sealer : CookieSealer}
    {session : SessionData} {ttl : UInt64} {value : String}
    (hissued : p.history = before ++ (i, e) :: after)
    (hwhat : e.what = ⟨.sealCookie sealer (.session session) ttl, value⟩) :
    ∃ flow flowState cookie j begun opened idToken claims,
      LoginOf nodes node ctx before i session flow flowState cookie j begun opened idToken claims := by
  have hanswered := hreach.answered
  have hcalls := (hreach.keeps fun i => execute_keeps (nodes (node i)) (ctx i)).2
  have hallowed : (nodes (node i)).Allowed (stripUserinfo (ctx i)) (own i before) e.what.1 :=
    hcalls before i e after hissued
  rw [hwhat] at hallowed
  obtain ⟨flow, hflow, rfl, ⟨flowState, hcompleted⟩, -⟩ := hallowed
  obtain ⟨bytes, ⟨cookie, hcookie, opened, hopened, hopen⟩, hread⟩ := hcompleted.opened
  obtain ⟨earlier, later, rfl⟩ := split_of_mem hopened
  -- the flow cookie was sealed before it was opened
  have hwhere : p.history = earlier ++ (i, opened) :: (later ++ (i, e) :: after) := by
    rw [hissued]
    simp
  obtain ⟨older, j, begun, between, payload, ttl', rfl, hseal, rfl, hexpiry⟩ :=
    opened_sealed hanswered hwhere hopen
  have hbegun : (nodes (node j)).Allowed (stripUserinfo (ctx j)) (own j older) begun.what.1 :=
    hcalls older j begun _ (by rw [hwhere, List.append_assoc, List.cons_append])
  rw [hseal] at hbegun
  obtain ⟨flow', -, -, hfor⟩ := hbegun
  -- of the two kinds of cookies it is a flow cookie
  cases payload with
  | session other =>
    obtain ⟨⟨_, hother⟩, -⟩ := hfor
    obtain ⟨claims, hclaims, -, hcanonical⟩ := hother.claims
    rw [FlowState.fromSlice_session (hclaims ▸ hcanonical)] at hread
    cases hread
  | flow data =>
    obtain ⟨hbegan, rfl⟩ := hfor
    rw [FlowState.fromSlice_flow] at hread
    obtain rfl := Option.some.inj hread
    obtain ⟨endpoint, resp, tokens, idToken, claims, hexchange, hparse, htoken, hvalidated, hnonce,
      hsession⟩ := hcompleted.token
    obtain ⟨kid, keys, jwk, now, hheader, hkeys, hselect, hnow, hcheck⟩ := hvalidated
    obtain ⟨k, hk, hfetched⟩ := keys_fetched hanswered hcalls hissued hkeys
    refine ⟨flow, data, cookie, j, begun, opened, idToken, claims, hflow, hcompleted.callback, ?_, ?_,
      hopen, hexpiry, hcompleted.state, ⟨endpoint, resp, tokens, hexchange, hparse, htoken⟩,
      ⟨kid, keys, jwk, now, k, hheader, hk, hfetched, hselect, hnow, hcheck⟩, hnonce, ?_⟩
    · rw [← requestCookie_stripUserinfo]
      exact hcookie
    · exact ⟨older, between ++ (i, opened) :: later, by simp, by simp, hseal, hbegan⟩
    · rw [hsession]

end Bound

/-- The session of the login is bound to it. -/
theorem session_bound_login :
    let _ : Sha256 := cutDigest
    let _ : Aes256Gcm := keyTagged
    let _ : Base64Url := urlSafeBase64
    let _ : Base64Codec := standardBase64
    let _ : JsonStructCodec := compactStructs
    let _ : DurationText := ⟨fun _ => "3s"⟩
    let _ : JsonWebToken := aliceToken
    ∃ before flow flowState cookie j begun opened idToken claims,
      LoginOf appNode (aliceApps "a") (aliceRequests "a") before 1 aliceSession flow flowState cookie j
        begun opened idToken claims := by
  intro _ _ _ _ _ _ _
  obtain ⟨begun, called, p, hreach, rfl⟩ := login_reaches Rfc4648.mem_digits_encodeBytes
    (by decide +kernel) (Or.inl rfl : "a" = "a" ∨ "a" = "b")
  have hissued : [] ++ beginEvents.map (fun e => ((0 : Fin 3), e)) ++
      callbackEvents.map (fun e => ((1 : Fin 3), e)) ++ readEvents.map (fun e => ((2 : Fin 3), e)) =
      (beginEvents.map (fun e => (0, e)) ++ (callbackEvents.take 8).map fun e => (1, e)) ++
        (1, ⟨⟨100, 0⟩, ⟨.sealCookie (CookieSealer.new "session-secret") (.session aliceSession) 3600,
          sealedCookieOf (.session aliceSession) 3600⟩⟩) :: readEvents.map fun e => (2, e) := rfl
  exact ⟨_, session_bound hreach hissued rfl⟩

/-! ## Sessions and the rules of the node that reads them -/

section Trusted

variable [Sha256] [Aes256Gcm] [Base64Url] [Base64Codec] [JsonStructCodec] [JsonWebToken]
  [DurationText] {ι N : Type} [DecidableEq ι] [DecidableEq N]
  {nodes : N → OpenidConnectPlugin} {node : ι → N} {ctx : ι → Context}
  {p : Pool ι Stamp OidcCall.Answer PluginResult}

/-- The second node accepts whatever claims the first one does. -/
def Covers (m n : OpenidConnectPlugin) : Prop :=
  ∀ claims, m.validateClaims claims = .ok () → n.validateClaims claims = .ok ()

/-- The same issuers, audience rules and client. -/
theorem covers_of_rules {m n : OpenidConnectPlugin} (hissuers : m.validIssuers = n.validIssuers)
    (hclaim : m.audienceClaim = n.audienceClaim) (hrequired : m.audienceRequired = n.audienceRequired)
    (hmatch : m.audienceMatchClientId = n.audienceMatchClientId) (hclient : m.clientId = n.clientId) :
    Covers m n := by
  intro claims h
  unfold validateClaims at h ⊢
  rw [← hissuers, ← hclaim, ← hrequired, ← hmatch, ← hclient]
  exact h

variable (nodes node) in
/-- Of the session cookies the request brings, each comes from a node whose rules the reading node's
    rules follow from. -/
def FromCovered (history : List (ι × OidcEvent)) (i : ι) (e : OidcEvent) : Prop :=
  ∀ sealer value, e.what.1 = .openCookie sealer value →
    ∀ entry ∈ history, ∀ session ttl,
      entry.2.what = ⟨.sealCookie sealer (.session session) ttl, value⟩ →
      Covers (nodes (node entry.1)) (nodes (node i))

theorem asStr_mapFloats (f : F64 → F64) (v : Json) : (v.mapFloats f).asStr = v.asStr := by
  cases v with
  | number n => cases n <;> rfl
  | _ => rfl

theorem audienceContains_mapFloats (f : F64 → F64) (aud : Json) (clientId : String) :
    audienceContains (aud.mapFloats f) clientId = audienceContains aud clientId := by
  cases aud with
  | array items =>
    show (Json.mapFloatsItems f items).any _ = items.any _
    induction items with
    | nil => rfl
    | cons v items ih =>
      rw [Json.mapFloatsItems, List.any_cons, List.any_cons, ih, asStr_mapFloats]
  | number n => cases n <;> rfl
  | _ => rfl

/-- The rules read no floats. -/
theorem validateClaims_map (plugin : OpenidConnectPlugin) (f : F64 → F64) (claims : HashMap Json) :
    plugin.validateClaims (claims.map fun _ v => v.mapFloats f) = plugin.validateClaims claims := by
  have hiss : ((claims.map fun _ v => v.mapFloats f)["iss"]?).bind Json.asStr =
      claims["iss"]?.bind Json.asStr := by
    rw [Std.ExtTreeMap.getElem?_map]
    cases claims["iss"]? with
    | none => rfl
    | some v => exact asStr_mapFloats f v
  unfold validateClaims
  rw [hiss, Std.ExtTreeMap.getElem?_map]
  cases claims[plugin.audienceClaim]? with
  | none => rfl
  | some aud => simp only [Option.map_some, audienceContains_mapFloats, reduceCtorEq]

theorem mapFloats_claimsValue (f : F64 → F64) (claims : HashMap Json) :
    (claimsValue claims).mapFloats f = claimsValue (claims.map fun _ v => v.mapFloats f) := by
  have hfields : ∀ fields : List (String × Json),
      Json.mapFloatsFields f fields = fields.map fun field => (field.1, field.2.mapFloats f) := by
    intro fields
    induction fields with
    | nil => rfl
    | cons field fields ih => rw [Json.mapFloatsFields, ih, List.map_cons]
  show Json.object _ = Json.object _
  rw [hfields, Std.ExtTreeMap.toList_map]

/-- The claims a context carries. -/
def Carries (ctx : Context) (claims : HashMap Json) : Prop :=
  ctx.message["jwt_claims"]? = some (claimsValue claims)

theorem setMessage_claims (message : HashMap Json) (sub : Option Json) (claims : Json) :
    (setMessage message sub claims)["jwt_claims"]? = some claims := by
  unfold setMessage
  rw [HashMap.get_insert, if_pos rfl]

/-- In runs where sessions come from nodes at least as strict, what a node lets through carries claims
    it accepts itself. -/
theorem let_through_accepted
    (hreach : Pool.Reaches (fun history i e => Answered node history i e ∧
      FromCovered nodes node history i e) (executions nodes node ctx) p)
    {i : ι} {output : PluginOutput} (hdone : p.tasks i = .done (.ok output)) :
    ∃ claims, Carries output.context claims ∧ (nodes (node i)).validateClaims claims = .ok () := by
  have hboth := hreach.answered
  have hanswered : Each (Answered node) p.history := fun before i e after h =>
    (hboth before i e after h).1
  obtain ⟨htasks, hcalls⟩ := hreach.keeps fun i => execute_keeps (nodes (node i)) (ctx i)
  have hresult := htasks i
  rw [hdone] at hresult
  obtain ⟨identity, hestablished, hcontext⟩ := hresult
  rw [hcontext]
  cases identity with
  | token claims token =>
    obtain ⟨-, -, hvalidated⟩ := hestablished
    refine ⟨claims, setMessage_claims _ _ _, ?_⟩
    split at hvalidated
    · obtain ⟨kid, keys, jwk, now, -, -, -, -, hcheck⟩ := hvalidated
      exact (checkToken_spec hcheck).1
    · obtain ⟨endpoint, resp, -, hread⟩ := hvalidated
      exact readIntrospection_accepts hread
  | session session =>
    obtain ⟨flow, bytes, -, ⟨cookie, -, opened, hopened, hopen⟩, hread⟩ := hestablished
    obtain ⟨before, after, hsplit⟩ := split_of_mem hopened
    obtain ⟨older, j, issued, between, payload, ttl, rfl, hseal, rfl, -⟩ :=
      opened_sealed hanswered hsplit hopen
    have hissued : (nodes (node j)).Allowed (stripUserinfo (ctx j)) (own j older) issued.what.1 :=
      hcalls older j issued _ (by rw [hsplit, List.append_assoc, List.cons_append])
    rw [hseal] at hissued
    obtain ⟨flow', -, -, hfor⟩ := hissued
    cases payload with
    | flow data =>
      rw [SessionData.fromSlice_flow] at hread
      cases hread
    | session data =>
      obtain ⟨⟨flowState, hcompleted⟩, -⟩ := hfor
      obtain ⟨claims, hclaims, hvalid, hcanonical⟩ := hcompleted.claims
      have hcovers := (hboth _ _ _ _ hsplit).2 flow.sealer cookie (congrArg Sigma.fst hopen) (j, issued)
        (List.mem_append_right _ List.mem_cons_self) data ttl hseal
      have hback := SessionData.eq_of_fromSlice (hclaims ▸ hcanonical) hread
      refine ⟨claims.map fun _ v => v.mapFloats JsonCodec.reread, ?_, ?_⟩
      · show (setMessage _ _ session.claims)["jwt_claims"]? = _
        rw [setMessage_claims, hback, hclaims, mapFloats_claimsValue]
      · rw [validateClaims_map]
        exact hcovers claims hvalid

end Trusted

/-- A session read at the node that issued it. -/
theorem let_through_accepted_session :
    let _ : Sha256 := cutDigest
    let _ : Aes256Gcm := keyTagged
    let _ : Base64Url := urlSafeBase64
    let _ : Base64Codec := standardBase64
    let _ : JsonStructCodec := compactStructs
    let _ : DurationText := ⟨fun _ => "3s"⟩
    let _ : JsonWebToken := aliceToken
    ∃ (output : PluginOutput) (claims : HashMap Json), Carries output.context claims ∧
      (appNode "a").validateClaims claims = .ok () := by
  intro _ _ _ _ _ _ _
  obtain ⟨begun, called, p, hreach, rfl⟩ := login_reaches Rfc4648.mem_digits_encodeBytes
    (by decide +kernel) (Or.inl rfl : "a" = "a" ∨ "a" = "b")
  have hnode : ∀ i, aliceApps "a" i = "a" := by decide
  have hcovered : ∀ history i e, FromCovered appNode (aliceApps "a") history i e := by
    intro history i e sealer value _ entry _ session ttl _ claims h
    rw [hnode] at h ⊢
    exact h
  exact ⟨_, let_through_accepted (hreach.mono fun history i e h => ⟨h, hcovered history i e⟩)
    (i := 2) rfl⟩

/-- Two apps with one secret and the default cookie names: the second lets a session of the first
    through, although the token was issued to another client. -/
theorem foreign_session_let_through :
    let _ : Sha256 := cutDigest
    let _ : Aes256Gcm := keyTagged
    let _ : Base64Url := urlSafeBase64
    let _ : Base64Codec := standardBase64
    let _ : JsonStructCodec := compactStructs
    let _ : DurationText := ⟨fun _ => "3s"⟩
    let _ : JsonWebToken := aliceToken
    fromConfig (appConfig "a") = .ok (appNode "a") ∧ fromConfig (appConfig "b") = .ok (appNode "b") ∧
    ∃ (p : Pool (Fin 3) Stamp OidcCall.Answer PluginResult) (output : PluginOutput)
      (claims : HashMap Json),
      Pool.Reaches (Answered (aliceApps "b")) (executions appNode (aliceApps "b") (aliceRequests "b")) p ∧
      aliceApps "b" 2 = "b" ∧ p.tasks 2 = .done (.ok output) ∧ Carries output.context claims ∧
      (appNode "b").validateClaims claims = .error "audience does not match client_id" := by
  intro _ _ _ _ _ _ _
  obtain ⟨begun, called, p, hreach, rfl⟩ := login_reaches Rfc4648.mem_digits_encodeBytes
    (by decide +kernel) (Or.inr rfl : "b" = "a" ∨ "b" = "b")
  refine ⟨by decide +kernel, by decide +kernel, _, _,
    (aliceClaims aliceFlow.nonce).map fun _ v => v.mapFloats JsonCodec.reread, hreach, rfl, rfl, ?_, ?_⟩
  · show (setMessage _ _ ((claimsValue (aliceClaims aliceFlow.nonce)).mapFloats _))["jwt_claims"]? = _
    rw [setMessage_claims, mapFloats_claimsValue]
  · rw [validateClaims_map, validateClaims_alice]
    exact if_neg (by decide)


end OpenidConnectPlugin

end Featherbit
