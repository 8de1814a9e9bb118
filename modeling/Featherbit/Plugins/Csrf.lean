/-
  THE `csrf` NODE (`plugins/native/csrf.rs`): a signed token that must come back in both a cookie
  and a header.

  What is signed is the random field followed by the decimal time, with nothing between the two.
  Of an accepted token only that joint text is known to have been issued (`joined_of_accepted`);
  where the one field ends and the other starts is left to the token.  The issued random fields
  all have 32 bytes, so the cut is the issued one exactly if the token's has, too
  (`accepted_issued_iff`); with a shorter one, digits move over into the time
  (`recut_token_accepted`).

  Clock readings and random bytes are arguments.  Hex decoding slices the text, which panics
  inside a character: the functions on top of it are `none` then.
-/
import Featherbit.Json.Text
import Featherbit.Lib.Multimap
import Featherbit.Plugins
import Featherbit.Rust.Base64
import Featherbit.Rust.Ring
import Featherbit.Vars

namespace Featherbit

/-! ## Hex -/

def hexDigitOf (n : Nat) : Char := "0123456789abcdef".toList.getD n '0'

/-- `hex_encode`. -/
def hexEncode (bytes : Bytes) : String :=
  String.ofList (bytes.flatMap fun b => [hexDigitOf (b.toNat / 16), hexDigitOf (b.toNat % 16)])

/-- `u8::from_str_radix` on two characters: a plus sign may stand before a digit. -/
def fromHexPair (c d : Char) : Option UInt8 :=
  if c = '+' then
    if d.toNat < 128 then Vars.hexVal (UInt8.ofNat d.toNat) else none
  else if c.toNat < 128 ∧ d.toNat < 128 then do
    let high ← Vars.hexVal (UInt8.ofNat c.toNat)
    let low ← Vars.hexVal (UInt8.ofNat d.toNat)
    some (high * 16 + low)
  else none

/-- Two bytes at a time, up to the first pair that is no number. -/
def hexPairs : List Char → Option (Option Bytes)
  | [] => some (some [])
  | [c] => if 2 < c.utf8Size then none else some none
  | c :: d :: rest =>
    if 2 < c.utf8Size then none
    -- the slice is this one character
    else if c.utf8Size = 2 then some none
    else if 1 < d.utf8Size then none
    else
      match fromHexPair c d with
      | none => some none
      | some b => (hexPairs rest).map fun bytes => bytes.map (b :: ·)

/-- `hex_decode`. -/
def hexDecode (s : String) : Option (Option Bytes) :=
  if s.utf8ByteSize % 2 = 0 then hexPairs s.toList else some none

theorem utf8ByteSize_ascii (l : List Char) (h : ∀ c ∈ l, c.utf8Size = 1) :
    (String.ofList l).utf8ByteSize = l.length := by
  induction l with
  | nil => rfl
  | cons c l ih =>
    rw [String.ofList_cons, String.utf8ByteSize_append, String.utf8ByteSize_singleton,
      h c List.mem_cons_self, ih fun d hd => h d (List.mem_cons_of_mem _ hd), List.length_cons]
    omega

theorem hexDigitOf_spec (b : UInt8) :
    (hexDigitOf (b.toNat / 16)).utf8Size = 1 ∧ (hexDigitOf (b.toNat % 16)).utf8Size = 1 ∧
      fromHexPair (hexDigitOf (b.toNat / 16)) (hexDigitOf (b.toNat % 16)) = some b := by
  have hall : ∀ n < 256, (hexDigitOf (n / 16)).utf8Size = 1 ∧ (hexDigitOf (n % 16)).utf8Size = 1 ∧
      fromHexPair (hexDigitOf (n / 16)) (hexDigitOf (n % 16)) = some (UInt8.ofNat n) := by
    decide +kernel
  have hb := hall b.toNat b.toNat_lt
  rwa [UInt8.ofNat_toNat] at hb

theorem hexPairs_hexEncode (bytes : Bytes) : hexPairs (hexEncode bytes).toList = some (some bytes) := by
  rw [hexEncode, String.toList_ofList]
  induction bytes with
  | nil => rfl
  | cons b bytes ih =>
    obtain ⟨hhigh, hlow, hb⟩ := hexDigitOf_spec b
    rw [List.flatMap_cons, List.cons_append, List.cons_append, List.nil_append, hexPairs,
      if_neg (by omega), if_neg (by omega), if_neg (by omega), hb]
    show (hexPairs _).map _ = _
    rw [ih]
    rfl

theorem utf8ByteSize_hexEncode (bytes : Bytes) : (hexEncode bytes).utf8ByteSize = 2 * bytes.length := by
  rw [hexEncode, utf8ByteSize_ascii]
  · rw [List.length_flatMap]
    simp [Nat.mul_comm]
  · intro c hc
    obtain ⟨b, -, hmem⟩ := List.mem_flatMap.mp hc
    obtain ⟨hhigh, hlow, -⟩ := hexDigitOf_spec b
    rcases List.mem_cons.mp hmem with rfl | hmem
    · exact hhigh
    · rw [List.mem_singleton.mp hmem]
      exact hlow

theorem hexDecode_hexEncode (bytes : Bytes) : hexDecode (hexEncode bytes) = some (some bytes) := by
  rw [hexDecode, utf8ByteSize_hexEncode, if_pos (by omega), hexPairs_hexEncode]

/-! ## The node -/

/-- Which side of the exchange a node handles. -/
inductive CsrfPhase where
  | request
  | response
deriving DecidableEq

structure CsrfPlugin where
  key : Bytes
  /-- token lifetime in seconds; `0` disables the expiry check -/
  expires : UInt64
  /-- cookie and header name carrying the token -/
  name : String
  phase : CsrfPhase

/-- What a token is made from: the random bytes and the time. -/
structure CsrfDraw where
  random : Bytes
  ts : UInt64
  size : random.length = 16

namespace CsrfPlugin

/-- `CsrfPlugin::from_config`. -/
def fromConfig [CaseMapping] (config : HashMap Json) : Except String CsrfPlugin := do
  let secret ←
    match (config["key"]?.bind Json.asStr).filter (· ≠ "") with
    | some secret => .ok secret
    | none => .error "csrf: key is required and must be a non-empty string"
  let expires ←
    match config["expires"]? with
    | none => .ok 7200
    | some v =>
      match v.asU64 with
      | some n => .ok n
      | none => .error "csrf: expires must be a non-negative integer"
  return {
    key := asBytes secret
    expires := expires
    name := toLowercase
      (((config["name"]?.bind Json.asStr).filter (· ≠ "")).getD "featherbit-csrf-token")
    phase := if config["phase"]?.bind Json.asStr = some "response" then .response else .request
  }

/-- What a signature is over. -/
def signedText (random : String) (expires : UInt64) : String := random ++ showNat expires.toNat

/-- Where the random fields are of one length, the joint text gives both fields back. -/
theorem eq_of_signedText {random random' : String} {expires expires' : UInt64}
    (hsize : random.utf8ByteSize = random'.utf8ByteSize)
    (h : signedText random expires = signedText random' expires') :
    random = random' ∧ expires = expires' := by
  have hbytes : asBytes random ++ asBytes (showNat expires.toNat) =
      asBytes random' ++ asBytes (showNat expires'.toNat) := by
    rw [← asBytes_append, ← asBytes_append]
    exact congrArg asBytes h
  obtain ⟨hrandom, hexpires⟩ := List.append_inj hbytes hsize
  refine ⟨asBytes_inj.mp hrandom, ?_⟩
  have hnat := showNat_inj.mp (asBytes_inj.mp hexpires)
  exact UInt64.toNat_inj.mp hnat

/-- `now.saturating_sub(then)`. -/
def elapsed (now issued : UInt64) : UInt64 := if issued ≤ now then now - issued else 0

section Tokens

variable [Base64Codec] [JsonCodec]

/-- The token of three fields. -/
def encodeToken (random : String) (expires : UInt64) (signature : String) : String :=
  Base64Codec.encode (asBytes (JsonText.toText (.object [
    ("expires", .number (.posInt expires)),
    ("random", .string random),
    ("sign", .string signature)])))

/-- The JSON a token carries. -/
def readToken (token : String) : Option Json :=
  match Base64.decode (asBytes token) with
  | .ok decoded => JsonCodec.parse decoded
  | .error _ => none

/-- The pair a token decodes to. -/
def tokenPair (token : String) : Option (String × UInt64) := do
  let parsed ← readToken token
  let random ← (parsed.get "random").bind Json.asStr
  let expires ← (parsed.get "expires").bind Json.asU64
  some (random, expires)

/-- The tag a token shows. -/
def tokenTag (token : String) : Option Bytes := do
  let parsed ← readToken token
  let signature ← (parsed.get "sign").bind Json.asStr
  (hexDecode signature).bind id

/-- The pair the token decodes to was issued. -/
def PairIssued (issued : Set CsrfDraw) (token : String) : Prop :=
  ∃ draw ∈ issued, tokenPair token = some (hexEncode draw.random, draw.ts)

/-- The random field of the token has 32 bytes, as every one that is issued. -/
def FullRandom (token : String) : Prop :=
  ∃ random expires, tokenPair token = some (random, expires) ∧ random.utf8ByteSize = 32

theorem readToken_encodeToken (random : String) (expires : UInt64) (signature : String) :
    readToken (encodeToken random expires signature) =
      some (.object [("expires", .number (.posInt expires)), ("random", .string random),
        ("sign", .string signature)]) := by
  rw [readToken, encodeToken, Base64Codec.decode_encode]
  refine JsonCodec.parse_toText _ ⟨?_, trivial, trivial, trivial, trivial⟩ ?_
  · show List.Pairwise (· < ·) ["expires", "random", "sign"]
    decide +kernel
  · show 1 + max 0 (max 0 (max 0 0)) < 128
    omega

theorem tokenPair_encodeToken (random : String) (expires : UInt64) (signature : String) :
    tokenPair (encodeToken random expires signature) = some (random, expires) := by
  rw [tokenPair, readToken_encodeToken]
  rfl

theorem tokenTag_encodeToken (random : String) (expires : UInt64) (tag : Bytes) :
    tokenTag (encodeToken random expires (hexEncode tag)) = some tag := by
  rw [tokenTag, readToken_encodeToken]
  show (hexDecode (hexEncode tag)).bind id = _
  rw [hexDecode_hexEncode]
  rfl

end Tokens

section Sign

variable [Hmac] (plugin : CsrfPlugin)

/-- The tag of the two fields. -/
def tag (random : String) (expires : UInt64) : Bytes :=
  Hmac.sign .sha256 plugin.key (asBytes (signedText random expires))

/-- `sign`. -/
def sign (random : String) (expires : UInt64) : String := hexEncode (plugin.tag random expires)

variable [Base64Codec] [JsonCodec]

/-- `token_at`. -/
def tokenAt (draw : CsrfDraw) : String :=
  encodeToken (hexEncode draw.random) draw.ts (plugin.sign (hexEncode draw.random) draw.ts)

/-- `check_token`. -/
def checkToken (now : UInt64) (token : String) : Option Bool :=
  match readToken token with
  | none => some false
  | some parsed =>
  match (parsed.get "random").bind Json.asStr with
  | none => some false
  | some random =>
  match (parsed.get "expires").bind Json.asU64 with
  | none => some false
  | some expires =>
  if 0 < plugin.expires ∧ plugin.expires < elapsed now expires then some false
  else
  match (parsed.get "sign").bind Json.asStr with
  | none => some false
  | some signature =>
    (hexDecode signature).map fun
      | none => false
      | some bytes => Hmac.verify .sha256 plugin.key (asBytes (signedText random expires)) bytes

/-! ### What an accepted token says -/

/-- The fields of an accepted token, and that the tag is theirs. -/
theorem accepted_fields {now : UInt64} {token : String}
    (h : plugin.checkToken now token = some true) :
    ∃ random expires, tokenPair token = some (random, expires) ∧
      tokenTag token = some (plugin.tag random expires) := by
  unfold checkToken at h
  unfold tokenPair tokenTag
  cases hparsed : readToken token with
  | none => simp [hparsed] at h
  | some parsed =>
    cases hrandom : (parsed.get "random").bind Json.asStr with
    | none => simp [hparsed, hrandom] at h
    | some random =>
      cases hexpires : (parsed.get "expires").bind Json.asU64 with
      | none => simp [hparsed, hrandom, hexpires] at h
      | some expires =>
        simp only [hparsed, hrandom, hexpires] at h
        split at h
        · cases h
        · cases hsign : (parsed.get "sign").bind Json.asStr with
          | none => simp [hsign] at h
          | some signature =>
            obtain ⟨decoded, hdecoded, hverify⟩ := Option.map_eq_some_iff.mp (hsign ▸ h)
            refine ⟨random, expires, ?_, ?_⟩
            · simp [hrandom, hexpires]
            · cases decoded with
              | none => cases hverify
              | some bytes =>
                have hbytes : plugin.tag random expires = bytes := of_decide_eq_true hverify
                simp [hsign, hdecoded, hbytes]

/-- A token with the tag of its fields is accepted until it is too old. -/
theorem checkToken_encodeToken (now : UInt64) (random : String) (expires : UInt64) (tag : Bytes) :
    plugin.checkToken now (encodeToken random expires (hexEncode tag)) =
      some (!decide (0 < plugin.expires ∧ plugin.expires < elapsed now expires) &&
        decide (plugin.tag random expires = tag)) := by
  rw [checkToken, readToken_encodeToken]
  show (if 0 < plugin.expires ∧ plugin.expires < elapsed now expires then some false
    else (hexDecode (hexEncode tag)).map _) = _
  rw [hexDecode_hexEncode]
  split
  · rename_i hold
    rw [decide_eq_true hold]
    rfl
  · rename_i hold
    rw [decide_eq_false hold]
    rfl

/-- The tags that have been put out are the only ones a token can show. -/
def Unforged (issued : Set CsrfDraw) (token : String) : Prop :=
  ∀ tag, tokenTag token = some tag →
    ∃ draw ∈ issued, tag = plugin.tag (hexEncode draw.random) draw.ts

/-- Of an accepted token the joint text of the two fields was issued. -/
theorem joined_of_accepted (hinj : Function.Injective (Hmac.sign .sha256 plugin.key))
    {issued : Set CsrfDraw} {now : UInt64} {token : String} (hunforged : plugin.Unforged issued token)
    (h : plugin.checkToken now token = some true) :
    ∃ random expires, tokenPair token = some (random, expires) ∧
      ∃ draw ∈ issued,
        signedText random expires = signedText (hexEncode draw.random) draw.ts := by
  obtain ⟨random, expires, hpair, htag⟩ := plugin.accepted_fields h
  obtain ⟨draw, hdraw, heq⟩ := hunforged _ htag
  exact ⟨random, expires, hpair, draw, hdraw, asBytes_inj.mp (hinj heq)⟩

/-- **Which accepted tokens were issued.**  When the tags of a plugin come from it alone, an
    accepted token carries a random field and a time that were issued together exactly if its
    random field has 32 bytes. -/
theorem accepted_issued_iff (hinj : Function.Injective (Hmac.sign .sha256 plugin.key))
    {issued : Set CsrfDraw} {now : UInt64} {token : String} (hunforged : plugin.Unforged issued token)
    (h : plugin.checkToken now token = some true) :
    PairIssued issued token ↔ FullRandom token := by
  have hsize : ∀ draw : CsrfDraw, (hexEncode draw.random).utf8ByteSize = 32 := fun draw => by
    rw [utf8ByteSize_hexEncode, draw.size]
  constructor
  · rintro ⟨draw, -, hpair⟩
    exact ⟨_, _, hpair, hsize draw⟩
  · rintro ⟨random, expires, hpair, hfull⟩
    obtain ⟨random', expires', hpair', draw, hdraw, htext⟩ :=
      plugin.joined_of_accepted hinj hunforged h
    obtain ⟨rfl, rfl⟩ := Prod.mk.inj (Option.some.inj (hpair.symm.trans hpair'))
    obtain ⟨rfl, rfl⟩ := eq_of_signedText (hfull.trans (hsize draw).symm) htext
    exact ⟨draw, hdraw, hpair⟩

end Sign

/-! ## The node at work -/

section Execute

variable [CaseMapping] [Hmac] [Base64Codec] [JsonCodec] (plugin : CsrfPlugin)

/-- The value of the `Set-Cookie` header for a new token. -/
def cookieValue (draw : CsrfDraw) : String :=
  plugin.name ++ "=" ++ plugin.tokenAt draw ++ ";path=/;SameSite=Lax" ++
    if 0 < plugin.expires then ";Max-Age=" ++ showNat plugin.expires.toNat else ""

/-- `set_cookie`. -/
def setCookie (draw : CsrfDraw) (ctx : Context) : Context :=
  { ctx with response := { ctx.response with
      headers := Multimap.push ctx.response.headers ("set-cookie", plugin.cookieValue draw) } }

/-- `reject`. -/
def reject (ctx : Context) (msg : String) : PluginResult :=
  .error {
    context := { ctx with response := {
      statusCode := 401
      headers := ctx.response.headers.insert "content-type" ["application/json"]
      body := asBytes (JsonText.toText (.object [("error_msg", .string msg)])) } }
    error := { nodeId := "", code := "CSRF_INVALID", message := msg, metadata := ∅ } }

def safeMethods : List String := ["GET", "HEAD", "OPTIONS"]

/-- The token of the header, which may be empty. -/
def headerToken (ctx : Context) : String :=
  (ctx.request.headers[plugin.name]?.bind List.head?).getD ""

/-- `execute`: `now` is read for the check, `draw` is what a new cookie is made from. -/
def execute (now : UInt64) (draw : CsrfDraw) (ctx : Context) : Option PluginResult :=
  let passed : PluginResult := .ok { context := plugin.setCookie draw ctx, namedOutputs := ∅ }
  if plugin.phase = .response then some passed
  else if ctx.request.method ∈ safeMethods then some passed
  else if plugin.headerToken ctx = "" then some (reject ctx "no csrf token in headers")
  else
    match Vars.resolve ctx ("cookie_" ++ plugin.name) with
    | none => some (reject ctx "no csrf cookie")
    | some cookieToken =>
      if plugin.headerToken ctx ≠ cookieToken then some (reject ctx "csrf token mismatch")
      else
        (plugin.checkToken now cookieToken).map fun accepted =>
          if accepted then passed else reject ctx "Failed to verify the csrf token signature"

/-- What lets an unsafe request pass: one accepted token in the header and in the cookie. -/
theorem token_of_passed {now : UInt64} {draw : CsrfDraw} {ctx : Context} {output : PluginOutput}
    (hphase : plugin.phase = .request) (hmethod : ctx.request.method ∉ safeMethods)
    (h : plugin.execute now draw ctx = some (.ok output)) :
    Vars.resolve ctx ("cookie_" ++ plugin.name) = some (plugin.headerToken ctx) ∧
      plugin.checkToken now (plugin.headerToken ctx) = some true ∧
      output.context = plugin.setCookie draw ctx := by
  have hresponse : plugin.phase ≠ .response := by
    rw [hphase]
    decide
  unfold execute at h
  simp only [if_neg hresponse, if_neg hmethod] at h
  split at h
  · cases h
  · cases hcookie : Vars.resolve ctx ("cookie_" ++ plugin.name) with
    | none =>
      rw [hcookie] at h
      cases h
    | some cookieToken =>
      simp only [hcookie] at h
      split at h
      · cases h
      · rename_i hsame
        rw [not_not] at hsame
        obtain ⟨accepted, hcheck, hpassed⟩ := Option.map_eq_some_iff.mp h
        cases accepted with
        | false => cases hpassed
        | true =>
          obtain rfl := Except.ok.inj hpassed
          rw [hsame]
          exact ⟨rfl, hcheck, rfl⟩

end Execute

/-! ## An issued token, and one that is cut elsewhere -/

/-- A plugin with the default lifetime. -/
def twoHours : CsrfPlugin where
  key := asBytes "secret"
  expires := 7200
  name := "featherbit-csrf-token"
  phase := .request

/-- A draw whose random field ends in `7`. -/
def endsInSeven : CsrfDraw where
  random := List.replicate 15 0 ++ [7]
  ts := 1700000000
  size := rfl

theorem accepted_issued_iff_endsInSeven :
    @PairIssued standardBase64 compactJson {endsInSeven}
      (@tokenAt echoTag twoHours standardBase64 compactJson endsInSeven) := by
  let _ : Hmac := echoTag
  let _ : Base64Codec := standardBase64
  let _ : JsonCodec := compactJson
  have hcheck : twoHours.checkToken 1700000000 (twoHours.tokenAt endsInSeven) = some true := by
    rw [tokenAt, sign, checkToken_encodeToken, decide_eq_false (by decide), decide_eq_true rfl]
    rfl
  have hunforged : twoHours.Unforged {endsInSeven} (twoHours.tokenAt endsInSeven) := by
    intro tag htag
    rw [tokenAt, sign, tokenTag_encodeToken] at htag
    exact ⟨endsInSeven, rfl, (Option.some.inj htag).symm⟩
  refine (twoHours.accepted_issued_iff (fun _ _ h => h) hunforged hcheck).mpr ?_
  refine ⟨_, _, tokenPair_encodeToken _ _ _, ?_⟩
  rw [utf8ByteSize_hexEncode, endsInSeven.size]

/-- The token of `endsInSeven` with the `7` moved from the end of the random field to the front of
    the time. -/
def recutToken [Hmac] [Base64Codec] [JsonCodec] : String :=
  encodeToken "0000000000000000000000000000000" 71700000000
    (twoHours.sign (hexEncode endsInSeven.random) endsInSeven.ts)

/-- The token that is cut elsewhere is accepted when the issued one has long expired.  Its pair
    was never issued. -/
theorem recut_token_accepted :
    ∃ issuedAt later : UInt64, ∀ (_ : Hmac) (_ : Base64Codec) (_ : JsonCodec),
      twoHours.checkToken issuedAt (twoHours.tokenAt endsInSeven) = some true ∧
      twoHours.checkToken later (twoHours.tokenAt endsInSeven) = some false ∧
      twoHours.checkToken later recutToken = some true ∧
      twoHours.Unforged {endsInSeven} recutToken ∧ ¬ PairIssued {endsInSeven} recutToken := by
  refine ⟨1700000000, 1700007201, fun _ _ _ => ?_⟩
  have htext : signedText "0000000000000000000000000000000" 71700000000 =
      signedText (hexEncode endsInSeven.random) endsInSeven.ts := by decide +kernel
  have htag : twoHours.tag "0000000000000000000000000000000" 71700000000 =
      twoHours.tag (hexEncode endsInSeven.random) endsInSeven.ts := by rw [tag, htext, tag]
  refine ⟨?_, ?_, ?_, ?_, ?_⟩
  · rw [tokenAt, sign, checkToken_encodeToken, decide_eq_false (by decide), decide_eq_true rfl]
    rfl
  · rw [tokenAt, sign, checkToken_encodeToken, decide_eq_true (by decide)]
    rfl
  · rw [recutToken, sign, checkToken_encodeToken, decide_eq_false (by decide), decide_eq_true htag]
    rfl
  · intro tag hshown
    rw [recutToken, sign, tokenTag_encodeToken] at hshown
    exact ⟨endsInSeven, rfl, (Option.some.inj hshown).symm⟩
  · rintro ⟨draw, hdraw, hpair⟩
    rw [recutToken, tokenPair_encodeToken, hdraw] at hpair
    exact absurd (congrArg Prod.snd (Option.some.inj hpair)) (by decide)

end CsrfPlugin

end Featherbit
