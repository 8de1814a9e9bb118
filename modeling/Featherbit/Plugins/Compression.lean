/-
  COMPRESSION BY AGREEMENT (`plugins/native/gzip.rs`, `plugins/native/brotli.rs`,
  `plugins/util/content_codec.rs`).

  The two nodes are one with two codings.  Either compresses when `accepts_encoding` finds an entry of
  `Accept-Encoding` for its coding, or for `*`, that is not of quality zero.

  1. **An entry** (`qIsZero_iff`) — the code sees a quality of zero where the entry has one and writes it
     plainly, as its only parameter and with a lower-case `q`.
  2. **The header** (`acceptsEncoding_iff`) — one entry is enough for the code; a reader of the header lets
     the entries for the coding itself decide, and `*` only where there are none.
  3. **The nodes** (`compresses_accepted_iff`) — they compress nothing the client refuses exactly when,
     wherever it does refuse, every entry that counts says so plainly.
-/
import Featherbit.Plugins
import Featherbit.Rust.Float

namespace Featherbit

/-- Content codings the gateway can decode and encode. -/
inductive ContentEncoding where
  | gzip
  /-- HTTP "deflate": the zlib format -/
  | deflate
  | brotli
deriving DecidableEq

namespace ContentEncoding

/-- `ContentEncoding::parse`: nothing is to be done for the identity. -/
def parse (value : String) : Except String (Option ContentEncoding) :=
  match toAsciiLowercase (trim value) with
  | "" | "identity" => .ok none
  | "gzip" => .ok (some gzip)
  | "deflate" => .ok (some deflate)
  | "br" => .ok (some brotli)
  | other => .error ("unsupported content-encoding: " ++ other)

def headerValue : ContentEncoding → String
  | gzip => "gzip"
  | deflate => "deflate"
  | brotli => "br"

end ContentEncoding

/-- `flate2` and `brotli`: what a body is encoded to at a level, and what it is decoded to. -/
class ContentCodec where
  encode : ContentEncoding → Bytes → Nat → Except String Bytes
  decode : ContentEncoding → Bytes → Except String Bytes
  /-- an encoder that writes into memory does not fail -/
  encode_ok : ∀ encoding body level, ∃ out, encode encoding body level = .ok out

/-- The two codings a node compresses with. -/
inductive Coding where
  | gzip
  | brotli
deriving DecidableEq

namespace Coding

def encoding : Coding → ContentEncoding
  | gzip => .gzip
  | brotli => .brotli

/-- The name in `Accept-Encoding`. -/
def token (coding : Coding) : String := coding.encoding.headerValue

def defaultLevel : Coding → Nat
  | gzip => 1
  | brotli => 6

/-- The levels that are accepted, and the message for any other. -/
def checkLevel : Coding → UInt64 → Except String Nat
  | gzip, n =>
    if 1 ≤ n ∧ n ≤ 9 then .ok n.toNat
    else .error ("comp_level must be within 1-9, got " ++ showNat n.toNat)
  | brotli, n =>
    if n > 11 then .error ("comp_level must be within 0-11, got " ++ showNat n.toNat)
    else .ok n.toNat

end Coding

/-- The `types` config: any content type, or those of a list. -/
inductive ContentTypes where
  | any
  | list (types : List String)
deriving DecidableEq

namespace ContentTypes

/-- `ContentTypes::parse`. -/
def parse (raw : Option Json) (default : List String) : Except String ContentTypes :=
  match raw with
  | none => .ok (list default)
  | some (.string s) =>
    if s = "*" then .ok any else .error "types must be \"*\" or an array of content types"
  | some (.array items) =>
    if items = [] then .error "types must contain at least one content type"
    else do
      let types ← items.mapM fun v =>
        match v.asStr.filter (· ≠ "") with
        | some s => .ok s
        | none => .error "types entries must be non-empty strings"
      return list types
  | some _ => .error "types must be \"*\" or an array of content types"

/-- `ContentTypes::matches`: parameters are stripped, and no content type matches nothing. -/
def matchesResponse (types : ContentTypes) (ctx : Context) : Bool :=
  match ctx.response.headers["content-type"]?.bind List.head? with
  | none => false
  | some contentType =>
    match types with
    | any => true
    | list types => decide (trim (splitFirst ';' contentType) ∈ types)

end ContentTypes

/-- One entry of `Accept-Encoding`: a name in lower case and what follows the first `;`. -/
structure AcceptEntry where
  name : String
  params : Option String
deriving DecidableEq

namespace AcceptEntry

def read (part : String) : AcceptEntry :=
  match splitOnceChar ';' (trim part) with
  | some (name, params) => { name := toAsciiLowercase (trim name), params := some params }
  | none => { name := toAsciiLowercase (trim (trim part)), params := none }

/-- `q_is_zero`, as the code looks for it. -/
def qIsZero (entry : AcceptEntry) : Bool :=
  (entry.params.bind fun params => stripPrefix "q=" (trim params)).any fun q =>
    parsesToZeroF32 (trim q)

end AcceptEntry

/-- The entries of all the lines. -/
def acceptEntries (values : List String) : List AcceptEntry :=
  (values.flatMap (splitChar ',')).map AcceptEntry.read

/-- `accepts_encoding`. -/
def acceptsEncoding (ctx : Context) (token : String) : Bool :=
  match ctx.request.headers["accept-encoding"]? with
  | none => false
  | some values => values.any fun value => (splitChar ',' value).any fun part =>
      let entry := AcceptEntry.read part
      (entry.name = token || entry.name = "*") && !entry.qIsZero

/-- `response_already_encoded`: anything but the identity counts. -/
def responseAlreadyEncoded (ctx : Context) : Bool :=
  match ctx.response.headers["content-encoding"]?.bind List.head? with
  | none => false
  | some value =>
    match ContentEncoding.parse value with
    | .ok none => false
    | _ => true

/-- A configured `gzip` or `brotli` node. -/
structure CompressionPlugin where
  types : ContentTypes
  minLength : Nat
  compLevel : Nat
  vary : Bool

namespace CompressionPlugin

/-- `from_config` of either node. -/
def fromConfig (coding : Coding) (config : HashMap Json) : Except String CompressionPlugin := do
  let types ← ContentTypes.parse config["types"]? ["text/html"]
  let minLength ← match config["min_length"]? with
    | none => pure 20
    | some v =>
      match v.asU64.filter (1 ≤ ·) with
      | some n => pure n.toNat
      | none => throw "min_length must be an integer >= 1"
  let compLevel ← match config["comp_level"]? with
    | none => pure coding.defaultLevel
    | some v =>
      match v.asU64 with
      | some n => coding.checkLevel n
      | none => throw "comp_level must be an integer"
  return { types, minLength, compLevel, vary := (config["vary"]?.bind Json.asBool).getD false }

/-- `weaken_etag` of the `brotli` node. -/
def weakenEtag (headers : HashMap (List String)) : HashMap (List String) :=
  match headers["etag"]?.bind List.head? with
  | none => headers
  | some etag =>
    if startsWith etag "W/" then headers
    else if 2 ≤ (asBytes etag).length ∧ etag.toList.head? = some '"' ∧ etag.toList.getLast? = some '"' then
      headers.insert "etag" ["W/" ++ etag]
    else headers.erase "etag"

/-- What only one of the nodes does to the headers. -/
def ownHeaders : Coding → HashMap (List String) → HashMap (List String)
  | .gzip, headers => headers
  | .brotli, headers => weakenEtag headers

/-- The headers of a compressed response. -/
def compressedHeaders (plugin : CompressionPlugin) (coding : Coding)
    (headers : HashMap (List String)) : HashMap (List String) :=
  let headers := ownHeaders coding
    ((headers.erase "content-length").insert "content-encoding" [coding.encoding.headerValue])
  if plugin.vary then headers.insert "vary" ((headers["vary"]?).getD [] ++ ["Accept-Encoding"])
  else headers

variable [ContentCodec]

/-- `execute` of either node; a codec error leaves the response as it is. -/
def execute (plugin : CompressionPlugin) (coding : Coding) (ctx : Context) : PluginResult :=
  let skip := !acceptsEncoding ctx coding.token || responseAlreadyEncoded ctx ||
    !plugin.types.matchesResponse ctx || decide (ctx.response.body.length < plugin.minLength)
  if skip then .ok { context := ctx, namedOutputs := ∅ }
  else
    match ContentCodec.encode coding.encoding ctx.response.body plugin.compLevel with
    | .error _ => .ok { context := ctx, namedOutputs := ∅ }
    | .ok compressed => .ok {
        context := { ctx with response := { ctx.response with
          body := compressed
          headers := plugin.compressedHeaders coding ctx.response.headers } }
        namedOutputs := ∅ }

end CompressionPlugin

/-- `GzipPlugin::from_config`. -/
def GzipPlugin.fromConfig : HashMap Json → Except String CompressionPlugin :=
  CompressionPlugin.fromConfig .gzip

/-- `GzipPlugin::execute`. -/
def GzipPlugin.execute [ContentCodec] (plugin : CompressionPlugin) : Context → PluginResult :=
  plugin.execute .gzip

/-- `BrotliPlugin::from_config`. -/
def BrotliPlugin.fromConfig : HashMap Json → Except String CompressionPlugin :=
  CompressionPlugin.fromConfig .brotli

/-- `BrotliPlugin::execute`. -/
def BrotliPlugin.execute [ContentCodec] (plugin : CompressionPlugin) : Context → PluginResult :=
  plugin.execute .brotli

/-! ## What the header says -/

namespace AcceptEntry

/-- The parameters of an entry. -/
def parameters (entry : AcceptEntry) : List String :=
  match entry.params with
  | none => []
  | some params => (splitChar ';' params).map trim

/-- The value of a parameter named `q`, in either case. -/
def qualityOf (parameter : String) : Option String :=
  match splitOnceChar '=' parameter with
  | some (name, value) => if toAsciiLowercase name = "q" then some (trim value) else none
  | none => none

/-- The entry has a quality, and it is zero. -/
def refuses (entry : AcceptEntry) : Bool := (entry.parameters.findSome? qualityOf).any parsesToZeroF32

/-- The entry has one parameter, and it begins with `q=` in lower case. -/
def Plain (entry : AcceptEntry) : Prop :=
  ∃ parameter, entry.parameters = [parameter] ∧ startsWith parameter "q=" = true

end AcceptEntry

/-- The client refuses a coding: its own entries say so, or the `*` entries where it has none of its
    own; a coding nothing is said of is refused. -/
def Refused (token : String) (entries : List AcceptEntry) : Prop :=
  if ∃ entry ∈ entries, entry.name = token then
    ∀ entry ∈ entries, entry.name = token → entry.refuses = true
  else ∀ entry ∈ entries, entry.name = "*" → entry.refuses = true

/-! ## An entry -/

/-- Only white space is trimmed away. -/
theorem mem_trim {s : String} {c : Char} (hc : c ∈ s.toList) (hspace : isWhitespace c = false) :
    c ∈ (trim s).toList := by
  unfold trim
  rw [String.toList_ofList]
  have hfront : c ∈ s.toList.dropWhile isWhitespace := by
    have hcut : s.toList.takeWhile isWhitespace ++ s.toList.dropWhile isWhitespace = s.toList :=
      List.takeWhile_append_dropWhile
    rw [← hcut] at hc
    rcases List.mem_append.mp hc with hc | hc
    · rw [List.mem_takeWhile_imp hc] at hspace
      cases hspace
    · exact hc
  generalize s.toList.dropWhile isWhitespace = l at hfront
  have hcut : l.rdropWhile isWhitespace ++ l.rtakeWhile isWhitespace = l := List.rdropWhile_append_rtakeWhile
  rw [← hcut] at hfront
  rcases List.mem_append.mp hfront with hc | hc
  · exact hc
  · rw [List.mem_rtakeWhile_imp hc] at hspace
    cases hspace

/-- Text that is read as a number separates no parameters. -/
theorem semicolon_notMem_of_zero {q : String} (h : parsesToZeroF32 (trim q) = true) : ';' ∉ q.toList := by
  intro hmem
  obtain ⟨d, hparse, -⟩ := (Option.any_eq_true _ _).mp h
  rcases Decimal.parse_chars hparse ';' (mem_trim hmem (by decide)) with h | h
  · exact absurd h (by decide)
  · exact absurd h (by decide)

namespace AcceptEntry

variable {entry : AcceptEntry}

theorem splitChar_of_not_mem {sep : Char} {s : String} (h : sep ∉ s.toList) : splitChar sep s = [s] := by
  have hone := @splitChar_intercalate sep [s] (List.cons_ne_nil _ _) (by
    intro t ht
    rw [List.mem_singleton.mp ht]
    exact h)
  simpa using hone

/-- What a plain quality is: the value behind `q=`. -/
theorem qualityOf_plain (value : String) : qualityOf ("q=" ++ value) = some (trim value) := by
  have hcut : splitOnceChar '=' ("q" ++ String.singleton '=' ++ value) = some ("q", value) :=
    splitOnceChar_append (by decide) value
  unfold qualityOf
  rw [show "q=" ++ value = "q" ++ String.singleton '=' ++ value from rfl, hcut]
  rfl

/-- **An entry.**  The code sees a zero exactly where there is one and it is written plainly. -/
theorem qIsZero_iff : entry.qIsZero = true ↔ entry.refuses = true ∧ entry.Plain := by
  unfold qIsZero refuses Plain parameters
  cases entry.params with
  | none =>
    constructor
    · intro h
      cases h
    · rintro ⟨-, parameter, hnil, -⟩
      cases hnil
  | some params =>
    dsimp only [Option.bind_some]
    constructor
    · intro h
      obtain ⟨q, hstrip, hzero⟩ := (Option.any_eq_true _ _).mp h
      have htrim := eq_of_stripPrefix hstrip
      have hone : ';' ∉ params.toList := by
        intro hmem
        have htrimmed := mem_trim hmem (by decide)
        rw [htrim, String.toList_append] at htrimmed
        rcases List.mem_append.mp htrimmed with hmem | hmem
        · exact absurd hmem (by decide)
        · exact semicolon_notMem_of_zero hzero hmem
      rw [splitChar_of_not_mem hone, List.map_singleton, htrim, List.findSome?_singleton, qualityOf_plain,
        Option.any_some]
      exact ⟨hzero, _, rfl, startsWith_iff.mpr ⟨q, rfl⟩⟩
    · rintro ⟨hrefuses, parameter, hone, hplain⟩
      obtain ⟨part, hpart, rfl⟩ := List.map_eq_singleton_iff.mp hone
      obtain ⟨q, hq⟩ := startsWith_iff.mp hplain
      have hparams : params = part := by
        rw [← @splitChar_inj ';', hpart]
        exact (splitChar_of_not_mem (not_mem_of_mem_splitChar (hpart ▸ List.mem_singleton_self _))).symm
      rw [hone, List.findSome?_singleton, hq, qualityOf_plain] at hrefuses
      rw [Option.any_some] at hrefuses
      rw [hparams, hq, stripPrefix_append, Option.any_some]
      exact hrefuses

end AcceptEntry

/-! ## The header -/

/-- What the header fields say, none of them being no value. -/
def acceptValues (ctx : Context) : List String := (ctx.request.headers["accept-encoding"]?).getD []

/-- **The header.**  The code accepts where one entry that names the coding or `*` is not plainly zero. -/
theorem acceptsEncoding_iff (ctx : Context) (token : String) :
    acceptsEncoding ctx token = true ↔ ∃ entry ∈ acceptEntries (acceptValues ctx),
      (entry.name = token ∨ entry.name = "*") ∧ ¬ (entry.refuses = true ∧ entry.Plain) := by
  have hentry : ∀ part, ((AcceptEntry.read part).name = token ∨ (AcceptEntry.read part).name = "*") ∧
      ¬ ((AcceptEntry.read part).refuses = true ∧ (AcceptEntry.read part).Plain) ↔
      ((decide ((AcceptEntry.read part).name = token) || decide ((AcceptEntry.read part).name = "*")) &&
        !(AcceptEntry.read part).qIsZero) = true := by
    intro part
    rw [← AcceptEntry.qIsZero_iff, Bool.and_eq_true, Bool.or_eq_true, decide_eq_true_iff,
      decide_eq_true_iff, Bool.not_eq_true', Bool.not_eq_true]
  unfold acceptsEncoding acceptValues acceptEntries
  cases ctx.request.headers["accept-encoding"]? with
  | none =>
    refine iff_of_false (by simp) ?_
    rintro ⟨entry, hmem, -⟩
    cases hmem
  | some values =>
    simp only [Option.getD_some, List.any_eq_true, List.mem_map, List.mem_flatMap]
    constructor
    · rintro ⟨value, hvalue, part, hpart, h⟩
      exact ⟨_, ⟨part, ⟨value, hvalue, hpart⟩, rfl⟩, (hentry part).mpr h⟩
    · rintro ⟨entry, ⟨part, ⟨value, hvalue, hpart⟩, rfl⟩, h⟩
      exact ⟨value, hvalue, part, hpart, (hentry part).mp h⟩

/-- The entries that count, where the client refuses: all of them say so plainly. -/
def PlainlyRefused (token : String) (entries : List AcceptEntry) : Prop :=
  ∀ entry ∈ entries, entry.name = token ∨ entry.name = "*" → entry.refuses = true ∧ entry.Plain

/-! ## The nodes -/

namespace CompressionPlugin

section Execute

variable [ContentCodec]

/-- A node that changes anything has found that the client accepts its coding. -/
theorem accepts_of_execute {plugin : CompressionPlugin} {coding : Coding} {ctx : Context}
    (h : PluginResult.context (plugin.execute coding ctx) ≠ ctx) : acceptsEncoding ctx coding.token = true := by
  by_contra hnot
  apply h
  unfold execute
  rw [Bool.not_eq_true] at hnot
  rw [hnot]
  rfl

/-- The default node, on a page it may compress. -/
theorem execute_page (coding : Coding) (values : List String) :
    ∃ (plugin : CompressionPlugin) (ctx : Context), fromConfig coding ∅ = .ok plugin ∧
      acceptValues ctx = values ∧ (acceptsEncoding ctx coding.token = true →
        PluginResult.context (plugin.execute coding ctx) ≠ ctx) := by
  let page : Context := {
    request := { (default : GatewayRequest) with
      headers := (∅ : HashMap (List String)).insert "accept-encoding" values }
    response := {
      statusCode := 200
      headers := (∅ : HashMap (List String)).insert "content-type" ["text/html"]
      body := List.replicate 20 0x61 }
    message := ∅
    errors := [] }
  let node : CompressionPlugin := {
    types := .list ["text/html"], minLength := 20, compLevel := coding.defaultLevel, vary := false }
  refine ⟨node, page, rfl, ?_, fun haccepts hsame => ?_⟩
  · show (((∅ : HashMap (List String)).insert "accept-encoding" values)["accept-encoding"]?).getD [] = values
    rw [HashMap.get_insert, if_pos rfl]
    rfl
  · obtain ⟨out, hout⟩ := ContentCodec.encode_ok coding.encoding page.response.body node.compLevel
    have htypes : node.types.matchesResponse page = true := by
      show decide (trim (splitFirst ';' "text/html") ∈ ["text/html"]) = true
      decide
    have hskip : (!acceptsEncoding page coding.token || responseAlreadyEncoded page ||
        !node.types.matchesResponse page || decide (page.response.body.length < node.minLength)) = false := by
      rw [haccepts, show responseAlreadyEncoded page = false from rfl, htypes]
      rfl
    have hheaders : (node.compressedHeaders coding page.response.headers)["content-encoding"]? =
        some [coding.encoding.headerValue] := by
      have hinsert : ((page.response.headers.erase "content-length").insert "content-encoding"
          [coding.encoding.headerValue])["content-encoding"]? = some [coding.encoding.headerValue] := by
        rw [HashMap.get_insert, if_pos rfl]
      cases coding with
      | gzip => exact hinsert
      | brotli => exact hinsert
    unfold execute at hsame
    rw [hskip, hout] at hsame
    have hcontentEncoding := congrArg (fun ctx => ctx.response.headers["content-encoding"]?) hsame
    have hnone : some [coding.encoding.headerValue] = none := hheaders.symm.trans hcontentEncoding
    cases hnone

end Execute

/-- **The nodes.**  What a node compresses is never refused exactly when a client that refuses says so
    plainly in every entry that counts. -/
theorem compresses_accepted_iff [ContentCodec] (coding : Coding) (values : List String) :
    (∀ (config : HashMap Json) (plugin : CompressionPlugin) (ctx : Context),
      fromConfig coding config = .ok plugin → acceptValues ctx = values →
      PluginResult.context (plugin.execute coding ctx) ≠ ctx → ¬ Refused coding.token (acceptEntries values)) ↔
    (Refused coding.token (acceptEntries values) → PlainlyRefused coding.token (acceptEntries values)) := by
  constructor
  · intro hnever hrefused entry hentry hname
    by_contra hnot
    obtain ⟨plugin, ctx, hconfig, hvalues, hexecute⟩ := execute_page coding values
    have haccepts : acceptsEncoding ctx coding.token = true := by
      rw [acceptsEncoding_iff, hvalues]
      exact ⟨entry, hentry, hname, hnot⟩
    exact hnever ∅ plugin ctx hconfig hvalues (hexecute haccepts) hrefused
  · intro hplainly config plugin ctx _ hvalues hexecute hrefused
    have haccepts := accepts_of_execute hexecute
    rw [acceptsEncoding_iff, hvalues] at haccepts
    obtain ⟨entry, hentry, hname, hnot⟩ := haccepts
    exact hnot (hplainly hrefused entry hentry hname)

/-- `gzip` is refused, and compressed all the same, since the wildcard is not. -/
theorem compresses_refused :
    ¬ ∃ _ : ContentCodec, ∀ (config : HashMap Json) (plugin : CompressionPlugin) (ctx : Context),
      fromConfig .gzip config = .ok plugin → acceptValues ctx = ["gzip;q=0, *"] →
      PluginResult.context (plugin.execute .gzip ctx) ≠ ctx →
      ¬ Refused "gzip" (acceptEntries ["gzip;q=0, *"]) := by
  rintro ⟨_, hnever⟩
  obtain ⟨plugin, ctx, hconfig, hvalues, hexecute⟩ := execute_page .gzip ["gzip;q=0, *"]
  have haccepts : acceptsEncoding ctx "gzip" = true := by
    rw [acceptsEncoding_iff, hvalues]
    exact ⟨⟨"*", none⟩, by decide +kernel, Or.inr rfl, fun h => absurd h.1 (by decide)⟩
  refine hnever ∅ plugin ctx hconfig hvalues (hexecute haccepts) ?_
  unfold Refused
  decide +kernel

end CompressionPlugin

end Featherbit
