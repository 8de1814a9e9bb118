/-
  REQUEST AND RESPONSE VARIABLES (`vars/mod.rs`): `resolve` names a piece of the context,
  `interpolate` puts such pieces into a template.

  `interpolate` walks over the bytes of the template; what it looks for (`$`, braces, letters,
  digits, `_`) is ASCII, so the model walks over its characters.
-/
import Featherbit.Context
import Featherbit.Rust.Utf8

namespace Featherbit

namespace Vars

/-- Splits `ip:port`, tolerating bare IPs and bracketed IPv6. -/
def splitRemoteAddr (addr : String) : String × Option String :=
  let bare :=
    match rsplitOnceChar ':' addr with
    -- an IPv6 without brackets contains multiple ':'
    | some (ip, port) => if ':' ∈ ip.toList then (addr, none) else (ip, some port)
    | none => (addr, none)
  match stripPrefix "[" addr with
  | some stripped =>
    match splitOnceChar ']' stripped with
    | some (ip, rest) => (ip, stripPrefix ":" rest)
    | none => bare
  | none => bare

/-- Rebuilt from the query parameters: the pairs in order. -/
def queryString (ctx : Context) : String :=
  let pairs := ctx.request.queryParams.toList.flatMap fun (k, values) =>
    values.map fun v => k ++ "=" ++ v
  "&".intercalate (pairs.mergeSort fun a b => decide (a ≤ b))

/-- The value of the first pair named `name`; a part without `=` ends the search. -/
def findPair (name : String) : List String → Option String
  | [] => none
  | pair :: pairs =>
    match splitOnceChar '=' pair with
    | none => none
    | some (k, v) => if k = name then some v else findPair name pairs

def cookieValue (ctx : Context) (name : String) : Option String := do
  let header ← (← ctx.request.headers["cookie"]?).head?
  findPair name ((splitChar ';' header).map trim)

def hexVal (b : UInt8) : Option UInt8 :=
  if 0x30 ≤ b ∧ b ≤ 0x39 then some (b - 0x30)
  else if 0x61 ≤ b ∧ b ≤ 0x66 then some (b - 0x61 + 10)
  else if 0x41 ≤ b ∧ b ≤ 0x46 then some (b - 0x41 + 10)
  else none

def urldecodeBytes : Bytes → Bytes
  | [] => []
  | b :: rest =>
    if b = 0x2B then 0x20 :: urldecodeBytes rest
    else if b = 0x25 then
      match hrest : rest with
      | hi :: lo :: rest' =>
        match hexVal hi, hexVal lo with
        | some hi, some lo => (hi * 16 + lo) :: urldecodeBytes rest'
        | _, _ => b :: urldecodeBytes rest
      | _ => b :: urldecodeBytes rest
    else b :: urldecodeBytes rest
termination_by bytes => bytes.length
decreasing_by all_goals (simp only [List.length_cons, *]; omega)

def urldecode (s : String) : String := fromUtf8Lossy (urldecodeBytes (asBytes s))

def postArg (ctx : Context) (field : String) : Option String := do
  let contentType ← (← ctx.request.headers["content-type"]?).head?
  if !startsWith contentType "application/x-www-form-urlencoded" then none
  let body ← fromUtf8 ctx.request.body
  let v ← findPair field (splitChar '&' body)
  some (urldecode v)

/-- `format!("{:?}", protocol)`. -/
def debugProtocol : Protocol → String
  | .http1 => "Http1"
  | .http2 => "Http2"
  | .webSocket => "WebSocket"
  | .tcp => "Tcp"
  | .udp => "Udp"

section Resolve

variable [CaseMapping] [JsonText]

def messageStr (ctx : Context) (key : String) : Option String :=
  match ctx.message[key]? with
  | none => none
  | some (.string s) => some s
  | some other => some (JsonText.toText other)

/-- The variables named by a prefix and a key. -/
def resolveKeyed (ctx : Context) (name : String) : Option String :=
  match stripPrefix "arg_" name with
  | some arg => ctx.request.queryParams[arg]?.bind List.head?
  | none =>
  match stripPrefix "http_" name with
  | some header =>
    let header := toLowercase (String.ofList (header.toList.map fun c => if c = '_' then '-' else c))
    ctx.request.headers[header]?.bind List.head?
  | none =>
  match stripPrefix "cookie_" name with
  | some cookie => cookieValue ctx cookie
  | none =>
  match stripPrefix "post_arg_" name with
  | some field => postArg ctx field
  | none =>
  match stripPrefix "msg_" name with
  | some key => messageStr ctx key
  | none => none

/-- Resolves a variable name against the context. -/
def resolve (ctx : Context) (name : String) : Option String :=
  match name with
  | "uri" => some ctx.request.path
  | "request_uri" =>
    let qs := queryString ctx
    if qs = "" then some ctx.request.path else some (ctx.request.path ++ "?" ++ qs)
  | "method" | "request_method" => some ctx.request.method
  | "host" => some ctx.request.host
  | "scheme" => some ctx.request.scheme
  | "protocol" => some (toLowercase (debugProtocol ctx.request.protocol))
  | "remote_addr" => some (splitRemoteAddr ctx.request.remoteAddr).1
  | "remote_port" => (splitRemoteAddr ctx.request.remoteAddr).2
  | "query_string" =>
    let qs := queryString ctx
    if qs = "" then none else some qs
  | "status" => some (toString ctx.response.statusCode.toNat)
  | "resp_body" => some (fromUtf8Lossy ctx.response.body)
  | "consumer_name" => messageStr ctx "consumer.name"
  | "consumer_group_id" => messageStr ctx "consumer.group"
  | _ => resolveKeyed ctx name

/-- A character of the name in `$name`. -/
def isNameChar (c : Char) : Bool := c.isAlphanum || c = '_'

def interpolateChars (ctx : Context) : List Char → String
  | [] => ""
  | c :: rest =>
    if c ≠ '$' then String.singleton c ++ interpolateChars ctx rest
    else
      match hrest : rest with
      | '{' :: inner =>
        match hclose : Split.splitOnce '}' inner with
        | some (name, after) =>
          (resolve ctx (String.ofList name)).getD "" ++ interpolateChars ctx after
        | none => "$" ++ interpolateChars ctx rest
      | _ =>
        let name := rest.takeWhile isNameChar
        if name = [] then "$" ++ interpolateChars ctx rest
        else
          (resolve ctx (String.ofList name)).getD "" ++
            interpolateChars ctx (rest.dropWhile isNameChar)
termination_by template => template.length
decreasing_by
  · simp
  · have hlen := congrArg List.length (Split.eq_of_splitOnce hclose)
    simp only [List.length_append, List.length_cons] at hlen
    simp only [List.length_cons]
    omega
  · simp only [hrest, List.length_cons, Nat.lt_succ_self]
  · simp only [← hrest, List.length_cons, Nat.lt_succ_self]
  · have hlen := (List.dropWhile_sublist isNameChar (l := rest)).length_le
    simp only [← hrest, List.length_cons]
    omega

/-- Interpolates `$var` and `${var}` references; unknown or absent variables are empty. -/
def interpolate (ctx : Context) (template : String) : String :=
  interpolateChars ctx template.toList

/-- A template that is one variable reads as that variable. -/
theorem interpolate_var (ctx : Context) {name : String} (hne : name ≠ "")
    (hname : ∀ c ∈ name.toList, isNameChar c = true) :
    interpolate ctx ("$" ++ name) = (resolve ctx name).getD "" := by
  have hnil : name.toList ≠ [] := by simpa using hne
  have htake : name.toList.takeWhile isNameChar = name.toList := List.takeWhile_eq_self_iff.mpr hname
  have hdrop : name.toList.dropWhile isNameChar = [] := List.dropWhile_eq_nil_iff.mpr hname
  have hbrace : ∀ inner, name.toList ≠ '{' :: inner := by
    intro inner h
    have hopen := hname '{' (by rw [h]; exact List.mem_cons_self)
    revert hopen
    decide
  have hchars : ("$" ++ name).toList = '$' :: name.toList := by simp
  unfold interpolate
  rw [hchars, interpolateChars, if_neg (by decide)]
  · simp [htake, hdrop, hnil, interpolateChars]
  · exact fun inner h => hbrace inner h

end Resolve

end Vars

end Featherbit
