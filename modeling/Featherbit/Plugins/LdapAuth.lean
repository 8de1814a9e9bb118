/-
  THE NODE `ldap-auth` (`plugins/native/ldap_auth.rs`).

  The node binds to a directory under a name it puts together from client text, `uid=username,base_dn`, and
  the directory reads that name by RFC 4514 (`Lib.DistinguishedName`).  The directory is a parameter: a
  function from the bind request to what became of it.

  The node binds as the user it names exactly when the user name needs no escape
  (`bindsAsNamed_iff`): it is put into the name as it stands.
-/
import Featherbit.Lib.DistinguishedName
import Featherbit.Lib.TryFold
import Featherbit.Plugins.AuthNodes
import Featherbit.Rust.Utf8Prefix

namespace Featherbit

open DistinguishedName

/-- A simple bind, with the settings of the connection it is made on. -/
structure BindRequest where
  ldapUri : String
  noTlsVerify : Bool
  starttls : Bool
  timeoutMs : Nat
  dn : String
  password : String
deriving DecidableEq

/-- What becomes of a bind. -/
inductive BindOutcome where
  | accepted
  | refused
  | failed (error : String)
  | timedOut
deriving DecidableEq

structure LdapAuthPlugin where
  baseDn : String
  ldapUri : String
  uid : String
  useTls : Bool
  tlsVerify : Bool
  realm : String
  timeoutMs : Nat
deriving DecidableEq

namespace LdapAuthPlugin

/-- A text of the configuration that is not blank. -/
def requiredText (config : HashMap Json) (key : String) : Except String String :=
  match (configStr config key).filter fun s => trim s ≠ "" with
  | some s => .ok s
  | none => .error ("ldap-auth plugin requires a non-empty '" ++ key ++ "'")

/-- `LdapAuthPlugin::from_config`. -/
def fromConfig (config : HashMap Json) : Except String LdapAuthPlugin := do
  let baseDn ← requiredText config "base_dn"
  let ldapUri ← requiredText config "ldap_uri"
  return {
    baseDn := baseDn
    ldapUri := ldapUri
    uid := (configStr config "uid").getD "cn"
    useTls := configFlag config "use_tls" false
    tlsVerify := configFlag config "tls_verify" false
    realm := (configStr config "realm").getD "ldap"
    timeoutMs := ((config["timeout_ms"]?.bind Json.asU64).getD 10000).toNat }

/-- The text without its white space. -/
def stripWs (s : String) : String := String.ofList (s.toList.filter fun c => !isWhitespace c)

/-- `parse_basic_credentials`. -/
def parseBasicCredentials [Base64] (header : String) : Option (String × String) := do
  let rest ← (stripPrefix "Basic " header).or
    ((stripPrefix "basic " header).or (stripPrefix "BASIC " header))
  let decoded ← (Base64.decode (asBytes (trim rest))).toOption
  let decoded ← fromUtf8 decoded
  let (user, pass) ← splitOnceChar ':' decoded
  some (stripWs user, stripWs pass)

/-- `build_bind_dn`. -/
def buildBindDn (uid username baseDn : String) : String := uid ++ "=" ++ username ++ "," ++ baseDn

variable (plugin : LdapAuthPlugin)

def challenge : String × String := ("www-authenticate", "Basic realm=\"" ++ plugin.realm ++ "\"")

/-- `reject`. -/
def reject (ctx : Context) (message : String) : PluginResult :=
  rejectUnauthorized ctx "LDAP_AUTH_FAILED" message [plugin.challenge]

/-- The rejection when there was no answer: the body stays. -/
def connectionError (ctx : Context) (error : String) : PluginResult :=
  .error {
    context := { ctx with response := { ctx.response with
      statusCode := 401
      headers := ctx.response.headers.insert plugin.challenge.1 [plugin.challenge.2] } }
    error := {
      nodeId := ""
      code := "LDAP_AUTH_FAILED"
      message := "LDAP connection error: " ++ error
      metadata := ∅ } }

/-- The bind of a user. -/
def bindRequest (username password : String) : BindRequest where
  ldapUri := plugin.ldapUri
  noTlsVerify := !plugin.tlsVerify
  starttls := plugin.useTls
  timeoutMs := plugin.timeoutMs
  dn := buildBindDn plugin.uid username plugin.baseDn
  password := password

def withUser (ctx : Context) (username : String) : Context :=
  { ctx with message := ctx.message.insert "user" (.string username) }

/-- What the node makes of the outcome. -/
def answer (ctx : Context) (username : String) : BindOutcome → PluginResult
  | .accepted => passOn (withUser ctx username)
  | .refused => plugin.reject ctx "Invalid user authorization"
  | .failed error => plugin.connectionError ctx error
  | .timedOut => plugin.reject ctx "LDAP authentication timed out"

section Execute

variable [Base64] (server : BindRequest → BindOutcome)

/-- `execute`: the binds that are attempted, and the result. -/
def execute (ctx : Context) : List BindRequest × PluginResult :=
  match firstHeader ctx "authorization" with
  | none => ([], plugin.reject ctx "Missing authorization in request")
  | some header =>
  match parseBasicCredentials header with
  | none => ([], plugin.reject ctx "Invalid authorization in request")
  | some (username, password) =>
    -- an empty password would be an anonymous bind
    if username = "" ∨ password = "" then ([], plugin.reject ctx "Invalid authorization in request")
    else
      let request := plugin.bindRequest username password
      ([request], plugin.answer ctx username (server request))

theorem execute_credentials {ctx : Context} {header username password : String}
    (hheader : firstHeader ctx "authorization" = some header)
    (hparse : parseBasicCredentials header = some (username, password)) (huser : username ≠ "")
    (hpass : password ≠ "") :
    plugin.execute server ctx = ([plugin.bindRequest username password],
      plugin.answer ctx username (server (plugin.bindRequest username password))) := by
  unfold execute
  rw [hheader]
  dsimp only
  rw [hparse]
  exact if_neg (not_or.mpr ⟨huser, hpass⟩)

/-- **Nobody passes without a bind**: a context that is passed on names the user of a bind that was
    accepted, and nothing else in it was changed. -/
theorem execute_ok {ctx : Context} {output : PluginOutput}
    (h : (plugin.execute server ctx).2 = .ok output) :
    ∃ header username password, firstHeader ctx "authorization" = some header ∧
      parseBasicCredentials header = some (username, password) ∧ username ≠ "" ∧ password ≠ "" ∧
      server (plugin.bindRequest username password) = .accepted ∧
      output.context = withUser ctx username := by
  unfold execute at h
  split at h
  · nomatch h
  · rename_i header hheader
    split at h
    · nomatch h
    · rename_i username password hparse
      split at h
      · nomatch h
      · rename_i hempty
        obtain ⟨huser, hpass⟩ := not_or.mp hempty
        refine ⟨header, username, password, hheader, hparse, huser, hpass, ?_⟩
        dsimp only at h
        cases hserver : server (plugin.bindRequest username password) with
        | accepted =>
          rw [hserver] at h
          cases h
          exact ⟨rfl, rfl⟩
        | refused =>
          rw [hserver] at h
          nomatch h
        | failed error =>
          rw [hserver] at h
          nomatch h
        | timedOut =>
          rw [hserver] at h
          nomatch h

theorem keepsRequest (ctx : Context) : KeepsRequest ctx (plugin.execute server ctx).2 := by
  unfold execute
  split
  · exact keepsRequest_reject ctx _ _ _
  split
  · exact keepsRequest_reject ctx _ _ _
  split
  · exact keepsRequest_reject ctx _ _ _
  dsimp only
  cases server (plugin.bindRequest _ _) with
  | accepted => trivial
  | refused => exact keepsRequest_reject ctx _ _ _
  | failed error => exact ⟨rfl, rfl, rfl⟩
  | timedOut => exact keepsRequest_reject ctx _ _ _

end Execute

/-! ## The name of the bind -/

/-- What only stands escaped in a name. -/
def escapedChars : List Char := ['\x00', '"', '+', ',', ';', '<', '>', '\\']

/-- A user name that is put into a name as it stands. -/
def NeedsNoEscape (username : String) : Prop :=
  (∀ c ∈ escapedChars, c ∉ username.toList) ∧ username.toList.head? ≠ some '#'

theorem needsNoEscape_iff (username : String) :
    (escapedChars.all fun c => username.toList.all (· ≠ c)) = true ∧ username.toList.head? ≠ some '#' ↔
      NeedsNoEscape username := by
  unfold NeedsNoEscape
  refine and_congr_left fun _ => ?_
  rw [List.all_eq_true]
  refine forall₂_congr fun c _ => ?_
  rw [List.all_eq_true]
  constructor
  · intro h hmem
    exact of_decide_eq_true (h c hmem) rfl
  · intro h d hd
    exact decide_eq_true fun heq => h (heq ▸ hd)

instance (username : String) : Decidable (NeedsNoEscape username) :=
  decidable_of_iff _ (needsNoEscape_iff username)

theorem reserved_eq : reserved = escapedChars.map fun c => UInt8.ofNat c.toNat := by decide

theorem escapedChars_ascii : ∀ c ∈ escapedChars, c.toNat < 128 := by
  intro c hc
  have hall : escapedChars.all (fun c => c.toNat < 128) = true := rfl
  exact of_decide_eq_true (List.all_eq_true.mp hall c hc)

/-- Without white space, a text is plain when it needs no escape. -/
theorem plain_iff {username : String} (hspace : ' ' ∉ username.toList) :
    DistinguishedName.Plain (asBytes username) ↔ NeedsNoEscape username := by
  have hbyte : (0x20 : UInt8) ∉ asBytes username :=
    (mem_asBytes_iff (show ' '.toNat < 128 by decide) username).not.mpr hspace
  have hhash := head_asBytes_iff (show '#'.toNat < 128 by decide) username
  constructor
  · intro h
    refine ⟨fun c hc hmem => ?_, hhash.not.mp h.first_hash⟩
    refine h.reserved _ ((mem_asBytes_iff (escapedChars_ascii c hc) username).mpr hmem) ?_
    rw [reserved_eq]
    exact List.mem_map_of_mem hc
  · rintro ⟨hchars, hfirst⟩
    refine ⟨fun b hb hmem => ?_, hhash.not.mpr hfirst, fun h => hbyte (List.mem_of_head? h),
      fun h => hbyte (List.mem_of_getLast? h)⟩
    rw [reserved_eq] at hmem
    obtain ⟨c, hc, rfl⟩ := List.mem_map.mp hmem
    exact hchars c hc ((mem_asBytes_iff (escapedChars_ascii c hc) username).mp hb)

theorem asBytes_buildBindDn (uid username baseDn : String) :
    asBytes (buildBindDn uid username baseDn) = join (asBytes uid) (asBytes username) (asBytes baseDn) := by
  have hequals : asBytes "=" = [0x3D] := by decide
  have hcomma : asBytes "," = [0x2C] := by decide
  unfold buildBindDn join
  rw [asBytes_append, asBytes_append, asBytes_append, asBytes_append, hequals, hcomma]
  simp only [List.append_assoc, List.nil_append, List.cons_append]

/-- A user name has no white space. -/
theorem space_not_mem [Base64] {header username password : String}
    (h : parseBasicCredentials header = some (username, password)) : ' ' ∉ username.toList := by
  obtain ⟨rest, -, h⟩ := Option.bind_eq_some_iff.mp h
  obtain ⟨decoded, -, h⟩ := Option.bind_eq_some_iff.mp h
  obtain ⟨text, -, h⟩ := Option.bind_eq_some_iff.mp h
  obtain ⟨⟨user, pass⟩, -, h⟩ := Option.bind_eq_some_iff.mp h
  obtain ⟨rfl, rfl⟩ := Prod.mk.inj (Option.some.inj h)
  intro hmem
  rw [stripWs, String.toList_ofList] at hmem
  exact absurd (List.mem_filter.mp hmem).2 (by decide)

theorem requiredText_ok {config : HashMap Json} {key s : String} (h : requiredText config key = .ok s) :
    trim s ≠ "" := by
  unfold requiredText at h
  split at h
  · rename_i s' hs'
    obtain rfl := Except.ok.inj h
    exact of_decide_eq_true (Option.filter_eq_some_iff.mp hs').2
  · nomatch h

/-- The base of an accepted configuration is not empty. -/
theorem baseDn_ne {config : HashMap Json} {plugin : LdapAuthPlugin} (h : fromConfig config = .ok plugin) :
    asBytes plugin.baseDn ≠ [] := by
  obtain ⟨baseDn, hbase, h⟩ := TryFold.bind_eq_ok.mp h
  obtain ⟨ldapUri, -, h⟩ := TryFold.bind_eq_ok.mp h
  obtain rfl := Except.ok.inj h
  intro hnil
  have hempty : baseDn = "" := asBytes_inj.mp (hnil.trans (show [] = asBytes "" by decide))
  refine requiredText_ok hbase ?_
  rw [hempty]
  decide

section Names

variable [Base64]

/-- The node makes one bind, under the name of the base with the user in front, and the user that it
    then writes to the message is this one. -/
def BindsAsNamed (server : BindRequest → BindOutcome) (ctx : Context) (username : String) (base : Dn) :
    Prop :=
  ∃ request, (plugin.execute server ctx).1 = [request] ∧
    readDn (asBytes request.dn) =
      some ([⟨asBytes plugin.uid, .string (asBytes username)⟩] :: base) ∧
    ∀ output, (plugin.execute server ctx).2 = .ok output →
      output.context.message["user"]? = some (.string username)

/-- The user that is written is the one of the credentials. -/
theorem user_of_ok {server : BindRequest → BindOutcome} {ctx : Context} {header username password : String}
    (hheader : firstHeader ctx "authorization" = some header)
    (hparse : parseBasicCredentials header = some (username, password)) {output : PluginOutput}
    (h : (plugin.execute server ctx).2 = .ok output) :
    output.context.message["user"]? = some (.string username) := by
  obtain ⟨header', username', password', hheader', hparse', -, -, -, hcontext⟩ :=
    plugin.execute_ok server h
  obtain rfl := Option.some.inj (hheader.symm.trans hheader')
  obtain ⟨rfl, rfl⟩ := Prod.mk.inj (Option.some.inj (hparse.symm.trans hparse'))
  rw [hcontext]
  exact (HashMap.get_insert ..).trans (if_pos rfl)

/-- **Whom the node binds as.**  It is the user it names exactly when the user name needs no escape; and
    then two users are two names. -/
theorem bindsAsNamed_iff {config : HashMap Json} {plugin : LdapAuthPlugin}
    (hplugin : fromConfig config = .ok plugin) (huid : isType (asBytes plugin.uid) = true) {base : Dn}
    (hbase : readDn (asBytes plugin.baseDn) = some base) :
    (∀ (server : BindRequest → BindOutcome) (ctx : Context) (header username password : String),
      firstHeader ctx "authorization" = some header →
      parseBasicCredentials header = some (username, password) → username ≠ "" → password ≠ "" →
      (plugin.BindsAsNamed server ctx username base ↔ NeedsNoEscape username)) ∧
    ∀ header username password header' username' password' : String,
      parseBasicCredentials header = some (username, password) →
      parseBasicCredentials header' = some (username', password') →
      NeedsNoEscape username → NeedsNoEscape username' → username ≠ username' →
      readDn (asBytes (plugin.bindRequest username password).dn) ≠
        readDn (asBytes (plugin.bindRequest username' password').dn) := by
  have hne := baseDn_ne hplugin
  have hread : ∀ {header username password : String},
      parseBasicCredentials header = some (username, password) →
      (readDn (asBytes (plugin.bindRequest username password).dn) =
        some ([⟨asBytes plugin.uid, .string (asBytes username)⟩] :: base) ↔ NeedsNoEscape username) := by
    intro header username password hparse
    rw [bindRequest, asBytes_buildBindDn, readDn_join_iff huid hne hbase, plain_iff (space_not_mem hparse)]
  constructor
  · intro server ctx header username password hheader hparse huser hpass
    rw [← hread hparse, BindsAsNamed, plugin.execute_credentials server hheader hparse huser hpass]
    constructor
    · rintro ⟨request, hrequest, hdn, -⟩
      obtain rfl := List.singleton_inj.mp hrequest
      exact hdn
    · intro hdn
      refine ⟨_, rfl, hdn, fun output houtput => ?_⟩
      rw [← plugin.execute_credentials server hheader hparse huser hpass] at houtput
      exact plugin.user_of_ok hheader hparse houtput
  · intro header username password header' username' password' hparse hparse' hplain hplain' hdiff heq
    rw [(hread hparse).mpr hplain, (hread hparse').mpr hplain'] at heq
    have hattribute := (List.cons.inj (List.cons.inj (Option.some.inj heq)).1).1
    exact hdiff (asBytes_inj.mp (Value.string.inj (Attribute.mk.inj hattribute).2))

end Names

/-! ## The directory of an example -/

/-- A configuration with only what is required. -/
def exampleConfig : HashMap Json :=
  ((∅ : HashMap Json).insert "base_dn" (.string "dc=org")).insert "ldap_uri" (.string "ldap://h:389")

def examplePlugin : LdapAuthPlugin where
  baseDn := "dc=org"
  ldapUri := "ldap://h:389"
  uid := "cn"
  useTls := false
  tlsVerify := false
  realm := "ldap"
  timeoutMs := 10000

/-- A request with these credentials. -/
def exampleContext (header : String) : Context :=
  Context.new { (default : GatewayRequest) with
    headers := (∅ : HashMap (List String)).insert "authorization" [header] }

/-- The base `dc=org`. -/
def exampleBase : Dn := [[⟨asBytes "dc", .string (asBytes "org")⟩]]

theorem fromConfig_example : fromConfig exampleConfig = .ok examplePlugin := by decide +kernel

theorem readDn_example : readDn (asBytes examplePlugin.baseDn) = some exampleBase := by decide +kernel

theorem firstHeader_example (header : String) :
    firstHeader (exampleContext header) "authorization" = some header := by
  have hvalue : (exampleContext header).request.headers["authorization"]? = some [header] :=
    (HashMap.get_insert ..).trans (if_pos rfl)
  rw [firstHeader, hvalue]
  rfl

theorem bindsAsNamed_iff_example :
    let _ : Base64 := standardBase64.toBase64
    ∀ server : BindRequest → BindOutcome,
      examplePlugin.BindsAsNamed server (exampleContext "Basic YWxpY2U6cHc=") "alice" exampleBase ∧
      readDn (asBytes (examplePlugin.bindRequest "alice" "pw").dn) ≠
        readDn (asBytes (examplePlugin.bindRequest "ab" "pw").dn) := by
  intro base64 server
  have hparse : parseBasicCredentials "Basic YWxpY2U6cHc=" = some ("alice", "pw") := by decide +kernel
  have hparse' : parseBasicCredentials "Basic YWI6cHc=" = some ("ab", "pw") := by decide +kernel
  obtain ⟨hbinds, hnames⟩ := bindsAsNamed_iff fromConfig_example (by decide) readDn_example
  constructor
  · exact (hbinds server _ _ "alice" "pw" (firstHeader_example _) hparse (by decide) (by decide)).mpr
      (by decide)
  · exact hnames _ _ _ _ _ _ hparse hparse' (by decide) (by decide) (by decide)

/-- A comma in the user name makes a name of its own, and an escape in it makes the name of another user. -/
theorem comma_and_escape_bind_elsewhere :
    let _ : Base64 := standardBase64.toBase64
    fromConfig exampleConfig = .ok examplePlugin ∧ isType (asBytes examplePlugin.uid) = true ∧
    readDn (asBytes examplePlugin.baseDn) = some exampleBase ∧
    parseBasicCredentials "Basic Ym9iLG91PXg6cHc=" = some ("bob,ou=x", "pw") ∧
    (∀ server : BindRequest → BindOutcome, ¬ examplePlugin.BindsAsNamed server
      (exampleContext "Basic Ym9iLG91PXg6cHc=") "bob,ou=x" exampleBase) ∧
    parseBasicCredentials "Basic YVw2Mjpwdw==" = some ("a\\62", "pw") ∧
    parseBasicCredentials "Basic YWI6cHc=" = some ("ab", "pw") ∧
    readDn (asBytes (examplePlugin.bindRequest "a\\62" "pw").dn) =
      readDn (asBytes (examplePlugin.bindRequest "ab" "pw").dn) := by
  intro base64
  have hparse : parseBasicCredentials "Basic Ym9iLG91PXg6cHc=" = some ("bob,ou=x", "pw") := by
    decide +kernel
  refine ⟨fromConfig_example, by decide, readDn_example, hparse, fun server h => ?_, by decide +kernel,
    by decide +kernel, by decide +kernel⟩
  obtain ⟨request, hrequest, hdn, -⟩ := h
  rw [examplePlugin.execute_credentials server (firstHeader_example _) hparse (by decide) (by decide)]
    at hrequest
  obtain rfl := List.singleton_inj.mp hrequest
  revert hdn
  decide +kernel

end LdapAuthPlugin

end Featherbit
