/-
  `multi-auth` (`plugins/native/multi_auth.rs`): the first sub-plugin that accepts decides.

  1. **Any node as a sub-plugin** — `MultiAuthPlugin σ` over a type `σ` of sub-plugins and the way
     one of them runs.  A failed attempt hands its context to the next one, so what a later
     sub-plugin sees is decided by what the earlier ones did to it.

  2. **A failed attempt leaves nothing** (`attempts_eq`) — when every rejection keeps the context but
     for the response, the reset makes the next attempt start on the original context, and the loop
     is the search for the first sub-plugin that accepts it.

  3. **The five authentication nodes** keep the request on every path by which they reject
     (`AuthPlugin.keepsRequest`), whatever the consumers and the clock are at each attempt.
-/
import Featherbit.Plugins.AuthNodes
import Featherbit.Plugins.HmacAuth

namespace Featherbit

/-- The plugin, over the type of its sub-plugins. -/
structure MultiAuthPlugin (σ : Type) where
  subPlugins : List σ

namespace MultiAuthPlugin

variable {σ : Type}

section FromConfig

variable (createPlugin : String → HashMap Json → Except String σ)

/-- One entry of `auth_plugins`: a map of one key. -/
def subPlugin (idx : Nat) (entry : Json) : Except String σ :=
  match entry.asObject with
  | none => .error ("multi-auth 'auth_plugins[" ++ showNat idx ++
      "]' must be a single-key map \x7bplugin-type: config\x7d")
  | some [(pluginType, inner)] =>
    match createPlugin pluginType (Std.ExtTreeMap.ofList (inner.asObject.getD []) compare) with
    | .ok plugin => .ok plugin
    | .error e => .error ("multi-auth sub-plugin '" ++ pluginType ++ "': " ++ e)
  | some _ => .error ("multi-auth 'auth_plugins[" ++ showNat idx ++
      "]' must have exactly one key (the plugin type)")

/-- The entries from the `idx`-th on. -/
def subPluginsFrom : Nat → List Json → Except String (List σ)
  | _, [] => .ok []
  | idx, entry :: entries => do
    let plugin ← subPlugin createPlugin idx entry
    let plugins ← subPluginsFrom (idx + 1) entries
    return plugin :: plugins

/-- `MultiAuthPlugin::from_config`. -/
def fromConfig (config : HashMap Json) : Except String (MultiAuthPlugin σ) :=
  match config["auth_plugins"]?.bind Json.asArray with
  | none => .error "multi-auth plugin requires an 'auth_plugins' array"
  | some [] => .error "multi-auth 'auth_plugins' must not be empty"
  | some entries => do
    let subPlugins ← subPluginsFrom createPlugin 0 entries
    return { subPlugins := subPlugins }

end FromConfig

/-- The 401 of `reject`, over a response. -/
def rejected (response : GatewayResponse) : GatewayResponse where
  statusCode := 401
  headers := response.headers.insert "content-type" ["application/json"]
  body := asBytes "\x7b\"error\": \"unauthorized\", \"message\": \"Authorization Failed\"\x7d"

/-- `reject`. -/
def reject (ctx : Context) : PluginResult :=
  .error {
    context := { ctx with response := rejected ctx.response }
    error := { nodeId := "", code := "MULTI_AUTH_FAILED",
               message := "all authentication methods failed", metadata := ∅ } }

variable (run : Nat → σ → Context → PluginResult)

/-- The loop of `execute`, from the `n`-th attempt on. -/
def attempts (originalResponse : GatewayResponse) : Nat → List σ → Context → PluginResult
  | _, [], ctx => reject ctx
  | n, sub :: subs, ctx =>
    match run n sub ctx with
    | .ok output => .ok output
    | .error err =>
      attempts originalResponse (n + 1) subs { err.context with response := originalResponse }

/-- `execute`; `run n` runs a sub-plugin as the `n`-th attempt. -/
def execute (plugin : MultiAuthPlugin σ) (ctx : Context) : PluginResult :=
  attempts run ctx.response 0 plugin.subPlugins ctx

/-! ## The first that accepts -/

/-- What the first sub-plugin that accepts the context returns on it. -/
def firstAccepted (ctx : Context) : Nat → List σ → Option PluginOutput
  | _, [] => none
  | n, sub :: subs =>
    match run n sub ctx with
    | .ok output => some output
    | .error _ => firstAccepted ctx (n + 1) subs

/-- After a failed attempt and the reset the context is the original one. -/
theorem reset_eq {ctx : Context} {err : PluginExecutionError} (h : KeepsRequest ctx (.error err)) :
    { err.context with response := ctx.response } = ctx := by
  rcases ctx with ⟨request, response, message, errors⟩
  rcases err with ⟨⟨request', response', message', errors'⟩, error⟩
  obtain ⟨hrequest, hmessage, herrors⟩ := h
  simp only at hrequest hmessage herrors
  rw [hrequest, hmessage, herrors]

/-- The loop is the search for the first sub-plugin that accepts the context it started with. -/
theorem attempts_eq {ctx : Context} (hrun : ∀ n sub, KeepsRequest ctx (run n sub ctx)) :
    ∀ (subs : List σ) (n : Nat), attempts run ctx.response n subs ctx =
      match firstAccepted run ctx n subs with
      | some output => .ok output
      | none => reject ctx := by
  intro subs
  induction subs with
  | nil => intro n; rfl
  | cons sub subs ih =>
    intro n
    have hkeep := hrun n sub
    rw [attempts, firstAccepted]
    cases hresult : run n sub ctx with
    | ok output => rfl
    | error err =>
      rw [hresult] at hkeep
      show attempts run ctx.response (n + 1) subs { err.context with response := ctx.response } = _
      rw [reset_eq hkeep]
      exact ih (n + 1)

/-- The search finds an output where a sub-plugin accepts and none before it does. -/
theorem firstAccepted_eq_some (ctx : Context) (output : PluginOutput) :
    ∀ (subs : List σ) (n : Nat), firstAccepted run ctx n subs = some output ↔
      ∃ i sub, subs[i]? = some sub ∧ run (n + i) sub ctx = .ok output ∧
        ∀ j earlier, j < i → subs[j]? = some earlier → ∃ err, run (n + j) earlier ctx = .error err := by
  intro subs
  induction subs with
  | nil =>
    intro n
    simp [firstAccepted]
  | cons first subs ih =>
    intro n
    rw [firstAccepted]
    cases hresult : run n first ctx with
    | ok found =>
      constructor
      · intro h
        cases h
        exact ⟨0, first, rfl, hresult, fun j _ hj => absurd hj (Nat.not_lt_zero j)⟩
      · rintro ⟨i, sub, hsub, hok, hearlier⟩
        cases i with
        | zero =>
          cases hsub
          rw [Nat.add_zero, hresult] at hok
          cases hok
          rfl
        | succ i =>
          -- the first one accepts, so none later is the first
          obtain ⟨err, herr⟩ := hearlier 0 first (Nat.succ_pos i) rfl
          rw [Nat.add_zero, hresult] at herr
          cases herr
    | error err =>
      show firstAccepted run ctx (n + 1) subs = some output ↔ _
      rw [ih (n + 1)]
      constructor
      · rintro ⟨i, sub, hsub, hok, hearlier⟩
        refine ⟨i + 1, sub, hsub, ?_, ?_⟩
        · rw [← hok, Nat.add_assoc, Nat.add_comm 1 i]
        · intro j earlier hj hat
          cases j with
          | zero =>
            cases hat
            exact ⟨err, hresult⟩
          | succ j =>
            obtain ⟨e, he⟩ := hearlier j earlier (by omega) hat
            exact ⟨e, by rw [← he, Nat.add_assoc, Nat.add_comm 1 j]⟩
      · rintro ⟨i, sub, hsub, hok, hearlier⟩
        cases i with
        | zero =>
          cases hsub
          rw [Nat.add_zero, hresult] at hok
          cases hok
        | succ i =>
          refine ⟨i, sub, hsub, ?_, ?_⟩
          · rw [← hok, Nat.add_assoc, Nat.add_comm 1 i]
          · intro j earlier hj hat
            obtain ⟨e, he⟩ := hearlier (j + 1) earlier (by omega) hat
            exact ⟨e, by rw [← he, Nat.add_assoc, Nat.add_comm 1 j]⟩

/-- The search finds nothing where every sub-plugin rejects. -/
theorem firstAccepted_eq_none (ctx : Context) :
    ∀ (subs : List σ) (n : Nat), firstAccepted run ctx n subs = none ↔
      ∀ i sub, subs[i]? = some sub → ∃ err, run (n + i) sub ctx = .error err := by
  intro subs
  induction subs with
  | nil =>
    intro n
    simp [firstAccepted]
  | cons first subs ih =>
    intro n
    rw [firstAccepted]
    cases hresult : run n first ctx with
    | ok found =>
      constructor
      · intro h
        cases h
      · intro h
        obtain ⟨err, herr⟩ := h 0 first rfl
        rw [Nat.add_zero, hresult] at herr
        cases herr
    | error err =>
      show firstAccepted run ctx (n + 1) subs = none ↔ _
      rw [ih (n + 1)]
      constructor
      · intro h i sub hsub
        cases i with
        | zero =>
          cases hsub
          exact ⟨err, hresult⟩
        | succ i =>
          obtain ⟨e, he⟩ := h i sub hsub
          exact ⟨e, by rw [← he, Nat.add_assoc, Nat.add_comm 1 i]⟩
      · intro h i sub hsub
        obtain ⟨e, he⟩ := h (i + 1) sub hsub
        exact ⟨e, by rw [← he, Nat.add_assoc, Nat.add_comm 1 i]⟩

end MultiAuthPlugin

/-! ## The authentication nodes -/

/-- `HmacAuthPlugin::reject` keeps the request. -/
theorem HmacAuthPlugin.keepsRequest [CaseMapping] [Hmac] [Base64] (plugin : HmacAuthPlugin)
    (store store' : ConsumerStore) (now : UInt64) (ctx : Context) :
    KeepsRequest ctx (plugin.execute store store' now ctx) := by
  have hreject : ∀ message, KeepsRequest ctx (plugin.reject ctx message) :=
    fun message => ⟨rfl, rfl, rfl⟩
  have hattach : KeepsRequest ctx (plugin.attachAnonymous store' ctx) := by
    unfold attachAnonymous
    split
    · trivial
    · exact hreject _
  have hanonymous : ∀ message, KeepsRequest ctx
      (if plugin.anonymousConsumer.isSome then plugin.attachAnonymous store' ctx
       else plugin.reject ctx message) := by
    intro message
    split
    · exact hattach
    · exact hreject message
  unfold execute
  dsimp only
  cases retrieveParams ctx with
  | none => exact hanonymous _
  | some params =>
    dsimp only
    cases plugin.validateCommon now ctx params with
    | error e => exact hreject e
    | ok _ =>
      dsimp only
      cases plugin.inlineSecret params.accessKey with
      | some secret =>
        dsimp only
        split
        · trivial
        · exact hreject _
      | none =>
        dsimp only
        cases plugin.findConsumer store params.accessKey with
        | some consumer =>
          dsimp only
          split
          · trivial
          · exact hreject _
        | none => exact hanonymous _

/-- An authentication node. -/
inductive AuthPlugin where
  | keyAuth (plugin : KeyAuthPlugin)
  | basicAuth (plugin : BasicAuthPlugin)
  | jwtAuth (plugin : JwtAuthPlugin)
  | hmacAuth (plugin : HmacAuthPlugin)
  | jweDecrypt (plugin : JweDecryptPlugin)

/-- What a run reads besides its context: the consumers as loaded, the consumers as loaded anew, and
    the clock. -/
structure AuthWorld where
  store : ConsumerStore
  store' : ConsumerStore
  now : UInt64

section AuthPlugin

variable [CaseMapping] [Hmac] [Base64] [Base64Url] [JsonCodec] [JwtSecret] [Aes256GcmAad]

/-- `execute` of the node. -/
def AuthPlugin.execute (world : AuthWorld) (ctx : Context) : AuthPlugin → PluginResult
  | .keyAuth plugin => plugin.execute world.store world.store' ctx
  | .basicAuth plugin => plugin.execute world.store world.store' ctx
  | .jwtAuth plugin => plugin.execute world.store world.now ctx
  | .hmacAuth plugin => plugin.execute world.store world.store' world.now ctx
  | .jweDecrypt plugin => plugin.execute world.store ctx

/-- An authentication node that rejects changes nothing but the response. -/
theorem AuthPlugin.keepsRequest (world : AuthWorld) (ctx : Context) (sub : AuthPlugin) :
    KeepsRequest ctx (sub.execute world ctx) := by
  cases sub with
  | keyAuth plugin => exact plugin.keepsRequest world.store world.store' ctx
  | basicAuth plugin => exact plugin.keepsRequest world.store world.store' ctx
  | jwtAuth plugin => exact plugin.keepsRequest world.store world.now ctx
  | hmacAuth plugin => exact plugin.keepsRequest world.store world.store' world.now ctx
  | jweDecrypt plugin => exact plugin.keepsRequest world.store ctx

/-- `multi-auth` is the disjunction of its authentication nodes, each run alone on the original
    context with the consumers and the clock of its attempt: the first that accepts answers, and
    when all reject, the original context goes out with its response replaced by the 401. -/
theorem MultiAuthPlugin.first_accepting_answers (worlds : Nat → AuthWorld)
    (plugin : MultiAuthPlugin AuthPlugin) (ctx : Context) :
    let result := plugin.execute (fun n sub ctx => sub.execute (worlds n) ctx) ctx
    let rejects := fun (n : Nat) (sub : AuthPlugin) => ∃ err, sub.execute (worlds n) ctx = .error err
    (∀ output, result = .ok output ↔
      ∃ n sub, plugin.subPlugins[n]? = some sub ∧ sub.execute (worlds n) ctx = .ok output ∧
        ∀ m earlier, m < n → plugin.subPlugins[m]? = some earlier → rejects m earlier) ∧
    ∀ err, result = .error err ↔
      (∀ n sub, plugin.subPlugins[n]? = some sub → rejects n sub) ∧
      err.context = { ctx with response := rejected ctx.response } ∧
      err.error = { nodeId := "", code := "MULTI_AUTH_FAILED",
                    message := "all authentication methods failed", metadata := ∅ } := by
  intro result rejects
  have hresult : result = _ := attempts_eq (fun n (sub : AuthPlugin) ctx => sub.execute (worlds n) ctx)
    (fun n sub => sub.keepsRequest (worlds n) ctx) plugin.subPlugins 0
  have hsome := fun output => firstAccepted_eq_some
    (fun n (sub : AuthPlugin) ctx => sub.execute (worlds n) ctx) ctx output plugin.subPlugins 0
  have hnone := firstAccepted_eq_none
    (fun n (sub : AuthPlugin) ctx => sub.execute (worlds n) ctx) ctx plugin.subPlugins 0
  simp only [Nat.zero_add] at hsome hnone
  rw [hresult]
  cases hfirst : firstAccepted (fun n (sub : AuthPlugin) ctx => sub.execute (worlds n) ctx) ctx 0
      plugin.subPlugins with
  | some found =>
    constructor
    · intro output
      rw [← hsome output, hfirst]
      simp
    · intro err
      constructor
      · intro h
        cases h
      · rintro ⟨hall, -, -⟩
        rw [hnone.mpr hall] at hfirst
        cases hfirst
  | none =>
    constructor
    · intro output
      rw [← hsome output, hfirst]
      simp [reject]
    · intro err
      constructor
      · intro h
        cases h
        exact ⟨hnone.mp hfirst, rfl, rfl⟩
      · rintro ⟨-, hcontext, herror⟩
        rcases err with ⟨context, error⟩
        simp only at hcontext herror
        rw [hcontext, herror]
        rfl

end AuthPlugin

end Featherbit
