/-
  THE PLUGIN CONTRACT (`plugins/mod.rs`) and the two structural plugins.

  A plugin takes the context by value and hands it back in either outcome.  What it does besides
  (counters, clocks, upstream calls) is its effect on a world `σ`, threaded through every
  execution; `σ` is arbitrary, so a plugin may answer differently each time it is visited.  The
  body of a native or scripted plugin is not needed to know how the engine drives it: `native`
  stands for the arms of `create_plugin` that are not spelled out.
-/
import Featherbit.Context

namespace Featherbit

/-- The result of a successful plugin execution. -/
structure PluginOutput where
  context : Context
  namedOutputs : HashMap Json

/-- A failed plugin execution, with the context preserved. -/
structure PluginExecutionError where
  context : Context
  error : GatewayError

abbrev PluginResult := Except PluginExecutionError PluginOutput

/-- The context a plugin hands back, in either outcome. -/
def PluginResult.context : PluginResult → Context
  | .ok output => output.context
  | .error err => err.context

/-- `trait Plugin`. -/
structure Plugin (σ : Type) where
  pluginType : String
  execute : Context → HashMap Json → σ → PluginResult × σ

/-- A plugin that leaves `ctx.errors` as it found them, whatever happens. -/
def Plugin.KeepsErrors {σ : Type} (p : Plugin σ) : Prop :=
  ∀ ctx inputs w, (PluginResult.context (p.execute ctx inputs w).1).errors = ctx.errors

/-- The shape of `create_plugin`: node type and interpolated config to a plugin, or an error.
    Every plugin reports the type it was registered under. -/
structure PluginFactory (σ : Type) where
  create : String → HashMap Json → Except String (Plugin σ)
  typed : ∀ {nodeType config plugin}, create nodeType config = .ok plugin →
    plugin.pluginType = nodeType

section Structural

variable {σ : Type}

/-- The pass-through both structural nodes are. -/
def passThrough (pluginType : String) : Plugin σ where
  pluginType := pluginType
  execute ctx _ w := (.ok { context := ctx, namedOutputs := ∅ }, w)

/-- `ListenerPlugin`, the entry point of every policy graph. -/
def listenerPlugin : Plugin σ := passThrough "listener"

/-- `ClientPlugin`, the terminal point of every policy graph. -/
def clientPlugin : Plugin σ := passThrough "client"

theorem passThrough_keepsErrors (pluginType : String) :
    (passThrough (σ := σ) pluginType).KeepsErrors :=
  fun _ _ _ => rfl

/-- `create_plugin`: the structural arms, and `native` for the others. -/
def createPlugin (native : PluginFactory σ) : PluginFactory σ where
  create nodeType config :=
    match nodeType with
    | "listener" => .ok listenerPlugin
    | "client" => .ok clientPlugin
    | other => native.create other config
  typed := by
    intro nodeType config plugin h
    split at h
    · rw [← Except.ok.inj h]; rfl
    · rw [← Except.ok.inj h]; rfl
    · exact native.typed h

/-- A factory that knows no type at all: what is left of `create_plugin` for a policy of
    structural nodes only. -/
def unknownTypes : PluginFactory σ where
  create nodeType _ := .error ("Unknown plugin type: " ++ nodeType)
  typed h := nomatch h

end Structural

end Featherbit
