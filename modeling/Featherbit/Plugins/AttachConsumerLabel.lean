/-
  THE `attach-consumer-label` NODE (`plugins/native/attach_consumer_label.rs`): the attached
  consumer's labels, copied into upstream request headers.

  What the node writes is a list of headers read off `consumer.labels` alone (`labelWrites`); it
  never removes one (`execute_headers`).
-/
import Featherbit.Plugins

namespace Featherbit

structure AttachConsumerLabelPlugin where
  /-- put before each label key to form the header name -/
  headerPrefix : String

namespace AttachConsumerLabelPlugin

/-- `AttachConsumerLabelPlugin::from_config`. -/
def fromConfig (config : HashMap Json) : Except String AttachConsumerLabelPlugin :=
  .ok { headerPrefix := (config["header_prefix"]?.bind Json.asStr).getD "X-Consumer-" }

section Execute

variable [CaseMapping] (plugin : AttachConsumerLabelPlugin)

/-- The header one label goes to. -/
def headerName (key : String) : String := toLowercase (plugin.headerPrefix ++ key)

/-- One label of the object, written where its value is a text. -/
def setLabel (headers : HashMap (List String)) (label : String × Json) : HashMap (List String) :=
  match label.2.asStr with
  | some value => headers.insert (plugin.headerName label.1) [value]
  | none => headers

/-- `execute`. -/
def execute (ctx : Context) : PluginResult :=
  let ctx :=
    match ctx.message["consumer.labels"]?.bind Json.asObject with
    | some labels =>
      { ctx with request :=
          { ctx.request with headers := labels.foldl plugin.setLabel ctx.request.headers } }
    | none => ctx
  .ok { context := ctx, namedOutputs := ∅ }

/-- The headers a list of labels asks for. -/
def labelWrites (labels : List (String × Json)) : List (String × List String) :=
  labels.filterMap fun label =>
    label.2.asStr.map fun value => (plugin.headerName label.1, [value])

theorem foldl_setLabel (labels : List (String × Json)) (headers : HashMap (List String)) :
    labels.foldl plugin.setLabel headers = headers.insertMany (plugin.labelWrites labels) := by
  induction labels generalizing headers with
  | nil => exact Std.ExtTreeMap.insertMany_nil.symm
  | cons label labels ih =>
    rw [List.foldl_cons, ih]
    -- a label that is not a text is passed over
    cases hvalue : label.2.asStr with
    | none => simp [setLabel, labelWrites, hvalue]
    | some value => simp [setLabel, labelWrites, hvalue, Std.ExtTreeMap.insertMany_cons]

/-- What the node leaves of the headers: those of the message's `consumer.labels` are written. -/
theorem execute_headers (ctx : Context) :
    (PluginResult.context (plugin.execute ctx)).request.headers =
      ctx.request.headers.insertMany
        (plugin.labelWrites ((ctx.message["consumer.labels"]?.bind Json.asObject).getD [])) := by
  unfold execute
  cases ctx.message["consumer.labels"]?.bind Json.asObject with
  | none => exact Std.ExtTreeMap.insertMany_nil.symm
  | some labels => exact plugin.foldl_setLabel labels ctx.request.headers

end Execute

end AttachConsumerLabelPlugin

end Featherbit
