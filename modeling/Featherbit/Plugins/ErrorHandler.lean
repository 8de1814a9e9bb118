/-
  THE NODE `error-handler` (`plugins/native/error_handler.rs`), which answers with a template in which three
  placeholders stand for the fields of the last error.

  The placeholders are replaced one after another, so a later one is also found in what an earlier one was
  replaced with, or where such a text ends.

  1. **The fields at once** (`rendered_iff_nodeId`, `rendered_all_iff`) — the body is the template with its
     own placeholders replaced exactly when filling in the code makes no `error.message` and filling in both
     makes no `error.node_id`, or what is made is replaced with itself.
  2. **As JSON** (`rendersTree_of_plain`, `plain_of_rendersTree`) — a document with placeholders in its
     strings is read as its value where the fields stand for themselves in a JSON string; nothing escapes them.
-/
import Featherbit.Lib.JsonTemplate
import Featherbit.Lib.Placeholders
import Featherbit.Plugins.AuthNodes

namespace Featherbit

open JsonGrammar Placeholders

/-- What a placeholder stands for. -/
inductive ErrorField where
  | code
  | message
  | nodeId
deriving DecidableEq

namespace ErrorField

/-- The placeholders of a template. -/
def placeholder : ErrorField → List Char
  | code => "\x7b\x7berror.code\x7d\x7d".toList
  | message => "\x7b\x7berror.message\x7d\x7d".toList
  | nodeId => "\x7b\x7berror.node_id\x7d\x7d".toList

/-- The field of an error. -/
def value (e : GatewayError) : ErrorField → List Char
  | code => e.code.toList
  | message => e.message.toList
  | nodeId => e.nodeId.toList

def all : List ErrorField := [code, message, nodeId]

end ErrorField

open ErrorField

/-- `s.replace(placeholder, value)`. -/
def replaceField (field : ErrorField) (value s : String) : String :=
  String.ofList (Placeholders.replace field.placeholder value.toList s.toList)

structure ErrorHandlerPlugin where
  statusCode : UInt16
  bodyTemplate : String
deriving DecidableEq

namespace ErrorHandlerPlugin

/-- `ErrorHandlerPlugin::from_config`. -/
def fromConfig (config : HashMap Json) : Except String ErrorHandlerPlugin :=
  .ok {
    statusCode := ((config["status_code"]?.bind Json.asU64).getD 500).toUInt16
    bodyTemplate := (configStr config "body_template").getD
      "\x7b\"error\": \"internal_error\", \"message\": \"An unexpected error occurred\"\x7d" }

/-- The template with the fields of an error, one after another. -/
def rendered (plugin : ErrorHandlerPlugin) (e : GatewayError) : String :=
  replaceField .nodeId e.nodeId (replaceField .message e.message (replaceField .code e.code plugin.bodyTemplate))

/-- `ErrorHandlerPlugin::execute`. -/
def execute (plugin : ErrorHandlerPlugin) (ctx : Context) : PluginResult :=
  let body := match ctx.errors.getLast? with
    | some lastError => plugin.rendered lastError
    | none => plugin.bodyTemplate
  .ok {
    context := { ctx with
      response := {
        statusCode := plugin.statusCode
        headers := ctx.response.headers.insert "content-type" ["application/json"]
        body := asBytes body } }
    namedOutputs := ∅ }

/-! ## The fields at once -/

variable (plugin : ErrorHandlerPlugin)

/-- The template: text around placeholders. -/
def template : Template Char ErrorField := Template.parse placeholder ErrorField.all plugin.bodyTemplate.toList

/-- The template with the fields of an error in the place of its placeholders. -/
def filled (e : GatewayError) : String := String.ofList (plugin.template.write (value e))

/-- The template with a code filled in. -/
def withCode (code : String) : Template Char ErrorField := plugin.template.fill .code code.toList

/-- The template with a code and a message filled in. -/
def withMessage (code message : String) : Template Char ErrorField :=
  (plugin.withCode code).fill .message message.toList

/-- A code makes no placeholder of a message. -/
def CodeClean (code : String) : Prop :=
  ∀ run ∈ (plugin.withCode code).runs, ¬ message.placeholder <:+: run

/-- A code and a message make no placeholder of a node. -/
def MessageClean (code message : String) : Prop :=
  ∀ run ∈ (plugin.withMessage code message).runs, ¬ nodeId.placeholder <:+: run

end ErrorHandlerPlugin

/-- No placeholder runs into another one. -/
theorem ErrorField.apart (field : ErrorField) : Template.Apart placeholder field where
  ne_nil := by cases field <;> decide
  before j := by cases field <;> cases j <;> decide +kernel
  inside j hj := by
    cases field <;> cases j <;> first
      | exact absurd rfl hj
      | decide +kernel

namespace ErrorHandlerPlugin

variable {plugin : ErrorHandlerPlugin} {code message : String}

/-- The code is filled in wherever its placeholder is, and nowhere else. -/
theorem replaceField_code (code : String) : replaceField .code code plugin.bodyTemplate =
    String.ofList ((plugin.withCode code).write placeholder) := by
  have hne := fun field => (ErrorField.apart field).ne_nil
  have htemplate := Template.write_parse ErrorField.all hne plugin.bodyTemplate.toList
  have hclean := Template.parse_clean hne (show ErrorField.code ∈ ErrorField.all by decide)
    plugin.bodyTemplate.toList
  unfold replaceField withCode template
  rw [← Template.replace_write_of_clean (ErrorField.apart .code) _ hclean, htemplate]

/-- The template with all fields, from the one with a code and a message. -/
theorem write_withMessage (e : GatewayError) :
    (plugin.withMessage e.code e.message).write (Function.update placeholder .nodeId e.nodeId.toList) =
      plugin.template.write (value e) := by
  unfold withMessage withCode
  rw [Template.write_fill, Template.write_fill]
  refine Template.write_congr fun field _ => ?_
  cases field <;> rfl

/-- The message is filled in wherever its placeholder is, and nowhere else, or is that placeholder. -/
theorem replaceField_message (h : plugin.CodeClean code ∨ message.toList = ErrorField.message.placeholder) :
    replaceField .message message (replaceField .code code plugin.bodyTemplate) =
      String.ofList ((plugin.withMessage code message).write placeholder) := by
  rw [replaceField_code]
  unfold replaceField withMessage
  rw [String.toList_ofList]
  rcases h with hclean | hsame
  · rw [Template.replace_write_of_clean (ErrorField.apart .message) _ hclean]
  · rw [hsame, replace_self (ErrorField.apart .message).ne_nil, Template.write_fill, Function.update_eq_self]

/-- **A node's name** is filled in wherever its placeholder is, and nowhere else, exactly when none was made, or
    it is that placeholder. -/
theorem rendered_iff_nodeId (e : GatewayError)
    (h : plugin.CodeClean e.code ∨ e.message.toList = ErrorField.message.placeholder) :
    plugin.rendered e = plugin.filled e ↔
      plugin.MessageClean e.code e.message ∨ e.nodeId.toList = ErrorField.nodeId.placeholder := by
  have happ := ErrorField.apart .nodeId
  have hrendered : plugin.rendered e = String.ofList
      (((plugin.withMessage e.code e.message).mapRuns (replace ErrorField.nodeId.placeholder e.nodeId.toList)).write
        (Function.update placeholder .nodeId e.nodeId.toList)) := by
    unfold rendered
    rw [replaceField_message h, replaceField, String.toList_ofList, Template.replace_write happ]
  unfold filled
  rw [hrendered, String.ofList_inj, ← write_withMessage]
  constructor
  · exact Template.clean_of_mapRuns_write happ _
  · rintro (hclean | hsame)
    · rw [Template.mapRuns_of_forall fun run hrun => replace_of_not_infix (hclean run hrun)]
    · rw [hsame, Template.mapRuns_of_forall fun run _ => replace_self happ.ne_nil run]

/-- **All nodes.**  Whatever the node is called, the fields are filled in at once exactly when neither the code
    nor the message makes a placeholder. -/
theorem rendered_all_iff (e : GatewayError) :
    (∀ nodeId, plugin.rendered { e with nodeId := nodeId } = plugin.filled { e with nodeId := nodeId }) ↔
      (plugin.CodeClean e.code ∨ e.message.toList = ErrorField.message.placeholder) ∧
        plugin.MessageClean e.code e.message := by
  constructor
  · intro h
    have hcode : plugin.CodeClean e.code ∨ e.message.toList = ErrorField.message.placeholder := by
      -- a node that is called as its placeholder leaves the text of the second replacement
      have hself := h (String.ofList ErrorField.nodeId.placeholder)
      have hleft : plugin.rendered { e with nodeId := String.ofList ErrorField.nodeId.placeholder } =
          String.ofList (((plugin.withCode e.code).mapRuns
            (replace ErrorField.message.placeholder e.message.toList)).write
              (Function.update placeholder .message e.message.toList)) := by
        unfold rendered
        rw [replaceField_code, replaceField, replaceField, String.toList_ofList, String.toList_ofList,
          String.toList_ofList, replace_self (ErrorField.apart .nodeId).ne_nil,
          Template.replace_write (ErrorField.apart .message)]
      have hright : plugin.filled { e with nodeId := String.ofList ErrorField.nodeId.placeholder } =
          String.ofList ((plugin.withCode e.code).write (Function.update placeholder .message e.message.toList)) := by
        unfold filled
        rw [← write_withMessage, String.toList_ofList, Function.update_eq_self, withMessage, Template.write_fill]
      rw [hleft, hright, String.ofList_inj] at hself
      exact Template.clean_of_mapRuns_write (ErrorField.apart .message) _ hself
    refine ⟨hcode, ?_⟩
    -- an empty name is no placeholder
    have hempty := (rendered_iff_nodeId { e with nodeId := "" } hcode).mp (h "")
    have hplaceholder : ("" : String).toList ≠ ErrorField.nodeId.placeholder := by decide
    exact hempty.resolve_right hplaceholder
  · rintro ⟨hcode, hmessage⟩ nodeId
    exact (rendered_iff_nodeId { e with nodeId := nodeId } hcode).mpr (Or.inl hmessage)

/-! ## As JSON -/

variable (plugin)

/-- The template is this document, whose holes are its placeholders. -/
def IsDocument (doc : Document ErrorField) : Prop :=
  ∀ f : ErrorField → List Char, plugin.template.write f = doc.write f

/-- Every context with this last error is answered with this text, as JSON. -/
def AnswersWith (e : GatewayError) (text : String) : Prop :=
  ∀ ctx : Context, ctx.errors.getLast? = some e → ∃ output, plugin.execute ctx = .ok output ∧
    output.context.response.headers["content-type"]? = some ["application/json"] ∧
    output.context.response.body = asBytes text

/-- Every context with this last error is answered with a document of this value. -/
def AnswersTree (e : GatewayError) (tree : Tree) : Prop :=
  ∃ text, plugin.AnswersWith e text ∧ parse text.toList = some tree

variable {plugin}

theorem answersWith_iff {e : GatewayError} {text : String} :
    plugin.AnswersWith e text ↔ plugin.rendered e = text := by
  have hbody : ∀ ctx : Context, ctx.errors.getLast? = some e → ∃ output, plugin.execute ctx = .ok output ∧
      output.context.response.headers["content-type"]? = some ["application/json"] ∧
      output.context.response.body = asBytes (plugin.rendered e) := by
    intro ctx he
    have hheader : (ctx.response.headers.insert "content-type" ["application/json"])["content-type"]? =
        some ["application/json"] := by
      rw [HashMap.get_insert, if_pos rfl]
    refine ⟨_, rfl, hheader, ?_⟩
    dsimp only
    rw [he]
  constructor
  · intro h
    have hlast : ({ Context.new default with errors := [e] } : Context).errors.getLast? = some e := rfl
    obtain ⟨output, hout, -, htext⟩ := h _ hlast
    obtain ⟨output', hout', -, hrendered⟩ := hbody _ hlast
    obtain rfl := Except.ok.inj (hout.symm.trans hout')
    exact asBytes_inj.mp (hrendered.symm.trans htext)
  · rintro rfl
    exact hbody

theorem answersTree_iff {e : GatewayError} {tree : Tree} :
    plugin.AnswersTree e tree ↔ parse (plugin.rendered e).toList = some tree := by
  constructor
  · rintro ⟨text, htext, hparse⟩
    rw [answersWith_iff.mp htext]
    exact hparse
  · intro h
    exact ⟨_, answersWith_iff.mpr rfl, h⟩

/-- The template is a JSON document itself. -/
theorem parse_bodyTemplate {doc : Document ErrorField} (hdoc : plugin.IsDocument doc) :
    parse plugin.bodyTemplate.toList = some (doc.value.tree placeholder) := by
  have hne := fun field => (ErrorField.apart field).ne_nil
  have hwrite := hdoc placeholder
  have hplain : ∀ field : ErrorField, field.placeholder.all (fun c => decide (JsonGrammar.Plain c)) = true := by
    intro field
    cases field <;> decide
  unfold template at hwrite
  rw [Template.write_parse ErrorField.all hne] at hwrite
  rw [hwrite]
  exact Document.parse_write fun _ _ field _ c hc => of_decide_eq_true (List.all_eq_true.mp (hplain field) c hc)

/-- **Plain fields.**  Filled in at once, they are read as they are. -/
theorem answersTree_of_plain {doc : Document ErrorField} (hdoc : plugin.IsDocument doc) {e : GatewayError}
    (hrendered : plugin.rendered e = plugin.filled e) (hplain : PlainIn (value e) doc.value.literals) :
    plugin.AnswersTree e (doc.value.tree (value e)) := by
  rw [answersTree_iff, hrendered, filled, String.toList_ofList, hdoc]
  exact Document.parse_write hplain

/-- **Other fields** are not, in a document without escapes of its own. -/
theorem plain_of_answersTree {doc : Document ErrorField} (hdoc : plugin.IsDocument doc) {e : GatewayError}
    (hrendered : plugin.rendered e = plugin.filled e)
    (hverbatim : ∀ letters ∈ doc.value.literals, ∀ letter ∈ letters, letter.isVerbatim = true)
    (h : plugin.AnswersTree e (doc.value.tree (value e))) : PlainIn (value e) doc.value.literals := by
  rw [answersTree_iff, hrendered, filled, String.toList_ofList, hdoc] at h
  exact Document.plain_of_parse (fun letters hmem => exact_of_noEscape (hverbatim letters hmem)) h

/-- **The answer.**  Whatever the node is called, an error's fields are filled in at once exactly when neither its
    code nor its message makes a placeholder; for one node, exactly when besides none of a node is made.  And
    filled into the strings of a JSON document they are read back where they are plain, and only there in one
    without escapes of its own. -/
theorem answers_iff (plugin : ErrorHandlerPlugin) :
    (∀ e : GatewayError, (∀ nodeId, plugin.AnswersWith { e with nodeId := nodeId }
        (plugin.filled { e with nodeId := nodeId })) ↔
      (plugin.CodeClean e.code ∨ e.message.toList = ErrorField.message.placeholder) ∧
        plugin.MessageClean e.code e.message) ∧
    (∀ e : GatewayError, plugin.CodeClean e.code ∨ e.message.toList = ErrorField.message.placeholder →
      (plugin.AnswersWith e (plugin.filled e) ↔
        plugin.MessageClean e.code e.message ∨ e.nodeId.toList = ErrorField.nodeId.placeholder)) ∧
    ∀ doc, plugin.IsDocument doc → ∀ e : GatewayError, plugin.AnswersWith e (plugin.filled e) →
      (PlainIn (value e) doc.value.literals → plugin.AnswersTree e (doc.value.tree (value e))) ∧
      ((∀ letters ∈ doc.value.literals, ∀ letter ∈ letters, letter.isVerbatim = true) →
        (plugin.AnswersTree e (doc.value.tree (value e)) ↔ PlainIn (value e) doc.value.literals)) := by
  refine ⟨fun e => ?_, fun e hcode => ?_, fun doc hdoc e hfilled => ?_⟩
  · rw [← rendered_all_iff]
    exact forall_congr' fun nodeId => answersWith_iff
  · rw [answersWith_iff]
    exact rendered_iff_nodeId e hcode
  · have hrendered := answersWith_iff.mp hfilled
    refine ⟨answersTree_of_plain hdoc hrendered, fun hverbatim => ⟨?_, ?_⟩⟩
    · exact plain_of_answersTree hdoc hrendered hverbatim
    · exact answersTree_of_plain hdoc hrendered

/-! ## A template of an example -/

/-- A document of two fields, with a placeholder in each. -/
def exampleHandler : ErrorHandlerPlugin where
  statusCode := 502
  bodyTemplate := "\x7b\"error\":\"\x7b\x7berror.code\x7d\x7d\",\"message\":\"\x7b\x7berror.message\x7d\x7d\"\x7d"

def noSpace : Space where
  text := []
  isSpace := List.forall_mem_nil _

/-- Letters that stand for themselves. -/
def plainLetters (s : List Char) (h : s.all (fun c => decide (JsonGrammar.Plain c)) = true) : List (Letter ErrorField) :=
  s.pmap Letter.plain fun c hc => of_decide_eq_true (List.all_eq_true.mp h c hc)

def exampleDocument : Document ErrorField where
  before := noSpace
  value := .object noSpace
    (.more (plainLetters "error".toList rfl) noSpace noSpace (.string [.hole .code]) noSpace noSpace
      (.last (plainLetters "message".toList rfl) noSpace noSpace (.string [.hole .message]) noSpace))
  after := noSpace

def exampleError (message : String) : GatewayError where
  nodeId := "backend"
  code := "UPSTREAM_ERROR"
  message := message
  metadata := ∅

theorem isDocument_example : exampleHandler.IsDocument exampleDocument := by
  have htemplate : exampleHandler.template =
      ⟨"\x7b\"error\":\"".toList, [(code, "\",\"message\":\"".toList), (message, "\"\x7d".toList)]⟩ := by
    decide +kernel
  intro f
  rw [htemplate]
  simp [Template.write, Document.write, exampleDocument, Doc.write, Members.write, writeLetters, plainLetters,
    Letter.write, noSpace]

instance (plugin : ErrorHandlerPlugin) (code : String) : Decidable (plugin.CodeClean code) :=
  inferInstanceAs (Decidable (∀ run ∈ _, _))

instance (plugin : ErrorHandlerPlugin) (code message : String) : Decidable (plugin.MessageClean code message) :=
  inferInstanceAs (Decidable (∀ run ∈ _, _))

theorem answers_iff_example :
    exampleHandler.AnswersWith (exampleError "connection refused")
        (exampleHandler.filled (exampleError "connection refused")) ∧
      exampleHandler.AnswersTree (exampleError "connection refused")
        (exampleDocument.value.tree (value (exampleError "connection refused"))) := by
  obtain ⟨-, hnode, hdocument⟩ := answers_iff exampleHandler
  have hcode : exampleHandler.CodeClean (exampleError "connection refused").code := by decide +kernel
  have hmessage : exampleHandler.MessageClean (exampleError "connection refused").code
      (exampleError "connection refused").message := by decide +kernel
  have hfilled := (hnode (exampleError "connection refused") (Or.inl hcode)).mpr (Or.inl hmessage)
  have hvalues : ∀ field : ErrorField,
      (value (exampleError "connection refused") field).all (fun c => decide (JsonGrammar.Plain c)) = true := by
    intro field
    cases field <;> decide +kernel
  have hplain : PlainIn (value (exampleError "connection refused")) exampleDocument.value.literals :=
    fun _ _ field _ c hc => of_decide_eq_true (List.all_eq_true.mp (hvalues field) c hc)
  exact ⟨hfilled, (hdocument exampleDocument isDocument_example _ hfilled).1 hplain⟩

/-- A placeholder in the message is filled in, and a quote in it ends the string. -/
theorem message_rescanned_and_not_escaped :
    ¬ exampleHandler.AnswersWith (exampleError "\x7b\x7berror.node_id\x7d\x7d")
        (exampleHandler.filled (exampleError "\x7b\x7berror.node_id\x7d\x7d")) ∧
      exampleHandler.rendered (exampleError "\x7b\x7berror.node_id\x7d\x7d") =
        exampleHandler.rendered (exampleError "backend") ∧
      exampleHandler.IsDocument exampleDocument ∧
      exampleHandler.AnswersWith (exampleError "say \"hi\"") (exampleHandler.filled (exampleError "say \"hi\"")) ∧
      ∀ tree, ¬ exampleHandler.AnswersTree (exampleError "say \"hi\"") tree := by
  refine ⟨fun h => ?_, by decide +kernel, isDocument_example, answersWith_iff.mpr (by decide +kernel),
    fun tree h => ?_⟩
  · have hsame := answersWith_iff.mp h
    revert hsame
    decide +kernel
  · have hnone : (parse (exampleHandler.rendered (exampleError "say \"hi\"")).toList).isNone = true := by
      decide +kernel
    rw [answersTree_iff.mp h] at hnone
    cases hnone

end ErrorHandlerPlugin

end Featherbit
