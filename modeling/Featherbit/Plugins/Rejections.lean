/-
  REJECTIONS AS JSON.

  Four nodes write a JSON body around a message by hand.  `limit-conn` escapes it in part; `jwt-auth`
  and `cas-auth` put it between quotes as it is, and `openid-connect` with its quotes turned.

  1. **Escaped in part** (`says_escaped`) — the message is read back unless it has a control character
     other than the three the escape knows; such a body is no JSON at all.
  2. **Between quotes** (`says_unauthorized`) — the message is read back exactly where every
     character stands for itself.  Anything else is longer in JSON than it is.
-/
import Featherbit.Lib.JsonGrammar
import Featherbit.Plugins.CasAuth
import Featherbit.Plugins.LimitConn

namespace Featherbit

open JsonGrammar

/-- The answer is JSON, and its field is the message. -/
def JsonRejection (result : PluginResult) (field message : String) : Prop :=
  ∃ failure body, result = .error failure ∧
    failure.context.response.headers["content-type"]? = some ["application/json"] ∧
    failure.context.response.body = asBytes body ∧ JsonGrammar.Says body.toList field.toList message.toList

/-! ## Between quotes -/

section Unauthorized

variable {raw text : List Char}

/-- The body of a 401 around a raw message. -/
def unauthorizedText (raw : List Char) : List Char :=
  "\x7b\"error\": \"unauthorized\", \"message\": \"".toList ++ raw ++ ['"', '}']

theorem plain_of_all (h : raw.all (fun c => decide (JsonGrammar.Plain c)) = true) : ∀ c ∈ raw, JsonGrammar.Plain c :=
  fun c hc => of_decide_eq_true (List.all_eq_true.mp h c hc)

theorem says_unauthorized (hlen : raw.length ≤ text.length) :
    JsonGrammar.Says (unauthorizedText raw) "message".toList text ↔ raw = text ∧ ∀ c ∈ text, JsonGrammar.Plain c := by
  -- the two members, as the reader takes them
  let second := [' '] ++ '"' :: ("message".toList ++ '"' :: ':' :: ([' '] ++ '"' :: (raw ++ ['"', '}'])))
  let first := "unauthorized".toList ++ '"' :: ',' :: second
  let inner := "error".toList ++ '"' :: ':' :: ([' '] ++ '"' :: first)
  have htext : unauthorizedText raw = '{' :: '"' :: inner := by
    show _ ++ raw ++ ['"', '}'] = _
    rw [List.append_assoc]
    rfl
  have hspace : ∀ c ∈ [' '], isSpace c = true := List.forall_mem_singleton.mpr rfl
  have hfirst : readMembers (inner.length + 2) ([] ++ '"' :: inner) =
      closeMember (inner.length + 1) ("error".toList, .string "unauthorized".toList) (',' :: second) := by
    rw [readMembers_string (List.forall_mem_nil _) (plain_of_all rfl) hspace,
      readString_plain (plain_of_all rfl)]
    rfl
  obtain ⟨n, hn⟩ : ∃ n, inner.length = n + 1 := ⟨_, rfl⟩
  rw [List.nil_append] at hfirst
  rw [htext, says_object, hfirst, closeMember_comma, hn, readMembers_string hspace (plain_of_all rfl) hspace]
  have hbefore : ∀ field ∈ [("error".toList, Tree.string "unauthorized".toList)],
      field.1 ≠ "message".toList := List.forall_mem_singleton.mpr (by decide)
  refine Iff.trans ?_ (lastString_iff hlen hbefore (n + 1))
  constructor
  · rintro ⟨fields, rest, hread, hrest, hlookup⟩
    obtain ⟨⟨fields', rest'⟩, hsecond, heq⟩ := Option.map_eq_some_iff.mp hread
    obtain ⟨rfl, rfl⟩ := Prod.mk.inj heq
    exact ⟨fields', rest', hsecond, hrest, hlookup⟩
  · rintro ⟨fields, rest, hread, hrest, hlookup⟩
    refine ⟨_, rest, ?_, hrest, hlookup⟩
    rw [hread]
    rfl

end Unauthorized

/-! ## Escaped in part -/

section Escaped

/-- What `json_string` writes for a character. -/
def escapeChar (c : Char) : List Char :=
  if c = '"' then ['\\', '"'] else if c = '\\' then ['\\', '\\'] else if c = '\n' then ['\\', 'n']
  else if c = '\r' then ['\\', 'r'] else if c = '\t' then ['\\', 't'] else [c]

/-- No control character, but the three that have an escape. -/
def Escapable (c : Char) : Prop := 0x20 ≤ c.toNat ∨ c = '\n' ∨ c = '\r' ∨ c = '\t'

instance (c : Char) : Decidable (Escapable c) := by unfold Escapable; infer_instance

/-- A character is read back from what is written for it, or ends the reading. -/
theorem readChars_escapeChar (n : Nat) (c : Char) (rest : List Char) :
    readChars (n + 1) (escapeChar c ++ rest) = if Escapable c then
      (readChars n rest).map fun (text, rest) => (c :: text, rest) else none := by
  have hread : ∀ d e, readEscape (e :: rest) = some (d, rest) →
      readChars (n + 1) ('\\' :: e :: rest) =
        (readChars n rest).map fun (text, rest) => (d :: text, rest) := by
    intro d e hescape
    rw [readChars, if_neg (by decide), if_pos rfl, hescape]
    show Option.bind (readChars n rest) _ = _
    cases readChars n rest <;> rfl
  unfold escapeChar
  by_cases hquote : c = '"'
  · rw [if_pos hquote, if_pos (.inl (by rw [hquote]; decide)), hquote]
    exact hread '"' '"' rfl
  by_cases hslash : c = '\\'
  · rw [if_neg hquote, if_pos hslash, if_pos (.inl (by rw [hslash]; decide)), hslash]
    exact hread '\\' '\\' rfl
  by_cases hnewline : c = '\n'
  · rw [if_neg hquote, if_neg hslash, if_pos hnewline, if_pos (.inr (.inl hnewline)), hnewline]
    exact hread '\n' 'n' rfl
  by_cases hreturn : c = '\r'
  · rw [if_neg hquote, if_neg hslash, if_neg hnewline, if_pos hreturn,
      if_pos (.inr (.inr (.inl hreturn))), hreturn]
    exact hread '\r' 'r' rfl
  by_cases htab : c = '\t'
  · rw [if_neg hquote, if_neg hslash, if_neg hnewline, if_neg hreturn, if_pos htab,
      if_pos (.inr (.inr (.inr htab))), htab]
    exact hread '\t' 't' rfl
  rw [if_neg hquote, if_neg hslash, if_neg hnewline, if_neg hreturn, if_neg htab, List.singleton_append,
    readChars, if_neg hquote, if_neg hslash]
  by_cases hcontrol : c.toNat < 0x20
  · rw [if_pos hcontrol, if_neg]
    unfold Escapable
    rintro (hge | h | h | h)
    · omega
    · exact hnewline h
    · exact hreturn h
    · exact htab h
  · rw [if_neg hcontrol, if_pos (.inl (Nat.not_lt.mp hcontrol))]
    cases readChars n rest <;> rfl

/-- The reader takes the whole escaped text, or stops at a control character. -/
theorem readChars_escaped (text : List Char) {n : Nat} (hn : text.length < n) (rest : List Char) :
    readChars n (text.flatMap escapeChar ++ '"' :: rest) =
      if ∀ c ∈ text, Escapable c then some (text, rest) else none := by
  induction text generalizing n with
  | nil =>
    cases n with
    | zero => cases hn
    | succ n =>
      rw [if_pos (List.forall_mem_nil _)]
      exact if_pos rfl
  | cons c text ih =>
    cases n with
    | zero => cases hn
    | succ n =>
      rw [List.flatMap_cons, List.append_assoc, readChars_escapeChar, ih (Nat.lt_of_succ_lt_succ hn)]
      by_cases hc : Escapable c
      · rw [if_pos hc]
        by_cases htext : ∀ c ∈ text, Escapable c
        · rw [if_pos htext, if_pos (List.forall_mem_cons.mpr ⟨hc, htext⟩)]
          rfl
        · rw [if_neg htext, if_neg fun h => htext (List.forall_mem_cons.mp h).2]
          rfl
      · rw [if_neg hc, if_neg fun h => hc (List.forall_mem_cons.mp h).1]

theorem length_escapeChar (c : Char) : 1 ≤ (escapeChar c).length := by
  unfold escapeChar
  split_ifs
  all_goals exact Nat.succ_le_succ (Nat.zero_le _)

theorem readString_escaped (text rest : List Char) :
    readString (text.flatMap escapeChar ++ '"' :: rest) =
      if ∀ c ∈ text, Escapable c then some (text, rest) else none := by
  refine readChars_escaped text ?_ rest
  have hlen : text.length ≤ (text.flatMap escapeChar).length := by
    induction text with
    | nil => exact Nat.le_refl _
    | cons c text ih =>
      have hc := length_escapeChar c
      rw [List.flatMap_cons, List.length_append, List.length_cons]
      omega
  rw [List.length_append, List.length_cons]
  omega

/-- The body of a rejection with an escaped message. -/
theorem says_escaped (text : List Char) :
    JsonGrammar.Says ("\x7b\"error_msg\":".toList ++ ('"' :: (text.flatMap escapeChar ++ ['"'])) ++ ['}'])
      "error_msg".toList text ↔ ∀ c ∈ text, Escapable c := by
  let value := text.flatMap escapeChar ++ '"' :: ['}']
  let inner := "error_msg".toList ++ '"' :: ':' :: ([] ++ '"' :: value)
  have htext : "\x7b\"error_msg\":".toList ++ ('"' :: (text.flatMap escapeChar ++ ['"'])) ++ ['}'] =
      '{' :: '"' :: inner := by
    rw [List.append_assoc, List.cons_append, List.append_assoc]
    rfl
  have hread : readMembers (inner.length + 2) ([] ++ '"' :: inner) = if ∀ c ∈ text, Escapable c then
      some ([("error_msg".toList, Tree.string text)], []) else none := by
    rw [readMembers_string (List.forall_mem_nil _) (plain_of_all rfl) (List.forall_mem_nil _),
      readString_escaped]
    split_ifs <;> rfl
  rw [List.nil_append] at hread
  rw [htext, says_object, hread]
  split_ifs with hescapable
  · refine iff_of_true ⟨_, _, rfl, rfl, ?_⟩ hescapable
    rfl
  · refine iff_of_false ?_ hescapable
    rintro ⟨fields, rest, h, -⟩
    cases h

end Escaped

/-! ## The four nodes -/

section Nodes

theorem jsonRejection_iff {failure : PluginExecutionError} {body field message : String}
    (htype : failure.context.response.headers["content-type"]? = some ["application/json"])
    (hbody : failure.context.response.body = asBytes body) :
    JsonRejection (.error failure) field message ↔ JsonGrammar.Says body.toList field.toList message.toList := by
  constructor
  · rintro ⟨failure', body', hfailure, -, hbody', hsays⟩
    obtain rfl := Except.error.inj hfailure
    rw [asBytes_inj.mp (hbody.symm.trans hbody')]
    exact hsays
  · intro hsays
    exact ⟨failure, body, rfl, htype, hbody, hsays⟩

theorem LimitConnPlugin.toList_jsonString (s : String) :
    (jsonString s).toList = '"' :: (s.toList.flatMap escapeChar ++ ['"']) := by
  unfold jsonString
  rw [String.toList_append, String.toList_append, String.toList_join, List.flatMap_map]
  refine congrArg (fun l => '"' :: (l ++ ['"'])) (List.flatMap_congr fun c _ => ?_)
  unfold escapeChar
  split
  · rfl
  · rfl
  · rfl
  · rfl
  · rfl
  · rename_i hquote hslash hnewline hreturn htab
    rw [if_neg hquote, if_neg hslash, if_neg hnewline, if_neg hreturn, if_neg htab]
    exact String.toList_singleton _

/-- `limit-conn` answers with its message unless that has a control character it does not escape. -/
theorem LimitConnPlugin.reject_json_iff (plugin : LimitConnPlugin) (ctx : Context) {message : String}
    (hmsg : plugin.rejectedMsg = some message) :
    JsonRejection (plugin.reject ctx) "error_msg" message ↔ ∀ c ∈ message.toList, Escapable c := by
  unfold reject LimitCountPlugin.rejectWith
  rw [hmsg, jsonRejection_iff Std.ExtTreeMap.getElem?_insert_self rfl, String.toList_append,
    String.toList_append, toList_jsonString]
  exact says_escaped message.toList

theorem unauthorizedText_toList (raw : String) :
    ("\x7b\"error\": \"unauthorized\", \"message\": \"" ++ raw ++ "\"\x7d").toList =
      unauthorizedText raw.toList := by
  rw [String.toList_append, String.toList_append]
  rfl

theorem rejectUnauthorized_json_iff (ctx : Context) (code message : String) :
    JsonRejection (rejectUnauthorized ctx code message []) "message" message ↔
      ∀ c ∈ message.toList, JsonGrammar.Plain c := by
  unfold rejectUnauthorized
  rw [jsonRejection_iff Std.ExtTreeMap.getElem?_insert_self rfl, unauthorizedText_toList]
  exact (says_unauthorized (Nat.le_refl _)).trans (and_iff_right rfl)

/-- Turning the quotes of a message saves none that has one. -/
theorem OpenidConnect.reject_json_iff (ctx : Context) (message : String) :
    JsonRejection (reject ctx message) "message" message ↔ ∀ c ∈ message.toList, JsonGrammar.Plain c := by
  let turned := message.toList.map fun c => if c = '"' then '\'' else c
  obtain ⟨failure, hreject, htype, hbody⟩ : ∃ failure, reject ctx message = .error failure ∧
      failure.context.response.headers["content-type"]? = some ["application/json"] ∧
      failure.context.response.body =
        asBytes ("\x7b\"error\": \"unauthorized\", \"message\": \"" ++ String.ofList turned ++ "\"\x7d") := by
    refine ⟨_, rfl, ?_, rfl⟩
    rw [HashMap.get_insert, if_neg (by decide), Std.ExtTreeMap.getElem?_insert_self]
  rw [hreject, jsonRejection_iff htype hbody, unauthorizedText_toList, String.toList_ofList]
  have hlen : turned.length ≤ message.toList.length := (List.length_map _).le
  refine (says_unauthorized hlen).trans (and_iff_right_of_imp fun hplain => ?_)
  -- a plain message has no quote to turn
  have hsame : turned = message.toList.map id :=
    List.map_congr_left fun c hc => if_neg (hplain c hc).1
  rw [hsame, List.map_id]

/-- **Rejections.**  Each node's answer says its message exactly on the messages it can quote. -/
theorem rejections_json_iff (plugin : LimitConnPlugin) (ctx : Context) (message : String) :
    (JsonRejection ({ plugin with rejectedMsg := some message }.reject ctx) "error_msg" message ↔
      ∀ c ∈ message.toList, Escapable c) ∧
    (JsonRejection (JwtAuthPlugin.reject ctx message) "message" message ↔
      ∀ c ∈ message.toList, JsonGrammar.Plain c) ∧
    (JsonRejection (OpenidConnect.reject ctx message) "message" message ↔
      ∀ c ∈ message.toList, JsonGrammar.Plain c) ∧
    (JsonRejection (CasAuthPlugin.reject ctx message) "message" message ↔
      ∀ c ∈ message.toList, JsonGrammar.Plain c) :=
  ⟨LimitConnPlugin.reject_json_iff _ ctx rfl, rejectUnauthorized_json_iff ctx _ message,
    OpenidConnect.reject_json_iff ctx message, rejectUnauthorized_json_iff ctx _ message⟩

/-- A backspace among the characters of a configured message. -/
theorem rejection_not_json : ¬ ∀ (plugin : LimitConnPlugin) (ctx : Context) (message : String),
    plugin.rejectedMsg = some message → JsonRejection (plugin.reject ctx) "error_msg" message := by
  intro h
  let plugin : LimitConnPlugin := {
    role := .acquire, conn := 1, conn_pos := by decide, burst := 0, burst_nonneg := by decide
    key := "$remote_addr", keyConstant := false, rejectedCode := 503, rejectedMsg := some "\x08" }
  have hjson := h plugin (Context.new default) "\x08" rfl
  rw [plugin.reject_json_iff _ rfl] at hjson
  exact absurd (hjson '\x08' (List.mem_singleton.mpr rfl)) (by decide)

end Nodes

end Featherbit
