/-
  THE USER IN THE ANSWER OF A CAS SERVER.

  The documents a server can send, and what `parse_service_validate` finds in each.  An XML answer is
  searched as text, so what stands for a character in it is not put back, and text that XML sets apart
  is searched as well.

  1. **Success in XML** (`XmlSuccess.parse_eq`) — the user is the text of the first user element,
     trimmed, as it is written.  It is the username exactly where no reference stands in it: a
     reference is longer than its character.
  2. **Success in JSON** (`JsonSuccess.parse_eq`) — the username trimmed, also when nothing is left.
  3. **Failure in XML** (`XmlFailure.parse_eq_none_iff`) — refused unless the text has the words of a
     success; only a comment or a CDATA section can have them (`XmlFailure.refused_of_escaped`).
-/
import Featherbit.Lib.JsonGrammar
import Featherbit.Plugins.CasAuth

namespace Featherbit

namespace CasAuthPlugin

/-! ## Documents -/

/-- The white space of XML. -/
def isXmlSpace (c : Char) : Bool := c = ' ' || c = '\t' || c = '\n' || c = '\r'

def openTag (tag : String) : List Char := '<' :: (tag.toList ++ ['>'])

def closeTag (tag : String) : List Char := '<' :: '/' :: (tag.toList ++ ['>'])

def entities : List (List Char × Char) :=
  [("lt".toList, '<'), ("gt".toList, '>'), ("amp".toList, '&'), ("quot".toList, '"'), ("apos".toList, '\'')]

/-- The number that digits of a base write. -/
def numeral (base : Nat) (digits : List Char) : Nat :=
  digits.foldl (fun n d => n * base + (JsonGrammar.hexValue d).getD 0) 0

/-- What stands between `&` and `;` for a character. -/
def Refers (body : List Char) (c : Char) : Prop :=
  (body, c) ∈ entities ∨
  (∃ digits, body = '#' :: digits ∧ digits ≠ [] ∧ (∀ d ∈ digits, d.isDigit = true) ∧
    numeral 10 digits = c.toNat) ∨
  (∃ digits, body = '#' :: 'x' :: digits ∧ digits ≠ [] ∧
    (∀ d ∈ digits, (JsonGrammar.hexValue d).isSome = true) ∧ numeral 16 digits = c.toNat)

/-- A character as XML writes it. -/
inductive Written where
  | verbatim (c : Char) (h : c ≠ '<' ∧ c ≠ '&')
  | reference (body : List Char) (c : Char) (h : Refers body c)

namespace Written

def char : Written → Char
  | verbatim c _ => c
  | reference _ c _ => c

def text : Written → List Char
  | verbatim c _ => [c]
  | reference body _ _ => '&' :: (body ++ [';'])

def isVerbatim : Written → Bool
  | verbatim _ _ => true
  | reference _ _ _ => false

end Written

/-- A CAS 2.0 success document, around its first user element. -/
structure XmlSuccess where
  before : List Char
  begins : (before.dropWhile isWhitespace).head? = some '<'
  succeeds : "authenticationSuccess".toList <:+: before
  first : ¬ openTag "cas:user" <:+: before ∧ ¬ openTag "user" <:+: before
  /-- the tags have the prefix `cas:` -/
  prefixed : Bool
  spaceBefore : List Char
  spaceBefore_space : ∀ c ∈ spaceBefore, isXmlSpace c = true
  written : List Written
  spaceAfter : List Char
  spaceAfter_space : ∀ c ∈ spaceAfter, isXmlSpace c = true
  after : List Char
  /-- there are no user elements of the other spelling -/
  uniform : ¬ openTag (if prefixed then "user" else "cas:user") <:+: after

namespace XmlSuccess

variable (doc : XmlSuccess)

def tag : String := if doc.prefixed then "cas:user" else "user"

/-- The content of the user element. -/
def content : List Char := doc.spaceBefore ++ doc.written.flatMap Written.text ++ doc.spaceAfter

def text : String :=
  String.ofList (doc.before ++ openTag doc.tag ++ (doc.content ++ closeTag doc.tag ++ doc.after))

def username : String := String.ofList (doc.written.map Written.char)

end XmlSuccess

/-- A CAS 3.0 success document. -/
structure JsonSuccess [JsonCodec] where
  text : String
  begins : (text.toList.dropWhile isWhitespace).head? = some '{'
  json : Json
  parsed : JsonCodec.parse (asBytes text) = some json
  username : String
  succeeds : ((json.get "serviceResponse").bind (Json.get "authenticationSuccess")).bind
    (Json.get "user") = some (.string username)

/-- What an XML document is made of. -/
inductive XmlPart where
  /-- text and references -/
  | data (text : List Char) (h : '<' ∉ text)
  /-- a tag or an instruction -/
  | tag (text : List Char) (h : '<' ∉ text)
  | cdata (text : List Char) (h : ¬ "]]>".toList <:+: text)
  | comment (text : List Char) (h : ¬ "--".toList <:+: text)

namespace XmlPart

def text : XmlPart → List Char
  | data text _ => text
  | tag text _ => '<' :: (text ++ ['>'])
  | cdata text _ => "<![CDATA[".toList ++ text ++ "]]>".toList
  | comment text _ => "<!--".toList ++ text ++ "-->".toList

/-- The name of a start tag. -/
def name : XmlPart → List Char
  | tag text _ => text.takeWhile fun c => !isXmlSpace c && c ≠ '/' && c ≠ '>'
  | _ => []

/-- No text is set apart from the markup in it. -/
def escaped : XmlPart → Bool
  | data _ _ => true
  | tag _ _ => true
  | cdata _ _ => false
  | comment _ _ => false

end XmlPart

/-- A failure document: an element says so, and none names a user. -/
structure XmlFailure where
  parts : List XmlPart
  begins : ((parts.flatMap XmlPart.text).dropWhile isWhitespace).head? = some '<'
  fails : ∃ part ∈ parts, part.name = "cas:authenticationFailure".toList ∨
    part.name = "authenticationFailure".toList
  no_success : ∀ part ∈ parts, ∀ name ∈ ["cas:authenticationSuccess", "authenticationSuccess",
    "cas:user", "user"], part.name ≠ name.toList

namespace XmlFailure

def chars (doc : XmlFailure) : List Char := doc.parts.flatMap XmlPart.text

def text (doc : XmlFailure) : String := String.ofList doc.chars

end XmlFailure

/-- A failure document in JSON. -/
structure JsonFailure [JsonCodec] where
  text : String
  begins : (text.toList.dropWhile isWhitespace).head? = some '{'
  json : Json
  parsed : JsonCodec.parse (asBytes text) = some json
  fails : ((json.get "serviceResponse").bind (Json.get "authenticationFailure")).isSome = true
  no_success : (json.get "serviceResponse").bind (Json.get "authenticationSuccess") = none

/-- The user that a success names. -/
def namedUser (username : String) : Option String :=
  if trim username = "" then none else some (trim username)

/-! ## What trimming leaves -/

section Trim

theorem isWhitespace_of_xmlSpace {c : Char} (h : isXmlSpace c = true) : isWhitespace c = true := by
  unfold isXmlSpace at h
  simp only [Bool.or_eq_true, decide_eq_true_eq] at h
  rcases h with ((rfl | rfl) | rfl) | rfl
  all_goals rfl

theorem trim_padded {x y : List Char} (hx : ∀ c ∈ x, isWhitespace c = true)
    (hy : ∀ c ∈ y, isWhitespace c = true) (l : List Char) :
    trim (String.ofList (x ++ l ++ y)) = trim (String.ofList l) := by
  have hback : ∀ l : List Char, (l ++ y).rdropWhile isWhitespace = l.rdropWhile isWhitespace := by
    intro l
    unfold List.rdropWhile
    rw [List.reverse_append, List.dropWhile_append_of_pos fun c hc => hy c (List.mem_reverse.mp hc)]
  unfold trim
  rw [String.toList_ofList, String.toList_ofList, List.append_assoc, List.dropWhile_append_of_pos hx,
    List.dropWhile_append]
  split
  · rename_i hempty
    rw [List.isEmpty_iff.mp hempty, List.dropWhile_eq_nil_iff.mpr hy]
  · rw [hback]

/-- How many characters of a text can be seen. -/
def visible (l : List Char) : Nat := l.countP fun c => !isWhitespace c

/-- No visible character is trimmed away. -/
theorem visible_trim (s : String) : visible (trim s).toList = visible s.toList := by
  have hfront : ∀ l, visible (l.dropWhile isWhitespace) = visible l := by
    intro l
    have hspace : visible (l.takeWhile isWhitespace) = 0 := by
      refine List.countP_eq_zero.mpr fun c hc => ?_
      rw [List.mem_takeWhile_imp hc]
      exact Bool.false_ne_true
    have hcut : l.takeWhile isWhitespace ++ l.dropWhile isWhitespace = l := List.takeWhile_append_dropWhile
    have hsum : visible l = visible (l.takeWhile isWhitespace) + visible (l.dropWhile isWhitespace) := by
      rw [visible, visible, visible, ← List.countP_append, hcut]
    omega
  have hback : ∀ l, visible (l.rdropWhile isWhitespace) = visible l := by
    intro l
    have h := hfront l.reverse
    unfold visible at h ⊢
    rw [List.rdropWhile, List.countP_reverse, h, List.countP_reverse]
  unfold trim
  rw [String.toList_ofList, hback, hfront]

/-- Users that are named alike are the same but for white space around them. -/
theorem visible_of_namedUser {s t : String} (h : namedUser s = namedUser t) :
    visible s.toList = visible t.toList := by
  have htrim : trim s = trim t := by
    unfold namedUser at h
    split at h
    · rename_i hs
      split at h
      · rename_i ht
        rw [hs, ht]
      · cases h
    · split at h
      · cases h
      · exact Option.some.inj h
  rw [← visible_trim s, htrim, visible_trim]

end Trim

/-! ## Success in XML -/

namespace Written

theorem notMem_text (piece : Written) : '<' ∉ piece.text := by
  cases piece with
  | verbatim c h => exact fun hmem => h.1 (List.mem_singleton.mp hmem).symm
  | reference body c h =>
    have hbody : '<' ∉ body := by
      rcases h with hentity | ⟨digits, rfl, -, hdigit, -⟩ | ⟨digits, rfl, -, hdigit, -⟩
      · have hall : ∀ entry ∈ entities, '<' ∉ entry.1 := by decide
        exact hall _ hentity
      · intro hmem
        rcases List.mem_cons.mp hmem with h | h
        · cases h
        · exact absurd (hdigit _ h) (by decide)
      · intro hmem
        rcases List.mem_cons.mp hmem with h | h
        · cases h
        · rcases List.mem_cons.mp h with h | h
          · cases h
          · exact absurd (hdigit _ h) (by decide)
    intro hmem
    rcases List.mem_cons.mp hmem with h | h
    · cases h
    · rcases List.mem_append.mp h with h | h
      · exact hbody h
      · exact absurd (List.mem_singleton.mp h) (by decide)

/-- A reference shows more characters than it stands for. -/
theorem visible_text (piece : Written) :
    visible [piece.char] ≤ visible piece.text ∧
      (visible piece.text ≤ visible [piece.char] → piece.isVerbatim = true) := by
  cases piece with
  | verbatim c h => exact ⟨Nat.le_refl _, fun _ => rfl⟩
  | reference body c h =>
    have htext : visible (reference body c h).text = visible body + 2 := by
      show visible ('&' :: (body ++ [';'])) = _
      unfold visible
      rw [List.countP_cons, List.countP_append]
      rfl
    have hchar : visible [c] ≤ 1 := List.countP_le_length
    change visible [c] ≤ _ ∧ (_ ≤ visible [c] → _)
    rw [htext]
    exact ⟨by omega, fun h => by omega⟩

/-- Text shows as many characters as it stands for only where all of it is verbatim. -/
theorem visible_texts (pieces : List Written) :
    visible (pieces.map char) ≤ visible (pieces.flatMap text) ∧
      (visible (pieces.flatMap text) ≤ visible (pieces.map char) →
        ∀ piece ∈ pieces, piece.isVerbatim = true) := by
  induction pieces with
  | nil => exact ⟨Nat.le_refl _, fun _ piece h => nomatch h⟩
  | cons piece pieces ih =>
    obtain ⟨hle, hverbatim⟩ := visible_text piece
    obtain ⟨hrest, hall⟩ := ih
    have hchars : visible ((piece :: pieces).map char) = visible [piece.char] + visible (pieces.map char) := by
      rw [List.map_cons, ← List.singleton_append]
      exact List.countP_append
    have htexts : visible ((piece :: pieces).flatMap text) =
        visible piece.text + visible (pieces.flatMap text) := by
      rw [List.flatMap_cons]
      exact List.countP_append
    refine ⟨by omega, fun h => List.forall_mem_cons.mpr ⟨hverbatim (by omega), hall (by omega)⟩⟩

theorem texts_of_verbatim {pieces : List Written} (h : ∀ piece ∈ pieces, piece.isVerbatim = true) :
    pieces.flatMap text = pieces.map char := by
  induction pieces with
  | nil => rfl
  | cons piece pieces ih =>
    obtain ⟨hpiece, hpieces⟩ := List.forall_mem_cons.mp h
    rw [List.flatMap_cons, List.map_cons, ih hpieces]
    cases piece with
    | verbatim c _ => rfl
    | reference body c _ => cases hpiece

end Written

section Extract

open TextSearch

variable {tag : String} {before inner after : List Char}

theorem closeTag_notMem (hinner : '<' ∉ inner) : ¬ closeTag tag <:+: inner := by
  intro h
  exact hinner (h.subset List.mem_cons_self)

theorem openText (tag : String) : ("<" ++ tag ++ ">").toList = openTag tag := by
  rw [String.toList_append, String.toList_append]
  rfl

theorem closeText (tag : String) : ("</" ++ tag ++ ">").toList = closeTag tag := by
  rw [String.toList_append, String.toList_append]
  rfl

/-- The first element of a name is what is extracted. -/
theorem extractXmlTag_element (htag : '<' ∉ tag.toList) (hbefore : ¬ openTag tag <:+: before)
    (hinner : ¬ closeTag tag <:+: inner) :
    extractXmlTag (String.ofList (before ++ openTag tag ++ (inner ++ closeTag tag ++ after))) tag =
      namedUser (String.ofList inner) := by
  have htail : '<' ∉ tag.toList ++ ['>'] := by
    intro h
    rcases List.mem_append.mp h with h | h
    · exact htag h
    · exact absurd (List.mem_singleton.mp h) (by decide)
  have hslash : '<' ∉ '/' :: (tag.toList ++ ['>']) := by
    intro h
    rcases List.mem_cons.mp h with h | h
    · cases h
    · exact htail h
  unfold extractXmlTag
  rw [openText, closeText, String.toList_ofList, openTag, cut_append htail hbefore, closeTag]
  show (cut ('<' :: '/' :: (tag.toList ++ ['>'])) (inner ++ '<' :: '/' :: (tag.toList ++ ['>']) ++ after)).bind
    _ = _
  rw [cut_append hslash hinner]
  rfl

/-- Without an opening tag there is nothing. -/
theorem extractXmlTag_eq_none {text : String} (h : ¬ openTag tag <:+: text.toList) :
    extractXmlTag text tag = none := by
  unfold extractXmlTag
  rw [openText, cut_eq_none h]
  rfl

/-- The text has an element of the name, the first one with text in it. -/
def Encloses (tag : String) (text : List Char) : Prop :=
  ∃ before inner after, text = before ++ openTag tag ++ (inner ++ closeTag tag ++ after) ∧
    ¬ openTag tag <:+: before ∧ ¬ closeTag tag <:+: inner ∧ trim (String.ofList inner) ≠ ""

theorem extractXmlTag_ne_none_iff (htag : '<' ∉ tag.toList) (text : String) :
    extractXmlTag text tag ≠ none ↔ Encloses tag text.toList := by
  constructor
  · intro h
    obtain ⟨user, h⟩ := Option.ne_none_iff_exists'.mp h
    unfold extractXmlTag at h
    rw [openText, closeText] at h
    obtain ⟨⟨before, rest⟩, hopen, h⟩ := Option.bind_eq_some_iff.mp h
    obtain ⟨⟨inner, after⟩, hclose, h⟩ := Option.bind_eq_some_iff.mp h
    refine ⟨before, inner, after, ?_, not_infix_of_cut hopen (List.cons_ne_nil _ _),
      not_infix_of_cut hclose (List.cons_ne_nil _ _), fun hempty => ?_⟩
    · rw [eq_of_cut hopen, eq_of_cut hclose]
    · dsimp only at h
      rw [if_pos hempty] at h
      cases h
  · rintro ⟨before, inner, after, htext, hbefore, hinner, hvalue⟩ hnone
    rw [← String.ofList_toList (s := text), htext, extractXmlTag_element htag hbefore hinner, namedUser,
      if_neg hvalue] at hnone
    cases hnone

end Extract

/-! ## The documents -/

section Documents

/-- An answer that begins as XML is searched. -/
theorem parseServiceValidate_xml [JsonCodec] {text : String}
    (hbegins : (text.toList.dropWhile isWhitespace).head? = some '<') :
    parseServiceValidate (asBytes text) =
      if "authenticationSuccess".toList <:+: text.toList then
        (extractXmlTag text "cas:user").or (extractXmlTag text "user")
      else none := by
  unfold parseServiceValidate
  rw [fromUtf8_asBytes]
  dsimp only
  rw [hbegins, if_neg (by decide)]
  by_cases hword : "authenticationSuccess".toList <:+: text.toList
  · obtain ⟨x, y, hcut⟩ := TextSearch.exists_cut hword
    rw [if_pos hword, hcut]
    rfl
  · rw [if_neg hword, TextSearch.cut_eq_none hword]
    rfl

namespace XmlSuccess

variable (doc : XmlSuccess)

theorem notMem_content : '<' ∉ doc.content := by
  have hspace : ∀ c, isXmlSpace c = true → c ≠ '<' := by
    rintro c h rfl
    cases h
  intro h
  rcases List.mem_append.mp h with h | h
  · rcases List.mem_append.mp h with h | h
    · exact hspace _ (doc.spaceBefore_space _ h) rfl
    · obtain ⟨piece, -, hpiece⟩ := List.mem_flatMap.mp h
      exact piece.notMem_text hpiece
  · exact hspace _ (doc.spaceAfter_space _ h) rfl

theorem notMem_tag : '<' ∉ doc.tag.toList := by
  unfold tag
  split
  all_goals decide

/-- The other spelling of the tag. -/
def otherTag : String := if doc.prefixed then "user" else "cas:user"

/-- Neither spelling begins as the other one does, nor a closing tag. -/
theorem not_otherTag_prefix {rest : List Char} :
    ¬ openTag doc.otherTag <+: openTag doc.tag ++ rest ∧ ¬ openTag doc.otherTag <+: closeTag doc.tag ++ rest := by
  unfold otherTag tag
  cases doc.prefixed
  all_goals
    constructor
    all_goals
      rintro ⟨more, h⟩
      have hsecond := (List.cons.inj (List.cons.inj h).2).1
      exact absurd hsecond (by decide)

/-- The document has no tag of the other spelling. -/
theorem not_otherTag : ¬ openTag doc.otherTag <:+: doc.text.toList := by
  have hother : '<' ∉ doc.otherTag.toList ++ ['>'] := by
    unfold otherTag
    split
    all_goals decide
  have hbefore : ¬ openTag doc.otherTag <:+: doc.before := by
    unfold otherTag
    split
    · exact doc.first.2
    · exact doc.first.1
  have hinner : '<' ∉ doc.tag.toList ++ ['>'] ++ doc.content := by
    intro h
    rcases List.mem_append.mp h with h | h
    · rcases List.mem_append.mp h with h | h
      · exact doc.notMem_tag h
      · exact absurd (List.mem_singleton.mp h) (by decide)
    · exact doc.notMem_content h
  have hclose : '<' ∉ '/' :: (doc.tag.toList ++ ['>']) := by
    intro h
    rcases List.mem_cons.mp h with h | h
    · cases h
    · exact hinner (List.mem_append_left _ h)
  have htext : doc.text.toList = doc.before ++ '<' :: (doc.tag.toList ++ ['>'] ++ doc.content ++
      '<' :: ('/' :: (doc.tag.toList ++ ['>']) ++ doc.after)) := by
    unfold text openTag closeTag
    rw [String.toList_ofList]
    simp only [List.append_assoc, List.cons_append]
  rw [htext]
  intro h
  -- it stands in none of the pieces between the opening brackets
  rcases TextSearch.infix_append_cons hother h with h | h
  · exact hbefore h
  rcases List.infix_cons_iff.mp h with h | h
  · rw [List.append_assoc (doc.tag.toList ++ ['>'])] at h
    exact doc.not_otherTag_prefix.1 h
  replace h := TextSearch.infix_of_append hinner h
  rcases List.infix_cons_iff.mp h with h | h
  · exact doc.not_otherTag_prefix.2 h
  · exact doc.uniform (TextSearch.infix_of_append hclose h)

/-- The user is what is written, trimmed. -/
theorem parse_eq [JsonCodec] : parseServiceValidate (asBytes doc.text) =
    namedUser (String.ofList (doc.written.flatMap Written.text)) := by
  have hchars : doc.text.toList =
      doc.before ++ openTag doc.tag ++ (doc.content ++ closeTag doc.tag ++ doc.after) := String.toList_ofList
  have hbegins : (doc.text.toList.dropWhile isWhitespace).head? = some '<' := by
    have hbefore := doc.begins
    rw [hchars, List.append_assoc, List.dropWhile_append]
    split
    · rename_i hempty
      rw [List.isEmpty_iff.mp hempty] at hbefore
      cases hbefore
    · rw [List.head?_append, hbefore]
      rfl
  have hword : "authenticationSuccess".toList <:+: doc.text.toList := by
    rw [hchars, List.append_assoc]
    exact doc.succeeds.trans (List.prefix_append _ _).isInfix
  have htag : extractXmlTag doc.text doc.tag = namedUser (String.ofList doc.content) := by
    refine extractXmlTag_element doc.notMem_tag ?_ (closeTag_notMem doc.notMem_content)
    unfold tag
    split
    · exact doc.first.1
    · exact doc.first.2
  have hother := extractXmlTag_eq_none doc.not_otherTag
  have hcontent : namedUser (String.ofList doc.content) =
      namedUser (String.ofList (doc.written.flatMap Written.text)) := by
    unfold namedUser content
    rw [trim_padded (fun c hc => isWhitespace_of_xmlSpace (doc.spaceBefore_space c hc))
      (fun c hc => isWhitespace_of_xmlSpace (doc.spaceAfter_space c hc))]
  rw [parseServiceValidate_xml hbegins, if_pos hword, ← hcontent, ← htag]
  unfold otherTag at hother
  unfold tag
  split
  · rename_i hprefixed
    rw [if_pos hprefixed] at hother
    rw [hother, Option.or_none]
  · rename_i hprefixed
    rw [if_neg hprefixed] at hother
    rw [hother, Option.none_or]

/-- A success names its user exactly where no character is referred to. -/
theorem parse_eq_iff [JsonCodec] : parseServiceValidate (asBytes doc.text) = namedUser doc.username ↔
    ∀ piece ∈ doc.written, piece.isVerbatim = true := by
  rw [parse_eq]
  constructor
  · intro h
    have hvisible := visible_of_namedUser h
    rw [String.toList_ofList, username, String.toList_ofList] at hvisible
    exact (Written.visible_texts doc.written).2 hvisible.le
  · intro h
    rw [Written.texts_of_verbatim h]
    rfl

end XmlSuccess

section Json

variable [JsonCodec]

/-- An answer that is read as JSON is not searched. -/
theorem parseServiceValidate_json {text : String} {json : Json}
    (hbegins : (text.toList.dropWhile isWhitespace).head? = some '{')
    (hparse : JsonCodec.parse (asBytes text) = some json) :
    parseServiceValidate (asBytes text) =
      ((((json.get "serviceResponse").bind (Json.get "authenticationSuccess")).bind
        (Json.get "user")).bind Json.asStr).map trim := by
  unfold parseServiceValidate
  rw [fromUtf8_asBytes]
  dsimp only
  rw [if_pos hbegins, hparse]

theorem JsonSuccess.parse_eq (doc : JsonSuccess) :
    parseServiceValidate (asBytes doc.text) = some (trim doc.username) := by
  rw [parseServiceValidate_json doc.begins doc.parsed, doc.succeeds]
  rfl

theorem JsonSuccess.parse_eq_iff (doc : JsonSuccess) :
    parseServiceValidate (asBytes doc.text) = namedUser doc.username ↔ trim doc.username ≠ "" := by
  rw [doc.parse_eq]
  unfold namedUser
  split
  · rename_i hempty
    exact iff_of_false (fun h => nomatch h) (not_not.mpr hempty)
  · rename_i hempty
    exact iff_of_true rfl hempty

theorem JsonFailure.parse_eq_none (doc : JsonFailure) : parseServiceValidate (asBytes doc.text) = none := by
  rw [parseServiceValidate_json doc.begins doc.parsed, doc.no_success]
  rfl

end Json

/-! ## Failure in XML -/

namespace XmlFailure

variable (doc : XmlFailure)

/-- The words of a success are in the text: its name, and a user between tags. -/
def HasWords : Prop :=
  "authenticationSuccess".toList <:+: doc.chars ∧ (Encloses "cas:user" doc.chars ∨ Encloses "user" doc.chars)

theorem parse_eq_none_iff [JsonCodec] :
    parseServiceValidate (asBytes doc.text) = none ↔ ¬ doc.HasWords := by
  have hbegins : (doc.text.toList.dropWhile isWhitespace).head? = some '<' := by
    unfold text
    rw [String.toList_ofList]
    exact doc.begins
  have hchars : doc.text.toList = doc.chars := String.toList_ofList
  have hprefixed := @extractXmlTag_ne_none_iff "cas:user" (by decide) doc.text
  have hplain := @extractXmlTag_ne_none_iff "user" (by decide) doc.text
  rw [hchars] at hprefixed hplain
  rw [parseServiceValidate_xml hbegins, hchars]
  unfold HasWords
  rw [← hprefixed, ← hplain]
  split
  · rename_i hword
    rw [Option.or_eq_none_iff]
    constructor
    · rintro ⟨hno, hno'⟩ ⟨-, hsome | hsome⟩
      · exact hsome hno
      · exact hsome hno'
    · intro hno
      have hneither := not_or.mp fun hsome => hno ⟨hword, hsome⟩
      exact ⟨not_ne_iff.mp hneither.1, not_ne_iff.mp hneither.2⟩
  · rename_i hword
    exact iff_of_true rfl fun h => hword h.1

/-- A tag that is found in a document's tag is its name. -/
theorem name_of_isPrefix {text rest : List Char} {tag : String} (h : '<' ∉ text)
    (htag : ∀ c ∈ tag.toList, (!isXmlSpace c && c ≠ '/' && c ≠ '>') = true)
    (hopen : openTag tag <+: '<' :: (text ++ ['>']) ++ rest) : (XmlPart.tag text h).name = tag.toList := by
  have hend : ∀ l more : List Char, (l ++ '>' :: more).takeWhile
      (fun c => !isXmlSpace c && c ≠ '/' && c ≠ '>') =
      l.takeWhile (fun c => !isXmlSpace c && c ≠ '/' && c ≠ '>') := by
    intro l more
    rw [List.takeWhile_append]
    split
    · rename_i hall
      rw [List.takeWhile_cons_of_neg (by decide), List.append_nil]
      exact (List.takeWhile_prefix _).eq_of_length hall |>.symm
    · rfl
  obtain ⟨more, hmore⟩ := hopen
  have htail : tag.toList ++ '>' :: more = text ++ '>' :: rest := by
    have htail : tag.toList ++ ['>'] ++ more = text ++ ['>'] ++ rest := (List.cons.inj hmore).2
    rwa [List.append_assoc, List.append_assoc] at htail
  show text.takeWhile _ = _
  rw [← hend text rest, ← htail, hend]
  exact List.takeWhile_eq_self_iff.mpr htag

/-- An escaped document has no tag but the names of its own. -/
theorem not_openTag_of_escaped {tag : String} (htag : ∀ c ∈ tag.toList, (!isXmlSpace c && c ≠ '/' && c ≠ '>') = true)
    {parts : List XmlPart} (hescaped : ∀ part ∈ parts, part.escaped = true)
    (hname : ∀ part ∈ parts, part.name ≠ tag.toList) : ¬ openTag tag <:+: parts.flatMap XmlPart.text := by
  induction parts with
  | nil => exact fun h => absurd (List.infix_nil.mp h) (List.cons_ne_nil _ _)
  | cons part parts ih =>
    obtain ⟨hpart, hparts⟩ := List.forall_mem_cons.mp hescaped
    obtain ⟨hne, hrest⟩ := List.forall_mem_cons.mp hname
    rw [List.flatMap_cons]
    intro h
    cases part with
    | data text hno => exact ih hparts hrest (TextSearch.infix_of_append hno h)
    | tag text hno =>
      rcases List.infix_cons_iff.mp h with h | h
      · exact hne (name_of_isPrefix hno htag h)
      · have hbracket : '<' ∉ text ++ ['>'] := by
          intro hmem
          rcases List.mem_append.mp hmem with hmem | hmem
          · exact hno hmem
          · exact absurd (List.mem_singleton.mp hmem) (by decide)
        exact ih hparts hrest (TextSearch.infix_of_append hbracket h)
    | cdata text hno => cases hpart
    | comment text hno => cases hpart

/-- Where no text is set apart, the document is refused whatever it says. -/
theorem refused_of_escaped [JsonCodec] (h : ∀ part ∈ doc.parts, part.escaped = true) :
    parseServiceValidate (asBytes doc.text) = none := by
  have hno : ∀ tag ∈ ["cas:user", "user"], ¬ Encloses tag doc.chars := by
    intro tag htag
    rintro ⟨before, inner, after, htext, -⟩
    have hname : ∀ part ∈ doc.parts, part.name ≠ tag.toList := by
      intro part hpart
      exact doc.no_success part hpart tag (List.mem_cons_of_mem _ (List.mem_cons_of_mem _ htag))
    refine not_openTag_of_escaped ?_ h hname ?_
    · rcases List.mem_cons.mp htag with rfl | htag
      · exact List.all_eq_true.mp rfl
      · obtain rfl := List.mem_singleton.mp htag
        exact List.all_eq_true.mp rfl
    · exact ⟨before, _, htext.symm⟩
  rw [parse_eq_none_iff]
  rintro ⟨-, hprefixed | hplain⟩
  · exact hno _ List.mem_cons_self hprefixed
  · exact hno _ (List.mem_cons_of_mem _ List.mem_cons_self) hplain

end XmlFailure

/-- **Answers.**  What is found in each kind of document, and when it is right. -/
theorem parseServiceValidate_right_iff [JsonCodec] :
    (∀ doc : XmlSuccess, parseServiceValidate (asBytes doc.text) = namedUser doc.username ↔
      ∀ piece ∈ doc.written, piece.isVerbatim = true) ∧
    (∀ doc : JsonSuccess, parseServiceValidate (asBytes doc.text) = namedUser doc.username ↔
      trim doc.username ≠ "") ∧
    (∀ doc : XmlFailure, parseServiceValidate (asBytes doc.text) = none ↔ ¬ doc.HasWords) ∧
    (∀ doc : JsonFailure, parseServiceValidate (asBytes doc.text) = none) :=
  ⟨fun doc => doc.parse_eq_iff, fun doc => doc.parse_eq_iff, fun doc => doc.parse_eq_none_iff,
    fun doc => doc.parse_eq_none⟩

end Documents

/-! ## An escaped name -/

/-- `a&amp;b` is no name, but it is what the node attaches. -/
theorem parseServiceValidate_escaped : ¬ ∀ (_ : JsonCodec) (doc : XmlSuccess),
    parseServiceValidate (asBytes doc.text) = namedUser doc.username := by
  intro h
  let _ : JsonCodec := compactJson
  let doc : XmlSuccess := {
    before := "<cas:serviceResponse><cas:authenticationSuccess>".toList
    begins := by rfl
    succeeds := ⟨"<cas:serviceResponse><cas:".toList, ">".toList, rfl⟩
    first := by decide
    prefixed := true
    spaceBefore := []
    spaceBefore_space := List.forall_mem_nil _
    written := [.verbatim 'a' (by decide), .reference "amp".toList '&' (.inl (by decide)),
      .verbatim 'b' (by decide)]
    spaceAfter := []
    spaceAfter_space := List.forall_mem_nil _
    after := "</cas:authenticationSuccess></cas:serviceResponse>".toList
    uniform := by decide }
  have hverbatim := doc.parse_eq_iff.mp (h compactJson doc) _ (List.mem_cons_of_mem _ List.mem_cons_self)
  cases hverbatim

end CasAuthPlugin

end Featherbit
