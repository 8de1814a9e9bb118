/-
  THE LANGUAGE OF TEMPLATES (`vars/mod.rs`).

  A template reads as pieces (`Reads`): `${name}`, with any name up to the next `}`; `$name`, with a name
  that begins with a letter or `_` and goes on as long as it can; every other `$`, which stands for itself;
  and every other character.  Each template reads in one way (`reads_total`, `reads_unique`), and what it
  comes to is what its pieces come to, one after the other (`render`).

  `interpolate` takes a `$` before a digit for a name too.  No variable has such a name
  (`resolve_digit`), so that the `$` and the word after it are lost: a template comes out as it reads
  exactly where no `$` that stands for itself has a digit after it (`interpolate_grammar`).
-/
import Featherbit.Vars

namespace Featherbit

namespace Vars

/-- What a template is made of. -/
inductive Piece where
  | char (c : Char)
  /-- a `$` that stands for itself -/
  | dollar
  | var (name : String)
deriving DecidableEq

def isNameStart (c : Char) : Bool := c.isAlpha || c = '_'

/-- How a template reads. -/
inductive Reads : List Char → List Piece → Prop
  | nil : Reads [] []
  | char {c : Char} {rest : List Char} {pieces : List Piece} :
      c ≠ '$' → Reads rest pieces → Reads (c :: rest) (.char c :: pieces)
  /-- `${name}` -/
  | braced {name rest : List Char} {pieces : List Piece} :
      '}' ∉ name → Reads rest pieces →
      Reads ('$' :: '{' :: (name ++ '}' :: rest)) (.var (String.ofList name) :: pieces)
  /-- `$name`, as long as it goes -/
  | named {c : Char} {name rest : List Char} {pieces : List Piece} :
      isNameStart c = true → (∀ d ∈ name, isNameChar d = true) →
      (∀ d ∈ rest.head?, isNameChar d = false) → Reads rest pieces →
      Reads ('$' :: c :: (name ++ rest)) (.var (String.ofList (c :: name)) :: pieces)
  /-- any other `$` -/
  | dollar {rest : List Char} {pieces : List Piece} :
      (∀ c ∈ rest.head?, isNameStart c = false) → (∀ inner, rest = '{' :: inner → '}' ∉ inner) →
      Reads rest pieces → Reads ('$' :: rest) (.dollar :: pieces)

/-! ## Every template reads in one way -/

theorem isNameChar_eq (c : Char) : isNameChar c = (isNameStart c || c.isDigit) := by
  unfold isNameChar isNameStart Char.isAlphanum
  cases c.isAlpha
  · cases c.isDigit
    · simp
    · simp
  · rfl

theorem isNameStart_brace : isNameStart '{' = false := by decide

theorem takeWhile_word {name rest : List Char} (hname : ∀ d ∈ name, isNameChar d = true)
    (hrest : ∀ d ∈ rest.head?, isNameChar d = false) :
    (name ++ rest).takeWhile isNameChar = name := by
  rw [List.takeWhile_append_of_pos hname]
  cases rest with
  | nil => exact List.append_nil name
  | cons d rest =>
    rw [List.takeWhile_cons_of_neg (by rw [hrest d rfl]; decide)]
    exact List.append_nil name

/-- The word a text begins with, and what is left. -/
theorem word_of (text : List Char) : ∃ name after, text = name ++ after ∧
    (∀ d ∈ name, isNameChar d = true) ∧ ∀ d ∈ after.head?, isNameChar d = false := by
  refine ⟨text.takeWhile isNameChar, text.dropWhile isNameChar,
    by rw [List.takeWhile_append_dropWhile], fun d hd => List.mem_takeWhile_imp hd, fun d hd => ?_⟩
  have hdrop := List.head?_dropWhile_not isNameChar text
  rw [Option.mem_def] at hd
  rw [hd] at hdrop
  exact hdrop

/-- A word and what is left after it. -/
theorem word_unique {name rest name' rest' : List Char} (h : name ++ rest = name' ++ rest')
    (hname : ∀ d ∈ name, isNameChar d = true) (hrest : ∀ d ∈ rest.head?, isNameChar d = false)
    (hname' : ∀ d ∈ name', isNameChar d = true) (hrest' : ∀ d ∈ rest'.head?, isNameChar d = false) :
    name = name' ∧ rest = rest' := by
  have hsame : name = name' := by
    rw [← takeWhile_word hname hrest, h, takeWhile_word hname' hrest']
  subst hsame
  exact ⟨rfl, List.append_cancel_left h⟩

/-- The three ways a template with a `$` in front goes on. -/
theorem dollar_cases (rest : List Char) :
    (∃ name after, rest = '{' :: (name ++ '}' :: after) ∧ '}' ∉ name) ∨
    (∃ c name after, rest = c :: (name ++ after) ∧ isNameStart c = true ∧
      (∀ d ∈ name, isNameChar d = true) ∧ ∀ d ∈ after.head?, isNameChar d = false) ∨
    ((∀ c ∈ rest.head?, isNameStart c = false) ∧ ∀ inner, rest = '{' :: inner → '}' ∉ inner) := by
  rcases rest with _ | ⟨c, rest⟩
  · exact Or.inr (Or.inr ⟨fun c hc => (by cases hc), fun inner h => (by cases h)⟩)
  by_cases hstart : isNameStart c = true
  · obtain ⟨name, after, rfl, hname, hafter⟩ := word_of rest
    exact Or.inr (Or.inl ⟨c, name, after, rfl, hstart, hname, hafter⟩)
  · by_cases hbrace : ∃ inner, c :: rest = '{' :: inner ∧ '}' ∈ inner
    · obtain ⟨inner, heq, hclose⟩ := hbrace
      obtain ⟨name, after, rfl, hname⟩ := List.eq_append_cons_of_mem hclose
      exact Or.inl ⟨name, after, heq, hname⟩
    · refine Or.inr (Or.inr ⟨fun d hd => ?_, fun inner heq hclose => hbrace ⟨inner, heq, hclose⟩⟩)
      obtain rfl := Option.some.inj hd
      exact Bool.eq_false_iff.mpr hstart

section Inversion

variable {pieces : List Piece}

theorem Reads.of_nil (h : Reads [] pieces) : pieces = [] := by
  cases h
  rfl

theorem Reads.of_char {c : Char} {rest : List Char} (hc : c ≠ '$') (h : Reads (c :: rest) pieces) :
    ∃ later, pieces = .char c :: later ∧ Reads rest later := by
  cases h with
  | char _ hrest => exact ⟨_, rfl, hrest⟩
  | braced => exact absurd rfl hc
  | named => exact absurd rfl hc
  | dollar => exact absurd rfl hc

theorem Reads.of_braced {name rest : List Char} (hname : '}' ∉ name)
    (h : Reads ('$' :: '{' :: (name ++ '}' :: rest)) pieces) :
    ∃ later, pieces = .var (String.ofList name) :: later ∧ Reads rest later := by
  generalize htext : '$' :: '{' :: (name ++ '}' :: rest) = text at h
  cases h with
  | nil => cases htext
  | char hc => exact absurd (List.cons.inj htext).1.symm hc
  | @braced name' rest' _ hname' hrest =>
    have hsame : name ++ '}' :: rest = name' ++ '}' :: rest' :=
      (List.cons.inj (List.cons.inj htext).2).2
    have hcut := congrArg (Split.splitOnce '}') hsame
    rw [Split.splitOnce_append hname, Split.splitOnce_append hname'] at hcut
    obtain ⟨rfl, rfl⟩ := Prod.mk.inj (Option.some.inj hcut)
    exact ⟨_, rfl, hrest⟩
  | named hstart =>
    obtain rfl := (List.cons.inj (List.cons.inj htext).2).1
    exact absurd hstart (by decide)
  | dollar _ hclose =>
    exact absurd (List.mem_append_right name List.mem_cons_self)
      (hclose _ (List.cons.inj htext).2.symm)

theorem Reads.of_named {c : Char} {name rest : List Char} (hstart : isNameStart c = true)
    (hname : ∀ d ∈ name, isNameChar d = true) (hrest : ∀ d ∈ rest.head?, isNameChar d = false)
    (h : Reads ('$' :: c :: (name ++ rest)) pieces) :
    ∃ later, pieces = .var (String.ofList (c :: name)) :: later ∧ Reads rest later := by
  generalize htext : '$' :: c :: (name ++ rest) = text at h
  cases h with
  | nil => cases htext
  | char hc => exact absurd (List.cons.inj htext).1.symm hc
  | braced =>
    obtain rfl := (List.cons.inj (List.cons.inj htext).2).1
    exact absurd hstart (by decide)
  | @named c' name' rest' _ hstart' hname' hrest' hlater =>
    obtain ⟨rfl, hsame⟩ := List.cons.inj (List.cons.inj htext).2
    obtain ⟨rfl, rfl⟩ := word_unique hsame hname hrest hname' hrest'
    exact ⟨_, rfl, hlater⟩
  | dollar hnone =>
    have hfalse := hnone c (by rw [← (List.cons.inj htext).2]; rfl)
    rw [hstart] at hfalse
    cases hfalse

theorem Reads.of_dollar {rest : List Char} (hnone : ∀ c ∈ rest.head?, isNameStart c = false)
    (hclose : ∀ inner, rest = '{' :: inner → '}' ∉ inner) (h : Reads ('$' :: rest) pieces) :
    ∃ later, pieces = .dollar :: later ∧ Reads rest later := by
  generalize htext : '$' :: rest = text at h
  cases h with
  | nil => cases htext
  | char hc => exact absurd (List.cons.inj htext).1.symm hc
  | @braced name =>
    exact absurd (List.mem_append_right name List.mem_cons_self)
      (hclose _ (List.cons.inj htext).2)
  | @named c _ _ _ hstart =>
    have hfalse := hnone c (by rw [(List.cons.inj htext).2]; rfl)
    rw [hstart] at hfalse
    cases hfalse
  | dollar _ _ hlater =>
    obtain rfl := (List.cons.inj htext).2
    exact ⟨_, rfl, hlater⟩

end Inversion

theorem reads_total (text : List Char) : ∃ pieces, Reads text pieces := by
  induction hn : text.length using Nat.strong_induction_on generalizing text with
  | _ n ih =>
  rcases text with _ | ⟨c, rest⟩
  · exact ⟨[], .nil⟩
  have hlater : ∀ later : List Char, later.length ≤ rest.length → ∃ pieces, Reads later pieces :=
    fun later hle => ih later.length (by rw [← hn, List.length_cons]; omega) later rfl
  by_cases hc : c = '$'
  · subst hc
    rcases dollar_cases rest with ⟨name, after, rfl, hname⟩ |
      ⟨c, name, after, rfl, hstart, hname, hafter⟩ | ⟨hnone, hclose⟩
    · obtain ⟨pieces, hpieces⟩ := hlater after (by simp; omega)
      exact ⟨_, .braced hname hpieces⟩
    · obtain ⟨pieces, hpieces⟩ := hlater after (by simp; omega)
      exact ⟨_, .named hstart hname hafter hpieces⟩
    · obtain ⟨pieces, hpieces⟩ := hlater rest (Nat.le_refl _)
      exact ⟨_, .dollar hnone hclose hpieces⟩
  · obtain ⟨pieces, hpieces⟩ := hlater rest (Nat.le_refl _)
    exact ⟨_, .char hc hpieces⟩

theorem reads_unique {text : List Char} {pieces pieces' : List Piece} (h : Reads text pieces)
    (h' : Reads text pieces') : pieces' = pieces := by
  induction h generalizing pieces' with
  | nil => exact h'.of_nil
  | char hc _ ih =>
    obtain ⟨later, rfl, hlater⟩ := h'.of_char hc
    rw [ih hlater]
  | braced hname _ ih =>
    obtain ⟨later, rfl, hlater⟩ := h'.of_braced hname
    rw [ih hlater]
  | named hstart hname hrest _ ih =>
    obtain ⟨later, rfl, hlater⟩ := h'.of_named hstart hname hrest
    rw [ih hlater]
  | dollar hnone hclose _ ih =>
    obtain ⟨later, rfl, hlater⟩ := h'.of_dollar hnone hclose
    rw [ih hlater]

/-! ## The digits -/

/-- A `$` that stands for itself, and a digit after it. -/
def DollarDigit (pieces : List Piece) : Prop :=
  ∃ d : Char, d.isDigit = true ∧ [.dollar, .char d] <:+: pieces

/-- A piece in front does not matter, unless it is a `$` that stands for itself. -/
theorem dollarDigit_cons {piece : Piece} (hpiece : piece ≠ .dollar) (pieces : List Piece) :
    DollarDigit (piece :: pieces) ↔ DollarDigit pieces := by
  unfold DollarDigit
  refine exists_congr fun d => and_congr_right fun _ => ?_
  rw [List.infix_cons_iff]
  refine or_iff_right fun hfront => hpiece ?_
  exact (List.cons_prefix_cons.mp hfront).1.symm

theorem dollarDigit_dollar (pieces : List Piece) :
    DollarDigit (.dollar :: pieces) ↔
      (∃ d later, d.isDigit = true ∧ pieces = .char d :: later) ∨ DollarDigit pieces := by
  unfold DollarDigit
  constructor
  · rintro ⟨d, hd, hinfix⟩
    rcases List.infix_cons_iff.mp hinfix with hfront | hlater
    · obtain ⟨later, hlater⟩ := (List.cons_prefix_cons.mp hfront).2
      exact Or.inl ⟨d, later, hd, hlater.symm⟩
    · exact Or.inr ⟨d, hd, hlater⟩
  · rintro (⟨d, later, hd, rfl⟩ | ⟨d, hd, hlater⟩)
    · exact ⟨d, hd, List.infix_cons_iff.mpr (Or.inl ⟨later, rfl⟩)⟩
    · exact ⟨d, hd, List.infix_cons_iff.mpr (Or.inr hlater)⟩

/-- Characters of a word read as themselves. -/
theorem reads_word {word rest : List Char} {pieces : List Piece}
    (hword : ∀ d ∈ word, isNameChar d = true) (h : Reads (word ++ rest) pieces) :
    ∃ later, pieces = word.map .char ++ later ∧ Reads rest later := by
  induction word generalizing pieces with
  | nil => exact ⟨pieces, rfl, h⟩
  | cons c word ih =>
    have hc : c ≠ '$' := by
      rintro rfl
      exact absurd (hword '$' List.mem_cons_self) (by decide)
    obtain ⟨later, rfl, hlater⟩ := h.of_char hc
    obtain ⟨last, rfl, hlast⟩ := ih (fun d hd => hword d (List.mem_cons_of_mem c hd)) hlater
    exact ⟨last, rfl, hlast⟩

/-! ## What a template comes to -/

/-- Something is missing from `out` where `lost`, and nothing otherwise. -/
structure Short (out full : String) (lost : Prop) : Prop where
  lt : lost → out.length < full.length
  eq : ¬ lost → out = full

theorem Short.le {out full : String} {lost : Prop} (h : Short out full lost) :
    out.length ≤ full.length := by
  by_cases hlost : lost
  · exact (h.lt hlost).le
  · rw [h.eq hlost]

/-- The same text in front of both. -/
theorem Short.cons {out full : String} {lost : Prop} (h : Short out full lost) (front : String) :
    Short (front ++ out) (front ++ full) lost where
  lt hlost := by
    have hlt := h.lt hlost
    rw [String.length_append, String.length_append]
    omega
  eq hlost := by rw [h.eq hlost]

theorem Short.congr {out full : String} {lost lost' : Prop} (h : Short out full lost)
    (hsame : lost' ↔ lost) : Short out full lost' :=
  ⟨fun hlost => h.lt (hsame.mp hlost), fun hlost => h.eq fun hlost' => hlost (hsame.mpr hlost')⟩

theorem Reads.head_char {text : List Char} {c : Char} {later : List Piece}
    (h : Reads text (.char c :: later)) : text.head? = some c := by
  cases h
  rfl


section Render

variable [CaseMapping] [JsonText] (ctx : Context)

/-- What a piece comes to; a value is put in as it is. -/
def Piece.render : Piece → String
  | .char c => String.singleton c
  | .dollar => "$"
  | .var name => (resolve ctx name).getD ""

def render (pieces : List Piece) : String := String.join (pieces.map (Piece.render ctx))

theorem render_cons (piece : Piece) (pieces : List Piece) :
    render ctx (piece :: pieces) = piece.render ctx ++ render ctx pieces := by
  unfold render
  rw [List.map_cons, String.join_cons]

/-- No variable has a name that begins with a digit. -/
theorem resolve_digit {name : String} {d : Char} {rest : List Char} (hname : name.toList = d :: rest)
    (hd : d.isDigit = true) : resolve ctx name = none := by
  have hfirst : ∀ {text : String} {c : Char} {l : List Char}, text.toList = c :: l →
      c.isDigit = false → ∀ more, name ≠ text ++ more := by
    rintro text c l htext hc more rfl
    rw [String.toList_append, htext, List.cons_append] at hname
    rw [(List.cons.inj hname).1, hd] at hc
    cases hc
  have hword : ∀ {text : String} {c : Char} {l : List Char}, text.toList = c :: l →
      c.isDigit = false → name ≠ text := by
    intro text c l htext hc heq
    exact hfirst htext hc "" (by rw [heq, String.append_empty])
  have hkeyed : ∀ {text : String} {c : Char} {l : List Char}, text.toList = c :: l →
      c.isDigit = false → stripPrefix text name = none :=
    fun htext hc => stripPrefix_eq_none (hfirst htext hc)
  have harg : stripPrefix "arg_" name = none := hkeyed rfl (by decide)
  have hhttp : stripPrefix "http_" name = none := hkeyed rfl (by decide)
  have hcookie : stripPrefix "cookie_" name = none := hkeyed rfl (by decide)
  have hpost : stripPrefix "post_arg_" name = none := hkeyed rfl (by decide)
  have hmsg : stripPrefix "msg_" name = none := hkeyed rfl (by decide)
  unfold resolve
  split
  all_goals first
    | exact absurd rfl (hword rfl (by decide))
    | skip
  unfold resolveKeyed
  rw [harg, hhttp, hcookie, hpost, hmsg]

/-! ## What the scanner does -/

theorem interpolate_char {c : Char} (hc : c ≠ '$') (rest : List Char) :
    interpolateChars ctx (c :: rest) = String.singleton c ++ interpolateChars ctx rest := by
  by_cases hbrace : ∃ inner, rest = '{' :: inner
  · obtain ⟨inner, rfl⟩ := hbrace
    rw [interpolateChars.eq_2, if_pos hc]
  · rw [interpolateChars.eq_3 ctx c rest fun inner h => hbrace ⟨inner, h⟩, if_pos hc]

theorem interpolate_braced {name : List Char} (hname : '}' ∉ name) (rest : List Char) :
    interpolateChars ctx ('$' :: '{' :: (name ++ '}' :: rest)) =
      (resolve ctx (String.ofList name)).getD "" ++ interpolateChars ctx rest := by
  rw [interpolateChars.eq_2, if_neg (not_not.mpr rfl)]
  split
  · rename_i name' rest' hclose
    rw [Split.splitOnce_append hname] at hclose
    obtain ⟨rfl, rfl⟩ := Prod.mk.inj (Option.some.inj hclose)
    rfl
  · rename_i hclose
    rw [Split.splitOnce_append hname] at hclose
    cases hclose

/-- A word after a `$` is a name, whatever it begins with. -/
theorem interpolate_word {c : Char} {name rest : List Char} (hc : isNameChar c = true)
    (hname : ∀ d ∈ name, isNameChar d = true) (hrest : ∀ d ∈ rest.head?, isNameChar d = false) :
    interpolateChars ctx ('$' :: c :: (name ++ rest)) =
      (resolve ctx (String.ofList (c :: name))).getD "" ++ interpolateChars ctx rest := by
  have hnobrace : ∀ inner, c :: (name ++ rest) = '{' :: inner → False := by
    intro inner h
    rw [(List.cons.inj h).1] at hc
    exact absurd hc (by decide)
  have hword : ∀ d ∈ c :: name, isNameChar d = true := by
    intro d hd
    rcases List.mem_cons.mp hd with rfl | hd
    · exact hc
    · exact hname d hd
  have htake : (c :: (name ++ rest)).takeWhile isNameChar = c :: name :=
    takeWhile_word hword hrest
  have hdrop : (c :: (name ++ rest)).dropWhile isNameChar = rest := by
    have hboth := List.takeWhile_append_dropWhile (p := isNameChar) (l := c :: (name ++ rest))
    rw [htake] at hboth
    exact @List.append_cancel_left _ (c :: name) _ _ hboth
  rw [interpolateChars.eq_3 ctx '$' _ hnobrace, if_neg (not_not.mpr rfl), htake, hdrop]
  exact if_neg (List.cons_ne_nil c name)

theorem interpolate_dollar {rest : List Char} (hword : ∀ c ∈ rest.head?, isNameChar c = false)
    (hclose : ∀ inner, rest = '{' :: inner → '}' ∉ inner) :
    interpolateChars ctx ('$' :: rest) = "$" ++ interpolateChars ctx rest := by
  by_cases hbrace : ∃ inner, rest = '{' :: inner
  · obtain ⟨inner, rfl⟩ := hbrace
    rw [interpolateChars.eq_2, if_neg (not_not.mpr rfl)]
    split
    · rename_i name after hsplit
      refine absurd ?_ (hclose inner rfl)
      rw [Split.eq_of_splitOnce hsplit]
      exact List.mem_append_right name List.mem_cons_self
    · rfl
  · have htake : rest.takeWhile isNameChar = [] := by
      cases rest with
      | nil => rfl
      | cons c rest => exact List.takeWhile_cons_of_neg (by rw [hword c rfl]; decide)
    rw [interpolateChars.eq_3 ctx '$' rest fun inner h => hbrace ⟨inner, h⟩,
      if_neg (not_not.mpr rfl), htake]
    exact if_pos rfl

theorem render_word (word : List Char) (pieces : List Piece) :
    render ctx (word.map .char ++ pieces) = String.ofList word ++ render ctx pieces := by
  induction word with
  | nil => exact (String.empty_append).symm
  | cons c word ih =>
    rw [List.map_cons, List.cons_append, render_cons, ih, String.ofList_cons, String.append_assoc]
    rfl

/-- What the scanner writes, and what the template comes to: the induction is on the length, for the
    scanner passes over a whole word. -/
theorem interpolate_short {text : List Char} {pieces : List Piece} (h : Reads text pieces) :
    Short (interpolateChars ctx text) (render ctx pieces) (DollarDigit pieces) := by
  induction hn : text.length using Nat.strong_induction_on generalizing text pieces with
  | _ n ih =>
  rcases text with _ | ⟨c, rest⟩
  · obtain rfl := h.of_nil
    refine ⟨fun hlost => ?_, fun _ => interpolateChars.eq_1 ctx⟩
    obtain ⟨d, -, hinfix⟩ := hlost
    exact absurd hinfix.length_le (by simp)
  have hlater : ∀ {text : List Char} {later : List Piece}, text.length ≤ rest.length →
      Reads text later → Short (interpolateChars ctx text) (render ctx later) (DollarDigit later) :=
    fun {text later} hle hreads => ih text.length (by rw [← hn, List.length_cons]; omega) hreads rfl
  by_cases hc : c = '$'
  · subst hc
    rcases dollar_cases rest with ⟨name, after, rfl, hname⟩ |
      ⟨c, name, after, rfl, hstart, hname, hafter⟩ | ⟨hnone, hclose⟩
    · -- `${name}`
      obtain ⟨later, rfl, hreads⟩ := h.of_braced hname
      rw [interpolate_braced ctx hname, render_cons]
      exact ((hlater (by simp; omega) hreads).cons _).congr (dollarDigit_cons (by simp) later)
    · -- `$name`
      obtain ⟨later, rfl, hreads⟩ := h.of_named hstart hname hafter
      have hword : isNameChar c = true := by
        rw [isNameChar_eq, hstart]
        rfl
      rw [interpolate_word ctx hword hname hafter, render_cons]
      exact ((hlater (by simp; omega) hreads).cons _).congr (dollarDigit_cons (by simp) later)
    · -- a `$` that stands for itself
      obtain ⟨later, rfl, hreads⟩ := h.of_dollar hnone hclose
      by_cases hdigit : ∃ d after, rest = d :: after ∧ d.isDigit = true
      · -- the word after the `$` is passed over
        obtain ⟨d, more, rfl, hd⟩ := hdigit
        obtain ⟨name, after, rfl, hname, hafter⟩ : ∃ name after, more = name ++ after ∧
            (∀ e ∈ name, isNameChar e = true) ∧ ∀ e ∈ after.head?, isNameChar e = false :=
          word_of more
        have hword : isNameChar d = true := by
          rw [isNameChar_eq, hd, Bool.or_true]
        obtain ⟨last, rfl, hlast⟩ := @reads_word (d :: name) after _
          (fun e he => by
            rcases List.mem_cons.mp he with rfl | he
            · exact hword
            · exact hname e he) hreads
        have hle := (hlater (by simp; omega) hlast).le
        have hvalue : resolve ctx (String.ofList (d :: name)) = none :=
          resolve_digit ctx (String.toList_ofList) hd
        rw [interpolate_word ctx hword hname hafter, hvalue, render_cons, render_word]
        refine ⟨fun _ => ?_, fun hlost => absurd ?_ hlost⟩
        · have hone : (Piece.dollar.render ctx).length = 1 := by
            show ("$" : String).length = 1
            decide
          have hempty : (Option.getD (none : Option String) "").length = 0 := rfl
          rw [String.length_append, String.length_append, String.length_append, hone, hempty]
          omega
        · exact (dollarDigit_dollar _).mpr (Or.inl ⟨d, _, hd, rfl⟩)
      · have hword : ∀ e ∈ rest.head?, isNameChar e = false := by
          intro e he
          rw [isNameChar_eq, hnone e he, Bool.false_or, Bool.eq_false_iff]
          intro hd
          rcases rest with _ | ⟨d, after⟩
          · cases he
          · obtain rfl := Option.some.inj he
            exact hdigit ⟨d, after, rfl, hd⟩
        rw [interpolate_dollar ctx hword hclose, render_cons]
        refine ((hlater (Nat.le_refl _) hreads).cons _).congr ?_
        rw [dollarDigit_dollar]
        refine or_iff_right fun hfront => hdigit ?_
        obtain ⟨d, last, hd, rfl⟩ := hfront
        rcases rest with _ | ⟨e, after⟩
        · cases hreads.head_char
        · obtain rfl := Option.some.inj hreads.head_char
          exact ⟨e, after, rfl, hd⟩
  · obtain ⟨later, rfl, hreads⟩ := h.of_char hc
    rw [interpolate_char ctx hc, render_cons]
    exact ((hlater (Nat.le_refl _) hreads).cons _).congr (dollarDigit_cons (by simp) later)

/-- **Templates.**  Every template reads in one way, and comes out as it reads exactly where no `$` that
    stands for itself has a digit after it. -/
theorem interpolate_grammar (template : String) :
    ∃ pieces, Reads template.toList pieces ∧
      (∀ pieces', Reads template.toList pieces' → pieces' = pieces) ∧
      (interpolate ctx template = render ctx pieces ↔ ¬ DollarDigit pieces) := by
  obtain ⟨pieces, hpieces⟩ := reads_total template.toList
  have hshort := interpolate_short ctx hpieces
  refine ⟨pieces, hpieces, fun pieces' h => reads_unique hpieces h, ?_, hshort.eq⟩
  intro heq hlost
  have hlt := hshort.lt hlost
  unfold interpolate at heq
  rw [heq] at hlt
  exact Nat.lt_irrefl _ hlt

end Render

/-! ## What a template depends on -/

section Congr

variable [CaseMapping] [JsonText]

theorem interpolateChars_congr {ctx ctx' : Context} (h : ∀ name, resolve ctx name = resolve ctx' name)
    (l : List Char) : interpolateChars ctx l = interpolateChars ctx' l := by
  fun_induction interpolateChars ctx l with
  | case1 => rw [interpolateChars]
  | case2 c rest hc ih =>
    conv_rhs => rw [interpolateChars.eq_def]
    dsimp only
    rw [if_pos hc, ih]
  | case3 c hc inner name after hclose ih =>
    rw [interpolateChars, if_neg hc]
    split
    · rename_i name' after' hclose'
      rw [hclose] at hclose'
      obtain ⟨rfl, rfl⟩ := Prod.mk.inj (Option.some.inj hclose')
      rw [h, ih]
    · rename_i hclose'
      rw [hclose] at hclose'
      cases hclose'
  | case4 c hc inner hclose ih =>
    rw [interpolateChars, if_neg hc]
    split
    · rename_i name' after' hclose'
      rw [hclose] at hclose'
      cases hclose'
    · rw [ih]
  | case5 c rest hc name hname hbrace ih =>
    conv_rhs => rw [interpolateChars.eq_def]
    dsimp only
    rw [if_neg hc, if_pos hname]
    split
    · rename_i inner
      exact absurd rfl (hbrace inner)
    · rw [if_pos hname, ih]
  | case6 c rest hc name hname hbrace ih =>
    conv_rhs => rw [interpolateChars.eq_def]
    dsimp only
    rw [if_neg hc, if_neg hname]
    split
    · rename_i inner
      exact absurd rfl (hbrace inner)
    · rw [if_neg hname, h, ih]

/-- Contexts whose variables are alike give a template the same text. -/
theorem interpolate_congr {ctx ctx' : Context} (h : ∀ name, resolve ctx name = resolve ctx' name)
    (template : String) : interpolate ctx template = interpolate ctx' template :=
  interpolateChars_congr h template.toList

end Congr

/-! ## A price -/

/-- A request with nothing in it. -/
def emptyContext : Context := Context.new {
  method := "GET", path := "/", host := "", scheme := "http", headers := ∅, queryParams := ∅
  body := [], remoteAddr := "10.0.0.1:1111", protocol := .http1 }

/-- The amount after a `$` disappears, and the `$` with it. -/
theorem interpolate_loses_price :
    let _ : CaseMapping := asciiCaseMapping
    let _ : JsonText := oneFieldText
    let price : List Piece := [.char 'a', .char ' ', .dollar, .char '5', .char 'k', .char '!']
    Reads "a $5k!".toList price ∧ render emptyContext price = "a $5k!" ∧
      interpolate emptyContext "a $5k!" = "a !" := by
  intro _ _ price
  refine ⟨.char (by decide) (.char (by decide) (.dollar ?_ ?_
    (.char (by decide) (.char (by decide) (.char (by decide) .nil))))), rfl, ?_⟩
  · intro c hc
    obtain rfl := Option.some.inj hc
    decide
  · intro inner h
    cases h
  · have hchars : "a $5k!".toList = ['a', ' ', '$', '5', 'k', '!'] := by decide
    have hk : ∀ d ∈ ['k'], isNameChar d = true := by
      intro d hd
      rw [List.mem_singleton.mp hd]
      decide
    have hafter : ∀ d ∈ ['!'].head?, isNameChar d = false := by
      intro d hd
      rw [← Option.some.inj hd]
      decide
    have hvalue : resolve emptyContext (String.ofList ['5', 'k']) = none :=
      @resolve_digit _ _ emptyContext (String.ofList ['5', 'k']) '5' ['k'] String.toList_ofList (by decide)
    unfold interpolate
    rw [hchars, interpolate_char _ (by decide), interpolate_char _ (by decide)]
    show _ ++ (_ ++ interpolateChars emptyContext ('$' :: '5' :: (['k'] ++ ['!']))) = _
    rw [interpolate_word emptyContext (by decide) hk hafter, hvalue, interpolate_char _ (by decide),
      interpolateChars.eq_1]
    decide

end Vars

end Featherbit
