/-
  WHAT AN HMAC SIGNATURE COVERS.

  1. The lines are read back from the signing string, since no line has a line feed (`lines_inj`).
  2. A line tells which name of the list it is for: up to the first blank it is the name and a
     colon, or the method, which has none (`line_name`).
  3. So two requests of one signing string agree on everything the list names
     (`agrees_of_signingString`), and a request that was changed there has another tag
     (`changed_request_rejected`).

  What is needed of the requests is `OneLine`; every request that comes in over HTTP has it
  (`oneLine_fromHyper`).  What the list does not name can be changed at will
  (`changed_requests_accepted`).
-/
import Featherbit.Plugins.HmacAuth
import Featherbit.Rust.Utf8Prefix

namespace Featherbit

namespace HmacAuthPlugin

/-! ## What the signing string is made of -/

theorem no_space_splitWhitespace {s word : String} (h : word ∈ splitWhitespace s) :
    ∀ c ∈ word.toList, isWhitespace c = false := by
  obtain ⟨l, hl, rfl⟩ := List.mem_map.mp h
  rw [String.toList_ofList]
  exact Split.forall_of_mem_splitOnP (List.mem_filter.mp hl).1

/-- The names of a list are words: no blank and no line feed in them. -/
def Word (name : String) : Prop := ' ' ∉ name.toList ∧ '\n' ∉ name.toList

theorem word_of_mem_splitWhitespace {s name : String} (h : name ∈ splitWhitespace s) : Word name := by
  have hspace := no_space_splitWhitespace h
  exact ⟨fun hc => absurd (hspace ' ' hc) (by decide), fun hc => absurd (hspace '\n' hc) (by decide)⟩

/-- The names collected so far are words. -/
def AuthorizationFields.Words (fields : AuthorizationFields) : Prop :=
  ∀ name ∈ fields.headers, Word name

theorem AuthorizationFields.Words.read {fields : AuthorizationFields} (h : fields.Words)
    (field : String) : (fields.read field).Words := by
  rw [AuthorizationFields.read]
  cases splitOnceChar '=' (trim field) with
  | none => exact h
  | some pair =>
    have hwords : ∀ s, ∀ name ∈ splitWhitespace s, Word name := fun _ _ hname =>
      word_of_mem_splitWhitespace hname
    have hlist : ∀ s, Words { fields with headers := splitWhitespace s } := hwords
    -- one key after the other
    exact iteInduction (motive := Words) (fun _ => h) fun _ =>
      iteInduction (motive := Words) (fun _ => h) fun _ =>
      iteInduction (motive := Words) (fun _ => h) fun _ =>
      iteInduction (motive := Words) (fun _ => hlist _) fun _ => h

theorem words_of_retrieveParams {ctx : Context} {params : HmacParams}
    (h : retrieveParams ctx = some params) : ∀ name ∈ params.signedHeaders, Word name := by
  unfold retrieveParams at h
  split at h
  · rename_i rest _
    have hfields : ∀ (l : List String) (fields : AuthorizationFields),
        fields.Words → (l.foldl AuthorizationFields.read fields).Words := by
      intro l
      induction l with
      | nil => exact fun _ h => h
      | cons field l ih =>
        intro fields h
        rw [List.foldl_cons]
        exact ih (fields.read field) (h.read field)
    unfold parseAuthorization at h
    obtain ⟨keyId, -, h⟩ := Option.bind_eq_some_iff.mp h
    obtain ⟨signature, -, h⟩ := Option.bind_eq_some_iff.mp h
    obtain rfl := Option.some.inj h
    exact hfields _ {} (fun name hname => by cases hname)
  · unfold proofHeaders at h
    obtain ⟨accessKey, -, h⟩ := Option.bind_eq_some_iff.mp h
    obtain ⟨signature, -, h⟩ := Option.bind_eq_some_iff.mp h
    obtain rfl := Option.some.inj h
    intro name hname
    cases hlist : header ctx "x-hmac-signed-headers" with
    | none =>
      rw [hlist] at hname
      cases hname
    | some value =>
      rw [hlist] at hname
      exact word_of_mem_splitWhitespace hname

/-- A request as it can be written on a line: no line feeds in header values, method, path or
    query; a method without blank and colon, a path without `?`, and no separator in the pairs of
    the query but the `=` a value may have. -/
structure OneLine (ctx : Context) : Prop where
  headers : ∀ name value, header ctx name = some value → '\n' ∉ value.toList
  method : ' ' ∉ ctx.request.method.toList ∧ ':' ∉ ctx.request.method.toList ∧
    '\n' ∉ ctx.request.method.toList
  path : '?' ∉ ctx.request.path.toList ∧ '\n' ∉ ctx.request.path.toList
  query : ∀ pair ∈ Multimap.toPairs ctx.request.queryParams,
    ('&' ∉ pair.1.toList ∧ '=' ∉ pair.1.toList ∧ '\n' ∉ pair.1.toList) ∧
      '&' ∉ pair.2.toList ∧ '\n' ∉ pair.2.toList

/-! ### Lines -/

theorem append_cons_inj {c : Char} {x x' y y' : List Char} (hx : c ∉ x) (hx' : c ∉ x')
    (h : x ++ c :: y = x' ++ c :: y') : x = x' ∧ y = y' := by
  have hsplit : some (x, y) = some (x', y') := by
    rw [← Split.splitOnce_append hx, h, Split.splitOnce_append hx']
  exact Prod.mk.inj (Option.some.inj hsplit)

/-- Texts without line feeds are read back from their lines. -/
theorem lines_inj {xs ys : List (List Char)} (hx : ∀ x ∈ xs, '\n' ∉ x) (hy : ∀ y ∈ ys, '\n' ∉ y)
    (h : xs.flatMap (· ++ ['\n']) = ys.flatMap (· ++ ['\n'])) : xs = ys := by
  induction xs generalizing ys with
  | nil =>
    cases ys with
    | nil => rfl
    | cons y ys => simp at h
  | cons x xs ih =>
    cases ys with
    | nil => simp at h
    | cons y ys =>
      rw [List.flatMap_cons, List.flatMap_cons, List.append_assoc, List.append_assoc,
        List.singleton_append, List.singleton_append] at h
      obtain ⟨rfl, hrest⟩ := append_cons_inj (hx x List.mem_cons_self) (hy y List.mem_cons_self) h
      rw [ih (fun z hz => hx z (List.mem_cons_of_mem _ hz))
        (fun z hz => hy z (List.mem_cons_of_mem _ hz)) hrest]

theorem intercalate_lines (x : List Char) (xs : List (List Char)) :
    ['\n'].intercalate (x :: xs) ++ ['\n'] = (x :: xs).flatMap (· ++ ['\n']) := by
  induction xs generalizing x with
  | nil => simp
  | cons y ys ih =>
    rw [List.intercalate_cons_cons, List.append_assoc, List.append_assoc, ih, List.flatMap_cons,
      List.flatMap_cons, List.flatMap_cons]
    simp only [List.append_assoc]

theorem toList_signingString [CaseMapping] (ctx : Context) (params : HmacParams) :
    (signingString ctx params).toList =
      params.accessKey.toList ++ '\n' ::
        ((params.signedHeaders.filterMap (line ctx)).map String.toList).flatMap (· ++ ['\n']) := by
  rw [signingString, String.toList_append, String.toList_intercalate, List.map_cons]
  show ['\n'].intercalate _ ++ ['\n'] = _
  rw [intercalate_lines, List.flatMap_cons, List.append_assoc]
  rfl

/-- Of two functions on the elements of a list: when the value at an element tells the element,
    the list of their values tells the functions. -/
theorem eq_of_filterMap_eq {α β : Type} {f g : α → Option β} {l : List α}
    (hfg : ∀ a ∈ l, ∀ a' ∈ l, ∀ b, f a = some b → g a' = some b → a = a')
    (h : l.filterMap f = l.filterMap g) : ∀ a ∈ l, f a = g a := by
  intro a ha
  have hf : ∀ b, f a = some b → g a = some b := by
    intro b hb
    have hmem : b ∈ l.filterMap g := h ▸ List.mem_filterMap.mpr ⟨a, ha, hb⟩
    obtain ⟨a', ha', hb'⟩ := List.mem_filterMap.mp hmem
    rw [hfg a ha a' ha' b hb hb']
    exact hb'
  have hg : ∀ b, g a = some b → f a = some b := by
    intro b hb
    have hmem : b ∈ l.filterMap f := h ▸ List.mem_filterMap.mpr ⟨a, ha, hb⟩
    obtain ⟨a', ha', hb'⟩ := List.mem_filterMap.mp hmem
    rw [← hfg a' ha' a ha b hb' hb]
    exact hb'
  exact Option.ext fun b => ⟨hf b, hg b⟩

/-! ### The target -/

/-- Non-empty texts without the separator are read back from their joint text. -/
theorem intercalate_inj {c : Char} {xs ys : List (List Char)} (hx : ∀ x ∈ xs, c ∉ x ∧ x ≠ [])
    (hy : ∀ y ∈ ys, c ∉ y ∧ y ≠ []) (h : [c].intercalate xs = [c].intercalate ys) : xs = ys := by
  have hsplit : ∀ zs : List (List Char), (∀ z ∈ zs, c ∉ z ∧ z ≠ []) →
      zs = ([c].intercalate zs).splitOn c ∨ zs = [] ∧ [c].intercalate zs = [] := by
    intro zs hz
    by_cases hne : zs = []
    · rw [hne]
      exact Or.inr ⟨rfl, rfl⟩
    · exact Or.inl (List.splitOn_intercalate c (fun z hz' => (hz z hz').1) hne).symm
  have hnil : ∀ zs : List (List Char), (∀ z ∈ zs, c ∉ z ∧ z ≠ []) →
      [c].intercalate zs = [] → zs = [] := by
    intro zs hz hempty
    rcases hsplit zs hz with heq | ⟨heq, -⟩
    · rw [hempty] at heq
      have hmem : [] ∈ zs := by
        rw [heq]
        exact List.mem_singleton.mpr rfl
      exact absurd rfl (hz [] hmem).2
    · exact heq
  rcases hsplit xs hx with hxs | ⟨hxs, hempty⟩
  · rcases hsplit ys hy with hys | ⟨hys, hempty⟩
    · rw [hxs, hys, h]
    · rw [hys]
      exact hnil xs hx (h.trans hempty)
  · rw [hxs]
    exact (hnil ys hy (h.symm.trans hempty)).symm

theorem toList_queryPair (pair : String × String) :
    (queryPair pair).toList = pair.1.toList ++ '=' :: pair.2.toList := by
  simp [queryPair]

section Target

variable {ctx ctx' : Context}

/-- The pairs of the query, as they are signed. -/
def sortedPairs (ctx : Context) : List (String × String) :=
  (Multimap.toPairs ctx.request.queryParams).insertionSort PairLe

theorem sortedPairs_perm (ctx : Context) :
    (sortedPairs ctx).Perm (Multimap.toPairs ctx.request.queryParams) :=
  List.perm_insertionSort _ _

/-- The query as it is signed. -/
def queryChars (ctx : Context) : List Char :=
  ['&'].intercalate ((sortedPairs ctx).map fun pair => pair.1.toList ++ '=' :: pair.2.toList)

theorem toList_requestUri (ctx : Context) : (requestUri ctx).toList =
    ctx.request.path.toList ++
      if ctx.request.queryParams.isEmpty then [] else '?' :: queryChars ctx := by
  rw [requestUri]
  split
  · rw [List.append_nil]
  · rw [String.toList_append, String.toList_append, String.toList_intercalate, List.map_map,
      List.append_assoc]
    show _ ++ (['?'] ++ ['&'].intercalate (List.map (fun pair => (queryPair pair).toList) _)) = _
    simp only [toList_queryPair]
    rfl

theorem OneLine.queryChars (h : OneLine ctx) : '\n' ∉ queryChars ctx := by
  intro hc
  rcases Split.mem_intercalate hc with hc | ⟨l, hl, hc⟩
  · exact absurd hc (by decide)
  · obtain ⟨pair, hp, rfl⟩ := List.mem_map.mp hl
    obtain ⟨⟨-, -, hkey⟩, -, hvalue⟩ := h.query pair ((sortedPairs_perm ctx).mem_iff.mp hp)
    rcases List.mem_append.mp hc with hc | hc
    · exact hkey hc
    · rcases List.mem_cons.mp hc with hc | hc
      · exact absurd hc (by decide)
      · exact hvalue hc

theorem OneLine.requestUri (h : OneLine ctx) : '\n' ∉ (requestUri ctx).toList := by
  rw [toList_requestUri, List.mem_append]
  rintro (hc | hc)
  · exact h.path.2 hc
  · split at hc
    · cases hc
    · rcases List.mem_cons.mp hc with hc | hc
      · exact absurd hc (by decide)
      · exact h.queryChars hc

theorem sortedPairs_of_queryChars (h : OneLine ctx) (h' : OneLine ctx')
    (heq : HmacAuthPlugin.queryChars ctx = HmacAuthPlugin.queryChars ctx') :
    sortedPairs ctx = sortedPairs ctx' := by
  have hpairs : ∀ {c : Context}, OneLine c →
      ∀ x ∈ (sortedPairs c).map (fun pair => pair.1.toList ++ '=' :: pair.2.toList),
        '&' ∉ x ∧ x ≠ [] := by
    intro c hc x hx
    obtain ⟨pair, hp, rfl⟩ := List.mem_map.mp hx
    obtain ⟨⟨hkey, -, -⟩, hvalue, -⟩ := hc.query pair ((sortedPairs_perm c).mem_iff.mp hp)
    refine ⟨?_, by simp⟩
    rw [List.mem_append, List.mem_cons]
    rintro (hmem | hmem | hmem)
    · exact hkey hmem
    · exact absurd hmem (by decide)
    · exact hvalue hmem
  have hmaps := intercalate_inj (hpairs h) (hpairs h') heq
  -- each pair is read back from its text
  have hinj : ∀ p ∈ sortedPairs ctx, ∀ q ∈ sortedPairs ctx',
      p.1.toList ++ '=' :: p.2.toList = q.1.toList ++ '=' :: q.2.toList → p = q := by
    intro p hp q hq hpq
    have hkey := (h.query p ((sortedPairs_perm ctx).mem_iff.mp hp)).1.2.1
    have hkey' := (h'.query q ((sortedPairs_perm ctx').mem_iff.mp hq)).1.2.1
    obtain ⟨h1, h2⟩ := append_cons_inj hkey hkey' hpq
    exact Prod.ext (String.toList_inj.mp h1) (String.toList_inj.mp h2)
  revert hmaps hinj
  generalize sortedPairs ctx = ps
  generalize sortedPairs ctx' = qs
  intro hmaps hinj
  induction ps generalizing qs with
  | nil =>
    cases qs with
    | nil => rfl
    | cons q qs => cases hmaps
  | cons p ps ih =>
    cases qs with
    | nil => cases hmaps
    | cons q qs =>
      obtain ⟨hhead, htail⟩ := List.cons.inj hmaps
      rw [hinj p List.mem_cons_self q List.mem_cons_self hhead, ih qs htail fun p hp q hq =>
        hinj p (List.mem_cons_of_mem _ hp) q (List.mem_cons_of_mem _ hq)]

theorem toPairs_of_isEmpty (h : ctx.request.queryParams.isEmpty) :
    Multimap.toPairs ctx.request.queryParams = [] := by
  rw [Std.ExtTreeMap.isEmpty_iff.mp h]
  rfl

/-- The target tells the path and the pairs of the query, but not their order. -/
theorem target_inj (h : OneLine ctx) (h' : OneLine ctx')
    (heq : HmacAuthPlugin.requestUri ctx = HmacAuthPlugin.requestUri ctx') :
    ctx.request.path = ctx'.request.path ∧
      (Multimap.toPairs ctx.request.queryParams).Perm
        (Multimap.toPairs ctx'.request.queryParams) := by
  have hlist := congrArg String.toList heq
  rw [toList_requestUri, toList_requestUri] at hlist
  -- a path has no `?`, so one request has a query if the other has
  by_cases hempty : ctx.request.queryParams.isEmpty = true
  · by_cases hempty' : ctx'.request.queryParams.isEmpty = true
    · rw [if_pos hempty, if_pos hempty', List.append_nil, List.append_nil] at hlist
      rw [toPairs_of_isEmpty hempty, toPairs_of_isEmpty hempty']
      exact ⟨String.toList_inj.mp hlist, List.Perm.refl _⟩
    · rw [if_pos hempty, if_neg hempty', List.append_nil] at hlist
      have hmark : '?' ∈ ctx.request.path.toList := by
        rw [hlist]
        simp
      exact absurd hmark h.path.1
  · by_cases hempty' : ctx'.request.queryParams.isEmpty = true
    · rw [if_neg hempty, if_pos hempty', List.append_nil] at hlist
      have hmark : '?' ∈ ctx'.request.path.toList := by
        rw [← hlist]
        simp
      exact absurd hmark h'.path.1
    · rw [if_neg hempty, if_neg hempty'] at hlist
      obtain ⟨hpath, hquery⟩ := append_cons_inj h.path.1 h'.path.1 hlist
      refine ⟨String.toList_inj.mp hpath, ?_⟩
      have hsorted := sortedPairs_of_queryChars h h' hquery
      exact (sortedPairs_perm ctx).symm.trans (hsorted ▸ sortedPairs_perm ctx')

end Target

/-! ### Which name a line is for -/

section Lines

variable [CaseMapping] {ctx ctx' : Context}

theorem line_cases {name text : String} (h : line ctx name = some text) :
    (name = "@request-target" ∧
      text.toList = ctx.request.method.toList ++ ' ' :: (requestUri ctx).toList) ∨
    (name ≠ "@request-target" ∧ ∃ value, header ctx (toLowercase name) = some value ∧
      text.toList = (name.toList ++ [':']) ++ ' ' :: value.toList) := by
  rw [line] at h
  split at h
  · rename_i hname
    obtain rfl := Option.some.inj h
    exact Or.inl ⟨hname, by simp⟩
  · rename_i hname
    obtain ⟨value, hvalue, rfl⟩ := Option.map_eq_some_iff.mp h
    exact Or.inr ⟨hname, value, hvalue, by simp⟩

theorem line_feed_free (h : OneLine ctx) {name text : String} (hname : Word name)
    (hline : line ctx name = some text) : '\n' ∉ text.toList := by
  rcases line_cases hline with ⟨-, htext⟩ | ⟨-, value, hvalue, htext⟩
  · rw [htext, List.mem_append, List.mem_cons]
    rintro (hc | hc | hc)
    · exact h.method.2.2 hc
    · exact absurd hc (by decide)
    · exact h.requestUri hc
  · simp only [htext, List.mem_append, List.mem_cons, List.not_mem_nil, or_false]
    rintro ((hc | hc) | hc | hc)
    · exact hname.2 hc
    · exact absurd hc (by decide)
    · exact absurd hc (by decide)
    · exact h.headers _ value hvalue hc

/-- What stands before the first blank tells the name. -/
theorem line_name (h : OneLine ctx) (h' : OneLine ctx') {name name' text : String}
    (hname : Word name) (hname' : Word name') (hline : line ctx name = some text)
    (hline' : line ctx' name' = some text) : name = name' := by
  have hblank : ∀ {n : String}, Word n → ' ' ∉ n.toList ++ [':'] := fun hn => by
    rw [List.mem_append]
    rintro (hc | hc)
    · exact hn.1 hc
    · exact absurd hc (by decide)
  rcases line_cases hline with ⟨ht, htext⟩ | ⟨-, value, -, htext⟩
  · rcases line_cases hline' with ⟨ht', -⟩ | ⟨-, value', -, htext'⟩
    · rw [ht, ht']
    · rw [htext] at htext'
      have hmethod := (append_cons_inj h.method.1 (hblank hname') htext').1
      exact absurd (by rw [hmethod]; simp) h.method.2.1
  · rcases line_cases hline' with ⟨-, htext'⟩ | ⟨-, value', -, htext'⟩
    · rw [htext'] at htext
      have hmethod := (append_cons_inj h'.method.1 (hblank hname) htext).1
      exact absurd (by rw [hmethod]; simp) h'.method.2.1
    · rw [htext] at htext'
      have hnames := (append_cons_inj (hblank hname) (hblank hname') htext').1
      exact String.toList_inj.mp (List.append_cancel_right hnames)

/-- Two requests are alike in everything a list of names covers: the first values of the headers,
    and with `@request-target` the method, the path and the pairs of the query. -/
structure Agrees (names : List String) (ctx ctx' : Context) : Prop where
  headers : ∀ name ∈ names, name ≠ "@request-target" →
    header ctx (toLowercase name) = header ctx' (toLowercase name)
  target : "@request-target" ∈ names →
    ctx.request.method = ctx'.request.method ∧ ctx.request.path = ctx'.request.path ∧
      (Multimap.toPairs ctx.request.queryParams).Perm
        (Multimap.toPairs ctx'.request.queryParams)

theorem agrees_of_signingString {params : HmacParams} (h : OneLine ctx) (h' : OneLine ctx')
    (hwords : ∀ name ∈ params.signedHeaders, Word name)
    (heq : signingString ctx params = signingString ctx' params) :
    Agrees params.signedHeaders ctx ctx' := by
  have hlist := congrArg String.toList heq
  rw [toList_signingString, toList_signingString, List.append_cancel_left_eq,
    List.cons.injEq] at hlist
  have hfree : ∀ {c : Context}, OneLine c →
      ∀ x ∈ (params.signedHeaders.filterMap (line c)).map String.toList, '\n' ∉ x := by
    intro c hc x hx
    obtain ⟨text, htext, rfl⟩ := List.mem_map.mp hx
    obtain ⟨name, hname, hline⟩ := List.mem_filterMap.mp htext
    exact line_feed_free hc (hwords name hname) hline
  have hmaps := lines_inj (hfree h) (hfree h') hlist.2
  have hlines := (List.map_inj_right fun s t hst => String.toList_inj.mp hst).mp hmaps
  have hline := eq_of_filterMap_eq (fun a ha a' ha' b hb hb' =>
    line_name h h' (hwords a ha) (hwords a' ha') hb hb') hlines
  constructor
  case headers =>
    intro name hname hother
    have hsame := hline name hname
    rw [line, line, if_neg hother, if_neg hother] at hsame
    refine Option.map_injective (fun v w hvw => ?_) hsame
    have htexts := congrArg String.toList hvw
    simp only [String.toList_append] at htexts
    exact String.toList_inj.mp (List.append_cancel_left htexts)
  case target =>
    intro hname
    have hsame := hline _ hname
    rw [line, line, if_pos rfl, if_pos rfl] at hsame
    have htexts := congrArg String.toList (Option.some.inj hsame)
    simp only [String.toList_append, List.append_assoc] at htexts
    obtain ⟨hmethod, huri⟩ := append_cons_inj (c := ' ') h.method.1 h'.method.1 htexts
    exact ⟨String.toList_inj.mp hmethod, target_inj h h' (String.toList_inj.mp huri)⟩

end Lines

/-! ## A changed request -/

section Changed

variable [CaseMapping] [Hmac] [Base64] (plugin : HmacAuthPlugin)

/-- The secret an access key is checked with. -/
def secretFor (store : ConsumerStore) (accessKey : String) : Option String :=
  match plugin.inlineSecret accessKey with
  | some secret => some secret
  | none => (plugin.findConsumer store accessKey).bind consumerSecret

/-- A request with a known access key is accepted by its signature alone. -/
theorem verified_of_accepted {store store' : ConsumerStore} {now : UInt64} {ctx : Context}
    {output : PluginOutput} {params : HmacParams} {secret : String}
    (h : plugin.execute store store' now ctx = .ok output) (hparams : retrieveParams ctx = some params)
    (hsecret : plugin.secretFor store params.accessKey = some secret) :
    plugin.verifySignature ctx params secret = true := by
  unfold execute at h
  unfold secretFor at hsecret
  simp only [hparams] at h
  split at h
  · cases h
  · cases hinline : plugin.inlineSecret params.accessKey with
    | some own =>
      rw [hinline] at hsecret
      obtain rfl := Option.some.inj hsecret
      simp only [hinline] at h
      split at h
      · assumption
      · cases h
    | none =>
      rw [hinline] at hsecret
      obtain ⟨consumer, hconsumer, hown⟩ := Option.bind_eq_some_iff.mp hsecret
      simp only [hinline, hconsumer, hown, Option.any_some] at h
      split at h
      · assumption
      · cases h

/-- Without a valid signature such a request is turned away. -/
theorem rejected_of_unverified {store store' : ConsumerStore} {now : UInt64} {ctx : Context}
    {params : HmacParams} {secret : String} (hparams : retrieveParams ctx = some params)
    (hsecret : plugin.secretFor store params.accessKey = some secret)
    (h : plugin.verifySignature ctx params secret = false) :
    ∃ msg, plugin.execute store store' now ctx = plugin.reject ctx msg := by
  unfold secretFor at hsecret
  unfold execute
  simp only [hparams]
  split
  · exact ⟨_, rfl⟩
  · cases hinline : plugin.inlineSecret params.accessKey with
    | some own =>
      rw [hinline] at hsecret
      obtain rfl := Option.some.inj hsecret
      exact ⟨_, if_neg (by simp [h])⟩
    | none =>
      rw [hinline] at hsecret
      obtain ⟨consumer, hconsumer, hown⟩ := Option.bind_eq_some_iff.mp hsecret
      simp only [hconsumer, hown, Option.any_some]
      exact ⟨_, if_neg (by simp [h])⟩

/-- **What a signature covers.**  A request is accepted by its signature.  Another one that shows
    the same access key, list and signature, but differs in the first value of a listed header
    (the `Date`, if it is listed) or, with `@request-target` listed, in the method, the path or
    the pairs of the query, has another signing string and is rejected. -/
theorem changed_request_rejected
    (hinj : ∀ secret, Function.Injective (Hmac.sign plugin.algorithm secret))
    {store store' : ConsumerStore} {now : UInt64} {ctx ctx' : Context} {output : PluginOutput}
    {params : HmacParams} {secret : String} (hline : OneLine ctx) (hline' : OneLine ctx')
    (haccepted : plugin.execute store store' now ctx = .ok output)
    (hparams : retrieveParams ctx = some params)
    (hsecret : plugin.secretFor store params.accessKey = some secret)
    (hkept : retrieveParams ctx' = some params)
    (hchanged : ¬ Agrees params.signedHeaders ctx ctx') :
    signingString ctx params ≠ signingString ctx' params ∧
      ∀ store' now, ∃ msg, plugin.execute store store' now ctx' = plugin.reject ctx' msg := by
  have hstring : signingString ctx params ≠ signingString ctx' params := fun h =>
    hchanged (agrees_of_signingString hline hline' (words_of_retrieveParams hparams) h)
  refine ⟨hstring, fun store' now => ?_⟩
  have hverified := plugin.verified_of_accepted haccepted hparams hsecret
  refine plugin.rejected_of_unverified hkept hsecret ?_
  unfold verifySignature at hverified ⊢
  cases htag : Base64.decode (asBytes params.signature) with
  | error e => rfl
  | ok tag =>
    simp only [htag, Hmac.verify, decide_eq_true_eq, decide_eq_false_iff_not] at hverified ⊢
    exact fun h => hstring (asBytes_inj.mp (hinj _ (hverified.trans h.symm)))

end Changed

/-! ## A signed request on the wire -/

/-- What `http` sees to: a method is a token, a path ends at the first `?`, and a target has no
    line feed. -/
structure WireParts (parts : HttpParts) : Prop where
  method : ∀ c ∈ parts.method.toList, c ≠ ' ' ∧ c ≠ ':' ∧ c ≠ '\n'
  path : ∀ c ∈ parts.uri.path.toList, c ≠ '?' ∧ c ≠ '\n'
  query : ∀ query, parts.uri.query = some query → '\n' ∉ query.toList

/-- The text of a header value has no line feed. -/
theorem newline_not_mem_headerToStr {value : Bytes} {s : String} (h : headerToStr value = some s) :
    '\n' ∉ s.toList := by
  rw [headerToStr] at h
  split at h
  · rename_i hall
    intro hc
    have hmem := (mem_asBytes_iff (show '\n'.toNat < 128 by decide) s).mpr hc
    rw [← fromUtf8_eq_some.mp h] at hmem
    exact absurd (List.all_eq_true.mp hall _ hmem) (by decide)
  · cases h

theorem mem_toPairs_ofPairs {pairs : List (String × String)} {pair : String × String}
    (h : pair ∈ Multimap.toPairs (Multimap.ofPairs pairs)) : pair ∈ pairs := by
  have hvalue : pair.2 ∈ Multimap.valuesOf pair.1 (Multimap.toPairs (Multimap.ofPairs pairs)) :=
    List.mem_map.mpr ⟨pair, List.mem_filter.mpr ⟨h, by simp⟩, rfl⟩
  rw [Multimap.valuesOf_toPairs, Multimap.getElem?_ofPairs] at hvalue
  split at hvalue
  · cases hvalue
  · obtain ⟨other, hother, heq⟩ := List.mem_map.mp hvalue
    obtain ⟨hmem, hkey⟩ := List.mem_filter.mp hother
    rwa [← Prod.ext (of_decide_eq_true hkey) heq]

theorem mem_intercalate_of_mem {α : Type} {sep c : α} {l : List α} {ls : List (List α)} (hl : l ∈ ls)
    (hc : c ∈ l) : c ∈ [sep].intercalate ls := by
  induction ls with
  | nil => cases hl
  | cons m ls ih =>
    cases ls with
    | nil =>
      rw [List.intercalate_singleton, ← List.mem_singleton.mp hl]
      exact hc
    | cons m' ls =>
      rw [List.intercalate_cons_cons, List.mem_append, List.mem_append]
      rcases List.mem_cons.mp hl with rfl | hl
      · exact Or.inl (Or.inl hc)
      · exact Or.inr (ih hl)

theorem mem_splitChar {sep : Char} {s piece : String} (h : piece ∈ splitChar sep s) :
    sep ∉ piece.toList ∧ ∀ c ∈ piece.toList, c ∈ s.toList := by
  refine ⟨not_mem_of_mem_splitChar h, fun c hc => ?_⟩
  obtain ⟨l, hl, rfl⟩ := List.mem_map.mp h
  rw [String.toList_ofList] at hc
  have hjoin : [sep].intercalate (s.toList.splitOn sep) = s.toList := List.intercalate_splitOn sep
  rw [← hjoin]
  exact mem_intercalate_of_mem hl hc

/-- The key of a pair has no `=`, and both halves are made of its characters. -/
theorem splitPair_spec (piece : String) :
    '=' ∉ (splitPair piece).1.toList ∧
      (∀ c ∈ (splitPair piece).1.toList, c ∈ piece.toList) ∧
      ∀ c ∈ (splitPair piece).2.toList, c ∈ piece.toList := by
  by_cases hmem : '=' ∈ piece.toList
  · obtain ⟨x, y, hxy, hx⟩ := List.eq_append_cons_of_mem hmem
    have hpair : splitPair piece = (String.ofList x, String.ofList y) := by
      rw [splitPair, splitOnceChar, hxy, Split.splitOnce_append hx]
      rfl
    rw [hpair, hxy]
    simp only [String.toList_ofList]
    exact ⟨hx, fun c hc => List.mem_append_left _ hc,
      fun c hc => List.mem_append_right _ (List.mem_cons_of_mem _ hc)⟩
  · have hpair : splitPair piece = (piece, "") := by
      rw [splitPair]
      cases hsplit : splitOnceChar '=' piece with
      | none => rfl
      | some halves =>
        rw [eq_of_splitOnceChar hsplit] at hmem
        simp at hmem
    rw [hpair]
    exact ⟨hmem, fun c hc => hc, fun c hc => by cases hc⟩

theorem oneLine_fromHyper {parts : HttpParts} (h : WireParts parts) (body : Bytes) (addr : String) :
    OneLine (Context.new (GatewayRequest.fromHyper parts body addr)) := by
  constructor
  case headers =>
    intro name value hvalue
    obtain ⟨values, hvalues, hhead⟩ := Option.bind_eq_some_iff.mp hvalue
    have hmem := List.mem_of_mem_head? hhead
    replace hvalues : (Multimap.ofPairs parts.textHeaders)[name]? = some values := hvalues
    rw [Multimap.getElem?_ofPairs] at hvalues
    split at hvalues
    · cases hvalues
    · obtain rfl := Option.some.inj hvalues
      obtain ⟨pair, hpair, rfl⟩ := List.mem_map.mp hmem
      obtain ⟨field, -, rfl⟩ := List.mem_map.mp (List.mem_filter.mp hpair).1
      show '\n' ∉ ((headerToStr field.2).getD "").toList
      cases htext : headerToStr field.2 with
      | none => exact List.not_mem_nil
      | some text => exact newline_not_mem_headerToStr htext
  case method =>
    exact ⟨fun hc => (h.method _ hc).1 rfl, fun hc => (h.method _ hc).2.1 rfl,
      fun hc => (h.method _ hc).2.2 rfl⟩
  case path => exact ⟨fun hc => (h.path _ hc).1 rfl, fun hc => (h.path _ hc).2 rfl⟩
  case query =>
    intro pair hpair
    replace hpair : pair ∈ Multimap.toPairs (parseQuery parts.uri.query) := hpair
    cases hquery : parts.uri.query with
    | none =>
      rw [hquery] at hpair
      cases hpair
    | some query =>
      rw [hquery] at hpair
      obtain ⟨piece, hpiece, rfl⟩ := List.mem_map.mp (mem_toPairs_ofPairs hpair)
      obtain ⟨hamp, hchars⟩ := mem_splitChar hpiece
      obtain ⟨heq, hkey, hval⟩ := splitPair_spec piece
      have hnewline : '\n' ∉ piece.toList := fun hc => h.query query hquery (hchars _ hc)
      exact ⟨⟨fun hc => hamp (hkey _ hc), heq, fun hc => hnewline (hkey _ hc)⟩,
        fun hc => hamp (hval _ hc), fun hc => hnewline (hval _ hc)⟩

/-- A node with one credential of its own. -/
def aliceOnly : HmacAuthPlugin where
  accessKey := some "alice"
  secretKey := some "secret"
  algorithm := .sha256
  clockSkew := 300
  signedHeaders := []
  useConsumers := false
  anonymousConsumer := none
  keepHeaders := false
  hideCredentials := false
  realm := "hmac"

/-- A request signed over its `x-tenant`, which is `a`. -/
def signedParts (tenants : List String) (date path : String) : HttpParts where
  method := "GET"
  uri := { scheme := none, path := path, query := none }
  version := .http11
  headers :=
    [("date", asBytes date), ("x-hmac-access-key", asBytes "alice"),
      ("x-hmac-signed-headers", asBytes "x-tenant"),
      ("x-hmac-signature", asBytes "YWxpY2UKeC10ZW5hbnQ6IGEK")] ++
      tenants.map fun tenant => ("x-tenant", asBytes tenant)

def signedContext (tenants : List String) (date path : String) : Context :=
  Context.new (GatewayRequest.fromHyper (signedParts tenants date path) [] "")

/-- Whether the node lets the request pass, with tags that are the messages themselves. -/
def aliceAccepts (tenants : List String) (date path : String) : Bool :=
  (@execute asciiCaseMapping aliceOnly echoTag standardBase64.toBase64 {} {} 784111777
    (signedContext tenants date path)).toBool

theorem wireParts_signedParts (tenants : List String) (date : String) :
    WireParts (signedParts tenants date "/") where
  method c hc := by
    have hget : (signedParts tenants date "/").method.toList = ['G', 'E', 'T'] :=
      show "GET".toList = _ by decide
    simp only [hget, List.mem_cons, List.not_mem_nil, or_false] at hc
    rcases hc with rfl | rfl | rfl
    all_goals decide
  path c hc := by
    have hroot : (signedParts tenants date "/").uri.path.toList = ['/'] :=
      show "/".toList = _ by decide
    rw [hroot, List.mem_singleton] at hc
    rw [hc]
    decide
  query _ h := by cases h

/-- The signature over `a` is not one over `b`. -/
theorem changed_request_rejected_tenant :
    ∃ msg, @execute asciiCaseMapping aliceOnly echoTag standardBase64.toBase64 {} {} 784111777
      (signedContext ["b"] "Sun, 06 Nov 1994 08:49:37 GMT" "/") =
        aliceOnly.reject (signedContext ["b"] "Sun, 06 Nov 1994 08:49:37 GMT" "/") msg := by
  let _ : CaseMapping := asciiCaseMapping
  let _ : Hmac := echoTag
  let _ : Base64 := standardBase64.toBase64
  have haccepts : aliceAccepts ["a"] "Sun, 06 Nov 1994 08:49:37 GMT" "/" = true := by decide +kernel
  cases haccepted : aliceOnly.execute {} {} 784111777
      (signedContext ["a"] "Sun, 06 Nov 1994 08:49:37 GMT" "/") with
  | error e =>
    rw [aliceAccepts, haccepted] at haccepts
    cases haccepts
  | ok output =>
    have hparams : ∀ tenant ∈ ["a", "b"],
        retrieveParams (signedContext [tenant] "Sun, 06 Nov 1994 08:49:37 GMT" "/") = some {
          accessKey := "alice"
          algorithm := none
          signature := "YWxpY2UKeC10ZW5hbnQ6IGEK"
          signedHeaders := ["x-tenant"] } := by decide +kernel
    have hchanged : header (signedContext ["a"] "Sun, 06 Nov 1994 08:49:37 GMT" "/") "x-tenant" ≠
        header (signedContext ["b"] "Sun, 06 Nov 1994 08:49:37 GMT" "/") "x-tenant" := by
      decide +kernel
    refine (aliceOnly.changed_request_rejected (fun _ _ _ h => h)
      (oneLine_fromHyper (wireParts_signedParts _ _) [] "")
      (oneLine_fromHyper (wireParts_signedParts _ _) [] "") haccepted
      (hparams "a" (by decide)) rfl (hparams "b" (by decide)) fun h => ?_).2 {} 784111777
    exact hchanged (h.headers "x-tenant" List.mem_cons_self (by decide))

/-- A request signed over its target. -/
def targetParts (query : String) : HttpParts where
  method := "GET"
  uri := { scheme := none, path := "/", query := some query }
  version := .http11
  headers :=
    [("date", asBytes "Sun, 06 Nov 1994 08:49:37 GMT"), ("x-hmac-access-key", asBytes "alice"),
      ("x-hmac-signed-headers", asBytes "@request-target"),
      ("x-hmac-signature", asBytes "YWxpY2UKR0VUIC8/YT0xJmI9Mgo=")]

def aliceAcceptsTarget (query : String) : Bool :=
  (@execute asciiCaseMapping aliceOnly echoTag standardBase64.toBase64 {} {} 784111777
    (Context.new (GatewayRequest.fromHyper (targetParts query) [] ""))).toBool

/-- A node that knows no access key and takes everybody for the guest. -/
def guestsOnly : HmacAuthPlugin :=
  { aliceOnly with accessKey := none, secretKey := none, useConsumers := true,
                   anonymousConsumer := some "guest" }

def guestStore : ConsumerStore where
  byName := (∅ : HashMap Consumer).insert "guest"
    { name := "guest", group := none, labels := ∅, credentials := ∅ }

def guestsAccept (tenants : List String) : Bool :=
  (@execute asciiCaseMapping guestsOnly echoTag standardBase64.toBase64 guestStore guestStore
    784111777 (signedContext tenants "Sun, 06 Nov 1994 08:49:37 GMT" "/")).toBool

/-- A request is accepted by its signature over `x-tenant`; it is accepted, too, with another
    second value of that header, with another `Date`, and with another path.  One that is signed
    over its target is accepted with the query in another order, and the guest with anything. -/
theorem changed_requests_accepted :
    aliceAccepts ["a", "b"] "Sun, 06 Nov 1994 08:49:37 GMT" "/" = true ∧
      aliceAccepts ["a", "c"] "Sun, 06 Nov 1994 08:49:37 GMT" "/" = true ∧
      aliceAccepts ["a", "b"] "Sun, 06 Nov 1994 08:50:37 GMT" "/" = true ∧
      aliceAccepts ["a", "b"] "Sun, 06 Nov 1994 08:49:37 GMT" "/admin" = true ∧
      aliceAcceptsTarget "a=1&b=2" = true ∧ aliceAcceptsTarget "b=2&a=1" = true ∧
      guestsAccept ["a"] = true ∧ guestsAccept ["b"] = true := by
  decide +kernel

end HmacAuthPlugin

end Featherbit
