/-
  WHAT A BODY CAPTURE SAYS OF ITS BODY (`capture_body`, `debug/trace.rs`, and `TraceRecorder::record_step`,
  `debug/mod.rs`).

  1. **One capture** (`captureBody_describes_iff`).  `Describes` is the documented meaning of a capture.  An
     incomplete character at the end of the captured part is taken for one that the limit cut, also where the
     body is no longer than the limit: then the capture says `truncated` of a body that is whole.

  2. **A trace.**  The captures of one body after another are a `captureTrack`: a marker where nothing changed.
     Walking back over the markers leads to a capture of the same body (`exists_origin`).

  3. `traced_bodies_exact_iff`: every capture of a recording is exact iff no body within the limit ends in an
     incomplete character.
-/
import Mathlib
import Featherbit.Graph.Tracing
import Featherbit.Rust.Utf8Prefix

namespace Featherbit

/-! ## Texts and cut characters -/

/-- The beginning of a character that is not all of it. -/
def CutCharacter (tail : Bytes) : Prop :=
  tail ≠ [] ∧ ∃ c more, more ≠ [] ∧ String.utf8EncodeChar c = tail ++ more

/-- A text, and the beginning of a character after it. -/
def EndsInCut (bs : Bytes) : Prop := ∃ s tail, bs = asBytes s ++ tail ∧ CutCharacter tail

theorem cutCharacter_iff {tail : Bytes} :
    CutCharacter tail ↔ tail ≠ [] ∧ readUtf8Char tail = .error none := by
  constructor
  · rintro ⟨hne, h⟩
    exact ⟨hne, (readUtf8Char_cut_iff hne).mpr h⟩
  · rintro ⟨hne, h⟩
    exact ⟨hne, (readUtf8Char_cut_iff hne).mp h⟩

/-- A text does not end in a cut character. -/
theorem not_endsInCut_text (s : String) : ¬ EndsInCut (asBytes s) := by
  rintro ⟨s', tail, h, hcut⟩
  obtain ⟨hne, hread⟩ := cutCharacter_iff.mp hcut
  have hnil : readUtf8Char [] = .error none := rfl
  exact hne (text_unique hnil hread ((List.append_nil _).trans h)).2.symm

/-- No text is a text and something that is no character. -/
theorem fromUtf8_append_eq_none {s : String} {rest : Bytes} {e : Option Nat} (hne : rest ≠ [])
    (hread : readUtf8Char rest = .error e) : fromUtf8 (asBytes s ++ rest) = none := by
  cases h : fromUtf8 (asBytes s ++ rest) with
  | none => rfl
  | some s' =>
    have heq := fromUtf8_eq_some.mp h
    have hnil : readUtf8Char [] = .error none := rfl
    exact absurd (text_unique hread hnil (heq.trans (List.append_nil _).symm)).2 hne

/-- What a byte string is: a text; a text and a cut character; or a text and an invalid byte. -/
theorem decoded (bs : Bytes) :
    (∃ s, bs = asBytes s) ∨
    (∃ s tail, bs = asBytes s ++ tail ∧ CutCharacter tail ∧ fromUtf8 bs = none ∧
      utf8Error bs = some ⟨(asBytes s).length, none⟩) ∨
    ∃ validUpTo len, (∀ s, bs ≠ asBytes s) ∧ ¬ EndsInCut bs ∧ fromUtf8 bs = none ∧
      utf8Error bs = some ⟨validUpTo, some len⟩ := by
  rcases utf8Error_spec bs with ⟨s, rfl, -⟩ | ⟨s, rest, e, rfl, hne, hread, herror⟩
  · exact Or.inl ⟨s, rfl⟩
  · have hnone : fromUtf8 (asBytes s ++ rest) = none := fromUtf8_append_eq_none hne hread
    cases e with
    | none =>
      exact Or.inr (Or.inl ⟨s, rest, rfl, cutCharacter_iff.mpr ⟨hne, hread⟩, hnone, herror⟩)
    | some len =>
      refine Or.inr (Or.inr ⟨_, len, fun s' heq => ?_, ?_, hnone, herror⟩)
      · rw [heq, fromUtf8_asBytes] at hnone
        nomatch hnone
      · rintro ⟨s', tail, h, hcut⟩
        obtain ⟨-, hcutread⟩ := cutCharacter_iff.mp hcut
        obtain ⟨-, rfl⟩ := text_unique hread hcutread h
        rw [hread] at hcutread
        nomatch hcutread

/-! ## One capture -/

/-- A text, but for a character that the limit cuts. -/
def TextUpToCut (maxBodyBytes : Nat) (body : Bytes) : Prop :=
  (∃ s, body.take maxBodyBytes = asBytes s) ∨
    maxBodyBytes < body.length ∧ EndsInCut (body.take maxBodyBytes)

/-- What a capture is documented to say of a body. -/
structure Describes (maxBodyBytes : Nat) (body : Bytes) (capture : BodyCapture) : Prop where
  len : capture.len = body.length
  truncated : capture.truncated = true ↔ maxBodyBytes < body.length
  binary : capture.binary = true ↔ ¬ TextUpToCut maxBodyBytes body
  text : capture.text = none ↔ capture.binary = true
  longest : ∀ s, capture.text = some s → asBytes s <+: body.take maxBodyBytes ∧
    ∀ s', asBytes s' <+: body.take maxBodyBytes → asBytes s' <+: asBytes s

/-- The body is longer than the limit, or it does not end in an incomplete character. -/
def Fits (maxBodyBytes : Nat) (body : Bytes) : Prop := maxBodyBytes < body.length ∨ ¬ EndsInCut body

section Capture

/-- The captured part. -/
theorem slice_eq_take (body : Bytes) (n : Nat) :
    (if decide (body.length > n) = true then body.take n else body) = body.take n := by
  by_cases hlong : body.length > n
  · rw [if_pos (decide_eq_true hlong)]
  · rw [if_neg (by simpa using hlong), List.take_of_length_le (Nat.not_lt.mp hlong)]

variable {body : Bytes} {prev : Option Bytes} {opts : CaptureOptions}

/-- A new text is shown. -/
theorem captureBody_of_text {s : String} (hcapture : opts.captureBodies = true) (hprev : prev ≠ some body)
    (htext : fromUtf8 (body.take opts.maxBodyBytes) = some s) :
    captureBody body prev opts =
      { len := body.length, text := some s,
        truncated := decide (body.length > opts.maxBodyBytes) } := by
  unfold captureBody
  rw [if_neg (by rw [hcapture]; decide), if_neg hprev]
  dsimp only
  rw [slice_eq_take, htext]

/-- Of a new body that ends in a cut character the text before it is shown. -/
theorem captureBody_of_cut {validUpTo : Nat} (hcapture : opts.captureBodies = true)
    (hprev : prev ≠ some body) (htext : fromUtf8 (body.take opts.maxBodyBytes) = none)
    (herror : utf8Error (body.take opts.maxBodyBytes) = some ⟨validUpTo, none⟩) :
    captureBody body prev opts =
      { len := body.length
        text := some ((fromUtf8 ((body.take opts.maxBodyBytes).take validUpTo)).getD "")
        truncated := true } := by
  unfold captureBody
  rw [if_neg (by rw [hcapture]; decide), if_neg hprev]
  dsimp only
  rw [slice_eq_take, htext, herror]

/-- A new body that is no text is not shown. -/
theorem captureBody_of_invalid {validUpTo len : Nat} (hcapture : opts.captureBodies = true)
    (hprev : prev ≠ some body) (htext : fromUtf8 (body.take opts.maxBodyBytes) = none)
    (herror : utf8Error (body.take opts.maxBodyBytes) = some ⟨validUpTo, some len⟩) :
    captureBody body prev opts =
      { len := body.length, binary := true,
        truncated := decide (body.length > opts.maxBodyBytes) } := by
  unfold captureBody
  rw [if_neg (by rw [hcapture]; decide), if_neg hprev]
  dsimp only
  rw [slice_eq_take, htext, herror]

/-- **One capture.**  It says of a new body what it should exactly when the body is longer than the limit or
    does not end in an incomplete character. -/
theorem captureBody_describes_iff (hcapture : opts.captureBodies = true) (hprev : prev ≠ some body) :
    Describes opts.maxBodyBytes body (captureBody body prev opts) ↔ Fits opts.maxBodyBytes body := by
  have hwhole : ¬ opts.maxBodyBytes < body.length → body.take opts.maxBodyBytes = body :=
    fun hshort => List.take_of_length_le (Nat.not_lt.mp hshort)
  rcases decoded (body.take opts.maxBodyBytes) with ⟨s, hs⟩ | ⟨s, tail, hs, hcut, hnone, herror⟩ |
    ⟨validUpTo, len, hnotext, hnocut, hnone, herror⟩
  · -- a text
    rw [captureBody_of_text hcapture hprev (by rw [hs, fromUtf8_asBytes])]
    refine iff_of_true ⟨rfl, decide_eq_true_iff, ?_, ?_, fun s' hs' => ?_⟩ ?_
    · exact iff_of_false (fun h => nomatch h) (not_not.mpr (Or.inl ⟨s, hs⟩))
    · exact iff_of_false (fun h => nomatch h) (fun h => nomatch h)
    · cases hs'
      rw [hs]
      exact ⟨List.prefix_refl _, fun s' h => h⟩
    · by_cases hlong : opts.maxBodyBytes < body.length
      · exact Or.inl hlong
      · rw [hwhole hlong] at hs
        rw [Fits, hs]
        exact Or.inr (not_endsInCut_text s)
  · -- a cut character
    have hcutends : EndsInCut (body.take opts.maxBodyBytes) := ⟨s, tail, hs, hcut⟩
    have htake : (body.take opts.maxBodyBytes).take (asBytes s).length = asBytes s := by
      rw [hs, List.take_left]
    rw [captureBody_of_cut hcapture hprev hnone herror, htake, fromUtf8_asBytes, Option.getD_some]
    constructor
    · exact fun h => Or.inl (h.truncated.mp rfl)
    · intro hfits
      have hlong : opts.maxBodyBytes < body.length := by
        by_contra hshort
        rw [hwhole hshort] at hcutends
        exact hfits.elim hshort fun h => h hcutends
      refine ⟨rfl, iff_of_true rfl hlong, ?_, ?_, fun s' hs' => ?_⟩
      · exact iff_of_false (fun h => nomatch h) (not_not.mpr (Or.inr ⟨hlong, hcutends⟩))
      · exact iff_of_false (fun h => nomatch h) (fun h => nomatch h)
      · cases hs'
        rw [hs]
        exact ⟨List.prefix_append _ _, fun s' h => prefix_of_text (cutCharacter_iff.mp hcut).2 h⟩
  · -- an invalid byte
    rw [captureBody_of_invalid hcapture hprev hnone herror]
    refine iff_of_true ⟨rfl, decide_eq_true_iff, ?_, iff_of_true rfl rfl, fun s hs => nomatch hs⟩ ?_
    · refine iff_of_true rfl ?_
      rintro (⟨s, hs⟩ | ⟨-, hcut⟩)
      · exact hnotext s hs
      · exact hnocut hcut
    · by_cases hlong : opts.maxBodyBytes < body.length
      · exact Or.inl hlong
      · rw [hwhole hlong] at hnocut
        exact Or.inr hnocut

/-- A capture is a marker exactly where the body is the one before. -/
theorem captureBody_unchanged_iff (hcapture : opts.captureBodies = true) :
    (captureBody body prev opts).unchanged = true ↔ prev = some body := by
  by_cases hprev : prev = some body
  · refine iff_of_true ?_ hprev
    unfold captureBody
    rw [if_neg (by rw [hcapture]; decide), if_pos hprev]
  · refine iff_of_false ?_ hprev
    rcases decoded (body.take opts.maxBodyBytes) with ⟨s, hs⟩ | ⟨s, tail, -, -, hnone, herror⟩ |
      ⟨validUpTo, len, -, -, hnone, herror⟩
    · rw [captureBody_of_text hcapture hprev (by rw [hs, fromUtf8_asBytes])]
      exact fun h => nomatch h
    · rw [captureBody_of_cut hcapture hprev hnone herror]
      exact fun h => nomatch h
    · rw [captureBody_of_invalid hcapture hprev hnone herror]
      exact fun h => nomatch h

/-- Every capture has the length of its body. -/
theorem captureBody_len : (captureBody body prev opts).len = body.length := by
  unfold captureBody
  split
  · rfl
  · split
    · rfl
    · dsimp only
      split
      · rfl
      · split
        · rfl
        · rfl

end Capture

/-- What is neither truncated nor binary is the whole body. -/
theorem Describes.whole {maxBodyBytes : Nat} {body : Bytes} {capture : BodyCapture}
    (h : Describes maxBodyBytes body capture) (htruncated : capture.truncated = false)
    (hbinary : capture.binary = false) : ∃ s, capture.text = some s ∧ asBytes s = body := by
  have hshort : ¬ maxBodyBytes < body.length := fun hlong => by
    rw [h.truncated.mpr hlong] at htruncated
    nomatch htruncated
  have hwhole : body.take maxBodyBytes = body := List.take_of_length_le (Nat.not_lt.mp hshort)
  have htext : TextUpToCut maxBodyBytes body := by
    by_contra hno
    rw [h.binary.mpr hno] at hbinary
    nomatch hbinary
  obtain ⟨s', hs'⟩ : ∃ s', body = asBytes s' := by
    rcases htext with ⟨s', hs'⟩ | ⟨hlong, -⟩
    · exact ⟨s', hwhole.symm.trans hs'⟩
    · exact absurd hlong hshort
  cases hs : capture.text with
  | none =>
    rw [h.text.mp hs] at hbinary
    nomatch hbinary
  | some s =>
    obtain ⟨hbegins, hlongest⟩ := h.longest s hs
    rw [hwhole] at hbegins hlongest
    refine ⟨s, rfl, hbegins.eq_of_length_le ?_⟩
    have hle := (hlongest s' (by rw [hs'])).length_le
    rwa [← hs'] at hle

/-! ## A trace -/

/-- The captures of one body after another, each compared with the one before. -/
def captureTrack (opts : CaptureOptions) : Option Bytes → List Bytes → List BodyCapture
  | _, [] => []
  | prev, body :: bodies => captureBody body prev opts :: captureTrack opts (some body) bodies

/-- Walking back over the markers: the nearest capture that is not one.  The newest comes first. -/
def walkBack : List BodyCapture → Option BodyCapture
  | [] => none
  | capture :: earlier => if capture.unchanged then walkBack earlier else some capture

/-- The captures of these bodies are exact: the i-th leads back to one that says of the i-th body what it
    should. -/
def ExactTrack (maxBodyBytes : Nat) (bodies : List Bytes) (captures : List BodyCapture) : Prop :=
  captures.length = bodies.length ∧ ∀ (i : Nat) (body : Bytes), bodies[i]? = some body →
    (∃ marker, captures[i]? = some marker ∧ marker.len = body.length) ∧
    ∃ origin, walkBack (captures.take (i + 1)).reverse = some origin ∧
      Describes maxBodyBytes body origin

section Track

variable {opts : CaptureOptions}

theorem captureTrack_length (bodies : List Bytes) :
    ∀ prev : Option Bytes, (captureTrack opts prev bodies).length = bodies.length := by
  induction bodies with
  | nil => intro prev; rfl
  | cons body bodies ih => intro prev; exact congrArg Nat.succ (ih (some body))

theorem captureTrack_len (bodies : List Bytes) :
    ∀ (prev : Option Bytes) (i : Nat) (body : Bytes), bodies[i]? = some body →
      ∃ marker, (captureTrack opts prev bodies)[i]? = some marker ∧ marker.len = body.length := by
  induction bodies with
  | nil => intro prev i body h; nomatch h
  | cons first bodies ih =>
    intro prev i body h
    cases i with
    | zero =>
      obtain rfl := Option.some.inj h
      exact ⟨captureBody first prev opts, rfl, captureBody_len⟩
    | succ i => exact ih (some first) i body h

/-- **Walking back.**  From the i-th capture one gets to a capture of the i-th body that is not a marker.
    Induction on the bodies; `past` are the captures before them, the newest first. -/
theorem exists_origin (hcapture : opts.captureBodies = true) (bodies : List Bytes) :
    ∀ (prev : Option Bytes) (past : List BodyCapture),
      (∀ b, prev = some b → ∃ p, p ≠ some b ∧ walkBack past = some (captureBody b p opts)) →
      ∀ (i : Nat) (body : Bytes), bodies[i]? = some body →
        ∃ p, p ≠ some body ∧
          walkBack (((captureTrack opts prev bodies).take (i + 1)).reverse ++ past) =
            some (captureBody body p opts) := by
  induction bodies with
  | nil => intro prev past hpast i body h; nomatch h
  | cons first bodies ih =>
    intro prev past hpast i body h
    -- the first capture leads back to a capture of the first body
    have hfirst : ∃ p, p ≠ some first ∧
        walkBack (captureBody first prev opts :: past) = some (captureBody first p opts) := by
      by_cases hsame : prev = some first
      · obtain ⟨p, hp, hback⟩ := hpast first hsame
        refine ⟨p, hp, ?_⟩
        rw [walkBack, if_pos ((captureBody_unchanged_iff hcapture).mpr hsame), hback]
      · refine ⟨prev, hsame, ?_⟩
        rw [walkBack, if_neg fun h => hsame ((captureBody_unchanged_iff hcapture).mp h)]
    rw [captureTrack, List.take_succ_cons, List.reverse_cons, List.append_assoc]
    cases i with
    | zero =>
      obtain rfl := Option.some.inj h
      exact hfirst
    | succ i =>
      refine ih (some first) (captureBody first prev opts :: past) (fun b hb => ?_) i body h
      obtain rfl := Option.some.inj hb
      exact hfirst

/-- A track is exact exactly when every body of it fits. -/
theorem exactTrack_iff (hcapture : opts.captureBodies = true) (bodies : List Bytes) :
    ExactTrack opts.maxBodyBytes bodies (captureTrack opts none bodies) ↔
      ∀ body ∈ bodies, Fits opts.maxBodyBytes body := by
  have horigin : ∀ (i : Nat) (body : Bytes), bodies[i]? = some body →
      ∃ p, p ≠ some body ∧ walkBack ((captureTrack opts none bodies).take (i + 1)).reverse =
        some (captureBody body p opts) := by
    intro i body h
    obtain ⟨p, hp, hback⟩ := exists_origin hcapture bodies none [] (fun b hb => nomatch hb) i body h
    exact ⟨p, hp, by rwa [List.append_nil] at hback⟩
  constructor
  · rintro ⟨-, hexact⟩ body hmem
    obtain ⟨i, h⟩ := List.getElem?_of_mem hmem
    obtain ⟨p, hp, hback⟩ := horigin i body h
    obtain ⟨-, origin, horigin, hdescribes⟩ := hexact i body h
    obtain rfl := Option.some.inj (horigin.symm.trans hback)
    exact (captureBody_describes_iff hcapture hp).mp hdescribes
  · refine fun hfits => ⟨captureTrack_length bodies none, fun i body h => ?_⟩
    refine ⟨captureTrack_len bodies none i body h, ?_⟩
    obtain ⟨p, hp, hback⟩ := horigin i body h
    exact ⟨_, hback, (captureBody_describes_iff hcapture hp).mpr
      (hfits body (List.mem_of_getElem? h))⟩

end Track

/-! ## A recording -/

/-- The two bodies of a context. -/
inductive BodyPart where
  | request
  | response

namespace BodyPart

def body : BodyPart → Context → Bytes
  | request, ctx => ctx.request.body
  | response, ctx => ctx.response.body

def capture : BodyPart → ContextSnapshot → BodyCapture
  | request, snapshot => snapshot.request.body
  | response, snapshot => snapshot.response.body

def previous : BodyPart → PreviousBodies → Option Bytes
  | request, prev => prev.request
  | response, prev => prev.response

end BodyPart

/-- The snapshots of a recording: the one at the start and the one after each recorded node. -/
def TraceRecorder.snapshots (r : TraceRecorder) : List ContextSnapshot :=
  r.initial :: r.steps.map (·.after)

/-- The contexts they are snapshots of. -/
def recordedContexts (ctx : Context) (maxSteps : Nat) (visits : List Visit) : List Context :=
  ctx :: (visits.take maxSteps).map (·.after)

section Recording

variable [CaseMapping] (part : BodyPart) (opts : CaptureOptions)

theorem capture_snapshot (ctx : Context) (prev : PreviousBodies) :
    part.capture (ContextSnapshot.capture ctx opts prev) =
      captureBody (part.body ctx) (part.previous prev) opts := by
  cases part with
  | request => rfl
  | response => rfl

omit [CaseMapping] in
theorem previous_of (ctx : Context) : part.previous (PreviousBodies.of ctx) = some (part.body ctx) := by
  cases part with
  | request => rfl
  | response => rfl

theorem captures_stepsOf (visits : List Visit) :
    ∀ (prev : PreviousBodies) (i : Nat),
      (stepsOf opts prev i visits).map (fun step => part.capture step.after) =
        captureTrack opts (part.previous prev) (visits.map fun v => part.body v.after) := by
  induction visits with
  | nil => intro prev i; rfl
  | cons v visits ih =>
    intro prev i
    rw [stepsOf, List.map_cons, ih, previous_of, List.map_cons, captureTrack]
    congr 1
    exact capture_snapshot part opts v.after prev

/-- The captures of a recording are the track of the recorded bodies. -/
theorem captures_recording (ctx : Context) (maxSteps : Nat) (visits : List Visit) :
    (visits.foldl TraceRecorder.record (TraceRecorder.new ctx opts maxSteps)).snapshots.map part.capture =
      captureTrack opts none ((recordedContexts ctx maxSteps visits).map part.body) := by
  rw [TraceRecorder.snapshots, foldl_record_initial, foldl_record_steps]
  show part.capture (ContextSnapshot.capture ctx opts {}) ::
    (([] ++ stepsOf opts (PreviousBodies.of ctx) 0 (visits.take maxSteps)).map NodeStep.after).map
      part.capture = _
  rw [List.nil_append, List.map_map, capture_snapshot, recordedContexts, List.map_cons, List.map_map,
    captureTrack]
  have hrest := captures_stepsOf part opts (visits.take maxSteps) (PreviousBodies.of ctx) 0
  rw [previous_of] at hrest
  have hnone : part.previous {} = none := by cases part <;> rfl
  rw [hnone]
  exact congrArg _ hrest

end Recording

section Traced

variable [CaseMapping] {opts : CaptureOptions}

/-- **Exact captures.**  Whatever nodes are visited, both bodies of a recording are captured exactly if and
    only if every recorded body is longer than the limit or does not end in an incomplete character. -/
theorem traced_bodies_exact_iff (ctx : Context) (maxSteps : Nat) (visits : List Visit)
    (hcapture : opts.captureBodies = true) :
    (∀ part : BodyPart, ExactTrack opts.maxBodyBytes
        ((recordedContexts ctx maxSteps visits).map part.body)
        ((visits.foldl TraceRecorder.record (TraceRecorder.new ctx opts maxSteps)).snapshots.map
          part.capture)) ↔
      ∀ (part : BodyPart), ∀ c ∈ recordedContexts ctx maxSteps visits,
        Fits opts.maxBodyBytes (part.body c) := by
  refine forall_congr' fun part => ?_
  rw [captures_recording, exactTrack_iff hcapture, List.forall_mem_map]

end Traced

/-- A context with this response body. -/
def contextOf (body : Bytes) : Context :=
  { Context.new (default : GatewayRequest) with
    response := { statusCode := 200, headers := ∅, body := body } }

/-- The defaults, with body capture on. -/
def capturingBodies [CaseMapping] : CaptureOptions :=
  { CaptureOptions.default with captureBodies := true }

/-- A node that leaves the context as this one. -/
def visitTo (after : Context) : Visit :=
  ⟨"echo", "mocking", .success, .terminal, none, after⟩

theorem fits_asBytes (maxBodyBytes : Nat) (s : String) : Fits maxBodyBytes (asBytes s) :=
  Or.inr (not_endsInCut_text s)

theorem traced_bodies_exact_iff_texts :
    let _ : CaseMapping := asciiCaseMapping
    capturingBodies.captureBodies = true ∧ ∀ part : BodyPart, ExactTrack capturingBodies.maxBodyBytes
      ((recordedContexts (contextOf (asBytes "é")) 200 [visitTo (contextOf (asBytes "é"))]).map part.body)
      (([visitTo (contextOf (asBytes "é"))].foldl TraceRecorder.record
        (TraceRecorder.new (contextOf (asBytes "é")) capturingBodies 200)).snapshots.map part.capture) := by
  intro _
  refine ⟨rfl, (traced_bodies_exact_iff (contextOf (asBytes "é")) 200
    [visitTo (contextOf (asBytes "é"))] rfl).mpr fun part c hc => ?_⟩
  have hsame : c = contextOf (asBytes "é") := by simpa [recordedContexts, visitTo] using hc
  rw [hsame]
  cases part with
  | request => exact fits_asBytes _ ""
  | response => exact fits_asBytes _ "é"

/-- The byte that starts a character of three, as the whole body. -/
def lonelyByte : Bytes := [0xe2]

theorem endsInCut_lonelyByte : EndsInCut lonelyByte :=
  ⟨"", lonelyByte, rfl, by decide, '€', [0x82, 0xac], by decide, by decide⟩

/-- A body of one byte, within the limit of 8192, is reported as truncated and as text. -/
theorem whole_body_reported_truncated :
    let _ : CaseMapping := asciiCaseMapping
    let recording : TraceRecorder := ([] : List Visit).foldl TraceRecorder.record
      (TraceRecorder.new (contextOf lonelyByte) capturingBodies 200)
    recording.snapshots.map BodyPart.response.capture =
        [{ len := 1, text := some "", truncated := true }] ∧
      ¬ Fits capturingBodies.maxBodyBytes lonelyByte ∧
      ¬ ExactTrack capturingBodies.maxBodyBytes
        ((recordedContexts (contextOf lonelyByte) 200 []).map BodyPart.response.body)
        (recording.snapshots.map BodyPart.response.capture) := by
  intro _ recording
  refine ⟨by decide, ?_, fun hexact => ?_⟩
  · rintro (hlong | hwhole)
    · exact absurd hlong (by decide)
    · exact hwhole endsInCut_lonelyByte
  obtain ⟨-, origin, hback, hdescribes⟩ := hexact.2 0 lonelyByte rfl
  have horigin : origin = { len := 1, text := some "", truncated := true } := by
    have hcaptures : walkBack ((recording.snapshots.map BodyPart.response.capture).take 1).reverse =
        some { len := 1, text := some "", truncated := true } := by decide
    exact Option.some.inj (hback.symm.trans hcaptures)
  have hlong : 8192 < lonelyByte.length := hdescribes.truncated.mp (by rw [horigin])
  exact absurd hlong (by decide)

end Featherbit
