/-
  TRACE PROPAGATION (`plugins/util/trace.rs`, `build_sw8` of `plugins/native/skywalking.rs`): a span in three
  headers, two of them fields between hyphens.

  1. **Fields** (`splitChar_fields`) — texts without a hyphen and without white space are read back from
     their joint text.  The digits of an id are such, and so is base64.
  2. **There and back** — `sw8` and the B3 headers give back the ids of any span that the gateway draws
     (`parseSw8_build`, `parseB3_build`); `traceparent` does where neither id is all zeros, which its reader
     refuses and the drawing does not (`parseTraceparent_build_iff`).
  3. **What is accepted** (`accepted_iff`) — four fields, ids of the right lengths, not all zeros.  Neither
     the digits are looked at, nor the lengths of the first field and the last.
-/
import Featherbit.Plugins.Csrf
import Featherbit.Rust.IpAddr
import Featherbit.Rust.Utf8Prefix

namespace Featherbit

namespace TraceContext

/-! ## The codecs -/

/-- A span in flight. -/
structure SpanContext where
  traceId : String
  spanId : String
  parentSpanId : Option String
  sampled : Bool
  startMs : Nat
deriving DecidableEq

def hex (bytes : Bytes) : String := hexEncode bytes

/-- `new_trace_id`, of the bytes that were drawn. -/
def newTraceId (random : Vector UInt8 16) : String := hex random.toList

/-- `new_span_id`. -/
def newSpanId (random : Vector UInt8 8) : String := hex random.toList

/-- `u8::from_str_radix(s, 16)`. -/
def u8FromHex (s : String) : Option Nat :=
  let digits :=
    match s.toList with
    | '+' :: rest => rest
    | l => l
  if digits ≠ [] ∧ digits.all fun c => (IpText.toDigit 16 c).isSome then
    (some (IpText.valueOf 16 digits)).filter fun n => n < 256
  else none

def allZeros (s : String) : Bool := (asBytes s).all fun b => b = 0x30

/-- `parse_traceparent`: the trace id, the caller's span id, and whether the trace is sampled. -/
def parseTraceparent (value : String) : Option (String × String × Bool) :=
  match splitChar '-' (trim value) with
  | [_, traceId, parent, flags] =>
    if traceId.utf8ByteSize ≠ 32 ∨ parent.utf8ByteSize ≠ 16 then none
    else if allZeros traceId || allZeros parent then none
    else some (traceId, parent, ((u8FromHex flags).map fun f => decide (f &&& 1 = 1)).getD false)
  | _ => none

/-- `build_traceparent`. -/
def buildTraceparent (span : SpanContext) : String :=
  "00-" ++ span.traceId ++ "-" ++ span.spanId ++ "-" ++ hex [if span.sampled then 1 else 0]

/-- `parse_b3`: the single header, or the three others. -/
def parseB3 (b3Single traceId spanId sampled : Option String) : Option (String × String × Bool) :=
  match b3Single with
  | some single =>
    match splitChar '-' (trim single) with
    | traceId :: spanId :: rest =>
      if traceId ≠ "" then
        some (traceId, spanId, (rest.head?.map fun v => decide (v = "1" ∨ v = "d")).getD true)
      else none
    | _ => none
  | none => do
    let t ← traceId
    let s ← spanId
    if t = "" ∨ s = "" then none
    else some (t, s, (sampled.map fun v => decide (v = "1" ∨ v = "true")).getD true)

/-- `build_b3_headers`. -/
def buildB3Headers (span : SpanContext) : List (String × String) :=
  [("x-b3-traceid", span.traceId), ("x-b3-spanid", span.spanId),
    ("x-b3-sampled", if span.sampled then "1" else "0")] ++
  match span.parentSpanId with
  | some parent => [("x-b3-parentspanid", parent)]
  | none => []

/-- `parse_b3` of the headers of a request. -/
def parseB3Headers (headers : List (String × String)) : Option (String × String × Bool) :=
  parseB3 (headers.lookup "b3") (headers.lookup "x-b3-traceid") (headers.lookup "x-b3-spanid")
    (headers.lookup "x-b3-sampled")

section Sw8

variable [Base64Codec]

/-- `parse_sw8`: the trace id, the parent span id, and whether the trace is sampled. -/
def parseSw8 (value : String) : Option (String × String × Bool) :=
  match splitChar '-' (trim value) with
  | flag :: traceId :: _ :: parentSpan :: _ :: _ :: _ :: _ :: _ => do
    let bytes ← (Base64.decode (asBytes traceId)).toOption
    let traceId ← fromUtf8 bytes
    some (traceId, parentSpan, decide (flag = "1"))
  | _ => none

def sw8Encode (field : String) : String := Base64Codec.encode (asBytes field)

/-- `build_sw8`. -/
def buildSw8 (span : SpanContext) (service instanceName endpoint : String) : String :=
  (if span.sampled then "1" else "0") ++ "-" ++ sw8Encode span.traceId ++ "-" ++ sw8Encode span.spanId ++
    "-" ++ "0" ++ "-" ++ sw8Encode service ++ "-" ++ sw8Encode instanceName ++ "-" ++ sw8Encode endpoint ++
    "-" ++ sw8Encode endpoint

end Sw8

/-! ## Fields -/

/-- A character of a field. -/
def FieldChar (c : Char) : Prop := c ≠ '-' ∧ isWhitespace c = false

instance (c : Char) : Decidable (FieldChar c) := inferInstanceAs (Decidable (_ ∧ _))

theorem fieldChar_of_all {l : List Char} (h : (l.all fun c => decide (FieldChar c)) = true) :
    ∀ c ∈ l, FieldChar c :=
  fun c hc => of_decide_eq_true (List.all_eq_true.mp h c hc)

/-- Fields are read back from their joint text. -/
theorem splitChar_fields {fields : List String} (hne : fields ≠ [])
    (hfields : ∀ field ∈ fields, ∀ c ∈ field.toList, FieldChar c) :
    splitChar '-' (trim ("-".intercalate fields)) = fields := by
  have hplain : ∀ c ∈ ("-".intercalate fields).toList, isWhitespace c = false := by
    intro c hc
    rw [String.toList_intercalate] at hc
    rcases Split.mem_intercalate hc with rfl | ⟨l, hl, hc⟩
    · decide
    · obtain ⟨field, hfield, rfl⟩ := List.mem_map.mp hl
      exact (hfields field hfield c hc).2
  rw [trim_eq_self hplain, show "-" = String.singleton '-' from rfl,
    splitChar_intercalate hne fun field hfield hmem => (hfields field hfield '-' hmem).1 rfl]

/-- A lower-case hexadecimal digit. -/
def isLowerHex (c : Char) : Bool := ('0' ≤ c && c ≤ '9') || ('a' ≤ c && c ≤ 'f')

theorem hexDigitOf_lower : ∀ n < 16, isLowerHex (hexDigitOf n) = true ∧ FieldChar (hexDigitOf n) ∧
    (hexDigitOf n = '0' ↔ n = 0) := by
  decide

theorem mem_hex {bytes : Bytes} {c : Char} (hc : c ∈ (hex bytes).toList) :
    ∃ n < 16, c = hexDigitOf n := by
  unfold hex hexEncode at hc
  rw [String.toList_ofList] at hc
  obtain ⟨b, -, hc⟩ := List.mem_flatMap.mp hc
  have hb := b.toNat_lt
  rcases List.mem_cons.mp hc with rfl | hc
  · exact ⟨_, by omega, rfl⟩
  · exact ⟨_, by omega, List.mem_singleton.mp hc⟩

theorem hex_fieldChar {bytes : Bytes} : ∀ c ∈ (hex bytes).toList, FieldChar c := by
  intro c hc
  obtain ⟨n, hn, rfl⟩ := mem_hex hc
  exact (hexDigitOf_lower n hn).2.1

theorem allZeros_iff (s : String) : allZeros s = true ↔ ∀ c ∈ s.toList, c = '0' := by
  unfold allZeros
  rw [List.all_eq_true, asBytes_eq]
  constructor
  · intro h c hc
    cases hbytes : String.utf8EncodeChar c with
    | nil =>
      have hpos := Char.utf8Size_pos c
      rw [← String.length_utf8EncodeChar, hbytes] at hpos
      exact absurd hpos (Nat.lt_irrefl 0)
    | cons b bytes =>
      have hb : b ∈ String.utf8EncodeChar c := by
        rw [hbytes]
        exact List.mem_cons_self
      obtain rfl := of_decide_eq_true (h b (List.mem_flatMap.mpr ⟨c, hc, hb⟩))
      exact (mem_utf8EncodeChar_iff (c := '0') (by decide)).mp hb
  · intro h b hb
    obtain ⟨c, hc, hb⟩ := List.mem_flatMap.mp hb
    rw [h c hc] at hb
    exact decide_eq_true (List.mem_singleton.mp hb)

theorem allZeros_hex_iff (bytes : Bytes) : allZeros (hex bytes) = true ↔ ∀ b ∈ bytes, b = 0 := by
  rw [allZeros_iff]
  unfold hex hexEncode
  rw [String.toList_ofList]
  constructor
  · intro h b hb
    have hlt := b.toNat_lt
    have hhigh := h _ (List.mem_flatMap.mpr ⟨b, hb, List.mem_cons_self⟩)
    have hlow := h _ (List.mem_flatMap.mpr ⟨b, hb, List.mem_cons_of_mem _ List.mem_cons_self⟩)
    rw [(hexDigitOf_lower _ (by omega)).2.2] at hhigh hlow
    apply UInt8.toNat_inj.mp
    show b.toNat = 0
    omega
  · intro h c hc
    obtain ⟨b, hb, hc⟩ := List.mem_flatMap.mp hc
    rw [h b hb] at hc
    rcases List.mem_cons.mp hc with rfl | hc
    · rfl
    · rw [List.mem_singleton.mp hc]
      rfl

/-! ## There and back -/

/-- A span with the ids that were drawn for it. -/
def drawnSpan (random : Vector UInt8 16) (random' : Vector UInt8 8) (parent : Option String)
    (sampled : Bool) (startMs : Nat) : SpanContext where
  traceId := newTraceId random
  spanId := newSpanId random'
  parentSpanId := parent
  sampled := sampled
  startMs := startMs

section Drawn

variable (random : Vector UInt8 16) (random' : Vector UInt8 8) (parent : Option String) (sampled : Bool)
  (startMs : Nat)

theorem utf8ByteSize_ids : (newTraceId random).utf8ByteSize = 32 ∧ (newSpanId random').utf8ByteSize = 16 := by
  constructor
  · exact (utf8ByteSize_hexEncode _).trans (by rw [Vector.length_toList])
  · exact (utf8ByteSize_hexEncode _).trans (by rw [Vector.length_toList])

theorem ids_ne_empty : newTraceId random ≠ "" ∧ newSpanId random' ≠ "" := by
  obtain ⟨htrace, hspan⟩ := utf8ByteSize_ids random random'
  refine ⟨fun h => ?_, fun h => ?_⟩
  · rw [h] at htrace
    cases htrace
  · rw [h] at hspan
    cases hspan

/-- The four fields of a header that was built. -/
theorem fields_traceparent :
    splitChar '-' (trim (buildTraceparent (drawnSpan random random' parent sampled startMs))) =
      ["00", newTraceId random, newSpanId random', hex [if sampled then 1 else 0]] := by
  have hjoined : buildTraceparent (drawnSpan random random' parent sampled startMs) =
      "-".intercalate ["00", newTraceId random, newSpanId random', hex [if sampled then 1 else 0]] := rfl
  rw [hjoined]
  refine splitChar_fields (List.cons_ne_nil _ _) ?_
  intro field hfield
  simp only [List.mem_cons, List.not_mem_nil, or_false] at hfield
  rcases hfield with rfl | rfl | rfl | rfl
  · exact fieldChar_of_all (by decide)
  · exact hex_fieldChar
  · exact hex_fieldChar
  · exact hex_fieldChar

/-- **There and back**, through `traceparent`: where neither id is all zeros. -/
theorem parseTraceparent_build_iff :
    parseTraceparent (buildTraceparent (drawnSpan random random' parent sampled startMs)) =
      some (newTraceId random, newSpanId random', sampled) ↔
    (∃ b ∈ random.toList, b ≠ 0) ∧ ∃ b ∈ random'.toList, b ≠ 0 := by
  obtain ⟨htrace, hspan⟩ := utf8ByteSize_ids random random'
  have hnot : ¬ ((newTraceId random).utf8ByteSize ≠ 32 ∨ (newSpanId random').utf8ByteSize ≠ 16) := by
    rintro (h | h)
    · exact h htrace
    · exact h hspan
  -- the flags are read back from their two digits
  have hflag : ((u8FromHex (hex [if sampled then 1 else 0])).map fun f => decide (f &&& 1 = 1)).getD false =
      sampled := by
    cases sampled <;> decide +kernel
  have hsome : ∀ bytes, (∃ b ∈ bytes, b ≠ 0) ↔ allZeros (hex bytes) = false := by
    intro bytes
    rw [← Bool.not_eq_true, allZeros_hex_iff]
    simp only [not_forall, exists_prop]
  unfold parseTraceparent
  rw [fields_traceparent, hsome, hsome, ← Bool.or_eq_false_iff]
  dsimp only
  rw [if_neg hnot, hflag]
  show _ ↔ (allZeros (newTraceId random) || allZeros (newSpanId random')) = false
  cases allZeros (newTraceId random) || allZeros (newSpanId random') with
  | true => exact iff_of_false (fun h => nomatch h) (fun h => nomatch h)
  | false => exact iff_of_true rfl rfl

/-- Through the B3 headers, always. -/
theorem parseB3_build :
    parseB3Headers (buildB3Headers (drawnSpan random random' parent sampled startMs)) =
      some (newTraceId random, newSpanId random', sampled) := by
  obtain ⟨htrace, hspan⟩ := ids_ne_empty random random'
  have hnot : ¬ (newTraceId random = "" ∨ newSpanId random' = "") := not_or.mpr ⟨htrace, hspan⟩
  -- none of the headers that are built is the single one
  have hlookups : parseB3Headers (buildB3Headers (drawnSpan random random' parent sampled startMs)) =
      parseB3 none (some (newTraceId random)) (some (newSpanId random')) (some (if sampled then "1" else "0")) := by
    cases parent <;> rfl
  rw [hlookups]
  show (if newTraceId random = "" ∨ newSpanId random' = "" then none else _) = _
  rw [if_neg hnot]
  cases sampled <;> rfl

end Drawn

/-- Base64 has the digits of the standard alphabet, and the sign that fills them up. -/
class StandardDigits [Base64Codec] : Prop where
  digits : ∀ bytes, ∀ c ∈ (Base64Codec.encode bytes).toList, c ∈ Rfc4648.digits Rfc4648.standard ∨ c = '='

section Sw8

variable [Base64Codec] [StandardDigits]

theorem sw8Encode_fieldChar (field : String) : ∀ c ∈ (sw8Encode field).toList, FieldChar c := by
  have hdigits := fieldChar_of_all (l := Rfc4648.digits Rfc4648.standard) (by decide +kernel)
  intro c hc
  rcases StandardDigits.digits _ c hc with h | rfl
  · exact hdigits c h
  · decide

/-- The eight fields of a header that was built. -/
theorem fields_sw8 (span : SpanContext) (service instanceName endpoint : String) :
    splitChar '-' (trim (buildSw8 span service instanceName endpoint)) =
      [if span.sampled then "1" else "0", sw8Encode span.traceId, sw8Encode span.spanId, "0",
        sw8Encode service, sw8Encode instanceName, sw8Encode endpoint, sw8Encode endpoint] := by
  have hjoined : buildSw8 span service instanceName endpoint =
      "-".intercalate [if span.sampled then "1" else "0", sw8Encode span.traceId, sw8Encode span.spanId,
        "0", sw8Encode service, sw8Encode instanceName, sw8Encode endpoint, sw8Encode endpoint] := rfl
  rw [hjoined]
  refine splitChar_fields (List.cons_ne_nil _ _) ?_
  intro field hfield
  simp only [List.mem_cons, List.not_mem_nil, or_false] at hfield
  rcases hfield with rfl | rfl | rfl | rfl | rfl | rfl | rfl | rfl
  · refine fieldChar_of_all ?_
    cases span.sampled <;> decide
  · exact sw8Encode_fieldChar _
  · exact sw8Encode_fieldChar _
  · exact fieldChar_of_all (by decide)
  · exact sw8Encode_fieldChar _
  · exact sw8Encode_fieldChar _
  · exact sw8Encode_fieldChar _
  · exact sw8Encode_fieldChar _

/-- Through `sw8`, always; the parent span id is the one this hop has in its segment. -/
theorem parseSw8_build (span : SpanContext) (service instanceName endpoint : String) :
    parseSw8 (buildSw8 span service instanceName endpoint) = some (span.traceId, "0", span.sampled) := by
  have hdecode : (Base64.decode (asBytes (sw8Encode span.traceId))).toOption = some (asBytes span.traceId) := by
    unfold sw8Encode
    rw [Base64Codec.decode_encode]
    rfl
  have hflag : decide ((if span.sampled then "1" else "0") = "1") = span.sampled := by
    cases span.sampled <;> decide
  unfold parseSw8
  rw [fields_sw8]
  dsimp only
  rw [hdecode, hflag]
  show (fromUtf8 (asBytes span.traceId) >>= _) = _
  rw [fromUtf8_asBytes]
  rfl

end Sw8

/-! ## What is accepted -/

/-- The four fields that the standard asks for. -/
structure W3C (version traceId parent flags : String) : Prop where
  version_length : version.toList.length = 2
  traceId_length : traceId.toList.length = 32
  parent_length : parent.toList.length = 16
  flags_length : flags.toList.length = 2
  digits : ∀ field ∈ [version, traceId, parent, flags], ∀ c ∈ field.toList, isLowerHex c = true
  traceId_nonzero : ¬ ∀ c ∈ traceId.toList, c = '0'
  parent_nonzero : ¬ ∀ c ∈ parent.toList, c = '0'

/-- Every header with the fields that the reader looks at has all that the standard asks for: two characters
    at either end, and lower-case hexadecimal digits everywhere. -/
def Strict (value : String) : Prop :=
  ∀ version traceId parent flags, splitChar '-' (trim value) = [version, traceId, parent, flags] →
    traceId.utf8ByteSize = 32 → parent.utf8ByteSize = 16 →
    (¬ ∀ c ∈ traceId.toList, c = '0') → (¬ ∀ c ∈ parent.toList, c = '0') →
    version.toList.length = 2 ∧ flags.toList.length = 2 ∧
      ∀ field ∈ [version, traceId, parent, flags], ∀ c ∈ field.toList, isLowerHex c = true

/-- **What is accepted.** -/
theorem accepted_iff (value : String) : (∃ answer, parseTraceparent value = some answer) ↔
    ∃ version traceId parent flags, splitChar '-' (trim value) = [version, traceId, parent, flags] ∧
      traceId.utf8ByteSize = 32 ∧ parent.utf8ByteSize = 16 ∧
      (¬ ∀ c ∈ traceId.toList, c = '0') ∧ ¬ ∀ c ∈ parent.toList, c = '0' := by
  unfold parseTraceparent
  constructor
  · rintro ⟨answer, h⟩
    split at h
    · rename_i version traceId parent flags hfields
      split at h
      · cases h
      · rename_i hlengths
        obtain ⟨htrace, hparent⟩ := not_or.mp hlengths
        split at h
        · cases h
        · rename_i hzeros
          rw [Bool.or_eq_true, not_or, allZeros_iff, allZeros_iff] at hzeros
          exact ⟨version, traceId, parent, flags, hfields, not_not.mp htrace, not_not.mp hparent, hzeros⟩
    · cases h
  · rintro ⟨version, traceId, parent, flags, hfields, htrace, hparent, hzeros⟩
    have hlengths : ¬ (traceId.utf8ByteSize ≠ 32 ∨ parent.utf8ByteSize ≠ 16) := by
      rintro (h | h)
      · exact h htrace
      · exact h hparent
    rw [← allZeros_iff, ← allZeros_iff, ← not_or, ← Bool.or_eq_true] at hzeros
    rw [hfields]
    dsimp only
    rw [if_neg hlengths, if_neg hzeros]
    exact ⟨_, rfl⟩

/-- A text of digits has a byte for each. -/
theorem utf8ByteSize_digits {s : String} (h : ∀ c ∈ s.toList, isLowerHex c = true) :
    s.utf8ByteSize = s.toList.length := by
  have hone : ∀ c ∈ s.toList, c.utf8Size = 1 := by
    intro c hc
    have hdigit := h c hc
    simp only [isLowerHex, Bool.or_eq_true, Bool.and_eq_true, decide_eq_true_eq, Char.le_def,
      UInt32.le_iff_toNat_le] at hdigit
    have h9 : '9'.val.toNat = 57 := rfl
    have hf : 'f'.val.toNat = 102 := rfl
    refine Char.utf8Size_eq_one_iff.mpr (UInt32.le_iff_toNat_le.mpr ?_)
    show c.val.toNat ≤ 127
    omega
  have hsize := utf8ByteSize_ascii s.toList hone
  rwa [String.ofList_toList] at hsize

/-- A header is accepted only with what the standard asks for, where what is not looked at is as it should
    be. -/
theorem accepted_w3c_iff (value : String) :
    (∀ answer, parseTraceparent value = some answer →
      ∃ version traceId parent flags, splitChar '-' (trim value) = [version, traceId, parent, flags] ∧
        W3C version traceId parent flags) ↔ Strict value := by
  constructor
  · intro h version traceId parent flags hfields htrace hparent htraceZero hparentZero
    obtain ⟨answer, hanswer⟩ :=
      (accepted_iff value).mpr ⟨version, traceId, parent, flags, hfields, htrace, hparent, htraceZero, hparentZero⟩
    obtain ⟨version', traceId', parent', flags', hfields', hw3c⟩ := h answer hanswer
    rw [hfields] at hfields'
    simp only [List.cons.injEq, and_true] at hfields'
    obtain ⟨rfl, rfl, rfl, rfl⟩ := hfields'
    exact ⟨hw3c.version_length, hw3c.flags_length, hw3c.digits⟩
  · intro h answer hanswer
    obtain ⟨version, traceId, parent, flags, hfields, htrace, hparent, htraceZero, hparentZero⟩ :=
      (accepted_iff value).mp ⟨answer, hanswer⟩
    obtain ⟨hversion, hflags, hdigits⟩ :=
      h version traceId parent flags hfields htrace hparent htraceZero hparentZero
    -- the reader counts bytes and the standard digits
    have hbytes : ∀ field ∈ [version, traceId, parent, flags], field.utf8ByteSize = field.toList.length :=
      fun field hfield => utf8ByteSize_digits (hdigits field hfield)
    refine ⟨version, traceId, parent, flags, hfields, hversion, ?_, ?_, hflags, hdigits, htraceZero, hparentZero⟩
    · rw [← hbytes traceId (by simp)]
      exact htrace
    · rw [← hbytes parent (by simp)]
      exact hparent

/-! ## The codecs together -/

/-- What the codecs do for a span, the names of a service, and a header that came in. -/
structure CodecsAt [Base64Codec] (span : SpanContext) (service instanceName endpoint value : String) :
    Prop where
  traceparent : parseTraceparent (buildTraceparent span) = some (span.traceId, span.spanId, span.sampled)
  sw8 : ∃ parentSpan,
    parseSw8 (buildSw8 span service instanceName endpoint) = some (span.traceId, parentSpan, span.sampled)
  b3 : parseB3Headers (buildB3Headers span) = some (span.traceId, span.spanId, span.sampled)
  accepted : ∀ answer, parseTraceparent value = some answer →
    ∃ version traceId parent flags, splitChar '-' (trim value) = [version, traceId, parent, flags] ∧
      W3C version traceId parent flags

/-- **The codecs.**  They do for a span that the gateway draws exactly if neither id is all zeros, and for a
    header exactly if what its reader does not look at is as it should be. -/
theorem codecsAt_iff [Base64Codec] [StandardDigits] (random : Vector UInt8 16) (random' : Vector UInt8 8)
    (parent : Option String) (sampled : Bool) (startMs : Nat)
    (service instanceName endpoint value : String) :
    CodecsAt (drawnSpan random random' parent sampled startMs) service instanceName endpoint value ↔
      (∃ b ∈ random.toList, b ≠ 0) ∧ (∃ b ∈ random'.toList, b ≠ 0) ∧ Strict value := by
  rw [← accepted_w3c_iff, ← and_assoc, ← parseTraceparent_build_iff random random' parent sampled startMs]
  constructor
  · rintro ⟨htraceparent, -, -, haccepted⟩
    exact ⟨htraceparent, haccepted⟩
  · rintro ⟨htraceparent, haccepted⟩
    exact ⟨htraceparent, ⟨"0", parseSw8_build _ service instanceName endpoint⟩,
      parseB3_build random random' parent sampled startMs, haccepted⟩

/-- The base64 that computes has these digits. -/
theorem digit_mem (n : Nat) : Rfc4648.digit Rfc4648.standard n ∈ Rfc4648.digits Rfc4648.standard := by
  unfold Rfc4648.digit
  rw [List.getD_eq_getElem?_getD]
  cases h : (Rfc4648.digits Rfc4648.standard)[n]? with
  | none => decide +kernel
  | some c => exact List.mem_of_getElem? h

theorem mem_encode {octets : List Nat} {c : Char} (hc : c ∈ Rfc4648.encode Rfc4648.standard octets) :
    c ∈ Rfc4648.digits Rfc4648.standard ∨ c = '=' := by
  induction octets using Rfc4648.encode.induct with
  | case1 => cases hc
  | case2 x =>
    simp only [Rfc4648.encode, Rfc4648.standard, if_true, List.cons_append, List.nil_append,
      List.mem_cons, List.not_mem_nil, or_false] at hc
    rcases hc with rfl | rfl | rfl | rfl
    · exact Or.inl (digit_mem _)
    · exact Or.inl (digit_mem _)
    · exact Or.inr rfl
    · exact Or.inr rfl
  | case3 x y =>
    simp only [Rfc4648.encode, Rfc4648.standard, if_true, List.cons_append, List.nil_append,
      List.mem_cons, List.not_mem_nil, or_false] at hc
    rcases hc with rfl | rfl | rfl | rfl
    · exact Or.inl (digit_mem _)
    · exact Or.inl (digit_mem _)
    · exact Or.inl (digit_mem _)
    · exact Or.inr rfl
  | case4 x y z rest ih =>
    simp only [Rfc4648.encode, List.mem_cons] at hc
    rcases hc with rfl | rfl | rfl | rfl | hc
    · exact Or.inl (digit_mem _)
    · exact Or.inl (digit_mem _)
    · exact Or.inl (digit_mem _)
    · exact Or.inl (digit_mem _)
    · exact ih hc

theorem standardDigits : @StandardDigits standardBase64 := by
  refine @StandardDigits.mk standardBase64 ?_
  intro bytes c hc
  have hc : c ∈ (Rfc4648.encodeBytes Rfc4648.standard bytes).toList := hc
  unfold Rfc4648.encodeBytes at hc
  rw [String.toList_ofList] at hc
  exact mem_encode hc

theorem codecsAt_iff_drawn :
    @CodecsAt standardBase64 (drawnSpan (Vector.replicate 16 0xAB) (Vector.replicate 8 1) none true 0)
        "featherbit" "node-1" "/" "garbage" ↔
      (∃ b ∈ (Vector.replicate 16 (0xAB : UInt8)).toList, b ≠ 0) ∧
        (∃ b ∈ (Vector.replicate 8 (1 : UInt8)).toList, b ≠ 0) ∧ Strict "garbage" :=
  @codecsAt_iff standardBase64 standardDigits (Vector.replicate 16 0xAB) (Vector.replicate 8 1) none true 0
    "featherbit" "node-1" "/" "garbage"

/-- Text that is no id is taken for one; and ids that are all zeros are drawn, but not read again. -/
theorem client_text_accepted :
    ¬ @CodecsAt standardBase64 (drawnSpan (Vector.replicate 16 0xAB) (Vector.replicate 8 1) none true 0)
      "featherbit" "node-1" "/" "v-not a hexadecimal number at all!-no span id 00000-sampled" ∧
    parseTraceparent "v-not a hexadecimal number at all!-no span id 00000-sampled" =
      some ("not a hexadecimal number at all!", "no span id 00000", false) ∧
    parseTraceparent (buildTraceparent
      (drawnSpan (Vector.replicate 16 0) (Vector.replicate 8 1) none true 0)) = none := by
  have hfields : splitChar '-' (trim "v-not a hexadecimal number at all!-no span id 00000-sampled") =
      ["v", "not a hexadecimal number at all!", "no span id 00000", "sampled"] := by decide +kernel
  refine ⟨?_, by decide +kernel, by decide +kernel⟩
  rintro ⟨-, -, -, haccepted⟩
  have hstrict := (accepted_w3c_iff _).mp haccepted _ _ _ _ hfields (by decide +kernel) (by decide +kernel)
    (fun h => absurd (h 'n' (by decide +kernel)) (by decide))
    (fun h => absurd (h 'n' (by decide +kernel)) (by decide))
  exact absurd hstrict.1 (by decide +kernel)

end TraceContext

end Featherbit
