/-
  THE NODE `datadog` (`plugins/native/datadog.rs`): the metrics of a log entry, as DogStatsD lines; and what
  the lines of both protocols are read as (`log_lines_iff`).

  A tag is put into its line as it stands, and so is the namespace.  The lines are read back with the
  configured and the enabled tags exactly when nothing of the configuration, of the method, of the path, of
  the query and of the scheme ends a tag or a line (`DatadogPlugin.metricsRead_iff_tags`).
-/
import Featherbit.Plugins.Syslog

namespace Featherbit

open LineProtocol

namespace Json

/-- `value.pointer(..)`, at fields that are no index of an array. -/
def pointer : List String → Json → Option Json
  | [], v => some v
  | field :: fields, v => (v.get field).bind (pointer fields)

end Json

namespace Datadog

/-- The tags of an entry. -/
def buildTags (entry : Json) (constantTags : List String) (includePath includeMethod : Bool) : List String :=
  let method := if includeMethod then (entry.pointer ["request", "method"]).bind Json.asStr else none
  let path := if includePath then (entry.pointer ["request", "uri"]).bind Json.asStr else none
  let status := (entry.pointer ["response", "status"]).bind Json.asU64
  let scheme := (entry.pointer ["request", "scheme"]).bind Json.asStr
  constantTags ++ (method.map fun m => "method:" ++ m).toList ++ (path.map fun p => "path:" ++ p).toList ++
    (status.toList.flatMap fun status => ["response_status:" ++ showNat status.toNat,
      "response_status_class:" ++ showNat (status.toNat / 100) ++ "xx"]) ++
    (scheme.map fun s => "scheme:" ++ s).toList

/-- The namespace in front of a name. -/
def metricPrefix (metricNamespace : String) : String :=
  if metricNamespace = "" then "" else metricNamespace ++ "."

def tagSuffix (tags : List String) : String := if tags = [] then "" else "|#" ++ ",".intercalate tags

/-- `build_metric_lines`. -/
def buildMetricLines (entry : Json) (metricNamespace : String) (constantTags : List String)
    (includePath includeMethod : Bool) : List String :=
  let pre := metricPrefix metricNamespace
  let suffix := tagSuffix (buildTags entry constantTags includePath includeMethod)
  let latency := (entry.get "latency").bind Json.asU64
  let requestSize := (entry.pointer ["request", "size"]).bind Json.asU64
  let responseSize := (entry.pointer ["response", "size"]).bind Json.asU64
  [pre ++ "request.counter:1|c" ++ suffix] ++
    (latency.map fun n => pre ++ "request.latency:" ++ showNat n.toNat ++ "|h" ++ suffix).toList ++
    (requestSize.map fun n => pre ++ "ingress.size:" ++ showNat n.toNat ++ "|ms" ++ suffix).toList ++
    (responseSize.map fun n => pre ++ "egress.size:" ++ showNat n.toNat ++ "|ms" ++ suffix).toList

/-- `MAX_DATAGRAM_SIZE`. -/
def maxDatagramSize : Nat := 8192

/-- What is sent for the lines of an entry: one datagram, or one a line where that is too large. -/
def datagrams (lines : List String) : List String :=
  let payload := "\n".intercalate lines
  if (asBytes payload).length ≤ maxDatagramSize then [payload] else lines

end Datadog

open Datadog

structure DatadogFlusher where
  addr : String
  metricNamespace : String
  constantTags : List String
  includePath : Bool
  includeMethod : Bool

structure DatadogPlugin where
  sinkName : String
  batch : BatchConfig
  flusher : DatadogFlusher

namespace DatadogPlugin

/-- `port`, which fits. -/
def parsePort (config : HashMap Json) : Except String Nat :=
  let port := (((config["port"]?).bind Json.asU64).getD 8125).toNat
  if 65535 < port then .error ("datadog port out of range: " ++ showNat port) else .ok port

/-- `DatadogPlugin::from_config`. -/
def fromConfig [JsonText] (config : HashMap Json) : Except String DatadogPlugin := do
  let host := (configStr config "host").getD "127.0.0.1"
  let port ← parsePort config
  let batch ← BatchConfig.fromConfig config
  return {
    sinkName := "datadog"
    batch := batch
    flusher := {
      addr := host ++ ":" ++ showNat port
      metricNamespace := (configStr config "namespace").getD "featherbit"
      constantTags := (((config["constant_tags"]?).bind Json.asArray).getD []).filterMap Json.asStr
      includePath := configFlag config "include_path" false
      includeMethod := configFlag config "include_method" false } }

/-- `execute`: what is pushed into the sink, and the context, which is not changed. -/
def execute [CaseMapping] [JsonText] (nowMillis : Option UInt64) (ctx : Context) : Json × Context :=
  (LogEntry.buildEntry nowMillis ctx none false false, ctx)

/-- The lines of an entry. -/
def metricLines (plugin : DatadogPlugin) (entry : Json) : List String :=
  buildMetricLines entry plugin.flusher.metricNamespace plugin.flusher.constantTags
    plugin.flusher.includePath plugin.flusher.includeMethod

/-! ## What the lines are to be read as -/

variable (plugin : DatadogPlugin) (nowMillis : Option UInt64) (ctx : Context)

/-- The constant tags, and one each for what is enabled of the request and for its status. -/
def tags : List String :=
  plugin.flusher.constantTags ++
    (if plugin.flusher.includeMethod then ["method:" ++ ctx.request.method] else []) ++
    (if plugin.flusher.includePath then ["path:" ++ LogEntry.requestUri ctx] else []) ++
    ["response_status:" ++ showNat ctx.response.statusCode.toNat,
      "response_status_class:" ++ showNat (ctx.response.statusCode.toNat / 100) ++ "xx",
      "scheme:" ++ ctx.request.scheme]

/-- A metric of a request, under the namespace. -/
def metric (name value type : String) : Metric where
  name := (metricPrefix plugin.flusher.metricNamespace ++ name).toList
  value := value.toList
  type := type.toList
  tags := (plugin.tags ctx).map String.toList

/-- The metrics of a request: the count, the latency where it is known, and the sizes of both bodies. -/
def metrics : List Metric :=
  [plugin.metric ctx "request.counter" "1" "c"] ++
    ((LogEntry.latencyMs nowMillis ctx).map fun ms =>
      plugin.metric ctx "request.latency" (showNat ms.toNat) "h").toList ++
    [plugin.metric ctx "ingress.size" (showNat (UInt64.ofNat ctx.request.body.length).toNat) "ms",
      plugin.metric ctx "egress.size" (showNat (UInt64.ofNat ctx.response.body.length).toNat) "ms"]

/-- Each line of a request reads as its metric. -/
def MetricsRead [CaseMapping] [JsonText] : Prop :=
  (plugin.metricLines (execute nowMillis ctx).1).map (fun line => Metric.parse line.toList) =
    (plugin.metrics nowMillis ctx).map some

end DatadogPlugin

/-! ## The fields of an entry -/

namespace LogEntry

theorem lookup_optionalField (key : String) (value : Option Json) (field : String) :
    (optionalField key value).lookup field = if field = key then value else none := by
  unfold optionalField
  cases value with
  | none => simp
  | some v =>
    by_cases hkey : field = key
    · simp [hkey]
    · have hne : (field == key) = false := beq_eq_false_iff_ne.mpr hkey
      simp [hkey, List.lookup_cons, hne]

variable (nowMillis : Option UInt64) (ctx : Context)

theorem buildDefault_request :
    (buildDefault nowMillis ctx false false).get "request" = some (.object [
      ("headers", headersToJson ctx.request.headers),
      ("host", .string ctx.request.host),
      ("method", .string ctx.request.method),
      ("scheme", .string ctx.request.scheme),
      ("size", sizeJson ctx.request.body),
      ("uri", .string (requestUri ctx))]) := by
  simp [buildDefault, Json.get, List.lookup_append, List.lookup_cons, lookup_optionalField]

theorem buildDefault_response :
    (buildDefault nowMillis ctx false false).get "response" = some (.object [
      ("headers", headersToJson ctx.response.headers),
      ("size", sizeJson ctx.response.body),
      ("status", .number (.posInt ctx.response.statusCode.toUInt64))]) := by
  simp [buildDefault, Json.get, List.lookup_append, List.lookup_cons, lookup_optionalField]

theorem buildDefault_latency :
    (buildDefault nowMillis ctx false false).get "latency" =
      (latencyMs nowMillis ctx).map fun ms => .number (.posInt ms) := by
  simp [buildDefault, Json.get, List.lookup_append, List.lookup_cons, lookup_optionalField]

end LogEntry

/-! ## A line and its metric -/

namespace Datadog

/-- A line is the text of the metric that it is written for. -/
theorem toList_line (pre name value type : String) (tags : List String) :
    (pre ++ name ++ ":" ++ value ++ "|" ++ type ++ tagSuffix tags).toList =
      Metric.render ⟨(pre ++ name).toList, value.toList, type.toList, tags.map String.toList⟩ := by
  unfold tagSuffix Metric.render Metric.fields
  by_cases htags : tags = []
  · simp [htags]
  · have hmap : tags.map String.toList ≠ [] := fun h => htags (List.map_eq_nil_iff.mp h)
    simp [htags, List.intercalate_cons_cons, String.toList_intercalate]

end Datadog

namespace DatadogPlugin

section Lines

variable [CaseMapping] [JsonText] (plugin : DatadogPlugin) (nowMillis : Option UInt64) (ctx : Context)

/-- The tags of an entry are those of the request. -/
theorem buildTags_execute :
    buildTags (execute nowMillis ctx).1 plugin.flusher.constantTags plugin.flusher.includePath
      plugin.flusher.includeMethod = plugin.tags ctx := by
  have hrequest := LogEntry.buildDefault_request nowMillis ctx
  have hresponse := LogEntry.buildDefault_response nowMillis ctx
  have hentry : (execute nowMillis ctx).1 = LogEntry.buildDefault nowMillis ctx false false := rfl
  unfold buildTags tags
  rw [hentry]
  simp only [Json.pointer, hrequest, hresponse, Option.bind_some]
  cases plugin.flusher.includeMethod <;> cases plugin.flusher.includePath <;>
    simp [Json.get, List.lookup_cons, Json.asStr, Json.asU64]

/-- The lines of a request are the texts of its metrics. -/
theorem toList_metricLines :
    (plugin.metricLines (execute nowMillis ctx).1).map String.toList =
      (plugin.metrics nowMillis ctx).map Metric.render := by
  have hrequest := LogEntry.buildDefault_request nowMillis ctx
  have hresponse := LogEntry.buildDefault_response nowMillis ctx
  have hlatency := LogEntry.buildDefault_latency nowMillis ctx
  have hentry : (execute nowMillis ctx).1 = LogEntry.buildDefault nowMillis ctx false false := rfl
  have hline : ∀ name value type : String,
      Metric.render (plugin.metric ctx name value type) =
        (metricPrefix plugin.flusher.metricNamespace ++ name ++ ":" ++ value ++ "|" ++ type ++
          tagSuffix (plugin.tags ctx)).toList :=
    fun name value type => (toList_line _ name value type _).symm
  unfold metricLines buildMetricLines metrics
  rw [buildTags_execute, hentry]
  simp only [Json.pointer, hrequest, hresponse, hlatency, Option.bind_some]
  cases LogEntry.latencyMs nowMillis ctx <;>
    simp [Json.get, List.lookup_cons, Json.asU64, hline, LogEntry.sizeJson]

end Lines

end DatadogPlugin

/-! ## When the lines are read back -/

/-- A text with nothing that ends a tag or a line. -/
def TagText (s : String) : Prop := ',' ∉ s.toList ∧ '|' ∉ s.toList ∧ '\n' ∉ s.toList

instance (s : String) : Decidable (TagText s) := inferInstanceAs (Decidable (_ ∧ _))

theorem tagText_append {s t : String} : TagText (s ++ t) ↔ TagText s ∧ TagText t := by
  unfold TagText
  simp only [String.toList_append, List.mem_append]
  tauto

theorem tagText_showNat (n : Nat) : TagText (showNat n) :=
  ⟨not_mem_showNat (by decide) n, not_mem_showNat (by decide) n, not_mem_showNat (by decide) n⟩

namespace LogEntry

/-- What is in the path and the query: besides their separators, what is in the path, in a key or in a
    value. -/
theorem mem_requestUri {ctx : Context} {c : Char} (hc : c ≠ '?' ∧ c ≠ '&' ∧ c ≠ '=') :
    c ∈ (requestUri ctx).toList ↔ c ∈ ctx.request.path.toList ∨
      ∃ entry ∈ ctx.request.queryParams.toList, ∃ v ∈ entry.2, c ∈ entry.1.toList ∨ c ∈ v.toList := by
  obtain ⟨hquestion, hamp, hequals⟩ := hc
  unfold requestUri
  extract_lets pairs
  have hpair : ∀ pair, pair ∈ pairs ↔
      ∃ entry ∈ ctx.request.queryParams.toList, ∃ v ∈ entry.2, entry.1 ++ "=" ++ v = pair := by
    intro pair
    unfold pairs
    rw [List.mem_flatMap]
    simp only [List.mem_map]
  clear_value pairs
  have hparts : (∃ pair ∈ pairs, c ∈ pair.toList) ↔
      ∃ entry ∈ ctx.request.queryParams.toList, ∃ v ∈ entry.2, c ∈ entry.1.toList ∨ c ∈ v.toList := by
    constructor
    · rintro ⟨pair, hmem, hin⟩
      obtain ⟨entry, hentry, v, hv, rfl⟩ := (hpair pair).mp hmem
      refine ⟨entry, hentry, v, hv, ?_⟩
      simpa [hequals] using hin
    · rintro ⟨entry, hentry, v, hv, hin⟩
      refine ⟨_, (hpair _).mpr ⟨entry, hentry, v, hv, rfl⟩, ?_⟩
      simpa [hequals] using hin
  rw [← hparts]
  split
  · rename_i hnil
    simp [hnil]
  · rw [String.toList_append, List.mem_append, String.toList_append, List.mem_append,
      String.toList_intercalate]
    have hjoin : c ∈ [('&' : Char)].intercalate ((pairs.mergeSort fun a b => decide (a ≤ b)).map String.toList) ↔
        ∃ pair ∈ pairs, c ∈ pair.toList := by
      constructor
      · intro hin
        rcases Split.mem_intercalate hin with h | ⟨l, hl, h⟩
        · exact absurd h hamp
        · obtain ⟨pair, hmem, rfl⟩ := List.mem_map.mp hl
          exact ⟨pair, List.mem_mergeSort.mp hmem, h⟩
      · rintro ⟨pair, hmem, h⟩
        exact Split.mem_intercalate_of_mem (List.mem_map_of_mem (List.mem_mergeSort.mpr hmem)) h
    have hsep : ("&" : String).toList = ['&'] := rfl
    have hmark : c ∉ ("?" : String).toList := fun h => hquestion (List.mem_singleton.mp h)
    rw [hsep, hjoin, or_assoc]
    simp only [hmark, false_or]

/-- The path and the query end no tag when none of their parts does. -/
theorem tagText_requestUri {ctx : Context} :
    TagText (requestUri ctx) ↔ TagText ctx.request.path ∧
      ∀ entry ∈ ctx.request.queryParams.toList, ∀ v ∈ entry.2, TagText entry.1 ∧ TagText v := by
  have hnot : ∀ c : Char, c ≠ '?' ∧ c ≠ '&' ∧ c ≠ '=' → (c ∉ (requestUri ctx).toList ↔
      c ∉ ctx.request.path.toList ∧ ∀ entry ∈ ctx.request.queryParams.toList, ∀ v ∈ entry.2,
        c ∉ entry.1.toList ∧ c ∉ v.toList) := by
    intro c hc
    rw [mem_requestUri hc]
    push Not
    exact Iff.rfl
  unfold TagText
  rw [hnot ',' (by decide), hnot '|' (by decide), hnot '\n' (by decide)]
  constructor
  · rintro ⟨⟨hcomma, hcommas⟩, ⟨hbar, hbars⟩, hfeed, hfeeds⟩
    refine ⟨⟨hcomma, hbar, hfeed⟩, fun entry hentry v hv => ?_⟩
    have hc := hcommas entry hentry v hv
    have hb := hbars entry hentry v hv
    have hf := hfeeds entry hentry v hv
    exact ⟨⟨hc.1, hb.1, hf.1⟩, hc.2, hb.2, hf.2⟩
  · rintro ⟨⟨hcomma, hbar, hfeed⟩, hquery⟩
    refine ⟨⟨hcomma, fun entry hentry v hv => ?_⟩, ⟨hbar, fun entry hentry v hv => ?_⟩,
      hfeed, fun entry hentry v hv => ?_⟩
    · exact ⟨(hquery entry hentry v hv).1.1, (hquery entry hentry v hv).2.1⟩
    · exact ⟨(hquery entry hentry v hv).1.2.1, (hquery entry hentry v hv).2.2.1⟩
    · exact ⟨(hquery entry hentry v hv).1.2.2, (hquery entry hentry v hv).2.2.2⟩

end LogEntry

namespace DatadogPlugin

/-- Nothing of the configuration and of the request ends a tag or a line. -/
structure Plain (plugin : DatadogPlugin) (ctx : Context) : Prop where
  metricNamespace : ':' ∉ plugin.flusher.metricNamespace.toList ∧ '|' ∉ plugin.flusher.metricNamespace.toList ∧
    '\n' ∉ plugin.flusher.metricNamespace.toList
  constantTags : ∀ tag ∈ plugin.flusher.constantTags, TagText tag
  method : plugin.flusher.includeMethod = true → TagText ctx.request.method
  path : plugin.flusher.includePath = true → TagText ctx.request.path ∧
    ∀ entry ∈ ctx.request.queryParams.toList, ∀ v ∈ entry.2, TagText entry.1 ∧ TagText v
  scheme : TagText ctx.request.scheme

variable {plugin : DatadogPlugin} {ctx : Context}

/-- The tags are those of the configuration, of the request, and of the status, which is digits. -/
theorem tagText_tags_iff : (∀ tag ∈ plugin.tags ctx, TagText tag) ↔
    (∀ tag ∈ plugin.flusher.constantTags, TagText tag) ∧
    (plugin.flusher.includeMethod = true → TagText ctx.request.method) ∧
    (plugin.flusher.includePath = true → TagText ctx.request.path ∧
      ∀ entry ∈ ctx.request.queryParams.toList, ∀ v ∈ entry.2, TagText entry.1 ∧ TagText v) ∧
    TagText ctx.request.scheme := by
  have hmethod : TagText "method:" := by decide
  have hpath : TagText "path:" := by decide
  have hstatus : TagText "response_status:" ∧ TagText "response_status_class:" ∧ TagText "xx" := by decide
  have hscheme : TagText "scheme:" := by decide
  unfold tags
  rw [← LogEntry.tagText_requestUri]
  simp only [List.forall_mem_append, List.forall_mem_cons, tagText_append, tagText_showNat, hstatus, hscheme,
    List.not_mem_nil, false_implies, implies_true, and_true, true_and, and_assoc]
  refine and_congr_right' (and_congr ?_ (and_congr_left' ?_))
  · cases plugin.flusher.includeMethod <;> simp [tagText_append, hmethod]
  · cases plugin.flusher.includePath <;> simp [tagText_append, hpath]

/-- A metric is clean exactly when its namespace and its tags are. -/
theorem clean_metric_iff {name value type : String} (hname : ':' ∉ name.toList ∧ TagText name)
    (hvalue : TagText value) (htype : TagText type) :
    (plugin.metric ctx name value type).Clean ↔ plugin.Plain ctx := by
  have hprefix : ∀ c : Char, c ≠ '.' → (c ∉ (metricPrefix plugin.flusher.metricNamespace).toList ↔
      c ∉ plugin.flusher.metricNamespace.toList) := by
    intro c hc
    unfold metricPrefix
    by_cases hempty : plugin.flusher.metricNamespace = ""
    · rw [if_pos hempty, hempty]
    · rw [if_neg hempty]
      simp [hc]
  have hwhole : ∀ c : Char, c ≠ '.' → c ∉ name.toList →
      (c ∉ (metricPrefix plugin.flusher.metricNamespace ++ name).toList ↔
        c ∉ plugin.flusher.metricNamespace.toList) := by
    intro c hc hmem
    rw [String.toList_append, List.mem_append, not_or, hprefix c hc]
    exact and_iff_left hmem
  have htags : (∀ tag ∈ (plugin.tags ctx).map String.toList, ',' ∉ tag ∧ '|' ∉ tag ∧ '\n' ∉ tag) ↔
      ∀ tag ∈ plugin.tags ctx, TagText tag := List.forall_mem_map
  constructor
  · intro h
    have hclean := h.name
    rw [metric, hwhole ':' (by decide) hname.1, hwhole '|' (by decide) hname.2.2.1,
      hwhole '\n' (by decide) hname.2.2.2] at hclean
    obtain ⟨hconstant, hmethod, hpath, hscheme⟩ := tagText_tags_iff.mp (htags.mp h.tags)
    exact ⟨hclean, hconstant, hmethod, hpath, hscheme⟩
  · intro h
    refine ⟨?_, ⟨hvalue.2.1, hvalue.2.2⟩, ⟨htype.2.1, htype.2.2⟩, htags.mpr (tagText_tags_iff.mpr
      ⟨h.constantTags, h.method, h.path, h.scheme⟩)⟩
    rw [metric, hwhole ':' (by decide) hname.1, hwhole '|' (by decide) hname.2.2.1,
      hwhole '\n' (by decide) hname.2.2.2]
    exact h.metricNamespace

/-- Every metric of a request is clean, or none is. -/
theorem clean_of_mem_metrics {nowMillis : Option UInt64} {m : Metric} (hm : m ∈ plugin.metrics nowMillis ctx) :
    m.Clean ↔ plugin.Plain ctx := by
  unfold metrics at hm
  rw [List.mem_append, List.mem_append, List.mem_singleton, Option.mem_toList, List.mem_cons,
    List.mem_singleton] at hm
  rcases hm with (rfl | hlatency) | rfl | rfl
  · exact clean_metric_iff (by decide) (by decide) (by decide)
  · obtain ⟨ms, -, rfl⟩ := Option.map_eq_some_iff.mp hlatency
    exact clean_metric_iff (by decide) (tagText_showNat _) (by decide)
  · exact clean_metric_iff (by decide) (tagText_showNat _) (by decide)
  · exact clean_metric_iff (by decide) (tagText_showNat _) (by decide)

/-- **The metrics.**  Every line reads as its metric exactly when nothing ends a tag or a line. -/
theorem metricsRead_iff_plain [CaseMapping] [JsonText] (nowMillis : Option UInt64) :
    plugin.MetricsRead nowMillis ctx ↔ plugin.Plain ctx := by
  have hlines := plugin.toList_metricLines nowMillis ctx
  have hread : (plugin.metricLines (execute nowMillis ctx).1).map (fun line => Metric.parse line.toList) =
      (plugin.metrics nowMillis ctx).map fun m => Metric.parse m.render := by
    have hparse := congrArg (List.map Metric.parse) hlines
    rw [List.map_map, List.map_map] at hparse
    exact hparse
  unfold MetricsRead
  rw [hread, List.map_inj_left]
  constructor
  · intro h
    -- the counter has a line whatever the request
    have hcounter : plugin.metric ctx "request.counter" "1" "c" ∈ plugin.metrics nowMillis ctx :=
      List.mem_append_left _ (List.mem_append_left _ List.mem_cons_self)
    exact (clean_of_mem_metrics hcounter).mp ((Metric.parse_render_iff _).mp (h _ hcounter))
  · intro h m hm
    exact (Metric.parse_render_iff m).mpr ((clean_of_mem_metrics hm).mpr h)

end DatadogPlugin

/-- The lines of the datagrams are the lines, where no line has a line feed. -/
theorem Datadog.flatMap_datagrams {lines : List String} (hne : lines ≠ [])
    (hlines : ∀ line ∈ lines, '\n' ∉ line.toList) : (datagrams lines).flatMap (splitChar '\n') = lines := by
  unfold datagrams
  dsimp only
  split
  · have hsplit := splitChar_intercalate hne hlines
    have hsep : String.singleton '\n' = "\n" := rfl
    rw [hsep] at hsplit
    simp [hsplit]
  · have hself : ∀ line ∈ lines, splitChar '\n' line = [line] := by
      intro line hline
      unfold splitChar
      rw [List.splitOn_eq_singleton (hlines line hline)]
      simp
    rw [List.flatMap_congr hself]
    exact List.flatMap_singleton' lines

/-- **The lines of both protocols.**  A batch of runs reads as one message a run exactly when every host is
    empty or has its shape, before the year 10000; and a request's metrics read as its metrics exactly when
    no text of the configuration and of the request ends a tag or a line. -/
theorem log_lines_iff [CaseMapping] [JsonLine] {procid : UInt32} {config : HashMap Json}
    {syslog : SyslogPlugin} (hsyslog : SyslogPlugin.fromConfig procid config = .ok syslog) :
    (∀ runs : List LogRun, syslog.MessagesRead runs ↔ ∀ run ∈ runs, SyslogPlugin.Readable run) ∧
    ∀ (datadog : DatadogPlugin) (nowMillis : Option UInt64) (ctx : Context),
      datadog.MetricsRead nowMillis ctx ↔ datadog.Plain ctx := by
  constructor
  · exact SyslogPlugin.messagesRead_iff_readable (SyslogPlugin.appName_of_fromConfig hsyslog)
  · intro datadog nowMillis ctx
    exact DatadogPlugin.metricsRead_iff_plain nowMillis

/-! ## Lines of an example -/

/-- A request for this path of this host. -/
def loggedContext (host path : String) : Context :=
  Context.new { (default : GatewayRequest) with
    method := "GET"
    path := path
    host := host
    scheme := "http" }

/-- A run at the epoch. -/
def loggedRun (host path : String) : LogRun where
  ctx := loggedContext host path
  nowMillis := none
  secs := 0
  millis := 5

def syslogConfig : HashMap Json := (∅ : HashMap Json).insert "host" (.string "logs")

/-- A node of no limits of its own, with the tags of methods and paths. -/
def datadogExample : DatadogPlugin where
  sinkName := "datadog"
  batch := {
    batchMaxSize := 1000
    inactiveTimeout := 5
    bufferDuration := 60
    maxRetryCount := 0
    retryDelay := 1
    maxPendingEntries := 10000 }
  flusher := {
    addr := "127.0.0.1:8125"
    metricNamespace := "featherbit"
    constantTags := ["source:fb"]
    includePath := true
    includeMethod := true }

/-- The node of that configuration in the process 7. -/
def syslogExample : SyslogPlugin where
  sinkName := "syslog:logs:5140"
  batch := {
    batchMaxSize := 1000
    inactiveTimeout := durationFromSecs 5
    bufferDuration := durationFromSecs 60
    maxRetryCount := 0
    retryDelay := durationFromSecs 1
    maxPendingEntries := 10000 }
  flusher := {
    host := "logs"
    port := 5140
    sockType := .tcp
    timeoutMs := 3000 }
  logFormat := none
  includeReqBody := false
  includeRespBody := false
  appName := "featherbit"
  procid := 7

theorem fromConfig_syslogExample :
    let _ : JsonLine := compactLine
    SyslogPlugin.fromConfig 7 syslogConfig = .ok syslogExample := by
  rfl

theorem log_lines_iff_example :
    let _ : CaseMapping := asciiCaseMapping
    let _ : JsonLine := compactLine
    syslogExample.MessagesRead [loggedRun "a.example" "/", loggedRun "" "/"] ∧
      datadogExample.MetricsRead none (loggedContext "a.example" "/items") := by
  intro mapping line
  obtain ⟨hmessages, hmetrics⟩ := log_lines_iff fromConfig_syslogExample
  constructor
  · refine (hmessages _).mpr fun run hrun => ?_
    rcases List.mem_cons.mp hrun with rfl | hrun
    · exact ⟨by decide +kernel, Or.inr (by decide)⟩
    · rw [List.mem_singleton.mp hrun]
      exact ⟨by decide +kernel, Or.inl rfl⟩
  · exact (hmetrics _ _ _).mpr ⟨by decide, by decide, fun _ => by decide,
      fun _ => ⟨by decide, fun entry hentry => by cases hentry⟩, by decide⟩

/-- A space in the host begins the next field, and a comma in the path the next tag. -/
theorem host_and_path_forge_fields :
    let _ : CaseMapping := asciiCaseMapping
    let _ : JsonLine := compactLine
    ¬ syslogExample.MessagesRead [loggedRun "a admin 1 - - x" "/"] ∧
      ((LineProtocol.Syslog.parse (syslogExample.line (loggedRun "a admin 1 - - x" "/"))).map fun m =>
        (String.ofList m.hostname, String.ofList m.appName, String.ofList m.procid)) = some ("a", "admin", "1") ∧
    ¬ datadogExample.MetricsRead none (loggedContext "h" "/a,role:admin") ∧
      (((datadogExample.metricLines (DatadogPlugin.execute none (loggedContext "h" "/a,role:admin")).1).head?.bind
        fun line => Metric.parse line.toList).map fun m => m.tags.map String.ofList) =
        some ["source:fb", "method:GET", "path:/a", "role:admin", "response_status:0",
          "response_status_class:0xx", "scheme:http"] := by
  intro mapping line
  refine ⟨fun h => ?_, by decide +kernel, fun h => ?_, by decide +kernel⟩
  · have hreadable := (SyslogPlugin.messagesRead_iff_readable rfl _).mp h _ List.mem_cons_self
    rcases hreadable.2 with hempty | hfield
    · exact absurd hempty (by decide)
    · exact absurd hfield (by decide)
  · have hplain := (DatadogPlugin.metricsRead_iff_plain none).mp h
    exact absurd (hplain.path rfl).1 (by decide)

end Featherbit
