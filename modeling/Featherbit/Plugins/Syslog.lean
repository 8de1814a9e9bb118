/-
  THE NODE `syslog` (`plugins/native/syslog.rs`): a log entry as an RFC 5424 message, a batch of them as one
  payload.

  The clock is read twice in a run, for the entry's latency and for the message's time.  The process id is
  a parameter of the configuration, the text of a JSON value one of the library's.

  1. **The time** (`isTimestamp_formatRfc3339_iff`) — has the shape of a message's time up to the year 9999.
  2. **The frame** (`parse_buildSyslogFrame_iff`) — its sender and its message are read back exactly when,
     besides, the host is empty or has the shape of a host name: it is put into the header as it stands.
  3. **The payload** (`SyslogPlugin.messagesRead_iff`) — so its lines are one message a run.  A host with a
     line feed makes a line more, which the count of the lines tells.
-/
import Featherbit.Batch.Sink
import Featherbit.Json.Text
import Featherbit.Lib.LineProtocol
import Featherbit.Lib.TryFold
import Featherbit.Plugins.AuthNodes
import Featherbit.Plugins.LogDate
import Featherbit.Plugins.LogEntry

namespace Featherbit

open LineProtocol

/-- JSON text that is one line: `to_string` writes no line feed, and escapes those of a string. -/
class JsonLine extends JsonText where
  lineFeed_not_mem : ∀ v : Json, '\n' ∉ (toText v).toList

/-! ## The node -/

/-- Transport for the socket. -/
inductive SockType where
  | tcp
  | udp
deriving DecidableEq

structure SyslogFlusher where
  host : String
  port : UInt16
  sockType : SockType
  timeoutMs : Nat

structure SyslogPlugin where
  sinkName : String
  batch : BatchConfig
  flusher : SyslogFlusher
  logFormat : Option (HashMap Json)
  includeReqBody : Bool
  includeRespBody : Bool
  appName : String
  procid : UInt32

/-- One run of the node: the context, and the clock when it is read for the entry and for the time. -/
structure LogRun where
  ctx : Context
  nowMillis : Option UInt64
  secs : UInt64
  millis : Fin 1000

namespace Syslog

/-- Facility `SYSLOG`. -/
def facilitySyslog : Nat := 5

/-- Severity `INFO`. -/
def severityInfo : Nat := 6

def priority (facility severity : Nat) : Nat := facility * 8 + severity

/-- `-` for an absent field. -/
def orNil (field : String) : String := if field = "" then "-" else field

/-- `build_syslog_frame`. -/
def buildSyslogFrame (pri : Nat) (timestamp hostname appName : String) (procid : UInt32) (msg : String) :
    String :=
  "<" ++ showNat pri ++ ">1 " ++ timestamp ++ " " ++ orNil hostname ++ " " ++ orNil appName ++ " " ++
    showNat procid.toNat ++ " - - " ++ msg ++ "\n"

/-- `SyslogFlusher::payload`. -/
def payload (entries : List Json) : String := String.join (entries.filterMap Json.asStr)

/-- `host`, which is not empty. -/
def requiredHost (config : HashMap Json) : Except String String :=
  match (configStr config "host").filter (· ≠ "") with
  | some host => .ok host
  | none => .error "syslog: `host` is required"

/-- `tls`, which is not yet supported. -/
def rejectTls (config : HashMap Json) : Except String Unit :=
  if configFlag config "tls" false then .error "syslog: TLS (`tls: true`) is not yet supported" else .ok ()

/-- `sock_type`, which is TCP where it is absent. -/
def parseSockType (config : HashMap Json) : Except String SockType :=
  match (configStr config "sock_type").getD "tcp" with
  | "tcp" => .ok .tcp
  | "udp" => .ok .udp
  | other => .error ("syslog: `sock_type` must be tcp or udp, got " ++ other)

end Syslog

open Syslog

namespace SyslogPlugin

/-- `SyslogPlugin::from_config`, in the process of this id. -/
def fromConfig [JsonText] (procid : UInt32) (config : HashMap Json) : Except String SyslogPlugin := do
  let host ← requiredHost config
  let port := ((config["port"]?.bind Json.asU64).filter fun p => p.toNat ≤ 65535).getD 5140
  rejectTls config
  let sockType ← parseSockType config
  let timeoutMs := ((config["timeout"]?.bind Json.asU64).getD 3000).toNat
  let logFormat ← LogEntry.parseLogFormat config
  let batch ← BatchConfig.fromConfig config
  return {
    sinkName := "syslog:" ++ host ++ ":" ++ showNat port.toNat
    batch := batch
    flusher := {
      host := host
      port := port.toUInt16
      sockType := sockType
      timeoutMs := max timeoutMs 1 }
    logFormat := logFormat
    includeReqBody := configFlag config "include_req_body" false
    includeRespBody := configFlag config "include_resp_body" false
    appName := "featherbit"
    procid := procid }

variable [CaseMapping] [JsonText] (plugin : SyslogPlugin)

/-- The entry of a run, as text. -/
def entryText (run : LogRun) : String :=
  JsonText.toText (LogEntry.buildEntry run.nowMillis run.ctx plugin.logFormat plugin.includeReqBody
    plugin.includeRespBody)

/-- `execute`: what is pushed into the sink, and the context, which is not changed. -/
def execute (run : LogRun) : Json × Context :=
  (.string (buildSyslogFrame (priority facilitySyslog severityInfo)
    (formatRfc3339 run.secs.toNat run.millis) run.ctx.request.host plugin.appName plugin.procid
    (plugin.entryText run)), run.ctx)

/-- The payload of a batch of runs. -/
def sent (runs : List LogRun) : String := payload (runs.map fun run => (plugin.execute run).1)

/-- Each run is one line of the payload, which reads as its host, its application, its process and its
    entry. -/
def MessagesRead (runs : List LogRun) : Prop :=
  (linesOf (plugin.sent runs).toList).map (fun line => (LineProtocol.Syslog.parse line).map
      LineProtocol.Syslog.Message.sender) =
    runs.map fun run => some ((orNil run.ctx.request.host).toList, plugin.appName.toList,
      (showNat plugin.procid.toNat).toList, some (plugin.entryText run).toList)

end SyslogPlugin

/-! ## The time -/

namespace Syslog

open LineProtocol.Syslog

theorem digits_showPadded (width n : Nat) : Digits (showPadded width n).toList :=
  fun _ hc => isDigit_of_mem_showPadded hc

/-- The time of a message in its parts, of which only the year can be too long. -/
theorem formatRfc3339_eq (secs millis : Nat) :
    ∃ year month day hour minute second : Nat,
      (Civil.fromDays (secs / 86400 : Nat)).year = year ∧ month < 100 ∧ day < 100 ∧
      hour < 100 ∧ minute < 100 ∧ second < 100 ∧
      (formatRfc3339 secs millis).toList =
        dateText (showPadded 4 year).toList (showPadded 2 month).toList (showPadded 2 day).toList ++
          'T' :: (timeText (showPadded 2 hour).toList (showPadded 2 minute).toList (showPadded 2 second).toList
            (showPadded 3 millis).toList ++ ['Z']) := by
  obtain ⟨year, month, day, -, hmonth, hdate⟩ := SlsLogger.civilDate_eq (secs / 86400)
  have hday : day ≤ 31 := by
    have hvalid := (Civil.fromDays_valid (secs / 86400 : Nat)).day_le
    have hle := Civil.monthLength_le (Civil.fromDays (secs / 86400 : Nat)).year
      (Civil.fromDays (secs / 86400 : Nat)).month
    rw [hdate] at hvalid hle
    dsimp only at hvalid hle
    omega
  refine ⟨year, month + 1, day, secs % 86400 / 3600, secs % 86400 % 3600 / 60, secs % 86400 % 60,
    by rw [hdate], by omega, by omega, by omega, by omega, by omega, ?_⟩
  unfold formatRfc3339 dateText timeText
  rw [hdate]
  dsimp only
  rw [← Nat.cast_succ, showPaddedInt_natCast, showPaddedInt_natCast, showPaddedInt_natCast]
  simp

/-- **The time.**  It has its shape up to the year 9999, and no space in any year. -/
theorem isTimestamp_formatRfc3339_iff (secs : Nat) {millis : Nat} (hmillis : millis < 1000) :
    (isTimestamp (formatRfc3339 secs millis).toList = true ↔
      (Civil.fromDays (secs / 86400 : Nat)).year ≤ 9999) ∧
    ' ' ∉ (formatRfc3339 secs millis).toList ∧ '\n' ∉ (formatRfc3339 secs millis).toList := by
  obtain ⟨year, month, day, hour, minute, second, hyear, hmonth, hday, hhour, hminute, hsecond, htext⟩ :=
    formatRfc3339_eq secs millis
  have hnot : ∀ c : Char, c.isDigit = false → c ≠ '-' → c ≠ ':' ∧ c ≠ '.' → c ≠ 'T' → c ≠ 'Z' →
      c ∉ (formatRfc3339 secs millis).toList := by
    intro c hc hdash htime hT hZ hmem
    rw [htext, List.mem_append, List.mem_cons, List.mem_append, List.mem_singleton] at hmem
    rcases hmem with hmem | hmem | hmem | hmem
    · exact not_mem_dateText (digits_showPadded _ _) (digits_showPadded _ _) (digits_showPadded _ _) hc hdash hmem
    · exact hT hmem
    · exact not_mem_timeText (digits_showPadded _ _) (digits_showPadded _ _) (digits_showPadded _ _)
        (digits_showPadded _ _) hc htime hmem
    · exact hZ hmem
  refine ⟨?_, hnot ' ' (by decide) (by decide) (by decide) (by decide) (by decide),
    hnot '\n' (by decide) (by decide) (by decide) (by decide) (by decide)⟩
  have htwo : ∀ n, n < 100 → (showPadded 2 n).toList.length = 2 :=
    fun n hn => (length_showPadded_eq_iff (by decide)).mpr hn
  have hfraction : (showPadded 3 millis).toList.length = 3 :=
    (length_showPadded_eq_iff (by decide)).mpr hmillis
  rw [htext, isTimestamp_iff (digits_showPadded _ _) (digits_showPadded _ _) (digits_showPadded _ _)
    (digits_showPadded _ _) (digits_showPadded _ _) (digits_showPadded _ _) (digits_showPadded _ _), hyear,
    length_showPadded_eq_iff (by decide), htwo month hmonth, htwo day hday, htwo hour hhour,
    htwo minute hminute, htwo second hsecond, hfraction]
  have hne := showPadded_ne_nil 3 millis
  constructor
  · rintro ⟨⟨hlt, -⟩, -⟩
    omega
  · intro hle
    exact ⟨⟨by omega, rfl, rfl⟩, ⟨rfl, rfl, rfl⟩, hne, by decide⟩

end Syslog

/-! ## The frame -/

namespace Syslog

open LineProtocol.Syslog

/-- The line of a frame. -/
def record (timestamp hostname appName : String) (procid : UInt32) (msg : String) : List Char :=
  frame timestamp.toList (orNil hostname).toList (orNil appName).toList (showNat procid.toNat).toList msg.toList

theorem toList_buildSyslogFrame (timestamp hostname appName : String) (procid : UInt32) (msg : String) :
    (buildSyslogFrame (priority facilitySyslog severityInfo) timestamp hostname appName procid msg).toList =
      record timestamp hostname appName procid msg ++ ['\n'] := by
  have hpriority : showNat (priority facilitySyslog severityInfo) = "46" := by decide +kernel
  unfold buildSyslogFrame record frame
  rw [hpriority]
  simp

/-- The process id has the shape of a field. -/
theorem isField_procid (procid : UInt32) : isField 128 (showNat procid.toNat).toList = true := by
  have hdigits : ∀ c ∈ (showNat procid.toNat).toList, isPrintable c = true := by
    intro c hc
    have hdigit := isDigit_of_mem_showNat hc
    rw [Char.isDigit_iff_toNat] at hdigit
    have hlow : '0'.toNat = 48 := rfl
    have hhigh : '9'.toNat = 57 := rfl
    unfold isPrintable
    simp only [Bool.and_eq_true, decide_eq_true_eq]
    omega
  have hlength : (Nat.toDigits 10 procid.toNat).length ≤ 10 := by
    rw [Nat.length_toDigits_le_iff (by decide) (by decide)]
    have hlt := procid.toNat_lt
    omega
  unfold isField
  rw [List.all_eq_true.mpr hdigits]
  unfold showNat
  rw [String.toList_ofList, decide_eq_true Nat.toDigits_ne_nil, decide_eq_true (by omega)]
  rfl

/-- **The frame.**  It is read back exactly when its time and its host have their shapes. -/
theorem parse_record_iff (secs : Nat) {millis : Nat} (hmillis : millis < 1000) (hostname : String)
    {appName : String} (happ : isField 48 (orNil appName).toList = true) (procid : UInt32) (msg : String) :
    (parse (record (formatRfc3339 secs millis) hostname appName procid msg)).map Message.sender =
        some ((orNil hostname).toList, (orNil appName).toList, (showNat procid.toNat).toList, some msg.toList) ↔
      (Civil.fromDays (secs / 86400 : Nat)).year ≤ 9999 ∧
        (hostname = "" ∨ isField 255 hostname.toList = true) := by
  obtain ⟨htime, hspace, -⟩ := isTimestamp_formatRfc3339_iff secs hmillis
  unfold record
  rw [parse_frame_iff hspace happ (isField_procid procid), htime]
  refine and_congr_right' ?_
  unfold orNil
  by_cases hempty : hostname = ""
  · rw [if_pos hempty]
    exact iff_of_true (by decide) (Or.inl hempty)
  · rw [if_neg hempty]
    exact ⟨Or.inr, fun h => h.resolve_left hempty⟩

end Syslog

/-! ## The payload -/

namespace SyslogPlugin

section Payload

variable [CaseMapping] [JsonLine] (plugin : SyslogPlugin)

/-- The line of a run. -/
def line (run : LogRun) : List Char :=
  record (formatRfc3339 run.secs.toNat run.millis) run.ctx.request.host plugin.appName plugin.procid
    (plugin.entryText run)

/-- The payload is a line for each run, each with a line feed at its end. -/
theorem toList_sent (runs : List LogRun) :
    (plugin.sent runs).toList = (runs.map plugin.line).flatMap fun line => line ++ ['\n'] := by
  unfold sent payload
  rw [String.toList_join]
  induction runs with
  | nil => rfl
  | cons run runs ih =>
    rw [List.map_cons, List.filterMap_cons_some (show Json.asStr (plugin.execute run).1 = some _ from rfl),
      List.flatMap_cons, ih, toList_buildSyslogFrame, List.map_cons, List.flatMap_cons]
    rfl

/-- What a run's line is to be read as. -/
def sender (run : LogRun) : List Char × List Char × List Char × Option (List Char) :=
  ((orNil run.ctx.request.host).toList, plugin.appName.toList, (showNat plugin.procid.toNat).toList,
    some (plugin.entryText run).toList)

/-- A run whose host is empty or has its shape, before the year 10000. -/
def Readable (run : LogRun) : Prop :=
  (Civil.fromDays (run.secs.toNat / 86400 : Nat)).year ≤ 9999 ∧
    (run.ctx.request.host = "" ∨ LineProtocol.Syslog.isField 255 run.ctx.request.host.toList = true)

variable {plugin}

theorem parse_line_iff (happ : plugin.appName = "featherbit") (run : LogRun) :
    (LineProtocol.Syslog.parse (plugin.line run)).map LineProtocol.Syslog.Message.sender =
      some (plugin.sender run) ↔ Readable run := by
  have hname : orNil plugin.appName = plugin.appName := by
    rw [happ]
    decide
  have hfield : LineProtocol.Syslog.isField 48 (orNil plugin.appName).toList = true := by
    rw [happ]
    decide
  have hread := parse_record_iff run.secs.toNat run.millis.isLt run.ctx.request.host hfield plugin.procid
    (plugin.entryText run)
  rw [hname] at hread
  exact hread

/-- A readable run has one line. -/
theorem lineFeed_not_mem_line (happ : plugin.appName = "featherbit") {run : LogRun} (h : Readable run) :
    '\n' ∉ plugin.line run := by
  have hhost : LineProtocol.Syslog.isField 255 (orNil run.ctx.request.host).toList = true := by
    unfold orNil
    rcases h.2 with hempty | hhost
    · rw [if_pos hempty]
      decide
    · split
      · decide
      · exact hhost
  have hfield : LineProtocol.Syslog.isField 48 (orNil plugin.appName).toList = true := by
    rw [happ]
    decide
  exact LineProtocol.Syslog.lineFeed_not_mem_frame
    (isTimestamp_formatRfc3339_iff run.secs.toNat run.millis.isLt).2.2 hhost hfield
    (isField_procid plugin.procid) (JsonLine.lineFeed_not_mem _)

/-- **The payload.**  Its lines are one message a run exactly when every host has its shape, and no time is
    past the year 9999. -/
theorem messagesRead_iff_readable (happ : plugin.appName = "featherbit") (runs : List LogRun) :
    plugin.MessagesRead runs ↔ ∀ run ∈ runs, Readable run := by
  have hsent : plugin.MessagesRead runs ↔
      (linesOf ((runs.map plugin.line).flatMap fun line => line ++ ['\n'])).map (fun line =>
        (LineProtocol.Syslog.parse line).map LineProtocol.Syslog.Message.sender) =
      runs.map fun run => some (plugin.sender run) := by
    unfold MessagesRead
    rw [toList_sent]
    rfl
  rw [hsent]
  constructor
  · intro h
    -- as many lines as runs, so no line of a run has a line feed
    have hlength : (linesOf ((runs.map plugin.line).flatMap fun line => line ++ ['\n'])).length =
        (runs.map plugin.line).length := by
      have hcount := congrArg List.length h
      rw [List.length_map, List.length_map] at hcount
      rw [hcount, List.length_map]
    rw [linesOf_records (of_length_linesOf hlength), List.map_map] at h
    intro run hrun
    have hline := List.map_inj_left.mp h run hrun
    rw [Function.comp_apply] at hline
    exact (parse_line_iff happ run).mp hline
  · intro h
    have hlines : ∀ line ∈ runs.map plugin.line, '\n' ∉ line := by
      intro line hline
      obtain ⟨run, hrun, rfl⟩ := List.mem_map.mp hline
      exact lineFeed_not_mem_line happ (h run hrun)
    rw [linesOf_records hlines, List.map_map]
    refine List.map_congr_left fun run hrun => ?_
    rw [Function.comp_apply]
    exact (parse_line_iff happ run).mpr (h run hrun)

omit [CaseMapping] in
/-- A configured node has the name of the application. -/
theorem appName_of_fromConfig {procid : UInt32} {config : HashMap Json}
    (h : fromConfig procid config = .ok plugin) : plugin.appName = "featherbit" := by
  obtain ⟨host, -, h⟩ := TryFold.bind_eq_ok.mp h
  obtain ⟨-, -, h⟩ := TryFold.bind_eq_ok.mp h
  obtain ⟨sockType, -, h⟩ := TryFold.bind_eq_ok.mp h
  obtain ⟨logFormat, -, h⟩ := TryFold.bind_eq_ok.mp h
  obtain ⟨batch, -, h⟩ := TryFold.bind_eq_ok.mp h
  obtain rfl := Except.ok.inj h
  rfl

end Payload

end SyslogPlugin

/-! ## A line of JSON -/

namespace CompactJson

theorem lineFeed_not_mem_printString (s : String) : '\n' ∉ printString s := by
  unfold printString
  rw [List.mem_cons, List.mem_append, List.mem_flatMap]
  rintro (h | ⟨c, -, h⟩ | h)
  · exact absurd h (by decide)
  · unfold escape at h
    split at h
    · rename_i pair hfind
      have hshort : ∀ pair ∈ shortEscapes, pair.2 ≠ '\n' := by decide
      rcases List.mem_cons.mp h with h | h
      · exact absurd h (by decide)
      · exact hshort pair (List.mem_of_find?_eq_some hfind) (List.mem_singleton.mp h).symm
    · rename_i hfind
      split at h
      · rename_i hlow
        have hhex : ∀ n < 32, '\n' ∉ ['\\', 'u', '0', '0', hexDigit (n / 16), hexDigit (n % 16)] := by decide
        exact hhex c.toNat hlow h
      · rename_i hhigh
        obtain rfl := List.mem_singleton.mp h
        exact hhigh (by decide)
  · exact absurd (List.mem_singleton.mp h) (by decide)

theorem lineFeed_not_mem_printNumber (n : JsonNumber) : '\n' ∉ printNumber n := by
  have hdigits : ∀ n, '\n' ∉ Nat.toDigits 10 n := by
    intro n hmem
    have hdigit := Nat.isDigit_of_mem_toDigits (by decide) (by decide) hmem
    exact absurd hdigit (by decide)
  cases n with
  | posInt n => exact hdigits _
  | negInt n =>
    intro hmem
    rcases List.mem_cons.mp hmem with h | h
    · exact absurd h (by decide)
    · exact hdigits _ h
  | float x =>
    show '\n' ∉ ['0', '.', '0']
    decide

mutual

theorem lineFeed_not_mem_print : ∀ v : Json, '\n' ∉ print v
  | .null | .bool true | .bool false => by unfold print; decide
  | .number n => lineFeed_not_mem_printNumber n
  | .string s => lineFeed_not_mem_printString s
  | .array items => by
    have hitems := lineFeed_not_mem_printItems items
    unfold print
    simp [hitems]
  | .object fields => by
    have hfields := lineFeed_not_mem_printFields fields
    unfold print
    simp [hfields]

theorem lineFeed_not_mem_printItems : ∀ items : List Json, '\n' ∉ printItems items
  | [] => List.not_mem_nil
  | [v] => lineFeed_not_mem_print v
  | v :: w :: vs => by
    have hv := lineFeed_not_mem_print v
    have hrest := lineFeed_not_mem_printItems (w :: vs)
    unfold printItems
    simp [hv, hrest]

theorem lineFeed_not_mem_printFields : ∀ fields : List (String × Json), '\n' ∉ printFields fields
  | [] => List.not_mem_nil
  | [(k, v)] => by
    have hv := lineFeed_not_mem_print v
    unfold printFields
    simp [hv, lineFeed_not_mem_printString k]
  | (k, v) :: field :: fields => by
    have hv := lineFeed_not_mem_print v
    have hrest := lineFeed_not_mem_printFields (field :: fields)
    unfold printFields
    simp [hv, hrest, lineFeed_not_mem_printString k]

end

end CompactJson

/-- Compact JSON is one line. -/
abbrev compactLine : JsonLine where
  toText := CompactJson.toText
  lineFeed_not_mem v := by
    unfold CompactJson.toText
    rw [String.toList_ofList]
    exact CompactJson.lineFeed_not_mem_print v

end Featherbit
