/-
  LINE PROTOCOLS, as a library: syslog messages (RFC 5424) and DogStatsD metrics.

  1. **Lines** (`linesOf`) — what a line feed ends.  Records that end with their only line feed are read one
     by one (`linesOf_records`); any other line feed makes a line more (`of_length_linesOf`).
  2. **A syslog message** (`Syslog.parse`) — a header of fields between spaces, structured data, and the
     message.  A frame is read back exactly when its time and its host have their shapes
     (`Syslog.parse_frame_iff`, `Syslog.isTimestamp_iff`).
  3. **A metric** (`Metric.parse_render_iff`) — `name:value|type|#tag,tag` is read back exactly when no
     field holds what ends it.
-/
import Mathlib.Data.List.Basic
import Mathlib.Data.List.Infix
import Featherbit.Lib.Split

namespace LineProtocol

/-! ## Lines -/

/-- The lines of a text: what each line feed ends.  What follows the last one is no line. -/
def linesOf (text : List Char) : List (List Char) := (text.splitOn '\n').dropLast

theorem linesOf_cons_line {line : List Char} (hline : '\n' ∉ line) (rest : List Char) :
    linesOf (line ++ '\n' :: rest) = line :: linesOf rest := by
  unfold linesOf
  rw [List.splitOn_append_cons_self, List.splitOn_eq_singleton hline, List.singleton_append,
    List.dropLast_cons_of_ne_nil (List.splitOn_ne_nil _ _)]

/-- As many lines as line feeds. -/
theorem length_linesOf (text : List Char) : (linesOf text).length = text.count '\n' := by
  unfold linesOf
  have hcount := Split.count_intercalate '\n' (List.splitOn_ne_nil '\n' text)
  have hzero : ((text.splitOn '\n').map (List.count '\n')).sum = 0 := by
    rw [List.sum_eq_zero_iff_forall_eq_nat]
    intro n hn
    obtain ⟨part, hpart, rfl⟩ := List.mem_map.mp hn
    exact List.count_eq_zero.mpr (Split.not_mem_of_mem_splitOn hpart)
  rw [List.intercalate_splitOn, hzero] at hcount
  rw [List.length_dropLast]
  omega

/-- Records that end with their only line feed are the lines. -/
theorem linesOf_records {records : List (List Char)} (h : ∀ record ∈ records, '\n' ∉ record) :
    linesOf (records.flatMap fun record => record ++ ['\n']) = records := by
  induction records with
  | nil => rfl
  | cons record records ih =>
    rw [List.flatMap_cons, List.append_assoc, List.singleton_append,
      linesOf_cons_line (h record List.mem_cons_self), ih fun r hr => h r (List.mem_cons_of_mem _ hr)]

/-- Records are the lines only where no one holds a line feed before its end. -/
theorem of_length_linesOf {records : List (List Char)}
    (h : (linesOf (records.flatMap fun record => record ++ ['\n'])).length = records.length) :
    ∀ record ∈ records, '\n' ∉ record := by
  rw [length_linesOf] at h
  have hle : ∀ records : List (List Char),
      records.length ≤ (records.flatMap fun record => record ++ ['\n']).count '\n' := by
    intro records
    induction records with
    | nil => exact Nat.le_refl _
    | cons record records ih =>
      rw [List.flatMap_cons, List.count_append, List.count_append, List.count_singleton_self, List.length_cons]
      omega
  induction records with
  | nil => exact fun record hrecord => nomatch hrecord
  | cons record records ih =>
    have hrest := hle records
    rw [List.flatMap_cons, List.count_append, List.count_append, List.count_singleton_self,
      List.length_cons] at h
    intro r hr
    rcases List.mem_cons.mp hr with rfl | hr
    · exact List.count_eq_zero.mp (by omega)
    · exact ih (by omega) r hr

/-! ## Syslog messages -/

namespace Syslog

/-- What the gateway's header and message hold. -/
structure Message where
  priority : List Char
  version : List Char
  timestamp : List Char
  hostname : List Char
  appName : List Char
  procid : List Char
  msgid : List Char
  /-- the message, where there is one -/
  msg : Option (List Char)
deriving DecidableEq

/-- `PRINTUSASCII`. -/
def isPrintable (c : Char) : Bool := 33 ≤ c.toNat && c.toNat ≤ 126

/-- A field of the header; `-` stands for no value. -/
def isField (maxLength : Nat) (field : List Char) : Bool :=
  field ≠ [] && field.length ≤ maxLength && field.all isPrintable

def isDigits (n : Nat) (text : List Char) : Bool := text.length = n && text.all Char.isDigit

/-- `PRIVAL`, between its brackets. -/
def readPriority : List Char → Option (List Char × List Char)
  | '<' :: rest => do
    let (value, rest) ← Split.splitOnce '>' rest
    if value ≠ [] ∧ value.length ≤ 3 ∧ value.all Char.isDigit then some (value, rest) else none
  | _ => none

/-- `VERSION`. -/
def isVersion (text : List Char) : Bool :=
  text ≠ [] && text.head? ≠ some '0' && text.length ≤ 3 && text.all Char.isDigit

/-- `FULL-DATE`. -/
def isFullDate (text : List Char) : Bool :=
  match text.splitOn '-' with
  | [year, month, day] => isDigits 4 year && isDigits 2 month && isDigits 2 day
  | _ => false

/-- Hours and minutes. -/
def isHourMinute (text : List Char) : Bool :=
  match text.splitOn ':' with
  | [hour, minute] => isDigits 2 hour && isDigits 2 minute
  | _ => false

/-- `PARTIAL-TIME`. -/
def isPartialTime (text : List Char) : Bool :=
  match (text.takeWhile (· ≠ '.')).splitOn ':' with
  | [hour, minute, second] =>
    isDigits 2 hour && isDigits 2 minute && isDigits 2 second &&
      match text.dropWhile (· ≠ '.') with
      | [] => true
      | _ :: fraction => fraction ≠ [] && fraction.length ≤ 6 && fraction.all Char.isDigit
  | _ => false

/-- `FULL-TIME`. -/
def isFullTime (text : List Char) : Bool :=
  let isOffset := fun c => c = 'Z' || c = '+' || c = '-'
  isPartialTime (text.takeWhile fun c => !isOffset c) &&
    match text.dropWhile fun c => !isOffset c with
    | ['Z'] => true
    | 'Z' :: _ => false
    | _ :: offset => isHourMinute offset
    | [] => false

/-- `TIMESTAMP`. -/
def isTimestamp (text : List Char) : Bool :=
  text = ['-'] ||
    match Split.splitOnce 'T' text with
    | some (date, time) => isFullDate date && isFullTime time
    | none => false

/-- `SD-NAME`. -/
def isName (text : List Char) : Bool :=
  isField 32 text && text.all fun c => c ≠ '=' && c ≠ ']' && c ≠ '"'

/-- A `PARAM-VALUE` up to its closing quote. -/
def skipValue : List Char → Option (List Char)
  | [] => none
  | '"' :: rest => some rest
  | ']' :: _ => none
  | '\\' :: _ :: rest => skipValue rest
  | _ :: rest => skipValue rest

/-- The parameters of an element up to its closing bracket. -/
def skipParams : Nat → List Char → Option (List Char)
  | _, ']' :: rest => some rest
  | n + 1, ' ' :: rest => do
    let (name, rest) ← Split.splitOnce '=' rest
    match isName name, rest with
    | true, '"' :: rest => (skipValue rest).bind (skipParams n)
    | _, _ => none
  | _, _ => none

/-- One `SD-ELEMENT` after another. -/
def skipElements : Nat → List Char → Option (List Char)
  | n + 1, '[' :: rest => do
    let name := rest.takeWhile fun c => c ≠ ' ' && c ≠ ']'
    if isName name then
      let rest ← skipParams rest.length (rest.drop name.length)
      if rest.head? = some '[' then skipElements n rest else some rest
    else none
  | _, _ => none

/-- `STRUCTURED-DATA`. -/
def skipData : List Char → Option (List Char)
  | '-' :: rest => some rest
  | text => skipElements text.length text

/-- A field of the header, and what follows the space behind it. -/
def readField (accepts : List Char → Bool) (text : List Char) : Option (List Char × List Char) :=
  (Split.splitOnce ' ' text).filter fun p => accepts p.1

/-- `[SP MSG]`. -/
def readMsg : List Char → Option (Option (List Char))
  | [] => some none
  | ' ' :: msg => some (some msg)
  | _ => none

/-- `SYSLOG-MSG`. -/
def parse (line : List Char) : Option Message := do
  let (priority, rest) ← readPriority line
  let (version, rest) ← readField isVersion rest
  let (timestamp, rest) ← readField isTimestamp rest
  let (hostname, rest) ← readField (isField 255) rest
  let (appName, rest) ← readField (isField 48) rest
  let (procid, rest) ← readField (isField 128) rest
  let (msgid, rest) ← readField (isField 32) rest
  let rest ← skipData rest
  let msg ← readMsg rest
  some {
    priority := priority
    version := version
    timestamp := timestamp
    hostname := hostname
    appName := appName
    procid := procid
    msgid := msgid
    msg := msg }

/-! ### Fields are read back -/

/-- The shape of a field leaves no space and no line feed in it. -/
theorem not_mem_field {c : Char} (hc : isPrintable c = false) {maxLength : Nat} {field : List Char}
    (h : isField maxLength field = true) : c ∉ field := by
  intro hmem
  obtain ⟨-, hprintable⟩ := Bool.and_eq_true_iff.mp h
  rw [List.all_eq_true.mp hprintable c hmem] at hc
  cases hc

/-- A field that has its shape and no space is read. -/
theorem readField_append {accepts : List Char → Bool} {field : List Char} (hspace : ' ' ∉ field)
    (haccepts : accepts field = true) (rest : List Char) :
    readField accepts (field ++ ' ' :: rest) = some (field, rest) := by
  unfold readField
  rw [Split.splitOnce_append hspace]
  exact Option.filter_some_pos haccepts

/-- What is read has the shape, and stands up to the first space. -/
theorem readField_eq_some {accepts : List Char → Bool} {text field rest : List Char}
    (h : readField accepts text = some (field, rest)) :
    text = field ++ ' ' :: rest ∧ ' ' ∉ field ∧ accepts field = true := by
  obtain ⟨hsplit, haccepts⟩ := Option.filter_eq_some_iff.mp h
  exact ⟨Split.eq_of_splitOnce hsplit, Split.not_mem_of_splitOnce hsplit, haccepts⟩

/-- A text with no space before its cut has one field to read. -/
theorem accepts_of_readField {accepts : List Char → Bool} {field rest : List Char} {p : List Char × List Char}
    (hspace : ' ' ∉ field) (h : readField accepts (field ++ ' ' :: rest) = some p) :
    accepts field = true ∧ p = (field, rest) := by
  unfold readField at h
  rw [Split.splitOnce_append hspace] at h
  obtain ⟨hsome, haccepts⟩ := Option.filter_eq_some_iff.mp h
  obtain rfl := Option.some.inj hsome
  exact ⟨haccepts, rfl⟩

/-- The text of a message of priority 46 without an identifier and without structured data. -/
def frame (timestamp hostname appName procid msg : List Char) : List Char :=
  ['<', '4', '6', '>'] ++ ('1' :: ' ' :: (timestamp ++ ' ' :: (hostname ++ ' ' :: (appName ++ ' ' ::
    (procid ++ ' ' :: '-' :: ' ' :: '-' :: ' ' :: msg)))))

/-- A frame is one line where its fields are. -/
theorem lineFeed_not_mem_frame {timestamp hostname appName procid msg : List Char} (htime : '\n' ∉ timestamp)
    (hhost : isField 255 hostname = true) (happ : isField 48 appName = true)
    (hprocid : isField 128 procid = true) (hmsg : '\n' ∉ msg) :
    '\n' ∉ frame timestamp hostname appName procid msg := by
  have hne : '\n' ≠ '<' ∧ '\n' ≠ '4' ∧ '\n' ≠ '6' ∧ '\n' ≠ '>' ∧ '\n' ≠ '1' ∧ '\n' ≠ ' ' ∧ '\n' ≠ '-' := by
    decide
  have hfeed : isPrintable '\n' = false := by decide
  unfold frame
  simp only [List.mem_append, List.mem_cons, List.not_mem_nil, hne, htime, hmsg, not_mem_field hfeed hhost,
    not_mem_field hfeed happ, not_mem_field hfeed hprocid, or_self, not_false_eq_true]

/-- The fields of the sender, and the message. -/
def Message.sender (m : Message) : List Char × List Char × List Char × Option (List Char) :=
  (m.hostname, m.appName, m.procid, m.msg)

/-- **A frame.**  Its fields are read back exactly when the time and the host have their shapes. -/
theorem parse_frame_iff {timestamp hostname appName procid msg : List Char} (htime : ' ' ∉ timestamp)
    (happ : isField 48 appName = true) (hprocid : isField 128 procid = true) :
    (parse (frame timestamp hostname appName procid msg)).map Message.sender =
        some (hostname, appName, procid, some msg) ↔
      isTimestamp timestamp = true ∧ isField 255 hostname = true := by
  have hpriority : ∀ rest, readPriority (['<', '4', '6', '>'] ++ rest) = some (['4', '6'], rest) :=
    fun rest => rfl
  have hversion : ∀ rest, readField isVersion ('1' :: ' ' :: rest) = some (['1'], rest) :=
    fun rest => @readField_append isVersion ['1'] (by decide) (by decide) rest
  unfold parse frame
  rw [hpriority]
  dsimp only [Option.bind_eq_bind, Option.bind_some]
  rw [hversion]
  dsimp only [Option.bind_some]
  constructor
  · intro h
    obtain ⟨m, hm, hsender⟩ := Option.map_eq_some_iff.mp h
    obtain ⟨p, hp, hm⟩ := Option.bind_eq_some_iff.mp hm
    obtain ⟨hshape, rfl⟩ := accepts_of_readField htime hp
    refine ⟨hshape, ?_⟩
    -- the host that is read has the shape, and is the host of the frame
    obtain ⟨⟨host, rest⟩, hq, hm⟩ := Option.bind_eq_some_iff.mp hm
    obtain ⟨-, -, hhost⟩ := readField_eq_some hq
    obtain ⟨_, _, hm⟩ := Option.bind_eq_some_iff.mp hm
    obtain ⟨_, _, hm⟩ := Option.bind_eq_some_iff.mp hm
    obtain ⟨_, _, hm⟩ := Option.bind_eq_some_iff.mp hm
    obtain ⟨_, _, hm⟩ := Option.bind_eq_some_iff.mp hm
    obtain ⟨_, _, hm⟩ := Option.bind_eq_some_iff.mp hm
    obtain rfl := Option.some.inj hm
    rw [← (Prod.mk.inj hsender).1]
    exact hhost
  · rintro ⟨hshape, hhost⟩
    rw [readField_append htime hshape]
    dsimp only [Option.bind_some]
    rw [readField_append (not_mem_field (by decide) hhost) hhost]
    dsimp only [Option.bind_some]
    rw [readField_append (not_mem_field (by decide) happ) happ]
    dsimp only [Option.bind_some]
    rw [readField_append (not_mem_field (by decide) hprocid) hprocid]
    rfl

/-! ### Times in the form of a log -/

/-- Digits only. -/
def Digits (text : List Char) : Prop := ∀ c ∈ text, c.isDigit = true

theorem Digits.not_mem {text : List Char} (h : Digits text) {c : Char} (hc : c.isDigit = false) : c ∉ text := by
  intro hmem
  rw [h c hmem] at hc
  cases hc

theorem Digits.isDigits {text : List Char} (h : Digits text) (n : Nat) :
    isDigits n text = decide (text.length = n) := by
  unfold Syslog.isDigits
  rw [List.all_eq_true.mpr h, Bool.and_true]

/-- The text of a date. -/
def dateText (year month day : List Char) : List Char := year ++ '-' :: (month ++ '-' :: day)

/-- The text of a time of the day, with a fraction. -/
def timeText (hour minute second fraction : List Char) : List Char :=
  hour ++ ':' :: (minute ++ ':' :: second) ++ '.' :: fraction

variable {year month day hour minute second fraction : List Char}

theorem isFullDate_dateText (hyear : Digits year) (hmonth : Digits month) (hday : Digits day) :
    isFullDate (dateText year month day) =
      (decide (year.length = 4) && decide (month.length = 2) && decide (day.length = 2)) := by
  have hsplit : (dateText year month day).splitOn '-' = [year, month, day] := by
    unfold dateText
    rw [List.splitOn_append_cons_self, List.splitOn_append_cons_self,
      List.splitOn_eq_singleton (hyear.not_mem (by decide)),
      List.splitOn_eq_singleton (hmonth.not_mem (by decide)),
      List.splitOn_eq_singleton (hday.not_mem (by decide))]
    rfl
  unfold isFullDate
  rw [hsplit]
  dsimp only
  rw [hyear.isDigits, hmonth.isDigits, hday.isDigits]

theorem isPartialTime_timeText (hhour : Digits hour) (hminute : Digits minute) (hsecond : Digits second)
    (hfraction : Digits fraction) :
    isPartialTime (timeText hour minute second fraction) =
      (decide (hour.length = 2) && decide (minute.length = 2) && decide (second.length = 2) &&
        (decide (fraction ≠ []) && decide (fraction.length ≤ 6))) := by
  have hpoint : ∀ c ∈ hour ++ ':' :: (minute ++ ':' :: second), decide (c ≠ '.') = true := by
    intro c hc
    refine decide_eq_true fun heq => ?_
    subst heq
    have hother : '.' ≠ ':' := by decide
    simp only [List.mem_append, List.mem_cons, hother, false_or] at hc
    rcases hc with hc | hc | hc
    · exact hhour.not_mem (by decide) hc
    · exact hminute.not_mem (by decide) hc
    · exact hsecond.not_mem (by decide) hc
  have hsplit : (hour ++ ':' :: (minute ++ ':' :: second)).splitOn ':' = [hour, minute, second] := by
    rw [List.splitOn_append_cons_self, List.splitOn_append_cons_self,
      List.splitOn_eq_singleton (hhour.not_mem (by decide)),
      List.splitOn_eq_singleton (hminute.not_mem (by decide)),
      List.splitOn_eq_singleton (hsecond.not_mem (by decide))]
    rfl
  have htake : (timeText hour minute second fraction).takeWhile (· ≠ '.') =
      hour ++ ':' :: (minute ++ ':' :: second) := by
    unfold timeText
    rw [List.takeWhile_append_of_pos hpoint, List.takeWhile_cons_of_neg (by decide), List.append_nil]
  have hdrop : (timeText hour minute second fraction).dropWhile (· ≠ '.') = '.' :: fraction := by
    unfold timeText
    rw [List.dropWhile_append_of_pos hpoint, List.dropWhile_cons_of_neg (by decide)]
  unfold isPartialTime
  rw [htake, hdrop, hsplit]
  dsimp only
  rw [hhour.isDigits, hminute.isDigits, hsecond.isDigits, List.all_eq_true.mpr hfraction, Bool.and_true]

/-- A text of digits and separators has no letter, no space and no sign. -/
theorem not_mem_timeText (hhour : Digits hour) (hminute : Digits minute) (hsecond : Digits second)
    (hfraction : Digits fraction) {c : Char} (hdigit : c.isDigit = false) (hc : c ≠ ':' ∧ c ≠ '.') :
    c ∉ timeText hour minute second fraction := by
  unfold timeText
  simp only [List.mem_append, List.mem_cons, hc.1, hc.2, hhour.not_mem hdigit, hminute.not_mem hdigit,
    hsecond.not_mem hdigit, hfraction.not_mem hdigit, or_self, not_false_eq_true]

theorem not_mem_dateText (hyear : Digits year) (hmonth : Digits month) (hday : Digits day) {c : Char}
    (hdigit : c.isDigit = false) (hc : c ≠ '-') : c ∉ dateText year month day := by
  unfold dateText
  simp only [List.mem_append, List.mem_cons, hc, hyear.not_mem hdigit, hmonth.not_mem hdigit,
    hday.not_mem hdigit, or_self, not_false_eq_true]

/-- **A time.**  In the form of a log it has the shape where each part has its number of digits. -/
theorem isTimestamp_iff (hyear : Digits year) (hmonth : Digits month) (hday : Digits day)
    (hhour : Digits hour) (hminute : Digits minute) (hsecond : Digits second) (hfraction : Digits fraction) :
    isTimestamp (dateText year month day ++ 'T' :: (timeText hour minute second fraction ++ ['Z'])) = true ↔
      (year.length = 4 ∧ month.length = 2 ∧ day.length = 2) ∧
        (hour.length = 2 ∧ minute.length = 2 ∧ second.length = 2) ∧ fraction ≠ [] ∧ fraction.length ≤ 6 := by
  have hnil : dateText year month day ++ 'T' :: (timeText hour minute second fraction ++ ['Z']) ≠ ['-'] := by
    intro h
    have hmem : 'T' ∈ ['-'] := h ▸ List.mem_append_right _ List.mem_cons_self
    exact absurd hmem (by decide)
  have hplain : ∀ c ∈ timeText hour minute second fraction,
      (!(decide (c = 'Z') || decide (c = '+') || decide (c = '-'))) = true := by
    intro c hc
    have hnot := fun c hd hs => not_mem_timeText hhour hminute hsecond hfraction (c := c) hd hs
    have hZ : c ≠ 'Z' := fun h => hnot 'Z' (by decide) (by decide) (h ▸ hc)
    have hplus : c ≠ '+' := fun h => hnot '+' (by decide) (by decide) (h ▸ hc)
    have hminus : c ≠ '-' := fun h => hnot '-' (by decide) (by decide) (h ▸ hc)
    simp [hZ, hplus, hminus]
  have htime : isFullTime (timeText hour minute second fraction ++ ['Z']) =
      isPartialTime (timeText hour minute second fraction) := by
    unfold isFullTime
    dsimp only
    rw [List.takeWhile_append_of_pos hplain, List.dropWhile_append_of_pos hplain]
    simp
  have hdate := not_mem_dateText hyear hmonth hday (c := 'T') (by decide) (by decide)
  unfold isTimestamp
  rw [decide_eq_false hnil, Bool.false_or, Split.splitOnce_append hdate]
  dsimp only
  rw [htime, isFullDate_dateText hyear hmonth hday, isPartialTime_timeText hhour hminute hsecond hfraction]
  simp only [Bool.and_eq_true, decide_eq_true_eq, and_assoc]

end Syslog

/-! ## Metrics -/

/-- One DogStatsD metric. -/
structure Metric where
  name : List Char
  value : List Char
  type : List Char
  tags : List (List Char)
deriving DecidableEq

namespace Metric

/-- The fields between the bars. -/
def fields (m : Metric) : List (List Char) :=
  [m.name ++ ':' :: m.value, m.type] ++ if m.tags = [] then [] else ['#' :: [','].intercalate m.tags]

/-- `name:value|type|#tag,tag` -/
def render (m : Metric) : List Char := ['|'].intercalate m.fields

/-- The metric of a line. -/
def parse (line : List Char) : Option Metric :=
  if '\n' ∈ line then none
  else
    match line.splitOn '|' with
    | [head, type] => (Split.splitOnce ':' head).map fun (name, value) => ⟨name, value, type, []⟩
    | [head, type, '#' :: tags] =>
      (Split.splitOnce ':' head).map fun (name, value) => ⟨name, value, type, tags.splitOn ','⟩
    | _ => none

/-- No field holds what ends it. -/
structure Clean (m : Metric) : Prop where
  name : ':' ∉ m.name ∧ '|' ∉ m.name ∧ '\n' ∉ m.name
  value : '|' ∉ m.value ∧ '\n' ∉ m.value
  type : '|' ∉ m.type ∧ '\n' ∉ m.type
  tags : ∀ tag ∈ m.tags, ',' ∉ tag ∧ '|' ∉ tag ∧ '\n' ∉ tag

/-- A line that is read has no line feed, and its fields are the metric's. -/
theorem parse_eq_some {line : List Char} {m : Metric} (h : parse line = some m) :
    '\n' ∉ line ∧ ∃ head, Split.splitOnce ':' head = some (m.name, m.value) ∧
      (line.splitOn '|' = [head, m.type] ∧ m.tags = [] ∨
        ∃ tags, line.splitOn '|' = [head, m.type, '#' :: tags] ∧ m.tags = tags.splitOn ',') := by
  unfold parse at h
  split at h
  · cases h
  · rename_i hline
    refine ⟨hline, ?_⟩
    split at h
    · rename_i head type hfields
      obtain ⟨⟨name, value⟩, hhead, rfl⟩ := Option.map_eq_some_iff.mp h
      exact ⟨head, hhead, Or.inl ⟨hfields, rfl⟩⟩
    · rename_i head type tags hfields
      obtain ⟨⟨name, value⟩, hhead, rfl⟩ := Option.map_eq_some_iff.mp h
      exact ⟨head, hhead, Or.inr ⟨tags, hfields, rfl⟩⟩
    · cases h

theorem fields_ne_nil (m : Metric) : m.fields ≠ [] := List.cons_ne_nil _ _

/-- What no field of a clean metric has in it. -/
theorem Clean.fields {m : Metric} (h : m.Clean) {c : Char} (hc : c = '|' ∨ c = '\n') :
    ∀ field ∈ m.fields, c ∉ field := by
  intro field hfield hmem
  have hother : c ≠ ':' ∧ c ≠ '#' ∧ c ≠ ',' := by rcases hc with rfl | rfl <;> decide
  have hname : c ∉ m.name ∧ c ∉ m.value ∧ c ∉ m.type := by
    rcases hc with rfl | rfl
    · exact ⟨h.name.2.1, h.value.1, h.type.1⟩
    · exact ⟨h.name.2.2, h.value.2, h.type.2⟩
  have htags : ∀ tag ∈ m.tags, c ∉ tag := by
    intro tag htag
    rcases hc with rfl | rfl
    · exact (h.tags tag htag).2.1
    · exact (h.tags tag htag).2.2
  rcases List.mem_append.mp hfield with hfield | hfield
  · rcases List.mem_cons.mp hfield with rfl | hfield
    · rcases List.mem_append.mp hmem with hmem | hmem
      · exact hname.1 hmem
      · exact (List.mem_cons.mp hmem).elim hother.1 hname.2.1
    · rw [List.mem_singleton.mp hfield] at hmem
      exact hname.2.2 hmem
  · split at hfield
    · cases hfield
    · rw [List.mem_singleton.mp hfield] at hmem
      rcases List.mem_cons.mp hmem with hmem | hmem
      · exact hother.2.1 hmem
      · rcases Split.mem_intercalate hmem with hmem | ⟨tag, htag, hmem⟩
        · exact hother.2.2 hmem
        · exact htags tag htag hmem

/-- A clean metric is read back. -/
theorem Clean.parse_render {m : Metric} (h : m.Clean) : parse m.render = some m := by
  have hline : '\n' ∉ m.render := by
    intro hmem
    rcases Split.mem_intercalate hmem with hmem | ⟨field, hfield, hmem⟩
    · exact absurd hmem (by decide)
    · exact h.fields (Or.inr rfl) field hfield hmem
  have hsplit : m.render.splitOn '|' = m.fields :=
    List.splitOn_intercalate '|' (h.fields (Or.inl rfl)) m.fields_ne_nil
  unfold parse
  rw [if_neg hline, hsplit]
  unfold Metric.fields
  have hhead := Split.splitOnce_append h.name.1 m.value
  by_cases htags : m.tags = []
  · rw [if_pos htags]
    show (Split.splitOnce ':' (m.name ++ ':' :: m.value)).map
      (fun p => (⟨p.1, p.2, m.type, []⟩ : Metric)) = some m
    rw [hhead, Option.map_some, ← htags]
  · rw [if_neg htags]
    show (Split.splitOnce ':' (m.name ++ ':' :: m.value)).map
      (fun p => (⟨p.1, p.2, m.type, ([','].intercalate m.tags).splitOn ','⟩ : Metric)) = some m
    rw [hhead, Option.map_some, List.splitOn_intercalate ',' (fun tag htag => (h.tags tag htag).1) htags]

/-- **A metric.**  It is read back from its line exactly when no field holds what ends it. -/
theorem parse_render_iff (m : Metric) : parse m.render = some m ↔ m.Clean := by
  refine ⟨fun h => ?_, Clean.parse_render⟩
  obtain ⟨hline, head, hhead, hsplit⟩ := parse_eq_some h
  -- as many fields are read as there are, so they are the metric's
  have hlength : (m.render.splitOn '|').length = m.fields.length := by
    unfold Metric.fields
    rcases hsplit with ⟨hsplit, htags⟩ | ⟨tags, hsplit, htags⟩
    · rw [hsplit, if_pos htags]
      rfl
    · rw [hsplit, if_neg (htags ▸ List.splitOn_ne_nil _ _)]
      rfl
  have hbars : ∀ field ∈ m.render.splitOn '|', '|' ∉ field :=
    fun field hfield => Split.not_mem_of_mem_splitOn hfield
  have hfields : m.fields = m.render.splitOn '|' :=
    Split.eq_of_intercalate hbars hlength (List.intercalate_splitOn '|')
  rw [← hfields] at hbars hsplit
  have hfeeds : ∀ field ∈ m.fields, '\n' ∉ field :=
    fun field hfield hmem => hline (Split.mem_intercalate_of_mem hfield hmem)
  have hfirst : m.name ++ ':' :: m.value ∈ m.fields := List.mem_append_left _ List.mem_cons_self
  have hsecond : m.type ∈ m.fields :=
    List.mem_append_left _ (List.mem_cons_of_mem _ List.mem_cons_self)
  have hvalue : ∀ c, c ∈ m.value → c ∈ m.name ++ ':' :: m.value :=
    fun c hc => List.mem_append_right _ (List.mem_cons_of_mem _ hc)
  refine ⟨⟨Split.not_mem_of_splitOnce hhead, fun hc => hbars _ hfirst (List.mem_append_left _ hc),
      fun hc => hfeeds _ hfirst (List.mem_append_left _ hc)⟩,
    ⟨fun hc => hbars _ hfirst (hvalue _ hc), fun hc => hfeeds _ hfirst (hvalue _ hc)⟩,
    ⟨hbars _ hsecond, hfeeds _ hsecond⟩, fun tag htag => ?_⟩
  have hne : m.tags ≠ [] := List.ne_nil_of_mem htag
  have hthird : '#' :: [','].intercalate m.tags ∈ m.fields := by
    refine List.mem_append_right _ ?_
    rw [if_neg hne]
    exact List.mem_cons_self
  have hjoined : ∀ c, c ∈ tag → c ∈ '#' :: [','].intercalate m.tags :=
    fun c hc => List.mem_cons_of_mem _ (Split.mem_intercalate_of_mem htag hc)
  refine ⟨?_, fun hc => hbars _ hthird (hjoined _ hc), fun hc => hfeeds _ hthird (hjoined _ hc)⟩
  -- the tags are what is read at the commas
  rcases hsplit with ⟨-, htags⟩ | ⟨tags, hsplit, htags⟩
  · exact absurd htags hne
  · unfold Metric.fields at hsplit
    rw [if_neg hne] at hsplit
    have hjoin : [','].intercalate m.tags = tags := by
      have hlast := congrArg List.getLast? hsplit
      simpa using hlast
    rw [htags] at htag
    exact Split.not_mem_of_mem_splitOn htag

end Metric

end LineProtocol
