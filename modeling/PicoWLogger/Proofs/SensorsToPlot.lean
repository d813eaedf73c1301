import PicoWLogger.Proofs.EnvironmentTask
import PicoWLogger.Proofs.SensorPlot

/-! The tasks and the plot put together: whole runs of all tasks that log, whose lines meet in the log in any order, and the
tables that the plot is drawn from. -/

namespace PicoWLogger.SensorPlot
open DecimalText LoggerViewer PyText AdcLoggerTask TemperatureTask DisplaySystem

inductive Source where
  | adc
  | display
  | environment
  | startUp
  deriving DecidableEq

/-- A request that passed the length check, and what `makeEvent` adds. -/
structure Line where
  source : Source
  request : LogRequest
  fits : request.len.toNat ≤ LOG_PAYLOAD_MAX
  seq : UInt32
  timestampUs : UInt32

def Line.record (line : Line) : Record := line.request.event line.fits line.seq line.timestampUs

def requests (source : Source) (lines : List Line) : List LogRequest :=
  (lines.filter fun line => line.source = source).map Line.request

def startTexts : List (List UInt8) := [ascii "temperature task start", ascii "AQM0802 init OK", ascii "AQM0802 init NG"]

section Texts

/-- The payload of a request as far as its length. -/
def shown (request : LogRequest) : List UInt8 := request.payload.toList.take request.len.toUInt8.toNat

theorem isTemp_take (text : List UInt8) : isTemp (text.take 63) = isTemp text := by
  rcases Nat.le_total text.length 63 with short | long
  · rw [List.take_of_length_le short]
  · conv => rhs; rw [← List.take_append_drop 63 text]
    exact (isTemp_append (by rw [List.length_take]; omega) _).symm

theorem shown_text (level : LogLevel) (text : List UInt8) : shown (LogRequest.text level text) = text.take 63 :=
  LogRequest.data_text level text 0 0

def Makes (note : Note) (request : LogRequest) : Prop :=
  note.Sane ∧ ∃ level, request = LogRequest.text level note.text

theorem Makes.written {note : Note} {line : Line} (makes : Makes note line.request) : Written line.record := by
  obtain ⟨source, request, fits, seq, timestampUs⟩ := line
  obtain ⟨sane, level, rfl⟩ := makes
  obtain ⟨some', plain⟩ := Note.text_plain sane
  exact .of_text some' plain level seq timestampUs

theorem Makes.isTemp {timestampMs : UInt32} {reading : Option Int16} {request : LogRequest}
    (makes : Makes (.temp timestampMs reading) request) : isTemp (shown request) = true := by
  obtain ⟨-, level, rfl⟩ := makes
  have short := length_tempText timestampMs reading reading.isSome
  rw [shown_text, Note.text, List.take_of_length_le (Nat.le_of_lt_succ short)]
  exact isTemp_tempText _ _ _

/-- The texts of the temperature task that are no records begin in another way. -/
theorem other_sane (n : Nat) : (Note.other (ascii "AEADT7410 init OK")).Sane ∧
    (Note.other (ascii "TEMP_TASK_HWM," ++ decimal n)).Sane ∧
    (Note.other (ascii "DisplayMode changed: " ++ decimal n)).Sane := by
  have number : ∀ b ∈ decimal n, Plain b := fun b member => plain_numeric (numeric_decimal n b member)
  have begins {name front : List UInt8} (short : name.length ≤ front.length) (other : ¬ name <+: front) (back : List UInt8) :
      ¬ name <+: front ++ back :=
    fun here => other (List.prefix_of_prefix_length_le here (List.prefix_append front back) short)
  have plain : (∀ b ∈ ascii "AEADT7410 init OK", Plain b) ∧ (∀ b ∈ ascii "TEMP_TASK_HWM,", Plain b) ∧
      ∀ b ∈ ascii "DisplayMode changed: ", Plain b := by decide +kernel
  refine ⟨⟨by decide, plain.1, by decide, by decide⟩,
    ⟨List.cons_ne_nil _ _, ?_, begins (by decide) (by decide) _, begins (by decide) (by decide) _⟩,
    ⟨List.cons_ne_nil _ _, ?_, begins (by decide) (by decide) _, begins (by decide) (by decide) _⟩⟩
  · exact List.forall_mem_append.mpr ⟨plain.2.1, number⟩
  · exact List.forall_mem_append.mpr ⟨plain.2.2, number⟩

def Spoken (text : List UInt8) : Prop :=
  (∃ timestampMs reading, text = (Note.temp timestampMs reading).text) ∨ (Note.other text).Sane

/-- A text with another first letter. -/
theorem sane_head {text : List UInt8} {b : UInt8} (first : text.head? = some b) (other : b ≠ 'A'.toUInt8 ∧ b ≠ 'T'.toUInt8)
    (plain : ∀ b ∈ text, Plain b) : (Note.other text).Sane := by
  refine ⟨?_, plain, ?_, ?_⟩
  · rintro rfl
    cases first
  · rintro ⟨rest, rfl⟩
    exact other.1 (Option.some.inj first).symm
  · rintro ⟨rest, rfl⟩
    exact other.2 (Option.some.inj first).symm

theorem makes_start {text : List UInt8} (member : text ∈ startTexts) :
    Makes (.other text) (LogRequest.text LogLevel.INFO text) := by
  have plain : ∀ text ∈ startTexts, ∀ b ∈ text, Plain b := by decide +kernel
  refine ⟨?_, LogLevel.INFO, rfl⟩
  rcases List.mem_cons.mp member with rfl | member'
  · exact sane_head rfl (by decide) (plain _ member)
  · rcases List.mem_cons.mp member' with rfl | last
    · exact ⟨by decide, plain _ member, by decide, by decide⟩
    · rw [List.mem_singleton.mp last] at member ⊢
      exact ⟨by decide, plain _ member, by decide, by decide⟩

theorem makes_environment {bus : SensorBus} {turns : List EnvironmentTurn} {done : EnvironmentTask} {requests : List LogRequest}
    (ran : (EnvironmentTask.boot bus).turns turns = .ok (done, requests)) {request : LogRequest} (member : request ∈ requests) :
    ∃ text, Makes (.other text) request := by
  obtain ⟨reports, -, -, rfl, -⟩ := EnvironmentTask.turns_reports (EnvironmentTask.boot_mutex bus) ran
  obtain ⟨⟨t, reading⟩, -, here⟩ := List.mem_flatMap.mp member
  have number (n : Nat) : ∀ b ∈ decimal n, Plain b := fun b member => plain_numeric (numeric_decimal n b member)
  have real (q : ℚ) : ∀ b ∈ fixed 2 q, Plain b := fun b member => plain_numeric (numeric_fixed 2 q b member)
  have names : (∀ b ∈ ascii "ENV,", Plain b) ∧ (∀ b ∈ ascii ",", Plain b) ∧ ∀ b ∈ ascii ",ERR", Plain b := by decide +kernel
  obtain ⟨name, comma, missing⟩ := names
  rw [EnvironmentTask.logf] at here
  split at here
  · cases here
  · refine ⟨_, ?_, LogLevel.INFO, List.mem_singleton.mp here⟩
    cases reading with
    | none =>
      refine sane_head rfl (by decide : 'E'.toUInt8 ≠ _ ∧ _) ?_
      simp only [EnvironmentTask.errText, List.forall_mem_append]
      exact ⟨⟨name, number _⟩, missing⟩
    | some c =>
      refine sane_head rfl (by decide : 'E'.toUInt8 ≠ _ ∧ _) ?_
      simp only [EnvironmentTask.envText, List.forall_mem_append]
      exact ⟨⟨⟨⟨⟨⟨⟨name, number _⟩, comma⟩, real _⟩, comma⟩, real _⟩, comma⟩, real _⟩

theorem spoken_logged {logPaused : Bool} {texts : List (List UInt8)} (each : ∀ text ∈ texts, Spoken text) :
    ∀ text ∈ logged logPaused texts, Spoken text := by
  rw [logged]
  split
  · exact List.forall_mem_nil _
  · exact each

theorem spoken_finish (task : TemperatureTask) (t : Turn) (reading : Option Int16) :
    ∀ text ∈ (task.finish t reading).2.1, Spoken text := by
  have optional {c : Prop} [Decidable c] {line : List UInt8} (spoken : Spoken line) :
      ∀ text ∈ (if c then logged t.logPaused [line] else []), Spoken text := by
    split
    · exact spoken_logged (List.forall_mem_singleton.mpr spoken)
    · exact List.forall_mem_nil _
  simp only [finish, List.forall_mem_append]
  refine ⟨⟨spoken_logged (List.forall_mem_singleton.mpr (.inl ⟨t.timestampMs, reading, rfl⟩)), optional ?_⟩, optional ?_⟩
  · exact .inr (other_sane _).2.1
  · exact .inr (other_sane _).2.2

theorem spoken_turn (task : TemperatureTask) (t : Turn) : ∀ text ∈ (task.turn t).2.1, Spoken text := by
  have zero : (0 : ℚ) / 128 = 0 := zero_div 128
  have missed : Spoken (tempText t.timestampMs 0 false) := by
    refine .inl ⟨t.timestampMs, none, ?_⟩
    rw [Note.text, Option.elim_none, Int.cast_zero, zero]
    rfl
  rw [turn]
  split
  · exact List.forall_mem_nil _
  · split
    · exact spoken_finish task t _
    · simp only
      split
      · exact spoken_logged (List.forall_mem_singleton.mpr missed)
      · refine List.forall_mem_append.mpr ⟨?_, spoken_finish _ t _⟩
        exact spoken_logged (List.forall_mem_singleton.mpr (.inr (other_sane 0).1))

/-- In every run all texts are of these kinds, by induction on the steps. -/
theorem spoken_run {level : Nat → Bool} (steps : List DisplayStep) {s : DisplaySystem}
    (spoken : ∀ text ∈ s.texts, Spoken text) : ∀ text ∈ (s.run level steps).texts, Spoken text := by
  induction steps generalizing s with
  | nil => exact spoken
  | cons step rest ih =>
    refine @ih (s.step level step) ?_
    cases step with
    | button => exact spoken
    | turn t => exact List.forall_mem_append.mpr ⟨spoken, spoken_turn s.temperature t⟩

end Texts

section Rows
variable {decimalValue : Char → Option Nat} (unicode : Unicode isSpace decimalValue)

def rowOf (decimalValue : Char → Option Nat) (request : LogRequest) : Option (AdcRow ⊕ TempRow) :=
  parseMsg decimalValue (chars (shown request))

def adcRows (r : Report) : List AdcRow := if r.1.logPaused then [] else [adcRow r.1.timestampMs r.1.raw r.2]

def tempRequests (r : Turn × Option Int16) : List LogRequest := (tempTexts r.1 r.2).map (LogRequest.text LogLevel.INFO)

def tempRows (r : Turn × Option Int16) : List TempRow := if r.1.logPaused then [] else [tempRow r.1.timestampMs r.2]

theorem length_adcRows (r : Report) : (adcRows r).length = (entries r).length := by
  rw [adcRows, entries]
  split <;> rfl

theorem length_tempRows (r : Turn × Option Int16) : (tempRows r).length = (tempRequests r).length := by
  rw [tempRows, tempRequests, tempTexts, logged]
  split <;> rfl

theorem filterMap_of_filter {α β : Type} {p : α → Bool} {f : α → Option β} {items : List α}
    (none' : ∀ a ∈ items, p a = false → f a = none) : (items.filter p).filterMap f = items.filterMap f := by
  rw [List.filterMap_filter]
  refine List.filterMap_congr fun a member => ?_
  cases kept : p a with
  | true => exact if_pos rfl
  | false => exact (none' a member kept).symm

/-- Where every item yields one at most, a part of what they yield is what a part of them yields. -/
theorem exists_kept {α β : Type} {f : α → List β} (single : ∀ a, (f a).length ≤ 1) {items : List β} {all : List α}
    (part : items.Sublist (all.flatMap f)) : ∃ kept : List α, kept.Sublist all ∧ items = kept.flatMap f := by
  induction all generalizing items with
  | nil => exact ⟨[], List.nil_sublist _, List.sublist_nil.mp part⟩
  | cons a rest ih =>
    rw [List.flatMap_cons] at part
    obtain ⟨front, back, rfl, here, later⟩ := List.sublist_append_iff.mp part
    obtain ⟨kept, fewer, rfl⟩ := ih later
    cases front with
    | nil => exact ⟨kept, fewer.cons a, rfl⟩
    | cons b front =>
      have whole : b :: front = f a := here.eq_of_length_le ((single a).trans (Nat.le_add_left _ _))
      exact ⟨a :: kept, fewer.cons_cons a, by rw [whole, List.flatMap_cons]⟩

include unicode

theorem Makes.row {note : Note} {request : LogRequest} (makes : Makes note request) :
    rowOf decimalValue request = note.row := by
  obtain ⟨sane, level, rfl⟩ := makes
  rw [rowOf, shown_text]
  exact parse_note unicode sane

theorem rows_adc {reports : List Report} (twelve : ∀ r ∈ reports, r.2 < 4096) :
    (reports.flatMap entries).filterMap (rowOf decimalValue) = (reports.flatMap adcRows).map Sum.inl := by
  induction reports with
  | nil => rfl
  | cons r rest ih =>
    obtain ⟨first, later⟩ := List.forall_mem_cons.mp twelve
    have makes : Makes (.adc r.1.timestampMs r.1.raw r.2) (request r.1.timestampMs r.1.raw r.2) := ⟨first, LogLevel.INFO, rfl⟩
    have here : (entries r).filterMap (rowOf decimalValue) = (adcRows r).map Sum.inl := by
      rw [entries, adcRows]
      split
      · rfl
      · rw [List.filterMap_cons, makes.row unicode]
        rfl
    rw [List.flatMap_cons, List.flatMap_cons, List.filterMap_append, List.map_append, here, ih later]

end Rows

section Lines
variable {lines : List Line}

/-- The note of a line, with a row only when one of the two tasks made it. -/
structure Noted (line : Line) (note : Note) : Prop where
  makes : Makes note line.request
  adc : line.source ≠ .adc → note.row.bind Sum.getLeft? = none
  display : line.source ≠ .display → note.row.bind Sum.getRight? = none

theorem makes_adc {reports : List Report} (twelve : ∀ r ∈ reports, r.2 < 4096) {request : LogRequest}
    (member : request ∈ reports.flatMap entries) : ∃ timestampMs raw rawAvg, Makes (.adc timestampMs raw rawAvg) request := by
  obtain ⟨r, inside, here⟩ := List.mem_flatMap.mp member
  rw [entries] at here
  split at here
  · cases here
  · exact ⟨r.1.timestampMs, r.1.raw, r.2, twelve r inside, LogLevel.INFO, List.mem_singleton.mp here⟩

theorem makes_display {texts : List (List UInt8)} (spoken : ∀ text ∈ texts, Spoken text) {request : LogRequest}
    (member : request ∈ texts.map (LogRequest.text LogLevel.INFO)) :
    (∃ timestampMs reading, Makes (.temp timestampMs reading) request) ∨
      isTemp (shown request) = false ∧ ∃ text, Makes (.other text) request := by
  obtain ⟨text, inside, rfl⟩ := List.mem_map.mp member
  rcases spoken text inside with ⟨timestampMs, reading, rfl⟩ | sane
  · exact .inl ⟨timestampMs, reading, trivial, LogLevel.INFO, rfl⟩
  · refine .inr ⟨?_, text, sane, LogLevel.INFO, rfl⟩
    rw [shown_text, isTemp, Bool.eq_false_iff, ne_eq, List.isPrefixOf_iff_prefix]
    exact fun begins => sane.2.2.2 (begins.trans (List.take_prefix _ _))

theorem noted_line {reports : List Report} (twelve : ∀ r ∈ reports, r.2 < 4096) {texts : List (List UInt8)}
    (spoken : ∀ text ∈ texts, Spoken text) (adc : (requests .adc lines).Sublist (reports.flatMap entries))
    (display : (requests .display lines).Sublist (texts.map (LogRequest.text LogLevel.INFO)))
    (environment : ∀ request ∈ requests .environment lines, ∃ text, Makes (.other text) request)
    (startUp : ∀ request ∈ requests .startUp lines, ∃ text, Makes (.other text) request) {line : Line}
    (inside : line ∈ lines) : ∃ note, Noted line note := by
  have asked {source : Source} (same : line.source = source) : line.request ∈ requests source lines :=
    List.mem_map_of_mem (List.mem_filter.mpr ⟨inside, decide_eq_true same⟩)
  cases isSource : line.source with
  | adc =>
    obtain ⟨timestampMs, raw, rawAvg, makes⟩ := makes_adc twelve (adc.subset (asked isSource))
    exact ⟨.adc timestampMs raw rawAvg, makes, fun other => absurd isSource other, fun _ => rfl⟩
  | display =>
    rcases makes_display spoken (display.subset (asked isSource)) with ⟨timestampMs, reading, makes⟩ | ⟨-, text, makes⟩
    · exact ⟨.temp timestampMs reading, makes, fun _ => rfl, fun other => absurd isSource other⟩
    · exact ⟨.other text, makes, fun _ => rfl, fun _ => rfl⟩
  | environment =>
    obtain ⟨text, makes⟩ := environment _ (asked isSource)
    exact ⟨.other text, makes, fun _ => rfl, fun _ => rfl⟩
  | startUp =>
    obtain ⟨text, makes⟩ := startUp _ (asked isSource)
    exact ⟨.other text, makes, fun _ => rfl, fun _ => rfl⟩

/-- One of the tables has the rows of one task. -/
theorem rows_source {γ : Type} {side : AdcRow ⊕ TempRow → Option γ} {source : Source} {decimalValue : Char → Option Nat}
    (one : ∀ line ∈ lines, line.source ≠ source → (rowOf decimalValue line.request).bind side = none) :
    ((lines.map Line.record).filterMap fun record => parseMsg decimalValue (chars record.val.data)).filterMap side =
      ((requests source lines).filterMap (rowOf decimalValue)).filterMap side := by
  rw [List.filterMap_map, List.filterMap_filterMap, requests, List.filterMap_map, List.filterMap_filterMap]
  exact (filterMap_of_filter fun line inside other => one line inside (of_decide_eq_false other)).symm

variable {decimalValue : Char → Option Nat} (unicode : Unicode isSpace decimalValue) {items : List LogRequest}
include unicode

/-- What is left of the requests of the ADC task are those of some turns, and its rows are theirs. -/
theorem voltages_part {reports : List Report} (twelve : ∀ r ∈ reports, r.2 < 4096)
    (part : items.Sublist (reports.flatMap entries)) :
    ∃ kept : List Report, kept.Sublist reports ∧ items = kept.flatMap entries ∧
      (items.filterMap (rowOf decimalValue)).filterMap Sum.getLeft? = kept.flatMap adcRows := by
  have single (r : Report) : (entries r).length ≤ 1 := by
    rw [entries]
    split
    · exact Nat.zero_le 1
    · exact Nat.le_refl 1
  obtain ⟨kept, fewer, rfl⟩ := exists_kept single part
  refine ⟨kept, fewer, rfl, ?_⟩
  rw [rows_adc unicode fun r member => twelve r (fewer.subset member), List.filterMap_map]
  exact List.filterMap_some

/-- Of what is left of the requests of the temperature task the records are those of some turns, and its rows are theirs. -/
theorem temperatures_part {texts : List (List UInt8)} (spoken : ∀ text ∈ texts, Spoken text)
    {readings : List (Turn × Option Int16)} (records : texts.filter isTemp = readings.flatMap fun r => tempTexts r.1 r.2)
    (part : items.Sublist (texts.map (LogRequest.text LogLevel.INFO))) :
    ∃ kept : List (Turn × Option Int16), kept.Sublist readings ∧
      items.filter (fun request => isTemp (shown request)) = kept.flatMap tempRequests ∧
      (items.filterMap (rowOf decimalValue)).filterMap Sum.getRight? = kept.flatMap tempRows := by
  have single (r : Turn × Option Int16) : (tempRequests r).length ≤ 1 := by
    rw [tempRequests, tempTexts, logged]
    split
    · exact Nat.zero_le 1
    · exact Nat.le_refl 1
  have begins (text : List UInt8) : isTemp (shown (LogRequest.text LogLevel.INFO text)) = isTemp text := by
    rw [shown_text]
    exact isTemp_take text
  have recorded : (items.filter fun request => isTemp (shown request)).Sublist (readings.flatMap tempRequests) := by
    have fewer := part.filter fun request => isTemp (shown request)
    rw [List.filter_map] at fewer
    simp only [Function.comp_def, begins, records, List.map_flatMap] at fewer
    exact fewer
  obtain ⟨kept, fewer, same⟩ := exists_kept single recorded
  refine ⟨kept, fewer, same, ?_⟩
  have others (request : LogRequest) (member : request ∈ items) (other : isTemp (shown request) = false) :
      (rowOf decimalValue request).bind Sum.getRight? = none := by
    rcases makes_display spoken (part.subset member) with ⟨timestampMs, reading, makes⟩ | ⟨-, text, makes⟩
    · rw [makes.isTemp] at other
      cases other
    · rw [makes.row unicode]
      rfl
  rw [List.filterMap_filterMap, ← filterMap_of_filter others, same, List.filterMap_flatMap]
  refine List.flatMap_congr fun r _ => ?_
  have makes : Makes (.temp r.1.timestampMs r.2)
      (LogRequest.text LogLevel.INFO (tempText r.1.timestampMs (r.2.elim 0 Int16.toInt / 128) r.2.isSome)) :=
    ⟨trivial, LogLevel.INFO, rfl⟩
  rw [tempRequests, tempTexts, tempRows, logged]
  split
  · rfl
  · rw [List.map_cons, List.filterMap_cons, makes.row unicode]
    rfl

end Lines

/-- From the sensors to the plot: whole runs of the three tasks that log, what is recorded of their lines in any order, the frames
on the wire, what the viewer prints for them, and the tables that are read back from it. They have, for each recorded line of
a voltage or a temperature, the row of the turn that logged it and no other row, in the order of the turns, with the mean of the
last samples and with the register that the turn read. -/
theorem sensors_reach_plot (crc32 : List UInt8 → Nat) (standard : ∀ bytes, crc32 bytes = (Crc32.standard bytes).toNat)
    (decimalValue : Char → Option Nat) (digit : ∀ n < 10, decimalValue (digitChar n) = some n)
    (memory : MovingAverage UInt16 N Int64) (adcTurns : List AdcTurn) (twelve : ∀ t ∈ adcTurns, t.raw < 4096)
    (level : Nat → Bool) (lcdInitialized : Bool) (steps : List DisplayStep)
    (bus : SensorBus) (environmentTurns : List EnvironmentTurn) (done : EnvironmentTask) (environmentRequests : List LogRequest)
    (ran : (EnvironmentTask.boot bus).turns environmentTurns = .ok (done, environmentRequests)) (lines : List Line)
    (adc : (requests .adc lines).Sublist ((AdcTask.start memory).run adcTurns).2)
    (display : (requests .display lines).Sublist
      (((start level (adt7410 false) lcdInitialized).run level steps).texts.map (LogRequest.text LogLevel.INFO)))
    (environment : (requests .environment lines).Sublist environmentRequests)
    (startUp : ∀ request ∈ requests .startUp lines, ∃ text ∈ startTexts, request = LogRequest.text LogLevel.INFO text)
    (reader : ByteReader) (stream : reader.stream = (lines.map Line.record).flatMap Record.frame)
    (steady : ∀ call, 0 < reader.ready call) (file : Bool) (due : Nat → Option ℚ) (elapsed : ℚ) (turns : Nat)
    (enough : lines.length ≤ turns) (stats : Stats) :
    ∃ (averages : List UInt16) (readings : List (Turn × Option Int16)),
      averages.length = adcTurns.length ∧
      (∀ i avg, averages[i]? = some avg → avg.toNat = mean ((adcTurns.take (i + 1)).map AdcTurn.raw)) ∧
      readings.map Prod.fst = active steps ∧ Readings false readings ∧
      let tables := parseLogFile decimalValue (output crc32 (fun _ => true) file 0 false due elapsed turns reader stats)
      ∃ (keptReports : List Report) (keptReadings : List (Turn × Option Int16)),
        keptReports.Sublist (adcTurns.zip averages) ∧ requests .adc lines = keptReports.flatMap entries ∧
        tables.1 = keptReports.flatMap adcRows ∧ tables.1.length = (requests .adc lines).length ∧
        keptReadings.Sublist readings ∧
        (requests .display lines).filter (fun request => isTemp (shown request)) = keptReadings.flatMap tempRequests ∧
        tables.2 = keptReadings.flatMap tempRows ∧
        tables.2.length = ((requests .display lines).filter fun request => isTemp (shown request)).length := by
  have unicode := unicode_digits digit
  obtain ⟨averages, length, means, reported, -⟩ := @run_reports (.start memory) [] (MovingAverage.Tracks.reset memory) adcTurns
  obtain ⟨-, reports⟩ := averages_lt twelve length means
  obtain ⟨readings, read, made, records, -⟩ := @run_records level steps (start level (adt7410 false) lcdInitialized) rfl
  have spoken := @spoken_run level steps (start level (adt7410 false) lcdInitialized) (List.forall_mem_nil _)
  have small (r : Report) (member : r ∈ adcTurns.zip averages) : r.2 < 4096 := (reports r member).2
  rw [reported] at adc
  have noted {line : Line} (inside : line ∈ lines) : ∃ note, Noted line note := by
    refine noted_line small spoken adc display (fun request member => makes_environment ran (environment.subset member)) ?_ inside
    intro request member
    obtain ⟨text, isStart, rfl⟩ := startUp request member
    exact ⟨text, makes_start isStart⟩
  have written : ∀ record ∈ lines.map Line.record, Written record := by
    intro record member
    obtain ⟨line, inside, rfl⟩ := List.mem_map.mp member
    obtain ⟨note, note'⟩ := noted inside
    exact note'.makes.written
  have enough' : (lines.map Line.record).length ≤ turns := by rwa [List.length_map]
  have printed : Prints decimalValue (output crc32 (fun _ => true) file 0 false due elapsed turns reader stats) _ :=
    output_frames file due elapsed standard written enough' stats ⟨stream, steady⟩
  -- the other lines have no row in a task's table
  have voltages := @rows_source lines AdcRow Sum.getLeft? .adc decimalValue fun line inside other => by
    obtain ⟨note, note'⟩ := noted inside
    rw [note'.makes.row unicode]
    exact note'.adc other
  have temperatures := @rows_source lines TempRow Sum.getRight? .display decimalValue fun line inside other => by
    obtain ⟨note, note'⟩ := noted inside
    rw [note'.makes.row unicode]
    exact note'.display other
  refine ⟨averages, readings, length, means, read, made, ?_⟩
  rw [Prints.tables printed, voltages, temperatures]
  obtain ⟨keptReports, fewerReports, recorded, adcRows'⟩ := voltages_part unicode small adc
  obtain ⟨keptReadings, fewerReadings, recorded', tempRows'⟩ := temperatures_part unicode spoken records display
  refine ⟨keptReports, keptReadings, fewerReports, recorded, adcRows', ?_, fewerReadings, recorded', tempRows', ?_⟩
  · rw [adcRows', recorded]
    simp only [List.length_flatMap, length_adcRows]
  · rw [tempRows', recorded']
    simp only [List.length_flatMap, length_tempRows]

/-- A warm thermometer, of whose turn only the record is left, and a full voltage; the other sensor could not be read. -/
theorem sensors_reach_plot_warm :
    let t : Turn :=
      { maintenanceBusy := false
        timestampMs := 1000
        bus := { registers := fun _ r => if r = 0 then 0x0C else 0x80, pointer := 0, transfers := fun _ => .sent }
        logPaused := false
        stackHighWaterMark := 0
        shown :=
          { adc := none
            logCount := 0
            bme280 :=
              (EnvironmentTask.boot { registers := fun _ _ => 0, pointer := 0, transfers := fun _ => .failed }).getLatestBme280Values
            wifi := .initial } }
    let line (source : Source) (text : List UInt8) (seq : UInt32) : Line :=
      ⟨source, LogRequest.text LogLevel.INFO text, LogRequest.text_fits _ _, seq, 1000 * seq⟩
    let lines := [line .startUp (ascii "temperature task start") 6, line .adc (AdcLoggerTask.text 1000 4095 4095) 8,
      line .environment (EnvironmentTask.errText 1000) 9, line .display (tempText 1000 25 true) 10]
    let reader : ByteReader := ⟨(lines.map Line.record).flatMap Record.frame, fun _ => 1⟩
    ∃ reading, Finds false t.bus reading ∧
      parseLogFile asciiDigit
          (output (fun bytes => (Crc32.calculate bytes).toNat) (fun _ => true) true 0 false (fun _ => none) 12 5 reader {}) =
        ([adcRow 1000 4095 4095], [tempRow 1000 reading]) := by
  intro t line lines reader
  let memory : MovingAverage UInt16 N Int64 := ⟨Vector.replicate 16 0, ⟨0, by decide⟩, 0, 0⟩
  have spoken : ((start (fun _ => true) (adt7410 false) true).run (fun _ => true) [.turn t]).texts =
      [ascii "AEADT7410 init OK", tempText 1000 25 true] := by decide +kernel
  have averaged : ((AdcTask.start memory).adcAvg.add 4095).average = 4095 := by decide +kernel
  have adc : (requests .adc lines).Sublist ((AdcTask.start memory).run [⟨4095, 1000, false⟩]).2 := by
    change List.Sublist _ [request 1000 4095 ((AdcTask.start memory).adcAvg.add 4095).average]
    rw [averaged]
    exact List.Sublist.refl _
  have ran : (EnvironmentTask.boot { registers := fun _ _ => 0, pointer := 0, transfers := fun _ => .failed }).turns
      [⟨false, 1000, { registers := fun _ _ => 0, pointer := 0, transfers := fun _ => .failed }, false⟩] =
      .ok (_, [LogRequest.text LogLevel.INFO (EnvironmentTask.errText 1000)]) := rfl
  have display : (requests .display lines).Sublist
      (((start (fun _ => true) (adt7410 false) true).run (fun _ => true) [.turn t]).texts.map (LogRequest.text LogLevel.INFO)) := by
    rw [spoken]
    exact List.sublist_cons_self _ _
  obtain ⟨averages, readings, length, means, turns, read, reports, records, fewer, -, voltages, one, fewer', -, temperatures, one'⟩ :=
    sensors_reach_plot
    (fun bytes => (Crc32.calculate bytes).toNat) (fun bytes => congrArg BitVec.toNat (Crc32.toBitVec_calculate bytes)) asciiDigit
    (by decide) memory [⟨4095, 1000, false⟩] (by decide) (fun _ => true) true [.turn t] _ _ _ _ ran lines adc display
    (List.Sublist.refl _) (List.forall_mem_singleton.mpr ⟨_, List.mem_cons_self, rfl⟩) reader rfl (fun _ => Nat.one_pos) true
    (fun _ => none) 12 5 (by decide) {}
  obtain ⟨average, rfl⟩ := List.length_eq_one_iff.mp length
  have single : readings.length = 1 := (List.length_map Prod.fst).symm.trans (congrArg List.length turns)
  obtain ⟨⟨t', reading⟩, rfl⟩ := List.length_eq_one_iff.mp single
  obtain rfl : t' = t := (List.cons.inj turns).1
  obtain rfl : average = 4095 := UInt16.toNat.inj ((means 0 average rfl).trans (by decide))
  have record : ((requests .display lines).filter fun request => isTemp (shown request)).length = 1 := by decide +kernel
  have voltages' := fewer.flatMap adcRows
  have temperatures' := fewer'.flatMap tempRows
  rw [← voltages] at voltages'
  rw [← temperatures] at temperatures'
  exact ⟨reading, read.1, Prod.ext (voltages'.eq_of_length one) (temperatures'.eq_of_length (one'.trans record))⟩

end PicoWLogger.SensorPlot
