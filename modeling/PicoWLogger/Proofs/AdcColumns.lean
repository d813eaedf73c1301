import PicoWLogger.AdcLoggerTask
import PicoWLogger.Proofs.WireRoundTrip
import PicoWLogger.ViewerCsv

/-! ADC records in the CSV. The device separates the values by commas, `ADC_RE` asks for white space and
names; it never matches, and the row leaves the ADC columns empty. -/

namespace PicoWLogger

theorem LogRequest.text_fits (level : LogLevel) (text : List UInt8) :
    (LogRequest.text level text).len.toNat ≤ LOG_PAYLOAD_MAX := by
  rw [LogRequest.text, UInt16.toNat_ofNat']
  simp only [LOG_PAYLOAD_MAX]
  omega

theorem LogRequest.data_text (level : LogLevel) (text : List UInt8) (seq timestampUs : UInt32) :
    ((LogRequest.text level text).event (LogRequest.text_fits level text) seq timestampUs).val.data = text.take 63 := by
  have length : (LogRequest.text level text).len.toNat = min text.length 63 := by
    rw [LogRequest.text, UInt16.toNat_ofNat']
    simp only [LOG_PAYLOAD_MAX]
    omega
  have byte : (LogRequest.text level text).len.toUInt8.toNat = min text.length 63 := by
    rw [UInt16.toNat_toUInt8, length]
    omega
  apply List.ext_getElem
  · simp only [LogEvent.data, LogRequest.event, byte, List.length_take, Vector.length_toList]
    rw [LOG_PAYLOAD_MAX]
    omega
  · intro i first last
    have short := last
    rw [List.length_take] at short
    have inside : i < text.length := by omega
    have counted : i < (LogRequest.text level text).len.toNat := by
      rw [length]
      omega
    simp only [LogEvent.data, LogRequest.event, LogRequest.payload, List.getElem_take, Vector.getElem_toList,
      Vector.getElem_ofFn, if_pos counted]
    simp [LogRequest.text, inside]

namespace LoggerViewer
open DecimalText

def asciiText (bytes : List UInt8) : List Char := bytes.map fun b => Char.ofNat b.toNat

theorem decodeUtf8_ascii {bytes : List UInt8} (ascii : ∀ b ∈ bytes, b < 0x80) : decodeUtf8 bytes = asciiText bytes := by
  induction bytes with
  | nil => simp [decodeUtf8, asciiText]
  | cons b bytes ih =>
    obtain ⟨first, rest⟩ := List.forall_mem_cons.mp ascii
    rw [decodeUtf8, if_pos first, ih rest]
    rfl

theorem csvSafeText_clean {s : List Char} (clean : ∀ c ∈ s, c ≠ '\x00' ∧ c ≠ '\r' ∧ c ≠ '\n') : csvSafeText s = s := by
  induction s with
  | nil => rfl
  | cons c s ih =>
    obtain ⟨⟨zero, cr, lf⟩, rest⟩ := List.forall_mem_cons.mp clean
    have later := ih rest
    rw [csvSafeText] at later ⊢
    rw [List.flatMap_cons, later, if_neg zero, if_neg cr, if_neg lf, List.singleton_append]

section Search
variable {decimalValue : Char → Option Nat}

/-- `ADC_RE` begins with an `A` … -/
theorem matchAdc_head {s : List Char} (other : s.head? ≠ some 'A') : matchAdc decimalValue s = none := by
  have differs : takeLiteral "ADC" s = none := by
    cases s with
    | nil => rfl
    | cons c s =>
      have first : ('A' == c) = false := by
        rw [beq_eq_false_iff_ne]
        rintro rfl
        exact other rfl
      rw [takeLiteral, if_neg]
      change ¬ (('A' == c) && _) = true
      rw [first]
      exact Bool.false_ne_true
  rw [matchAdc, differs]
  rfl

/-- … and has white space behind its first word. -/
theorem matchAdc_comma (s : List Char) : matchAdc decimalValue ('A' :: 'D' :: 'C' :: ',' :: s) = none := by
  have word : takeLiteral "ADC" ('A' :: 'D' :: 'C' :: ',' :: s) = some (',' :: s) := by
    simp [takeLiteral]
  have space : takeRun isSpace (',' :: s) = none := by
    rw [takeRun, List.takeWhile_cons_of_neg (by decide), if_pos rfl]
  rw [matchAdc, word]
  simp only [Option.bind_eq_bind, Option.bind_some]
  rw [space]
  rfl

theorem searchAdc_cons {c : Char} {s : List Char} (here : matchAdc decimalValue (c :: s) = none) :
    searchAdc decimalValue (c :: s) = searchAdc decimalValue s := by
  rw [searchAdc, here]

theorem searchAdc_none {s : List Char} (other : ∀ c ∈ s, c ≠ 'A') : searchAdc decimalValue s = none := by
  induction s with
  | nil => exact matchAdc_head (by decide)
  | cons c s ih =>
    obtain ⟨first, rest⟩ := List.forall_mem_cons.mp other
    rw [searchAdc_cons (matchAdc_head (by simpa using first))]
    exact ih rest

/-- The comma that the task writes behind `ADC` keeps the search from every place of the text. -/
theorem searchAdc_comma {s : List Char} (other : ∀ c ∈ s, c ≠ 'A') :
    searchAdc decimalValue ('A' :: 'D' :: 'C' :: ',' :: s) = none := by
  rw [searchAdc_cons (matchAdc_comma s)]
  apply searchAdc_none
  intro c member
  obtain rfl | rfl | rfl | member : c = 'D' ∨ c = 'C' ∨ c = ',' ∨ c ∈ s := by simpa using member
  · decide
  · decide
  · decide
  · exact other c member

end Search

end LoggerViewer

namespace AdcLoggerTask
open DecimalText LoggerViewer

def Listed (c : UInt8) : Prop := c = ','.toUInt8 ∨ Numeric c

theorem listed_range : ∀ c : UInt8, Listed c → 0x20 < c ∧ c < 0x41 := by
  intro c listed
  rcases listed with rfl | rfl | rfl | ⟨low, high⟩
  · decide
  · decide
  · decide
  · exact ⟨UInt8.lt_of_lt_of_le (by decide : (0x20 : UInt8) < '0'.toUInt8) low,
      UInt8.lt_of_le_of_lt high (by decide : '9'.toUInt8 < (0x41 : UInt8))⟩

def values (timestampMs : UInt32) (raw rawAvg : UInt16) : List UInt8 :=
  decimal timestampMs.toNat ++ ascii "," ++ decimal raw.toNat ++ ascii "," ++ decimal rawAvg.toNat ++ ascii "," ++
    fixed 3 (voltage rawAvg)

theorem text_eq (timestampMs : UInt32) (raw rawAvg : UInt16) :
    text timestampMs raw rawAvg = ascii "ADC," ++ values timestampMs raw rawAvg := by
  simp only [text, values, List.append_assoc]

theorem listed_values (timestampMs : UInt32) (raw rawAvg : UInt16) : ∀ c ∈ values timestampMs raw rawAvg, Listed c := by
  have comma : ∀ c ∈ ascii ",", Listed c := List.forall_mem_singleton.mpr (.inl rfl)
  have number (n : Nat) : ∀ c ∈ decimal n, Listed c := fun c member => .inr (numeric_decimal n c member)
  have volts : ∀ c ∈ fixed 3 (voltage rawAvg), Listed c := fun c member => .inr (numeric_fixed 3 _ c member)
  rw [values]
  simp only [List.forall_mem_append]
  exact ⟨⟨⟨⟨⟨⟨number _, comma⟩, number _⟩, comma⟩, number _⟩, comma⟩, volts⟩

def record (timestampMs : UInt32) (raw rawAvg : UInt16) (seq timestampUs : UInt32) : Record :=
  (request timestampMs raw rawAvg).event (LogRequest.text_fits _ _) seq timestampUs

variable (timestampMs : UInt32) (raw rawAvg : UInt16)

theorem data_record (seq timestampUs : UInt32) :
    (record timestampMs raw rawAvg seq timestampUs).val.data =
      ascii "ADC," ++ (values timestampMs raw rawAvg).take 59 := by
  have front : (ascii "ADC,").length = 4 := rfl
  have cut := LogRequest.data_text LogLevel.INFO (text timestampMs raw rawAvg) seq timestampUs
  rw [text_eq, List.take_append, front, List.take_of_length_le (by rw [front]; decide)] at cut
  rw [← text_eq] at cut
  exact cut

theorem decodeUtf8_data :
    decodeUtf8 (ascii "ADC," ++ (values timestampMs raw rawAvg).take 59) =
      'A' :: 'D' :: 'C' :: ',' :: asciiText ((values timestampMs raw rawAvg).take 59) := by
  apply decodeUtf8_ascii
  have word : ascii "ADC," = [0x41, 0x44, 0x43, 0x2C] := rfl
  rw [word]
  refine List.forall_mem_append.mpr ⟨by decide +kernel, ?_⟩
  intro c member
  have range := listed_range c (listed_values timestampMs raw rawAvg c (List.mem_of_mem_take member))
  exact UInt8.lt_trans range.2 (by decide)

theorem asciiText_values : ∀ c ∈ asciiText ((values timestampMs raw rawAvg).take 59),
    c ≠ 'A' ∧ c ≠ '\x00' ∧ c ≠ '\r' ∧ c ≠ '\n' := by
  intro c member
  obtain ⟨byte, listed, rfl⟩ := List.mem_map.mp member
  have range := listed_range byte (listed_values timestampMs raw rawAvg byte (List.mem_of_mem_take listed))
  have others : ∀ n < 0x41, 0x20 < n →
      Char.ofNat n ≠ 'A' ∧ Char.ofNat n ≠ '\x00' ∧ Char.ofNat n ≠ '\r' ∧ Char.ofNat n ≠ '\n' := by
    decide +kernel
  exact others byte.toNat range.2 range.1

theorem writeCsv_record (decimalValue : Char → Option Nat) (pcTime : List Char) {seq timestampUs : UInt32} {frame : LogFrame}
    (shows' : Shows (record timestampMs raw rawAvg seq timestampUs).val frame) :
    ∃ row, writeCsv decimalValue pcTime frame = .ok row ∧ row.adcRaw = none ∧ row.adcAvg = none ∧ row.adcVoltage = none := by
  have payload := shows'.payload
  rw [data_record] at payload
  have counted : frame.length ≠ 0 := by
    have word : (ascii "ADC,").length = 4 := rfl
    have size := congrArg List.length payload
    have stored : frame.payload.length = (record timestampMs raw rawAvg seq timestampUs).val.length.toNat := by
      rw [shows'.payload]
      exact (record timestampMs raw rawAvg seq timestampUs).length_data
    rw [List.length_append, word] at size
    rw [shows'.length]
    omega
  have shown : payloadToText frame =
      'A' :: 'D' :: 'C' :: ',' :: asciiText ((values timestampMs raw rawAvg).take 59) := by
    have isText : frame.eventId = 200 := shows'.eventId
    rw [payloadToText, if_neg counted, shows'.crcOk, isText, payload]
    exact decodeUtf8_data timestampMs raw rawAvg
  have others := asciiText_values timestampMs raw rawAvg
  have safe : csvSafeText (payloadToText frame) = payloadToText frame := by
    apply csvSafeText_clean
    rw [shown]
    simp only [List.forall_mem_cons]
    exact ⟨by decide, by decide, by decide, by decide, fun c member => (others c member).2⟩
  have found : parseAdcText decimalValue (csvSafeText (payloadToText frame)) = .ok none := by
    rw [safe, shown, parseAdcText, searchAdc_comma fun c member => (others c member).1]
  rw [writeCsv, shows'.crcOk, if_pos rfl, if_pos rfl, found]
  exact ⟨_, rfl, rfl, rfl, rfl⟩

theorem readFrame_record {crc32 : List UInt8 → Nat} (standard : ∀ bytes, crc32 bytes = (Crc32.standard bytes).toNat)
    (seq timestampUs : UInt32) {reader : ByteReader} {rest : List UInt8}
    (delivers : reader.Delivers ((record timestampMs raw rawAvg seq timestampUs).frame ++ rest)) (stats : Stats) :
    ∃ frame later stats', readFrame crc32 reader stats = (some frame, later, stats') ∧
      Shows (record timestampMs raw rawAvg seq timestampUs).val frame := by
  have clean : ¬ LOG_FRAME_MAGIC <:+: [] := by decide
  let burst : Burst := ⟨[], record timestampMs raw rawAvg seq timestampUs, clean⟩
  have bytes : burst.bytes = (record timestampMs raw rawAvg seq timestampUs).frame := by
    rw [Burst.bytes, Record.buildFrame, Option.getD_some, List.nil_append]
  rw [← bytes] at delivers
  obtain ⟨frame, later, stats', read, shows', _⟩ := readFrame_burst crc32 standard burst stats delivers
  exact ⟨frame, later, stats', read, shows'⟩

/-- The ADC columns hold the values of the record, the voltage as the text of the log line gives it. -/
structure Filled (raw rawAvg : UInt16) (row : CsvRow) : Prop where
  adcRaw : row.adcRaw = some raw.toNat
  adcAvg : row.adcAvg = some (rawAvg.toNat : ℚ)
  adcVoltage : ∃ logged, pyFloat (asciiText (fixed 3 (voltage rawAvg))) = some logged ∧ row.adcVoltage = some logged

end AdcLoggerTask

/-- No ADC record fills its columns: whatever the task logs, the viewer reads the frame whole and writes a row for it
with the three columns empty. -/
theorem adc_columns_never_filled (crc32 : List UInt8 → Nat)
    (standard : ∀ bytes, crc32 bytes = (Crc32.standard bytes).toNat) (decimalValue : Char → Option Nat)
    (pcTime : List Char) (timestampMs : UInt32) (raw rawAvg : UInt16) (seq timestampUs : UInt32)
    (reader : LoggerViewer.ByteReader) (rest : List UInt8)
    (stream : reader.stream = (AdcLoggerTask.record timestampMs raw rawAvg seq timestampUs).frame ++ rest)
    (steady : ∀ call, 0 < reader.ready call) (stats : LoggerViewer.Stats) :
    ∃ frame later stats' row, LoggerViewer.readFrame crc32 reader stats = (some frame, later, stats') ∧
      frame.crcOk = true ∧ LoggerViewer.writeCsv decimalValue pcTime frame = .ok row ∧
      (row.adcRaw = none ∧ row.adcAvg = none ∧ row.adcVoltage = none) ∧ ¬ AdcLoggerTask.Filled raw rawAvg row := by
  obtain ⟨frame, later, stats', read, shows'⟩ :=
    AdcLoggerTask.readFrame_record timestampMs raw rawAvg standard seq timestampUs ⟨stream, steady⟩ stats
  obtain ⟨row, written, empty⟩ := AdcLoggerTask.writeCsv_record timestampMs raw rawAvg decimalValue pcTime shows'
  refine ⟨frame, later, stats', row, read, shows'.crcOk, written, empty, ?_⟩
  intro filled
  rw [filled.adcRaw] at empty
  cases empty.1

/-- The digits of ASCII are among the decimal digits. -/
def asciiDigit (c : Char) : Option Nat := if c.isDigit then some (c.toNat - '0'.toNat) else none

theorem adc_columns_never_filled_middle :
    let record := AdcLoggerTask.record 1000 2048 2047 7 1000000
    ∃ frame later stats' row, LoggerViewer.readFrame (fun bytes => (Crc32.calculate bytes).toNat)
        ⟨record.frame ++ [], fun _ => 1⟩ {} = (some frame, later, stats') ∧
      LoggerViewer.writeCsv asciiDigit [] frame = .ok row ∧ ¬ AdcLoggerTask.Filled 2048 2047 row := by
  obtain ⟨frame, later, stats', row, read, _, written, _, missing⟩ :=
    adc_columns_never_filled (fun bytes => (Crc32.calculate bytes).toNat)
      (fun bytes => congrArg BitVec.toNat (Crc32.toBitVec_calculate bytes)) asciiDigit [] 1000 2048 2047 7 1000000
      ⟨(AdcLoggerTask.record 1000 2048 2047 7 1000000).frame ++ [], fun _ => 1⟩ [] rfl (fun _ => Nat.one_pos) {}
  exact ⟨frame, later, stats', row, read, written, missing⟩

/-- The row of `ADC,1000,2048,2047,1.650` is not filled. -/
theorem adc_columns_missed :
    let record := AdcLoggerTask.record 1000 2048 2047 7 1000000
    ¬ ∃ frame later stats' row, LoggerViewer.readFrame (fun bytes => (Crc32.calculate bytes).toNat)
        ⟨record.frame, fun _ => 1⟩ {} = (some frame, later, stats') ∧
      LoggerViewer.writeCsv asciiDigit [] frame = .ok row ∧ AdcLoggerTask.Filled 2048 2047 row := by
  rintro record ⟨frame, later, stats', row, read, written, filled⟩
  have delivers : LoggerViewer.ByteReader.Delivers ⟨record.frame, fun _ => 1⟩ (record.frame ++ []) :=
    ⟨(List.append_nil _).symm, fun _ => Nat.one_pos⟩
  obtain ⟨frame', later', stats'', read', shows'⟩ := AdcLoggerTask.readFrame_record 1000 2048 2047
    (fun bytes => congrArg BitVec.toNat (Crc32.toBitVec_calculate bytes)) 7 1000000 delivers {}
  cases read.symm.trans read'
  obtain ⟨row', written', empty, _⟩ := AdcLoggerTask.writeCsv_record 1000 2048 2047 asciiDigit [] shows'
  cases written.symm.trans written'
  rw [filled.adcRaw] at empty
  cases empty

end PicoWLogger
