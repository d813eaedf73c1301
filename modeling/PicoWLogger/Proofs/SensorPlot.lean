import PicoWLogger.Proofs.AdcRecords
import PicoWLogger.Proofs.TemperatureTask
import PicoWLogger.Proofs.ViewerLoop
import PicoWLogger.SensorPlot
import PicoWLogger.ViewerOutput

/-! From the texts of the tasks to the tables of the plot: what the viewer prints is read back row by row, and the numbers
are those that were measured. -/

namespace PicoWLogger
open DecimalText PyText

namespace SensorPlot
open LoggerViewer

section Message

theorem matchMsg_none {s : List Char} (missing : ¬ "msg=\x22".toList <+: s) : matchMsg s = none := by
  have literal : takeLiteral "msg=\x22" s = none := by
    rw [takeLiteral, if_neg (mt List.isPrefixOf_iff_prefix.mp missing)]
  rw [matchMsg, literal]
  rfl

theorem matchMsg_head (s : List Char) (other : s.head? ≠ some 'm') : matchMsg s = none := by
  apply matchMsg_none
  rintro ⟨rest, rfl⟩
  exact other rfl

theorem matchMsg_quoted {msg : List Char} (some' : msg ≠ []) (clean : '\x22' ∉ msg) (rest : List Char) :
    matchMsg ("msg=\x22".toList ++ (msg ++ '\x22' :: rest)) = some msg := by
  have inside : ∀ c ∈ msg, decide (c ≠ '\x22') = true := fun c member => decide_eq_true fun quote => clean (quote ▸ member)
  have run : takeRun (fun c => decide (c ≠ '\x22')) (msg ++ '\x22' :: rest) = some (msg, '\x22' :: rest) := by
    rw [takeRun, List.takeWhile_append_of_pos inside, List.dropWhile_append_of_pos inside,
      List.takeWhile_cons_of_neg (by decide), List.dropWhile_cons_of_neg (by decide), List.append_nil, if_neg some']
  have literal : takeLiteral "msg=\x22" ("msg=\x22".toList ++ (msg ++ '\x22' :: rest)) = some (msg ++ '\x22' :: rest) := by
    rw [takeLiteral, if_pos (List.isPrefixOf_iff_prefix.mpr (List.prefix_append _ _)), List.drop_left]
  have quote : takeLiteral "\x22" ('\x22' :: rest) = some rest := rfl
  rw [matchMsg, literal]
  simp only [Option.bind_eq_bind, Option.bind_some, run, quote]
  rfl

/-- The message of a line with nothing like one in front of it. -/
theorem extractMsg_quoted {front msg : List Char} (before : 'm' ∉ front) (some' : msg ≠ []) (clean : '\x22' ∉ msg)
    (rest : List Char) : extractMsg (front ++ ("msg=\x22".toList ++ (msg ++ '\x22' :: rest))) = some msg := by
  rw [extractMsg, search_skip matchMsg_head before]
  exact search_found (matchMsg_quoted some' clean rest)

theorem extractMsg_unquoted {line : List Char} (clean : '\x22' ∉ line) : extractMsg line = none := by
  refine search_none fun back suffix => matchMsg_none fun isPrefix => clean ?_
  exact suffix.subset (isPrefix.subset (by decide))

end Message

section Lines

def OneLine (s : List Char) : Prop := '\n' ∉ s ∧ '\r' ∉ s

instance (s : List Char) : Decidable (OneLine s) := inferInstanceAs (Decidable (_ ∧ _))

theorem oneLine_append {front back : List Char} : OneLine (front ++ back) ↔ OneLine front ∧ OneLine back := by
  simp only [OneLine, List.mem_append, not_or]
  tauto

theorem mem_str {n : Nat} {c : Char} (member : c ∈ str n) : c.isDigit = true :=
  Nat.isDigit_of_mem_toDigits (by decide) (by decide) member

theorem not_mem_str {c : Char} (other : c.isDigit = false) (n : Nat) : c ∉ str n := fun member => by
  rw [mem_str member] at other
  cases other

theorem oneLine_str (n : Nat) : OneLine (str n) := ⟨not_mem_str (by decide) n, not_mem_str (by decide) n⟩

theorem oneLine_intercalate {parts : List (List Char)} (each : ∀ part ∈ parts, OneLine part) :
    OneLine ([' '].intercalate parts) := by
  induction parts with
  | nil => exact ⟨by decide, by decide⟩
  | cons part rest ih =>
    obtain ⟨first, later⟩ := List.forall_mem_cons.mp each
    cases rest with
    | nil => rwa [List.intercalate_singleton]
    | cons next rest =>
      rw [List.intercalate_cons_cons]
      exact oneLine_append.mpr ⟨oneLine_append.mpr ⟨first, by decide, by decide⟩, ih later⟩

theorem oneLine_note (frame : LogFrame) (stats : Stats) : OneLine (updateSeqStats frame stats).1.2.toList := by
  have fixed' : OneLine "1".toList ∧ OneLine "dup".toList ∧ OneLine "late".toList := by decide
  rw [updateSeqStats]
  split
  · exact fixed'.1
  · split
    · exact fixed'.1
    · split
      · rw [String.toList_append]
        refine oneLine_append.mpr ⟨by decide, ?_⟩
        rw [Nat.toString_eq_ofList_toDigits, String.toList_ofList]
        exact oneLine_str _
      · split
        · exact fixed'.2.1
        · exact fixed'.2.2

/-- A frame whose text can be shown on one line in quotes. -/
structure Tame (frame : LogFrame) : Prop where
  text : frame.eventId = 200
  some' : payloadToText frame ≠ []
  single : OneLine (payloadToText frame)
  unquoted : '\x22' ∉ payloadToText frame

theorem levelName_plain (level : Nat) : 'm' ∉ levelName level ∧ OneLine (levelName level) := by
  unfold levelName
  split
  · decide
  · decide
  · decide
  · refine ⟨fun member => ?_, oneLine_append.mpr ⟨by decide, oneLine_str _⟩⟩
    rcases List.mem_append.mp member with front | digit
    · revert front
      decide
    · exact not_mem_str (by decide) _ digit

theorem oneLine_replicate (n : Nat) : OneLine (List.replicate n ' ') :=
  ⟨fun member => absurd (List.eq_of_mem_replicate member) (by decide),
    fun member => absurd (List.eq_of_mem_replicate member) (by decide)⟩

theorem baseText_plain {frame : LogFrame} (text : frame.eventId = 200) : 'm' ∉ baseText frame ∧ OneLine (baseText frame) := by
  obtain ⟨noMessage, single⟩ := levelName_plain frame.level
  have spaces (n : Nat) : 'm' ∉ List.replicate n ' ' := fun member => absurd (List.eq_of_mem_replicate member) (by decide)
  have digits (n : Nat) : 'm' ∉ str n := not_mem_str (by decide) n
  have seq : 'm' ∉ " us] seq=".toList ∧ OneLine " us] seq=".toList := by decide
  have event : 'm' ∉ eventName frame.eventId ∧ OneLine (eventName frame.eventId) := by
    rw [text]
    decide
  have bracket : 'm' ∉ ['['] ∧ OneLine ['['] ∧ 'm' ∉ [' '] ∧ OneLine [' '] := by decide
  simp only [baseText, padLeft, padRight, List.mem_append, oneLine_append, spaces, digits, noMessage, seq, event, bracket,
    single, oneLine_replicate, oneLine_str, or_self, not_false_eq_true, and_self]

/-- The line of a frame: its text in quotes, and what stands behind it. -/
theorem formatLine_quoted {frame : LogFrame} (tame : Tame frame) (stats : Stats) (okCount ngCount : Nat) (seqOk : Bool)
    {seqNote : List Char} (note : OneLine seqNote) :
    ∃ back, OneLine back ∧ formatLine frame stats okCount ngCount seqOk seqNote =
      (baseText frame ++ [' ']) ++ ("msg=\x22".toList ++ (payloadToText frame ++ '\x22' :: back)) := by
  obtain ⟨crcPart, isCrc, crc⟩ : ∃ crcPart,
      (if frame.crcOk then color "crc=OK".toList 32 else color "crc=NG".toList 31) = crcPart ∧ OneLine crcPart := by
    refine ⟨_, rfl, ?_⟩
    split
    · decide
    · decide
  obtain ⟨tail, isTail, last⟩ : ∃ tail, "ok=".toList ++ str okCount ++ " ng=".toList ++ str ngCount ++ " gap=".toList ++
      str stats.seqGap ++ " late=".toList ++ str stats.seqLate ++ " dup=".toList ++ str stats.seqDup = tail ∧ OneLine tail := by
    have names : OneLine "ok=".toList ∧ OneLine " ng=".toList ∧ OneLine " gap=".toList ∧ OneLine " late=".toList ∧
        OneLine " dup=".toList := by decide
    refine ⟨_, rfl, ?_⟩
    simp only [oneLine_append, names, oneLine_str, and_self]
  have seqPart : OneLine ("seq_ok=".toList ++ str (if seqOk then 1 else 0)) := oneLine_append.mpr ⟨by decide, oneLine_str _⟩
  have parts : ∀ part ∈ crcPart :: ("seq_ok=".toList ++ str (if seqOk then 1 else 0)) ::
      ((if !seqOk then [seqNote] else []) ++ [tail]), OneLine part := by
    refine List.forall_mem_cons.mpr ⟨crc, List.forall_mem_cons.mpr ⟨seqPart, List.forall_mem_append.mpr ⟨?_, ?_⟩⟩⟩
    · cases seqOk with
      | true => exact List.forall_mem_nil _
      | false => exact List.forall_mem_singleton.mpr note
    · exact List.forall_mem_singleton.mpr last
  refine ⟨' ' :: [' '].intercalate _, oneLine_append.mpr ⟨(by decide : OneLine [' ']), oneLine_intercalate parts⟩, ?_⟩
  have quoted : (frame.eventId = 200 ∨ frame.eventId = 210) ∧ payloadToText frame ≠ [] := ⟨.inl tame.text, tame.some'⟩
  have shown : "msg=\x22".toList ++ payloadToText frame ++ ['\x22'] ≠ [] :=
    List.append_ne_nil_of_right_ne_nil _ (List.cons_ne_nil _ _)
  simp only [formatLine, if_pos quoted, isCrc, isTail]
  rw [if_pos shown]
  simp only [List.cons_append, List.nil_append, List.intercalate_cons_cons, List.append_assoc]

theorem frameLine_quoted {frame : LogFrame} (tame : Tame frame) (stats : Stats) :
    ∃ back, OneLine back ∧
      frameLine stats frame = (baseText frame ++ [' ']) ++ ("msg=\x22".toList ++ (payloadToText frame ++ '\x22' :: back)) := by
  have note : OneLine (if frame.crcOk then (updateSeqStats frame { stats with ok := stats.ok + 1 }).1
      else (false, "crc_ng")).2.toList := by
    split
    · exact oneLine_note _ _
    · decide
  rw [frameLine]
  generalize (if frame.crcOk then (updateSeqStats frame { stats with ok := stats.ok + 1 }).1 else (false, "crc_ng")) = noted
    at note ⊢
  exact formatLine_quoted tame _ _ _ _ note

theorem oneLine_fixed (q : ℚ) : OneLine (chars (fixed 1 q)) ∧ '\x22' ∉ chars (fixed 1 q) := by
  have numeric := numeric_fixed 1 q
  exact ⟨⟨not_mem_numeric numeric (by decide), not_mem_numeric numeric (by decide)⟩, not_mem_numeric numeric (by decide)⟩

theorem summaryLine_plain (stats : Stats) (elapsed : ℚ) :
    OneLine (summaryLine stats elapsed) ∧ '\x22' ∉ summaryLine stats elapsed := by
  have digits (n : Nat) : OneLine (str n) ∧ '\x22' ∉ str n := ⟨oneLine_str n, not_mem_str (by decide) n⟩
  have both {front back : List Char} (first : OneLine front ∧ '\x22' ∉ front) (second : OneLine back ∧ '\x22' ∉ back) :
      OneLine (front ++ back) ∧ '\x22' ∉ front ++ back :=
    ⟨oneLine_append.mpr ⟨first.1, second.1⟩, List.not_mem_append first.2 second.2⟩
  unfold summaryLine
  repeat' apply both
  all_goals first | exact digits _ | exact oneLine_fixed _ | decide

end Lines

section Texts

/-- A character that is printed as it is, and no quote. -/
def Plain (b : UInt8) : Prop := 0x20 ≤ b ∧ b < 0x7F ∧ b ≠ '\x22'.toUInt8

instance (b : UInt8) : Decidable (Plain b) := inferInstanceAs (Decidable (_ ∧ _ ∧ _))

theorem plain_numeric {b : UInt8} (numeric : Numeric b) : Plain b := by
  obtain ⟨low, high⟩ := numeric_range numeric
  refine ⟨UInt8.le_iff_toNat_le.mpr ?_, UInt8.lt_iff_toNat_lt.mpr ?_, ?_⟩
  · change 32 ≤ b.toNat
    omega
  · change b.toNat < 127
    omega
  · rintro rfl
    exact absurd low (by decide)

theorem chars_plain {text : List UInt8} (plain : ∀ b ∈ text, Plain b) : OneLine (chars text) ∧ '\x22' ∉ chars text := by
  have each : ∀ n < 0x7F, 0x20 ≤ n → n ≠ 0x22 →
      Char.ofNat n ≠ '\n' ∧ Char.ofNat n ≠ '\r' ∧ Char.ofNat n ≠ '\x22' := by decide +kernel
  have others (b : UInt8) (member : b ∈ text) :
      Char.ofNat b.toNat ≠ '\n' ∧ Char.ofNat b.toNat ≠ '\r' ∧ Char.ofNat b.toNat ≠ '\x22' := by
    obtain ⟨low, high, quote⟩ := plain b member
    exact each b.toNat (UInt8.lt_iff_toNat_lt.mp high) (UInt8.le_iff_toNat_le.mp low) fun same => quote (UInt8.toNat.inj same)
  have absent {c : Char} (other : ∀ b ∈ text, Char.ofNat b.toNat ≠ c) : c ∉ chars text := by
    intro member
    obtain ⟨b, inside, same⟩ := List.mem_map.mp member
    exact other b inside same
  exact ⟨⟨absent fun b member => (others b member).1, absent fun b member => (others b member).2.1⟩,
    absent fun b member => (others b member).2.2⟩

inductive Note where
  | adc (timestampMs : UInt32) (raw rawAvg : UInt16)
  | temp (timestampMs : UInt32) (reading : Option Int16)
  | other (text : List UInt8)

def Note.text : Note → List UInt8
  | .adc timestampMs raw rawAvg => AdcLoggerTask.text timestampMs raw rawAvg
  | .temp timestampMs reading => TemperatureTask.tempText timestampMs (reading.elim 0 Int16.toInt / 128) reading.isSome
  | .other text => text

/-- A mean has 12 bits, and another text does not look like those of the measurements. -/
def Note.Sane : Note → Prop
  | .adc _ _ rawAvg => rawAvg < 4096
  | .temp _ _ => True
  | .other text => text ≠ [] ∧ (∀ b ∈ text, Plain b) ∧ ¬ ascii "ADC," <+: text ∧ ¬ ascii "TEMP," <+: text

theorem Note.text_plain {note : Note} (sane : note.Sane) : note.text ≠ [] ∧ ∀ b ∈ note.text, Plain b := by
  have number (n : Nat) : ∀ b ∈ decimal n, Plain b := fun b member => plain_numeric (numeric_decimal n b member)
  have real (places : Nat) (q : ℚ) : ∀ b ∈ fixed places q, Plain b :=
    fun b member => plain_numeric (numeric_fixed places q b member)
  have names : (∀ b ∈ ascii "ADC,", Plain b) ∧ (∀ b ∈ ascii "TEMP,", Plain b) ∧ (∀ b ∈ ascii ",", Plain b) ∧
      (∀ b ∈ ascii "OK", Plain b) ∧ (∀ b ∈ ascii "NG", Plain b) := by decide +kernel
  obtain ⟨adc, temp, comma, ok, ng⟩ := names
  cases note with
  | adc timestampMs raw rawAvg =>
    refine ⟨List.append_ne_nil_of_right_ne_nil _ ?_, ?_⟩
    · exact List.append_ne_nil_of_right_ne_nil _ (List.cons_ne_nil _ _)
    · simp only [text, AdcLoggerTask.text, List.forall_mem_append]
      exact ⟨⟨⟨⟨⟨⟨⟨adc, number _⟩, comma⟩, number _⟩, comma⟩, number _⟩, comma⟩, real _ _⟩
  | temp timestampMs reading =>
    refine ⟨?_, ?_⟩
    · exact List.append_ne_nil_of_left_ne_nil (List.append_ne_nil_of_right_ne_nil _ (List.cons_ne_nil _ _)) _
    · simp only [text, TemperatureTask.tempText, List.forall_mem_append]
      refine ⟨⟨⟨⟨⟨temp, number _⟩, comma⟩, real _ _⟩, comma⟩, ?_⟩
      split
      · exact ok
      · exact ng
  | other text => exact ⟨sane.1, sane.2.1⟩

structure Sent where
  note : Note
  level : LogLevel
  seq : UInt32
  timestampUs : UInt32

def Sent.record (sent : Sent) : Record :=
  (LogRequest.text sent.level sent.note.text).event (LogRequest.text_fits _ _) sent.seq sent.timestampUs

/-- A record of a text that is printed as it is. -/
structure Written (record : Record) : Prop where
  text : record.val.eventId = EventId.TEXT_LOG
  some' : record.val.data ≠ []
  plain : ∀ b ∈ record.val.data, Plain b

theorem Written.of_text {text : List UInt8} (some' : text ≠ []) (plain : ∀ b ∈ text, Plain b) (level : LogLevel)
    (seq timestampUs : UInt32) : Written ((LogRequest.text level text).event (LogRequest.text_fits _ _) seq timestampUs) where
  text := rfl
  some' nothing := by
    rw [LogRequest.data_text] at nothing
    rcases List.take_eq_nil_iff.mp nothing with zero | empty
    · cases zero
    · exact some' empty
  plain b member := by
    rw [LogRequest.data_text] at member
    exact plain b (List.mem_of_mem_take member)

/-- The frame of such a record shows its text. -/
theorem Written.tame {record : Record} (written : Written record) {frame : LogFrame} (shows' : Shows record.val frame) :
    Tame frame ∧ payloadToText frame = chars record.val.data := by
  have isText : frame.eventId = 200 := by
    rw [shows'.eventId, written.text]
    rfl
  have counted : frame.length ≠ 0 := by
    rw [shows'.length, ← record.length_data]
    exact fun zero => written.some' (List.length_eq_zero_iff.mp zero)
  have shown : payloadToText frame = chars record.val.data := by
    rw [payloadToText, if_neg counted, shows'.crcOk, isText, shows'.payload]
    exact decodeUtf8_ascii fun b member => UInt8.lt_trans (written.plain b member).2.1 (by decide)
  obtain ⟨single, unquoted⟩ := chars_plain written.plain
  rw [← shown] at single unquoted
  refine ⟨⟨isText, ?_, single, unquoted⟩, shown⟩
  rw [shown]
  exact fun nothing => written.some' (List.map_eq_nil_iff.mp nothing)

end Texts

section Measured

/-- The millionths of a degree that are printed for a register. -/
def microdegrees (raw : Int) : Int := (if raw < 0 then -1 else 1) * roundHalfEven (|raw| * (15625 / 2))

theorem microdegrees_near (raw : Int) : |2 * microdegrees raw - 15625 * raw| ≤ 1 ∧ (raw < 0 ↔ microdegrees raw < 0) ∧
    roundHalfEven (|raw| * (15625 / 2)) = |microdegrees raw| := by
  obtain ⟨k, isRounded⟩ : ∃ k, roundHalfEven (|raw| * (15625 / 2)) = k := ⟨_, rfl⟩
  -- both sides doubled, what is left is about integers
  have near : |2 * k - 15625 * abs raw| ≤ 1 := by
    have rounded := abs_roundHalfEven_sub_le (|raw| * (15625 / 2))
    rw [isRounded] at rounded
    have twice : |((2 * k - 15625 * abs raw : Int) : ℚ)| ≤ 1 := by
      have split : ((2 * k - 15625 * abs raw : Int) : ℚ) = 2 * (k - |raw| * (15625 / 2)) := by
        push_cast
        ring
      rw [split, abs_mul, abs_of_pos two_pos]
      linarith
    exact_mod_cast twice
  rw [microdegrees, isRounded]
  rcases lt_or_ge raw 0 with negative | positive
  · rw [if_pos negative]
    rw [abs_of_neg negative] at near
    rw [abs_le] at near ⊢
    have some' : -1 * k < 0 := by omega
    refine ⟨by omega, iff_of_true negative some', ?_⟩
    rw [abs_of_neg some']
    omega
  · rw [if_neg positive.not_gt]
    rw [abs_of_nonneg positive] at near
    rw [abs_le] at near ⊢
    have some' : 0 ≤ 1 * k := by omega
    refine ⟨by omega, iff_of_false positive.not_gt some'.not_gt, ?_⟩
    rw [abs_of_nonneg some']
    omega

theorem temperature_text (raw : Int) : fixed 6 (raw / 128) = scaled 6 (microdegrees raw) := by
  obtain ⟨-, sign, size⟩ := microdegrees_near raw
  have scale : |(raw : ℚ) / 128| * 10 ^ 6 = |(raw : ℚ)| * (15625 / 2) := by
    rw [abs_div, abs_of_pos (by norm_num : (0 : ℚ) < 128)]
    ring
  refine fixed_eq_scaled ?_ ?_
  · rw [scale, ← size, Int.cast_abs]
  · rw [← sign, div_neg_iff, Int.cast_lt_zero]
    constructor
    · rintro (⟨-, below⟩ | ⟨negative, -⟩)
      · exact absurd below (by norm_num)
      · exact negative
    · exact fun negative => .inr ⟨negative, by norm_num⟩

def volts (rawAvg : UInt16) : ℚ := roundBinary 53 (AdcLoggerTask.millivolts rawAvg / 10 ^ 3)

def degrees (raw : Int) : ℚ := roundBinary 53 (microdegrees raw / 10 ^ 6)

/-- It prints as the voltage of the task does. -/
theorem volts_text {rawAvg : UInt16} (twelve : rawAvg < 4096) :
    fixed 3 (volts rawAvg) = fixed 3 (AdcLoggerTask.voltage rawAvg) := by
  obtain ⟨low, high⟩ := AdcLoggerTask.millivolts_range twelve
  rw [AdcLoggerTask.voltage_text twelve, volts]
  refine fixed_roundBinary (by decide) ?_
  rw [abs_of_nonneg low]
  omega

/-- Nothing of the register is lost. -/
theorem degrees_register {raw : Int} (word : |raw| ≤ 32768) : roundHalfEven (degrees raw * 128) = raw := by
  obtain ⟨near, -⟩ := microdegrees_near raw
  have near' : |2 * (microdegrees raw : ℚ) - 15625 * raw| ≤ 1 := by exact_mod_cast near
  have word' : |(raw : ℚ)| ≤ 32768 := by exact_mod_cast word
  have moved := abs_roundBinary_sub_le 53 (microdegrees raw / 10 ^ 6)
  obtain ⟨low, high⟩ := abs_le.mp near'
  obtain ⟨least, most⟩ := abs_le.mp word'
  have size : |(microdegrees raw : ℚ) / 10 ^ 6| ≤ 257 := by
    rw [abs_le]
    constructor
    · rw [le_div_iff₀ (by norm_num)]
      linarith
    · rw [div_le_iff₀ (by norm_num)]
      linarith
  have lost : |degrees raw - microdegrees raw / 10 ^ 6| ≤ 257 / 2 ^ 53 :=
    moved.trans (div_le_div_of_nonneg_right size (by positivity))
  obtain ⟨below, above⟩ := abs_le.mp lost
  apply roundHalfEven_of_near
  rw [abs_lt]
  norm_num at below above ⊢
  constructor
  · linarith
  · linarith

end Measured

section Rows
variable {decimalValue : Char → Option Nat}

def adcRow (timestampMs : UInt32) (raw rawAvg : UInt16) : AdcRow where
  timestampMs := timestampMs.toNat
  raw := raw.toNat
  avg := rawAvg.toNat
  voltage := .finite (volts rawAvg)

def tempRow (timestampMs : UInt32) (reading : Option Int16) : TempRow where
  timestampMs := timestampMs.toNat
  temperatureC := .finite (degrees (reading.elim 0 Int16.toInt))
  status := if reading.isSome then "OK".toList else "NG".toList

def Note.row : Note → Option (AdcRow ⊕ TempRow)
  | .adc timestampMs raw rawAvg => some (.inl (adcRow timestampMs raw rawAvg))
  | .temp timestampMs reading => some (.inr (tempRow timestampMs reading))
  | .other _ => none

theorem chars_comma : chars (ascii ",") = [','] := by decide

theorem comma_numeric {text : List UInt8} (numeric : ∀ b ∈ text, Numeric b) : ',' ∉ chars text :=
  not_mem_numeric numeric (by decide)

theorem splitOn_adc (timestampMs : UInt32) (raw rawAvg : UInt16) :
    (chars (AdcLoggerTask.text timestampMs raw rawAvg)).splitOn ',' =
      ["ADC".toList, chars (decimal timestampMs.toNat), chars (decimal raw.toNat), chars (decimal rawAvg.toNat),
        chars (fixed 3 (AdcLoggerTask.voltage rawAvg))] := by
  have kind : chars (ascii "ADC,") = "ADC".toList ++ [','] := by decide
  have number (n : Nat) := comma_numeric (numeric_decimal n)
  have real := comma_numeric (numeric_fixed 3 (AdcLoggerTask.voltage rawAvg))
  have noComma : ',' ∉ "ADC".toList := by decide
  simp only [AdcLoggerTask.text, chars_append, chars_comma, kind, List.append_assoc, List.cons_append, List.nil_append]
  rw [List.splitOn_append_cons_self_of_not_mem noComma, List.splitOn_append_cons_self_of_not_mem (number _),
    List.splitOn_append_cons_self_of_not_mem (number _), List.splitOn_append_cons_self_of_not_mem (number _),
    List.splitOn_eq_singleton real]

theorem splitOn_temp (timestampMs : UInt32) (q : ℚ) (valid : Bool) :
    (chars (TemperatureTask.tempText timestampMs q valid)).splitOn ',' =
      ["TEMP".toList, chars (decimal timestampMs.toNat), chars (fixed 6 q), if valid then "OK".toList else "NG".toList] := by
  have kind : chars (ascii "TEMP,") = "TEMP".toList ++ [','] := by decide
  have number := comma_numeric (numeric_decimal timestampMs.toNat)
  have real := comma_numeric (numeric_fixed 6 q)
  have noComma : ',' ∉ "TEMP".toList := by decide
  have status : chars (if valid then ascii "OK" else ascii "NG") = (if valid then "OK".toList else "NG".toList) ∧
      ',' ∉ (if valid then "OK".toList else "NG".toList) := by
    cases valid <;> decide
  simp only [TemperatureTask.tempText, chars_append, chars_comma, kind, List.append_assoc, List.cons_append, List.nil_append]
  rw [status.1, List.splitOn_append_cons_self_of_not_mem noComma, List.splitOn_append_cons_self_of_not_mem number,
    List.splitOn_append_cons_self_of_not_mem real, List.splitOn_eq_singleton status.2]

/-- Only a text that begins with its name and a comma has the kind. -/
theorem splitOn_front {msg kind next : List Char} {rest : List (List Char)} (split : msg.splitOn ',' = kind :: next :: rest) :
    kind ++ [','] <+: msg := by
  refine ⟨[','].intercalate (next :: rest), ?_⟩
  rw [← List.intercalate_cons_cons, ← split, List.intercalate_splitOn]

theorem parseMsg_other {msg : List Char} (adc : ¬ "ADC".toList ++ [','] <+: msg) (temp : ¬ "TEMP".toList ++ [','] <+: msg) :
    parseMsg decimalValue msg = none := by
  rw [parseMsg]
  split
  · rename_i split
    refine if_neg fun kind => adc ?_
    rw [← kind]
    exact splitOn_front split
  · rename_i split
    refine if_neg fun kind => temp ?_
    rw [← kind]
    exact splitOn_front split
  · rfl

theorem prefix_chars {front text : List UInt8} (begins : chars front <+: chars text) : front <+: text := by
  have injective : Function.Injective fun b : UInt8 => Char.ofNat b.toNat := by
    have each : ∀ n < 256, (Char.ofNat n).toNat = n := by decide +kernel
    intro a b same
    have codes := congrArg Char.toNat same
    rw [each _ a.toNat_lt, each _ b.toNat_lt] at codes
    exact UInt8.toNat.inj codes
  exact (List.prefix_map_iff_of_injective injective).mp begins

variable (unicode : Unicode isSpace decimalValue)
include unicode

theorem parseMsg_adc (timestampMs : UInt32) (raw : UInt16) {rawAvg : UInt16} (twelve : rawAvg < 4096) :
    parseMsg decimalValue (chars (AdcLoggerTask.text timestampMs raw rawAvg)) =
      some (.inl (adcRow timestampMs raw rawAvg)) := by
  obtain ⟨low, high⟩ := AdcLoggerTask.millivolts_range twelve
  have large : |AdcLoggerTask.millivolts rawAvg| < 2 ^ 64 := by
    rw [abs_of_nonneg low]
    omega
  have voltage : float isSpace decimalValue (chars (fixed 3 (AdcLoggerTask.voltage rawAvg))) =
      some (.finite (volts rawAvg)) := by
    rw [AdcLoggerTask.voltage_text twelve]
    exact float_scaled unicode large (by decide)
  rw [parseMsg, splitOn_adc]
  simp only [if_true, int_decimal unicode, voltage]
  rfl

theorem parseMsg_temp (timestampMs : UInt32) (reading : Option Int16) :
    parseMsg decimalValue (chars (TemperatureTask.tempText timestampMs (reading.elim 0 Int16.toInt / 128) reading.isSome)) =
      some (.inr (tempRow timestampMs reading)) := by
  obtain ⟨raw, isRaw, word⟩ : ∃ raw : Int, reading.elim 0 Int16.toInt = raw ∧ |raw| ≤ 32768 := by
    refine ⟨_, rfl, ?_⟩
    cases reading with
    | none => exact abs_zero.le.trans (by decide)
    | some raw => exact Bme280.abs_int16 raw
  have large : |microdegrees raw| < 2 ^ 64 := by
    obtain ⟨near, -⟩ := microdegrees_near raw
    rw [abs_le] at near word
    rw [abs_lt]
    omega
  have temperature : float isSpace decimalValue (chars (fixed 6 (raw / 128))) = some (.finite (degrees raw)) := by
    rw [temperature_text]
    exact float_scaled unicode large (by decide)
  rw [parseMsg, splitOn_temp, tempRow, isRaw]
  simp only [if_true, int_decimal unicode, temperature]
  rfl

/-- What `logf` leaves of a text gives the row of its note. -/
theorem parse_note {note : Note} (sane : note.Sane) : parseMsg decimalValue (chars (note.text.take 63)) = note.row := by
  cases note with
  | adc timestampMs raw rawAvg =>
    have short : (AdcLoggerTask.text timestampMs raw rawAvg).length ≤ 63 := by
      have time := length_decimal_le (by decide) (timestampMs.toNat_lt.trans (by decide : 2 ^ 32 < 10 ^ 10))
      have sample := length_decimal_le (by decide) (raw.toNat_lt.trans (by decide : 2 ^ 16 < 10 ^ 5))
      have mean' := length_decimal_le (by decide) (rawAvg.toNat_lt.trans (by decide : 2 ^ 16 < 10 ^ 5))
      have volts' := AdcLoggerTask.length_millivolts sane
      have names : (ascii "ADC,").length = 4 ∧ (ascii ",").length = 1 := by decide
      simp only [AdcLoggerTask.text, AdcLoggerTask.voltage_text sane, List.length_append, names]
      omega
    rw [Note.text, List.take_of_length_le short]
    exact parseMsg_adc unicode timestampMs raw sane
  | temp timestampMs reading =>
    have short := DisplaySystem.length_tempText timestampMs reading reading.isSome
    rw [Note.text, List.take_of_length_le (Nat.le_of_lt_succ short)]
    exact parseMsg_temp unicode timestampMs reading
  | other text =>
    obtain ⟨-, -, adc, temp⟩ := sane
    have taken {name : List UInt8} (begins : chars name <+: chars (text.take 63)) : name <+: text :=
      (prefix_chars begins).trans (List.take_prefix _ _)
    exact parseMsg_other (fun begins => adc (taken begins)) (fun begins => temp (taken begins))

end Rows

section Output
variable {decimalValue : Char → Option Nat} {text : List Char} {rows : List (AdcRow ⊕ TempRow)}

/-- A text of whole lines with the rows that are found in them. -/
structure Prints (decimalValue : Char → Option Nat) (text : List Char) (rows : List (AdcRow ⊕ TempRow)) : Prop where
  clean : '\r' ∉ text
  found : ∀ rest, (endedLines (text ++ rest)).filterMap (parseLine decimalValue) =
    rows ++ (endedLines rest).filterMap (parseLine decimalValue)

namespace Prints

theorem nil : Prints decimalValue [] [] := ⟨List.not_mem_nil, fun _ => rfl⟩

theorem append {back : List Char} {more : List (AdcRow ⊕ TempRow)} (first : Prints decimalValue text rows)
    (second : Prints decimalValue back more) : Prints decimalValue (text ++ back) (rows ++ more) where
  clean := List.not_mem_append first.clean second.clean
  found rest := by rw [List.append_assoc, first.found, second.found, List.append_assoc]

theorem line {line : List Char} (single : OneLine line) :
    Prints decimalValue (line ++ ['\n']) (parseLine decimalValue (line ++ ['\n'])).toList where
  clean := List.not_mem_append single.2 (by decide)
  found rest := by
    rw [List.append_assoc, List.singleton_append, endedLines_line single.1, List.filterMap_cons]
    cases parseLine decimalValue (line ++ ['\n']) with
    | none => rfl
    | some row => rfl

theorem unquoted {line : List Char} (single : OneLine line) (clean : '\x22' ∉ line) :
    Prints decimalValue (line ++ ['\n']) [] := by
  have none' : parseLine decimalValue (line ++ ['\n']) = none := by
    rw [parseLine, extractMsg_unquoted (List.not_mem_append clean (by decide))]
    rfl
  have printed := @Prints.line decimalValue _ single
  rwa [none'] at printed

theorem summary (stats : Stats) (elapsed : ℚ) : Prints decimalValue (printSummary stats elapsed) [] := by
  obtain ⟨single, clean⟩ := summaryLine_plain stats elapsed
  rw [printSummary, List.append_assoc]
  exact append (@unquoted _ [] (by decide) (by decide)) (unquoted single clean)

theorem due (elapsed : Option ℚ) (stats : Stats) : Prints decimalValue (elapsed.elim [] (printSummary stats)) [] := by
  cases elapsed with
  | none => exact nil
  | some elapsed => exact summary stats elapsed

theorem frame {frame : LogFrame} (tame : Tame frame) (stats : Stats) :
    Prints decimalValue (frameLine stats frame ++ ['\n']) (parseMsg decimalValue (payloadToText frame)).toList := by
  obtain ⟨back, last, shown⟩ := frameLine_quoted tame stats
  obtain ⟨noMessage, front⟩ := baseText_plain tame.text
  have single : OneLine (frameLine stats frame) := by
    have names : OneLine "msg=\x22".toList ∧ OneLine [' '] := by decide
    have quote : OneLine ('\x22' :: back) := oneLine_append.mpr ⟨(by decide : OneLine ['\x22']), last⟩
    simp only [shown, oneLine_append, front, tame.single, quote, names, and_self]
  have message : parseLine decimalValue (frameLine stats frame ++ ['\n']) = parseMsg decimalValue (payloadToText frame) := by
    -- nothing in front of the message could begin one
    have before : 'm' ∉ baseText frame ++ [' '] := List.not_mem_append noMessage (by decide)
    rw [shown, List.append_assoc (baseText frame ++ [' ']), List.append_assoc "msg=\x22".toList,
      List.append_assoc (payloadToText frame), List.cons_append, parseLine, extractMsg_quoted before tame.some' tame.unquoted]
    rfl
  have printed := @Prints.line decimalValue _ single
  rwa [message] at printed

/-- The tables of a text that is read as a file. -/
theorem tables (printed : Prints decimalValue text rows) :
    parseLogFile decimalValue text = (rows.filterMap Sum.getLeft?, rows.filterMap Sum.getRight?) := by
  have all := printed.found []
  rw [List.append_nil, endedLines, List.filterMap_nil, List.append_nil] at all
  rw [parseLogFile, lines, universalNewlines_clean printed.clean, all]

end Prints

variable {crc32 : List UInt8 → Nat} (file : Bool) (due : Nat → Option ℚ) (elapsed : ℚ)

/-- The printing loop is the counting one: what it prints last is the summary of what that counts. -/
theorem output_receive (writes : LogFrame → Bool) (limit : Nat) (quiet : Bool) (turns : Nat) (reader : ByteReader)
    (stats : Stats) :
    ∃ front, output crc32 writes file limit quiet due elapsed turns reader stats =
      front ++ printSummary (receive crc32 writes file limit turns reader stats).2.2 elapsed := by
  induction turns generalizing reader stats with
  | zero => exact ⟨[], rfl⟩
  | succ turns ih =>
    obtain ⟨frame, later, counted, read⟩ : ∃ frame later counted, readFrame crc32 reader stats = (frame, later, counted) :=
      ⟨_, _, _, rfl⟩
    rw [output, receive, read]
    cases frame with
    | none =>
      cases file with
      | true => exact ⟨[], rfl⟩
      | false =>
        obtain ⟨front, more⟩ := ih later counted
        have summaries := congrArg ((due turns).elim [] (printSummary counted) ++ ·) more
        exact ⟨_, summaries.trans (List.append_assoc _ _ _).symm⟩
    | some frame =>
      simp only
      split
      · exact ⟨[], rfl⟩
      · split
        · exact ⟨_, rfl⟩
        · obtain ⟨front, more⟩ := ih later (countFrame counted frame)
          rw [more, ← List.append_assoc]
          exact ⟨_, rfl⟩

/-- Behind the end of the stream only summaries are printed. -/
theorem output_end (turns : Nat) {reader : ByteReader} (stats : Stats) (delivers : reader.Delivers []) :
    Prints decimalValue (output crc32 (fun _ => true) file 0 false due elapsed turns reader stats) [] := by
  induction turns generalizing reader with
  | zero => exact .summary stats elapsed
  | succ turns ih =>
    obtain ⟨later, missed, delivers⟩ := readFrame_end crc32 stats delivers
    rw [output, missed]
    cases file with
    | true => exact .summary stats elapsed
    | false => exact .append (.due (due turns) stats) (ih delivers)

/-- What is printed for the frames of some records has the rows of their texts, by induction on the records. -/
theorem output_frames (standard : ∀ bytes, crc32 bytes = (Crc32.standard bytes).toNat) {records : List Record}
    (written : ∀ record ∈ records, Written record) {turns : Nat} (enough : records.length ≤ turns) {reader : ByteReader}
    (stats : Stats) (delivers : reader.Delivers (records.flatMap Record.frame)) :
    Prints decimalValue (output crc32 (fun _ => true) file 0 false due elapsed turns reader stats)
      (records.filterMap fun record => parseMsg decimalValue (chars record.val.data)) := by
  induction records generalizing reader stats turns with
  | nil => exact output_end file due elapsed turns stats delivers
  | cons record rest ih =>
    obtain ⟨first, others⟩ := List.forall_mem_cons.mp written
    obtain ⟨turns, rfl⟩ := Nat.exists_eq_succ_of_ne_zero (Nat.ne_zero_of_lt enough)
    have bytes : Burst.bytes ⟨[], record, by decide⟩ = record.frame := by
      rw [Burst.bytes, Record.buildFrame]
      rfl
    rw [List.flatMap_cons, ← bytes] at delivers
    obtain ⟨frame, later, counted, read, shows', delivers⟩ := readFrame_burst crc32 standard _ stats delivers
    obtain ⟨tame, shown⟩ := first.tame shows'
    have row : (parseMsg decimalValue (payloadToText frame)).toList ++ [] ++
        rest.filterMap (fun record => parseMsg decimalValue (chars record.val.data)) =
        (record :: rest).filterMap fun record => parseMsg decimalValue (chars record.val.data) := by
      rw [shown, List.append_nil, List.filterMap_cons]
      cases parseMsg decimalValue (chars record.val.data) with
      | none => rfl
      | some row => rfl
    rw [output, read, ← row]
    exact .append (.append (.frame tame counted) (.due (due turns) _))
      (ih others (Nat.le_of_succ_le_succ enough) (countFrame counted frame) delivers)

end Output

/-- The digits of ASCII are among the decimal digits. -/
theorem unicode_digits {decimalValue : Char → Option Nat} (digit : ∀ n < 10, decimalValue (digitChar n) = some n) :
    Unicode isSpace decimalValue where
  digit := digit
  solid b numeric := by
    have each : ∀ n < 58, 45 ≤ n → isSpace (Char.ofNat n) = false := by decide +kernel
    obtain ⟨low, high⟩ := numeric_range numeric
    exact each b.toNat (by omega) low

/-- What the viewer prints for a stream of text records has exactly the rows of the measurements among them, in their order,
for a file as well as for a port, whenever a summary is due. A voltage prints as that of the task does, and a temperature has
lost nothing of its register. -/
theorem plotted_as_measured (crc32 : List UInt8 → Nat) (standard : ∀ bytes, crc32 bytes = (Crc32.standard bytes).toNat)
    (decimalValue : Char → Option Nat) (digit : ∀ n < 10, decimalValue (digitChar n) = some n)
    (sent : List Sent) (sane : ∀ s ∈ sent, s.note.Sane) (reader : ByteReader)
    (stream : reader.stream = (sent.map Sent.record).flatMap Record.frame) (steady : ∀ call, 0 < reader.ready call)
    (file : Bool) (due : Nat → Option ℚ) (elapsed : ℚ) (turns : Nat) (enough : sent.length ≤ turns) (stats : Stats) :
    let rows := sent.filterMap fun s => s.note.row
    parseLogFile decimalValue (output crc32 (fun _ => true) file 0 false due elapsed turns reader stats) =
        (rows.filterMap Sum.getLeft?, rows.filterMap Sum.getRight?) ∧
      (∀ rawAvg < 4096, fixed 3 (volts rawAvg) = fixed 3 (AdcLoggerTask.voltage rawAvg)) ∧
      ∀ reading : Int16, roundHalfEven (degrees reading.toInt * 128) = reading.toInt := by
  intro rows
  refine ⟨Prints.tables ?_, fun rawAvg twelve => volts_text twelve, fun reading => degrees_register (Bme280.abs_int16 reading)⟩
  have written : ∀ record ∈ sent.map Sent.record, Written record := by
    intro record member
    obtain ⟨s, inside, rfl⟩ := List.mem_map.mp member
    obtain ⟨some', plain⟩ := Note.text_plain (sane s inside)
    exact .of_text some' plain s.level s.seq s.timestampUs
  have rows' : (sent.map Sent.record).filterMap (fun record => parseMsg decimalValue (chars record.val.data)) = rows := by
    rw [List.filterMap_map]
    refine List.filterMap_congr fun s inside => ?_
    rw [Function.comp_apply, Sent.record, LogRequest.data_text]
    exact parse_note (unicode_digits digit) (sane s inside)
  rw [← rows']
  exact output_frames file due elapsed standard written (by rwa [List.length_map]) stats ⟨stream, steady⟩

/-- Three records, the last one behind a summary. -/
theorem plotted_as_measured_three :
    let sent : List Sent := [⟨.temp 1000 (some 3200), LogLevel.INFO, 7, 100⟩,
      ⟨.other (ascii "AEADT7410 init OK"), LogLevel.INFO, 8, 200⟩, ⟨.adc 1500 2048 2047, LogLevel.INFO, 9, 300⟩]
    let reader : ByteReader := ⟨(sent.map Sent.record).flatMap Record.frame, fun _ => 1⟩
    let due (turn : Nat) : Option ℚ := if turn = 2 then some 10 else none
    parseLogFile asciiDigit
        (output (fun bytes => (Crc32.calculate bytes).toNat) (fun _ => true) true 0 false due 12 4 reader {}) =
      ([⟨1500, 2048, 2047, .finite (volts 2047)⟩], [⟨1000, .finite 25, "OK".toList⟩]) ∧
      fixed 3 (volts 2047) = ascii "1.650" := by
  intro sent reader due
  have sane : ∀ s ∈ sent, s.note.Sane := by
    refine List.forall_mem_cons.mpr ⟨trivial, List.forall_mem_cons.mpr ⟨⟨?_, ?_, ?_, ?_⟩, ?_⟩⟩
    · decide
    · decide +kernel
    · decide
    · decide
    · exact List.forall_mem_singleton.mpr (by decide : (2047 : UInt16) < 4096)
  obtain ⟨tables, text, -⟩ := plotted_as_measured (fun bytes => (Crc32.calculate bytes).toNat)
    (fun bytes => congrArg BitVec.toNat (Crc32.toBitVec_calculate bytes)) asciiDigit (by decide) sent sane reader rfl
    (fun _ => Nat.one_pos) true due 12 4 (by decide) {}
  have warm : degrees (Int16.toInt 3200) = 25 := by decide +kernel
  refine ⟨tables.trans ?_, (text 2047 (by decide)).trans (by decide +kernel)⟩
  rw [← warm]
  rfl

end SensorPlot

end PicoWLogger
