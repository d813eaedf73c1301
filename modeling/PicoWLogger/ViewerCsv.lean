import PicoWLogger.Lib.DecimalText
import PicoWLogger.LoggerViewer

/-! The CSV side of `logger_viewer.py`: the text of a payload, the ADC values found in it, and the row that
`write_csv` writes. A `str` is a list of characters. -/

namespace PicoWLogger.LoggerViewer
open LittleEndian

/-- What a lead byte of UTF-8 asks for: how many bytes follow, the range of the first of them, and its own bits. -/
def utf8Lead (b : UInt8) : Option (Nat × UInt8 × UInt8 × Nat) :=
  if 0xC2 ≤ b ∧ b ≤ 0xDF then some (1, 0x80, 0xBF, b.toNat - 0xC0)
  else if b = 0xE0 then some (2, 0xA0, 0xBF, 0)
  else if b = 0xED then some (2, 0x80, 0x9F, 0xD)
  else if 0xE1 ≤ b ∧ b ≤ 0xEF then some (2, 0x80, 0xBF, b.toNat - 0xE0)
  else if b = 0xF0 then some (3, 0x90, 0xBF, 0)
  else if 0xF1 ≤ b ∧ b ≤ 0xF3 then some (3, 0x80, 0xBF, b.toNat - 0xF0)
  else if b = 0xF4 then some (3, 0x80, 0x8F, 4)
  else none

/-- The code point that `count` more bytes complete, or none, and what is left behind the bytes taken. -/
def utf8Rest : Nat → UInt8 → UInt8 → Nat → List UInt8 → Option Nat × List UInt8
  | 0, _, _, value, bytes => (some value, bytes)
  | _ + 1, _, _, _, [] => (none, [])
  | count + 1, low, high, value, b :: bytes =>
    if low ≤ b ∧ b ≤ high then utf8Rest count 0x80 0xBF (value * 64 + (b.toNat - 0x80)) bytes else (none, b :: bytes)

theorem length_utf8Rest (count : Nat) (low high : UInt8) (value : Nat) (bytes : List UInt8) :
    (utf8Rest count low high value bytes).2.length ≤ bytes.length := by
  fun_induction utf8Rest count low high value bytes with
  | case1 => exact Nat.le_refl _
  | case2 => exact Nat.le_refl _
  | case3 count low high value b bytes inside ih => exact Nat.le_succ_of_le ih
  | case4 => exact Nat.le_refl _

/-- `bytes.decode("utf-8", errors="replace")`. -/
def decodeUtf8 : List UInt8 → List Char
  | [] => []
  | b :: bytes =>
    if b < 0x80 then Char.ofNat b.toNat :: decodeUtf8 bytes
    else
      match utf8Lead b with
      | none => '\uFFFD' :: decodeUtf8 bytes
      | some (count, low, high, value) =>
        let rest := utf8Rest count low high value bytes
        (rest.1.elim '\uFFFD' Char.ofNat) :: decodeUtf8 rest.2
termination_by bytes => bytes.length
decreasing_by
  · simp
  · simp
  · exact Nat.lt_succ_of_le (length_utf8Rest _ _ _ _ _)

def isPrintableAscii (data : List UInt8) : Bool :=
  data.all fun c => (0x20 ≤ c && c ≤ 0x7E) || c = 0x09 || c = 0x0A || c = 0x0D

def hexDigit (n : Nat) : Char := Nat.digitChar (n % 16)

/-- `f"{b:02x}"`. -/
def hexByte (b : UInt8) : List Char := [hexDigit (b.toNat / 16), hexDigit b.toNat]

/-- `" ".join(...)` of those, and `bytes.hex(" ")`. -/
def hexBytes (data : List UInt8) : List Char := [' '].intercalate (data.map hexByte)

/-- `f"0x{n:08X}"`. -/
def hexWord (n : Nat) : List Char :=
  let digits := (Nat.toDigits 16 n).map Char.toUpper
  "0x".toList ++ List.replicate (8 - digits.length) '0' ++ digits

/-- `f"{n}"`. -/
def str (n : Nat) : List Char := Nat.toDigits 10 n

def decodeLoggerStats (payload : List UInt8) : List Char :=
  if payload.length < 1 then "LOGGER_STATS invalid payload: too short".toList
  else
    let version := (payload.getD 0 0).toNat
    if version = 1 then
      let expectedSize := 24
      if payload.length ≠ expectedSize then
        "LOGGER_STATS[v1] invalid size: expected=".toList ++ str expectedSize ++ " actual=".toList ++ str payload.length ++
          " raw=".toList ++ hexBytes payload
      else
        let enqueueOkCount := decode ((payload.drop 4).take 4)
        let enqueueDropCount := decode ((payload.drop 8).take 4)
        let uartTxCount := decode ((payload.drop 12).take 4)
        let uartTxBytes := decode ((payload.drop 16).take 4)
        let highWaterMark := decode ((payload.drop 20).take 4)
        "LOGGER_STATS[v".toList ++ str version ++ "] ok=".toList ++ str enqueueOkCount ++ " drop=".toList ++
          str enqueueDropCount ++ " tx_frames=".toList ++ str uartTxCount ++ " tx_bytes=".toList ++ str uartTxBytes ++
          " hwm=".toList ++ str highWaterMark
    else "LOGGER_STATS unknown version=".toList ++ str version ++ " raw=".toList ++ hexBytes payload

def payloadToText (frame : LogFrame) : List Char :=
  if frame.length = 0 then []
  else if !frame.crcOk then "<CRC_NG>".toList
  else if frame.eventId = 210 then decodeLoggerStats frame.payload
  else if frame.eventId = 200 then decodeUtf8 frame.payload
  else if isPrintableAscii frame.payload then decodeUtf8 frame.payload
  else hexBytes frame.payload

/-- A decoded string has no lone surrogates, so that encoding and decoding it again changes nothing. -/
def csvSafeText (s : List Char) : List Char :=
  s.flatMap fun c =>
    if c = '\x00' then [] else if c = '\r' then ['\\', 'r'] else if c = '\n' then ['\\', 'n'] else [c]

/-- `\s` on a `str`. -/
def isSpace (c : Char) : Bool :=
  (9 ≤ c.toNat && c.toNat ≤ 13) || (0x1C ≤ c.toNat && c.toNat ≤ 0x20) || (0x2000 ≤ c.toNat && c.toNat ≤ 0x200A) ||
    [0x85, 0xA0, 0x1680, 0x2028, 0x2029, 0x202F, 0x205F, 0x3000].contains c.toNat

/-- `[0-9.]` -/
def isFloatChar (c : Char) : Bool := ('0' ≤ c && c ≤ '9') || c == '.'

/-- A nonempty run of characters as long as possible, and what follows. In `ADC_RE` the piece behind a run never begins
with a character of the run, so a shorter run never matches. -/
def takeRun (inRun : Char → Bool) (s : List Char) : Option (List Char × List Char) :=
  if s.takeWhile inRun = [] then none else some (s.takeWhile inRun, s.dropWhile inRun)

def takeLiteral (literal : String) (s : List Char) : Option (List Char) :=
  if literal.toList.isPrefixOf s then some (s.drop literal.toList.length) else none

-- the value of a decimal digit of Unicode, which `\d` and `int` take
variable (decimalValue : Char → Option Nat)

/-- `ADC_RE` at the start of a text: its groups `raw`, `avg` and `voltage`. -/
def matchAdc (s : List Char) : Option (List Char × List Char × List Char) := do
  let s ← takeLiteral "ADC" s
  let (_, s) ← takeRun isSpace s
  let s ← takeLiteral "raw=" s
  let (raw, s) ← takeRun (fun c => (decimalValue c).isSome) s
  let (_, s) ← takeRun isSpace s
  let s ← takeLiteral "avg=" s
  let (avg, s) ← takeRun isFloatChar s
  let (_, s) ← takeRun isSpace s
  let s ← takeLiteral "voltage=" s
  let (voltage, _) ← takeRun isFloatChar s
  return (raw, avg, voltage)

/-- `ADC_RE.search`. -/
def searchAdc : List Char → Option (List Char × List Char × List Char)
  | [] => matchAdc decimalValue []
  | c :: s =>
    match matchAdc decimalValue (c :: s) with
    | some groups => some groups
    | none => searchAdc s

def pyInt (s : List Char) : Nat := s.foldl (fun value c => value * 10 + (decimalValue c).getD 0) 0

/-- `float` of a text of digits and dots; `none` is a `ValueError`. -/
def pyFloat (s : List Char) : Option ℚ :=
  let whole := s.takeWhile (· != '.')
  let fraction := (s.dropWhile (· != '.')).drop 1
  if fraction.contains '.' ∨ whole ++ fraction = [] then none
  else
    let digits := (whole ++ fraction).foldl (fun value c => value * 10 + (c.toNat - '0'.toNat)) 0
    some (DecimalText.roundBinary 53 (digits / 10 ^ fraction.length))

structure AdcValues where
  adcRaw : Nat
  adcAvg : ℚ
  adcVoltage : ℚ
  deriving DecidableEq

inductive PyError where
  | valueError
  deriving DecidableEq

def parseAdcText (text : List Char) : Except PyError (Option AdcValues) :=
  match searchAdc decimalValue text with
  | none => .ok none
  | some (raw, avg, voltage) =>
    match pyFloat avg, pyFloat voltage with
    | some adcAvg, some adcVoltage => .ok (some { adcRaw := pyInt decimalValue raw, adcAvg, adcVoltage })
    | _, _ => .error .valueError

def levelName (level : Nat) : List Char :=
  match level with
  | 0 => "INFO".toList
  | 1 => "WARN".toList
  | 2 => "ERROR".toList
  | level => "LV".toList ++ str level

def eventName (eventId : Nat) : List Char :=
  match eventId with
  | 1 => "SYSTEM_START".toList
  | 2 => "SYSTEM_READY".toList
  | 3 => "SYSTEM_ERROR".toList
  | 4 => "SENSOR_READING".toList
  | 100 => "HEARTBEAT".toList
  | 101 => "COUNTER_MARK".toList
  | 102 => "CHECKPOINT".toList
  | 110 => "UART_RX".toList
  | 111 => "UART_TX".toList
  | 120 => "DMA_DONE".toList
  | 200 => "TEXT_LOG".toList
  | 201 => "DEBUG_LOG".toList
  | 210 => "LOGGER_STATS".toList
  | 300 => "QUEUE_FULL".toList
  | 301 => "CRC_ERROR".toList
  | 302 => "UART_ERROR".toList
  | 303 => "DMA_ERROR".toList
  | 304 => "SENSOR_ERROR".toList
  | 390 => "UNKNOWN_ERROR".toList
  | 391 => "FATAL_ERROR".toList
  | 1000 => "APP_EVENT_00".toList
  | 1001 => "APP_EVENT_01".toList
  | eventId => "EVENT_".toList ++ str eventId

/-- The columns of a row; `none` in an ADC column is the empty string. -/
structure CsvRow where
  pcTime : List Char
  seq : Nat
  eventId : Nat
  eventName : List Char
  level : Nat
  levelName : List Char
  timestampUs : Nat
  length : Nat
  payloadHex : List Char
  payloadText : List Char
  adcRaw : Option Nat
  adcAvg : Option ℚ
  adcVoltage : Option ℚ
  crcRx : List Char
  crcCalc : List Char
  crcOk : Nat
  deriving DecidableEq

/-- The row that `write_csv` hands to the writer, with `pcTime` from `time.strftime`. -/
def writeCsv (pcTime : List Char) (frame : LogFrame) : Except PyError CsvRow := do
  let payloadHex := csvSafeText (hexBytes frame.payload)
  let payloadText := if frame.crcOk then csvSafeText (payloadToText frame) else "<CRC_NG>".toList
  let adc ← if frame.crcOk then parseAdcText decimalValue payloadText else .ok none
  return {
    pcTime
    seq := frame.seq
    eventId := frame.eventId
    eventName := eventName frame.eventId
    level := frame.level
    levelName := levelName frame.level
    timestampUs := frame.timestampUs
    length := frame.length
    payloadHex
    payloadText
    adcRaw := adc.map AdcValues.adcRaw
    adcAvg := adc.map AdcValues.adcAvg
    adcVoltage := adc.map AdcValues.adcVoltage
    crcRx := hexWord frame.crcRx
    crcCalc := hexWord frame.crcCalc
    crcOk := frame.crcOk.toNat }

end PicoWLogger.LoggerViewer
