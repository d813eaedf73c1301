import PicoWLogger.Lib.PyText
import PicoWLogger.ViewerCsv

/-! `plot_sensor_log.py`: the rows that it finds in what `logger_viewer.py` has printed. -/

namespace PicoWLogger.SensorPlot
open LoggerViewer PyText

/-- `msg="([^"]+)"` at the start of a text: its group. A run that stops before its end is not followed by a quote. -/
def matchMsg (s : List Char) : Option (List Char) := do
  let s ← takeLiteral "msg=\x22" s
  let (msg, s) ← takeRun (· ≠ '\x22') s
  let _ ← takeLiteral "\x22" s
  return msg

def extractMsg (line : List Char) : Option (List Char) := search matchMsg line

structure AdcRow where
  timestampMs : Int
  raw : Int
  avg : Int
  voltage : PyFloat
  deriving DecidableEq

structure TempRow where
  timestampMs : Int
  temperatureC : PyFloat
  status : List Char
  deriving DecidableEq

-- the value of a decimal digit of Unicode
variable (decimalValue : Char → Option Nat)

/-- The row of a message. A `ValueError` leaves it out, and so does any other form. -/
def parseMsg (msg : List Char) : Option (AdcRow ⊕ TempRow) :=
  match msg.splitOn ',' with
  | [kind, timestampMs, raw, avg, voltage] =>
    if kind = "ADC".toList then do
      let timestampMs ← int isSpace decimalValue timestampMs
      let raw ← int isSpace decimalValue raw
      let avg ← int isSpace decimalValue avg
      let voltage ← float isSpace decimalValue voltage
      return .inl { timestampMs, raw, avg, voltage }
    else none
  | [kind, timestampMs, temperatureC, status] =>
    if kind = "TEMP".toList then do
      let timestampMs ← int isSpace decimalValue timestampMs
      let temperatureC ← float isSpace decimalValue temperatureC
      return .inr { timestampMs, temperatureC, status }
    else none
  | _ => none

def parseLine (line : List Char) : Option (AdcRow ⊕ TempRow) := (extractMsg line).bind (parseMsg decimalValue)

def parseLogFile (text : List Char) : List AdcRow × List TempRow :=
  let rows := (lines text).filterMap (parseLine decimalValue)
  (rows.filterMap Sum.getLeft?, rows.filterMap Sum.getRight?)

end PicoWLogger.SensorPlot
