import PicoWLogger.EventLogger
import PicoWLogger.Lib.DecimalText
import PicoWLogger.MovingAverage

/-! `AdcLoggerTask.cpp`: the turns of the ADC task, with the log line of each. -/

namespace PicoWLogger.AdcLoggerTask
open DecimalText

/-- `static_cast<float>(raw_avg) * 3.3f / 4095.0`: the product is a `float`, the quotient a `double`, and
the `float` that it is stored in goes to `logf` as a `double`. -/
def voltage (rawAvg : UInt16) : ℚ :=
  let product := roundBinary 24 (rawAvg.toNat * roundBinary 24 (33 / 10))
  roundBinary 24 (roundBinary 53 (product / 4095))

/-- `"ADC,%lu,%u,%u,%.3f"`. -/
def text (timestampMs : UInt32) (raw rawAvg : UInt16) : List UInt8 :=
  ascii "ADC," ++ decimal timestampMs.toNat ++ ascii "," ++ decimal raw.toNat ++ ascii "," ++ decimal rawAvg.toNat ++
    ascii "," ++ fixed 3 (voltage rawAvg)

def request (timestampMs : UInt32) (raw rawAvg : UInt16) : LogRequest :=
  LogRequest.text LogLevel.INFO (text timestampMs raw rawAvg)

example : text 1000 2048 2047 = ascii "ADC,1000,2048,2047,1.650" := by decide +kernel

structure AdcLatestValue where
  raw : UInt16
  avg : UInt16
  voltage : ℚ
  timestampMs : UInt32
  valid : Bool

theorem sixteen_positive : (16 : UInt32) > 0 := by decide

abbrev N : WindowSize := ⟨16, sixteen_positive⟩

structure AdcTask where
  adcAvg : MovingAverage UInt16 N Int64
  adcLatest : AdcLatestValue

/-- The sample of a turn, which `adc_read` takes from a converter of 12 bits, and what else the turn meets. -/
structure AdcTurn where
  raw : UInt16
  timestampMs : UInt32
  logPaused : Bool

namespace AdcTask

/-- The constructor of the filter resets what is in its memory. -/
def start (memory : MovingAverage UInt16 N Int64) : AdcTask where
  adcAvg := memory.reset
  adcLatest := { raw := 0, avg := 0, voltage := 0, timestampMs := 0, valid := false }

def turn (task : AdcTask) (t : AdcTurn) : AdcTask × List LogRequest :=
  let adcAvg := task.adcAvg.add t.raw
  let rawAvg := adcAvg.average
  ({ adcAvg
     adcLatest := { raw := t.raw, avg := rawAvg, voltage := voltage rawAvg, timestampMs := t.timestampMs, valid := true } },
    if t.logPaused then [] else [request t.timestampMs t.raw rawAvg])

def run (task : AdcTask) : List AdcTurn → AdcTask × List LogRequest
  | [] => (task, [])
  | t :: rest =>
    let (task, requests) := task.turn t
    let (task, later) := task.run rest
    (task, requests ++ later)

end AdcTask

end PicoWLogger.AdcLoggerTask
