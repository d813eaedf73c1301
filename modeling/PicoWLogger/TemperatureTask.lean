import PicoWLogger.ButtonTask
import PicoWLogger.EnvironmentTask
import PicoWLogger.LcdPanel
import PicoWLogger.WifiTask

/-! `TemperatureTask.cpp`: the turns of the task that reads the thermometer and keeps the display, with the texts that it
hands to `logf` and the calls that it makes on the display. -/

namespace PicoWLogger
open Bme280 DecimalText HttpServer SharedLock

namespace TemperatureTask

abbrev HWM_LOG_INTERVAL_COUNT : UInt32 := 60

abbrev RETRY_COUNT : Nat := 3

/-- `%{width}s` and the padding of the other conversions. -/
def padded (width : Nat) (text : List UInt8) : List UInt8 := List.replicate (width - text.length) 0x20 ++ text

/-- `%.0f`. -/
def rounded (q : ℚ) : List UInt8 := (if q < 0 then ['-'.toUInt8] else []) ++ decimal (roundHalfEven |q|).toNat

/-- `snprintf` to the nine characters of a line. -/
def line (text : List UInt8) : List UInt8 := snprintf 9 text

def readAdt7410WithRetry (sensor : AEADT7410) : IoProgram (Option Int16) := readWithRetry sensor.readTemperature RETRY_COUNT

/-- `"TEMP,%lu,%.6f,%s"`. -/
def tempText (timestampMs : UInt32) (temperatureC : ℚ) (valid : Bool) : List UInt8 :=
  ascii "TEMP," ++ decimal timestampMs.toNat ++ ascii "," ++ fixed 6 temperatureC ++ ascii "," ++
    if valid then ascii "OK" else ascii "NG"

/-- The texts that go to `logf`, unless the log is paused. -/
def logged (logPaused : Bool) (texts : List (List UInt8)) : List (List UInt8) := if logPaused then [] else texts

def displayTemperature (valid : Bool) (count : UInt32) (temperatureC : ℚ) : List UInt8 × List UInt8 :=
  if valid then
    (line (ascii "T:" ++ padded 5 (fixed 2 temperatureC)), line (ascii "OK " ++ paddedDecimal 4 (count.toNat % 10000)))
  else (line (ascii "T:--.--"), line (ascii "NG " ++ paddedDecimal 4 (count.toNat % 10000)))

/-- What the other modes show, as it is at the time of a turn. -/
structure Shown where
  /-- The voltage of `getAdcLatestValue`, when it is valid. -/
  adc : Option FiniteFloat
  /-- `getCount` of the storage. -/
  logCount : UInt32
  /-- `getLatestBme280Values`. -/
  bme280 : BME280Values × UInt32 × Bool
  wifi : WifiStatus

/-- A line with a value, or `NO DATA`. -/
def value (valid : Bool) (text : List UInt8) : List UInt8 := if valid then line text else ascii "NO DATA"

def cString (bytes : List UInt8) : List UInt8 := bytes.takeWhile (· ≠ 0)

def screen (mode : DisplayMode) (valid : Bool) (count : UInt32) (temperatureC : ℚ) (shown : Shown) :
    List UInt8 × List UInt8 :=
  match mode with
  | .temperature => displayTemperature valid count temperatureC
  | .adcVoltage =>
    (ascii "ADC", value shown.adc.isSome (padded 5 (fixed 3 (shown.adc.elim 0 Subtype.val)) ++ ascii "V"))
  | .logStatus => (ascii "LOG CNT", line (decimal shown.logCount.toNat))
  | .bmeTemperature =>
    (ascii "BME T", value shown.bme280.2.2 (padded 5 (fixed 2 shown.bme280.1.temperatureC.val) ++ ascii "C"))
  | .bmeHumidity =>
    (ascii "BME H", value shown.bme280.2.2 (padded 5 (fixed 1 shown.bme280.1.humidityRh.val) ++ ascii "%"))
  | .bmePressure =>
    (ascii "BME P", value shown.bme280.2.2 (padded 4 (rounded shown.bme280.1.pressureHpa.val) ++ ascii "hPa"))
  | .i2cInfo => (ascii "I2C DEV", ascii "3E 48 76")
  | .wiFiIp =>
    match shown.wifi.state with
    | .gotIp => (cString (shown.wifi.ip.toList.take 8), cString ((shown.wifi.ip.toList.drop 8).take 8))
    | .connecting => (ascii "Wifi", ascii "Conn...")
    | .error => (ascii "Wifi NG", ascii "Error")
    | _ => (ascii "Wifi", ascii "WAIT")

def printed (lines : List UInt8 × List UInt8) : List LcdCall := [.printLine 0 lines.1, .printLine 1 lines.2]

/-- What a turn of the loop meets: the bus as it is when the thermometer is used first. -/
structure Turn where
  maintenanceBusy : Bool
  timestampMs : UInt32
  bus : SensorBus
  logPaused : Bool
  stackHighWaterMark : UInt32
  shown : Shown

end TemperatureTask

open TemperatureTask

/-- The locals of the task, with the thermometer, and the queue that the button task writes. -/
structure TemperatureTask where
  sensor : AEADT7410
  currentMode : DisplayMode
  count : UInt32
  lcdInitialized : Bool
  displayModeQueue : Option DisplayMode

namespace TemperatureTask

/-- The end of a turn behind the reading: the texts, the queue and the display. -/
def finish (task : TemperatureTask) (t : Turn) (reading : Option Int16) :
    TemperatureTask × List (List UInt8) × List LcdCall :=
  let valid := reading.isSome
  let temperatureC : ℚ := (reading.elim 0 Int16.toInt) / 128
  let temp := logged t.logPaused [tempText t.timestampMs temperatureC valid]
  let hwm :=
    if task.count > 0 ∧ task.count % HWM_LOG_INTERVAL_COUNT = 0 then
      logged t.logPaused [ascii "TEMP_TASK_HWM," ++ decimal t.stackHighWaterMark.toNat]
    else []
  let next : TemperatureTask :=
    { task with
      sensor := if valid then task.sensor else { task.sensor with initialized := false }
      currentMode := task.displayModeQueue.getD task.currentMode
      count := task.count + 1
      displayModeQueue := none }
  let changed := task.displayModeQueue.isSome
  let mode :=
    if changed then logged t.logPaused [ascii "DisplayMode changed: " ++ decimal next.currentMode.toInt] else []
  let cleared := if changed ∧ task.lcdInitialized then [LcdCall.clear] else []
  let calls := if task.lcdInitialized then printed (screen next.currentMode valid task.count temperatureC t.shown) else []
  (next, temp ++ hwm ++ mode, cleared ++ calls)

def turn (task : TemperatureTask) (t : Turn) : TemperatureTask × List (List UInt8) × List LcdCall :=
  if t.maintenanceBusy then (task, [], [])
  else if task.sensor.initialized then
    task.finish t (t.bus.result (readAdt7410WithRetry task.sensor))
  else
    let (ok, sensor) := t.bus.result task.sensor.init
    if !ok then
      ({ task with sensor, count := task.count + 1 }, logged t.logPaused [tempText t.timestampMs 0 false],
        if task.lcdInitialized then printed (displayTemperature false task.count 0) else [])
    else
      let started := logged t.logPaused [ascii "AEADT7410 init OK"]
      let reading := (t.bus.after task.sensor.init).result (readAdt7410WithRetry sensor)
      let done := { task with sensor }.finish t reading
      (done.1, started ++ done.2.1, done.2.2)

/-- The task as it enters its loop, when the display could be initialised or not. -/
def start (sensor : AEADT7410) (lcdInitialized : Bool) : TemperatureTask where
  sensor := sensor
  currentMode := .temperature
  count := 0
  lcdInitialized := lcdInitialized
  displayModeQueue := none

def greeting (lcdInitialized : Bool) : List LcdCall :=
  if lcdInitialized then printed (ascii "ADT7410", ascii "START") else []

end TemperatureTask

end PicoWLogger
