import PicoWLogger.EventLogger
import PicoWLogger.HttpServer
import PicoWLogger.Lib.FloatRounding
import PicoWLogger.SensorBus

/-! `EnvironmentTask.cpp` and `EnvironmentData.cpp`: the task that reads the sensor for humidity and pressure, and what
it leaves for the log, the display and the web page. -/

namespace PicoWLogger
open CheckedInt DecimalText HttpServer SharedLock

namespace Bme280

structure BME280Values where
  temperatureC : FiniteFloat
  pressureHpa : FiniteFloat
  humidityRh : FiniteFloat

/-- `static_cast<float>(n) / divisor`, where both steps round. -/
def floatQuotient (n : Int) (divisor : ℚ) (small : |n| ≤ 2 ^ 32) (large : 1 ≤ divisor) : FiniteFloat where
  val := roundBinary 24 (roundBinary 24 n / divisor)
  property := by
    have numerator : |(n : ℚ)| ≤ 2 ^ 32 := by exact_mod_cast small
    calc |roundBinary 24 (roundBinary 24 n / divisor)| ≤ 2 * |roundBinary 24 n / divisor| := abs_roundBinary_le _ _
      _ ≤ 2 * |roundBinary 24 n| := by
          rw [abs_div, abs_of_pos (zero_lt_one.trans_le large)]
          exact mul_le_mul_of_nonneg_left (div_le_self (abs_nonneg _) large) two_pos.le
      _ ≤ 2 * (2 * |(n : ℚ)|) := mul_le_mul_of_nonneg_left (abs_roundBinary_le _ _) two_pos.le
      _ < 2 ^ 128 := by linarith

theorem abs_word (n : UInt32) : |(n.toNat : Int)| ≤ 2 ^ 32 := by
  have range := n.toNat_lt
  exact abs_le.mpr ⟨by omega, by omega⟩

theorem abs_int32 (n : Int32) : |n.toInt| ≤ 2 ^ 32 := by
  have low := n.le_toInt
  have high := n.toInt_lt
  exact abs_le.mpr ⟨by omega, by omega⟩

/-- The last lines of `read`. -/
def Compensated.values (c : Compensated) : BME280Values where
  temperatureC := floatQuotient (Int32.ofInt c.temperature01C).toInt 100 (abs_int32 _) (by norm_num)
  pressureHpa := floatQuotient c.pressurePa.toNat 100 (abs_word _) (by norm_num)
  humidityRh := floatQuotient c.humidity1024.toNat 1024 (abs_word _) (by norm_num)

end Bme280

open Bme280

structure EnvironmentTask where
  bme280 : BME280
  latestBme280Values : BME280Values
  latestBme280TimestampMs : UInt32
  latestBme280Valid : Bool
  envData : EnvironmentData

structure EnvironmentTurn where
  maintenanceBusy : Bool
  timestampMs : UInt32
  bus : SensorBus
  logPaused : Bool

namespace EnvironmentTask

abbrev RETRY_COUNT : Nat := 3

def readBme280WithRetry (bme280 : BME280) : IoProgram (Option (Checked Compensated)) :=
  readWithRetry bme280.read RETRY_COUNT

/-- `"ENV,%lu,%.2f,%.2f,%.2f"`. -/
def envText (timestampMs : UInt32) (values : BME280Values) : List UInt8 :=
  ascii "ENV," ++ decimal timestampMs.toNat ++ ascii "," ++ fixed 2 values.temperatureC.val ++ ascii "," ++
    fixed 2 values.humidityRh.val ++ ascii "," ++ fixed 2 values.pressureHpa.val

/-- `"ENV,%lu,ERR"`. -/
def errText (timestampMs : UInt32) : List UInt8 := ascii "ENV," ++ decimal timestampMs.toNat ++ ascii ",ERR"

/-- What `logf` passes on to `log`, unless the log is paused. -/
def logf (logPaused : Bool) (text : List UInt8) : List LogRequest :=
  if logPaused then [] else [LogRequest.text LogLevel.INFO text]

def updateLatestBme280Values (task : EnvironmentTask) (values : BME280Values) (timestampMs : UInt32) : EnvironmentTask :=
  { task with
    latestBme280Values := values
    latestBme280TimestampMs := timestampMs
    latestBme280Valid := true }

def environmentDataSet (task : EnvironmentTask) (temperature humidity pressure : FiniteFloat) : EnvironmentTask :=
  { task with envData := { temperature, humidity, pressure, valid := true } }

def getLatestBme280Values (task : EnvironmentTask) : BME280Values × UInt32 × Bool :=
  (task.latestBme280Values, task.latestBme280TimestampMs, task.latestBme280Valid)

def turn (task : EnvironmentTask) (t : EnvironmentTurn) : Checked (EnvironmentTask × List LogRequest) :=
  if t.maintenanceBusy then .ok (task, [])
  else
    match t.bus.result (readBme280WithRetry task.bme280) with
    | some out => do
      let values := (← out).values
      let task := task.updateLatestBme280Values values t.timestampMs
      let task := task.environmentDataSet values.temperatureC values.humidityRh values.pressureHpa
      return (task, logf t.logPaused (envText t.timestampMs values))
    | none => return (task, logf t.logPaused (errText t.timestampMs))

def turns (task : EnvironmentTask) : List EnvironmentTurn → Checked (EnvironmentTask × List LogRequest)
  | [] => .ok (task, [])
  | t :: rest => do
    let (task, requests) ← task.turn t
    let (task, later) ← task.turns rest
    return (task, requests ++ later)

theorem zero_finite : |(0 : ℚ)| < 2 ^ 128 := by norm_num

def zero : FiniteFloat := ⟨0, zero_finite⟩

/-- The task behind the `init` of `main`, which goes on whether that fails or not. -/
def boot (bus : SensorBus) : EnvironmentTask where
  bme280 := (bus.result (PicoWLogger.bme280 .zero).init).2
  latestBme280Values := ⟨zero, zero, zero⟩
  latestBme280TimestampMs := 0
  latestBme280Valid := false
  envData := { temperature := zero, humidity := zero, pressure := zero, valid := false }

end EnvironmentTask

end PicoWLogger
