import PicoWLogger.EnvironmentTask
import PicoWLogger.Proofs.Bme280Overflow
import PicoWLogger.Proofs.HttpAnswers
import PicoWLogger.Proofs.SensorBus

/-! What the environment task reports over a whole run: the log, the display and the web page show the same readings,
each made from a sample that the sensor held at the time with the coefficients that `init` got from it. -/

namespace PicoWLogger
open CheckedInt DecimalText HttpServer SharedLock

namespace Bme280

section Driver
variable {dev : BME280} (mutex : dev.i2cMutex = true) (bus : SensorBus)
include mutex

theorem readRegisters_bursts (start : UInt8) (length : Nat) (some' : length ≠ 0) :
    bus.Bursts (dev.readRegisters start length) start id := by
  rw [BME280.readRegisters, if_neg some', mutex]
  exact bus.bursts dev.address start id

theorem read_bursts : bus.Bursts dev.read REG_DATA (compensate dev.cal ∘ Bme280.readRaw) :=
  ((readRegisters_bursts mutex bus REG_DATA 8 (by decide)).map Bme280.readRaw).map (compensate dev.cal)

theorem readChipId_bursts : bus.Bursts dev.readChipId REG_ID fun value : Vector UInt8 1 => value.get 0 :=
  (readRegisters_bursts mutex bus REG_ID 1 (by decide)).map fun bytes => bytes.get 0

/-- The coefficients of two bursts, or nothing when one of the four transfers is lost. -/
theorem readCalibration_run :
    (∃ later, (∀ i < 4, bus.transfers i = .sent) ∧
      dev.readCalibration.run SensorBus.take SensorBus.perform bus =
        (some (Bme280.readCalibration (bus.burst 1 REG_CALIB00 26) (bus.burst 3 REG_CALIB26 7)), later)) ∨
    (∃ later, (∃ i < 4, bus.transfers i ≠ .sent) ∧
      dev.readCalibration.run SensorBus.take SensorBus.perform bus = (none, later)) := by
  cases readRegisters_bursts mutex bus REG_CALIB00 26 (by decide) with
  | @lost mid k shifted few lost ran =>
    obtain ⟨i, early, lost⟩ := lost
    refine .inr ⟨mid, ⟨i, by omega, lost⟩, ?_⟩
    simp only [BME280.readCalibration, Program.run_bind, ran, Program.run]
  | @found mid shifted sent ran =>
    cases readRegisters_bursts mutex mid REG_CALIB26 7 (by decide) with
    | @lost later k onward few lost ran' =>
      obtain ⟨i, early, lost⟩ := lost
      rw [shifted.transfers] at lost
      refine .inr ⟨later, ⟨i + 2, by omega, lost⟩, ?_⟩
      simp only [BME280.readCalibration, Program.run_bind, ran, ran', Program.run]
    | @found later onward sent' ran' =>
      refine .inl ⟨later, fun i early => ?_, ?_⟩
      · by_cases first : i < 2
        · exact sent i first
        · have after := sent' (i - 2) (by omega)
          rwa [shifted.transfers, Nat.sub_add_cancel (by omega)] at after
      · rw [shifted.burst] at ran'
        simp only [BME280.readCalibration, Program.run_bind, ran, ran', Program.run, id]

/-- `init` gets the id and the coefficients: its first six transfers are sent, and the id is the expected one. -/
def Answers (bus : SensorBus) : Prop := (∀ n < 6, bus.transfers n = .sent) ∧ bus.registers 1 REG_ID = CHIP_ID

def coefficients (bus : SensorBus) : Calibration :=
  Bme280.readCalibration (bus.burst 3 REG_CALIB00 26) (bus.burst 5 REG_CALIB26 7)

omit mutex in
theorem not_answers {bus : SensorBus} {n : Nat} (early : n < 6) (lost : bus.transfers n ≠ .sent) : ¬ Answers bus :=
  fun answers => lost (answers.1 n early)

theorem init_cal :
    (Answers bus → (bus.result dev.init).2.cal = coefficients bus) ∧
    (¬ Answers bus → (bus.result dev.init).2.cal = dev.cal) := by
  cases readChipId_bursts mutex bus with
  | @lost mid k shifted few lost ran =>
    obtain ⟨i, early, lost⟩ := lost
    refine ⟨fun answers => absurd answers (not_answers (by omega) lost), fun _ => ?_⟩
    simp only [SensorBus.result, BME280.init, Program.run_bind, ran, Program.run]
  | @found mid shifted sent ran =>
    have id : (bus.burst 1 REG_ID 1).get 0 = bus.registers 1 REG_ID := Vector.getElem_ofFn _
    rw [id] at ran
    by_cases other : bus.registers 1 REG_ID ≠ CHIP_ID
    · refine ⟨fun answers => absurd answers.2 other, fun _ => ?_⟩
      simp only [SensorBus.result, BME280.init, Program.run_bind, ran, if_pos other, Program.run]
    · rcases readCalibration_run mutex mid with ⟨later, sent', ran'⟩ | ⟨later, ⟨i, early, lost⟩, ran'⟩
      · have answers : Answers bus := by
          refine ⟨fun n early => ?_, not_not.mp other⟩
          by_cases first : n < 2
          · exact sent n first
          · have after := sent' (n - 2) (by omega)
            rwa [shifted.transfers, Nat.sub_add_cancel (by omega)] at after
        rw [shifted.burst, shifted.burst] at ran'
        refine ⟨fun _ => ?_, fun silent => absurd answers silent⟩
        simp only [SensorBus.result, BME280.init, Program.run_bind, ran, if_neg other, ran', Program.run, coefficients]
      · rw [shifted.transfers] at lost
        refine ⟨fun answers => absurd answers (not_answers (by omega) lost), fun _ => ?_⟩
        simp only [SensorBus.result, BME280.init, Program.run_bind, ran, if_neg other, ran', Program.run]

omit mutex in
theorem init_mutex : (bus.result dev.init).2.i2cMutex = dev.i2cMutex := by
  rw [SensorBus.result, BME280.init, Program.run_bind]
  cases (dev.readChipId.run SensorBus.take SensorBus.perform bus).1 with
  | none => rfl
  | some id =>
    dsimp only
    split
    · rfl
    · rw [Program.run_bind]
      split
      · rfl
      · rw [Program.run_bind]
        rfl

end Driver

section Numbers

/-- A block of coefficients that came from the registers. -/
def Calibration.Read (cal : Calibration) : Prop := ∃ b1 b2, cal = Bme280.readCalibration b1 b2

theorem Calibration.zero_read : Calibration.zero.Read := ⟨Vector.replicate 26 0, Vector.replicate 7 0, by decide⟩

theorem compensate_ok {cal : Calibration} (read : cal.Read) {raw : Vector UInt8 8} {c : Compensated}
    (done : compensate cal (Bme280.readRaw raw) = .ok c) :
    CompensationFits cal (Bme280.readRaw raw) ∧ c = compensated cal (Bme280.readRaw raw) := by
  obtain ⟨b1, b2, rfl⟩ := read
  exact (compensate_exact b1 b2 raw).of_ok done

theorem compensated_zero (sample : RawSample) : compensated .zero sample = ⟨0, 0, 0⟩ := by
  have cold : tFine .zero sample.adcT.toInt = 0 := by
    simp [tFine, tLinear, tProduct, Calibration.zero, shr]
  have divisor : pDivisor .zero 0 = 0 := by
    simp [pDivisor, pScaled, Calibration.zero, shr]
  have product : hProduct .zero 0 sample.adcH.toInt = 0 := by
    simp [hProduct, hScaled, Calibration.zero, shr]
  have corrected : hCorrected .zero 0 sample.adcH.toInt = 0 := by
    simp [hCorrected, hCorrection, hSquare, product, shr]
  simp [compensated, cold, pressureOf, divisor, humidityOf, corrected, shr]
  decide

/-- The numbers as `%.2f` prints them: hundredths, and the humidity to the nearest hundredth. Above 83886.07 hPa a `float`
has no hundredths. -/
def Compensated.temperatureText (c : Compensated) : List UInt8 := scaled 2 c.temperature01C

def Compensated.humidityText (c : Compensated) : List UInt8 := fixed 2 (c.humidity1024.toNat / 1024)

def Compensated.pressureText (c : Compensated) : List UInt8 :=
  if c.pressurePa.toNat < 2 ^ 23 then scaled 2 c.pressurePa.toNat else fixed 2 c.values.pressureHpa.val

/-- A quotient of whole hundredths prints as those, as long as a `float` has room for them. -/
theorem fixed_floatQuotient {n : Int} (small : |n| ≤ 2 ^ 32) (large : (1 : ℚ) ≤ 100) (fits : |n| < 2 ^ 23) :
    fixed 2 (floatQuotient n 100 small large).val = scaled 2 n := by
  have whole : roundBinary 24 n = n := roundBinary_intCast (by omega)
  have hundred : (100 : ℚ) = 10 ^ 2 := by norm_num
  simp only [floatQuotient, whole]
  rw [hundred]
  exact fixed_roundBinary (by decide) (by omega)

theorem temperatureText_eq {c : Compensated} (fits : |c.temperature01C| < 2 ^ 23) :
    fixed 2 c.values.temperatureC.val = c.temperatureText := by
  have narrow : (Int32.ofInt c.temperature01C).toInt = c.temperature01C := by
    have size : (Int32.size : Int) = 2 ^ 32 := rfl
    obtain ⟨low, high⟩ := abs_lt.mp fits
    rw [Int32.toInt_ofInt, Int.bmod_eq_of_le] <;> omega
  calc fixed 2 c.values.temperatureC.val = scaled 2 (Int32.ofInt c.temperature01C).toInt :=
        fixed_floatQuotient (abs_int32 _) (by norm_num) (by rwa [narrow])
    _ = c.temperatureText := by rw [narrow, Compensated.temperatureText]

theorem humidityText_eq {c : Compensated} (fits : c.humidity1024.toNat < 2 ^ 24) :
    fixed 2 c.values.humidityRh.val = c.humidityText := by
  have small : |(c.humidity1024.toNat : Int)| < 2 ^ 24 := by
    rw [Nat.abs_cast]
    exact_mod_cast fits
  have fraction := roundBinary_dyadic 10 small
  have whole := roundBinary_intCast small
  have power : (2 : ℚ) ^ 10 = 1024 := by norm_num
  rw [power] at fraction
  simp only [Compensated.values, floatQuotient, whole, fraction]
  rfl

theorem pressureText_eq (c : Compensated) : fixed 2 c.values.pressureHpa.val = c.pressureText := by
  rw [Compensated.pressureText]
  split
  next fits =>
    refine fixed_floatQuotient (abs_word _) (by norm_num) ?_
    rw [Nat.abs_cast]
    exact_mod_cast fits
  next => rfl

/-- What the compensation can give: less than 231 degrees on either side of zero, at most 100 percent. -/
theorem compensated_range {cal : Calibration} {sample : RawSample} (fits : CompensationFits cal sample) :
    |(compensated cal sample).temperature01C| ≤ 23041 ∧ (compensated cal sample).humidity1024.toNat ≤ 102400 := by
  constructor
  · have bound := abs_le.mp fits.temperature.abs_tFine
    simp only [compensated, shr]
    exact abs_le.mpr ⟨by omega, by omega⟩
  · simp only [compensated, humidityOf, shr]
    have top (v : Int) (low : 0 ≤ v) (high : v ≤ 419430400) : (UInt32.ofInt (v / 2 ^ 12)).toNat ≤ 102400 := by
      rw [UInt32.ofInt, UInt32.toNat_ofNat']
      omega
    apply top
    · split
      · norm_num
      · split
        · norm_num
        · omega
    · split
      · norm_num
      · omega

end Numbers

end Bme280

open Bme280

namespace EnvironmentTask

abbrev Report := EnvironmentTurn × Option Compensated

/-- What an active turn does with its reading … -/
def report (task : EnvironmentTask) : Report → EnvironmentTask
  | (t, some c) =>
    (task.updateLatestBme280Values c.values t.timestampMs).environmentDataSet c.values.temperatureC c.values.humidityRh
      c.values.pressureHpa
  | (_, none) => task

/-- … and what it logs. -/
def reportText : Report → List UInt8
  | (t, some c) => envText t.timestampMs c.values
  | (t, none) => errText t.timestampMs

@[simp] theorem report_bme280 (task : EnvironmentTask) (r : Report) : (task.report r).bme280 = task.bme280 := by
  obtain ⟨t, reading⟩ := r
  cases reading <;> rfl

/-- What the attempts of a turn find: a sample that the sensor held at one of its six transfers, compensated, or at least
three of them lost. -/
def Reads (cal : Calibration) (bus : SensorBus) : Option Compensated → Prop
  | some c => ∃ raw, bus.Reads REG_DATA 8 RETRY_COUNT (some raw) ∧ compensate cal (Bme280.readRaw raw) = .ok c
  | none => bus.Reads REG_DATA 8 RETRY_COUNT none

section Run
variable {task done : EnvironmentTask} {requests : List LogRequest}

theorem turn_report {t : EnvironmentTurn} (mutex : task.bme280.i2cMutex = true) (active : t.maintenanceBusy = false)
    (ran : task.turn t = .ok (done, requests)) :
    ∃ reading, Reads task.bme280.cal t.bus reading ∧ done = task.report (t, reading) ∧
      requests = logf t.logPaused (reportText (t, reading)) := by
  obtain ⟨bytes, reads, same⟩ := SensorBus.reads_retry _ (fun bus => read_bursts mutex bus) RETRY_COUNT t.bus
  rw [turn, active, if_neg Bool.false_ne_true, readBme280WithRetry, same] at ran
  cases bytes with
  | none =>
    cases ran
    exact ⟨none, reads, rfl, rfl⟩
  | some raw =>
    rw [Option.map_some, Function.comp] at ran
    cases compensated' : compensate task.bme280.cal (Bme280.readRaw raw) with
    | error fault =>
      rw [compensated'] at ran
      cases ran
    | ok c =>
      rw [compensated'] at ran
      cases ran
      exact ⟨some c, ⟨raw, reads, compensated'⟩, rfl, rfl⟩

/-- Every turn of a run that is not busy makes one report, by induction on the turns. -/
theorem turns_reports {turns : List EnvironmentTurn} (mutex : task.bme280.i2cMutex = true)
    (ran : task.turns turns = .ok (done, requests)) :
    ∃ reports : List Report,
      reports.map Prod.fst = turns.filter (!·.maintenanceBusy) ∧
      (∀ r ∈ reports, Reads task.bme280.cal r.1.bus r.2) ∧
      requests = reports.flatMap (fun r => logf r.1.logPaused (reportText r)) ∧
      done = reports.foldl report task := by
  induction turns generalizing task requests with
  | nil =>
    cases ran
    exact ⟨[], rfl, List.forall_mem_nil _, rfl, rfl⟩
  | cons t rest ih =>
    rw [EnvironmentTask.turns] at ran
    cases first : task.turn t with
    | error fault =>
      rw [first] at ran
      cases ran
    | ok one =>
      obtain ⟨mid, here⟩ := one
      rw [first] at ran
      change (mid.turns rest >>= fun later => pure (later.1, here ++ later.2)) = _ at ran
      cases second : mid.turns rest with
      | error fault =>
        rw [second] at ran
        cases ran
      | ok two =>
        obtain ⟨last, later⟩ := two
        rw [second] at ran
        cases ran
        cases busy : t.maintenanceBusy with
        | true =>
          rw [turn, busy, if_pos rfl] at first
          cases first
          obtain ⟨reports, active, reads, logged, folded⟩ := ih mutex second
          refine ⟨reports, ?_, reads, logged, folded⟩
          rw [active, List.filter_cons_of_neg (by simp [busy])]
        | false =>
          obtain ⟨reading, made, rfl, rfl⟩ := turn_report mutex busy first
          obtain ⟨reports, active, reads, rfl, folded⟩ := ih (by rwa [report_bme280]) second
          refine ⟨(t, reading) :: reports, ?_, ?_, rfl, folded⟩
          · rw [List.map_cons, active, List.filter_cons_of_pos (by simp [busy])]
          · rw [report_bme280] at reads
            exact List.forall_mem_cons.mpr ⟨made, reads⟩

def newest (reports : List Report) : Option (UInt32 × Compensated) :=
  (reports.filterMap fun r => r.2.map (r.1.timestampMs, ·)).getLast?

theorem newest_append (reports : List Report) (t : EnvironmentTurn) :
    newest (reports ++ [(t, none)]) = newest reports ∧
      ∀ c, newest (reports ++ [(t, some c)]) = some (t.timestampMs, c) := by
  constructor
  · rw [newest, List.filterMap_append, List.filterMap_cons_none rfl, List.filterMap_nil, List.append_nil, newest]
  · intro c
    rw [newest, List.filterMap_append]
    exact List.getLast?_concat

theorem newest_mem {reports : List Report} {timestampMs : UInt32} {c : Compensated}
    (last : newest reports = some (timestampMs, c)) : ∃ r ∈ reports, r.2 = some c := by
  obtain ⟨r, member, made⟩ := List.mem_filterMap.mp (List.mem_of_getLast? last)
  obtain ⟨reading, found, same⟩ := Option.map_eq_some_iff.mp made
  cases same
  exact ⟨r, member, found⟩

/-- The task holds the newest reading, by induction from the last report. -/
theorem foldl_report (reports : List Report) :
    (∀ timestampMs c, newest reports = some (timestampMs, c) →
      (reports.foldl report task).getLatestBme280Values = (c.values, timestampMs, true) ∧
      (reports.foldl report task).envData =
        { temperature := c.values.temperatureC
          humidity := c.values.humidityRh
          pressure := c.values.pressureHpa
          valid := true }) ∧
    (newest reports = none → reports.foldl report task = task) := by
  induction reports using List.reverseRecOn with
  | nil => exact ⟨fun _ _ same => (by cases same), fun _ => rfl⟩
  | append_singleton reports r ih =>
    obtain ⟨t, reading⟩ := r
    rw [List.foldl_append, List.foldl_cons, List.foldl_nil]
    cases reading with
    | none =>
      rw [(newest_append reports t).1]
      exact ih
    | some c =>
      rw [(newest_append reports t).2 c]
      refine ⟨fun timestampMs latest same => ?_, fun same => by cases same⟩
      cases same
      exact ⟨rfl, rfl⟩

end Run

section Texts

def line : Report → List UInt8
  | (t, some c) =>
    ascii "ENV," ++ decimal t.timestampMs.toNat ++ ascii "," ++ c.temperatureText ++ ascii "," ++ c.humidityText ++
      ascii "," ++ c.pressureText
  | (t, none) => ascii "ENV," ++ decimal t.timestampMs.toNat ++ ascii ",ERR"

def page : Option (UInt32 × Compensated) → List UInt8
  | some (_, c) =>
    ascii "\x7b\"valid\":true,\"temperature\":" ++ c.temperatureText ++ ascii ",\"humidity\":" ++ c.humidityText ++
      ascii ",\"pressure\":" ++ c.pressureText ++ ascii "\x7d"
  | none => ascii "\x7b\"valid\":false\x7d"

theorem texts_of_reading {cal : Calibration} (read : cal.Read) {bus : SensorBus} {c : Compensated}
    (reads : Reads cal bus (some c)) :
    fixed 2 c.values.temperatureC.val = c.temperatureText ∧ fixed 2 c.values.humidityRh.val = c.humidityText := by
  obtain ⟨raw, -, done⟩ := reads
  obtain ⟨fits, rfl⟩ := compensate_ok read done
  obtain ⟨temperature, humidity⟩ := compensated_range fits
  exact ⟨temperatureText_eq (by omega), humidityText_eq (by omega)⟩

theorem reportText_eq {cal : Calibration} (read : cal.Read) {r : Report} (reads : Reads cal r.1.bus r.2) :
    reportText r = line r := by
  obtain ⟨t, reading⟩ := r
  cases reading with
  | none => rfl
  | some c =>
    obtain ⟨temperature, humidity⟩ := texts_of_reading read reads
    rw [reportText, line, envText, temperature, humidity, pressureText_eq]

theorem length_floatQuotient (n : Int) (divisor : ℚ) (small : |n| ≤ 2 ^ 32) (large : 100 ≤ divisor)
    (large' : 1 ≤ divisor) :
    (fixed 2 (floatQuotient n divisor small large').val).length ≤ 13 := by
  have numerator : |(n : ℚ)| ≤ 2 ^ 32 := by exact_mod_cast small
  have quotient : |roundBinary 24 n / divisor| ≤ 2 ^ 33 / 100 := by
    rw [abs_div, abs_of_pos (show 0 < divisor by linarith)]
    exact div_le_div₀ (by norm_num) (by linarith [abs_roundBinary_le 24 n]) (by norm_num) large
  have bound : |(floatQuotient n divisor small large').val| + 1 < (10 : ℚ) ^ 9 := by
    have rounded := abs_roundBinary_le 24 (roundBinary 24 n / divisor)
    simp only [floatQuotient]
    linarith
  exact length_fixed_le 2 (by decide) bound

theorem length_reportText (r : Report) : (reportText r).length < LOG_PAYLOAD_MAX := by
  obtain ⟨t, reading⟩ := r
  have time : (decimal t.timestampMs.toNat).length ≤ 10 :=
    length_decimal_le (by decide) (t.timestampMs.toNat_lt.trans (by decide))
  have names : (ascii "ENV,").length = 4 ∧ (ascii ",").length = 1 ∧ (ascii ",ERR").length = 4 := by decide +kernel
  cases reading with
  | none =>
    simp only [reportText, errText, List.length_append, names, LOG_PAYLOAD_MAX]
    omega
  | some c =>
    have temperature : (fixed 2 c.values.temperatureC.val).length ≤ 13 :=
      length_floatQuotient _ _ (abs_int32 _) (by norm_num) (by norm_num)
    have humidity : (fixed 2 c.values.humidityRh.val).length ≤ 13 :=
      length_floatQuotient _ _ (abs_word _) (by norm_num) (by norm_num)
    have pressure : (fixed 2 c.values.pressureHpa.val).length ≤ 13 :=
      length_floatQuotient _ _ (abs_word _) (by norm_num) (by norm_num)
    simp only [reportText, envText, List.length_append, names, LOG_PAYLOAD_MAX]
    omega

end Texts

section Boot
variable {start : SensorBus} {turns : List EnvironmentTurn} {done : EnvironmentTask} {requests : List LogRequest}

theorem boot_mutex (start : SensorBus) : (boot start).bme280.i2cMutex = true := @init_mutex (PicoWLogger.bme280 .zero) start

theorem boot_cal (start : SensorBus) :
    (Answers start → (boot start).bme280.cal = coefficients start) ∧
    (¬ Answers start → (boot start).bme280.cal = .zero) :=
  init_cal rfl start

theorem boot_read (start : SensorBus) : (boot start).bme280.cal.Read := by
  by_cases answers : Answers start
  · exact ⟨_, _, (boot_cal start).1 answers⟩
  · rw [(boot_cal start).2 answers]
    exact Calibration.zero_read

/-- The reports of any turns: the log has the lines of those not paused, the page and the display the newest reading. -/
theorem reports_run (ran : (boot start).turns turns = .ok (done, requests)) :
    ∃ reports : List Report,
      reports.map Prod.fst = turns.filter (!·.maintenanceBusy) ∧
      (∀ r ∈ reports, Reads (boot start).bme280.cal r.1.bus r.2 ∧ (line r).length < LOG_PAYLOAD_MAX) ∧
      requests = reports.flatMap (fun r => logf r.1.logPaused (line r)) ∧
      makeJsonBody HTTP_BODY_SIZE done.envData = page (newest reports) ∧
      (∀ timestampMs c, newest reports = some (timestampMs, c) →
        done.getLatestBme280Values = (c.values, timestampMs, true)) ∧
      (newest reports = none → done.getLatestBme280Values = (⟨zero, zero, zero⟩, 0, false)) := by
  obtain ⟨reports, active, reads, rfl, rfl⟩ := turns_reports (boot_mutex start) ran
  have lines : ∀ r ∈ reports, reportText r = line r := fun r member => reportText_eq (boot_read start) (reads r member)
  obtain ⟨held, empty⟩ := @foldl_report (boot start) reports
  refine ⟨reports, active, fun r member => ⟨reads r member, ?_⟩, ?_, ?_, fun time c last => (held time c last).1, ?_⟩
  · rw [← lines r member]
    exact length_reportText r
  · exact List.flatMap_congr fun r member => by rw [lines r member]
  · rw [makeJsonBody_eq]
    cases last : newest reports with
    | none =>
      rw [empty last]
      rfl
    | some latest =>
      obtain ⟨timestampMs, c⟩ := latest
      obtain ⟨⟨t, reading⟩, member, rfl⟩ := newest_mem last
      obtain ⟨temperature, humidity⟩ := texts_of_reading (boot_read start) (reads _ member)
      rw [(held timestampMs c last).2, jsonText, if_pos rfl, page, temperature, humidity, pressureText_eq]
  · intro last
    rw [empty last]
    rfl

/-- When `init` got the coefficients, each active turn reports a sample that the sensor held during its transfers,
compensated with the sensor's own coefficients and exact to the hundredth, or three lost transfers at least, and the page and
the display show the newest reading. -/
theorem environment_reports (answers : Answers start) (ran : (boot start).turns turns = .ok (done, requests)) :
    ∃ reports : List Report,
      reports.map Prod.fst = turns.filter (!·.maintenanceBusy) ∧
      (∀ r ∈ reports, Reads (coefficients start) r.1.bus r.2 ∧
        (line r).length < LOG_PAYLOAD_MAX) ∧
      requests = reports.flatMap (fun r => logf r.1.logPaused (line r)) ∧
      makeJsonBody HTTP_BODY_SIZE done.envData = page (newest reports) ∧
      (∀ timestampMs c, newest reports = some (timestampMs, c) →
        done.getLatestBme280Values = (c.values, timestampMs, true)) ∧
      (newest reports = none → done.getLatestBme280Values = (⟨zero, zero, zero⟩, 0, false)) := by
  rw [← (boot_cal start).1 answers]
  exact reports_run ran

/-- A sensor with common coefficients that measures 25.08 degrees, 51.08 percent and 1006.53 hPa. -/
def warmBus (transfers : Nat → Transfer) : SensorBus where
  registers _ reg :=
    if reg = REG_ID then CHIP_ID
    else if reg ≥ REG_DATA then [101, 90, 192, 126, 237, 0, 117, 48].getD (reg - REG_DATA).toNat 0
    else if reg ≥ REG_CALIB26 then [106, 1, 0, 20, 36, 3, 30].getD (reg - REG_CALIB26).toNat 0
    else
      [112, 107, 67, 103, 24, 252, 125, 142, 67, 214, 208, 11, 39, 11, 140, 0, 249, 255, 140, 60, 248, 198, 112, 23, 0,
        75].getD (reg - REG_CALIB00).toNat 0
  pointer := 0
  transfers := transfers

/-- The first attempt does not get the mutex. -/
def warmTurn : EnvironmentTurn where
  maintenanceBusy := false
  timestampMs := 1000
  bus := warmBus fun n => if n = 0 then .locked else .sent
  logPaused := false

theorem environment_reports_warm :
    ∃ (done : EnvironmentTask) (requests : List LogRequest) (reports : List Report),
      (boot (warmBus fun _ => .sent)).turns [warmTurn] = .ok (done, requests) ∧
      requests = reports.flatMap (fun r => logf r.1.logPaused (line r)) ∧
      reports.map line = [ascii "ENV,1000,25.08,51.08,1006.53"] := by
  have answers : Answers (warmBus fun _ => .sent) := ⟨fun _ _ => rfl, rfl⟩
  obtain ⟨reports, active, reads, logged, -⟩ :=
    environment_reports answers (show (boot (warmBus fun _ => .sent)).turns [warmTurn] = .ok (_, _) from rfl)
  refine ⟨_, _, reports, rfl, logged, ?_⟩
  obtain ⟨⟨t, reading⟩, rest, rfl, rfl, none'⟩ := List.map_eq_cons_iff.mp active
  cases List.map_eq_nil_iff.mp none'
  have made := (reads _ (List.mem_singleton_self _)).1
  cases reading with
  | none =>
    have few : ¬ 3 ≤ (List.range 6).countP fun n => warmTurn.bus.transfers n ≠ .sent := by decide
    exact absurd made few
  | some c =>
    obtain ⟨raw, ⟨n, -, -, rfl⟩, compensated'⟩ := made
    have warm : compensate (coefficients (warmBus fun _ => .sent)) (Bme280.readRaw (warmTurn.bus.burst 0 REG_DATA 8)) =
        .ok ⟨2508, 100653, 52306⟩ := by
      decide +kernel
    cases warm.symm.trans compensated'
    decide +kernel

/-- When it did not, nothing says so: every reading is reported as valid zeros, however long the task runs. -/
theorem unread_sensor_reports_zeros (silent : ¬ Answers start) (ran : (boot start).turns turns = .ok (done, requests)) :
    ∃ reports : List Report,
      reports.map Prod.fst = turns.filter (!·.maintenanceBusy) ∧
      (∀ r ∈ reports, Reads .zero r.1.bus r.2) ∧
      requests = reports.flatMap (fun r => logf r.1.logPaused
        (ascii "ENV," ++ decimal r.1.timestampMs.toNat ++ if r.2.isSome then ascii ",0.00,0.00,0.00" else ascii ",ERR")) ∧
      makeJsonBody HTTP_BODY_SIZE done.envData =
        if reports.any (·.2.isSome) then
          ascii "\x7b\"valid\":true,\"temperature\":0.00,\"humidity\":0.00,\"pressure\":0.00\x7d"
        else ascii "\x7b\"valid\":false\x7d" := by
  obtain ⟨reports, active, reads, rfl, shown, -⟩ := reports_run ran
  rw [(boot_cal start).2 silent] at reads
  have zeros : ∀ r ∈ reports, ∀ c, r.2 = some c → c = ⟨0, 0, 0⟩ := by
    intro r member c found
    have made := (reads r member).1
    rw [found] at made
    obtain ⟨raw, -, compensated'⟩ := made
    obtain ⟨-, rfl⟩ := compensate_ok Calibration.zero_read compensated'
    exact compensated_zero _
  have texts : (⟨0, 0, 0⟩ : Compensated).temperatureText = ascii "0.00" ∧
      (⟨0, 0, 0⟩ : Compensated).humidityText = ascii "0.00" ∧
      (⟨0, 0, 0⟩ : Compensated).pressureText = ascii "0.00" := by
    decide +kernel
  refine ⟨reports, active, fun r member => (reads r member).1, ?_, ?_⟩
  · refine List.flatMap_congr fun r member => ?_
    obtain ⟨t, reading⟩ := r
    cases reading with
    | none => rfl
    | some c =>
      have numbers : ascii ",0.00,0.00,0.00" =
          ascii "," ++ ascii "0.00" ++ ascii "," ++ ascii "0.00" ++ ascii "," ++ ascii "0.00" := by
        decide +kernel
      simp only [zeros _ member c rfl, line, texts, Option.isSome_some, if_true, numbers, List.append_assoc]
  · rw [shown]
    cases last : newest reports with
    | none =>
      have nothing : ¬ reports.any (·.2.isSome) = true := by
        rw [List.any_eq_true]
        rintro ⟨r, member, found⟩
        have missing := List.filterMap_eq_nil_iff.mp (List.getLast?_eq_none_iff.mp last) r member
        rw [Option.map_eq_none_iff] at missing
        rw [missing] at found
        cases found
      rw [if_neg nothing, page]
    | some latest =>
      obtain ⟨timestampMs, c⟩ := latest
      obtain ⟨r, member, found⟩ := newest_mem last
      have something : reports.any (·.2.isSome) = true := List.any_eq_true.mpr ⟨r, member, by rw [found]; rfl⟩
      rw [if_pos something, page, zeros r member c found, texts.1, texts.2.1, texts.2.2]
      decide +kernel

/-- The same sensor when the first transfer of `init` is lost. -/
theorem unread_sensor_reports_zeros_warm :
    ∃ (done : EnvironmentTask) (requests : List LogRequest) (reports : List Report),
      (boot (warmBus fun n => if n = 0 then .failed else .sent)).turns [warmTurn] = .ok (done, requests) ∧
      reports.map Prod.fst = [warmTurn] ∧
      requests = reports.flatMap (fun r => logf r.1.logPaused
        (ascii "ENV," ++ decimal r.1.timestampMs.toNat ++ if r.2.isSome then ascii ",0.00,0.00,0.00" else ascii ",ERR")) := by
  have silent : ¬ Answers (warmBus fun n => if n = 0 then .failed else .sent) := not_answers (n := 0) (by decide) (by decide)
  obtain ⟨reports, active, -, logged, -⟩ := unread_sensor_reports_zeros silent
    (show (boot (warmBus fun n => if n = 0 then .failed else .sent)).turns [warmTurn] = .ok (_, _) from rfl)
  exact ⟨_, _, reports, rfl, active, logged⟩

end Boot

end EnvironmentTask

end PicoWLogger
