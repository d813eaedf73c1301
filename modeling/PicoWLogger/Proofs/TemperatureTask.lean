import PicoWLogger.DisplaySystem
import PicoWLogger.Proofs.Bme280Overflow
import PicoWLogger.Proofs.ButtonPress
import PicoWLogger.Proofs.LcdLines
import PicoWLogger.Proofs.SensorBus

/-! The temperature records of a whole run and what the display shows behind each turn, whatever the button does and
whatever is lost on the bus. -/

namespace PicoWLogger
open DecimalText SharedLock

namespace TemperatureTask

section Thermometer
variable {sensor : AEADT7410} (mutex : sensor.i2cMutex = true) (bus : SensorBus)
include mutex

theorem readTemperature_bursts :
    bus.Bursts sensor.readTemperature AEADT7410.TEMP_REG
      ((fun raw : UInt8 × UInt8 => AEADT7410.convertTemp raw.1 raw.2) ∘ fun bytes : Vector UInt8 2 => (bytes.get 0, bytes.get 1)) := by
  have raw : bus.Bursts sensor.readTempRaw AEADT7410.TEMP_REG fun bytes : Vector UInt8 2 => (bytes.get 0, bytes.get 1) := by
    rw [AEADT7410.readTempRaw, mutex]
    exact bus.bursts sensor.address AEADT7410.TEMP_REG fun bytes : Vector UInt8 2 => (bytes.get 0, bytes.get 1)
  exact raw.map _

theorem init_run :
    bus.result sensor.init = (decide (bus.transfers 0 = .sent), { sensor with initialized := decide (bus.transfers 0 = .sent) }) ∧
      bus.Later (bus.after sensor.init) 1 := by
  obtain ⟨later, shifted, ran⟩ := bus.write_run sensor.address [AEADT7410.CONFIG_REG, 0x80]
  have wrote : (sensor.writeReg AEADT7410.CONFIG_REG 0x80).run SensorBus.take SensorBus.perform bus =
      (decide (bus.transfers 0 = .sent), later) := by
    rw [AEADT7410.writeReg, mutex]
    exact ran
  rw [SensorBus.result, SensorBus.after, AEADT7410.init, Program.run_bind, wrote]
  exact ⟨rfl, shifted⟩

end Thermometer

/-- What three attempts read: the register as it is at one of six transfers, or nothing when at least three of them are lost. -/
def Reads (bus : SensorBus) (reading : Option Int16) : Prop :=
  ∃ bytes, bus.Reads AEADT7410.TEMP_REG 2 RETRY_COUNT bytes ∧
    reading = bytes.map fun bytes => AEADT7410.convertTemp (bytes.get 0) (bytes.get 1)

/-- What an active turn reads. A thermometer that is not ready is configured by the first transfer, and not read when that
is lost. -/
def Finds (ready : Bool) (bus : SensorBus) (reading : Option Int16) : Prop :=
  if ready then Reads bus reading else if bus.transfers 0 = .sent then Reads bus.next reading else reading = none

theorem reads_result {sensor : AEADT7410} (mutex : sensor.i2cMutex = true) (bus : SensorBus) :
    Reads bus (bus.result (readAdt7410WithRetry sensor)) := by
  obtain ⟨bytes, reads, same⟩ := SensorBus.reads_retry _ (fun bus => readTemperature_bursts mutex bus) RETRY_COUNT bus
  exact ⟨bytes, reads, same⟩

def tempTexts (t : Turn) (reading : Option Int16) : List (List UInt8) :=
  logged t.logPaused [tempText t.timestampMs (reading.elim 0 Int16.toInt / 128) reading.isSome]

/-- The thermometer takes part in a turn. -/
def Answers (ready : Bool) (bus : SensorBus) : Prop := ready = true ∨ bus.transfers 0 = .sent

def configured (task : TemperatureTask) : TemperatureTask :=
  { task with sensor := { task.sensor with initialized := true } }

inductive Taken (task : TemperatureTask) (t : Turn) : TemperatureTask × List (List UInt8) × List LcdCall → Prop where
  | answered {started} (answers : Answers task.sensor.initialized t.bus) (reading : Option Int16)
      (found : Finds task.sensor.initialized t.bus reading) (begins : started = [] ∨ started = [ascii "AEADT7410 init OK"]) :
      Taken task t ((task.configured.finish t reading).1,
        logged t.logPaused started ++ (task.configured.finish t reading).2.1, (task.configured.finish t reading).2.2)
  | silent (missing : ¬ Answers task.sensor.initialized t.bus) (found : Finds task.sensor.initialized t.bus none) :
      Taken task t ({ task with sensor := { task.sensor with initialized := false }, count := task.count + 1 },
        tempTexts t none, if task.lcdInitialized then printed (displayTemperature false task.count 0) else [])

theorem logged_nil (logPaused : Bool) : logged logPaused [] = [] := by
  cases logPaused <;> rfl

theorem turn_taken {task : TemperatureTask} {t : Turn} (mutex : task.sensor.i2cMutex = true)
    (active : t.maintenanceBusy = false) : Taken task t (task.turn t) := by
  rw [turn, active, if_neg Bool.false_ne_true]
  cases ready : task.sensor.initialized with
  | true =>
    have same : task.configured = task := by
      rw [configured, ← ready]
    have found : Finds task.sensor.initialized t.bus (t.bus.result (readAdt7410WithRetry task.sensor)) := by
      rw [ready, Finds, if_pos rfl]
      exact reads_result mutex t.bus
    have taken := Taken.answered (.inl ready) _ found (.inl rfl)
    rw [logged_nil, List.nil_append, same] at taken
    exact taken
  | false =>
    rw [if_neg Bool.false_ne_true]
    obtain ⟨configures, shifted⟩ := init_run mutex t.bus
    simp only [configures]
    by_cases sent : t.bus.transfers 0 = .sent
    · have found : Finds task.sensor.initialized t.bus
          ((t.bus.after task.sensor.init).result (readAdt7410WithRetry task.configured.sensor)) := by
        rw [ready, Finds, if_neg Bool.false_ne_true, if_pos sent]
        obtain ⟨bytes, reads, same⟩ := @reads_result task.configured.sensor mutex (t.bus.after task.sensor.init)
        exact ⟨bytes, shifted.reads reads, same⟩
      simp only [sent, decide_true, Bool.not_true, if_neg Bool.false_ne_true]
      exact .answered (.inr sent) _ found (.inr rfl)
    · have missing : ¬ Answers task.sensor.initialized t.bus := by
        rintro (here | here)
        · rw [ready] at here
          cases here
        · exact sent here
      have found : Finds task.sensor.initialized t.bus none := by
        rw [ready, Finds, if_neg Bool.false_ne_true, if_neg sent]
      have zero : (0 : ℚ) / 128 = 0 := zero_div 128
      have taken := Taken.silent missing found
      simp only [tempTexts, Option.elim_none, Int.cast_zero, zero, Option.isSome_none] at taken
      simp only [sent, decide_false, Bool.not_false, if_true]
      exact taken

def isTemp (text : List UInt8) : Bool := (ascii "TEMP,").isPrefixOf text

theorem isTemp_tempText (timestampMs : UInt32) (temperatureC : ℚ) (valid : Bool) :
    isTemp (tempText timestampMs temperatureC valid) = true := by
  rw [isTemp, List.isPrefixOf_iff_prefix, tempText, List.append_assoc, List.append_assoc, List.append_assoc]
  exact List.prefix_append _ _

theorem isTemp_append {front : List UInt8} (long : 5 ≤ front.length) (back : List UInt8) :
    isTemp (front ++ back) = isTemp front := by
  rw [isTemp, isTemp, Bool.eq_iff_iff, List.isPrefixOf_iff_prefix, List.isPrefixOf_iff_prefix]
  constructor
  · exact fun here => List.prefix_of_prefix_length_le here (List.prefix_append front back) long
  · exact fun here => here.trans (List.prefix_append front back)

theorem isTemp_others (value : List UInt8) :
    isTemp (ascii "AEADT7410 init OK") = false ∧ isTemp (ascii "TEMP_TASK_HWM," ++ value) = false ∧
      isTemp (ascii "DisplayMode changed: " ++ value) = false := by
  rw [isTemp_append (by decide), isTemp_append (by decide)]
  decide

theorem filter_logged (logPaused : Bool) (texts : List (List UInt8)) :
    (logged logPaused texts).filter isTemp = logged logPaused (texts.filter isTemp) := by
  cases logPaused <;> rfl

theorem filter_other {text : List UInt8} (other : isTemp text = false) (logPaused : Bool) :
    (logged logPaused [text]).filter isTemp = [] := by
  rw [filter_logged, List.filter_cons_of_neg (by simp [other]), List.filter_nil, logged_nil]

theorem finish_kept (task : TemperatureTask) (t : Turn) (reading : Option Int16) :
    (task.finish t reading).1.sensor.i2cMutex = task.sensor.i2cMutex ∧
    (task.finish t reading).1.sensor.initialized = (reading.isSome && task.sensor.initialized) ∧
    (task.finish t reading).2.1.filter isTemp = tempTexts t reading := by
  have optional {c : Prop} [Decidable c] {text : List UInt8} (other : isTemp text = false) :
      (if c then logged t.logPaused [text] else []).filter isTemp = [] := by
    split
    · exact filter_other other t.logPaused
    · rfl
  refine ⟨?_, ?_, ?_⟩
  · rw [finish]
    cases reading <;> rfl
  · rw [finish]
    cases reading <;> simp
  · simp only [finish, List.filter_append, optional (isTemp_others _).2.1, optional (isTemp_others _).2.2, List.append_nil]
    rw [filter_logged, List.filter_cons_of_pos (isTemp_tempText _ _ _), List.filter_nil, tempTexts]

/-- What an active turn leaves, with its reading. -/
structure Effect (task : TemperatureTask) (t : Turn) (done : TemperatureTask × List (List UInt8) × List LcdCall)
    (reading : Option Int16) : Prop where
  found : Finds task.sensor.initialized t.bus reading
  mutex : done.1.sensor.i2cMutex = task.sensor.i2cMutex
  ready : done.1.sensor.initialized = reading.isSome
  count : done.1.count = task.count + 1
  lcd : done.1.lcdInitialized = task.lcdInitialized
  records : done.2.1.filter isTemp = tempTexts t reading
  /-- Behind a thermometer that answers comes the mode in the queue, if any. -/
  shows : Answers task.sensor.initialized t.bus →
    done.1.currentMode = task.displayModeQueue.getD task.currentMode ∧ done.1.displayModeQueue = none ∧
      ∃ cleared, done.2.2 = cleared ++ if task.lcdInitialized then
        printed (screen done.1.currentMode reading.isSome task.count (reading.elim 0 Int16.toInt / 128) t.shown) else []
  /-- One that does not answer hides it. -/
  hides : ¬ Answers task.sensor.initialized t.bus →
    done.1.currentMode = task.currentMode ∧ done.1.displayModeQueue = task.displayModeQueue ∧
      done.2.2 = if task.lcdInitialized then printed (displayTemperature false task.count 0) else []

theorem Taken.effect {task : TemperatureTask} {t : Turn} {done : TemperatureTask × List (List UInt8) × List LcdCall}
    (taken : Taken task t done) : ∃ reading, Effect task t done reading := by
  cases taken with
  | @answered started answers reading found begins =>
    obtain ⟨mutex, ready, records⟩ := task.configured.finish_kept t reading
    refine ⟨reading,
      { found, mutex, ready := ?_, count := rfl, lcd := rfl, records := ?_
        shows := fun _ => ⟨rfl, rfl, _, rfl⟩
        hides := fun missing => absurd answers missing }⟩
    · rw [ready]
      exact Bool.and_true _
    · have front : (logged t.logPaused started).filter isTemp = [] := by
        rcases begins with rfl | rfl
        · rw [logged_nil, List.filter_nil]
        · exact filter_other (isTemp_others []).1 t.logPaused
      rw [List.filter_append, front, records, List.nil_append]
  | silent missing found =>
    refine ⟨none,
      { found, mutex := rfl, ready := rfl, count := rfl, lcd := rfl, records := ?_
        shows := fun answers => absurd answers missing
        hides := fun _ => ⟨rfl, rfl, rfl⟩ }⟩
    rw [tempTexts, filter_logged, List.filter_cons_of_pos (isTemp_tempText _ _ _), List.filter_nil]

theorem turn_busy {task : TemperatureTask} {t : Turn} (busy : t.maintenanceBusy = true) : task.turn t = (task, [], []) := by
  rw [turn, busy, if_pos rfl]

theorem length_line (text : List UInt8) : (line text).length ≤ 8 := by
  rw [line, HttpServer.snprintf, List.length_take]
  exact Nat.min_le_left _ _

theorem length_displayTemperature (valid : Bool) (count : UInt32) (temperatureC : ℚ) :
    (displayTemperature valid count temperatureC).1.length ≤ 8 ∧ (displayTemperature valid count temperatureC).2.length ≤ 8 := by
  rw [displayTemperature]
  split
  · exact ⟨length_line _, length_line _⟩
  · exact ⟨length_line _, length_line _⟩

theorem length_value (valid : Bool) (text : List UInt8) : (value valid text).length ≤ 8 := by
  rw [value]
  split
  · exact length_line text
  · decide

theorem length_cString (bytes : List UInt8) : (cString (bytes.take 8)).length ≤ 8 :=
  (List.takeWhile_prefix _).length_le.trans (List.length_take_le 8 bytes)

theorem length_screen (mode : DisplayMode) (valid : Bool) (count : UInt32) (temperatureC : ℚ) (shown : Shown) :
    (screen mode valid count temperatureC shown).1.length ≤ 8 ∧ (screen mode valid count temperatureC shown).2.length ≤ 8 := by
  have title {text : List UInt8} (short : text.length.ble 8 = true) : text.length ≤ 8 := Nat.le_of_ble_eq_true short
  cases mode with
  | temperature => exact length_displayTemperature valid count temperatureC
  | adcVoltage | bmeTemperature | bmeHumidity | bmePressure => exact ⟨title rfl, length_value _ _⟩
  | logStatus => exact ⟨title rfl, length_line _⟩
  | i2cInfo => exact ⟨title rfl, title rfl⟩
  | wiFiIp =>
    rw [screen]
    cases shown.wifi.state with
    | gotIp => exact ⟨length_cString _, length_cString _⟩
    | idle | init | connecting | error => exact ⟨title rfl, title rfl⟩

end TemperatureTask

namespace DisplaySystem
open TemperatureTask
variable {level : Nat → Bool}

def active (steps : List DisplayStep) : List Turn :=
  steps.filterMap fun
    | .button => none
    | .turn t => if t.maintenanceBusy then none else some t

/-- Readings of successive turns. A thermometer is ready exactly when the turn before read it. -/
def Readings : Bool → List (Turn × Option Int16) → Prop
  | _, [] => True
  | ready, (t, reading) :: rest => Finds ready t.bus reading ∧ Readings reading.isSome rest

/-- Each active turn makes one record of what it read, by induction on the steps. -/
theorem run_records (steps : List DisplayStep) (s : DisplaySystem) (mutex : s.temperature.sensor.i2cMutex = true) :
    ∃ readings : List (Turn × Option Int16),
      readings.map Prod.fst = active steps ∧ Readings s.temperature.sensor.initialized readings ∧
      (s.run level steps).texts.filter isTemp =
        s.texts.filter isTemp ++ readings.flatMap (fun r => tempTexts r.1 r.2) ∧
      (s.run level steps).temperature.count = s.temperature.count + UInt32.ofNat readings.length := by
  induction steps generalizing s with
  | nil => exact ⟨[], rfl, trivial, (List.append_nil _).symm, by simp [run]⟩
  | cons next rest ih =>
    cases next with
    | button =>
      obtain ⟨readings, turns, made, records, count⟩ := ih (s.step level .button) mutex
      exact ⟨readings, turns, made, records, count⟩
    | turn t =>
      cases busy : t.maintenanceBusy with
      | true =>
        have still : s.step level (.turn t) = s := by
          rw [step, turn_busy busy, List.append_nil, List.append_nil]
        obtain ⟨readings, turns, made, records, count⟩ := ih (s.step level (.turn t)) (by rwa [still])
        rw [still] at made records count
        refine ⟨readings, ?_, made, ?_, ?_⟩
        · rw [turns, active, active, List.filterMap_cons_none (by simp [busy])]
        · rw [← records, run, run, List.foldl_cons, still]
        · rw [← count, run, run, List.foldl_cons, still]
      | false =>
        obtain ⟨reading, effect⟩ := (turn_taken mutex busy).effect
        obtain ⟨readings, turns, made, records, count⟩ := ih (s.step level (.turn t)) (effect.mutex.trans mutex)
        refine ⟨(t, reading) :: readings, ?_, ⟨effect.found, ?_⟩, ?_, ?_⟩
        · have here : active (.turn t :: rest) = t :: active rest := List.filterMap_cons_some (by simp [busy])
          rw [List.map_cons, turns, here]
        · rw [← effect.ready]
          exact made
        · refine records.trans ?_
          have here : (s.step level (.turn t)).texts.filter isTemp = s.texts.filter isTemp ++ tempTexts t reading := by
            rw [step, List.filter_append, effect.records]
          rw [here, List.flatMap_cons, List.append_assoc]
        · refine count.trans ?_
          have here : (s.step level (.turn t)).temperature.count = s.temperature.count + 1 := effect.count
          rw [here, List.length_cons, UInt32.ofNat_add, UInt32.add_assoc, UInt32.add_comm 1]
          rfl

theorem length_tempText (timestampMs : UInt32) (reading : Option Int16) (valid : Bool) :
    (tempText timestampMs (reading.elim 0 Int16.toInt / 128) valid).length < LOG_PAYLOAD_MAX := by
  have time : (decimal timestampMs.toNat).length ≤ 10 :=
    length_decimal_le (by decide) (timestampMs.toNat_lt.trans (by decide))
  have range : |reading.elim 0 Int16.toInt| ≤ 32768 := by
    cases reading with
    | none => exact abs_zero.le.trans (by decide)
    | some raw => exact Bme280.abs_int16 raw
  have bound : |(reading.elim 0 Int16.toInt / 128 : ℚ)| + 1 < 10 ^ 3 := by
    have cast : |((reading.elim 0 Int16.toInt : Int) : ℚ)| ≤ 32768 := by exact_mod_cast range
    rw [abs_div, abs_of_pos (by norm_num : (0 : ℚ) < 128)]
    linarith
  have value := length_fixed_le 6 (by decide) bound
  have names : (ascii "TEMP,").length = 5 ∧ (ascii ",").length = 1 ∧ (ascii "OK").length = 2 ∧ (ascii "NG").length = 2 := by
    decide
  simp only [tempText, List.length_append, names, LOG_PAYLOAD_MAX]
  split
  · rw [names.2.2.1]
    omega
  · rw [names.2.2.2]
    omega

/-- In every run each active turn makes one record, unless the log is paused, with the register as the turn read it. -/
theorem temperature_records (level : Nat → Bool) (lcdInitialized : Bool) (steps : List DisplayStep) :
    ∃ readings : List (Turn × Option Int16),
      readings.map Prod.fst = active steps ∧ Readings false readings ∧
      ((start level (adt7410 false) lcdInitialized).run level steps).texts.filter isTemp =
        readings.flatMap (fun r => tempTexts r.1 r.2) ∧
      ∀ r ∈ readings, ∀ text ∈ tempTexts r.1 r.2, text.length < LOG_PAYLOAD_MAX := by
  obtain ⟨readings, turns, made, records, -⟩ := @run_records level steps (start level (adt7410 false) lcdInitialized) rfl
  refine ⟨readings, turns, made, records, fun r _ text member => ?_⟩
  rw [tempTexts, logged] at member
  split at member
  · cases member
  · rw [List.mem_singleton] at member
    rw [member]
    exact length_tempText _ _ _

def pressed (button : ButtonTask) : DisplayMode := .ofInt (button.sent.length % DisplayMode.Max)

/-- The mode on the display or in the queue is the one of the button task, and that counts the presses. -/
structure Follows (lcdInitialized : Bool) (s : DisplaySystem) : Prop where
  mutex : s.temperature.sensor.i2cMutex = true
  lcd : s.temperature.lcdInitialized = lcdInitialized
  mode : s.button.mode.toInt = s.button.sent.length % DisplayMode.Max
  next : s.temperature.displayModeQueue.getD s.temperature.currentMode = s.button.mode

variable {lcdInitialized : Bool}

theorem pressed_eq {s : DisplaySystem} (follows : s.Follows lcdInitialized) : pressed s.button = s.button.mode := by
  rw [pressed, ← follows.mode]
  cases s.button.mode <;> rfl

theorem Follows.step {s : DisplaySystem} (follows : s.Follows lcdInitialized) (next : DisplayStep) :
    (s.step level next).Follows lcdInitialized := by
  cases next with
  | button =>
    have reading := ButtonTask.step_reading level s.button
    rw [DisplaySystem.step]
    generalize s.button.step level = button at reading
    cases reading with
    | pressed at' low =>
      refine ⟨follows.mutex, follows.lcd, ?_, ?_⟩
      · rw [List.length_append, List.length_singleton, ButtonTask.nextMode_toInt, follows.mode]
        simp
      · simp
    | edge | polled | glitch | held | released =>
      refine ⟨follows.mutex, follows.lcd, follows.mode, ?_⟩
      simpa using follows.next
  | turn t =>
    cases busy : t.maintenanceBusy with
    | true =>
      have still : s.step level (.turn t) = s := by
        rw [DisplaySystem.step, turn_busy busy, List.append_nil, List.append_nil]
      rwa [still]
    | false =>
      obtain ⟨reading, effect⟩ := (turn_taken follows.mutex busy).effect
      refine ⟨effect.mutex.trans follows.mutex, effect.lcd.trans follows.lcd, follows.mode, ?_⟩
      change (s.temperature.turn t).1.displayModeQueue.getD (s.temperature.turn t).1.currentMode = s.button.mode
      by_cases answers : Answers s.temperature.sensor.initialized t.bus
      · obtain ⟨mode, queue, -⟩ := effect.shows answers
        rw [queue, mode, Option.getD_none, follows.next]
      · obtain ⟨mode, queue, -⟩ := effect.hides answers
        rw [queue, mode, follows.next]

theorem Follows.run {s : DisplaySystem} (follows : s.Follows lcdInitialized) (steps : List DisplayStep) :
    (s.run level steps).Follows lcdInitialized := by
  induction steps generalizing s with
  | nil => exact follows
  | cons next rest ih => exact ih (follows.step next)

theorem start_follows {sensor : AEADT7410} (mutex : sensor.i2cMutex = true) (lcdInitialized : Bool) :
    (start level sensor lcdInitialized).Follows lcdInitialized := ⟨mutex, rfl, rfl, rfl⟩

/-- The two lines a turn prints last are what the rows show, each if the display took all of it. -/
theorem printed_rows (glass : LcdBus) (front : List LcdCall) (lines : List UInt8 × List UInt8) :
    let session := aqm0802.session glass (front ++ printed lines)
    (session.1.getD front.length false = true →
        ∀ col < 8, session.2.chip.shown 0 col = (AQM0802.line lines.1).getD col 0x20) ∧
      (session.1.getD (front.length + 1) false = true →
        ∀ col < 8, session.2.chip.shown 1 col = (AQM0802.line lines.2).getD col 0x20) := by
  intro session
  constructor
  · intro ok col inside
    refine AQM0802.session_text aqm0802 glass front 0 lines.1 [.printLine 1 lines.2] ok (fun call member => ?_) inside
    rw [List.mem_singleton] at member
    exact ⟨1, lines.2, member, by decide⟩
  · have last : front ++ printed lines = front ++ [.printLine 0 lines.1] ++ .printLine 1 lines.2 :: [] := by
      rw [List.append_assoc]
      rfl
    intro ok col inside
    simp only [session, last] at ok ⊢
    refine AQM0802.session_text aqm0802 glass (front ++ [.printLine 0 lines.1]) 1 lines.2 [] ?_ (List.forall_mem_nil _) inside
    rwa [List.length_append, List.length_singleton]

/-- What an active turn prints last: the screen of the mode, or the temperature screen without a value. -/
theorem turn_prints {s : DisplaySystem} {count : UInt32} {t : Turn} (follows : s.Follows true)
    (working : t.maintenanceBusy = false) (counted : s.temperature.count = count) :
    ∃ reading lines front,
      Finds s.temperature.sensor.initialized t.bus reading ∧
      (Answers s.temperature.sensor.initialized t.bus →
        lines = screen (pressed s.button) reading.isSome count (reading.elim 0 Int16.toInt / 128) t.shown) ∧
      (¬ Answers s.temperature.sensor.initialized t.bus → lines = displayTemperature false count 0) ∧
      lines.1.length ≤ 8 ∧ lines.2.length ≤ 8 ∧ (s.step level (.turn t)).calls = front ++ printed lines := by
  obtain ⟨reading, effect⟩ := (turn_taken follows.mutex working).effect
  have calls : (s.step level (.turn t)).calls = s.calls ++ (s.temperature.turn t).2.2 := rfl
  by_cases answers : Answers s.temperature.sensor.initialized t.bus
  · obtain ⟨mode, -, cleared, made⟩ := effect.shows answers
    rw [follows.lcd, if_pos rfl, mode, follows.next, ← pressed_eq follows, counted] at made
    rw [made, ← List.append_assoc] at calls
    obtain ⟨first, second⟩ := length_screen (pressed s.button) reading.isSome count (reading.elim 0 Int16.toInt / 128) t.shown
    exact ⟨reading, _, _, effect.found, fun _ => rfl, fun missing => absurd answers missing, first, second, calls⟩
  · obtain ⟨-, -, made⟩ := effect.hides answers
    rw [follows.lcd, if_pos rfl, counted] at made
    rw [made] at calls
    obtain ⟨first, second⟩ := length_displayTemperature false count 0
    exact ⟨reading, _, _, effect.found, fun here => absurd here answers, fun _ => rfl, first, second, calls⟩

/-- Behind every active turn the display is on and shows the screen of the mode that the presses so far lead to, with the values of
the turn, or the temperature screen without a value when the thermometer does not answer. -/
theorem display_follows_button {bus glass : LcdBus}
    (initialized : aqm0802.init.run LcdBus.take LcdBus.perform bus = (true, glass)) (steps : List DisplayStep) {t : Turn}
    (working : t.maintenanceBusy = false) :
    let s := (start level (adt7410 false) true).run level steps
    let session := aqm0802.session glass (s.step level (.turn t)).calls
    session.2.chip.displayOn = true ∧ ∃ reading lines front,
      Finds s.temperature.sensor.initialized t.bus reading ∧
      (Answers s.temperature.sensor.initialized t.bus →
        lines = screen (pressed s.button) reading.isSome (UInt32.ofNat (active steps).length)
          (reading.elim 0 Int16.toInt / 128) t.shown) ∧
      (¬ Answers s.temperature.sensor.initialized t.bus →
        lines = displayTemperature false (UInt32.ofNat (active steps).length) 0) ∧
      lines.1.length ≤ 8 ∧ lines.2.length ≤ 8 ∧
      (s.step level (.turn t)).calls = front ++ printed lines ∧
      (session.1.getD front.length false = true →
        ∀ col < 8, session.2.chip.shown 0 col = (AQM0802.line lines.1).getD col 0x20) ∧
      (session.1.getD (front.length + 1) false = true →
        ∀ col < 8, session.2.chip.shown 1 col = (AQM0802.line lines.2).getD col 0x20) := by
  intro s session
  have follows : s.Follows true := (start_follows rfl true).run steps
  obtain ⟨readings, turns, -, -, counted⟩ := @run_records level steps (start level (adt7410 false) true) rfl
  have count : s.temperature.count = UInt32.ofNat (active steps).length := by
    rw [← turns, List.length_map]
    exact counted.trans (UInt32.zero_add _)
  have on : session.2.chip.displayOn = true :=
    ((aqm0802.session_shown glass _).1).trans (AQM0802.init_blank initialized).1
  obtain ⟨reading, lines, front, found, shows, hides, first, second, calls⟩ := turn_prints follows working count
  have rows := printed_rows glass front lines
  rw [← calls] at rows
  exact ⟨on, reading, lines, front, found, shows, hides, first, second, calls, rows.1, rows.2⟩

/-- One press in front of the turn. -/
theorem display_follows_button_pressed :
    let level : Nat → Bool := fun n => n < 10
    let bus : LcdBus :=
      { chip := { ddram := fun _ => 0, address := 0, cgram := false, extended := false, displayOn := false }
        writes := fun _ => .sent }
    let t : Turn :=
      { maintenanceBusy := false
        timestampMs := 1000
        bus := { registers := fun _ _ => 0, pointer := 0, transfers := fun _ => .sent }
        logPaused := false
        stackHighWaterMark := 0
        shown :=
          { adc := none
            logCount := 0
            bme280 :=
              (EnvironmentTask.boot { registers := fun _ _ => 0, pointer := 0, transfers := fun _ => .failed }).getLatestBme280Values
            wifi := .initial } }
    let s := (start level (adt7410 false) true).run level [.button, .button, .button]
    ∃ glass front,
      aqm0802.init.run LcdBus.take LcdBus.perform bus = (true, glass) ∧
      (s.step level (.turn t)).calls = front ++ printed (ascii "ADC", ascii "NO DATA") := by
  intro level bus t s
  obtain ⟨glass, initialized⟩ := aqm0802.init_sent bus fun _ _ => rfl
  obtain ⟨-, reading, lines, front, -, shows, -, -, -, calls, -⟩ :=
    @display_follows_button level bus glass initialized [.button, .button, .button] t rfl
  rw [shows (.inr rfl)] at calls
  exact ⟨glass, front, initialized, calls⟩

end DisplaySystem

end PicoWLogger
