import PicoWLogger.Lib.FloatRounding
import PicoWLogger.Proofs.AdcColumns
import PicoWLogger.Proofs.MovingAverage
import PicoWLogger.TemperatureTask

/-! What the ADC task logs and what the display shows of it: the mean of the last samples, and its voltage to the nearest
millivolt whatever the floats between lose. -/

namespace PicoWLogger.AdcLoggerTask
open DecimalText MovingAverage SlidingWindow TemperatureTask

section Voltage

/-- The millivolts of a mean, at 3.3 V for the largest sample. -/
def millivolts (rawAvg : UInt16) : Int := roundHalfEven (rawAvg.toNat * 220 / 273)

theorem abs_millivolts_sub_le (rawAvg : UInt16) : |(millivolts rawAvg : ℚ) - rawAvg.toNat * 220 / 273| ≤ 1 / 2 :=
  abs_roundHalfEven_sub_le _

theorem millivolts_range {rawAvg : UInt16} (twelve : rawAvg < 4096) : 0 ≤ millivolts rawAvg ∧ millivolts rawAvg ≤ 3300 := by
  obtain ⟨low, high⟩ := abs_le.mp (abs_millivolts_sub_le rawAvg)
  have range : (rawAvg.toNat : ℚ) ≤ 4095 := by
    have below : rawAvg.toNat ≤ 4095 := Nat.le_of_lt_succ (UInt16.lt_iff_toNat_lt.mp twelve)
    exact_mod_cast below
  have above : (-1 : ℚ) < millivolts rawAvg := by
    have some' : (0 : ℚ) ≤ rawAvg.toNat * 220 / 273 := by positivity
    linarith
  have below : (millivolts rawAvg : ℚ) < 3301 := by linarith
  have above' : -1 < millivolts rawAvg := by exact_mod_cast above
  have below' : millivolts rawAvg < 3301 := by exact_mod_cast below
  omega

/-- The exact millivolts are never halfway between two whole ones, so that what the floats lose cannot change them. -/
theorem voltage_text {rawAvg : UInt16} (twelve : rawAvg < 4096) : fixed 3 (voltage rawAvg) = scaled 3 (millivolts rawAvg) := by
  have range : (rawAvg.toNat : ℚ) ≤ 4095 := by
    have below : rawAvg.toNat ≤ 4095 := Nat.le_of_lt_succ (UInt16.lt_iff_toNat_lt.mp twelve)
    exact_mod_cast below
  have positive : (0 : ℚ) ≤ rawAvg.toNat := Nat.cast_nonneg _
  obtain ⟨exact, isExact⟩ : ∃ exact : ℚ, 4095⁻¹ * (rawAvg.toNat * (33 / 10)) = exact := ⟨_, rfl⟩
  have size : |exact| ≤ 4 := by
    rw [← isExact, abs_of_nonneg (by positivity)]
    linarith
  have within := ((((((Within.of_eq (33 / 10)).round 24).scale rawAvg.toNat).round 24).scale 4095⁻¹).round 53).round 24
  rw [isExact, inv_mul_eq_div] at within
  change |voltage rawAvg - exact| ≤ _ at within
  have near : |voltage rawAvg * 10 ^ 3 - exact * 1000| < 1 / 546 := by
    have factor : voltage rawAvg * 10 ^ 3 - exact * 1000 = (voltage rawAvg - exact) * 1000 := by ring
    rw [factor, abs_mul, abs_of_pos (by norm_num : (0 : ℚ) < 1000)]
    norm_num at within
    linarith
  have rounded := abs_millivolts_sub_le rawAvg
  have half : |exact * 1000 - millivolts rawAvg| ≤ 272 / 546 := by
    have parts : exact * 1000 - millivolts rawAvg = ((440 * rawAvg.toNat - 546 * millivolts rawAvg : Int) : ℚ) / 546 := by
      rw [← isExact]
      push_cast
      ring
    have odd : |440 * (rawAvg.toNat : Int) - 546 * millivolts rawAvg| ≤ 273 := by
      have scaled' : |((440 * rawAvg.toNat - 546 * millivolts rawAvg : Int) : ℚ)| ≤ 273 := by
        have split : ((440 * rawAvg.toNat - 546 * millivolts rawAvg : Int) : ℚ) =
            -546 * (millivolts rawAvg - rawAvg.toNat * 220 / 273) := by
          push_cast
          ring
        rw [split, abs_mul, abs_neg, abs_of_pos (by norm_num : (0 : ℚ) < 546)]
        linarith
      exact_mod_cast scaled'
    have even : |440 * (rawAvg.toNat : Int) - 546 * millivolts rawAvg| ≤ 272 := by
      rw [abs_le] at odd ⊢
      omega
    rw [parts, abs_div, abs_of_pos (by norm_num : (0 : ℚ) < 546)]
    exact div_le_div_of_nonneg_right (by exact_mod_cast even) (by norm_num)
  refine fixed_of_near ?_ (iff_of_false ?_ ?_)
  · have split : voltage rawAvg * 10 ^ 3 - millivolts rawAvg =
        (voltage rawAvg * 10 ^ 3 - exact * 1000) + (exact * 1000 - millivolts rawAvg) := (sub_add_sub_cancel _ _ _).symm
    rw [split]
    exact (abs_add_le _ _).trans_lt (by linarith)
  · have factor := roundBinary_nonneg (by decide : 0 < 24) (by norm_num : (0 : ℚ) ≤ 33 / 10)
    have product := roundBinary_nonneg (by decide : 0 < 24) (mul_nonneg positive factor)
    have quotient := roundBinary_nonneg (by decide : 0 < 53) (div_nonneg product (by norm_num : (0 : ℚ) ≤ 4095))
    exact (roundBinary_nonneg (by decide : 0 < 24) quotient).not_gt
  · exact (millivolts_range twelve).1.not_gt

theorem length_millivolts {rawAvg : UInt16} (twelve : rawAvg < 4096) : (scaled 3 (millivolts rawAvg)).length = 5 := by
  obtain ⟨low, high⟩ := millivolts_range twelve
  have digit : ∀ n < 10, (decimal n).length = 1 := by decide
  have volts := digit ((millivolts rawAvg).natAbs / 10 ^ 3) (by omega)
  simp only [scaled, List.length_append, volts, length_paddedDecimal, if_neg low.not_gt, List.length_nil, List.length_singleton]

end Voltage

section Run

def mean (samples : List UInt16) : Nat := total (recent N samples) / (recent N samples).length

abbrev Report := AdcTurn × UInt16

def latest (r : Report) : AdcLatestValue :=
  { raw := r.1.raw, avg := r.2, voltage := voltage r.2, timestampMs := r.1.timestampMs, valid := true }

def entries (r : Report) : List LogRequest := if r.1.logPaused then [] else [request r.1.timestampMs r.1.raw r.2]

/-- Every turn reports the mean of the samples so far, by induction on the turns. -/
theorem run_reports {task : AdcTask} {earlier : List UInt16} (tracks : Tracks task.adcAvg earlier) (turns : List AdcTurn) :
    ∃ averages : List UInt16, averages.length = turns.length ∧
      (∀ i avg, averages[i]? = some avg → avg.toNat = mean (earlier ++ (turns.take (i + 1)).map AdcTurn.raw)) ∧
      (task.run turns).2 = (turns.zip averages).flatMap entries ∧
      (task.run turns).1.adcLatest = ((turns.zip averages).getLast?.map latest).getD task.adcLatest := by
  induction turns generalizing task earlier with
  | nil => exact ⟨[], rfl, fun i avg found => by simp at found, rfl, rfl⟩
  | cons t rest ih =>
    have added := tracks.add t.raw
    obtain ⟨averages, length, means, requests, last⟩ := @ih (task.turn t).1 _ added
    have first := (added.average (by simp)).1
    rw [added.count_eq] at first
    refine ⟨(task.adcAvg.add t.raw).average :: averages, congrArg (· + 1) length, fun i avg found => ?_, ?_, ?_⟩
    · cases i with
      | zero =>
        cases found
        exact first
      | succ i =>
        have later := means i avg found
        rwa [List.append_assoc] at later
    · rw [List.zip_cons_cons, List.flatMap_cons, ← requests]
      rfl
    · rw [List.zip_cons_cons, List.getLast?_cons, Option.map_some, Option.getD_some]
      refine last.trans ?_
      cases (rest.zip averages).getLast? with
      | none => rfl
      | some r => rfl

theorem mean_lt {samples : List UInt16} (some' : samples ≠ []) (twelve : ∀ raw ∈ samples, raw < 4096) : mean samples < 4096 := by
  obtain ⟨-, -, high, member, -, -, most⟩ :=
    mean_between UInt16.toNat (@window_ne_nil _ N.val.toNat _ (UInt32.lt_iff_toNat_lt.mp N.property) some')
  have below := UInt16.lt_iff_toNat_lt.mp (twelve high (List.mem_of_mem_drop member))
  exact Nat.lt_of_le_of_lt most below

theorem averages_lt {turns : List AdcTurn} (twelve : ∀ t ∈ turns, t.raw < 4096) {averages : List UInt16}
    (length : averages.length = turns.length)
    (means : ∀ i avg, averages[i]? = some avg → avg.toNat = mean ([] ++ (turns.take (i + 1)).map AdcTurn.raw)) :
    (∀ (i : Nat) avg, averages[i]? = some avg → avg < 4096) ∧ ∀ r ∈ turns.zip averages, r.1.raw < 4096 ∧ r.2 < 4096 := by
  have bounded (i : Nat) (avg : UInt16) (found : averages[i]? = some avg) : avg < 4096 := by
    obtain ⟨inside, -⟩ := List.getElem?_eq_some_iff.mp found
    rw [UInt16.lt_iff_toNat_lt, means i avg found]
    refine mean_lt ?_ fun raw member => ?_
    · simp only [List.nil_append, ne_eq, List.map_eq_nil_iff, List.take_eq_nil_iff, not_or]
      exact ⟨Nat.succ_ne_zero i, List.ne_nil_of_length_pos (by omega)⟩
    · obtain ⟨t, taken, rfl⟩ := List.mem_map.mp member
      exact twelve t (List.mem_of_mem_take taken)
  refine ⟨bounded, fun r member => ?_⟩
  obtain ⟨turn, avg⟩ := List.of_mem_zip member
  obtain ⟨i, found⟩ := List.mem_iff_getElem?.mp avg
  exact ⟨twelve r.1 turn, bounded i r.2 found⟩

/-- The log line with its voltage in whole millivolts. -/
def exactText (r : Report) : List UInt8 :=
  ascii "ADC," ++ decimal r.1.timestampMs.toNat ++ ascii "," ++ decimal r.1.raw.toNat ++ ascii "," ++ decimal r.2.toNat ++
    ascii "," ++ scaled 3 (millivolts r.2)

theorem text_exact {r : Report} (raw : r.1.raw < 4096) (avg : r.2 < 4096) :
    text r.1.timestampMs r.1.raw r.2 = exactText r ∧ (exactText r).length ≤ 63 := by
  constructor
  · rw [text, exactText, voltage_text avg]
  · have time := length_decimal_le (by decide) (r.1.timestampMs.toNat_lt.trans (by decide : 2 ^ 32 < 10 ^ 10))
    have sample := length_decimal_le (by decide) ((UInt16.lt_iff_toNat_lt.mp raw).trans (by decide : 4096 < 10 ^ 4))
    have mean' := length_decimal_le (by decide) ((UInt16.lt_iff_toNat_lt.mp avg).trans (by decide : 4096 < 10 ^ 4))
    have tag : (ascii "ADC,").length = 4 := rfl
    have comma : (ascii ",").length = 1 := rfl
    simp only [exactText, List.length_append, length_millivolts avg, tag, comma]
    omega

theorem screen_millivolts {avg : UInt16} (twelve : avg < 4096) {shown : Shown}
    (now : shown.adc.map Subtype.val = some (voltage avg)) (valid : Bool) (count : UInt32) (temperatureC : ℚ) :
    screen .adcVoltage valid count temperatureC shown = (ascii "ADC", scaled 3 (millivolts avg) ++ ascii "V") := by
  obtain ⟨value, found, same⟩ := Option.map_eq_some_iff.mp now
  have length := length_millivolts twelve
  have unit : (ascii "V").length = 1 := rfl
  simp only [screen, found, Option.isSome_some, Option.elim_some, same, voltage_text twelve, TemperatureTask.value, if_true, padded,
    length, Nat.sub_self, List.replicate_zero, List.nil_append, line, HttpServer.snprintf]
  rw [List.take_of_length_le (by rw [List.length_append, length, unit]; decide)]

/-- In every run each turn logs its sample and the mean of the last ones, with the voltage of that to the nearest millivolt and
nothing cut off, unless the log is paused, and the display shows the same digits. -/
theorem adc_records (memory : MovingAverage UInt16 N Int64) (turns : List AdcTurn) (twelve : ∀ t ∈ turns, t.raw < 4096) :
    let done := (AdcTask.start memory).run turns
    ∃ averages : List UInt16, averages.length = turns.length ∧
      (∀ i avg, averages[i]? = some avg → avg.toNat = mean ((turns.take (i + 1)).map AdcTurn.raw) ∧ avg < 4096) ∧
      done.2 = (turns.zip averages).flatMap entries ∧
      (∀ r ∈ turns.zip averages, text r.1.timestampMs r.1.raw r.2 = exactText r ∧ (exactText r).length ≤ 63) ∧
      done.1.adcLatest = ((turns.zip averages).getLast?.map latest).getD (AdcTask.start memory).adcLatest ∧
      ∀ valid count temperatureC shown, shown.adc.map Subtype.val = ((turns.zip averages).getLast?.map fun r => voltage r.2) →
        screen .adcVoltage valid count temperatureC shown =
          (ascii "ADC", (turns.zip averages).getLast?.elim (ascii "NO DATA") fun r => scaled 3 (millivolts r.2) ++ ascii "V") := by
  intro done
  obtain ⟨averages, length, means, requests, last⟩ := @run_reports (.start memory) [] (Tracks.reset memory) turns
  obtain ⟨bounded, reports⟩ := averages_lt twelve length means
  refine ⟨averages, length, fun i avg found => ⟨means i avg found, bounded i avg found⟩, requests, fun r member => ?_, last,
    fun valid count temperatureC shown now => ?_⟩
  · obtain ⟨raw, avg⟩ := reports r member
    exact text_exact raw avg
  · cases newest : (turns.zip averages).getLast? with
    | none =>
      rw [newest] at now
      simp only [screen, Option.map_eq_none_iff.mp now, Option.isSome_none, TemperatureTask.value, Bool.false_eq_true, if_false]
      rfl
    | some r =>
      rw [newest] at now
      exact screen_millivolts (reports r (List.mem_of_getLast? newest)).2 now valid count temperatureC

/-- Two turns, the second with the log paused. -/
theorem adc_records_pair :
    let memory : MovingAverage UInt16 N Int64 := ⟨Vector.replicate 16 7, ⟨3, by decide⟩, 9, 5⟩
    let turns : List AdcTurn := [⟨4095, 1000, false⟩, ⟨2048, 2000, true⟩]
    let done := (AdcTask.start memory).run turns
    ∃ first second : UInt16, first.toNat = 4095 ∧ second.toNat = 3071 ∧ done.2 = [request 1000 4095 first] ∧
      done.1.adcLatest.avg = second := by
  intro memory turns done
  obtain ⟨averages, length, means, requests, -, last, -⟩ := adc_records memory turns (by decide)
  obtain ⟨first, second, rfl⟩ := List.length_eq_two.mp length
  exact ⟨first, second, (means 0 first rfl).1.trans (by decide), (means 1 second rfl).1.trans (by decide), requests,
    congrArg AdcLatestValue.avg last⟩

end Run

end PicoWLogger.AdcLoggerTask
