import PicoWLogger.Bme280

/-! Which results of the compensation can leave their type. Most are bounded by the widths of what goes in; the ones
listed in `TemperatureFits`, `PressureFits` and `HumidityFits` are not. -/

namespace PicoWLogger.Bme280
open CheckedInt

theorem abs_int16 (x : Int16) : |x.toInt| ≤ 32768 := by
  have low := x.le_toInt
  have high := x.toInt_lt
  exact abs_le.mpr ⟨by omega, by omega⟩

theorem abs_int8 (x : Int8) : |x.toInt| ≤ 128 := by
  have low := x.le_toInt
  have high := x.toInt_lt
  exact abs_le.mpr ⟨by omega, by omega⟩

section Temperature
variable (cal : Calibration) (adcT : Int)

/-- What the coefficients `T2` and `T3` multiply, and the products. -/
def tLinear : Int := (shr adcT 3 - cal.digT1.toNat * 2 ^ 1) * cal.digT2.toInt

def tSquare : Int := (shr adcT 4 - cal.digT1.toNat) * (shr adcT 4 - cal.digT1.toNat)

def tProduct : Int := shr (tSquare cal adcT) 12 * cal.digT3.toInt

def tFine : Int := shr (tLinear cal adcT) 11 + shr (tProduct cal adcT) 14

structure TemperatureFits : Prop where
  linear : Fits 31 (tLinear cal adcT)
  square : Fits 31 (tSquare cal adcT)
  product : Fits 31 (tProduct cal adcT)

variable {cal adcT}

theorem TemperatureFits.abs_tFine (fits : TemperatureFits cal adcT) : |tFine cal adcT| ≤ 1179648 := by
  have linear : |shr (tLinear cal adcT) 11| ≤ 1048576 := abs_shr_le (fits.linear.bound.trans (by norm_num))
  have product : |shr (tProduct cal adcT) 14| ≤ 131072 := abs_shr_le (fits.product.bound.trans (by norm_num))
  rw [tFine]
  calc |shr (tLinear cal adcT) 11 + shr (tProduct cal adcT) 14| ≤ _ := abs_add_le _ _
    _ ≤ 1179648 := by omega

theorem compensateTemperature01C_exact (low : 0 ≤ adcT) (high : adcT < 2 ^ 20) :
    Exact (compensateTemperature01C cal adcT) (TemperatureFits cal adcT)
      (tFine cal adcT, shr (tFine cal adcT * 5 + 128) 8) := by
  have t1 : cal.digT1.toNat < 65536 := cal.digT1.toNat_lt
  have eighth : 0 ≤ shr adcT 3 ∧ shr adcT 3 ≤ 131071 := by
    rw [shr]
    omega
  have sixteenth : 0 ≤ shr adcT 4 ∧ shr adcT 4 ≤ 65535 := by
    rw [shr]
    omega
  have exact : Exact (compensateTemperature01C cal adcT)
      (Fits 31 (tLinear cal adcT) ∧ Fits 31 (tSquare cal adcT) ∧ Fits 31 (tProduct cal adcT) ∧ True)
      (tFine cal adcT, shr (tFine cal adcT * 5 + 128) 8) := by
    refine Exact.always ⟨by omega, by omega⟩ ?_
    refine Exact.always ⟨by omega, by omega⟩ ?_
    refine Exact.need fun linear => ?_
    refine Exact.always ⟨by omega, by omega⟩ ?_
    refine Exact.need fun square => ?_
    refine Exact.need fun product => ?_
    have bound := abs_le.mp (TemperatureFits.abs_tFine ⟨linear, square, product⟩)
    refine Exact.always (show Fits 31 (tFine cal adcT) from ⟨by omega, by omega⟩) ?_
    refine Exact.always (show Fits 31 (tFine cal adcT * 5) from ⟨by omega, by omega⟩) ?_
    refine Exact.always (show Fits 31 (tFine cal adcT * 5 + 128) from ⟨by omega, by omega⟩) ?_
    exact Exact.pure _
  refine exact.congr ⟨?_, ?_⟩
  · rintro ⟨linear, square, product, _⟩
    exact ⟨linear, square, product⟩
  · intro fits
    exact ⟨fits.linear, fits.square, fits.product, trivial⟩

end Temperature

section Pressure
variable (cal : Calibration) (t adcP : Int)

def pVar2 : Int :=
  (t - 128000) * (t - 128000) * cal.digP6.toInt + (t - 128000) * cal.digP5.toInt * 2 ^ 17 + cal.digP4.toInt * 2 ^ 35

def pScaled : Int :=
  (2 ^ 47 + (shr ((t - 128000) * (t - 128000) * cal.digP3.toInt) 8 + (t - 128000) * cal.digP2.toInt * 2 ^ 12)) *
    cal.digP1.toNat

def pDivisor : Int := shr (pScaled cal t) 33

def pDividend : Int := ((1048576 - adcP) * 2 ^ 31 - pVar2 cal t) * 3125

def pQuotient : Int := (pDividend cal t adcP).tdiv (pDivisor cal t)

def pSquare : Int := cal.digP9.toInt * shr (pQuotient cal t adcP) 13 * shr (pQuotient cal t adcP) 13

def pLinear : Int := cal.digP8.toInt * pQuotient cal t adcP

def pTotal : Int := pQuotient cal t adcP + shr (pSquare cal t adcP) 25 + shr (pLinear cal t adcP) 19

def pCompensated : Int := shr (pTotal cal t adcP) 8 + cal.digP7.toInt * 2 ^ 4

def pressureOf : UInt32 :=
  if pDivisor cal t = 0 then 0
  else if pCompensated cal t adcP < 0 then 0 else UInt32.ofInt (shr (pCompensated cal t adcP) 8)

/-- Behind a divisor of zero the function returns. -/
structure PressureFits : Prop where
  scaled : Fits 63 (pScaled cal t)
  dividend : pDivisor cal t ≠ 0 → Fits 63 (pDividend cal t adcP)
  square : pDivisor cal t ≠ 0 → Fits 63 (pSquare cal t adcP)
  linear : pDivisor cal t ≠ 0 → Fits 63 (pLinear cal t adcP)
  total : pDivisor cal t ≠ 0 → Fits 63 (pTotal cal t adcP)

variable {cal t adcP}

/-- The dividend is a multiple of 3125, which the least number is not. -/
theorem pDividend_ne : pDividend cal t adcP ≠ -2 ^ 63 := by
  rw [pDividend]
  omega

theorem abs_pQuotient (dividend : Fits 63 (pDividend cal t adcP)) : |pQuotient cal t adcP| < 2 ^ 63 := by
  have least : pDividend cal t adcP ≠ -2 ^ 63 := pDividend_ne
  have smaller := Int.natAbs_tdiv_le_natAbs (pDividend cal t adcP) (pDivisor cal t)
  rw [Fits] at dividend
  rw [Int.abs_eq_natAbs, pQuotient]
  omega

/-- A factor on the way to a product that fits. -/
theorem pFactor_fits {a b : Int} (square : Fits 63 (a * b * b)) (narrow : |a| ≤ 32768) : Fits 63 (a * b) := by
  by_cases unit : |b| ≤ 1
  · exact Fits.of_abs ((abs_mul_le narrow unit).trans_lt (by norm_num))
  · have twice : |a * b| * 2 ≤ |a * b * b| := by
      rw [abs_mul (a * b)]
      exact mul_le_mul_of_nonneg_left (by omega) (abs_nonneg _)
    have bound := square.bound
    exact Fits.of_abs (by omega)

/-- With a coefficient other than zero, a square that fits keeps the quotient small; with zero there is nothing to add. -/
theorem pPartial_fits (dividend : Fits 63 (pDividend cal t adcP)) (square : Fits 63 (pSquare cal t adcP)) :
    Fits 63 (pQuotient cal t adcP + shr (pSquare cal t adcP) 25) := by
  by_cases zero : cal.digP9.toInt = 0
  · have nothing : pSquare cal t adcP = 0 := by rw [pSquare, zero, zero_mul, zero_mul]
    rw [nothing, show shr (0 : Int) 25 = 0 from rfl, add_zero]
    exact Fits.of_abs (abs_pQuotient dividend)
  · have shifted : |shr (pSquare cal t adcP) 25| ≤ 2 ^ 38 := abs_shr_le (square.bound.trans (by norm_num))
    have grows : |shr (pQuotient cal t adcP) 13| * |shr (pQuotient cal t adcP) 13| ≤ 2 ^ 63 := by
      refine le_trans ?_ square.bound
      rw [pSquare, abs_mul, abs_mul]
      exact mul_le_mul_of_nonneg_right (le_mul_of_one_le_left (abs_nonneg _) (Int.one_le_abs zero)) (abs_nonneg _)
    have small : |shr (pQuotient cal t adcP) 13| < 2 ^ 32 := by
      by_contra large
      have square : (2 ^ 32 : Int) * 2 ^ 32 ≤ _ := mul_le_mul (not_lt.mp large) (not_lt.mp large) (by norm_num) (abs_nonneg _)
      omega
    rw [abs_lt, shr] at small
    rw [abs_le] at shifted
    exact ⟨by omega, by omega⟩

theorem compensatePressurePa_exact (warm : |t| ≤ 1179648) (low : 0 ≤ adcP) (high : adcP < 2 ^ 20) :
    Exact (compensatePressurePa cal t adcP) (PressureFits cal t adcP) (pressureOf cal t adcP) := by
  have var1 : |t - 128000| ≤ 1307648 := by
    obtain ⟨low, high⟩ := abs_le.mp warm
    exact abs_le.mpr ⟨by omega, by omega⟩
  have square : |(t - 128000) * (t - 128000)| ≤ 1307648 * 1307648 := abs_mul_le var1 var1
  have sixth : |(t - 128000) * (t - 128000) * cal.digP6.toInt| ≤ 1307648 * 1307648 * 32768 :=
    abs_mul_le square (abs_int16 _)
  have fifth : |(t - 128000) * cal.digP5.toInt| ≤ 1307648 * 32768 := abs_mul_le var1 (abs_int16 _)
  have fourth := abs_int16 cal.digP4
  have third : |(t - 128000) * (t - 128000) * cal.digP3.toInt| ≤ 1307648 * 1307648 * 32768 :=
    abs_mul_le square (abs_int16 _)
  have cubic : |shr ((t - 128000) * (t - 128000) * cal.digP3.toInt) 8| ≤ 218872741363712 :=
    abs_shr_le (third.trans (by norm_num))
  have second : |(t - 128000) * cal.digP2.toInt| ≤ 1307648 * 32768 := abs_mul_le var1 (abs_int16 _)
  have seventh := abs_int16 cal.digP7
  rw [abs_le] at var1 square sixth fifth fourth third cubic second seventh
  have exact : Exact (compensatePressurePa cal t adcP)
      (Fits 63 (pScaled cal t) ∧ (pDivisor cal t = 0 → True) ∧ (¬ pDivisor cal t = 0 →
        Fits 63 (pDividend cal t adcP) ∧ Fits 63 (cal.digP9.toInt * shr (pQuotient cal t adcP) 13) ∧
        Fits 63 (pSquare cal t adcP) ∧ Fits 63 (pLinear cal t adcP) ∧
        Fits 63 (pQuotient cal t adcP + shr (pSquare cal t adcP) 25) ∧ Fits 63 (pTotal cal t adcP) ∧ True))
      (pressureOf cal t adcP) := by
    refine Exact.always ⟨by omega, by omega⟩ ?_
    refine Exact.always ⟨by omega, by omega⟩ ?_
    refine Exact.always ⟨by omega, by omega⟩ ?_
    refine Exact.always ⟨by omega, by omega⟩ ?_
    refine Exact.always ⟨by omega, by omega⟩ ?_
    refine Exact.always ⟨by omega, by omega⟩ ?_
    refine Exact.always ⟨by omega, by omega⟩ ?_
    refine Exact.always ⟨by omega, by omega⟩ ?_
    refine Exact.always ⟨by omega, by omega⟩ ?_
    refine Exact.always ⟨by omega, by omega⟩ ?_
    refine Exact.always ⟨by omega, by omega⟩ ?_
    refine Exact.always ⟨by omega, by omega⟩ ?_
    refine Exact.always ⟨by omega, by omega⟩ ?_
    refine Exact.always ⟨by omega, by omega⟩ ?_
    refine Exact.need fun _ => ?_
    refine Exact.branch (fun _ => Exact.pure _) fun nonzero => ?_
    refine Exact.always ⟨by omega, by omega⟩ ?_
    refine Exact.always ⟨by omega, by omega⟩ ?_
    refine Exact.always ⟨by omega, by omega⟩ ?_
    refine Exact.need fun dividend => ?_
    refine Exact.divide nonzero pDividend_ne ?_
    refine Exact.need fun _ => ?_
    refine Exact.need fun square => ?_
    refine Exact.need fun linear => ?_
    refine Exact.need fun _ => ?_
    refine Exact.need fun total => ?_
    have rest : |shr (pTotal cal t adcP) 8| ≤ 2 ^ 55 := abs_shr_le (total.bound.trans (by norm_num))
    rw [abs_le] at rest
    refine Exact.always ⟨by omega, by omega⟩ ?_
    refine Exact.always (show Fits 63 (pCompensated cal t adcP) from ⟨by rw [pCompensated]; omega, ?_⟩) ?_
    · rw [pCompensated]
      omega
    exact Exact.choice _ _
  refine exact.congr ⟨?_, ?_⟩
  · rintro ⟨scaled, _, rest⟩
    exact ⟨scaled, fun nonzero => (rest nonzero).1, fun nonzero => (rest nonzero).2.2.1,
      fun nonzero => (rest nonzero).2.2.2.1, fun nonzero => (rest nonzero).2.2.2.2.2.1⟩
  · intro fits
    refine ⟨fits.scaled, fun _ => trivial, fun nonzero => ?_⟩
    have square := fits.square nonzero
    exact ⟨fits.dividend nonzero, pFactor_fits square (abs_int16 _), square, fits.linear nonzero,
      pPartial_fits (fits.dividend nonzero) square, fits.total nonzero, trivial⟩

end Pressure

section Humidity
variable (cal : Calibration) (t adcH : Int)

def hOffset : Int := adcH * 2 ^ 14 - cal.digH4.toInt * 2 ^ 20

def hSlope : Int := cal.digH5.toInt * (t - 76800)

def hFactor : Int := shr ((t - 76800) * cal.digH6.toInt) 10 * (shr ((t - 76800) * cal.digH3.toNat) 11 + 32768)

def hScaled : Int := (shr (hFactor cal t) 10 + 2097152) * cal.digH2.toInt

def hProduct : Int := shr (hOffset cal adcH - hSlope cal t + 16384) 15 * shr (hScaled cal t + 8192) 14

def hSquare : Int := shr (hProduct cal t adcH) 15 * shr (hProduct cal t adcH) 15

def hCorrection : Int := shr (hSquare cal t adcH) 7 * cal.digH1.toNat

def hCorrected : Int := hProduct cal t adcH - shr (hCorrection cal t adcH) 4

def humidityOf : UInt32 :=
  let v := if hCorrected cal t adcH < 0 then 0 else hCorrected cal t adcH
  let v := if v > 419430400 then 419430400 else v
  UInt32.ofInt (shr v 12)

structure HumidityFits : Prop where
  offset : Fits 31 (hOffset cal adcH)
  slope : Fits 31 (hSlope cal t)
  difference : Fits 31 (hOffset cal adcH - hSlope cal t)
  rounded : Fits 31 (hOffset cal adcH - hSlope cal t + 16384)
  factor : Fits 31 (hFactor cal t)
  scaled : Fits 31 (hScaled cal t)
  scaledRounded : Fits 31 (hScaled cal t + 8192)
  product : Fits 31 (hProduct cal t adcH)
  square : Fits 31 (hSquare cal t adcH)
  correction : Fits 31 (hCorrection cal t adcH)

variable {cal t adcH}

/-- A product whose square fits is far from the ends of the type. -/
theorem hCorrected_fits (square : Fits 31 (hSquare cal t adcH)) (correction : Fits 31 (hCorrection cal t adcH)) :
    Fits 31 (hCorrected cal t adcH) := by
  have shifted : |shr (hCorrection cal t adcH) 4| ≤ 2 ^ 27 := abs_shr_le (correction.bound.trans (by norm_num))
  have small : |shr (hProduct cal t adcH) 15| < 46342 := by
    by_contra large
    have grows : (46342 : Int) * 46342 ≤ |shr (hProduct cal t adcH) 15| * |shr (hProduct cal t adcH) 15| :=
      mul_le_mul (not_lt.mp large) (not_lt.mp large) (by norm_num) (abs_nonneg _)
    rw [← abs_mul] at grows
    have bound := square.bound
    rw [hSquare] at bound
    omega
  rw [abs_lt, shr] at small
  rw [abs_le] at shifted
  rw [hCorrected]
  exact ⟨by omega, by omega⟩

theorem compensateHumidity1024_exact (warm : |t| ≤ 1179648) (low : 0 ≤ adcH) (high : adcH < 2 ^ 16)
    (fourth : -2048 ≤ cal.digH4.toInt ∧ cal.digH4.toInt < 2048) :
    Exact (compensateHumidity1024 cal t adcH) (HumidityFits cal t adcH) (humidityOf cal t adcH) := by
  have v : |t - 76800| ≤ 1256448 := by
    obtain ⟨low, high⟩ := abs_le.mp warm
    exact abs_le.mpr ⟨by omega, by omega⟩
  have byte : |(cal.digH3.toNat : Int)| ≤ 255 := by
    have narrow : cal.digH3.toNat < 256 := cal.digH3.toNat_lt
    exact abs_le.mpr ⟨by omega, by omega⟩
  have sixth : |(t - 76800) * cal.digH6.toInt| ≤ 1256448 * 128 := abs_mul_le v (abs_int8 _)
  have third : |(t - 76800) * cal.digH3.toNat| ≤ 1256448 * 255 := abs_mul_le v byte
  have factor : |shr ((t - 76800) * cal.digH3.toNat) 11| ≤ 156443 := abs_shr_le (third.trans (by norm_num))
  rw [abs_le] at v sixth third factor
  have exact : Exact (compensateHumidity1024 cal t adcH)
      (Fits 31 (hOffset cal adcH) ∧ Fits 31 (hSlope cal t) ∧ Fits 31 (hOffset cal adcH - hSlope cal t) ∧
        Fits 31 (hOffset cal adcH - hSlope cal t + 16384) ∧ Fits 31 (hFactor cal t) ∧ Fits 31 (hScaled cal t) ∧
        Fits 31 (hScaled cal t + 8192) ∧ Fits 31 (hProduct cal t adcH) ∧ Fits 31 (hSquare cal t adcH) ∧
        Fits 31 (hCorrection cal t adcH) ∧ True)
      (humidityOf cal t adcH) := by
    refine Exact.always ⟨by omega, by omega⟩ ?_
    refine Exact.always ⟨by omega, by omega⟩ ?_
    refine Exact.always ⟨by omega, by omega⟩ ?_
    refine Exact.need fun _ => ?_
    refine Exact.need fun _ => ?_
    refine Exact.need fun _ => ?_
    refine Exact.need fun _ => ?_
    refine Exact.always ⟨by omega, by omega⟩ ?_
    refine Exact.always ⟨by omega, by omega⟩ ?_
    refine Exact.always ⟨by omega, by omega⟩ ?_
    refine Exact.need fun product => ?_
    have reduced : |shr (hFactor cal t) 10| ≤ 2 ^ 21 := abs_shr_le (product.bound.trans (by norm_num))
    rw [abs_le] at reduced
    refine Exact.always (show Fits 31 (shr (hFactor cal t) 10 + 2097152) from ⟨by omega, by omega⟩) ?_
    refine Exact.need fun _ => ?_
    refine Exact.need fun _ => ?_
    refine Exact.need fun _ => ?_
    refine Exact.need fun square => ?_
    refine Exact.need fun correction => ?_
    refine Exact.always (hCorrected_fits square correction) ?_
    exact Exact.pure _
  refine exact.congr ⟨?_, ?_⟩
  · rintro ⟨offset, slope, difference, rounded, factor, scaled, scaledRounded, product, square, correction, _⟩
    exact ⟨offset, slope, difference, rounded, factor, scaled, scaledRounded, product, square, correction⟩
  · intro fits
    exact ⟨fits.offset, fits.slope, fits.difference, fits.rounded, fits.factor, fits.scaled, fits.scaledRounded,
      fits.product, fits.square, fits.correction, trivial⟩

end Humidity

section Registers

theorem signExtend12_range (value : UInt16) : -2048 ≤ (signExtend12 value).toInt ∧ (signExtend12 value).toInt < 2048 := by
  have table : ∀ high < 64, ∀ low < 64, -2048 ≤ (signExtend12 (UInt16.ofNat (high * 64 + low))).toInt ∧
      (signExtend12 (UInt16.ofNat (high * 64 + low))).toInt < 2048 := by
    decide +kernel
  have twice : value &&& 0x0FFF &&& 0x0FFF = value &&& 0x0FFF := by rw [UInt16.and_assoc, UInt16.and_self]
  have masked : signExtend12 value = signExtend12 (value &&& 0x0FFF) := by
    rw [signExtend12, signExtend12, twice]
  have small : (value &&& 0x0FFF).toNat < 4096 := by
    rw [UInt16.toNat_and]
    exact Nat.and_lt_two_pow _ (by decide : (0x0FFF : UInt16).toNat < 2 ^ 12)
  have split : UInt16.ofNat ((value &&& 0x0FFF).toNat / 64 * 64 + (value &&& 0x0FFF).toNat % 64) = value &&& 0x0FFF := by
    rw [Nat.div_add_mod', UInt16.ofNat_toNat]
  have row := table ((value &&& 0x0FFF).toNat / 64) (by omega) ((value &&& 0x0FFF).toNat % 64) (by omega)
  rw [split, ← masked] at row
  exact row

theorem toInt_word {word : UInt32} {width : Nat} (narrow : width < 32) (small : word.toNat < 2 ^ width) :
    0 ≤ word.toInt32.toInt ∧ word.toInt32.toInt < 2 ^ width := by
  have half : (2 : Nat) ^ width ≤ 2 ^ 31 := Nat.pow_le_pow_right (by decide) (by omega)
  have same : word.toInt32.toInt = word.toNat := by
    have positive : 2 * word.toNat < 2 ^ 32 := by omega
    exact BitVec.toInt_eq_toNat_of_lt positive
  rw [same]
  exact ⟨Int.natCast_nonneg _, by exact_mod_cast small⟩

theorem twenty_bits (msb lsb xlsb : UInt8) :
    (msb.toUInt32 <<< 12 ||| lsb.toUInt32 <<< 4 ||| xlsb.toUInt32 >>> 4).toNat < 2 ^ 20 := by
  have byte (b : UInt8) : b.toNat < 256 := b.toNat_lt
  simp only [UInt32.toNat_or, UInt32.toNat_shiftLeft, UInt32.toNat_shiftRight, UInt8.toNat_toUInt32]
  refine Nat.or_lt_two_pow (Nat.or_lt_two_pow ?_ ?_) ?_
  · have msb := byte msb
    simp [Nat.shiftLeft_eq]
    omega
  · have lsb := byte lsb
    simp [Nat.shiftLeft_eq]
    omega
  · have xlsb := byte xlsb
    simp [Nat.shiftRight_eq_div_pow]
    omega

theorem sixteen_bits (msb lsb : UInt8) : (msb.toUInt32 <<< 8 ||| lsb.toUInt32).toNat < 2 ^ 16 := by
  have byte (b : UInt8) : b.toNat < 256 := b.toNat_lt
  simp only [UInt32.toNat_or, UInt32.toNat_shiftLeft, UInt8.toNat_toUInt32]
  refine Nat.or_lt_two_pow ?_ ?_
  · have msb := byte msb
    simp [Nat.shiftLeft_eq]
    omega
  · have lsb := byte lsb
    omega

end Registers

structure CompensationFits (cal : Calibration) (sample : RawSample) : Prop where
  temperature : TemperatureFits cal sample.adcT.toInt
  pressure : PressureFits cal (tFine cal sample.adcT.toInt) sample.adcP.toInt
  humidity : HumidityFits cal (tFine cal sample.adcT.toInt) sample.adcH.toInt

def compensated (cal : Calibration) (sample : RawSample) : Compensated where
  temperature01C := shr (tFine cal sample.adcT.toInt * 5 + 128) 8
  pressurePa := pressureOf cal (tFine cal sample.adcT.toInt) sample.adcP.toInt
  humidity1024 := humidityOf cal (tFine cal sample.adcT.toInt) sample.adcH.toInt

theorem compensate_exact (b1 : Vector UInt8 26) (b2 : Vector UInt8 7) (raw : Vector UInt8 8) :
    Exact (compensate (readCalibration b1 b2) (readRaw raw)) (CompensationFits (readCalibration b1 b2) (readRaw raw))
      (compensated (readCalibration b1 b2) (readRaw raw)) := by
  have adcT := toInt_word (by decide) (twenty_bits raw[3] raw[4] raw[5])
  have adcP := toInt_word (by decide) (twenty_bits raw[0] raw[1] raw[2])
  have adcH := toInt_word (by decide) (sixteen_bits raw[6] raw[7])
  have fourth : -2048 ≤ (readCalibration b1 b2).digH4.toInt ∧ (readCalibration b1 b2).digH4.toInt < 2048 :=
    signExtend12_range _
  change 0 ≤ (readRaw raw).adcT.toInt ∧ (readRaw raw).adcT.toInt < _ at adcT
  change 0 ≤ (readRaw raw).adcP.toInt ∧ (readRaw raw).adcP.toInt < _ at adcP
  change 0 ≤ (readRaw raw).adcH.toInt ∧ (readRaw raw).adcH.toInt < _ at adcH
  generalize readCalibration b1 b2 = cal at fourth ⊢
  generalize readRaw raw = sample at adcT adcP adcH ⊢
  have exact : Exact (compensate cal sample)
      (TemperatureFits cal sample.adcT.toInt ∧ PressureFits cal (tFine cal sample.adcT.toInt) sample.adcP.toInt ∧
        HumidityFits cal (tFine cal sample.adcT.toInt) sample.adcH.toInt ∧ True)
      (compensated cal sample) := by
    refine Exact.bind (compensateTemperature01C_exact adcT.1 adcT.2) fun temperature => ?_
    refine Exact.bind (compensatePressurePa_exact temperature.abs_tFine adcP.1 adcP.2) fun _ => ?_
    refine Exact.bind (compensateHumidity1024_exact temperature.abs_tFine adcH.1 adcH.2 fourth) fun _ => ?_
    exact Exact.pure _
  refine exact.congr ⟨?_, ?_⟩
  · rintro ⟨temperature, pressure, humidity, _⟩
    exact ⟨temperature, pressure, humidity⟩
  · intro fits
    exact ⟨fits.temperature, fits.pressure, fits.humidity, trivial⟩

/-- The compensation stays in its types exactly when these results do, and it never divides by zero, or the least
number by -1. -/
theorem compensation_overflow_exact (b1 : Vector UInt8 26) (b2 : Vector UInt8 7) (raw : Vector UInt8 8) :
    ((∃ result, compensate (readCalibration b1 b2) (readRaw raw) = .ok result) ↔
      CompensationFits (readCalibration b1 b2) (readRaw raw)) ∧
    compensate (readCalibration b1 b2) (readRaw raw) ≠ .error .division := by
  have exact := compensate_exact b1 b2 raw
  exact ⟨exact.isOk_iff, exact.no_division⟩

/-- A second coefficient of -32768 meets a first of zero and a full sample. -/
theorem compensation_overflows :
    compensate (readCalibration (Vector.ofFn fun i => if i = 3 then 0x80 else 0) (Vector.replicate 7 0))
      (readRaw (Vector.replicate 8 0xFF)) = .error .overflow := by
  decide

section Common

/-- Ranges of coefficients, wide around those of a common chip. The others may be anything. -/
structure CommonCoefficients (cal : Calibration) : Prop where
  t1 : 26624 ≤ cal.digT1.toNat ∧ cal.digT1.toNat ≤ 38912
  t2 : |cal.digT2.toInt| ≤ 27594
  t3 : |cal.digT3.toInt| ≤ 5809
  p1 : 10000 ≤ cal.digP1.toNat ∧ cal.digP1.toNat ≤ 46000
  p4 : |cal.digP4.toInt| ≤ 11000
  p5 : |cal.digP5.toInt| ≤ 4000
  p6 : |cal.digP6.toInt| ≤ 1000
  h1 : cal.digH1.toNat ≤ 127
  h2 : |cal.digH2.toInt| ≤ 390
  h3 : cal.digH3.toNat ≤ 1
  h4 : 250 ≤ cal.digH4.toInt ∧ cal.digH4.toInt ≤ 400
  h5 : |cal.digH5.toInt| ≤ 100
  h6 : |cal.digH6.toInt| ≤ 32

namespace CommonCoefficients
variable {cal : Calibration} (common : CommonCoefficients cal) {t adcT adcP adcH : Int}
include common

theorem temperature (low : 0 ≤ adcT) (high : adcT < 2 ^ 20) : TemperatureFits cal adcT := by
  obtain ⟨least, most⟩ := common.t1
  have eighth : |shr adcT 3 - cal.digT1.toNat * 2 ^ 1| ≤ 77824 := abs_le.mpr ⟨by rw [shr]; omega, by rw [shr]; omega⟩
  have sixteenth : |shr adcT 4 - cal.digT1.toNat| ≤ 38912 := abs_le.mpr ⟨by rw [shr]; omega, by rw [shr]; omega⟩
  have square : |tSquare cal adcT| ≤ 38912 * 38912 := abs_mul_le sixteenth sixteenth
  have shifted : |shr (tSquare cal adcT) 12| ≤ 369664 := abs_shr_le (square.trans (by norm_num))
  refine ⟨Fits.of_abs ?_, Fits.of_abs ?_, Fits.of_abs ?_⟩
  · exact (abs_mul_le eighth common.t2).trans_lt (by norm_num)
  · exact square.trans_lt (by norm_num)
  · exact (abs_mul_le shifted common.t3).trans_lt (by norm_num)

/-- From -40 to 85 degrees the divisor is far from zero. -/
theorem divisor (cold : -204800 ≤ t) (warm : t ≤ 435200) : Fits 63 (pScaled cal t) ∧ 95000000 ≤ pDivisor cal t := by
  have var1 : |t - 128000| ≤ 332800 := abs_le.mpr ⟨by omega, by omega⟩
  have square : |(t - 128000) * (t - 128000)| ≤ 332800 * 332800 := abs_mul_le var1 var1
  have cubic : |shr ((t - 128000) * (t - 128000) * cal.digP3.toInt) 8| ≤ 14176747520000 :=
    abs_shr_le ((abs_mul_le square (abs_int16 _)).trans (by norm_num))
  have second : |(t - 128000) * cal.digP2.toInt| ≤ 332800 * 32768 := abs_mul_le var1 (abs_int16 _)
  obtain ⟨least, most⟩ := common.p1
  have sum : 81892078673920 ≤ 2 ^ 47 + (shr ((t - 128000) * (t - 128000) * cal.digP3.toInt) 8 +
      (t - 128000) * cal.digP2.toInt * 2 ^ 12) ∧
      2 ^ 47 + (shr ((t - 128000) * (t - 128000) * cal.digP3.toInt) 8 + (t - 128000) * cal.digP2.toInt * 2 ^ 12) ≤
        199582898032640 := by
    rw [abs_le] at cubic second
    exact ⟨by omega, by omega⟩
  have scaled : 818920786739200000 ≤ pScaled cal t ∧ pScaled cal t < 2 ^ 63 := by
    have p1 : (10000 : Int) ≤ cal.digP1.toNat ∧ (cal.digP1.toNat : Int) ≤ 46000 := ⟨by omega, by omega⟩
    have smallest := mul_le_mul sum.1 p1.1 (by norm_num) (by omega)
    have largest := mul_le_mul sum.2 p1.2 (by omega) (by norm_num)
    rw [pScaled]
    exact ⟨by omega, by omega⟩
  refine ⟨⟨by omega, scaled.2⟩, ?_⟩
  rw [pDivisor, shr]
  omega

theorem pressure (cold : -204800 ≤ t) (warm : t ≤ 435200) (low : 0 ≤ adcP) (high : adcP < 2 ^ 20) :
    PressureFits cal t adcP := by
  obtain ⟨scaled, divisor⟩ := common.divisor cold warm
  have var1 : |t - 128000| ≤ 332800 := abs_le.mpr ⟨by omega, by omega⟩
  have square : |(t - 128000) * (t - 128000)| ≤ 332800 * 332800 := abs_mul_le var1 var1
  have sixth := abs_mul_le square common.p6
  have fifth := abs_mul_le var1 common.p5
  have fourth := common.p4
  have dividend : |pDividend cal t adcP| < 2 ^ 63 := by
    rw [abs_le] at sixth fifth fourth
    rw [pDividend, pVar2]
    exact abs_lt.mpr ⟨by omega, by omega⟩
  have quotient : |pQuotient cal t adcP| ≤ 97100000000 := by
    rw [Int.abs_eq_natAbs] at dividend
    have bound : (pDividend cal t adcP).natAbs / (pDivisor cal t).natAbs ≤ 2 ^ 63 / 95000000 :=
      Nat.div_le_div (by omega) (by omega) (by omega)
    rw [pQuotient, Int.abs_eq_natAbs, Int.natAbs_tdiv]
    exact Int.ofNat_le.mpr (bound.trans (by norm_num))
  have reduced : |shr (pQuotient cal t adcP) 13| ≤ 11853028 := abs_shr_le (quotient.trans (by norm_num))
  have pSquare : |pSquare cal t adcP| ≤ 32768 * 11853028 * 11853028 :=
    abs_mul_le (abs_mul_le (abs_int16 _) reduced) reduced
  have pLinear : |pLinear cal t adcP| ≤ 32768 * 97100000000 := abs_mul_le (abs_int16 _) quotient
  have squared : |shr (Bme280.pSquare cal t adcP) 25| ≤ 2 ^ 38 := abs_shr_le (pSquare.trans (by norm_num))
  have linear : |shr (Bme280.pLinear cal t adcP) 19| ≤ 2 ^ 44 := abs_shr_le (pLinear.trans (by norm_num))
  refine ⟨scaled, fun _ => Fits.of_abs dividend, fun _ => Fits.of_abs (pSquare.trans_lt (by norm_num)),
    fun _ => Fits.of_abs (pLinear.trans_lt (by norm_num)), fun _ => ?_⟩
  rw [abs_le] at quotient squared linear
  rw [pTotal]
  exact ⟨by omega, by omega⟩

theorem humidity (cold : -204800 ≤ t) (warm : t ≤ 435200) (low : 0 ≤ adcH) (high : adcH < 2 ^ 16) :
    HumidityFits cal t adcH := by
  have v : |t - 76800| ≤ 358400 := abs_le.mpr ⟨by omega, by omega⟩
  obtain ⟨fourthLow, fourthHigh⟩ := common.h4
  have offset : -419430400 ≤ hOffset cal adcH ∧ hOffset cal adcH ≤ 811581440 := by
    rw [hOffset]
    exact ⟨by omega, by omega⟩
  have slope : |hSlope cal t| ≤ 100 * 358400 := abs_mul_le common.h5 v
  have sixth : |shr ((t - 76800) * cal.digH6.toInt) 10| ≤ 11200 := abs_shr_le ((abs_mul_le v common.h6).trans (by norm_num))
  have h3 : |(cal.digH3.toNat : Int)| ≤ 1 := by
    have narrow := common.h3
    exact abs_le.mpr ⟨by omega, by omega⟩
  have third : |shr ((t - 76800) * cal.digH3.toNat) 11| ≤ 175 := abs_shr_le ((abs_mul_le v h3).trans (by norm_num))
  have raised : |shr ((t - 76800) * cal.digH3.toNat) 11 + 32768| ≤ 32943 := by
    rw [abs_le] at third
    exact abs_le.mpr ⟨by omega, by omega⟩
  have factor : |hFactor cal t| ≤ 11200 * 32943 := abs_mul_le sixth raised
  have sum : |shr (hFactor cal t) 10 + 2097152| ≤ 2457467 := by
    have reduced : |shr (hFactor cal t) 10| ≤ 360315 := abs_shr_le (factor.trans (by norm_num))
    rw [abs_le] at reduced
    exact abs_le.mpr ⟨by omega, by omega⟩
  have scaled : |hScaled cal t| ≤ 2457467 * 390 := abs_mul_le sum common.h2
  have left : |shr (hOffset cal adcH - hSlope cal t + 16384) 15| ≤ 25863 := by
    rw [abs_le] at slope
    exact abs_shr_le (abs_le.mpr ⟨by omega, by omega⟩)
  have right : |shr (hScaled cal t + 8192) 14| ≤ 58499 := by
    rw [abs_le] at scaled
    exact abs_shr_le (abs_le.mpr ⟨by omega, by omega⟩)
  have product : |hProduct cal t adcH| ≤ 25863 * 58499 := abs_mul_le left right
  have reduced : |shr (hProduct cal t adcH) 15| ≤ 46174 := abs_shr_le (product.trans (by norm_num))
  have square : |hSquare cal t adcH| ≤ 46174 * 46174 := abs_mul_le reduced reduced
  have h1 : |(cal.digH1.toNat : Int)| ≤ 127 := by
    have narrow := common.h1
    exact abs_le.mpr ⟨by omega, by omega⟩
  have correction : |hCorrection cal t adcH| ≤ 16656596 * 127 := abs_mul_le (abs_shr_le (square.trans (by norm_num))) h1
  rw [abs_le] at slope
  refine ⟨⟨by omega, by omega⟩, ⟨by omega, by omega⟩, ⟨by omega, by omega⟩, ⟨by omega, by omega⟩,
    Fits.of_abs (factor.trans_lt (by norm_num)), Fits.of_abs (scaled.trans_lt (by norm_num)), ?_,
    Fits.of_abs (product.trans_lt (by norm_num)), Fits.of_abs (square.trans_lt (by norm_num)),
    Fits.of_abs (correction.trans_lt (by norm_num))⟩
  rw [abs_le] at scaled
  exact ⟨by omega, by omega⟩

end CommonCoefficients

/-- With common coefficients and a temperature from -40 to 85 degrees every sample is compensated. -/
theorem common_compensated {b1 : Vector UInt8 26} {b2 : Vector UInt8 7} (common : CommonCoefficients (readCalibration b1 b2))
    (raw : Vector UInt8 8) (cold : -204800 ≤ tFine (readCalibration b1 b2) (readRaw raw).adcT.toInt)
    (warm : tFine (readCalibration b1 b2) (readRaw raw).adcT.toInt ≤ 435200) :
    compensate (readCalibration b1 b2) (readRaw raw) = .ok (compensated (readCalibration b1 b2) (readRaw raw)) := by
  have adcT := toInt_word (by decide) (twenty_bits raw[3] raw[4] raw[5])
  have adcP := toInt_word (by decide) (twenty_bits raw[0] raw[1] raw[2])
  have adcH := toInt_word (by decide) (sixteen_bits raw[6] raw[7])
  exact (compensate_exact b1 b2 raw).ok
    ⟨common.temperature adcT.1 adcT.2, common.pressure cold warm adcP.1 adcP.2, common.humidity cold warm adcH.1 adcH.2⟩

end Common

end PicoWLogger.Bme280
