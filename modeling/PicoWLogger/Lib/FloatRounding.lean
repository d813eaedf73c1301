import PicoWLogger.Lib.DecimalText
import Mathlib.Tactic.FieldSimp
import Mathlib.Tactic.Linarith

/-! How far rounding moves a number, and when a number that was rounded to a binary format still prints as the decimal
number it was made from. -/

namespace DecimalText

theorem abs_roundHalfEven_sub_le (q : ℚ) : |(roundHalfEven q : ℚ) - q| ≤ 1 / 2 := by
  have low := Int.floor_le q
  have high := Int.lt_floor_add_one q
  rw [abs_le, roundHalfEven]
  split
  · constructor <;> linarith
  · split
    · push_cast
      constructor <;> linarith
    · split
      · constructor <;> linarith
      · push_cast
        constructor <;> linarith

/-- The only integer within less than a half. -/
theorem roundHalfEven_of_near {q : ℚ} {n : Int} (near : |q - n| < 1 / 2) : roundHalfEven q = n := by
  have rounded := abs_roundHalfEven_sub_le q
  have apart : |((roundHalfEven q - n : Int) : ℚ)| < 1 := by
    have split : ((roundHalfEven q - n : Int) : ℚ) = ((roundHalfEven q : ℚ) - q) + (q - n) := by
      push_cast
      ring
    rw [split]
    exact (abs_add_le _ _).trans_lt (by linarith)
  have none' : |roundHalfEven q - n| < 1 := by exact_mod_cast apart
  exact sub_eq_zero.mp (Int.abs_lt_one_iff.mp none')

/-- The relative error of a binary format. -/
theorem abs_roundBinary_sub_le (precision : Nat) (q : ℚ) : |roundBinary precision q - q| ≤ |q| / 2 ^ precision := by
  by_cases zero : q = 0
  · have rounded : roundHalfEven 0 = 0 := roundHalfEven_of_near (by norm_num)
    simp [zero, roundBinary, rounded]
  · have positive : 0 < |q| := abs_pos.mpr zero
    obtain ⟨ulp, isUlp⟩ : ∃ ulp : ℚ, (2 : ℚ) ^ (Int.log 2 |q| - (precision - 1)) = ulp := ⟨_, rfl⟩
    have some' : 0 < ulp := by
      rw [← isUlp]
      exact zpow_pos two_pos _
    have small : ulp ≤ |q| * 2 / 2 ^ precision := by
      have log := Int.zpow_log_le_self (b := 2) (by norm_num) positive
      have split : ulp = (2 : ℚ) ^ Int.log 2 |q| * (2 / 2 ^ precision) := by
        rw [← isUlp, sub_sub_eq_add_sub, zpow_sub₀ two_ne_zero, zpow_add₀ two_ne_zero, zpow_natCast, zpow_one,
          mul_div_assoc]
      rw [split, mul_div_assoc]
      exact mul_le_mul_of_nonneg_right (by exact_mod_cast log) (by positivity)
    have moved : roundBinary precision q - q = ((roundHalfEven (q / ulp) : ℚ) - q / ulp) * ulp := by
      rw [roundBinary]
      simp only [isUlp]
      field_simp
    rw [moved, abs_mul, abs_of_pos some']
    calc |(roundHalfEven (q / ulp) : ℚ) - q / ulp| * ulp ≤ 1 / 2 * ulp :=
          mul_le_mul_of_nonneg_right (abs_roundHalfEven_sub_le _) some'.le
      _ ≤ 1 / 2 * (|q| * 2 / 2 ^ precision) := mul_le_mul_of_nonneg_left small (by norm_num)
      _ = |q| / 2 ^ precision := by ring

theorem abs_roundBinary_le (precision : Nat) (q : ℚ) : |roundBinary precision q| ≤ 2 * |q| := by
  have moved := abs_roundBinary_sub_le precision q
  have most : |q| / 2 ^ precision ≤ |q| := div_le_self (abs_nonneg q) (one_le_pow₀ one_le_two)
  have split : roundBinary precision q = (roundBinary precision q - q) + q := (sub_add_cancel _ _).symm
  rw [split]
  exact (abs_add_le _ _).trans (by linarith)

theorem roundBinary_neg_iff {precision : Nat} (some' : 0 < precision) (q : ℚ) : roundBinary precision q < 0 ↔ q < 0 := by
  have moved := abs_roundBinary_sub_le precision q
  have two : (2 : ℚ) ≤ 2 ^ precision := le_self_pow₀ one_le_two some'.ne'
  have half := div_le_div_of_nonneg_left (abs_nonneg q) two_pos two
  rcases lt_or_ge q 0 with negative | positive
  · rw [abs_of_neg negative] at moved half
    have up := (abs_le.mp moved).2
    exact iff_of_true (by linarith) negative
  · rw [abs_of_nonneg positive] at moved half
    have down := (abs_le.mp moved).1
    exact iff_of_false (by linarith) positive.not_gt

theorem roundBinary_nonneg {precision : Nat} (some' : 0 < precision) {q : ℚ} (nonneg : 0 ≤ q) : 0 ≤ roundBinary precision q :=
  not_lt.mp (mt (roundBinary_neg_iff some' q).mp nonneg.not_gt)

/-- A binary fraction whose digits fit is not moved. -/
theorem roundBinary_dyadic {precision : Nat} {n : Int} (k : Nat) (fits : |n| < 2 ^ precision) :
    roundBinary precision (n / 2 ^ k) = n / 2 ^ k := by
  by_cases zero : n = 0
  · have moved := abs_roundBinary_sub_le precision 0
    rw [abs_zero, zero_div, sub_zero] at moved
    rw [zero, Int.cast_zero, zero_div]
    exact abs_nonpos_iff.mp moved
  · have quotient : |(n : ℚ) / 2 ^ k| = |(n : ℚ)| / 2 ^ k := by
      rw [abs_div, abs_of_pos (by positivity : (0 : ℚ) < 2 ^ k)]
    have positive : 0 < |(n : ℚ) / 2 ^ k| := by
      rw [quotient]
      exact div_pos (abs_pos.mpr (by exact_mod_cast zero)) (by positivity)
    have below : Int.log 2 |(n : ℚ) / 2 ^ k| < precision - k := by
      refine (Int.lt_zpow_iff_log_lt (by norm_num) positive).mp ?_
      rw [quotient, Nat.cast_ofNat, zpow_sub₀ two_ne_zero, zpow_natCast, zpow_natCast]
      exact div_lt_div_of_pos_right (by exact_mod_cast fits) (by positivity)
    obtain ⟨j, exponent⟩ : ∃ j : Nat, Int.log 2 |(n : ℚ) / 2 ^ k| - (precision - 1) = -((k + j : Nat) : Int) :=
      ⟨(precision - 1 - k - Int.log 2 |(n : ℚ) / 2 ^ k|).toNat, by omega⟩
    have whole : roundHalfEven (n / 2 ^ k / (2 : ℚ) ^ (-((k + j : Nat) : Int))) = n * 2 ^ j := by
      apply roundHalfEven_of_near
      rw [zpow_neg, zpow_natCast, div_inv_eq_mul, pow_add, ← mul_assoc, div_mul_cancel₀ _ (by positivity)]
      push_cast
      norm_num
    simp only [roundBinary, exponent, whole]
    push_cast
    rw [zpow_neg, ← Nat.cast_add, zpow_natCast, pow_add]
    field_simp

theorem roundBinary_intCast {precision : Nat} {n : Int} (fits : |n| < 2 ^ precision) : roundBinary precision n = n := by
  have fraction := roundBinary_dyadic 0 fits
  rwa [pow_zero, div_one] at fraction

/-- The text of a number of hundredths, thousandths and so on. -/
def scaled (places : Nat) (n : Int) : List UInt8 :=
  (if n < 0 then ['-'.toUInt8] else []) ++ decimal (n.natAbs / 10 ^ places) ++ ['.'.toUInt8] ++
    paddedDecimal places (n.natAbs % 10 ^ places)

theorem fixed_eq_scaled {places : Nat} {q : ℚ} {n : Int} (size : roundHalfEven (|q| * 10 ^ places) = |n|)
    (sign : q < 0 ↔ n < 0) : fixed places q = scaled places n := by
  have size' : (roundHalfEven (|q| * 10 ^ places)).toNat = n.natAbs := by
    rw [size, Int.abs_eq_natAbs, Int.toNat_natCast]
  simp only [fixed, scaled, size', sign]

/-- A number less than half a unit of the last place from a whole number of them prints as that. -/
theorem fixed_of_near {places : Nat} {q : ℚ} {n : Int} (near : |q * 10 ^ places - n| < 1 / 2) (sign : q < 0 ↔ n < 0) :
    fixed places q = scaled places n := by
  refine fixed_eq_scaled (roundHalfEven_of_near ?_) sign
  have power : |q| * 10 ^ places = |q * 10 ^ places| := by
    rw [abs_mul, abs_of_pos (by positivity : (0 : ℚ) < 10 ^ places)]
  rw [power, Int.cast_abs]
  exact (abs_abs_sub_abs_le_abs_sub _ _).trans_lt near

/-- A quotient by a power of ten that is rounded to a binary format keeps its decimal text, as long as the format has
digits enough. -/
theorem fixed_roundBinary {precision places : Nat} {n : Int} (some' : 0 < precision) (fits : 2 * |n| < 2 ^ precision) :
    fixed places (roundBinary precision (n / 10 ^ places)) = scaled places n := by
  have power : (0 : ℚ) < 10 ^ places := by positivity
  have digits : (0 : ℚ) < 2 ^ precision := by positivity
  have few : 2 * |(n : ℚ)| < 2 ^ precision := by exact_mod_cast fits
  have moved := abs_roundBinary_sub_le precision (n / 10 ^ places)
  refine fixed_of_near ?_ ?_
  · have unit : |roundBinary precision (n / 10 ^ places) * 10 ^ places - n| =
        |roundBinary precision (n / 10 ^ places) - n / 10 ^ places| * 10 ^ places := by
      rw [← abs_of_pos power, ← abs_mul, abs_of_pos power, sub_mul, div_mul_cancel₀ _ power.ne']
    rw [unit]
    calc |roundBinary precision (n / 10 ^ places) - n / 10 ^ places| * 10 ^ places
        ≤ |(n : ℚ) / 10 ^ places| / 2 ^ precision * 10 ^ places := mul_le_mul_of_nonneg_right moved power.le
      _ = |(n : ℚ)| / 2 ^ precision := by
          rw [abs_div, abs_of_pos power]
          field_simp
      _ < 1 / 2 := by
          rw [div_lt_div_iff₀ digits two_pos]
          linarith
  · rw [roundBinary_neg_iff some', div_neg_iff]
    have whole : (n : ℚ) < 0 ↔ n < 0 := Int.cast_lt_zero
    constructor
    · rintro (⟨-, negative⟩ | ⟨negative, -⟩)
      · exact absurd negative power.not_gt
      · exact whole.mp negative
    · exact fun negative => .inr ⟨whole.mpr negative, power⟩

/-- A computed number is off an exact one by a part of that. -/
def Within (part computed exact : ℚ) : Prop := |computed - exact| ≤ part * |exact|

namespace Within
variable {part computed exact : ℚ}

theorem of_eq (exact : ℚ) : Within 0 exact exact := by rw [Within, sub_self, abs_zero, zero_mul]

theorem scale (within : Within part computed exact) (factor : ℚ) : Within part (factor * computed) (factor * exact) := by
  rw [Within, ← mul_sub, abs_mul, abs_mul, mul_left_comm]
  exact mul_le_mul_of_nonneg_left within (abs_nonneg factor)

/-- A rounding adds its own part. -/
theorem round (within : Within part computed exact) (precision : Nat) :
    Within (part + (1 + part) / 2 ^ precision) (roundBinary precision computed) exact := by
  have digits : (0 : ℚ) < 2 ^ precision := by positivity
  have moved := abs_roundBinary_sub_le precision computed
  have size : |computed| ≤ (1 + part) * |exact| := by
    have split : computed = (computed - exact) + exact := (sub_add_cancel _ _).symm
    rw [split, add_mul, one_mul, add_comm |exact|]
    exact (abs_add_le _ _).trans (add_le_add_left within _)
  have split : roundBinary precision computed - exact = (roundBinary precision computed - computed) + (computed - exact) :=
    (sub_add_sub_cancel _ _ _).symm
  rw [Within, split]
  calc |(roundBinary precision computed - computed) + (computed - exact)|
      ≤ |computed| / 2 ^ precision + part * |exact| := (abs_add_le _ _).trans (add_le_add moved within)
    _ ≤ (1 + part) * |exact| / 2 ^ precision + part * |exact| :=
        add_le_add_left (div_le_div_of_nonneg_right size digits.le) _
    _ = (part + (1 + part) / 2 ^ precision) * |exact| := by ring

end Within

end DecimalText
