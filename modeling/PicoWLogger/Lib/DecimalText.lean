import Mathlib.Data.Int.Log
import Mathlib.Data.Nat.Digits.Lemmas
import Mathlib.Data.Rat.Floor
import Mathlib.Data.UInt

/-! Numbers as a C program computes and prints them: rationals rounded to a binary format, and decimal text. -/

namespace DecimalText

def ascii (text : String) : List UInt8 := text.toList.map Char.toUInt8

/-- The nearest integer, the even one of two. -/
def roundHalfEven (q : ℚ) : Int :=
  if q - ⌊q⌋ < 1 / 2 then ⌊q⌋ else if q - ⌊q⌋ > 1 / 2 then ⌊q⌋ + 1 else if ⌊q⌋ % 2 = 0 then ⌊q⌋ else ⌊q⌋ + 1

/-- The nearest number of `precision` significant bits; the exponent is not bounded. -/
def roundBinary (precision : Nat) (q : ℚ) : ℚ :=
  let ulp : ℚ := 2 ^ (Int.log 2 |q| - (precision - 1))
  roundHalfEven (q / ulp) * ulp

/-- `%u`. -/
def decimal (n : Nat) : List UInt8 :=
  if n = 0 then ['0'.toUInt8] else (Nat.digits 10 n).reverse.map fun digit => '0'.toUInt8 + UInt8.ofNat digit

/-- Exactly `width` decimal digits. -/
def paddedDecimal : Nat → Nat → List UInt8
  | 0, _ => []
  | width + 1, n => paddedDecimal width (n / 10) ++ ['0'.toUInt8 + UInt8.ofNat (n % 10)]

/-- `%.{places}f` of a finite number other than -0. -/
def fixed (places : Nat) (q : ℚ) : List UInt8 :=
  let scaled := (roundHalfEven (|q| * 10 ^ places)).toNat
  (if q < 0 then ['-'.toUInt8] else []) ++ decimal (scaled / 10 ^ places) ++ ['.'.toUInt8] ++
    paddedDecimal places (scaled % 10 ^ places)

example : fixed 3 (roundBinary 24 (33 / 10)) = ascii "3.300" := by decide +kernel

def Numeric (c : UInt8) : Prop := c = '-'.toUInt8 ∨ c = '.'.toUInt8 ∨ '0'.toUInt8 ≤ c ∧ c ≤ '9'.toUInt8

theorem numeric_digit {digit : Nat} (small : digit < 10) : Numeric ('0'.toUInt8 + UInt8.ofNat digit) := by
  have range : ∀ digit < 10, '0'.toUInt8 ≤ '0'.toUInt8 + UInt8.ofNat digit ∧
      '0'.toUInt8 + UInt8.ofNat digit ≤ '9'.toUInt8 := by decide
  exact .inr (.inr (range digit small))

theorem numeric_decimal (n : Nat) : ∀ c ∈ decimal n, Numeric c := by
  rw [decimal]
  split
  · rw [List.forall_mem_singleton]
    exact numeric_digit (by decide : 0 < 10)
  · intro c member
    obtain ⟨digit, isDigit, rfl⟩ := List.mem_map.mp member
    exact numeric_digit (Nat.digits_lt_base (by decide) (List.mem_reverse.mp isDigit))

theorem length_decimal_le {n places : Nat} (positive : 0 < places) (small : n < 10 ^ places) :
    (decimal n).length ≤ places := by
  rw [decimal]
  split
  · exact positive
  · rw [List.length_map, List.length_reverse]
    exact (Nat.digits_length_le_iff (by decide) n).mpr small

theorem length_paddedDecimal (width n : Nat) : (paddedDecimal width n).length = width := by
  induction width generalizing n with
  | zero => rfl
  | succ width ih => rw [paddedDecimal, List.length_append, ih, List.length_singleton]

theorem roundHalfEven_le (q : ℚ) : (roundHalfEven q : ℚ) ≤ q + 1 := by
  have floor := Int.floor_le q
  have cases : roundHalfEven q = ⌊q⌋ ∨ roundHalfEven q = ⌊q⌋ + 1 := by
    rw [roundHalfEven]
    split
    · exact .inl rfl
    · split
      · exact .inr rfl
      · split
        · exact .inl rfl
        · exact .inr rfl
  rcases cases with down | up
  · rw [down]
    linarith
  · rw [up, Int.cast_add, Int.cast_one]
    linarith

/-- A sign, the digits in front of the point, the point, and the places. -/
theorem length_fixed_le {digits : Nat} {q : ℚ} (places : Nat) (positive : 0 < digits) (small : |q| + 1 < 10 ^ digits) :
    (fixed places q).length ≤ digits + places + 2 := by
  have one : (1 : ℚ) ≤ 10 ^ places := one_le_pow₀ (by norm_num)
  have top : roundHalfEven (|q| * 10 ^ places) < (10 ^ digits * 10 ^ places : ℕ) := by
    have rounded := roundHalfEven_le (|q| * 10 ^ places)
    have scaled : (roundHalfEven (|q| * 10 ^ places) : ℚ) < 10 ^ digits * 10 ^ places := by nlinarith
    exact_mod_cast scaled
  have whole : (roundHalfEven (|q| * 10 ^ places)).toNat / 10 ^ places < 10 ^ digits := by
    rw [Nat.div_lt_iff_lt_mul (by positivity)]
    exact (Int.toNat_lt' (by positivity)).mpr top
  have front := length_decimal_le positive whole
  have sign : (if q < 0 then ['-'.toUInt8] else []).length ≤ 1 := by
    split
    · exact Nat.le_refl 1
    · exact Nat.zero_le 1
  simp only [fixed, List.length_append, length_paddedDecimal, List.length_singleton]
  omega

theorem numeric_paddedDecimal (width n : Nat) : ∀ c ∈ paddedDecimal width n, Numeric c := by
  induction width generalizing n with
  | zero => exact List.forall_mem_nil _
  | succ width ih =>
    exact List.forall_mem_append.mpr ⟨ih _, List.forall_mem_singleton.mpr (numeric_digit (Nat.mod_lt _ (by decide)))⟩

theorem numeric_fixed (places : Nat) (q : ℚ) : ∀ c ∈ fixed places q, Numeric c := by
  have sign : ∀ c ∈ (if q < 0 then ['-'.toUInt8] else []), Numeric c := by
    split
    · exact List.forall_mem_singleton.mpr (.inl rfl)
    · exact List.forall_mem_nil _
  refine List.forall_mem_append.mpr ⟨List.forall_mem_append.mpr ⟨List.forall_mem_append.mpr ⟨sign, numeric_decimal _⟩, ?_⟩,
    numeric_paddedDecimal _ _⟩
  exact List.forall_mem_singleton.mpr (.inr (.inl rfl))

end DecimalText
