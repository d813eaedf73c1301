import PicoWLogger.Lib.FloatRounding
import Mathlib.Data.List.DropRight

/-! What Python makes of a text: the lines of a file, the search for a pattern, and the numbers that `int` and `float`
read. -/

namespace PyText
open DecimalText

/-- `\r` and `\r\n` are read as `\n`. -/
def universalNewlines : List Char → List Char
  | [] => []
  | [c] => [if c = '\r' then '\n' else c]
  | c :: d :: s =>
    if c = '\r' then '\n' :: (if d = '\n' then universalNewlines s else universalNewlines (d :: s))
    else c :: universalNewlines (d :: s)

/-- The pieces that end with `\n`, and what is left. -/
def endedLines : List Char → List (List Char)
  | [] => []
  | c :: s =>
    if c = '\n' then [c] :: endedLines s
    else
      match endedLines s with
      | [] => [[c]]
      | line :: rest => (c :: line) :: rest

def lines (s : List Char) : List (List Char) := endedLines (universalNewlines s)

/-- `re.search` for a pattern that is given by its match at the start of a text. -/
def search {α : Type} (pattern : List Char → Option α) : List Char → Option α
  | [] => pattern []
  | c :: s => (pattern (c :: s)).or (search pattern s)

section Numbers
-- the white space and the decimal digits of Unicode
variable (isSpace : Char → Bool) (decimalValue : Char → Option Nat)

def strip (s : List Char) : List Char := (s.dropWhile isSpace).rdropWhile isSpace

/-- A sign in front of a number; the answer is whether it is a minus. -/
def takeSign : List Char → Bool × List Char
  | [] => (false, [])
  | c :: s => if c = '-' then (true, s) else if c = '+' then (false, s) else (false, c :: s)

/-- One digit or more, with single underscores between them. -/
def digitPart : List Char → Option (List Nat)
  | [] => none
  | [c] => (decimalValue c).map ([·])
  | c :: d :: s => do
    let digit ← decimalValue c
    (if d = '_' then digitPart s else digitPart (d :: s)).map (digit :: ·)

def value (digits : List Nat) : Nat := digits.foldl (fun value digit => value * 10 + digit) 0

/-- `int`; `none` is a `ValueError`. -/
def int (s : List Char) : Option Int := do
  let (negative, s) := takeSign (strip isSpace s)
  let digits ← digitPart decimalValue s
  return if negative then -(value digits : Int) else value digits

/-- A `float`, where -0 is 0. -/
inductive PyFloat where
  | finite (q : ℚ)
  | infinite (negative : Bool)
  | nan
  deriving DecidableEq

/-- The nearest number of 53 bits whose last one is not below that of the smallest `float`, or infinity. -/
def PyFloat.ofRat (q : ℚ) : PyFloat :=
  let ulp : ℚ := 2 ^ max (Int.log 2 |q| - 52) (-1074)
  let rounded := roundHalfEven (q / ulp) * ulp
  if |rounded| < 2 ^ 1024 then .finite rounded else .infinite (q < 0)

def digits (s : List Char) : Option (List Nat) := if s = [] then some [] else digitPart decimalValue s

/-- What stands in front of an exponent. -/
def inMantissa (c : Char) : Bool := c ≠ 'e' && c ≠ 'E'

/-- An exponent with its `e`, or nothing. -/
def exponent : List Char → Option Int
  | [] => some 0
  | _ :: s => do
    let (negative, s) := takeSign s
    let digits ← digitPart decimalValue s
    return if negative then -(value digits : Int) else value digits

/-- A number with or without a point and an exponent. -/
def number (s : List Char) : Option ℚ := do
  let mantissa := s.takeWhile inMantissa
  let whole ← digits decimalValue (mantissa.takeWhile (· ≠ '.'))
  let fraction ← digits decimalValue ((mantissa.dropWhile (· ≠ '.')).drop 1)
  let power ← exponent decimalValue (s.dropWhile inMantissa)
  if whole ++ fraction = [] then none else some (value (whole ++ fraction) * 10 ^ (power - fraction.length))

/-- `float`; `none` is a `ValueError`. -/
def float (s : List Char) : Option PyFloat :=
  let (negative, s) := takeSign (strip isSpace s)
  let name := s.map Char.toLower
  if name = "inf".toList ∨ name = "infinity".toList then some (.infinite negative)
  else if name = "nan".toList then some .nan
  else (number decimalValue s).map fun q => .ofRat (if negative then -q else q)

end Numbers

section Lines

theorem universalNewlines_clean {s : List Char} (clean : '\r' ∉ s) : universalNewlines s = s := by
  fun_induction universalNewlines s with
  | case1 => rfl
  | case2 c =>
    have other : c ≠ '\r' := fun here => clean (here ▸ List.mem_singleton.mpr rfl)
    rw [if_neg other]
  | case3 => exact absurd List.mem_cons_self clean
  | case4 c d s other ih => rw [ih fun later => clean (List.mem_cons_of_mem c later)]

theorem endedLines_line {line : List Char} (clean : '\n' ∉ line) (rest : List Char) :
    endedLines (line ++ '\n' :: rest) = (line ++ ['\n']) :: endedLines rest := by
  induction line with
  | nil => rfl
  | cons c line ih =>
    obtain ⟨other, later⟩ := not_or.mp (mt List.mem_cons.mpr clean)
    rw [List.cons_append, endedLines, if_neg (Ne.symm other), ih later]
    rfl

end Lines

section Search
variable {α : Type} {pattern : List Char → Option α}

theorem search_found {s : List Char} {found : α} (here : pattern s = some found) : search pattern s = some found := by
  cases s with
  | nil => exact here
  | cons c s => rw [search, here, Option.some_or]

/-- A pattern begins with a character of its own. -/
theorem search_skip {first : Char} (begins : ∀ s, s.head? ≠ some first → pattern s = none) {front : List Char}
    (clean : first ∉ front) (s : List Char) : search pattern (front ++ s) = search pattern s := by
  induction front with
  | nil => rfl
  | cons c front ih =>
    obtain ⟨other, later⟩ := not_or.mp (mt List.mem_cons.mpr clean)
    rw [List.cons_append, search, begins (c :: (front ++ s)) fun here => other (Option.some.inj here).symm, Option.none_or,
      ih later]

theorem search_none {s : List Char} (nowhere : ∀ back, back <:+ s → pattern back = none) : search pattern s = none := by
  induction s with
  | nil => exact nowhere [] (List.suffix_refl [])
  | cons c s ih =>
    rw [search, nowhere _ (List.suffix_refl _), Option.none_or]
    exact ih fun back suffix => nowhere back (suffix.trans (List.suffix_cons c s))

end Search

section Decimal

def chars (text : List UInt8) : List Char := text.map fun b => Char.ofNat b.toNat

theorem chars_append (front back : List UInt8) : chars (front ++ back) = chars front ++ chars back := List.map_append

def digitChar (digit : Nat) : Char := Char.ofNat (48 + digit)

theorem value_append (front back : List Nat) : value (front ++ back) = value front * 10 ^ back.length + value back := by
  induction back using List.reverseRecOn with
  | nil => simp [value]
  | append_singleton back digit ih =>
    have last (digits : List Nat) : value (digits ++ [digit]) = value digits * 10 + digit := by
      rw [value, List.foldl_append]
      rfl
    rw [← List.append_assoc, last, last, ih, List.length_append, List.length_singleton, pow_succ]
    ring

/-- Some digits, and the text of them. -/
structure Spells (text : List UInt8) (digits : List Nat) : Prop where
  chars : chars text = digits.map digitChar
  small : ∀ digit ∈ digits, digit < 10

theorem char_digit : ∀ digit < 10, Char.ofNat ('0'.toUInt8 + UInt8.ofNat digit).toNat = digitChar digit := by decide

theorem Spells.of_digits {digits : List Nat} (small : ∀ digit ∈ digits, digit < 10) :
    Spells (digits.map fun digit => '0'.toUInt8 + UInt8.ofNat digit) digits where
  chars := by
    rw [PyText.chars, List.map_map]
    exact List.map_congr_left fun digit member => char_digit digit (small digit member)
  small := small

theorem decimal_spells (n : Nat) : ∃ digits, Spells (decimal n) digits ∧ digits ≠ [] ∧ value digits = n := by
  by_cases zero : n = 0
  · refine ⟨[0], ?_, List.cons_ne_nil _ _, zero.symm⟩
    rw [decimal, if_pos zero]
    exact Spells.of_digits (List.forall_mem_singleton.mpr (by decide : 0 < 10))
  · refine ⟨(Nat.digits 10 n).reverse, ?_, ?_, ?_⟩
    · rw [decimal, if_neg zero]
      exact Spells.of_digits fun digit member => Nat.digits_lt_base (by decide) (List.mem_reverse.mp member)
    · rwa [ne_eq, List.reverse_eq_nil_iff, Nat.digits_eq_nil_iff_eq_zero]
    · rw [value, List.foldl_reverse]
      have horner (digits : List Nat) : digits.foldr (fun digit value => value * 10 + digit) 0 = Nat.ofDigits 10 digits := by
        induction digits with
        | nil => rfl
        | cons digit digits ih => rw [List.foldr_cons, ih, Nat.ofDigits_cons, Nat.mul_comm, Nat.add_comm]
      rw [horner, Nat.ofDigits_digits]

theorem paddedDecimal_spells (width n : Nat) :
    ∃ digits, Spells (paddedDecimal width n) digits ∧ digits.length = width ∧ value digits = n % 10 ^ width := by
  induction width generalizing n with
  | zero => exact ⟨[], ⟨rfl, List.forall_mem_nil _⟩, rfl, by rw [pow_zero, Nat.mod_one]; rfl⟩
  | succ width ih =>
    obtain ⟨digits, spells, length, value'⟩ := ih (n / 10)
    have last := Nat.mod_lt n (by decide : 0 < 10)
    refine ⟨digits ++ [n % 10], ⟨?_, ?_⟩, by rw [List.length_append, length]; rfl, ?_⟩
    · rw [paddedDecimal, chars, List.map_append, List.map_append]
      exact congrArg₂ _ spells.chars (congrArg ([·]) (char_digit _ last))
    · exact List.forall_mem_append.mpr ⟨spells.small, List.forall_mem_singleton.mpr last⟩
    · rw [value_append, value', List.length_singleton, pow_one, pow_succ', Nat.mod_mul]
      change n / 10 % 10 ^ width * 10 + (0 * 10 + n % 10) = _
      ring

theorem numeric_range {b : UInt8} (numeric : Numeric b) : 45 ≤ b.toNat ∧ b.toNat ≤ 57 := by
  rcases numeric with rfl | rfl | ⟨low, high⟩
  · decide
  · decide
  · have low' : 48 ≤ b.toNat := UInt8.le_iff_toNat_le.mp low
    exact ⟨by omega, UInt8.le_iff_toNat_le.mp high⟩

theorem not_mem_numeric {text : List UInt8} (numeric : ∀ b ∈ text, Numeric b) {c : Char}
    (other : c.toNat < 45 ∨ 57 < c.toNat) : c ∉ chars text := by
  intro member
  obtain ⟨b, inside, rfl⟩ := List.mem_map.mp member
  obtain ⟨low, high⟩ := numeric_range (numeric b inside)
  have same : ∀ n < 58, (Char.ofNat n).toNat = n := by decide
  rw [same b.toNat (by omega)] at other
  omega

end Decimal

section Floats

/-- In the range of the normal numbers only the precision counts. -/
theorem PyFloat.ofRat_eq {q : ℚ} (small : q = 0 ∨ 2 ^ (-1022 : Int) ≤ |q|) (large : |q| < 2 ^ 1023) :
    PyFloat.ofRat q = .finite (roundBinary 53 q) := by
  have exponent : -1022 ≤ Int.log 2 |q| := by
    rcases small with rfl | normal
    · rw [abs_zero, Int.log_zero_right]
      decide
    · have positive : 0 < |q| := (zpow_pos two_pos _).trans_le normal
      exact (Int.zpow_le_iff_le_log (by decide) positive).mp (by exact_mod_cast normal)
  have ulp : max (Int.log 2 |q| - 52) (-1074) = Int.log 2 |q| - ((53 : Nat) - 1) := by
    rw [max_eq_left (by omega)]
    norm_num
  have rounded : roundHalfEven (q / 2 ^ max (Int.log 2 |q| - 52) (-1074)) * (2 : ℚ) ^ max (Int.log 2 |q| - 52) (-1074) =
      roundBinary 53 q := by
    rw [ulp, roundBinary]
  have finite : |roundBinary 53 q| < 2 ^ 1024 := by
    refine (abs_roundBinary_le 53 q).trans_lt ?_
    rw [pow_succ']
    exact mul_lt_mul_of_pos_left large two_pos
  rw [PyFloat.ofRat]
  simp only [rounded, if_pos finite]

end Floats

section Read
variable {isSpace : Char → Bool} {decimalValue : Char → Option Nat}

/-- What holds of the white space and the digits of Unicode. -/
structure Unicode (isSpace : Char → Bool) (decimalValue : Char → Option Nat) : Prop where
  digit : ∀ digit < 10, decimalValue (digitChar digit) = some digit
  solid : ∀ b : UInt8, Numeric b → isSpace (Char.ofNat b.toNat) = false

theorem strip_solid {s : List Char} (solid : ∀ c ∈ s, isSpace c = false) : strip isSpace s = s := by
  have kept (s : List Char) (solid : ∀ c ∈ s, isSpace c = false) : s.dropWhile isSpace = s := by
    cases s with
    | nil => rfl
    | cons c s => rw [List.dropWhile_cons_of_neg (by rw [solid c List.mem_cons_self]; decide)]
  rw [strip, kept s solid, List.rdropWhile, kept _ fun c member => solid c (List.mem_reverse.mp member), List.reverse_reverse]

theorem digitChar_plain : ∀ digit < 10, digitChar digit ≠ '_' ∧ digitChar digit ≠ '-' ∧ digitChar digit ≠ '+' ∧
    digitChar digit ≠ '.' ∧ digitChar digit ≠ 'e' ∧ digitChar digit ≠ 'E' ∧ (digitChar digit).toLower = digitChar digit ∧
    digitChar digit ≠ 'i' ∧ digitChar digit ≠ 'n' := by decide

theorem takeSign_digit {digit : Nat} (small : digit < 10) (s : List Char) :
    takeSign (digitChar digit :: s) = (false, digitChar digit :: s) := by
  obtain ⟨-, minus, plus, -⟩ := digitChar_plain digit small
  rw [takeSign, if_neg minus, if_neg plus]

/-- No number is called infinity or nan. -/
theorem float_number {s : List Char} {digit : Nat} (small : digit < 10) {rest : List Char}
    (first : s = digitChar digit :: rest) {q : ℚ} (read : number decimalValue s = some q) (negative : Bool)
    (solid : ∀ c ∈ s, isSpace c = false) (minus : isSpace '-' = false) :
    float isSpace decimalValue ((if negative then ['-'] else []) ++ s) = some (.ofRat (if negative then -q else q)) := by
  obtain ⟨-, -, -, -, -, -, lower, i, n⟩ := digitChar_plain digit small
  have name (c : Char) (other : digitChar digit ≠ c) (more : List Char) : s.map Char.toLower ≠ c :: more := by
    rw [first, List.map_cons, lower]
    exact fun same => other (List.cons.inj same).1
  have sign : takeSign (strip isSpace ((if negative then ['-'] else []) ++ s)) = (negative, s) := by
    rw [strip_solid]
    · cases negative with
      | true => rfl
      | false =>
        rw [first]
        exact takeSign_digit small rest
    · refine List.forall_mem_append.mpr ⟨fun c member => ?_, solid⟩
      cases negative with
      | true => rwa [List.mem_singleton.mp member]
      | false => cases member
  have unnamed : ¬ (s.map Char.toLower = "inf".toList ∨ s.map Char.toLower = "infinity".toList) :=
    not_or.mpr ⟨name 'i' i _, name 'i' i _⟩
  have notNan : ¬ s.map Char.toLower = "nan".toList := name 'n' n _
  simp only [float, sign, if_neg unnamed, if_neg notNan, read, Option.map_some]

variable (unicode : Unicode isSpace decimalValue)
include unicode

theorem digitPart_digits {digits : List Nat} (small : ∀ digit ∈ digits, digit < 10) (some' : digits ≠ []) :
    digitPart decimalValue (digits.map digitChar) = some digits := by
  induction digits with
  | nil => exact absurd rfl some'
  | cons digit digits ih =>
    obtain ⟨first, later⟩ := List.forall_mem_cons.mp small
    cases digits with
    | nil => rw [List.map_singleton, digitPart, unicode.digit digit first, Option.map_some]
    | cons next digits =>
      have plain := (digitChar_plain next (later next List.mem_cons_self)).1
      have rest := ih later (List.cons_ne_nil _ _)
      rw [List.map_cons] at rest
      rw [List.map_cons, List.map_cons, digitPart, if_neg plain, rest, unicode.digit digit first]
      rfl

theorem chars_solid {text : List UInt8} (numeric : ∀ b ∈ text, Numeric b) : ∀ c ∈ chars text, isSpace c = false := by
  intro c member
  obtain ⟨b, inside, rfl⟩ := List.mem_map.mp member
  exact unicode.solid b (numeric b inside)

/-- `int` reads what `%u` prints. -/
theorem int_decimal (n : Nat) : int isSpace decimalValue (chars (decimal n)) = some (n : Int) := by
  obtain ⟨digits, spells, some', value'⟩ := decimal_spells n
  obtain ⟨digit, rest, rfl⟩ := List.exists_cons_of_ne_nil some'
  have first := spells.small digit List.mem_cons_self
  rw [int, strip_solid (chars_solid unicode (numeric_decimal n)), spells.chars, List.map_cons, takeSign_digit first,
    ← List.map_cons]
  change (do
    let digits ← digitPart decimalValue _
    return if false = true then -(value digits : Int) else value digits) = _
  rw [digitPart_digits unicode spells.small some']
  exact congrArg (fun n : Nat => some (n : Int)) value'

theorem digits_map {digits : List Nat} (small : ∀ digit ∈ digits, digit < 10) :
    PyText.digits decimalValue (digits.map digitChar) = some digits := by
  cases digits with
  | nil => rfl
  | cons digit digits =>
    rw [PyText.digits, List.map_cons, if_neg (List.cons_ne_nil _ _), ← List.map_cons]
    exact digitPart_digits unicode small (List.cons_ne_nil _ _)

theorem number_point {whole fraction : List Nat} (small : ∀ digit ∈ whole ++ fraction, digit < 10) (some' : whole ≠ []) :
    number decimalValue (whole.map digitChar ++ '.' :: fraction.map digitChar) =
      some ((value (whole ++ fraction) : ℚ) / 10 ^ fraction.length) := by
  obtain ⟨smallWhole, smallFraction⟩ := List.forall_mem_append.mp small
  have plain (digits : List Nat) (small : ∀ digit ∈ digits, digit < 10) :
      ∀ c ∈ digits.map digitChar, inMantissa c = true ∧ decide (c ≠ '.') = true := by
    intro c member
    obtain ⟨digit, inside, rfl⟩ := List.mem_map.mp member
    obtain ⟨-, -, -, point, e, capital, -⟩ := digitChar_plain digit (small digit inside)
    simp [inMantissa, point, e, capital]
  have mantissa : ∀ c ∈ whole.map digitChar ++ '.' :: fraction.map digitChar, inMantissa c = true := by
    refine List.forall_mem_append.mpr ⟨fun c member => (plain whole smallWhole c member).1, ?_⟩
    exact List.forall_mem_cons.mpr ⟨by decide, fun c member => (plain fraction smallFraction c member).1⟩
  have front := fun c member => (plain whole smallWhole c member).2
  rw [number, List.takeWhile_eq_self_iff.mpr mantissa, List.dropWhile_eq_nil_iff.mpr mantissa,
    List.takeWhile_append_of_pos front, List.dropWhile_append_of_pos front, List.takeWhile_cons_of_neg (by decide),
    List.dropWhile_cons_of_neg (by decide), List.append_nil, List.drop_one, List.tail_cons, digits_map unicode smallWhole,
    digits_map unicode smallFraction]
  change (if whole ++ fraction = [] then none else _) = _
  rw [if_neg (List.append_ne_nil_of_left_ne_nil some' _), zero_sub, zpow_neg, zpow_natCast, div_eq_mul_inv]

/-- `float` reads what `%f` prints, as the nearest number. -/
theorem float_scaled {places : Nat} {n : Int} (large : |n| < 2 ^ 64) (few : 10 ^ places ≤ 2 ^ 64) :
    float isSpace decimalValue (chars (scaled places n)) = some (.finite (roundBinary 53 (n / 10 ^ places))) := by
  obtain ⟨whole, front, some', wholeValue⟩ := decimal_spells (n.natAbs / 10 ^ places)
  obtain ⟨fraction, back, length, fractionValue⟩ := paddedDecimal_spells places (n.natAbs % 10 ^ places)
  obtain ⟨digit, rest, isWhole⟩ := List.exists_cons_of_ne_nil some'
  have magnitude : value (whole ++ fraction) = n.natAbs := by
    rw [value_append, wholeValue, fractionValue, length, Nat.mod_mod, Nat.div_add_mod']
  have small : ∀ digit ∈ whole ++ fraction, digit < 10 := List.forall_mem_append.mpr ⟨front.small, back.small⟩
  have body : chars (scaled places n) =
      (if decide (n < 0) then ['-'] else []) ++ (whole.map digitChar ++ '.' :: fraction.map digitChar) := by
    have sign : chars (if n < 0 then ['-'.toUInt8] else []) = if decide (n < 0) then ['-'] else [] := by
      by_cases negative : n < 0
      · rw [if_pos negative, decide_eq_true negative]
        rfl
      · rw [if_neg negative, decide_eq_false negative]
        rfl
    rw [scaled, chars_append, chars_append, chars_append, sign, front.chars, back.chars, List.append_assoc, List.append_assoc]
    rfl
  have solid : ∀ c ∈ whole.map digitChar ++ '.' :: fraction.map digitChar, isSpace c = false := by
    rw [← front.chars, ← back.chars]
    refine List.forall_mem_append.mpr ⟨chars_solid unicode (numeric_decimal _), List.forall_mem_cons.mpr ⟨?_, ?_⟩⟩
    · exact unicode.solid '.'.toUInt8 (.inr (.inl rfl))
    · exact chars_solid unicode (numeric_paddedDecimal _ _)
  have quotient : (if decide (n < 0) then -((n.natAbs : ℚ) / 10 ^ places) else n.natAbs / 10 ^ places) = n / 10 ^ places := by
    by_cases negative : n < 0
    · rw [decide_eq_true negative, if_pos rfl, Nat.cast_natAbs, abs_of_neg negative, Int.cast_neg, neg_div, neg_neg]
    · rw [decide_eq_false negative, if_neg Bool.false_ne_true, Nat.cast_natAbs, abs_of_nonneg (not_lt.mp negative)]
  have power : (0 : ℚ) < 10 ^ places := by positivity
  have size : |(n : ℚ) / 10 ^ places| = |(n : ℚ)| / 10 ^ places := by rw [abs_div, abs_of_pos power]
  have read := number_point unicode small some'
  rw [magnitude, length] at read
  rw [body, float_number (front.small digit (isWhole ▸ List.mem_cons_self)) (by rw [isWhole]; rfl) read _ solid
    (unicode.solid '-'.toUInt8 (.inl rfl)), quotient, PyFloat.ofRat_eq]
  · by_cases zero : n = 0
    · exact .inl (by rw [zero, Int.cast_zero, zero_div])
    · have one : (1 : ℚ) ≤ |(n : ℚ)| := by exact_mod_cast Int.one_le_abs zero
      have few' : (10 : ℚ) ^ places ≤ 2 ^ 64 := by exact_mod_cast few
      refine .inr ?_
      rw [size, le_div_iff₀ power]
      calc (2 : ℚ) ^ (-1022 : Int) * 10 ^ places ≤ 2 ^ (-64 : Int) * 2 ^ 64 :=
            mul_le_mul (zpow_le_zpow_right₀ one_le_two (by decide)) few' power.le (by positivity)
        _ = 1 := by norm_num
        _ ≤ |(n : ℚ)| := one
  · have large' : |(n : ℚ)| < 2 ^ 64 := by exact_mod_cast large
    have least : (1 : ℚ) ≤ 10 ^ places := one_le_pow₀ (by norm_num)
    rw [size]
    exact ((div_le_self (abs_nonneg _) least).trans_lt large').trans (pow_lt_pow_right₀ one_lt_two (by decide))

end Read

end PyText
