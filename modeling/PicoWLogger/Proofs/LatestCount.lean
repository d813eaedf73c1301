import PicoWLogger.CommandTask
import Mathlib.Data.List.TakeWhile
import Mathlib.Data.Nat.Digits.Defs

/-! Which text the command `lN` is taken from. -/

namespace PicoWLogger

namespace CommandTask

/-- `parseLatestCount` as its caller sees it: the returned value and `*out_count` after the call. -/
def storeLatestCount (cmd : List UInt8) (outCount : UInt32) : Bool × UInt32 :=
  match parseLatestCount cmd with
  | some count => (true, count)
  | none => (false, outCount)

def isBlank (c : UInt8) : Bool := c == ' '.toUInt8 || c == '\t'.toUInt8

/-- The number that decimal digits denote, whatever their count. -/
def number (digits : List UInt8) : Nat := Nat.ofDigits 10 (digits.reverse.map fun c => (c - '0'.toUInt8).toNat)

/-- The command `lN`: a letter, blanks and the digits of a number other than zero. -/
def IsLatestCount (cmd : List UInt8) (value : Nat) : Prop :=
  ∃ letter blanks digits, cmd = letter :: (blanks ++ digits) ∧ (letter = 'l'.toUInt8 ∨ letter = 'L'.toUInt8) ∧
    (∀ c ∈ blanks, isBlank c = true) ∧ digits ≠ [] ∧ (∀ c ∈ digits, isDigit c = true) ∧ number digits = value ∧ value ≠ 0

/-- What a call should do: `lN` and nothing else is accepted, and its count stored. -/
structure ParsesExactly (cmd : List UInt8) (outCount : UInt32) (result : Bool × UInt32) : Prop where
  accepts : result.1 = true ↔ ∃ value, IsLatestCount cmd value
  stores : ∀ value, IsLatestCount cmd value → result.2.toNat = min value 100000
  unchanged : result.1 = false → result.2 = outCount

/-- Text that begins with `lN` and goes on after the last digit. -/
def TrailingText (cmd : List UInt8) : Prop :=
  ∃ text trailing value, cmd = text ++ trailing ∧ IsLatestCount text value ∧ trailing ≠ [] ∧
    trailing.head?.any isDigit = false

private theorem number_append (digits : List UInt8) (c : UInt8) :
    number (digits ++ [c]) = number digits * 10 + (c - '0'.toUInt8).toNat := by
  simp only [number, List.reverse_append, List.reverse_singleton, List.singleton_append, List.map_cons, Nat.ofDigits_cons]
  omega

/-- `strtoul` computes the number of the digits until it saturates. -/
private theorem strtoul_digits {digits trailing : List UInt8} (all : ∀ c ∈ digits, isDigit c = true)
    (stops : trailing.head?.any isDigit = false) :
    strtoul (digits ++ trailing) = (min (number digits) 4294967295, trailing) := by
  have rest : trailing.takeWhile isDigit = [] ∧ trailing.dropWhile isDigit = trailing := by
    cases trailing with
    | nil => exact ⟨rfl, rfl⟩
    | cons c rest =>
      rw [List.head?_cons, Option.any_some] at stops
      simp [stops]
  have value : digits.foldl (fun value c => value * 10 + (c - '0'.toUInt8).toNat) 0 = number digits := by
    clear all
    induction digits using List.reverseRecOn with
    | nil => rfl
    | append_singleton digits c ih => rw [List.foldl_concat, ih, number_append]
  rw [strtoul, List.takeWhile_append_of_pos all, List.dropWhile_append_of_pos all, rest.1, rest.2, List.append_nil, value]

private theorem not_blank {c : UInt8} (digit : isDigit c = true) : isBlank c = false := by
  revert digit
  rw [isDigit, isBlank]
  simp only [Bool.and_eq_true, decide_eq_true_eq, Bool.or_eq_false_iff, beq_eq_false_iff_ne, UInt8.le_iff_toNat_le, ne_eq,
    ← UInt8.toNat_inj]
  intro digit
  have low : 48 ≤ c.toNat := digit.1
  change ¬ c.toNat = 32 ∧ ¬ c.toNat = 9
  omega

private theorem skipSpaces_blanks {blanks digits : List UInt8} (trailing : List UInt8)
    (all : ∀ c ∈ blanks, isBlank c = true) (some' : digits ≠ []) (digit : ∀ c ∈ digits, isDigit c = true) :
    skipSpaces (blanks ++ (digits ++ trailing)) = digits ++ trailing := by
  obtain ⟨first, rest, rfl⟩ := List.exists_cons_of_ne_nil some'
  change List.dropWhile isBlank _ = _
  rw [List.dropWhile_append_of_pos all, List.cons_append, List.dropWhile_cons, not_blank (digit first List.mem_cons_self)]
  rfl

private theorem head?_dropWhile_any (p : UInt8 → Bool) (text : List UInt8) : (text.dropWhile p).head?.any p = false := by
  cases left : text.dropWhile p with
  | nil => rfl
  | cons c rest =>
    have first := List.head?_dropWhile_not p text
    rw [left] at first
    exact first

theorem parseLatestCount_text {text trailing : List UInt8} {value : Nat} (latest : IsLatestCount text value)
    (stops : trailing.head?.any isDigit = false) :
    parseLatestCount (text ++ trailing) = some (UInt32.ofNat (min value 100000)) := by
  obtain ⟨letter, blanks, digits, rfl, isLetter, blank, some', digit, rfl, nonzero⟩ := latest
  have letters : ¬ (letter ≠ 'l'.toUInt8 ∧ letter ≠ 'L'.toUInt8) :=
    fun ⟨lower, upper⟩ => isLetter.elim lower upper
  have head : (digits ++ trailing).head?.any isDigit = true := by
    obtain ⟨first, rest, rfl⟩ := List.exists_cons_of_ne_nil some'
    exact digit first List.mem_cons_self
  have moved : trailing ≠ digits ++ trailing := fun same =>
    some' (List.append_left_eq_self.mp same.symm)
  have counted : min (number digits) 4294967295 ≠ 0 := by omega
  rw [List.cons_append, List.append_assoc, parseLatestCount, if_neg letters,
    skipSpaces_blanks trailing blank some' digit]
  simp only [head, strtoul_digits digit stops, Bool.not_true, Bool.false_eq_true, if_false, if_neg moved, if_neg counted]
  congr 2
  split <;> omega

theorem text_of_parseLatestCount {cmd : List UInt8} {count : UInt32} (accepted : parseLatestCount cmd = some count) :
    ∃ text trailing value, cmd = text ++ trailing ∧ IsLatestCount text value ∧ trailing.head?.any isDigit = false := by
  cases cmd with
  | nil => cases accepted
  | cons letter rest =>
    rw [parseLatestCount] at accepted
    split at accepted
    next => cases accepted
    next letters =>
      dsimp only at accepted
      split at accepted
      next => cases accepted
      next head =>
        split at accepted
        next => cases accepted
        next =>
          split at accepted
          next => cases accepted
          next nonzero =>
            let p := skipSpaces rest
            let digits := p.takeWhile isDigit
            let trailing := p.dropWhile isDigit
            change ¬ (!p.head?.any isDigit) = true at head
            change ¬ (strtoul p).1 = 0 at nonzero
            have whole : p = digits ++ trailing := List.takeWhile_append_dropWhile.symm
            have digit : ∀ c ∈ digits, isDigit c = true := fun c member => List.mem_takeWhile_imp member
            have stops : trailing.head?.any isDigit = false := head?_dropWhile_any isDigit p
            rw [whole, strtoul_digits digit stops] at nonzero
            refine ⟨letter :: (rest.takeWhile isBlank ++ digits), trailing, number digits, ?_,
              ⟨letter, rest.takeWhile isBlank, digits, rfl, ?_, fun c member => List.mem_takeWhile_imp member, ?_, digit,
                rfl, ?_⟩, stops⟩
            · rw [List.cons_append, List.append_assoc, ← whole]
              exact congrArg _ List.takeWhile_append_dropWhile.symm
            · by_contra neither
              exact letters ⟨fun lower => neither (.inl lower), fun upper => neither (.inr upper)⟩
            · intro none'
              rw [whole, none', List.nil_append, stops] at head
              exact head rfl
            · intro zero
              rw [zero] at nonzero
              exact nonzero rfl

/-- `lN` followed by more text is no `lN`. -/
private theorem TrailingText.not_latest {cmd : List UInt8} (longer : TrailingText cmd) (value : Nat) :
    ¬ IsLatestCount cmd value := by
  rintro ⟨letter, blanks, digits, same, -, blank, some', digit, -, -⟩
  obtain ⟨_, trailing, _, rfl, ⟨_, _, _, rfl, -, blank', some'', digit', -, -⟩, more, stops⟩ := longer
  rw [List.cons_append, List.append_assoc, List.cons.injEq] at same
  have skipped := congrArg skipSpaces same.2
  rw [skipSpaces_blanks trailing blank' some'' digit', ← List.append_nil digits,
    skipSpaces_blanks [] blank some' digit, List.append_nil] at skipped
  obtain ⟨first, rest, rfl⟩ := List.exists_cons_of_ne_nil more
  rw [List.head?_cons, Option.any_some, digit first (by rw [← skipped]; simp)] at stops
  cases stops

/-- The command is parsed as it should be just when nothing follows the digits of an `lN`: the end
that `strtoul` reports is not compared with the end of the string. -/
theorem parses_exactly_iff (cmd : List UInt8) :
    (∀ outCount, ParsesExactly cmd outCount (storeLatestCount cmd outCount)) ↔ ¬ TrailingText cmd := by
  constructor
  · rintro exact' ⟨text, trailing, value, rfl, latest, more, stops⟩
    have accepted := parseLatestCount_text latest stops
    obtain ⟨value', latest'⟩ := (exact' 0).accepts.mp (by rw [storeLatestCount, accepted])
    exact TrailingText.not_latest ⟨text, trailing, value, rfl, latest, more, stops⟩ value' latest'
  · intro alone outCount
    have parsed {value : Nat} (latest : IsLatestCount cmd value) :
        parseLatestCount cmd = some (UInt32.ofNat (min value 100000)) := by
      have accepted := parseLatestCount_text latest (rfl : ([] : List UInt8).head?.any isDigit = false)
      rwa [List.append_nil] at accepted
    refine ⟨⟨fun accepted => ?_, ?_⟩, fun value latest => ?_, fun rejected => ?_⟩
    · cases result : parseLatestCount cmd with
      | none =>
        rw [storeLatestCount, result] at accepted
        cases accepted
      | some count =>
        obtain ⟨text, trailing, value, rfl, latest, stops⟩ := text_of_parseLatestCount result
        cases trailing with
        | nil => exact ⟨value, by rwa [List.append_nil]⟩
        | cons c rest => exact absurd ⟨text, c :: rest, value, rfl, latest, List.cons_ne_nil c rest, stops⟩ alone
    · rintro ⟨value, latest⟩
      rw [storeLatestCount, parsed latest]
    · rw [storeLatestCount, parsed latest]
      exact UInt32.toNat_ofNat_of_lt' (Nat.lt_of_le_of_lt (Nat.min_le_right _ _) (by decide))
    · cases result : parseLatestCount cmd with
      | none => rw [storeLatestCount, result]
      | some count =>
        rw [storeLatestCount, result] at rejected
        cases rejected

/-- `l10x` asks for the latest ten frames. -/
theorem l10x_accepted :
    storeLatestCount (['l', '1', '0', 'x'].map Char.toUInt8) 7 = (true, 10) ∧
      ¬ ParsesExactly (['l', '1', '0', 'x'].map Char.toUInt8) 7 (storeLatestCount (['l', '1', '0', 'x'].map Char.toUInt8) 7) := by
  have longer : TrailingText (['l', '1', '0', 'x'].map Char.toUInt8) :=
    ⟨['l', '1', '0'].map Char.toUInt8, ['x'.toUInt8], 10, rfl,
      ⟨'l'.toUInt8, [], ['1', '0'].map Char.toUInt8, rfl, .inl rfl, by simp, by simp,
        List.all_eq_true.mp (by decide), by decide, by decide⟩,
      List.cons_ne_nil _ _, by decide⟩
  refine ⟨by decide, fun exact' => ?_⟩
  obtain ⟨value, latest⟩ := exact'.accepts.mp (by decide)
  exact longer.not_latest value latest

end CommandTask

end PicoWLogger
