import PicoWLogger.CommandTask
import Mathlib.Data.List.TakeWhile

/-! Which text the command task looks up at the end of a line, and when that is the text of the line. -/

namespace PicoWLogger

namespace CommandTask
open LineEdit

/-- The lines that are ended, `entered` being the beginning of the first. -/
def lines (entered : List UInt8) : List UInt8 → List (List UInt8)
  | [] => []
  | ch :: rest => if isLineEnd ch then entered :: lines [] rest else lines (entered ++ [ch]) rest

/-- What a line asks for: its text, unless that is empty or was ever too long. -/
def lookup (line : List UInt8) : Option (List UInt8) :=
  if Exceeds isDelete (CMD_BUF_SIZE - 1) line ∨ edited isDelete line = [] then none else some (edited isDelete line)

def stringOf (text : List UInt8) : Option (List UInt8) := if text = [] then none else some (text.takeWhile (· != 0))

private theorem takeWhile_nul (front back : List UInt8) :
    (front ++ 0 :: back).takeWhile (· != 0) = front.takeWhile (· != 0) := by
  induction front with
  | nil => rfl
  | cons first rest ih => rw [List.cons_append, List.takeWhile_cons, List.takeWhile_cons, ih]

namespace CommandLine

def text (line : CommandLine) : List UInt8 := line.cmdBuf.toList.take line.pos

theorem text_length (line : CommandLine) : line.text.length = line.pos := by
  rw [text, List.length_take, Vector.length_toList]
  exact Nat.min_eq_left (Nat.le_of_lt line.pos.isLt)

theorem pos_inside (line : CommandLine) : line.pos.val < line.cmdBuf.toList.length := by
  rw [Vector.length_toList]
  exact line.pos.isLt

theorem enter_char (line : CommandLine) {ch : UInt8} (isChar : isLineEnd ch = false) :
    (line.enter ch).1.text = editWithin isDelete (CMD_BUF_SIZE - 1) line.text ch ∧ (line.enter ch).2 = none := by
  rw [enter, if_neg (by rw [isChar]; exact Bool.false_ne_true), editWithin, text_length]
  by_cases deleting : isDelete ch = true
  · rw [if_pos deleting, if_pos deleting]
    split
    next => exact ⟨(List.dropLast_take line.pos_inside).symm, rfl⟩
    next start =>
      have atStart : line.pos.val = 0 := by simpa using start
      refine ⟨?_, rfl⟩
      rw [text, atStart]
      rfl
  · rw [if_neg deleting, if_neg deleting]
    by_cases room : line.pos.val < CMD_BUF_SIZE - 1
    · rw [dif_pos room, if_pos room]
      refine ⟨?_, rfl⟩
      simp only [text, Vector.toList_set]
      rw [List.take_add_one, List.take_set_of_le (Nat.le_refl _), List.getElem?_set_self line.pos_inside]
      rfl
    · rw [dif_neg room, if_neg room]
      exact ⟨rfl, rfl⟩

theorem enter_lineEnd (line : CommandLine) {ch : UInt8} (isEnd : isLineEnd ch = true) :
    (line.enter ch).1.text = [] ∧ (line.enter ch).2 = some (stringOf line.text) := by
  rw [enter, if_pos isEnd]
  refine ⟨rfl, congrArg some ?_⟩
  have ended : cString (line.cmdBuf.set line.pos 0) = line.text.takeWhile (· != 0) := by
    rw [cString, Vector.toList_set, List.set_eq_take_append_cons_drop, if_pos line.pos_inside, takeWhile_nul]
    rfl
  have length := line.text_length
  rw [stringOf, ended]
  by_cases start : line.text = []
  · rw [start, List.length_nil] at length
    have waiting : ¬ line.pos > 0 := fun started => Nat.lt_irrefl 0 (by rwa [gt_iff_lt, Fin.lt_def, ← length] at started)
    rw [if_pos start, if_neg waiting]
  · have started := List.length_pos_iff.mpr start
    rw [length] at started
    rw [if_neg start, if_pos (Fin.lt_def.mpr started)]

/-- The task looks up the string of what the bounded editor holds at the end of each line. -/
theorem dispatched_eq (line : CommandLine) (entered input : List UInt8)
    (holds : line.text = entered.foldl (editWithin isDelete (CMD_BUF_SIZE - 1)) []) :
    line.dispatched input = (lines entered input).map fun line =>
      stringOf (edited isDelete (behindOverflow isDelete (CMD_BUF_SIZE - 1) line)) := by
  induction input generalizing line entered with
  | nil => rfl
  | cons ch rest ih =>
    rw [CommandLine.dispatched, lines]
    cases isEnd : isLineEnd ch with
    | true =>
      obtain ⟨fresh, found⟩ := line.enter_lineEnd isEnd
      rw [ih _ [] fresh, found, holds, editWithin_edited, if_pos rfl]
      rfl
    | false =>
      obtain ⟨next, silent⟩ := line.enter_char isEnd
      rw [silent, if_neg Bool.false_ne_true]
      refine ih _ (entered ++ [ch]) ?_
      rw [next, holds, List.foldl_append]
      rfl

end CommandLine

theorem command_erase_iff (text : List UInt8) :
    command text = .eraseLogArea ↔ text = ['e'.toUInt8] ∨ text = ['E'.toUInt8] := by
  constructor
  · intro erases
    rw [command] at erases
    iterate 5
      split at erases
      · cases erases
    split at erases
    next erase => exact erase
    next => split at erases <;> cases erases
  · rintro (rfl | rfl) <;> rfl

/-- A line is looked up as it asks for if and only if it has no NUL in its text, or, when it was ever too long,
nothing is left of what stands behind its last overflow. -/
theorem stringOf_eq_lookup_iff (line : List UInt8) :
    stringOf (edited isDelete (behindOverflow isDelete (CMD_BUF_SIZE - 1) line)) = lookup line ↔
      if Exceeds isDelete (CMD_BUF_SIZE - 1) line then
        edited isDelete (behindOverflow isDelete (CMD_BUF_SIZE - 1) line) = []
      else 0 ∉ edited isDelete line := by
  rw [lookup]
  by_cases longer : Exceeds isDelete (CMD_BUF_SIZE - 1) line
  · rw [if_pos longer, if_pos (.inl longer), stringOf]
    by_cases nothing : edited isDelete (behindOverflow isDelete (CMD_BUF_SIZE - 1) line) = []
    · rw [if_pos nothing]
      exact iff_of_true rfl nothing
    · rw [if_neg nothing]
      exact iff_of_false (Option.some_ne_none _) nothing
  · rw [if_neg longer, behindOverflow_eq line longer, stringOf]
    by_cases nothing : edited isDelete line = []
    · rw [if_pos nothing, if_pos (.inr nothing), nothing]
      exact iff_of_true rfl List.not_mem_nil
    · rw [if_neg nothing, if_neg (not_or.mpr ⟨longer, nothing⟩), Option.some.injEq, List.takeWhile_eq_self_iff]
      constructor
      · exact fun all member => absurd (all 0 member) (by decide)
      · intro absent ch member
        exact bne_iff_ne.mpr fun isNul => absent (isNul ▸ member)

/-- The task carries out the lines that were entered, and erases the log area only for the
line `e`, if and only if each ended line has no NUL in its text, or, when its text was ever too long, nothing
is left of what stands behind its last overflow. -/
theorem lines_dispatched_iff (cmdBuf : Vector UInt8 CMD_BUF_SIZE) (input : List UInt8) :
    let task : CommandLine := { cmdBuf, pos := 0 }
    (task.dispatched input = (lines [] input).map lookup ∧
        ∀ (index : Nat) (line text : List UInt8), (lines [] input)[index]? = some line →
          (task.dispatched input)[index]? = some (some text) → command text = .eraseLogArea →
            ¬ Exceeds isDelete (CMD_BUF_SIZE - 1) line ∧
              (edited isDelete line = ['e'.toUInt8] ∨ edited isDelete line = ['E'.toUInt8])) ↔
      ∀ line ∈ lines [] input,
        if Exceeds isDelete (CMD_BUF_SIZE - 1) line then
          edited isDelete (behindOverflow isDelete (CMD_BUF_SIZE - 1) line) = []
        else 0 ∉ edited isDelete line := by
  intro task
  have all : task.dispatched input = (lines [] input).map lookup ↔ ∀ line ∈ lines [] input,
      if Exceeds isDelete (CMD_BUF_SIZE - 1) line then
        edited isDelete (behindOverflow isDelete (CMD_BUF_SIZE - 1) line) = []
      else 0 ∉ edited isDelete line := by
    rw [task.dispatched_eq [] input rfl, List.map_inj_left]
    exact forall₂_congr fun line _ => stringOf_eq_lookup_iff line
  rw [← all, and_iff_left_iff_imp]
  intro same index line text isLine dispatched erases
  rw [same, List.getElem?_map, isLine] at dispatched
  have asked : lookup line = some text := Option.some.inj dispatched
  rw [lookup] at asked
  split at asked
  next => cases asked
  next within =>
    rw [Option.some.inj asked]
    exact ⟨fun longer => within (.inl longer), (command_erase_iff text).mp erases⟩

/-- 32 characters and an `e`, then an `e` in front of a NUL, both erase the log area. -/
theorem overflow_erases :
    let task : CommandLine := { cmdBuf := Vector.replicate CMD_BUF_SIZE 0, pos := 0 }
    let input := List.replicate 32 'x'.toUInt8 ++ ['e'.toUInt8, '\r'.toUInt8, 'e'.toUInt8, 0, 'x'.toUInt8, '\n'.toUInt8]
    task.dispatched input = [some ['e'.toUInt8], some ['e'.toUInt8]] ∧ command ['e'.toUInt8] = .eraseLogArea ∧
      (lines [] input).map lookup = [none, some ['e'.toUInt8, 0, 'x'.toUInt8]] := by
  decide

end CommandTask

end PicoWLogger
