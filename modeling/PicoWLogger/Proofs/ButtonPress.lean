import PicoWLogger.ButtonTask
import PicoWLogger.Lib.TimedRun
import Mathlib.Algebra.Order.Floor.Semiring
import Mathlib.Algebra.Order.Archimedean.Real.Basic

/-! Which presses of the button change the display mode, whatever the input does between them. -/

namespace PicoWLogger

namespace ButtonTask
open TimedRun

theorem nextMode_toInt (mode : DisplayMode) : (nextMode mode).toInt = (mode.toInt + 1) % DisplayMode.Max := by
  cases mode <;> rfl

/-- Everything that one reading can lead to. -/
inductive Reading (level : Nat → Bool) (task : ButtonTask) : ButtonTask → Prop where
  | edge (at' : task.phase = .poll true) (low : level task.wake = false) :
      Reading level task { task with wake := task.wake + DEBOUNCE_MS, phase := .debounce }
  | polled {prevState} (at' : task.phase = .poll prevState) (noEdge : prevState = true → level task.wake = true) :
      Reading level task { task with wake := task.wake + POLL_MS, phase := .poll (level task.wake) }
  | pressed (at' : task.phase = .debounce) (low : level task.wake = false) :
      Reading level task
        { task with
          phase := .release
          mode := nextMode task.mode
          sent := task.sent ++ [(task.wake, nextMode task.mode)] }
  | glitch (at' : task.phase = .debounce) (high : level task.wake = true) :
      Reading level task { task with wake := task.wake + POLL_MS, phase := .poll false }
  | held (at' : task.phase = .release) (low : level task.wake = false) :
      Reading level task { task with wake := task.wake + POLL_MS }
  | released (at' : task.phase = .release) (high : level task.wake = true) :
      Reading level task { task with wake := task.wake + DEBOUNCE_MS, phase := .poll true }

theorem step_reading (level : Nat → Bool) (task : ButtonTask) : Reading level task (step level task) := by
  rw [step]
  split
  next prevState at' =>
    dsimp only
    split
    next edge => exact .edge (edge.1 ▸ at') edge.2
    next quiet => exact .polled at' fun was => (Bool.not_eq_false _).mp fun low => quiet ⟨was, low⟩
  next at' =>
    split
    next low => exact .pressed at' low
    next high => exact .glitch at' ((Bool.not_eq_false _).mp high)
  next at' =>
    split
    next low => exact .held at' low
    next high => exact .released at' ((Bool.not_eq_false _).mp high)

theorem wake_le_step (level : Nat → Bool) (task : ButtonTask) : task.wake ≤ (step level task).wake := by
  have reading := step_reading level task
  generalize step level task = next at reading
  cases reading <;> simp

/-- Only the reading that takes a press is followed by another one at the same time. -/
theorem wake_lt_step (level : Nat → Bool) (task : ButtonTask) :
    task.wake < (step level task).wake ∨ task.phase = .debounce ∧ (step level task).phase = .release := by
  have reading := step_reading level task
  generalize step level task = next at reading
  cases reading with
  | pressed at' _ => exact .inr ⟨at', rfl⟩
  | _ => exact .inl (by simp)

theorem advances (level : Nat → Bool) : Advances (step level) wake where
  never_back := wake_le_step level
  moves task := by
    rcases wake_lt_step level task with later | ⟨-, release⟩
    · exact Nat.lt_of_lt_of_le later (wake_le_step level _)
    · rcases wake_lt_step level (step level task) with later | ⟨debounce, -⟩
      · exact Nat.lt_of_le_of_lt (wake_le_step level task) later
      · cases release.symm.trans debounce

def run (level : Nat → Bool) (i : Nat) : ButtonTask := (step level)^[i] (start level)

theorem run_succ (level : Nat → Bool) (i : Nat) : run level (i + 1) = step level (run level i) :=
  Function.iterate_succ_apply' _ _ _

/-- Reading `i` is the first one at millisecond `n` or later. -/
abbrev Reaches (level : Nat → Bool) (n i : Nat) : Prop := Arrives (step level) wake (start level) n i

/-- The input high for `2 * POLL_MS` before millisecond `n`, and low from there to `m`. -/
structure Pressed (level : Nat → Bool) (n m : Nat) : Prop where
  polling : 2 * POLL_MS ≤ n
  high : ∀ l, n ≤ l + 2 * POLL_MS → l < n → level l = true
  low : ∀ l, n ≤ l → l < m → level l = false
  long : n + 200 ≤ m

structure Resting (n : Nat) (mode : DisplayMode) (sent : List (Nat × DisplayMode)) (task : ButtonTask) : Prop where
  after : n ≤ task.wake
  phase : task.phase = .release ∨ task.phase = .poll false
  mode : task.mode = mode
  sent : task.sent = sent

/-- A debounce delay ends in the last `POLL_MS` before millisecond `n`. -/
def CheckedBefore (level : Nat → Bool) (n : Nat) : Prop :=
  ∃ k, (run level k).phase = .debounce ∧ (run level k).wake < n ∧ n ≤ (run level k).wake + POLL_MS

namespace Pressed
variable {level : Nat → Bool} {n m i j : Nat} (pressed : Pressed level n m)
include pressed

/-- How the task meets the press: in a debounce delay, with high as the remembered level, or with a low
level remembered from a check just before. -/
theorem reached (reaches : Reaches level n i) :
    n ≤ (run level i).wake ∧ (run level i).wake < n + DEBOUNCE_MS ∧
      ((run level i).phase = .debounce ∨ (run level i).phase = .poll true ∨
        (run level i).phase = .poll false ∧ CheckedBefore level n) := by
  have poll : POLL_MS = 10 := rfl
  have debounce : DEBOUNCE_MS = 50 := rfl
  have polling := pressed.polling
  have due : n ≤ (run level i).wake := reaches.due
  refine ⟨due, ?_⟩
  cases i with
  | zero =>
    change n ≤ 0 at due
    omega
  | succ k =>
    have before : (run level k).wake < n := reaches.earlier k (Nat.lt_succ_self k)
    have recent (near : n ≤ (run level k).wake + 2 * POLL_MS) : level (run level k).wake = true := pressed.high _ near before
    rw [run_succ] at due ⊢
    have reading := step_reading level (run level k)
    generalize step level (run level k) = next at due reading
    cases reading <;> dsimp only at due ⊢
    case edge at' low =>
      have far : ¬ n ≤ (run level k).wake + 2 * POLL_MS := fun near => by rw [recent near] at low; cases low
      exact ⟨by omega, .inl rfl⟩
    case polled at' noEdge =>
      exact ⟨by omega, .inr (.inl (by rw [recent (by omega)]))⟩
    case pressed at' low => omega
    case glitch at' high => exact ⟨by omega, .inr (.inr ⟨rfl, k, at', before, due⟩)⟩
    case held at' low =>
      rw [recent (by omega)] at low
      cases low
    case released at' high => exact ⟨by omega, .inr (.inl rfl)⟩

/-- Until the release such a task neither sees an edge nor sends. -/
theorem rest {mode : DisplayMode} {sent : List (Nat × DisplayMode)} (resting : Resting n mode sent (run level i))
    (before : i ≤ j) (reaches : Reaches level m j) : Resting n mode sent (run level j) := by
  refine reaches.keeps (Resting n mode sent) before resting fun task ⟨after, phase, sameMode, sameSent⟩ inside => ?_
  have low := pressed.low _ after inside
  have reading := step_reading level task
  generalize step level task = next at reading
  cases reading
  case edge at' _ => simp [at'] at phase
  case polled at' _ => exact ⟨Nat.le_add_right_of_le after, .inr (by rw [low]), sameMode, sameSent⟩
  case pressed at' _ => simp [at'] at phase
  case glitch at' _ => simp [at'] at phase
  case held at' _ => exact ⟨Nat.le_add_right_of_le after, .inl at', sameMode, sameSent⟩
  case released at' high =>
    rw [low] at high
    cases high

theorem takes (reaches : Reaches level m j) (at' : (run level i).phase = .debounce) (after : n ≤ (run level i).wake)
    (inside : (run level i).wake < m) :
    (run level j).mode = nextMode (run level i).mode ∧
      (run level j).sent = (run level i).sent ++ [((run level i).wake, nextMode (run level i).mode)] := by
  have low := pressed.low _ after inside
  have next : run level (i + 1) =
      { run level i with
        phase := .release
        mode := nextMode (run level i).mode
        sent := (run level i).sent ++ [((run level i).wake, nextMode (run level i).mode)] } := by
    rw [run_succ, step, at', low]
    rfl
  have before : i + 1 ≤ j := by
    by_contra late
    have due := Nat.le_trans reaches.due ((advances level).clock_le (Nat.le_of_lt_succ (Nat.not_le.mp late)))
    exact Nat.lt_irrefl _ (Nat.lt_of_lt_of_le inside due)
  have resting : Resting n (nextMode (run level i).mode)
      ((run level i).sent ++ [((run level i).wake, nextMode (run level i).mode)]) (run level (i + 1)) := by
    rw [next]
    exact ⟨after, .inl rfl, rfl, rfl⟩
  have kept := pressed.rest resting before reaches
  exact ⟨kept.mode, kept.sent⟩

/-- With high remembered the task sees the edge of the press and checks it after the delay. -/
theorem takes_edge (reaches : Reaches level m j) (at' : (run level i).phase = .poll true) (after : n ≤ (run level i).wake)
    (inside : (run level i).wake + DEBOUNCE_MS < m) :
    (run level j).mode = nextMode (run level i).mode ∧
      ∃ time, (run level j).sent = (run level i).sent ++ [(time, nextMode (run level i).mode)] := by
  have low := pressed.low _ after (Nat.lt_of_le_of_lt (Nat.le_add_right _ _) inside)
  have next : run level (i + 1) =
      { run level i with wake := (run level i).wake + DEBOUNCE_MS, phase := .debounce } := by
    rw [run_succ, step, at', low]
    rfl
  have taken := pressed.takes reaches (i := i + 1) (by rw [next]) (by rw [next]; exact Nat.le_add_right_of_le after)
    (by rw [next]; exact inside)
  rw [next] at taken
  exact ⟨taken.1, _, taken.2⟩

/-- A check just before the press fails, and leaves the low level from before it as the remembered one. -/
theorem phase_of_checked (checked : CheckedBefore level n) (reaches : Reaches level n i) :
    (run level i).phase = .poll false := by
  obtain ⟨k, at', before, due⟩ := checked
  have high := pressed.high _ (Nat.le_trans due (Nat.add_le_add_left (by decide) _)) before
  have next : run level (k + 1) = { run level k with wake := (run level k).wake + POLL_MS, phase := .poll false } := by
    rw [run_succ, step, at', high]
    rfl
  have same : i = k + 1 := reaches.unique ((advances level).arrives_succ before (by
    change n ≤ (run level (k + 1)).wake
    rw [next]
    exact due))
  rw [same, next]

/-- The press changes the mode once, to the next one, unless a check came just before it. -/
theorem once_or_never (begins : Reaches level n i) (ends : Reaches level m j) :
    ((run level j).mode = nextMode (run level i).mode ∧
        ∃ time, (run level j).sent = (run level i).sent ++ [(time, nextMode (run level i).mode)]) ∧
      ¬ CheckedBefore level n ∨
    (run level j).sent = (run level i).sent ∧ CheckedBefore level n := by
  have debounce : DEBOUNCE_MS = 50 := rfl
  have long := pressed.long
  obtain ⟨after, soon, phase⟩ := pressed.reached begins
  rcases phase with at' | at' | ⟨at', checked⟩
  · refine .inl ⟨?_, fun checked => ?_⟩
    · obtain ⟨mode, sent⟩ := pressed.takes ends at' after (by omega)
      exact ⟨mode, _, sent⟩
    · cases at'.symm.trans (pressed.phase_of_checked checked begins)
  · refine .inl ⟨pressed.takes_edge ends at' after (by omega), fun checked => ?_⟩
    cases at'.symm.trans (pressed.phase_of_checked checked begins)
  · have order : i ≤ j := begins.le ends (by omega)
    exact .inr ⟨(pressed.rest ⟨after, .inr at', rfl, rfl⟩ order ends).sent, checked⟩

end Pressed

section Trace
variable (level : ℝ → Bool) (began : ℝ)

/-- The input at whole milliseconds after the task has begun to poll it, the times at which it is read. -/
def sampled (n : Nat) : Bool := level (began + n)

/-- The input is high for `2 * POLL_MS` after the task has begun to poll and low from then, `pressedAt`, to
`releasedAt`, for 200 ms or longer. -/
structure Press (pressedAt releasedAt : ℝ) : Prop where
  polling : began + 2 * POLL_MS ≤ pressedAt
  high : ∀ t, pressedAt - 2 * POLL_MS ≤ t → t < pressedAt → level t = true
  low : ∀ t, pressedAt ≤ t → t < releasedAt → level t = false
  long : pressedAt + 200 ≤ releasedAt

structure ReadFrom (time : ℝ) (i : Nat) : Prop where
  due : time ≤ began + (run (sampled level began) i).wake
  earlier : ∀ l < i, began + (run (sampled level began) l).wake < time

/-- Between two times the display mode goes one step on, and one mode is sent. -/
def TakenOnce (pressedAt releasedAt : ℝ) : Prop :=
  ∃ i j, ReadFrom level began pressedAt i ∧ ReadFrom level began releasedAt j ∧
    (run (sampled level began) j).mode.toInt = ((run (sampled level began) i).mode.toInt + 1) % DisplayMode.Max ∧
    ∃ time, (run (sampled level began) j).sent =
      (run (sampled level began) i).sent ++ [(time, (run (sampled level began) j).mode)]

/-- A debounce delay ends less than or just `POLL_MS` before a time. -/
def CheckedJustBefore (time : ℝ) : Prop :=
  ∃ k, (run (sampled level began) k).phase = .debounce ∧ began + (run (sampled level began) k).wake < time ∧
    time ≤ began + (run (sampled level began) k).wake + POLL_MS

variable {level began}

theorem ceil_le_iff {time : ℝ} {n : Nat} : ⌈time - began⌉₊ ≤ n ↔ time ≤ began + n := by
  rw [Nat.ceil_le, sub_le_iff_le_add']

theorem lt_ceil_iff {time : ℝ} {n : Nat} : n < ⌈time - began⌉₊ ↔ began + n < time := by
  rw [← Nat.not_le, ceil_le_iff, not_le]

theorem readFrom_iff {time : ℝ} {i : Nat} :
    ReadFrom level began time i ↔ Reaches (sampled level began) ⌈time - began⌉₊ i :=
  ⟨fun ⟨due, earlier⟩ => ⟨ceil_le_iff.mpr due, fun l before => lt_ceil_iff.mpr (earlier l before)⟩,
    fun ⟨due, earlier⟩ => ⟨ceil_le_iff.mp due, fun l before => lt_ceil_iff.mp (earlier l before)⟩⟩

theorem checkedJustBefore_iff {time : ℝ} :
    CheckedJustBefore level began time ↔ CheckedBefore (sampled level began) ⌈time - began⌉₊ := by
  refine exists_congr fun k => and_congr_right fun _ => and_congr lt_ceil_iff.symm ?_
  rw [ceil_le_iff, Nat.cast_add, add_assoc]

theorem Press.pressed {pressedAt releasedAt : ℝ} (press : Press level began pressedAt releasedAt) :
    Pressed (sampled level began) ⌈pressedAt - began⌉₊ ⌈releasedAt - began⌉₊ where
  polling := by
    have later : ((2 * POLL_MS : Nat) : ℝ) ≤ pressedAt - began := by
      have polling := press.polling
      rw [Nat.cast_mul, Nat.cast_ofNat]
      linarith
    exact_mod_cast later.trans (Nat.le_ceil _)
  high l near before := by
    rw [ceil_le_iff] at near
    rw [lt_ceil_iff] at before
    refine press.high _ ?_ before
    rw [Nat.cast_add, Nat.cast_mul, Nat.cast_ofNat] at near
    linarith
  low l after before := press.low _ (ceil_le_iff.mp after) (lt_ceil_iff.mp before)
  long := by
    have positive : 0 ≤ pressedAt - began := by
      have polling := press.polling
      have delay : (0 : ℝ) ≤ 2 * (POLL_MS : ℝ) := by positivity
      linarith
    have long : pressedAt - began + (200 : Nat) ≤ releasedAt - began := by
      have long := press.long
      rw [Nat.cast_ofNat]
      linarith
    rw [← Nat.ceil_add_natCast positive]
    exact Nat.ceil_mono long

theorem Press.not_taken {pressedAt releasedAt : ℝ} (press : Press level began pressedAt releasedAt)
    (checked : CheckedBefore (sampled level began) ⌈pressedAt - began⌉₊) : ¬ TakenOnce level began pressedAt releasedAt := by
  rintro ⟨i, j, begins, ends, -, time, sent⟩
  rcases press.pressed.once_or_never (readFrom_iff.mp begins) (readFrom_iff.mp ends) with ⟨-, unchecked⟩ | ⟨same, -⟩
  · exact unchecked checked
  · exact List.cons_ne_nil _ _ (List.append_right_eq_self.mp (sent.symm.trans same))

/-- A press is taken exactly once unless a debounce delay has ended in the `POLL_MS` before it: a check that
fails makes the task remember the low level from before the delay, and the press comes without an edge. -/
theorem press_taken_once_iff {pressedAt releasedAt : ℝ} (press : Press level began pressedAt releasedAt) :
    TakenOnce level began pressedAt releasedAt ↔ ¬ CheckedJustBefore level began pressedAt := by
  rw [checkedJustBefore_iff]
  constructor
  · intro taken checked
    exact press.not_taken checked taken
  · intro unchecked
    obtain ⟨i, begins⟩ := (advances (sampled level began)).exists_arrives (start _) ⌈pressedAt - began⌉₊
    obtain ⟨j, ends⟩ := (advances (sampled level began)).exists_arrives (start _) ⌈releasedAt - began⌉₊
    rcases press.pressed.once_or_never begins ends with ⟨⟨mode, time, sent⟩, -⟩ | ⟨-, checked⟩
    · refine ⟨i, j, readFrom_iff.mpr begins, readFrom_iff.mpr ends, ?_, time, ?_⟩
      · rw [mode, nextMode_toInt]
      · rw [mode, sent]
    · exact absurd checked unchecked

/-- A press of 300 ms. -/
theorem press_taken_once_at_100 :
    ∃ level : ℝ → Bool, Press level 0 100 400 ∧ (TakenOnce level 0 100 400 ↔ ¬ CheckedJustBefore level 0 100) := by
  classical
  have press : Press (fun t => !decide (100 ≤ t ∧ t < 400)) 0 100 400 := by
    refine ⟨by norm_num, fun t _ before => ?_, fun t after before => ?_, by norm_num⟩
    · simp [not_le.mpr before]
    · simp [after, before]
  exact ⟨_, press, press_taken_once_iff press⟩

/-- A low pulse of 1 ms at 100 ms brings a check at 150 ms; the press from 155 ms to 400 ms is then missed. -/
theorem press_missed :
    ∃ level : ℝ → Bool, (∀ t, level t = false ↔ 100 ≤ t ∧ t < 101 ∨ 155 ≤ t ∧ t < 400) ∧ Press level 0 155 400 ∧
      ¬ TakenOnce level 0 155 400 := by
  classical
  obtain ⟨level, low⟩ : ∃ level : ℝ → Bool, ∀ t, level t = false ↔ 100 ≤ t ∧ t < 101 ∨ 155 ≤ t ∧ t < 400 :=
    ⟨fun t => decide ¬ (100 ≤ t ∧ t < 101 ∨ 155 ≤ t ∧ t < 400), fun t => decide_eq_false_iff_not.trans not_not⟩
  have press : Press level 0 155 400 := by
    refine ⟨by norm_num, fun t after before => ?_, fun t after before => (low t).mpr (.inr ⟨after, before⟩), by norm_num⟩
    rw [← Bool.not_eq_false, low]
    norm_num at after
    rintro (⟨-, early⟩ | ⟨late, -⟩) <;> linarith
  have readings : sampled level 0 = fun n => decide ¬ (100 ≤ n ∧ n < 101 ∨ 155 ≤ n ∧ n < 400) := by
    funext n
    have reading : sampled level 0 n = false ↔ 100 ≤ n ∧ n < 101 ∨ 155 ≤ n ∧ n < 400 := by
      rw [sampled, low, zero_add]
      norm_cast
    by_cases lowNow : 100 ≤ n ∧ n < 101 ∨ 155 ≤ n ∧ n < 400
    · rw [reading.mpr lowNow, decide_eq_false (not_not.mpr lowNow)]
    · rw [(Bool.not_eq_false _).mp (mt reading.mp lowNow), decide_eq_true lowNow]
  have checked : CheckedBefore (sampled level 0) ⌈(155 : ℝ) - 0⌉₊ := by
    rw [readings, sub_zero, Nat.ceil_ofNat]
    exact ⟨11, by decide, by decide, by decide⟩
  exact ⟨level, low, press, press.not_taken checked⟩

end Trace

end ButtonTask

end PicoWLogger
