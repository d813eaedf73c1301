import PicoWLogger.Proofs.FrameCheck

/-! Reads stay inside the log area. The checks of the storage use sums that wrap in 32 bits; the
check of the driver excludes that they did. -/

namespace PicoWLogger

namespace FlashLogStorage
open FlashDriver
variable {s : FlashLogStorage}

theorem isRangeValid_iff (addr len : Nat) :
    s.isRangeValid addr len = true ↔ s.initialized = true ∧ 0 < len ∧ s.config.startAddr ≤ addr ∧ addr < s.config.endAddr ∧
      u32 (addr + len) ≤ s.config.endAddr := by
  rw [isRangeValid]
  cases s.initialized with
  | false => simp
  | true =>
    simp only [Bool.not_true, Bool.false_or, decide_eq_true_eq, true_and]
    repeat' split
    all_goals
      simp only [Bool.false_eq_true, false_iff, true_iff] at *
      omega

/-- Alone the check of the storage lets a range pass that ends behind its area. -/
example (s : FlashLogStorage) (initialized : s.initialized = true) (config : s.config = ⟨0, 4096⟩) :
    s.isRangeValid 4 4294967295 = true := by
  rw [isRangeValid_iff, initialized, config]
  decide

/-- A range that passes both checks did not wrap. -/
theorem read_inside_area {addr len : Nat} {bytes : List UInt8} (answered : s.read addr len = some bytes) :
    s.config.startAddr ≤ addr ∧ addr + len ≤ s.config.endAddr := by
  simp only [FlashLogStorage.read] at answered
  split at answered
  · cases answered
  next ranged =>
    split at answered
    · cases answered
    obtain ⟨_, _, above, _, ends⟩ := (isRangeValid_iff addr len).mp (by simpa using ranged)
    obtain ⟨_, inside, _⟩ := (read_eq_some_iff _ _ _ _).mp answered
    simp only [FLASH_SIZE] at inside
    rw [u32, Nat.mod_eq_of_lt (by omega)] at ends
    exact ⟨above, ends⟩

theorem isValidFrameAt_inside {addr size : Nat} {header : LogFrameHeader}
    (valid : s.isValidFrameAt addr = some (header, size)) :
    s.config.startAddr ≤ addr ∧ addr + size ≤ s.config.endAddr := by
  obtain ⟨above, inside, ends, _⟩ := isValidFrameAt_parts valid
  simp only [FLASH_SIZE] at inside
  rw [u32, Nat.mod_eq_of_lt (by omega)] at ends
  exact ⟨above, ends⟩

theorem readFrameInto_eq (addr outSize before : Nat) (buf : List UInt8) :
    s.readFrameInto addr outSize (some buf) (some before) =
      match s.readFrame addr outSize with
      | some frame => (true, some (frame ++ buf.drop frame.length), some frame.length)
      | none => (false, some buf, some (if s.lock then 0 else before)) := by
  rw [readFrameInto, readFrame]
  cases s.lock with
  | false => rfl
  | true =>
    simp only [Bool.not_true, Bool.false_eq_true, ↓reduceIte]
    cases s.isValidFrameAt addr with
    | none => rfl
    | some found =>
      obtain ⟨header, size⟩ := found
      simp only
      split
      · rfl
      · cases answered : s.flash.read addr size with
        | none => rfl
        | some frame =>
          obtain ⟨_, _, rfl⟩ := (read_eq_some_iff _ _ _ _).mp answered
          simp

theorem readFrame_inside {addr outSize : Nat} {frame : List UInt8} (answered : s.readFrame addr outSize = some frame) :
    frame.length ≤ outSize ∧ s.config.startAddr ≤ addr ∧ addr + frame.length ≤ s.config.endAddr ∧
      frame = s.flash.cellsFrom addr frame.length ∧ ∃ header, s.isValidFrameAt addr = some (header, frame.length) := by
  simp only [readFrame] at answered
  split at answered
  · cases answered
  split at answered
  · cases answered
  next header size valid =>
    split at answered
    · cases answered
    next fits =>
      obtain ⟨_, _, rfl⟩ := (read_eq_some_iff _ _ _ _).mp answered
      rw [length_cellsFrom]
      obtain ⟨above, inside⟩ := isValidFrameAt_inside valid
      exact ⟨not_lt.mp fits, above, inside, rfl, header, valid⟩

end FlashLogStorage

/-- Whatever the arguments, `read` answers only from the log area. `readFrame` does so too, with a whole frame no
longer than the buffer, and when it refuses past its argument and lock checks it leaves the length 0. -/
theorem reads_confined (s : FlashLogStorage) :
    (∀ addr len bytes, s.read addr len = some bytes → s.config.startAddr ≤ addr ∧ addr + len ≤ s.config.endAddr) ∧
      ∀ addr outSize out outLen,
        let result := s.readFrameInto addr outSize out outLen
        (result.1 = true → ∃ header size, s.isValidFrameAt addr = some (header, size) ∧ result.2.2 = some size ∧
          size ≤ outSize ∧ s.config.startAddr ≤ addr ∧ addr + size ≤ s.config.endAddr) ∧
        (out ≠ none → outLen ≠ none → s.lock = true → result.1 = false → result.2.2 = some 0) := by
  refine ⟨fun addr len bytes => FlashLogStorage.read_inside_area, ?_⟩
  rintro addr outSize (_ | buf) (_ | before)
  · exact ⟨fun answered => absurd answered Bool.false_ne_true, fun null => absurd rfl null⟩
  · exact ⟨fun answered => absurd answered Bool.false_ne_true, fun null => absurd rfl null⟩
  · exact ⟨fun answered => absurd answered Bool.false_ne_true, fun _ null => absurd rfl null⟩
  · simp only [FlashLogStorage.readFrameInto_eq]
    cases answered : s.readFrame addr outSize with
    | none => exact ⟨fun refused => absurd refused Bool.false_ne_true, fun _ _ locked _ => by rw [if_pos locked]⟩
    | some frame =>
      obtain ⟨fits, above, inside, _, header, valid⟩ := FlashLogStorage.readFrame_inside answered
      exact ⟨fun _ => ⟨header, frame.length, valid, rfl, fits, above, inside⟩, fun _ _ _ refused => by cases refused⟩

end PicoWLogger
