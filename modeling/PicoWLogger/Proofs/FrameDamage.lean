import PicoWLogger.Lib.CrcBurst
import PicoWLogger.Proofs.Crc32Standard
import PicoWLogger.Proofs.RingIndex

/-! A stored frame that was changed in at most four consecutive bytes is not accepted any more:
the stored checksum seals the frame, and no burst of 32 bits gets past CRC-32. -/

namespace LittleEndian

theorem testBit_decode (byte : UInt8) (rest : List UInt8) (i : Nat) :
    (decode (byte :: rest)).testBit i = if i < 8 then byte.toNat.testBit i else (decode rest).testBit (i - 8) := by
  have split : decode (byte :: rest) = 2 ^ 8 * decode rest + byte.toNat := by
    rw [decode, Nat.add_comm]
    rfl
  rw [split, Nat.testBit_two_pow_mul_add _ byte.toNat_lt]

/-- The bits of a string in the order of its bytes are those of its number, the low ones first. -/
theorem flatMap_bits_bytes (bytes : List UInt8) :
    (bytes.map UInt8.toBitVec).flatMap CrcPolynomial.bits = (List.range (8 * bytes.length)).map (decode bytes).testBit := by
  induction bytes with
  | nil => rfl
  | cons byte rest ih =>
    have count : 8 * (byte :: rest).length = 8 + 8 * rest.length := by
      rw [List.length_cons, Nat.mul_succ, Nat.add_comm]
    rw [List.map_cons, List.flatMap_cons, ih, count, List.range_add, List.map_append, List.map_map]
    congr 1
    · rw [CrcPolynomial.bits_eq_map]
      apply List.map_congr_left
      intro i member
      rw [testBit_decode, if_pos (List.mem_range.mp member)]
      rfl
    · apply List.map_congr_left
      intro i _
      simp [testBit_decode]

end LittleEndian

namespace PicoWLogger

namespace FlashLogStorage
open FlashDriver CrcPolynomial

/-- The stored checksum seals the frame. -/
theorem isValidFrameAt_sealed {s : FlashLogStorage} {addr size : Nat} {header : LogFrameHeader}
    (valid : s.isValidFrameAt addr = some (header, size)) :
    Sealed 0xEDB88320#32 (BitVec.allOnes 32) ((s.flash.cellsFrom addr size).map UInt8.toBitVec) := by
  obtain ⟨_, _, _, _, _, _, shape, crc⟩ := isValidFrameAt_parts valid
  obtain ⟨front, isFront⟩ : ∃ front, (s.flash.cellsFrom addr size).take (size - 4) = front := ⟨_, rfl⟩
  obtain ⟨stored, isStored⟩ : ∃ stored, (s.flash.cellsFrom addr size).drop (size - 4) = stored := ⟨_, rfl⟩
  have four : stored.length = 4 := by
    rw [← isStored, List.length_drop, length_cellsFrom]
    omega
  rw [isFront, isStored, List.take_of_length_le (by omega)] at crc
  refine ⟨front.map UInt8.toBitVec, stored.map UInt8.toBitVec, ?_, ?_⟩
  · rw [← List.map_append, ← isFront, ← isStored, List.take_append_drop]
  · have register : (Crc32.calculate front).toBitVec =
        ~~~ (front.map UInt8.toBitVec).foldl (feed 0xEDB88320#32) (BitVec.allOnes 32) := by
      rw [Crc32.calculate, UInt32.toBitVec_not, Crc32.toBitVec_foldl]
      rfl
    rw [LittleEndian.flatMap_bits_bytes, four, ← register, bits_eq_map, ← crc]
    rfl

/-- Cells that differ at most in four consecutive places differ there in a stretch between equal ends. -/
theorem cellsFrom_window {flash other : FlashDriver} {addr size start : Nat}
    (confined : ∀ a, addr ≤ a → a < addr + size → other.cells a ≠ flash.cells a → start ≤ a ∧ a < start + 4) :
    ∃ front middle middle' back, flash.cellsFrom addr size = front ++ middle ++ back ∧
      other.cellsFrom addr size = front ++ middle' ++ back ∧ middle.length = middle'.length ∧ middle.length ≤ 4 := by
  obtain ⟨before, isBefore⟩ : ∃ before, min (start - addr) size = before := ⟨_, rfl⟩
  obtain ⟨width, isWidth⟩ : ∃ width, min 4 (size - before) = width := ⟨_, rfl⟩
  obtain ⟨after, isAfter⟩ : ∃ after, size - before - width = after := ⟨_, rfl⟩
  have sum : size = before + width + after := by omega
  have same (a : Nat) (low : addr ≤ a) (high : a < addr + size) (outside : a < addr + before ∨ addr + before + width ≤ a) :
      flash.cells a = other.cells a := by
    by_contra differ
    have := confined a low high (Ne.symm differ)
    omega
  refine ⟨flash.cellsFrom addr before, flash.cellsFrom (addr + before) width, other.cellsFrom (addr + before) width,
    flash.cellsFrom (addr + (before + width)) after, ?_, ?_, ?_, ?_⟩
  · rw [sum, cellsFrom_add, cellsFrom_add]
  · rw [sum, cellsFrom_add, cellsFrom_add,
      cellsFrom_congr fun a low high => same a low (by omega) (.inl high),
      cellsFrom_congr fun a low high => same a (by omega) (by omega) (.inr (by omega))]
  · rw [length_cellsFrom, length_cellsFrom]
  · rw [length_cellsFrom]
    omega

end FlashLogStorage

/-- A change of an accepted frame that stays inside four consecutive bytes and spares the length byte is
noticed, wherever in the frame it lies. -/
theorem damaged_frame_rejected {s t : FlashLogStorage} {addr size start : Nat} {header : LogFrameHeader}
    (valid : s.isValidFrameAt addr = some (header, size))
    (confined : ∀ a, addr ≤ a → a < addr + size → t.flash.cells a ≠ s.flash.cells a → start ≤ a ∧ a < start + 4)
    (length : t.flash.cells (addr + 9) = s.flash.cells (addr + 9))
    (altered : ∃ a, addr ≤ a ∧ a < addr + size ∧ t.flash.cells a ≠ s.flash.cells a) :
    t.isValidFrameAt addr = none := by
  rw [Option.eq_none_iff_forall_ne_some]
  rintro ⟨header', size'⟩ accepted
  have sameSize : size' = size := by
    rw [FlashLogStorage.isValidFrameAt_length accepted, length, ← FlashLogStorage.isValidFrameAt_length valid]
  subst sameSize
  obtain ⟨front, middle, middle', back, before, after, sameLength, short⟩ := FlashLogStorage.cellsFrom_window confined
  have sealed' := FlashLogStorage.isValidFrameAt_sealed valid
  have sealedToo := FlashLogStorage.isValidFrameAt_sealed accepted
  rw [before, List.map_append, List.map_append] at sealed'
  rw [after, List.map_append, List.map_append] at sealedToo
  have same := sealed'.burst (by decide) (by decide) sealedToo (by simp [sameLength]) (by rw [List.length_map]; omega)
  have middles : middle = middle' := List.map_injective_iff.mpr (fun _ _ => UInt8.eq_of_toBitVec_eq) same
  obtain ⟨a, low, high, differ⟩ := altered
  have cells := congrArg (fun bytes => bytes[a - addr]?) (before.trans (middles ▸ after.symm))
  have inside : a - addr < size' := by omega
  have there : addr + (a - addr) = a := by omega
  simp only [List.getElem?_eq_getElem, FlashDriver.length_cellsFrom, inside, FlashDriver.getElem_cellsFrom, there] at cells
  exact differ (Option.some.inj cells).symm

theorem damaged_frame_rejected_payload :
    let record := sampleRecord 7 5 (by decide)
    (holding ⟨0, 4096⟩ (record.frame.set 18 1)).isValidFrameAt 0 = none := by
  intro record
  have valid : (holding ⟨0, 4096⟩ record.frame).isValidFrameAt 0 = some (record.header, 23) := by
    refine (FlashLogStorage.isValidFrameAt_iff (by decide) 0 23 record.header).mpr ⟨by decide, by decide, record, rfl, rfl, ?_⟩
    exact cellsFrom_holding ⟨0, 4096⟩ record.frame
  have spared (a : Nat) (elsewhere : a ≠ 18) :
      (holding ⟨0, 4096⟩ (record.frame.set 18 1)).flash.cells a = (holding ⟨0, 4096⟩ record.frame).flash.cells a := by
    simp only [holding, FlashLogStorage.new, List.getD_eq_getElem?_getD]
    rw [List.getElem?_set_ne (Ne.symm elsewhere)]
  have confined (a : Nat) (differ : (holding ⟨0, 4096⟩ (record.frame.set 18 1)).flash.cells a ≠
      (holding ⟨0, 4096⟩ record.frame).flash.cells a) : 18 ≤ a ∧ a < 18 + 4 := by
    have only := of_not_not fun elsewhere => differ (spared a elsewhere)
    omega
  exact damaged_frame_rejected valid (fun a _ _ => confined a) (spared 9 (by decide)) ⟨18, by decide, by decide, by decide⟩

end PicoWLogger
