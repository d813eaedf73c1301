import Mathlib.Data.List.Basic
import Mathlib.Data.UInt
import Mathlib.Logic.Function.Basic

/-! The circular queue with one slot left free: `size` slots, entries from `tail` up to but not
including `head`, so that equal indices mean that it is empty. -/

namespace RingBuffer
variable {α : Type*} {buffer : Nat → α} {size head tail count : Nat}

def held (size head tail : Nat) : Nat := (head + (size - tail)) % size

/-- The `count` entries from `tail` on. -/
def entries (buffer : Nat → α) (size tail count : Nat) : List α :=
  (List.range count).map fun i => buffer ((tail + i) % size)

@[simp] theorem length_entries : (entries buffer size tail count).length = count := by simp [entries]

section Counting

private theorem mod_once {n : Nat} (below : n < 2 * size) : n % size = if n < size then n else n - size := by
  split
  · exact Nat.mod_eq_of_lt ‹_›
  · rw [Nat.mod_eq_sub_mod (by omega), Nat.mod_eq_of_lt (by omega)]

theorem held_lt (head : Nat) (tailInside : tail < size) : held size head tail < size := Nat.mod_lt _ (by omega)

variable (headInside : head < size) (tailInside : tail < size)
include headInside tailInside

theorem held_eq : held size head tail = if tail ≤ head then head - tail else head + size - tail := by
  rw [held, mod_once (by omega)]
  split <;> split <;> omega

theorem held_eq_zero : held size head tail = 0 ↔ head = tail := by
  rw [held_eq headInside tailInside]
  split <;> omega

theorem tail_add_held : (tail + held size head tail) % size = head := by
  have few := held_lt head tailInside
  have count := held_eq headInside tailInside
  rw [mod_once (by omega)]
  split at count <;> split <;> omega

theorem held_push (room : held size head tail + 1 < size) :
    held size ((head + 1) % size) tail = held size head tail + 1 := by
  have next : (head + 1) % size < size := Nat.mod_lt _ (by omega)
  have count := held_eq headInside tailInside
  rw [held_eq next tailInside, mod_once (by omega)]
  split at count <;> split <;> split <;> omega

theorem held_pop (enough : count ≤ held size head tail) :
    held size head ((tail + count) % size) = held size head tail - count := by
  have few := held_lt head tailInside
  have next : (tail + count) % size < size := Nat.mod_lt _ (by omega)
  have all := held_eq headInside tailInside
  rw [held_eq headInside next, mod_once (by omega)]
  split at all <;> split <;> split <;> omega

/-- The free slots, with the one that stays free taken off, as the indices give them. -/
theorem free_eq : (tail + (size - 1) + (size - head)) % size = size - 1 - held size head tail := by
  have few := held_lt head tailInside
  have all := held_eq headInside tailInside
  split at all
  · rw [show tail + (size - 1) + (size - head) = size - 1 - held size head tail + size by omega, Nat.add_mod_right,
      Nat.mod_eq_of_lt (by omega)]
  · rw [show tail + (size - 1) + (size - head) = size - 1 - held size head tail + 2 * size by omega,
      Nat.add_mul_mod_self_right, Nat.mod_eq_of_lt (by omega)]

end Counting

theorem entries_push (value : α) (room : count < size) :
    entries (Function.update buffer ((tail + count) % size) value) size tail (count + 1) =
      entries buffer size tail count ++ [value] := by
  rw [entries, List.range_succ, List.map_append, entries]
  congr 1
  · refine List.map_congr_left fun i below => Function.update_of_ne ?_ _ _
    intro same
    have bound := List.mem_range.mp below
    have apart : ((tail + count) - (tail + i)) % size = 0 := Nat.sub_mod_eq_zero_of_mod_eq same.symm
    rw [Nat.mod_eq_of_lt (by omega)] at apart
    omega
  · simp

theorem entries_drop {part : Nat} :
    entries buffer size ((tail + part) % size) (count - part) = (entries buffer size tail count).drop part := by
  refine List.ext_getElem (by simp) ?_
  intro i _ _
  simp [entries, Nat.add_assoc]

/-- Where the size is a power of two, a mask takes an index modulo the ring. -/
theorem and_mask_toNat {size : UInt32} {k : Nat} (power : size.toNat = 2 ^ k) (index : UInt32) :
    (index &&& (size - 1)).toNat = index.toNat % 2 ^ k := by
  have one : (1 : UInt32) ≤ size := by
    rw [UInt32.le_iff_toNat_le, power]
    exact Nat.one_le_two_pow
  have mask : (size - 1).toNat = 2 ^ k - 1 := by
    rw [UInt32.toNat_sub_of_le _ _ one, power]
    rfl
  rw [UInt32.toNat_and, mask, Nat.and_two_pow_sub_one_eq_mod]

/-- What a mask and its complement leave of an index add up to it. -/
theorem and_not_toNat (index mask : UInt32) : (index &&& ~~~mask).toNat = index.toNat - (index &&& mask).toNat := by
  have parts : (index.toBitVec &&& ~~~mask.toBitVec) + (index.toBitVec &&& mask.toBitVec) = index.toBitVec := by
    rw [BitVec.add_eq_or_of_and_eq_zero]
    all_goals
      ext i
      cases left : index.toBitVec[i] <;> cases right : mask.toBitVec[i] <;> simp [left, right]
  have difference : (index &&& ~~~mask).toBitVec = index.toBitVec - (index &&& mask).toBitVec := by
    rw [BitVec.eq_sub_iff_add_eq]
    exact parts
  have least : (index &&& mask).toNat ≤ index.toNat := by
    rw [UInt32.toNat_and]
    exact Nat.and_le_left
  rw [← UInt32.toNat_toBitVec, difference, BitVec.toNat_sub_of_le least]
  rfl

/-- The complement of the mask rounds down to a multiple of the size. -/
theorem and_not_mask_mod {size : UInt32} {k : Nat} (power : size.toNat = 2 ^ k) (index : UInt32) :
    (index &&& ~~~(size - 1)).toNat % 2 ^ k = 0 := by
  rw [← and_mask_toNat power, UInt32.and_assoc, UInt32.not_and_self, UInt32.and_zero]
  rfl

end RingBuffer
