import Mathlib.Data.UInt
import Mathlib.Algebra.Group.Basic
import Mathlib.Data.List.Pairwise

/-! Serial numbers of 32 bits. Comparing by the sign of the difference is an order as
long as the numbers compared come from a window of fewer than 2^31 counter values. -/

namespace SerialOrder

/-- `a` was counted after `b`: the difference is positive as a signed number. -/
def newer (a b : UInt32) : Prop := 0 < (a - b).toInt32

instance (a b : UInt32) : Decidable (newer a b) := inferInstanceAs (Decidable (0 < (a - b).toInt32))

theorem newer_iff (a b : UInt32) : newer a b ↔ 0 < (a - b).toNat ∧ (a - b).toNat < 2 ^ 31 := by
  have bound := (a - b).toNat_lt
  have value : (a - b).toInt32.toInt = (a - b).toBitVec.toInt := rfl
  rw [newer, Int32.lt_iff_toInt_lt, value, BitVec.toInt_eq_toNat_cond, UInt32.toNat_toBitVec, Int32.toInt_zero]
  split <;> omega

/-- Within a window the comparison is that of the unbounded counters. -/
theorem newer_ofNat {m n : Nat} (left : m < n + 2 ^ 31) (right : n < m + 2 ^ 31) :
    newer (UInt32.ofNat m) (UInt32.ofNat n) ↔ n < m := by
  rw [newer_iff, UInt32.toNat_sub, UInt32.toNat_ofNat', UInt32.toNat_ofNat']
  omega

/-- The comparison does not depend on where the counter started. -/
theorem newer_add (first a b : UInt32) : newer (first + a) (first + b) ↔ newer a b := by
  rw [newer, newer, add_sub_add_left_eq_sub]

/-- The numbers are the values of a 32-bit counter at strictly increasing moments,
all within fewer than 2^31 counts of each other. -/
def Ascending (numbers : List UInt32) : Prop :=
  ∃ counts : List Nat, numbers = counts.map UInt32.ofNat ∧ counts.Pairwise (· < ·) ∧
    ∀ m ∈ counts, ∀ n ∈ counts, m < n + 2 ^ 31

theorem Ascending.sublist {numbers others : List UInt32} (ascending : Ascending numbers)
    (part : others.Sublist numbers) : Ascending others := by
  obtain ⟨counts, rfl, increasing, window⟩ := ascending
  obtain ⟨fewer, sub, rfl⟩ := List.sublist_map_iff.mp part
  exact ⟨fewer, rfl, increasing.sublist sub,
    fun m member n other => window m (sub.subset member) n (sub.subset other)⟩

/-- How many counts a number lies beyond `base`. -/
def offset (base number : UInt32) : Nat := (number - base).toNat

theorem newer_iff_offset {base a b : UInt32} (left : offset base a < 2 ^ 31) (right : offset base b < 2 ^ 31) :
    newer a b ↔ offset base b < offset base a := by
  simp only [offset, UInt32.toNat_sub] at left right ⊢
  rw [newer_iff, UInt32.toNat_sub]
  have := a.toNat_lt
  have := b.toNat_lt
  have := base.toNat_lt
  omega

/-- Ascending numbers are ordered by their offsets from the first. -/
theorem Ascending.offsets {numbers : List UInt32} (ascending : Ascending numbers) :
    ∃ base, (∀ number ∈ numbers, offset base number < 2 ^ 31) ∧
      numbers.Pairwise fun a b => offset base a < offset base b := by
  obtain ⟨counts, rfl, increasing, window⟩ := ascending
  cases counts with
  | nil => exact ⟨0, by simp, List.Pairwise.nil⟩
  | cons first rest =>
    have least {m : Nat} (member : m ∈ first :: rest) : first ≤ m := by
      rcases List.mem_cons.mp member with rfl | later
      · exact Nat.le_refl _
      · exact Nat.le_of_lt ((List.pairwise_cons.mp increasing).1 m later)
    have value {m : Nat} (member : m ∈ first :: rest) : offset (UInt32.ofNat first) (UInt32.ofNat m) = m - first := by
      have above := least member
      have below := window m member first List.mem_cons_self
      rw [offset, UInt32.toNat_sub, UInt32.toNat_ofNat', UInt32.toNat_ofNat']
      omega
    refine ⟨UInt32.ofNat first, ?_, ?_⟩
    · intro number member
      obtain ⟨m, place, rfl⟩ := List.mem_map.mp member
      have below := window m place first List.mem_cons_self
      rw [value place]
      omega
    · rw [List.pairwise_map]
      apply increasing.imp_of_mem
      intro m n left right less
      have above := least left
      rw [value left, value right]
      omega

end SerialOrder
