import Mathlib.Algebra.GroupWithZero.Action.Defs
import Mathlib.Algebra.GroupWithZero.Nat
import Mathlib.Algebra.Order.BigOperators.Group.List
import Mathlib.Algebra.Order.Group.Nat
import Mathlib.Data.List.MinMax
import Mathlib.Logic.Function.Basic

/-! The last values of a growing sequence, the slots that keep them, each new value overwriting
the oldest, and their sum. -/

namespace SlidingWindow
variable {α : Type*} {size : Nat} {values : List α}

def window (size : Nat) (values : List α) : List α := values.drop (values.length - size)

@[simp] theorem length_window : (window size values).length = min values.length size := by
  rw [window, List.length_drop]
  omega

theorem window_ne_nil (positive : 0 < size) (some' : values ≠ []) : window size values ≠ [] := by
  have length := List.length_pos_iff.mpr some'
  rw [← List.length_pos_iff, length_window]
  omega

theorem window_fill (room : values.length < size) (value : α) :
    window size (values ++ [value]) = window size values ++ [value] := by
  rw [window, window, List.length_append, List.length_singleton, Nat.sub_eq_zero_of_le room,
    Nat.sub_eq_zero_of_le (Nat.le_of_lt room), List.drop_zero, List.drop_zero]

theorem window_slide (positive : 0 < size) (full : size ≤ values.length) (value : α) :
    ∃ oldest middle, values[values.length - size]? = some oldest ∧ window size values = oldest :: middle ∧
      window size (values ++ [value]) = middle ++ [value] := by
  have inside : values.length - size < values.length := by omega
  refine ⟨values[values.length - size], values.drop (values.length - size + 1), List.getElem?_eq_getElem inside,
    List.drop_eq_getElem_cons inside, ?_⟩
  rw [window, List.length_append, List.length_singleton, show values.length + 1 - size = values.length - size + 1 by omega,
    List.drop_append_of_le_length inside]

section Slots
variable {slot : Nat → α}

/-- Each of the last `size` values is in the slot of its number. -/
def Holds (slot : Nat → α) (size : Nat) (values : List α) : Prop :=
  ∀ j < values.length, values.length ≤ j + size → values[j]? = some (slot (j % size))

theorem Holds.nil (slot : Nat → α) (size : Nat) : Holds slot size [] := fun _ below _ => absurd below (Nat.not_lt_zero _)

theorem Holds.add (holds : Holds slot size values) (positive : 0 < size) (value : α) {after : Nat → α}
    (written : ∀ i < size, after i = Function.update slot (values.length % size) value i) :
    Holds after size (values ++ [value]) := by
  intro j below recent
  rw [List.length_append, List.length_singleton] at below recent
  rw [written _ (Nat.mod_lt _ positive)]
  by_cases last : j = values.length
  · rw [last, List.getElem?_concat_length, Function.update_self]
  · have other : j % size ≠ values.length % size := by
      intro same
      have apart : (values.length - j) % size = 0 := Nat.sub_mod_eq_zero_of_mod_eq same.symm
      rw [Nat.mod_eq_of_lt (by omega)] at apart
      omega
    rw [Function.update_of_ne other, List.getElem?_append_left (by omega)]
    exact holds j (by omega) (by omega)

/-- The slot that is overwritten next holds the oldest value of a full window. -/
theorem Holds.oldest (holds : Holds slot size values) (positive : 0 < size) (full : size ≤ values.length) :
    values[values.length - size]? = some (slot (values.length % size)) := by
  rw [holds (values.length - size) (by omega) (by omega), ← Nat.mod_eq_sub_mod full]

end Slots

section Mean
variable (measure : α → Nat) {xs : List α} (some' : xs ≠ [])
include some'

/-- There are a smallest and a largest value, and the mean rounded down is between them. -/
theorem mean_between :
    ∃ low ∈ xs, ∃ high ∈ xs, (∀ x ∈ xs, measure low ≤ measure x ∧ measure x ≤ measure high) ∧
      measure low ≤ (xs.map measure).sum / xs.length ∧ (xs.map measure).sum / xs.length ≤ measure high := by
  obtain ⟨low, least⟩ := Option.ne_none_iff_exists'.mp (mt List.argmin_eq_none.mp some' : xs.argmin measure ≠ none)
  obtain ⟨high, greatest⟩ := Option.ne_none_iff_exists'.mp (mt List.argmax_eq_none.mp some' : xs.argmax measure ≠ none)
  have above (x : α) (member : x ∈ xs) : measure low ≤ measure x := List.le_of_mem_argmin member least
  have below (x : α) (member : x ∈ xs) : measure x ≤ measure high := List.le_of_mem_argmax member greatest
  have total : xs.length * measure low ≤ (xs.map measure).sum := by
    have := List.card_nsmul_le_sum (xs.map measure) (measure low) (List.forall_mem_map.mpr above)
    rwa [List.length_map, smul_eq_mul] at this
  have most : (xs.map measure).sum ≤ xs.length * measure high := by
    have := List.sum_le_card_nsmul (xs.map measure) (measure high) (List.forall_mem_map.mpr below)
    rwa [List.length_map, smul_eq_mul] at this
  refine ⟨low, List.argmin_mem least, high, List.argmax_mem greatest, fun x member => ⟨above x member, below x member⟩,
    ?_, Nat.div_le_of_le_mul most⟩
  rwa [Nat.le_div_iff_mul_le (List.length_pos_iff.mpr some'), Nat.mul_comm]

end Mean

end SlidingWindow
