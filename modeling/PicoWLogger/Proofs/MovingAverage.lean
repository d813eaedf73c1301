import PicoWLogger.MovingAverage
import PicoWLogger.Lib.SlidingWindow

/-! The moving average of 16-bit values is the mean of the last of them, however many went in. -/

namespace PicoWLogger

namespace MovingAverage
open SlidingWindow StaticCast
variable {N : WindowSize}

def total (values : List UInt16) : Nat := (values.map UInt16.toNat).sum

def recent (N : WindowSize) (values : List UInt16) : List UInt16 := window N.val.toNat values

def slot (m : MovingAverage UInt16 N Int64) (i : Nat) : UInt16 := m.buffer[i]?.getD 0

/-- The object after `values` were added. -/
structure Tracks (m : MovingAverage UInt16 N Int64) (values : List UInt16) : Prop where
  index : m.index.val = values.length % N.val.toNat
  count : m.count.toNat = min values.length N.val.toNat
  slots : Holds m.slot N.val.toNat values
  sum : m.sum.toInt = total (recent N values)

/-- What `sum()`, `count()` and `average()` should return then. -/
structure Exact (m : MovingAverage UInt16 N Int64) (values : List UInt16) : Prop where
  sum : m.sum.toInt = total (recent N values)
  count : m.count.toNat = min values.length N.val.toNat
  average : values ≠ [] → m.average.toNat = total (recent N values) / m.count.toNat
  between : values ≠ [] → ∃ low ∈ recent N values, ∃ high ∈ recent N values,
    (∀ value ∈ recent N values, low ≤ value ∧ value ≤ high) ∧ low ≤ m.average ∧ m.average ≤ high
  unchanged : values ≠ [] → (m.sum / (staticCast m.count : Int64)).toInt = m.average.toNat

private theorem positive (N : WindowSize) : 0 < N.val.toNat := UInt32.lt_iff_toNat_lt.mp N.property

private theorem toInt_value (value : UInt16) : (staticCast value : Int64).toInt = value.toNat :=
  Int64.toInt_ofNat_of_lt (Nat.lt_trans value.toNat_lt (by decide))

private theorem toInt_add {a b : Int64} (low : -2 ^ 63 ≤ a.toInt + b.toInt) (high : a.toInt + b.toInt < 2 ^ 63) :
    (a + b).toInt = a.toInt + b.toInt := by
  rw [Int64.toInt_add]
  exact Int.bmod_eq_of_le (by omega) (by omega)

private theorem toInt_sub {a b : Int64} (low : -2 ^ 63 ≤ a.toInt - b.toInt) (high : a.toInt - b.toInt < 2 ^ 63) :
    (a - b).toInt = a.toInt - b.toInt := by
  rw [Int64.toInt_sub]
  exact Int.bmod_eq_of_le (by omega) (by omega)

theorem total_append (values : List UInt16) (value : UInt16) : total (values ++ [value]) = total values + value.toNat := by
  simp [total]

theorem total_cons (value : UInt16) (values : List UInt16) : total (value :: values) = value.toNat + total values := by
  simp [total]

theorem total_recent_lt (values : List UInt16) : total (recent N values) < 2 ^ 48 := by
  have most : total (recent N values) ≤ (recent N values).length * 65535 := by
    have := List.sum_le_card_nsmul ((recent N values).map UInt16.toNat) 65535
      (List.forall_mem_map.mpr fun value _ => Nat.le_of_lt_succ value.toNat_lt)
    rwa [List.length_map, smul_eq_mul] at this
  have length : (recent N values).length ≤ N.val.toNat := by
    rw [recent, length_window]
    exact Nat.min_le_right _ _
  have := N.val.toNat_lt
  omega

theorem Tracks.reset (m : MovingAverage UInt16 N Int64) : Tracks m.reset [] where
  index := (Nat.zero_mod _).symm
  count := (Nat.zero_min _).symm
  slots := Holds.nil _ _
  sum := by
    rw [recent, window, List.drop_nil]
    rfl

private theorem next_index {index : Fin N.val.toNat} {k : Nat} (place : index.val = k % N.val.toNat) :
    (next index).val = (k + 1) % N.val.toNat := by
  have inside := index.isLt
  rw [Nat.add_mod, ← place, next]
  split
  next below =>
    rw [Nat.mod_eq_of_lt (a := 1) (by omega), Nat.mod_eq_of_lt below]
  next last =>
    rw [Nat.add_mod_mod, show index.val + 1 = N.val.toNat by omega, Nat.mod_self]

private theorem slot_add (m : MovingAverage UInt16 N Int64) (value : UInt16) (i : Nat) :
    (m.add value).slot i = Function.update m.slot m.index.val value i := by
  have buffer : (m.add value).buffer = m.buffer.set m.index.val value m.index.isLt := by
    rw [MovingAverage.add]
    split <;> rfl
  rw [slot, buffer]
  by_cases here : i = m.index.val
  · rw [here, Vector.getElem?_set_self, Function.update_self]
    rfl
  · rw [Vector.getElem?_set_ne m.index.isLt (Ne.symm here), Function.update_of_ne here]
    rfl

namespace Tracks
variable {m : MovingAverage UInt16 N Int64} {values : List UInt16} (tracks : Tracks m values) (value : UInt16)
include tracks

theorem filling_iff : m.count < N.val ↔ values.length < N.val.toNat := by
  have counted := tracks.count
  rw [UInt32.lt_iff_toNat_lt]
  omega

theorem slots_add : Holds (m.add value).slot N.val.toNat (values ++ [value]) :=
  tracks.slots.add (positive N) value fun i _ => by rw [← tracks.index, slot_add]

theorem sum_filling (room : values.length < N.val.toNat) :
    (m.sum + staticCast value).toInt = total (recent N (values ++ [value])) := by
  have after := total_recent_lt (N := N) (values ++ [value])
  have grown : total (recent N (values ++ [value])) = total (recent N values) + value.toNat := by
    rw [recent, window_fill room, total_append]
    rfl
  rw [toInt_add (by rw [tracks.sum, toInt_value]; omega) (by rw [tracks.sum, toInt_value]; omega), tracks.sum, toInt_value,
    grown, Int.natCast_add]

/-- Behind that the slot at the index holds the value that leaves the window. -/
theorem sum_full (full : N.val.toNat ≤ values.length) :
    (m.sum - staticCast (m.buffer.get m.index) + staticCast value).toInt = total (recent N (values ++ [value])) := by
  have before := total_recent_lt (N := N) values
  have after := total_recent_lt (N := N) (values ++ [value])
  obtain ⟨oldest, middle, first, old, new⟩ := window_slide (positive N) full value
  have replaced : m.buffer.get m.index = oldest := by
    have slot := tracks.slots.oldest (positive N) full
    rw [← tracks.index, first, MovingAverage.slot, Vector.getElem?_eq_getElem m.index.isLt] at slot
    exact (Option.some.inj slot).symm
  have was : total (recent N values) = oldest.toNat + total middle := by rw [recent, old, total_cons]
  have is : total (recent N (values ++ [value])) = total middle + value.toNat := by rw [recent, new, total_append]
  have taken : (m.sum - staticCast oldest).toInt = total middle := by
    rw [toInt_sub (by rw [tracks.sum, toInt_value]; omega) (by rw [tracks.sum, toInt_value]; omega), tracks.sum, toInt_value,
      was]
    omega
  rw [replaced, toInt_add (by rw [taken, toInt_value]; omega) (by rw [taken, toInt_value]; omega), taken, toInt_value, is,
    Int.natCast_add]

theorem add : Tracks (m.add value) (values ++ [value]) := by
  have counted := tracks.count
  have slots := tracks.slots_add value
  have length : (values ++ [value]).length = values.length + 1 := by rw [List.length_append, List.length_singleton]
  have index : (next m.index).val = (values ++ [value]).length % N.val.toNat := by
    rw [length]
    exact next_index tracks.index
  rw [MovingAverage.add] at slots ⊢
  by_cases room : values.length < N.val.toNat
  · rw [if_pos (tracks.filling_iff.mpr room)] at slots ⊢
    refine ⟨index, ?_, slots, tracks.sum_filling value room⟩
    have := N.val.toNat_lt
    rw [length, UInt32.toNat_add, UInt32.toNat_one, counted]
    omega
  · rw [if_neg (mt tracks.filling_iff.mp room)] at slots ⊢
    refine ⟨index, ?_, slots, tracks.sum_full value (Nat.not_lt.mp room)⟩
    rw [length]
    change m.count.toNat = _
    omega

end Tracks

theorem Tracks.run {m : MovingAverage UInt16 N Int64} {earlier : List UInt16} (tracks : Tracks m earlier)
    (values : List UInt16) : Tracks (values.foldl MovingAverage.add m) (earlier ++ values) := by
  induction values generalizing m earlier with
  | nil => rwa [List.append_nil]
  | cons value values ih =>
    rw [List.foldl_cons, List.append_cons]
    exact ih (tracks.add value)

theorem Tracks.count_eq {m : MovingAverage UInt16 N Int64} {values : List UInt16} (tracks : Tracks m values) :
    m.count.toNat = (recent N values).length := by
  rw [recent, length_window, tracks.count]

/-- The quotient is exact, and the cast to 16 bits keeps it. -/
theorem Tracks.average {m : MovingAverage UInt16 N Int64} {values : List UInt16} (tracks : Tracks m values)
    (some' : values ≠ []) :
    m.average.toNat = total (recent N values) / m.count.toNat ∧
      (m.sum / (staticCast m.count : Int64)).toInt = m.average.toNat := by
  obtain ⟨-, -, high, -, -, -, most⟩ := mean_between UInt16.toNat (window_ne_nil (positive N) some')
  have counted := tracks.count_eq
  rw [recent] at counted
  rw [← counted] at most
  change total (recent N values) / m.count.toNat ≤ high.toNat at most
  have small := Nat.lt_of_le_of_lt most high.toNat_lt
  have divisor : (staticCast m.count : Int64).toInt = m.count.toNat :=
    Int64.toInt_ofNat_of_lt (Nat.lt_trans m.count.toNat_lt (by decide))
  have quotient : (m.sum / (staticCast m.count : Int64)).toInt = ((total (recent N values) / m.count.toNat : Nat) : Int) := by
    rw [Int64.toInt_div, tracks.sum, divisor, ← Int.ofNat_tdiv]
    generalize total (recent N values) / m.count.toNat = q at small
    exact Int.bmod_eq_of_le (by omega) (by omega)
  have counting : m.count ≠ 0 := by
    intro none'
    have length := List.length_pos_iff.mpr (window_ne_nil (positive N) some')
    rw [← counted, none'] at length
    exact Nat.lt_irrefl 0 length
  have nonneg : 0 ≤ m.sum / (staticCast m.count : Int64) := by
    rw [Int64.le_iff_toInt_le, quotient]
    exact Int.natCast_nonneg _
  have value : m.average.toNat = total (recent N values) / m.count.toNat := by
    rw [MovingAverage.average, if_neg counting]
    change ((m.sum / (staticCast m.count : Int64)).toUInt64.toUInt16).toNat = _
    rw [UInt64.toNat_toUInt16, Int64.toNat_toUInt64_of_le nonneg, ← Int64.toNat_toInt, quotient, Int.toNat_natCast]
    exact Nat.mod_eq_of_lt small
  exact ⟨value, by rw [quotient, value]⟩

/-- Over any sequence of values the incremental sum stays that of the window. -/
theorem exact_after_reset (m : MovingAverage UInt16 N Int64) (values : List UInt16) :
    Exact (values.foldl add m.reset) values := by
  have tracks : Tracks (values.foldl add m.reset) values := (Tracks.reset m).run values
  refine ⟨tracks.sum, tracks.count, fun some' => (tracks.average some').1, fun some' => ?_,
    fun some' => (tracks.average some').2⟩
  obtain ⟨low, lowIn, high, highIn, bounds, least, most⟩ :=
    mean_between UInt16.toNat (window_ne_nil (positive N) some')
  have mean := (tracks.average some').1
  rw [tracks.count_eq] at mean
  refine ⟨low, lowIn, high, highIn, fun value member => ⟨UInt16.le_iff_toNat_le.mpr (bounds value member).1,
    UInt16.le_iff_toNat_le.mpr (bounds value member).2⟩, UInt16.le_iff_toNat_le.mpr ?_, UInt16.le_iff_toNat_le.mpr ?_⟩
  · rw [mean]
    exact least
  · rw [mean]
    exact most

/-- Three values in a window of two. -/
example :
    let m : MovingAverage UInt16 ⟨2, by decide⟩ Int64 := ⟨Vector.replicate 2 7, ⟨1, by decide⟩, 1, 9⟩
    ([10, 20, 31].foldl add m.reset).average = 25 := by decide

end MovingAverage

end PicoWLogger
