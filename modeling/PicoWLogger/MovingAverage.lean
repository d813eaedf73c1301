import Mathlib.Data.UInt

/-! `utility.h`: the moving average of the last values. -/

namespace PicoWLogger

/-- `static_cast`. -/
class StaticCast (α β : Type) where
  staticCast : α → β

instance : StaticCast UInt16 Int64 := ⟨fun value => Int64.ofNat value.toNat⟩

instance : StaticCast UInt32 Int64 := ⟨fun value => Int64.ofNat value.toNat⟩

instance : StaticCast Int64 UInt16 := ⟨fun value => value.toUInt64.toUInt16⟩

/-- `size_t N` with the `static_assert` on it. -/
abbrev WindowSize := { N : UInt32 // N > 0 }

structure MovingAverage (T : Type) (N : WindowSize) (SumT : Type) where
  buffer : Vector T N.val.toNat
  index : Fin N.val.toNat
  count : UInt32
  sum : SumT

namespace MovingAverage
open StaticCast (staticCast)
variable {T SumT : Type} [Zero T] [Zero SumT] [Add SumT] [Sub SumT] [Div SumT]
variable [StaticCast T SumT] [StaticCast UInt32 SumT] [StaticCast SumT T] {N : WindowSize}

def reset (_ : MovingAverage T N SumT) : MovingAverage T N SumT where
  buffer := Vector.replicate N.val.toNat 0
  index := ⟨0, UInt32.lt_iff_toNat_lt.mp N.property⟩
  count := 0
  sum := 0

def next (index : Fin N.val.toNat) : Fin N.val.toNat :=
  if inside : index.val + 1 < N.val.toNat then ⟨index.val + 1, inside⟩ else ⟨0, UInt32.lt_iff_toNat_lt.mp N.property⟩

def add (average : MovingAverage T N SumT) (value : T) : MovingAverage T N SumT :=
  let buffer := average.buffer.set average.index.val value average.index.isLt
  let index := next average.index
  if average.count < N.val then
    { buffer, index, count := average.count + 1, sum := average.sum + staticCast value }
  else
    { average with buffer, index, sum := average.sum - staticCast (average.buffer.get average.index) + staticCast value }

def average (m : MovingAverage T N SumT) : T :=
  if m.count = 0 then 0 else staticCast (m.sum / staticCast m.count)

end MovingAverage

end PicoWLogger
