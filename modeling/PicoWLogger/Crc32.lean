import Mathlib.Data.UInt

/-! `Crc32.cpp`: the reflected CRC-32 of a byte string, one bit at a time. -/

namespace PicoWLogger.Crc32

/-- One round of the inner loop: shift right, folding the polynomial in when the
bit that leaves the register is set. -/
def shift (crc : UInt32) : UInt32 :=
  if crc &&& 1 ≠ 0 then (crc >>> 1) ^^^ 0xEDB88320 else crc >>> 1

/-- `count` rounds of `for(int j = 0; j < 8; j++)`. -/
def shifts : Nat → UInt32 → UInt32
  | 0, crc => crc
  | count + 1, crc => shifts count (shift crc)

def update (crc : UInt32) (byte : UInt8) : UInt32 := shifts 8 (crc ^^^ byte.toUInt32)

def calculate (data : List UInt8) : UInt32 := ~~~ (data.foldl update 0xFFFFFFFF)

/-- The same register run over two buffers in turn. -/
def calculate2 (data1 data2 : List UInt8) : UInt32 :=
  ~~~ (data2.foldl update (data1.foldl update 0xFFFFFFFF))

end PicoWLogger.Crc32
