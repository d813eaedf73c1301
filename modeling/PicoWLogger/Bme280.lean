import PicoWLogger.Lib.CheckedInt
import Mathlib.Data.Vector.Basic

/-! `BME280.cpp`: the calibration block, the raw sample, and the compensation. A left shift of a signed number is a
product with a power of two, a right shift rounds down. -/

namespace PicoWLogger.Bme280
open CheckedInt

def u16Le (low high : UInt8) : UInt16 := low.toUInt16 ||| high.toUInt16 <<< 8

def s16Le (low high : UInt8) : Int16 := (u16Le low high).toInt16

def signExtend12 (value : UInt16) : Int16 :=
  let value := value &&& 0x0FFF
  let value := if value &&& 0x0800 ≠ 0 then value ||| 0xF000 else value
  value.toInt16

structure Calibration where
  digT1 : UInt16
  digT2 : Int16
  digT3 : Int16
  digP1 : UInt16
  digP2 : Int16
  digP3 : Int16
  digP4 : Int16
  digP5 : Int16
  digP6 : Int16
  digP7 : Int16
  digP8 : Int16
  digP9 : Int16
  digH1 : UInt8
  digH2 : Int16
  digH3 : UInt8
  digH4 : Int16
  digH5 : Int16
  digH6 : Int8
  deriving DecidableEq

/-- The two blocks of registers that `readCalibration` reads. -/
def readCalibration (b1 : Vector UInt8 26) (b2 : Vector UInt8 7) : Calibration where
  digT1 := u16Le b1[0] b1[1]
  digT2 := s16Le b1[2] b1[3]
  digT3 := s16Le b1[4] b1[5]
  digP1 := u16Le b1[6] b1[7]
  digP2 := s16Le b1[8] b1[9]
  digP3 := s16Le b1[10] b1[11]
  digP4 := s16Le b1[12] b1[13]
  digP5 := s16Le b1[14] b1[15]
  digP6 := s16Le b1[16] b1[17]
  digP7 := s16Le b1[18] b1[19]
  digP8 := s16Le b1[20] b1[21]
  digP9 := s16Le b1[22] b1[23]
  digH1 := b1[25]
  digH2 := s16Le b2[0] b2[1]
  digH3 := b2[2]
  digH4 := signExtend12 (b2[3].toUInt16 <<< 4 ||| (b2[4] &&& 0x0F).toUInt16)
  digH5 := signExtend12 (b2[5].toUInt16 <<< 4 ||| (b2[4] >>> 4).toUInt16)
  digH6 := b2[6].toInt8

structure RawSample where
  adcT : Int32
  adcP : Int32
  adcH : Int32
  deriving DecidableEq

def readRaw (raw : Vector UInt8 8) : RawSample where
  adcP := (raw[0].toUInt32 <<< 12 ||| raw[1].toUInt32 <<< 4 ||| raw[2].toUInt32 >>> 4).toInt32
  adcT := (raw[3].toUInt32 <<< 12 ||| raw[4].toUInt32 <<< 4 ||| raw[5].toUInt32 >>> 4).toInt32
  adcH := (raw[6].toUInt32 <<< 8 ||| raw[7].toUInt32).toInt32

abbrev int32 : Int → Checked Int := checked 31

abbrev int64 : Int → Checked Int := checked 63

/-- `t_fine`, which the other two read, and the temperature. -/
def compensateTemperature01C (cal : Calibration) (adcT : Int) : Checked (Int × Int) := do
  let digT1 : Int := cal.digT1.toNat
  let digT2 := cal.digT2.toInt
  let digT3 := cal.digT3.toInt
  let doubled ← int32 (digT1 * 2 ^ 1)
  let offset ← int32 (shr adcT 3 - doubled)
  let linear ← int32 (offset * digT2)
  let var1 := shr linear 11
  let offset ← int32 (shr adcT 4 - digT1)
  let square ← int32 (offset * offset)
  let product ← int32 (shr square 12 * digT3)
  let var2 := shr product 14
  let tFine ← int32 (var1 + var2)
  let fivefold ← int32 (tFine * 5)
  let rounded ← int32 (fivefold + 128)
  return (tFine, shr rounded 8)

def compensatePressurePa (cal : Calibration) (tFine adcP : Int) : Checked UInt32 := do
  let digP1 : Int := cal.digP1.toNat
  let digP2 := cal.digP2.toInt
  let digP3 := cal.digP3.toInt
  let digP4 := cal.digP4.toInt
  let digP5 := cal.digP5.toInt
  let digP6 := cal.digP6.toInt
  let digP7 := cal.digP7.toInt
  let digP8 := cal.digP8.toInt
  let digP9 := cal.digP9.toInt
  let var1 ← int64 (tFine - 128000)
  let square ← int64 (var1 * var1)
  let var2 ← int64 (square * digP6)
  let product ← int64 (var1 * digP5)
  let shifted ← int64 (product * 2 ^ 17)
  let var2 ← int64 (var2 + shifted)
  let shifted ← int64 (digP4 * 2 ^ 35)
  let var2 ← int64 (var2 + shifted)
  let square ← int64 (var1 * var1)
  let cubic ← int64 (square * digP3)
  let product ← int64 (var1 * digP2)
  let shifted ← int64 (product * 2 ^ 12)
  let var1 ← int64 (shr cubic 8 + shifted)
  let sum ← int64 (2 ^ 47 + var1)
  let scaled ← int64 (sum * digP1)
  let var1 := shr scaled 33
  if var1 = 0 then return 0
  let p ← int32 (1048576 - adcP)
  let shifted ← int64 (p * 2 ^ 31)
  let difference ← int64 (shifted - var2)
  let dividend ← int64 (difference * 3125)
  let p ← divide 63 dividend var1
  let product ← int64 (digP9 * shr p 13)
  let product ← int64 (product * shr p 13)
  let var1 := shr product 25
  let product ← int64 (digP8 * p)
  let var2 := shr product 19
  let sum ← int64 (p + var1)
  let sum ← int64 (sum + var2)
  let shifted ← int64 (digP7 * 2 ^ 4)
  let p ← int64 (shr sum 8 + shifted)
  if p < 0 then return 0
  return UInt32.ofInt (shr p 8)

def compensateHumidity1024 (cal : Calibration) (tFine adcH : Int) : Checked UInt32 := do
  let digH1 : Int := cal.digH1.toNat
  let digH2 := cal.digH2.toInt
  let digH3 : Int := cal.digH3.toNat
  let digH4 := cal.digH4.toInt
  let digH5 := cal.digH5.toInt
  let digH6 := cal.digH6.toInt
  let v ← int32 (tFine - 76800)
  let sample ← int32 (adcH * 2 ^ 14)
  let offset ← int32 (digH4 * 2 ^ 20)
  let difference ← int32 (sample - offset)
  let slope ← int32 (digH5 * v)
  let difference ← int32 (difference - slope)
  let rounded ← int32 (difference + 16384)
  let left := shr rounded 15
  let sixth ← int32 (v * digH6)
  let third ← int32 (v * digH3)
  let factor ← int32 (shr third 11 + 32768)
  let product ← int32 (shr sixth 10 * factor)
  let sum ← int32 (shr product 10 + 2097152)
  let product ← int32 (sum * digH2)
  let rounded ← int32 (product + 8192)
  let v ← int32 (left * shr rounded 14)
  let square ← int32 (shr v 15 * shr v 15)
  let product ← int32 (shr square 7 * digH1)
  let v ← int32 (v - shr product 4)
  let v := if v < 0 then 0 else v
  let v := if v > 419430400 then 419430400 else v
  return UInt32.ofInt (shr v 12)

structure Compensated where
  temperature01C : Int
  pressurePa : UInt32
  humidity1024 : UInt32
  deriving DecidableEq

def compensate (cal : Calibration) (sample : RawSample) : Checked Compensated := do
  let (tFine, temperature01C) ← compensateTemperature01C cal sample.adcT.toInt
  let pressurePa ← compensatePressurePa cal tFine sample.adcP.toInt
  let humidity1024 ← compensateHumidity1024 cal tFine sample.adcH.toInt
  return { temperature01C, pressurePa, humidity1024 }

/-- A common block of coefficients: 25.08 degrees, 1006.53 hPa, 51 percent. -/
example : compensate
    ⟨27504, 26435, -1000, 36477, -10685, 3024, 2855, 140, -7, 15500, -14600, 6000, 75, 362, 0, 324, 50, 30⟩
    ⟨519888, 415148, 30000⟩ = .ok ⟨2508, 100653, 52306⟩ := by decide

end PicoWLogger.Bme280
