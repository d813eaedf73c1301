import PicoWLogger.SharedIo

/-! A sensor on the other side of its driver: registers that may change from transfer to transfer, on a bus that may lose
any of them. -/

namespace PicoWLogger
open SharedLock

inductive Transfer where
  /-- The mutex is not got within its timeout. -/
  | locked
  /-- The bus reports an error. -/
  | failed
  | sent
  deriving DecidableEq

structure SensorBus where
  /-- What the registers hold at each transfer. -/
  registers : Nat → UInt8 → UInt8
  /-- The register that a read begins with. -/
  pointer : UInt8
  transfers : Nat → Transfer

namespace SensorBus

def next (bus : SensorBus) : SensorBus :=
  { bus with registers := fun n => bus.registers (n + 1), transfers := fun n => bus.transfers (n + 1) }

def burst (bus : SensorBus) (n : Nat) (start : UInt8) (length : Nat) : Vector UInt8 length :=
  Vector.ofFn fun i => bus.registers n (start + UInt8.ofNat i)

def take (bus : SensorBus) : Bool × SensorBus :=
  match bus.transfers 0 with
  | .locked => (false, bus.next)
  | _ => (true, bus)

def perform (bus : SensorBus) : (op : IoOp) → IoReply op × SensorBus
  | .i2cWrite _ bytes _ =>
    match bus.transfers 0 with
    | .sent => ((bytes.length : Int), { bus.next with pointer := bytes.headD 0 })
    | _ => ((-1 : Int), bus.next)
  | .i2cRead _ length =>
    match bus.transfers 0 with
    | .sent => (((length : Int), bus.burst 0 bus.pointer length), bus.next)
    | _ => (((-1 : Int), Vector.replicate length 0), bus.next)
  | .pageProgram _ _ | .sectorErase _ =>
    ((false, { cells := fun _ => 0xFF, polls := fun _ => false, power := none, requests := [] }), bus)

def result (bus : SensorBus) (program : IoProgram α) : α := (program.run take perform bus).1

def after (bus : SensorBus) (program : IoProgram α) : SensorBus := (program.run take perform bus).2

end SensorBus

/-- Attempts until one succeeds, with so many left. -/
def readWithRetry (attempt : IoProgram (Option α)) : Nat → IoProgram (Option α)
  | 0 => .done none
  | left + 1 =>
    attempt.bind fun
      | some out => .done (some out)
      | none => readWithRetry attempt left

end PicoWLogger
