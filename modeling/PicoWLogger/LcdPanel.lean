import PicoWLogger.SharedIo

/-! The display module on the other side of `AQM0802.cpp`: the controller that takes its commands and characters,
and a bus on which any write may be lost. -/

namespace PicoWLogger
open SharedLock

/-- Two rows of characters, from 0x00 and from 0x40, and the address of the next character. -/
structure LcdChip where
  ddram : Nat → UInt8
  address : Nat
  /-- Characters go to the character generator instead, since its address was set last. -/
  cgram : Bool
  /-- The extended instruction set. -/
  extended : Bool
  displayOn : Bool

namespace LcdChip

/-- The command whose highest bit is the highest one of `cmd`. The settings of the oscillator, the contrast and the
supply in the extended set do not change what is shown. -/
def command (chip : LcdChip) (cmd : UInt8) : LcdChip :=
  if cmd ≥ 0x80 then { chip with address := cmd.toNat - 0x80, cgram := false }
  else if cmd ≥ 0x40 then if chip.extended then chip else { chip with cgram := true }
  else if cmd ≥ 0x20 then { chip with extended := cmd &&& 0x01 ≠ 0 }
  else if cmd ≥ 0x10 then chip
  else if cmd ≥ 0x08 then { chip with displayOn := cmd &&& 0x04 ≠ 0 }
  else if cmd ≥ 0x04 then chip
  else if cmd ≥ 0x02 then { chip with address := 0, cgram := false }
  else if cmd = 0x01 then { chip with ddram := fun _ => 0x20, address := 0, cgram := false }
  else chip

def data (chip : LcdChip) (value : UInt8) : LcdChip :=
  if chip.cgram then chip
  else
    { chip with
      ddram := Function.update chip.ddram chip.address value
      address := if chip.address = 0x27 then 0x40 else if chip.address = 0x67 then 0 else chip.address + 1 }

def receive (chip : LcdChip) (control value : UInt8) : LcdChip :=
  if control = AQM0802.AQM0802_DATA then chip.data value else chip.command value

def shown (chip : LcdChip) (row col : Nat) : UInt8 := chip.ddram (row * 0x40 + col)

end LcdChip

/-- What becomes of one write of the driver. -/
inductive LcdWrite where
  /-- The mutex is not got within its timeout. -/
  | locked
  /-- The bus reports an error, and the module has seen nothing of it, or all. -/
  | failed (received : Bool)
  | sent

structure LcdBus where
  chip : LcdChip
  writes : Nat → LcdWrite

namespace LcdBus

def next (bus : LcdBus) : LcdBus := { bus with writes := fun n => bus.writes (n + 1) }

def take (bus : LcdBus) : Bool × LcdBus :=
  match bus.writes 0 with
  | .locked => (false, bus.next)
  | _ => (true, bus)

def perform (bus : LcdBus) : (op : IoOp) → IoReply op × LcdBus
  | .i2cWrite _ [control, value] _ =>
    match bus.writes 0 with
    | .locked | .failed false => ((-1 : Int), bus.next)
    | .failed true => ((-1 : Int), { bus.next with chip := bus.chip.receive control value })
    | .sent => ((2 : Int), { bus.next with chip := bus.chip.receive control value })
  | .i2cWrite _ _ _ => ((-1 : Int), bus)
  | .i2cRead _ length => (((-1 : Int), Vector.replicate length 0), bus)
  | .pageProgram _ _ | .sectorErase _ =>
    ((false, { cells := fun _ => 0xFF, polls := fun _ => false, power := none, requests := [] }), bus)

end LcdBus

inductive LcdCall where
  | clear
  | printLine (row : UInt8) (str : List UInt8)
  deriving DecidableEq

namespace AQM0802

def call (lcd : AQM0802) : LcdCall → IoProgram Bool
  | .clear => lcd.clear
  | .printLine row str => lcd.printLine row str

/-- Whether each call of a list succeeds, and the bus behind them. -/
def session (lcd : AQM0802) (bus : LcdBus) : List LcdCall → List Bool × LcdBus
  | [] => ([], bus)
  | next :: rest =>
    let one := (lcd.call next).run LcdBus.take LcdBus.perform bus
    let later := lcd.session one.2 rest
    (one.1 :: later.1, later.2)

end AQM0802

end PicoWLogger
