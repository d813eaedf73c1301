import Mathlib.Data.UInt
import Mathlib.Data.Nat.Bitwise

/-! `FlashDriver.cpp` over the NOR flash chip it talks to. Programming clears bits,
erasing a sector sets its bytes to 0xFF. The answers of the status polls are an input,
and the supply may fail after any number of cell operations. -/

namespace PicoWLogger

def u32 (value : Nat) : Nat := value % 4294967296

/-- `~mask` on a `uint32_t`. -/
def complement32 (mask : Nat) : Nat := 4294967295 - mask

def PAGE_SIZE : Nat := 256
abbrev SECTOR_SIZE : Nat := 4096
def FLASH_SIZE : Nat := 4 * 1024 * 1024

inductive FlashRequest where
  | pageProgram (addr : Nat) (data : List UInt8)
  | sectorErase (addr : Nat)
  deriving DecidableEq

structure FlashDriver where
  cells : Nat → UInt8
  /-- Whether each coming status poll succeeds before its timeout. -/
  polls : Nat → Bool
  /-- Cell operations (one sector erase or one programmed byte) left before the supply
  fails; `none` when it does not. -/
  power : Option Nat
  /-- The erase and program requests received under power, in order. -/
  requests : List FlashRequest

namespace FlashDriver

def eraseCells (flash : FlashDriver) (addr : Nat) : FlashDriver :=
  { flash with
    cells := fun a => if flash.power ≠ some 0 ∧ addr ≤ a ∧ a < addr + SECTOR_SIZE then 0xFF else flash.cells a
    power := flash.power.map (· - 1) }

/-- The bytes of a program operation that reach the cells before the supply fails. -/
def reaching (flash : FlashDriver) (data : List UInt8) : List UInt8 :=
  match flash.power with
  | none => data
  | some left => data.take left

/-- The chip after programming `data` at `addr`: each byte is ANDed into its cell. -/
def programCells (flash : FlashDriver) (addr : Nat) (data : List UInt8) : FlashDriver :=
  { flash with
    cells := fun a =>
      if addr ≤ a then flash.cells a &&& (flash.reaching data).getD (a - addr) 0xFF else flash.cells a
    power := flash.power.map (· - data.length) }

def receive (flash : FlashDriver) (request : FlashRequest) : FlashDriver :=
  if flash.power = some 0 then flash else { flash with requests := flash.requests ++ [request] }

/-- One poll loop of `readStatus1` against its deadline. -/
def poll (flash : FlashDriver) : Bool × FlashDriver :=
  (flash.polls 0, { flash with polls := fun n => flash.polls (n + 1) })

def writeEnable (flash : FlashDriver) : Bool × FlashDriver := flash.poll

def waitWhileBusy (flash : FlashDriver) : Bool × FlashDriver := flash.poll

def isAddressValid (addr len : Nat) : Bool :=
  if len = 0 then false
  else if addr ≥ FLASH_SIZE then false
  else if len > FLASH_SIZE then false
  else if u32 (addr + len) > FLASH_SIZE then false
  else true

def isPageProgramValid (addr len : Nat) : Bool :=
  if !isAddressValid addr len then false
  else if len > PAGE_SIZE then false
  else (addr &&& (PAGE_SIZE - 1)) + len ≤ PAGE_SIZE

/-- The cells of a range, as the SPI read transfers them. -/
def cellsFrom (flash : FlashDriver) (addr len : Nat) : List UInt8 :=
  (List.range len).map fun offset => flash.cells (addr + offset)

def read (flash : FlashDriver) (addr len : Nat) : Option (List UInt8) :=
  if isAddressValid addr len then some (flash.cellsFrom addr len) else none

def pageProgram (flash : FlashDriver) (addr : Nat) (data : List UInt8) : Bool × FlashDriver :=
  let flash := flash.receive (.pageProgram addr data)
  if !isPageProgramValid addr data.length then (false, flash)
  else
    match flash.writeEnable with
    | (false, flash) => (false, flash)
    | (true, flash) => (flash.programCells addr data).waitWhileBusy

def sectorErase (flash : FlashDriver) (addr : Nat) : Bool × FlashDriver :=
  let sectorAddr := addr &&& complement32 (SECTOR_SIZE - 1)
  let flash := flash.receive (.sectorErase addr)
  if !isAddressValid sectorAddr 1 then (false, flash)
  else
    match flash.writeEnable with
    | (false, flash) => (false, flash)
    | (true, flash) => (flash.eraseCells sectorAddr).waitWhileBusy

/-- A chip under steady power whose status polls all succeed. -/
structure Working (flash : FlashDriver) : Prop where
  polls : flash.polls = fun _ => true
  power : flash.power = none

end FlashDriver

end PicoWLogger
