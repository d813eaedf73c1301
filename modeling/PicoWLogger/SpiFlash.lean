import PicoWLogger.FlashDriver

/-! `FlashDriver.cpp` on the wire: the bytes it sends in each period of chip select, and the chip that
decodes them. The chip takes its time over programs and erases and meanwhile answers nothing but status reads. -/

namespace PicoWLogger

def CMD_READ_DATA : UInt8 := 0x03
def CMD_PAGE_PROGRAM : UInt8 := 0x02
def CMD_WRITE_ENABLE : UInt8 := 0x06
def CMD_READ_STATUS1 : UInt8 := 0x05
def CMD_SECTOR_ERASE : UInt8 := 0x20
def CMD_CHIP_ERASE : UInt8 := 0xC7
def CMD_JEDEC_ID : UInt8 := 0x9F

structure SpiChip where
  cells : Nat → UInt8
  /-- The three bytes of the identification, as they come over the wire. -/
  jedecId : List UInt8
  /-- The write enable latch. -/
  writeEnabled : Bool
  /-- How many status reads will still find the chip busy. -/
  busy : Nat
  /-- The same for each coming program or erase. -/
  times : Nat → Nat

namespace SpiChip

def status (chip : SpiChip) : UInt8 := (if chip.busy ≠ 0 then 0x01 else 0) ||| (if chip.writeEnabled then 0x02 else 0)

/-- Time passes with each status read; the latch falls when the operation is over. -/
def tick (chip : SpiChip) : SpiChip :=
  { chip with busy := chip.busy - 1, writeEnabled := if chip.busy = 1 then false else chip.writeEnabled }

def enable (chip : SpiChip) : SpiChip := { chip with writeEnabled := true }

def start (chip : SpiChip) (cells : Nat → UInt8) : SpiChip :=
  if chip.writeEnabled then
    { chip with
      cells, busy := chip.times 0, writeEnabled := decide (chip.times 0 ≠ 0), times := fun n => chip.times (n + 1) }
  else chip

/-- Up to a page of bytes from `addr` on; behind the end of the page they go on at its start. -/
def programPage (chip : SpiChip) (addr : Nat) (data : List UInt8) : Nat → UInt8 := fun a =>
  let page := addr - addr % PAGE_SIZE
  if page ≤ a ∧ a < page + PAGE_SIZE then
    chip.cells a &&& data.getD ((a - page + (PAGE_SIZE - addr % PAGE_SIZE)) % PAGE_SIZE) 0xFF
  else chip.cells a

def eraseSector (chip : SpiChip) (addr : Nat) : Nat → UInt8 := fun a =>
  if addr - addr % SECTOR_SIZE ≤ a ∧ a < addr - addr % SECTOR_SIZE + SECTOR_SIZE then 0xFF else chip.cells a

/-- A command with a 24-bit address; the chip leaves the bits above its size alone. -/
def addressed (chip : SpiChip) (cmd : UInt8) (addr : Nat) (data : List UInt8) (reads : Nat) : List UInt8 × SpiChip :=
  if cmd = CMD_READ_DATA then ((List.range reads).map fun i => chip.cells ((addr + i) % FLASH_SIZE), chip)
  else if cmd = CMD_PAGE_PROGRAM then (List.replicate reads 0xFF, chip.start (chip.programPage addr data))
  else if cmd = CMD_SECTOR_ERASE then (List.replicate reads 0xFF, chip.start (chip.eraseSector addr))
  else (List.replicate reads 0xFF, chip)

/-- One period of chip select: the bytes sent, then so many read. Nobody drives the line while the chip is busy. -/
def transfer (chip : SpiChip) (sent : List UInt8) (reads : Nat) : List UInt8 × SpiChip :=
  match sent with
  | [] => (List.replicate reads 0xFF, chip)
  | cmd :: rest =>
    if cmd = CMD_READ_STATUS1 then (List.replicate reads chip.status, chip.tick)
    else if chip.busy ≠ 0 then (List.replicate reads 0xFF, chip)
    else if cmd = CMD_WRITE_ENABLE then (List.replicate reads 0xFF, chip.enable)
    else if cmd = CMD_JEDEC_ID then (chip.jedecId.take reads, chip)
    else if cmd = CMD_CHIP_ERASE then (List.replicate reads 0xFF, chip.start fun _ => 0xFF)
    else
      match rest with
      | high :: middle :: low :: data =>
        chip.addressed cmd ((high.toNat * 65536 + middle.toNat * 256 + low.toNat) % FLASH_SIZE) data reads
      | _ => (List.replicate reads 0xFF, chip)

end SpiChip

structure SpiFlash where
  chip : SpiChip
  /-- How many status reads each coming wait of `writeEnable` has time for before its deadline. -/
  enables : Nat → Nat
  /-- The same for `waitWhileBusy`. -/
  waits : Nat → Nat

namespace SpiFlash
open FlashDriver

/-- The four bytes `cmd[]` of a command with an address. -/
def command (cmd : UInt8) (addr : Nat) : List UInt8 :=
  [cmd, UInt8.ofNat (addr >>> 16), UInt8.ofNat (addr >>> 8), UInt8.ofNat addr]

def readStatus1 (dev : SpiFlash) : UInt8 × SpiFlash :=
  let (bytes, chip) := dev.chip.transfer [CMD_READ_STATUS1] 1
  (bytes.headD 0, { dev with chip })

/-- The loops of `writeEnable` and `waitWhileBusy`: status reads until one of them will do. -/
def pollStatus (done : UInt8 → Bool) : Nat → SpiFlash → Bool × SpiFlash
  | 0, dev => (false, dev)
  | reads + 1, dev =>
    let (sr1, dev) := dev.readStatus1
    if done sr1 then (true, dev) else pollStatus done reads dev

def writeEnable (dev : SpiFlash) : Bool × SpiFlash :=
  let chip := (dev.chip.transfer [CMD_WRITE_ENABLE] 0).2
  pollStatus (fun sr1 => sr1 &&& 0x02 ≠ 0) (dev.enables 0) { dev with chip, enables := fun n => dev.enables (n + 1) }

def waitWhileBusy (dev : SpiFlash) : Bool × SpiFlash :=
  pollStatus (fun sr1 => sr1 &&& 0x01 = 0) (dev.waits 0) { dev with waits := fun n => dev.waits (n + 1) }

def read (dev : SpiFlash) (addr len : Nat) : Option (List UInt8) × SpiFlash :=
  if !isAddressValid addr len then (none, dev)
  else
    let (bytes, chip) := dev.chip.transfer (command CMD_READ_DATA addr) len
    (some bytes, { dev with chip })

def pageProgram (dev : SpiFlash) (addr : Nat) (data : List UInt8) : Bool × SpiFlash :=
  if !isPageProgramValid addr data.length then (false, dev)
  else
    match dev.writeEnable with
    | (false, dev) => (false, dev)
    | (true, dev) =>
      let chip := (dev.chip.transfer (command CMD_PAGE_PROGRAM addr ++ data) 0).2
      waitWhileBusy { dev with chip }

def sectorErase (dev : SpiFlash) (addr : Nat) : Bool × SpiFlash :=
  let sectorAddr := addr &&& complement32 (SECTOR_SIZE - 1)
  if !isAddressValid sectorAddr 1 then (false, dev)
  else
    match dev.writeEnable with
    | (false, dev) => (false, dev)
    | (true, dev) =>
      let chip := (dev.chip.transfer (command CMD_SECTOR_ERASE sectorAddr) 0).2
      waitWhileBusy { dev with chip }

def chipErase (dev : SpiFlash) : Bool × SpiFlash :=
  match dev.writeEnable with
  | (false, dev) => (false, dev)
  | (true, dev) =>
    let chip := (dev.chip.transfer [CMD_CHIP_ERASE] 0).2
    waitWhileBusy { dev with chip }

def readJedecId (dev : SpiFlash) : Nat × SpiFlash :=
  let (id, chip) := dev.chip.transfer [CMD_JEDEC_ID] 3
  ((id.getD 0 0).toNat <<< 16 ||| (id.getD 1 0).toNat <<< 8 ||| (id.getD 2 0).toNat, { dev with chip })

def init (dev : SpiFlash) : Bool × SpiFlash :=
  let (jedec, dev) := dev.readJedecId
  (jedec ≠ 0 && jedec ≠ 0xFFFFFFFF, dev)

end SpiFlash

inductive DriverCall where
  | read (addr len : Nat)
  | pageProgram (addr : Nat) (data : List UInt8)
  | sectorErase (addr : Nat)
  | chipErase

/-- The calls that go out to the chip as a program or an erase. -/
def DriverCall.isOperation : DriverCall → Bool
  | .read _ _ => false
  | .pageProgram addr data => FlashDriver.isPageProgramValid addr data.length
  | .sectorErase addr => FlashDriver.isAddressValid (addr &&& complement32 (SECTOR_SIZE - 1)) 1
  | .chipErase => true

inductive DriverAnswer where
  | bytes (read : Option (List UInt8))
  | done (ok : Bool)
  deriving DecidableEq

namespace SpiFlash

def call (dev : SpiFlash) : DriverCall → DriverAnswer × SpiFlash
  | .read addr len => ((.bytes (dev.read addr len).1), (dev.read addr len).2)
  | .pageProgram addr data => (.done (dev.pageProgram addr data).1, (dev.pageProgram addr data).2)
  | .sectorErase addr => (.done (dev.sectorErase addr).1, (dev.sectorErase addr).2)
  | .chipErase => (.done dev.chipErase.1, dev.chipErase.2)

/-- The answers to a list of calls, and the device after them. -/
def session (dev : SpiFlash) : List DriverCall → List DriverAnswer × SpiFlash
  | [] => ([], dev)
  | next :: rest =>
    let later := (dev.call next).2.session rest
    ((dev.call next).1 :: later.1, later.2)

end SpiFlash

namespace FlashDriver

def chipErase (flash : FlashDriver) : Bool × FlashDriver :=
  match flash.writeEnable with
  | (false, flash) => (false, flash)
  | (true, flash) => { flash with cells := fun _ => 0xFF }.waitWhileBusy

/-- The same calls where programs and erases are single operations on the cells. -/
def call (flash : FlashDriver) : DriverCall → DriverAnswer × FlashDriver
  | .read addr len => (.bytes (flash.read addr len), flash)
  | .pageProgram addr data => (.done (flash.pageProgram addr data).1, (flash.pageProgram addr data).2)
  | .sectorErase addr => (.done (flash.sectorErase addr).1, (flash.sectorErase addr).2)
  | .chipErase => (.done flash.chipErase.1, flash.chipErase.2)

def session (flash : FlashDriver) : List DriverCall → List DriverAnswer × FlashDriver
  | [] => ([], flash)
  | next :: rest =>
    let later := (flash.call next).2.session rest
    ((flash.call next).1 :: later.1, later.2)

end FlashDriver

end PicoWLogger
