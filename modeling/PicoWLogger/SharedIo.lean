import PicoWLogger.Bme280
import PicoWLogger.FlashLogStorage
import PicoWLogger.Lib.SharedLock

/-! The users of `shared_io_mutex`: the drivers of the devices on the I2C bus and the flash writes of the log storage,
as programs over the mutex and the operations it keeps apart. Delays are left out, and so are the flash reads, which
go without the mutex. -/

namespace PicoWLogger
open SharedLock

inductive IoOp where
  | i2cWrite (address : UInt8) (bytes : List UInt8) (nostop : Bool)
  | i2cRead (address : UInt8) (length : Nat)
  | pageProgram (addr : Nat) (data : List UInt8)
  | sectorErase (addr : Nat)

/-- A transfer returns the number of its bytes or an error, a read fills the buffer, and a flash
operation leaves the driver in its next state. -/
def IoReply : IoOp → Type
  | .i2cWrite _ _ _ => Int
  | .i2cRead _ length => Int × Vector UInt8 length
  | .pageProgram _ _ => Bool × FlashDriver
  | .sectorErase _ => Bool × FlashDriver

abbrev IoProgram := Program IoOp IoReply

/-- `lockI2c` and `lock_shared_io`; without a mutex there is nothing to wait for. -/
def lockI2c (i2cMutex : Bool) (next : Bool → IoProgram α) : IoProgram α :=
  if i2cMutex then .take next else next true

def unlockI2c (i2cMutex : Bool) (next : IoProgram α) : IoProgram α :=
  if i2cMutex then .give next else next

structure AEADT7410 where
  address : UInt8
  i2cMutex : Bool
  initialized : Bool

namespace AEADT7410

def TEMP_REG : UInt8 := 0x00
def CONFIG_REG : UInt8 := 0x03

def writeReg (dev : AEADT7410) (reg value : UInt8) : IoProgram Bool :=
  lockI2c dev.i2cMutex fun got =>
    if got then
      .perform (.i2cWrite dev.address [reg, value] false) fun (ret : Int) => unlockI2c dev.i2cMutex (.done (ret = 2))
    else .done false

def init (dev : AEADT7410) : IoProgram (Bool × AEADT7410) :=
  (dev.writeReg CONFIG_REG 0x80).bind fun initialized => .done (initialized, { dev with initialized })

/-- The two bytes of the temperature register, or the return value false. -/
def readTempRaw (dev : AEADT7410) : IoProgram (Option (UInt8 × UInt8)) :=
  lockI2c dev.i2cMutex fun got =>
    if got then
      .perform (.i2cWrite dev.address [TEMP_REG] true) fun (ret : Int) =>
        if ret ≠ 1 then unlockI2c dev.i2cMutex (.done none)
        else
          .perform (.i2cRead dev.address 2) fun (ret, buf) =>
            unlockI2c dev.i2cMutex (.done (if ret ≠ 2 then none else some (buf[0], buf[1])))
    else .done none

/-- The temperature in units of 1/128 degree, which a `float` holds exactly. -/
def convertTemp (msb lsb : UInt8) : Int16 := (msb.toUInt16 <<< 8 ||| lsb.toUInt16).toInt16

def readTemperature (dev : AEADT7410) : IoProgram (Option Int16) :=
  dev.readTempRaw.bind fun raw => .done (raw.map fun (msb, lsb) => convertTemp msb lsb)

end AEADT7410

structure AQM0802 where
  address : UInt8
  i2cMutex : Bool

namespace AQM0802

def AQM0802_CMD : UInt8 := 0x00
def AQM0802_DATA : UInt8 := 0x40
def CLEAR : UInt8 := 0x01
def SET_DDRAM_ADDR : UInt8 := 0x80
def CONTRAST : UInt8 := 0x20

def write (lcd : AQM0802) (control value : UInt8) : IoProgram Bool :=
  lockI2c lcd.i2cMutex fun got =>
    if got then
      .perform (.i2cWrite lcd.address [control, value] false) fun (ret : Int) => unlockI2c lcd.i2cMutex (.done (ret = 2))
    else .done false

def command (lcd : AQM0802) (cmd : UInt8) : IoProgram Bool := lcd.write AQM0802_CMD cmd

def data (lcd : AQM0802) (value : UInt8) : IoProgram Bool := lcd.write AQM0802_DATA value

/-- The commands of a table, until one of them fails. -/
def commands (lcd : AQM0802) : List UInt8 → IoProgram Bool
  | [] => .done true
  | cmd :: rest => (lcd.command cmd).bind fun ok => if ok then commands lcd rest else .done false

def initCmds1 : List UInt8 :=
  [0x38, 0x39, 0x14, (0x70 : UInt8) ||| (CONTRAST &&& 0x0F), (0x56 : UInt8) ||| ((CONTRAST &&& 0x30) >>> (3 : UInt8)), 0x6C]

def initCmds2 : List UInt8 := [0x38, 0x0C, CLEAR]

def init (lcd : AQM0802) : IoProgram Bool :=
  (lcd.commands initCmds1).bind fun ok => if ok then lcd.commands initCmds2 else .done false

def clear (lcd : AQM0802) : IoProgram Bool := lcd.command CLEAR

def setCursor (lcd : AQM0802) (row col : UInt8) : IoProgram Bool :=
  let addr := if row = 0 then col else 0x40 + col
  lcd.command (SET_DDRAM_ADDR ||| addr)

/-- The characters of a string up to its end, until one of them fails. -/
def print (lcd : AQM0802) : List UInt8 → IoProgram Bool
  | [] => .done true
  | char :: rest => (lcd.data char).bind fun ok => if ok then print lcd rest else .done false

def line (str : List UInt8) : List UInt8 := str.take 8 ++ List.replicate (8 - str.length) 0x20

def printLine (lcd : AQM0802) (row : UInt8) (str : List UInt8) : IoProgram Bool :=
  (lcd.setCursor row 0).bind fun ok => if ok then lcd.print (line str) else .done false

end AQM0802

namespace Bme280

/-- `cal_` as the constructor leaves it. -/
def Calibration.zero : Calibration := ⟨0, 0, 0, 0, 0, 0, 0, 0, 0, 0, 0, 0, 0, 0, 0, 0, 0, 0⟩

def REG_CALIB00 : UInt8 := 0x88
def REG_CALIB26 : UInt8 := 0xE1
def REG_ID : UInt8 := 0xD0
def REG_RESET : UInt8 := 0xE0
def REG_CTRL_HUM : UInt8 := 0xF2
def REG_CTRL_MEAS : UInt8 := 0xF4
def REG_CONFIG : UInt8 := 0xF5
def REG_DATA : UInt8 := 0xF7
def CHIP_ID : UInt8 := 0x60
def RESET_VALUE : UInt8 := 0xB6

/-- The object of the sensor for humidity and pressure. `t_fine` is written before each use and left out. -/
structure BME280 where
  address : UInt8
  i2cMutex : Bool
  cal : Calibration

namespace BME280

def writeRegister8 (dev : BME280) (reg value : UInt8) : IoProgram Bool :=
  lockI2c dev.i2cMutex fun got =>
    if got then
      .perform (.i2cWrite dev.address [reg, value] false) fun (ret : Int) => unlockI2c dev.i2cMutex (.done (ret = 2))
    else .done false

def readRegisters (dev : BME280) (startReg : UInt8) (length : Nat) : IoProgram (Option (Vector UInt8 length)) :=
  if length = 0 then .done none
  else
    lockI2c dev.i2cMutex fun got =>
      if got then
        .perform (.i2cWrite dev.address [startReg] true) fun (ret : Int) =>
          if ret ≠ 1 then unlockI2c dev.i2cMutex (.done none)
          else
            .perform (.i2cRead dev.address length) fun (ret, buffer) =>
              unlockI2c dev.i2cMutex (.done (if ret ≠ length then none else some buffer))
      else .done none

def readRegister8 (dev : BME280) (reg : UInt8) : IoProgram (Option UInt8) :=
  (dev.readRegisters reg 1).bind fun value => .done (value.map fun bytes => bytes[0])

def readChipId (dev : BME280) : IoProgram (Option UInt8) := dev.readRegister8 REG_ID

/-- The new `cal_`, or the return value false. -/
def readCalibration (dev : BME280) : IoProgram (Option Calibration) :=
  (dev.readRegisters REG_CALIB00 26).bind fun
    | none => .done none
    | some b1 =>
      (dev.readRegisters REG_CALIB26 7).bind fun
        | none => .done none
        | some b2 => .done (some (Bme280.readCalibration b1 b2))

/-- The writes of `configureNormalMode`: `ctrl_meas` last, since it makes `ctrl_hum` count. -/
def normalMode : List (UInt8 × UInt8) :=
  [(REG_RESET, RESET_VALUE), (REG_CONFIG, (0x05 : UInt8) <<< (5 : UInt8) ||| (0x04 : UInt8) <<< (2 : UInt8)), (REG_CTRL_HUM, 0x01),
   (REG_CTRL_MEAS, (0x01 : UInt8) <<< (5 : UInt8) ||| (0x01 : UInt8) <<< (2 : UInt8) ||| (0x03 : UInt8))]

def writeRegisters (dev : BME280) : List (UInt8 × UInt8) → IoProgram Bool
  | [] => .done true
  | (reg, value) :: rest => (dev.writeRegister8 reg value).bind fun ok => if ok then writeRegisters dev rest else .done false

def configureNormalMode (dev : BME280) : IoProgram Bool := dev.writeRegisters normalMode

def init (dev : BME280) : IoProgram (Bool × BME280) :=
  dev.readChipId.bind fun
    | none => .done (false, dev)
    | some id =>
      if id ≠ CHIP_ID then .done (false, dev)
      else
        dev.readCalibration.bind fun
          | none => .done (false, dev)
          | some cal =>
            let dev := { dev with cal }
            dev.configureNormalMode.bind fun ok => .done (ok, dev)

def readRaw (dev : BME280) : IoProgram (Option RawSample) :=
  (dev.readRegisters REG_DATA 8).bind fun raw => .done (raw.map Bme280.readRaw)

/-- The scaled numbers of `out`; `none` is the return value false. -/
def read (dev : BME280) : IoProgram (Option (CheckedInt.Checked Compensated)) :=
  dev.readRaw.bind fun sample => .done (sample.map (compensate dev.cal))

end BME280

end Bme280

namespace FlashLogStorage

/-- The take of the mutex, which the model of the storage also counts. -/
def takeSharedIo (s : FlashLogStorage) : FlashLogStorage := { s with sharedIo := fun n => s.sharedIo (n + 1) }

def withFlash (s : FlashLogStorage) (flash : FlashDriver) : FlashLogStorage := { s with flash }

def beginSectorProgram (s : FlashLogStorage) (addr : Nat) : IoProgram (Bool × FlashLogStorage) :=
  if !isSectorStart addr then .done (true, s)
  else
    let s := s.invalidateFramesInErasedSector addr
    .take fun got =>
      if got then
        .perform (.sectorErase addr) fun (ok, flash) =>
          let s := s.takeSharedIo.withFlash flash
          .give (.done (if ok then (true, s) else (false, s.rebuildIndexFromFlash)))
      else .done (false, s.takeSharedIo.rebuildIndexFromFlash)

def programPagesProgram (s : FlashLogStorage) (oldWriteAddr addr : Nat) (p : List UInt8) :
    IoProgram (Option Nat × FlashLogStorage) :=
  if p.length > 0 then
    let pageOffset := addr &&& (PAGE_SIZE - 1)
    let pageRemain := PAGE_SIZE - pageOffset
    let chunk := min p.length pageRemain
    if u32 (addr + chunk) > s.config.endAddr then
      .done (none, rebuildIndexFromFlash { s with writeAddr := oldWriteAddr })
    else
      .take fun got =>
        if got then
          .perform (.pageProgram addr (p.take chunk)) fun (ok, flash) =>
            let s := s.takeSharedIo.withFlash flash
            .give
              (if ok then programPagesProgram s oldWriteAddr (u32 (addr + chunk)) (p.drop chunk)
              else .done (none, rebuildIndexFromFlash { s with writeAddr := oldWriteAddr }))
        else .done (none, s.takeSharedIo.rebuildIndexFromFlash)
  else .done (some addr, s)
termination_by p.length
decreasing_by
  have : addr &&& (PAGE_SIZE - 1) ≤ PAGE_SIZE - 1 := Nat.and_le_right
  simp only [List.length_drop, PAGE_SIZE] at this ⊢
  omega

/-- `append` with its takes of the mutex and its flash operations one by one. -/
def appendProgram (s : FlashLogStorage) (data : List UInt8) : IoProgram (Bool × FlashLogStorage) :=
  if !s.initialized then .done (false, s)
  else if data.length = 0 then .done (false, s)
  else if !s.lock then .done (false, s)
  else
    let oldWriteAddr := s.writeAddr
    if data.length > SECTOR_SIZE then .done (false, s)
    else
      let addr := s.appendAddress data.length
      (s.beginSectorProgram addr).bind fun
        | (false, s) => .done (false, s)
        | (true, s) =>
          (s.programPagesProgram oldWriteAddr addr data).bind fun
            | (none, s) => .done (false, s)
            | (some last, s) =>
              let s := { s with writeAddr := s.wrapAddress last }
              match s.isValidFrameAt addr with
              | none => .done (false, rebuildIndexFromFlash { s with writeAddr := oldWriteAddr })
              | some (header, _) => .done (true, s.updateIndexAfterAppend addr header)

def eraseSectorsProgram (s : FlashLogStorage) (endAddr addr : Nat) : IoProgram (Bool × FlashLogStorage) :=
  if addr < endAddr then
    .take fun got =>
      if got then
        .perform (.sectorErase addr) fun (ok, flash) =>
          let s := s.takeSharedIo.withFlash flash
          .give (if ok then eraseSectorsProgram s endAddr (addr + SECTOR_SIZE) else .done (false, s))
      else .done (false, s.takeSharedIo)
  else .done (true, s)
termination_by endAddr - addr
decreasing_by
  simp only [SECTOR_SIZE]
  omega

/-- `eraseLogArea` in the same way. -/
def eraseLogAreaProgram (s : FlashLogStorage) : IoProgram (Bool × FlashLogStorage) :=
  if !s.initialized then .done (false, s)
  else if !s.lock then .done (false, s)
  else
    (eraseSectorsProgram { s with maintenanceBusy := true } s.config.endAddr s.config.startAddr).bind fun
      | (false, s) => .done (false, s)
      | (true, s) =>
        .done (true, { s with
          maintenanceBusy := false
          writeAddr := s.config.startAddr
          oldestAddr := s.config.startAddr
          newestAddr := s.config.startAddr
          newestSeq := 0
          validFrameCount := 0 })

end FlashLogStorage

/-- The calls of the tasks that `main` starts, with the objects that it gives `shared_io_mutex`. -/
inductive IoCall where
  | adt7410Init (initialized : Bool)
  | adt7410ReadTemperature (initialized : Bool)
  | aqm0802Init
  | aqm0802Clear
  | aqm0802PrintLine (row : UInt8) (str : List UInt8)
  | bme280Init (cal : Bme280.Calibration)
  | bme280Read (cal : Bme280.Calibration)
  | append (s : FlashLogStorage) (data : List UInt8)
  | eraseLogArea (s : FlashLogStorage)

def adt7410 (initialized : Bool) : AEADT7410 := { address := 0x48, i2cMutex := true, initialized }

def aqm0802 : AQM0802 := { address := 0x3E, i2cMutex := true }

def bme280 (cal : Bme280.Calibration) : Bme280.BME280 := { address := 0x76, i2cMutex := true, cal }

/-- What a task does with the return value is left out. -/
def IoCall.program : IoCall → IoProgram Unit
  | .adt7410Init initialized => (adt7410 initialized).init.bind fun _ => .done ()
  | .adt7410ReadTemperature initialized => (adt7410 initialized).readTemperature.bind fun _ => .done ()
  | .aqm0802Init => aqm0802.init.bind fun _ => .done ()
  | .aqm0802Clear => aqm0802.clear.bind fun _ => .done ()
  | .aqm0802PrintLine row str => (aqm0802.printLine row str).bind fun _ => .done ()
  | .bme280Init cal => (bme280 cal).init.bind fun _ => .done ()
  | .bme280Read cal => (bme280 cal).read.bind fun _ => .done ()
  | .append s data => (s.appendProgram data).bind fun _ => .done ()
  | .eraseLogArea s => s.eraseLogAreaProgram.bind fun _ => .done ()

end PicoWLogger
