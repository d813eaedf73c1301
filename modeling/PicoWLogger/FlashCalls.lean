import PicoWLogger.PowerCut

/-! The calls that change the flash log: `init` at the start, appends of the logger task, the erase
of the command task, and restarts. The sensor tasks look at the maintenance flag between their turns. -/

namespace PicoWLogger

inductive FlashCall where
  | init (created : Bool)
  | append (record : Record)
  | eraseLogArea
  /-- The supply fails after so many cell operations of an append, then a restart. -/
  | cut (record : Record) (budget : Nat)

inductive StorageCall where
  | init (created : Bool)
  | eraseLogArea
  | append (data : List UInt8)
  | restoreWriteAddress

inductive SensorTurn where
  | skipped
  | measured
  deriving DecidableEq

namespace FlashLogStorage

def call (s : FlashLogStorage) : FlashCall → FlashLogStorage
  | .init created => (s.init created).2
  | .append record => (s.append record.frame).2
  | .eraseLogArea => s.eraseLogArea.2
  | .cut record budget => s.cutAppend budget record.frame

def callAll (s : FlashLogStorage) (calls : List FlashCall) : FlashLogStorage := calls.foldl call s

def storageCall (s : FlashLogStorage) : StorageCall → FlashLogStorage
  | .init created => (s.init created).2
  | .eraseLogArea => s.eraseLogArea.2
  | .append data => (s.append data).2
  | .restoreWriteAddress => s.restoreWriteAddress.2

def storageCalls (s : FlashLogStorage) (calls : List StorageCall) : FlashLogStorage := calls.foldl storageCall s

def isFlashMaintenanceBusy (s : FlashLogStorage) : Bool := s.maintenanceBusy

/-- The busy check at the head of a sensor task's loop. -/
def sensorTurn (s : FlashLogStorage) : SensorTurn := if s.isFlashMaintenanceBusy then .skipped else .measured

def temperatureTask (s : FlashLogStorage) : SensorTurn := s.sensorTurn

def environmentTask (s : FlashLogStorage) : SensorTurn := s.sensorTurn

end FlashLogStorage

end PicoWLogger
