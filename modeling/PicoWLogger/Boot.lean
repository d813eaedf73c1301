import PicoWLogger.PowerCut
import PicoWLogger.EventLogger

/-! The logger over power cycles. When the supply returns, `main` initialises the log and lets the
sequence counter go on behind the newest stored frame. Each event draws a number, whether or not
its frame gets as far as the flash. -/

namespace PicoWLogger

/-- A log request that passes the length check of `makeEvent`. -/
abbrev Loggable := { request : LogRequest // request.len.toNat ≤ LOG_PAYLOAD_MAX }

def Loggable.event (request : Loggable) (seq timestampUs : UInt32) : Record :=
  request.val.event request.property seq timestampUs

inductive DeviceStep where
  | store (request : Loggable) (timestampUs : UInt32)
  /-- The queue or the UART refuses an event that has its number. -/
  | drop
  /-- The supply fails after so many cell operations of the append, none when it fails before, and `main`
  starts again. -/
  | cut (request : Loggable) (timestampUs : UInt32) (budget : Nat)

structure Device where
  history : LogHistory
  logger : EventLogger

namespace Device

/-- `main` up to the start of the tasks, once the log is initialised. -/
def boot (history : LogHistory) : Device where
  history := history
  logger := EventLogger.restoreSeq (.new 0) history.storage

def powerOn (s : FlashLogStorage) : Device := boot (.start (s.init true).2)

def step (d : Device) : DeviceStep → Device
  | .store request timestampUs =>
    let drawn := d.logger.nextSeq
    { history := d.history.step (.append (request.event drawn.1 timestampUs)), logger := drawn.2 }
  | .drop => { d with logger := d.logger.nextSeq.2 }
  | .cut request timestampUs budget =>
    boot (d.history.step (.cut (request.event d.logger.nextSeq.1 timestampUs) budget))

def run (d : Device) (steps : List DeviceStep) : Device := steps.foldl step d

end Device

end PicoWLogger
