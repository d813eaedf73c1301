import PicoWLogger.FlashLogStorage

/-! `EventLogger.cpp`: the sequence counter and the statistics, the events made from log
requests, and the critical sections in which they are changed. -/

namespace PicoWLogger

/-- The arguments of `log` and `logFromISR`; `none` is a null `data`. -/
structure LogRequest where
  level : LogLevel
  eventId : EventId
  data : Option (Nat → UInt8)
  len : UInt16

namespace LogRequest

def payload (request : LogRequest) : Vector UInt8 LOG_PAYLOAD_MAX :=
  Vector.ofFn fun i =>
    match request.data with
    | some data => if i.val < request.len.toNat then data i else 0
    | none => 0

/-- The event of a request that passed the length check of `makeEvent`. -/
def event (request : LogRequest) (fits : request.len.toNat ≤ LOG_PAYLOAD_MAX) (seq timestampUs : UInt32) : Record where
  val :=
    { seq
      eventId := request.eventId
      level := request.level
      length := request.len.toUInt8
      timestampUs
      payload := request.payload }
  property := by
    have small : request.len.toUInt8.toNat = request.len.toNat := by
      rw [UInt16.toNat_toUInt8]
      simp only [LOG_PAYLOAD_MAX] at fits
      exact Nat.mod_eq_of_lt (by omega)
    rw [small]
    exact fits

/-- What `logf` passes on to `log`: the text that `vsnprintf` left in a buffer of
`LOG_PAYLOAD_MAX` bytes. -/
def text (level : LogLevel) (text : List UInt8) : LogRequest where
  level := level
  eventId := EventId.TEXT_LOG
  data := some fun i => text.getD i 0
  len := UInt16.ofNat (min text.length (LOG_PAYLOAD_MAX - 1))

end LogRequest

structure EventLogger where
  seq : UInt32
  dropCount : UInt32
  enqueueOkCount : UInt32
  uartTxCount : UInt32
  uartTxBytes : UInt32
  highWaterMark : UInt32
  deriving DecidableEq

namespace EventLogger
open LittleEndian

/-- The constructor, and the `setNextSeq` of `main` when the log held frames. -/
def new (seq : UInt32) : EventLogger where
  seq := seq
  dropCount := 0
  enqueueOkCount := 0
  uartTxCount := 0
  uartTxBytes := 0
  highWaterMark := 0

def nextSeq (l : EventLogger) : UInt32 × EventLogger := (l.seq, { l with seq := l.seq + 1 })

def setNextSeq (l : EventLogger) (seq : UInt32) : EventLogger := { l with seq }

/-- `main`, once the log and the logger are initialised. -/
def restoreSeq (l : EventLogger) (storage : FlashLogStorage) : EventLogger :=
  if storage.validFrameCount > 0 then l.setNextSeq (storage.newestSeq + 1) else l

def incrementDropCount (l : EventLogger) : EventLogger := { l with dropCount := l.dropCount + 1 }

/-- The last critical section of `log` after a successful send; `logFromISR` leaves the
high-water mark alone. -/
def countEnqueued (l : EventLogger) (isr : Bool) (used : UInt32) : EventLogger :=
  let counted := { l with enqueueOkCount := l.enqueueOkCount + 1 }
  if isr then counted else if used > counted.highWaterMark then { counted with highWaterMark := used } else counted

/-- The last critical section of `sendBinary`. -/
def countSent (l : EventLogger) (frameLen : Nat) : EventLogger :=
  { l with uartTxCount := l.uartTxCount + 1, uartTxBytes := l.uartTxBytes + UInt32.ofNat frameLen }

/-- `LoggerStatsPayloadV1` of a snapshot of the counters. -/
def statsPayload (l : EventLogger) : List UInt8 :=
  [1, 0] ++ encode 2 0 ++ encode 4 l.enqueueOkCount.toNat ++ encode 4 l.dropCount.toNat ++
    encode 4 l.uartTxCount.toNat ++ encode 4 l.uartTxBytes.toNat ++ encode 4 l.highWaterMark.toNat

/-- What `sendStats` passes on to `log`. -/
def statsRequest (l : EventLogger) : LogRequest where
  level := LogLevel.INFO
  eventId := EventId.LOGGER_STATS
  data := some fun i => l.statsPayload.getD i 0
  len := UInt16.ofNat l.statsPayload.length

end EventLogger

end PicoWLogger
