import Mathlib.Data.UInt
import Mathlib.Logic.Function.Basic

/-! `UartDma.cpp`, the transmit side: a byte ring filled by tasks inside critical sections
and drained by DMA transfers, the completion interrupt of each one starting the next. The
state holds, with the object, the DMA channel and the interrupt enable that it works on. -/

namespace PicoWLogger

/-- The transmit channel. `readAddr` counts from `tx_buf_`; `irq` is its bit of `ints0`. The
transfers started and the bytes moved so far are kept for the statements. -/
structure DmaChannel where
  readAddr : Nat
  transCount : Nat
  irq : Bool
  started : List (Nat × Nat)
  wire : List UInt8

/-- `dma_channel_set_read_addr` and a triggering `dma_channel_set_trans_count`. -/
def DmaChannel.start (channel : DmaChannel) (readAddr transCount : Nat) : DmaChannel :=
  { channel with readAddr, transCount, started := channel.started ++ [(readAddr, transCount)] }

abbrev ShortBuffer := { data : List UInt8 // data.length < 65536 }

structure UartDma where
  txSize : UInt32
  txBuf : Nat → UInt8
  txHead : UInt16
  txTail : UInt16
  txDmaRunning : Bool
  txDmaActiveCount : UInt32
  txByteFullCount : UInt32
  txDropFrameCount : UInt32
  txDropBytesCount : UInt32
  TX_DMA_CHUNK_MAX : UInt32
  channel : DmaChannel
  interrupts : Bool

namespace UartDma

/-- The object after the constructor and `init`. -/
def new (txSize : UInt32) (txBuf : Nat → UInt8) : UartDma where
  txSize := txSize
  txBuf := txBuf
  txHead := 0
  txTail := 0
  txDmaRunning := false
  txDmaActiveCount := 0
  txByteFullCount := 0
  txDropFrameCount := 0
  txDropBytesCount := 0
  TX_DMA_CHUNK_MAX := 1024
  channel := { readAddr := 0, transCount := 0, irq := false, started := [], wire := [] }
  interrupts := true

/-- `save_and_disable_interrupts`, whose result is the old `interrupts`. -/
def disableInterrupts (u : UartDma) : UartDma := { u with interrupts := false }

def restoreInterrupts (u : UartDma) (save : Bool) : UartDma := { u with interrupts := save }

/-- An index taken modulo the ring and stored into a `uint16_t`. -/
def masked (u : UartDma) (index : UInt32) : UInt16 := (index &&& (u.txSize - 1)).toUInt16

def txFreeSpaceLocked (u : UartDma) : UInt16 := u.masked (u.txTail.toUInt32 - u.txHead.toUInt32 - 1)

/-- `tx_buf_[tx_head_] = b` and the step of the head behind it. -/
def pushByteLocked (u : UartDma) (b : UInt8) : UartDma :=
  { u with
    txBuf := Function.update u.txBuf u.txHead.toNat b
    txHead := u.masked (u.txHead.toUInt32 + 1) }

def pushBytesLocked (u : UartDma) (data : List UInt8) : UartDma := data.foldl pushByteLocked u

def contiguous (u : UartDma) : UInt32 :=
  if u.txHead ≥ u.txTail then u.txHead.toUInt32 - u.txTail.toUInt32 else u.txSize - u.txTail.toUInt32

/-- The flag, the active count and the DMA registers for a transfer from the tail. -/
def launch (u : UartDma) (count : UInt32) : UartDma :=
  let count := if count > u.TX_DMA_CHUNK_MAX then u.TX_DMA_CHUNK_MAX else count
  { u with
    txDmaRunning := true
    txDmaActiveCount := count
    channel := u.channel.start u.txTail.toNat count.toNat }

def startTxDmaLocked (u : UartDma) : UartDma :=
  if u.txDmaRunning || u.txTail == u.txHead then u else u.launch u.contiguous

def startTxDmaIfNeededIsr (u : UartDma) : UartDma :=
  if u.txDmaRunning || u.txTail == u.txHead then u
  else if u.contiguous = 0 then u
  else u.launch u.contiguous

def startTxDmaIfNeeded (u : UartDma) : UartDma :=
  let irqState := u.interrupts
  let locked := u.disableInterrupts
  if locked.txDmaRunning || locked.txTail == locked.txHead then locked.restoreInterrupts irqState
  else if locked.contiguous = 0 then locked.restoreInterrupts irqState
  else (locked.launch locked.contiguous).restoreInterrupts irqState

/-- The exit of a frame that does not fit comes before `restore_interrupts`. -/
def writeFrame (u : UartDma) (data : ShortBuffer) : Bool × UartDma :=
  let len := UInt16.ofNat data.val.length
  if len = 0 then (false, u)
  else
    let save := u.interrupts
    let locked := u.disableInterrupts
    if len > locked.txFreeSpaceLocked then
      (false,
        { locked with
          txDropFrameCount := locked.txDropFrameCount + 1
          txDropBytesCount := locked.txDropBytesCount + len.toUInt32 })
    else (true, ((locked.pushBytesLocked data.val).startTxDmaLocked).restoreInterrupts save)

def writeByte (u : UartDma) (b : UInt8) : Bool × UartDma :=
  let save := u.interrupts
  let locked := u.disableInterrupts
  if locked.masked (locked.txHead.toUInt32 + 1) = locked.txTail then
    (false, { locked with txByteFullCount := locked.txByteFullCount + 1 }.restoreInterrupts save)
  else (true, ((locked.pushByteLocked b).startTxDmaLocked).restoreInterrupts save)

/-- A counter read between `save_and_disable_interrupts` and `restore_interrupts`. -/
def readLocked (u : UartDma) (counter : UartDma → UInt32) : UInt32 × UartDma :=
  let save := u.interrupts
  let locked := u.disableInterrupts
  (counter locked, locked.restoreInterrupts save)

def getTxByteDropCount (u : UartDma) : UInt32 × UartDma := u.readLocked txByteFullCount

def getTxDropFrameCount (u : UartDma) : UInt32 × UartDma := u.readLocked txDropFrameCount

def getTxDropBytesCount (u : UartDma) : UInt32 × UartDma := u.readLocked txDropBytesCount

/-- The critical section of the waiting loop of `write_frame_blocking`. -/
def freeSpace (u : UartDma) : UInt16 × UartDma :=
  let save := u.interrupts
  let locked := u.disableInterrupts
  (locked.txFreeSpaceLocked, locked.restoreInterrupts save)

def dmaIrqHandler (u : UartDma) : UartDma :=
  let sent := u.txDmaActiveCount
  let freed :=
    if sent ≠ 0 then { u with txTail := u.masked (u.txTail.toUInt32 + sent), txDmaActiveCount := 0 } else u
  startTxDmaIfNeededIsr { freed with txDmaRunning := false }

/-- The interrupt of the channel: the pending bit is cleared, then the handler runs. -/
def dmaIrqTrampoline (u : UartDma) : UartDma :=
  dmaIrqHandler { u with channel := { u.channel with irq := false } }

/-- The channel moves one byte to the UART and raises its interrupt after the last one. -/
def moveByte (u : UartDma) : UartDma :=
  { u with
    channel :=
      { u.channel with
        readAddr := u.channel.readAddr + 1
        transCount := u.channel.transCount - 1
        irq := u.channel.irq || u.channel.transCount == 1
        wire := u.channel.wire ++ [u.txBuf u.channel.readAddr] } }

end UartDma

end PicoWLogger
