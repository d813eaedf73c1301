import PicoWLogger.UartDma

/-! `UartDma.cpp`, the constructor, `init` and the receive side: a DMA channel writes what
arrives around a ring in memory, and the reader follows its write address. -/

namespace PicoWLogger

/-- The fields of a `dma_channel_config` that `init` sets. `ringBits` is 0 without a ring. -/
structure ChannelConfig where
  readIncrement : Bool
  writeIncrement : Bool
  ringBits : UInt32
  deriving DecidableEq

/-- The receive channel with the registers that transfers change. -/
structure RxChannel where
  config : ChannelConfig
  writeAddr : UInt32
  transCount : UInt32
  deriving DecidableEq

/-- The write address behind a transfer: in a ring its lowest bits alone change. -/
def RxChannel.nextAddr (channel : RxChannel) : UInt32 :=
  if channel.config.writeIncrement then
    if channel.config.ringBits = 0 then channel.writeAddr + 1
    else
      let mask := ((1 : UInt32) <<< channel.config.ringBits) - 1
      channel.writeAddr - (channel.writeAddr &&& mask) + ((channel.writeAddr + 1) &&& mask)
  else channel.writeAddr

structure UartRx where
  rxBuf : UInt32
  rxSize : UInt32
  rxReadPos : Int16
  dropFirstRxByte : Bool
  channel : RxChannel
  memory : UInt32 → UInt8

namespace UartRx

def transfer (rx : UartRx) (b : UInt8) : UartRx :=
  { rx with
    memory := Function.update rx.memory rx.channel.writeAddr b
    channel := { rx.channel with writeAddr := rx.channel.nextAddr, transCount := rx.channel.transCount - 1 } }

/-- `uint16_t pos`, from the write address. -/
def pos (rx : UartRx) : UInt16 := ((rx.channel.writeAddr - rx.rxBuf) &&& (rx.rxSize - 1)).toUInt16

/-- `pos == rx_read_pos_`, both promoted to `int`. -/
def empty (rx : UartRx) : Bool := decide ((rx.pos.toNat : Int) = rx.rxReadPos.toInt)

/-- `(rx_read_pos_ + 1) & (rx_size_ - 1)`, stored into an `int16_t`. -/
def nextReadPos (rx : UartRx) : Int16 := ((rx.rxReadPos.toInt32 + 1).toUInt32 &&& (rx.rxSize - 1)).toUInt16.toInt16

/-- `rx_buf_[rx_read_pos_]`. -/
def current (rx : UartRx) : UInt8 := rx.memory (rx.rxBuf + rx.rxReadPos.toInt32.toUInt32)

/-- `read_byte` behind the comparison of the positions. -/
def takeByte (rx : UartRx) : Int32 × UartRx :=
  let b := rx.current
  let rx := { rx with rxReadPos := rx.nextReadPos }
  if rx.dropFirstRxByte then
    let rx := { rx with dropFirstRxByte := false }
    if b = 0x00 ∨ b = 0xFF then (-1, rx) else (Int32.ofNat b.toNat, rx)
  else (Int32.ofNat b.toNat, rx)

end UartRx

/-- An aligned address behind the pointer `raw` that `malloc` returned. -/
def alignedAddress (raw alignment : UInt32) : UInt32 :=
  let rawAddr := raw + 4
  (rawAddr + (alignment - 1)) &&& ~~~(alignment - 1)

/-- The pointer is stored in front of the aligned address. `none` is the fault of that store, at an address
where the memory `storable` takes no word. -/
def alignedAllocForDma (storable : UInt32 → Bool) (raw alignment : UInt32) : Option UInt32 :=
  if raw = 0 then some 0
  else
    let aligned := alignedAddress raw alignment
    let store := aligned - 4
    if storable store then some aligned else none

def isPowerOfTwo (x : UInt32) : Bool := x != 0 && (x &&& (x - 1)) == 0

/-- `__builtin_ctz`. -/
def ctz (x : UInt32) : UInt32 := UInt32.ofBitVec x.toBitVec.ctz

/-- A `UartDma` object as a whole. The channels are there once they are configured. -/
structure UartObject where
  tx : UartDma
  rxBuf : UInt32
  rxSize : UInt32
  rxReadPos : Int16
  dropFirstRxByte : Bool
  inited : Bool
  rxChannel : Option RxChannel
  txChannel : Option ChannelConfig

namespace UartObject

/-- The fields as the constructor leaves them; `chunkMax` is in one that it does not set. -/
def fresh (txSize rxSize rxBuf : UInt32) (txBuf : Nat → UInt8) (chunkMax : UInt32) : UartObject where
  tx := { UartDma.new txSize txBuf with TX_DMA_CHUNK_MAX := chunkMax }
  rxBuf := rxBuf
  rxSize := rxSize
  rxReadPos := 0
  dropFirstRxByte := true
  inited := false
  rxChannel := none
  txChannel := none

/-- The constructor, for what `malloc` returned to it. There is no object when a store faults. The ring of
`tx` is indexed from `tx_buf_`, so that the address itself is in no field. -/
def new (storable : UInt32 → Bool) (txSize rxSize rxRaw txRaw : UInt32) (txBuf : Nat → UInt8) (chunkMax : UInt32) :
    Option UartObject := do
  let rxBuf ← alignedAllocForDma storable rxRaw rxSize
  let _txBuf ← alignedAllocForDma storable txRaw txSize
  return fresh txSize rxSize rxBuf txBuf chunkMax

/-- `init` without assertions: sizes that it does not take also end in `return true`. -/
def init (o : UartObject) : Bool × UartObject :=
  if o.inited then (false, o)
  else if o.rxSize < 2 || o.rxSize > 32768 || !isPowerOfTwo o.rxSize || !isPowerOfTwo o.tx.txSize then (true, o)
  else
    (true,
      { o with
        rxChannel := some
          { config := { readIncrement := false, writeIncrement := true, ringBits := ctz o.rxSize }
            writeAddr := o.rxBuf
            transCount := 0xffffffff }
        txChannel := some { readIncrement := true, writeIncrement := false, ringBits := 0 }
        inited := true
        tx := { o.tx with txByteFullCount := 0, TX_DMA_CHUNK_MAX := 1024 } })

def rx (o : UartObject) (memory : UInt32 → UInt8) : Option UartRx :=
  o.rxChannel.map fun channel =>
    { rxBuf := o.rxBuf
      rxSize := o.rxSize
      rxReadPos := o.rxReadPos
      dropFirstRxByte := o.dropFirstRxByte
      channel := channel
      memory := memory }

end UartObject

end PicoWLogger
