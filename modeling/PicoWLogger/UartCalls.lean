import PicoWLogger.UartDma
import PicoWLogger.Lib.Machine

/-! Calls of the transmit functions as tasks make them. A call runs from one critical section
to the next; what may happen in between is the steps of the machine: other calls, bytes moved
by the channel, its completion interrupt, and the kernel's own use of the interrupt enable. -/

namespace PicoWLogger

inductive CallResult where
  | void
  | bool (value : Bool)
  | count (value : UInt32)
  deriving DecidableEq

/-- A call in progress. `queueing` is the loop of `write_byte_blocking` over the rest of a
buffer, and `result` what the function around it returns. -/
inductive UartCall where
  | writeByte (b : UInt8)
  | writeFrame (data : ShortBuffer)
  | writeBuffer (rest : List UInt8)
  | queueing (rest : List UInt8) (result : CallResult)
  | writeFrameBlocking (frame : List UInt8)
  | startTxDmaIfNeeded
  | getTxByteDropCount
  | getTxDropFrameCount
  | getTxDropBytesCount

namespace UartCall

def writeByteBlocking (b : UInt8) : UartCall := .queueing [b] .void

def writeBufferBlocking (data : List UInt8) : UartCall := .queueing data .void

/-- `while(*s) write_byte(*s++)`. -/
def writeString (s : List UInt8) : UartCall := .writeBuffer (s.takeWhile (· ≠ 0))

end UartCall

/-- The state after a section, the bytes that it reported as accepted, and the rest of the
call or its result. -/
structure Progress where
  uart : UartDma
  accepted : List UInt8
  next : UartCall ⊕ CallResult

namespace UartDma

def advance (u : UartDma) : UartCall → Progress
  | .writeByte b =>
    let sent := u.writeByte b
    { uart := sent.2, accepted := if sent.1 then [b] else [], next := .inr (.bool sent.1) }
  | .writeFrame data =>
    let sent := u.writeFrame data
    { uart := sent.2, accepted := if sent.1 then data.val else [], next := .inr (.bool sent.1) }
  | .writeBuffer [] => { uart := u, accepted := [], next := .inr .void }
  | .writeBuffer (b :: rest) =>
    let sent := u.writeByte b
    { uart := sent.2, accepted := if sent.1 then [b] else [], next := .inl (.writeBuffer rest) }
  | .queueing [] result => { uart := u, accepted := [], next := .inr result }
  | .queueing (b :: rest) result =>
    let sent := u.writeByte b
    { uart := sent.2
      accepted := if sent.1 then [b] else []
      next := .inl (.queueing (if sent.1 then rest else b :: rest) result) }
  | .writeFrameBlocking frame =>
    if frame.length = 0 then { uart := u, accepted := [], next := .inr (.bool false) }
    else if frame.length > (u.txSize - 1).toNat then { uart := u, accepted := [], next := .inr (.bool false) }
    else
      let read := u.freeSpace
      if read.1.toNat ≥ frame.length then { uart := read.2, accepted := [], next := .inl (.queueing frame (.bool true)) }
      else { uart := read.2, accepted := [], next := .inl (.writeFrameBlocking frame) }
  | .startTxDmaIfNeeded => { uart := u.startTxDmaIfNeeded, accepted := [], next := .inr .void }
  | .getTxByteDropCount =>
    let read := u.getTxByteDropCount
    { uart := read.2, accepted := [], next := .inr (.count read.1) }
  | .getTxDropFrameCount =>
    let read := u.getTxDropFrameCount
    { uart := read.2, accepted := [], next := .inr (.count read.1) }
  | .getTxDropBytesCount =>
    let read := u.getTxDropBytesCount
    { uart := read.2, accepted := [], next := .inr (.count read.1) }

/-- What the hardware does on its own: the completion interrupt is taken only while
interrupts are enabled. -/
inductive HardwareAction where
  | moveByte
  | interrupt

def hardware (u : UartDma) : HardwareAction → Option UartDma
  | .moveByte => if u.channel.transCount = 0 then none else some u.moveByte
  | .interrupt => if u.interrupts && u.channel.irq then some u.dmaIrqTrampoline else none

inductive Waits : UartDma → UartDma → Prop where
  | now {u} : Waits u u
  | later {u v w action} (taken : u.hardware action = some v) (waits : Waits v w) : Waits u w

/-- The call made in the first state returns in the second, with hardware steps between
its sections. -/
inductive Returns : UartCall → UartDma → UartDma → Prop where
  | last {u call result} (returned : (u.advance call).next = .inr result) : Returns call u (u.advance call).uart
  | more {u v w call rest} (continued : (u.advance call).next = .inl rest) (waits : Waits (u.advance call).uart v)
      (returns : Returns rest v w) : Returns call u w

/-- One call after the other, each with the states in which it was entered and returned. Before
a call other code may leave the interrupt enable as it likes. -/
inductive Session : UartDma → List (UartCall × UartDma × UartDma) → Prop where
  | done {u} : Session u []
  | call {u v w call later} (enabled : Bool) (waits : Waits (u.restoreInterrupts enabled) v) (returns : Returns call v w)
      (session : Session w later) : Session u ((call, v, w) :: later)

/-- A `write_frame` entered with interrupts enabled that finds too little room. -/
def dropsEnabled (u : UartDma) : UartCall → Bool
  | .writeFrame data =>
    let len := UInt16.ofNat data.val.length
    u.interrupts && len != 0 && decide (len > u.txFreeSpaceLocked)
  | _ => false

end UartDma

structure UartSystem where
  uart : UartDma
  calls : List UartCall
  accepted : List UInt8

inductive UartAction where
  | enter (call : UartCall)
  | advance (index : Nat)
  | hardware (action : UartDma.HardwareAction)
  /-- Critical sections of the kernel or of other code begin or end. -/
  | kernel (enabled : Bool)

namespace UartSystem

def start (u : UartDma) : UartSystem where
  uart := u
  calls := []
  accepted := []

/-- The call at `index` runs its next section, and leaves the list when it returns. -/
def advance (s : UartSystem) (index : Nat) (call : UartCall) : UartSystem :=
  let progress := s.uart.advance call
  { uart := progress.uart
    calls := match progress.next with
      | .inl rest => s.calls.set index rest
      | .inr _ => s.calls.eraseIdx index
    accepted := s.accepted ++ progress.accepted }

def step (s : UartSystem) : UartAction → Option UartSystem
  | .enter call => some { s with calls := s.calls ++ [call] }
  | .advance index => s.calls[index]?.map (s.advance index)
  | .hardware action => (s.uart.hardware action).map fun uart => { s with uart := uart }
  | .kernel enabled => some { s with uart := s.uart.restoreInterrupts enabled }

end UartSystem

end PicoWLogger
