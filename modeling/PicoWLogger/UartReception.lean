import PicoWLogger.UartReceive
import PicoWLogger.Lib.Machine

/-! Reception as one task sees it: between the steps of its calls of `read_byte` and
`read_bytes` bytes arrive, and the channel writes them to the ring. -/

namespace PicoWLogger

/-- A call in progress; `dst` holds `count` bytes. -/
inductive ReadCall where
  | readByte
  | readBytes (maxlen : Int32) (dst : List UInt8)

inductive ReadResult where
  | byte (value : Int32)
  | bytes (maxlen : Int32) (dst : List UInt8)

/-- A call that has returned. `unread` are the bytes that had been received when it last looked at
the write address and are not taken at its end. -/
structure ReadReturn where
  result : ReadResult
  unread : List UInt8

/-- `read_byte` compares the positions, then takes the byte; `seen` are the bytes received up to the comparison. -/
inductive Reader where
  | idle
  | looking (call : ReadCall)
  | taking (call : ReadCall) (seen : List UInt8)

/-- The receive side with its reader. `moved` are the bytes that the channel has written, `taken` of
them taken; the channel leaves in the FIFO what arrives after its last transfer. -/
structure Reception where
  rx : UartRx
  moved : List UInt8
  fifo : List UInt8
  taken : Nat
  reader : Reader
  returns : List ReadReturn

inductive ReceptionAction where
  | receive (b : UInt8)
  | readByte
  | readBytes (maxlen : Int32)
  | look
  | take

/-- What follows on a result of `read_byte`: its caller's return, or another turn of the loop of `read_bytes`. -/
def ReadCall.deliver (call : ReadCall) (b : Int32) : Reader × Option ReadResult :=
  match call with
  | .readByte => (.idle, some (.byte b))
  | .readBytes maxlen dst =>
    if b < 0 then (.idle, some (.bytes maxlen dst))
    else
      let dst := dst ++ [b.toUInt32.toUInt8]
      if dst.length < maxlen.toInt then (.looking (.readBytes maxlen dst), none) else (.idle, some (.bytes maxlen dst))

namespace Reception

def start (rx : UartRx) : Reception where
  rx := rx
  moved := []
  fifo := []
  taken := 0
  reader := .idle
  returns := []

def received (s : Reception) : List UInt8 := s.moved ++ s.fifo

def deliver (s : Reception) (call : ReadCall) (b : Int32) (seen : List UInt8) : Reception :=
  { s with
    reader := (call.deliver b).1
    returns := s.returns ++ (call.deliver b).2.toList.map fun result => ⟨result, seen.drop s.taken⟩ }

/-- The channel is never to be more than `rx_size - 1` bytes ahead of the reader. -/
def step (s : Reception) : ReceptionAction → Option Reception
  | .receive b =>
    if s.rx.channel.transCount = 0 then some { s with fifo := s.fifo ++ [b] }
    else if s.moved.length + 1 ≤ s.taken + (s.rx.rxSize.toNat - 1) then
      some { s with rx := s.rx.transfer b, moved := s.moved ++ [b] }
    else none
  | .readByte =>
    match s.reader with
    | .idle => some { s with reader := .looking .readByte }
    | _ => none
  | .readBytes maxlen =>
    match s.reader with
    | .idle =>
      if 0 < maxlen then some { s with reader := .looking (.readBytes maxlen []) }
      else some { s with returns := s.returns ++ [⟨.bytes maxlen [], s.received.drop s.taken⟩] }
    | _ => none
  | .look =>
    match s.reader with
    | .looking call =>
      if s.rx.empty then some (s.deliver call (-1) s.received) else some { s with reader := .taking call s.received }
    | _ => none
  | .take =>
    match s.reader with
    | .taking call seen =>
      some ({ s with rx := s.rx.takeByte.2, taken := s.taken + 1 }.deliver call s.rx.takeByte.1 seen)
    | _ => none

end Reception

end PicoWLogger
