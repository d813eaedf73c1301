import PicoWLogger.Lib.LittleEndian

/-! `logger_viewer.py`: the host side that finds frames in a byte stream, parses them and
recomputes their CRC. Python's integers are `Nat`, and `bytes` are lists of `UInt8`. -/

namespace PicoWLogger.LoggerViewer
open LittleEndian

def MAGIC0 : UInt8 := 0xA5
def MAGIC1 : UInt8 := 0x5A
@[simp] def HEADER_LEN : Nat := 12
@[simp] def CRC_LEN : Nat := 4

structure LogFrame where
  seq : Nat
  eventId : Nat
  level : Nat
  length : Nat
  timestampUs : Nat
  payload : List UInt8
  crcRx : Nat
  crcCalc : Nat
  deriving DecidableEq

def LogFrame.crcOk (frame : LogFrame) : Bool := frame.crcRx == frame.crcCalc

/-- `start_monotonic` is left out. -/
structure Stats where
  ok : Nat := 0
  crcNg : Nat := 0
  seqGap : Nat := 0
  seqLate : Nat := 0
  seqDup : Nat := 0
  sync : Nat := 0
  totalBytes : Nat := 0
  expectedSeq : Option Nat := none
  deriving DecidableEq

/-- The bytes still to come from the port or the file, and how many of them each later
call of `read` finds ready. -/
structure ByteReader where
  stream : List UInt8
  ready : Nat → Nat

namespace ByteReader

def size (reader : ByteReader) (n : Nat) : Nat := min n (reader.ready 0)

/-- `reader.read(n)`: at most `n` bytes, and none when nothing is ready or the stream ended. -/
def read (reader : ByteReader) (n : Nat) : List UInt8 × ByteReader :=
  (reader.stream.take (reader.size n),
    ⟨reader.stream.drop (reader.size n), fun call => reader.ready (call + 1)⟩)

theorem read_split {reader later : ByteReader} {n : Nat} {data : List UInt8} (taken : reader.read n = (data, later)) :
    reader.stream = data ++ later.stream := by
  cases taken
  exact (List.take_append_drop _ _).symm

end ByteReader

/-- `u16le` and `u32le` are both `int.from_bytes(b, "little")`. -/
def u16le (b : List UInt8) : Nat := decode b
def u32le (b : List UInt8) : Nat := decode b

-- `binascii.crc32`
variable (crc32 : List UInt8 → Nat)

/-- The fields come from as many bytes as they are written to here, so no `to_bytes` overflows. -/
def calcCrc (seq eventId level length timestampUs : Nat) (payload : List UInt8) : Nat :=
  let buf := [MAGIC0, MAGIC1]
  let buf := buf ++ encode 4 seq
  let buf := buf ++ encode 2 eventId
  let buf := buf ++ encode 1 level
  let buf := buf ++ encode 1 length
  let buf := buf ++ encode 4 timestampUs
  let buf := buf ++ payload
  crc32 buf &&& 0xFFFFFFFF

def readExactLoop (reader : ByteReader) (n : Nat) (chunks : List UInt8) : Option (List UInt8) × ByteReader :=
  if chunks.length < n then
    match reader.read (n - chunks.length) with
    | ([], reader) => (none, reader)
    | (byte :: data, reader) => readExactLoop reader n (chunks ++ byte :: data)
  else (some chunks, reader)
termination_by n - chunks.length
decreasing_by
  simp only [List.length_append, List.length_cons]
  omega

def readExact (reader : ByteReader) (n : Nat) : Option (List UInt8) × ByteReader := readExactLoop reader n []

def syncLoop (reader : ByteReader) (stats : Stats) (prev : Option UInt8) : Bool × ByteReader × Stats :=
  match _ : reader.read 1 with
  | ([], reader) => (false, reader, stats)
  | (cur :: _, reader) =>
    let stats := { stats with totalBytes := stats.totalBytes + 1 }
    if prev = some MAGIC0 ∧ cur = MAGIC1 then (true, reader, { stats with sync := stats.sync + 1 })
    else syncLoop reader stats (some cur)
termination_by reader.stream.length
decreasing_by
  have shorter := congrArg List.length (ByteReader.read_split ‹_›)
  simp only [List.length_append, List.length_cons] at shorter
  omega

def syncToMagic (reader : ByteReader) (stats : Stats) : Bool × ByteReader × Stats := syncLoop reader stats none

def readFrame (reader : ByteReader) (stats : Stats) : Option LogFrame × ByteReader × Stats :=
  match syncToMagic reader stats with
  | (false, reader, stats) => (none, reader, stats)
  | (true, reader, stats) =>
    match readExact reader HEADER_LEN with
    | (none, reader) => (none, reader, stats)
    | (some header, reader) =>
      let stats := { stats with totalBytes := stats.totalBytes + header.length }
      let seq := u32le (header.take 4)
      let eventId := u16le ((header.drop 4).take 2)
      let level := (header.getD 6 0).toNat
      let length := (header.getD 7 0).toNat
      let timestampUs := u32le ((header.drop 8).take 4)
      match readExact reader length with
      | (none, reader) => (none, reader, stats)
      | (some payload, reader) =>
        let stats := { stats with totalBytes := stats.totalBytes + payload.length }
        match readExact reader CRC_LEN with
        | (none, reader) => (none, reader, stats)
        | (some crcBytes, reader) =>
          let stats := { stats with totalBytes := stats.totalBytes + crcBytes.length }
          let crcRx := u32le crcBytes
          let crcCalc := calcCrc crc32 seq eventId level length timestampUs payload
          (some ⟨seq, eventId, level, length, timestampUs, payload, crcRx, crcCalc⟩, reader, stats)

def readFrames : Nat → ByteReader → Stats → List (Option LogFrame)
  | 0, _, _ => []
  | count + 1, reader, stats =>
    let (frame, reader, stats) := readFrame crc32 reader stats
    frame :: readFrames count reader stats

/-- The answer is `seq_ok` and the note printed with it. -/
def updateSeqStats (frame : LogFrame) (stats : Stats) : (Bool × String) × Stats :=
  match stats.expectedSeq with
  | none => ((true, "1"), { stats with expectedSeq := some (frame.seq + 1) })
  | some expected =>
    if frame.seq = expected then ((true, "1"), { stats with expectedSeq := some (expected + 1) })
    else if frame.seq > expected then
      let gap := frame.seq - expected
      ((false, "gap=" ++ toString gap),
        { stats with seqGap := stats.seqGap + gap, expectedSeq := some (frame.seq + 1) })
    else if frame.seq = expected - 1 then ((false, "dup"), { stats with seqDup := stats.seqDup + 1 })
    else ((false, "late"), { stats with seqLate := stats.seqLate + 1 })

/-- What the receive loop counts for a frame. A broken number is no basis for the next. -/
def countFrame (stats : Stats) (frame : LogFrame) : Stats :=
  if frame.crcOk then (updateSeqStats frame { stats with ok := stats.ok + 1 }).2
  else { stats with crcNg := stats.crcNg + 1, expectedSeq := none }

end PicoWLogger.LoggerViewer
