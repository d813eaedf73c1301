import PicoWLogger.Crc32
import PicoWLogger.Lib.LittleEndian

/-! `LogTypes.h`, `EventId.h`, `LogProtocol.h` and `EventLogger::buildFrame`: the
event record, the packed frame header and the wire frame built from an event. -/

namespace PicoWLogger

@[simp] def LOG_PAYLOAD_MAX : Nat := 64
def LOG_FRAME_MAGIC : List UInt8 := [0xA5, 0x5A]
@[simp] def LOG_FRAME_MAGIC_SIZE : Nat := 2
@[simp] def LOG_FRAME_HEADER_SIZE : Nat := 12
@[simp] def LOG_FRAME_MAX_PAYLOAD : Nat := LOG_PAYLOAD_MAX
@[simp] def LOG_FRAME_CRC_SIZE : Nat := 4
@[simp] def LOG_FRAME_MAX_SIZE : Nat :=
  LOG_FRAME_MAGIC_SIZE + LOG_FRAME_HEADER_SIZE + LOG_FRAME_MAX_PAYLOAD + LOG_FRAME_CRC_SIZE

/-- `enum class EventId : uint16_t`. A variable of the type holds any 16-bit value;
the enumerators are names for some of them. -/
abbrev EventId := UInt16

namespace EventId
def TEXT_LOG : EventId := 200
def LOGGER_STATS : EventId := 210
end EventId

/-- `enum class LogLevel : uint8_t`, likewise any 8-bit value. -/
abbrev LogLevel := UInt8

namespace LogLevel
def INFO : LogLevel := 0
def WARN : LogLevel := 1
def ERROR : LogLevel := 2
end LogLevel

structure LogEvent where
  seq : UInt32
  eventId : EventId
  level : LogLevel
  length : UInt8
  timestampUs : UInt32
  payload : Vector UInt8 LOG_PAYLOAD_MAX
  deriving DecidableEq

/-- The packed struct of twelve bytes, fields in declaration order. -/
structure LogFrameHeader where
  seq : UInt32
  eventId : UInt16
  level : UInt8
  length : UInt8
  timestampUs : UInt32
  deriving DecidableEq

namespace LogFrameHeader
open LittleEndian

/-- `memcpy(buf, &header, sizeof(header))` on a little-endian core. -/
def toBytes (header : LogFrameHeader) : List UInt8 :=
  encode 4 header.seq.toNat ++ encode 2 header.eventId.toNat ++ [header.level] ++ [header.length] ++
    encode 4 header.timestampUs.toNat

/-- `memcpy(&header, buf, sizeof(header))`. -/
def ofBytes (bytes : List UInt8) : LogFrameHeader where
  seq := UInt32.ofNat (decode (bytes.take 4))
  eventId := UInt16.ofNat (decode ((bytes.drop 4).take 2))
  level := bytes.getD 6 0
  length := bytes.getD 7 0
  timestampUs := UInt32.ofNat (decode ((bytes.drop 8).take 4))

@[simp] theorem length_toBytes (header : LogFrameHeader) : header.toBytes.length = LOG_FRAME_HEADER_SIZE := by
  simp [toBytes, LOG_FRAME_HEADER_SIZE]

theorem toBytes_ofBytes (bytes : List UInt8) (size : bytes.length = LOG_FRAME_HEADER_SIZE) :
    (ofBytes bytes).toBytes = bytes := by
  obtain ⟨b0, b1, b2, b3, b4, b5, b6, b7, b8, b9, b10, b11, rfl⟩ :
      ∃ b0 b1 b2 b3 b4 b5 b6 b7 b8 b9 b10 b11, bytes = [b0, b1, b2, b3, b4, b5, b6, b7, b8, b9, b10, b11] := by
    match bytes, size with
    | [b0, b1, b2, b3, b4, b5, b6, b7, b8, b9, b10, b11], _ => exact ⟨b0, b1, b2, b3, b4, b5, b6, b7, b8, b9, b10, b11, rfl⟩
  have word (a b c d : UInt8) : encode 4 (decode [a, b, c, d] % 4294967296) = [a, b, c, d] := by
    have fits : decode [a, b, c, d] < 4294967296 := by simpa using decode_lt [a, b, c, d]
    rw [Nat.mod_eq_of_lt fits]
    exact encode_decode [a, b, c, d]
  have half (a b : UInt8) : encode 2 (decode [a, b] % 65536) = [a, b] := by
    have fits : decode [a, b] < 65536 := by simpa using decode_lt [a, b]
    rw [Nat.mod_eq_of_lt fits]
    exact encode_decode [a, b]
  simp [toBytes, ofBytes, word, half]

theorem toBytes_slices (header : LogFrameHeader) :
    header.toBytes.take 4 = encode 4 header.seq.toNat ∧ (header.toBytes.drop 4).take 2 = encode 2 header.eventId.toNat ∧
      header.toBytes.getD 6 0 = header.level ∧ header.toBytes.getD 7 0 = header.length ∧
      (header.toBytes.drop 8).take 4 = encode 4 header.timestampUs.toNat := by
  have first : (encode 4 header.seq.toNat).drop 8 = [] := List.drop_eq_nil_of_le (by simp)
  have second : (encode 2 header.eventId.toNat).drop 4 = [] := List.drop_eq_nil_of_le (by simp)
  have third : (encode 4 header.timestampUs.toNat).take 4 = encode 4 header.timestampUs.toNat :=
    List.take_of_length_le (by simp)
  refine ⟨?_, ?_, ?_, ?_, ?_⟩
  · simp [toBytes]
  · simp [toBytes]
  · simp [toBytes]
  · simp [toBytes]
  · simp [toBytes, List.drop_append, first, second, third]

theorem decode_seq (header : LogFrameHeader) : decode (encode 4 header.seq.toNat) = header.seq.toNat :=
  decode_encode_of_lt header.seq.toNat_lt

theorem decode_eventId (header : LogFrameHeader) : decode (encode 2 header.eventId.toNat) = header.eventId.toNat :=
  decode_encode_of_lt header.eventId.toNat_lt

theorem decode_timestampUs (header : LogFrameHeader) :
    decode (encode 4 header.timestampUs.toNat) = header.timestampUs.toNat :=
  decode_encode_of_lt header.timestampUs.toNat_lt

theorem ofBytes_toBytes (header : LogFrameHeader) : ofBytes header.toBytes = header := by
  obtain ⟨seq, eventId, level, length, timestamp⟩ := header.toBytes_slices
  rw [ofBytes, seq, eventId, level, length, timestamp, decode_seq, decode_eventId, decode_timestampUs,
    UInt32.ofNat_toNat, UInt16.ofNat_toNat, UInt32.ofNat_toNat]

end LogFrameHeader

namespace LogEvent
open LittleEndian

def header (event : LogEvent) : LogFrameHeader where
  seq := event.seq
  eventId := event.eventId
  level := event.level
  length := event.length
  timestampUs := event.timestampUs

def data (event : LogEvent) : List UInt8 := event.payload.toList.take event.length.toNat

/-- Magic, header and payload: the bytes the CRC covers. -/
def body (event : LogEvent) : List UInt8 := LOG_FRAME_MAGIC ++ event.header.toBytes ++ event.data

def frame (event : LogEvent) : List UInt8 :=
  event.body ++ encode LOG_FRAME_CRC_SIZE (Crc32.calculate event.body).toNat

/-- `EventLogger::buildFrame`; `none` is the return value 0. -/
def buildFrame (event : LogEvent) (outBufSize : Nat) : Option (List UInt8) :=
  if event.length.toNat > LOG_FRAME_MAX_PAYLOAD then none
  else
    let frameSize := LOG_FRAME_MAGIC_SIZE + LOG_FRAME_HEADER_SIZE + event.length.toNat + LOG_FRAME_CRC_SIZE
    if outBufSize < frameSize then none
    else if event.frame.length ≠ frameSize then none
    else some event.frame

end LogEvent

/-- An event whose length fits the payload array, as `makeEvent` ensures. -/
abbrev Record := { event : LogEvent // event.length.toNat ≤ LOG_FRAME_MAX_PAYLOAD }

namespace Record

def header (record : Record) : LogFrameHeader := record.val.header

def frame (record : Record) : List UInt8 := record.val.frame

def seq (record : Record) : UInt32 := record.val.seq

def size (record : Record) : Nat :=
  LOG_FRAME_MAGIC_SIZE + LOG_FRAME_HEADER_SIZE + record.val.length.toNat + LOG_FRAME_CRC_SIZE

theorem size_pos (record : Record) : 0 < record.size := by simp [size]

theorem size_le (record : Record) : record.size ≤ LOG_FRAME_MAX_SIZE := by
  have := record.property
  simp only [size, LOG_FRAME_MAX_SIZE]
  omega

theorem length_data (record : Record) : record.val.data.length = record.val.length.toNat := by
  rw [LogEvent.data, List.length_take, Vector.length_toList]
  exact Nat.min_eq_left record.property

theorem length_body (record : Record) : record.val.body.length = record.size - LOG_FRAME_CRC_SIZE := by
  simp [LogEvent.body, LOG_FRAME_MAGIC, length_data, size]
  omega

@[simp] theorem length_frame (record : Record) : record.frame.length = record.size := by
  have body := length_body record
  have := record.size_pos
  simp only [frame, LogEvent.frame, List.length_append, LittleEndian.length_encode, body, size] at *
  omega

theorem size_lt (record : Record) : record.size < 4096 := lt_of_le_of_lt record.size_le (by decide)

/-- A frame read as its four parts: magic, header, payload and checksum. -/
theorem frame_parts (record : Record) :
    record.frame = LOG_FRAME_MAGIC ++ record.header.toBytes ++ record.val.data ++
      LittleEndian.encode LOG_FRAME_CRC_SIZE (Crc32.calculate record.val.body).toNat := rfl

/-- `buildFrame` succeeds on every record given a buffer for the largest frame. -/
theorem buildFrame (record : Record) : record.val.buildFrame LOG_FRAME_MAX_SIZE = some record.frame := by
  have payload := record.property
  have fits := record.size_le
  have size : record.val.frame.length = LOG_FRAME_MAGIC_SIZE + LOG_FRAME_HEADER_SIZE +
      record.val.length.toNat + LOG_FRAME_CRC_SIZE := length_frame record
  rw [Record.size] at fits
  simp only [LogEvent.buildFrame]
  rw [if_neg (by omega), if_neg (by omega), if_neg (not_not.mpr size)]
  rfl

end Record

end PicoWLogger
