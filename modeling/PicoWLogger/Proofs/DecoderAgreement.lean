import PicoWLogger.Proofs.RingIndex
import PicoWLogger.Proofs.WireRoundTrip

/-! The two readers of a frame agree. The firmware sums the bytes as they lie in the flash, the viewer sums
what it writes again from the numbers it parsed; a header of twelve bytes is the writing of its own fields. -/

namespace PicoWLogger
open LittleEndian

/-- What `read_frame` returned is what `isValidFrameAt` found, with the payload behind it. -/
structure Agrees (frame : LoggerViewer.LogFrame) (header : LogFrameHeader) (size : Nat) (payload : List UInt8) : Prop where
  seq : frame.seq = header.seq.toNat
  eventId : frame.eventId = header.eventId.toNat
  level : frame.level = header.level.toNat
  length : frame.length = header.length.toNat
  timestampUs : frame.timestampUs = header.timestampUs.toNat
  payload : frame.payload = payload
  size : LOG_FRAME_MAGIC_SIZE + LoggerViewer.HEADER_LEN + frame.payload.length + LoggerViewer.CRC_LEN = size

/-- The parts of a string that begins like a frame and is long enough for it. -/
structure FrameString where
  header : LogFrameHeader
  payload : List UInt8
  crc : List UInt8
  rest : List UInt8
  fits : header.length.toNat ≤ LOG_FRAME_MAX_PAYLOAD
  size : payload.length = header.length.toNat
  four : crc.length = 4

namespace FrameString

def bytes (parsed : FrameString) : List UInt8 :=
  LOG_FRAME_MAGIC ++ (parsed.header.toBytes ++ (parsed.payload ++ (parsed.crc ++ parsed.rest)))

theorem of_bytes {bytes : List UInt8} (magic : bytes.take 2 = LOG_FRAME_MAGIC)
    (fits : (bytes.getD 9 0).toNat ≤ LOG_FRAME_MAX_PAYLOAD) (whole : 18 + (bytes.getD 9 0).toNat ≤ bytes.length) :
    ∃ parsed : FrameString, parsed.bytes = bytes ∧ parsed.header.length = bytes.getD 9 0 := by
  obtain ⟨twelve, isTwelve⟩ : ∃ twelve, (bytes.drop 2).take 12 = twelve := ⟨_, rfl⟩
  obtain ⟨count, isCount⟩ : ∃ count, (bytes.getD 9 0).toNat = count := ⟨_, rfl⟩
  rw [isCount] at fits whole
  have length : (LogFrameHeader.ofBytes twelve).length = bytes.getD 9 0 := by
    rw [← isTwelve]
    simp [LogFrameHeader.ofBytes, List.getD_eq_getElem?_getD]
  have written : (LogFrameHeader.ofBytes twelve).toBytes = twelve := by
    apply LogFrameHeader.toBytes_ofBytes
    rw [← isTwelve, List.length_take, List.length_drop, LOG_FRAME_HEADER_SIZE]
    omega
  have back : bytes.drop (18 + count) = (bytes.drop (14 + count)).drop 4 := by
    rw [List.drop_drop]
    congr 1
    omega
  have parts : LOG_FRAME_MAGIC ++ ((LogFrameHeader.ofBytes twelve).toBytes ++ ((bytes.drop 14).take count ++
      ((bytes.drop (14 + count)).take 4 ++ bytes.drop (18 + count)))) = bytes := by
    rw [written, ← isTwelve, ← magic, back, List.take_append_drop, ← List.drop_drop, List.take_append_drop,
      show (14 : Nat) = 2 + 12 from rfl, ← List.drop_drop, List.take_append_drop, List.take_append_drop]
  refine ⟨⟨LogFrameHeader.ofBytes twelve, (bytes.drop 14).take count, (bytes.drop (14 + count)).take 4,
    bytes.drop (18 + count), ?_, ?_, ?_⟩, parts, length⟩
  · rw [length, isCount]
    exact fits
  · rw [length, isCount, List.length_take, List.length_drop]
    omega
  · rw [List.length_take, List.length_drop]
    omega

variable (parsed : FrameString)

def record : Record := Record.ofParts parsed.header parsed.payload parsed.fits

theorem size_record : parsed.record.size = 18 + parsed.header.length.toNat := by
  simp only [Record.size, record, Record.ofParts, LOG_FRAME_MAGIC_SIZE, LOG_FRAME_HEADER_SIZE, LOG_FRAME_CRC_SIZE]
  omega

theorem body : parsed.record.val.body = LOG_FRAME_MAGIC ++ (parsed.header.toBytes ++ parsed.payload) := by
  rw [LogEvent.body, record, Record.data_ofParts parsed.fits parsed.size, List.append_assoc]
  rfl

theorem length_body : parsed.record.val.body.length = 14 + parsed.header.length.toNat := by
  rw [parsed.record.length_body, size_record, LOG_FRAME_CRC_SIZE]
  omega

theorem bytes_eq : parsed.bytes = parsed.record.val.body ++ parsed.crc ++ parsed.rest := by
  rw [body, bytes]
  simp only [List.append_assoc]

theorem take_bytes : parsed.bytes.take parsed.record.size = parsed.record.val.body ++ parsed.crc := by
  rw [bytes_eq]
  apply List.take_left'
  rw [List.length_append, length_body, parsed.four, size_record]
  omega

theorem drop_bytes : parsed.bytes.drop parsed.record.size = parsed.rest := by
  rw [bytes_eq]
  apply List.drop_left'
  rw [List.length_append, length_body, parsed.four, size_record]
  omega

section Stored
variable {parsed} {s : FlashLogStorage} {addr : Nat}

theorem cells_length (held : s.flash.cellsFrom addr parsed.record.size = parsed.record.val.body ++ parsed.crc) :
    s.flash.cells (addr + 9) = parsed.header.length := by
  obtain ⟨_, _, _, byte, _⟩ := parsed.header.toBytes_slices
  have tenth := congrArg (fun bytes => bytes[9]?) held
  have inside : 9 < parsed.record.size := by
    rw [size_record]
    omega
  simp only [List.getElem?_eq_getElem, FlashDriver.length_cellsFrom, inside, FlashDriver.getElem_cellsFrom] at tenth
  rw [List.getElem?_append_left (by rw [length_body]; omega), body, List.getElem?_append_right (by decide),
    List.getElem?_append_left (by simp [LOG_FRAME_MAGIC])] at tenth
  rw [List.getD_eq_getElem?_getD] at byte
  change _ = parsed.header.toBytes[7]? at tenth
  rw [← tenth] at byte
  exact byte

theorem cells_payload (held : s.flash.cellsFrom addr parsed.record.size = parsed.record.val.body ++ parsed.crc) :
    s.flash.cellsFrom (addr + 14) parsed.header.length.toNat = parsed.payload := by
  have size : parsed.record.size = 14 + (parsed.header.length.toNat + 4) := by
    rw [size_record]
    omega
  have front : (LOG_FRAME_MAGIC ++ parsed.header.toBytes).length = 14 := by simp [LOG_FRAME_MAGIC]
  rw [size, FlashDriver.cellsFrom_add, FlashDriver.cellsFrom_add, body, ← List.append_assoc LOG_FRAME_MAGIC,
    List.append_assoc _ parsed.payload] at held
  obtain ⟨_, behind⟩ := List.append_inj held (by rw [front, FlashDriver.length_cellsFrom])
  exact (List.append_inj behind (by rw [parsed.size, FlashDriver.length_cellsFrom])).1

theorem isValidFrameAt_eq (config : FlashLogStorage.isConfigValid s.config = true)
    (above : s.config.startAddr ≤ addr) (room : addr + parsed.record.size ≤ s.config.endAddr)
    (held : s.flash.cellsFrom addr parsed.record.size = parsed.record.val.body ++ parsed.crc) :
    s.isValidFrameAt addr =
      if decode parsed.crc = (Crc32.calculate parsed.record.val.body).toNat then some (parsed.header, parsed.record.size)
      else none := by
  split
  next sum =>
    have stored : encode LOG_FRAME_CRC_SIZE (Crc32.calculate parsed.record.val.body).toNat = parsed.crc := by
      have back := encode_decode parsed.crc
      rw [parsed.four, sum] at back
      exact back
    rw [← stored] at held
    exact (FlashLogStorage.isValidFrameAt_iff config addr _ parsed.record.header).mpr
      ⟨above, room, parsed.record, rfl, rfl, held⟩
  next differ =>
    rw [Option.eq_none_iff_forall_ne_some]
    rintro ⟨header, size⟩ valid
    have sameSize : size = parsed.record.size := by
      rw [FlashLogStorage.isValidFrameAt_length valid, cells_length held, size_record]
    subst sameSize
    have crc := (FlashLogStorage.isValidFrameAt_parts valid).2.2.2.2.2.2.2
    have cut : parsed.record.size - 4 = parsed.record.val.body.length := by
      rw [length_body, size_record]
      omega
    rw [held, cut, List.take_left, List.drop_left, List.take_of_length_le (by rw [parsed.four])] at crc
    exact differ crc.symm

end Stored

theorem readFrame_eq (crc32 : List UInt8 → Nat) (standard : ∀ bytes, crc32 bytes = (Crc32.standard bytes).toNat)
    {reader : LoggerViewer.ByteReader} (delivers : reader.Delivers parsed.bytes) (stats : LoggerViewer.Stats) :
    ∃ frame later stats', LoggerViewer.readFrame crc32 reader stats = (some frame, later, stats') ∧
      Agrees frame parsed.header parsed.record.size parsed.payload ∧ later.Delivers parsed.rest ∧
      (frame.crcOk = true ↔ decode parsed.crc = (Crc32.calculate parsed.record.val.body).toNat) := by
  have clean : ¬ LOG_FRAME_MAGIC <:+: [] := by decide
  obtain ⟨later, stats', read, delivered⟩ :=
    LoggerViewer.readFrame_behind crc32 stats clean parsed.header parsed.size parsed.four delivers
  refine ⟨_, later, stats', read, ⟨rfl, rfl, rfl, rfl, rfl, rfl, ?_⟩, delivered, ?_⟩
  · change 2 + 12 + parsed.payload.length + 4 = _
    rw [parsed.size, size_record]
    omega
  · have sum := LoggerViewer.calcCrc_event crc32 standard parsed.record.val
    have data : parsed.record.val.data = parsed.payload := Record.data_ofParts parsed.fits parsed.size
    rw [data] at sum
    rw [LoggerViewer.LogFrame.crcOk, beq_iff_eq, ← sum]
    rfl

end FrameString

/-- The two decoders agree on every string that begins like a frame: `read_frame` finds the CRC right exactly when
the frame check accepts the same bytes at a place with room for them, and both read the same record of the same
size. -/
theorem decoders_agree (crc32 : List UInt8 → Nat) (standard : ∀ bytes, crc32 bytes = (Crc32.standard bytes).toNat)
    {bytes : List UInt8} (magic : bytes.take 2 = LOG_FRAME_MAGIC)
    (fits : (bytes.getD 9 0).toNat ≤ LOG_FRAME_MAX_PAYLOAD) (whole : 18 + (bytes.getD 9 0).toNat ≤ bytes.length)
    (reader : LoggerViewer.ByteReader) (stream : reader.stream = bytes) (steady : ∀ call, 0 < reader.ready call)
    (stats : LoggerViewer.Stats) {s : FlashLogStorage} (config : FlashLogStorage.isConfigValid s.config = true) {addr : Nat}
    (above : s.config.startAddr ≤ addr) (room : addr + (18 + (bytes.getD 9 0).toNat) ≤ s.config.endAddr)
    (held : s.flash.cellsFrom addr (18 + (bytes.getD 9 0).toNat) = bytes.take (18 + (bytes.getD 9 0).toNat)) :
    ∃ frame later stats', LoggerViewer.readFrame crc32 reader stats = (some frame, later, stats') ∧
      frame.crcOk = (s.isValidFrameAt addr).isSome ∧
      ∀ header size, s.isValidFrameAt addr = some (header, size) →
        Agrees frame header size (s.flash.cellsFrom (addr + 14) header.length.toNat) ∧ later.stream = bytes.drop size := by
  obtain ⟨parsed, rfl, length⟩ := FrameString.of_bytes magic fits whole
  rw [← length, ← parsed.size_record] at room held
  rw [parsed.take_bytes] at held
  obtain ⟨frame, later, stats', read, agrees, delivered, crcOk⟩ :=
    parsed.readFrame_eq crc32 standard ⟨stream, steady⟩ stats
  refine ⟨frame, later, stats', read, ?_, ?_⟩
  · rw [parsed.isValidFrameAt_eq config above room held, Bool.eq_iff_iff, crcOk]
    split <;> simp_all
  · intro header size valid
    rw [FrameString.isValidFrameAt_eq config above room held] at valid
    split at valid
    · cases valid
      rw [FrameString.cells_payload held, parsed.drop_bytes]
      exact ⟨agrees, delivered.stream⟩
    · cases valid

theorem decoders_agree_sample :
    let record := sampleRecord 7 5 (by decide)
    ∃ frame later stats', LoggerViewer.readFrame (fun bytes => (Crc32.calculate bytes).toNat) ⟨record.frame, fun _ => 1⟩ {} =
        (some frame, later, stats') ∧
      frame.crcOk = ((holding ⟨0, 4096⟩ record.frame).isValidFrameAt 0).isSome := by
  intro record
  have size : record.frame.length = 18 + 5 := record.length_frame
  have byte : (record.frame.getD 9 0).toNat = 5 := rfl
  have held : (holding ⟨0, 4096⟩ record.frame).flash.cellsFrom 0 (18 + 5) = record.frame.take (18 + 5) := by
    rw [← size, cellsFrom_holding, List.take_length]
  have magic : record.frame.take 2 = LOG_FRAME_MAGIC := rfl
  have fits : (record.frame.getD 9 0).toNat ≤ LOG_FRAME_MAX_PAYLOAD := by
    rw [byte]
    decide
  rw [← byte] at size held
  have config : FlashLogStorage.isConfigValid (holding ⟨0, 4096⟩ record.frame).config = true := by decide
  have room : 0 + (18 + (record.frame.getD 9 0).toNat) ≤ (holding ⟨0, 4096⟩ record.frame).config.endAddr := by
    rw [byte]
    decide
  obtain ⟨frame, later, stats', read, crcOk, _⟩ := decoders_agree (fun bytes => (Crc32.calculate bytes).toNat)
    (fun bytes => congrArg BitVec.toNat (Crc32.toBitVec_calculate bytes)) magic fits size.ge ⟨record.frame, fun _ => 1⟩
    rfl (fun _ => Nat.one_pos) {} config (Nat.zero_le _) room held
  exact ⟨frame, later, stats', read, crcOk⟩

end PicoWLogger
