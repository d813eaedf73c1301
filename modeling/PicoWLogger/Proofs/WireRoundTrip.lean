import PicoWLogger.LogProtocol
import PicoWLogger.LoggerViewer
import PicoWLogger.Proofs.Crc32Standard

/-! What the firmware builds, the viewer reads back: every frame of a stream, whatever
lies between the frames and however the stream is cut into reads. -/

namespace PicoWLogger.LoggerViewer
open LittleEndian

/-- The reader still has this stream to deliver, and no read comes back empty before its end. -/
structure ByteReader.Delivers (reader : ByteReader) (stream : List UInt8) : Prop where
  stream : reader.stream = stream
  steady : ∀ call, 0 < reader.ready call

section Reading
variable {reader : ByteReader} {stream front rest : List UInt8}

theorem ByteReader.read_end {n : Nat} (delivers : reader.Delivers []) :
    ∃ later, reader.read n = ([], later) ∧ later.Delivers [] := by
  have empty := delivers.stream
  refine ⟨(reader.read n).2, ?_, ?_, ?_⟩
  · simp [read, empty]
  · simp [read, empty]
  · intro call
    exact delivers.steady (call + 1)

theorem ByteReader.read_some {n : Nat} (positive : 0 < n) (nonempty : stream ≠ []) (delivers : reader.Delivers stream) :
    ∃ count later, 0 < count ∧ count ≤ n ∧ count ≤ stream.length ∧ reader.read n = (stream.take count, later) ∧
      later.Delivers (stream.drop count) := by
  have ready := delivers.steady 0
  have some' : 0 < reader.size n := Nat.lt_min.mpr ⟨positive, ready⟩
  have few : reader.size n ≤ n := Nat.min_le_left _ _
  have left := List.length_pos_iff.mpr nonempty
  have taken : stream.take (min (reader.size n) stream.length) = stream.take (reader.size n) := List.take_eq_take_min.symm
  have dropped : stream.drop (min (reader.size n) stream.length) = stream.drop (reader.size n) := by
    rcases Nat.le_total (reader.size n) stream.length with short | long
    · rw [Nat.min_eq_left short]
    · rw [Nat.min_eq_right long, List.drop_length, List.drop_eq_nil_of_le long]
  refine ⟨min (reader.size n) stream.length, (reader.read n).2, by omega, by omega, by omega, ?_, ?_, ?_⟩
  · rw [taken, read, delivers.stream]
  · rw [dropped, read, delivers.stream]
  · intro call
    exact delivers.steady (call + 1)

theorem readExactLoop_read {n : Nat} {chunks data : List UInt8} {later : ByteReader} (more : chunks.length < n)
    (taken : reader.read (n - chunks.length) = (data, later)) (nonempty : data ≠ []) :
    readExactLoop reader n chunks = readExactLoop later n (chunks ++ data) := by
  cases data with
  | nil => exact absurd rfl nonempty
  | cons byte data => rw [readExactLoop, if_pos more, taken]

theorem readExactLoop_delivers (chunks : List UInt8) (delivers : reader.Delivers (front ++ rest)) :
    ∃ later, readExactLoop reader (chunks.length + front.length) chunks = (some (chunks ++ front), later) ∧
      later.Delivers rest := by
  induction size : front.length using Nat.strongRecOn generalizing front chunks reader with
  | ind size' ih =>
    subst size
    by_cases empty : front = []
    · subst empty
      refine ⟨reader, ?_, delivers⟩
      rw [readExactLoop, if_neg (by simp), List.append_nil]
    · have left := List.length_pos_iff.mpr empty
      obtain ⟨count, next, positive, few, -, taken, delivered⟩ := ByteReader.read_some
        (n := chunks.length + front.length - chunks.length) (by omega) (by simp [empty]) delivers
      have inside : count ≤ front.length := by omega
      rw [List.take_append_of_le_length inside] at taken
      rw [List.drop_append_of_le_length inside] at delivered
      have length : (chunks ++ front.take count).length + (front.drop count).length = chunks.length + front.length := by
        simp only [List.length_append, List.length_take, List.length_drop]
        omega
      obtain ⟨later, read, done⟩ := ih (front.drop count).length (by rw [List.length_drop]; omega)
        (chunks ++ front.take count) delivered rfl
      rw [length, List.append_assoc, List.take_append_drop] at read
      have some' : front.take count ≠ [] := by
        intro none'
        rcases List.take_eq_nil_iff.mp none' with zero | nothing
        · omega
        · exact empty nothing
      exact ⟨later, (readExactLoop_read (by omega) taken some').trans read, done⟩

theorem readExact_delivers {n : Nat} (length : front.length = n) (delivers : reader.Delivers (front ++ rest)) :
    ∃ later, readExact reader n = (some front, later) ∧ later.Delivers rest := by
  obtain ⟨later, read, delivered⟩ := readExactLoop_delivers [] delivers
  exact ⟨later, by simpa [readExact, length] using read, delivered⟩

theorem read_one {byte : UInt8} (delivers : reader.Delivers (byte :: rest)) :
    ∃ later, reader.read 1 = ([byte], later) ∧ later.Delivers rest := by
  obtain ⟨count, later, positive, few, -, taken, delivered⟩ :=
    ByteReader.read_some Nat.one_pos (List.cons_ne_nil byte rest) delivers
  have one : count = 1 := by omega
  subst one
  exact ⟨later, taken, delivered⟩

section Sync

theorem syncLoop_end (stats : Stats) (prev : Option UInt8) (delivers : reader.Delivers []) :
    ∃ later, syncLoop reader stats prev = (false, later, stats) ∧ later.Delivers [] := by
  obtain ⟨later, taken, delivered⟩ := ByteReader.read_end (n := 1) delivers
  refine ⟨later, ?_, delivered⟩
  rw [syncLoop]
  split
  next seen => rw [taken] at seen; cases seen; rfl
  next seen => rw [taken] at seen; cases seen

/-- One turn of the loop: the byte read completes the magic, or becomes the previous one. -/
theorem syncLoop_byte {byte : UInt8} (stats : Stats) (prev : Option UInt8) (delivers : reader.Delivers (byte :: rest)) :
    ∃ later stats', later.Delivers rest ∧ syncLoop reader stats prev =
      if prev = some MAGIC0 ∧ byte = MAGIC1 then (true, later, stats') else syncLoop later stats' (some byte) := by
  obtain ⟨later, taken, delivered⟩ := read_one delivers
  by_cases magic : prev = some MAGIC0 ∧ byte = MAGIC1
  · refine ⟨later, { stats with sync := stats.sync + 1, totalBytes := stats.totalBytes + 1 }, delivered, ?_⟩
    rw [if_pos magic, syncLoop]
    split
    next seen => rw [taken] at seen; cases seen
    next seen => rw [taken] at seen; cases seen; rw [if_pos magic]
  · refine ⟨later, { stats with totalBytes := stats.totalBytes + 1 }, delivered, ?_⟩
    rw [if_neg magic, syncLoop]
    split
    next seen => rw [taken] at seen; cases seen
    next seen => rw [taken] at seen; cases seen; rw [if_neg magic]

/-- Bytes without the magic are passed over, the last of them too when it looks like
the start of the magic that follows. -/
theorem syncLoop_junk {junk : List UInt8} (stats : Stats) (prev : Option UInt8)
    (clean : ¬ LOG_FRAME_MAGIC <:+: prev.toList ++ junk) (delivers : reader.Delivers (junk ++ (LOG_FRAME_MAGIC ++ rest))) :
    ∃ later stats', syncLoop reader stats prev = (true, later, stats') ∧ later.Delivers rest := by
  induction junk generalizing reader prev stats with
  | nil =>
    obtain ⟨middle, counted, delivered, first⟩ := syncLoop_byte stats prev delivers
    obtain ⟨later, stats', done, second⟩ := syncLoop_byte counted (some MAGIC0) delivered
    have differ : ¬ (prev = some MAGIC0 ∧ (0xA5 : UInt8) = MAGIC1) := fun both => absurd both.2 (by decide)
    rw [if_neg differ] at first
    exact ⟨later, stats', first.trans (second.trans (if_pos ⟨rfl, rfl⟩)), done⟩
  | cons byte junk ih =>
    obtain ⟨middle, counted, delivered, turn⟩ := syncLoop_byte stats prev delivers
    have differ : ¬ (prev = some MAGIC0 ∧ byte = MAGIC1) := by
      rintro ⟨rfl, rfl⟩
      exact clean ⟨[], junk, rfl⟩
    have suffix : byte :: junk <:+ prev.toList ++ byte :: junk := List.suffix_append _ _
    have cleaner : ¬ LOG_FRAME_MAGIC <:+: (some byte).toList ++ junk := fun inside => clean (inside.trans suffix.isInfix)
    obtain ⟨later, stats', found, done⟩ := ih counted (some byte) cleaner delivered
    rw [if_neg differ] at turn
    exact ⟨later, stats', turn.trans found, done⟩

end Sync

end Reading

/-- The frame shows what the event recorded, and its CRC matches. -/
structure Shows (event : LogEvent) (frame : LogFrame) : Prop where
  seq : frame.seq = event.seq.toNat
  eventId : frame.eventId = event.eventId.toNat
  level : frame.level = event.level.toNat
  length : frame.length = event.length.toNat
  timestampUs : frame.timestampUs = event.timestampUs.toNat
  payload : frame.payload = event.data
  crcOk : frame.crcOk = true

/-- A stretch of the line: bytes that are not part of any frame, then the frame of an event. -/
structure Burst where
  junk : List UInt8
  record : Record
  clean : ¬ LOG_FRAME_MAGIC <:+: junk

def Burst.bytes (burst : Burst) : List UInt8 :=
  burst.junk ++ (burst.record.val.buildFrame LOG_FRAME_MAX_SIZE).getD []

theorem Burst.bytes_eq (burst : Burst) : burst.bytes = burst.junk ++ (LOG_FRAME_MAGIC ++
    (burst.record.header.toBytes ++ (burst.record.val.data ++
      encode LOG_FRAME_CRC_SIZE (Crc32.calculate burst.record.val.body).toNat))) := by
  rw [bytes, Record.buildFrame, Option.getD_some, Record.frame_parts]
  simp only [List.append_assoc]

section Frames
variable (crc32 : List UInt8 → Nat) {reader : ByteReader} {rest : List UInt8}

/-- The bytes `calc_crc` puts together again are the ones the firmware summed. -/
theorem calcCrc_event (standard : ∀ bytes, crc32 bytes = (Crc32.standard bytes).toNat) (event : LogEvent) :
    calcCrc crc32 event.seq.toNat event.eventId.toNat event.level.toNat event.length.toNat event.timestampUs.toNat
      event.data = (Crc32.calculate event.body).toNat := by
  have level : encode 1 event.level.toNat = [event.level] := by simp [encode]
  have length : encode 1 event.length.toNat = [event.length] := by simp [encode]
  have body : calcCrc crc32 event.seq.toNat event.eventId.toNat event.level.toNat event.length.toNat
      event.timestampUs.toNat event.data = crc32 event.body &&& 0xFFFFFFFF := by
    simp only [calcCrc, level, length]
    rfl
  rw [body, standard, ← Crc32.toBitVec_calculate]
  have fits := (Crc32.calculate event.body).toNat_lt
  exact (Nat.and_two_pow_sub_one_eq_mod _ 32).trans (Nat.mod_eq_of_lt fits)

theorem readFrame_end (stats : Stats) (delivers : reader.Delivers []) :
    ∃ later, readFrame crc32 reader stats = (none, later, stats) ∧ later.Delivers [] := by
  obtain ⟨later, missed, delivered⟩ := syncLoop_end stats none delivers
  refine ⟨later, ?_, delivered⟩
  rw [readFrame, syncToMagic, missed]

/-- `read_frame` when nothing is missing: it parses the header, and counts what it read. -/
theorem readFrame_parts {synced headed paid later : ByteReader} {stats counted : Stats} {header payload crc : List UInt8}
    (sync : syncToMagic reader stats = (true, synced, counted)) (head : readExact synced HEADER_LEN = (some header, headed))
    (body : readExact headed (header.getD 7 0).toNat = (some payload, paid))
    (tail : readExact paid CRC_LEN = (some crc, later)) :
    readFrame crc32 reader stats =
      (some ⟨u32le (header.take 4), u16le ((header.drop 4).take 2), (header.getD 6 0).toNat, (header.getD 7 0).toNat,
        u32le ((header.drop 8).take 4), payload, u32le crc, calcCrc crc32 (u32le (header.take 4))
          (u16le ((header.drop 4).take 2)) (header.getD 6 0).toNat (header.getD 7 0).toNat
          (u32le ((header.drop 8).take 4)) payload⟩, later,
        { counted with totalBytes := counted.totalBytes + header.length + payload.length + crc.length }) := by
  rw [readFrame, sync]
  simp only [head]
  rw [body]
  simp only [tail]

/-- `read_frame` finds the next magic and shows the header behind it, with as many bytes of payload as
the header says and the four after them as the CRC. -/
theorem readFrame_behind {junk payload crc : List UInt8} (stats : Stats) (clean : ¬ LOG_FRAME_MAGIC <:+: junk)
    (header : LogFrameHeader) (length : payload.length = header.length.toNat) (four : crc.length = CRC_LEN)
    (delivers : reader.Delivers (junk ++ (LOG_FRAME_MAGIC ++ (header.toBytes ++ (payload ++ (crc ++ rest)))))) :
    ∃ later stats', readFrame crc32 reader stats =
        (some ⟨header.seq.toNat, header.eventId.toNat, header.level.toNat, header.length.toNat, header.timestampUs.toNat,
          payload, decode crc, calcCrc crc32 header.seq.toNat header.eventId.toNat header.level.toNat
            header.length.toNat header.timestampUs.toNat payload⟩, later, stats') ∧ later.Delivers rest := by
  obtain ⟨synced, counted, sync, delivers⟩ := syncLoop_junk stats none clean delivers
  obtain ⟨headed, head, delivers⟩ := readExact_delivers header.length_toBytes delivers
  obtain ⟨seq, eventId, level, byte, timestamp⟩ := header.toBytes_slices
  have size : payload.length = (header.toBytes.getD 7 0).toNat := by rw [byte, length]
  obtain ⟨paid, body, delivers⟩ := readExact_delivers size delivers
  obtain ⟨later, tail, delivers⟩ := readExact_delivers four delivers
  have read := readFrame_parts crc32 sync head body tail
  rw [seq, eventId, level, byte, timestamp, u32le, u16le, u32le, u32le, LogFrameHeader.decode_seq,
    LogFrameHeader.decode_eventId, LogFrameHeader.decode_timestampUs] at read
  exact ⟨later, _, read, delivers⟩

theorem readFrame_burst (standard : ∀ bytes, crc32 bytes = (Crc32.standard bytes).toNat) (burst : Burst) (stats : Stats)
    (delivers : reader.Delivers (burst.bytes ++ rest)) :
    ∃ frame later stats', readFrame crc32 reader stats = (some frame, later, stats') ∧
      Shows burst.record.val frame ∧ later.Delivers rest := by
  rw [Burst.bytes_eq] at delivers
  simp only [List.append_assoc] at delivers
  obtain ⟨later, stats', read, delivers⟩ := readFrame_behind crc32 stats burst.clean burst.record.header
    burst.record.length_data (length_encode _ _) delivers
  have received : decode (encode CRC_LEN (Crc32.calculate burst.record.val.body).toNat) =
      (Crc32.calculate burst.record.val.body).toNat :=
    decode_encode_of_lt (Crc32.calculate burst.record.val.body).toNat_lt
  refine ⟨_, later, stats', read, ⟨rfl, rfl, rfl, rfl, rfl, rfl, ?_⟩, delivers⟩
  rw [LogFrame.crcOk, beq_iff_eq, received]
  exact (calcCrc_event crc32 standard burst.record.val).symm

theorem readFrames_end (count : Nat) (stats : Stats) (delivers : reader.Delivers []) :
    readFrames crc32 count reader stats = List.replicate count none := by
  induction count generalizing reader stats with
  | zero => rfl
  | succ count ih =>
    obtain ⟨later, missed, delivered⟩ := readFrame_end crc32 stats delivers
    rw [readFrames, missed, List.replicate_succ]
    exact congrArg _ (ih stats delivered)

theorem readFrames_bursts (standard : ∀ bytes, crc32 bytes = (Crc32.standard bytes).toNat) (bursts : List Burst)
    (extra : Nat) (stats : Stats) (delivers : reader.Delivers (bursts.flatMap Burst.bytes)) :
    ∃ frames, readFrames crc32 (bursts.length + extra) reader stats = frames.map some ++ List.replicate extra none ∧
      List.Forall₂ (fun burst frame => Shows burst.record.val frame) bursts frames := by
  induction bursts generalizing reader stats with
  | nil =>
    refine ⟨[], ?_, .nil⟩
    rw [List.length_nil, Nat.zero_add, List.map_nil, List.nil_append]
    exact readFrames_end crc32 extra stats delivers
  | cons burst rest ih =>
    rw [List.flatMap_cons] at delivers
    obtain ⟨frame, later, stats', read, shows', delivers⟩ := readFrame_burst crc32 standard burst stats delivers
    obtain ⟨frames, more, matched⟩ := ih stats' delivers
    refine ⟨frame :: frames, ?_, .cons shows' matched⟩
    rw [List.length_cons, Nat.succ_add, readFrames, read, List.map_cons, List.cons_append]
    exact congrArg _ more

end Frames

/-- Repeated `read_frame` on a stream of built frames, with junk before each and however
the reader cuts it, shows every event in order and then nothing more. -/
theorem wire_round_trip (crc32 : List UInt8 → Nat) (standard : ∀ bytes, crc32 bytes = (Crc32.standard bytes).toNat)
    (bursts : List Burst) (reader : ByteReader) (stream : reader.stream = bursts.flatMap Burst.bytes)
    (steady : ∀ call, 0 < reader.ready call) (stats : Stats) (extra : Nat) :
    ∃ frames, readFrames crc32 (bursts.length + extra) reader stats = frames.map some ++ List.replicate extra none ∧
      List.Forall₂ (fun burst frame => Shows burst.record.val frame) bursts frames :=
  readFrames_bursts crc32 standard bursts extra stats ⟨stream, steady⟩

/-- Two events, junk that ends like a magic, and a reader that delivers one byte at a time. -/
theorem wire_round_trip_pair :
    let event : LogEvent := ⟨7, EventId.TEXT_LOG, LogLevel.INFO, 2, 100, Vector.replicate 64 0xA5⟩
    let burst (junk : List UInt8) (clean : ¬ LOG_FRAME_MAGIC <:+: junk) : Burst := ⟨junk, ⟨event, by decide⟩, clean⟩
    let bursts := [burst [0x5A, 0xA5] (by decide), burst [] (by decide)]
    ∃ first second, readFrames (fun bytes => (Crc32.calculate bytes).toNat) 3
        ⟨bursts.flatMap Burst.bytes, fun _ => 1⟩ {} = [some first, some second, none] ∧
      Shows event first ∧ Shows event second := by
  intro event burst bursts
  obtain ⟨frames, read, matched⟩ := wire_round_trip (fun bytes => (Crc32.calculate bytes).toNat)
    (fun bytes => congrArg BitVec.toNat (Crc32.toBitVec_calculate bytes)) bursts ⟨bursts.flatMap Burst.bytes, fun _ => 1⟩
    rfl (fun _ => Nat.one_pos) {} 1
  obtain ⟨first, rest, shown, more, rfl⟩ := List.forall₂_cons_left_iff.mp matched
  obtain ⟨second, none', shown', ⟨⟩, rfl⟩ := List.forall₂_cons_left_iff.mp more
  exact ⟨first, second, read, shown, shown'⟩

end PicoWLogger.LoggerViewer
