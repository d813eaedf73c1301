import PicoWLogger.FlashLogStorage

/-! What the frame check accepts: exactly the addresses at which the cells hold the
frame of some record, whole and inside the log area. -/

namespace PicoWLogger

namespace FlashDriver

theorem isAddressValid_iff (addr len : Nat) : isAddressValid addr len = true ↔ 0 < len ∧ addr + len ≤ FLASH_SIZE := by
  rw [isAddressValid]
  repeat' split
  all_goals
    simp only [Bool.false_eq_true, false_iff, true_iff, u32, FLASH_SIZE] at *
    omega

theorem read_eq_some_iff (flash : FlashDriver) (addr len : Nat) (bytes : List UInt8) :
    flash.read addr len = some bytes ↔ 0 < len ∧ addr + len ≤ FLASH_SIZE ∧ bytes = flash.cellsFrom addr len := by
  rw [read]
  split
  next valid =>
    rw [isAddressValid_iff] at valid
    simp only [Option.some.injEq, valid, true_and]
    exact eq_comm
  next invalid =>
    rw [isAddressValid_iff] at invalid
    simp only [reduceCtorEq, false_iff]
    exact fun inside => invalid ⟨inside.1, inside.2.1⟩

theorem read_inside {flash : FlashDriver} {addr len : Nat} (nonempty : 0 < len) (inside : addr + len ≤ FLASH_SIZE) :
    flash.read addr len = some (flash.cellsFrom addr len) :=
  (read_eq_some_iff flash addr len _).mpr ⟨nonempty, inside, rfl⟩

@[simp] theorem length_cellsFrom (flash : FlashDriver) (addr len : Nat) : (flash.cellsFrom addr len).length = len := by
  simp [cellsFrom]

@[simp] theorem getElem_cellsFrom (flash : FlashDriver) (addr len offset : Nat)
    (inside : offset < (flash.cellsFrom addr len).length) :
    (flash.cellsFrom addr len)[offset] = flash.cells (addr + offset) := by
  simp [cellsFrom]

theorem cellsFrom_add (flash : FlashDriver) (addr m n : Nat) :
    flash.cellsFrom addr (m + n) = flash.cellsFrom addr m ++ flash.cellsFrom (addr + m) n := by
  simp only [cellsFrom, List.range_add, List.map_append, List.map_map, Function.comp_def, Nat.add_assoc]

theorem cellsFrom_congr {flash other : FlashDriver} {addr len : Nat}
    (same : ∀ a, addr ≤ a → a < addr + len → flash.cells a = other.cells a) :
    flash.cellsFrom addr len = other.cellsFrom addr len := by
  apply List.map_congr_left
  intro offset member
  have inside := List.mem_range.mp member
  exact same _ (by omega) (by omega)

end FlashDriver

namespace Record
open LittleEndian

def ofParts (header : LogFrameHeader) (data : List UInt8) (fits : header.length.toNat ≤ LOG_FRAME_MAX_PAYLOAD) :
    Record where
  val :=
    { seq := header.seq
      eventId := header.eventId
      level := header.level
      length := header.length
      timestampUs := header.timestampUs
      payload := Vector.ofFn fun i => data.getD i.val 0 }
  property := fits

theorem data_ofParts {header : LogFrameHeader} {data : List UInt8} (fits : header.length.toNat ≤ LOG_FRAME_MAX_PAYLOAD)
    (size : data.length = header.length.toNat) : (ofParts header data fits).val.data = data := by
  apply List.ext_getElem
  · rw [length_data, size]
    rfl
  · intro i first last
    simp [LogEvent.data, ofParts, last]

theorem frame_head (record : Record) : record.frame[0]? = some 0xA5 := rfl

end Record

namespace FlashLogStorage
open FlashDriver

theorem isConfigValid_iff (config : Config) :
    isConfigValid config = true ↔ config.startAddr < config.endAddr ∧ config.startAddr % SECTOR_SIZE = 0 ∧
      config.endAddr ≤ FLASH_SIZE ∧ config.endAddr % SECTOR_SIZE = 0 := by
  simp only [isConfigValid]
  repeat' split
  all_goals
    simp only [Bool.false_eq_true, false_iff, true_iff]
    omega

/-- Past its bounds checks the frame check is a statement about the cells alone. -/
theorem isValidFrameAt_parts {s : FlashLogStorage} {addr size : Nat} {header : LogFrameHeader}
    (valid : s.isValidFrameAt addr = some (header, size)) :
    s.config.startAddr ≤ addr ∧ addr + size ≤ FLASH_SIZE ∧ u32 (addr + size) ≤ s.config.endAddr ∧
      s.flash.cellsFrom addr 2 = LOG_FRAME_MAGIC ∧
      header = LogFrameHeader.ofBytes (s.flash.cellsFrom (u32 (addr + 2)) 12) ∧
      header.length.toNat ≤ LOG_FRAME_MAX_PAYLOAD ∧ size = 18 + header.length.toNat ∧
      (Crc32.calculate ((s.flash.cellsFrom addr size).take (size - 4))).toNat =
        LittleEndian.decode (((s.flash.cellsFrom addr size).drop (size - 4)).take 4) := by
  have shape := isValidFrameAt_size valid
  simp only [LOG_FRAME_MAGIC_SIZE, LOG_FRAME_HEADER_SIZE, LOG_FRAME_CRC_SIZE] at shape
  simp only [isValidFrameAt] at valid
  split at valid
  · cases valid
  next above =>
  split at valid
  · cases valid
  split at valid
  · cases valid
  next magic readMagic =>
  split at valid
  · cases valid
  next isMagic =>
  split at valid
  · cases valid
  next headerBytes readHeader =>
  split at valid
  · cases valid
  next fits =>
  split at valid
  · cases valid
  next ends =>
  split at valid
  · cases valid
  next frameBuf readBuf =>
  split at valid
  · cases valid
  next sameCrc =>
  obtain ⟨rfl, sizeEq⟩ := Prod.mk.inj (Option.some.inj valid)
  rw [read_eq_some_iff] at readMagic readHeader readBuf
  obtain ⟨_, _, rfl⟩ := readMagic
  obtain ⟨_, _, rfl⟩ := readHeader
  obtain ⟨_, inside, rfl⟩ := readBuf
  rw [sizeEq] at inside ends sameCrc
  simp only [not_lt, ne_eq, not_not] at above ends fits isMagic sameCrc
  refine ⟨above, inside, ends, isMagic, rfl, fits, by omega, ?_⟩
  have offset : size - 4 = 2 + 12 + (LogFrameHeader.ofBytes (s.flash.cellsFrom (u32 (addr + 2)) 12)).length.toNat := by
    simp only [LOG_FRAME_MAGIC_SIZE, LOG_FRAME_HEADER_SIZE] at shape
    omega
  exact sameCrc.trans (by rw [offset]; rfl)

theorem isValidFrameAt_length {s : FlashLogStorage} {addr size : Nat} {header : LogFrameHeader}
    (valid : s.isValidFrameAt addr = some (header, size)) : size = 18 + (s.flash.cells (addr + 9)).toNat := by
  obtain ⟨_, inside, _, _, parsed, _, shape, _⟩ := isValidFrameAt_parts valid
  simp only [FLASH_SIZE] at inside
  have wrap : u32 (addr + 2) = addr + 2 := Nat.mod_eq_of_lt (by omega)
  have byte : header.length = s.flash.cells (addr + 2 + 7) := by
    rw [parsed, wrap]
    rfl
  rw [shape, byte]

private theorem isValidFrameAt_of_record {s : FlashLogStorage} {addr : Nat} {record : Record}
    (above : s.config.startAddr ≤ addr) (inside : addr + record.size ≤ s.config.endAddr)
    (flashEnd : s.config.endAddr ≤ 4194304) (held : s.flash.cellsFrom addr record.size = record.frame) :
    s.isValidFrameAt addr = some (record.header, record.size) := by
  have size : record.size = 2 + 12 + record.header.length.toNat + 4 := rfl
  have fits : ¬ record.header.length.toNat > LOG_FRAME_MAX_PAYLOAD := not_lt.mpr record.property
  have parts : s.flash.cellsFrom addr (2 + 12 + record.header.length.toNat) = record.val.body ∧
      s.flash.cellsFrom (addr + (2 + 12 + record.header.length.toNat)) 4 =
        LittleEndian.encode LOG_FRAME_CRC_SIZE (Crc32.calculate record.val.body).toNat := by
    rw [size, cellsFrom_add] at held
    apply List.append_inj held
    rw [length_cellsFrom, record.length_body, size]
    simp
  have front : s.flash.cellsFrom addr 2 = LOG_FRAME_MAGIC ∧
      s.flash.cellsFrom (addr + 2) 12 = record.header.toBytes := by
    have body := parts.1
    rw [cellsFrom_add, cellsFrom_add, LogEvent.body] at body
    obtain ⟨head, _⟩ := List.append_inj body (by simp [LOG_FRAME_MAGIC])
    exact List.append_inj head (by simp [LOG_FRAME_MAGIC])
  have bodyTake : (s.flash.cellsFrom addr record.size).take (2 + 12 + record.header.length.toNat) = record.val.body := by
    rw [size, cellsFrom_add, ← parts.1]
    exact List.take_left' (by simp)
  have crcTake : ((s.flash.cellsFrom addr record.size).drop (2 + 12 + record.header.length.toNat)).take 4 =
      LittleEndian.encode LOG_FRAME_CRC_SIZE (Crc32.calculate record.val.body).toNat := by
    rw [size, cellsFrom_add, List.drop_left' (by simp), ← parts.2]
    exact List.take_of_length_le (by simp)
  have wrap (n : Nat) (small : n ≤ record.size) : u32 (addr + n) = addr + n := by
    rw [u32]
    omega
  have flashSize : FLASH_SIZE = 4194304 := rfl
  have low : ¬ addr < s.config.startAddr := not_lt.mpr above
  have minEnds : ¬ u32 (addr + (LOG_FRAME_MAGIC_SIZE + LOG_FRAME_HEADER_SIZE + LOG_FRAME_CRC_SIZE)) > s.config.endAddr := by
    simp only [LOG_FRAME_MAGIC_SIZE, LOG_FRAME_HEADER_SIZE, LOG_FRAME_CRC_SIZE]
    rw [wrap _ (by omega)]
    omega
  have readMagic : s.flash.read addr LOG_FRAME_MAGIC_SIZE = some LOG_FRAME_MAGIC := by
    rw [← front.1]
    exact read_inside (by simp) (by simp only [LOG_FRAME_MAGIC_SIZE]; omega)
  have readHeader : s.flash.read (u32 (addr + LOG_FRAME_MAGIC_SIZE)) LOG_FRAME_HEADER_SIZE = some record.header.toBytes := by
    simp only [LOG_FRAME_MAGIC_SIZE]
    rw [← front.2, wrap 2 (by omega)]
    exact read_inside (by simp) (by simp only [LOG_FRAME_HEADER_SIZE]; omega)
  have ends : ¬ u32 (addr + record.size) > s.config.endAddr := by
    rw [wrap _ (by omega)]
    omega
  have readBuf : s.flash.read addr record.size = some (s.flash.cellsFrom addr record.size) :=
    read_inside record.size_pos (by omega)
  have crc : (Crc32.calculate record.val.body).toNat =
      LittleEndian.decode (LittleEndian.encode LOG_FRAME_CRC_SIZE (Crc32.calculate record.val.body).toNat) :=
    (LittleEndian.decode_encode_of_lt (UInt32.toNat_lt _)).symm
  have sizeEq : LOG_FRAME_MAGIC_SIZE + LOG_FRAME_HEADER_SIZE + record.header.length.toNat + LOG_FRAME_CRC_SIZE =
    record.size := rfl
  have bodySize : record.size - LOG_FRAME_CRC_SIZE = 2 + 12 + record.header.length.toNat := rfl
  have offset : LOG_FRAME_MAGIC_SIZE + LOG_FRAME_HEADER_SIZE = 2 + 12 := rfl
  have crcSize : LOG_FRAME_CRC_SIZE = 4 := rfl
  simp only [isValidFrameAt, low, minEnds, readMagic, readHeader, LogFrameHeader.ofBytes_toBytes, fits, sizeEq, ends,
    readBuf, bodySize, bodyTake, ↓reduceIte, ne_eq, not_true_eq_false]
  rw [if_neg]
  rw [offset, crcSize, crcTake, ← crc]
  exact not_not.mpr rfl

/-- The frame check accepts an address exactly when the cells there hold the frame of
some record and all of it lies inside the area. -/
theorem isValidFrameAt_iff {s : FlashLogStorage} (config : isConfigValid s.config = true) (addr size : Nat)
    (header : LogFrameHeader) :
    s.isValidFrameAt addr = some (header, size) ↔
      s.config.startAddr ≤ addr ∧ addr + size ≤ s.config.endAddr ∧
        ∃ record : Record, record.header = header ∧ record.size = size ∧ s.flash.cellsFrom addr size = record.frame := by
  obtain ⟨_, _, flashEnd, _⟩ := (isConfigValid_iff _).mp config
  simp only [FLASH_SIZE] at flashEnd
  constructor
  · intro valid
    obtain ⟨above, inside, ends, magic, parsed, fits, shape, crc⟩ := isValidFrameAt_parts valid
    simp only [FLASH_SIZE] at inside
    simp only [u32] at ends parsed
    rw [Nat.mod_eq_of_lt (by omega)] at ends parsed
    refine ⟨above, ends, ?_⟩
    subst shape
    have dataSize : (s.flash.cellsFrom (addr + 14) header.length.toNat).length = header.length.toNat := by simp
    have headerBytes : header.toBytes = s.flash.cellsFrom (addr + 2) 12 := by
      rw [parsed]
      exact LogFrameHeader.toBytes_ofBytes _ (by simp)
    have split : s.flash.cellsFrom addr (18 + header.length.toNat) =
        s.flash.cellsFrom addr (14 + header.length.toNat) ++ s.flash.cellsFrom (addr + (14 + header.length.toNat)) 4 := by
      rw [← cellsFrom_add]
      congr 1
      omega
    have bodyBytes : s.flash.cellsFrom addr (14 + header.length.toNat) =
        LOG_FRAME_MAGIC ++ header.toBytes ++ s.flash.cellsFrom (addr + 14) header.length.toNat := by
      rw [cellsFrom_add _ _ 14, show 14 = 2 + 12 from rfl, cellsFrom_add, magic, headerBytes]
    have cut : 18 + header.length.toNat - 4 = (s.flash.cellsFrom addr (14 + header.length.toNat)).length := by
      simp
      omega
    rw [split, cut, List.take_left, List.drop_left, List.take_of_length_le (by simp)] at crc
    let record := Record.ofParts header (s.flash.cellsFrom (addr + 14) header.length.toNat) fits
    have body : record.val.body = s.flash.cellsFrom addr (14 + header.length.toNat) := by
      rw [bodyBytes, LogEvent.body, Record.data_ofParts fits dataSize]
      rfl
    have stored : LittleEndian.encode LOG_FRAME_CRC_SIZE (Crc32.calculate record.val.body).toNat =
        s.flash.cellsFrom (addr + (14 + header.length.toNat)) 4 := by
      rw [body, crc]
      simpa using LittleEndian.encode_decode (s.flash.cellsFrom (addr + (14 + header.length.toNat)) 4)
    refine ⟨record, rfl, ?_, ?_⟩
    · simp only [Record.size, LOG_FRAME_MAGIC_SIZE, LOG_FRAME_HEADER_SIZE, LOG_FRAME_CRC_SIZE]
      change 2 + 12 + header.length.toNat + 4 = _
      omega
    · rw [split, ← body, ← stored]
      rfl
  · rintro ⟨above, inside, record, rfl, rfl, held⟩
    exact isValidFrameAt_of_record above inside flashEnd held

theorem isValidFrameAt_of_head {s : FlashLogStorage} (config : isConfigValid s.config = true) {addr : Nat}
    (head : s.flash.cells addr ≠ 0xA5) : s.isValidFrameAt addr = none := by
  rw [Option.eq_none_iff_forall_ne_some]
  rintro ⟨header, size⟩ valid
  obtain ⟨_, _, record, _, rfl, held⟩ := (isValidFrameAt_iff config addr size header).mp valid
  have first := congrArg (fun bytes => bytes[0]?) held
  simp only [record.frame_head] at first
  rw [List.getElem?_eq_getElem (by simpa using record.size_pos), getElem_cellsFrom] at first
  exact head (Option.some.inj first)

theorem isValidFrameAt_magic {s : FlashLogStorage} (config : isConfigValid s.config = true) {addr : Nat}
    (valid : (s.isValidFrameAt addr).isSome) :
    s.config.startAddr ≤ addr ∧ addr < s.config.endAddr ∧ s.flash.cells addr = 0xA5 ∧ s.flash.cells (addr + 1) = 0x5A := by
  obtain ⟨⟨header, size⟩, found⟩ := Option.isSome_iff_exists.mp valid
  obtain ⟨above, inside, record, _, rfl, held⟩ := (isValidFrameAt_iff config addr size header).mp found
  have magic := (isValidFrameAt_parts found).2.2.2.1
  have positive := record.size_pos
  have cells : [s.flash.cells addr, s.flash.cells (addr + 1)] = LOG_FRAME_MAGIC := magic
  obtain ⟨first, rest⟩ := List.cons.inj cells
  exact ⟨above, by omega, first, (List.cons.inj rest).1⟩

theorem isValidFrameAt_congr {s t : FlashLogStorage} (config : isConfigValid s.config = true)
    (sameConfig : t.config = s.config)
    (same : ∀ a, s.config.startAddr ≤ a → a < s.config.endAddr → t.flash.cells a = s.flash.cells a) (addr : Nat) :
    t.isValidFrameAt addr = s.isValidFrameAt addr := by
  apply Option.ext
  rintro ⟨header, size⟩
  rw [isValidFrameAt_iff config, isValidFrameAt_iff (by rwa [sameConfig]), sameConfig]
  refine and_congr_right fun above => and_congr_right fun inside => ?_
  rw [cellsFrom_congr fun a low high => same a (by omega) (by omega)]

theorem readFrame_valid {s : FlashLogStorage} (config : isConfigValid s.config = true) (locked : s.mutexCreated = true)
    {addr size : Nat} {header : LogFrameHeader} (valid : s.isValidFrameAt addr = some (header, size)) :
    s.readFrame addr LOG_FRAME_MAX_SIZE = some (s.flash.cellsFrom addr size) := by
  obtain ⟨_, inside, record, _, rfl, _⟩ := (isValidFrameAt_iff config addr size header).mp valid
  obtain ⟨_, _, flashEnd, _⟩ := (isConfigValid_iff _).mp config
  have fits := record.size_le
  simp only [readFrame, lock, locked, valid, not_lt.mpr fits, Bool.not_true, Bool.false_eq_true, ↓reduceIte]
  exact read_inside record.size_pos (by omega)

end FlashLogStorage

end PicoWLogger
