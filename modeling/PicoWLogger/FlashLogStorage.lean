import PicoWLogger.FlashDriver
import PicoWLogger.LogProtocol
import PicoWLogger.Lib.Scan
import PicoWLogger.Lib.SerialOrder

/-! `FlashLogStorage.cpp`: the ring of log frames in a sector-aligned flash area, its
in-memory index, and the scans that rebuild the index and dump the frames. -/

namespace PicoWLogger

structure Config where
  startAddr : Nat
  endAddr : Nat
  deriving DecidableEq

/-- The object with the chip it owns. `mutex_` is taken with `portMAX_DELAY`, so taking
it fails only when it was never created. -/
structure FlashLogStorage where
  flash : FlashDriver
  config : Config
  writeAddr : Nat
  oldestAddr : Nat
  newestAddr : Nat
  newestSeq : UInt32
  validFrameCount : Nat
  /-- Whether each coming take of `shared_io_mutex_` succeeds within 1000 ms; a null
  handle is the stream that always does. -/
  sharedIo : Nat → Bool
  initialized : Bool
  mutexCreated : Bool
  /-- `g_flash_maintenance_busy` of `FlashBusy.cpp`. -/
  maintenanceBusy : Bool

/-- The members that describe the ring. -/
@[ext]
structure Index where
  writeAddr : Nat
  oldestAddr : Nat
  newestAddr : Nat
  newestSeq : UInt32
  validFrameCount : Nat
  deriving DecidableEq

namespace FlashLogStorage
open FlashDriver

def index (s : FlashLogStorage) : Index where
  writeAddr := s.writeAddr
  oldestAddr := s.oldestAddr
  newestAddr := s.newestAddr
  newestSeq := s.newestSeq
  validFrameCount := s.validFrameCount

def new (flash : FlashDriver) (config : Config) (sharedIo : Nat → Bool) : FlashLogStorage where
  flash := flash
  config := config
  writeAddr := 0
  oldestAddr := 0
  newestAddr := 0
  newestSeq := 0
  validFrameCount := 0
  sharedIo := sharedIo
  initialized := false
  mutexCreated := false
  maintenanceBusy := false

def isConfigValid (config : Config) : Bool :=
  if config.startAddr ≥ config.endAddr then false
  else if config.startAddr % SECTOR_SIZE ≠ 0 then false
  else if config.endAddr > FLASH_SIZE then false
  else if config.endAddr % SECTOR_SIZE ≠ 0 then false
  else true

def lock (s : FlashLogStorage) : Bool := s.mutexCreated

/-- `lock_shared_io(shared_io_mutex_, pdMS_TO_TICKS(1000))`. -/
def lockSharedIo (s : FlashLogStorage) : Bool × FlashLogStorage :=
  (s.sharedIo 0, { s with sharedIo := fun n => s.sharedIo (n + 1) })

def isSectorStart (addr : Nat) : Bool := addr % SECTOR_SIZE = 0

def nextSectorAddress (addr : Nat) : Nat :=
  let sectorOffset := addr % SECTOR_SIZE
  if sectorOffset = 0 then u32 (addr + SECTOR_SIZE) else u32 (addr + (SECTOR_SIZE - sectorOffset))

def currentSectorEnd (addr : Nat) : Nat := u32 ((addr &&& complement32 (SECTOR_SIZE - 1)) + SECTOR_SIZE)

def wrapAddress (s : FlashLogStorage) (addr : Nat) : Nat :=
  if addr ≥ s.config.endAddr then s.config.startAddr else addr

/-- `static_cast<int32_t>(a - b) > 0`. -/
def isSeqNewer (a b : UInt32) : Bool := SerialOrder.newer a b

def isRangeValid (s : FlashLogStorage) (addr len : Nat) : Bool :=
  if !s.initialized || len = 0 then false
  else if addr < s.config.startAddr then false
  else if addr ≥ s.config.endAddr then false
  else if u32 (addr + len) > s.config.endAddr then false
  else true

/-- `none` is the return value false; otherwise the header and the frame size. -/
def isValidFrameAt (s : FlashLogStorage) (addr : Nat) : Option (LogFrameHeader × Nat) :=
  let minSize := LOG_FRAME_MAGIC_SIZE + LOG_FRAME_HEADER_SIZE + LOG_FRAME_CRC_SIZE
  if addr < s.config.startAddr then none
  else if u32 (addr + minSize) > s.config.endAddr then none
  else
    match s.flash.read addr LOG_FRAME_MAGIC_SIZE with
    | none => none
    | some magic =>
      if magic ≠ LOG_FRAME_MAGIC then none
      else
        match s.flash.read (u32 (addr + LOG_FRAME_MAGIC_SIZE)) LOG_FRAME_HEADER_SIZE with
        | none => none
        | some headerBytes =>
          let header := LogFrameHeader.ofBytes headerBytes
          if header.length.toNat > LOG_FRAME_MAX_PAYLOAD then none
          else
            let frameSize := LOG_FRAME_MAGIC_SIZE + LOG_FRAME_HEADER_SIZE + header.length.toNat + LOG_FRAME_CRC_SIZE
            if u32 (addr + frameSize) > s.config.endAddr then none
            else
              match s.flash.read addr frameSize with
              | none => none
              | some frameBuf =>
                let crcOffset := LOG_FRAME_MAGIC_SIZE + LOG_FRAME_HEADER_SIZE + header.length.toNat
                let storedCrc := LittleEndian.decode ((frameBuf.drop crcOffset).take LOG_FRAME_CRC_SIZE)
                let calcCrc := Crc32.calculate (frameBuf.take (frameSize - LOG_FRAME_CRC_SIZE))
                if calcCrc.toNat ≠ storedCrc then none else some (header, frameSize)

theorem isValidFrameAt_size {s : FlashLogStorage} {addr size : Nat} {header : LogFrameHeader}
    (valid : s.isValidFrameAt addr = some (header, size)) :
    size = LOG_FRAME_MAGIC_SIZE + LOG_FRAME_HEADER_SIZE + header.length.toNat + LOG_FRAME_CRC_SIZE := by
  simp only [isValidFrameAt] at valid
  repeat' split at valid
  all_goals cases valid
  rfl

/-- The probe of every scan: step over a valid frame, otherwise move by one byte. -/
def scanner (s : FlashLogStorage) : Scanner LogFrameHeader where
  probe := s.isValidFrameAt
  advances := fun found => by
    rw [isValidFrameAt_size found]
    simp

def isErasedAt (s : FlashLogStorage) (addr : Nat) : Bool :=
  if addr < s.config.startAddr ∨ addr ≥ s.config.endAddr then false
  else
    match s.flash.read addr 1 with
    | none => false
    | some bytes => bytes = [0xFF]

/-- The locals of `rebuildIndexFromFlash`. -/
structure RebuildScan where
  found : Bool
  oldestSeq : UInt32
  oldestAddr : Nat
  newestSeq : UInt32
  newestAddr : Nat
  newestNextAddr : Nat
  count : Nat

/-- The body of the scan for a valid frame. -/
def visitFrame (s : FlashLogStorage) (acc : RebuildScan) (hit : Scanner.Hit LogFrameHeader) : RebuildScan :=
  let nextAddr := s.wrapAddress (u32 (hit.addr + hit.width))
  if !acc.found then
    { found := true
      oldestSeq := hit.item.seq, oldestAddr := hit.addr
      newestSeq := hit.item.seq, newestAddr := hit.addr, newestNextAddr := nextAddr
      count := acc.count + 1 }
  else
    let acc' :=
      if isSeqNewer hit.item.seq acc.newestSeq then
        { acc with newestSeq := hit.item.seq, newestAddr := hit.addr, newestNextAddr := nextAddr }
      else acc
    let acc'' :=
      if isSeqNewer acc'.oldestSeq hit.item.seq then
        { acc' with oldestSeq := hit.item.seq, oldestAddr := hit.addr }
      else acc'
    { acc'' with count := acc.count + 1 }

def rebuildScan (s : FlashLogStorage) : RebuildScan :=
  s.scanner.fold s.config.endAddr s.visitFrame s.config.startAddr
    { found := false
      oldestSeq := 0, oldestAddr := s.config.startAddr
      newestSeq := 0, newestAddr := s.config.startAddr, newestNextAddr := s.config.startAddr
      count := 0 }

/-- Move a dirty write address on to the next sector. -/
def escapeDirty (s : FlashLogStorage) : FlashLogStorage :=
  if !s.isErasedAt s.writeAddr then
    { s with writeAddr := s.wrapAddress (nextSectorAddress s.writeAddr) }
  else s

def rebuildIndexFromFlash (s : FlashLogStorage) : FlashLogStorage :=
  let acc := s.rebuildScan
  if acc.found then
    escapeDirty
      { s with
        oldestAddr := acc.oldestAddr
        newestAddr := acc.newestAddr
        newestSeq := acc.newestSeq
        writeAddr := acc.newestNextAddr
        validFrameCount := acc.count }
  else
    escapeDirty
      { s with
        oldestAddr := s.config.startAddr
        newestAddr := s.config.startAddr
        newestSeq := 0
        writeAddr := s.config.startAddr
        validFrameCount := 0 }

/-- `created` is whether `xSemaphoreCreateRecursiveMutex` returns a handle. -/
def init (s : FlashLogStorage) (created : Bool) : Bool × FlashLogStorage :=
  if !isConfigValid s.config then (false, s)
  else if !s.mutexCreated && !created then (false, s)
  else
    (true, rebuildIndexFromFlash
      { s with
        mutexCreated := true
        writeAddr := s.config.startAddr
        oldestAddr := s.config.startAddr
        newestAddr := s.config.startAddr
        newestSeq := 0
        validFrameCount := 0
        initialized := true })

def restoreWriteAddress (s : FlashLogStorage) : Bool × FlashLogStorage :=
  if !s.initialized then (false, s)
  else if !s.lock then (false, s)
  else (true, s.rebuildIndexFromFlash)

/-- The search of `invalidateFramesInErasedSector` for a new oldest frame. -/
def searchOldest (s : FlashLogStorage) (scan scanned : Nat) : Option Nat :=
  if scanned < s.config.endAddr - s.config.startAddr then
    if (s.isValidFrameAt scan).isSome then some scan
    else searchOldest s (s.wrapAddress (u32 (scan + 1))) (scanned + 1)
  else none
termination_by s.config.endAddr - s.config.startAddr - scanned

/-- The frames a scan of one sector counts. -/
def countSector (s : FlashLogStorage) (sectorAddr : Nat) : Nat :=
  s.scanner.fold (min (u32 (sectorAddr + SECTOR_SIZE)) s.config.endAddr) (fun removed _ => removed + 1) sectorAddr 0

def invalidateFramesInErasedSector (s : FlashLogStorage) (sectorAddr : Nat) : FlashLogStorage :=
  if s.validFrameCount = 0 then s
  else
    let sectorEnd := u32 (sectorAddr + SECTOR_SIZE)
    let removed := s.countSector sectorAddr
    if removed ≥ s.validFrameCount then
      { s with
        validFrameCount := 0
        oldestAddr := s.config.startAddr
        newestAddr := s.config.startAddr
        newestSeq := 0
        writeAddr := sectorAddr }
    else
      let s := { s with validFrameCount := s.validFrameCount - removed }
      if s.oldestAddr ≥ sectorAddr ∧ s.oldestAddr < sectorEnd then
        match s.searchOldest (s.wrapAddress sectorEnd) 0 with
        | some addr => { s with oldestAddr := addr }
        | none =>
          { s with
            validFrameCount := 0
            oldestAddr := s.config.startAddr
            newestAddr := s.config.startAddr
            newestSeq := 0 }
      else s

def updateIndexAfterAppend (s : FlashLogStorage) (frameAddr : Nat) (header : LogFrameHeader) : FlashLogStorage :=
  if s.validFrameCount = 0 then
    { s with oldestAddr := frameAddr, newestAddr := frameAddr, newestSeq := header.seq, validFrameCount := 1 }
  else
    { s with newestAddr := frameAddr, newestSeq := header.seq, validFrameCount := s.validFrameCount + 1 }

/-- Where `append` puts `len` bytes: at the write address, or at the start of the next
sector when they would cross the end of the current one. -/
def appendAddress (s : FlashLogStorage) (len : Nat) : Nat :=
  let addr := s.wrapAddress s.writeAddr
  if u32 (addr + len) > currentSectorEnd addr then s.wrapAddress (nextSectorAddress addr) else addr

/-- The step of `append` that empties a sector before writing at its start. -/
def beginSector (s : FlashLogStorage) (addr : Nat) : Bool × FlashLogStorage :=
  if !isSectorStart addr then (true, s)
  else
    match (s.invalidateFramesInErasedSector addr).lockSharedIo with
    | (false, s) => (false, s.rebuildIndexFromFlash)
    | (true, s) =>
      match s.flash.sectorErase addr with
      | (false, flash) => (false, rebuildIndexFromFlash { s with flash })
      | (true, flash) => (true, { s with flash })

/-- The page loop of `append`; `some` is the address after the last byte. -/
def programPages (s : FlashLogStorage) (oldWriteAddr addr : Nat) (p : List UInt8) : Option Nat × FlashLogStorage :=
  if p.length > 0 then
    let pageOffset := addr &&& (PAGE_SIZE - 1)
    let pageRemain := PAGE_SIZE - pageOffset
    let chunk := min p.length pageRemain
    if u32 (addr + chunk) > s.config.endAddr then
      (none, rebuildIndexFromFlash { s with writeAddr := oldWriteAddr })
    else
      match s.lockSharedIo with
      | (false, s) => (none, s.rebuildIndexFromFlash)
      | (true, s) =>
        match s.flash.pageProgram addr (p.take chunk) with
        | (false, flash) => (none, rebuildIndexFromFlash { s with flash, writeAddr := oldWriteAddr })
        | (true, flash) => programPages { s with flash } oldWriteAddr (u32 (addr + chunk)) (p.drop chunk)
  else (some addr, s)
termination_by p.length
decreasing_by
  have : addr &&& (PAGE_SIZE - 1) ≤ PAGE_SIZE - 1 := Nat.and_le_right
  simp only [List.length_drop, PAGE_SIZE] at this ⊢
  omega

def append (s : FlashLogStorage) (data : List UInt8) : Bool × FlashLogStorage :=
  if !s.initialized then (false, s)
  else if data.length = 0 then (false, s)
  else if !s.lock then (false, s)
  else
    let oldWriteAddr := s.writeAddr
    if data.length > SECTOR_SIZE then (false, s)
    else
      let addr := s.appendAddress data.length
      match s.beginSector addr with
      | (false, s) => (false, s)
      | (true, s) =>
        match s.programPages oldWriteAddr addr data with
        | (none, s) => (false, s)
        | (some last, s) =>
          let s := { s with writeAddr := s.wrapAddress last }
          match s.isValidFrameAt addr with
          | none => (false, rebuildIndexFromFlash { s with writeAddr := oldWriteAddr })
          | some (header, _) => (true, s.updateIndexAfterAppend addr header)

/-- The sector loop of `eraseLogArea`. -/
def eraseSectors (s : FlashLogStorage) (endAddr addr : Nat) : Bool × FlashLogStorage :=
  if addr < endAddr then
    match s.lockSharedIo with
    | (false, s) => (false, s)
    | (true, s) =>
      match s.flash.sectorErase addr with
      | (false, flash) => (false, { s with flash })
      | (true, flash) => eraseSectors { s with flash } endAddr (addr + SECTOR_SIZE)
  else (true, s)
termination_by endAddr - addr
decreasing_by
  simp only [SECTOR_SIZE]
  omega

def eraseLogArea (s : FlashLogStorage) : Bool × FlashLogStorage :=
  if !s.initialized then (false, s)
  else if !s.lock then (false, s)
  else
    match eraseSectors { s with maintenanceBusy := true } s.config.endAddr s.config.startAddr with
    | (false, s) => (false, s)
    | (true, s) =>
      (true, { s with
        maintenanceBusy := false
        writeAddr := s.config.startAddr
        oldestAddr := s.config.startAddr
        newestAddr := s.config.startAddr
        newestSeq := 0
        validFrameCount := 0 })

def read (s : FlashLogStorage) (addr len : Nat) : Option (List UInt8) :=
  if !s.isRangeValid addr len then none
  else if !s.lock then none
  else s.flash.read addr len

/-- `none` is the return value false, otherwise `*out_len` bytes of `out`. -/
def readFrame (s : FlashLogStorage) (addr outSize : Nat) : Option (List UInt8) :=
  if !s.lock then none
  else
    match s.isValidFrameAt addr with
    | none => none
    | some (_, frameSize) => if frameSize > outSize then none else s.flash.read addr frameSize

/-- `readFrame` with the buffer at `out` and the number at `out_len` as they are before and after the call;
`none` is a null pointer. -/
def readFrameInto (s : FlashLogStorage) (addr outSize : Nat) (out : Option (List UInt8)) (outLen : Option Nat) :
    Bool × Option (List UInt8) × Option Nat :=
  match out, outLen with
  | none, outLen => (false, none, outLen)
  | some buf, none => (false, some buf, none)
  | some buf, some before =>
    if !s.lock then (false, some buf, some before)
    else
      match s.isValidFrameAt addr with
      | none => (false, some buf, some 0)
      | some (_, frameSize) =>
        if frameSize > outSize then (false, some buf, some 0)
        else
          match s.flash.read addr frameSize with
          | none => (false, some buf, some 0)
          | some frame => (true, some (frame ++ buf.drop frameSize), some frameSize)

theorem cellsFrom_length (flash : FlashDriver) (addr len : Nat) : (flash.cellsFrom addr len).length = len := by
  simp [cellsFrom]

theorem readFrame_length {s : FlashLogStorage} {addr outSize : Nat} {frame : List UInt8}
    (sent : s.readFrame addr outSize = some frame) : 0 < frame.length := by
  simp only [readFrame] at sent
  split at sent
  · cases sent
  · split at sent
    · cases sent
    next header size valid =>
      split at sent
      · cases sent
      · simp only [FlashDriver.read] at sent
        split at sent
        · cases sent
          rw [cellsFrom_length, isValidFrameAt_size valid]
          simp
        · cases sent

/-- The loop of `sendFramesOldestFirst` (`skipCount = 0`) and `sendLatestFrames`: the
result and the buffers handed to `write_buffer_blocking`, in order. -/
def sendLoop (s : FlashLogStorage) (skipCount addr scanned validSeen : Nat) : Bool × List (List UInt8) :=
  if scanned < s.config.endAddr - s.config.startAddr then
    match s.isValidFrameAt addr with
    | some (header, _) =>
      match _sent : s.readFrame addr LOG_FRAME_MAX_SIZE with
      | none => (false, [])
      | some frame =>
        let here := if validSeen ≥ skipCount then [frame] else []
        if header.seq = s.newestSeq then (true, here)
        else
          let later := sendLoop s skipCount (s.wrapAddress (u32 (addr + frame.length))) (scanned + frame.length)
            (validSeen + 1)
          (later.1, here ++ later.2)
    | none => sendLoop s skipCount (s.wrapAddress (u32 (addr + 1))) (scanned + 1) validSeen
  else (true, [])
termination_by s.config.endAddr - s.config.startAddr - scanned
decreasing_by
  · have := readFrame_length _sent
    omega
  · omega

def sendFramesOldestFirst (s : FlashLogStorage) : Bool × List (List UInt8) :=
  if !s.initialized then (false, [])
  else if !s.lock then (false, [])
  else if s.validFrameCount = 0 then (true, [])
  else s.sendLoop 0 s.oldestAddr 0 0

def sendLatestFrames (s : FlashLogStorage) (count : Nat) : Bool × List (List UInt8) :=
  if !s.initialized then (false, [])
  else if !s.lock then (false, [])
  else if count = 0 then (true, [])
  else if s.validFrameCount = 0 then (true, [])
  else
    let targetCount := if count > s.validFrameCount then s.validFrameCount else count
    s.sendLoop (s.validFrameCount - targetCount) s.oldestAddr 0 0

end FlashLogStorage

end PicoWLogger
