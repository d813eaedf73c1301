import PicoWLogger.FlashLogStorage

/-! The two walks over the log that send nothing: `dumpFramesOldestFirst` lists the frames, and
`readFramesOldestFirstTest` reads them. -/

namespace PicoWLogger.FlashLogStorage

structure ListedFrame where
  addr : Nat
  header : LogFrameHeader
  frameSize : Nat
  deriving DecidableEq

def dumpLoop (s : FlashLogStorage) (addr scanned : Nat) : List ListedFrame :=
  if scanned < s.config.endAddr - s.config.startAddr then
    match _valid : s.isValidFrameAt addr with
    | some (header, frameSize) =>
      ⟨addr, header, frameSize⟩ ::
        if header.seq = s.newestSeq then []
        else dumpLoop s (s.wrapAddress (u32 (addr + frameSize))) (scanned + frameSize)
    | none => dumpLoop s (s.wrapAddress (u32 (addr + 1))) (scanned + 1)
  else []
termination_by s.config.endAddr - s.config.startAddr - scanned
decreasing_by
  · have size := isValidFrameAt_size _valid
    simp only [LOG_FRAME_MAGIC_SIZE] at size
    omega
  · omega

/-- It goes without the mutex. -/
def dumpFramesOldestFirst (s : FlashLogStorage) : Bool × List ListedFrame :=
  if !s.initialized then (false, [])
  else if s.validFrameCount = 0 then (true, [])
  else (true, s.dumpLoop s.oldestAddr 0)

def readTestLoop (s : FlashLogStorage) (addr scanned : Nat) : Bool × List (ListedFrame × List UInt8) :=
  if scanned < s.config.endAddr - s.config.startAddr then
    match s.isValidFrameAt addr with
    | some (header, frameSize) =>
      match _read : s.readFrame addr LOG_FRAME_MAX_SIZE with
      | none => (false, [])
      | some frame =>
        let here := (⟨addr, header, frameSize⟩, frame)
        if header.seq = s.newestSeq then (true, [here])
        else
          let later := readTestLoop s (s.wrapAddress (u32 (addr + frame.length))) (scanned + frame.length)
          (later.1, here :: later.2)
    | none => readTestLoop s (s.wrapAddress (u32 (addr + 1))) (scanned + 1)
  else (true, [])
termination_by s.config.endAddr - s.config.startAddr - scanned
decreasing_by
  · have := readFrame_length _read
    omega
  · omega

def readFramesOldestFirstTest (s : FlashLogStorage) : Bool × List (ListedFrame × List UInt8) :=
  if !s.initialized then (false, [])
  else if s.validFrameCount = 0 then (true, [])
  else s.readTestLoop s.oldestAddr 0

end PicoWLogger.FlashLogStorage
