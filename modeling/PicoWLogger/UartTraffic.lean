import PicoWLogger.FlashLogStorage
import PicoWLogger.UartCalls

/-! The two tasks that write frames to the UART. A dump holds the storage mutex and queues its
frames byte by byte; the logger task, of higher priority, queues a live frame in one call and
takes the mutex only for the append after it. -/

namespace PicoWLogger

/-- `dumping` is the loop of `write_buffer_blocking` inside a dump: what it has queued of the
frame, what is left of it, and the later frames. -/
inductive DumpState where
  | idle
  | dumping (sent rest : List UInt8) (later : List (List UInt8))

def DumpState.next : List (List UInt8) → DumpState
  | [] => .idle
  | frame :: later => .dumping [] frame later

def DumpState.midFrame : DumpState → Bool
  | .dumping (_ :: _) _ _ => true
  | _ => false

inductive LoggerState where
  | waiting
  | sending (record : Record)
  | dropping
  | appending (record : Record)
  | counting

inductive Task where
  | command
  | logger
  deriving DecidableEq

/-- The ring and the log with the states of the two tasks, the task that has the
processor, and all bytes accepted so far. -/
structure Traffic where
  uart : UartDma
  storage : FlashLogStorage
  dump : DumpState
  logger : LoggerState
  turn : Task
  accepted : List UInt8

inductive TrafficAction where
  /-- The commands `a` and `lN`. -/
  | sendFramesOldestFirst
  | sendLatestFrames (count : Nat)
  | writeByteBlocking
  | receive (record : Record)
  | sendFrame
  | append
  /-- The critical section of a counter, which leaves interrupts enabled. -/
  | count
  | switch (task : Task)
  | hardware (action : UartDma.HardwareAction)

def Record.buffer (record : Record) : ShortBuffer :=
  ⟨record.frame, Nat.lt_of_le_of_lt (record.length_frame ▸ record.size_le) (by decide)⟩

namespace Traffic

def start (uart : UartDma) (storage : FlashLogStorage) : Traffic where
  uart := uart
  storage := storage
  dump := .idle
  logger := .waiting
  turn := .command
  accepted := []

/-- The command task runs while the logger waits, for an event or for the mutex. -/
def runnable (s : Traffic) : Task → Bool
  | .logger => true
  | .command =>
    match s.logger, s.dump with
    | .waiting, _ | .appending _, .dumping _ _ _ => true
    | _, _ => false

def step (s : Traffic) : TrafficAction → Option Traffic
  | .sendFramesOldestFirst =>
    match s.turn, s.dump with
    | .command, .idle => some { s with dump := .next s.storage.sendFramesOldestFirst.2 }
    | _, _ => none
  | .sendLatestFrames count =>
    match s.turn, s.dump with
    | .command, .idle => some { s with dump := .next (s.storage.sendLatestFrames count).2 }
    | _, _ => none
  | .writeByteBlocking =>
    match s.turn, s.dump with
    | .command, .dumping _ [] later => some { s with dump := .next later }
    | .command, .dumping sent (b :: rest) later =>
      let put := s.uart.writeByte b
      if put.1 then
        some
          { s with
            uart := put.2
            dump := if rest = [] then .next later else .dumping (sent ++ [b]) rest later
            accepted := s.accepted ++ [b] }
      else some { s with uart := put.2 }
    | _, _ => none
  | .receive record =>
    match s.turn, s.logger with
    | .logger, .waiting => some { s with logger := .sending record }
    | _, _ => none
  | .sendFrame =>
    match s.turn, s.logger with
    | .logger, .sending record =>
      let put := s.uart.writeFrame record.buffer
      if put.1 then some { s with uart := put.2, logger := .appending record, accepted := s.accepted ++ record.frame }
      else some { s with uart := put.2, logger := .dropping }
    | _, _ => none
  | .append =>
    -- The mutex is free when no dump is running.
    match s.turn, s.logger, s.dump with
    | .logger, .appending record, .idle =>
      some { s with storage := (s.storage.append record.frame).2, logger := .counting }
    | _, _, _ => none
  | .count =>
    match s.turn, s.logger with
    | .logger, .dropping | .logger, .counting =>
      some { s with uart := s.uart.restoreInterrupts true, logger := .waiting }
    | _, _ => none
  | .switch task => if s.uart.interrupts && s.runnable task then some { s with turn := task } else none
  | .hardware action => (s.uart.hardware action).map fun uart => { s with uart := uart }

def IsFrame (bytes : List UInt8) : Prop := ∃ record : Record, bytes = record.frame

/-- The accepted bytes are complete frames, one after the other, and at the end the part that
the dump has queued of its frame. -/
def WholeFrames (s : Traffic) : Prop :=
  ∃ (frames : List (List UInt8)) (part : List UInt8), s.accepted = frames.flatten ++ part ∧ (∀ frame ∈ frames, IsFrame frame) ∧
    (part = [] ∨ ∃ rest later, s.dump = .dumping part rest later ∧ IsFrame (part ++ rest))

/-- The logger does not queue a frame while the dump is inside one, unless it finds no room. -/
def Apart (s : Traffic) (action : TrafficAction) : Prop :=
  ∀ record, action = .sendFrame → s.logger = .sending record → s.dump.midFrame = true →
    s.uart.txFreeSpaceLocked.toNat < record.size

end Traffic

end PicoWLogger
