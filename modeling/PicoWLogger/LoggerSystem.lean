import PicoWLogger.EventLogger
import PicoWLogger.Lib.Machine

/-! The event logger among its callers. A call of `log` or `logFromISR` draws its number in one
critical section, sends the event to the queue and counts in another; the logger task
takes events from the queue to the UART and the flash; the command task may erase the log. Calls
from interrupts are interleaved as freely as those of tasks. -/

namespace PicoWLogger

/-- A numbered event, with the count of the events numbered before it. -/
structure Ticket where
  number : Nat
  record : Record

/-- What a call has still to do after it sent or gave up its event. -/
inductive Finish where
  | counted (isr : Bool)
  | dropped
  deriving DecidableEq

inductive LoggerTask where
  | waiting
  | received (ticket : Ticket)
  | sent (ticket : Ticket)
  | failed (ticket : Ticket)
  | appended (ticket : Ticket)
  | dropping

/-- The event that the task still has to append. -/
def LoggerTask.pending : LoggerTask → List Ticket
  | .received ticket | .sent ticket => [ticket]
  | _ => []

inductive EraseCommand where
  | idle
  | erased
  deriving DecidableEq

/-- Calls in progress stand in three lists: those without a number, those with one, in the order
of the numbers, and those that only have to count. The last five members record the run. -/
structure LoggerSystem where
  logger : EventLogger
  queue : List Ticket
  queueLength : Nat
  entered : List (LogRequest × Bool)
  numbered : List (Ticket × Bool)
  finishing : List Finish
  task : LoggerTask
  command : EraseCommand
  storage : FlashLogStorage
  /-- How many events were numbered. -/
  logged : Nat
  /-- How many erase commands were carried out. -/
  erases : Nat
  /-- The events taken from the queue, those whose frame the UART accepted, and those
  whose frame was put on the flash since the log area was last erased. -/
  dequeued : List Ticket
  live : List Ticket
  stored : List Ticket

inductive LoggerAction where
  | log (request : LogRequest) (isr : Bool)
  /-- `none` when the format is null or `vsnprintf` fails. -/
  | logf (level : LogLevel) (text : Option (List UInt8))
  | sendStats
  | makeEvent (index : Nat) (timestampUs : UInt32)
  | xQueueSend (index : Nat)
  | finish (index : Nat)
  | receive
  | sendFrame (accepted : Bool)
  | append
  | incrementDropCount
  | countSent
  | eraseLogArea
  | setNextSeq

/-- A call of `append` puts the frame on the flash when it returns true, and also when it reports an
error behind the last program, such as a busy chip: then the frame lies whole at its place. -/
def FlashLogStorage.putsFrame (s : FlashLogStorage) (frame : List UInt8) : Bool :=
  let result := s.append frame
  result.1 || result.2.flash.cellsFrom (s.appendAddress frame.length) frame.length == frame

namespace LoggerSystem

def start (seq : UInt32) (queueLength : Nat) (storage : FlashLogStorage) : LoggerSystem where
  logger := .new seq
  queue := []
  queueLength := queueLength
  entered := []
  numbered := []
  finishing := []
  task := .waiting
  command := .idle
  storage := storage
  logged := 0
  erases := 0
  dequeued := []
  live := []
  stored := []

/-- The number is drawn and the event made, or the call is refused for its length. -/
def makeEvent (s : LoggerSystem) (index : Nat) (request : LogRequest) (isr : Bool) (timestampUs : UInt32) : LoggerSystem :=
  if fits : request.len.toNat ≤ LOG_PAYLOAD_MAX then
    let drawn := s.logger.nextSeq
    { s with
      logger := drawn.2
      entered := s.entered.eraseIdx index
      numbered := s.numbered ++ [({ number := s.logged, record := request.event fits drawn.1 timestampUs }, isr)]
      logged := s.logged + 1 }
  else { s with entered := s.entered.eraseIdx index, finishing := s.finishing ++ [.dropped] }

/-- The send does not wait; a full queue refuses it. -/
def xQueueSend (s : LoggerSystem) (index : Nat) (ticket : Ticket) (isr : Bool) : LoggerSystem :=
  if s.queue.length < s.queueLength then
    { s with
      queue := s.queue ++ [ticket]
      numbered := s.numbered.eraseIdx index
      finishing := s.finishing ++ [.counted isr] }
  else { s with numbered := s.numbered.eraseIdx index, finishing := s.finishing ++ [.dropped] }

def finish (s : LoggerSystem) (index : Nat) : Finish → LoggerSystem
  | .counted isr =>
    { s with
      logger := s.logger.countEnqueued isr (UInt32.ofNat s.queue.length)
      finishing := s.finishing.eraseIdx index }
  | .dropped => { s with logger := s.logger.incrementDropCount, finishing := s.finishing.eraseIdx index }

def step (s : LoggerSystem) : LoggerAction → Option LoggerSystem
  | .log request isr => some { s with entered := s.entered ++ [(request, isr)] }
  | .logf level (some text) => some { s with entered := s.entered ++ [(.text level text, false)] }
  | .logf _ none => some { s with finishing := s.finishing ++ [.dropped] }
  | .sendStats => some { s with entered := s.entered ++ [(s.logger.statsRequest, false)] }
  | .makeEvent index timestampUs =>
    s.entered[index]?.map fun call => s.makeEvent index call.1 call.2 timestampUs
  | .xQueueSend index => s.numbered[index]?.map fun call => s.xQueueSend index call.1 call.2
  | .finish index => s.finishing[index]?.map (s.finish index)
  | .receive =>
    match s.task, s.queue with
    | .waiting, ticket :: rest =>
      some { s with task := .received ticket, queue := rest, dequeued := s.dequeued ++ [ticket] }
    | _, _ => none
  | .sendFrame accepted =>
    match s.task with
    | .received ticket =>
      some (if accepted then { s with task := .sent ticket, live := s.live ++ [ticket] } else { s with task := .dropping })
    | _ => none
  | .append =>
    match s.task with
    | .sent ticket =>
      let result := s.storage.append ticket.record.frame
      some { s with
        task := if result.1 then .appended ticket else .failed ticket
        storage := result.2
        stored := if s.storage.putsFrame ticket.record.frame then s.stored ++ [ticket] else s.stored }
    | _ => none
  | .incrementDropCount =>
    match s.task with
    | .dropping => some { s with task := .waiting, logger := s.logger.incrementDropCount }
    | .failed ticket => some { s with task := .appended ticket, logger := s.logger.incrementDropCount }
    | _ => none
  | .countSent =>
    match s.task with
    | .appended ticket => some { s with task := .waiting, logger := s.logger.countSent ticket.record.size }
    | _ => none
  | .eraseLogArea =>
    match s.command with
    | .idle =>
      let result := s.storage.eraseLogArea
      some
        (if result.1 then { s with command := .erased, storage := result.2, stored := [] }
        else { s with storage := result.2 })
    | .erased => none
  | .setNextSeq =>
    match s.command with
    | .erased => some { s with command := .idle, logger := s.logger.setNextSeq 0, erases := s.erases + 1 }
    | .idle => none

/-- A send that the queue takes is of the oldest number drawn and not yet sent. -/
def InTurn (s : LoggerSystem) (action : LoggerAction) : Prop :=
  ∀ index, action = .xQueueSend index → s.queue.length < s.queueLength → index = 0

def Unerased (action : LoggerAction) : Prop := action ≠ .eraseLogArea

/-- The counter is reset only when no event with an old number is under way or on the flash. -/
def Drained (s : LoggerSystem) (action : LoggerAction) : Prop :=
  action = .setNextSeq → s.numbered = [] ∧ s.queue = [] ∧ s.task.pending = [] ∧ s.stored = []

end LoggerSystem

/-- Later numbers behind earlier ones, and newer to `isSeqNewer` unless 2^31 numbers or more
lie between. -/
def InSeqOrder (tickets : List Ticket) : Prop :=
  tickets.Pairwise fun earlier later => earlier.number < later.number ∧
    (later.number < earlier.number + 2 ^ 31 → FlashLogStorage.isSeqNewer later.record.seq earlier.record.seq = true)

end PicoWLogger
