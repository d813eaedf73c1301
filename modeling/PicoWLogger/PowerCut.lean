import PicoWLogger.FlashLogStorage

/-! Runs of the flash log under power cuts. A cut loses the object and keeps the cells;
a new object is initialised on them. Beside the storage the run records which frames were
programmed whole, which were acknowledged and which of them an erase has taken since. -/

namespace PicoWLogger
open FlashLogStorage

namespace FlashLogStorage

/-- A new object on the same flash, after its `init`. -/
def restart (s : FlashLogStorage) : FlashLogStorage :=
  ((FlashLogStorage.new s.flash s.config s.sharedIo).init true).2

/-- The supply fails after `budget` cell operations of the append; then a restart. -/
def cutAppend (s : FlashLogStorage) (budget : Nat) (data : List UInt8) : FlashLogStorage :=
  let broken := (append { s with flash := { s.flash with power := some budget } } data).2
  restart { s with flash := { s.flash with cells := broken.flash.cells } }

end FlashLogStorage

inductive PowerStep where
  | append (record : Record)
  | cut (record : Record) (budget : Nat)

structure LogHistory where
  storage : FlashLogStorage
  /-- Every record programmed whole so far, in order. -/
  written : List Record
  /-- The frames programmed whole whose sector was not erased since. -/
  complete : List (Nat × Record)
  /-- The frames whose append returned true and whose sector was not erased since. -/
  acked : List (Nat × Record)

/-- The frames that outlive the beginning of an append at `addr`: all of them, or all outside
the sector that it erases. -/
def outliving (erases : Bool) (addr : Nat) (places : List (Nat × Record)) : List (Nat × Record) :=
  if erases then places.filter fun place => ¬ (addr ≤ place.1 ∧ place.1 < addr + SECTOR_SIZE) else places

namespace LogHistory

def start (s : FlashLogStorage) : LogHistory where
  storage := s
  written := []
  complete := []
  acked := []

/-- The history after an append under `power` that answered `answer` and left `after`. -/
def advance (h : LogHistory) (power : Option Nat) (record : Record) (answer : Bool) (after : FlashLogStorage) :
    LogHistory :=
  let addr := h.storage.appendAddress record.size
  let unpowered := isSectorStart addr ∧ power = some 0
  let erases := isSectorStart addr && !decide unpowered
  let whole := ¬ unpowered ∧ after.flash.cellsFrom addr record.size = record.frame
  { storage := after
    written := h.written ++ if whole then [record] else []
    complete := outliving erases addr h.complete ++ if whole then [(addr, record)] else []
    acked := outliving erases addr h.acked ++ if answer then [(addr, record)] else [] }

def step (h : LogHistory) : PowerStep → LogHistory
  | .append record =>
    let result := h.storage.append record.frame
    h.advance none record result.1 result.2
  | .cut record budget => h.advance (some budget) record false (h.storage.cutAppend budget record.frame)

def run (h : LogHistory) (steps : List PowerStep) : LogHistory := steps.foldl step h

/-- No address but the start of a frame programmed whole passes the frame check. -/
def Honest (h : LogHistory) : Prop :=
  ∀ addr, (h.storage.isValidFrameAt addr).isSome → addr ∈ h.complete.map Prod.fst

end LogHistory

end PicoWLogger
