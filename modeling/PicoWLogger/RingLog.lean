import PicoWLogger.FlashLogStorage
import PicoWLogger.Lib.RingOrder

/-! What the flash log is for: the most recent records, each at a known address, kept in
a ring of sectors. A record that does not fit behind the others of its sector begins the
following sector, whose old records are given up. -/

namespace PicoWLogger

def frameBytes (records : List Record) : List UInt8 := records.flatMap Record.frame

/-- The same frames with their addresses, from `addr` on. -/
def placed : Nat → List Record → List (Nat × Record)
  | _, [] => []
  | addr, record :: rest => (addr, record) :: placed (addr + record.size) rest

namespace Config

def base (config : Config) (k : Nat) : Nat := config.startAddr + 4096 * k

def sectors (config : Config) : Nat := (config.endAddr - config.startAddr) / 4096

def next (config : Config) (k : Nat) : Nat := (k + 1) % config.sectors

end Config

structure RingLog where
  records : Nat → List Record
  current : Nat

namespace RingLog

/-- Nothing stored yet; the first record begins sector 0. -/
def fresh (config : Config) : RingLog where
  records := fun _ => []
  current := config.sectors - 1

def used (ring : RingLog) (k : Nat) : Nat := (frameBytes (ring.records k)).length

def places (config : Config) (ring : RingLog) (k : Nat) : List (Nat × Record) :=
  placed (config.base k) (ring.records k)

/-- The stored records with their addresses, oldest first. -/
def live (config : Config) (ring : RingLog) : List (Nat × Record) :=
  RingOrder.unroll config.sectors (config.next ring.current) (ring.places config)

/-- Whether the next record goes behind the others of the current sector. -/
def Extends (ring : RingLog) (record : Record) : Prop :=
  0 < ring.used ring.current ∧ ring.used ring.current + record.size ≤ 4096

instance (ring : RingLog) (record : Record) : Decidable (ring.Extends record) :=
  inferInstanceAs (Decidable (_ ∧ _))

def append (config : Config) (ring : RingLog) (record : Record) : RingLog :=
  if ring.Extends record then
    { ring with
      records := Function.update ring.records ring.current (ring.records ring.current ++ [record]) }
  else
    { records := Function.update ring.records (config.next ring.current) [record]
      current := config.next ring.current }

end RingLog

end PicoWLogger
