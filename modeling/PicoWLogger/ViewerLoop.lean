import PicoWLogger.LoggerViewer

/-! The receive loop of `logger_viewer.py` and what it counts. -/

namespace PicoWLogger.LoggerViewer
-- `binascii.crc32`, and whether `write_csv` gets the row of a frame written
variable (crc32 : List UInt8 → Nat) (writes : LogFrame → Bool)

/-- The loop of `main` for as many turns as pass before the interrupt: the frames counted, and where it stops. It ends
with the file, while a silent port is asked again, with a number of correct frames unless that is zero, and with a row that
`write_csv` raises an error for. -/
def receive (file : Bool) (limit : Nat) : Nat → ByteReader → Stats → List LogFrame × ByteReader × Stats
  | 0, reader, stats => ([], reader, stats)
  | turns + 1, reader, stats =>
    match readFrame crc32 reader stats with
    | (none, reader, stats) => if file then ([], reader, stats) else receive file limit turns reader stats
    | (some frame, reader, stats) =>
      let stats := countFrame stats frame
      if !writes frame then ([frame], reader, stats)
      else if limit > 0 ∧ stats.ok ≥ limit then ([frame], reader, stats)
      else
        let later := receive file limit turns reader stats
        (frame :: later.1, later.2)

end PicoWLogger.LoggerViewer
