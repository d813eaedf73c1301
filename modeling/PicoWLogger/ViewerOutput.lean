import PicoWLogger.Lib.PyText
import PicoWLogger.ViewerCsv
import PicoWLogger.ViewerLoop

/-! What `logger_viewer.py` prints: a line for each frame and the summaries between them. -/

namespace PicoWLogger.LoggerViewer
open DecimalText PyText

def color (s : List Char) (c : Nat) : List Char := "\x1b[".toList ++ str c ++ ['m'] ++ s ++ "\x1b[0m".toList

/-- `f"{n:{width}d}"`. -/
def padLeft (width : Nat) (s : List Char) : List Char := List.replicate (width - s.length) ' ' ++ s

/-- `f"{s:{width}s}"`. -/
def padRight (width : Nat) (s : List Char) : List Char := s ++ List.replicate (width - s.length) ' '

def baseText (frame : LogFrame) : List Char :=
  ['['] ++ padLeft 10 (str frame.timestampUs) ++ " us] seq=".toList ++ padLeft 6 (str frame.seq) ++ [' '] ++
    padRight 5 (levelName frame.level) ++ [' '] ++ padRight 12 (eventName frame.eventId)

def formatLine (frame : LogFrame) (stats : Stats) (okCount ngCount : Nat) (seqOk : Bool) (seqNote : List Char) : List Char :=
  let body := payloadToText frame
  let payloadPart :=
    if (frame.eventId = 200 ∨ frame.eventId = 210) ∧ body ≠ [] then "msg=\x22".toList ++ body ++ ['\x22']
    else if body ≠ [] then "data=".toList ++ body
    else []
  let crcPart := if frame.crcOk then color "crc=OK".toList 32 else color "crc=NG".toList 31
  let seqPart := "seq_ok=".toList ++ str (if seqOk then 1 else 0)
  let tail := "ok=".toList ++ str okCount ++ " ng=".toList ++ str ngCount ++ " gap=".toList ++ str stats.seqGap ++
    " late=".toList ++ str stats.seqLate ++ " dup=".toList ++ str stats.seqDup
  let parts := [baseText frame] ++ (if payloadPart ≠ [] then [payloadPart] else []) ++ [crcPart, seqPart] ++
    (if !seqOk then [seqNote] else []) ++ [tail]
  [' '].intercalate parts

def frameLine (stats : Stats) (frame : LogFrame) : List Char :=
  let counted := countFrame stats frame
  let (seqOk, seqNote) :=
    if frame.crcOk then (updateSeqStats frame { stats with ok := stats.ok + 1 }).1 else (false, "crc_ng")
  formatLine frame counted counted.ok counted.crcNg seqOk seqNote.toList

def summaryLine (stats : Stats) (elapsed : ℚ) : List Char :=
  let rate := if elapsed > 0 then roundBinary 53 (stats.ok / elapsed) else 0
  "--- summary --- ok=".toList ++ str stats.ok ++ " crc_ng=".toList ++ str stats.crcNg ++ " gap=".toList ++
    str stats.seqGap ++ " late=".toList ++ str stats.seqLate ++ " dup=".toList ++ str stats.seqDup ++ " sync=".toList ++
    str stats.sync ++ " elapsed=".toList ++ chars (fixed 1 elapsed) ++ "s rate=".toList ++ chars (fixed 1 rate) ++
    " frame/s bytes=".toList ++ str stats.totalBytes

def printSummary (stats : Stats) (elapsed : ℚ) : List Char := ['\n'] ++ summaryLine stats elapsed ++ ['\n']

-- `binascii.crc32`, and whether `write_csv` gets the row of a frame written
variable (crc32 : List UInt8 → Nat) (writes : LogFrame → Bool)

/-- What `main` prints in the turns of `receive` and behind them. A turn that ends at a time when a summary is due prints
one, and so does the end; a frame whose row is not written is not printed. -/
def output (file : Bool) (limit : Nat) (quiet : Bool) (due : Nat → Option ℚ) (elapsed : ℚ) :
    Nat → ByteReader → Stats → List Char
  | 0, _, stats => printSummary stats elapsed
  | turns + 1, reader, stats =>
    match readFrame crc32 reader stats with
    | (none, reader, stats) =>
      if file then printSummary stats elapsed
      else (due turns).elim [] (printSummary stats) ++ output file limit quiet due elapsed turns reader stats
    | (some frame, reader, stats) =>
      let line := if quiet then [] else frameLine stats frame ++ ['\n']
      let stats := countFrame stats frame
      if !writes frame then printSummary stats elapsed
      else if limit > 0 ∧ stats.ok ≥ limit then line ++ printSummary stats elapsed
      else
        line ++ (due turns).elim [] (printSummary stats) ++ output file limit quiet due elapsed turns reader stats

end PicoWLogger.LoggerViewer
