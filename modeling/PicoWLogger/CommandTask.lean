import PicoWLogger.Lib.LineEdit
import Mathlib.Data.UInt

/-! `task_command.cpp`: the commands of the serial console and the editing of the lines that
hold them. -/

namespace PicoWLogger

namespace CommandTask

abbrev CMD_BUF_SIZE : Nat := 32

def skipSpaces : List UInt8 → List UInt8 := List.dropWhile fun c => c == ' '.toUInt8 || c == '\t'.toUInt8

def isDigit (c : UInt8) : Bool := '0'.toUInt8 ≤ c && c ≤ '9'.toUInt8

/-- `strtoul` in base 10 on a string without a sign and without leading white space: the value, no greater than
`ULONG_MAX`, and the rest of the string. -/
def strtoul (p : List UInt8) : Nat × List UInt8 :=
  (min ((p.takeWhile isDigit).foldl (fun value c => value * 10 + (c - '0'.toUInt8).toNat) 0) 4294967295, p.dropWhile isDigit)

/-- The count of the command `lN`; `none` leaves `*out_count` alone. -/
def parseLatestCount : List UInt8 → Option UInt32
  | [] => none
  | first :: rest =>
    if first ≠ 'l'.toUInt8 ∧ first ≠ 'L'.toUInt8 then none
    else
      let p := skipSpaces rest
      if !p.head?.any isDigit then none
      else
        let (value, endp) := strtoul p
        if endp = p then none
        else if value = 0 then none
        else some (UInt32.ofNat (if value > 100000 then 100000 else value))

inductive Command where
  | printHelp
  | printStatus
  | pauseLogGeneration
  | resumeLogGeneration
  | sendFramesOldestFirst
  | eraseLogArea
  | sendLatestFrames (count : UInt32)
  | unknown
  deriving DecidableEq

def command (text : List UInt8) : Command :=
  if text = ['h'.toUInt8] ∨ text = ['H'.toUInt8] then .printHelp
  else if text = ['s'.toUInt8] ∨ text = ['S'.toUInt8] then .printStatus
  else if text = ['p'.toUInt8] ∨ text = ['P'.toUInt8] then .pauseLogGeneration
  else if text = ['r'.toUInt8] ∨ text = ['R'.toUInt8] then .resumeLogGeneration
  else if text = ['a'.toUInt8] ∨ text = ['A'.toUInt8] then .sendFramesOldestFirst
  else if text = ['e'.toUInt8] ∨ text = ['E'.toUInt8] then .eraseLogArea
  else
    match parseLatestCount text with
    | some count => .sendLatestFrames count
    | none => .unknown

structure CommandLine where
  cmdBuf : Vector UInt8 CMD_BUF_SIZE
  pos : Fin CMD_BUF_SIZE

/-- The C string at the start of a buffer. -/
def cString (buf : Vector UInt8 CMD_BUF_SIZE) : List UInt8 := buf.toList.takeWhile (· != 0)

def isLineEnd (ch : UInt8) : Bool := ch == '\r'.toUInt8 || ch == '\n'.toUInt8

def isDelete (ch : UInt8) : Bool := ch == 0x08 || ch == 0x7F

/-- One character; at the end of a line also the text that is looked up, unless the line is empty. -/
def CommandLine.enter (line : CommandLine) (ch : UInt8) : CommandLine × Option (Option (List UInt8)) :=
  if isLineEnd ch then
    let cmdBuf := line.cmdBuf.set line.pos 0
    ({ cmdBuf, pos := 0 }, some (if line.pos > 0 then some (cString cmdBuf) else none))
  else if isDelete ch then
    if line.pos > 0 then ({ line with pos := ⟨line.pos - 1, by omega⟩ }, none) else (line, none)
  else if room : line.pos.val < CMD_BUF_SIZE - 1 then
    ({ cmdBuf := line.cmdBuf.set line.pos ch, pos := ⟨line.pos + 1, by omega⟩ }, none)
  else ({ line with pos := 0 }, none)

def CommandLine.dispatched (line : CommandLine) : List UInt8 → List (Option (List UInt8))
  | [] => []
  | ch :: rest => (line.enter ch).2.toList ++ (line.enter ch).1.dispatched rest

end CommandTask

end PicoWLogger
