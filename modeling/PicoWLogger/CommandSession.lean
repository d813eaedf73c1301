import PicoWLogger.CommandTask
import PicoWLogger.EventLogger

/-! What the commands of `task_command.cpp` do: to the log, to the counter of the logger and to the pause flag, and
which frames go to the UART. -/

namespace PicoWLogger
open CommandTask

/-- The members of `AppContext` that the commands use, and `g_log_paused`. -/
structure CommandContext where
  storage : FlashLogStorage
  logger : EventLogger
  logPaused : Bool

namespace CommandContext

def execute (ctx : CommandContext) : Command → CommandContext × List (List UInt8)
  | .printHelp | .printStatus | .unknown => (ctx, [])
  | .pauseLogGeneration => ({ ctx with logPaused := true }, [])
  | .resumeLogGeneration => ({ ctx with logPaused := false }, [])
  | .sendFramesOldestFirst => (ctx, ctx.storage.sendFramesOldestFirst.2)
  | .sendLatestFrames count => (ctx, (ctx.storage.sendLatestFrames count.toNat).2)
  | .eraseLogArea =>
    match ctx.storage.eraseLogArea with
    | (true, storage) => ({ ctx with storage, logger := ctx.logger.setNextSeq 0 }, [])
    | (false, storage) => ({ ctx with storage }, [])

def session (ctx : CommandContext) (line : CommandLine) : List UInt8 → CommandContext × List (List UInt8)
  | [] => (ctx, [])
  | ch :: rest =>
    match line.enter ch with
    | (line, some (some text)) =>
      let done := ctx.execute (command text)
      let later := done.1.session line rest
      (later.1, done.2 ++ later.2)
    | (line, _) => ctx.session line rest

end CommandContext

end PicoWLogger
