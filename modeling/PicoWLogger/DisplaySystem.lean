import PicoWLogger.TemperatureTask

/-! The button task and the temperature task with the queue of one mode between them, in any order of their steps. A turn
takes the mode at one moment, so that it may stand for all of the time around it. -/

namespace PicoWLogger

structure DisplaySystem where
  button : ButtonTask
  temperature : TemperatureTask
  /-- The texts handed to `logf` and the calls made on the display so far. -/
  texts : List (List UInt8)
  calls : List LcdCall

inductive DisplayStep where
  | button
  | turn (t : TemperatureTask.Turn)

namespace DisplaySystem

def start (level : Nat → Bool) (sensor : AEADT7410) (lcdInitialized : Bool) : DisplaySystem where
  button := .start level
  temperature := .start sensor lcdInitialized
  texts := []
  calls := TemperatureTask.greeting lcdInitialized

/-- A mode that the button task sends replaces the one in the queue. -/
def step (level : Nat → Bool) (s : DisplaySystem) : DisplayStep → DisplaySystem
  | .button =>
    let button := s.button.step level
    let queue := if button.sent.length > s.button.sent.length then some button.mode else s.temperature.displayModeQueue
    { s with button, temperature := { s.temperature with displayModeQueue := queue } }
  | .turn t =>
    let done := s.temperature.turn t
    { s with temperature := done.1, texts := s.texts ++ done.2.1, calls := s.calls ++ done.2.2 }

def run (level : Nat → Bool) (s : DisplaySystem) (steps : List DisplayStep) : DisplaySystem := steps.foldl (step level) s

end DisplaySystem

end PicoWLogger
