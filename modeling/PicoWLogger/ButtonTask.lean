/-! `ButtonTask.cpp`: the button of the display, read at the ends of the delays of its task. -/

namespace PicoWLogger

inductive DisplayMode where
  | temperature
  | adcVoltage
  | logStatus
  | i2cInfo
  | bmeTemperature
  | bmeHumidity
  | bmePressure
  | wiFiIp
  deriving DecidableEq

namespace DisplayMode

abbrev Max : Nat := 8

def toInt : DisplayMode → Nat
  | .temperature => 0
  | .adcVoltage => 1
  | .logStatus => 2
  | .i2cInfo => 3
  | .bmeTemperature => 4
  | .bmeHumidity => 5
  | .bmePressure => 6
  | .wiFiIp => 7

/-- `static_cast<DisplayMode>` of a number below `Max`. -/
def ofInt : Nat → DisplayMode
  | 0 => .temperature
  | 1 => .adcVoltage
  | 2 => .logStatus
  | 3 => .i2cInfo
  | 4 => .bmeTemperature
  | 5 => .bmeHumidity
  | 6 => .bmePressure
  | _ => .wiFiIp

end DisplayMode

namespace ButtonTask

abbrev DEBOUNCE_MS : Nat := 50

abbrev POLL_MS : Nat := 10

/-- Where the task reads the input next: at the top of the loop, after the debounce delay, or in the
loop that waits for the release. -/
inductive Phase where
  | poll (prevState : Bool)
  | debounce
  | release
  deriving DecidableEq

end ButtonTask

/-- The task in a delay that ends `wake` milliseconds after the polling began. `sent` are the modes put into
the queue, each with its time. -/
structure ButtonTask where
  wake : Nat
  phase : ButtonTask.Phase
  mode : DisplayMode
  sent : List (Nat × DisplayMode)
  deriving DecidableEq

namespace ButtonTask

/-- The task as it enters its loop, `level` being the input over time. -/
def start (level : Nat → Bool) : ButtonTask where
  wake := 0
  phase := .poll (level 0)
  mode := .temperature
  sent := []

def nextMode (mode : DisplayMode) : DisplayMode :=
  let next := mode.toInt + 1
  .ofInt (if next ≥ DisplayMode.Max then 0 else next)

def step (level : Nat → Bool) (task : ButtonTask) : ButtonTask :=
  match task.phase with
  | .poll prevState =>
    let nowState := level task.wake
    if prevState = true ∧ nowState = false then { task with wake := task.wake + DEBOUNCE_MS, phase := .debounce }
    else { task with wake := task.wake + POLL_MS, phase := .poll nowState }
  | .debounce =>
    if level task.wake = false then
      { task with
        phase := .release
        mode := nextMode task.mode
        sent := task.sent ++ [(task.wake, nextMode task.mode)] }
    else
      -- `prev_state` becomes the level that was read before the delay.
      { task with wake := task.wake + POLL_MS, phase := .poll false }
  | .release =>
    if level task.wake = false then { task with wake := task.wake + POLL_MS }
    else { task with wake := task.wake + DEBOUNCE_MS, phase := .poll true }

end ButtonTask

end PicoWLogger
