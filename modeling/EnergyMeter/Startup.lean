import EnergyMeter.Meter
import EnergyMeter.Quantity
import EnergyMeter.Register.Layout

/-!
The start-up sequence: eight named steps, each a register program.  The first
step that fails ends the sequence, and what was already written stays written.
-/

namespace EnergyMeter

open Register in
/-- The steps that set a gain and a sag threshold, in the order of issue. -/
def startupSteps (gain : CurrentGain) (sagCounts : Word) : List (StartupStep × Program Unit) :=
  [ (.softReset, .softReset),
    (.currentGain, .modify mMode (MeterMode.withGain gain)),
    (.calibrationStart, .store calStart startWithoutChecksum),
    (.adjustmentStart, .store adjStart startWithoutChecksum),
    (.currentGainCalibration, .store igainL defaultIgainL),
    (.adjustmentChecksum, .store cs2 defaultCs2),
    (.sagThreshold, .store sagTh sagCounts),
    (.sagEnable, .modify funcEn FunctionEnable.withSagArmed) ]

variable {β ε η : Type} [Bus β ε η]

/-- Run named steps until one fails.  Each step is recorded before it begins,
and the failing one again when it is given up. -/
def runSteps : List (StartupStep × Program Unit) → β → Run β ε η Unit
  | [], bus => .pure () bus
  | (step, program) :: rest, bus =>
      let first := program.run bus
      let journal := .record (.stepStarted step) :: first.journal
      match first.outcome with
      | .ok () =>
          let remaining := runSteps rest first.state
          { remaining with journal := journal ++ remaining.journal }
      | .failed error => ⟨.failed error, first.state, journal ++ [.record (.stepAborted step)]⟩
      | .halted cause => ⟨.halted cause, first.state, journal⟩

namespace Meter

/-- Run the start-up sequence.  The meter runs only after all of it; a meter
that was already running falls back as soon as its arguments are accepted. -/
def start (meter : Meter β) (gain : CurrentGain) (sagVolts : Float32) : Run (Meter β) ε η Unit :=
  if meter.isInitialized then
    match Quantity.sagCounts? sagVolts with
    | none => .refuse .invalidArgument meter
    | some sagCounts =>
        let steps := runSteps (startupSteps gain sagCounts) meter.bus
        match steps.outcome with
        | .ok () =>
            ⟨.ok (), { meter with bus := steps.state, state := .running gain },
              steps.journal ++ [.record (.running gain)]⟩
        | .failed error =>
            ⟨.failed error, { meter with bus := steps.state, state := .initialized },
              steps.journal⟩
        | .halted cause =>
            ⟨.halted cause, { meter with bus := steps.state, state := .initialized },
              steps.journal⟩
  else .refuse .notInitialized meter

/-- Run the start-up sequence with the gain of a numeric factor. -/
def startWithGainFactor (meter : Meter β) (factor : Byte) (sagVolts : Float32) :
    Run (Meter β) ε η Unit :=
  match CurrentGain.ofFactor? factor with
  | some gain => meter.start gain sagVolts
  | none => .refuse .invalidArgument meter

end Meter

end EnergyMeter
