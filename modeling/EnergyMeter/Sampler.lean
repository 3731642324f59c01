import EnergyMeter.Measurement
import EnergyMeter.Startup
import EnergyMeter.Text.Fixed
import EnergyMeter.Transport.Node

/-!
A one-shot sampler: begin a session, start the meter, read current, voltage and
power, and end the session whatever the readings came to.
-/

namespace EnergyMeter

/-- What one sample holds. -/
structure Sample where
  amps : Float32
  volts : Float32
  watts : Float32

namespace Sample

/-- A sample on one line, with as many places as its counts have. -/
def line (sample : Sample) : String :=
  "irms=" ++ Text.fixed 3 sample.amps ++ " A vrms=" ++ Text.fixed 2 sample.volts ++
    " V power=" ++ Text.fixed 0 sample.watts ++ " W"

end Sample

namespace Sampler

def defaultPath : String :=
  "/dev/spidev0.0"

def config : Config :=
  .ofSettings [.currentScale .boosted]

variable {β ε η : Type} [Bus β ε η]

/-- Start the meter and read the three quantities, in this order. -/
def measure (meter : Meter β) : Run (Meter β) ε η Sample :=
  (meter.start .x24 20).andThen fun _ meter =>
    meter.irmsAmps.andThen fun amps meter =>
      meter.vrmsVolts.andThen fun volts meter =>
        meter.powerWatts.map fun watts => ⟨amps, volts, watts⟩

/-- End the session after a run.  What the run came to is reported before a
failure to end the session. -/
def release {α : Type} (run : Run (Meter β) ε η α) : Run (Meter β) ε η α :=
  match run.outcome with
  | .halted _ => run
  | .failed error =>
      let ended := run.state.deinit
      ⟨.failed error, ended.state, run.journal ++ ended.journal⟩
  | .ok value =>
      let ended := run.state.deinit.map fun _ => value
      { ended with journal := run.journal ++ ended.journal }

/-- Take one sample. -/
def sample (meter : Meter β) : Run (Meter β) ε η Sample :=
  meter.init.andThen fun _ meter => release (measure meter)

/-- A meter on a device node that was never opened. -/
def meterAt {κ ε : Type} (path : String) (host : κ) : Meter (NodeBus κ ε) :=
  { bus := { path, host }, config }

/-- What the program leaves behind: its exit code, its output, and the bus. -/
structure Report (κ ε : Type) where
  exitCode : UInt32
  output : List String
  errors : List String
  bus : NodeBus κ ε

/-- The whole program.  The first argument is the device path. -/
def run {κ ε : Type} [NodeHost κ ε] [ToString (NodeFault ε)] (arguments : List String)
    (host : κ) : Report κ ε :=
  let path := arguments.headD defaultPath
  let sampled := sample (meterAt path host)
  match sampled.outcome with
  | .ok sample => ⟨0, [sample.line], [], sampled.state.bus⟩
  | .failed error =>
      ⟨1, [], ["sampling " ++ path ++ " failed: " ++ error.message], sampled.state.bus⟩

example : (Sample.mk (Quantity.amps .boosted 500) (Quantity.volts 23012) (Quantity.watts 0xFF9C)).line
    = "irms=5.000 A vrms=230.12 V power=-100 W" := by
  decide

end Sampler

end EnergyMeter
