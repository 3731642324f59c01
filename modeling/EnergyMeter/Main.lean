import EnergyMeter.Sampler
import EnergyMeter.Sim.Rig

/-!
The command line of the sampler, on a simulated chip whose registers hold zero.
-/

open EnergyMeter

def main (arguments : List String) : IO UInt32 := do
  let report := Sampler.run arguments (Rig.onChip {} .empty)
  for line in report.output do
    IO.println line
  for line in report.errors do
    IO.eprintln line
  return report.exitCode
