import EnergyMeter.Dump
import EnergyMeter.Measurement
import EnergyMeter.Startup

/-!
The operations of a meter as data, so that sequences of them can be run.
-/

namespace EnergyMeter

/-- What a meter can be asked to do. -/
inductive Operation where
  | init
  | deinit
  | softReset
  | write (address : Byte) (word : Word)
  | rawRead (address : Byte)
  | verifiedRead (address : Byte)
  | start (gain : CurrentGain) (sagVolts : Float32)
  | startWithGainFactor (factor : Byte) (sagVolts : Float32)
  | irmsRaw
  | irmsAmps
  | vrmsRaw
  | vrmsVolts
  | powerRaw
  | powerWatts
  | lineFrequencyHz
  | systemStatus
  /-- A dump that is left after a number of items. -/
  | dump (items : Nat)

/-- What an operation answers. -/
inductive Answer (ε : Type) where
  | nothing
  | word (word : Word)
  | count (count : Int)
  | quantity (quantity : Float32)
  | status (word : Word)
  /-- The items of a dump, with the number and the bounds of those that were left. -/
  | items (items : List (DumpItem ε)) (left : Nat) (hint : Nat × Option Nat)

namespace Meter

variable {β ε η : Type} [Bus β ε η]

/-- Carry out one operation. -/
def perform (meter : Meter β) : Operation → Run (Meter β) ε η (Answer ε)
  | .init => meter.init.map fun _ => .nothing
  | .deinit => meter.deinit.map fun _ => .nothing
  | .softReset => meter.softReset.map fun _ => .nothing
  | .write address word => (meter.writeRegister address word).map fun _ => .nothing
  | .rawRead address => (meter.rawReadRegister address).map .word
  | .verifiedRead address => (meter.verifiedReadRegister address).map .word
  | .start gain sagVolts => (meter.start gain sagVolts).map fun _ => .nothing
  | .startWithGainFactor factor sagVolts =>
      (meter.startWithGainFactor factor sagVolts).map fun _ => .nothing
  | .irmsRaw => meter.irmsRaw.map .word
  | .irmsAmps => meter.irmsAmps.map .quantity
  | .vrmsRaw => meter.vrmsRaw.map .word
  | .vrmsVolts => meter.vrmsVolts.map .quantity
  | .powerRaw => meter.powerRaw.map .count
  | .powerWatts => meter.powerWatts.map .quantity
  | .lineFrequencyHz => meter.lineFrequencyHz.map .quantity
  | .systemStatus => meter.systemStatus.map .status
  | .dump items =>
      let taken := meter.dumpRegisters.take items
      let rest := taken.state
      (taken.map fun items => .items items rest.length rest.sizeHint).within Dump.meter

/-- Carry out some operations, in order.  A failed or halted operation does not
keep the next one from being tried. -/
def performAll (meter : Meter β) : List Operation → List (Run (Meter β) ε η (Answer ε))
  | [] => []
  | operation :: rest =>
      let first := meter.perform operation
      first :: first.state.performAll rest

end Meter

end EnergyMeter
