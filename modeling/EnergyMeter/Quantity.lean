import EnergyMeter.Binary
import EnergyMeter.Config
import EnergyMeter.Word

/-!
Register counts as physical quantities, and a sag threshold as a count.  A
quantity is a binary32 number; the threshold is scaled in binary64, where the
product of a binary32 number and the counts per volt is exact.
-/

namespace EnergyMeter.Quantity

/-- The current in amperes behind a count of the current register. -/
def amps (scale : CurrentScale) (count : Word) : Float32 :=
  Float32.ofNat count.toNat / Float32.ofNat scale.countsPerAmp

/-- The voltage in volts behind a count of hundredths. -/
def volts (count : Word) : Float32 :=
  Float32.ofNat count.toNat / 100

/-- The power in watts behind a signed count. -/
def watts (count : Word) : Float32 :=
  Float32.ofInt count.signed

/-- The frequency in hertz behind a count of hundredths. -/
def hertz (count : Word) : Float32 :=
  Float32.ofNat count.toNat / 100

/-- The sag threshold in volts as a count of hundredths, to the nearest count
and upwards from the middle.  There is none for a negative threshold, for one
that is no number, and for one whose count needs more than a word. -/
def sagCounts? (volts : Float32) : Option Word :=
  if volts.isNaN || volts < 0 then none
  else
    let shifted := Binary.widen volts * 100 + 0.5
    if 65536 ≤ shifted then none else some shifted.toUInt16.toBitVec

example : sagCounts? 20 = some 2000 := by
  decide

example : sagCounts? (volts 23012) = some 23012 := by
  decide

example : sagCounts? 700 = none := by
  decide

example : sagCounts? (-1) = none := by
  decide

example : watts 0x8000 = -32768 := by
  decide

end EnergyMeter.Quantity
