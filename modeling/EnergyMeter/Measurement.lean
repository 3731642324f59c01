import EnergyMeter.Meter
import EnergyMeter.Quantity

/-!
Measurements: register counts and the quantities behind them.  Every count but
that of the power is read with its shadow.
-/

namespace EnergyMeter.Meter

variable {β ε η : Type} [Bus β ε η]

def irmsRaw (meter : Meter β) : Run (Meter β) ε η Word :=
  meter.execute (.verifiedRead Register.irms)

def irmsAmps (meter : Meter β) : Run (Meter β) ε η Float32 :=
  meter.irmsRaw.map (Quantity.amps meter.config.currentScale)

def vrmsRaw (meter : Meter β) : Run (Meter β) ε η Word :=
  meter.execute (.verifiedRead Register.urms)

def vrmsVolts (meter : Meter β) : Run (Meter β) ε η Float32 :=
  meter.vrmsRaw.map Quantity.volts

/-- The mean power as it stands in its register, read once and without its
shadow. -/
def powerWord (meter : Meter β) : Run (Meter β) ε η Word :=
  meter.execute (.fetch Register.pmean)

def powerRaw (meter : Meter β) : Run (Meter β) ε η Int :=
  meter.powerWord.map Word.signed

def powerWatts (meter : Meter β) : Run (Meter β) ε η Float32 :=
  meter.powerWord.map Quantity.watts

def lineFrequencyHz (meter : Meter β) : Run (Meter β) ε η Float32 :=
  (meter.execute (.verifiedRead Register.freq)).map Quantity.hertz

/-- The word whose fields `SystemStatus.layout` names. -/
def systemStatus (meter : Meter β) : Run (Meter β) ε η Word :=
  meter.execute (.verifiedRead Register.sysStatus)

end EnergyMeter.Meter
