import EnergyMeter.Gain

/-!
What a meter and its bus report while they work.  A record has a level and a
text; the text is made from the record and never the other way round.
-/

namespace EnergyMeter

/-- How much attention a record asks for. -/
inductive Level where
  | warn
  | debug
  | trace
deriving DecidableEq, Repr

/-- The steps that bring a meter from a fresh session into metering. -/
inductive StartupStep where
  | softReset
  | currentGain
  | calibrationStart
  | adjustmentStart
  | currentGainCalibration
  | adjustmentChecksum
  | sagThreshold
  | sagEnable
deriving DecidableEq, Repr

def StartupStep.text : StartupStep → String
  | softReset => "SoftReset"
  | currentGain => "CurrentGain"
  | calibrationStart => "CalibrationStart"
  | adjustmentStart => "AdjustmentStart"
  | currentGainCalibration => "CurrentGainCalibration"
  | adjustmentChecksum => "AdjustmentChecksum"
  | sagThreshold => "SagThreshold"
  | sagEnable => "SagEnable"

/-- What a bus reports about its connection. -/
inductive Notice where
  | nodeOpened
  | nodeClosed
deriving DecidableEq, Repr

inductive Record where
  | notice (notice : Notice)
  | initialized (speedHz : UInt32)
  | closeFailed
  | deinitialized
  | wrote (address : Address) (word : Word)
  /-- A register and its shadow disagree. -/
  | mismatch (address : Address) (target shadow : Word)
  | stepStarted (step : StartupStep)
  | stepAborted (step : StartupStep)
  | running (gain : CurrentGain)
deriving DecidableEq, Repr

namespace Record

def level : Record → Level
  | closeFailed | mismatch .. | stepAborted _ => .warn
  | notice _ | initialized _ | deinitialized | stepStarted _ | running _ => .debug
  | wrote .. => .trace

def message : Record → String
  | notice .nodeOpened => "spidev device opened"
  | notice .nodeClosed => "spidev device closed"
  | initialized speedHz => "atm90e26 initialized at " ++ toString speedHz.toNat ++ " Hz"
  | closeFailed => "bus close failed after rejected configuration"
  | deinitialized => "atm90e26 deinitialized"
  | wrote address word => "wrote " ++ Text.hex address.toNat ++ " = " ++ Text.hex word.toNat
  | mismatch address target shadow =>
      "register " ++ Text.hex address.toNat ++ " read " ++ Text.hex target.toNat ++
        " but LastData holds " ++ Text.hex shadow.toNat
  | stepStarted step => "start-up step " ++ step.text
  | stepAborted step => "start-up aborted at " ++ step.text
  | running gain =>
      "atm90e26 running with " ++ toString gain.factor.toNat ++ "x current gain"

example : (wrote 0x2B 0x7422).message = "wrote 0x2b = 0x7422" := by
  decide

end Record

end EnergyMeter
