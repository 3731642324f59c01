import EnergyMeter.Text.Labelled

/-!
Why an operation on a meter fails.  A bus brings its own faults, and an error
says in which phase the fault came up.
-/

namespace EnergyMeter

inductive Error (ε : Type) where
  /-- The bus could not be connected. -/
  | connectFailed (fault : ε)
  /-- The bus refused its clock. -/
  | configRejected (fault : ε)
  /-- The configuration of the meter is unusable. -/
  | invalidConfig
  /-- The bus failed during an exchange or while it was disconnected. -/
  | interface (fault : ε)
  /-- An exchange moved another number of bytes than its frame has. -/
  | shortTransfer (expected actual : Nat)
  /-- There is no bus session. -/
  | notInitialized
  /-- A gain factor, an address or a threshold is out of range. -/
  | invalidArgument
deriving DecidableEq, Repr

namespace Error

variable {ε : Type}

instance : Coe ε (Error ε) :=
  ⟨interface⟩

/-- The error belongs to an exchange that was begun. -/
def isTransferFailure : Error ε → Bool
  | interface _ | shortTransfer .. => true
  | _ => false

/-- An error, as it is reported. -/
def message [ToString ε] : Error ε → String
  | connectFailed fault => "unable to open bus device: " ++ toString fault
  | configRejected fault => "bus configuration rejected: " ++ toString fault
  | invalidConfig => "invalid driver configuration"
  | interface fault => "bus transfer failed: " ++ toString fault
  | shortTransfer expected actual =>
      "bus transfer moved " ++ toString actual ++ " bytes, expected " ++ toString expected
  | notInitialized => "device not initialized"
  | invalidArgument => "invalid argument"

/-- An error, as it is shown. -/
def text [ToString ε] : Error ε → String
  | connectFailed fault => Text.tagged "DeviceOpenFailed" (toString fault)
  | configRejected fault => Text.tagged "ConfigError" (toString fault)
  | invalidConfig => "InvalidConfig"
  | interface fault => Text.tagged "Interface" (toString fault)
  | shortTransfer expected actual =>
      Text.labelled "ShortTransfer"
        [("expected", toString expected), ("actual", toString actual)]
  | notInitialized => "NotInitialized"
  | invalidArgument => "InvalidArgument"

end Error

end EnergyMeter
