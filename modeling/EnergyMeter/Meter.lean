import EnergyMeter.Config
import EnergyMeter.Program

/-!
A meter handle: a bus, a configuration and a lifecycle state.  A session is
begun by connecting and configuring the bus and ended by disconnecting it;
registers are reached only within a session.
-/

namespace EnergyMeter

/-- Where a meter is in its life. -/
inductive State where
  /-- No bus session. -/
  | uninitialized
  /-- A bus session without a completed start. -/
  | initialized
  /-- A bus session after a completed start with this gain. -/
  | running (gain : CurrentGain)
deriving DecidableEq, Repr

def State.text : State → String
  | uninitialized => "Uninitialized"
  | initialized => "Initialized"
  | running gain => Text.tagged "Running" gain.text

structure Meter (β : Type) where
  bus : β
  config : Config
  state : State := .uninitialized

namespace Meter

variable {β ε η α : Type}

/-- There is a bus session. -/
def isInitialized (meter : Meter β) : Bool :=
  meter.state != .uninitialized

/-- Give up the handle for its bus and its configuration. -/
def release (meter : Meter β) : β × Config :=
  (meter.bus, meter.config)

/-- The meter after its bus has moved on. -/
def onBus (meter : Meter β) (bus : β) : Meter β :=
  { meter with bus }

variable [Bus β ε η]

/-- Disconnect a bus that refused its clock. -/
def giveUp (meter : Meter β) (fault : ε) (bus : β) : Run (Meter β) ε η Unit :=
  let linked := Bus.disconnect bus
  let warning :=
    match linked.result with
    | .ok () => []
    | .error _ => [.record .closeFailed]
  ⟨.failed (.configRejected fault), meter.onBus linked.bus,
    Entry.ofLink (.disconnect linked.result) linked.notices ++ warning⟩

/-- Set the clock of a connected bus. -/
def configure (meter : Meter β) (bus : β) : Run (Meter β) ε η Unit :=
  let speedHz := meter.config.speedHz
  let (result, bus) := Bus.configure bus speedHz
  let made := .call (.configure speedHz result)
  match result with
  | .ok () =>
      ⟨.ok (), { meter with bus, state := .initialized },
        [made, .record (.initialized speedHz)]⟩
  | .error fault =>
      let rest := meter.giveUp fault bus
      { rest with journal := made :: rest.journal }

/-- Begin a bus session.  Within a session this does nothing, and a bus that
refuses its clock is disconnected again. -/
def init (meter : Meter β) : Run (Meter β) ε η Unit :=
  match meter.config.validate with
  | .error .zeroSpeed => .refuse .invalidConfig meter
  | .ok () =>
      if meter.isInitialized then .pure () meter
      else
        let linked := Bus.connect meter.bus
        let made := Entry.ofLink (.connect linked.result) linked.notices
        match linked.result with
        | .error fault => ⟨.failed (.connectFailed fault), meter.onBus linked.bus, made⟩
        | .ok () =>
            let rest := meter.configure linked.bus
            { rest with journal := made ++ rest.journal }

/-- End the bus session.  The state is reset even when the bus fails to
disconnect, and the failure is still reported. -/
def deinit (meter : Meter β) : Run (Meter β) ε η Unit :=
  let linked := Bus.disconnect meter.bus
  { outcome :=
      match linked.result with
      | .ok () => .ok ()
      | .error fault => .failed (.interface fault)
    state := { meter with bus := linked.bus, state := .uninitialized }
    journal :=
      Entry.ofLink (.disconnect linked.result) linked.notices ++ [.record .deinitialized] }

/-- Run a register program within the session. -/
def execute (meter : Meter β) (program : Program α) : Run (Meter β) ε η α :=
  if meter.isInitialized then (program.run meter.bus).within meter.onBus
  else .refuse .notInitialized meter

/-- Run a register program at a byte address within the session. -/
def executeAt (meter : Meter β) (address : Byte) (program : Address → Program α) :
    Run (Meter β) ε η α :=
  match Address.ofByte? address with
  | some address => meter.execute (program address)
  | none =>
      .refuse (if meter.isInitialized then .invalidArgument else .notInitialized) meter

def writeRegister (meter : Meter β) (address : Byte) (word : Word) : Run (Meter β) ε η Unit :=
  meter.executeAt address fun address => .store address word

def rawReadRegister (meter : Meter β) (address : Byte) : Run (Meter β) ε η Word :=
  meter.executeAt address .fetch

def verifiedReadRegister (meter : Meter β) (address : Byte) : Run (Meter β) ε η Word :=
  meter.executeAt address .verifiedRead

def softReset (meter : Meter β) : Run (Meter β) ε η Unit :=
  meter.execute .softReset

end Meter

end EnergyMeter
