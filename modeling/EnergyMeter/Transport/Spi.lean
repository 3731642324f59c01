import EnergyMeter.Bus

/-!
A bus over a serial device that only carries out whole transactions.  Such a
device comes ready to use and reports no counts, so connecting it does nothing
and an exchange that succeeds moved every byte.
-/

namespace EnergyMeter

/-- A part of a transaction. -/
inductive Segment where
  | write (sent : List Byte)
  | read (size : Nat)
deriving DecidableEq, Repr

/-- A serial device in state `δ` with faults `ε`. -/
class SpiDevice (δ : Type) (ε : outParam Type) where
  /-- Write, then read, in one transaction. -/
  exchange : δ → List Byte → (size : Nat) → Except ε (Vector Byte size) × δ
  /-- Write in one transaction. -/
  send : δ → List Byte → Except ε Unit × δ

/-- A device as a bus, with the transactions it was given. -/
structure SpiBus (δ : Type) where
  device : δ
  /-- The clock last asked for. -/
  speedHz : Option UInt32 := none
  history : List (List Segment) := []

namespace SpiBus

variable {δ ε : Type} [SpiDevice δ ε]

/-- Write to the device in one transaction. -/
def send (bus : SpiBus δ) (sent : List Byte) : Except ε Unit × SpiBus δ :=
  let (result, device) := SpiDevice.send bus.device sent
  (result, { bus with device, history := bus.history ++ [[.write sent]] })

/-- Write to the device and read from it in one transaction. -/
def exchange (bus : SpiBus δ) (sent : List Byte) (size : Nat) :
    Except ε (Vector Byte size) × SpiBus δ :=
  let (result, device) := SpiDevice.exchange bus.device sent size
  (result, { bus with device, history := bus.history ++ [[.write sent, .read size]] })

/-- The bus over the same device that was never configured. -/
def renew (bus : SpiBus δ) : SpiBus δ :=
  { device := bus.device, history := bus.history }

instance : Bus (SpiBus δ) ε Empty where
  connect bus := { result := .ok (), bus }
  configure bus speedHz := (.ok (), { bus with speedHz := some speedHz })
  transfer bus sent size :=
    match bus.exchange sent size with
    | (.ok bytes, bus) => (.ok ⟨size, bytes⟩, bus)
    | (.error fault, bus) => (.failed fault, bus)
  write bus sent :=
    match bus.send sent with
    | (.ok (), bus) => (.ok sent.length, bus)
    | (.error fault, bus) => (.failed fault, bus)
  disconnect bus := { result := .ok (), bus }

end SpiBus

end EnergyMeter
