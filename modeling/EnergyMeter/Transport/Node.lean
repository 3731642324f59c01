import EnergyMeter.Transport.Spi

/-!
A bus over a device node of the host.  Connecting opens the node and
disconnecting drops the handle; a node that is opened again is opened before
the old handle is dropped, so a failure to open leaves the old one in place.
-/

namespace EnergyMeter

/-- How a node is set up. -/
structure NodeOptions where
  bitsPerWord : Nat
  speedHz : UInt32
  mode : Nat
deriving DecidableEq, Repr

/-- A host in state `κ` that opens device nodes, with faults `ε`. -/
class NodeHost (κ : Type) (ε : outParam Type) where
  openNode : κ → String → Except ε Unit × κ
  configure : κ → NodeOptions → Except ε Unit × κ
  /-- Write, then read, in one request. -/
  exchange : κ → List Byte → (size : Nat) → Except ε (Vector Byte size) × κ
  write : κ → List Byte → Except ε Nat × κ

/-- A fault of the host, or the lack of an open node. -/
inductive NodeFault (ε : Type) where
  | notOpen
  | host (fault : ε)
deriving DecidableEq, Repr

/-- A fault, as it is shown, given the words for faults of the host. -/
def NodeFault.textWith {ε : Type} (words : ε → String) : NodeFault ε → String
  | notOpen =>
      Text.labelled "Custom"
        [("kind", "NotConnected"), ("error", Text.quoted "spidev not open")]
  | host fault =>
      Text.labelled "Custom" [("kind", "Other"), ("error", Text.quoted (words fault))]

/-- What happened at a node. -/
inductive NodeEvent (ε : Type) where
  | opened (path : String) (result : Except ε Unit)
  | configured (options : NodeOptions) (result : Except ε Unit)
  | exchanged (sent : List Byte) (size : Nat) (result : Except ε (Vector Byte size))
  | wrote (sent : List Byte) (result : Except ε Nat)
  | dropped

/-- A node as a bus, with everything that happened at it. -/
structure NodeBus (κ ε : Type) where
  path : String
  host : κ
  isOpen : Bool := false
  history : List (NodeEvent ε) := []

namespace NodeBus

variable {κ ε : Type}

/-- The bus after something happened. -/
def after (bus : NodeBus κ ε) (host : κ) (event : NodeEvent ε) : NodeBus κ ε :=
  { bus with host, history := bus.history ++ [event] }

/-- The bus after its handle, if it has one, was dropped. -/
def drop (bus : NodeBus κ ε) : NodeBus κ ε :=
  if bus.isOpen then { bus with isOpen := false, history := bus.history ++ [.dropped] }
  else bus

variable [NodeHost κ ε]

def connect (bus : NodeBus κ ε) : Linked (NodeBus κ ε) (NodeFault ε) :=
  let (result, host) := NodeHost.openNode bus.host bus.path
  let opened := bus.after host (.opened bus.path result)
  match result with
  | .ok () => ⟨.ok (), { opened.drop with isOpen := true }, [.nodeOpened]⟩
  | .error fault => ⟨.error (.host fault), opened, []⟩

/-- Eight bits a word, the given clock, and the mode with an idle low clock that
samples on its first edge. -/
def options (speedHz : UInt32) : NodeOptions :=
  { bitsPerWord := 8, speedHz, mode := 0 }

def configure (bus : NodeBus κ ε) (speedHz : UInt32) :
    Except (NodeFault ε) Unit × NodeBus κ ε :=
  if bus.isOpen then
    let (result, host) := NodeHost.configure bus.host (options speedHz)
    (result.mapError .host, bus.after host (.configured (options speedHz) result))
  else (.error .notOpen, bus)

def transfer (bus : NodeBus κ ε) (sent : List Byte) (size : Nat) :
    Outcome (NodeFault ε) Empty (Received size) × NodeBus κ ε :=
  if bus.isOpen then
    let (result, host) := NodeHost.exchange bus.host sent size
    let outcome :=
      match result with
      | .ok bytes => .ok ⟨size, bytes⟩
      | .error fault => .failed (.host fault)
    (outcome, bus.after host (.exchanged sent size result))
  else (.failed .notOpen, bus)

def write (bus : NodeBus κ ε) (sent : List Byte) :
    Outcome (NodeFault ε) Empty Nat × NodeBus κ ε :=
  if bus.isOpen then
    let (result, host) := NodeHost.write bus.host sent
    let outcome :=
      match result with
      | .ok count => .ok count
      | .error fault => .failed (.host fault)
    (outcome, bus.after host (.wrote sent result))
  else (.failed .notOpen, bus)

def disconnect (bus : NodeBus κ ε) : Linked (NodeBus κ ε) (NodeFault ε) :=
  ⟨.ok (), bus.drop, if bus.isOpen then [.nodeClosed] else []⟩

instance : Bus (NodeBus κ ε) (NodeFault ε) Empty where
  connect := connect
  configure := configure
  transfer := transfer
  write := write
  disconnect := disconnect

end NodeBus

end EnergyMeter
