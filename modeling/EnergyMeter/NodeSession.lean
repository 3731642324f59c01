import EnergyMeter.Meter
import EnergyMeter.Transport.Node

/-!
A meter on a device node whose session is begun at once.
-/

namespace EnergyMeter.Meter

variable {κ ε : Type} [NodeHost κ ε]

/-- Open a node and begin a session on it.  A meter that comes to no session is
given up, and the handle that it may still have is dropped with it. -/
def openNode (path : String) (config : Config) (host : κ) :
    Run (Meter (NodeBus κ ε)) (NodeFault ε) Empty Unit :=
  let meter : Meter (NodeBus κ ε) := { bus := { path, host }, config }
  let begun := meter.init
  match begun.outcome with
  | .ok () => begun
  | .failed error => ⟨.failed error, begun.state.onBus begun.state.bus.drop, begun.journal⟩

end EnergyMeter.Meter
