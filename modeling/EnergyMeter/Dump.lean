import EnergyMeter.Meter

/-!
A dump reads the registers of the map one after the other.  It is taken item by
item, an item that fails does not end it, and it can be left at any point.
-/

namespace EnergyMeter

/-- A register and what reading it came to. -/
structure DumpItem (ε : Type) where
  register : Register.Descriptor
  result : Except (Error ε) Word

/-- A dump in progress: the meter and the registers still to read. -/
structure Dump (β : Type) where
  meter : Meter β
  remaining : List Register.Descriptor := Register.map

namespace Dump

variable {β ε η : Type}

/-- The number of items still to come. -/
def length (dump : Dump β) : Nat :=
  dump.remaining.length

/-- The least and the greatest number of items still to come. -/
def sizeHint (dump : Dump β) : Nat × Option Nat :=
  (dump.length, some dump.length)

variable [Bus β ε η]

/-- The next item, unless every register was read. -/
def next? (dump : Dump β) : Option (Run (Dump β) ε η (DumpItem ε)) :=
  match dump.remaining with
  | [] => none
  | register :: remaining =>
      let reading := dump.meter.verifiedReadRegister register.address.toByte
      some
        { outcome :=
            match reading.outcome with
            | .ok word => .ok ⟨register, .ok word⟩
            | .failed error => .ok ⟨register, .error error⟩
            | .halted cause => .halted cause
          state := ⟨reading.state, remaining⟩
          journal := reading.journal }

/-- Up to a number of items, in order. -/
def take (dump : Dump β) : Nat → Run (Dump β) ε η (List (DumpItem ε))
  | 0 => .pure [] dump
  | count + 1 =>
      match dump.next? with
      | none => .pure [] dump
      | some first =>
          first.andThen fun item dump => (dump.take count).map (item :: ·)

end Dump

namespace Meter

variable {β : Type}

/-- Begin a dump of every documented register. -/
def dumpRegisters (meter : Meter β) : Dump β :=
  { meter }

end Meter

end EnergyMeter
