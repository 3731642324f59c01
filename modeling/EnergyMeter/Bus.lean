import EnergyMeter.Error
import EnergyMeter.Record

/-!
A bus that a meter can be attached to.  A bus is connected, configured and
disconnected, and in between it exchanges bytes and says how many it moved.
Every call leaves an entry in a journal, in the order of the calls.
-/

namespace EnergyMeter

/-- How a call ends: with a value, with a failure, or with a stop that lies
outside the protocol and that nobody handles. -/
inductive Outcome (φ η α : Type) where
  | ok (value : α)
  | failed (failure : φ)
  | halted (cause : η)
deriving DecidableEq, Repr

/-- The result of an exchange that receives: the count that the bus reports and
the buffer, which starts as zeros. -/
structure Received (size : Nat) where
  count : Nat
  bytes : Vector Byte size
deriving DecidableEq, Repr

/-- The word that arrived in a buffer of two bytes. -/
def Received.word (received : Received 2) : Word :=
  .ofBytes received.bytes[0] received.bytes[1]

/-- The result of connecting or disconnecting. -/
structure Linked (β ε : Type) where
  result : Except ε Unit
  bus : β
  notices : List Notice := []

/-- A bus in state `β` with faults `ε` and causes `η` to stop. -/
class Bus (β : Type) (ε η : outParam Type) where
  connect : β → Linked β ε
  configure : β → UInt32 → Except ε Unit × β
  /-- Send some bytes, then receive into a buffer of the given size. -/
  transfer : β → List Byte → (size : Nat) → Outcome ε η (Received size) × β
  /-- Send some bytes and say how many were sent. -/
  write : β → List Byte → Outcome ε η Nat × β
  disconnect : β → Linked β ε

/-- What a bus can be asked to do. -/
inductive Command where
  | connect
  | configure (speedHz : UInt32)
  | transfer (sent : List Byte) (size : Nat)
  | write (sent : List Byte)
  | disconnect
deriving DecidableEq, Repr

/-- A command together with its result. -/
inductive Call (ε η : Type) where
  | connect (result : Except ε Unit)
  | configure (speedHz : UInt32) (result : Except ε Unit)
  | transfer (sent : List Byte) (size : Nat) (result : Outcome ε η (Received size))
  | write (sent : List Byte) (result : Outcome ε η Nat)
  | disconnect (result : Except ε Unit)

def Call.command {ε η : Type} : Call ε η → Command
  | connect _ => .connect
  | configure speedHz _ => .configure speedHz
  | transfer sent size _ => .transfer sent size
  | write sent _ => .write sent
  | disconnect _ => .disconnect

/-- One line of a journal. -/
inductive Entry (ε η : Type) where
  | call (call : Call ε η)
  | record (record : Record)

namespace Entry

variable {ε η : Type}

def call? : Entry ε η → Option (Call ε η)
  | call c => some c
  | record _ => none

def record? : Entry ε η → Option Record
  | call _ => none
  | record r => some r

/-- The entries of a call that may bring notices. -/
def ofLink (made : Call ε η) (notices : List Notice) : List (Entry ε η) :=
  .call made :: notices.map fun notice => .record (.notice notice)

end Entry

/-- The calls of a journal, in order. -/
def calls {ε η : Type} (journal : List (Entry ε η)) : List (Call ε η) :=
  journal.filterMap Entry.call?

/-- The records of a journal, in order. -/
def records {ε η : Type} (journal : List (Entry ε η)) : List Record :=
  journal.filterMap Entry.record?

@[simp]
theorem calls_append {ε η : Type} (first second : List (Entry ε η)) :
    calls (first ++ second) = calls first ++ calls second :=
  List.filterMap_append

@[simp]
theorem records_append {ε η : Type} (first second : List (Entry ε η)) :
    records (first ++ second) = records first ++ records second :=
  List.filterMap_append

section

variable {ε η : Type}

@[simp]
theorem calls_nil : calls ([] : List (Entry ε η)) = [] := rfl

@[simp]
theorem calls_call (made : Call ε η) (journal : List (Entry ε η)) :
    calls (.call made :: journal) = made :: calls journal := rfl

@[simp]
theorem calls_record (record : Record) (journal : List (Entry ε η)) :
    calls (.record record :: journal) = calls journal := rfl

@[simp]
theorem calls_ofLink (made : Call ε η) (notices : List Notice) :
    calls (Entry.ofLink made notices) = [made] := by
  induction notices with
  | nil => rfl
  | cons notice notices ih => exact ih

end

/-- A single command: the call it became, the bus after it, and its journal. -/
structure Performed (β ε η : Type) where
  call : Call ε η
  bus : β
  notices : List Notice := []

def Performed.journal {β ε η : Type} (performed : Performed β ε η) : List (Entry ε η) :=
  Entry.ofLink performed.call performed.notices

variable {β ε η : Type} [Bus β ε η]

/-- Carry out one command. -/
def Bus.perform (bus : β) : Command → Performed β ε η
  | .connect =>
      let linked := Bus.connect bus
      ⟨.connect linked.result, linked.bus, linked.notices⟩
  | .configure speedHz =>
      let (result, bus) := Bus.configure bus speedHz
      ⟨.configure speedHz result, bus, []⟩
  | .transfer sent size =>
      let (result, bus) := Bus.transfer bus sent size
      ⟨.transfer sent size result, bus, []⟩
  | .write sent =>
      let (result, bus) := Bus.write bus sent
      ⟨.write sent result, bus, []⟩
  | .disconnect =>
      let linked := Bus.disconnect bus
      ⟨.disconnect linked.result, linked.bus, linked.notices⟩

/-- Carry out some commands, in order, with the calls they became. -/
def Bus.performAll (bus : β) : List Command → List (Call ε η) × β
  | [] => ([], bus)
  | command :: rest =>
      let first := Bus.perform bus command
      let (calls, last) := Bus.performAll first.bus rest
      (first.call :: calls, last)

theorem Bus.command_perform (bus : β) (command : Command) :
    (Bus.perform bus command : Performed β ε η).call.command = command := by
  cases command <;> rfl

end EnergyMeter
