import EnergyMeter.Register.Frame
import EnergyMeter.Sim.RegisterFile
import EnergyMeter.Sim.Reply
import EnergyMeter.Transport.Node

/-!
A rig plays a script on any transport.  It answers reads from a queue and then
from a register file, it lets chosen writes fail or stop short, and it can
refuse to be connected, configured or disconnected.
-/

namespace EnergyMeter

/-- A fault of a script, told apart by its code. -/
structure Fault where
  code : Nat
deriving DecidableEq, Repr

instance : ToString Fault where
  toString fault := Text.tagged "MockError" (toString fault.code)

instance : ToString (NodeFault Fault) where
  toString fault := fault.textWith fun host => "fault " ++ toString host.code

structure Rig where
  /-- Answers to reads, the next one first. -/
  replies : List Reply := []
  /-- Answers to writes, by the first byte of the frame. -/
  writeFaults : List (Byte × Reply) := []
  /-- The words of the chip, if there is one. -/
  words : Option (Address → Word) := none
  /-- The word moved last.  It belongs to the wires, not to the chip, so it stays
  when the chip is replaced or taken out. -/
  mirror : Word := 0
  connectFault : Option Nat := none
  configureFault : Option Nat := none
  disconnectFault : Option Nat := none

namespace Rig

/-- The fault of a rig that has nothing left to answer. -/
def exhausted : Fault :=
  ⟨999⟩

/-- The chip with the word moved last. -/
def chip (rig : Rig) : Option RegisterFile :=
  rig.words.map fun words => ⟨words, rig.mirror⟩

/-- The rig after its chip has moved on. -/
def onChip (rig : Rig) (chip : RegisterFile) : Rig :=
  { rig with words := some chip.words, mirror := chip.mirror }

@[simp]
theorem chip_onChip (rig : Rig) (chip : RegisterFile) : (rig.onChip chip).chip = some chip := rfl

/-- The address in a frame's first byte, or zero for an empty frame. -/
def addressOf (frame : List Byte) : Address :=
  Frame.address (frame.headD 0)

/-- Answer an exchange that receives. -/
def read (rig : Rig) (sent : List Byte) (size : Nat) : Except Fault (Received size) × Rig :=
  match rig.replies with
  | .value word :: replies => (.ok (.ofWord size word), { rig with replies })
  | .short count :: replies => (.ok (.untouched size count), { rig with replies })
  | .fail code :: replies => (.error ⟨code⟩, { rig with replies })
  | [] =>
      match rig.chip with
      | none => (.error exhausted, rig)
      | some chip =>
          let (word, chip) := chip.read (addressOf sent)
          (.ok (.ofWord size word), rig.onChip chip)

/-- The chip after a frame.  Only a frame of three bytes stores a word. -/
def store (rig : Rig) (sent : List Byte) : Rig :=
  match rig.chip, sent with
  | some chip, [header, high, low] =>
      rig.onChip (chip.write (Frame.address header) (.ofBytes high low))
  | _, _ => rig

/-- The answer that a script has for a frame. -/
def writeReply? (rig : Rig) (sent : List Byte) : Option Reply :=
  (rig.writeFaults.find? fun entry => entry.1 = sent.headD 0).map Prod.snd

/-- Answer an exchange that only sends. -/
def write (rig : Rig) (sent : List Byte) : Except Fault Nat × Rig :=
  match rig.writeReply? sent with
  | some (.short count) => (.ok count, rig)
  | some (.fail code) => (.error ⟨code⟩, rig)
  | some (.value _) | none => (.ok sent.length, rig.store sent)

theorem read_keeps (rig : Rig) (sent : List Byte) (size : Nat) :
    (rig.read sent size).2.words = rig.words ∧
      (rig.read sent size).2.writeFaults = rig.writeFaults := by
  unfold read
  split
  · exact ⟨rfl, rfl⟩
  · exact ⟨rfl, rfl⟩
  · exact ⟨rfl, rfl⟩
  · cases hwords : rig.words with
    | none => simp [chip, hwords]
    | some words => simp [chip, hwords, onChip]

theorem store_frame {rig : Rig} {words : Address → Word} (hwords : rig.words = some words)
    (header high low : Byte) :
    (rig.store [header, high, low]).words =
        some (RegisterFile.update words (Frame.address header) (.ofBytes high low)) ∧
      (rig.store [header, high, low]).writeFaults = rig.writeFaults := by
  simp [store, chip, hwords, onChip, RegisterFile.write]

theorem writeReply?_mem {rig : Rig} {sent : List Byte} {reply : Reply}
    (h : rig.writeReply? sent = some reply) : ∃ entry ∈ rig.writeFaults, entry.2 = reply := by
  obtain ⟨entry, hentry, rfl⟩ := Option.map_eq_some_iff.mp h
  exact ⟨entry, List.mem_of_find?_eq_some hentry, rfl⟩

/-- The answer of a phase that fails only by a chosen fault. -/
def phase (fault : Option Nat) : Except Fault Unit :=
  match fault with
  | some code => .error ⟨code⟩
  | none => .ok ()

/-- As a bus the rig passes its counts on. -/
instance : Bus Rig Fault Empty where
  connect rig := { result := phase rig.connectFault, bus := rig }
  configure rig _ := (phase rig.configureFault, rig)
  transfer rig sent size :=
    match rig.read sent size with
    | (.ok received, rig) => (.ok received, rig)
    | (.error fault, rig) => (.failed fault, rig)
  write rig sent :=
    match rig.write sent with
    | (.ok count, rig) => (.ok count, rig)
    | (.error fault, rig) => (.failed fault, rig)
  disconnect rig := { result := phase rig.disconnectFault, bus := rig }

/-- As a serial device the rig has no way to report a count. -/
instance : SpiDevice Rig Fault where
  exchange rig sent size :=
    let (result, rig) := rig.read sent size
    (result.map Received.bytes, rig)
  send rig sent :=
    let (result, rig) := rig.write sent
    (result.map fun _ => (), rig)

/-- As a host the rig reports a count only for plain writes. -/
instance : NodeHost Rig Fault where
  openNode rig _ := (phase rig.connectFault, rig)
  configure rig _ := (phase rig.configureFault, rig)
  exchange rig sent size :=
    let (result, rig) := rig.read sent size
    (result.map Received.bytes, rig)
  write rig sent := rig.write sent

end Rig

end EnergyMeter
