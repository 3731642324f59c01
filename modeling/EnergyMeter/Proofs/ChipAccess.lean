import EnergyMeter.Proofs.Simulation
import EnergyMeter.Proofs.StartEffect
import EnergyMeter.Sim.Bench

/-!
Accesses to a chip that refuses no write.  A register holds what was stored in
it last, the shadow shows what was moved last, and a bus that answers like the
bus of a chip shows the same chip.
-/

namespace EnergyMeter

/-- The command that makes an access. -/
def Access.command : Access → Command
  | .read address => .transfer (Frame.readHeader address) 2
  | .write address word => .write (Frame.write address word)

/-- The word that an access stores in a register. -/
def Access.stored? (address : Address) : Access → Option Word
  | .read _ => none
  | .write target word => if address = target then some word else none

namespace RegisterFile

/-- The registers after an access. -/
def serve (file : RegisterFile) : Access → RegisterFile
  | .read address => (file.read address).2
  | .write address word => file.write address word

/-- The word that an access moves, unless it only looks at the shadow. -/
def moved? (file : RegisterFile) : Access → Option Word
  | .read address => if address = Register.lastData then none else some (file.words address)
  | .write _ word => some word

/-- The registers after some accesses. -/
def serveAll (file : RegisterFile) (accesses : List Access) : RegisterFile :=
  accesses.foldl serve file

/-- The words that some accesses move, in order. -/
def movedAll (file : RegisterFile) : List Access → List Word
  | [] => []
  | access :: rest => (file.moved? access).toList ++ (file.serve access).movedAll rest

theorem serveAll_append (file : RegisterFile) (first second : List Access) :
    file.serveAll (first ++ second) = (file.serveAll first).serveAll second :=
  List.foldl_append

theorem words_serve (file : RegisterFile) (access : Access) (address : Address) :
    (file.serve access).words address = (access.stored? address).getD (file.words address) := by
  cases access with
  | read target => rw [serve, words_read, Access.stored?, Option.getD_none]
  | write target word =>
      by_cases htarget : address = target
      · subst htarget
        rw [serve, words_write_self, Access.stored?, if_pos rfl, Option.getD_some]
      · rw [serve, words_write_of_ne _ _ htarget, Access.stored?, if_neg htarget, Option.getD_none]

theorem mirror_serve (file : RegisterFile) (access : Access) :
    (file.serve access).mirror = (file.moved? access).getD file.mirror := by
  cases access with
  | read address =>
      by_cases hshadow : address = Register.lastData
      · simp [serve, read, moved?, hshadow]
      · simp [serve, read, moved?, hshadow]
  | write address word => rfl

/-- A register holds the word stored last. -/
theorem words_serveAll (file : RegisterFile) (accesses : List Access) (address : Address) :
    (file.serveAll accesses).words address =
      (accesses.filterMap (Access.stored? address)).getLastD (file.words address) := by
  induction accesses generalizing file with
  | nil => rfl
  | cons access rest ih =>
      rw [serveAll, List.foldl_cons, ← serveAll, ih, words_serve]
      cases hstored : access.stored? address with
      | none => rw [List.filterMap_cons_none hstored, Option.getD_none]
      | some word =>
          rw [List.filterMap_cons_some hstored, List.getLastD_cons, Option.getD_some]

/-- The shadow shows the word moved last. -/
theorem mirror_serveAll (file : RegisterFile) (accesses : List Access) :
    (file.serveAll accesses).mirror = (file.movedAll accesses).getLastD file.mirror := by
  induction accesses generalizing file with
  | nil => rfl
  | cons access rest ih =>
      rw [serveAll, List.foldl_cons, ← serveAll, ih, mirror_serve, movedAll]
      cases file.moved? access with
      | none => rfl
      | some word => exact (List.getLastD_cons ..).symm

/-- Looks at the shadow move nothing. -/
theorem movedAll_of_looks {accesses : List Access}
    (h : ∀ access ∈ accesses, access = .read Register.lastData) (file : RegisterFile) :
    file.movedAll accesses = [] := by
  induction accesses generalizing file with
  | nil => rfl
  | cons access rest ih =>
      obtain rfl := h access List.mem_cons_self
      exact ih (fun other hother => h other (List.mem_cons_of_mem _ hother)) _

end RegisterFile

variable {β κ ε ζ η : Type} [Bus β ε η] [Bus κ ζ η]

namespace Chip

section

variable (chip : Chip β fun _ => false) {bus : β}

theorem perform_access (hsound : chip.sound bus) (access : Access) :
    chip.sound (Bus.perform bus access.command).bus ∧
      chip.file (Bus.perform bus access.command).bus = (chip.file bus).serve access := by
  cases access with
  | read address => exact (chip.read bus address hsound).2
  | write address word => exact (chip.accept bus address word hsound rfl).2

/-- Accesses do to the chip what they do to its registers. -/
theorem performAll_accesses (hsound : chip.sound bus) (accesses : List Access) :
    chip.sound (Bus.performAll bus (accesses.map Access.command)).2 ∧
      chip.file (Bus.performAll bus (accesses.map Access.command)).2 =
        (chip.file bus).serveAll accesses := by
  induction accesses generalizing bus with
  | nil => exact ⟨hsound, rfl⟩
  | cons access rest ih =>
      obtain ⟨hafter, hfile⟩ := chip.perform_access hsound access
      obtain ⟨hlast, hrest⟩ := ih hafter
      rw [hfile] at hrest
      exact ⟨hlast, hrest⟩

/-- A trace of accesses tells what became of the chip. -/
theorem file_of_replays {trace : List (Call ε η)} {last : β} {accesses : List Access}
    (h : Replays bus trace last) (hcommands : trace.map Call.command = accesses.map Access.command)
    (hsound : chip.sound bus) :
    chip.sound last ∧ chip.file last = (chip.file bus).serveAll accesses := by
  have hafter := chip.performAll_accesses hsound accesses
  rwa [← hcommands, h] at hafter

end

/-- A chip as it is seen through a bus that answers like its own. -/
def through {refuses : Address → Bool} (chip : Chip β refuses) {fault : ε → ζ}
    (sim : Simulation β κ fault) (inner : κ → β)
    (hinner : ∀ bus other, sim.related true bus other → inner other = bus) : Chip κ refuses where
  sound other := chip.sound (inner other) ∧ sim.related true (inner other) other
  file other := chip.file (inner other)
  read other address h := by
    obtain ⟨hanswer, hafter, hfile⟩ := chip.read (inner other) address h.1
    obtain ⟨hresult, hrelated⟩ := sim.transfer h.2 (Frame.readHeader address) 2
    have hplace := hinner _ _ hrelated
    rw [hanswer] at hresult
    rw [← hplace] at hafter hfile hrelated
    exact ⟨hresult, ⟨hafter, hrelated⟩, hfile⟩
  accept other address word h haccepts := by
    obtain ⟨hanswer, hafter, hfile⟩ := chip.accept (inner other) address word h.1 haccepts
    obtain ⟨hresult, hrelated⟩ := sim.write h.2 (Frame.write address word)
    have hplace := hinner _ _ hrelated
    rw [hanswer] at hresult
    rw [← hplace] at hafter hfile hrelated
    exact ⟨hresult, ⟨hafter, hrelated⟩, hfile⟩
  refuse other address word h hrefuses := by
    obtain ⟨hanswer, hafter, hfile⟩ := chip.refuse (inner other) address word h.1 hrefuses
    obtain ⟨hresult, hrelated⟩ := sim.write h.2 (Frame.write address word)
    have hplace := hinner _ _ hrelated
    rw [← hplace] at hafter hfile hrelated
    refine ⟨?_, ⟨hafter, hrelated⟩, hfile⟩
    intro hok
    rw [hresult] at hok
    cases hwritten : (Bus.write (inner other) (Frame.write address word)).1 with
    | ok count => exact hanswer (by simpa [hwritten] using hok)
    | failed fault => simp [hwritten] at hok
    | halted cause => simp [hwritten] at hok

end Chip

/-- The chip of a rig that plays no faults. -/
def Rig.freeChip : Chip Rig fun _ => false :=
  playedChip [] (by simp)

end EnergyMeter
