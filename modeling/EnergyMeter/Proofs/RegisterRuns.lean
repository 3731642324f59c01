import EnergyMeter.Proofs.ChipAccess
import EnergyMeter.Proofs.Transport

/-!
Runs of register calls.  On a chip that refuses nothing and that nobody else
uses, the registers behind a meter are a plain map with a shadow: a read brings
the word written last, the shadow shows the word moved last, and a verified read
is a read.
-/

namespace EnergyMeter

variable {β ε η α : Type}

namespace Operation

/-- A call that reads or writes one register. -/
def IsRegisterCall : Operation → Prop
  | softReset | write .. | rawRead _ | verifiedRead _ => True
  | _ => False

/-- The accesses that a register call comes to.  An address that is out of range
is not accessed, and a verified read also looks at the shadow. -/
def accesses : Operation → List Access
  | softReset => [.write Register.softReset Register.softResetCommand]
  | write address word =>
      (Address.ofByte? address).toList.flatMap fun target => [.write target word]
  | rawRead address => (Address.ofByte? address).toList.flatMap fun target => [.read target]
  | verifiedRead address =>
      (Address.ofByte? address).toList.flatMap fun target =>
        [.read target, .read Register.lastData]
  | _ => []

theorem IsRegisterCall.kind_eq {operation : Operation} (h : operation.IsRegisterCall) :
    operation.kind = .access := by
  cases operation with
  | softReset | write | rawRead | verifiedRead => rfl
  | _ => exact False.elim h

end Operation

/-- The registers after some calls: each holds the word that was written to it
last, and the shadow shows the word that was moved last. -/
def RegisterFile.afterCalls (file : RegisterFile) (operations : List Operation) : RegisterFile :=
  let accesses := operations.flatMap Operation.accesses
  { words address := (accesses.filterMap (Access.stored? address)).getLastD (file.words address)
    mirror := (file.movedAll accesses).getLastD file.mirror }

theorem RegisterFile.serveAll_eq_afterCalls (file : RegisterFile) (operations : List Operation) :
    file.serveAll (operations.flatMap Operation.accesses) = file.afterCalls operations := by
  have hwords := funext (file.words_serveAll (operations.flatMap Operation.accesses))
  have hmirror := file.mirror_serveAll (operations.flatMap Operation.accesses)
  rw [afterCalls, ← hwords, ← hmirror]

variable [Bus β ε η]

/-- Register calls on a meter answer as these registers do.  Every address in
range can be written and read, a verified read takes two exchanges and comes to
the same as a plain one, and an address out of range is refused before any
exchange. -/
structure Meter.Serves (registers : β → RegisterFile) (file : RegisterFile) (meter : Meter β) :
    Prop where
  holds : registers meter.bus = file
  softReset : (meter.softReset : Run (Meter β) ε η Unit).outcome = .ok ()
  write (address : Address) (word : Word) :
    (meter.writeRegister address.toByte word : Run (Meter β) ε η Unit).outcome = .ok ()
  read (address : Address) (hne : address ≠ Register.lastData) :
    (meter.rawReadRegister address.toByte : Run (Meter β) ε η Word).outcome =
      .ok (file.words address)
  readShadow :
    (meter.rawReadRegister Register.lastData.toByte : Run (Meter β) ε η Word).outcome =
      .ok file.mirror
  verified (address : Address) :
    let raw : Run (Meter β) ε η Word := meter.rawReadRegister address.toByte
    let run : Run (Meter β) ε η Word := meter.verifiedReadRegister address.toByte
    run.outcome = raw.outcome ∧ registers run.state.bus = registers raw.state.bus
  exchanges (address : Address) :
    let run : Run (Meter β) ε η Word := meter.verifiedReadRegister address.toByte
    ∃ word, calls run.journal = [.fetched address word, .fetched Register.lastData word]
  refuses (byte : Byte) (hrange : 0x7F < byte.toNat) (word : Word) :
    meter.writeRegister byte word = (.refuse .invalidArgument meter : Run (Meter β) ε η Unit) ∧
      meter.rawReadRegister byte = (.refuse .invalidArgument meter : Run (Meter β) ε η Word) ∧
      meter.verifiedReadRegister byte = (.refuse .invalidArgument meter : Run (Meter β) ε η Word)

/-- A program at a byte makes its accesses if the byte is an address. -/
theorem Meter.commands_executeAt {meter : Meter β} (hsession : meter.isInitialized = true)
    (byte : Byte) (program : Address → Program α) (accesses : Address → List Access)
    (hprogram : ∀ target, (calls ((program target).run meter.bus).journal).map Call.command =
      (accesses target).map Access.command) :
    (calls (meter.executeAt byte program).journal).map Call.command =
      ((Address.ofByte? byte).toList.flatMap accesses).map Access.command := by
  cases htarget : Address.ofByte? byte with
  | none =>
      rw [executeAt_of_lt hsession (Address.ofByte?_eq_none_iff.mp htarget)]
      rfl
  | some target =>
      obtain rfl := Address.ofByte?_eq_some_iff.mp htarget
      rw [executeAt_toByte hsession, Option.toList_some, List.flatMap_singleton]
      exact hprogram target

namespace Chip

variable (chip : Chip β fun _ => false) {meter : Meter β}

theorem rawReadRegister_spec (hsound : chip.sound meter.bus)
    (hsession : meter.isInitialized = true) (address : Address) :
    let read := (chip.file meter.bus).read address
    let run : Run (Meter β) ε η Word := meter.rawReadRegister address.toByte
    run.outcome = .ok read.1 ∧ chip.file run.state.bus = read.2 := by
  rw [Meter.rawReadRegister, Meter.executeAt_toByte hsession, Program.run_fetch]
  obtain ⟨hok, -, hfile, -⟩ := chip.readRegister_spec hsound address
  exact ⟨hok, hfile⟩

theorem verifiedReadRegister_spec (hsound : chip.sound meter.bus)
    (hsession : meter.isInitialized = true) (address : Address) :
    let read := (chip.file meter.bus).read address
    let run : Run (Meter β) ε η Word := meter.verifiedReadRegister address.toByte
    run.outcome = .ok read.1 ∧ chip.file run.state.bus = read.2 ∧
      calls run.journal = [.fetched address read.1, .fetched Register.lastData read.1] := by
  rw [Meter.verifiedReadRegister, Meter.executeAt_toByte hsession]
  obtain ⟨hok, -, hfile, hcalls⟩ := chip.verifiedRead_agrees hsound address
  exact ⟨hok, hfile, hcalls⟩

/-- An open meter on a sound chip answers as the chip's registers do. -/
theorem serves (hsound : chip.sound meter.bus) (hsession : meter.isInitialized = true) :
    meter.Serves chip.file (chip.file meter.bus) where
  holds := rfl
  softReset := by
    rw [Meter.softReset, Meter.execute, if_pos hsession, Program.softReset, Program.run_store]
    exact (chip.writeRegister_accepted hsound _ rfl).1
  write address word := by
    rw [Meter.writeRegister, Meter.executeAt_toByte hsession, Program.run_store]
    exact (chip.writeRegister_accepted hsound word rfl).1
  read address hne := by
    have hread := (chip.rawReadRegister_spec hsound hsession address).1
    rwa [RegisterFile.read_of_ne hne] at hread
  readShadow := (chip.rawReadRegister_spec hsound hsession Register.lastData).1
  verified address := by
    obtain ⟨hraw, hrawFile⟩ := chip.rawReadRegister_spec hsound hsession address
    obtain ⟨hverified, hfile, -⟩ := chip.verifiedReadRegister_spec hsound hsession address
    exact ⟨hverified.trans hraw.symm, hfile.trans hrawFile.symm⟩
  exchanges address := by
    obtain ⟨-, -, hcalls⟩ := chip.verifiedReadRegister_spec hsound hsession address
    exact ⟨_, hcalls⟩
  refuses byte hrange word :=
    ⟨Meter.executeAt_of_lt hsession hrange _, Meter.executeAt_of_lt hsession hrange _,
      Meter.executeAt_of_lt hsession hrange _⟩

/-- A register call makes its accesses, one exchange for each. -/
theorem commands_registerCall (hsound : chip.sound meter.bus)
    (hsession : meter.isInitialized = true) {operation : Operation}
    (hcall : operation.IsRegisterCall) :
    (calls (meter.perform operation).journal).map Call.command =
      operation.accesses.map Access.command := by
  cases operation with
  | softReset =>
      simp only [Meter.perform, Meter.softReset, Meter.execute, if_pos hsession, Program.softReset,
        Program.run_store, Run.map, Run.within, calls_writeRegister]
      rfl
  | write address word =>
      apply Meter.commands_executeAt hsession address (Program.store · word)
        fun target => [.write target word]
      intro target
      rw [Program.run_store, calls_writeRegister]
      rfl
  | rawRead address =>
      apply Meter.commands_executeAt hsession address Program.fetch fun target => [.read target]
      intro target
      rw [Program.run_fetch, calls_readRegister]
      rfl
  | verifiedRead address =>
      -- The only call whose accesses depend on what the chip answers.
      apply Meter.commands_executeAt hsession address Program.verifiedRead
        fun target => [.read target, .read Register.lastData]
      intro target
      rw [(chip.verifiedRead_agrees hsound target).2.2.2]
      rfl
  | _ => exact False.elim hcall

theorem perform_registerCall (hsound : chip.sound meter.bus) (hsession : meter.isInitialized = true)
    {operation : Operation} (hcall : operation.IsRegisterCall) :
    let last := (meter.perform operation).state
    chip.sound last.bus ∧ last.isInitialized = true ∧
      chip.file last.bus = (chip.file meter.bus).serveAll operation.accesses := by
  have haccess := meter.perform_accesses hcall.kind_eq
  obtain ⟨hafter, hfile⟩ := chip.file_of_replays (meter.perform_replays operation)
    (chip.commands_registerCall hsound hsession hcall) hsound
  exact ⟨hafter, haccess.isInitialized_eq.trans hsession, hfile⟩

/-- Register calls do to the chip what their accesses do to its registers. -/
theorem after_registerCalls (hsound : chip.sound meter.bus) (hsession : meter.isInitialized = true)
    {operations : List Operation} (hcalls : ∀ operation ∈ operations, operation.IsRegisterCall) :
    let last := meter.after operations
    chip.sound last.bus ∧ last.isInitialized = true ∧
      chip.file last.bus =
        (chip.file meter.bus).serveAll (operations.flatMap Operation.accesses) := by
  induction operations using List.reverseRecOn with
  | nil => exact ⟨hsound, hsession, rfl⟩
  | append_singleton operations operation ih =>
      obtain ⟨hbefore, hopen, hfile⟩ := ih fun other hother =>
        hcalls other (List.mem_append_left _ hother)
      obtain ⟨hafter, hstill, hlast⟩ :=
        chip.perform_registerCall hbefore hopen (hcalls operation (by simp))
      rw [Meter.after_concat]
      refine ⟨hafter, hstill, ?_⟩
      rw [hlast, hfile, List.flatMap_append, List.flatMap_singleton, RegisterFile.serveAll_append]

/-- After any register calls the meter answers as the registers after those calls. -/
theorem run_serves (meter : Meter β) (hsound : chip.sound meter.bus)
    (hsession : meter.isInitialized = true) {operations : List Operation}
    (hcalls : ∀ operation ∈ operations, operation.IsRegisterCall) :
    (meter.after operations).Serves chip.file
      ((chip.file meter.bus).afterCalls operations) := by
  obtain ⟨hafter, hopen, hfile⟩ := chip.after_registerCalls hsound hsession hcalls
  rw [← RegisterFile.serveAll_eq_afterCalls, ← hfile]
  exact chip.serves hafter hopen

end Chip

/-- The chip of a rig behind a serial device. -/
def SpiBus.freeChip : Chip (SpiBus Rig) fun _ => false :=
  Rig.freeChip.through ofRig device fun _ _ h => h.2

/-- The chip of a rig behind a device node. -/
def NodeBus.freeChip : Chip (NodeBus Rig Fault) fun _ => false :=
  Rig.freeChip.through ofRig host fun _ _ h => h.2.1

/-- A chip with any contents, on any transport: after any register calls on an
open meter, the meter answers as the registers after those calls. -/
theorem register_runs (file : RegisterFile) (config : Config) {state : State}
    (hsession : state ≠ .uninitialized) (speedHz : Option UInt32)
    (transactions : List (List Segment)) (path : String) (events : List (NodeEvent Fault))
    {operations : List Operation} (hcalls : ∀ operation ∈ operations, operation.IsRegisterCall) :
    let rig : Rig := Rig.onChip {} file
    let plain : Meter Rig := ⟨rig, config, state⟩
    let serial : Meter (SpiBus Rig) := ⟨⟨rig, speedHz, transactions⟩, config, state⟩
    let node : Meter (NodeBus Rig Fault) := ⟨⟨path, rig, true, events⟩, config, state⟩
    let registers (rig : Rig) : RegisterFile := rig.chip.getD .empty
    let expected := file.afterCalls operations
    (plain.after operations).Serves registers expected ∧
      (serial.after operations).Serves (fun bus => registers bus.device) expected ∧
      (node.after operations).Serves (fun bus => registers bus.host) expected := by
  intro rig plain serial node registers expected
  have hsteady : rig.Steady := ⟨List.forall_mem_nil _, List.forall_mem_nil _, rfl, rfl, rfl⟩
  have hplays : rig.Plays [] := ⟨rfl, ⟨file.words, rfl⟩, rfl⟩
  have hopen : (state != .uninitialized) = true := bne_iff_ne.mpr hsession
  have hplain := Rig.freeChip.run_serves plain hplays hopen hcalls
  have hserial := SpiBus.freeChip.run_serves serial ⟨hplays, hsteady, rfl⟩ hopen hcalls
  have hnode := NodeBus.freeChip.run_serves node ⟨hplays, hsteady, rfl, rfl⟩ hopen hcalls
  exact ⟨hplain, hserial, hnode⟩

/-- A write, a verified read of another register, and a write out of range. -/
theorem register_runs_on_rig :
    let file : RegisterFile := ⟨fun _ => 0xABCD, 7⟩
    let rig : Rig := Rig.onChip {} file
    let operations : List Operation :=
      [.rawRead 6, .write 0x31 5, .verifiedRead 0x2B, .write 0xB1 9]
    let serial : Meter (SpiBus Rig) := ⟨⟨rig, none, []⟩, {}, .initialized⟩
    let node : Meter (NodeBus Rig Fault) := ⟨⟨"spi", rig, true, []⟩, {}, .initialized⟩
    ((serial.after operations).rawReadRegister 0x31).outcome = .ok 5 ∧
      ((node.after operations).verifiedReadRegister 6).outcome = .ok 0xABCD := by
  intro file rig operations serial node
  have hcalls : ∀ operation ∈ operations, operation.IsRegisterCall := by
    simp [operations, Operation.IsRegisterCall]
  have hsession : State.initialized ≠ .uninitialized := by decide
  obtain ⟨-, hserial, hnode⟩ := register_runs file {} hsession none [] "spi" [] hcalls
  have hshadow := (hnode.verified Register.lastData).1.trans hnode.readShadow
  exact ⟨(hserial.read 0x31 (by decide)).trans (by decide), hshadow.trans (by decide)⟩

end EnergyMeter
