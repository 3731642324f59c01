import EnergyMeter.Proofs.History
import EnergyMeter.Proofs.RegisterRuns

/-!
A dump as a history of verified reads.  Each item is the verified read of its
register on the meter that the reads before it leave, whatever those came to, so
a dump can be taken up after any number of items as if it were new.
-/

namespace EnergyMeter

variable {β ε η : Type}

namespace Register

/-- Verified reads of some registers, in order. -/
def readings (registers : List Descriptor) : List Operation :=
  registers.map fun register => .verifiedRead register.address.toByte

/-- The shadow is listed right behind the register whose word it then shows. -/
theorem before_lastData {before later : List Descriptor} {register : Descriptor}
    (h : map = before ++ register :: later) (hshadow : register.address = lastData) :
    ∃ earlier, before = earlier ++ [unsigned "SmallPMod" smallPMod] := by
  have hplace : ∀ i (hi : i < map.length), map[i].address = lastData → i = 5 := by decide
  have hi : before.length < map.length := by simp [h]
  have hregister : map[before.length] = register := by simp [h]
  have hlength : before.length = 5 := hplace _ hi (by rw [hregister, hshadow])
  have hbefore : before = map.take 5 := by rw [h, ← hlength, List.take_left]
  exact ⟨map.take 4, hbefore⟩

end Register

/-- The item that a reading of a register comes to.  A reading that fails makes
an item like any other. -/
def Outcome.item (register : Register.Descriptor) :
    Outcome (Error ε) η Word → Outcome (Error ε) η (DumpItem ε)
  | .ok word => .ok ⟨register, .ok word⟩
  | .failed error => .ok ⟨register, .error error⟩
  | .halted cause => .halted cause

theorem Outcome.item_cases (register : Register.Descriptor)
    (reading : Outcome (Error ε) η Word) :
    (∃ item, reading.item register = .ok item) ∨
      ∃ cause, reading.item register = .halted cause := by
  cases reading with
  | ok word => exact .inl ⟨_, rfl⟩
  | failed error => exact .inl ⟨_, rfl⟩
  | halted cause => exact .inr ⟨cause, rfl⟩

variable [Bus β ε η]

/-- Exchanges that write nothing are reads. -/
theorem Exchanges.command_eq_read {bus last : β} {journal : List (Entry ε η)}
    (h : Exchanges (fun _ => False) bus journal last) :
    ∀ call ∈ calls journal,
      ∃ address, call.command = .transfer (Frame.readHeader address) 2 := by
  induction h with
  | done bus => simp
  | read address rest ih =>
      rw [calls_append, calls_readRegister, List.singleton_append, List.forall_mem_cons]
      exact ⟨⟨address, rfl⟩, ih⟩
  | write allowed word rest ih => exact allowed.elim
  | note record rest ih => exact ih

theorem Meter.readings_accesses (meter : Meter β) (registers : List Register.Descriptor) :
    Accesses (fun _ => False) meter (meter.journal (Register.readings registers))
      (meter.after (Register.readings registers)) := by
  induction registers generalizing meter with
  | nil => exact .none meter
  | cons register rest ih =>
      have hfirst : Accesses (fun _ => False) meter
          (meter.verifiedReadRegister register.address.toByte).journal
          (meter.verifiedReadRegister register.address.toByte).state :=
        executeAt_accesses meter _ fun target _ => Program.writesOnly_verifiedRead target
      exact hfirst.trans (ih _)

namespace Dump

/-- The dump after it was asked for its next item. -/
def advance (dump : Dump β) : Dump β :=
  match dump.next? with
  | none => dump
  | some step => step.state

/-- The dump after some such calls. -/
def after (dump : Dump β) : Nat → Dump β
  | 0 => dump
  | count + 1 => dump.advance.after count

theorem next?_cons (meter : Meter β) (register : Register.Descriptor)
    (remaining : List Register.Descriptor) :
    let reading : Run (Meter β) ε η Word := meter.verifiedReadRegister register.address.toByte
    (Dump.mk meter (register :: remaining)).next? =
      some ⟨reading.outcome.item register, ⟨reading.state, remaining⟩, reading.journal⟩ := by
  rcases hread : (meter.verifiedReadRegister register.address.toByte : Run (Meter β) ε η Word) with
    ⟨word | error | cause, state, journal⟩ <;> simp [next?, hread, Outcome.item]

/-- Calls for items read the next registers in order. -/
theorem after_eq (dump : Dump β) (count : Nat) :
    dump.after count =
      ⟨dump.meter.after (Register.readings (dump.remaining.take count)),
        dump.remaining.drop count⟩ := by
  induction count generalizing dump with
  | zero => rfl
  | succ count ih =>
      obtain ⟨meter, remaining⟩ := dump
      cases remaining with
      | nil => exact (ih ⟨meter, []⟩).trans (by simp [Register.readings])
      | cons register remaining => exact ih _

/-- The items of the first calls, as they were gathered: one for each register
that was read, each what its own call came to. -/
structure Gathers (dump : Dump β) (count : Nat) (items : List (DumpItem ε)) : Prop where
  length : items.length = min count dump.length
  item (i : Nat) (hi : i < items.length) :
    ∃ step, (dump.after i).next? = some step ∧ step.outcome = .ok items[i]

theorem Gathers.cons {dump : Dump β} {count : Nat} {step : Run (Dump β) ε η (DumpItem ε)}
    {item : DumpItem ε} {items : List (DumpItem ε)} (hstep : dump.next? = some step)
    (hitem : step.outcome = .ok item) (hlength : dump.length = step.state.length + 1)
    (h : step.state.Gathers count items) : dump.Gathers (count + 1) (item :: items) where
  length := by
    rw [List.length_cons, h.length, hlength]
    omega
  item
    | 0, _ => ⟨step, hstep, hitem⟩
    | i + 1, hi => by
        have hadvance : dump.advance = step.state := by rw [advance, hstep]
        rw [after, hadvance]
        exact h.item i (Nat.lt_of_succ_lt_succ hi)

section

variable {dump : Dump β} {step : Run (Dump β) ε η (DumpItem ε)}

theorem take_of_item {item : DumpItem ε} (hstep : dump.next? = some step)
    (hitem : step.outcome = .ok item) (count : Nat) :
    dump.take (count + 1) =
      ⟨((step.state.take count).map (item :: ·)).outcome, (step.state.take count).state,
        step.journal ++ (step.state.take count).journal⟩ := by
  simp [take, hstep, Run.andThen, hitem, Run.map]

theorem take_of_halted {cause : η} (hstep : dump.next? = some step)
    (hcause : step.outcome = .halted cause) (count : Nat) :
    (dump.take (count + 1)).outcome = .halted cause := by
  simp [take, hstep, Run.andThen, hcause]

end

theorem sizeHint_after (dump : Dump β) (count : Nat) :
    (dump.after count).sizeHint = (dump.length - count, some (dump.length - count)) := by
  rw [after_eq, sizeHint, length, List.length_drop]
  rfl

/-- A call before the end reads the next register and moves on to the one behind
it. -/
theorem next?_after (dump : Dump β) (count : Nat) (h : count < dump.remaining.length) :
    let register := dump.remaining[count]
    let reading : Run (Meter β) ε η Word :=
      (dump.after count).meter.verifiedReadRegister register.address.toByte
    (dump.after count).next? =
      some ⟨reading.outcome.item register, dump.after (count + 1), reading.journal⟩ := by
  intro register reading
  have hsplit : dump.remaining.drop count = register :: dump.remaining.drop (count + 1) :=
    List.drop_eq_getElem_cons h
  have hlonger : dump.after (count + 1) = ⟨reading.state, dump.remaining.drop (count + 1)⟩ := by
    rw [after_eq, List.take_succ_eq_append_getElem h, Register.readings, List.map_append,
      Meter.after_append]
    simp only [reading, after_eq]
    rfl
  rw [hlonger]
  simp only [reading, after_eq, hsplit]
  exact next?_cons _ register _

theorem next?_after_of_le (dump : Dump β) (count : Nat) (h : dump.remaining.length ≤ count) :
    (dump.after count).next? = none := by
  rw [after_eq, List.drop_of_length_le h]
  rfl

/-- Items are gathered until there are enough, or until the bus stops a call. -/
theorem take_cases (dump : Dump β) (count : Nat) :
    (∃ items, dump.Gathers count items ∧
        dump.take count = ⟨.ok items, dump.after count,
          dump.meter.journal (Register.readings (dump.remaining.take count))⟩) ∨
      ∃ i < count, ∃ step cause, (dump.after i).next? = some step ∧
        step.outcome = .halted cause ∧ (dump.take count).outcome = .halted cause := by
  induction count generalizing dump with
  | zero => exact .inl ⟨[], ⟨by simp, nofun⟩, rfl⟩
  | succ count ih =>
      obtain ⟨meter, remaining⟩ := dump
      cases remaining with
      | nil =>
          refine .inl ⟨[], ⟨by simp [length], nofun⟩, ?_⟩
          rw [after_eq]
          simp [take, next?, Register.readings, Run.pure]
      | cons register remaining =>
          have hstep := next?_cons meter register remaining
          rcases Outcome.item_cases register
            (meter.verifiedReadRegister register.address.toByte : Run (Meter β) ε η Word).outcome
            with ⟨item, hitem⟩ | ⟨cause, hcause⟩
          · have hrest := take_of_item hstep hitem count
            rcases ih ⟨_, remaining⟩ with
              ⟨items, hitems, htake⟩ | ⟨i, hi, step, cause, hnext, hcause, htake⟩
            · refine .inl ⟨item :: items, .cons hstep hitem rfl hitems, ?_⟩
              rw [hrest, htake]
              rfl
            · refine .inr ⟨i + 1, by omega, step, cause, hnext, hcause, ?_⟩
              rw [hrest, Run.map, htake]
          · exact .inr ⟨0, by omega, _, cause, hstep, hcause, take_of_halted hstep hcause count⟩

end Dump

namespace RegisterFile

/-- What a dump shows of a register: its word, and for the shadow the word of the
register in front of it. -/
def dumped (file : RegisterFile) (address : Address) : Word :=
  if address = Register.lastData then file.words Register.smallPMod else file.words address

/-- Readings look at a register and then at its shadow. -/
theorem accesses_readings (registers : List Register.Descriptor) :
    (Register.readings registers).flatMap Operation.accesses =
      registers.flatMap fun register => [.read register.address, .read Register.lastData] := by
  simp [Register.readings, List.flatMap_map, Operation.accesses, Address.ofByte?_toByte]

theorem words_readings (file : RegisterFile) (registers : List Register.Descriptor) :
    (file.serveAll ((Register.readings registers).flatMap Operation.accesses)).words =
      file.words := by
  funext address
  have hnone : ((Register.readings registers).flatMap Operation.accesses).filterMap
      (Access.stored? address) = [] := by
    rw [accesses_readings, List.filterMap_eq_nil_iff]
    intro access haccess
    obtain ⟨register, -, hread⟩ := List.mem_flatMap.mp haccess
    simp only [List.mem_cons, List.not_mem_nil, or_false] at hread
    obtain rfl | rfl := hread
    · rfl
    · rfl
  rw [words_serveAll, hnone, List.getLastD_nil]

theorem mirror_readings (file : RegisterFile) (registers : List Register.Descriptor)
    (register : Register.Descriptor) (hne : register.address ≠ Register.lastData) :
    (file.serveAll ((Register.readings (registers ++ [register])).flatMap
      Operation.accesses)).mirror = file.words register.address := by
  have hwords := file.words_readings registers
  rw [accesses_readings] at hwords ⊢
  rw [List.flatMap_append, List.flatMap_singleton, serveAll_append]
  simp only [serveAll, List.foldl_cons, List.foldl_nil, serve] at hwords ⊢
  rw [read_lastData_read, read_of_ne hne, hwords]

end RegisterFile

theorem isRegisterCall_readings (registers : List Register.Descriptor) :
    ∀ operation ∈ Register.readings registers, operation.IsRegisterCall := by
  simp [Register.readings, Operation.IsRegisterCall]

theorem Chip.dump_reading (chip : Chip β fun _ => false) {meter : Meter β}
    (hsound : chip.sound meter.bus) (hsession : meter.isInitialized = true)
    {before later : List Register.Descriptor} {register : Register.Descriptor}
    (h : Register.map = before ++ register :: later) :
    let middle := meter.after (Register.readings before)
    (middle.verifiedReadRegister register.address.toByte : Run (Meter β) ε η Word).outcome =
      .ok ((chip.file meter.bus).dumped register.address) := by
  intro middle
  obtain ⟨hmiddle, hopen, hfile⟩ :=
    chip.after_registerCalls hsound hsession (isRegisterCall_readings before)
  obtain ⟨hok, -⟩ := chip.verifiedReadRegister_spec hmiddle hopen register.address
  rw [hok]
  by_cases hshadow : register.address = Register.lastData
  · obtain ⟨earlier, rfl⟩ := Register.before_lastData h hshadow
    have hmirror := (chip.file meter.bus).mirror_readings earlier
      (Register.unsigned "SmallPMod" Register.smallPMod) (by decide)
    rw [hshadow, RegisterFile.read_lastData, hfile, hmirror, RegisterFile.dumped, if_pos rfl]
    rfl
  · rw [RegisterFile.read_of_ne hshadow, hfile, RegisterFile.words_readings, RegisterFile.dumped,
      if_neg hshadow]

/-- On a sound chip each call of a dump brings the word of its register. -/
theorem Chip.dump_next (chip : Chip β fun _ => false) {meter : Meter β}
    (hsound : chip.sound meter.bus) (hsession : meter.isInitialized = true) {i : Nat}
    {step : Run (Dump β) ε η (DumpItem ε)}
    (hstep : (meter.dumpRegisters.after i).next? = some step) :
    ∃ hi : i < Register.map.length, step.outcome = .ok
      ⟨Register.map[i], .ok ((chip.file meter.bus).dumped Register.map[i].address)⟩ := by
  by_cases hi : i < Register.map.length
  · have hsplit : Register.map =
        Register.map.take i ++ Register.map[i] :: Register.map.drop (i + 1) := by
      rw [← List.drop_eq_getElem_cons hi, List.take_append_drop]
    have hreading := chip.dump_reading hsound hsession hsplit
    have hnext := meter.dumpRegisters.next?_after i hi
    obtain rfl := Option.some.inj (hstep.symm.trans hnext)
    simp only [Dump.after_eq, Meter.dumpRegisters, hreading]
    exact ⟨hi, rfl⟩
  · have hended := meter.dumpRegisters.next?_after_of_le i (Nat.le_of_not_lt hi)
    cases hended.symm.trans hstep

/-- On a sound chip a dump brings an item for each register it comes to. -/
theorem Chip.dump_take (chip : Chip β fun _ => false) {meter : Meter β}
    (hsound : chip.sound meter.bus) (hsession : meter.isInitialized = true) (count : Nat) :
    (meter.dumpRegisters.take count : Run (Dump β) ε η (List (DumpItem ε))).outcome =
      .ok ((Register.map.take count).map fun register =>
        ⟨register, .ok ((chip.file meter.bus).dumped register.address)⟩) := by
  rcases meter.dumpRegisters.take_cases count with
    ⟨items, hitems, htake⟩ | ⟨i, -, step, cause, hnext, hcause, -⟩
  · have hlist : items = (Register.map.take count).map fun register =>
        ⟨register, .ok ((chip.file meter.bus).dumped register.address)⟩ := by
      apply List.ext_getElem
      · rw [hitems.length, List.length_map, List.length_take]
        rfl
      · intro i hi _
        obtain ⟨step, hnext, hitem⟩ := hitems.item i hi
        obtain ⟨_, hword⟩ := chip.dump_next hsound hsession hnext
        rw [List.getElem_map, List.getElem_take]
        exact Outcome.ok.inj (hitem.symm.trans hword)
    rw [htake, hlist]
  · obtain ⟨_, hword⟩ := chip.dump_next hsound hsession hnext
    cases hcause.symm.trans hword

/-- On a sound chip a dump of the whole map brings an item for each register, and
no register changes. -/
theorem Chip.dump_map (chip : Chip β fun _ => false) {meter : Meter β}
    (hsound : chip.sound meter.bus) (hsession : meter.isInitialized = true) :
    let run : Run (Dump β) ε η (List (DumpItem ε)) := meter.dumpRegisters.take Register.map.length
    run.outcome = .ok (Register.map.map fun register =>
        ⟨register, .ok ((chip.file meter.bus).dumped register.address)⟩) ∧
      (chip.file run.state.meter.bus).words = (chip.file meter.bus).words := by
  intro run
  have hitems := chip.dump_take hsound hsession Register.map.length
  refine ⟨hitems, ?_⟩
  rcases meter.dumpRegisters.take_cases Register.map.length with
    ⟨items, -, htake⟩ | ⟨-, -, -, cause, -, -, hhalted⟩
  · obtain ⟨-, -, hfile⟩ :=
      chip.after_registerCalls hsound hsession (isRegisterCall_readings Register.map)
    have hstate : run.state = ⟨meter.after (Register.readings Register.map), []⟩ := by
      simp only [run, htake, Dump.after_eq, Meter.dumpRegisters, List.take_length,
        List.drop_length]
    rw [hstate, hfile, RegisterFile.words_readings]
  · cases hhalted.symm.trans hitems

/-- A dump reads the registers of the map in the order of their addresses, whatever
state the meter is in.  Each call for an item makes the verified read of the next
register on the meter that the calls before it left, and brings what that read
comes to; behind the last register there is nothing left and no call.  The number
of items to come is known throughout, the lifecycle state and the configuration
stay, and nothing is ever written.  Items that are taken together are the items
of the single calls, up to a call that the bus stops.  On a sound chip the whole
dump brings every word, and the shadow brings the word of the register in front
of it. -/
theorem dump_reads_map (meter : Meter β) (count : Nat) :
    let start : Dump β := meter.dumpRegisters
    let dump := start.after count
    let reads := Register.readings (Register.map.take count)
    (Register.map.Pairwise fun first second => first.address < second.address) ∧
      dump = ⟨meter.after reads, Register.map.drop count⟩ ∧
      dump.sizeHint = (Register.map.length - count, some (Register.map.length - count)) ∧
      (∀ h : count < Register.map.length,
        let register := Register.map[count]
        let reading : Run (Meter β) ε η Word :=
          dump.meter.verifiedReadRegister register.address.toByte
        dump.next? =
          some ⟨reading.outcome.item register, start.after (count + 1), reading.journal⟩) ∧
      (Register.map.length ≤ count → dump.next? = none) ∧
      dump.meter.state = meter.state ∧ dump.meter.config = meter.config ∧
      (∀ call ∈ calls (meter.journal reads),
        ∃ address, call.command = .transfer (Frame.readHeader address) 2) ∧
      ((∃ items, start.Gathers count items ∧
          start.take count = ⟨.ok items, dump, meter.journal reads⟩) ∨
        ∃ i < count, ∃ step cause, (start.after i).next? = some step ∧
          step.outcome = .halted cause ∧ (start.take count).outcome = .halted cause) ∧
      ∀ chip : Chip β fun _ => false, chip.sound meter.bus → meter.isInitialized = true →
        let run : Run (Dump β) ε η (List (DumpItem ε)) := start.take Register.map.length
        run.outcome = .ok (Register.map.map fun register =>
            ⟨register, .ok ((chip.file meter.bus).dumped register.address)⟩) ∧
          (chip.file run.state.meter.bus).words = (chip.file meter.bus).words := by
  intro start dump reads
  have hplace : dump = ⟨meter.after reads, Register.map.drop count⟩ := start.after_eq count
  have haccess := meter.readings_accesses (Register.map.take count)
  refine ⟨Register.map_pairwise_address_lt, hplace, start.sizeHint_after count,
    start.next?_after count, start.next?_after_of_le count, ?_, ?_,
    haccess.exchanges.command_eq_read, start.take_cases count, ?_⟩
  · rw [hplace]
    exact haccess.state
  · rw [hplace]
    exact haccess.config
  · exact fun chip hsound hsession => chip.dump_map hsound hsession

/-- A chip with an address in every register is dumped whole, and a first read that
fails does not keep the second register from being read. -/
theorem dump_reads_map_on_rigs :
    let rig : Rig := Rig.onChip {} ⟨fun address => address.setWidth 16, 0x7FFF⟩
    let sound : Meter Rig := ⟨rig, {}, .running .x4⟩
    let faulty : Meter Rig := ⟨{ rig with replies := [.fail 3] }, {}, .initialized⟩
    (sound.dumpRegisters.take 52).outcome = .ok (Register.map.map fun register =>
        ⟨register, .ok (if register.address = Register.lastData then 4
          else register.address.setWidth 16)⟩) ∧
      (faulty.dumpRegisters.after 52).next? = none ∧
      (faulty.verifiedReadRegister 0).outcome = .failed (.interface ⟨3⟩) ∧
      ∃ step, (faulty.dumpRegisters.after 1).next? = some step ∧
        step.outcome = .ok ⟨Register.unsigned "SysStatus" Register.sysStatus, .ok 1⟩ := by
  intro rig sound faulty
  have hplays : rig.Plays [] := ⟨rfl, ⟨_, rfl⟩, rfl⟩
  have hread : ((faulty.dumpRegisters.after 1).meter.verifiedReadRegister
      Register.sysStatus.toByte).outcome = .ok 1 := by
    decide
  obtain ⟨-, -, -, -, -, -, -, -, -, hchip⟩ := dump_reads_map sound 52
  obtain ⟨-, -, -, hnext, -⟩ := dump_reads_map faulty 1
  obtain ⟨-, -, -, -, hended, -⟩ := dump_reads_map faulty 52
  refine ⟨(hchip Rig.freeChip hplays rfl).1, hended (by decide), by decide, _,
    hnext (by decide), ?_⟩
  exact congrArg (Outcome.item (Register.unsigned "SysStatus" Register.sysStatus)) hread

end EnergyMeter
