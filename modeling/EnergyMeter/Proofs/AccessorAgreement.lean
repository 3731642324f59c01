import EnergyMeter.Proofs.Accessors
import EnergyMeter.Proofs.DumpRun
import EnergyMeter.Proofs.RegisterLookup

/-!
Two ways to a count: an accessor of the meter, and the item of a dump read with
the entry of the register map.  On a chip without faults they agree, in whichever
order and however often accessors and dumps are used.
-/

namespace EnergyMeter

variable {β ε η : Type} [Bus β ε η]

/-- A register that has an accessor of its own. -/
inductive Measured where
  | irms
  | urms
  | pmean
  | freq
  | sysStatus
deriving DecidableEq, Repr

namespace Measured

def name : Measured → String
  | irms => "Irms"
  | urms => "Urms"
  | pmean => "Pmean"
  | freq => "Freq"
  | sysStatus => "SysStatus"

def address : Measured → Address
  | irms => Register.irms
  | urms => Register.urms
  | pmean => Register.pmean
  | freq => Register.freq
  | sysStatus => Register.sysStatus

/-- The count that the accessor brings, which for a frequency and a status is the
word behind it. -/
def count (meter : Meter β) : Measured → Run (Meter β) ε η Int
  | irms => meter.irmsRaw.map fun word => word.toNat
  | urms => meter.vrmsRaw.map fun word => word.toNat
  | pmean => meter.powerRaw
  | freq => (meter.execute (.verifiedRead Register.freq)).map fun word => word.toNat
  | sysStatus => meter.systemStatus.map fun word => word.toNat

/-- The entry of the register map. -/
def register (measured : Measured) : Register.Descriptor :=
  ⟨measured.name, measured.address, measured = pmean⟩

theorem lookupName?_name (measured : Measured) :
    Register.lookupName? measured.name = some measured.register := by
  cases measured <;> decide

theorem address_ne (measured : Measured) : measured.address ≠ Register.lastData := by
  cases measured <;> decide

/-- An accessor interprets its word as the register map does. -/
theorem count_eq {refuses : Address → Bool} {chip : Chip β refuses} {words : Address → Word}
    {meter : Meter β} (h : chip.Holds words meter) (measured : Measured) :
    (measured.count meter).outcome =
      .ok (measured.register.interpret (words measured.address)) := by
  cases measured with
  | irms => exact Run.outcome_map_of_ok h.irmsRaw _
  | urms => exact Run.outcome_map_of_ok h.vrmsRaw _
  | pmean => exact h.powerRaw
  | freq => exact Run.outcome_map_of_ok (h.verifiedRead Register.freq (by decide)) _
  | sysStatus => exact Run.outcome_map_of_ok h.systemStatus _

/-- On a chip without faults the item of the register brings its word, and a whole
dump has such an item. -/
theorem dumped {chip : Chip β fun _ => false} {words : Address → Word} {meter : Meter β}
    (h : chip.Holds words meter) (measured : Measured) (count : Nat) :
    ∃ items,
      (meter.dumpRegisters.take count : Run (Dump β) ε η (List (DumpItem ε))).outcome =
        .ok items ∧
      (∀ item ∈ items, item.register = measured.register →
        item.result = .ok (words measured.address)) ∧
      (Register.map.length ≤ count → ∃ item ∈ items, item.register = measured.register) := by
  refine ⟨_, chip.dump_take h.sound h.session count, ?_, ?_⟩
  · intro item hitem hregister
    obtain ⟨register, -, rfl⟩ := List.mem_map.mp hitem
    obtain rfl : register = measured.register := hregister
    have hword : (chip.file meter.bus).dumped measured.address = words measured.address := by
      rw [RegisterFile.dumped, if_neg measured.address_ne, h.words]
    exact congrArg Except.ok hword
  · intro hwhole
    have hmem := (Register.lookupName?_eq_some_iff.mp measured.lookupName?_name).1
    rw [List.take_of_length_le hwhole]
    exact ⟨_, List.mem_map_of_mem hmem, rfl⟩

end Measured

/-- On a chip without faults, whatever its registers and its shadow hold, the
accessors of a meter and the dumps it takes agree after any accessors and dumps.  A
dump goes through, and the item of a register, read with the entry that its name
finds, brings the count of the accessor; a whole dump has that item.  The currents,
voltages, powers and frequencies are those of the same counts, the currents in the
scale of the meter.  No register changes. -/
theorem accessors_agree_with_dumps (chip : Chip β fun _ => false) {meter : Meter β}
    (hsound : chip.sound meter.bus) (hsession : meter.state ≠ .uninitialized)
    {operations others : List Operation}
    (hoperations : ∀ operation ∈ operations, operation.IsReading)
    (hothers : ∀ operation ∈ others, operation.IsReading) :
    let last := meter.after operations
    let other := meter.after others
    (∀ (measured : Measured) (count : Nat), ∃ register value items,
      Register.lookupName? measured.name = some register ∧
      (measured.count last).outcome = .ok value ∧
      (other.dumpRegisters.take count).outcome = .ok items ∧
      (∀ item ∈ items, item.register = register →
        ∃ word, item.result = .ok word ∧ register.interpret word = value) ∧
      (Register.map.length ≤ count → ∃ item ∈ items, item.register = register)) ∧
    (∃ irms urms pmean freq : Word,
      other.irmsRaw.outcome = .ok irms ∧
      last.irmsAmps.outcome = .ok (Quantity.amps meter.config.currentScale irms) ∧
      other.vrmsRaw.outcome = .ok urms ∧
      last.vrmsVolts.outcome = .ok (Quantity.volts urms) ∧
      other.powerRaw.outcome = .ok pmean.signed ∧
      last.powerWatts.outcome = .ok (Quantity.watts pmean) ∧
      (other.execute (.verifiedRead Register.freq)).outcome = .ok freq ∧
      last.lineFrequencyHz.outcome = .ok (Quantity.hertz freq)) ∧
    chip.sound last.bus ∧ (chip.file last.bus).words = (chip.file meter.bus).words := by
  intro last other
  have hbegun : chip.Holds (chip.file meter.bus).words meter :=
    ⟨hsound, rfl, Meter.isInitialized_eq_true_iff.mpr hsession⟩
  have hlast : chip.Holds (chip.file meter.bus).words last := hbegun.after hoperations
  have hother : chip.Holds (chip.file meter.bus).words other := hbegun.after hothers
  refine ⟨?counts, ⟨_, _, _, _, hother.irmsRaw, ?amps, hother.vrmsRaw, hlast.vrmsVolts,
    hother.powerRaw, hlast.powerWatts, hother.verifiedRead Register.freq (by decide),
    hlast.lineFrequencyHz⟩, hlast.sound, hlast.words⟩
  case counts =>
    intro measured count
    obtain ⟨items, htake, hword, hwhole⟩ := measured.dumped hother count
    refine ⟨measured.register, _, items, measured.lookupName?_name, measured.count_eq hlast,
      htake, ?_, hwhole⟩
    intro item hitem hregister
    exact ⟨_, hword item hitem hregister, rfl⟩
  case amps =>
    have hconfig : last.config = meter.config := meter.config_after operations
    rw [← hconfig]
    exact hlast.irmsAmps

/-- A power of minus two hundred watts, behind a shadow that holds something else,
is read after a dump that was left, and a whole dump taken after two accessors
shows the same. -/
theorem accessors_agree_with_dumps_on_rig :
    let words : Address → Word := fun address =>
      if address = Register.pmean then 0xFF38 else address.setWidth 16
    let rig : Rig := Rig.onChip {} ⟨words, 0x7FFF⟩
    let meter : Meter Rig := ⟨rig, { currentScale := .boosted }, .initialized⟩
    let operations : List Operation := [.irmsAmps, .dump 2]
    let others : List Operation := [.powerWatts, .systemStatus]
    meter.state ≠ .uninitialized ∧ (∀ operation ∈ operations, operation.IsReading) ∧
      (∀ operation ∈ others, operation.IsReading) ∧
      (meter.after operations).powerRaw.outcome = .ok (-200) ∧
      ∃ items, ((meter.after others).dumpRegisters.take 52).outcome = .ok items ∧
        ∃ item ∈ items, item.register = Register.signed "Pmean" Register.pmean ∧
          ∃ word, item.result = .ok word ∧ item.register.interpret word = -200 := by
  intro words rig meter operations others
  have hplays : meter.bus.Plays [] := ⟨rfl, ⟨_, rfl⟩, rfl⟩
  have hsession : meter.state ≠ .uninitialized := by decide
  have hoperations : ∀ operation ∈ operations, operation.IsReading := by
    simp [operations, Operation.IsReading]
  have hothers : ∀ operation ∈ others, operation.IsReading := by
    simp [others, Operation.IsReading]
  have hpower : (meter.after operations).powerRaw.outcome = .ok (-200) := by decide
  obtain ⟨hcounts, -⟩ :=
    accessors_agree_with_dumps Rig.freeChip hplays hsession hoperations hothers
  obtain ⟨register, value, items, hfound, hvalue, htake, hagree, hwhole⟩ := hcounts .pmean 52
  obtain rfl := Option.some.inj (hfound.symm.trans (Measured.lookupName?_name .pmean))
  obtain rfl := Outcome.ok.inj (hvalue.symm.trans hpower)
  obtain ⟨item, hitem, hregister⟩ := hwhole (by decide)
  obtain ⟨word, hword, hinterpret⟩ := hagree item hitem hregister
  exact ⟨hsession, hoperations, hothers, hpower, items, htake, item, hitem, hregister, word,
    hword, hregister ▸ hinterpret⟩

end EnergyMeter
