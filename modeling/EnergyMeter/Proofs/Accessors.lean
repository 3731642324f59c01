import EnergyMeter.Proofs.History
import EnergyMeter.Proofs.StartEffect

/-!
The accessors of a meter on a chip.  Each brings the word of its register, and no
reading changes a register, so after any readings every accessor brings the same
again.
-/

namespace EnergyMeter

variable {β ε η α : Type}

theorem Run.outcome_map_of_ok {σ γ : Type} {run : Run σ ε η α} {value : α}
    (h : run.outcome = .ok value) (f : α → γ) : (run.map f).outcome = .ok (f value) := by
  simp only [Run.map, h]

namespace Operation

/-- The operation only looks at registers: an accessor, a dump or a register read. -/
def IsReading : Operation → Prop
  | init | deinit | softReset | write .. | start .. | startWithGainFactor .. => False
  | _ => True

theorem IsReading.kind_eq {operation : Operation} (h : operation.IsReading) :
    operation.kind = .access := by
  cases operation with
  | init | deinit | softReset | write | start | startWithGainFactor => exact h.elim
  | _ => rfl

theorem IsReading.written?_eq {operation : Operation} (h : operation.IsReading) :
    operation.written? = none := by
  cases operation with
  | init | deinit | softReset | write | start | startWithGainFactor => exact h.elim
  | _ => rfl

end Operation

variable [Bus β ε η] {refuses : Address → Bool} {words : Address → Word}

/-- Exchanges that write nothing leave every register as it is. -/
theorem Chip.words_of_reads (chip : Chip β refuses) {writes : Address → Prop} {bus last : β}
    {journal : List (Entry ε η)} (h : Exchanges writes bus journal last)
    (hwrites : ∀ address, ¬ writes address) (hsound : chip.sound bus) :
    chip.sound last ∧ (chip.file last).words = (chip.file bus).words := by
  induction h with
  | done bus => exact ⟨hsound, rfl⟩
  | read address rest ih =>
      obtain ⟨-, hafter, hfile, -⟩ := chip.readRegister_spec hsound address
      have hrest := ih hafter
      rwa [hfile, RegisterFile.words_read] at hrest
  | write allowed word rest ih => exact absurd allowed (hwrites _)
  | note record rest ih => exact ih hsound

/-- A session on a chip that holds these words. -/
structure Chip.Holds (chip : Chip β refuses) (words : Address → Word) (meter : Meter β) :
    Prop where
  sound : chip.sound meter.bus
  words : (chip.file meter.bus).words = words
  session : meter.isInitialized = true

namespace Chip.Holds

variable {chip : Chip β refuses} {meter last : Meter β}

theorem accesses {writes : Address → Prop} {journal : List (Entry ε η)}
    (h : chip.Holds words meter) (haccess : Accesses writes meter journal last)
    (hwrites : ∀ address, ¬ writes address) : chip.Holds words last := by
  obtain ⟨hsound, hwords⟩ := chip.words_of_reads haccess.exchanges hwrites h.sound
  exact ⟨hsound, hwords.trans h.words, haccess.isInitialized_eq.trans h.session⟩

theorem perform (h : chip.Holds words meter) {operation : Operation}
    (hreading : operation.IsReading) : chip.Holds words (meter.perform operation).state := by
  apply h.accesses (meter.perform_accesses hreading.kind_eq)
  intro address hwrites
  exact nomatch hreading.written?_eq.symm.trans hwrites

/-- Readings in any order and any number keep the words of the chip. -/
theorem after (h : chip.Holds words meter) {operations : List Operation}
    (hreadings : ∀ operation ∈ operations, operation.IsReading) :
    chip.Holds words (meter.after operations) := by
  induction operations generalizing meter with
  | nil => exact h
  | cons operation rest ih =>
      rw [List.forall_mem_cons] at hreadings
      exact ih (h.perform hreadings.1) hreadings.2

theorem verifiedRead (h : chip.Holds words meter) (address : Address)
    (hne : address ≠ Register.lastData) :
    (meter.execute (.verifiedRead address)).outcome = .ok (words address) := by
  have hok := (chip.verifiedRead_spec h.sound hne).1
  rw [h.words] at hok
  rw [Meter.execute, if_pos h.session]
  exact hok

theorem powerWord (h : chip.Holds words meter) :
    meter.powerWord.outcome = .ok (words Register.pmean) := by
  have hok := (chip.readRegister_spec h.sound Register.pmean).1
  rw [RegisterFile.read_of_ne (by decide), h.words] at hok
  rw [Meter.powerWord, Meter.execute, if_pos h.session, Program.run_fetch]
  exact hok

theorem irmsRaw (h : chip.Holds words meter) :
    meter.irmsRaw.outcome = .ok (words Register.irms) :=
  h.verifiedRead Register.irms (by decide)

theorem irmsAmps (h : chip.Holds words meter) :
    meter.irmsAmps.outcome =
      .ok (Quantity.amps meter.config.currentScale (words Register.irms)) :=
  Run.outcome_map_of_ok h.irmsRaw _

theorem vrmsRaw (h : chip.Holds words meter) :
    meter.vrmsRaw.outcome = .ok (words Register.urms) :=
  h.verifiedRead Register.urms (by decide)

theorem vrmsVolts (h : chip.Holds words meter) :
    meter.vrmsVolts.outcome = .ok (Quantity.volts (words Register.urms)) :=
  Run.outcome_map_of_ok h.vrmsRaw _

theorem powerRaw (h : chip.Holds words meter) :
    meter.powerRaw.outcome = .ok (words Register.pmean).signed :=
  Run.outcome_map_of_ok h.powerWord _

theorem powerWatts (h : chip.Holds words meter) :
    meter.powerWatts.outcome = .ok (Quantity.watts (words Register.pmean)) :=
  Run.outcome_map_of_ok h.powerWord _

theorem lineFrequencyHz (h : chip.Holds words meter) :
    meter.lineFrequencyHz.outcome = .ok (Quantity.hertz (words Register.freq)) :=
  Run.outcome_map_of_ok (h.verifiedRead Register.freq (by decide)) _

theorem systemStatus (h : chip.Holds words meter) :
    meter.systemStatus.outcome = .ok (words Register.sysStatus) :=
  h.verifiedRead Register.sysStatus (by decide)

end Chip.Holds

end EnergyMeter
