import EnergyMeter.Register.Field

/-!
The registers whose bits have names: the meter mode with the current gain, the
function enable register with the sag switches, and the system status.
-/

namespace EnergyMeter

namespace MeterMode

/-- The gain of the line current channel, bits 15 to 13. -/
@[reducible]
def currentGain : Field :=
  { name := "current_gain", low := 13, kind := .gain }

def layout : Layout :=
  { name := "MeterMode", fields := [currentGain] }

/-- The bits of the gain. -/
def gainMask : Word :=
  0xE000

theorem mask_currentGain : currentGain.mask = gainMask := by
  decide

/-- The mode with another gain and the same other bits. -/
def withGain (gain : CurrentGain) (mode : Word) : Word :=
  currentGain.putBits mode gain.bits

theorem withGain_eq (gain : CurrentGain) (mode : Word) :
    withGain gain mode = (mode &&& (0x1FFF : Word)) ||| (gain.bits.setWidth 16 <<< 13) := by
  have hmask : ~~~gainMask = 0x1FFF := by decide
  change (mode &&& ~~~currentGain.mask) ||| (gain.bits.setWidth 16 <<< 13) = _
  rw [mask_currentGain, hmask]

theorem getLsbD_withGain {i : Nat} (hi : i < 13) (gain : CurrentGain) (mode : Word) :
    (withGain gain mode).getLsbD i = mode.getLsbD i := by
  have hbits := Field.getLsbD_putBits currentGain mode gain.bits i
  rw [if_neg fun hcovers => absurd hcovers.1 (Nat.not_le.mpr hi)] at hbits
  exact hbits

/-- Only the bits below the gain are kept. -/
theorem withGain_congr {mode other : Word} (h : ∀ i < 13, mode.getLsbD i = other.getLsbD i)
    (gain : CurrentGain) : withGain gain mode = withGain gain other := by
  apply BitVec.eq_of_getLsbD_eq
  intro i hi
  by_cases hlow : i < 13
  · rw [getLsbD_withGain hlow, getLsbD_withGain hlow, h i hlow]
  · have hcovers : currentGain.Covers i := ⟨Nat.le_of_not_lt hlow, hi⟩
    have hbits := fun mode => Field.getLsbD_putBits currentGain mode gain.bits i
    simp only [if_pos hcovers] at hbits
    exact (hbits mode).trans (hbits other).symm

end MeterMode

namespace FunctionEnable

/-- Sag events reach the warning pin, bit 4. -/
@[reducible]
def sagWarnOut : Field :=
  { name := "sag_warn_out", low := 4, kind := .flag }

/-- Sag detection runs, bit 5. -/
@[reducible]
def sagEnable : Field :=
  { name := "sag_enable", low := 5, kind := .flag }

def layout : Layout :=
  { name := "FunctionEnable", fields := [sagWarnOut, sagEnable] }

/-- The bit that routes sag events to the warning pin. -/
def sagWarnOutBit : Word :=
  1 <<< 4

/-- The bit that enables sag detection. -/
def sagEnableBit : Word :=
  1 <<< 5

theorem mask_sagWarnOut : sagWarnOut.mask = sagWarnOutBit := by
  decide

theorem mask_sagEnable : sagEnable.mask = sagEnableBit := by
  decide

/-- The register with sag detection on and routed to the warning pin. -/
def withSagArmed (functions : Word) : Word :=
  sagWarnOut.putBits (sagEnable.putBits functions 1) 1

theorem getLsbD_withSagArmed {i : Nat} (hwarn : i ≠ 4) (henable : i ≠ 5) (functions : Word) :
    (withSagArmed functions).getLsbD i = functions.getLsbD i := by
  have hout : ¬ sagWarnOut.Covers i ∧ ¬ sagEnable.Covers i := by
    simp only [Field.Covers, FieldKind.width]
    omega
  rw [withSagArmed, Field.getLsbD_putBits, Field.getLsbD_putBits, if_neg hout.1, if_neg hout.2]

theorem withSagArmed_eq (functions : Word) : withSagArmed functions = functions ||| 0x30 := by
  have hbits : ∀ i < 16, (0x30 : Word).getLsbD i = decide (i = 4 ∨ i = 5) := by decide
  apply BitVec.eq_of_getLsbD_eq
  intro i hi
  rw [BitVec.getLsbD_or, hbits i hi]
  by_cases hout : i ≠ 4 ∧ i ≠ 5
  · simp [getLsbD_withSagArmed hout.1 hout.2, hout]
  · have hset : i = 4 ∨ i = 5 := by omega
    rw [withSagArmed, Field.getLsbD_putBits, Field.getLsbD_putBits]
    rcases hset with rfl | rfl
    · simp [Field.Covers, FieldKind.width]
    · simp [Field.Covers, FieldKind.width]

/-- Only the bits outside the sag switches are kept. -/
theorem withSagArmed_congr {functions other : Word}
    (h : ∀ i, i ≠ 4 → i ≠ 5 → functions.getLsbD i = other.getLsbD i) :
    withSagArmed functions = withSagArmed other := by
  apply BitVec.eq_of_getLsbD_eq
  intro i hi
  by_cases hout : i ≠ 4 ∧ i ≠ 5
  · rw [getLsbD_withSagArmed hout.1 hout.2, getLsbD_withSagArmed hout.1 hout.2,
      h i hout.1 hout.2]
  · have hset : i = 4 ∨ i = 5 := by omega
    rw [withSagArmed_eq, withSagArmed_eq, BitVec.getLsbD_or, BitVec.getLsbD_or]
    rcases hset with rfl | rfl
    · simp
    · simp

end FunctionEnable

namespace SystemStatus

/-- A voltage sag was detected, bit 1. -/
@[reducible]
def sagWarn : Field :=
  { name := "sag_warn", low := 1, kind := .flag }

/-- The direction of active power changed, bit 5. -/
@[reducible]
def revPChange : Field :=
  { name := "rev_p_change", low := 5, kind := .flag }

/-- The direction of reactive power changed, bit 6. -/
@[reducible]
def revQChange : Field :=
  { name := "rev_q_change", low := 6, kind := .flag }

/-- The metering line switched, bit 7. -/
@[reducible]
def lnChange : Field :=
  { name := "ln_change", low := 7, kind := .flag }

/-- Checksum state of the measurement calibration, bits 13 and 12. -/
@[reducible]
def adjErr : Field :=
  { name := "adj_err", low := 12, kind := .number }

/-- Checksum state of the metering calibration, bits 15 and 14. -/
@[reducible]
def calErr : Field :=
  { name := "cal_err", low := 14, kind := .number }

def layout : Layout :=
  { name := "SystemStatus"
    fields := [sagWarn, revPChange, revQChange, lnChange, adjErr, calErr] }

end SystemStatus

namespace Layout

/-- All registers with named bits. -/
def all : List Layout :=
  [MeterMode.layout, FunctionEnable.layout, SystemStatus.layout]

/-- The fields of a register have no common bit. -/
theorem pairwise_disjoint :
    ∀ layout ∈ all, layout.fields.Pairwise Field.Disjoint := by
  decide

end Layout

example : SystemStatus.layout.text 0x90A2 =
    "SystemStatus \x7b sag_warn: true, rev_p_change: true, rev_q_change: false, " ++
      "ln_change: true, adj_err: 1, cal_err: 2 \x7d" := by
  decide

example : MeterMode.layout.text 0xE000 =
    "MeterMode \x7b current_gain: InvalidBitPattern \x7b invalid_bytes: 7 \x7d \x7d" := by
  decide

end EnergyMeter
