import EnergyMeter.Proofs.BinaryInteger
import EnergyMeter.Proofs.SagThreshold
import EnergyMeter.Register.Map

/-!
Counts and the quantities behind them.  A quantity is the rounded quotient of its count,
and the rounding is far smaller than the distance of two counts, so every count can be
read off its quantity and larger counts have larger quantities.
-/

namespace EnergyMeter

open Binary
open Float.Model (Format UnpackedFloat)

/-- Values that are near different counts are ordered as the counts are. -/
theorem near_lt {factor p q : Rat} (hpos : 0 < factor) {count other : Nat}
    (hp : |factor * p - count| < 1 / 2) (hq : |factor * q - other| < 1 / 2)
    (h : count < other) : p < q := by
  have hstep : (count : Rat) + 1 ≤ other := by exact_mod_cast h
  have hupper := (abs_lt.mp hp).2
  have hlower := (abs_lt.mp hq).1
  have hscaled : factor * p < factor * q := by linarith
  exact lt_of_mul_lt_mul_left hscaled hpos.le

/-- A quantity that is near its count for every count is strictly increasing. -/
theorem lt_iff_of_near {quantity : Word → Float32} {factor : Rat} (hpos : 0 < factor)
    (hnear : ∀ count : Word, ∃ value : Rat,
      Represents .binary32 (quantity count).toModel.unpack .positive value ∧
        |factor * value - count.toNat| < 1 / 2) (count other : Word) :
    quantity count < quantity other ↔ count.toNat < other.toNat := by
  obtain ⟨p, hp, hpNear⟩ := hnear count
  obtain ⟨q, hq, hqNear⟩ := hnear other
  rw [number_lt_iff hp hq]
  refine ⟨fun hlt => ?_, near_lt hpos hpNear hqNear⟩
  rcases lt_trichotomy count.toNat other.toNat with hless | heq | hmore
  · exact hless
  · obtain rfl := BitVec.eq_of_toNat_eq heq
    obtain ⟨-, rfl⟩ := hp.unique hq
    exact absurd hlt (lt_irrefl _)
  · exact absurd hlt (near_lt hpos hqNear hpNear hmore).not_gt

namespace Quantity

theorem volts_near (count : Word) :
    ∃ value : Rat, Represents .binary32 (volts count).toModel.unpack .positive value ∧
      |100 * value - count.toNat| ≤ 100 / 2 ^ 14 :=
  quotient_near count.isLt le_rfl (by decide)

theorem amps_near (scale : CurrentScale) (count : Word) :
    ∃ value : Rat, Represents .binary32 (amps scale count).toModel.unpack .positive value ∧
      |scale.countsPerAmp * value - count.toNat| ≤ scale.countsPerAmp / 2 ^ 14 := by
  cases scale with
  | documented => exact quotient_near count.isLt (by decide) le_rfl
  | boosted => exact quotient_near count.isLt le_rfl (by decide)

theorem volts_nearest (count : Word) :
    ∃ value : Rat, Represents .binary32 (volts count).toModel.unpack .positive value ∧
      |100 * value - count.toNat| < 1 / 2 := by
  obtain ⟨value, hvalue, hnear⟩ := volts_near count
  exact ⟨value, hvalue, hnear.trans_lt (by norm_num)⟩

theorem amps_nearest (scale : CurrentScale) (count : Word) :
    ∃ value : Rat, Represents .binary32 (amps scale count).toModel.unpack .positive value ∧
      |scale.countsPerAmp * value - count.toNat| < 1 / 2 := by
  obtain ⟨value, hvalue, hnear⟩ := amps_near scale count
  refine ⟨value, hvalue, hnear.trans_lt ?_⟩
  cases scale <;> norm_num [CurrentScale.countsPerAmp]

theorem watts_represents (count : Word) :
    Represents .binary32 (watts count).toModel.unpack
      (if count.signed < 0 then .negative else .positive) count.signed.natAbs := by
  apply ofInt_represents
  have hupper := count.toInt_lt
  have hlower := count.le_toInt
  rw [Word.signed]
  omega

/-- A voltage as a sag threshold has the count that it was read from. -/
theorem sagCounts?_volts (count : Word) : sagCounts? (volts count) = some count := by
  obtain ⟨value, hvalue, hnear⟩ := volts_nearest count
  obtain ⟨hlower, hupper⟩ := abs_lt.mp hnear
  have hcount : (count.toNat : Rat) < 65536 := by exact_mod_cast count.isLt
  have hrange : value < 2 ^ 128 := by
    norm_num
    linarith
  have hnonneg := hvalue.nonneg
  rw [sagCounts?_of_nonneg hvalue hrange hnonneg, eq_comm, Nat.floor_eq_iff (by positivity)]
  constructor <;> linarith

theorem volts_lt_iff (count other : Word) :
    volts count < volts other ↔ count.toNat < other.toNat :=
  lt_iff_of_near (by norm_num) volts_nearest count other

theorem amps_lt_iff (scale : CurrentScale) (count other : Word) :
    amps scale count < amps scale other ↔ count.toNat < other.toNat := by
  apply lt_iff_of_near _ (amps_nearest scale)
  cases scale <;> norm_num [CurrentScale.countsPerAmp]

end Quantity

/-- The signed number of a word is the word up to a multiple of its range. -/
theorem Word.signed_emod (word : Word) : word.signed % 2 ^ 16 = word.toNat := by
  have hlt := word.isLt
  rw [Word.signed, BitVec.toInt_eq_toNat_bmod]
  exact Int.bmod_emod.trans (Int.emod_eq_of_lt (by omega) (by omega))

/-- No count is lost when it becomes a quantity.  A voltage gives its count back as a sag
threshold, a current is nearer to its count than to any other, a larger count is a larger
quantity, and a power is the signed number that its word stands for. -/
theorem conversions_keep_counts (count : Word) (scale : CurrentScale) :
    Quantity.sagCounts? (Quantity.volts count) = some count ∧
    (∃ amps : Rat, Number.ofBits (Quantity.amps scale count).toBits = .finite amps ∧
      |scale.countsPerAmp * amps - count.toNat| < 1 / 2 ∧
      round (scale.countsPerAmp * amps) = (count.toNat : Int)) ∧
    (∀ other : Word,
      (Quantity.volts count < Quantity.volts other ↔ count.toNat < other.toNat) ∧
      (Quantity.amps scale count < Quantity.amps scale other ↔ count.toNat < other.toNat)) ∧
    ∃ pmean : Register.Descriptor, Register.lookupName? "Pmean" = some pmean ∧
      Number.ofBits (Quantity.watts count).toBits = .finite (pmean.interpret count) ∧
      pmean.interpret count % 2 ^ 16 = count.toNat := by
  refine ⟨Quantity.sagCounts?_volts count, ?_, fun other =>
    ⟨Quantity.volts_lt_iff count other, Quantity.amps_lt_iff scale count other⟩,
    Register.signed "Pmean" Register.pmean, by decide, ?_, count.signed_emod⟩
  · obtain ⟨amps, hamps, hnear⟩ := Quantity.amps_nearest scale count
    refine ⟨amps, hamps.ofBits_toBits, hnear, ?_⟩
    obtain ⟨hlower, hupper⟩ := abs_lt.mp hnear
    rw [round_eq, Int.floor_eq_iff]
    push_cast
    constructor <;> linarith
  · rw [(Quantity.watts_represents count).ofBits_toBits, signed_natAbs]
    rfl

end EnergyMeter
