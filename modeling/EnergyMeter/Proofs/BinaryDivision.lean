import EnergyMeter.Proofs.BinaryArithmetic

/-!
Division of the numbers of a binary format.  The first mantissa is moved up far enough
that the whole quotient of the mantissas fills the format, or that it stands at the least
exponent, so cutting the quotient is all that rounding has to do.  A rounded quotient
stays within one unit of the exact one.
-/

namespace EnergyMeter.Binary

open Float.Model (Format UnpackedFloat totalExponent)
open Float.Model.UnpackedFloat

variable {spec : Format} {m₁ m₂ : Nat} {e₁ e₂ : Int}

/-- A whole quotient of mantissas lies at or below the exact one, and meets it when
nothing is left over. -/
theorem located_quotient (mantissa : Nat) {divisor : Nat} (hpos : 0 < divisor) (exponent : Int) :
    Located (mantissa / divisor) exponent (accuracyOfFraction (mantissa % divisor) divisor)
      ((mantissa : Rat) / divisor * 2 ^ exponent) where
  le := by
    gcongr
    exact Nat.cast_div_le
  lt := by
    gcongr
    rw [div_lt_iff₀ (by exact_mod_cast hpos)]
    exact_mod_cast Nat.lt_mul_of_div_lt (Nat.lt_succ_self _) hpos
  exact hmet := by
    have hunit : (2 : Rat) ^ exponent ≠ 0 := by positivity
    have hdivisor : (divisor : Rat) ≠ 0 := by exact_mod_cast hpos.ne'
    have hwhole : mantissa = mantissa / divisor * divisor := by
      have hquotient := mul_right_cancel₀ hunit hmet
      rw [div_eq_iff hdivisor] at hquotient
      exact_mod_cast hquotient
    have hrest : mantissa % divisor = 0 := by
      rw [hwhole]
      exact Nat.mul_mod_left _ _
    rw [hrest]
    rfl

/-- The exponent of a quotient's mantissa. -/
def quotientExponent (spec : Format) (m₁ : Nat) (e₁ : Int) (m₂ : Nat) (e₂ : Int) : Int :=
  min (e₁ - e₂) (spec.targetExponent (totalExponent m₁ e₁ - totalExponent m₂ e₂))

/-- A quotient fills the format, or it stands at the least exponent or below. -/
theorem quotient_full_or_least (h₁ : Canonical spec m₁ e₁) (h₂ : Canonical spec m₂ e₂) :
    let exponent := quotientExponent spec m₁ e₁ m₂ e₂
    2 ^ spec.mantissaBitsWithoutImplicit ≤ (m₁ <<< (e₁ - e₂ - exponent).toNat) / m₂ ∨
      exponent ≤ spec.minExponent := by
  intro exponent
  have hwidth : spec.mantissaBits = 1 + spec.mantissaBitsWithoutImplicit := rfl
  have hfirst := (Nat.log2_lt h₁.pos.ne').mpr h₁.lt
  by_cases hleast : exponent ≤ spec.minExponent
  · exact .inr hleast
  · left
    -- The mantissa is moved up until it is longer than the divisor by a full mantissa.
    have hexponent : exponent = min (e₁ - e₂) (max (totalExponent m₁ e₁ - totalExponent m₂ e₂ -
        spec.mantissaBits) spec.minExponent) := rfl
    rw [totalExponent, totalExponent] at hexponent
    have hshift : m₁.log2 + (e₁ - e₂ - exponent).toNat = spec.mantissaBits + m₂.log2 := by
      omega
    have hpos : 0 < m₁ <<< (e₁ - e₂ - exponent).toNat := Nat.shiftLeft_pos_iff.mpr h₁.pos
    rw [Nat.le_div_iff_mul_le h₂.pos]
    calc 2 ^ spec.mantissaBitsWithoutImplicit * m₂
        ≤ 2 ^ spec.mantissaBitsWithoutImplicit * 2 ^ (m₂.log2 + 1) := by
          gcongr
          exact Nat.lt_log2_self.le
      _ = 2 ^ (spec.mantissaBits + m₂.log2) := by
          rw [← Nat.pow_add, hwidth]
          congr 1
          omega
      _ ≤ m₁ <<< (e₁ - e₂ - exponent).toNat := by
          rw [← Nat.le_log2 hpos.ne', log2_shiftLeft h₁.pos, hshift]

/-- Moving a mantissa up before it is divided does not change the quotient. -/
theorem quotient_value (m₁ m₂ : Nat) (e₁ e₂ : Int) (count : Nat) :
    ((m₁ <<< count : Nat) : Rat) / m₂ * 2 ^ (e₁ - e₂ - count) =
      m₁ * 2 ^ e₁ / (m₂ * 2 ^ e₂) := by
  rw [div_mul_eq_mul_div, shiftLeft_value, zpow_sub₀ two_ne_zero, mul_div_assoc', div_div,
    mul_comm ((2 : Rat) ^ e₂)]

theorem div_finite_rounds (firstSign secondSign : Sign) (h₁ : Canonical spec m₁ e₁)
    (h₂ : Canonical spec m₂ e₂) :
    ∃ rounded, Represents spec
        (div spec (.finite firstSign m₁ e₁ h₁.pos) (.finite secondSign m₂ e₂ h₂.pos))
        (firstSign / secondSign) rounded ∧
      Rounds spec (m₁ * 2 ^ e₁ / (m₂ * 2 ^ e₂)) rounded := by
  have hbits := quotient_full_or_least h₁ h₂
  have hfine : quotientExponent spec m₁ e₁ m₂ e₂ ≤ e₁ - e₂ := min_le_left _ _
  obtain ⟨count, hcount⟩ := Int.le.dest hfine
  have hplaces : (e₁ - e₂ - quotientExponent spec m₁ e₁ m₂ e₂).toNat = count := by omega
  have hexponent : quotientExponent spec m₁ e₁ m₂ e₂ = e₁ - e₂ - count := by omega
  have hdiv : div spec (.finite firstSign m₁ e₁ h₁.pos) (.finite secondSign m₂ e₂ h₂.pos) =
      roundWithAccuracy spec (firstSign / secondSign) (m₁ <<< count / m₂) (e₁ - e₂ - count)
        (accuracyOfFraction (m₁ <<< count % m₂) m₂) := by
    rw [← hexponent, ← hplaces]
    rfl
  simp only [hexponent, Int.sub_sub_self, Int.toNat_natCast] at hbits
  rw [hdiv, ← quotient_value m₁ m₂ e₁ e₂ count]
  apply roundWithAccuracy_rounds _ _ _ (located_quotient _ h₂.pos _)
  · exact hbits.imp_left (Nat.two_pow_pos _).trans_le
  · have hwidth : spec.mantissaBits = 1 + spec.mantissaBitsWithoutImplicit := rfl
    rw [Format.targetExponent, totalExponent]
    rcases hbits with hfull | hleast
    · have hpos := (Nat.two_pow_pos _).trans_le hfull
      rw [← Nat.le_log2 hpos.ne'] at hfull
      omega
    · omega

/-- A quotient is the rounded exact quotient. -/
theorem div_rounds {first second : UnpackedFloat} {firstSign secondSign : Sign} {p q : Rat}
    (hfirst : Represents spec first firstSign p) (hsecond : Represents spec second secondSign q)
    (hpos : 0 < q) :
    ∃ rounded, Represents spec (div spec first second) (firstSign / secondSign) rounded ∧
      Rounds spec (p / q) rounded := by
  cases hsecond with
  | zero => exact absurd hpos (lt_irrefl 0)
  | finite _ h₂ =>
      cases hfirst with
      | zero =>
          refine ⟨0, .zero _, ?_⟩
          rw [zero_div]
          exact .refl spec 0
      | finite _ h₁ => exact div_finite_rounds firstSign secondSign h₁ h₂

/-- A value that is small enough is rounded by at most a unit that the format has. -/
theorem Rounds.near {value rounded : Rat} (h : Rounds spec value rounded) {unit : Int}
    (hunit : spec.minExponent ≤ unit) (hnonneg : 0 ≤ value)
    (hlt : value < (2 ^ spec.mantissaBits - 1 : Nat) * 2 ^ unit) :
    |rounded - value| ≤ 2 ^ unit := by
  have hpos : (0 : Rat) < 2 ^ unit := by positivity
  obtain ⟨count, hcount⟩ : ∃ count : Nat, count = ⌊value / 2 ^ unit⌋₊ := ⟨_, rfl⟩
  have hbelow : count * 2 ^ unit ≤ value := by
    rw [← le_div_iff₀ hpos, hcount]
    exact Nat.floor_le (by positivity)
  have habove : value < (count + 1 : Nat) * 2 ^ unit := by
    rw [← div_lt_iff₀ hpos, hcount]
    exact_mod_cast Nat.lt_floor_add_one _
  have hsmall : count < 2 ^ spec.mantissaBits - 1 := by
    exact_mod_cast lt_of_mul_lt_mul_right (hbelow.trans_lt hlt) hpos.le
  have hlower := h.above _ ⟨count, unit, by omega, hunit, rfl⟩ hbelow
  have hupper := h.below _ ⟨count + 1, unit, by omega, hunit, rfl⟩ habove.le
  have hstep : ((count + 1 : Nat) : Rat) * 2 ^ unit = count * 2 ^ unit + 2 ^ unit := by
    push_cast
    ring
  rw [abs_le]
  constructor <;> linarith

end EnergyMeter.Binary
