import EnergyMeter.Proofs.BinaryRounding

/-!
Arithmetic on the numbers of a binary format.  A product and a sum are the rounded
values of the exact ones, canonical numbers are ordered by their magnitudes, and a
conversion to a word cuts off the fraction.
-/

namespace EnergyMeter.Binary

open Float.Model (Format UnpackedFloat totalExponent)
open Float.Model.UnpackedFloat

variable {spec : Format} {sign : Sign} {mantissa : Nat} {exponent : Int}

theorem log2_shiftLeft (hpos : 0 < mantissa) (count : Nat) :
    (mantissa <<< count).log2 = mantissa.log2 + count := by
  induction count with
  | zero => rfl
  | succ count ih =>
      have hshifted : 0 < mantissa <<< count := Nat.shiftLeft_pos_iff.mpr hpos
      rw [Nat.shiftLeft_succ, Nat.log2_two_mul hshifted.ne', ih, Nat.add_assoc]

/-- Moving places from an exponent to its mantissa. -/
theorem shiftLeft_value (mantissa : Nat) (exponent : Int) (count : Nat) :
    ((mantissa <<< count : Nat) : Rat) * 2 ^ (exponent - count) = mantissa * 2 ^ exponent := by
  have hsplit := two_zpow_add (exponent - count) count
  rw [Int.sub_add_cancel] at hsplit
  rw [hsplit, Nat.shiftLeft_eq, Nat.cast_mul, mul_assoc]

theorem round_rounds (sign : Sign) (hpos : 0 < mantissa) (exponent : Int) :
    ∃ rounded, Represents spec (round spec sign mantissa exponent) sign rounded ∧
      Rounds spec (mantissa * 2 ^ exponent) rounded := by
  obtain ⟨count, hcount⟩ : ∃ count : Nat,
      count = (exponent - spec.targetExponent (totalExponent mantissa exponent)).toNat := ⟨_, rfl⟩
  have hround : round spec sign mantissa exponent =
      roundWithAccuracy spec sign (mantissa <<< count) (exponent - count) .exact := by
    rw [hcount]
    rfl
  have hshifted : 0 < mantissa <<< count := Nat.shiftLeft_pos_iff.mpr hpos
  have htotal : totalExponent (mantissa <<< count) (exponent - count) =
      totalExponent mantissa exponent := by
    rw [totalExponent, totalExponent, log2_shiftLeft hpos]
    push_cast
    omega
  rw [hround, ← shiftLeft_value mantissa exponent count]
  apply roundWithAccuracy_rounds sign (.inl hshifted) _ (.exact_value _ _)
  rw [htotal]
  omega

theorem minExponent_nonpos (spec : Format) : spec.minExponent ≤ 0 := by
  have hwidth := spec.hm
  rw [minExponent_eq]
  omega

/-- A product of canonical numbers has bits enough, or it is below the least unit. -/
theorem product_target {m₁ m₂ : Nat} {e₁ e₂ : Int} (h₁ : Canonical spec m₁ e₁)
    (h₂ : Canonical spec m₂ e₂) :
    e₁ + e₂ ≤ spec.targetExponent (totalExponent (m₁ * m₂) (e₁ + e₂)) := by
  have hpos : 0 < m₁ * m₂ := Nat.mul_pos h₁.pos h₂.pos
  have hwidth : spec.mantissaBits = 1 + spec.mantissaBitsWithoutImplicit := rfl
  have hnonpos := minExponent_nonpos spec
  rw [Format.targetExponent, totalExponent]
  by_cases hwide : 2 ^ spec.mantissaBitsWithoutImplicit ≤ m₁ * m₂
  · rw [← Nat.le_log2 hpos.ne'] at hwide
    omega
  · have hleft : e₁ = spec.minExponent :=
      h₁.full.resolve_left fun hfull => hwide (hfull.trans (Nat.le_mul_of_pos_right m₁ h₂.pos))
    have hright : e₂ = spec.minExponent :=
      h₂.full.resolve_left fun hfull => hwide (hfull.trans (Nat.le_mul_of_pos_left m₂ h₁.pos))
    omega

/-- A product is the rounded exact product. -/
theorem mul_rounds {first second : UnpackedFloat} {firstSign secondSign : Sign} {p q : Rat}
    (hfirst : Represents spec first firstSign p) (hsecond : Represents spec second secondSign q) :
    ∃ rounded, Represents spec (mul spec first second) (firstSign * secondSign) rounded ∧
      Rounds spec (p * q) rounded := by
  cases hfirst with
  | zero =>
      refine ⟨0, ?_, by rw [zero_mul]; exact .refl spec 0⟩
      cases hsecond with
      | zero => exact .zero _
      | finite => exact .zero _
  | @finite _ m₁ e₁ h₁ =>
      cases hsecond with
      | zero =>
          refine ⟨0, ?_, by rw [mul_zero]; exact .refl spec 0⟩
          exact .zero _
      | @finite _ m₂ e₂ h₂ =>
          have hproduct : (m₁ * 2 ^ e₁ : Rat) * (m₂ * 2 ^ e₂) =
              (m₁ * m₂ : Nat) * 2 ^ (e₁ + e₂) := by
            rw [zpow_add₀ two_ne_zero]
            push_cast
            ring
          rw [hproduct]
          exact roundWithAccuracy_rounds _ (.inl (Nat.mul_pos h₁.pos h₂.pos))
            (product_target h₁ h₂) (.exact_value _ _)

theorem normalize_natCast (hpos : 0 < mantissa) (exponent : Int) :
    UnpackedFloat.normalize spec mantissa exponent sign =
      round spec .positive mantissa exponent := by
  have hcompare : compare (mantissa : Int) 0 = .gt := Int.compare_eq_gt.mpr (by omega)
  simp only [UnpackedFloat.normalize, hcompare, Int.toNat_natCast]

/-- Positive numbers are added in the finer of their units. -/
theorem add_positive {m₁ m₂ : Nat} {e₁ e₂ : Int} (h₁ : 0 < m₁) (h₂ : 0 < m₂) :
    add spec (.finite .positive m₁ e₁ h₁) (.finite .positive m₂ e₂ h₂) =
      round spec .positive
        (m₁ <<< (e₁ - min e₁ e₂).toNat + m₂ <<< (e₂ - min e₁ e₂).toNat) (min e₁ e₂) := by
  have hpos : 0 < m₁ <<< (e₁ - min e₁ e₂).toNat + m₂ <<< (e₂ - min e₁ e₂).toNat :=
    Nat.add_pos_left (Nat.shiftLeft_pos_iff.mpr h₁) _
  rw [← normalize_natCast hpos, Nat.cast_add]
  rfl

/-- A sum with a positive number is the rounded exact sum, if the other number is
not negative. -/
theorem add_rounds {first second : UnpackedFloat} {firstSign : Sign} {p q : Rat}
    (hfirst : Represents spec first firstSign p) (hsecond : Represents spec second .positive q)
    (hsign : 0 < p → firstSign = .positive) (hpos : 0 < q) :
    ∃ rounded, Represents spec (add spec first second) .positive rounded ∧
      Rounds spec (p + q) rounded := by
  cases hsecond with
  | zero => exact absurd hpos (lt_irrefl 0)
  | @finite _ m₂ e₂ h₂ =>
      cases hfirst with
      | zero =>
          refine ⟨m₂ * 2 ^ e₂, .finite .positive h₂, ?_⟩
          rw [zero_add]
          exact .refl spec _
      | @finite _ m₁ e₁ h₁ =>
          obtain rfl := hsign h₁.value_pos
          have hleft := shiftLeft_value m₁ e₁ (e₁ - min e₁ e₂).toNat
          have hright := shiftLeft_value m₂ e₂ (e₂ - min e₁ e₂).toNat
          rw [Int.toNat_of_nonneg (by omega), Int.sub_sub_self] at hleft hright
          rw [add_positive, ← hleft, ← hright, ← add_mul, ← Nat.cast_add]
          apply round_rounds
          exact Nat.add_pos_left (Nat.shiftLeft_pos_iff.mpr h₁.pos) _

section

variable {first second : UnpackedFloat} {p q : Rat}

/-- Canonical numbers with a smaller exponent are smaller. -/
theorem Canonical.lt_of_exponent_lt {m₁ m₂ : Nat} {e₁ e₂ : Int} (h₁ : Canonical spec m₁ e₁)
    (h₂ : Canonical spec m₂ e₂) (hlt : e₁ < e₂) : (m₁ * 2 ^ e₁ : Rat) < m₂ * 2 ^ e₂ := by
  have hfull : 2 ^ spec.mantissaBitsWithoutImplicit ≤ m₂ := by
    refine h₂.full.resolve_right ?_
    have hleast := h₁.least
    omega
  calc (m₁ * 2 ^ e₁ : Rat)
      < (2 ^ spec.mantissaBitsWithoutImplicit : Nat) * 2 ^ e₂ := lt_full_of_coarser h₁.lt hlt
    _ ≤ m₂ * 2 ^ e₂ := by gcongr

/-- Numbers that are not negative are compared as their magnitudes are. -/
theorem compare_eq (hfirst : Represents spec first .positive p)
    (hsecond : Represents spec second .positive q) :
    UnpackedFloat.compare first second = some (compare p q) := by
  cases hfirst with
  | zero =>
      cases hsecond with
      | zero => rw [compare_eq_iff_eq.mpr rfl]; rfl
      | finite _ h₂ => rw [compare_lt_iff_lt.mpr h₂.value_pos]; rfl
  | @finite _ m₁ e₁ h₁ =>
      cases hsecond with
      | zero => rw [compare_gt_iff_gt.mpr h₁.value_pos]; rfl
      | @finite _ m₂ e₂ h₂ =>
          have hmantissas : UnpackedFloat.compare (.finite .positive m₁ e₁ h₁.pos)
              (.finite .positive m₂ e₂ h₂.pos) = some ((compare e₁ e₂).then (compare m₁ m₂)) := rfl
          rw [hmantissas]
          rcases lt_trichotomy e₁ e₂ with hlt | rfl | hgt
          · rw [Int.compare_eq_lt.mpr hlt, compare_lt_iff_lt.mpr (h₁.lt_of_exponent_lt h₂ hlt)]
            rfl
          · have hscaled : StrictMono fun mantissa : Nat => (mantissa * 2 ^ e₁ : Rat) := by
              intro lower upper hlt
              dsimp only
              gcongr
            have hcast : compare (m₁ * 2 ^ e₁ : Rat) (m₂ * 2 ^ e₁) = compare m₁ m₂ := by
              rw [← cmp_eq_compare, ← cmp_eq_compare]
              exact hscaled.cmp_map_eq m₁ m₂
            rw [hcast, compare_eq_iff_eq.mpr rfl]
            rfl
          · rw [Int.compare_eq_gt.mpr hgt, compare_gt_iff_gt.mpr (h₂.lt_of_exponent_lt h₁ hgt)]
            rfl

theorem le_iff (hfirst : Represents spec first .positive p)
    (hsecond : Represents spec second .positive q) :
    UnpackedFloat.le first second = true ↔ p ≤ q := by
  rw [UnpackedFloat.le, compare_eq hfirst hsecond, Option.any_some, ← compare_le_iff_le]
  cases compare p q <;> decide

theorem lt_iff (hfirst : Represents spec first .positive p)
    (hsecond : Represents spec second .positive q) :
    UnpackedFloat.lt first second = true ↔ p < q := by
  rw [UnpackedFloat.lt, compare_eq hfirst hsecond, ← compare_lt_iff_lt]
  cases compare p q <;> decide

end

/-- A positive number without its fraction. -/
theorem roundToInt_positive (mantissa : Nat) (exponent : Int) :
    roundToInt .positive mantissa exponent = (⌊(mantissa * 2 ^ exponent : Rat)⌋₊ : Int) := by
  have hcut : roundToInt .positive mantissa exponent =
      (mantissa <<< (exponent - 0).toNat /
        2 ^ (0 - (exponent - (exponent - 0).toNat)).toNat : Nat) := by
    simp only [roundToInt, decreaseExponent, shiftToExponent, mantissa_shiftRight,
      mantissa_ofMantissaAndAccuracy]
    rfl
  obtain ⟨count, hcount | hcount⟩ : ∃ count : Nat, exponent = count ∨ exponent = -count :=
    ⟨exponent.natAbs, by omega⟩
  · have hplaces : (exponent - 0).toNat = count := by omega
    have hnone : (0 - (exponent - count)).toNat = 0 := by omega
    have hvalue : (mantissa * 2 ^ exponent : Rat) = (mantissa <<< count : Nat) := by
      rw [hcount, zpow_natCast, Nat.shiftLeft_eq]
      push_cast
      rfl
    rw [hcut, hvalue, hplaces, hnone, Nat.pow_zero, Nat.div_one, Nat.floor_natCast]
  · have hnone : (exponent - 0).toNat = 0 := by omega
    have hplaces : (0 - (exponent - (0 : Nat))).toNat = count := by omega
    have hvalue : (mantissa * 2 ^ exponent : Rat) = mantissa / (2 ^ count : Nat) := by
      rw [hcount, zpow_neg, zpow_natCast, div_eq_mul_inv]
      push_cast
      rfl
    rw [hcut, hvalue, hnone, hplaces, Nat.shiftLeft_zero, Nat.floor_div_eq_div]

/-- A conversion to a word brings the whole part of a number that fits. -/
theorem toNat_toUInt16 {number : UnpackedFloat} {value : Rat}
    (h : Represents spec number .positive value) (hlt : value < 65536) :
    number.toUInt16.toNat = ⌊value⌋₊ := by
  cases h with
  | zero => rw [Nat.floor_zero]; rfl
  | @finite _ mantissa exponent h =>
      have hfits : ⌊(mantissa * 2 ^ exponent : Rat)⌋₊ < UInt16.size :=
        (Nat.floor_lt (by positivity)).mpr hlt
      rw [toUInt16, toInt, roundToInt_positive, Int.toNat_natCast, UInt16.ofNatClamp, dif_pos hfits]
      rfl

end EnergyMeter.Binary
