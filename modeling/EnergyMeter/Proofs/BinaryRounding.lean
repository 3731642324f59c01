import EnergyMeter.Proofs.BinaryFormat

/-!
Rounding to a binary format.  The mantissa is cut at the place of the last bit
that the format keeps, and goes up by at most one there.  So a rounded value never
passes a number of the format, and a value that is such a number is kept.
-/

namespace EnergyMeter.Binary

open Float.Model (Format UnpackedFloat totalExponent)
open Float.Model.UnpackedFloat

variable {spec : Format} {sign : Sign} {mantissa : Nat} {exponent : Int}

/-- A magnitude that the format has, without regard to the end of its range. -/
def Representable (spec : Format) (value : Rat) : Prop :=
  ∃ (mantissa : Nat) (exponent : Int), mantissa < 2 ^ spec.mantissaBits ∧
    spec.minExponent ≤ exponent ∧ value = mantissa * 2 ^ exponent

/-- A value and what it is rounded to, with no magnitude of the format between
them. -/
structure Rounds (spec : Format) (value rounded : Rat) : Prop where
  above (bound : Rat) (hbound : Representable spec bound) (hle : bound ≤ value) : bound ≤ rounded
  below (bound : Rat) (hbound : Representable spec bound) (hle : value ≤ bound) : rounded ≤ bound

theorem Rounds.refl (spec : Format) (value : Rat) : Rounds spec value value :=
  ⟨fun _ _ hle => hle, fun _ _ hle => hle⟩

/-- A magnitude of the format is not rounded. -/
theorem Rounds.eq {value rounded : Rat} (h : Rounds spec value rounded)
    (hvalue : Representable spec value) : rounded = value :=
  le_antisymm (h.below value hvalue le_rfl) (h.above value hvalue le_rfl)

/-- A magnitude of the format is a multiple of a coarser unit, or it is too small
to be a full mantissa of that unit. -/
theorem Representable.multiple_or_lt {value : Rat} (h : Representable spec value) (unit : Int) :
    (∃ count : Nat, value = count * 2 ^ unit) ∨
      unit ≠ spec.minExponent ∧
        value < (2 ^ spec.mantissaBitsWithoutImplicit : Nat) * 2 ^ unit := by
  obtain ⟨mantissa, exponent, hlt, hexponent, rfl⟩ := h
  by_cases hcoarse : unit ≤ exponent
  · refine .inl ⟨mantissa * 2 ^ (exponent - unit).toNat, ?_⟩
    have hsplit : (2 : Rat) ^ exponent = 2 ^ (exponent - unit).toNat * 2 ^ unit := by
      rw [← zpow_natCast, ← zpow_add₀ two_ne_zero, Int.toNat_of_nonneg (by omega),
        Int.sub_add_cancel]
    rw [hsplit]
    push_cast
    ring
  · exact .inr ⟨by omega, lt_full_of_coarser hlt (not_le.mp hcoarse)⟩

/-- A full mantissa at the place where a value is cut, or the next one if the value
is not met, is a rounding of the value. -/
theorem rounds_of_cut {value : Rat} {unit : Int} {cut rounded : Nat}
    (hfull : 2 ^ spec.mantissaBitsWithoutImplicit ≤ cut ∨ unit = spec.minExponent)
    (hle : cut * 2 ^ unit ≤ value) (hlt : value < (cut + 1 : Nat) * 2 ^ unit)
    (hrounded : rounded = cut ∨ rounded = cut + 1 ∧ value ≠ cut * 2 ^ unit) :
    Rounds spec value (rounded * 2 ^ unit) := by
  have hunit : (0 : Rat) < 2 ^ unit := by positivity
  have hcut : cut ≤ rounded := by omega
  -- A bound that is no multiple of the unit lies below a full mantissa.
  have hsmall : ∀ bound : Rat, unit ≠ spec.minExponent →
      bound < (2 ^ spec.mantissaBitsWithoutImplicit : Nat) * 2 ^ unit →
      bound < cut * 2 ^ unit := by
    intro bound hne hbound
    have hwide := hfull.resolve_right hne
    exact hbound.trans_le (by gcongr)
  constructor
  · intro bound hbound hbelow
    rcases hbound.multiple_or_lt unit with ⟨count, rfl⟩ | ⟨hne, hshort⟩
    · have hcount : count < cut + 1 := by
        exact_mod_cast lt_of_mul_lt_mul_right (hbelow.trans_lt hlt) hunit.le
      have hreached : count ≤ rounded := by omega
      gcongr
    · exact (hsmall bound hne hshort).le.trans (by gcongr)
  · intro bound hbound habove
    rcases hbound.multiple_or_lt unit with ⟨count, rfl⟩ | ⟨hne, hshort⟩
    · have hcount : cut ≤ count := by
        exact_mod_cast le_of_mul_le_mul_right (hle.trans habove) hunit
      have hreached : rounded ≤ count := by
        rcases hrounded with rfl | ⟨rfl, hmissed⟩
        · exact hcount
        · refine Nat.succ_le_of_lt (lt_of_le_of_ne hcount ?_)
          rintro rfl
          exact hmissed (le_antisymm habove hle)
      gcongr
    · exact absurd (hle.trans habove) (not_le.mpr (hsmall bound hne hshort))

/-- The mantissa of a shifted mantissa, without the bits that fell off. -/
theorem mantissa_shiftRight (extended : ExtendedMantissa) (count : Nat) :
    (extended >>> count).mantissa = extended.mantissa / 2 ^ count := by
  induction count with
  | zero => exact (Nat.div_one _).symm
  | succ count ih =>
      have hstep : (extended >>> (count + 1)).mantissa = (extended >>> count).mantissa / 2 := rfl
      rw [hstep, ih, Nat.div_div_eq_div_mul, Nat.pow_succ]

/-- Nothing but zeros falls off a multiple. -/
theorem shiftRight_exact {count : Nat} (h : 2 ^ count ∣ mantissa) :
    ExtendedMantissa.ofMantissaAndAccuracy mantissa .exact >>> count =
      ⟨mantissa / 2 ^ count, false, false⟩ := by
  induction count with
  | zero => simp [ExtendedMantissa.ofMantissaAndAccuracy]; rfl
  | succ count ih =>
      have hshorter : 2 ^ count ∣ mantissa := (Nat.pow_dvd_pow 2 (Nat.le_succ count)).trans h
      have heven : mantissa / 2 ^ count % 2 = 0 := by
        obtain ⟨rest, rfl⟩ := h
        rw [Nat.pow_succ, Nat.mul_assoc, Nat.mul_div_cancel_left _ (Nat.two_pow_pos count),
          Nat.mul_mod_right]
      have hstep : ExtendedMantissa.ofMantissaAndAccuracy mantissa .exact >>> (count + 1) =
          (ExtendedMantissa.ofMantissaAndAccuracy mantissa .exact >>> count).shiftRightOne := rfl
      rw [hstep, ih hshorter]
      simp [ExtendedMantissa.shiftRightOne, heven, Nat.div_div_eq_div_mul, Nat.pow_succ]

theorem roundedMantissa_eq_or (extended : ExtendedMantissa) :
    extended.roundedMantissa = extended.mantissa ∨
      extended.roundedMantissa = extended.mantissa + 1 := by
  rcases extended with ⟨mantissa, _ | _, _ | _⟩
  · exact .inl rfl
  · exact .inl rfl
  · have hparity : mantissa + mantissa % 2 = mantissa ∨ mantissa + mantissa % 2 = mantissa + 1 := by
      omega
    exact hparity
  · exact .inr rfl

/-- A rounded mantissa as a number.  One that was carried into the next place is
shifted back by that place. -/
def settled (spec : Format) (sign : Sign) (mantissa : Nat) (exponent : Int) : UnpackedFloat :=
  let shifted := shiftToTargetExponent spec mantissa exponent .exact
  if h : shifted.1.mantissa = 0 then .zero sign
  else .finite sign shifted.1.mantissa shifted.2 (Nat.pos_of_ne_zero h)

theorem settled_zero (sign : Sign) (exponent : Int) :
    settled spec sign 0 exponent = .zero sign := by
  have hmantissa : (shiftToTargetExponent spec 0 exponent .exact).1.mantissa = 0 := by
    rw [shiftToTargetExponent, shiftToExponent, mantissa_shiftRight]
    exact Nat.zero_div _
  rw [settled, dif_pos hmantissa]

/-- A mantissa that is not too wide stays as it is. -/
theorem settled_of_le (sign : Sign) (hpos : 0 < mantissa)
    (htarget : spec.targetExponent (totalExponent mantissa exponent) ≤ exponent) :
    settled spec sign mantissa exponent = .finite sign mantissa exponent hpos := by
  have hstay : (spec.targetExponent (totalExponent mantissa exponent) - exponent).toNat = 0 := by
    omega
  have hshift : shiftToTargetExponent spec mantissa exponent .exact =
      (⟨mantissa, false, false⟩, exponent) := by
    rw [shiftToTargetExponent, shiftToExponent, hstay, shiftRight_exact (Nat.one_dvd _)]
    simp
  simp only [settled, hshift, dif_neg hpos.ne']

/-- A carry leaves a power of two, which moves on by one place. -/
theorem settled_of_carry (sign : Sign) (hleast : spec.minExponent ≤ exponent) :
    settled spec sign (2 ^ spec.mantissaBits) exponent =
      .finite sign (2 ^ spec.mantissaBitsWithoutImplicit) (exponent + 1) (Nat.two_pow_pos _) := by
  have htarget : spec.targetExponent (totalExponent (2 ^ spec.mantissaBits) exponent) - exponent =
      (1 : Nat) := by
    rw [Format.targetExponent, totalExponent, Nat.log2_two_pow]
    omega
  have heven : 2 ^ 1 ∣ 2 ^ spec.mantissaBits := ⟨_, two_pow_mantissaBits spec⟩
  have hhalf : 2 ^ spec.mantissaBits / 2 ^ 1 = 2 ^ spec.mantissaBitsWithoutImplicit := by
    rw [two_pow_mantissaBits]
    exact Nat.mul_div_cancel_left _ Nat.two_pos
  have hshift : shiftToTargetExponent spec (2 ^ spec.mantissaBits) exponent .exact =
      (⟨2 ^ spec.mantissaBitsWithoutImplicit, false, false⟩, exponent + 1) := by
    rw [shiftToTargetExponent, shiftToExponent, htarget, Int.toNat_natCast,
      shiftRight_exact heven, hhalf]
    rfl
  have hpos := Nat.two_pow_pos spec.mantissaBitsWithoutImplicit
  simp only [settled, hshift, dif_neg hpos.ne']

theorem settled_represents (sign : Sign) (hle : mantissa ≤ 2 ^ spec.mantissaBits)
    (hleast : spec.minExponent ≤ exponent)
    (hfull : 2 ^ spec.mantissaBitsWithoutImplicit ≤ mantissa ∨ exponent = spec.minExponent) :
    Represents spec (settled spec sign mantissa exponent) sign (mantissa * 2 ^ exponent) := by
  rcases Nat.eq_zero_or_pos mantissa with rfl | hpos
  · rw [settled_zero, Nat.cast_zero, zero_mul]
    exact .zero sign
  · rcases hle.lt_or_eq with hlt | rfl
    · have hcanonical : Canonical spec mantissa exponent := ⟨hpos, hlt, hleast, hfull⟩
      have hwidth := (Nat.log2_lt hpos.ne').mpr hlt
      have htarget : spec.targetExponent (totalExponent mantissa exponent) ≤ exponent := by
        rw [Format.targetExponent, totalExponent]
        omega
      rw [settled_of_le sign hpos htarget]
      exact .finite sign hcanonical
    · have hhalf := Nat.two_pow_pos spec.mantissaBitsWithoutImplicit
      have hcanonical : Canonical spec (2 ^ spec.mantissaBitsWithoutImplicit) (exponent + 1) :=
        ⟨hhalf, by rw [two_pow_mantissaBits]; omega, by omega, .inl le_rfl⟩
      have hvalue : ((2 ^ spec.mantissaBits : Nat) : Rat) * 2 ^ exponent =
          (2 ^ spec.mantissaBitsWithoutImplicit : Nat) * 2 ^ (exponent + 1) := by
        rw [← two_zpow_add, ← two_zpow_add, Format.mantissaBits]
        congr 1
        omega
      rw [settled_of_carry sign hleast, hvalue]
      exact .finite sign hcanonical

/-- A value between a mantissa and the next one, and whether it meets the first. -/
structure Located (mantissa : Nat) (exponent : Int) (accuracy : Accuracy) (value : Rat) :
    Prop where
  le : mantissa * 2 ^ exponent ≤ value
  lt : value < (mantissa + 1 : Nat) * 2 ^ exponent
  exact : value = mantissa * 2 ^ exponent → accuracy = .exact

theorem Located.exact_value (mantissa : Nat) (exponent : Int) :
    Located mantissa exponent .exact (mantissa * 2 ^ exponent) where
  le := le_rfl
  lt := by
    gcongr
    exact Nat.lt_succ_self mantissa
  exact _ := rfl

theorem mantissa_ofMantissaAndAccuracy (mantissa : Nat) (accuracy : Accuracy) :
    (ExtendedMantissa.ofMantissaAndAccuracy mantissa accuracy).mantissa = mantissa := by
  rcases accuracy with _ | _ | _ | _ <;> rfl

/-- Cutting a mantissa at a place of its target exponent keeps its first bits, or it
is cut at the least exponent. -/
theorem cut_bounds (hbits : 0 < mantissa ∨ exponent ≤ spec.minExponent) {count : Nat}
    (htarget : spec.targetExponent (totalExponent mantissa exponent) = exponent + count) :
    mantissa / 2 ^ count < 2 ^ spec.mantissaBits ∧
      (2 ^ spec.mantissaBitsWithoutImplicit ≤ mantissa / 2 ^ count ∨
        exponent + count = spec.minExponent) := by
  have hwidth : spec.mantissaBits = 1 + spec.mantissaBitsWithoutImplicit := rfl
  rw [Format.targetExponent, totalExponent] at htarget
  rcases Nat.eq_zero_or_pos mantissa with rfl | hpos
  · have hleast := hbits.resolve_left (lt_irrefl 0)
    rw [Nat.log2_zero] at htarget
    rw [Nat.zero_div]
    exact ⟨Nat.two_pow_pos _, .inr (by omega)⟩
  constructor
  · rw [Nat.div_lt_iff_lt_mul (Nat.two_pow_pos count), ← Nat.pow_add, ← Nat.log2_lt hpos.ne']
    omega
  · by_cases hleast : exponent + count = spec.minExponent
    · exact .inr hleast
    · left
      rw [Nat.le_div_iff_mul_le (Nat.two_pow_pos count), ← Nat.pow_add, ← Nat.le_log2 hpos.ne']
      omega

/-- Cutting a mantissa cuts the value behind it. -/
theorem Located.cut {accuracy : Accuracy} {value : Rat}
    (h : Located mantissa exponent accuracy value) (count : Nat) :
    (mantissa / 2 ^ count : Nat) * 2 ^ (exponent + count) ≤ value ∧
      value < (mantissa / 2 ^ count + 1 : Nat) * 2 ^ (exponent + count) := by
  rw [two_zpow_add, ← mul_assoc, ← mul_assoc, ← Nat.cast_mul, ← Nat.cast_mul]
  constructor
  · refine le_trans ?_ h.le
    gcongr
    exact Nat.div_mul_le_self mantissa (2 ^ count)
  · refine h.lt.trans_le ?_
    gcongr
    exact Nat.lt_mul_of_div_lt (Nat.lt_succ_self _) (Nat.two_pow_pos count)

/-- A value that is met where it is cut is not rounded up. -/
theorem Located.roundedMantissa_of_eq {accuracy : Accuracy} {value : Rat}
    (h : Located mantissa exponent accuracy value) {count : Nat}
    (hmet : value = (mantissa / 2 ^ count : Nat) * 2 ^ (exponent + count)) :
    (ExtendedMantissa.ofMantissaAndAccuracy mantissa accuracy >>> count).roundedMantissa =
      mantissa / 2 ^ count := by
  have hunit : (0 : Rat) < 2 ^ exponent := by positivity
  have hwhole : mantissa ≤ mantissa / 2 ^ count * 2 ^ count := by
    have hle := h.le
    rw [hmet, two_zpow_add, ← mul_assoc, ← Nat.cast_mul] at hle
    exact_mod_cast le_of_mul_le_mul_right hle hunit
  have hmultiple : mantissa / 2 ^ count * 2 ^ count = mantissa :=
    le_antisymm (Nat.div_mul_le_self mantissa (2 ^ count)) hwhole
  have hexact : value = mantissa * 2 ^ exponent := by
    rw [hmet, two_zpow_add, ← mul_assoc, ← Nat.cast_mul, hmultiple]
  rw [h.exact hexact, shiftRight_exact (Nat.dvd_of_mod_eq_zero ?_)]
  · rfl
  · have hsplit := Nat.div_add_mod mantissa (2 ^ count)
    rw [Nat.mul_comm] at hsplit
    omega

theorem roundWithAccuracy_rounds (sign : Sign) {accuracy : Accuracy} {value : Rat}
    (hbits : 0 < mantissa ∨ exponent ≤ spec.minExponent)
    (htarget : exponent ≤ spec.targetExponent (totalExponent mantissa exponent))
    (hvalue : Located mantissa exponent accuracy value) :
    ∃ rounded, Represents spec (roundWithAccuracy spec sign mantissa exponent accuracy) sign
        rounded ∧ Rounds spec value rounded := by
  obtain ⟨count, hcount⟩ := Int.le.dest htarget
  obtain ⟨hlt, hfull⟩ := cut_bounds hbits hcount.symm
  obtain ⟨hbelow, habove⟩ := hvalue.cut count
  have hleast : spec.minExponent ≤ exponent + count := by
    rw [hcount]
    exact le_max_right _ _
  obtain ⟨extended, hextended⟩ : ∃ extended, extended =
      ExtendedMantissa.ofMantissaAndAccuracy mantissa accuracy >>> count := ⟨_, rfl⟩
  have hmantissa : extended.mantissa = mantissa / 2 ^ count := by
    rw [hextended, mantissa_shiftRight, mantissa_ofMantissaAndAccuracy]
  have hround : roundWithAccuracy spec sign mantissa exponent accuracy =
      settled spec sign extended.roundedMantissa (exponent + count) := by
    have hplaces : (exponent + count - exponent).toNat = count := by omega
    have hshift : shiftToTargetExponent spec mantissa exponent accuracy =
        (extended, exponent + count) := by
      rw [shiftToTargetExponent, shiftToExponent, ← hcount, hplaces, hextended]
    simp only [roundWithAccuracy, hshift, settled]
  have hrounded := roundedMantissa_eq_or extended
  rw [hmantissa] at hrounded
  refine ⟨extended.roundedMantissa * 2 ^ (exponent + count), ?_, ?_⟩
  · rw [hround]
    apply settled_represents sign (by omega) hleast
    omega
  · apply rounds_of_cut hfull hbelow habove
    rcases hrounded with hstay | hup
    · exact .inl hstay
    · refine .inr ⟨hup, fun hmet => ?_⟩
      have hstay := hvalue.roundedMantissa_of_eq hmet
      rw [← hextended, hup] at hstay
      omega

end EnergyMeter.Binary
