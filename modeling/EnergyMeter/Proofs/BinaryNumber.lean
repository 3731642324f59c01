import EnergyMeter.Proofs.BinaryArithmetic

/-!
The numbers that binary32 patterns stand for.  The fields of a pattern give its
number, and the wider format holds the same number.
-/

namespace EnergyMeter.Binary

open Float.Model (Format UnpackedFloat)
open Float.Model.UnpackedFloat

/-- What a binary32 pattern stands for. -/
inductive Number where
  | nan
  | infinite (negative : Bool)
  | finite (value : Rat)
  deriving DecidableEq

/-- The number of a pattern: a sign bit, eight bits of an exponent and twenty-three
of a fraction.  The last exponent is kept for patterns of no finite number, and the
first for numbers without an implicit bit. -/
def Number.ofBits (bits : UInt32) : Number :=
  let negative := decide (2 ^ 31 ≤ bits.toNat)
  let field : Nat := bits.toNat / 2 ^ 23 % 2 ^ 8
  let fraction : Nat := bits.toNat % 2 ^ 23
  if field = 255 then
    if fraction = 0 then .infinite negative else .nan
  else
    let magnitude : Rat :=
      if field = 0 then fraction * 2 ^ (-149 : Int)
      else (2 ^ 23 + fraction : Nat) * 2 ^ ((field : Int) - 150)
    .finite (if negative then -magnitude else magnitude)

/-- A magnitude under a sign. -/
def signed : Sign → Rat → Rat
  | .positive, magnitude => magnitude
  | .negative, magnitude => -magnitude

section

variable (bits : UInt32)

theorem exponent_eq_last_iff :
    @unpackExponent .binary32 bits.toBitVec = -1#_ ↔ bits.toNat / 2 ^ 23 % 2 ^ 8 = 255 := by
  rw [← BitVec.toNat_inj, toNat_neg_one, toNat_unpackExponent]
  rfl

theorem mantissa_eq_zero_iff :
    @unpackMantissa .binary32 bits.toBitVec = 0#_ ↔ bits.toNat % 2 ^ 23 = 0 := by
  rw [← BitVec.toNat_inj, toNat_unpackMantissa]
  rfl

theorem sign_eq_ite :
    Sign.ofBitVec (@unpackSign .binary32 bits.toBitVec) =
      if 2 ^ 31 ≤ bits.toNat then .negative else .positive := by
  rw [ofBitVec_unpackSign, ← ite_not]
  simp only [not_lt]
  rfl

theorem unpack_of_ofBits_nan (h : Number.ofBits bits = .nan) :
    unpack .binary32 bits.toBitVec = .notANumber := by
  simp only [Number.ofBits] at h
  split_ifs at h with hlast hfraction
  exact unpack_of_nan _ ((exponent_eq_last_iff bits).mpr hlast)
    (mt (mantissa_eq_zero_iff bits).mp hfraction)

theorem unpack_of_ofBits_infinite {negative : Bool} (h : Number.ofBits bits = .infinite negative) :
    ∃ sign, unpack .binary32 bits.toBitVec = .infinity sign := by
  simp only [Number.ofBits] at h
  split_ifs at h with hlast hfraction
  exact ⟨_, unpack_of_infinite _ ((exponent_eq_last_iff bits).mpr hlast)
    ((mantissa_eq_zero_iff bits).mpr hfraction)⟩

theorem magnitude_binary32 (field fraction : Nat) :
    magnitude .binary32 field fraction =
      if field = 0 then (fraction * 2 ^ (-149 : Int) : Rat)
      else (2 ^ 23 + fraction : Nat) * 2 ^ ((field : Int) - 150) := by
  have hleast : Format.binary32.minExponent = -149 := rfl
  have hplaces : ((Format.binary32.exponentBias : Int) +
      Format.binary32.mantissaBitsWithoutImplicit) = 150 := rfl
  rw [magnitude, hleast, hplaces]

/-- A finite number is unpacked to its sign and magnitude. -/
theorem unpack_of_ofBits_finite {value : Rat} (h : Number.ofBits bits = .finite value) :
    ∃ sign magnitude, Represents .binary32 (unpack .binary32 bits.toBitVec) sign magnitude ∧
      value = signed sign magnitude ∧ magnitude < 2 ^ 128 := by
  have hlast : bits.toNat / 2 ^ 23 % 2 ^ 8 ≠ 255 := by
    intro heq
    simp only [Number.ofBits, if_pos heq] at h
    split_ifs at h
  have hrepresents := @unpack_represents .binary32 bits.toBitVec
    (mt (exponent_eq_last_iff bits).mp hlast)
  rw [toNat_unpackExponent, toNat_unpackMantissa, sign_eq_ite] at hrepresents
  have hfield : bits.toNat / 2 ^ 23 % 2 ^ 8 + 1 < 2 ^ 8 := by omega
  have hfraction : bits.toNat % 2 ^ 23 < 2 ^ 23 := Nat.mod_lt _ (by decide)
  refine ⟨_, _, hrepresents, ?_, @magnitude_lt .binary32 _ _ hfield hfraction⟩
  simp only [Number.ofBits, if_neg hlast, Number.finite.injEq] at h
  rw [← h, magnitude_binary32]
  by_cases hsign : 2 ^ 31 ≤ bits.toNat
  · rw [if_pos hsign, if_pos (decide_eq_true hsign)]
    rfl
  · rw [if_neg hsign, if_neg (by simpa using hsign)]
    rfl

end

section

variable {sign : Sign} {magnitude : Rat}

/-- Binary64 has the magnitudes of binary32, also after a small factor. -/
theorem Represents.representable_mul {number : UnpackedFloat}
    (h : Represents .binary32 number sign magnitude) {factor : Nat} (hfactor : factor < 2 ^ 29) :
    Representable .binary64 (magnitude * factor) := by
  cases h with
  | zero => exact ⟨0, 0, by decide, by decide, by simp⟩
  | @finite _ mantissa exponent h =>
      refine ⟨mantissa * factor, exponent, ?_, ?_, by push_cast; ring⟩
      · have hmantissa : mantissa < 2 ^ 24 := h.lt
        calc mantissa * factor < 2 ^ 24 * 2 ^ 29 := Nat.mul_lt_mul'' hmantissa hfactor
          _ = 2 ^ Format.binary64.mantissaBits := rfl
      · exact le_trans (by decide) h.least

/-- A number in range is kept when it is stored in binary64. -/
theorem Represents.stored {number : UnpackedFloat}
    (h : Represents .binary64 number sign magnitude) (hlt : magnitude < 2 ^ 1024) :
    Represents .binary64 (Float.ofModel (.pack number)).toModel.unpack sign magnitude := by
  have hunpack : (Float.ofModel (.pack number)).toModel.unpack =
      unpack .binary64 (pack .binary64 number) := rfl
  rw [hunpack, h.unpack_pack (by decide) hlt]
  exact h

/-- The magnitude of a number that is written down. -/
theorem Represents.literal {literal : Float} {mantissa : Nat} {exponent : Int}
    (h : Canonical .binary64 mantissa exponent)
    (hunpack : literal.toModel.unpack = .finite sign mantissa exponent h.pos)
    (hvalue : mantissa * 2 ^ exponent = magnitude) :
    Represents .binary64 literal.toModel.unpack sign magnitude := by
  rw [hunpack, ← hvalue]
  exact .finite sign h

/-- Widening changes neither the sign nor the magnitude. -/
theorem widen_represents {number : Float32}
    (h : Represents .binary32 number.toModel.unpack sign magnitude) (hlt : magnitude < 2 ^ 128) :
    Represents .binary64 (widen number).toModel.unpack sign magnitude := by
  have hexact : Representable .binary64 magnitude := by
    simpa using h.representable_mul (by decide : 1 < 2 ^ 29)
  refine Represents.stored ?_ (hlt.trans (pow_lt_pow_right₀ one_lt_two (by decide)))
  generalize number.toModel.unpack = unpacked at h
  cases h with
  | zero => exact .zero sign
  | @finite _ mantissa exponent h =>
      obtain ⟨rounded, hrounded, hrounds⟩ := @round_rounds .binary64 _ sign h.pos exponent
      rwa [hrounds.eq hexact] at hrounded

end

/-- The sign and magnitude of a pattern's number, as the program holds it. -/
theorem represents_ofBits {bits : UInt32} {value : Rat} (h : Number.ofBits bits = .finite value) :
    ∃ sign magnitude, Represents .binary32 (Float32.ofBits bits).toModel.unpack sign magnitude ∧
      value = signed sign magnitude ∧ magnitude < 2 ^ 128 := by
  obtain ⟨sign, magnitude, hrepresents, hvalue, hlt⟩ := unpack_of_ofBits_finite bits h
  have hunpack : (Float32.ofBits bits).toModel.unpack =
      unpack .binary32 (pack .binary32 (unpack .binary32 bits.toBitVec)) := rfl
  refine ⟨sign, magnitude, ?_, hvalue, hlt⟩
  rw [hunpack, hrepresents.unpack_pack (by decide) hlt]
  exact hrepresents

end EnergyMeter.Binary
