import EnergyMeter.Binary
import Mathlib

/-!
The numbers of a binary format.  A number has a sign and a magnitude, which is a
mantissa scaled by a power of two, and each magnitude has one canonical mantissa
and exponent.  Packing a number that is in range and unpacking it again loses
nothing.
-/

namespace EnergyMeter.Binary

open Float.Model (Format UnpackedFloat totalExponent)
open Float.Model.UnpackedFloat

variable {spec : Format} {sign : Sign} {mantissa : Nat} {exponent : Int}

/-- A mantissa and an exponent as the format stores them: the mantissa has its
full width unless the exponent is the least one. -/
structure Canonical (spec : Format) (mantissa : Nat) (exponent : Int) : Prop where
  pos : 0 < mantissa
  lt : mantissa < 2 ^ spec.mantissaBits
  least : spec.minExponent ≤ exponent
  full : 2 ^ spec.mantissaBitsWithoutImplicit ≤ mantissa ∨ exponent = spec.minExponent

theorem Canonical.value_pos (h : Canonical spec mantissa exponent) :
    (0 : Rat) < mantissa * 2 ^ exponent := by
  have hpos := h.pos
  positivity

instance (spec : Format) (mantissa : Nat) (exponent : Int) :
    Decidable (Canonical spec mantissa exponent) :=
  decidable_of_iff
    (0 < mantissa ∧ mantissa < 2 ^ spec.mantissaBits ∧ spec.minExponent ≤ exponent ∧
      (2 ^ spec.mantissaBitsWithoutImplicit ≤ mantissa ∨ exponent = spec.minExponent))
    ⟨fun ⟨hpos, hlt, hleast, hfull⟩ => ⟨hpos, hlt, hleast, hfull⟩,
      fun h => ⟨h.pos, h.lt, h.least, h.full⟩⟩

/-- A number of the format and its magnitude. -/
inductive Represents (spec : Format) : UnpackedFloat → Sign → Rat → Prop where
  | zero (sign : Sign) : Represents spec (.zero sign) sign 0
  | finite (sign : Sign) {mantissa : Nat} {exponent : Int}
      (h : Canonical spec mantissa exponent) :
      Represents spec (.finite sign mantissa exponent h.pos) sign (mantissa * 2 ^ exponent)

theorem two_pow_mantissaBits (spec : Format) :
    2 ^ spec.mantissaBits = 2 * 2 ^ spec.mantissaBitsWithoutImplicit := by
  rw [Format.mantissaBits, Nat.pow_add, Nat.pow_one]

/-- A unit that is coarser by some places. -/
theorem two_zpow_add (exponent : Int) (count : Nat) :
    (2 : Rat) ^ (exponent + count) = (2 ^ count : Nat) * 2 ^ exponent := by
  rw [zpow_add₀ two_ne_zero, zpow_natCast, mul_comm]
  push_cast
  rfl

theorem scaled_lt {count width : Nat} {unit limit : Int} (hcount : count < 2 ^ width)
    (hle : unit + width ≤ limit) : (count * 2 ^ unit : Rat) < 2 ^ limit := by
  calc (count * 2 ^ unit : Rat)
      < (2 ^ width : Nat) * 2 ^ unit := by gcongr
    _ = 2 ^ (unit + width) := (two_zpow_add unit width).symm
    _ ≤ 2 ^ limit := zpow_le_zpow_right₀ (by norm_num) hle

/-- A mantissa stays below a full mantissa of a coarser unit. -/
theorem lt_full_of_coarser {unit : Int} (hlt : mantissa < 2 ^ spec.mantissaBits)
    (hcoarser : exponent < unit) :
    (mantissa * 2 ^ exponent : Rat) < (2 ^ spec.mantissaBitsWithoutImplicit : Nat) * 2 ^ unit := by
  have hwidth : spec.mantissaBits = 1 + spec.mantissaBitsWithoutImplicit := rfl
  rw [← two_zpow_add]
  apply scaled_lt hlt
  omega

theorem two_pow_exponentBits (spec : Format) :
    2 ^ spec.exponentBits = 2 * spec.exponentBias + 2 := by
  have hpos := Nat.two_pow_pos (spec.exponentBits - 1)
  have hsplit : 2 ^ spec.exponentBits = 2 * 2 ^ (spec.exponentBits - 1) := by
    rw [← Nat.pow_succ', Nat.succ_eq_add_one, Nat.sub_add_cancel spec.he]
  rw [hsplit, Format.exponentBias]
  omega

theorem minExponent_eq (spec : Format) :
    spec.minExponent = 1 - (spec.exponentBias : Int) - spec.mantissaBitsWithoutImplicit := by
  have hpos : (1 : Int) ≤ 2 ^ (spec.exponentBits - 1) := by
    exact_mod_cast Nat.two_pow_pos (spec.exponentBits - 1)
  rw [Format.minExponent, Format.mantissaBits, Format.exponentBias,
    Nat.cast_sub (Nat.two_pow_pos _)]
  push_cast
  omega

/-- The implicit bit stands above the stored fraction. -/
theorem implicit_or (fraction : BitVec spec.mantissaBitsWithoutImplicit) :
    1 <<< spec.mantissaBitsWithoutImplicit ||| fraction.toNat =
      2 ^ spec.mantissaBitsWithoutImplicit + fraction.toNat := by
  rw [← Nat.shiftLeft_add_eq_or_of_lt fraction.isLt, Nat.shiftLeft_eq, Nat.one_mul]

theorem toNat_neg_one (width : Nat) : (-BitVec.ofNat width 1).toNat = 2 ^ width - 1 := by
  rw [BitVec.neg_one_eq_allOnes, BitVec.toNat_allOnes]

theorem Canonical.log2_eq_iff (h : Canonical spec mantissa exponent) :
    mantissa.log2 + 1 = spec.mantissaBits ↔ 2 ^ spec.mantissaBitsWithoutImplicit ≤ mantissa := by
  have hlt := (Nat.log2_lt h.pos.ne').mpr h.lt
  rw [← Nat.le_log2 h.pos.ne', Format.mantissaBits] at *
  omega

theorem unpack_normal {field : BitVec spec.exponentBits}
    {fraction : BitVec spec.mantissaBitsWithoutImplicit} (hpos : 0 < mantissa)
    (hfirst : field ≠ 0#_) (hlast : field ≠ -1#_)
    (hmantissa : 2 ^ spec.mantissaBitsWithoutImplicit + fraction.toNat = mantissa)
    (hexponent : (field.toNat : Int) - (spec.exponentBias + spec.mantissaBitsWithoutImplicit) =
      exponent) :
    unpack spec (packComponents spec sign field fraction) =
      .finite sign mantissa exponent hpos := by
  subst hmantissa hexponent
  simp [unpack, hfirst, hlast, implicit_or]

theorem unpack_subnormal {fraction : BitVec spec.mantissaBitsWithoutImplicit}
    (hpos : 0 < mantissa) (hmantissa : fraction.toNat = mantissa)
    (hexponent : spec.minExponent = exponent) :
    unpack spec (packComponents spec sign 0#_ fraction) = .finite sign mantissa exponent hpos := by
  have hne : fraction ≠ 0#_ := by
    rintro rfl
    rw [BitVec.toNat_zero] at hmantissa
    omega
  have hleast : spec.minExponent =
      -((spec.exponentBias : Int) + spec.mantissaBitsWithoutImplicit) + 1 := by
    rw [minExponent_eq]
    omega
  subst hmantissa hexponent
  simp [unpack, hne, spec.he.ne', hleast]

/-- A canonical number in range is unpacked as it was packed. -/
theorem unpack_pack_finite (sign : Sign) (h : Canonical spec mantissa exponent)
    (hrange : exponent + spec.mantissaBitsWithoutImplicit ≤ spec.exponentBias) :
    unpack spec (pack spec (.finite sign mantissa exponent h.pos)) =
      .finite sign mantissa exponent h.pos := by
  have hleast := h.least
  rw [minExponent_eq] at hleast
  have hcapacity := two_pow_exponentBits spec
  have hwidth := two_pow_mantissaBits spec
  have hlt := h.lt
  obtain ⟨field, hfield⟩ : ∃ field : Nat,
      (field : Int) = exponent + spec.exponentBias + spec.mantissaBitsWithoutImplicit :=
    ⟨_, Int.toNat_of_nonneg (by omega)⟩
  have hfits : ¬ 2 ^ spec.exponentBits ≤ field + 1 := by omega
  have hvalue : (BitVec.ofNat spec.exponentBits field).toNat = field := by
    rw [BitVec.toNat_ofNat, Nat.mod_eq_of_lt (by omega)]
  rw [pack]
  simp only [← hfield, Int.toNat_natCast, if_neg hfits, h.log2_eq_iff]
  by_cases hfull : 2 ^ spec.mantissaBitsWithoutImplicit ≤ mantissa
  · rw [if_pos hfull]
    apply unpack_normal
    · intro heq
      have hzero := congrArg BitVec.toNat heq
      rw [hvalue, BitVec.toNat_zero] at hzero
      omega
    · intro heq
      have hones := congrArg BitVec.toNat heq
      rw [hvalue, toNat_neg_one] at hones
      omega
    · -- Only the implicit bit is lost when a full mantissa is stored.
      have hrest : mantissa % 2 ^ spec.mantissaBitsWithoutImplicit =
          mantissa - 2 ^ spec.mantissaBitsWithoutImplicit := by
        rw [Nat.mod_eq_sub_mod hfull, Nat.mod_eq_of_lt (by omega)]
      rw [BitVec.toNat_ofNat, hrest]
      omega
    · omega
  · rw [if_neg hfull]
    apply unpack_subnormal
    · rw [BitVec.toNat_ofNat, Nat.mod_eq_of_lt (by omega)]
    · exact (h.full.resolve_left hfull).symm

theorem canonical_normal {field fraction : Nat} (hfirst : 0 < field)
    (hfraction : fraction < 2 ^ spec.mantissaBitsWithoutImplicit) :
    Canonical spec (2 ^ spec.mantissaBitsWithoutImplicit + fraction)
      ((field : Int) - (spec.exponentBias + spec.mantissaBitsWithoutImplicit)) where
  pos := by positivity
  lt := by
    rw [two_pow_mantissaBits]
    omega
  least := by
    rw [minExponent_eq]
    omega
  full := .inl (Nat.le_add_right ..)

theorem canonical_subnormal {fraction : Nat} (hpos : 0 < fraction)
    (hfraction : fraction < 2 ^ spec.mantissaBitsWithoutImplicit) :
    Canonical spec fraction spec.minExponent where
  pos := hpos
  lt := by
    rw [two_pow_mantissaBits]
    omega
  least := le_rfl
  full := .inr rfl

/-- What the fields of a bit pattern stand for, if it is the pattern of a number. -/
def magnitude (spec : Format) (field fraction : Nat) : Rat :=
  if field = 0 then fraction * 2 ^ spec.minExponent
  else (2 ^ spec.mantissaBitsWithoutImplicit + fraction : Nat) *
    2 ^ ((field : Int) - (spec.exponentBias + spec.mantissaBitsWithoutImplicit))

/-- The magnitudes of a format end at the power after its last exponent. -/
theorem magnitude_lt {field fraction : Nat} (hlast : field + 1 < 2 ^ spec.exponentBits)
    (hfraction : fraction < 2 ^ spec.mantissaBitsWithoutImplicit) :
    magnitude spec field fraction < 2 ^ (spec.exponentBias + 1) := by
  have hcapacity := two_pow_exponentBits spec
  rw [← zpow_natCast, magnitude]
  split_ifs with hfirst
  · apply scaled_lt hfraction
    rw [minExponent_eq]
    omega
  · have hfull : 2 ^ spec.mantissaBitsWithoutImplicit + fraction <
        2 ^ (spec.mantissaBitsWithoutImplicit + 1) := by
      rw [Nat.pow_succ]
      omega
    apply scaled_lt hfull
    omega

section

variable (bits : BitVec spec.numBits)

theorem toNat_unpackMantissa :
    (unpackMantissa bits).toNat = bits.toNat % 2 ^ spec.mantissaBitsWithoutImplicit := by
  simp [unpackMantissa, Nat.sub_add_cancel spec.hm]

theorem toNat_unpackExponent :
    (unpackExponent bits).toNat =
      bits.toNat / 2 ^ spec.mantissaBitsWithoutImplicit % 2 ^ spec.exponentBits := by
  have hwidth : spec.mantissaBitsWithoutImplicit + spec.exponentBits - 1 -
      spec.mantissaBitsWithoutImplicit + 1 = spec.exponentBits := by
    have hpos := spec.he
    omega
  simp [unpackExponent, Nat.shiftRight_eq_div_pow, hwidth]

theorem ofBitVec_unpackSign :
    Sign.ofBitVec (unpackSign bits) =
      if bits.toNat < 2 ^ (spec.mantissaBitsWithoutImplicit + spec.exponentBits) then .positive
      else .negative := by
  have hwidth : 2 ^ spec.numBits =
      2 ^ (spec.mantissaBitsWithoutImplicit + spec.exponentBits) * 2 := by
    rw [← Nat.pow_succ, Format.numBits]
    congr 1
    omega
  have hlt : bits.toNat < 2 ^ (spec.mantissaBitsWithoutImplicit + spec.exponentBits) * 2 :=
    hwidth ▸ bits.isLt
  have hbit : (unpackSign bits).toNat =
      bits.toNat / 2 ^ (spec.mantissaBitsWithoutImplicit + spec.exponentBits) := by
    have htop := Nat.div_lt_of_lt_mul hlt
    simp [unpackSign, Nat.shiftRight_eq_div_pow, Nat.mod_eq_of_lt htop]
  have hclear : unpackSign bits = 0#1 ↔
      bits.toNat < 2 ^ (spec.mantissaBitsWithoutImplicit + spec.exponentBits) := by
    rw [← BitVec.toNat_inj, hbit, BitVec.toNat_zero, Nat.div_eq_zero_iff]
    have hpos := Nat.two_pow_pos (spec.mantissaBitsWithoutImplicit + spec.exponentBits)
    omega
  simp only [Sign.ofBitVec, hclear]

theorem unpack_of_infinite (hlast : unpackExponent bits = -1#_)
    (hfraction : unpackMantissa bits = 0#_) :
    unpack spec bits = .infinity (Sign.ofBitVec (unpackSign bits)) := by
  simp only [unpack, if_pos hlast, if_pos hfraction]

theorem unpack_of_nan (hlast : unpackExponent bits = -1#_)
    (hfraction : unpackMantissa bits ≠ 0#_) : unpack spec bits = .notANumber := by
  simp only [unpack, if_pos hlast, if_neg hfraction]

/-- The pattern of a number is unpacked to it. -/
theorem unpack_represents (hlast : unpackExponent bits ≠ -1#_) :
    Represents spec (unpack spec bits) (Sign.ofBitVec (unpackSign bits))
      (magnitude spec (unpackExponent bits).toNat (unpackMantissa bits).toNat) := by
  by_cases hfirst : unpackExponent bits = 0#_
  · by_cases hfraction : unpackMantissa bits = 0#_
    · have hunpack : unpack spec bits = .zero (Sign.ofBitVec (unpackSign bits)) := by
        simp only [unpack, if_neg hlast, if_pos hfirst, dif_pos hfraction]
      have hzero : magnitude spec (unpackExponent bits).toNat (unpackMantissa bits).toNat = 0 := by
        simp [magnitude, hfirst, hfraction]
      rw [hunpack, hzero]
      exact .zero _
    · have hpos : 0 < (unpackMantissa bits).toNat :=
        Nat.pos_of_ne_zero fun hzero => hfraction (BitVec.eq_of_toNat_eq hzero)
      have hcanonical := canonical_subnormal hpos (unpackMantissa bits).isLt
      have hunpack : unpack spec bits =
          .finite (Sign.ofBitVec (unpackSign bits)) _ spec.minExponent hcanonical.pos := by
        simp only [unpack, if_neg hlast, if_pos hfirst, dif_neg hfraction]
        congr 1
        rw [hfirst, BitVec.toNat_zero, minExponent_eq]
        omega
      have hvalue : magnitude spec (unpackExponent bits).toNat (unpackMantissa bits).toNat =
          (unpackMantissa bits).toNat * 2 ^ spec.minExponent := by
        rw [hfirst, BitVec.toNat_zero, magnitude, if_pos rfl]
      rw [hunpack, hvalue]
      exact .finite _ hcanonical
  · have hpos : 0 < (unpackExponent bits).toNat :=
      Nat.pos_of_ne_zero fun hzero => hfirst (BitVec.eq_of_toNat_eq hzero)
    have hcanonical := canonical_normal hpos (unpackMantissa bits).isLt
    have hunpack : unpack spec bits =
        .finite (Sign.ofBitVec (unpackSign bits)) _
          ((unpackExponent bits).toNat - (spec.exponentBias + spec.mantissaBitsWithoutImplicit))
          hcanonical.pos := by
      simp only [unpack, if_neg hlast, if_neg hfirst]
      congr 1
      rw [BitVec.toNat_append]
      exact implicit_or _
    rw [hunpack, magnitude, if_neg hpos.ne']
    exact .finite _ hcanonical

end

namespace Represents

variable {number : UnpackedFloat} {value : Rat}

theorem nonneg (h : Represents spec number sign value) : 0 ≤ value := by
  cases h with
  | zero sign => exact le_rfl
  | finite sign h => positivity

/-- A number below the end of the range is unpacked as it was packed. -/
theorem unpack_pack (hbias : 0 < spec.exponentBias) (h : Represents spec number sign value)
    (hrange : value < 2 ^ (spec.exponentBias + 1)) : unpack spec (pack spec number) = number := by
  cases h with
  | zero sign => exact unpack_packedZero
  | @finite _ mantissa exponent h =>
      apply unpack_pack_finite sign h
      rcases h.full with hfull | hleast
      · have hpower : (2 : Rat) ^ (exponent + spec.mantissaBitsWithoutImplicit) <
            2 ^ ((spec.exponentBias : Int) + 1) := by
          calc (2 : Rat) ^ (exponent + spec.mantissaBitsWithoutImplicit)
              = (2 ^ spec.mantissaBitsWithoutImplicit : Nat) * 2 ^ exponent :=
                two_zpow_add exponent _
            _ ≤ mantissa * 2 ^ exponent := by gcongr
            _ < 2 ^ ((spec.exponentBias : Int) + 1) := by exact_mod_cast hrange
        have hexponent := (zpow_lt_zpow_iff_right₀ (by norm_num)).mp hpower
        omega
      · rw [hleast, minExponent_eq]
        omega

end Represents

end EnergyMeter.Binary
