import EnergyMeter.Proofs.BinaryDivision
import EnergyMeter.Proofs.BinaryNumber

/-!
Integers in binary32.  Small integers and their negatives are held without rounding,
and a quotient of two of them is near the exact one.
-/

namespace EnergyMeter.Binary

open Float.Model (Format UnpackedFloat)
open Float.Model.UnpackedFloat

/-- A number has one sign and one magnitude. -/
theorem Represents.unique {spec : Format} {number : UnpackedFloat} {first second : Sign}
    {p q : Rat} (hfirst : Represents spec number first p)
    (hsecond : Represents spec number second q) : first = second ∧ p = q := by
  cases hfirst with
  | zero =>
      cases hsecond
      exact ⟨rfl, rfl⟩
  | finite =>
      cases hsecond
      exact ⟨rfl, rfl⟩

section

variable {number : Float32} {unpacked : UnpackedFloat} {sign : Sign} {magnitude : Rat}

/-- A number in range is kept when it is stored in binary32. -/
theorem Represents.kept (h : Represents .binary32 unpacked sign magnitude)
    (hlt : magnitude < 2 ^ 128) :
    Represents .binary32 (Float32.ofModel (.pack unpacked)).toModel.unpack sign magnitude := by
  have hunpack : (Float32.ofModel (.pack unpacked)).toModel.unpack =
      unpack .binary32 (pack .binary32 unpacked) := rfl
  rw [hunpack, h.unpack_pack (by decide) hlt]
  exact h

/-- The number of a pattern, from its sign and magnitude. -/
theorem Represents.ofBits_toBits (h : Represents .binary32 number.toModel.unpack sign magnitude) :
    Number.ofBits number.toBits = .finite (signed sign magnitude) := by
  have hunpack : number.toModel.unpack = unpack .binary32 number.toBits.toBitVec := rfl
  rw [hunpack] at h
  cases hnumber : Number.ofBits number.toBits with
  | nan =>
      rw [unpack_of_ofBits_nan _ hnumber] at h
      cases h
  | infinite negative =>
      obtain ⟨other, hother⟩ := unpack_of_ofBits_infinite _ hnumber
      rw [hother] at h
      cases h
  | finite value =>
      obtain ⟨other, size, hother, rfl, -⟩ := unpack_of_ofBits_finite _ hnumber
      obtain ⟨rfl, rfl⟩ := h.unique hother
      rfl

theorem Represents.neg (h : Represents .binary32 number.toModel.unpack sign magnitude)
    (hlt : magnitude < 2 ^ 128) :
    Represents .binary32 (-number).toModel.unpack (-sign) magnitude := by
  have hopposite : Represents .binary32 number.toModel.unpack.neg (-sign) magnitude := by
    generalize number.toModel.unpack = unpacked at h
    cases h with
    | zero => exact .zero _
    | finite _ h => exact .finite _ h
  exact hopposite.kept hlt

end

/-- Numbers that are not negative are ordered as their magnitudes are. -/
theorem number_lt_iff {first second : Float32} {p q : Rat}
    (hfirst : Represents .binary32 first.toModel.unpack .positive p)
    (hsecond : Represents .binary32 second.toModel.unpack .positive q) :
    first < second ↔ p < q := by
  rw [← lt_iff hfirst hsecond]
  exact decide_eq_true_iff

/-- A small integer is one of the magnitudes of binary32. -/
theorem representable_natCast {count : Nat} (hcount : count < 2 ^ 24) :
    Representable .binary32 count :=
  ⟨count, 0, hcount, by decide, by simp⟩

theorem natCast_lt_range {count : Nat} (hcount : count < 2 ^ 24) : (count : Rat) < 2 ^ 128 := by
  calc (count : Rat) < (2 ^ 24 : Nat) := by exact_mod_cast hcount
    _ < 2 ^ 128 := by norm_num

theorem toFloat32_represents {count : Nat} (hcount : count < 2 ^ 23) :
    Represents .binary32 count.toUInt64.toFloat32.toModel.unpack .positive count := by
  have hword : count.toUInt64.toNat = count := by
    rw [Nat.toUInt64_eq, UInt64.toNat_ofNat', Nat.mod_eq_of_lt (by omega)]
  have hstored : count.toUInt64.toFloat32 =
      .ofModel (.pack (UnpackedFloat.normalize .binary32 count.toUInt64.toNat 0 .positive)) := rfl
  rw [hstored, hword]
  apply Represents.kept _ (natCast_lt_range (by omega))
  rcases Nat.eq_zero_or_pos count with rfl | hpos
  · rw [Nat.cast_zero]
    exact .zero .positive
  · obtain ⟨rounded, hrounded, hrounds⟩ := @round_rounds .binary32 _ .positive hpos 0
    rw [zpow_zero, mul_one] at hrounds
    rw [hrounds.eq (representable_natCast (by omega))] at hrounded
    rw [normalize_natCast hpos]
    exact hrounded

/-- A small integer is not rounded. -/
theorem ofNat_represents {count : Nat} (hcount : count < 2 ^ 23) :
    Represents .binary32 (Float32.ofNat count).toModel.unpack .positive count := by
  have hcanonical : Canonical .binary32 (2 ^ 23) (-23) := by decide
  have hone : Represents .binary32 (Float32.ofBits 0x3F800000).toModel.unpack .positive 1 := by
    have hunpack : (Float32.ofBits 0x3F800000).toModel.unpack =
        .finite .positive (2 ^ 23) (-23) hcanonical.pos := rfl
    have hvalue : ((2 ^ 23 : Nat) : Rat) * 2 ^ (-23 : Int) = 1 := by norm_num
    rw [hunpack, ← hvalue]
    exact .finite .positive hcanonical
  -- A decimal without places is multiplied by one.
  have hproduct : Float32.ofNat count = count.toUInt64.toFloat32 * Float32.ofBits 0x3F800000 := by
    have hfast : count < 2 ^ 23 ∧ 0 ≤ 10 := ⟨hcount, by decide⟩
    rw [Float32.ofNat, OfScientific.ofScientific]
    simp only [instOfScientificFloat32, Float32.ofScientific, dif_pos hfast]
    rfl
  obtain ⟨rounded, hrounded, hrounds⟩ := mul_rounds (toFloat32_represents hcount) hone
  rw [mul_one] at hrounds
  rw [hrounds.eq (representable_natCast (by omega))] at hrounded
  rw [hproduct]
  exact hrounded.kept (natCast_lt_range (by omega))

/-- A small integer with a sign is not rounded, and only a negative one has a sign. -/
theorem ofInt_represents {number : Int} (hnumber : number.natAbs < 2 ^ 23) :
    Represents .binary32 (Float32.ofInt number).toModel.unpack
      (if number < 0 then .negative else .positive) number.natAbs := by
  cases number with
  | ofNat count =>
      have hsign : ¬ Int.ofNat count < 0 := (Int.natCast_nonneg count).not_gt
      rw [if_neg hsign]
      exact ofNat_represents hnumber
  | negSucc count =>
      rw [if_pos (Int.negSucc_lt_zero count)]
      exact (ofNat_represents hnumber).neg (natCast_lt_range (by omega))

/-- The sign and the size of an integer give it back. -/
theorem signed_natAbs (number : Int) :
    signed (if number < 0 then .negative else .positive) number.natAbs = number := by
  rw [Nat.cast_natAbs]
  by_cases hnegative : number < 0
  · rw [if_pos hnegative, abs_of_neg hnegative, signed]
    push_cast
    ring
  · rw [if_neg hnegative, abs_of_nonneg (not_lt.mp hnegative), signed]

/-- A quotient of a word by a hundred or more, scaled back, is near the word. -/
theorem quotient_near {count divisor : Nat} (hcount : count < 2 ^ 16) (hlow : 100 ≤ divisor)
    (hhigh : divisor ≤ 1000) :
    ∃ value : Rat, Represents .binary32
        (Float32.ofNat count / Float32.ofNat divisor).toModel.unpack .positive value ∧
      |divisor * value - count| ≤ divisor / 2 ^ 14 := by
  have hcountRat : (count : Rat) < 65536 := by exact_mod_cast hcount
  have hlowRat : (100 : Rat) ≤ divisor := by exact_mod_cast hlow
  have hpos : (0 : Rat) < divisor := by linarith
  have hexact : (count / divisor : Rat) < 656 := by
    rw [div_lt_iff₀ hpos]
    linarith
  obtain ⟨value, hvalue, hrounds⟩ := div_rounds (ofNat_represents (by omega : count < 2 ^ 23))
    (ofNat_represents (by omega : divisor < 2 ^ 23)) hpos
  have hrange : (count / divisor : Rat) <
      (2 ^ Format.binary32.mantissaBits - 1 : Nat) * 2 ^ (-14 : Int) := by
    have hlimit : (656 : Rat) ≤ (2 ^ 24 - 1 : Nat) * 2 ^ (-14 : Int) := by norm_num
    exact hexact.trans_le hlimit
  have hnear : |value - count / divisor| ≤ 2 ^ (-14 : Int) :=
    hrounds.near (by decide) (by positivity) hrange
  have hscaled : divisor * value - count = divisor * (value - count / divisor) := by
    field_simp
  have hvalueRange : value < 2 ^ 128 := by
    norm_num
    linarith [(abs_le.mp hnear).2]
  refine ⟨value, hvalue.kept hvalueRange, ?_⟩
  rw [hscaled, abs_mul, abs_of_pos hpos]
  calc (divisor : Rat) * |value - count / divisor| ≤ divisor * 2 ^ (-14 : Int) := by gcongr
    _ = divisor / 2 ^ 14 := by rw [zpow_neg, div_eq_mul_inv]; norm_cast

end EnergyMeter.Binary
