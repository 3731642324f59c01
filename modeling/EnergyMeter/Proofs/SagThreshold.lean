import EnergyMeter.Quantity
import EnergyMeter.Proofs.BinaryNumber

/-!
The count of a sag threshold.  The scaled threshold is exact, and the half that is
added for rounding is lost only where the count is zero either way, so the count is
the exact threshold in hundredths, rounded to the nearest and upwards from the middle.
-/

namespace EnergyMeter

open Binary
open Float.Model (Format UnpackedFloat)
open Float.Model.UnpackedFloat

section

variable {unpacked : UnpackedFloat} {sign : Sign} {magnitude : Rat}

theorem represents_hundred : Represents .binary64 (100 : Float).toModel.unpack .positive 100 :=
  .literal (by decide : Canonical .binary64 (100 * 2 ^ 46) (-46)) rfl (by norm_num)

theorem represents_half : Represents .binary64 (0.5 : Float).toModel.unpack .positive (1 / 2) :=
  .literal (by decide : Canonical .binary64 (2 ^ 52) (-53)) rfl (by norm_num)

theorem represents_limit : Represents .binary64 (65536 : Float).toModel.unpack .positive 65536 :=
  .literal (by decide : Canonical .binary64 (2 ^ 52) (-36)) rfl (by norm_num)

/-- The half is added without rounding, or it is added to next to nothing, or the
count is too large in any case. -/
theorem half_up_cases (h : Represents .binary32 unpacked sign magnitude) :
    Representable .binary64 (magnitude * 100 + 1 / 2) ∨ magnitude * 100 ≤ 1 / 4 ∨
      65536 ≤ magnitude * 100 + 1 / 2 := by
  cases h with
  | zero => exact .inr (.inl (by norm_num))
  | @finite _ mantissa exponent h =>
      have hmantissa : mantissa < 2 ^ 24 := h.lt
      rcases lt_or_ge exponent (-53) with htiny | hordinary
      · have hsmall : (mantissa * 2 ^ exponent : Rat) < 2 ^ (-30 : Int) :=
          scaled_lt hmantissa (by omega)
        norm_num at hsmall
        exact .inr (.inl (by linarith))
      rcases lt_or_ge exponent 0 with hfraction | hwhole
      · obtain ⟨places, rfl⟩ : ∃ places : Nat, exponent = -(places + 1 : Nat) :=
          ⟨(-exponent).toNat - 1, by omega⟩
        have hplaces : 2 ^ places ≤ 2 ^ 52 := Nat.pow_le_pow_right two_pos (by omega)
        refine .inl ⟨mantissa * 100 + 2 ^ places, -(places + 1 : Nat), ?_, ?_, ?_⟩
        · show mantissa * 100 + 2 ^ places < 2 ^ 53
          omega
        · show (-1074 : Int) ≤ _
          omega
        · rw [zpow_neg, zpow_natCast, pow_succ]
          push_cast
          field_simp
      · obtain ⟨places, rfl⟩ := Int.eq_ofNat_of_zero_le hwhole
        rcases lt_or_ge (mantissa * 2 ^ (places : Int) * 100 + 1 / 2 : Rat) 65536 with hlt | hlarge
        · have hvalue : (mantissa * 2 ^ (places : Int) * 100 + 1 / 2 : Rat) =
              (mantissa * 2 ^ places * 200 + 1 : Nat) * 2 ^ (-1 : Int) := by
            push_cast
            rw [zpow_natCast]
            ring
          refine .inl ⟨mantissa * 2 ^ places * 200 + 1, -1, ?_, by decide, hvalue⟩
          rw [hvalue, zpow_neg_one] at hlt
          generalize mantissa * 2 ^ places * 200 + 1 = count at hlt ⊢
          have hcount : (count : Rat) < 131072 := by linarith
          have hnarrow : count < 131072 := by exact_mod_cast hcount
          show count < 2 ^ 53
          omega
        · exact .inr (.inr hlarge)

/-- Rounding the sum changes neither its whole part nor whether it fits a word. -/
theorem rounded_half_up (h : Represents .binary32 unpacked sign magnitude) {rounded : Rat}
    (hrounds : Rounds .binary64 (magnitude * 100 + 1 / 2) rounded) :
    (65536 ≤ rounded ↔ 65536 ≤ magnitude * 100 + 1 / 2) ∧
      (magnitude * 100 + 1 / 2 < 65536 → ⌊rounded⌋₊ = ⌊magnitude * 100 + 1 / 2⌋₊) := by
  have hnonneg := h.nonneg
  rcases half_up_cases h with hexact | hsmall | hlarge
  · rw [hrounds.eq hexact]
    exact ⟨Iff.rfl, fun _ => rfl⟩
  · -- Both sums lie between a half and three quarters.
    have hhalf : 1 / 2 ≤ rounded :=
      hrounds.above _ ⟨1, -1, by decide, by decide, by norm_num⟩ (by linarith)
    have hquarters : rounded ≤ 3 / 4 :=
      hrounds.below _ ⟨3, -2, by decide, by decide, by norm_num⟩ (by linarith)
    refine ⟨⟨fun hle => by linarith, fun hle => by linarith⟩, fun _ => ?_⟩
    rw [Nat.floor_eq_zero.mpr (by linarith), Nat.floor_eq_zero.mpr (by linarith)]
  · have hlimit : 65536 ≤ rounded :=
      hrounds.above _ ⟨65536, 0, by decide, by decide, by norm_num⟩ hlarge
    exact ⟨⟨fun _ => hlarge, fun _ => hlimit⟩, fun hlt => absurd hlarge (not_le.mpr hlt)⟩

variable {number : Float32}

/-- The scaled threshold with its half is rounded once, when the half is added. -/
theorem shifted_represents (h : Represents .binary32 number.toModel.unpack sign magnitude)
    (hlt : magnitude < 2 ^ 128) (hsign : 0 < magnitude → sign = .positive) :
    ∃ rounded, Represents .binary64 (widen number * 100 + 0.5).toModel.unpack .positive rounded ∧
      Rounds .binary64 (magnitude * 100 + 1 / 2) rounded := by
  have hbound : magnitude * 100 + 1 / 2 ≤ 2 ^ 136 := by
    norm_num at hlt ⊢
    linarith
  have hlimit : (2 : Rat) ^ 136 < 2 ^ 1024 := pow_lt_pow_right₀ one_lt_two (by decide)
  have hfactor : Representable .binary64 (magnitude * 100) := by
    exact_mod_cast h.representable_mul (by decide : 100 < 2 ^ 29)
  obtain ⟨product, hproduct, hexact⟩ := mul_rounds (widen_represents h hlt) represents_hundred
  rw [hexact.eq hfactor] at hproduct
  have hscaled : Represents .binary64 (widen number * 100).toModel.unpack (sign * .positive)
      (magnitude * 100) :=
    hproduct.stored (lt_of_le_of_lt (by linarith) hlimit)
  have hpositive : 0 < magnitude * 100 → sign * .positive = .positive := by
    intro hpos
    rw [hsign (by linarith)]
    rfl
  obtain ⟨rounded, hsum, hrounds⟩ := add_rounds hscaled represents_half hpositive (by norm_num)
  have hbelow : rounded ≤ 2 ^ 136 :=
    hrounds.below _ ⟨1, 136, by decide, by decide, by norm_num⟩ hbound
  exact ⟨rounded, hsum.stored (hbelow.trans_lt hlimit), hrounds⟩

theorem not_isNaN (h : Represents .binary32 number.toModel.unpack sign magnitude) :
    number.isNaN = false := by
  have hunpack : number.isNaN = number.toModel.unpack.isNaN := rfl
  rw [hunpack]
  generalize number.toModel.unpack = unpacked at h
  cases h with
  | zero => rfl
  | finite => rfl

/-- The sign of a zero does not make it negative. -/
theorem lt_zero_iff (h : Represents .binary32 number.toModel.unpack sign magnitude) :
    number < 0 ↔ signed sign magnitude < 0 := by
  have hunpack : number < 0 ↔ number.toModel.unpack.lt (.zero .positive) = true :=
    decide_eq_true_iff
  rw [hunpack]
  generalize number.toModel.unpack = unpacked at h
  cases h with
  | zero =>
      cases sign with
      | positive => exact ⟨nofun, fun hlt => absurd hlt (lt_irrefl 0)⟩
      | negative =>
          rw [signed, neg_zero]
          exact ⟨nofun, fun hlt => absurd hlt (lt_irrefl 0)⟩
  | @finite _ mantissa exponent h =>
      have hpos := h.value_pos
      cases sign with
      | positive => exact ⟨nofun, fun hlt => absurd hlt hpos.le.not_gt⟩
      | negative => exact ⟨fun _ => neg_neg_of_pos hpos, fun _ => rfl⟩

theorem sagCounts?_of_negative (h : Represents .binary32 number.toModel.unpack sign magnitude)
    (hnegative : signed sign magnitude < 0) : Quantity.sagCounts? number = none := by
  have hlt : number < 0 := (lt_zero_iff h).mpr hnegative
  simp only [Quantity.sagCounts?, hlt, decide_true, Bool.or_true, if_true]

theorem sagCounts?_of_nonneg (h : Represents .binary32 number.toModel.unpack sign magnitude)
    (hlt : magnitude < 2 ^ 128) (hnonneg : 0 ≤ signed sign magnitude) (count : Word) :
    Quantity.sagCounts? number = some count ↔ count.toNat = ⌊magnitude * 100 + 1 / 2⌋₊ := by
  have hnotNegative : ¬ number < 0 := mt (lt_zero_iff h).mp hnonneg.not_gt
  have hsign : 0 < magnitude → sign = .positive := by
    intro hpos
    cases sign with
    | positive => rfl
    | negative => exact absurd hnonneg (neg_neg_of_pos hpos).not_ge
  obtain ⟨rounded, hsum, hrounds⟩ := shifted_represents h hlt hsign
  obtain ⟨hlimit, hfloor⟩ := rounded_half_up h hrounds
  have hcompare : 65536 ≤ widen number * 100 + 0.5 ↔ 65536 ≤ magnitude * 100 + 1 / 2 := by
    rw [← hlimit, ← le_iff represents_limit hsum]
    exact decide_eq_true_iff
  have hvalid : (number.isNaN || decide (number < 0)) = false := by
    rw [not_isNaN h, decide_eq_false hnotNegative]
    rfl
  rw [Quantity.sagCounts?, hvalid, if_neg Bool.false_ne_true]
  simp only [hcompare]
  split_ifs with hlarge
  · have hwide : 65536 ≤ ⌊magnitude * 100 + 1 / 2⌋₊ := Nat.le_floor hlarge
    have hfits := count.isLt
    refine ⟨nofun, fun hcount => ?_⟩
    omega
  · have hsmall := not_le.mp hlarge
    have hvalue : (widen number * 100 + 0.5).toUInt16.toBitVec.toNat =
        ⌊magnitude * 100 + 1 / 2⌋₊ := by
      rw [← hfloor hsmall]
      exact toNat_toUInt16 hsum (not_le.mp (mt hlimit.mp hlarge))
    rw [← hvalue, Option.some.injEq, BitVec.toNat_inj, eq_comm]

end

/-- The count of a finite threshold is the exact one. -/
theorem sagCounts?_ofBits_finite {bits : UInt32} {volts : Rat}
    (h : Number.ofBits bits = .finite volts) (count : Word) :
    Quantity.sagCounts? (Float32.ofBits bits) = some count ↔
      0 ≤ volts ∧ (count.toNat : Int) = ⌊100 * volts + 1 / 2⌋ := by
  obtain ⟨sign, magnitude, hrepresents, rfl, hlt⟩ := represents_ofBits h
  rcases lt_or_ge (signed sign magnitude) 0 with hnegative | hnonneg
  · rw [sagCounts?_of_negative hrepresents hnegative]
    exact ⟨nofun, fun hcount => absurd hcount.1 hnegative.not_ge⟩
  · have hmagnitude : signed sign magnitude = magnitude := by
      have hlower := hrepresents.nonneg
      cases sign with
      | positive => rfl
      | negative =>
          rw [signed] at hnonneg ⊢
          linarith
    have hsum : 0 ≤ 100 * magnitude + 1 / 2 := by
      have hlower := hrepresents.nonneg
      positivity
    rw [sagCounts?_of_nonneg hrepresents hlt hnonneg, hmagnitude, mul_comm magnitude,
      ← Int.natCast_floor_eq_floor hsum, Nat.cast_inj]
    exact ⟨fun hcount => ⟨hrepresents.nonneg, hcount⟩, And.right⟩

theorem sagCounts?_ofBits_nan {bits : UInt32} (h : Number.ofBits bits = .nan) :
    Quantity.sagCounts? (Float32.ofBits bits) = none := by
  have hstored : Float32.ofBits bits = .ofModel (.pack (unpack .binary32 bits.toBitVec)) := rfl
  rw [hstored, unpack_of_ofBits_nan bits h]
  decide

theorem sagCounts?_ofBits_infinite {bits : UInt32} {negative : Bool}
    (h : Number.ofBits bits = .infinite negative) :
    Quantity.sagCounts? (Float32.ofBits bits) = none := by
  have hstored : Float32.ofBits bits = .ofModel (.pack (unpack .binary32 bits.toBitVec)) := rfl
  obtain ⟨sign, hunpack⟩ := unpack_of_ofBits_infinite bits h
  rw [hstored, hunpack]
  cases sign with
  | positive => decide
  | negative => decide

/-- A finite threshold has no count if it is negative or its count needs more than a
word. -/
theorem sagCounts?_ofBits_finite_eq_none_iff {bits : UInt32} {volts : Rat}
    (h : Number.ofBits bits = .finite volts) :
    Quantity.sagCounts? (Float32.ofBits bits) = none ↔
      volts < 0 ∨ 65536 ≤ ⌊100 * volts + 1 / 2⌋ := by
  rw [Option.eq_none_iff_forall_ne_some]
  constructor
  · intro hnone
    by_contra hvalid
    rw [not_or, not_lt, not_le] at hvalid
    obtain ⟨hnonneg, hsmall⟩ := hvalid
    have hfloor : 0 ≤ ⌊100 * volts + 1 / 2⌋ := Int.floor_nonneg.mpr (by positivity)
    obtain ⟨count, hcount⟩ := Int.eq_ofNat_of_zero_le hfloor
    have hword : ((BitVec.ofNat 16 count).toNat : Int) = ⌊100 * volts + 1 / 2⌋ := by
      rw [hcount, BitVec.toNat_ofNat, Nat.mod_eq_of_lt (by omega)]
    exact hnone _ ((sagCounts?_ofBits_finite h _).mpr ⟨hnonneg, hword⟩)
  · rintro hrefused count hcount
    obtain ⟨hnonneg, hvalue⟩ := (sagCounts?_ofBits_finite h count).mp hcount
    have hfits := count.isLt
    rcases hrefused with hnegative | hlarge
    · exact absurd hnonneg hnegative.not_ge
    · omega

/-- The count of a sag threshold is its exact value in hundredths, to the nearest and
upwards from the middle, and a pattern has no count only if it is no number that is
between zero and the end of a word.  The half that is added is lost for some. -/
theorem sag_count_rounds_half_up (bits : UInt32) :
    (Quantity.sagCounts? (Float32.ofBits bits) = none ↔
      Number.ofBits bits = .nan ∨ (∃ negative, Number.ofBits bits = .infinite negative) ∨
        ∃ volts, Number.ofBits bits = .finite volts ∧
          (volts < 0 ∨ 65536 ≤ ⌊100 * volts + 1 / 2⌋)) ∧
    (∀ count, Quantity.sagCounts? (Float32.ofBits bits) = some count ↔
      ∃ volts, Number.ofBits bits = .finite volts ∧ 0 ≤ volts ∧
        (count.toNat : Int) = ⌊100 * volts + 1 / 2⌋) ∧
    (∀ higher volts bound lower upper,
      Number.ofBits bits = .finite volts → Number.ofBits higher = .finite bound →
      volts ≤ bound → Quantity.sagCounts? (Float32.ofBits bits) = some lower →
      Quantity.sagCounts? (Float32.ofBits higher) = some upper → lower.toNat ≤ upper.toNat) ∧
    ∃ tiny volts, Number.ofBits tiny = .finite volts ∧ 0 < volts ∧
      widen (Float32.ofBits tiny) * 100 + 0.5 = 0.5 := by
  refine ⟨?_, fun count => ?_, ?_, ?_⟩
  · cases hnumber : Number.ofBits bits with
    | nan => simp [sagCounts?_ofBits_nan hnumber]
    | infinite negative => simp [sagCounts?_ofBits_infinite hnumber]
    | finite volts => simpa using sagCounts?_ofBits_finite_eq_none_iff hnumber
  · cases hnumber : Number.ofBits bits with
    | nan => simp [sagCounts?_ofBits_nan hnumber]
    | infinite negative => simp [sagCounts?_ofBits_infinite hnumber]
    | finite volts => simpa using sagCounts?_ofBits_finite hnumber count
  · intro higher volts bound lower upper hvolts hbound hle hlower hupper
    have hleft := ((sagCounts?_ofBits_finite hvolts lower).mp hlower).2
    have hright := ((sagCounts?_ofBits_finite hbound upper).mp hupper).2
    have hfloor : ⌊100 * volts + 1 / 2⌋ ≤ ⌊100 * bound + 1 / 2⌋ := by gcongr
    omega
  · exact ⟨1, 2 ^ (-149 : Int), by decide +kernel, by positivity, by decide +kernel⟩

/-- Thirteen counts for an eighth of a volt, which lies in the middle, two thousand for
twenty volts, and none missing for a zero with a sign. -/
theorem sag_count_rounds_half_up_on_volts :
    Number.ofBits 0x3e000000 = .finite (1 / 8) ∧ Number.ofBits 0x41a00000 = .finite 20 ∧
      Quantity.sagCounts? (Float32.ofBits 0x3e000000) = some 13 ∧
      Quantity.sagCounts? (Float32.ofBits 0x41a00000) = some 2000 ∧
      (13 : Word).toNat ≤ (2000 : Word).toNat ∧
      Quantity.sagCounts? (Float32.ofBits 0x80000000) = some 0 := by
  have hvolts : Number.ofBits 0x3e000000 = .finite (1 / 8) := by decide +kernel
  have hbound : Number.ofBits 0x41a00000 = .finite 20 := by decide +kernel
  have hzero : Number.ofBits 0x80000000 = .finite 0 := by decide +kernel
  have hlower : Quantity.sagCounts? (Float32.ofBits 0x3e000000) = some 13 := by decide +kernel
  have hupper : Quantity.sagCounts? (Float32.ofBits 0x41a00000) = some 2000 := by decide +kernel
  have hnone : ((0 : Word).toNat : Int) = ⌊100 * (0 : Rat) + 1 / 2⌋ := by decide +kernel
  obtain ⟨-, -, hmonotone, -⟩ := sag_count_rounds_half_up 0x3e000000
  obtain ⟨-, hcount, -⟩ := sag_count_rounds_half_up 0x80000000
  refine ⟨hvolts, hbound, hlower, hupper, ?_, ?_⟩
  · exact hmonotone _ _ _ _ _ hvolts hbound (by norm_num) hlower hupper
  · exact (hcount 0).mpr ⟨0, hzero, le_rfl, hnone⟩

end EnergyMeter
