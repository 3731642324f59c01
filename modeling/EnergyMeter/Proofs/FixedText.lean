import EnergyMeter.Proofs.CountQuantity
import EnergyMeter.Text.Fixed

/-!
The text of a number with a fixed number of places.  The digits are those of the nearest
integer in units of the last place, so a number that is near a count of hundredths is
written as that count, however it was rounded before.
-/

namespace EnergyMeter

open Binary
open Float.Model (Format UnpackedFloat)
open Float.Model.UnpackedFloat

/-- An integer that is a half away or less is the one that is nearer than a half. -/
theorem natCast_eq_of_near {value : Rat} {first second : Nat} (hfirst : |value - first| ≤ 1 / 2)
    (hsecond : |value - second| < 1 / 2) : first = second := by
  have hfirst := abs_le.mp hfirst
  have hsecond := abs_lt.mp hsecond
  have hless : (first : Rat) < second + 1 := by linarith
  have hmore : (second : Rat) < first + 1 := by linarith
  have hless : first < second + 1 := by exact_mod_cast hless
  have hmore : second < first + 1 := by exact_mod_cast hmore
  omega

namespace Text

/-- A quotient is its whole part and a rest that is less than one. -/
theorem natCast_div_split (num : Nat) {den : Nat} (hden : 0 < den) :
    (num : Rat) / den = (num / den : Nat) + (num % den : Nat) / den ∧
      ((num % den : Nat) : Rat) / den < 1 := by
  have hpos : (0 : Rat) < den := by exact_mod_cast hden
  constructor
  · have hsplit : (num : Rat) = den * (num / den : Nat) + (num % den : Nat) := by
      exact_mod_cast (Nat.div_add_mod num den).symm
    rw [div_eq_iff hpos.ne', add_mul, div_mul_cancel₀ _ hpos.ne', mul_comm _ (den : Rat)]
    exact hsplit
  · rw [div_lt_one hpos]
    exact_mod_cast Nat.mod_lt num hden

/-- The integer for a quotient is a half away or less. -/
theorem roundDiv_nearest (num : Nat) {den : Nat} (hden : 0 < den) :
    |(num : Rat) / den - roundDiv num den| ≤ 1 / 2 := by
  have hpos : (0 : Rat) < den := by exact_mod_cast hden
  obtain ⟨hvalue, hrestLt⟩ := natCast_div_split num hden
  rw [hvalue, roundDiv]
  generalize num / den = quotient
  generalize num % den = rest at hrestLt
  have hnonneg : 0 ≤ (rest : Rat) / den := by positivity
  cases horder : compare (2 * rest) den with
  | lt =>
      have hhalf : (rest : Rat) / den < 1 / 2 := by
        rw [div_lt_iff₀ hpos]
        have hless : ((2 * rest : Nat) : Rat) < den := by
          exact_mod_cast Nat.compare_eq_lt.mp horder
        push_cast at hless
        linarith
      rw [abs_le]
      constructor <;> linarith
  | eq =>
      have hhalf : (rest : Rat) / den = 1 / 2 := by
        rw [div_eq_iff hpos.ne']
        have heq : ((2 * rest : Nat) : Rat) = den := by
          exact_mod_cast Nat.compare_eq_eq.mp horder
        push_cast at heq
        linarith
      have hparity : ((quotient % 2 : Nat) : Rat) ≤ 1 := by
        exact_mod_cast Nat.lt_succ_iff.mp (Nat.mod_lt quotient two_pos)
      have hnone : 0 ≤ ((quotient % 2 : Nat) : Rat) := Nat.cast_nonneg _
      rw [Nat.cast_add, abs_le]
      constructor <;> linarith
  | gt =>
      have hhalf : 1 / 2 < (rest : Rat) / den := by
        rw [lt_div_iff₀ hpos]
        have hmore : (den : Rat) < (2 * rest : Nat) := by
          exact_mod_cast Nat.compare_eq_gt.mp horder
        push_cast at hmore
        linarith
      rw [abs_le]
      push_cast
      constructor <;> linarith

/-- A mantissa in units of the last place, rounded to the nearest. -/
theorem scaled_nearest (mantissa : Nat) (exponent : Int) (places : Nat) :
    |mantissa * (2 : Rat) ^ exponent * 10 ^ places - scaled mantissa exponent places| ≤ 1 / 2 := by
  have hquotient : mantissa * (2 : Rat) ^ exponent * 10 ^ places =
      (mantissa * 10 ^ places * 2 ^ exponent.toNat : Nat) / (2 ^ (-exponent).toNat : Nat) := by
    have hexponent : exponent = exponent.toNat - (-exponent).toNat := by omega
    conv_lhs => rw [hexponent, zpow_sub₀ two_ne_zero, zpow_natCast, zpow_natCast]
    push_cast
    ring
  rw [hquotient]
  exact roundDiv_nearest _ (Nat.two_pow_pos _)

/-- A number is written as the units of the last place that it is nearest to. -/
theorem fixed_of_near {number : Float32} {sign : Sign} {value : Rat}
    (h : Represents .binary32 number.toModel.unpack sign value) {places units : Nat}
    (hnear : |value * 10 ^ places - units| < 1 / 2) :
    fixed places number = signText sign ++ placed places units := by
  unfold fixed
  generalize number.toModel.unpack = unpacked at h
  cases h with
  | zero =>
      have hzero : 0 = units := by
        refine natCast_eq_of_near ?_ hnear
        norm_num
      rw [← hzero]
  | finite =>
      have hscaled := natCast_eq_of_near (scaled_nearest _ _ places) hnear
      simp only [hscaled]

/-- A count of hundredths as a decimal, digit by digit. -/
def hundredths (count : Nat) : String :=
  toString (count / 100) ++ "." ++ toString (count / 10 % 10) ++ toString (count % 10)

/-- The tens and the ones of the hundredths. -/
theorem hundredths_eq (count : Nat) : hundredths count =
    toString (count / 100) ++ "." ++
      (toString (count % 100 / 10) ++ toString (count % 100 % 10)) := by
  have htens : count % 100 / 10 = count / 10 % 10 := by omega
  have hones : count % 100 % 10 = count % 10 := by omega
  rw [hundredths, htens, hones, String.append_assoc]

theorem two_digits : ∀ units < 100,
    String.ofList (List.replicate (2 - (toString units).length) '0') ++ toString units =
      toString (units / 10) ++ toString (units % 10) := by
  decide +kernel

theorem three_digits : ∀ units < 100,
    String.ofList (List.replicate (3 - (toString (10 * units)).length) '0') ++
        toString (10 * units) =
      toString (units / 10) ++ toString (units % 10) ++ "0" := by
  decide +kernel

/-- Two places show the digits of a count of hundredths. -/
theorem placed_two (count : Nat) : placed 2 count = hundredths count := by
  have hplaced : placed 2 count = toString (count / 100) ++ "." ++
      String.ofList (List.replicate (2 - (toString (count % 100)).length) '0') ++
        toString (count % 100) := rfl
  have hdigits := two_digits (count % 100) (Nat.mod_lt _ (by decide))
  rw [hplaced, hundredths_eq, String.append_assoc, hdigits]

/-- A third place is a zero. -/
theorem placed_three (count : Nat) : placed 3 (10 * count) = hundredths count ++ "0" := by
  have hwhole : 10 * count / 1000 = count / 100 := by omega
  have hpart : 10 * count % 1000 = 10 * (count % 100) := by omega
  have hplaced : placed 3 (10 * count) = toString (10 * count / 1000) ++ "." ++
      String.ofList (List.replicate (3 - (toString (10 * count % 1000)).length) '0') ++
        toString (10 * count % 1000) := rfl
  have hdigits := three_digits (count % 100) (Nat.mod_lt _ (by decide))
  rw [hplaced, hwhole, hpart, hundredths_eq, String.append_assoc, hdigits, ← String.append_assoc]

example : placed 3 12050 = "12.050" := by
  decide

/-- A sign before a size is an integer as it is shown. -/
theorem signText_natAbs (number : Int) :
    signText (if number < 0 then .negative else .positive) ++ placed 0 number.natAbs =
      toString number := by
  cases number with
  | ofNat count =>
      have hsign : ¬ Int.ofNat count < 0 := (Int.natCast_nonneg count).not_gt
      rw [if_neg hsign]
      exact String.empty_append
  | negSucc count =>
      rw [if_pos (Int.negSucc_lt_zero count)]
      rfl

/-- Zero is shown without a sign. -/
theorem toString_ne_negative_zero (number : Int) : toString number ≠ "-0" := by
  intro h
  have hparsed : "-0".toInt? = some 0 := by cbv
  have hzero : number = 0 := by
    rw [← Option.some_inj, ← Int.toInt?_repr, ← Int.toString_eq_repr, h, hparsed]
  subst hzero
  exact absurd h (by decide)

/-- A current in the larger range is written as its count in hundredths, with a zero. -/
theorem fixed_amps (count : Word) :
    fixed 3 (Quantity.amps .boosted count) = hundredths count.toNat ++ "0" := by
  obtain ⟨value, hvalue, hnear⟩ := Quantity.amps_near .boosted count
  have hcounts : (((CurrentScale.boosted).countsPerAmp : Nat) : Rat) = 100 := by
    norm_num [CurrentScale.countsPerAmp]
  rw [hcounts, abs_le] at hnear
  have hplaces : |value * 10 ^ 3 - (10 * count.toNat : Nat)| < 1 / 2 := by
    rw [abs_lt]
    push_cast
    constructor <;> linarith
  rw [fixed_of_near hvalue hplaces, placed_three]
  exact String.empty_append

/-- A voltage is written as its count in hundredths. -/
theorem fixed_volts (count : Word) :
    fixed 2 (Quantity.volts count) = hundredths count.toNat := by
  obtain ⟨value, hvalue, hnear⟩ := Quantity.volts_near count
  rw [abs_le] at hnear
  have hplaces : |value * 10 ^ 2 - (count.toNat : Nat)| < 1 / 2 := by
    rw [abs_lt]
    constructor <;> linarith
  rw [fixed_of_near hvalue hplaces, placed_two]
  exact String.empty_append

/-- A power is written as the signed number of its word. -/
theorem fixed_watts (count : Word) : fixed 0 (Quantity.watts count) = toString count.signed := by
  have hexact : |(count.signed.natAbs : Rat) * 10 ^ 0 - count.signed.natAbs| < 1 / 2 := by
    norm_num
  rw [fixed_of_near (Quantity.watts_represents count) hexact, signText_natAbs]

end Text

end EnergyMeter
