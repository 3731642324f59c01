import EnergyMeter.Word
import EnergyMeter.Text.Hex
import EnergyMeter.Text.Labelled

/-!
The gain of the line current channel.  A gain has two numbers: the factor by
which it amplifies and the three-bit pattern that selects it, and the order of
the patterns is not the order of the factors.
-/

namespace EnergyMeter

/-- The amplification of the line current channel. -/
inductive CurrentGain where
  | x4
  | x8
  | x16
  | x24
  | x1
deriving DecidableEq, Repr

/-- A factor that no gain has. -/
structure UnsupportedGain where
  factor : Byte
deriving DecidableEq, Repr

/-- A bit pattern that selects nothing. -/
structure InvalidPattern where
  bits : Byte
deriving DecidableEq, Repr

namespace CurrentGain

/-- All gains, in the order of their bit patterns. -/
def all : List CurrentGain :=
  [x4, x8, x16, x24, x1]

theorem mem_all (gain : CurrentGain) : gain ∈ all := by
  cases gain <;> decide

/-- The factor by which the channel amplifies. -/
def factor : CurrentGain → Byte
  | x1 => 1
  | x4 => 4
  | x8 => 8
  | x16 => 16
  | x24 => 24

/-- The gain with this factor. -/
def ofFactor? (factor : Byte) : Option CurrentGain :=
  all.find? fun gain => gain.factor = factor

/-- The gain with this factor, or the factor that was refused. -/
def ofFactor (factor : Byte) : Except UnsupportedGain CurrentGain :=
  match ofFactor? factor with
  | some gain => .ok gain
  | none => .error ⟨factor⟩

/-- The pattern that selects the gain. -/
def bits : CurrentGain → BitVec 3
  | x4 => 0
  | x8 => 1
  | x16 => 2
  | x24 => 3
  | x1 => 4

/-- The gain that a pattern selects. -/
def ofBits? (pattern : Byte) : Option CurrentGain :=
  all.find? fun gain => gain.bits.setWidth 8 = pattern

/-- The gain that a pattern selects, or the pattern that was refused. -/
def ofBits (pattern : Byte) : Except InvalidPattern CurrentGain :=
  match ofBits? pattern with
  | some gain => .ok gain
  | none => .error ⟨pattern⟩

theorem ofFactor?_factor (gain : CurrentGain) : ofFactor? gain.factor = some gain := by
  cases gain <;> decide

theorem ofFactor?_eq_some_iff {factor : Byte} {gain : CurrentGain} :
    ofFactor? factor = some gain ↔ gain.factor = factor := by
  constructor
  · intro h
    simpa using List.find?_some h
  · rintro rfl
    exact ofFactor?_factor gain

theorem ofBits?_bits (gain : CurrentGain) : ofBits? (gain.bits.setWidth 8) = some gain := by
  cases gain <;> decide

theorem ofBits_bits (gain : CurrentGain) : ofBits (gain.bits.setWidth 8) = .ok gain := by
  cases gain <;> rfl

theorem ofBits?_eq_some_iff {pattern : Byte} {gain : CurrentGain} :
    ofBits? pattern = some gain ↔ gain.bits.setWidth 8 = pattern := by
  constructor
  · intro h
    simpa using List.find?_some h
  · rintro rfl
    exact ofBits?_bits gain

theorem exists_bits_eq {n : Nat} (h : n < 5) : ∃ gain ∈ all, gain.bits.toNat = n := by
  revert n
  decide

/-- Patterns from five upwards select nothing. -/
theorem ofBits?_eq_none_iff {pattern : Byte} : ofBits? pattern = none ↔ 5 ≤ pattern.toNat := by
  rw [Option.eq_none_iff_forall_ne_some]
  constructor
  · intro h
    refine Nat.le_of_not_lt fun hlt => ?_
    obtain ⟨gain, _, hgain⟩ := exists_bits_eq hlt
    refine h gain (ofBits?_eq_some_iff.mpr (BitVec.eq_of_toNat_eq ?_))
    rw [BitVec.toNat_setWidth, hgain]
    omega
  · intro hle gain hgain
    have hbits := ofBits?_eq_some_iff.mp hgain
    have hsmall : gain.bits.toNat < 5 := by cases gain <;> decide
    rw [← hbits, BitVec.toNat_setWidth] at hle
    omega

/-- The name under which a gain is shown. -/
def text (gain : CurrentGain) : String :=
  "Gain" ++ toString gain.factor.toNat

instance : ToString CurrentGain :=
  ⟨text⟩

end CurrentGain

/-- The refused factor, as it is reported. -/
def UnsupportedGain.text (refused : UnsupportedGain) : String :=
  Text.tagged "UnsupportedGain" (toString refused.factor.toNat)

/-- The refused pattern, as it is shown inside a register. -/
def InvalidPattern.text (refused : InvalidPattern) : String :=
  Text.labelled "InvalidBitPattern" [("invalid_bytes", toString refused.bits.toNat)]

/-- The refused pattern, as it is reported. -/
def InvalidPattern.message (refused : InvalidPattern) : String :=
  "encountered an invalid bit pattern: " ++ Text.upperHex refused.bits.toNat

example : CurrentGain.x24.text = "Gain24" := by decide

example : InvalidPattern.message ⟨0xAB⟩ = "encountered an invalid bit pattern: 0xAB" := by decide

end EnergyMeter
