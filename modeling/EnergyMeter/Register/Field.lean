import EnergyMeter.Gain

/-!
Fields of a register word.  A field is a run of adjacent bits with a meaning:
a gain, a flag, or a two-bit number.  Reading what was put into a field gives
it back, and putting into a field leaves every bit outside it alone.
-/

namespace EnergyMeter

/-- What the bits of a field stand for. -/
inductive FieldKind where
  | gain
  | flag
  | number
deriving DecidableEq, Repr

namespace FieldKind

/-- The number of bits of a field of this kind. -/
def width : FieldKind → Nat
  | gain => 3
  | flag => 1
  | number => 2

/-- The values that a field of this kind is given and gives back. -/
@[reducible]
def Value : FieldKind → Type
  | gain => CurrentGain
  | flag => Bool
  | number => Byte

/-- The bits of a value, if it fits. -/
def encode? : (kind : FieldKind) → kind.Value → Option (BitVec kind.width)
  | gain, value => some value.bits
  | flag, value => some (BitVec.ofBool value)
  | number, value => if value.toNat < 4 then some (BitVec.setWidth 2 value) else none

/-- The value of some bits, if they stand for one. -/
def decode : (kind : FieldKind) → BitVec kind.width → Except InvalidPattern kind.Value
  | gain, bits => CurrentGain.ofBits (BitVec.setWidth 8 bits)
  | flag, bits => .ok (bits.toNat != 0)
  | number, bits => .ok (BitVec.setWidth 8 bits)

theorem setWidth_setWidth_of_lt {value : Byte} (h : value.toNat < 4) :
    (value.setWidth 2).setWidth 8 = value := by
  apply BitVec.eq_of_toNat_eq
  simp only [BitVec.toNat_setWidth]
  omega

theorem decode_of_encode? {kind : FieldKind} {value : kind.Value} {bits : BitVec kind.width}
    (h : kind.encode? value = some bits) : kind.decode bits = .ok value := by
  cases kind with
  | gain =>
      obtain rfl := Option.some.inj h
      exact CurrentGain.ofBits_bits value
  | flag =>
      obtain rfl := Option.some.inj h
      cases value <;> rfl
  | number =>
      by_cases hlt : value.toNat < 4
      · rw [encode?, if_pos hlt] at h
        obtain rfl := Option.some.inj h
        exact congrArg Except.ok (setWidth_setWidth_of_lt hlt)
      · simp [encode?, hlt] at h

/-- The text of a value. -/
def text : (kind : FieldKind) → kind.Value → String
  | gain, value => value.text
  | flag, value => Text.ofBool value
  | number, value => toString value.toNat

end FieldKind

/-- A run of bits of a register word. -/
structure Field where
  name : String
  /-- The position of the lowest bit. -/
  low : Nat
  kind : FieldKind
  fits : low + kind.width ≤ 16 := by decide

namespace Field

/-- The positions that belong to a field. -/
def Covers (field : Field) (i : Nat) : Prop :=
  field.low ≤ i ∧ i < field.low + field.kind.width

instance (field : Field) (i : Nat) : Decidable (field.Covers i) :=
  inferInstanceAs (Decidable (_ ∧ _))

/-- Two fields without a common bit. -/
def Disjoint (first second : Field) : Prop :=
  first.low + first.kind.width ≤ second.low ∨ second.low + second.kind.width ≤ first.low

instance (first second : Field) : Decidable (first.Disjoint second) :=
  inferInstanceAs (Decidable (_ ∨ _))

/-- The word with ones at the positions of a field and zeros elsewhere. -/
def mask (field : Field) : Word :=
  (BitVec.allOnes field.kind.width).setWidth 16 <<< field.low

/-- The bits of a field. -/
def bits (field : Field) (word : Word) : BitVec field.kind.width :=
  word.extractLsb' field.low field.kind.width

/-- The word with the bits of a field replaced. -/
def putBits (field : Field) (word : Word) (bits : BitVec field.kind.width) : Word :=
  (word &&& ~~~field.mask) ||| (bits.setWidth 16 <<< field.low)

theorem getLsbD_mask (field : Field) (i : Nat) :
    field.mask.getLsbD i = decide (field.Covers i) := by
  have hfits := field.fits
  simp only [mask, BitVec.getLsbD_shiftLeft, BitVec.getLsbD_setWidth, BitVec.getLsbD_allOnes,
    Covers]
  by_cases hlow : field.low ≤ i <;> by_cases hhigh : i < field.low + field.kind.width <;>
    simp [hlow, hhigh] <;> omega

theorem getLsbD_putBits (field : Field) (word : Word) (bits : BitVec field.kind.width) (i : Nat) :
    (field.putBits word bits).getLsbD i =
      if field.Covers i then bits.getLsbD (i - field.low) else word.getLsbD i := by
  have hfits := field.fits
  by_cases hi : i < 16
  · simp only [putBits, BitVec.getLsbD_or, BitVec.getLsbD_and, BitVec.getLsbD_not, getLsbD_mask,
      BitVec.getLsbD_shiftLeft, BitVec.getLsbD_setWidth, hi]
    by_cases hcovers : field.Covers i
    · have hlow := hcovers.1
      have hdiff : i - field.low < 16 := by omega
      simp [hcovers, hdiff, Nat.not_lt.mpr hlow]
    · by_cases hlow : field.low ≤ i
      · have hout : bits.getLsbD (i - field.low) = false :=
          BitVec.getLsbD_of_ge _ _ (by
            have : ¬ i < field.low + field.kind.width := fun h => hcovers ⟨hlow, h⟩
            omega)
        simp [hcovers, hout]
      · simp [hcovers, hlow]
  · have hcovers : ¬ field.Covers i := fun h => hi (Nat.lt_of_lt_of_le h.2 hfits)
    rw [if_neg hcovers, BitVec.getLsbD_of_ge _ _ (Nat.le_of_not_lt hi),
      BitVec.getLsbD_of_ge _ _ (Nat.le_of_not_lt hi)]

theorem bits_putBits (field : Field) (word : Word) (bits : BitVec field.kind.width) :
    field.bits (field.putBits word bits) = bits := by
  apply BitVec.eq_of_getLsbD_eq
  intro i hi
  have hcovers : field.Covers (field.low + i) := ⟨by omega, by omega⟩
  simp [Field.bits, getLsbD_putBits, hi, hcovers]

theorem bits_putBits_of_disjoint {first second : Field} (h : first.Disjoint second) (word : Word)
    (bits : BitVec second.kind.width) :
    first.bits (second.putBits word bits) = first.bits word := by
  apply BitVec.eq_of_getLsbD_eq
  intro i hi
  have hcovers : ¬ second.Covers (first.low + i) := by
    rintro ⟨hlow, hhigh⟩
    cases h with
    | inl h => omega
    | inr h => omega
  simp [Field.bits, getLsbD_putBits, hi, hcovers]

/-- The value of a field, or its bits if they stand for none. -/
def get (field : Field) (word : Word) : Except InvalidPattern field.kind.Value :=
  field.kind.decode (field.bits word)

/-- The word with a field set, unless the value does not fit. -/
def set? (field : Field) (word : Word) (value : field.kind.Value) : Option Word :=
  (field.kind.encode? value).map (field.putBits word)

theorem get_of_set? {field : Field} {word updated : Word} {value : field.kind.Value}
    (h : field.set? word value = some updated) : field.get updated = .ok value := by
  obtain ⟨bits, hbits, rfl⟩ := Option.map_eq_some_iff.mp h
  rw [get, bits_putBits]
  exact FieldKind.decode_of_encode? hbits

/-- The text of a field's value. -/
def text (field : Field) (word : Word) : String :=
  match field.get word with
  | .ok value => field.kind.text value
  | .error refused => refused.text

end Field

/-- The named fields of a register, in the order in which they are shown. -/
structure Layout where
  name : String
  fields : List Field

namespace Layout

/-- A register word, as it is shown. -/
def text (layout : Layout) (word : Word) : String :=
  Text.labelled layout.name (layout.fields.map fun field => (field.name, field.text word))

/-- The field with this name. -/
def field? (layout : Layout) (name : String) : Option Field :=
  layout.fields.find? fun field => field.name = name

/-- The report of a field that holds no value where one is demanded. -/
def unreadable (layout : Layout) (field : Field) (refused : InvalidPattern) : String :=
  "value contains invalid bit pattern for field " ++ layout.name ++ "." ++ field.name ++ ": " ++
    refused.text

/-- The report of a value that a field must take and cannot. -/
def unwritable (layout : Layout) (field : Field) : String :=
  "value out of bounds for field " ++ layout.name ++ "." ++ field.name ++ ": OutOfBounds"

/-- The report of a value that a field refuses. -/
def outOfBounds : String :=
  "encountered an out of bounds value"

end Layout

end EnergyMeter
