import EnergyMeter.Bus
import EnergyMeter.Register.Declaration

/-!
Updates of named fields.  A field is set in place or on a copy that takes the place
of the register, and a value that does not fit is reported or stops the program.
Either way such an update leaves the register alone.
-/

namespace EnergyMeter

deriving instance DecidableEq for Field

/-- The values that a field takes: any gain, any flag, and a number of two bits. -/
def FieldKind.Fits : (kind : FieldKind) → kind.Value → Prop
  | gain, _ | flag, _ => True
  | number, value => value.toNat ≤ 3

instance FieldKind.decidableFits : (kind : FieldKind) → (value : kind.Value) →
    Decidable (kind.Fits value)
  | gain, _ | flag, _ => inferInstanceAs (Decidable True)
  | number, value => inferInstanceAs (Decidable (value.toNat ≤ 3))

theorem FieldKind.isSome_encode?_iff {kind : FieldKind} {value : kind.Value} :
    (kind.encode? value).isSome = true ↔ kind.Fits value := by
  cases kind with
  | gain => exact ⟨fun _ => trivial, fun _ => rfl⟩
  | flag => exact ⟨fun _ => trivial, fun _ => rfl⟩
  | number =>
      rw [encode?, Fits, ← Nat.lt_succ_iff]
      split
      · exact ⟨fun _ => ‹_›, fun _ => rfl⟩
      · exact ⟨by simp, fun hfits => absurd hfits ‹_›⟩

/-- The ways to set a field. -/
inductive Setter where
  | inPlace
  | onCopy
  | inPlaceChecked
  | onCopyChecked
deriving DecidableEq, Repr

/-- A checked setter reports a value that does not fit; the others stop the program. -/
def Setter.isChecked : Setter → Bool
  | inPlace | onCopy => false
  | inPlaceChecked | onCopyChecked => true

/-- A value for a named field of a register, with the way in which it is set. -/
structure Update (layout : Layout) where
  field : Field
  named : field ∈ layout.fields
  setter : Setter
  value : field.kind.Value

namespace Update

variable {layout : Layout}

/-- What an update comes to: the register with the field set, or the report. -/
def run (update : Update layout) (word : Word) : Outcome String String Word :=
  match update.field.set? word update.value with
  | some updated => .ok updated
  | none =>
      if update.setter.isChecked then .failed Layout.outOfBounds
      else .halted (layout.unwritable update.field)

/-- The register after an update. -/
def apply (update : Update layout) (word : Word) : Word :=
  match update.run word with
  | .ok updated => updated
  | .failed _ | .halted _ => word

/-- The register after some updates, in order. -/
def applyAll (updates : List (Update layout)) (word : Word) : Word :=
  updates.foldl (fun word update => update.apply word) word

/-- The value that an update brings to a field, if it is for that field and fits. -/
def valueFor? (update : Update layout) (field : Field) : Option field.kind.Value :=
  if h : update.field = field then
    if update.field.kind.Fits update.value then some (h ▸ update.value) else none
  else none

/-- The last value that was accepted for a field. -/
def lastValue? (updates : List (Update layout)) (field : Field) : Option field.kind.Value :=
  updates.reverse.findSome? fun update => update.valueFor? field

end Update

end EnergyMeter
