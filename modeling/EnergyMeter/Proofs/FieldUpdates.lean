import EnergyMeter.Register.Update
import Mathlib.Data.List.Induction
import Mathlib.Data.List.Pairwise

/-!
What a sequence of updates leaves in a register.  An update acts on the bits of one
field: it replaces them by an accepted value and leaves every other bit alone.  A
field therefore holds the last value that was accepted for it, and the order of two
updates matters only when they are for the same field.
-/

namespace EnergyMeter

namespace Field

theorem Disjoint.symm {first second : Field} (h : first.Disjoint second) :
    second.Disjoint first :=
  Or.symm h

instance : Std.Symm Disjoint where
  symm _ _ h := h.symm

theorem Disjoint.not_covers {first second : Field} (h : first.Disjoint second) {i : Nat}
    (hfirst : first.Covers i) : ¬ second.Covers i := by
  rintro ⟨hlow, hhigh⟩
  obtain ⟨hlow', hhigh'⟩ := hfirst
  rcases h with h | h <;> omega

/-- Bits of two fields can be put in either order. -/
theorem putBits_comm {first second : Field} (h : first.Disjoint second) (word : Word)
    (bits : BitVec first.kind.width) (others : BitVec second.kind.width) :
    first.putBits (second.putBits word others) bits =
      second.putBits (first.putBits word bits) others := by
  apply BitVec.eq_of_getLsbD_eq
  intro i _
  simp only [getLsbD_putBits]
  by_cases hfirst : first.Covers i
  · simp only [if_pos hfirst, if_neg (h.not_covers hfirst)]
  · simp only [if_neg hfirst]

/-- The highest and the lowest position of a field. -/
def span (field : Field) : Nat × Nat :=
  (field.low + field.kind.width - 1, field.low)

end Field

namespace FieldKind

variable {kind : FieldKind} {value : kind.Value}

theorem exists_encode? (h : kind.Fits value) : ∃ bits, kind.encode? value = some bits :=
  Option.isSome_iff_exists.mp (isSome_encode?_iff.mpr h)

theorem encode?_eq_none (h : ¬ kind.Fits value) : kind.encode? value = none :=
  Option.not_isSome_iff_eq_none.mp (mt isSome_encode?_iff.mp h)

end FieldKind

/-- Different fields of one declaration have no common bit. -/
theorem Declaration.disjoint_of_ne {declaration : Declaration} {first second : Field}
    (hfirst : first ∈ declaration.layout.fields) (hsecond : second ∈ declaration.layout.fields)
    (hne : first ≠ second) : first.Disjoint second :=
  declaration.pairwise_disjoint.forall hfirst hsecond hne

namespace Update

section Step

variable {layout : Layout} (update : Update layout) (word : Word)

theorem apply_eq : update.apply word = (update.field.set? word update.value).getD word := by
  rw [apply, run]
  cases update.field.set? word update.value with
  | some updated => rfl
  | none => cases update.setter <;> rfl

theorem run_accepted {bits : BitVec update.field.kind.width}
    (h : update.field.kind.encode? update.value = some bits) :
    update.run word = .ok (update.field.putBits word bits) := by
  rw [run, Field.set?, h]
  rfl

theorem apply_accepted {bits : BitVec update.field.kind.width}
    (h : update.field.kind.encode? update.value = some bits) :
    update.apply word = update.field.putBits word bits := by
  rw [apply, run_accepted update word h]

theorem run_rejected (h : ¬ update.field.kind.Fits update.value) :
    update.run word =
      if update.setter.isChecked then .failed Layout.outOfBounds
      else .halted (layout.unwritable update.field) := by
  rw [run, Field.set?, FieldKind.encode?_eq_none h]
  rfl

theorem run_fits (h : update.field.kind.Fits update.value) :
    update.run word = .ok (update.apply word) := by
  obtain ⟨bits, hbits⟩ := FieldKind.exists_encode? h
  rw [run_accepted update word hbits, apply_accepted update word hbits]

theorem apply_rejected (h : ¬ update.field.kind.Fits update.value) :
    update.apply word = word := by
  rw [apply_eq, Field.set?, FieldKind.encode?_eq_none h]
  rfl

/-- Positions outside the field of an update are left alone. -/
theorem getLsbD_apply {i : Nat} (h : ¬ update.field.Covers i) :
    (update.apply word).getLsbD i = word.getLsbD i := by
  by_cases hfits : update.field.kind.Fits update.value
  · obtain ⟨bits, hbits⟩ := FieldKind.exists_encode? hfits
    rw [apply_accepted update word hbits, Field.getLsbD_putBits, if_neg h]
  · rw [apply_rejected update word hfits]

theorem bits_apply_of_disjoint {field : Field} (h : field.Disjoint update.field) :
    field.bits (update.apply word) = field.bits word := by
  by_cases hfits : update.field.kind.Fits update.value
  · obtain ⟨bits, hbits⟩ := FieldKind.exists_encode? hfits
    rw [apply_accepted update word hbits, Field.bits_putBits_of_disjoint h]
  · rw [apply_rejected update word hfits]

theorem valueFor?_self :
    update.valueFor? update.field =
      if update.field.kind.Fits update.value then some update.value else none := by
  rw [valueFor?, dif_pos rfl]

theorem valueFor?_of_ne {field : Field} (h : update.field ≠ field) :
    update.valueFor? field = none :=
  dif_neg h

/-- Every value that an update brings fits its field. -/
theorem fits_of_valueFor? {field : Field} {value : field.kind.Value}
    (h : update.valueFor? field = some value) : field.kind.Fits value := by
  by_cases hfield : update.field = field
  · subst hfield
    rw [valueFor?_self, Option.ite_none_right_eq_some, Option.some_inj] at h
    obtain ⟨hfits, rfl⟩ := h
    exact hfits
  · rw [valueFor?_of_ne update hfield] at h
    contradiction

end Step

variable {declaration : Declaration}

/-- An update leaves in a field what it brings to it, or else what was there. -/
theorem bits_apply (update : Update declaration.layout) (word : Word) {field : Field}
    (hfield : field ∈ declaration.layout.fields) :
    field.bits (update.apply word) =
      ((update.valueFor? field).bind field.kind.encode?).getD (field.bits word) := by
  by_cases heq : update.field = field
  · subst heq
    rw [valueFor?_self]
    by_cases hfits : update.field.kind.Fits update.value
    · obtain ⟨bits, hbits⟩ := FieldKind.exists_encode? hfits
      rw [apply_accepted update word hbits, Field.bits_putBits, if_pos hfits, Option.bind_some,
        hbits, Option.getD_some]
    · rw [apply_rejected update word hfits, if_neg hfits]
      rfl
  · have hdisjoint := Declaration.disjoint_of_ne hfield update.named (Ne.symm heq)
    rw [bits_apply_of_disjoint update word hdisjoint, valueFor?_of_ne update heq]
    rfl

/-- Updates of different fields can be made in either order. -/
theorem apply_comm (first second : Update declaration.layout) (h : first.field ≠ second.field)
    (word : Word) : first.apply (second.apply word) = second.apply (first.apply word) := by
  have hdisjoint := Declaration.disjoint_of_ne first.named second.named h
  by_cases hfirst : first.field.kind.Fits first.value
  · by_cases hsecond : second.field.kind.Fits second.value
    · obtain ⟨bits, hbits⟩ := FieldKind.exists_encode? hfirst
      obtain ⟨others, hothers⟩ := FieldKind.exists_encode? hsecond
      simp only [apply_accepted first _ hbits, apply_accepted second _ hothers,
        Field.putBits_comm hdisjoint]
    · simp only [apply_rejected second _ hsecond]
  · simp only [apply_rejected first _ hfirst]

section Sequence

variable {layout : Layout} (updates : List (Update layout))

theorem applyAll_concat (update : Update layout) (word : Word) :
    applyAll (updates ++ [update]) word = update.apply (applyAll updates word) := by
  rw [applyAll, List.foldl_append]
  rfl

theorem lastValue?_concat (update : Update layout) (field : Field) :
    lastValue? (updates ++ [update]) field =
      (update.valueFor? field).or (lastValue? updates field) := by
  rw [lastValue?, List.reverse_append, List.reverse_singleton, List.singleton_append,
    List.findSome?_cons]
  cases update.valueFor? field <;> rfl

theorem fits_of_lastValue? {field : Field} {value : field.kind.Value}
    (h : lastValue? updates field = some value) : field.kind.Fits value := by
  obtain ⟨update, _, hvalue⟩ := List.exists_of_findSome?_eq_some h
  exact fits_of_valueFor? update hvalue

/-- A position that no field covers keeps its bit. -/
theorem getLsbD_applyAll {i : Nat} (h : ∀ field ∈ layout.fields, ¬ field.Covers i)
    (word : Word) : (applyAll updates word).getLsbD i = word.getLsbD i := by
  induction updates using List.reverseRecOn with
  | nil => rfl
  | append_singleton updates update ih =>
      rw [applyAll_concat, getLsbD_apply update _ (h _ update.named), ih]

end Sequence

variable (updates : List (Update declaration.layout)) (word : Word) {field : Field}

/-- A field holds the bits of the last accepted value. -/
theorem bits_applyAll (hfield : field ∈ declaration.layout.fields) :
    field.bits (applyAll updates word) =
      ((lastValue? updates field).bind field.kind.encode?).getD (field.bits word) := by
  induction updates using List.reverseRecOn with
  | nil => rfl
  | append_singleton updates update ih =>
      rw [applyAll_concat, lastValue?_concat, bits_apply update _ hfield, ih]
      cases hvalue : update.valueFor? field with
      | none => rfl
      | some value =>
          obtain ⟨bits, hbits⟩ := FieldKind.exists_encode? (fits_of_valueFor? update hvalue)
          simp only [Option.some_or, Option.bind_some, hbits, Option.getD_some]

/-- A field reads back the last accepted value, or as before if there is none. -/
theorem get_applyAll (hfield : field ∈ declaration.layout.fields) :
    field.get (applyAll updates word) =
      ((lastValue? updates field).map Except.ok).getD (field.get word) := by
  rw [Field.get, bits_applyAll updates word hfield]
  cases hvalue : lastValue? updates field with
  | none => rfl
  | some value =>
      obtain ⟨bits, hbits⟩ := FieldKind.exists_encode? (fits_of_lastValue? updates hvalue)
      rw [Option.bind_some, hbits]
      exact FieldKind.decode_of_encode? hbits

end Update

namespace CurrentGain

variable {bits : BitVec 3}

theorem toNat_setWidth_bits : (bits.setWidth 8).toNat = bits.toNat := by
  rw [BitVec.toNat_setWidth]
  exact Nat.mod_eq_of_lt (Nat.lt_of_lt_of_le bits.isLt (by decide))

theorem ofBits_eq_ok {gain : CurrentGain} :
    ofBits (bits.setWidth 8) = .ok gain ↔ bits = gain.bits := by
  constructor
  · intro h
    rw [ofBits] at h
    cases hfound : ofBits? (bits.setWidth 8) with
    | none => simp [hfound] at h
    | some found =>
        obtain rfl : found = gain := by simpa [hfound] using h
        have hpattern := congrArg BitVec.toNat (ofBits?_eq_some_iff.mp hfound)
        rw [toNat_setWidth_bits, toNat_setWidth_bits] at hpattern
        exact BitVec.eq_of_toNat_eq hpattern.symm
  · rintro rfl
    exact ofBits_bits gain

/-- The patterns that select nothing. -/
theorem five_le_iff_mem : 5 ≤ bits.toNat ↔ bits.toNat ∈ [0b101, 0b110, 0b111] := by
  have hlt := bits.isLt
  simp only [List.mem_cons, List.not_mem_nil, or_false]
  omega

theorem ofBits_eq_error {refused : InvalidPattern} :
    ofBits (bits.setWidth 8) = .error refused ↔
      bits.toNat ∈ [0b101, 0b110, 0b111] ∧ refused = ⟨bits.setWidth 8⟩ := by
  rw [← five_le_iff_mem, ← toNat_setWidth_bits, ← ofBits?_eq_none_iff, ofBits]
  cases ofBits? (bits.setWidth 8) with
  | none => simp [eq_comm]
  | some found => simp

end CurrentGain

/-- The highest and the lowest position of each named field. -/
def Declaration.spans (declaration : Declaration) : List (String × Nat × Nat) :=
  declaration.layout.fields.map fun field => (field.name, field.span)

/-- Any sequence of updates of a declared register: the word goes into the register and
comes out again; every field holds the last value that was accepted for it, and the bits
without a name are those of the beginning; an update that is rejected is reported and
changes nothing; updates of different fields commute.  The registers that are declared
have their fields at the documented positions, and the gain is an error exactly when its
bits select none. -/
theorem field_update_laws (declaration : Declaration) (word : Word)
    (updates : List (Update declaration.layout)) :
    ((Packed.ofWord word).toWord = word ∧
      (∀ packed, Packed.ofWord (Packed.toWord packed) = packed) ∧
      ∀ i, (Packed.ofWord word).bit i = word.getLsbD i) ∧
    (∀ field ∈ declaration.layout.fields,
      field.bits (Update.applyAll updates word) =
        ((Update.lastValue? updates field).bind field.kind.encode?).getD (field.bits word) ∧
      field.get (Update.applyAll updates word) =
        ((Update.lastValue? updates field).map Except.ok).getD (field.get word)) ∧
    (∀ i, (∀ field ∈ declaration.layout.fields, ¬ field.Covers i) →
      (Update.applyAll updates word).getLsbD i = word.getLsbD i) ∧
    (∀ update : Update declaration.layout,
      (update.field.kind.Fits update.value → update.run word = .ok (update.apply word)) ∧
      (¬ update.field.kind.Fits update.value →
        update.apply word = word ∧
        update.run word =
          if update.setter.isChecked then .failed Layout.outOfBounds
          else .halted (declaration.layout.unwritable update.field))) ∧
    (∀ first second : Update declaration.layout, first.field ≠ second.field →
      first.apply (second.apply word) = second.apply (first.apply word)) ∧
    (Declaration.all.map Declaration.layout = Layout.all ∧
      MeterMode.declared.spans = [("current_gain", 15, 13)] ∧
      FunctionEnable.declared.spans = [("sag_warn_out", 4, 4), ("sag_enable", 5, 5)] ∧
      SystemStatus.declared.spans =
        [("sag_warn", 1, 1), ("rev_p_change", 5, 5), ("rev_q_change", 6, 6),
          ("ln_change", 7, 7), ("adj_err", 13, 12), ("cal_err", 15, 14)]) ∧
    (MeterMode.currentGain.mask = MeterMode.gainMask ∧
      FunctionEnable.sagEnable.mask = FunctionEnable.sagEnableBit ∧
      FunctionEnable.sagWarnOut.mask = FunctionEnable.sagWarnOutBit) ∧
    ((CurrentGain.all.map fun gain => (gain.factor.toNat, gain.bits)) =
        [(4, 0b000), (8, 0b001), (16, 0b010), (24, 0b011), (1, 0b100)] ∧
      (∀ gain, MeterMode.currentGain.get word = .ok gain ↔
        MeterMode.currentGain.bits word = gain.bits) ∧
      ∀ refused, MeterMode.currentGain.get word = .error refused ↔
        (MeterMode.currentGain.bits word).toNat ∈ [0b101, 0b110, 0b111] ∧
          refused = ⟨(MeterMode.currentGain.bits word).setWidth 8⟩) := by
  exact ⟨⟨Packed.toWord_ofWord word, Packed.ofWord_toWord, Packed.bit_ofWord word⟩,
    fun field hfield => ⟨Update.bits_applyAll updates word hfield,
      Update.get_applyAll updates word hfield⟩,
    fun i hi => Update.getLsbD_applyAll updates hi word,
    fun update => ⟨update.run_fits word, fun hfits =>
      ⟨update.apply_rejected word hfits, update.run_rejected word hfits⟩⟩,
    fun first second hne => Update.apply_comm first second hne word,
    ⟨Declaration.map_layout_all, by decide, by decide, by decide⟩,
    ⟨MeterMode.mask_currentGain, FunctionEnable.mask_sagEnable, FunctionEnable.mask_sagWarnOut⟩,
    by decide, fun gain => CurrentGain.ofBits_eq_ok, fun refused => CurrentGain.ofBits_eq_error⟩

-- the second value does not fit in two bits
example :
    Update.applyAll
      ([⟨SystemStatus.calErr, by decide, .onCopy, 2⟩,
        ⟨SystemStatus.calErr, by decide, .inPlaceChecked, 4⟩,
        ⟨SystemStatus.sagWarn, by decide, .inPlace, true⟩] :
          List (Update SystemStatus.declared.layout)) 0x3001 = 0xB003 := by
  decide

end EnergyMeter
