import EnergyMeter.Proofs.ErrorCause
import Mathlib.Data.List.Forall2

/-!
Searches of the register map.  No two entries have the same address, and no two
have the same name, so a search finds an entry exactly if that entry matches.
Names match letter by letter; only the case of an ASCII letter is free.
-/

namespace EnergyMeter

namespace Register

/-- An upper case ASCII letter and its lower case form. -/
def CasePair (upper lower : Char) : Prop :=
  'A' ≤ upper ∧ upper ≤ 'Z' ∧ lower.toNat = upper.toNat + 32

/-- The same character, up to the case of an ASCII letter. -/
def SameLetter (first second : Char) : Prop :=
  first = second ∨ CasePair first second ∨ CasePair second first

/-- Names of one length with the same letters in the same places. -/
def SameName (first second : String) : Prop :=
  List.Forall₂ SameLetter first.toList second.toList

/-- Every character of the text is an ASCII character. -/
def IsAscii (text : String) : Prop :=
  ∀ letter ∈ text.toList, letter.toNat < 128

theorem upper_iff {letter : Char} :
    'A' ≤ letter ∧ letter ≤ 'Z' ↔ 65 ≤ letter.toNat ∧ letter.toNat ≤ 90 := by
  simp [Char.le_def, UInt32.le_iff_toNat_le]

theorem toNat_toLower (letter : Char) :
    letter.toLower.toNat =
      if 65 ≤ letter.toNat ∧ letter.toNat ≤ 90 then letter.toNat + 32 else letter.toNat := by
  by_cases hupper : letter.val ≥ 'A'.val ∧ letter.val ≤ 'Z'.val
  · have hrange := upper_iff.mp hupper
    have hlower : letter.toLower.val = letter.val + 32 := congrArg Char.val (dif_pos hupper)
    have hstep : (32 : UInt32).toNat = 32 := rfl
    rw [if_pos hrange]
    simp only [Char.toNat, hlower, UInt32.toNat_add] at hrange ⊢
    omega
  · have hlower : letter.toLower = letter := dif_neg hupper
    rw [if_neg (mt upper_iff.mpr hupper), hlower]

theorem toLower_eq_iff {first second : Char} :
    first.toLower = second.toLower ↔ SameLetter first second := by
  simp only [SameLetter, CasePair, ← and_assoc, upper_iff]
  rw [← Char.toNat_inj, ← Char.toNat_inj, toNat_toLower, toNat_toLower]
  split <;> split <;> omega

/-- Folding the case of two names is one way to compare them. -/
theorem foldCase_eq_iff {first second : String} :
    foldCase first = foldCase second ↔ SameName first second := by
  rw [SameName, foldCase, foldCase, ← List.forall₂_eq_eq_eq, List.forall₂_map_left_iff,
    List.forall₂_map_right_iff]
  simp only [toLower_eq_iff]

instance : DecidableRel SameName := fun _ _ =>
  decidable_of_iff _ foldCase_eq_iff

theorem SameName.length_eq {first second : String} (h : SameName first second) :
    first.length = second.length :=
  List.Forall₂.length_eq h

theorem SameLetter.lt_of_lt {first second : Char} (h : SameLetter first second)
    (hascii : first.toNat < 128) : second.toNat < 128 := by
  rcases h with rfl | hpair | hpair
  · exact hascii
  · have hrange := upper_iff.mp ⟨hpair.1, hpair.2.1⟩
    have hlower := hpair.2.2
    omega
  · have hlower := hpair.2.2
    omega

theorem SameName.isAscii {first second : String} (h : SameName first second)
    (hascii : IsAscii first) : IsAscii second := by
  unfold SameName at h
  unfold IsAscii at hascii ⊢
  generalize first.toList = letters at h hascii
  generalize second.toList = others at h ⊢
  induction h with
  | nil => simp
  | cons hletter hrest ih =>
      rw [List.forall_mem_cons] at hascii ⊢
      exact ⟨hletter.lt_of_lt hascii.1, ih hascii.2⟩

instance : DecidablePred IsAscii := fun text =>
  decidable_of_iff ((text.toList.all fun letter => letter.toNat < 128) = true) (by simp [IsAscii])

theorem map_isAscii : ∀ entry ∈ map, IsAscii entry.name := by
  decide

section

variable {α κ : Type} [DecidableEq κ] {key : α → κ} {entries : List α} {wanted : κ}

/-- Where every entry has a key of its own, a search by key finds an entry
exactly if the entry has that key. -/
theorem find?_key_eq_some_iff
    (hkeys : entries.Pairwise fun first second => key first ≠ key second) {entry : α} :
    (entries.find? fun entry => key entry = wanted) = some entry ↔
      entry ∈ entries ∧ key entry = wanted := by
  induction hkeys with
  | nil => simp
  | @cons first rest hfirst hrest ih =>
      by_cases hkey : key first = wanted
      · simp only [List.find?_cons, hkey, decide_true, Option.some.injEq, List.mem_cons]
        constructor
        · rintro rfl
          exact ⟨.inl rfl, hkey⟩
        · rintro ⟨rfl | hentry, hwanted⟩
          · rfl
          · exact absurd (hkey.trans hwanted.symm) (hfirst entry hentry)
      · simp only [List.find?_cons, hkey, decide_false, ih, List.mem_cons]
        constructor
        · rintro ⟨hentry, hwanted⟩
          exact ⟨.inr hentry, hwanted⟩
        · rintro ⟨rfl | hentry, hwanted⟩
          · exact absurd hwanted hkey
          · exact ⟨hentry, hwanted⟩

/-- Then a key belongs to one entry at most. -/
theorem eq_of_key_eq (hkeys : entries.Pairwise fun first second => key first ≠ key second)
    {first second : α} (hfirst : first ∈ entries) (hsecond : second ∈ entries)
    (hkey : key first = key second) : first = second := by
  have hfound := (find?_key_eq_some_iff hkeys).mpr ⟨hfirst, hkey⟩
  have hfound' := (find?_key_eq_some_iff hkeys).mpr ⟨hsecond, rfl⟩
  exact Option.some.inj (hfound.symm.trans hfound')

end

theorem map_pairwise_toByte_ne : map.Pairwise fun first second =>
    first.address.toByte ≠ second.address.toByte := by
  apply map_pairwise_address_lt.imp
  intro first second hlt hbyte
  have haddress := congrArg Address.ofLowBits hbyte
  rw [Address.ofLowBits_toByte, Address.ofLowBits_toByte] at haddress
  exact absurd hlt (haddress ▸ BitVec.lt_irrefl _)

theorem lookup?_eq_some_iff {byte : Byte} {register : Descriptor} :
    lookup? byte = some register ↔ register ∈ map ∧ register.address.toByte = byte :=
  find?_key_eq_some_iff map_pairwise_toByte_ne

theorem lookupName?_eq_some_iff {name : String} {register : Descriptor} :
    lookupName? name = some register ↔ register ∈ map ∧ SameName register.name name := by
  rw [← foldCase_eq_iff]
  exact find?_key_eq_some_iff map_pairwise_foldCase_ne

theorem lookupName?_eq_none_of_not_isAscii {name : String} (h : ¬ IsAscii name) :
    lookupName? name = none := by
  rw [Option.eq_none_iff_forall_ne_some]
  intro register hfound
  obtain ⟨hmem, hname⟩ := lookupName?_eq_some_iff.mp hfound
  exact h (hname.isAscii (map_isAscii register hmem))

variable {β ε η : Type} [Bus β ε η]

/-- A text finds the register whose name it is up to the case of ASCII letters,
and a byte finds the register at that address; in both searches there is one such
register at most.  Any other text finds nothing: none with a further or a missing
character, and none with a character outside ASCII.  What a text finds is found
again at its address, and every address that is found is one that a meter accepts,
so reading it with its shadow is never refused for its argument. -/
theorem lookups_exact (meter : Meter β) :
    (∀ name register,
      lookupName? name = some register ↔ register ∈ map ∧ SameName register.name name) ∧
    (∀ name, ∀ first ∈ map, ∀ second ∈ map,
      SameName first.name name → SameName second.name name → first = second) ∧
    (∀ name, ¬ IsAscii name → lookupName? name = none) ∧
    (∀ name register, lookupName? name = some register → name.length = register.name.length) ∧
    (∀ byte register,
      lookup? byte = some register ↔ register ∈ map ∧ register.address.toByte = byte) ∧
    (∀ first ∈ map, ∀ second ∈ map, first.address = second.address → first = second) ∧
    (∀ name register, lookupName? name = some register →
      lookup? register.address.toByte = some register) ∧
    ∀ byte register, lookup? byte = some register →
      Address.ofByte? byte = some register.address ∧
        meter.verifiedReadRegister byte = meter.execute (.verifiedRead register.address) ∧
        (meter.state ≠ .uninitialized →
          (meter.verifiedReadRegister byte).outcome ≠ .failed .invalidArgument) := by
  refine ⟨?names, ?oneName, ?ascii, ?length, ?addresses, ?oneAddress, ?consistent, ?accepted⟩
  case names =>
    intro name register
    exact lookupName?_eq_some_iff
  case oneName =>
    intro name first hfirst second hsecond hname hname'
    apply eq_of_key_eq map_pairwise_foldCase_ne hfirst hsecond
    exact (foldCase_eq_iff.mpr hname).trans (foldCase_eq_iff.mpr hname').symm
  case ascii =>
    intro name
    exact lookupName?_eq_none_of_not_isAscii
  case length =>
    intro name register hfound
    exact (lookupName?_eq_some_iff.mp hfound).2.length_eq.symm
  case addresses =>
    intro byte register
    exact lookup?_eq_some_iff
  case oneAddress =>
    intro first hfirst second hsecond haddress
    exact eq_of_key_eq map_pairwise_toByte_ne hfirst hsecond (congrArg Address.toByte haddress)
  case consistent =>
    intro name register hfound
    have hmem := (lookupName?_eq_some_iff.mp hfound).1
    exact lookup?_eq_some_iff.mpr ⟨hmem, rfl⟩
  case accepted =>
    intro byte register hfound
    obtain ⟨-, rfl⟩ := lookup?_eq_some_iff.mp hfound
    have hread : meter.verifiedReadRegister register.address.toByte =
        meter.execute (.verifiedRead register.address) :=
      meter.executeAt_eq_execute _ _
    refine ⟨Address.ofByte?_toByte register.address, hread, ?_⟩
    intro hsession hinvalid
    have hclassified := meter.execute_classified (.verifiedRead register.address)
    exact (hclassified.invalid_iff hsession).mp (hread ▸ hinvalid) trivial

example : lookupName? "pMEAN2" = some (signed "Pmean2" 0x6A) := by
  decide

-- The long s is a capital S in Unicode, and it is no ASCII letter.
example : lookupName? "ſagTh" = none := by
  decide

end Register

end EnergyMeter
