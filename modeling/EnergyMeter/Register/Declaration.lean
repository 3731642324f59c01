import EnergyMeter.Register.Layout

/-!
Registers as they are declared: parts with a width, named or not, that are packed
from the least significant bit upwards in the order of their declaration.  A
declared register is kept in two bytes, the low one first.
-/

namespace EnergyMeter

/-- A part of a declaration. -/
inductive Part where
  | skipped (width : Nat)
  | named (name : String) (kind : FieldKind)
deriving DecidableEq, Repr

namespace Part

def width : Part → Nat
  | skipped width => width
  | named _ kind => kind.width

/-- The number of bits of some parts. -/
def total : List Part → Nat
  | [] => 0
  | part :: rest => part.width + total rest

/-- When some parts fit, the first one does, and the others fit behind it. -/
theorem fits_cons {low : Nat} {part : Part} {rest : List Part}
    (h : low + total (part :: rest) ≤ 16) :
    low + part.width ≤ 16 ∧ low + part.width + total rest ≤ 16 := by
  rw [total] at h
  omega

/-- The named parts as fields, packed from a position upwards. -/
def place (low : Nat) : (parts : List Part) → low + total parts ≤ 16 → List Field
  | [], _ => []
  | skipped _ :: rest, fits => place _ rest (fits_cons fits).2
  | named name kind :: rest, fits =>
      { name, low, kind, fits := (fits_cons fits).1 } :: place _ rest (fits_cons fits).2

/-- Packing never goes back below the position where it begins. -/
theorem low_le_of_mem_place {low : Nat} {parts : List Part} {fits : low + total parts ≤ 16}
    {field : Field} (h : field ∈ place low parts fits) : low ≤ field.low := by
  induction parts generalizing low with
  | nil => simp [place] at h
  | cons part rest ih =>
      cases part with
      | skipped width => exact Nat.le_trans (Nat.le_add_right low width) (ih h)
      | named name kind =>
          rw [place, List.mem_cons] at h
          rcases h with rfl | h
          · exact Nat.le_refl low
          · exact Nat.le_trans (Nat.le_add_right low kind.width) (ih h)

/-- Packed fields have no common bit. -/
theorem pairwise_disjoint_place {low : Nat} {parts : List Part} (fits : low + total parts ≤ 16) :
    (place low parts fits).Pairwise Field.Disjoint := by
  induction parts generalizing low with
  | nil => exact .nil
  | cons part rest ih =>
      cases part with
      | skipped width => exact ih _
      | named name kind =>
          exact .cons (fun field hfield => .inl (low_le_of_mem_place hfield)) (ih _)

end Part

/-- A register with a part for every bit of its word. -/
structure Declaration where
  name : String
  parts : List Part
  full : Part.total parts = 16 := by decide

namespace Declaration

/-- The named parts where they are packed. -/
def layout (declaration : Declaration) : Layout :=
  { name := declaration.name
    fields := Part.place 0 declaration.parts (declaration.full.symm ▸ Nat.le_refl 16) }

theorem pairwise_disjoint (declaration : Declaration) :
    declaration.layout.fields.Pairwise Field.Disjoint :=
  Part.pairwise_disjoint_place _

end Declaration

def MeterMode.declared : Declaration :=
  { name := "MeterMode", parts := [.skipped 13, .named "current_gain" .gain] }

def FunctionEnable.declared : Declaration :=
  { name := "FunctionEnable"
    parts :=
      [.skipped 4, .named "sag_warn_out" .flag, .named "sag_enable" .flag, .skipped 10] }

def SystemStatus.declared : Declaration :=
  { name := "SystemStatus"
    parts :=
      [.skipped 1, .named "sag_warn" .flag, .skipped 3, .named "rev_p_change" .flag,
        .named "rev_q_change" .flag, .named "ln_change" .flag, .skipped 4,
        .named "adj_err" .number, .named "cal_err" .number] }

/-- All registers with named bits, as they are declared. -/
def Declaration.all : List Declaration :=
  [MeterMode.declared, FunctionEnable.declared, SystemStatus.declared]

/-- The layouts are what packing the declarations comes to. -/
theorem Declaration.map_layout_all : all.map layout = Layout.all := rfl

/-- A declared register as it is kept. -/
structure Packed where
  low : Byte
  high : Byte
deriving DecidableEq, Repr

namespace Packed

def ofWord (word : Word) : Packed :=
  ⟨word.low, word.high⟩

def toWord (packed : Packed) : Word :=
  .ofBytes packed.high packed.low

/-- The bits in the order in which parts are packed. -/
def bit (packed : Packed) (i : Nat) : Bool :=
  if i < 8 then packed.low.getLsbD i else packed.high.getLsbD (i - 8)

theorem toWord_ofWord (word : Word) : (ofWord word).toWord = word :=
  Word.ofBytes_high_low word

theorem ofWord_toWord (packed : Packed) : ofWord packed.toWord = packed := by
  rw [ofWord, toWord, Word.high_ofBytes, Word.low_ofBytes]

theorem getLsbD_low (word : Word) (i : Nat) :
    word.low.getLsbD i = (decide (i < 8) && word.getLsbD i) := by
  rw [Word.low, BitVec.getLsbD_ofNat, BitVec.testBit_toNat]

theorem getLsbD_high (word : Word) (i : Nat) :
    word.high.getLsbD i = (decide (i < 8) && word.getLsbD (i + 8)) := by
  have hbyte : (256 : Nat) = 2 ^ 8 := rfl
  rw [Word.high, BitVec.getLsbD_ofNat, hbyte, Nat.testBit_div_two_pow, BitVec.testBit_toNat]

theorem bit_ofWord (word : Word) (i : Nat) : (ofWord word).bit i = word.getLsbD i := by
  by_cases hlow : i < 8
  · rw [bit, if_pos hlow, ofWord, getLsbD_low, decide_eq_true hlow, Bool.true_and]
  · have hplaces : i - 8 + 8 = i := by omega
    rw [bit, if_neg hlow, ofWord, getLsbD_high, hplaces]
    by_cases hhigh : i < 16
    · have hbyte : i - 8 < 8 := by omega
      rw [decide_eq_true hbyte, Bool.true_and]
    · rw [BitVec.getLsbD_of_ge _ _ (Nat.le_of_not_lt hhigh), Bool.and_false]

end Packed

end EnergyMeter
