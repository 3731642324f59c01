/-!
Words, bytes and addresses of the meter's serial interface.  A register holds
one word, a word travels as two bytes with the high byte first, and an address
fills the seven low bits of a header byte.
-/

namespace EnergyMeter

/-- The contents of one register. -/
abbrev Word := BitVec 16

/-- One byte on the wire. -/
abbrev Byte := BitVec 8

/-- The seven address bits of a header byte. -/
abbrev Address := BitVec 7

namespace Word

/-- The byte sent first. -/
def high (word : Word) : Byte :=
  BitVec.ofNat 8 (word.toNat / 256)

/-- The byte sent second. -/
def low (word : Word) : Byte :=
  BitVec.ofNat 8 word.toNat

/-- The word whose bytes arrive in this order. -/
def ofBytes (first second : Byte) : Word :=
  BitVec.ofNat 16 (256 * first.toNat + second.toNat)

theorem ofBytes_high_low (word : Word) : ofBytes word.high word.low = word := by
  apply BitVec.eq_of_toNat_eq
  simp only [ofBytes, high, low, BitVec.toNat_ofNat]
  omega

theorem high_ofBytes (first second : Byte) : (ofBytes first second).high = first := by
  apply BitVec.eq_of_toNat_eq
  simp only [ofBytes, high, BitVec.toNat_ofNat]
  omega

theorem low_ofBytes (first second : Byte) : (ofBytes first second).low = second := by
  apply BitVec.eq_of_toNat_eq
  simp only [ofBytes, low, BitVec.toNat_ofNat]
  omega

/-- The word read as a two's complement number. -/
def signed (word : Word) : Int :=
  word.toInt

end Word

namespace Address

/-- The address held by a byte, if the byte is at most `0x7F`. -/
def ofByte? (byte : Byte) : Option Address :=
  if byte.toNat ≤ 0x7F then some (byte.setWidth 7) else none

/-- The seven low bits of a byte. -/
def ofLowBits (byte : Byte) : Address :=
  byte.setWidth 7

/-- The address as a byte with the top bit clear. -/
def toByte (address : Address) : Byte :=
  address.setWidth 8

theorem toNat_toByte (address : Address) : address.toByte.toNat = address.toNat := by
  simp only [toByte, BitVec.toNat_setWidth]
  omega

theorem ofLowBits_toByte (address : Address) : ofLowBits address.toByte = address := by
  apply BitVec.eq_of_toNat_eq
  rw [ofLowBits, BitVec.toNat_setWidth, toNat_toByte]
  omega

/-- A byte holds an address exactly when it is that address with the top bit
clear. -/
theorem ofByte?_eq_some_iff {byte : Byte} {address : Address} :
    ofByte? byte = some address ↔ byte = address.toByte := by
  constructor
  · intro h
    by_cases hle : byte.toNat ≤ 0x7F
    · rw [ofByte?, if_pos hle, Option.some.injEq] at h
      subst h
      apply BitVec.eq_of_toNat_eq
      simp only [toByte, BitVec.toNat_setWidth]
      omega
    · rw [ofByte?, if_neg hle] at h
      exact nomatch h
  · rintro rfl
    have hle : address.toByte.toNat ≤ 0x7F := by
      rw [toNat_toByte]
      omega
    rw [ofByte?, if_pos hle]
    exact congrArg some (ofLowBits_toByte address)

theorem ofByte?_toByte (address : Address) : ofByte? address.toByte = some address :=
  ofByte?_eq_some_iff.mpr rfl

theorem ofByte?_eq_none_iff {byte : Byte} : ofByte? byte = none ↔ 0x7F < byte.toNat := by
  by_cases hle : byte.toNat ≤ 0x7F
  · simp [ofByte?, hle]
  · simp [ofByte?, hle, Nat.lt_of_not_le hle]

end Address

end EnergyMeter
