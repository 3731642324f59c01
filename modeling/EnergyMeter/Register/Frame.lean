import EnergyMeter.Word

/-!
Frames on the wire.  A header byte carries an address below the read marker; a
write frame is a header followed by the word, and a read header stands alone.
-/

namespace EnergyMeter.Frame

/-- The header bit that asks for a read. -/
def readMarker : Byte :=
  0x80

/-- The header of a read, in a frame of its own. -/
def readHeader (address : Address) : List Byte :=
  [address.toByte ||| readMarker]

/-- The frame that writes a word. -/
def write (address : Address) (word : Word) : List Byte :=
  [address.toByte, word.high, word.low]

@[simp]
theorem length_write (address : Address) (word : Word) : (write address word).length = 3 := rfl

/-- The header byte asks for a read. -/
def isRead (header : Byte) : Bool :=
  header &&& readMarker != 0

/-- The address in a header byte. -/
def address (header : Byte) : Address :=
  .ofLowBits header

theorem address_marked (address : Address) :
    Frame.address (address.toByte ||| readMarker) = address := by
  revert address
  decide

theorem address_toByte (address : Address) : Frame.address address.toByte = address :=
  Address.ofLowBits_toByte address

theorem isRead_marked (address : Address) : isRead (address.toByte ||| readMarker) = true := by
  revert address
  decide

theorem isRead_toByte (address : Address) : isRead address.toByte = false := by
  revert address
  decide

end EnergyMeter.Frame
