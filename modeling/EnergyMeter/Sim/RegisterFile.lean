import EnergyMeter.Register.Map

/-!
The registers of a simulated chip.  Next to its words it keeps the word moved
last, which the shadow register shows: reading the shadow leaves it alone, and
every other access replaces it.
-/

namespace EnergyMeter

structure RegisterFile where
  words : Address → Word
  /-- The word moved by the last access that was no look at the shadow. -/
  mirror : Word

namespace RegisterFile

/-- Registers that hold zero, before any access. -/
def empty : RegisterFile :=
  ⟨fun _ => 0, 0⟩

/-- The words with one replaced. -/
def update (words : Address → Word) (address : Address) (word : Word) : Address → Word :=
  fun other => if other = address then word else words other

@[simp]
theorem update_self (words : Address → Word) (address : Address) (word : Word) :
    update words address word address = word :=
  if_pos rfl

theorem update_of_ne {address other : Address} (h : other ≠ address) (words : Address → Word)
    (word : Word) : update words address word other = words other :=
  if_neg h

/-- Words laid out at byte positions, a later one over an earlier one.  A
position above the last address is out of reach and changes no register. -/
def ofList (contents : List (Byte × Word)) : Address → Word :=
  contents.foldl
    (fun words entry =>
      match Address.ofByte? entry.1 with
      | some address => update words address entry.2
      | none => words)
    fun _ => 0

theorem ofList_append_self (contents : List (Byte × Word)) (address : Address) (word : Word) :
    ofList (contents ++ [(address.toByte, word)]) address = word := by
  simp [ofList, Address.ofByte?_toByte, update]

/-- A word at a position that is no address leaves every register as it is. -/
theorem ofList_append_of_ofByte?_eq_none {position : Byte} (h : Address.ofByte? position = none)
    (contents : List (Byte × Word)) (word : Word) :
    ofList (contents ++ [(position, word)]) = ofList contents := by
  simp [ofList, h]

def read (file : RegisterFile) (address : Address) : Word × RegisterFile :=
  if address = Register.lastData then (file.mirror, file)
  else (file.words address, { file with mirror := file.words address })

def write (file : RegisterFile) (address : Address) (word : Word) : RegisterFile :=
  ⟨update file.words address word, word⟩

@[simp]
theorem words_read (file : RegisterFile) (address : Address) :
    (file.read address).2.words = file.words := by
  unfold read
  split <;> rfl

theorem read_lastData (file : RegisterFile) :
    file.read Register.lastData = (file.mirror, file) :=
  if_pos rfl

theorem read_of_ne {address : Address} (h : address ≠ Register.lastData) (file : RegisterFile) :
    file.read address = (file.words address, { file with mirror := file.words address }) :=
  if_neg h

/-- The shadow shows what was read just before. -/
theorem read_lastData_read (file : RegisterFile) (address : Address) :
    (file.read address).2.read Register.lastData = file.read address := by
  by_cases hshadow : address = Register.lastData
  · simp [read, hshadow]
  · simp [read, hshadow]

theorem words_write_self (file : RegisterFile) (address : Address) (word : Word) :
    (file.write address word).words address = word := by
  simp [write, update]

theorem words_write_of_ne (file : RegisterFile) {address other : Address} (word : Word)
    (h : other ≠ address) : (file.write address word).words other = file.words other := by
  simp [write, update, h]

end RegisterFile

end EnergyMeter
