import EnergyMeter.Word

/-!
The register map of the metering chip: names, addresses and signedness, in
address order.  A search by address or by name finds the only matching entry,
and names are compared up to the case of ASCII letters.
-/

namespace EnergyMeter.Register

/-- Accepts the soft reset command. -/
def softReset : Address :=
  0x00

def sysStatus : Address :=
  0x01

def funcEn : Address :=
  0x02

def sagTh : Address :=
  0x03

def smallPMod : Address :=
  0x04

/-- Holds the word moved by the last access to another register. -/
def lastData : Address :=
  0x06

def calStart : Address :=
  0x20

def mMode : Address :=
  0x2B

def adjStart : Address :=
  0x30

def igainL : Address :=
  0x32

def cs2 : Address :=
  0x3B

def irms : Address :=
  0x48

def urms : Address :=
  0x49

def pmean : Address :=
  0x4A

def freq : Address :=
  0x4C

/-- The word that resets the chip. -/
def softResetCommand : Word :=
  0x789A

/-- The word that starts an engine without verifying its checksum. -/
def startWithoutChecksum : Word :=
  0x5678

/-- The default calibration of the line current gain. -/
def defaultIgainL : Word :=
  0x21C1

/-- The checksum of the default measurement calibration. -/
def defaultCs2 : Word :=
  0xE20E

/-- What is known about a register without asking the chip. -/
structure Descriptor where
  name : String
  address : Address
  /-- The contents are in two's complement. -/
  signed : Bool
deriving DecidableEq, Repr

def unsigned (name : String) (address : Address) : Descriptor :=
  ⟨name, address, false⟩

def signed (name : String) (address : Address) : Descriptor :=
  ⟨name, address, true⟩

/-- The number that a word in this register stands for. -/
def Descriptor.interpret (register : Descriptor) (word : Word) : Int :=
  if register.signed then word.signed else word.toNat

/-- Every documented register, in address order. -/
def map : List Descriptor :=
  [
    unsigned "SoftReset" softReset,
    unsigned "SysStatus" sysStatus,
    unsigned "FuncEn" funcEn,
    unsigned "SagTh" sagTh,
    unsigned "SmallPMod" smallPMod,
    unsigned "LastData" lastData,
    unsigned "CalStart" calStart,
    unsigned "PLconstH" 0x21,
    unsigned "PLconstL" 0x22,
    unsigned "Lgain" 0x23,
    signed "Lphi" 0x24,
    unsigned "Ngain" 0x25,
    signed "Nphi" 0x26,
    unsigned "PStartTh" 0x27,
    unsigned "PNolTh" 0x28,
    unsigned "QStartTh" 0x29,
    unsigned "QNolTh" 0x2A,
    unsigned "MMode" mMode,
    unsigned "CS1" 0x2C,
    unsigned "AdjStart" adjStart,
    unsigned "Ugain" 0x31,
    unsigned "IgainL" igainL,
    unsigned "IgainN" 0x33,
    signed "Uoffset" 0x34,
    signed "IoffsetL" 0x35,
    signed "IoffsetN" 0x36,
    signed "PoffsetL" 0x37,
    signed "QoffsetL" 0x38,
    signed "PoffsetN" 0x39,
    signed "QoffsetN" 0x3A,
    unsigned "CS2" cs2,
    unsigned "APenergy" 0x40,
    unsigned "ANenergy" 0x41,
    unsigned "ATenergy" 0x42,
    unsigned "RPenergy" 0x43,
    unsigned "RNenergy" 0x44,
    unsigned "RTenergy" 0x45,
    unsigned "EnStatus" 0x46,
    unsigned "Irms" irms,
    unsigned "Urms" urms,
    signed "Pmean" pmean,
    signed "Qmean" 0x4B,
    unsigned "Freq" freq,
    unsigned "PowerF" 0x4D,
    unsigned "Pangle" 0x4E,
    unsigned "Smean" 0x4F,
    unsigned "Irms2" 0x68,
    signed "Pmean2" 0x6A,
    signed "Qmean2" 0x6B,
    unsigned "PowerF2" 0x6D,
    unsigned "Pangle2" 0x6E,
    unsigned "Smean2" 0x6F
  ]

/-- The register at a byte address. -/
def lookup? (address : Byte) : Option Descriptor :=
  map.find? fun register => register.address.toByte = address

/-- The characters of a name with ASCII letters in lower case. -/
def foldCase (name : String) : List Char :=
  name.toList.map Char.toLower

/-- The register with a name, up to the case of ASCII letters. -/
def lookupName? (name : String) : Option Descriptor :=
  map.find? fun register => foldCase register.name = foldCase name

theorem map_pairwise_address_lt : map.Pairwise fun first second =>
    first.address < second.address := by
  decide

theorem map_pairwise_foldCase_ne : map.Pairwise fun first second =>
    foldCase first.name ≠ foldCase second.name := by
  decide

example : lookup? 0x4A = some (signed "Pmean" pmean) := by
  decide

example : lookupName? "pmean" = some (signed "Pmean" pmean) := by
  decide

example : lookup? 0x05 = none := by
  decide

example : (signed "Pmean" pmean).interpret 0xFFFF = -1 := by
  decide

end EnergyMeter.Register
