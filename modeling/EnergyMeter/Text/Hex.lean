/-!
Hexadecimal text of natural numbers, without leading zeros.
-/

namespace EnergyMeter.Text

/-- Lower case digits after `0x`. -/
def hex (number : Nat) : String :=
  "0x" ++ String.ofList (Nat.toDigits 16 number)

/-- Upper case digits after `0x`. -/
def upperHex (number : Nat) : String :=
  "0x" ++ String.ofList ((Nat.toDigits 16 number).map Char.toUpper)

example : hex 0x2B = "0x2b" := by decide

example : upperHex 0xAB = "0xAB" := by decide

example : hex 0 = "0x0" := by decide

end EnergyMeter.Text
