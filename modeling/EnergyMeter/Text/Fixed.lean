/-!
Decimal text of a binary32 number with a fixed number of places.  The exact
value is rounded once, to the nearest decimal with that many places, and a tie
goes to the even digit.
-/

namespace EnergyMeter.Text

/-- The integer nearest to a quotient, the even one in a tie. -/
def roundDiv (num den : Nat) : Nat :=
  match compare (2 * (num % den)) den with
  | .lt => num / den
  | .eq => num / den + num / den % 2
  | .gt => num / den + 1

/-- The integer nearest to a mantissa times powers of two and of ten. -/
def scaled (mantissa : Nat) (exponent : Int) (places : Nat) : Nat :=
  roundDiv (mantissa * Nat.pow 10 places * Nat.pow 2 exponent.toNat) (Nat.pow 2 (-exponent).toNat)

/-- A number of units of the last place, with the point set. -/
def placed (places units : Nat) : String :=
  if places = 0 then toString units
  else
    let digits := toString (units % Nat.pow 10 places)
    toString (units / Nat.pow 10 places) ++ "." ++
      String.ofList (List.replicate (places - digits.length) '0') ++ digits

/-- The sign that is written before a number. -/
def signText : Float.Model.UnpackedFloat.Sign → String
  | .positive => ""
  | .negative => "-"

/-- A number with a fixed number of places. -/
def fixed (places : Nat) (number : Float32) : String :=
  match number.toModel.unpack with
  | .notANumber => "NaN"
  | .infinity sign => signText sign ++ "inf"
  | .zero sign => signText sign ++ placed places 0
  | .finite sign mantissa exponent _ => signText sign ++ placed places (scaled mantissa exponent places)

example : fixed 3 (5 / 100) = "0.050" := by
  decide

example : fixed 2 (23012 / 100) = "230.12" := by
  decide

example : fixed 0 (-100) = "-100" := by
  decide

end EnergyMeter.Text
