/-!
Binary32 numbers in binary64.  The wider format has more places and more
exponents, so nothing is rounded on the way.
-/

namespace EnergyMeter.Binary

open Float.Model (UnpackedFloat Format)

/-- The same number in binary64. -/
def widen (number : Float32) : Float :=
  Float.ofModel <| Float.Model.pack <|
    match number.toModel.unpack with
    | .finite sign mantissa exponent _ =>
        UnpackedFloat.round Format.binary64 sign mantissa exponent
    | special => special

end EnergyMeter.Binary
