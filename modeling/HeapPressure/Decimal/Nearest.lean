/-!
The double nearest to a decimal.
-/
namespace HeapPressure.Decimal

/-- The double nearest to `mantissa * 10 ^ exponent`. Powers far outside the range of doubles
are not worked out. -/
def nearestDouble (mantissa : Nat) (exponent : Int) : Float :=
  let lead : Int := (Nat.toDigits 10 mantissa).length + exponent
  if mantissa = 0 ∨ lead < -400 then 0.0
  else if lead > 400 then 1.0 / 0.0
  else if exponent < 0 then Float.ofScientific mantissa true exponent.natAbs
  else Float.ofScientific mantissa false exponent.natAbs

end HeapPressure.Decimal
