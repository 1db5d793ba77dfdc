import HeapPressure.Decimal.Shortest

/-!
Decimals with a given number of places: a binary fraction is rounded to a grid of decimals, a
half to the even neighbour.
-/
namespace HeapPressure.Decimal

/-- How a number is written that has a given number of places. -/
inductive Form where
  | positional
  | exponential
  /-- With so many digits in all, in the form that suits the size. -/
  | suited
deriving DecidableEq

namespace Dyadic

/-- The fraction in units of `10 ^ -places`. -/
def units (d : Dyadic) (places : Int) : Nat :=
  let up := d.mantissa * (Nat.pow 2 d.exponent.toNat * Nat.pow 10 places.toNat)
  let down := Nat.pow 2 (-d.exponent).toNat * Nat.pow 10 (-places).toNat
  let below := up / down
  let twice := 2 * (up % down)
  if twice < down then below
  else if down < twice then below + 1
  else Tie.toEven.pick below

/-- The fraction to `places` places behind its leading digit, and the power of ten that the
leading digit stands for. -/
def leading (d : Dyadic) (places : Nat) : Nat × Int :=
  if d.mantissa = 0 then (0, 0)
  else
    let lead := d.magnitude
    let n := d.units (places - lead)
    if n < Nat.pow 10 (places + 1) then (n, lead) else (n / 10, lead + 1)

end Dyadic

/-- Digits with a point in front of the last `places`; where nothing stands behind the point, it
is kept only if it is wanted. -/
private def pointed (wanted : Bool) (places n : Nat) : String :=
  let digits := Nat.toDigits 10 n
  let digits := List.replicate (places + 1 - digits.length) '0' ++ digits
  let whole := digits.take (digits.length - places)
  let fraction := digits.drop (digits.length - places)
  String.ofList whole ++ (if fraction.isEmpty && !wanted then "" else ".")
    ++ String.ofList fraction

private def withoutZeros (text : String) : String :=
  if text.toList.contains '.' then
    let kept := text.toList.reverse.dropWhile (· == '0')
    String.ofList (if kept.head? == some '.' then kept.drop 1 else kept).reverse
  else text

private def exponentText (e : Int) : String :=
  let digits := toString e.natAbs
  (if e < 0 then "e-" else "e+") ++ (if digits.length < 2 then "0" else "") ++ digits

/-- The text in a form. In full, the point is always written, and zeros at the end stay also in
the form that suits. -/
def Dyadic.textIn (form : Form) (places : Nat) (full : Bool) (d : Dyadic) : String :=
  match form with
  | .positional => pointed full places (d.units places)
  | .exponential =>
    let (n, lead) := d.leading places
    pointed full places n ++ exponentText lead
  | .suited =>
    let digits := max 1 places
    let (n, lead) := d.leading (digits - 1)
    let tidy := if full then id else withoutZeros
    if -4 ≤ lead ∧ lead < digits then
      let places := (digits - 1 - lead).toNat
      tidy (pointed full places (d.units places))
    else tidy (pointed full (digits - 1) n) ++ exponentText lead

end HeapPressure.Decimal
