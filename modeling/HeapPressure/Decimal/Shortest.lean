/-!
The shortest decimal that reads back as a given binary fraction, and its texts.
All arithmetic is exact. A positive binary fraction is `m * 2 ^ q`; the reals that round to it
form an interval around it, and the first decimal grid with a point in that interval wins.
-/
namespace HeapPressure.Decimal

/-- The decimal `coefficient * 10 ^ exponent`. -/
structure Scaled where
  coefficient : Nat
  exponent : Int
deriving DecidableEq

/-- The positive binary fraction `mantissa * 2 ^ exponent`. Below a power of two the next
fraction is only half as far away, except at the bottom of the range: `narrow` says so. -/
structure Dyadic where
  mantissa : Nat
  exponent : Int
  narrow : Bool
deriving DecidableEq

/-- Which of two equally near points is taken: the even one, or the one above. -/
inductive Tie where
  | toEven
  | up
deriving DecidableEq

def Tie.pick (tie : Tie) (below : Nat) : Nat :=
  match tie with
  | .toEven => if below % 2 = 0 then below else below + 1
  | .up => below + 1

namespace Dyadic

/-- The greatest `k` with `10 ^ k` not above the fraction. A fraction below one is never a
power of ten, so the digits of its reciprocal tell. -/
def magnitude (d : Dyadic) : Int :=
  let up := d.mantissa * Nat.pow 2 d.exponent.toNat
  let down := Nat.pow 2 (-d.exponent).toNat
  if up ≥ down then (Nat.toDigits 10 (up / down)).length - 1
  else -(Nat.toDigits 10 (down / up)).length

/-- The nearer of the two points of the grid `10 ^ e` around the fraction, if one of them
rounds to it. Quarters of the last binary place measure the interval, whose ends belong to it
when the mantissa is even. -/
def pointOn? (tie : Tie) (d : Dyadic) (e : Int) : Option Nat :=
  let unit := Nat.pow 2 (d.exponent - 2).toNat * Nat.pow 10 (-e).toNat
  let step := Nat.pow 2 (2 - d.exponent).toNat * Nat.pow 10 e.toNat
  let value := 4 * d.mantissa * unit
  let low := (4 * d.mantissa - (if d.narrow then 1 else 2)) * unit
  let high := (4 * d.mantissa + 2) * unit
  let inside (c : Nat) : Bool :=
    if d.mantissa % 2 = 0 then low ≤ c * step && c * step ≤ high
    else low < c * step && c * step < high
  let below := value / step
  let above := below + 1
  match inside below, inside above with
  | true, true =>
    let toBelow := value - below * step
    let toAbove := above * step - value
    if toBelow < toAbove then some below
    else if toAbove < toBelow then some above
    else some (tie.pick below)
  | true, false => some below
  | false, true => some above
  | false, false => none

/-- The first hit on the grids `10 ^ e`, `10 ^ (e - 1)`, … -/
def firstPoint (tie : Tie) (d : Dyadic) : Nat → Int → Scaled
  | 0, e => ⟨(d.pointOn? tie e).getD 0, e⟩
  | more + 1, e =>
    match d.pointOn? tie e with
    | some c => ⟨c, e⟩
    | none => d.firstPoint tie more (e - 1)

/-- Seventeen digits always suffice. -/
def shortest (tie : Tie) (d : Dyadic) : Scaled := d.firstPoint tie 16 d.magnitude

end Dyadic

/-- How a decimal is written: positionally while its leading digit stands for a power of ten
between `lowest` and `highest`, otherwise with an exponent, before which `plus` stands unless it
is negative. -/
structure Style where
  lowest : Int
  highest : Int
  plus : String
  tie : Tie

/-- Always positional. -/
def Style.plain : Style := ⟨-400, 400, "", .up⟩

/-- Positional for moderate sizes. -/
def Style.moderate : Style := ⟨-5, 15, "", .up⟩

/-- As in number texts of documents. -/
def Style.document : Style := ⟨-5, 15, "+", .toEven⟩

private def zeros (n : Nat) : String := String.ofList (List.replicate n '0')

private def dropTrailingZeros (ds : List Char) : List Char :=
  (ds.reverse.dropWhile (· == '0')).reverse

/-- Writes a decimal, with at least one digit behind the point when it is positional. -/
def Scaled.text (style : Style) (d : Scaled) : String :=
  let all := Nat.toDigits 10 d.coefficient
  let ds := dropTrailingZeros all
  let lead : Int := all.length - 1 + d.exponent
  if style.lowest ≤ lead ∧ lead ≤ style.highest then
    if lead < 0 then "0." ++ zeros (-lead - 1).toNat ++ String.ofList ds
    else
      let whole := ds.take (lead.toNat + 1)
      let fraction := ds.drop (lead.toNat + 1)
      String.ofList whole ++ zeros (lead.toNat + 1 - whole.length) ++ "."
        ++ (if fraction.isEmpty then "0" else String.ofList fraction)
  else
    let fraction := ds.drop 1
    String.ofList (ds.take 1) ++ (if fraction.isEmpty then "" else "." ++ String.ofList fraction)
      ++ "e" ++ (if lead < 0 then "-" else style.plus) ++ toString lead.natAbs

/-- A double split into its sign and its class. -/
inductive Parts where
  | nan
  | infinite (negative : Bool)
  | zero (negative : Bool)
  | finite (negative : Bool) (magnitude : Dyadic)

/-- The leading bit of a mantissa, which is not stored. -/
def implicitBit : Nat := 0x10000000000000

def Parts.ofBits (bits : UInt64) : Parts :=
  let n : Nat := bits.toNat
  let negative : Bool := n ≥ 0x8000000000000000
  let power : Nat := n / implicitBit % 2048
  let low : Nat := n % implicitBit
  if power = 2047 then (if low = 0 then .infinite negative else .nan)
  else if power = 0 then
    if low = 0 then .zero negative else .finite negative ⟨low, -1074, false⟩
  else .finite negative ⟨implicitBit + low, (power : Int) - 1075, low = 0 && power > 1⟩

private def signed (negative : Bool) (text : String) : String :=
  if negative then "-" ++ text else text

def Parts.text (style : Style) : Parts → String
  | .nan => "NaN"
  | .infinite negative => signed negative "inf"
  | .zero negative => signed negative "0.0"
  | .finite negative d => signed negative ((d.shortest style.tie).text style)

/-- The text of a double. -/
def textOf (style : Style) (x : Float) : String := (Parts.ofBits x.toBits).text style

end HeapPressure.Decimal
