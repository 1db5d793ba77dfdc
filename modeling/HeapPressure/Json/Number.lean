import HeapPressure.Decimal.Shortest
import HeapPressure.Document.Problem

/-!
Number literals of JSON, and what a reader takes them for: integers of 64 bits, or else
doubles. A literal that is not an integer is worked out digit by digit in one machine word and
one power of ten, so the double may differ from the nearest one in its last place.
-/
namespace HeapPressure.Json

/-- A literal as it is written; `fraction` holds the digits behind the point. -/
structure Number where
  negative : Bool
  whole : Nat
  fraction : List Nat := []
  exponent : Option Int := none
deriving DecidableEq

/-- What a literal stands for. -/
inductive Reading where
  | natural (n : Nat)
  | negative (n : Int)
  | real (x : Float)
  | tooLarge

namespace Number

/-- A literal that stands for a 64-bit integer: no fraction, no exponent, and not `-0`. -/
def integer? (n : Number) : Option Int :=
  if n.fraction.isEmpty && n.exponent.isNone then
    if n.negative then
      if 0 < n.whole ∧ n.whole ≤ 0x8000000000000000 then some (-n.whole) else none
    else if n.whole < 0x10000000000000000 then some n.whole else none
  else none

private def wordBound : Nat := 0x10000000000000000

/-- Takes digits into the word while they fit; the rest is counted, not read. -/
private def takeDigits (word : Nat) : List Nat → Nat × Nat
  | [] => (word, 0)
  | d :: ds =>
    if word * 10 + d < wordBound then takeDigits (word * 10 + d) ds else (word, (d :: ds).length)

/-- The word and the power of ten that the digits give. -/
private def scaled (n : Number) : Nat × Int :=
  let digits := (Nat.toDigits 10 n.whole).map fun c => c.toNat - 48
  let (word, dropped) := takeDigits 0 digits
  let (word', unread) := takeDigits word n.fraction
  (word', (dropped : Int) - (n.fraction.length - unread : Nat))

private def powerOfTen (k : Nat) : Float := Float.ofScientific 1 false k

/-- Multiplies by a power of ten; `none` when the result is too large. -/
private def shift (x : Float) : Nat → Int → Option Float
  | 0, _ => some x
  | more + 1, e =>
    if e.natAbs ≤ 308 then
      if e ≥ 0 then
        let y := x * powerOfTen e.natAbs
        if y.isInf then none else some y
      else some (x / powerOfTen e.natAbs)
    else if x == 0.0 then some x
    else if e ≥ 0 then none
    else shift (x / powerOfTen 308) more (e + 308)

private def signed (n : Number) (x : Float) : Float := if n.negative then -x else x

/-- Exponents this large are not added up. -/
private def exponentBound : Nat := 0x80000000

private def real (n : Number) : Reading :=
  let (word, power) := n.scaled
  let given := n.exponent.getD 0
  if given.natAbs ≥ exponentBound then
    if word != 0 && given > 0 then .tooLarge else .real (n.signed 0.0)
  else
    let e := power + given
    match shift word.toUInt64.toFloat (e.natAbs / 308 + 1) e with
    | some x => .real (n.signed x)
    | none => .tooLarge

def reading (n : Number) : Reading :=
  match n.integer? with
  | some (.ofNat k) => .natural k
  | some (.negSucc k) => .negative (.negSucc k)
  | none => n.real

end Number

namespace Reading

def found? : Reading → Option Document.Found
  | .natural n => some (.integer n)
  | .negative n => some (.integer n)
  | .real x => some (.real (Decimal.textOf .document x))
  | .tooLarge => none

end Reading
end HeapPressure.Json
