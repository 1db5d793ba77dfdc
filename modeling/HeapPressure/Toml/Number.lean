import HeapPressure.Decimal.Nearest
import HeapPressure.Toml.Value
import HeapPressure.Toml.Lexis

/-!
Numbers, dates and times of TOML. Once a text has begun like a date or a time it has to be one.
-/
namespace HeapPressure.Toml

open HeapPressure.Text (hexValue?)

def isDigit (c : Char) : Bool := '0' ≤ c && c ≤ '9'

def digitValue (c : Char) : Nat := (hexValue? c).getD 0

def natOf (base : Nat) (digits : List Char) : Nat :=
  digits.foldl (fun n d => n * base + digitValue d) 0

/-- Digits behind a first one; an underscore stands between two digits. -/
def moreDigits (isDigit : Char → Bool) : List Char → Option (List Char × List Char)
  | [] => some ([], [])
  | '_' :: c :: cs =>
    if isDigit c then (moreDigits isDigit cs).map fun r => (c :: r.1, r.2) else none
  | c :: cs =>
    if isDigit c then (moreDigits isDigit cs).map fun r => (c :: r.1, r.2)
    else if c == '_' then none
    else some ([], c :: cs)

/-- One digit or more. -/
def digits (isDigit : Char → Bool) : List Char → Option (List Char × List Char)
  | [] => none
  | c :: cs =>
    if isDigit c then (moreDigits isDigit cs).map fun r => (c :: r.1, r.2) else none

def sign : List Char → Bool × List Char
  | '+' :: cs => (false, cs)
  | '-' :: cs => (true, cs)
  | cs => (false, cs)

/-- The digits of a decimal integer. A zero in front stands alone. -/
def decimalDigits : List Char → Option (List Char × List Char)
  | '0' :: cs => some (['0'], cs)
  | cs => digits isDigit cs

/-- Integers have 64 bits and a sign. -/
def integer? (n : Int) : Option Scalar :=
  if -0x8000000000000000 ≤ n ∧ n < 0x8000000000000000 then some (.integer n) else none

private def radix (base : Nat) (isDigit : Char → Bool) (cs : List Char) :
    Option (Scalar × List Char) := do
  let (ds, rest) ← digits isDigit cs
  pure (← integer? (natOf base ds), rest)

def isHexDigit (c : Char) : Bool := (hexValue? c).isSome

def isOctalDigit (c : Char) : Bool := '0' ≤ c && c ≤ '7'

def isBinaryDigit (c : Char) : Bool := c == '0' || c == '1'

def integer : List Char → Option (Scalar × List Char)
  | '0' :: 'x' :: cs => radix 16 isHexDigit cs
  | '0' :: 'o' :: cs => radix 8 isOctalDigit cs
  | '0' :: 'b' :: cs => radix 2 isBinaryDigit cs
  | cs => do
    let (negative, cs) := sign cs
    let (ds, rest) ← decimalDigits cs
    let n : Int := natOf 10 ds
    pure (← integer? (if negative then -n else n), rest)

/-- Whatever the base, an integer has 64 bits. -/
theorem integer_eq_some {cs rest : List Char} {v : Scalar} (h : integer cs = some (v, rest)) :
    ∃ n, integer? n = some v := by
  have hradix {base : Nat} {p : Char → Bool} {ds : List Char}
      (hr : radix base p ds = some (v, rest)) : ∃ n, integer? n = some v := by
    simp only [radix, Option.bind_eq_bind, Option.bind_eq_some_iff] at hr
    obtain ⟨r, -, w, hw, he⟩ := hr
    cases he
    exact ⟨_, hw⟩
  unfold integer at h
  split at h
  · exact hradix h
  · exact hradix h
  · exact hradix h
  · simp only [Option.bind_eq_bind, Option.bind_eq_some_iff] at h
    obtain ⟨r, -, w, hw, he⟩ := h
    cases he
    exact ⟨_, hw⟩

def exponentPart : List Char → Option (Option Int × List Char)
  | c :: cs =>
    if c == 'e' || c == 'E' then do
      let (negative, cs) := sign cs
      let (ds, rest) ← digits isDigit cs
      let n : Int := natOf 10 ds
      pure (some (if negative then -n else n), rest)
    else some (none, c :: cs)
  | [] => some (none, [])

def fractionPart : List Char → Option (Option (List Char) × List Char)
  | '.' :: cs => (digits isDigit cs).map fun r => (some r.1, r.2)
  | cs => some (none, cs)

/-- What a scanner makes of the front of a text: it is of another kind, or it is of this kind
and ill-formed, or it is read. -/
inductive Attempt where
  | other
  | illFormed
  | found (v : Scalar) (rest : List Char)

/-- A number too large upwards is ill-formed, one too large downwards is minus infinity. -/
def float (cs : List Char) : Attempt :=
  let (negative, unsigned) := sign cs
  match unsigned with
  | 'i' :: 'n' :: 'f' :: rest =>
    let infinity : Float := 1.0 / 0.0
    .found (.float (if negative then -infinity else infinity)) rest
  | 'n' :: 'a' :: 'n' :: rest => .found (.float (0.0 / 0.0)) rest
  | _ =>
    match decimalDigits unsigned with
    | none => .other
    | some (whole, rest) =>
      match fractionPart rest with
      | none => .illFormed
      | some (fraction, rest) =>
        match exponentPart rest with
        | none => .illFormed
        | some (none, rest) =>
          if fraction.isNone then .other else value negative whole fraction 0 rest
        | some (some e, rest) => value negative whole fraction e rest
where
  value (negative : Bool) (whole : List Char) (fraction : Option (List Char)) (e : Int)
      (rest : List Char) : Attempt :=
    let behind := fraction.getD []
    let x := Decimal.nearestDouble (natOf 10 (whole ++ behind)) (e - behind.length)
    let x := if negative then -x else x
    if x.isInf && !negative then .illFormed else .found (.float x) rest

def twoDigits (low high : Nat) : List Char → Option (Nat × List Char)
  | a :: b :: cs =>
    if isDigit a && isDigit b then
      let n := natOf 10 [a, b]
      if low ≤ n ∧ n ≤ high then some (n, cs) else none
    else none
  | _ => none

def expect (c : Char) : List Char → Option (List Char)
  | d :: cs => if c == d then some cs else none
  | [] => none

def daysIn (year month : Nat) : Nat :=
  if month = 2 then
    if (year % 4 = 0 ∧ year % 100 ≠ 0) ∨ year % 400 = 0 then 29 else 28
  else if month = 4 ∨ month = 6 ∨ month = 9 ∨ month = 11 then 30
  else 31

private def fractionOfSecond : List Char → List Char
  | '.' :: c :: cs => if isDigit c then cs.dropWhile isDigit else '.' :: c :: cs
  | cs => cs

/-- Minutes and seconds, behind the hour and its colon. -/
private def minutesAndSeconds (cs : List Char) : Option (List Char) := do
  let (_, cs) ← twoDigits 0 59 cs
  let cs ← expect ':' cs
  let (_, cs) ← twoDigits 0 60 cs
  pure (fractionOfSecond cs)

/-- The text behind an hour and its colon, which begin a time of day. -/
def hour? (cs : List Char) : Option (List Char) := do
  let (_, cs) ← twoDigits 0 23 cs
  expect ':' cs

private def offset? : List Char → Option (List Char)
  | 'Z' :: cs => some cs
  | 'z' :: cs => some cs
  | c :: cs =>
    if c == '+' || c == '-' then do
      let cs ← hour? cs
      let (_, cs) ← twoDigits 0 59 cs
      pure cs
    else some (c :: cs)
  | [] => some []

/-- The time of day behind a date, if there is one. -/
private def timeAfterDate : List Char → Option (List Char)
  | c :: cs =>
    if c == 'T' || c == 't' || c == ' ' then
      match hour? cs with
      | some cs => do offset? (← minutesAndSeconds cs)
      | none => some (c :: cs)
    else some (c :: cs)
  | [] => some []

private def monthAndDay (year : Nat) (cs : List Char) : Option (List Char) := do
  let (month, cs) ← twoDigits 1 12 cs
  let cs ← expect '-' cs
  let (_, cs) ← twoDigits 1 (daysIn year month) cs
  timeAfterDate cs

def moment (cs : List Char) : Attempt :=
  let done : Option (List Char) → Attempt
    | some rest => .found .moment rest
    | none => .illFormed
  match cs with
  | a :: b :: c :: d :: '-' :: rest =>
    if [a, b, c, d].all isDigit then done (monthAndDay (natOf 10 [a, b, c, d]) rest) else .other
  | _ =>
    match hour? cs with
    | some rest => done (minutesAndSeconds rest)
    | none => .other

/-- A date, a time, a float or an integer, tried in this order. -/
def number (cs : List Char) : Option (Scalar × List Char) :=
  match moment cs with
  | .found v rest => some (v, rest)
  | .illFormed => none
  | .other =>
    match float cs with
    | .found v rest => some (v, rest)
    | .illFormed => none
    | .other => integer cs

end HeapPressure.Toml
