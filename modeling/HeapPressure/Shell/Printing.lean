import HeapPressure.Decimal.Nearest
import HeapPressure.Decimal.Places
import HeapPressure.Shell.Arithmetic
import HeapPressure.Text.Hexadecimal
import HeapPressure.Text.Utf8

/-!
What the printing commands write: escapes behind backslashes, and formats with directives that
take their arguments in turn.
-/
namespace HeapPressure.Shell.Printing

/-- Bytes, and whether the text goes on behind them. -/
structure Printed where
  bytes : List UInt8
  goesOn : Bool := true

private def isOctal (c : Char) : Bool := '0' ≤ c && c ≤ '7'

private def octalByte (digits : List Char) : UInt8 :=
  digits.foldl (fun n d => n * 8 + (d.toNat - 48).toUInt8) 0

private def simpleEscape? (c : Char) : Option UInt8 :=
  match c with
  | 'a' => some 7
  | 'b' => some 8
  | 'f' => some 12
  | 'n' => some 10
  | 'r' => some 13
  | 't' => some 9
  | 'v' => some 11
  | '\\' => some 92
  | _ => none

/-- What stands behind a backslash: the bytes it makes, and the rest. In the `wide` dialect three
octal digits may follow a zero. -/
def escape (wide : Bool) (cs : List Char) : List UInt8 × List Char :=
  match cs with
  | [] => ([92], [])
  | c :: rest =>
    if isOctal c then
      let cs := if wide && c == '0' && (rest.head?.any isOctal) then rest else cs
      let digits := (cs.take 3).takeWhile isOctal
      ([octalByte digits], cs.drop digits.length)
    else
      match simpleEscape? c with
      | some b => ([b], rest)
      | none => ([92], cs)

/-- A byte of one or two hexadecimal digits, and the rest. -/
def hexByte? : List Char → Option (UInt8 × List Char)
  | [] => none
  | c :: rest =>
    (Text.hexValue? c).map fun high =>
      match rest with
      | d :: behind =>
        match Text.hexValue? d with
        | some low => ((high * 16 + low).toUInt8, behind)
        | none => (high.toUInt8, rest)
      | [] => (high.toUInt8, [])

/-- As `escape` in the wide dialect, with two escapes more: `\e`, and `\x` in front of a
hexadecimal byte. -/
def richEscape : List Char → List UInt8 × List Char
  | 'e' :: rest => ([27], rest)
  | 'x' :: rest => (hexByte? rest).elim ([92], 'x' :: rest) fun (b, rest) => ([b], rest)
  | cs => escape true cs

/-- A text with escapes, each worked out by `one`; `\c` ends all output. -/
def escaped (one : List Char → List UInt8 × List Char) : Nat → List Char → Printed
  | 0, _ => ⟨[], true⟩
  | fuel + 1, cs =>
    match cs with
    | [] => ⟨[], true⟩
    | '\\' :: 'c' :: _ => ⟨[], false⟩
    | '\\' :: rest =>
      let (bytes, rest) := one rest
      let p := escaped one fuel rest
      ⟨bytes ++ p.bytes, p.goesOn⟩
    | c :: rest =>
      let p := escaped one fuel rest
      ⟨Text.Utf8.encodeChar c ++ p.bytes, p.goesOn⟩

def withEscapes (cs : List Char) : Printed := escaped (escape true) (cs.length + 1) cs

def withRichEscapes (cs : List Char) : Printed := escaped richEscape (cs.length + 1) cs

/-- Prints words with blanks between them, escapes worked out, and a newline unless the first
word asks for none. -/
def echo (words : List String) : List UInt8 :=
  let (words, newline) :=
    match words with
    | "-n" :: rest => (rest, false)
    | words => (words, true)
  let p := withEscapes (" ".intercalate words).toList
  p.bytes ++ (if newline && p.goesOn then [10] else [])

/-- As `echo`, but escapes are left alone unless an option asks for them. -/
def plainEcho (newline escapes : Bool) : List String → List UInt8
  | word :: rest =>
    match word.toList with
    | '-' :: c :: cs =>
      if (c :: cs).all fun c => c == 'n' || c == 'e' || c == 'E' then
        let escapes := (c :: cs).foldl
          (fun e c => if c == 'e' then true else if c == 'E' then false else e) escapes
        plainEcho (newline && !(c :: cs).contains 'n') escapes rest
      else print (word :: rest)
    | _ => print (word :: rest)
  | [] => print []
where
  print (words : List String) : List UInt8 :=
    let text := (" ".intercalate words).toList
    let p := if escapes then withRichEscapes text else ⟨Text.Utf8.encode text, true⟩
    p.bytes ++ (if newline && p.goesOn then [10] else [])

/-- A width or a precision: given in the format, or taken from the arguments. -/
inductive Measure where
  | given (n : Nat)
  | argument

structure Directive where
  left : Bool
  zero : Bool
  /-- Whether numbers are written in full: with the mark of their base, or with their point. -/
  full : Bool
  /-- What stands in front of a number that is not negative. -/
  sign : String
  width : Nat
  precision : Option Nat
  conversion : Char

private def count (digits : List Char) : Nat :=
  digits.foldl (fun n d => n * 10 + (d.toNat - 48)) 0

private def measure : List Char → Measure × List Char
  | '*' :: cs => (.argument, cs)
  | cs =>
    let digits := cs.takeWhile Char.isDigit
    (.given (count digits), cs.drop digits.length)

/-- No output is ever as wide. -/
def widest : Nat := 0x100000

def padded (d : Directive) (filler : UInt8) (bytes : List UInt8) : List UInt8 :=
  let missing := min d.width widest - bytes.length
  if d.left then bytes ++ List.replicate missing 32 else List.replicate missing filler ++ bytes

def ascii (s : String) : List UInt8 := s.toList.map fun c => c.toNat.toUInt8

/-- The number of the character behind a quote. -/
private def quoted? (arg : String) : Option Nat :=
  match arg.toList with
  | c :: cs =>
    if c == '\'' || c == '\"' then
      some (((Text.Utf8.encode cs).head?.map UInt8.toNat).getD 0)
    else none
  | [] => none

/-- What is wrong with an argument of which `rest` was not read as a number. -/
private def complaint? (arg : String) (rest : List Char) (inRange : Bool) : Option String :=
  if rest.isEmpty then if inRange then none else some (arg ++ ": Numerical result out of range")
  else if rest.length == arg.length then some (arg ++ ": expected numeric value")
  else some (arg ++ ": not completely converted")

private def signOf (cs : List Char) : Bool × List Char :=
  match cs with
  | '-' :: cs => (true, cs)
  | '+' :: cs => (false, cs)
  | cs => (false, cs)

/-- The integer that an argument begins with, and what is wrong if it is not just that. It lies
within the bounds. -/
def integerOf (low high : Int) (arg : String) : Int × Option String :=
  match quoted? arg with
  | some n => (n, none)
  | none =>
    let (negative, cs) := signOf (arg.toList.dropWhile Arithmetic.isSpace)
    let (n, rest) := Arithmetic.numeral cs
    if rest.length == cs.length then (0, complaint? arg arg.toList true)
    else
      let value : Int := if negative then -(n : Int) else n
      let kept := max low (min high value)
      (kept, complaint? arg rest (kept == value))

private def exponentOf (mark : Char) (cs : List Char) : Int × List Char :=
  match cs with
  | c :: behind =>
    let (negative, behind) := signOf behind
    let digits := behind.takeWhile Char.isDigit
    if c.toLower != mark || digits.isEmpty then (0, cs)
    else (if negative then -(count digits : Int) else count digits, behind.drop digits.length)
  | [] => (0, [])

/-- The double that an unsigned text begins with, whether it is in range, and the rest. -/
private def unsignedReal? (cs : List Char) : Option (Float × Bool × List Char) :=
  let begins (word : String) : Bool :=
    word.toList.isPrefixOf ((cs.take word.length).map Char.toLower)
  let digits (isDigit : Char → Bool) (cs : List Char) : List Char × List Char × List Char :=
    let whole := cs.takeWhile isDigit
    match cs.drop whole.length with
    | '.' :: behind =>
      let fraction := behind.takeWhile isDigit
      if whole.isEmpty && fraction.isEmpty then ([], [], cs)
      else (whole, fraction, behind.drop fraction.length)
    | behind => (whole, [], behind)
  let inHex := digits (fun c => (Text.hexValue? c).isSome) (cs.drop 2)
  if begins "infinity" then some (1.0 / 0.0, true, cs.drop 8)
  else if begins "inf" then some (1.0 / 0.0, true, cs.drop 3)
  else if begins "nan" then some (0.0 / 0.0, true, cs.drop 3)
  else if begins "0x" && !(inHex.1.isEmpty && inHex.2.1.isEmpty) then
    let (whole, fraction, rest) := inHex
    let (e, rest) := exponentOf 'p' rest
    let n := (whole ++ fraction).foldl (fun n c => n * 16 + (Text.hexValue? c).getD 0) 0
    let e := max (-5000) (min 5000 (e - 4 * fraction.length))
    let x :=
      if e < 0 then Decimal.nearestDouble (n * Nat.pow 5 e.natAbs) e
      else Decimal.nearestDouble (n * Nat.pow 2 e.natAbs) 0
    some (x, !x.isInf && (n == 0 || x != 0.0), rest)
  else
    let (whole, fraction, rest) := digits Char.isDigit cs
    if whole.isEmpty && fraction.isEmpty then none
    else
      let (e, rest) := exponentOf 'e' rest
      let n := count (whole ++ fraction)
      let x := Decimal.nearestDouble n (e - fraction.length)
      some (x, !x.isInf && (n == 0 || x != 0.0), rest)

/-- As `integerOf`, for doubles; with the sign and the size apart. -/
def realOf (arg : String) : (Bool × Float) × Option String :=
  match quoted? arg with
  | some n => ((false, n.toUInt64.toFloat), none)
  | none =>
    let (negative, cs) := signOf (arg.toList.dropWhile Arithmetic.isSpace)
    match unsignedReal? cs with
    | none => ((false, 0.0), complaint? arg arg.toList true)
    | some (x, inRange, rest) => ((negative, x), complaint? arg rest inRange)

/-- The digits of a number, at least as many as the precision asks for. -/
private def leadingZeros (d : Directive) (digits : String) : String :=
  match d.precision with
  | some p =>
    if p == 0 && digits == "0" then ""
    else String.ofList (List.replicate (min p widest - digits.length) '0') ++ digits
  | none => digits

/-- The bytes of a number: zeros fill up behind the sign, if they may. -/
def numberBytes (d : Directive) (zeros : Bool) (sign digits : String) : List UInt8 :=
  if d.zero && !d.left && zeros then
    let missing := min d.width widest - (sign.length + digits.length)
    ascii (sign ++ String.ofList (List.replicate missing '0') ++ digits)
  else padded d 32 (ascii (sign ++ digits))

/-- The bytes of a double. -/
def realBytes (d : Directive) (form : Decimal.Form) (negative : Bool) (x : Float) :
    List UInt8 :=
  let places := min (d.precision.getD 6) widest
  let (finite, text) : Bool × String :=
    match Decimal.Parts.ofBits x.toBits with
    | .nan => (false, "nan")
    | .infinite _ => (false, "inf")
    | .zero _ => (true, Decimal.Dyadic.textIn form places d.full ⟨0, 0, false⟩)
    | .finite _ m => (true, m.textIn form places d.full)
  numberBytes d finite (if negative then "-" else d.sign)
    (if d.conversion.isUpper then text.toUpper else text)

/-- The bytes of a directive for its argument, and what is wrong with the argument. -/
def convert (d : Directive) (arg : String) : Option (Printed × Option String) :=
  let whole (sign digits : String) : Printed :=
    ⟨numberBytes d d.precision.isNone sign (leadingZeros d digits), true⟩
  let signed : Option (Printed × Option String) :=
    let (n, complaint) := integerOf (-0x8000000000000000) 0x7FFFFFFFFFFFFFFF arg
    some (whole (if n < 0 then "-" else d.sign) (toString n.natAbs), complaint)
  let inBase (base : Nat) (mark : String) : Option (Printed × Option String) :=
    let (n, complaint) := integerOf (-0xFFFFFFFFFFFFFFFF) 0xFFFFFFFFFFFFFFFF arg
    let n := (n % (0x10000000000000000 : Int)).toNat
    let digits := String.ofList (Nat.toDigits base n)
    let digits := if d.conversion == 'X' then digits.toUpper else digits
    some (whole (if d.full && n != 0 then mark else "") digits, complaint)
  let real (form : Decimal.Form) : Option (Printed × Option String) :=
    let ((negative, x), complaint) := realOf arg
    some (⟨realBytes d form negative x, true⟩, complaint)
  let cut (bytes : List UInt8) : List UInt8 := (d.precision.map bytes.take).getD bytes
  match d.conversion with
  | 's' => some (⟨padded d 32 (cut (Text.Utf8.encode arg.toList)), true⟩, none)
  | 'b' =>
    let p := withEscapes arg.toList
    some (⟨padded d 32 (cut p.bytes), p.goesOn⟩, none)
  | 'c' => some (⟨padded d 32 [(Text.Utf8.encode arg.toList).headD 0], true⟩, none)
  | 'd' | 'i' => signed
  | 'u' => inBase 10 ""
  | 'o' => inBase 8 "0"
  | 'x' => inBase 16 "0x"
  | 'X' => inBase 16 "0X"
  | 'f' | 'F' => real .positional
  | 'e' | 'E' => real .exponential
  | 'g' | 'G' => real .suited
  | _ => none

/-- One pass over a format. -/
structure Pass where
  bytes : List UInt8 := []
  args : List String
  /-- Whether an argument was taken. -/
  took : Bool := false
  goesOn : Bool := true
  /-- Whether the format itself is wrong. -/
  broken : Bool := false
  /-- What was wrong, the last first. -/
  complaints : List String := []

/-- Takes the next argument. -/
private def Pass.take (p : Pass) : String × Pass :=
  (p.args.head?.getD "", { p with args := p.args.tail, took := true })

private def Pass.breakOff (complaint : String) (p : Pass) : Pass :=
  { p with goesOn := false, broken := true, complaints := complaint :: p.complaints }

private def Pass.measure (p : Pass) : Measure → Int × Pass
  | .given n => (n, p)
  | .argument =>
    let (arg, p) := p.take
    let (n, complaint) := integerOf (-0x8000000000000000) 0x7FFFFFFFFFFFFFFF arg
    (n, { p with complaints := complaint.toList ++ p.complaints })

/-- A directive behind its percent sign, and what follows it. -/
def directive? (cs : List Char) (p : Pass) : Option (Directive × List Char × Pass) :=
  let flags := cs.takeWhile fun c => c == '-' || c == '0' || c == '+' || c == ' ' || c == '#'
  let (width, cs) := measure (cs.drop flags.length)
  let (precision, cs) : Option Measure × List Char :=
    match cs with
    | '.' :: cs => ((measure cs).map some id)
    | cs => (none, cs)
  let sign := if flags.contains '+' then "+" else if flags.contains ' ' then " " else ""
  let (width, p) := p.measure width
  let (precision, p) : Option Int × Pass :=
    match precision with
    | some m => (p.measure m).map some id
    | none => (none, p)
  match cs with
  | [] => none
  | c :: cs =>
    let d : Directive := {
      left := flags.contains '-' || width < 0
      zero := flags.contains '0'
      full := flags.contains '#'
      sign
      width := width.natAbs
      precision := precision.bind fun n => if n < 0 then none else some n.toNat
      conversion := c }
    some (d, cs, p)

def pass : Nat → List Char → Pass → Pass
  | 0, _, p => p
  | fuel + 1, cs, p =>
    match cs with
    | [] => p
    | '%' :: '%' :: rest => pass fuel rest { p with bytes := p.bytes ++ [37] }
    | '%' :: rest =>
      match directive? rest p with
      | none => p.breakOff "missing format character"
      | some (d, behind, p) =>
        let (arg, p) := p.take
        match convert d arg with
        | none =>
          let text := String.ofList ('%' :: rest.take (rest.length - behind.length))
          p.breakOff (text ++ ": invalid directive")
        | some (printed, complaint) =>
          let p := { p with
            bytes := p.bytes ++ printed.bytes
            goesOn := printed.goesOn
            complaints := complaint.toList ++ p.complaints }
          if p.goesOn then pass fuel behind p else p
    | '\\' :: rest =>
      let (bytes, rest) := escape false rest
      pass fuel rest { p with bytes := p.bytes ++ bytes }
    | c :: rest => pass fuel rest { p with bytes := p.bytes ++ Text.Utf8.encodeChar c }

/-- Passes over the format while arguments are left. -/
def passes (format : List Char) : Nat → Pass → Pass
  | 0, p => p
  | fuel + 1, p =>
    let p := pass (format.length + 1) format { p with took := false }
    if p.took && p.goesOn && !p.args.isEmpty then passes format fuel p else p

/-- What a format writes for its arguments. -/
def printf (format : String) (args : List String) : Pass :=
  passes format.toList (args.length + 1) { args }

end HeapPressure.Shell.Printing
