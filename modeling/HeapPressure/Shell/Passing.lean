import HeapPressure.Shell.State

/-!
What commands do that pass bytes on: the first so many bytes or lines, other bytes for some, and
counts.
-/
namespace HeapPressure.Shell.Passing

/-- The bytes up to the end of the line with number `n`. -/
def firstLines : Nat → List UInt8 → List UInt8
  | 0, _ => []
  | _ + 1, [] => []
  | n + 1, b :: bs => if b = 10 then b :: firstLines n bs else b :: firstLines (n + 1) bs

/-- The lines without their ends. -/
def linesOf : List UInt8 → List (List UInt8)
  | [] => []
  | b :: bs =>
    if b = 10 then [] :: linesOf bs
    else
      match bs, linesOf bs with
      | [], _ => [[b]]
      | _, l :: ls => (b :: l) :: ls
      | _, [] => [[b]]

def joinLines (ls : List (List UInt8)) : List UInt8 := ls.flatMap fun l => l ++ [10]

def lastLines (n : Nat) (bs : List UInt8) : List UInt8 :=
  let ls := linesOf bs
  let bytes := joinLines (ls.drop (ls.length - n))
  if bs.getLast? == some 10 then bytes else bytes.dropLast

private def valueOf (l : List UInt8) : Int :=
  let l := l.dropWhile (· == 32)
  let digits (l : List UInt8) : Nat :=
    (l.takeWhile fun b => 48 ≤ b && b ≤ 57).foldl (fun n b => n * 10 + (b.toNat - 48)) 0
  match l with
  | 45 :: l => -(digits l : Int)
  | l => digits l

/-- Lines in order, by their bytes or by the numbers they begin with. -/
def sortLines (byNumber : Bool) (ls : List (List UInt8)) : List (List UInt8) :=
  ls.mergeSort fun a b =>
    if byNumber && valueOf a != valueOf b then valueOf a < valueOf b else !(b < a)

def withoutRepeats : List (List UInt8) → List (List UInt8)
  | [] => []
  | [l] => [l]
  | a :: b :: ls => if a == b then withoutRepeats (b :: ls) else a :: withoutRepeats (b :: ls)

def countLines (bs : List UInt8) : Nat := bs.countP (· == 10)

private def isBlank (b : UInt8) : Bool := b == 32 || (9 ≤ b && b ≤ 13)

private def countWordsFrom : Bool → List UInt8 → Nat
  | _, [] => 0
  | inside, b :: bs =>
    if isBlank b then countWordsFrom false bs
    else countWordsFrom true bs + (if inside then 0 else 1)

def countWords (bs : List UInt8) : Nat := countWordsFrom false bs

private def byteOf (digits : List Char) : UInt8 :=
  digits.foldl (fun n d => n * 8 + (d.toNat - 48).toUInt8) 0

/-- A set of bytes by its characters: escapes and ranges worked out. -/
def byteSet : Nat → List Char → List UInt8
  | 0, _ => []
  | fuel + 1, cs =>
    match cs with
    | [] => []
    | '\\' :: 'n' :: rest => 10 :: byteSet fuel rest
    | '\\' :: 't' :: rest => 9 :: byteSet fuel rest
    | '\\' :: '\\' :: rest => 92 :: byteSet fuel rest
    | '\\' :: rest =>
      let digits := (rest.take 3).takeWhile Char.isDigit
      if digits.isEmpty then 92 :: byteSet fuel rest
      else byteOf digits :: byteSet fuel (rest.drop digits.length)
    | a :: '-' :: b :: rest =>
      if a.toNat < 128 && b.toNat < 128 && a ≤ b then
        (List.range (b.toNat - a.toNat + 1)).map (fun i => (a.toNat + i).toUInt8)
          ++ byteSet fuel rest
      else Text.Utf8.encodeChar a ++ byteSet fuel ('-' :: b :: rest)
    | c :: rest => Text.Utf8.encodeChar c ++ byteSet fuel rest

def setOf (s : String) : List UInt8 := byteSet (s.length + 1) s.toList

/-- Puts for each byte of the first set the one in its place in the second, whose last byte
stands for all that are missing. -/
def exchange (source target : List UInt8) (bs : List UInt8) : List UInt8 :=
  bs.map fun b =>
    match source.findIdx? (· == b) with
    | some i => (target[i]?).getD ((target.getLast?).getD b)
    | none => b

def delete (source : List UInt8) (bs : List UInt8) : List UInt8 :=
  bs.filter fun b => !source.contains b

end HeapPressure.Shell.Passing
