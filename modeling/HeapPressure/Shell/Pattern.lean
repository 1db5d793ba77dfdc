import HeapPressure.Text.Utf8

/-!
Patterns of texts: a star for any text, a question mark for any character, and characters or
ranges of them in brackets.
-/
namespace HeapPressure.Shell

inductive Glyph where
  | char (c : Char)
  | any
  | many
  | oneOf (negated : Bool) (members : List (Char × Char)) (classes : List String)

abbrev Pattern := List Glyph

/-- Characters, each with whether it is to be taken as it stands. -/
abbrev Marked := List (Char × Bool)

/-- The bytes of a text, each as a character: patterns are matched byte by byte. -/
def octets (cs : List Char) : List Char :=
  if cs.all fun c => c.toNat < 0x80 then cs
  else (Text.Utf8.encode cs).map fun b => Char.ofNat b.toNat

def ofOctets (cs : List Char) : List Char :=
  if cs.all fun c => c.toNat < 0x80 then cs
  else Text.Utf8.lossy (cs.map fun c => c.toNat.toUInt8)

namespace Glyph

private def inClass (name : String) (c : Char) : Bool :=
  match name with
  | "alpha" => c.isAlpha
  | "digit" => c.isDigit
  | "alnum" => c.isAlphanum
  | "upper" => c.isUpper
  | "lower" => c.isLower
  | "space" => c.isWhitespace || c == '\x0b' || c == '\x0c'
  | "blank" => c == ' ' || c == '\t'
  | "punct" => 0x20 < c.toNat && c.toNat < 0x7F && !c.isAlphanum
  | "xdigit" => c.isDigit || ('a' ≤ c && c ≤ 'f') || ('A' ≤ c && c ≤ 'F')
  | _ => false

def accepts (g : Glyph) (c : Char) : Bool :=
  match g with
  | .char d => c == d
  | .any => true
  | .many => true
  | .oneOf negated members classes =>
    (members.any (fun m => m.1 ≤ c && c ≤ m.2) || classes.any (inClass · c)) != negated

end Glyph

namespace Pattern

/-- The name of a class between colons, and what follows it. -/
private def className? (cs : Marked) : Option (String × Marked) :=
  let name := cs.takeWhile fun c => c.1 != ':'
  match cs.drop name.length with
  | _ :: (']', false) :: rest => some (String.ofList (name.map Prod.fst), rest)
  | _ => none

/-- What stands in brackets, and the rest; a closing bracket in front is a member. -/
private def members : Nat → Bool → Marked → Option ((List (Char × Char) × List String) × Marked)
  | 0, _, _ => none
  | fuel + 1, first, cs =>
    match cs with
    | [] => none
    | (c, solid) :: rest =>
      if c == ']' && !solid && !first then some (([], []), rest)
      else
        let single : Option ((List (Char × Char) × List String) × Marked) := do
          let ((ms, ks), rest) ← members fuel false rest
          pure (((c, c) :: ms, ks), rest)
        match c, rest with
        | '[', (':', false) :: inner =>
          match className? inner with
          | some (k, rest) => do
            let ((ms, ks), rest) ← members fuel false rest
            pure ((ms, k :: ks), rest)
          | none => single
        | _, ('-', false) :: (d, solid) :: rest =>
          if d == ']' && !solid then single
          else do
            let ((ms, ks), rest) ← members fuel false rest
            pure (((c, d) :: ms, ks), rest)
        | _, _ => single

private def bracketed? (cs : Marked) : Option (Glyph × Marked) :=
  let (negated, cs) : Bool × Marked :=
    match cs with
    | ('!', false) :: rest => (true, rest)
    | ('^', false) :: rest => (true, rest)
    | cs => (false, cs)
  (members (cs.length + 1) true cs).map fun r => (.oneOf negated r.1.1 r.1.2, r.2)

def ofMarked : Nat → Marked → Pattern
  | 0, _ => []
  | fuel + 1, cs =>
    match cs with
    | [] => []
    | ('*', false) :: rest => .many :: ofMarked fuel rest
    | ('?', false) :: rest => .any :: ofMarked fuel rest
    | ('[', false) :: rest =>
      match bracketed? rest with
      | some (g, rest) => g :: ofMarked fuel rest
      | none => .char '[' :: ofMarked fuel rest
    | ('\\', false) :: (c, _) :: rest => .char c :: ofMarked fuel rest
    | (c, _) :: rest => .char c :: ofMarked fuel rest

/-- The pattern of bytes that characters make. -/
def read (cs : Marked) : Pattern :=
  let bytes : Marked := cs.flatMap fun c => (octets [c.1]).map fun b => (b, c.2)
  ofMarked (bytes.length + 1) bytes

/-- The ends of a text, the whole first. -/
def ends : List Char → List (List Char)
  | [] => [[]]
  | c :: cs => (c :: cs) :: ends cs

/-- Whether the whole text is of the pattern. -/
def fits : Pattern → List Char → Bool
  | [], cs => cs.isEmpty
  | .many :: ps, cs => (ends cs).any (fits ps)
  | _ :: _, [] => false
  | g :: ps, c :: cs => g.accepts c && fits ps cs

/-- Whether the bytes of a text are of the pattern. -/
def fitsText (p : Pattern) (text : String) : Bool := p.fits (octets text.toList)

/-- The text without the shortest or longest part of the pattern at its front. -/
def cutFront (p : Pattern) (longest : Bool) (text : String) : List Char :=
  let cs := octets text.toList
  let lengths := List.range (cs.length + 1)
  let lengths := if longest then lengths.reverse else lengths
  match lengths.find? fun n => p.fits (cs.take n) with
  | some n => ofOctets (cs.drop n)
  | none => text.toList

/-- The text without the shortest or longest part of the pattern at its back. -/
def cutBack (p : Pattern) (longest : Bool) (text : String) : List Char :=
  let cs := octets text.toList
  let lengths := List.range (cs.length + 1)
  let lengths := if longest then lengths else lengths.reverse
  match lengths.find? fun n => p.fits (cs.drop n) with
  | some n => ofOctets (cs.take n)
  | none => text.toList

end Pattern
end HeapPressure.Shell
