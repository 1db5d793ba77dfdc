/-!
UTF-8, one byte at a time. The decoder owes at any moment a number of continuation bytes, the
next of which lies in a range that the bytes before it fix. Each maximal run of bytes that
begins a character and does not finish it, and each byte that begins none, reads as one
replacement character.
-/
namespace HeapPressure.Text.Utf8

/-- A character begun: `more + 1` bytes are owed, the next between `low` and `high`; `code` is
what the bytes so far spell. -/
structure Owed where
  more : Nat
  low : UInt8
  high : UInt8
  code : Nat
deriving DecidableEq

/-- What a byte means where a character begins. -/
inductive Lead where
  | whole (c : Char)
  | begins (o : Owed)
  | stray
deriving DecidableEq

/-- Overlong forms, surrogates and codes past the last character are ruled out by the range of
the second byte. -/
def lead (b : UInt8) : Lead :=
  if b < 0x80 then .whole (Char.ofNat b.toNat)
  else if b < 0xC2 then .stray
  else if b < 0xE0 then .begins ⟨0, 0x80, 0xBF, b.toNat - 0xC0⟩
  else if b < 0xF0 then
    .begins ⟨1, if b = 0xE0 then 0xA0 else 0x80, if b = 0xED then 0x9F else 0xBF, b.toNat - 0xE0⟩
  else if b < 0xF5 then
    .begins ⟨2, if b = 0xF0 then 0x90 else 0x80, if b = 0xF4 then 0x8F else 0xBF, b.toNat - 0xF0⟩
  else .stray

def Owed.admits (o : Owed) (b : UInt8) : Bool := o.low ≤ b && b ≤ o.high

/-- The state after a continuation byte: a character, or fewer bytes owed. -/
def Owed.push (o : Owed) (b : UInt8) : Char ⊕ Owed :=
  let code := o.code * 64 + (b.toNat - 0x80)
  match o.more with
  | 0 => .inl (Char.ofNat code)
  | more + 1 => .inr ⟨more, 0x80, 0xBF, code⟩

def replacement : Char := '\uFFFD'

/-- A byte at the start of a character: what it yields, and what is owed after it. -/
def start (b : UInt8) : List Char × Option Owed :=
  match lead b with
  | .whole c => ([c], none)
  | .begins o => ([], some o)
  | .stray => ([replacement], none)

/-- A byte after `owed`. -/
def next (owed : Option Owed) (b : UInt8) : List Char × Option Owed :=
  match owed with
  | none => start b
  | some o =>
    if o.admits b then
      match o.push b with
      | .inl c => ([c], none)
      | .inr o' => ([], some o')
    else
      let (cs, o') := start b
      (replacement :: cs, o')

def lossyFrom (owed : Option Owed) : List UInt8 → List Char
  | [] => if owed.isSome then [replacement] else []
  | b :: bs =>
    let (cs, owed') := next owed b
    cs ++ lossyFrom owed' bs

/-- Reads any bytes. -/
def lossy (bytes : List UInt8) : List Char := lossyFrom none bytes

def strictFrom (owed : Option Owed) : List UInt8 → Option (List Char)
  | [] => if owed.isSome then none else some []
  | b :: bs =>
    match owed with
    | none =>
      match lead b with
      | .whole c => (strictFrom none bs).map (c :: ·)
      | .begins o => strictFrom (some o) bs
      | .stray => none
    | some o =>
      if o.admits b then
        match o.push b with
        | .inl c => (strictFrom none bs).map (c :: ·)
        | .inr o' => strictFrom (some o') bs
      else none

/-- Reads valid UTF-8 only. -/
def strict? (bytes : List UInt8) : Option (List Char) := strictFrom none bytes

def encodeChar (c : Char) : List UInt8 :=
  let n := c.toNat
  if n < 0x80 then [n.toUInt8]
  else if n < 0x800 then [(0xC0 + n / 64).toUInt8, (0x80 + n % 64).toUInt8]
  else if n < 0x10000 then
    [(0xE0 + n / 4096).toUInt8, (0x80 + n / 64 % 64).toUInt8, (0x80 + n % 64).toUInt8]
  else
    [(0xF0 + n / 262144).toUInt8, (0x80 + n / 4096 % 64).toUInt8, (0x80 + n / 64 % 64).toUInt8,
      (0x80 + n % 64).toUInt8]

def encode (cs : List Char) : List UInt8 := cs.flatMap encodeChar

/-- The number of bytes of a character. -/
def width (c : Char) : Nat := (encodeChar c).length

end HeapPressure.Text.Utf8
