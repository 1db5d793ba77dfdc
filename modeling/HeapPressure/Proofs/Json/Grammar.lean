import HeapPressure.Json.Reader

/-!
The grammar of JSON texts: what may stand for a character, a string, a number, a tree, with blanks
anywhere between the parts. Half a surrogate pair stands for nothing.
-/
namespace HeapPressure.Json

inductive Tree where
  | null
  | boolean (b : Bool)
  | number (n : Number)
  | string (s : String)
  | array (items : List Tree)
  | object (members : List (String × Tree))

mutual

/-- What a reader makes of a tree. -/
def Tree.value : Tree → Value
  | .null => .null
  | .boolean b => .boolean b
  | .number n => .number n
  | .string s => .string (some s)
  | .array ts => .array (Tree.itemsOf ts)
  | .object ms => .object (Tree.membersOf ms)

def Tree.itemsOf : List Tree → Items
  | [] => .close
  | t :: ts => .cons t.value (Tree.itemsOf ts)

def Tree.membersOf : List (String × Tree) → Members
  | [] => .close
  | (key, t) :: ms => .cons (some key) t.value (Tree.membersOf ms)

end

/-- A character between quotes: as it is, by a letter, by its number, by a pair of surrogates. -/
inductive WritesChar : Char → List Char → Prop where
  | plain {c : Char} (hq : c ≠ '\"') (hb : c ≠ '\\') (hc : 0x20 ≤ c.toNat) : WritesChar c [c]
  | letter {e c : Char} (h : shortEscape? e = some c) : WritesChar c ['\\', e]
  | unit {a b c d : Char} {u : Nat} (h : hexUnit? a b c d = some u) (hu : isSurrogate u = false) :
      WritesChar (Char.ofNat u) ['\\', 'u', a, b, c, d]
  | pair {a b c d a' b' c' d' : Char} {high low : Nat} (hh : hexUnit? a b c d = some high)
      (hl : hexUnit? a' b' c' d' = some low) (hhigh : 0xD800 ≤ high ∧ high < 0xDC00)
      (hlow : 0xDC00 ≤ low ∧ low < 0xE000) :
      WritesChar (Char.ofNat (0x10000 + (high - 0xD800) * 1024 + (low - 0xDC00)))
        ['\\', 'u', a, b, c, d, '\\', 'u', a', b', c', d']

inductive WritesChars : List Char → List Char → Prop where
  | nil : WritesChars [] []
  | cons {c : Char} {s w ws : List Char} (h : WritesChar c w) (hs : WritesChars s ws) :
      WritesChars (c :: s) (w ++ ws)

/-- One digit or more. -/
structure Digits (ds : List Char) : Prop where
  ne_nil : ds ≠ []
  digit : ∀ d ∈ ds, isDigit d = true

inductive WritesFraction : List Nat → List Char → Prop where
  | absent : WritesFraction [] []
  | present {ds : List Char} (h : Digits ds) : WritesFraction (ds.map digitValue) ('.' :: ds)

inductive WritesExponent : Option Int → List Char → Prop where
  | absent : WritesExponent none []
  | bare {e : Char} {ds : List Char} (he : e = 'e' ∨ e = 'E') (h : Digits ds) :
      WritesExponent (some (natOfDigits ds)) (e :: ds)
  | plus {e : Char} {ds : List Char} (he : e = 'e' ∨ e = 'E') (h : Digits ds) :
      WritesExponent (some (natOfDigits ds)) (e :: '+' :: ds)
  | minus {e : Char} {ds : List Char} (he : e = 'e' ∨ e = 'E') (h : Digits ds) :
      WritesExponent (some (-natOfDigits ds)) (e :: '-' :: ds)

/-- A number behind its sign. No zero stands in front of other digits. -/
inductive WritesUnsigned : Number → List Char → Prop where
  | mk {negative : Bool} {fraction : List Nat} {exponent : Option Int} {ds f e : List Char}
      (h : Digits ds) (hzero : ds.length = 1 ∨ ds.head? ≠ some '0')
      (hf : WritesFraction fraction f) (he : WritesExponent exponent e) :
      WritesUnsigned ⟨negative, natOfDigits ds, fraction, exponent⟩ (ds ++ (f ++ e))

def signChars (negative : Bool) : List Char := if negative then ['-'] else []

def Blank (bs : List Char) : Prop := ∀ c ∈ bs, isBlank c = true

/-- What a stretch of text writes: a tree, or the items of an array or the members of an object up
to the closing bracket, be they the first or behind others. -/
inductive Part where
  | tree (t : Tree)
  | items (first : Bool) (ts : List Tree)
  | members (first : Bool) (ms : List (String × Tree))

/-- What stands in front of an item or a member: nothing before the first, else a comma. -/
def Separates : Bool → List Char → Prop
  | true, sep => sep = []
  | false, sep => ∃ bs, Blank bs ∧ sep = ',' :: bs

/-- The texts of a part. -/
inductive Writes : Part → List Char → Prop where
  | null : Writes (.tree .null) ['n', 'u', 'l', 'l']
  | truth : Writes (.tree (.boolean true)) ['t', 'r', 'u', 'e']
  | falsehood : Writes (.tree (.boolean false)) ['f', 'a', 'l', 's', 'e']
  | number {n : Number} {w : List Char} (h : WritesUnsigned n w) :
      Writes (.tree (.number n)) (signChars n.negative ++ w)
  | string {s : String} {w : List Char} (h : WritesChars s.toList w) :
      Writes (.tree (.string s)) ('\"' :: (w ++ ['\"']))
  | array {ts : List Tree} {bs cs : List Char} (hb : Blank bs) (h : Writes (.items true ts) cs) :
      Writes (.tree (.array ts)) ('[' :: (bs ++ cs))
  | object {ms : List (String × Tree)} {bs cs : List Char} (hb : Blank bs)
      (h : Writes (.members true ms) cs) : Writes (.tree (.object ms)) ('\x7b' :: (bs ++ cs))
  | endItems (first : Bool) : Writes (.items first []) [']']
  | item {first : Bool} {t : Tree} {ts : List Tree} {sep v b cs : List Char}
      (hs : Separates first sep) (hv : Writes (.tree t) v) (hb : Blank b)
      (h : Writes (.items false ts) cs) : Writes (.items first (t :: ts)) (sep ++ (v ++ (b ++ cs)))
  | endMembers (first : Bool) : Writes (.members first []) ['\x7d']
  | member {first : Bool} {key : String} {t : Tree} {ms : List (String × Tree)}
      {sep k b₁ b₂ b₃ v cs : List Char} (hs : Separates first sep)
      (hk : WritesChars key.toList k) (h₁ : Blank b₁) (h₂ : Blank b₂) (h₃ : Blank b₃)
      (hv : Writes (.tree t) v) (h : Writes (.members false ms) cs) :
      Writes (.members first ((key, t) :: ms))
        (sep ++ ('\"' :: (k ++ '\"' :: (b₁ ++ ':' :: (b₂ ++ (v ++ (b₃ ++ cs)))))))

/-- A whole text, with blanks around its tree. -/
def Spells (t : Tree) (text : String) : Prop :=
  ∃ b₁ b₂ w, Blank b₁ ∧ Blank b₂ ∧ Writes (.tree t) w ∧ text.toList = b₁ ++ (w ++ b₂)

end HeapPressure.Json
