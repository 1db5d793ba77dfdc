import HeapPressure.Shell.Arithmetic
import HeapPressure.Shell.Globbing
import HeapPressure.Shell.State

/-!
The expansion of words into the fields that a command gets. What stands in quotes stays in one
field; the rest of what is expanded is split at separators.
-/
namespace HeapPressure.Shell

/-- Work on the state that may end the command it is done for. -/
abbrev Expansion := StateT State (Except (Flow × State))

inductive Part where
  | solid (s : List Char) (quoted : Bool)
  | loose (s : List Char)
  /-- The arguments, each a field, which may be split further. -/
  | several (fields : List String) (split : Bool)

namespace Part

/-- Fields while they are gathered: those finished, the last first, and the one begun. Each of
their characters is kept as `α` has it. -/
structure Fields (α : Type) where
  finished : List (List α) := []
  begun : Option (List α) := none
  /-- Whether a blank has finished the last field, so that another separator may follow. -/
  afterBlank : Bool := false

namespace Fields

variable {α : Type}

def extend (s : List α) (f : Fields α) : Fields α :=
  { f with begun := some (f.begun.getD [] ++ s), afterBlank := false }

def finish (f : Fields α) : Fields α :=
  match f.begun with
  | some s => { finished := s :: f.finished }
  | none => f

/-- A separator: blanks only finish a field, others do so each. -/
def separate (c : Char) (f : Fields α) : Fields α :=
  if c == ' ' || c == '\t' || c == '\n' then
    if f.begun.isSome then { f.finish with afterBlank := true } else f
  else if f.begun.isSome then f.finish
  else if f.afterBlank then { f with afterBlank := false }
  else { f with finished := [] :: f.finished }

def spread (keep : Char → α) (separators : List Char) (f : Fields α) : List Char → Fields α
  | [] => f
  | c :: cs =>
    spread keep separators
      (if separators.contains c then f.separate c else f.extend [keep c]) cs

def inTurn (put : Fields α → List Char → Fields α) (f : Fields α) : List String → Fields α
  | [] => f
  | [s] => put f s.toList
  | s :: ss => inTurn put (put f s.toList).finish ss

/-- Adds a part; `keep` is told whether a character is quoted. -/
def add (keep : Bool → Char → α) (separators : List Char) (f : Fields α) : Part → Fields α
  | .solid s quoted => f.extend (s.map (keep quoted))
  | .loose s => f.spread (keep false) separators s
  | .several ss true => f.inTurn (spread (keep false) separators) ss
  | .several ss false => f.inTurn (fun f s => f.extend (s.map (keep true))) ss

def list (f : Fields α) : List (List α) := f.finish.finished.reverse

end Fields

def fields {α : Type} (keep : Bool → Char → α) (separators : List Char) (parts : List Part) :
    List (List α) :=
  (parts.foldl (Fields.add keep separators) {}).list

def text : Part → List Char
  | .solid s _ => s
  | .loose s => s
  | .several ss _ => (" ".intercalate ss).toList

/-- The parts as one field, for places where nothing is split. -/
def joined (parts : List Part) : String := String.ofList (parts.flatMap text)

/-- Whether a part may make a pattern of a field. -/
def hasSigns : Part → Bool
  | .solid _ true => false
  | .several _ false => false
  | p => p.text.any fun c => c == '*' || c == '?' || c == '['

/-- The parts as a pattern, in which what was quoted stands for itself. -/
def pattern (parts : List Part) : Pattern :=
  Pattern.read (parts.flatMap fun p =>
    match p with
    | .solid s true => s.map fun c => (c, true)
    | p => p.text.map fun c => (c, false))

end Part

def trimNewlines (cs : List Char) : List Char := (cs.reverse.dropWhile (· == '\n')).reverse

/-- Ends the command with a message, and goes on as `flow` says. -/
def giveUp {α : Type} (flow : Flow) (message : String) : Expansion α := fun s =>
  .error (flow, s.complain message 2)

def abort {α : Type} (message : String) : Expansion α := giveUp .exit message

/-- Gives a name a value, unless its value is to stay. -/
def assignTo (name value : String) : Expansion Unit := do
  let s ← get
  if s.fixed.contains name then abort (name ++ ": is read only")
  else if !isName name.toList then abort (name ++ ": bad variable name")
  else if name == "OPTIND" && (natural? value).isNone then abort ("Illegal number: " ++ value)
  else do
    let s := s.assign name value
    set (if s.has 'a' then { s with exported := name :: s.exported } else s)

/-- Runs a script and gives what it writes. -/
abbrev Capture := List Char → Expansion (List Char)

namespace Word

variable (capture : Capture)

private def part (inQuotes : Bool) (s : List Char) : Part :=
  if inQuotes then .solid s true else .loose s

/-- The value of a parameter; the arguments stay apart. -/
private def valuePart (s : State) (name : String) (inQuotes : Bool) (value : String) : Part :=
  match name, inQuotes with
  | "@", true => .several s.args false
  | "@", false => .several s.args true
  | "*", false => .several s.args true
  | _, _ => part inQuotes value.toList

private def isUnbound (s : State) (name : String) : Bool :=
  s.has 'u' && name != "@" && name != "*" && (s.parameter? name).isNone

mutual

/-- The parts of a word; its literals are loose in the operand of an expansion without quotes. -/
def ofPieces : Nat → Bool → Word → Expansion (List Part)
  | 0, _, _ => abort "Word too long"
  | _ + 1, _, [] => pure []
  | fuel + 1, loose, p :: ps => do
    let first ← ofPiece fuel loose p
    pure (first ++ (← ofPieces fuel loose ps))

def ofPiece : Nat → Bool → Piece → Expansion (List Part)
  | 0, _, _ => abort "Word too long"
  | fuel + 1, loose, p => do
    match p with
    | .literal s => pure [if loose then .loose s else .solid s false]
    | .quoted s => pure [.solid s true]
    | .parameter name change operand inQuotes => ofParameter fuel name change operand inQuotes
    | .arithmetic text inQuotes => do
      let inner := Part.joined (← ofPieces fuel false text)
      let s ← get
      match Arithmetic.evaluate s.parameter? inner.toList with
      | .error .quotientTooLarge => throw (.died 8, s)
      | .error f => abort (f.message inner)
      | .ok (n, assigned) => do
        assigned.forM fun (name, n) => assignTo name (toString n.toInt)
        pure [part inQuotes (toString n.toInt).toList]
    | .output script inQuotes => do pure [part inQuotes (trimNewlines (← capture script))]

def ofParameter : Nat → String → Change → Word → Bool → Expansion (List Part)
  | 0, _, _, _, _ => abort "Word too long"
  | fuel + 1, name, change, operand, inQuotes => do
    let s ← get
    let value := s.parameter? name
    let given (nullToo : Bool) : Bool := if nullToo then value.getD "" != "" else value.isSome
    let known : List Part := [valuePart s name inQuotes (value.getD "")]
    match change with
    | .keep =>
      if isUnbound s name then abort (name ++ ": parameter not set") else pure known
    | .length =>
      if isUnbound s name then abort (name ++ ": parameter not set")
      else pure [part inQuotes (toString (value.getD "").utf8ByteSize).toList]
    | .fallback nullToo =>
      if given nullToo then pure known else ofPieces fuel (!inQuotes) operand
    | .replace nullToo =>
      if given nullToo then ofPieces fuel (!inQuotes) operand else pure [part inQuotes []]
    | .assign nullToo =>
      if given nullToo then pure known
      else do
        let v := Part.joined (← ofPieces fuel false operand)
        assignTo name v
        pure [part inQuotes v.toList]
    | .demand nullToo =>
      if given nullToo then pure known
      else do
        let text := Part.joined (← ofPieces fuel false operand)
        let standard := "parameter not set" ++ (if nullToo then " or null" else "")
        abort (name ++ ": " ++ (if operand.isEmpty then standard else text))
    | .cutFront longest =>
      if isUnbound s name then abort (name ++ ": parameter not set")
      else do
        let p := Part.pattern (← ofPieces fuel false operand)
        pure [part inQuotes (p.cutFront longest (value.getD ""))]
    | .cutBack longest =>
      if isUnbound s name then abort (name ++ ": parameter not set")
      else do
        let p := Part.pattern (← ofPieces fuel false operand)
        pure [part inQuotes (p.cutBack longest (value.getD ""))]
    | .bad => abort "Bad substitution"

end

/-- A path with the home directory in the place of its tilde, which has to be `whole` as a name. -/
private def housed (home : List Char) (whole : Bool) : List Char → Word
  | '~' :: '/' :: cs => [.quoted home, .literal ('/' :: cs)]
  | ['~'] => if whole then [.quoted home] else [.literal ['~']]
  | cs => [.literal cs]

/-- The word with the home directory where tildes stand for it: in front, and in the value of a
name also behind colons. -/
def withHome (s : State) (isValue : Bool) (w : Word) : Word :=
  match s.bindings.lookup "HOME", w with
  | some home, .literal cs :: ps =>
    if !cs.contains '~' then w
    else
      let paths := if isValue then cs.splitOn ':' else [cs]
      let housedAt (i : Nat) (path : List Char) : Word :=
        housed home.toList (i + 1 < paths.length || ps.isEmpty) path
      (paths.mapIdx fun i path =>
        if i = 0 then housedAt i path else .literal [':'] :: housedAt i path).flatten ++ ps
  | _, _ => w

/-- Enough for any word of that many pieces. -/
def depth (w : Word) : Nat := w.length + 1000

/-- Text that grows too long meets the limit on memory; without one it goes on growing. -/
def parts (w : Word) : Expansion (List Part) := do
  let ps ← ofPieces capture (depth w) false w
  let s ← get
  if (ps.map fun p => p.text.length).foldl (· + ·) 0 ≤ s.longestText then pure ps
  else if s.memoryLimit.isSome then abort "Out of space"
  else throw (.stuck, s)

/-- The fields of one word; those that are patterns stand for paths. -/
def fields (w : Word) : Expansion (List String) := do
  let ps ← parts capture (withHome (← get) false w)
  let s ← get
  if s.has 'f' || !ps.any Part.hasSigns then
    pure ((Part.fields (fun _ c => c) s.separators ps).map String.ofList)
  else
    pure ((Part.fields (fun quoted c => (c, quoted)) s.separators ps).flatMap
      (Globbing.pathsOf s.files))

/-- The word as one text. -/
def asText (w : Word) : Expansion String := do
  pure (Part.joined (← parts capture (withHome (← get) false w)))

/-- The word as the value of a name. -/
def asValue (w : Word) : Expansion String := do
  pure (Part.joined (← parts capture (withHome (← get) true w)))

def asPattern (w : Word) : Expansion Pattern := do
  pure (Part.pattern (← parts capture w))

end Word

/-- The fields of several words, worked out from left to right. -/
def fieldsOf (capture : Capture) (ws : List Word) : Expansion (List String) := do
  pure (← ws.mapM (Word.fields capture)).flatten

end HeapPressure.Shell
