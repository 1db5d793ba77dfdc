import HeapPressure.Shell.Token

/-!
The commands of a shell script, and how they are read. A script is read line by line, so what
stands before a fault is still run.
-/
namespace HeapPressure.Shell

structure Redirection where
  stream : Nat
  kind : Redirect
  target : Word

inductive Command where
  | nothing
  | simple (line : Nat) (assigns : List (String × Word)) (words : List Word)
      (redirects : List Redirection)
  | subshell (body : Command) (redirects : List Redirection)
  | redirected (body : Command) (redirects : List Redirection)
  | branch (condition yes no : Command)
  | loop (negated : Bool) (condition body : Command)
  | each (name : String) (words : List Word) (body : Command)
  | choose (subject : Word) (arms : List (List Word × Command))
  | define (name : String) (line : Nat) (body : Command)
  | pipe (left right : Command)
  | negate (c : Command)
  | both (left right : Command)
  | either (left right : Command)
  | sequence (left right : Command)
  | background (c : Command)

/-- Whether there is nothing to run. -/
def Command.isNothing : Command → Bool
  | .nothing => true
  | _ => false

/-- What a reader has before it. -/
structure Feed where
  tokens : Tokens
  /-- The words that stand for others where a command begins. -/
  aliases : List (String × String) := []
  /-- Whether the next word may stand for others wherever it is. -/
  onward : Bool := false

namespace Feed

/-- Passes over the ends of what aliases stand for. -/
def settle (onward : Bool) : Tokens → Tokens × Bool
  | (.endOf _ asks, _) :: ts => settle (onward || asks) ts
  | ts => (ts, onward)

def ofTokens (aliases : List (String × String)) (ts : Tokens) : Feed :=
  let (tokens, onward) := settle false ts
  { tokens, aliases, onward }

/-- Behind the token at hand. -/
def next (f : Feed) : Feed := ofTokens f.aliases f.tokens.tail

private def endsInBlank (text : String) : Bool := (text.toList.getLast?.map isBlank).getD false

/-- Puts the tokens that a word stands for in its place. While they are read, it stands for
nothing else. -/
def resolve : Nat → Feed → Feed
  | 0, f => f
  | fuel + 1, f =>
    match f.tokens with
    | (.word w, line) :: ts =>
      let found := f.aliases.find? fun a => w.plain? == some a.1 && !keywords.contains a.1
      let inUse (name : String) : Bool := ts.any fun t =>
        match t.1 with
        | .endOf other _ => other == name
        | _ => false
      match found.filter fun a => !inUse a.1 with
      | none => f
      | some (name, value) =>
        let inner := (tokensOf value.toList).dropLast.map fun t => (t.1, line)
        resolve fuel (ofTokens f.aliases (inner ++ (.endOf name (endsInBlank value), line) :: ts))
    | _ => f

end Feed

/-- Work on the tokens left; a fault comes with its line. -/
abbrev Parse := StateT Feed (Except (Fault × Nat))

/-- The commands that no function may be named for. -/
def specialNames : List String :=
  [":", ".", "break", "continue", "eval", "exec", "exit", "export", "readonly", "return", "set",
    "shift", "times", "trap", "unset"]

/-- Splits an assignment in front of a command. -/
def assigned? : Word → Option (String × Word)
  | .literal cs :: rest =>
    let name := cs.takeWhile isNameChar
    match isName name, cs.drop name.length with
    | true, '=' :: value =>
      some (String.ofList name, if value.isEmpty then rest else .literal value :: rest)
    | _, _ => none
  | _ => none

namespace Parse

def here : Parse (Token × Nat) := do
  pure ((← get).tokens.headD (.finish, 1))

def peek : Parse Token := do
  pure (← here).1

def advance : Parse Unit := modify Feed.next

/-- Looks the word at hand up among the aliases. -/
def resolve : Parse Unit := modify fun f => f.resolve (f.aliases.length + 1)

/-- The token at hand cannot stand here. -/
def unexpected {α : Type} (expected : Option String) : Parse α := do
  match ← here with
  | (.fault f, line) => throw (f, line)
  | (t, line) => throw (.unexpected t.title expected, line)

def fail {α : Type} (f : Fault) : Parse α := do
  throw (f, (← here).2)

private def dropNewlines : Nat → Feed → Feed
  | 0, f => f
  | fuel + 1, f =>
    match f.tokens with
    | (.operator "\n", _) :: _ => dropNewlines fuel f.next
    | _ => f

def skipNewlines : Parse Unit := modify fun f => dropNewlines f.tokens.length f

/-- Takes a keyword or an operator, in quotes as in messages. -/
def expect (title : String) : Parse Unit := do
  if (← peek).title == title then advance else unexpected (some title)

/-- Takes the closing parenthesis behind the name of a function, where keywords are words. -/
def expectClosing : Parse Unit := do
  match ← here with
  | (.word _, line) => throw (.unexpected "word" (some "\")\""), line)
  | _ => expect "\")\""

private def wordsOf : Nat → Feed → List Word × Feed
  | 0, f => ([], f)
  | fuel + 1, f =>
    match f.tokens with
    | (.word w, _) :: _ =>
      let (ws, f) := wordsOf fuel f.next
      (w :: ws, f)
    | _ => ([], f)

def words : Parse (List Word) := do
  let f ← get
  let (ws, f) := wordsOf f.tokens.length f
  set f
  pure ws

def theWord (expected : Option String) : Parse Word := do
  match ← peek with
  | .word w => do
    advance
    pure w
  | _ => unexpected expected

/-- Any token, which in a pattern is taken for what it says. -/
def patternWord : Parse Word := do
  match ← peek with
  | .word w => do
    advance
    pure w
  | .fault _ => unexpected none
  | t => do
    advance
    pure [.quoted t.title.toList]

/-- The redirections at hand. -/
def redirections : Nat → Parse (List Redirection)
  | 0 => pure []
  | fuel + 1 => do
    match ← peek with
    | .redirect stream kind => do
      advance
      let target ← theWord none
      pure (⟨stream, kind, target⟩ :: (← redirections fuel))
    | _ => pure []

/-- What a simple command is made of; each part in its order. -/
structure Simple where
  assigns : List (String × Word) := []
  words : List Word := []
  redirects : List Redirection := []

/-- Whether the words so far are but a name, which parentheses make that of a function. -/
def Simple.isName (s : Simple) : Bool :=
  s.assigns.isEmpty && s.redirects.isEmpty && s.words.length == 1

def simple : Nat → Simple → Parse Simple
  | 0, s => pure s
  | fuel + 1, s => do
    if s.words.isEmpty || (← get).onward then resolve
    match ← peek with
    | .word w => do
      advance
      match s.words.isEmpty, assigned? w with
      | true, some a => simple fuel { s with assigns := s.assigns ++ [a] }
      | _, _ => simple fuel { s with words := s.words ++ [w] }
    | .redirect stream kind => do
      advance
      let target ← theWord none
      simple fuel { s with redirects := s.redirects ++ [⟨stream, kind, target⟩] }
    | _ => pure s

/-- The values of a loop: those listed, or the arguments. -/
def values : Parse (List Word) := do
  skipNewlines
  if (← peek).title == "\"in\"" then do
    advance
    let ws ← words
    if (← peek).isOperator ";" || (← peek).isOperator "\n" then do
      advance
      pure ws
    else unexpected none
  else do
    if (← peek).isOperator ";" then advance
    pure [[.parameter "@" .keep [] true]]

private def alternatives : Nat → Parse (List Word)
  | 0 => pure []
  | fuel + 1 => do
    let w ← patternWord
    if (← peek).isOperator "|" then do
      advance
      pure (w :: (← alternatives fuel))
    else pure [w]

/-- The patterns of an arm, up to the parenthesis. -/
def patterns (fuel : Nat) : Parse (List Word) := do
  if (← peek).isOperator "(" then advance
  let ws ← alternatives fuel
  expect "\")\""
  pure ws

mutual

/-- Commands up to a token that ends a list, over newlines. -/
def list : Nat → Bool → Parse Command
  | 0, _ => unexpected none
  | fuel + 1, mayEnd => do
    skipNewlines
    let t ← peek
    match t with
    | .finish => pure .nothing
    | _ =>
      if mayEnd && t.endsList then pure .nothing
      else do
        let c ← logical fuel
        further fuel c

/-- What follows a command of a list. -/
def further : Nat → Command → Parse Command
  | 0, _ => unexpected none
  | fuel + 1, c => do
    match ← peek with
    | .operator "&" => do
      advance
      pure (.sequence (.background c) (← list fuel true))
    | .operator ";" => do
      advance
      pure (.sequence c (← list fuel true))
    | .operator "\n" => do
      advance
      pure (.sequence c (← list fuel true))
    | _ => pure c

/-- The commands of one line, and the newline. -/
def line : Nat → Parse Command
  | 0 => unexpected none
  | fuel + 1 => do
    match ← peek with
    | .finish => pure .nothing
    | .operator "\n" => do
      advance
      pure .nothing
    | _ => do
      let c ← logical fuel
      match ← peek with
      | .operator "&" => do
        advance
        pure (.sequence (.background c) (← line fuel))
      | .operator ";" => do
        advance
        pure (.sequence c (← line fuel))
      | .operator "\n" => do
        advance
        pure c
      | .finish => pure c
      | _ => unexpected none

/-- Pipelines joined by "and" and "or", to the left. -/
def logical : Nat → Parse Command
  | 0 => unexpected none
  | fuel + 1 => do
    let c ← pipeline fuel
    logicalRest fuel c

def logicalRest : Nat → Command → Parse Command
  | 0, _ => unexpected none
  | fuel + 1, left => do
    match ← peek with
    | .operator "&&" => do
      advance
      skipNewlines
      let right ← pipeline fuel
      logicalRest fuel (.both left right)
    | .operator "||" => do
      advance
      skipNewlines
      let right ← pipeline fuel
      logicalRest fuel (.either left right)
    | _ => pure left

def pipeline : Nat → Parse Command
  | 0 => unexpected none
  | fuel + 1 => do
    if (← peek).title == "\"!\"" then do
      advance
      pure (.negate (← pipes fuel))
    else pipes fuel

def pipes : Nat → Parse Command
  | 0 => unexpected none
  | fuel + 1 => do
    let c ← command fuel
    if (← peek).isOperator "|" then do
      advance
      skipNewlines
      pure (.pipe c (← pipes fuel))
    else pure c

def command : Nat → Parse Command
  | 0 => unexpected none
  | fuel + 1 => do
    resolve
    let (t, line) ← here
    match t with
    | .operator "(" => do
      advance
      let body ← list fuel false
      expect "\")\""
      pure (.subshell body (← redirections fuel))
    | .redirect _ _ => simpleCommand fuel line
    | .word _ =>
      match t.keyword? with
      | none => simpleCommand fuel line
      | some k => do
        let c ← compound fuel k
        let rs ← redirections fuel
        pure (if rs.isEmpty then c else .redirected c rs)
    | _ => unexpected none

/-- A command that a keyword begins. -/
def compound : Nat → String → Parse Command
  | 0, _ => unexpected none
  | fuel + 1, k => do
    match k with
    | "\x7b" => do
      advance
      let body ← list fuel false
      expect "\"\x7d\""
      pure body
    | "if" => do
      advance
      branches fuel
    | "while" => do
      advance
      loopOf fuel false
    | "until" => do
      advance
      loopOf fuel true
    | "for" => do
      advance
      match (← peek : Token) with
      | .word w =>
        match w.plain? with
        | some name =>
          if isName name.toList then do
            advance
            let ws ← values
            skipNewlines
            pure (.each name ws (← bodyOf fuel))
          else fail .badLoopVariable
        | none => fail .badLoopVariable
      | .fault _ => unexpected none
      | _ => fail .badLoopVariable
    | "case" => do
      advance
      let subject ← theWord (some "word")
      skipNewlines
      expect "\"in\""
      pure (.choose subject (← arms fuel))
    | _ => unexpected none

/-- A body between "do" and "done". -/
def bodyOf : Nat → Parse Command
  | 0 => unexpected none
  | fuel + 1 => do
    expect "\"do\""
    let body ← list fuel false
    expect "\"done\""
    pure body

def loopOf : Nat → Bool → Parse Command
  | 0, _ => unexpected none
  | fuel + 1, negated => do
    let condition ← list fuel false
    pure (.loop negated condition (← bodyOf fuel))

/-- A condition with what follows it, up to "fi". -/
def branches : Nat → Parse Command
  | 0 => unexpected none
  | fuel + 1 => do
    let condition ← list fuel false
    expect "\"then\""
    let yes ← list fuel false
    match (← peek).keyword? with
    | some "elif" => do
      advance
      pure (.branch condition yes (← branches fuel))
    | some "else" => do
      advance
      let no ← list fuel false
      expect "\"fi\""
      pure (.branch condition yes no)
    | _ => do
      expect "\"fi\""
      pure (.branch condition yes .nothing)

/-- The arms of a choice, up to "esac". -/
def arms : Nat → Parse (List (List Word × Command))
  | 0 => unexpected none
  | fuel + 1 => do
    skipNewlines
    if (← peek).title == "\"esac\"" then do
      advance
      pure []
    else do
      let ws ← patterns fuel
      let body ← list fuel true
      skipNewlines
      if (← peek).title == "\"esac\"" then do
        advance
        pure [(ws, body)]
      else do
        expect "\";;\""
        pure ((ws, body) :: (← arms fuel))

/-- A simple command, or the definition of a function. -/
def simpleCommand : Nat → Nat → Parse Command
  | 0, _ => unexpected none
  | fuel + 1, line => do
    let s ← simple fuel {}
    if s.isName && (← peek).isOperator "(" then do
      advance
      expectClosing
      match s.words with
      | [[.literal name]] =>
        if isName name && !specialNames.contains (String.ofList name) then do
          skipNewlines
          pure (.define (String.ofList name) line (← command fuel))
        else fail .badFunctionName
      | _ => fail .badFunctionName
    else pure (.simple line s.assigns s.words s.redirects)

end

end Parse

/-- What comes next in a script. -/
inductive NextLine where
  | finish
  | fault (f : Fault) (line : Nat)
  /-- The commands of a line, and the tokens behind it. -/
  | line (c : Command) (rest : Tokens)

/-- Whether nothing is left but ends of lines. -/
def isOver : Tokens → Bool
  | (.operator "\n", _) :: ts => isOver ts
  | (.finish, _) :: _ => true
  | [] => true
  | _ => false

/-- Reads the next line of a script of so many tokens. -/
def nextLine (count : Nat) (aliases : List (String × String)) (ts : Tokens) : NextLine :=
  match ts with
  | [] => .finish
  | [(.finish, _)] => .finish
  | _ =>
    let size := aliases.foldl (fun n a => n + a.2.length) count
    match (Parse.line (16 * size + 16)).run (Feed.ofTokens aliases ts) with
    | .error (f, line) => .fault f line
    | .ok (c, f) => .line c f.tokens

end HeapPressure.Shell
