import HeapPressure.Shell.Tool

/-!
What a process may have: limits on its resources, and the permissions of the files it makes.
-/
namespace HeapPressure.Shell.Limits

open Effect

/-- The resources by the letters of their options, with their names and units. -/
def resources : List (Char × String × Nat) :=
  [('t', "time(seconds)", 1), ('f', "file(blocks)", 512), ('d', "data(kbytes)", 1024),
    ('s', "stack(kbytes)", 1024), ('c', "coredump(blocks)", 512), ('m', "memory(kbytes)", 1024),
    ('l', "locked memory(kbytes)", 1024), ('p', "process", 1), ('n', "nofiles", 1),
    ('v', "vmemory(kbytes)", 1024), ('w', "locks", 1), ('r', "rtprio", 1)]

private def letters : Letters :=
  ('H', false) :: ('S', false) :: ('a', false) :: resources.map fun r => (r.1, false)

private def limitText (unit : Nat) : Option Nat → String
  | none => "unlimited\n"
  | some n => toString (n / unit) ++ "\n"

/-- Whether a limit is no more than another. -/
def atMost : Option Nat → Option Nat → Bool
  | _, none => true
  | some n, some m => n ≤ m
  | none, some _ => false

/-- A limit that is changed where asked for, if it may be: what is in force stays below what it
may be set to, and that is never raised. -/
def changed (soft hard : Bool) (value : Option Nat) (l : Limit) : Except String Limit :=
  let wanted : Limit := ⟨if soft then value else l.soft, if hard then value else l.hard⟩
  if !atMost wanted.soft wanted.hard then .error "Invalid argument"
  else if !atMost wanted.hard l.hard then .error "Operation not permitted"
  else .ok wanted

private def amount? (unit : Nat) (text : String) : Option (Option Nat) :=
  if text == "unlimited" then some none
  else if text.toList.all Char.isDigit then some (some ((text.toNat?).getD 0 * unit))
  else none

/-- Shows a limit or sets it: the one in force, the highest one, or both. -/
def ulimit (args : List String) (s : State) : Effect :=
  match optionsOf letters args with
  | .error e => refuse ("ulimit: " ++ e.message) 2 s
  | .ok g =>
    let side := (g.options.filter fun o => o.1 == 'H' || o.1 == 'S').getLast?.map Prod.fst
    let soft := side != some 'H'
    let hard := side != some 'S'
    let shown (l : Limit) : Option Nat := if soft then l.soft else l.hard
    let letter := ((g.options.filter fun o => o.1 != 'H' && o.1 != 'S' && o.1 != 'a').getLast?.map
      Prod.fst).getD 'f'
    let unit := ((resources.lookup letter).map Prod.snd).getD 1
    match g.arguments with
    | [] =>
      if g.has 'a' then
        succeed (s.say (String.join (resources.map fun (letter, name, unit) =>
          name ++ String.ofList (List.replicate (20 - name.length) ' ') ++ " "
            ++ limitText unit (shown (s.limit letter)))))
      else succeed (s.say (limitText unit (shown (s.limit letter))))
    | value :: more =>
      if g.has 'a' || !more.isEmpty then refuse "ulimit: too many arguments" 2 s
      else
        match amount? unit value with
        | none => refuse "ulimit: bad number" 2 s
        | some value =>
          match changed soft hard value (s.limit letter) with
          | .error reason => refuse ("ulimit: error setting limit (" ++ reason ++ ")") 2 s
          | .ok l =>
            succeed { s with limits := (letter, l) :: s.limits.filter fun r => r.1 != letter }

private def octal (n : Nat) : String :=
  let digits := String.ofList (Nat.toDigits 8 n)
  String.ofList (List.replicate (4 - digits.length) '0') ++ digits

/-- The permissions that are given, in letters. -/
private def permissions (mask : Nat) : String :=
  let letters (n : Nat) : String :=
    (if n / 4 % 2 = 0 then "r" else "") ++ (if n / 2 % 2 = 0 then "w" else "")
      ++ (if n % 2 = 0 then "x" else "")
  "u=" ++ letters (mask / 64) ++ ",g=" ++ letters (mask / 8) ++ ",o=" ++ letters mask

/-- Shows the mask or sets it by its digits. -/
def umask (args : List String) (s : State) : Effect :=
  match optionsOf (.plain "S") args with
  | .error e => refuse ("umask: " ++ e.message) 2 s
  | .ok g =>
    match g.arguments with
    | [] => print (if g.has 'S' then permissions s.mask else octal s.mask) s
    | mask :: _ =>
      let digits := mask.toList
      if digits.head?.any Char.isDigit then
        if digits.all fun c => '0' ≤ c && c ≤ '7' then
          let n := digits.foldl (fun n c => n * 8 + (c.toNat - 48)) 0
          succeed { s with mask := n % 512 }
        else refuse ("umask: Illegal number: " ++ mask) 2 s
      else succeed s

end HeapPressure.Shell.Limits
