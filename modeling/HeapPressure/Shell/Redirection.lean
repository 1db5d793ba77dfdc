import HeapPressure.Shell.Expansion

/-!
Redirections: what a command reads and where it writes, changed one by one.
-/
namespace HeapPressure.Shell

private def point (n : Nat) (stream : Stream) : Expansion Unit :=
  modify fun s => { s with streams := (n, stream) :: s.streams.filter fun t => t.1 != n }

/-- What becomes of the contents of a file that is written to. -/
inductive Contents where
  | keep
  | discard
  /-- There must be none. -/
  | guard
deriving DecidableEq

/-- Where writing to a path leads. A file that is not there is made. -/
def openForWriting (contents : Contents) (path : String) : Expansion Stream := do
  let s ← get
  match path with
  | "/dev/stdout" | "/dev/fd/1" => pure (s.stream 1)
  | "/dev/stderr" | "/dev/fd/2" => pure (s.stream 2)
  | _ =>
    match s.files.resolveNew path with
    | .error _ => giveUp .next ("cannot create " ++ path ++ ": Directory nonexistent")
    | .ok place =>
      match s.files.entry? place with
      | some .directory => giveUp .next ("cannot create " ++ path ++ ": Is a directory")
      | some .nullDevice => pure .nowhere
      | some .zeroDevice => pure .nowhere
      | some (.program _) => giveUp .next ("cannot create " ++ path ++ ": Text file busy")
      | some (.file _) =>
        if contents == .guard then giveUp .next ("cannot create " ++ path ++ ": File exists")
        else do
          if contents == .discard then set { s with files := s.files.add place (.file []) }
          pure (.file place)
      | none => do
        set { s with files := s.files.add place (.file []) }
        pure (.file place)

/-- Changes the streams as one redirection says. -/
def redirectOne (capture : Capture) (r : Redirection) : Expansion Unit := do
  let target ← Word.asText capture r.target
  match r.kind with
  | .write => do
    let stream ← openForWriting (if (← get).has 'C' then .guard else .discard) target
    point r.stream stream
  | .overwrite => do
    let stream ← openForWriting .discard target
    point r.stream stream
  | .append => do
    let stream ← openForWriting .keep target
    point r.stream stream
  | .duplicate => do
    let s ← get
    match target.toNat? with
    | some 0 => pure ()
    | some n =>
      match s.streams.lookup n with
      | some stream => point r.stream stream
      | none => giveUp .next (toString n ++ ": Bad file descriptor")
    | none =>
      if target == "-" then
        modify fun s => { s with streams := s.streams.filter fun t => t.1 != r.stream }
      else abort "Syntax error: Bad fd number"
  | .read => do
    let s ← get
    match s.files.read target with
    | .ok bytes =>
      set { s with input := bytes, endlessInput := s.files.isEndless target }
    | .error .isDirectory => set { s with input := [], endlessInput := false }
    | .error _ => giveUp .next ("cannot open " ++ target ++ ": No such file")
  | .text =>
    modify fun s => { s with input := Text.Utf8.encode target.toList, endlessInput := false }

def redirect (capture : Capture) (rs : List Redirection) : Expansion Unit :=
  rs.forM (redirectOne capture)

private def givesInput (r : Redirection) : Bool :=
  match r.kind with
  | .read => true
  | .text => true
  | _ => false

/-- The streams as they were before a command. -/
def restore (before : State) (rs : List Redirection) (s : State) : State :=
  let given := rs.any givesInput
  { s with
    streams := before.streams
    input := if given then before.input else s.input
    endlessInput := if given then before.endlessInput else s.endlessInput }

end HeapPressure.Shell
