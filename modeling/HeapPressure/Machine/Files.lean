import HeapPressure.Harness.Error

/-!
The files of a machine, by absolute path. Paths are walked name by name from the root, or from
the working directory, through directories only.
-/
namespace HeapPressure.Machine

open Harness (SystemError)

inductive Entry where
  | directory
  | file (contents : List UInt8)
  /-- Reads as nothing and swallows what is written. -/
  | nullDevice
  /-- Reads as zeros without end and swallows what is written. -/
  | zeroDevice
  /-- A file that can be run, by the name of what it does. -/
  | program (name : String)
deriving DecidableEq

/-- The names of a path below the root, the innermost first. -/
abbrev Place := List String

structure Files where
  entries : List (Place × Entry)
  workingDirectory : Place

def maxNameBytes : Nat := 255

def maxPathBytes : Nat := 4095

namespace Files

def entry? (f : Files) (place : Place) : Option Entry :=
  (f.entries.find? fun e => e.1 == place).map Prod.snd

/-- One name on the way; only a directory leads further. -/
def descend (f : Files) (place : Place) (name : String) : Except SystemError Place :=
  match f.entry? place with
  | some .directory =>
    if name.utf8ByteSize > maxNameBytes then .error .nameTooLong
    else if name == "." || name == "" then .ok place
    else if name == ".." then .ok place.tail
    else if (f.entry? (name :: place)).isSome then .ok (name :: place)
    else .error .notFound
  | _ => .error .notDirectory

/-- The place that a path leads to. A slash at the end asks for a directory. -/
def resolve (f : Files) (path : String) : Except SystemError Place :=
  if path.isEmpty then .error .notFound
  else if path.utf8ByteSize > maxPathBytes then .error .nameTooLong
  else
    let names := path.splitOn "/"
    let start : Place := if path.startsWith "/" then [] else f.workingDirectory
    names.foldlM f.descend start

def hasNul (s : String) : Bool := s.toList.contains '\x00'

def pathExists (f : Files) (path : String) : Bool :=
  !hasNul path && (f.resolve path).toOption.isSome

/-- What stands at a path. -/
def lookup (f : Files) (path : String) : Except SystemError Entry := do
  let place ← f.resolve path
  match f.entry? place with
  | some e => .ok e
  | none => .error .notFound

/-- Enough of what has no end. -/
def endlessBytes : Nat := 0x100000

/-- Whether reading at a path never comes to an end. -/
def isEndless (f : Files) (path : String) : Bool :=
  match f.lookup path with
  | .ok .zeroDevice => true
  | _ => false

/-- Programs are no text: their files begin so. -/
def programBytes : List UInt8 := [0x7F, 0x45, 0x4C, 0x46, 0xFF]

def read (f : Files) (path : String) : Except SystemError (List UInt8) :=
  if hasNul path then .error .nulInFileName
  else
    match f.lookup path with
    | .error e => .error e
    | .ok .directory => .error .isDirectory
    | .ok (.file contents) => .ok contents
    | .ok .nullDevice => .ok []
    | .ok .zeroDevice => .ok (List.replicate endlessBytes 0)
    | .ok (.program _) => .ok programBytes

/-- The directories in which programs without a slash in their names are looked for. -/
def searchPath : List String :=
  ["/usr/local/sbin", "/usr/local/bin", "/usr/sbin", "/usr/bin", "/sbin", "/bin"]

/-- The program at a path, if it can be run. -/
def runnable (f : Files) (path : String) : Except SystemError String :=
  match f.lookup path with
  | .error e => .error e
  | .ok (.program name) => .ok name
  | .ok _ => .error .permissionDenied

/-- The first program of that name; something of that name that cannot be run is remembered. -/
def search (f : Files) (name : String) : List String → SystemError → Except SystemError String
  | [], last => .error last
  | dir :: dirs, last =>
    match f.runnable (dir ++ "/" ++ name) with
    | .ok program => .ok program
    | .error .permissionDenied => f.search name dirs .permissionDenied
    | .error .nameTooLong => .error .nameTooLong
    | .error _ => f.search name dirs last

def findProgram (f : Files) (name : String) : Except SystemError String :=
  if name.isEmpty then .error .notFound
  else if name.toList.contains '/' then f.runnable name
  else f.search name searchPath .notFound

/-- Puts something at a place, instead of what was there. -/
def add (f : Files) (place : Place) (e : Entry) : Files :=
  { f with entries := (place, e) :: f.entries.filter fun e => e.1 != place }

def remove (f : Files) (place : Place) : Files :=
  { f with entries := f.entries.filter fun e => e.1 != place }

/-- Adds bytes to the end of a file. -/
def append (f : Files) (place : Place) (bytes : List UInt8) : Files :=
  match f.entry? place with
  | some (.file contents) => f.add place (.file (contents ++ bytes))
  | _ => f

/-- The place of a file that may be new: everything on the way to it exists. -/
def resolveNew (f : Files) (path : String) : Except SystemError Place :=
  match f.resolve path with
  | .ok place => .ok place
  | .error _ =>
    match (path.splitOn "/").reverse with
    | [] => .error .notFound
    | name :: outer =>
      let above := "/".intercalate outer.reverse
      let above := if above.isEmpty then (if outer.isEmpty then "." else "/") else above
      match f.resolve above with
      | .error e => .error e
      | .ok place =>
        if name.isEmpty || f.entry? place != some .directory then .error .notFound
        else .ok (name :: place)

end Files

private def directories : List Place := [
  [], ["bin"], ["boot"], ["dev"], ["etc"], ["home"], ["lib"], ["media"], ["mnt"], ["opt"],
  ["proc"], ["root"], ["run"], ["sbin"], ["srv"], ["sys"], ["tmp"], ["usr"], ["var"],
  ["bin", "usr"], ["lib", "usr"], ["local", "usr"], ["sbin", "usr"], ["share", "usr"],
  ["bin", "local", "usr"], ["sbin", "local", "usr"], ["work"]]

private def programNames : List String :=
  ["sh", "true", "false", "echo", "printf", "cat", "sleep", "kill", "test", "[", "seq", "printenv",
    "env", "head", "tail", "sort", "tr", "wc", "yes", "tee", "rm", "touch", "mkdir", "basename",
    "dirname", "nohup", "setsid", "timeout"]

private def textFiles : List (Place × String) := [
  (["passwd", "etc"], "root:x:0:0:root:/root:/bin/bash\n"),
  (["group", "etc"], "root:x:0:\n"),
  (["hosts", "etc"], "127.0.0.1\tlocalhost\n")]

/-- The usual directories, the null device and the programs that a script needs. -/
def Files.standard : Files where
  entries :=
    directories.map (fun d => (d, Entry.directory))
      ++ [(["null", "dev"], .nullDevice), (["zero", "dev"], .zeroDevice)]
      ++ textFiles.map (fun f => (f.1, Entry.file (Text.Utf8.encode f.2.toList)))
      ++ programNames.flatMap fun p =>
        [([p, "bin"], Entry.program p), ([p, "bin", "usr"], Entry.program p)]
  workingDirectory := ["work"]

end HeapPressure.Machine
