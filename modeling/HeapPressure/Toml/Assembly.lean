import HeapPressure.Toml.Value

/-!
Putting a document together from its lines. No name is defined twice: a table may be opened by
a header only once, and a dotted key reaches only into tables that dotted keys brought about.
-/
namespace HeapPressure.Toml

/-- A line that says something. -/
inductive Line where
  | header (path : List Key) (last : Key) (span : Span)
  | tablesHeader (path : List Key) (last : Key) (span : Span)
  | pair (path : List Key) (last : Key) (value : Node)

def isNamed {α : Type} (name : String) (e : Key × α) : Bool := e.1.name == name

/-- Replaces what stands under a name, or puts it at the end. -/
def put {α : Type} (key : Key) (a : α) (entries : List (Key × α)) : List (Key × α) :=
  if (find? key.name entries).isSome then
    entries.map fun e => if isNamed key.name e then (e.1, a) else e
  else entries ++ [(key, a)]

def remove {α : Type} (name : String) (entries : List (Key × α)) : List (Key × α) :=
  entries.filter fun e => !isNamed name e

/-- Changes the last element. -/
def changeLast {α : Type} (f : α → Option α) : List α → Option (List α)
  | [] => none
  | [a] => (f a).map ([·])
  | a :: as => (changeLast f as).map (a :: ·)

/-- Changes the table that a path of headers leads to, making the tables on the way. -/
def alongHeaders (f : Table → Option Table) : List Key → Table → Option Table
  | [], t => f t
  | key :: path, t => do
    let node ←
      match find? key.name t.entries with
      | none => (alongHeaders f path { form := { implicit := true } }).map .table
      | some (.table inner) => (alongHeaders f path inner).map .table
      | some (.tables items) => (changeLast (alongHeaders f path) items).map .tables
      | some _ => none
    pure { t with entries := put key node t.entries }

/-- Sets the value under a dotted key. The last table on the way has to be one made by dotted
keys exactly when there is a way. -/
def setDotted (inBraces : Bool) (last : Key) (value : Node) : List Key → Table → Option Table
  | [], t =>
    if (find? last.name t.entries).isSome then none
    else some { t with entries := t.entries ++ [(last, value)] }
  | key :: path, t => do
    let enter (inner : Table) : Option Table :=
      if inner.form.implicit && (inner.form.dotted || !path.isEmpty) then
        setDotted inBraces last value path inner
      else none
    let node ←
      match find? key.name t.entries with
      | none =>
        let made ← setDotted inBraces last value path { form := ⟨true, true⟩ }
        pure (if inBraces then Node.inlined made else .table made)
      | some (.table inner) => (enter inner).map .table
      | some (.inlined inner) => if inBraces then (enter inner).map .inlined else none
      | some (.tables items) =>
        if path.isEmpty then none
        else (changeLast (fun t => setDotted inBraces last value path t) items).map .tables
      | some _ => none
    pure { t with entries := put key node t.entries }

/-- The table being filled, and where it will go. -/
inductive Place where
  | root
  | table (path : List Key) (last : Key)
  | tables (path : List Key) (last : Key)

structure State where
  root : Table := {}
  current : Table := {}
  place : Place := .root

/-- Puts the table that was being filled where it belongs. -/
def State.close (s : State) : Option Table :=
  match s.place with
  | .root => some s.current
  | .table path last =>
    alongHeaders
      (fun t => some { t with entries := put last (.table s.current) t.entries }) path s.root
  | .tables path last =>
    alongHeaders
      (fun t =>
        match find? last.name t.entries with
        | some (.tables items) =>
          some { t with entries := put last (.tables (items ++ [s.current])) t.entries }
        | _ => none)
      path s.root

/-- The table at the end of a path of headers, if the headers so far made it. -/
def lookupTable? : List Key → Table → Option Table
  | [], t => some t
  | key :: path, t =>
    match find? key.name t.entries with
    | some (.table inner) => lookupTable? path inner
    | some (.tables items) =>
      match items.getLast? with
      | some inner => lookupTable? path inner
      | none => none
    | _ => none

/-- Opens a table under a header. One that longer headers brought about keeps its entries and
moves to the end. -/
def State.openTable (path : List Key) (last : Key) (span : Span) (root : Table) : Option State := do
  let entries ←
    match (lookupTable? path root).bind fun t => find? last.name t.entries with
    | none => some []
    | some (.table t) => if t.form.implicit && !t.form.dotted then some t.entries else none
    | some _ => none
  let root ←
    alongHeaders (fun t => some { t with entries := remove last.name t.entries }) path root
  pure ⟨root, ⟨{}, some span, entries⟩, .table path last⟩

/-- Opens one more table of an array of tables. -/
def State.openTables (path : List Key) (last : Key) (span : Span) (root : Table) :
    Option State := do
  let root ←
    alongHeaders
      (fun t =>
        match find? last.name t.entries with
        | none => some { t with entries := t.entries ++ [(last, .tables [])] }
        | some (.tables _) => some t
        | some _ => none)
      path root
  pure ⟨root, ⟨{}, some span, []⟩, .tables path last⟩

/-- A table reaches from its header to the end of its last value. -/
def Table.extend (t : Table) (value : Node) : Table :=
  match t.span, value.span? with
  | some s, some v => { t with span := some ⟨s.start, v.stop⟩ }
  | _, _ => t

def State.addLine (s : State) : Line → Option State
  | .header path last span => do State.openTable path last span (← s.close)
  | .tablesHeader path last span => do State.openTables path last span (← s.close)
  | .pair path last value => do
    pure { s with current := ← setDotted false last value path (Table.extend s.current value) }

/-- The document of the lines, unless they define a name twice. -/
def assemble (lines : List Line) : Option Table := do (← lines.foldlM State.addLine {}).close

end HeapPressure.Toml
