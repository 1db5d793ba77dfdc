import HeapPressure.Shell.State

/-!
Signals as they reach a process: those that end or stop it do so when they arrive, actions are run
when the command at hand is over.
-/
namespace HeapPressure.Shell

abbrev Result := Flow × State

/-- Runs the action for a signal. -/
abbrev Action := List Char → State → Result

/-- A signal that arrives: ignored, or left to its usual effect. `none` when there is an action
for it. -/
def meet (n : Nat) (s : State) : Option Result :=
  if s.minds n then none
  else if !Signal.isInexorable n && (s.deaf.contains n || (s.traps.lookup n).isSome) then
    some (.next, s)
  else
    match Signal.effect n with
    | .nothing => some (.next, s)
    | .stop => some (.stuck, s)
    | .death => some (.killed n, s)

/-- Meets a signal, with its action if there is one; the status stays as it was. -/
def receive (act : Action) (n : Nat) (s : State) : Result :=
  match meet n s with
  | some r => r
  | none =>
    let (f, after) := act ((s.traps.lookup n).getD []) s
    (f, if f == .next then after.withStatus s.status else after)

/-- What a signal that comes at a time does, if the process does not go on: it is stopped for good
only when nothing makes it continue. -/
def haltedBy? (s : State) (alarm : Nat × Nat) : Option Flow :=
  match meet alarm.2 s with
  | some (.next, _) => none
  | some (.stuck, _) =>
    if s.alarms.any fun a => alarm.1 ≤ a.1 && a.2 == Signal.goOn then none else some .stuck
  | some (f, _) => some f
  | none => none

/-- Where the process is ended or stopped by a signal that comes before a time, if it is. -/
def haltedBefore? (s : State) (isDue : Nat → Bool) : Option Result :=
  (s.alarms.filter fun a => isDue a.1).findSome? fun a =>
    (haltedBy? s a).map fun f => (f, s.cutAt a.1)

/-- Lets the signals arrive that are due; of several of a kind one counts. -/
def delivered (act : Action) (r : Result) : Result :=
  match r with
  | (.next, s) =>
    if s.isCopy || s.alarms.isEmpty then r
    else
      match haltedBefore? s fun time => decide (time ≤ s.clock) with
      | some r => r
      | none =>
        let (due, later) := s.alarms.span fun a => a.1 ≤ s.clock
        let minded := (List.range (Signal.last + 1)).filter fun n =>
          s.minds n && due.any fun a => a.2 == n
        minded.foldl
          (fun r n =>
            match r with
            | (.next, s) => receive act n s
            | r => r)
          (.next, { s with alarms := later })
  | r => r

/-- How many commands a script may run without a pause before it counts as endless. -/
def patience : Nat := 300000

/-- When a process that never pauses has used up its time, and the signal it gets. -/
def exhaustion? (s : State) : Option (Nat × Nat) :=
  let limit := s.limit 't'
  limit.soft.map fun seconds =>
    (s.clock + 1000 * seconds, if limit.hard == limit.soft then Signal.kill else Signal.timeUsedUp)

/-- Interrupts a script that runs on without end, if any signal does; else it is stuck, as it is
when its processes are many. -/
def interrupted (act : Action) (s : State) : Result :=
  if s.steps < patience && s.effort < 4 * patience then (.next, s)
  else if 4 * patience ≤ s.effort then (.stuck, s)
  else
    let alarm := s.alarms.find? fun a => (haltedBy? s a).isSome || s.minds a.2
    match alarm, exhaustion? s with
    | none, none => (.stuck, s)
    | some (time, _), none => ontoTime time
    | none, some (time, n) => exhausted time n
    | some (time, _), some (limit, n) =>
      if time ≤ limit then ontoTime time else exhausted limit n
where
  ontoTime (time : Nat) : Result :=
    delivered act (.next, { s with clock := max s.clock time, steps := 0 })
  exhausted (time n : Nat) : Result :=
    let hard := (s.limit 't').hard
    let s := { s with
      clock := time
      steps := 0
      limits := ('t', ⟨hard, hard⟩) :: s.limits.filter fun l => l.1 != 't' }
    if s.isCopy && (meet n s).any fun r => r.1 != .next then (.died n, s) else receive act n s

/-- What is said when a child dies of a signal. -/
def mourn (n : Nat) (s : State) : State :=
  if Signal.isQuiet n then s else s.mention (Signal.description n)

end HeapPressure.Shell
