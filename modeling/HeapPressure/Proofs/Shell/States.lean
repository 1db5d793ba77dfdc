import HeapPressure.Shell.Expansion
import HeapPressure.Shell.Limits
import Mathlib.Logic.Relation

/-!
The state of a process that runs a script. A name keeps the value that it was given last, and the
limits on a process only ever get tighter: what is in force stays below what it may be set to, and
that is never raised, whatever the script asks for.
-/
namespace HeapPressure.Shell

/-- A list in which a key was given a value in the place of those that it had. -/
theorem lookup_cons_filter {α β : Type} [DecidableEq α] (key other : α) (v : β)
    (vs : List (α × β)) :
    ((key, v) :: vs.filter fun x => x.1 != key).lookup other =
      if other = key then some v else vs.lookup other := by
  by_cases hkey : other = key
  · simp [hkey]
  · have hothers : (vs.filter fun x => x.1 != key).lookup other = vs.lookup other := by
      induction vs with
      | nil => rfl
      | cons x vs ih =>
        by_cases hx : x.1 = key
        · have hother : (other == x.1) = false := by simpa [hx] using hkey
          rw [List.filter_cons_of_neg (by simp [hx]), ih, List.lookup_cons, hother]
        · rw [List.filter_cons_of_pos (by simpa using hx), List.lookup_cons, List.lookup_cons, ih]
    have hbeq : (other == key) = false := by simpa using hkey
    rw [List.lookup_cons, hbeq, if_neg hkey, hothers]

theorem State.lookup_assign (s : State) (name value other : String) :
    (s.assign name value).bindings.lookup other =
      if other = name then some value else s.bindings.lookup other :=
  lookup_cons_filter name other value s.bindings

theorem bindings_assignTo {name value : String} {s s' : State}
    (h : (assignTo name value).run s = .ok ((), s')) :
    s'.bindings = (s.assign name value).bindings := by
  have hrun : (assignTo name value).run s =
      if s.fixed.contains name then (abort (name ++ ": is read only") : Expansion Unit).run s
      else if !isName name.toList then
        (abort (name ++ ": bad variable name") : Expansion Unit).run s
      else if name == "OPTIND" && (natural? value).isNone then
        (abort ("Illegal number: " ++ value) : Expansion Unit).run s
      else
        let s := s.assign name value
        .ok ((), if s.has 'a' then { s with exported := name :: s.exported } else s) := by
    change StateT.run (if s.fixed.contains name then _ else _) s = _
    split
    · rfl
    · split
      · rfl
      · split <;> rfl
  rw [hrun] at h
  split at h
  · cases h
  · split at h
    · cases h
    · split at h
      · cases h
      · cases h
        split <;> rfl

namespace State

/-- Writing changes no limits. -/
@[simp]
theorem limits_write (n : Nat) (bytes : List UInt8) (s : State) :
    (s.write n bytes).limits = s.limits := by
  rw [write]
  split
  · rfl
  · split <;> rfl
  · rfl
  · rfl

@[simp]
theorem limits_withStatus (status : Nat) (s : State) : (s.withStatus status).limits = s.limits :=
  rfl

@[simp]
theorem limits_say (text : String) (s : State) : (s.say text).limits = s.limits :=
  limits_write ..

@[simp]
theorem limits_report (text : String) (status : Nat) (s : State) :
    (s.report text status).limits = s.limits :=
  limits_write ..

end State

namespace Limits

theorem atMost_refl (n : Option Nat) : atMost n n = true := by
  cases n <;> simp [atMost]

theorem atMost_trans {n m k : Option Nat} (hnm : atMost n m = true) (hmk : atMost m k = true) :
    atMost n k = true := by
  cases n <;> cases m <;> cases k <;> simp [atMost] at hnm hmk ⊢
  omega

/-- One limit is as tight as another if it could be got from that by changes. -/
structure Tightens (after before : Limit) : Prop where
  hard : atMost after.hard before.hard = true
  soft : atMost before.soft before.hard = true → atMost after.soft after.hard = true

theorem tightens_refl (l : Limit) : Tightens l l := ⟨atMost_refl _, id⟩

theorem Tightens.trans {l m n : Limit} (hlm : Tightens l m) (hmn : Tightens m n) : Tightens l n :=
  ⟨atMost_trans hlm.hard hmn.hard, fun h => hlm.soft (hmn.soft h)⟩

theorem tightens_of_changed {soft hard : Bool} {value : Option Nat} {l l' : Limit}
    (h : changed soft hard value l = .ok l') : Tightens l' l := by
  have hwanted (wanted : Limit) (h : (if !atMost wanted.soft wanted.hard then
      .error "Invalid argument"
    else if !atMost wanted.hard l.hard then .error "Operation not permitted"
    else .ok wanted : Except String Limit) = .ok l') : Tightens l' l := by
    split at h
    · cases h
    · next hsoft =>
      split at h
      · cases h
      · next hhard =>
        cases h
        exact ⟨by simpa using hhard, fun _ => by simpa using hsoft⟩
  exact hwanted _ h

/-- Whatever it is asked for, the command on limits loosens none. -/
theorem ulimit_tightens (args : List String) (s : State) :
    ∃ s', ulimit args s = .done s' ∧ ∀ letter, Tightens (s'.limit letter) (s.limit letter) := by
  have hsame (s' : State) (hlimits : s'.limits = s.limits) (letter : Char) :
      Tightens (s'.limit letter) (s.limit letter) := by
    rw [State.limit, State.limit, hlimits]
    exact tightens_refl _
  rw [ulimit]
  split
  · exact ⟨_, rfl, hsame _ (by simp)⟩
  · next g hg =>
    dsimp only
    split
    · split <;> exact ⟨_, rfl, hsame _ (by simp)⟩
    · split
      · exact ⟨_, rfl, hsame _ (by simp)⟩
      · split
        · exact ⟨_, rfl, hsame _ (by simp)⟩
        · split
          · exact ⟨_, rfl, hsame _ (by simp)⟩
          · next l hl =>
            refine ⟨_, rfl, fun other => ?_⟩
            rw [State.limit, State.limits_withStatus, lookup_cons_filter]
            split
            · next hother =>
              rw [hother]
              exact tightens_of_changed hl
            · exact tightens_refl _

/-- The states that commands on limits lead to, one after the other. -/
def Reaches : State → State → Prop :=
  Relation.ReflTransGen fun s s' => ∃ args, ulimit args s = .done s'

theorem Reaches.tightens {s s' : State} (h : Reaches s s') (letter : Char) :
    Tightens (s'.limit letter) (s.limit letter) := by
  induction h with
  | refl => exact tightens_refl _
  | @tail before after _ hstep ih =>
    obtain ⟨args, hdone⟩ := hstep
    obtain ⟨s', hdone', htightens⟩ := ulimit_tightens args before
    obtain rfl : after = s' := Effect.done.inj (hdone.symm.trans hdone')
    exact (htightens letter).trans ih

/-- A limit on memory that a process was started with stays in force, or a tighter one does. -/
theorem Reaches.memoryLimit_le {s s' : State} (h : Reaches s s') {n : Nat}
    (hlimit : s.limit 'v' = ⟨some n, some n⟩) : ∃ k ≤ n, s'.memoryLimit = some k := by
  have htightens := h.tightens 'v'
  rw [hlimit] at htightens
  have hsoft : atMost (s'.limit 'v').soft (some n) = true :=
    atMost_trans (htightens.soft (atMost_refl _)) htightens.hard
  rw [State.memoryLimit]
  cases hk : (s'.limit 'v').soft with
  | none =>
    rw [hk] at hsoft
    cases hsoft
  | some k =>
    rw [hk] at hsoft
    exact ⟨k, by simpa [atMost] using hsoft, rfl⟩

end Limits
end HeapPressure.Shell
