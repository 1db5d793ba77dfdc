import HeapPressure.Proofs.Shell.States
import HeapPressure.Proofs.Text.Numerals
import Mathlib.Data.List.TakeWhile

/-!
Arithmetic of the shell. An integer's text is read as that integer; and names that an expression
has assigned to are from then on as good as names that had their values from the start.
-/
namespace HeapPressure.Shell.Arithmetic

theorem digitIn_of_isDigit {c : Char} (h : c.isDigit = true) :
    digitIn 10 c = some (Json.digitValue c) := by
  have hlt : c.toNat - 48 < 10 := by
    have hle : c.toNat ≤ 57 := by
      simp only [Char.isDigit, Bool.and_eq_true, decide_eq_true_eq] at h
      exact h.2
    omega
  simp [digitIn, Json.digitValue, h, hlt]

theorem digitsIn_toDigits (n : Nat) : digitsIn 10 (Nat.toDigits 10 n) = (n, []) := by
  have hdigit : ∀ c ∈ Nat.toDigits 10 n, digitIn 10 c = some (Json.digitValue c) := fun c hc =>
    digitIn_of_isDigit (Text.isDigit_of_mem_toDigits hc)
  have htake : (Nat.toDigits 10 n).takeWhile (fun c => (digitIn 10 c).isSome) =
      Nat.toDigits 10 n := by
    rw [List.takeWhile_eq_self_iff]
    intro c hc
    rw [hdigit c hc]
    rfl
  have hvalue : (Nat.toDigits 10 n).foldl (fun n c => n * 10 + (digitIn 10 c).getD 0) 0 =
      Json.natOfDigits (Nat.toDigits 10 n) := by
    apply List.foldl_ext
    intro m c hc
    rw [hdigit c hc, Option.getD_some]
  rw [digitsIn, htake]
  simp only [hvalue, List.drop_length, Json.natOfDigits_toDigits]

theorem numeral_toDigits (n : Nat) : numeral (Nat.toDigits 10 n) = (n, []) := by
  by_cases hzero : (Nat.toDigits 10 n).head? = some '0'
  · obtain rfl := Text.toDigits_head hzero
    decide
  · rw [← digitsIn_toDigits n, numeral]
    · rintro x c rest h
      exact hzero (by rw [h]; rfl)
    · rintro rest h
      exact hzero (by rw [h]; rfl)

theorem isSpace_of_isDigit {c : Char} (h : c.isDigit = true) : isSpace c = false := by
  have hge : 48 ≤ c.toNat := by
    simp only [Char.isDigit, Bool.and_eq_true, decide_eq_true_eq] at h
    exact h.1
  have hblank : c ≠ ' ' := by
    rintro rfl
    cases h
  have hreturn : ¬c ≤ '\r' := by
    intro hle
    have hle' : c.toNat ≤ 13 := hle
    omega
  simp [isSpace, hblank, hreturn]

/-- A number written with a sign in front or without one. -/
theorem integerOf_digits {n : Nat} {negative : Bool} {text : String} {k : Int64}
    (htext : text.toList = (if negative then ['-'] else []) ++ Nat.toDigits 10 n)
    (hk : k.toInt = if negative then -(n : Int) else n) : integerOf text = .ok k := by
  obtain ⟨d, ds, hds⟩ := List.exists_cons_of_ne_nil (@Nat.toDigits_ne_nil n 10)
  have hd : d.isDigit = true := Text.isDigit_of_mem_toDigits (hds ▸ List.mem_cons_self)
  have hnumeral : numeral (d :: ds) = (n, []) := hds ▸ numeral_toDigits n
  have hlow : -0x8000000000000000 ≤ k.toInt := k.le_toInt
  have hhigh : k.toInt < 0x8000000000000000 := k.toInt_lt
  rw [hds] at htext
  cases negative with
  | false =>
    have hsigns : d ≠ '-' ∧ d ≠ '+' := by
      constructor <;> rintro rfl <;> cases hd
    have htext' : text.toList.dropWhile isSpace = d :: ds := by
      rw [htext]
      simp [isSpace_of_isDigit hd]
    replace hk : k.toInt = n := hk
    rw [integerOf, htext']
    simp [hsigns, hnumeral, ← hk, hlow, hhigh]
  | true =>
    have htext' : text.toList.dropWhile isSpace = '-' :: d :: ds := by
      rw [htext]
      rfl
    replace hk : k.toInt = -n := hk
    rw [integerOf, htext']
    simp [hnumeral, ← hk, hlow, hhigh]

/-- The text of an integer is read as that integer. -/
theorem integerOf_text (n : Int64) : integerOf (toString n.toInt) = .ok n := by
  cases hn : n.toInt with
  | ofNat k => exact @integerOf_digits k false _ _ (Text.toList_nat k) hn
  | negSucc k => exact @integerOf_digits (k + 1) true _ _ (Text.toList_negSucc k) hn

/-- Work on an expression, which notes the names it assigns to. -/
abbrev Work (α : Type) := StateT Assigned (Except Fault) α

/-- A relation between two ways of working things out, under one meaning of names and under
another, that goes over from the parts of an expression to the whole. -/
structure Carries (lookup lookup' : String → Option String)
    (R : ∀ α : Type, Work α → Work α → Prop) : Prop where
  plain {α : Type} (x : α) : R α (pure x) (pure x)
  chain {α β : Type} {m m' : Work α} {f f' : α → Work β} (hm : R α m m')
    (hf : ∀ x, R β (f x) (f' x)) : R β (m >>= f) (m' >>= f')
  valueOf (name : String) : R Int64 (valueOf lookup name) (valueOf lookup' name)
  combine (mark : String) (x y : Int64) :
    R Int64 (liftM (combine mark x y)) (liftM (combine mark x y))
  note (name : String) (n : Int64) :
    R Unit (modify fun a => (name, n) :: a) (modify fun a => (name, n) :: a)

theorem Carries.eval {lookup lookup' : String → Option String}
    {R : ∀ α : Type, Work α → Work α → Prop} (h : Carries lookup lookup' R) (e : Expr) :
    R Int64 (e.eval lookup) (e.eval lookup') := by
  induction e with
  | number n => exact h.plain n
  | name s => exact h.valueOf s
  | unary mark e ih => exact h.chain ih fun a => h.plain _
  | binary mark a b iha ihb =>
    refine h.chain iha fun x => ?_
    split
    · split
      · exact h.plain _
      · exact h.chain ihb fun y => h.plain _
    · split
      · split
        · exact h.plain _
        · exact h.chain ihb fun y => h.plain _
      · exact h.chain ihb fun y => h.combine mark x y
  | choose condition yes no ihc ihy ihn =>
    refine h.chain ihc fun x => ?_
    split
    · exact ihy
    · exact ihn
  | assign s mark e ih =>
    refine h.chain ih fun x => ?_
    have hstore (y : Int64) : R Int64 (do modify fun a : Assigned => (s, y) :: a; pure y)
        (do modify fun a : Assigned => (s, y) :: a; pure y) :=
      h.chain (h.note s y) fun _ => h.plain y
    split
    · exact hstore x
    · exact h.chain (h.valueOf s) fun old => h.chain (h.combine mark old x) hstore

/-- What names stand for once they have been assigned to. -/
def pending (lookup : String → Option String) (assigned : Assigned) (name : String) :
    Option String :=
  match assigned.lookup name with
  | some n => some (toString n.toInt)
  | none => lookup name

/-- Work that does on top of earlier assignments what other work does without them. -/
def Defers (earlier : Assigned) (α : Type) (m m' : Work α) : Prop :=
  ∀ later, m.run (later ++ earlier) = (m'.run later).map fun r => (r.1, r.2 ++ earlier)

variable {lookup : String → Option String} {earlier : Assigned}

theorem run_valueOf (name : String) (assigned : Assigned) :
    (valueOf lookup name).run assigned =
      match assigned.lookup name with
      | some n => .ok (n, assigned)
      | none => (integerOf ((lookup name).getD "")).map fun n => (n, assigned) := by
  change StateT.run (match assigned.lookup name with
    | some n => pure n
    | none => liftM (integerOf ((lookup name).getD ""))) assigned = _
  cases assigned.lookup name with
  | some n => rfl
  | none => cases integerOf ((lookup name).getD "") <;> rfl

theorem valueOf_defers (name : String) :
    Defers earlier Int64 (valueOf lookup name) (valueOf (pending lookup earlier) name) := by
  intro later
  rw [run_valueOf, run_valueOf, pending, List.lookup_append]
  cases later.lookup name with
  | some n => rfl
  | none =>
    cases earlier.lookup name with
    | some n =>
      simp only [Option.none_or, Option.getD_some, integerOf_text]
      rfl
    | none =>
      simp only [Option.none_or]
      cases integerOf ((lookup name).getD "") <;> rfl

theorem carries_defers : Carries lookup (pending lookup earlier) (Defers earlier) where
  plain _ _ := rfl
  chain {_ _ m m' f f'} hm hf := by
    intro later
    rw [StateT.run_bind, StateT.run_bind, hm later]
    cases m'.run later with
    | error e => rfl
    | ok r => exact hf r.1 r.2
  valueOf := valueOf_defers
  combine mark x y later := by cases combine mark x y <;> rfl
  note _ _ _ := rfl

/-- An expression that is worked out behind others sees the names they assigned to with the
values they gave them. -/
theorem Expr.eval_defers (e : Expr) :
    Defers earlier Int64 (e.eval lookup) (e.eval (pending lookup earlier)) :=
  carries_defers.eval e

/-- The faults that working out an expression can have; all others are faults of its text. -/
def Fault.IsOfValues (lookup : String → Option String) : Fault → Prop
  | .divisionByZero => True
  | .quotientTooLarge => True
  | .noNumber text => ∃ name, lookup name = some text
  | _ => False

/-- Work whose faults are only of that kind. -/
def FailsByValues (lookup : String → Option String) {α : Type} (m : Work α) : Prop :=
  ∀ assigned f, m.run assigned = .error f → f.IsOfValues lookup

theorem integerOf_empty : integerOf "" = .ok 0 := rfl

theorem integerOf_error {text : String} {f : Fault} (h : integerOf text = .error f) :
    f = .noNumber text := by
  unfold integerOf at h
  dsimp only at h
  -- The sign is split off first; behind it each test fails with the text as it was given.
  repeat' split at h
  all_goals
    cases h
    try rfl

theorem valueOf_fails (name : String) : FailsByValues lookup (valueOf lookup name) := by
  intro assigned f h
  rw [run_valueOf] at h
  cases hassigned : assigned.lookup name with
  | some n =>
    rw [hassigned] at h
    cases h
  | none =>
    rw [hassigned] at h
    cases hname : lookup name with
    | none =>
      rw [hname, Option.getD_none, integerOf_empty] at h
      cases h
    | some text =>
      rw [hname, Option.getD_some] at h
      cases hvalue : integerOf text with
      | ok n =>
        rw [hvalue] at h
        cases h
      | error e =>
        rw [hvalue] at h
        cases h
        rw [integerOf_error hvalue]
        exact ⟨name, hname⟩

theorem combine_error {mark : String} {x y : Int64} {f : Fault}
    (h : combine mark x y = .error f) : f = .divisionByZero ∨ f = .quotientTooLarge := by
  unfold combine at h
  split at h <;> try cases h
  split at h
  · cases h
    exact .inl rfl
  · split at h <;> cases h
    exact .inr rfl

theorem combine_fails (mark : String) (x y : Int64) :
    FailsByValues lookup (liftM (combine mark x y) : Work Int64) := by
  intro assigned f h
  cases hxy : combine mark x y with
  | error e =>
    rw [hxy] at h
    cases h
    rcases combine_error hxy with rfl | rfl <;> trivial
  | ok n =>
    rw [hxy] at h
    cases h

theorem carries_failsByValues :
    Carries lookup lookup fun _ m _ => FailsByValues lookup m where
  plain _ _ _ h := nomatch h
  chain {_ _ m _ f _} hm hf := by
    intro assigned fault h
    rw [StateT.run_bind] at h
    cases hrun : m.run assigned with
    | error e =>
      rw [hrun] at h
      cases h
      exact hm _ _ hrun
    | ok r =>
      rw [hrun] at h
      exact hf _ _ _ h
  valueOf := valueOf_fails
  combine := combine_fails
  note _ _ _ _ h := nomatch h

/-- An expression that could be read fails only by the values in it. -/
theorem Expr.eval_fails (e : Expr) : FailsByValues lookup (e.eval lookup) :=
  carries_failsByValues.eval e

end HeapPressure.Shell.Arithmetic

namespace HeapPressure.Shell

open Arithmetic

/-- Names keep what an expression gave them once they have got it, the latest value each. -/
theorem lookup_assignAll {assigned : Assigned} {s s' : State}
    (h : (assigned.reverse.forM fun x => assignTo x.1 (toString x.2.toInt)).run s = .ok ((), s'))
    (name : String) : s'.bindings.lookup name =
      pending (fun other => s.bindings.lookup other) assigned name := by
  induction assigned generalizing s' with
  | nil =>
    cases h
    rfl
  | cons x assigned ih =>
    rw [List.reverse_cons, List.forM_eq_forM, List.forM_append, StateT.run_bind] at h
    cases hbefore : (forM assigned.reverse fun x =>
        assignTo x.1 (toString x.2.toInt)).run s with
    | error e =>
      rw [hbefore] at h
      cases h
    | ok r =>
      rw [hbefore] at h
      have hlast : (assignTo x.1 (toString x.2.toInt)).run r.2 = .ok ((), s') := by
        rw [List.forM_cons] at h
        rw [← h]
        change _ = Except.bind ((assignTo x.1 (toString x.2.toInt)).run r.2) _
        cases (assignTo x.1 (toString x.2.toInt)).run r.2 <;> rfl
      rw [bindings_assignTo hlast, State.lookup_assign, ih hbefore, pending, pending,
        List.lookup_cons]
      by_cases hname : name = x.1
      · simp [hname]
      · have hbeq : (name == x.1) = false := by simpa using hname
        rw [if_neg hname, hbeq]

/-- It makes no difference whether an expression comes behind another in one text, or is worked out
when the names have got what the other gave them. -/
theorem eval_assignAll {assigned : Assigned} {s s' : State}
    (h : (assigned.reverse.forM fun x => assignTo x.1 (toString x.2.toInt)).run s = .ok ((), s'))
    (e : Expr) :
    (e.eval fun name => s.bindings.lookup name).run assigned =
      ((e.eval fun name => s'.bindings.lookup name).run []).map fun r =>
        (r.1, r.2 ++ assigned) := by
  have hlookup : (fun name => s'.bindings.lookup name) =
      pending (fun name => s.bindings.lookup name) assigned := funext (lookup_assignAll h)
  rw [hlookup]
  exact e.eval_defers []

end HeapPressure.Shell
