import HeapPressure.CommandLine.Scan
import HeapPressure.Proofs.Results
import HeapPressure.Proofs.Text.Numerals
import Mathlib.Data.List.Nodup
import Mathlib.Data.List.TakeWhile

/-!
Command lines of long options: a command line is accepted exactly when it spells options with
acceptable values, none of them twice.
-/
namespace HeapPressure.CommandLine

/-- Options that can be told from one another, and from `--`. -/
structure Distinct (options : List OptionSpec) : Prop where
  nodup : (options.map OptionSpec.name).Nodup
  named : ∀ o ∈ options, o.name ≠ "" ∧ '=' ∉ o.name.toList

/-- An argument that can be the value of the option in front of it. -/
def IsWord (arg : String) : Prop := ∀ c cs, arg.toList ≠ '-' :: c :: cs

/-- The options that a command line spells, with their values. -/
inductive Spells (options : List OptionSpec) : List (String × String) → List String → Prop where
  | nil : Spells options [] []
  | stop : Spells options [] ["--"]
  | flag {name : String} {given : List (String × String)} {args : List String}
      (ho : ⟨name, .flag⟩ ∈ options) (h : Spells options given args) :
      Spells options ((name, "") :: given) (("--" ++ name) :: args)
  | attached {name v : String} {accepts : String → Bool} {given : List (String × String)}
      {args : List String} (ho : ⟨name, .value accepts⟩ ∈ options) (hv : accepts v = true)
      (h : Spells options given args) :
      Spells options ((name, v) :: given) (("--" ++ name ++ "=" ++ v) :: args)
  | separate {name v : String} {accepts : String → Bool} {given : List (String × String)}
      {args : List String} (ho : ⟨name, .value accepts⟩ ∈ options) (hv : accepts v = true)
      (hw : IsWord v) (h : Spells options given args) :
      Spells options ((name, v) :: given) (("--" ++ name) :: v :: args)

variable {options : List OptionSpec} {name value : String} {accepts : String → Bool}
  {given : List (String × String)} {args : List String} {arg : String}

namespace Scan

variable {s s' : Scan}

theorem splitValue_name (h : '=' ∉ name.toList) : splitValue name.toList = (name, none) := by
  have htake : name.toList.takeWhile (· != '=') = name.toList :=
    List.takeWhile_eq_self_iff.mpr fun c hc => by
      rw [bne_iff_ne]
      rintro rfl
      exact h hc
  rw [splitValue, htake, List.drop_length]
  simp

theorem splitValue_attached (h : '=' ∉ name.toList) (cs : List Char) :
    splitValue (name.toList ++ '=' :: cs) = (name, some (String.ofList cs)) := by
  have htake : (name.toList ++ '=' :: cs).takeWhile (· != '=') = name.toList := by
    refine Text.takeWhile_append_stop (fun c hc => ?_) fun c hc => ?_
    · rw [bne_iff_ne]
      rintro rfl
      exact h hc
    · cases hc
      rfl
  rw [splitValue, htake, List.drop_left]
  simp

/-- All that can stand behind the dashes. -/
theorem splitValue_cases (cs : List Char) :
    ∃ name, splitValue cs = (name, none) ∧ cs = name.toList ∨
      ∃ v : String, splitValue cs = (name, some v) ∧ cs = name.toList ++ '=' :: v.toList := by
  let front := cs.takeWhile (· != '=')
  have hfront : '=' ∉ front := fun h => by simpa using List.mem_takeWhile_imp h
  have hcs : front ++ cs.dropWhile (· != '=') = cs := List.takeWhile_append_dropWhile
  refine ⟨String.ofList front, ?_⟩
  cases hback : cs.dropWhile (· != '=') with
  | nil =>
    rw [hback, List.append_nil] at hcs
    have hname : cs = (String.ofList front).toList := by rw [String.toList_ofList, hcs]
    refine .inl ⟨?_, hname⟩
    rw [hname]
    exact splitValue_name (by simpa using hfront)
  | cons c v =>
    have hc : c = '=' := by
      have h := List.head?_dropWhile_not (· != '=') cs
      rw [hback] at h
      simpa using h
    have hname : cs = (String.ofList front).toList ++ '=' :: (String.ofList v).toList := by
      rw [String.toList_ofList, String.toList_ofList, ← hc, ← hback, hcs]
    refine .inr ⟨String.ofList v, ?_, hname⟩
    rw [hname, splitValue_attached (by simpa using hfront), String.ofList_toList]

theorem record_eq_ok_iff : s.record name value = .ok s' ↔
    name ∉ s.given.map Prod.fst ∧ s' = { s with given := s.given ++ [(name, value)] } := by
  have hany : (s.given.any fun g => g.1 == name) = true ↔ name ∈ s.given.map Prod.fst := by
    simp
  rw [record, ← hany]
  split
  · next h => simp [h]
  · next h =>
    simp only [Except.ok.injEq, h, Bool.false_eq_true, not_false_eq_true, true_and]
    exact eq_comm

theorem settle_eq_ok_iff : s.settle = .ok s' ↔ s.pending = none ∧ s' = s ∨
    ∃ name accepts v, s.pending = some ⟨name, accepts, some v⟩ ∧ accepts v = true ∧
      record name v { s with pending := none } = .ok s' := by
  obtain ⟨given, pending, trailing⟩ := s
  match pending with
  | none =>
    constructor
    · intro h
      cases h
      exact .inl ⟨rfl, rfl⟩
    · rintro (⟨-, rfl⟩ | ⟨_, _, _, h, -⟩)
      · rfl
      · cases h
  | some ⟨name, accepts, none⟩ =>
    constructor
    · intro h
      cases h
    · rintro (⟨h, -⟩ | ⟨_, _, _, h, -⟩) <;> cases h
  | some ⟨name, accepts, some v⟩ =>
    have hsettle : settle ⟨given, some ⟨name, accepts, some v⟩, trailing⟩ =
        record name v ⟨given, none, trailing⟩ >>= fun s =>
          if accepts v then pure s else .error .invalidValue := rfl
    rw [hsettle, bind_eq_ok_iff]
    constructor
    · rintro ⟨s₁, hrecord, h⟩
      split at h
      · next hv =>
        cases h
        exact .inr ⟨name, accepts, v, rfl, hv, hrecord⟩
      · cases h
    · rintro (⟨h, -⟩ | ⟨_, _, _, h, hv, hrecord⟩)
      · cases h
      · cases h
        exact ⟨s', hrecord, if_pos hv⟩

theorem find?_eq_some_iff (hd : Distinct options) {o : OptionSpec} :
    options.find? (fun o => o.name == name) = some o ↔ o ∈ options ∧ o.name = name := by
  constructor
  · intro h
    have hname := List.find?_some h
    exact ⟨List.mem_of_find?_eq_some h, beq_iff_eq.mp hname⟩
  · rintro ⟨ho, rfl⟩
    cases hfind : options.find? (fun o' => o'.name == o.name) with
    | none => simpa using List.find?_eq_none.mp hfind o ho
    | some o' =>
      have ho' := List.mem_of_find?_eq_some hfind
      have hname := List.find?_some hfind
      rw [List.inj_on_of_nodup_map hd.nodup ho' ho (beq_iff_eq.mp hname)]

/-- All that an accepted argument can do. -/
inductive Steps (options : List OptionSpec) (s : Scan) : String → Scan → Prop where
  | stop : Steps options s "--" { s with trailing := true }
  | flag {name : String} {s₁ s' : Scan} (ho : ⟨name, .flag⟩ ∈ options) (hs : s.settle = .ok s₁)
      (hr : s₁.record name "" = .ok s') : Steps options s ("--" ++ name) s'
  | attached {name v : String} {accepts : String → Bool} {s₁ s' : Scan}
      (ho : ⟨name, .value accepts⟩ ∈ options) (hv : accepts v = true) (hs : s.settle = .ok s₁)
      (hr : s₁.record name v = .ok s') : Steps options s ("--" ++ name ++ "=" ++ v) s'
  | waiting {name : String} {accepts : String → Bool} {s₁ : Scan}
      (ho : ⟨name, .value accepts⟩ ∈ options) (hs : s.settle = .ok s₁) :
      Steps options s ("--" ++ name) { s₁ with pending := some ⟨name, accepts, none⟩ }
  | word {name arg : String} {accepts : String → Bool}
      (hp : s.pending = some ⟨name, accepts, none⟩) (hw : IsWord arg) :
      Steps options s arg { s with pending := some ⟨name, accepts, some arg⟩ }

theorem steps_of_named (hd : Distinct options) {cs : List Char}
    (hsplit : splitValue cs = (name, none)) (h : s.longOption options cs = .ok s') :
    Steps options s ("--" ++ name) s' := by
  rw [longOption, hsplit] at h
  dsimp only at h
  split at h
  · cases h
  · obtain ⟨s₁, -, h⟩ := bind_eq_ok_iff.mp h
    cases h
  · next heq => cases heq
  · next name hfind _ =>
    obtain ⟨ho, rfl⟩ := (find?_eq_some_iff hd).mp hfind
    obtain ⟨s₁, hs, hr⟩ := bind_eq_ok_iff.mp h
    exact .flag ho hs hr
  · next heq => cases heq
  · next heq => cases heq
  · next name accepts hfind _ =>
    obtain ⟨ho, rfl⟩ := (find?_eq_some_iff hd).mp hfind
    obtain ⟨s₁, hs, hr⟩ := bind_eq_ok_iff.mp h
    cases hr
    exact .waiting ho hs

theorem steps_of_attached (hd : Distinct options) {cs : List Char} {v : String}
    (hsplit : splitValue cs = (name, some v)) (h : s.longOption options cs = .ok s') :
    Steps options s ("--" ++ name ++ "=" ++ v) s' := by
  rw [longOption, hsplit] at h
  dsimp only at h
  split at h
  · cases h
  · next heq => cases heq
  · cases h
  · next heq => cases heq
  · cases h
  · next name accepts v' hfind heq =>
    cases heq
    obtain ⟨ho, rfl⟩ := (find?_eq_some_iff hd).mp hfind
    obtain ⟨s₁, hs, h⟩ := bind_eq_ok_iff.mp h
    obtain ⟨s₂, hr, h⟩ := bind_eq_ok_iff.mp h
    split at h
    · next hv =>
      cases h
      exact .attached ho hv hs hr
    · cases h
  · next heq => cases heq

theorem steps_of_longOption (hd : Distinct options) {cs : List Char}
    (harg : arg.toList = '-' :: '-' :: cs) (h : s.longOption options cs = .ok s') :
    Steps options s arg s' := by
  obtain ⟨front, ⟨hsplit, hcs⟩ | ⟨v, hsplit, hcs⟩⟩ := splitValue_cases cs
  · obtain rfl : arg = "--" ++ front := by
      rw [← String.toList_inj, harg, hcs]
      simp
    exact steps_of_named hd hsplit h
  · obtain rfl : arg = "--" ++ front ++ "=" ++ v := by
      rw [← String.toList_inj, harg, hcs]
      simp
    exact steps_of_attached hd hsplit h

theorem steps_of_argument (hd : Distinct options) (h : argument options s arg = .ok s') :
    Steps options s arg s' := by
  rw [argument] at h
  split at h
  · cases h
  split at h
  · next harg =>
    obtain rfl : arg = "--" := by
      rw [← String.toList_inj, harg]
      rfl
    cases h
    exact .stop
  · next cs _ harg => exact steps_of_longOption hd harg h
  · obtain ⟨s₁, -, h⟩ := bind_eq_ok_iff.mp h
    cases h
  · cases h
  · next hlong hshort hword =>
    split at h
    · next p hp =>
      split at h
      · next hnone =>
        cases h
        obtain ⟨name, accepts, value⟩ := p
        obtain rfl := Option.isNone_iff_eq_none.mp hnone
        exact .word hp hword
      · cases h
    · cases h

/-- What is to come on a command line, with an option pending perhaps. -/
inductive Rest (options : List OptionSpec) :
    Option Pending → List (String × String) → List String → Prop where
  | clear {given : List (String × String)} {args : List String}
      (h : Spells options given args) : Rest options none given args
  | valued {name v : String} {accepts : String → Bool} {given : List (String × String)}
      {args : List String} (hv : accepts v = true) (h : Spells options given args) :
      Rest options (some ⟨name, accepts, some v⟩) ((name, v) :: given) args
  | waiting {name v : String} {accepts : String → Bool} {given : List (String × String)}
      {args : List String} (hv : accepts v = true) (hw : IsWord v)
      (h : Spells options given args) :
      Rest options (some ⟨name, accepts, none⟩) ((name, v) :: given) (v :: args)

theorem pending_of_settle (h : s.settle = .ok s') :
    s'.pending = none ∧ s'.trailing = s.trailing := by
  obtain ⟨hp, rfl⟩ | ⟨_, _, _, -, -, hr⟩ := settle_eq_ok_iff.mp h
  · exact ⟨hp, rfl⟩
  · obtain ⟨-, rfl⟩ := record_eq_ok_iff.mp hr
    exact ⟨rfl, rfl⟩

variable (options) in
/-- What settling adds was to come. -/
theorem rest_of_settle (h : s.settle = .ok s') : ∃ owed, s'.given = s.given ++ owed ∧
    ∀ {more args}, Spells options more args → Rest options s.pending (owed ++ more) args := by
  obtain ⟨hp, rfl⟩ | ⟨name, accepts, v, hp, hv, hr⟩ := settle_eq_ok_iff.mp h
  · rw [hp]
    exact ⟨[], (List.append_nil _).symm, .clear⟩
  · obtain ⟨-, rfl⟩ := record_eq_ok_iff.mp hr
    rw [hp]
    exact ⟨[(name, v)], rfl, .valued hv⟩

/-- An option that is recorded stands between what was owed before it and what comes behind it. -/
theorem rest_of_recorded {s₁ f : Scan} {v arg : String} (hs : s.settle = .ok s₁)
    (hr : s₁.record name v = .ok s')
    (hrest : ∃ more, Rest options s'.pending more args ∧ f.given = s'.given ++ more)
    (hspells : ∀ {more : List (String × String)}, Spells options more args →
      Spells options ((name, v) :: more) (arg :: args)) :
    ∃ more, Rest options s.pending more (arg :: args) ∧ f.given = s.given ++ more := by
  obtain ⟨owed, hs₁, howed⟩ := rest_of_settle options hs
  have hpending := (pending_of_settle hs).1
  obtain ⟨-, rfl⟩ := record_eq_ok_iff.mp hr
  obtain ⟨more, hmore, hgiven⟩ := hrest
  rw [show Scan.pending { s₁ with given := s₁.given ++ [(name, v)] } = none from hpending] at hmore
  cases hmore with
  | clear hmore =>
    refine ⟨owed ++ (name, v) :: more, howed (hspells hmore), ?_⟩
    rw [hgiven, hs₁]
    simp

/-- A run that is accepted to its end has taken everything that was to come. -/
theorem rest_of_foldlM (hd : Distinct options) {e f : Scan}
    (h : args.foldlM (argument options) s = .ok e) (hf : e.settle = .ok f) :
    ∃ more, Rest options s.pending more args ∧ f.given = s.given ++ more := by
  induction args generalizing s with
  | nil =>
    cases h
    obtain ⟨owed, hgiven, hrest⟩ := rest_of_settle options hf
    exact ⟨owed ++ [], hrest .nil, by rw [hgiven, List.append_nil]⟩
  | cons arg args ih =>
    rw [List.foldlM_cons] at h
    obtain ⟨s₁, h₁, hrun⟩ := bind_eq_ok_iff.mp h
    cases steps_of_argument hd h₁ with
    | stop =>
      cases args with
      | nil =>
        cases hrun
        obtain ⟨owed, hgiven, hrest⟩ := rest_of_settle options hf
        exact ⟨owed ++ [], hrest .stop, by rw [hgiven, List.append_nil]⟩
      | cons arg args => cases hrun
    | flag ho hs hr =>
      exact rest_of_recorded hs hr (ih hrun) (.flag ho)
    | attached ho hv hs hr =>
      exact rest_of_recorded hs hr (ih hrun) (.attached ho hv)
    | waiting ho hs =>
      obtain ⟨owed, hs₁, hrest⟩ := rest_of_settle options hs
      obtain ⟨more, hmore, hgiven⟩ := ih hrun
      cases hmore with
      | waiting hv hw hmore =>
        refine ⟨owed ++ _, hrest (.separate ho hv hw hmore), ?_⟩
        rw [hgiven, ← List.append_assoc, ← hs₁]
    | word hp hw =>
      obtain ⟨more, hmore, hgiven⟩ := ih hrun
      rw [hp]
      cases hmore with
      | valued hv hmore => exact ⟨_, .waiting hv hw hmore, hgiven⟩

theorem nodup_of_record (hn : (s.given.map Prod.fst).Nodup) (h : s.record name value = .ok s') :
    (s'.given.map Prod.fst).Nodup := by
  obtain ⟨hnew, rfl⟩ := record_eq_ok_iff.mp h
  rw [List.map_append]
  exact List.Nodup.append hn (List.nodup_singleton name) (by simpa using hnew)

theorem nodup_of_settle (hn : (s.given.map Prod.fst).Nodup) (h : s.settle = .ok s') :
    (s'.given.map Prod.fst).Nodup := by
  obtain ⟨-, rfl⟩ | ⟨_, _, _, -, -, hr⟩ := settle_eq_ok_iff.mp h
  · exact hn
  · exact nodup_of_record (by exact hn) hr

theorem Steps.nodup (hn : (s.given.map Prod.fst).Nodup) (h : Steps options s arg s') :
    (s'.given.map Prod.fst).Nodup := by
  cases h with
  | stop | word => exact hn
  | flag _ hs hr | attached _ _ hs hr => exact nodup_of_record (nodup_of_settle hn hs) hr
  | waiting _ hs =>
    have hn₁ := nodup_of_settle hn hs
    exact hn₁

/-- No option is given twice. -/
theorem nodup_of_foldlM (hd : Distinct options) {e : Scan} (hn : (s.given.map Prod.fst).Nodup)
    (h : args.foldlM (argument options) s = .ok e) : (e.given.map Prod.fst).Nodup := by
  induction args generalizing s with
  | nil =>
    cases h
    exact hn
  | cons arg args ih =>
    rw [List.foldlM_cons] at h
    obtain ⟨s₁, h₁, hrun⟩ := bind_eq_ok_iff.mp h
    exact ih ((steps_of_argument hd h₁).nodup hn) hrun

theorem argument_of_toList {cs : List Char} (ht : s.trailing = false) (hcs : cs ≠ [])
    (harg : arg.toList = '-' :: '-' :: cs) :
    argument options s arg = s.longOption options cs := by
  obtain ⟨c, cs, rfl⟩ := List.exists_cons_of_ne_nil hcs
  rw [argument, if_neg (by simp [ht]), harg]
  rfl

theorem argument_of_isWord {p : Pending} (ht : s.trailing = false) (hw : IsWord arg)
    (hp : s.pending = some p) (hv : p.value = none) :
    argument options s arg = .ok { s with pending := some { p with value := some arg } } := by
  rw [argument, if_neg (by simp [ht])]
  split
  · next h => exact absurd h (hw _ _)
  · next h => exact absurd h (hw _ _)
  · next h => exact absurd h (hw _ _)
  · next h => exact absurd h (hw _ _)
  · rw [hp]
    simp [hv]

theorem argument_of_steps (hd : Distinct options) (ht : s.trailing = false)
    (h : Steps options s arg s') : argument options s arg = .ok s' := by
  cases h with
  | stop =>
    rw [argument, if_neg (by simp [ht])]
    rfl
  | @flag name s₁ _ ho hs hr =>
    obtain ⟨hname, heq⟩ := hd.named _ ho
    have harg : ("--" ++ name).toList = '-' :: '-' :: name.toList := by simp
    rw [argument_of_toList ht (by simpa using hname) harg, longOption, splitValue_name heq]
    simp only [(find?_eq_some_iff hd).mpr ⟨ho, rfl⟩]
    exact bind_eq_ok_iff.mpr ⟨s₁, hs, hr⟩
  | @attached name v accepts s₁ _ ho hv hs hr =>
    obtain ⟨hname, heq⟩ := hd.named _ ho
    have harg : ("--" ++ name ++ "=" ++ v).toList =
        '-' :: '-' :: (name.toList ++ '=' :: v.toList) := by simp
    rw [argument_of_toList ht (by simp) harg, longOption, splitValue_attached heq]
    simp only [(find?_eq_some_iff hd).mpr ⟨ho, rfl⟩, String.ofList_toList]
    refine bind_eq_ok_iff.mpr ⟨s₁, hs, ?_⟩
    refine bind_eq_ok_iff.mpr ⟨s', hr, if_pos hv⟩
  | @waiting name accepts s₁ ho hs =>
    obtain ⟨hname, heq⟩ := hd.named _ ho
    have harg : ("--" ++ name).toList = '-' :: '-' :: name.toList := by simp
    rw [argument_of_toList ht (by simpa using hname) harg, longOption, splitValue_name heq]
    simp only [(find?_eq_some_iff hd).mpr ⟨ho, rfl⟩]
    exact bind_eq_ok_iff.mpr ⟨s₁, hs, rfl⟩
  | word hp hw => exact argument_of_isWord ht hw hp rfl

theorem settle_of_pending (h : s.pending = none) : s.settle = .ok s :=
  settle_eq_ok_iff.mpr (.inl ⟨h, rfl⟩)

/-- An option that comes once is recorded, and what comes behind it still comes once. -/
theorem record_ok (hn : ((s.given ++ (name, value) :: given).map Prod.fst).Nodup) :
    s.record name value = .ok { s with given := s.given ++ [(name, value)] } ∧
      (((s.given ++ [(name, value)]) ++ given).map Prod.fst).Nodup := by
  have hnew : name ∉ s.given.map Prod.fst := by
    rw [List.map_append, List.nodup_append'] at hn
    exact fun h => hn.2.2 h List.mem_cons_self
  exact ⟨record_eq_ok_iff.mpr ⟨hnew, rfl⟩, by simpa using hn⟩

/-- From `s` on the arguments are accepted to their end, and leave these options. -/
def Accepts (options : List OptionSpec) (s : Scan) (args : List String)
    (given : List (String × String)) : Prop :=
  ∃ e f, args.foldlM (argument options) s = .ok e ∧ e.settle = .ok f ∧ f.given = given

theorem Accepts.cons (harg : argument options s arg = .ok s') (h : Accepts options s' args given) :
    Accepts options s (arg :: args) given := by
  obtain ⟨e, f, he, hf, hgiven⟩ := h
  refine ⟨e, f, ?_, hf, hgiven⟩
  rw [List.foldlM_cons, harg]
  exact he

/-- An option that is recorded at once, with what comes behind it. -/
theorem Accepts.recorded {s₁ : Scan} {v : String} (ht : s.trailing = false)
    (hs : s.settle = .ok s₁) (hn : ((s₁.given ++ (name, v) :: given).map Prod.fst).Nodup)
    (hstep : ∀ {s'}, s₁.record name v = .ok s' → argument options s arg = .ok s')
    (hrest : ∀ {s' s₂ : Scan}, s'.trailing = false → s'.settle = .ok s₂ →
      ((s₂.given ++ given).map Prod.fst).Nodup → Accepts options s' args (s₂.given ++ given)) :
    Accepts options s (arg :: args) (s₁.given ++ (name, v) :: given) := by
  obtain ⟨hp, ht₁⟩ := pending_of_settle hs
  obtain ⟨hr, hn'⟩ := record_ok hn
  have hsettle := settle_of_pending (s := { s₁ with given := s₁.given ++ [(name, v)] }) hp
  have hrest := hrest (by exact ht₁.trans ht) hsettle hn'
  rw [List.append_assoc, List.singleton_append] at hrest
  exact .cons (hstep hr) hrest

/-- Whatever spells options is accepted to its end, as long as no option comes twice. -/
theorem accepts_of_spells (hd : Distinct options) (h : Spells options given args) {s₁ : Scan}
    (ht : s.trailing = false) (hs : s.settle = .ok s₁)
    (hn : ((s₁.given ++ given).map Prod.fst).Nodup) :
    Accepts options s args (s₁.given ++ given) := by
  induction h generalizing s s₁ with
  | nil => exact ⟨s, s₁, rfl, hs, (List.append_nil _).symm⟩
  | stop =>
    have hsettle : settle { s with trailing := true } = .ok { s₁ with trailing := true } := by
      obtain ⟨hp, rfl⟩ | ⟨name, accepts, v, hp, hv, hr⟩ := settle_eq_ok_iff.mp hs
      · exact settle_of_pending hp
      · obtain ⟨hnew, rfl⟩ := record_eq_ok_iff.mp hr
        exact settle_eq_ok_iff.mpr
          (.inr ⟨name, accepts, v, hp, hv, record_eq_ok_iff.mpr ⟨hnew, rfl⟩⟩)
    exact .cons (argument_of_steps hd ht .stop)
      ⟨_, _, rfl, hsettle, (List.append_nil _).symm⟩
  | flag ho h ih =>
    exact .recorded ht hs hn (fun hr => argument_of_steps hd ht (.flag ho hs hr)) ih
  | attached ho hv h ih =>
    exact .recorded ht hs hn (fun hr => argument_of_steps hd ht (.attached ho hv hs hr)) ih
  | @separate name v accepts given args ho hv hw h ih =>
    obtain ⟨hp, ht₁⟩ := pending_of_settle hs
    obtain ⟨hr, hn'⟩ := record_ok (s := { s₁ with pending := none }) hn
    have hwaiting := argument_of_steps hd ht (.waiting ho hs)
    have hvalued := argument_of_steps hd (by exact ht₁.trans ht)
      (.word (s := { s₁ with pending := some ⟨name, accepts, none⟩ }) rfl hw)
    have hsettle := settle_eq_ok_iff (s := { s₁ with pending := some ⟨name, accepts, some v⟩ }).mpr
      (.inr ⟨name, accepts, v, rfl, hv, hr⟩)
    have hrest := ih (by exact ht₁.trans ht) hsettle hn'
    rw [List.append_assoc, List.singleton_append] at hrest
    exact .cons hwaiting (.cons hvalued hrest)

end Scan

/-- A command line is accepted exactly when it spells options, none of them twice. -/
theorem scan_eq_ok_iff (hd : Distinct options) : scan options args = .ok given ↔
    Spells options given args ∧ (given.map Prod.fst).Nodup := by
  rw [scan, bind_eq_ok_iff]
  simp only [bind_eq_ok_iff, pure, Except.pure, Except.ok.injEq]
  constructor
  · rintro ⟨e, he, f, hf, rfl⟩
    obtain ⟨more, hrest, hgiven⟩ := Scan.rest_of_foldlM hd he hf
    have hn := Scan.nodup_of_foldlM (s := {}) hd List.nodup_nil he
    cases hrest with
    | clear hspells =>
      rw [List.nil_append] at hgiven
      exact ⟨hgiven ▸ hspells, Scan.nodup_of_settle hn hf⟩
  · rintro ⟨hspells, hn⟩
    obtain ⟨e, f, he, hf, hgiven⟩ := Scan.accepts_of_spells (s := {}) hd hspells rfl rfl hn
    exact ⟨e, he, f, hf, hgiven⟩

end HeapPressure.CommandLine
