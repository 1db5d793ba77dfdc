import HeapPressure.Report.Json
import HeapPressure.Proofs.Json.Decoding
import HeapPressure.Proofs.Json.Spelling
import HeapPressure.Proofs.Report.Forms
import Mathlib.Tactic.MkIffOfInductiveProp

/-!
The reader of reports accepts the intended documents and no others, and takes each for the report
that is written in it.
-/
namespace HeapPressure.Report

open Json (Tree Value)

section Values

variable {t : Tree} {α : Type} {a : α}

theorem value_eq_iff {u : Tree} : t.value = u.value ↔ t = u := ⟨t.value_inj u, congrArg Tree.value⟩

theorem unsigned64_eq_ok_iff {n : UInt64} : t.value.unsigned64 = .ok n ↔ IsCounter n t :=
  Value.unsigned64_eq_ok_iff.trans (value_eq_iff (u := .number _))

theorem signed32_eq_ok_iff {n : Int32} : t.value.signed32 = .ok n ↔ IsSigned n t :=
  Value.signed32_eq_ok_iff.trans (value_eq_iff (u := .number _))

theorem text_eq_ok_iff {s : String} : t.value.text .string = .ok s ↔ IsText s t :=
  Value.text_eq_ok_iff.trans (value_eq_iff (u := .string s))

theorem ofName?_eq_some_iff {s : String} {v : Verdict} :
    Verdict.ofName? s = some v ↔ s = v.name := by
  constructor
  · intro h
    have hs := List.find?_some h
    exact (beq_iff_eq.mp hs).symm
  · rintro rfl
    exact Verdict.ofName?_name v

theorem readVerdict_eq_ok_iff {v : Verdict} : readVerdict t.value = .ok v ↔ Names v.name t := by
  rw [readVerdict, Value.variant_eq_ok_iff]
  simp only [ofName?_eq_some_iff, exists_eq_left]
  exact or_congr (value_eq_iff (u := .string _)) (value_eq_iff (u := .object [(_, .null)]))

theorem optional_eq_ok_iff {read : Value → Except Json.Error α} {form : α → Form}
    (hnull : ∀ a, ¬form a .null) (h : ∀ {t : Tree} {a : α}, read t.value = .ok a ↔ form a t)
    {o : Option α} : t.value.optional read = .ok o ↔ Optionally form o t := by
  rw [Value.optional_eq_ok_iff fun a ha => hnull a (h.mp ha)]
  cases o with
  | none =>
    simp only [and_true, reduceCtorEq, and_false, exists_false, or_false]
    exact value_eq_iff (u := .null)
  | some a => simp [h, Optionally]

theorem optional_unsigned64_eq_ok_iff {o : Option UInt64} :
    t.value.optional Value.unsigned64 = .ok o ↔ Optionally IsCounter o t :=
  optional_eq_ok_iff (fun n h => by cases h) unsigned64_eq_ok_iff

theorem optional_signed32_eq_ok_iff {o : Option Int32} :
    t.value.optional Value.signed32 = .ok o ↔ Optionally IsSigned o t :=
  optional_eq_ok_iff (fun n h => by cases h) signed32_eq_ok_iff

end Values

/-- A field is filled once: it keeps what it has where no value stands under its name, and takes
the value where there is one and it was empty. -/
inductive Fills {α : Type} (form : α → Form) : Option α → List Tree → Option α → Prop where
  | keep {o : Option α} : Fills form o [] o
  | fill {t : Tree} {a : α} (h : form a t) : Fills form none [t] (some a)

namespace Fills

variable {α : Type} {form : α → Form} {o o' : Option α} {ts us : List Tree} {t : Tree}

@[simp] theorem nil_iff : Fills form o [] o' ↔ o = o' := by
  constructor
  · rintro ⟨⟩
    rfl
  · rintro rfl
    exact .keep

theorem singleton_iff : Fills form o [t] o' ↔ o = none ∧ ∃ a, form a t ∧ o' = some a := by
  constructor
  · rintro ⟨⟩
    next h => exact ⟨rfl, _, h, rfl⟩
  · rintro ⟨rfl, a, h, rfl⟩
    exact .fill h

theorem append_iff :
    Fills form o (ts ++ us) o' ↔ ∃ o₁, Fills form o ts o₁ ∧ Fills form o₁ us o' := by
  constructor
  · intro h
    cases ts with
    | nil => exact ⟨o, .keep, h⟩
    | cons t ts =>
      generalize hts : t :: ts ++ us = vs at h
      cases h with
      | keep => cases hts
      | fill h =>
        obtain ⟨rfl, hnil⟩ := List.cons.inj hts
        obtain ⟨rfl, rfl⟩ := List.append_eq_nil_iff.mp hnil
        exact ⟨_, .fill h, .keep⟩
  · rintro ⟨o₁, h, h'⟩
    cases h with
    | keep => exact h'
    | fill h =>
      cases h' with
      | keep => exact .fill h

theorem some_iff {a : α} : Fills form none ts (some a) ↔ ∃ t, ts = [t] ∧ form a t := by
  constructor
  · rintro ⟨⟩
    next t h => exact ⟨t, rfl, h⟩
  · rintro ⟨t, rfl, h⟩
    exact .fill h

end Fills

/-- Every field of the draft is filled with what stands under its name. -/
@[mk_iff]
structure Draft.Takes (d : Draft) (under : String → List Tree) (d' : Draft) : Prop where
  verdict : Fills (fun v : Verdict => Names v.name) d.verdict (under "verdict") d'.verdict
  exitCode : Fills (Optionally IsSigned) d.exitCode (under "exit_code") d'.exitCode
  signal : Fills (Optionally IsSigned) d.signal (under "signal") d'.signal
  wallTimeMillis : Fills IsCounter d.wallTimeMillis (under "wall_time_ms") d'.wallTimeMillis
  cpuTimeMicros : Fills IsCounter d.cpuTimeMicros (under "cpu_time_us") d'.cpuTimeMicros
  peakMemoryBytes : Fills IsCounter d.peakMemoryBytes (under "peak_memory_bytes") d'.peakMemoryBytes
  memoryLimitBytes : Fills (Optionally IsCounter) d.memoryLimitBytes (under "memory_limit_bytes")
    d'.memoryLimitBytes
  stdout : Fills IsText d.stdout (under "stdout") d'.stdout
  stderr : Fills IsText d.stderr (under "stderr") d'.stderr

namespace Draft

variable {d d' : Draft} {under under' : String → List Tree} {name : String} {t : Tree}

theorem takes_append_iff : d.Takes (fun name => under name ++ under' name) d' ↔
    ∃ d₁, d.Takes under d₁ ∧ d₁.Takes under' d' := by
  simp only [takes_iff, Fills.append_iff]
  constructor
  · rintro ⟨⟨v, hv, hv'⟩, ⟨c, hc, hc'⟩, ⟨s, hs, hs'⟩, ⟨w, hw, hw'⟩, ⟨u, hu, hu'⟩, ⟨m, hm, hm'⟩,
      ⟨l, hl, hl'⟩, ⟨o, ho, ho'⟩, ⟨e, he, he'⟩⟩
    exact ⟨⟨v, c, s, w, u, m, l, o, e⟩, ⟨hv, hc, hs, hw, hu, hm, hl, ho, he⟩,
      ⟨hv', hc', hs', hw', hu', hm', hl', ho', he'⟩⟩
  · rintro ⟨d₁, ⟨hv, hc, hs, hw, hu, hm, hl, ho, he⟩,
      ⟨hv', hc', hs', hw', hu', hm', hl', ho', he'⟩⟩
    exact ⟨⟨_, hv, hv'⟩, ⟨_, hc, hc'⟩, ⟨_, hs, hs'⟩, ⟨_, hw, hw'⟩, ⟨_, hu, hu'⟩, ⟨_, hm, hm'⟩,
      ⟨_, hl, hl'⟩, ⟨_, ho, ho'⟩, ⟨_, he, he'⟩⟩

theorem once_eq_ok_iff {α : Type} {form : α → Form} {old new : Option α}
    {read : Except Json.Error α} (h : ∀ a, read = .ok a ↔ form a t) :
    Json.once name old read = .ok new ↔ Fills form old [t] new := by
  rw [Fills.singleton_iff]
  cases old with
  | none =>
    rw [Json.once, map_eq_ok_iff]
    simp [h, eq_comm]
  | some => simp [Json.once]

theorem takes_nil_iff : d.Takes (fun _ => []) d' ↔ d = d' := by
  obtain ⟨v, c, s, w, u, m, l, o, e⟩ := d
  obtain ⟨v', c', s', w', u', m', l', o', e'⟩ := d'
  simp [takes_iff]

/-- One member fills the field of its name, if there is one. -/
theorem field_eq_ok_iff :
    d.field name t.value = .ok d' ↔ d.Takes (fun n => if name = n then [t] else []) d' := by
  unfold field
  obtain ⟨v, c, s, w, u, m, l, o, e⟩ := d
  obtain ⟨v', c', s', w', u', m', l', o', e'⟩ := d'
  split
  case h_10 hv hc hs hw hu hm hl ho he =>
    have hskip : Json.skip t.value = .ok () := by rw [Json.skip, t.isWhole_value, if_pos rfl]
    rw [hskip, takes_iff, if_neg hv, if_neg hc, if_neg hs, if_neg hw, if_neg hu, if_neg hm,
      if_neg hl, if_neg ho, if_neg he]
    simp [bind, Except.bind, pure, Except.pure]
  -- the known fields differ in their readers only
  all_goals
    rw [bind_eq_ok_iff]
    simp [takes_iff, pure, Except.pure, and_left_comm,
      once_eq_ok_iff fun _ => readVerdict_eq_ok_iff,
      once_eq_ok_iff fun _ => optional_signed32_eq_ok_iff,
      once_eq_ok_iff fun _ => unsigned64_eq_ok_iff,
      once_eq_ok_iff fun _ => optional_unsigned64_eq_ok_iff,
      once_eq_ok_iff fun _ => text_eq_ok_iff]

theorem finish_eq_ok_iff {r : Report} :
    d.finish = .ok r ↔ d.verdict = some r.verdict ∧ d.exitCode.join = r.exitCode ∧
      d.signal.join = r.signal ∧ d.wallTimeMillis = some r.wallTimeMillis ∧
      d.cpuTimeMicros = some r.cpuTimeMicros ∧ d.peakMemoryBytes = some r.peakMemoryBytes ∧
      d.memoryLimitBytes.join = r.memoryLimitBytes ∧ d.stdout = some r.stdout ∧
      d.stderr = some r.stderr := by
  have hrequired {α : Type} {name : String} {o : Option α} {a : α} :
      Json.required name o = .ok a ↔ o = some a := by
    cases o <;> simp [Json.required]
  obtain ⟨v, c, s, w, u, m, l, o, e⟩ := r
  simp only [finish, bind_eq_ok_iff, hrequired, pure, Except.pure, Except.ok.injEq,
    Report.mk.injEq]
  constructor
  · rintro ⟨_, hv, _, hw, _, hu, _, hm, _, ho, _, he, rfl, hc, hs, rfl, rfl, rfl, hl, rfl, rfl⟩
    exact ⟨hv, hc, hs, hw, hu, hm, hl, ho, he⟩
  · rintro ⟨hv, hc, hs, hw, hu, hm, hl, ho, he⟩
    exact ⟨v, hv, w, hw, u, hu, m, hm, o, ho, e, he, rfl, hc, hs, rfl, rfl, rfl, hl, rfl, rfl⟩

end Draft

variable {ms : List (String × Tree)} {ts : List Tree} {r : Report}

theorem valuesUnder_cons (name n : String) (t : Tree) :
    valuesUnder n ((name, t) :: ms) = (if name = n then [t] else []) ++ valuesUnder n ms := by
  unfold valuesUnder
  split <;> simp [*]

theorem ofMembers_eq_ok_iff {d : Draft} : ofMembers d (Tree.membersOf ms) = .ok r ↔
    ∃ d', d.Takes (fun n => valuesUnder n ms) d' ∧ d'.finish = .ok r := by
  induction ms generalizing d with
  | nil =>
    have hnil : ∀ n, valuesUnder n [] = [] := fun _ => rfl
    simp only [hnil, Draft.takes_nil_iff, exists_eq_left']
    rfl
  | cons m ms ih =>
    obtain ⟨name, t⟩ := m
    simp only [valuesUnder_cons, Draft.takes_append_iff, ← Draft.field_eq_ok_iff]
    rw [Tree.membersOf, ofMembers, bind_eq_ok_iff]
    simp only [ih]
    exact ⟨fun ⟨d₁, h₁, d', h, hr⟩ => ⟨d', ⟨d₁, h₁, h⟩, hr⟩,
      fun ⟨d', ⟨d₁, h₁, h⟩, hr⟩ => ⟨d₁, h₁, d', h, hr⟩⟩

section Told

variable {α : Type} {f : α → Form}

theorem told_iff {a : α} (hnull : ¬f a .null) :
    Told (f a) ts ↔ Fills f none ts (some a) := by
  rw [Told, Fills.some_iff]
  simp [hnull]

theorem told_optionally_iff (hnull : ∀ a, ¬f a .null) {o : Option α} :
    Told (Optionally f o) ts ↔ ∃ slot, Fills (Optionally f) none ts slot ∧ slot.join = o := by
  constructor
  · rintro (⟨t, rfl, h⟩ | ⟨rfl, h⟩)
    · exact ⟨some o, .fill h, rfl⟩
    · cases o with
      | none => exact ⟨none, .keep, rfl⟩
      | some a => exact absurd h (hnull a)
  · rintro ⟨slot, h, rfl⟩
    cases h with
    | keep => exact .inr ⟨rfl, rfl⟩
    | fill h => exact .inl ⟨_, rfl, h⟩

theorem not_names_null {name : String} : ¬Names name .null := by
  rintro (h | h) <;> cases h

theorem not_isCounter_null {n : UInt64} : ¬IsCounter n .null := fun h => by cases h

theorem not_isSigned_null {n : Int32} : ¬IsSigned n .null := fun h => by cases h

theorem not_isText_null {s : String} : ¬IsText s .null := fun h => by cases h

end Told

theorem ofMembers_empty_eq_ok_iff :
    ofMembers {} (Tree.membersOf ms) = .ok r ↔ r.WrittenIn (.object ms) := by
  simp only [ofMembers_eq_ok_iff, Draft.finish_eq_ok_iff, Draft.takes_iff, WrittenIn, spelled,
    List.forall_mem_cons, List.not_mem_nil, false_implies, implies_true, and_true,
    told_iff (f := fun v : Verdict => Names v.name) not_names_null,
    told_iff (f := IsCounter) not_isCounter_null, told_iff (f := IsText) not_isText_null,
    told_optionally_iff (f := IsSigned) (fun _ => not_isSigned_null),
    told_optionally_iff (f := IsCounter) (fun _ => not_isCounter_null)]
  constructor
  · rintro ⟨d, ⟨hv, hc, hs, hw, hu, hm, hl, ho, he⟩, hv', hc', hs', hw', hu', hm', hl', ho', he'⟩
    rw [hv'] at hv
    rw [hw'] at hw
    rw [hu'] at hu
    rw [hm'] at hm
    rw [ho'] at ho
    rw [he'] at he
    exact ⟨hv, ⟨_, hc, hc'⟩, ⟨_, hs, hs'⟩, hw, hu, hm, ⟨_, hl, hl'⟩, ho, he⟩
  · rintro ⟨hv, ⟨c, hc, hc'⟩, ⟨s, hs, hs'⟩, hw, hu, hm, ⟨l, hl, hl'⟩, ho, he⟩
    exact ⟨⟨_, c, s, _, _, _, l, _, _⟩, ⟨hv, hc, hs, hw, hu, hm, hl, ho, he⟩, rfl, hc', hs', rfl,
      rfl, rfl, hl', rfl, rfl⟩

theorem item_bind_eq_ok_iff {α β : Type} {read : Value → Except Json.Error α} {i : Nat}
    {next : α × Json.Items → Except Json.Error β} {b : β} :
    item i read (Tree.itemsOf ts) >>= next = .ok b ↔
      ∃ t us a, ts = t :: us ∧ read t.value = .ok a ∧ next (a, Tree.itemsOf us) = .ok b := by
  cases ts with
  | nil => simp [item, Tree.itemsOf, Json.Items.next?, bind, Except.bind]
  | cons t us =>
    have hitem : item i read (Tree.itemsOf (t :: us)) =
        (read t.value).bind fun a => .ok (a, Tree.itemsOf us) := rfl
    rw [hitem]
    cases hread : read t.value with
    | error e => simp [hread, bind, Except.bind]
    | ok a => simp [hread, bind, Except.bind]

theorem finish_bind_eq_ok_iff {α : Type} {next : Unit → Except Json.Error α} {a : α} :
    (Tree.itemsOf ts).finish >>= next = .ok a ↔ ts = [] ∧ next () = .ok a := by
  cases ts <;> simp [Tree.itemsOf, Json.Items.finish, bind, Except.bind]

theorem ofItems_eq_ok_iff : ofItems (Tree.itemsOf ts) = .ok r ↔ r.WrittenIn (.array ts) := by
  simp only [ofItems, item_bind_eq_ok_iff, finish_bind_eq_ok_iff, pure, Except.pure,
    Except.ok.injEq, readVerdict_eq_ok_iff, optional_signed32_eq_ok_iff, unsigned64_eq_ok_iff,
    optional_unsigned64_eq_ok_iff, text_eq_ok_iff, WrittenIn, spelled, forall₂_nine_iff]
  constructor
  · rintro ⟨t₁, _, v, rfl, hv, t₂, _, c, rfl, hc, t₃, _, s, rfl, hs, t₄, _, w, rfl, hw, t₅, _, u,
      rfl, hu, t₆, _, m, rfl, hm, t₇, _, l, rfl, hl, t₈, _, o, rfl, ho, t₉, _, e, rfl, he, rfl, rfl⟩
    exact ⟨t₁, t₂, t₃, t₄, t₅, t₆, t₇, t₈, t₉, rfl, hv, hc, hs, hw, hu, hm, hl, ho, he⟩
  · rintro ⟨t₁, t₂, t₃, t₄, t₅, t₆, t₇, t₈, t₉, rfl, hv, hc, hs, hw, hu, hm, hl, ho, he⟩
    exact ⟨_, _, _, rfl, hv, _, _, _, rfl, hc, _, _, _, rfl, hs, _, _, _, rfl, hw, _, _, _, rfl, hu,
      _, _, _, rfl, hm, _, _, _, rfl, hl, _, _, _, rfl, ho, _, _, _, rfl, he, rfl, rfl⟩

variable {t : Tree}

theorem ofValue_eq_ok_iff : ofValue t.value = .ok r ↔ r.WrittenIn t := by
  cases t with
  | object ms => exact ofMembers_empty_eq_ok_iff
  | array ts => exact ofItems_eq_ok_iff
  | null | boolean | number | string =>
    simp [Tree.value, ofValue, Value.refuse_ne_ok, WrittenIn]

/-- The documents that are read, and the report that is read from each. -/
theorem ofJson_reads_intended (text : String) (t : Tree) (h : Json.Spells t text) :
    ((∃ r, ofJson text = .ok r) ↔ Intended t) ∧ ∀ r, ofJson text = .ok r ↔ r.WrittenIn t := by
  have hread (r : Report) : ofJson text = .ok r ↔ r.WrittenIn t := by
    rw [← ofValue_eq_ok_iff, ofJson, h.read]
    cases ofValue t.value <;> simp [bind, Except.bind, Json.Text.finish]
  refine ⟨?_, hread⟩
  simp only [hread]
  exact exists_writtenIn_iff

set_option maxRecDepth 10000 in
/-- Out of order, with an escape in a key, a surrogate pair in a value and other keys between. -/
theorem ofJson_reads_intended_reordered :
    let text := "\x7b\"stderr\":\"\\ud83d\\ude00\",\"x\" : [1.5e3,\x7b\"stderr\":7\x7d], " ++
      "\"v\\u0065rdict\":\x7b\"OK\":null\x7d,\"wall_time_ms\":3,\"x\":true,\"cpu_time_us\":0," ++
      "\"peak_memory_bytes\":18446744073709551615,\"stdout\":\"\"\x7d"
    let t : Tree := .object [
      ("stderr", .string "😀"),
      ("x", .array [.number ⟨false, 1, [5], some 3⟩, .object [("stderr", .number (.ofInt 7))]]),
      ("verdict", .object [("OK", .null)]),
      ("wall_time_ms", .number (.ofInt 3)),
      ("x", .boolean true),
      ("cpu_time_us", .number (.ofInt 0)),
      ("peak_memory_bytes", .number (.ofInt 0xFFFFFFFFFFFFFFFF)),
      ("stdout", .string "")]
    let r : Report := ⟨.ok, none, none, 3, 0, 0xFFFFFFFFFFFFFFFF, none, "", "😀"⟩
    Json.Spells t text ∧ Intended t ∧ ofJson text = .ok r := by
  intro text t r
  have hspells : Json.Spells t text := by
    refine Json.spells_iff_read.mpr ?_
    simp only [text, Json.read, String.reduceAppend, String.reduceToList]
    rfl
  obtain ⟨hintended, hreads⟩ := ofJson_reads_intended text t hspells
  have hwritten : r.WrittenIn t := by
    simp only [WrittenIn, t, spelled, List.forall_mem_cons]
    refine ⟨.inl ⟨_, rfl, .inr rfl⟩, .inr ⟨rfl, rfl⟩, .inr ⟨rfl, rfl⟩, .inl ⟨_, rfl, rfl⟩,
      .inl ⟨_, rfl, rfl⟩, .inl ⟨_, rfl, rfl⟩, .inr ⟨rfl, rfl⟩, .inl ⟨_, rfl, rfl⟩,
      .inl ⟨_, rfl, rfl⟩, by simp⟩
  exact ⟨hspells, hintended.mp ⟨r, (hreads r).mpr hwritten⟩, (hreads r).mpr hwritten⟩

end HeapPressure.Report
