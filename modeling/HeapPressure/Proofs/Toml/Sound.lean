import HeapPressure.Proofs.Toml.Documents

/-!
What every document has that is read: no table gives a name twice, and every integer has 64 bits.
The steps that put a document together keep both.
-/
namespace HeapPressure.Toml

def Scalar.Fits : Scalar → Prop
  | .integer n => -0x8000000000000000 ≤ n ∧ n < 0x8000000000000000
  | _ => True

mutual

inductive Node.Sound : Node → Prop where
  | leaf {v : Scalar} (span : Span) (h : v.Fits) : Node.Sound (.leaf v span)
  | array {items : List Node} (span : Span) (h : ∀ n ∈ items, Node.Sound n) :
      Node.Sound (.array items span)
  | inlined {t : Table} (h : Table.Sound t) : Node.Sound (.inlined t)
  | table {t : Table} (h : Table.Sound t) : Node.Sound (.table t)
  | tables {items : List Table} (h : ∀ t ∈ items, Table.Sound t) : Node.Sound (.tables items)

inductive Table.Sound : Table → Prop where
  | intro {t : Table} (names_nodup : (names t.entries).Nodup)
      (nodes : ∀ e ∈ t.entries, Node.Sound e.2) : Table.Sound t

end

theorem mem_of_find? {α : Type} {name : String} {es : List (Key × α)} {a : α}
    (h : find? name es = some a) : ∃ e ∈ es, e.1.name = name ∧ e.2 = a := by
  obtain ⟨e, he, rfl⟩ := Option.map_eq_some_iff.mp h
  exact ⟨e, List.mem_of_find?_eq_some he, by simpa using List.find?_some he, rfl⟩

theorem nodup_names_append {α : Type} {es : List (Key × α)} {e : Key × α}
    (h : (names es).Nodup) (hnew : find? e.1.name es = none) : (names (es ++ [e])).Nodup := by
  have hne : ∀ d ∈ es, d.1.name ≠ e.1.name := by
    rw [find?, Option.map_eq_none_iff, List.find?_eq_none] at hnew
    intro d hd
    simpa using hnew d hd
  rw [names, List.map_append, List.nodup_append]
  refine ⟨h, List.pairwise_singleton _ _, ?_⟩
  intro x hx y hy
  obtain ⟨d, hd, rfl⟩ := List.mem_map.mp hx
  rw [List.map_singleton, List.mem_singleton] at hy
  exact hy ▸ hne d hd

theorem nodup_names_put {α : Type} {es : List (Key × α)} (key : Key) (a : α)
    (h : (names es).Nodup) : (names (put key a es)).Nodup := by
  rw [put]
  split
  · have hnames : names (es.map fun e => if isNamed key.name e then (e.1, a) else e) =
        names es := by
      rw [names, List.map_map]
      refine List.map_congr_left fun e _ => ?_
      by_cases he : isNamed key.name e <;> simp [he]
    rw [hnames]
    exact h
  · next hnew => exact nodup_names_append h (by simpa using hnew)

theorem mem_put {α : Type} {key : Key} {a : α} {es : List (Key × α)} {e : Key × α}
    (h : e ∈ put key a es) : e ∈ es ∨ e.2 = a := by
  rw [put] at h
  split at h
  · obtain ⟨d, hd, rfl⟩ := List.mem_map.mp h
    split
    · exact .inr rfl
    · exact .inl hd
  · rcases List.mem_append.mp h with h | h
    · exact .inl h
    · rw [List.mem_singleton.mp h]
      exact .inr rfl

namespace Table.Sound

variable {t u : Table}

theorem names_nodup (h : t.Sound) : (names t.entries).Nodup := by
  cases h with
  | intro hn _ => exact hn

theorem nodes (h : t.Sound) : ∀ e ∈ t.entries, e.2.Sound := by
  cases h with
  | intro _ he => exact he

/-- Only the entries count. -/
theorem of_entries (h : t.Sound) (he : u.entries = t.entries) : u.Sound :=
  .intro (he ▸ h.names_nodup) (he ▸ h.nodes)

theorem of_entries_nil (h : t.entries = []) : t.Sound :=
  .intro (by simp [h, names]) (by simp [h])

theorem found (h : t.Sound) {name : String} {n : Node} (hf : find? name t.entries = some n) :
    n.Sound := by
  obtain ⟨e, he, -, rfl⟩ := mem_of_find? hf
  exact h.nodes e he

theorem append (h : t.Sound) {e : Key × Node} (hnew : find? e.1.name t.entries = none)
    (he : e.2.Sound) : Table.Sound { t with entries := t.entries ++ [e] } := by
  refine .intro (nodup_names_append h.names_nodup hnew) fun d hd => ?_
  rcases List.mem_append.mp hd with hd | hd
  · exact h.nodes d hd
  · rw [List.mem_singleton.mp hd]
    exact he

theorem put (h : t.Sound) (key : Key) {n : Node} (hn : n.Sound) :
    Table.Sound { t with entries := put key n t.entries } := by
  refine .intro (nodup_names_put key n h.names_nodup) fun e he => ?_
  rcases mem_put he with he | rfl
  · exact h.nodes e he
  · exact hn

theorem remove (h : t.Sound) (name : String) :
    Table.Sound { t with entries := remove name t.entries } :=
  .intro (h.names_nodup.sublist (List.filter_sublist.map _))
    fun e he => h.nodes e (List.mem_of_mem_filter he)

end Table.Sound

theorem changeLast_sound {f : Table → Option Table}
    (hf : ∀ {t u : Table}, t.Sound → f t = some u → u.Sound) {items items' : List Table}
    (h : ∀ t ∈ items, t.Sound) (hc : changeLast f items = some items') :
    ∀ t ∈ items', t.Sound := by
  fun_induction changeLast f items generalizing items' with
  | case1 => cases hc
  | case2 a =>
    obtain ⟨b, hb, rfl⟩ := Option.map_eq_some_iff.mp hc
    intro t ht
    rw [List.mem_singleton.mp ht]
    exact hf (h a List.mem_cons_self) hb
  | case3 a as _ ih =>
    obtain ⟨bs, hbs, rfl⟩ := Option.map_eq_some_iff.mp hc
    intro t ht
    rcases List.mem_cons.mp ht with rfl | ht
    · exact h _ List.mem_cons_self
    · exact ih (fun t ht => h t (List.mem_cons_of_mem a ht)) hbs t ht

theorem eq_some_of_map_bind {α β γ : Type} {o : Option α} {f : α → β} {g : β → γ} {c : γ}
    (h : (o.map f >>= fun b => pure (g b)) = some c) : ∃ a, o = some a ∧ c = g (f a) := by
  cases o with
  | none => cases h
  | some a => exact ⟨a, rfl, (Option.some.inj h).symm⟩

theorem alongHeaders_sound {f : Table → Option Table}
    (hf : ∀ {t u : Table}, t.Sound → f t = some u → u.Sound) {path : List Key} {t u : Table}
    (ht : t.Sound) (h : alongHeaders f path t = some u) : u.Sound := by
  induction path generalizing t u with
  | nil => exact hf ht h
  | cons key path ih =>
    rw [alongHeaders] at h
    split at h
    · obtain ⟨inner, hi, rfl⟩ := eq_some_of_map_bind h
      exact ht.put key (.table (ih (.of_entries_nil rfl) hi))
    · next inner hfound =>
      obtain ⟨inner', hi, rfl⟩ := eq_some_of_map_bind h
      cases ht.found hfound with
      | table hs => exact ht.put key (.table (ih hs hi))
    · next items hfound =>
      obtain ⟨items', hi, rfl⟩ := eq_some_of_map_bind h
      cases ht.found hfound with
      | tables hs => exact ht.put key (.tables (changeLast_sound ih hs hi))
    · cases h

theorem setDotted_sound {inBraces : Bool} {last : Key} {value : Node} (hv : value.Sound)
    {path : List Key} {t u : Table} (ht : t.Sound)
    (h : setDotted inBraces last value path t = some u) : u.Sound := by
  induction path generalizing t u with
  | nil =>
    rw [setDotted] at h
    split at h
    · cases h
    · next hnew =>
      cases h
      exact ht.append (by simpa using hnew) hv
  | cons key path ih =>
    have henter {inner inner' : Table} (hs : inner.Sound)
        (hi : (if inner.form.implicit && (inner.form.dotted || !path.isEmpty) then
          setDotted inBraces last value path inner else none) = some inner') : inner'.Sound := by
      split at hi
      · exact ih hs hi
      · cases hi
    rw [setDotted] at h
    split at h
    · obtain ⟨made, hmade, hu⟩ := Option.bind_eq_some_iff.mp h
      have hs : made.Sound := ih (.of_entries_nil rfl) hmade
      cases hu
      refine ht.put key ?_
      split
      · exact .inlined hs
      · exact .table hs
    · next inner hfound =>
      obtain ⟨inner', hi, rfl⟩ := eq_some_of_map_bind h
      cases ht.found hfound with
      | table hs => exact ht.put key (.table (henter hs hi))
    · next inner hfound =>
      split at h
      · obtain ⟨inner', hi, rfl⟩ := eq_some_of_map_bind h
        cases ht.found hfound with
        | inlined hs => exact ht.put key (.inlined (henter hs hi))
      · cases h
    · next items hfound =>
      split at h
      · cases h
      · obtain ⟨items', hi, rfl⟩ := eq_some_of_map_bind h
        cases ht.found hfound with
        | tables hs => exact ht.put key (.tables (changeLast_sound ih hs hi))
    · cases h

theorem lookupTable?_sound {path : List Key} {t u : Table} (ht : t.Sound)
    (h : lookupTable? path t = some u) : u.Sound := by
  induction path generalizing t with
  | nil =>
    cases h
    exact ht
  | cons key path ih =>
    rw [lookupTable?] at h
    split at h
    · next inner hfound =>
      cases ht.found hfound with
      | table hs => exact ih hs h
    · next items hfound =>
      split at h
      · next inner hlast =>
        cases ht.found hfound with
        | tables hs => exact ih (hs inner (List.mem_of_getLast? hlast)) h
      · cases h
    · cases h

def Line.Sound : Line → Prop
  | .pair _ _ value => value.Sound
  | _ => True

namespace State

structure Sound (s : State) : Prop where
  root : s.root.Sound
  current : s.current.Sound

variable {s s' : State}

theorem Sound.close {t : Table} (hs : s.Sound) (h : s.close = some t) : t.Sound := by
  rw [State.close] at h
  split at h
  · cases h
    exact hs.current
  · refine alongHeaders_sound (fun ht hu => ?_) hs.root h
    cases hu
    exact ht.put _ (.table hs.current)
  · refine alongHeaders_sound (fun ht hu => ?_) hs.root h
    split at hu
    · next items hfound =>
      cases hu
      refine ht.put _ (.tables fun u hu => ?_)
      rcases List.mem_append.mp hu with hu | hu
      · cases ht.found hfound with
        | tables hs => exact hs u hu
      · rw [List.mem_singleton.mp hu]
        exact hs.current
    · cases hu

theorem openTable_sound {path : List Key} {last : Key} {span : Span} {root : Table}
    (hr : root.Sound) (h : openTable path last span root = some s) : s.Sound := by
  have hopen {entries : List (Key × Node)}
      (h : (do
        let root ←
          alongHeaders (fun t => some { t with entries := remove last.name t.entries }) path root
        pure (⟨root, ⟨{}, some span, entries⟩, .table path last⟩ : State)) = some s)
      (he : Table.Sound ⟨{}, some span, entries⟩) : s.Sound := by
    obtain ⟨root', hroot, h⟩ := Option.bind_eq_some_iff.mp h
    cases h
    refine ⟨alongHeaders_sound (fun ht hu => ?_) hr hroot, he⟩
    cases hu
    exact ht.remove _
  unfold openTable at h
  split at h
  · exact hopen h (.of_entries_nil rfl)
  · next t hfound =>
    obtain ⟨u, hu, hfound⟩ := Option.bind_eq_some_iff.mp hfound
    split at h
    · cases (lookupTable?_sound hr hu).found hfound with
      | table hs => exact hopen h (hs.of_entries rfl)
    · cases h
  · cases h

theorem openTables_sound {path : List Key} {last : Key} {span : Span} {root : Table}
    (hr : root.Sound) (h : openTables path last span root = some s) : s.Sound := by
  obtain ⟨root', hroot, h⟩ := Option.bind_eq_some_iff.mp h
  cases h
  refine ⟨alongHeaders_sound (fun ht hu => ?_) hr hroot, .of_entries_nil rfl⟩
  split at hu
  · next hnew =>
    cases hu
    exact ht.append hnew (.tables (by simp))
  · cases hu
    exact ht
  · cases hu

theorem Sound.addLine {l : Line} (hs : s.Sound) (hl : l.Sound) (h : s.addLine l = some s') :
    s'.Sound := by
  cases l with
  | header path last span =>
    obtain ⟨root, hroot, h⟩ := Option.bind_eq_some_iff.mp h
    exact openTable_sound (hs.close hroot) h
  | tablesHeader path last span =>
    obtain ⟨root, hroot, h⟩ := Option.bind_eq_some_iff.mp h
    exact openTables_sound (hs.close hroot) h
  | pair path last value =>
    obtain ⟨current, hcurrent, h⟩ := Option.bind_eq_some_iff.mp h
    cases h
    have hextend : (s.current.extend value).Sound := hs.current.of_entries (extend_entries _ _)
    exact ⟨hs.root, setDotted_sound hl hextend hcurrent⟩

theorem Sound.foldlM {ls : List Line} (hs : s.Sound) (hl : ∀ l ∈ ls, l.Sound)
    (h : ls.foldlM State.addLine s = some s') : s'.Sound := by
  induction ls generalizing s with
  | nil =>
    cases h
    exact hs
  | cons l ls ih =>
    rw [List.foldlM_cons] at h
    obtain ⟨s₁, h₁, h⟩ := Option.bind_eq_some_iff.mp h
    exact ih (hs.addLine (hl l List.mem_cons_self) h₁)
      (fun l' hl' => hl l' (List.mem_cons_of_mem l hl')) h

end State

theorem assemble_sound {ls : List Line} {t : Table} (hl : ∀ l ∈ ls, l.Sound)
    (h : assemble ls = some t) : t.Sound := by
  obtain ⟨s, hs, h⟩ := Option.bind_eq_some_iff.mp h
  have hstart : State.Sound {} := ⟨.of_entries_nil rfl, .of_entries_nil rfl⟩
  exact (hstart.foldlM hl hs).close h

end HeapPressure.Toml
