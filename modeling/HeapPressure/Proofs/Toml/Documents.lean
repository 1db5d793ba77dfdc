import HeapPressure.Proofs.Toml.Lines

/-!
Documents of TOML with pairs at the top and one table behind them. Names that are all different
are put together in their order, and the table stands last.
-/
namespace HeapPressure.Toml

theorem find?_eq_none {α : Type} {name : String} {es : List (Key × α)}
    (h : ∀ e ∈ es, e.1.name ≠ name) : find? name es = none := by
  rw [find?, Option.map_eq_none_iff, List.find?_eq_none]
  intro e he
  simpa using h e he

theorem remove_of_notMem {α : Type} {name : String} {es : List (Key × α)}
    (h : ∀ e ∈ es, e.1.name ≠ name) : remove name es = es := by
  rw [remove, List.filter_eq_self]
  intro e he
  simpa [isNamed] using h e he

theorem put_of_notMem {α : Type} {key : Key} {es : List (Key × α)}
    (h : ∀ e ∈ es, e.1.name ≠ key.name) (a : α) : put key a es = es ++ [(key, a)] := by
  rw [put, find?_eq_none h]
  rfl

def names {α : Type} (es : List (Key × α)) : List String := es.map fun e => e.1.name

theorem extend_entries (t : Table) (n : Node) : (t.extend n).entries = t.entries := by
  unfold Table.extend
  split <;> rfl

theorem setDotted_new {t : Table} {key : Key} {n : Node}
    (h : ∀ e ∈ t.entries, e.1.name ≠ key.name) :
    setDotted false key n [] t = some { t with entries := t.entries ++ [(key, n)] } := by
  rw [setDotted, find?_eq_none h]
  rfl

theorem addLine_pair {s : State} {e : Key × Node}
    (h : ∀ d ∈ s.current.entries, d.1.name ≠ e.1.name) :
    ∃ t, s.addLine (.pair [] e.1 e.2) = some { s with current := t } ∧
      t.entries = s.current.entries ++ [e] := by
  have hnew : ∀ d ∈ (s.current.extend e.2).entries, d.1.name ≠ e.1.name := by
    rw [extend_entries]
    exact h
  rw [State.addLine, setDotted_new hnew]
  refine ⟨_, rfl, ?_⟩
  rw [extend_entries]

theorem foldlM_linesOf (es : List (Key × Node)) (s : State)
    (h : (names (s.current.entries ++ es)).Nodup) :
    ∃ t, (linesOf es).foldlM State.addLine s = some { s with current := t } ∧
      t.entries = s.current.entries ++ es := by
  induction es generalizing s with
  | nil => exact ⟨s.current, rfl, (List.append_nil _).symm⟩
  | cons e es ih =>
    have hnew : ∀ d ∈ s.current.entries, d.1.name ≠ e.1.name := by
      rw [names, List.map_append, List.nodup_append] at h
      intro d hd
      exact h.2.2 _ (List.mem_map_of_mem hd) _ List.mem_cons_self
    obtain ⟨t, ht, htes⟩ := addLine_pair hnew
    have hnames : (names (t.entries ++ es)).Nodup := by
      rw [htes, List.append_assoc]
      exact h
    obtain ⟨u, hu, hues⟩ := ih { s with current := t } hnames
    refine ⟨u, ?_, ?_⟩
    · rw [linesOf, List.map_cons, List.foldlM_cons, ht]
      exact hu
    · rw [hues, htes, List.append_assoc]
      rfl

theorem openTable_new {k : Key} {span : Span} {root : Table}
    (h : ∀ e ∈ root.entries, e.1.name ≠ k.name) :
    State.openTable [] k span root = some ⟨root, ⟨{}, some span, []⟩, .table [] k⟩ := by
  simp [State.openTable, lookupTable?, find?_eq_none h, alongHeaders, remove_of_notMem h]

theorem close_new {s : State} {k : Key} (hp : s.place = .table [] k)
    (h : ∀ e ∈ s.root.entries, e.1.name ≠ k.name) :
    s.close = some { s.root with entries := s.root.entries ++ [(k, .table s.current)] } := by
  rw [State.close, hp]
  simp only [alongHeaders, put_of_notMem h]

theorem assemble_lines {top inner : List (Key × Node)} {k : Key} (span : Span)
    (htop : (names top).Nodup) (hk : ∀ e ∈ top, e.1.name ≠ k.name)
    (hinner : (names inner).Nodup) :
    ∃ t u, assemble (linesOf top ++ .header [] k span :: linesOf inner) = some t ∧
      t.entries = top ++ [(k, .table u)] ∧ u.entries = inner := by
  obtain ⟨r, hr, hres⟩ := foldlM_linesOf top {} htop
  simp only [List.nil_append] at hres
  have hnew : ∀ e ∈ r.entries, e.1.name ≠ k.name := by
    rw [hres]
    exact hk
  obtain ⟨u, hu, hues⟩ := foldlM_linesOf inner ⟨r, ⟨{}, some span, []⟩, .table [] k⟩ hinner
  refine ⟨{ r with entries := r.entries ++ [(k, .table u)] }, u, ?_, ?_, ?_⟩
  · rw [assemble, List.foldlM_append, hr]
    simp only [Option.bind_eq_bind, Option.bind_some, List.foldlM_cons, State.addLine, State.close,
      openTable_new hnew, hu]
    exact close_new (s := ⟨r, u, .table [] k⟩) rfl hnew
  · rw [hres]
  · exact hues

/-- What is written: pairs, and behind a blank line a table with pairs of its own. -/
def documentChars (top : List (String × Plain)) (name : String) (inner : List (String × Plain)) :
    List Char :=
  top.flatMap pairChars ++ '\n' :: '[' :: (name.toList ++ ']' :: '\n' :: inner.flatMap pairChars)

theorem names_of_holds {ps : List (String × Plain)} {es : List (Key × Node)}
    (h : List.Forall₂ Holds ps es) : names es = ps.map Prod.fst := by
  induction h with
  | nil => rfl
  | cons he _ ih =>
    rw [List.map_cons, ← ih, ← he.1]
    rfl

theorem lines_documentChars {top inner : List (String × Plain)} {name : String}
    (htop : Writable top) (hname : Bare name) (hinner : Writable inner) :
    ∃ es k span ds, Lines (documentChars top name inner)
        (linesOf es ++ .header [] k span :: linesOf ds) ∧
      List.Forall₂ Holds top es ∧ k.name = name ∧ List.Forall₂ Holds inner ds := by
  obtain ⟨ds, hds, hlast⟩ := lines_nil.pairs hinner
  rw [List.append_nil, List.append_nil] at hlast
  obtain ⟨k, span, hheader, hk⟩ := line_header hname (inner.flatMap pairChars)
  have hlines := Lines.cons hheader (by rfl) (by simp; omega) hlast
  have hblank : line ('\n' :: '[' :: (name.toList ++ ']' :: '\n' :: inner.flatMap pairChars)) =
      some (none, '[' :: (name.toList ++ ']' :: '\n' :: inner.flatMap pairChars)) := rfl
  have hbehind := Lines.cons hblank rfl (by simp) hlines
  obtain ⟨es, hes, hall⟩ := hbehind.pairs htop
  exact ⟨es, k, span, ds, hall, hes, hk, hds⟩

theorem dropMark_documentChars {top inner : List (String × Plain)} {name : String}
    (htop : Writable top) :
    dropMark (documentChars top name inner) = documentChars top name inner := by
  cases top with
  | nil => rfl
  | cons p top =>
    have hk : Bare p.1 := (htop p List.mem_cons_self).1
    rw [documentChars, List.flatMap_cons, pairChars, List.append_assoc, List.append_assoc,
      List.append_assoc, dropMark]
    exact hk.ne_cons (by decide) _

theorem read_document {top inner : List (String × Plain)} {name : String}
    (htop : Writable top) (hname : Bare name) (hinner : Writable inner)
    (hnames : (name :: top.map Prod.fst).Nodup) (hinames : (inner.map Prod.fst).Nodup) :
    ∃ t es k u, read (String.ofList (documentChars top name inner)) = some t ∧
      t.entries = es ++ [(k, .table u)] ∧ List.Forall₂ Holds top es ∧ k.name = name ∧
      List.Forall₂ Holds inner u.entries := by
  obtain ⟨es, k, span, ds, hlines, hes, hk, hds⟩ := lines_documentChars htop hname hinner
  rw [← names_of_holds hes, List.nodup_cons] at hnames
  rw [← names_of_holds hds] at hinames
  have hnew : ∀ e ∈ es, e.1.name ≠ k.name := by
    intro e he hek
    exact hnames.1 (List.mem_map.mpr ⟨e, he, hek.trans hk⟩)
  obtain ⟨t, u, ht, htes, hues⟩ := assemble_lines span hnames.2 hnew hinames
  refine ⟨t, es, k, u, ?_, htes, hes, hk, hues ▸ hds⟩
  rw [read, String.toList_ofList, dropMark_documentChars htop, hlines _ (Nat.le_refl _)]
  exact ht

theorem foldlM_cons_ok {α β ε : Type} {add : α → β → Except ε α} {a a' : α} {b : β} {bs : List β}
    (h : add a b = .ok a') : (b :: bs).foldlM add a = bs.foldlM add a' := by
  rw [List.foldlM_cons, h]
  rfl

end HeapPressure.Toml
