import HeapPressure.Log.Choices
import HeapPressure.Proofs.Results
import HeapPressure.Proofs.Toml.Expressed

/-!
The choices about the log that a table makes. Reading a table finds the level and the format that
are written in it, in TOML as in JSON, and passes over everything else.
-/
namespace HeapPressure.Log

open Toml (Key Node Table Gives Reads names)

theorem Level.ofName?_eq_some_iff {s : String} {l : Level} : ofName? s = some l ↔ s = l.name := by
  constructor
  · intro h
    have hname := List.find?_some h
    exact (beq_iff_eq.mp hname).symm
  · rintro rfl
    exact ofName?_name l

theorem Format.ofName?_eq_some_iff {s : String} {f : Format} :
    ofName? s = some f ↔ s = f.name := by
  constructor
  · intro h
    have hname := List.find?_some h
    exact (beq_iff_eq.mp hname).symm
  · rintro rfl
    exact ofName?_name f

namespace Choices

/-- What is written in the entries of a table, whatever stands beside it. -/
structure WrittenIn (c : Choices) (es : List (Key × Node)) : Prop where
  level : Gives es "log-level" (fun l n => n.Spells Level.name l) none c.level
  format : Gives es "log-format" (fun f n => n.Spells Format.name f) none c.format

/-- What is read in the entries of a table. -/
structure ReadIn (c : Choices) (es : List (Key × Node)) : Prop where
  level : Gives es "log-level" (Reads levelOfNode) none c.level
  format : Gives es "log-format" (Reads formatOfNode) none c.format

/-- The choices that the entries give are known ones. -/
structure IntendedIn (es : List (Key × Node)) : Prop where
  level : ∀ e ∈ es, e.1.name = "log-level" →
    ∃ name ∈ ["error", "warn", "info", "debug", "trace"], e.2.Is (.string name)
  format : ∀ e ∈ es, e.1.name = "log-format" →
    ∃ name ∈ ["plaintext", "json"], e.2.Is (.string name)

/-- The entries give scalars, if anything, for the choices. -/
def ScalarsIn (es : List (Key × Node)) : Prop :=
  ∀ e ∈ es, e.1.name = "log-level" ∨ e.1.name = "log-format" → ∃ v, e.2.Is v

/-- All that reading an entry can do. -/
inductive Adds (c : Choices) : Key × Node → Choices → Prop where
  | level {span : Toml.Span} {n : Node} {l : Level} (h : levelOfNode n = .ok l) :
      Adds c (⟨"log-level", span⟩, n) { c with level := some l }
  | format {span : Toml.Span} {n : Node} {f : Format} (h : formatOfNode n = .ok f) :
      Adds c (⟨"log-format", span⟩, n) { c with format := some f }
  | other {e : Key × Node} (hlevel : e.1.name ≠ "log-level") (hformat : e.1.name ≠ "log-format") :
      Adds c e c

variable {c c' : Choices} {e : Key × Node} {es es' : List (Key × Node)}

theorem ReadIn.unique (h : c.ReadIn es) (h' : c'.ReadIn es) : c = c' := by
  obtain ⟨level, format⟩ := c
  obtain ⟨level', format'⟩ := c'
  have hlevel : level = level' := h.level.unique h'.level Reads.unique
  have hformat : format = format' := h.format.unique h'.format Reads.unique
  rw [hlevel, hformat]

theorem WrittenIn.perm (hp : es.Perm es') (h : c.WrittenIn es) : c.WrittenIn es' :=
  ⟨h.level.perm hp, h.format.perm hp⟩

theorem exists_writtenIn_iff (hn : (names es).Nodup) :
    (∃ c : Choices, c.WrittenIn es) ↔ IntendedIn es := by
  constructor
  · rintro ⟨c, hlevel, hformat⟩
    refine ⟨fun e he hname => ?_, fun e he hname => ?_⟩
    · obtain ⟨l, -, hl⟩ := hlevel.present e he hname
      exact ⟨l.name, by cases l <;> decide, hl⟩
    · obtain ⟨f, -, hf⟩ := hformat.present e he hname
      exact ⟨f.name, by cases f <;> decide, hf⟩
  · rintro ⟨hlevel, hformat⟩
    obtain ⟨level, -, hlevel⟩ : ∃ level, True ∧
        Gives es "log-level" (fun l n => n.Spells Level.name l) none level := by
      refine Gives.exists_of_forall hn trivial fun e he hname => ?_
      obtain ⟨name, hmem, hl⟩ := hlevel e he hname
      obtain ⟨l, -, rfl⟩ := List.mem_map.mp (show name ∈ Level.names from hmem)
      exact ⟨some l, trivial, l, rfl, hl⟩
    obtain ⟨format, -, hformat⟩ : ∃ format, True ∧
        Gives es "log-format" (fun f n => n.Spells Format.name f) none format := by
      refine Gives.exists_of_forall hn trivial fun e he hname => ?_
      obtain ⟨name, hmem, hf⟩ := hformat e he hname
      obtain ⟨f, -, rfl⟩ := List.mem_map.mp (show name ∈ Format.names from hmem)
      exact ⟨some f, trivial, f, rfl, hf⟩
    exact ⟨⟨level, format⟩, hlevel, hformat⟩

theorem levelOfNode_eq_ok_iff {n : Node} {v : Toml.Scalar} (hv : n.Is v) {l : Level} :
    levelOfNode n = .ok l ↔ n.Is (.string l.name) := by
  rw [levelOfNode, Node.variant_eq_ok_iff hv]
  simp [Level.ofName?_eq_some_iff]

theorem formatOfNode_eq_ok_iff {n : Node} {v : Toml.Scalar} (hv : n.Is v) {f : Format} :
    formatOfNode n = .ok f ↔ n.Is (.string f.name) := by
  rw [formatOfNode, Node.variant_eq_ok_iff hv]
  simp [Format.ofName?_eq_some_iff]

theorem addEntry_eq_ok_iff : addEntry c e = .ok c' ↔ Adds c e c' := by
  constructor
  · intro h
    obtain ⟨⟨name, span⟩, n⟩ := e
    unfold addEntry at h
    dsimp only at h
    split at h
    · obtain ⟨l, hl, hc⟩ := bind_eq_ok_iff.mp h
      cases hc
      exact .level (Toml.readEntry_eq_ok_iff.mp hl)
    · obtain ⟨f, hf, hc⟩ := bind_eq_ok_iff.mp h
      cases hc
      exact .format (Toml.readEntry_eq_ok_iff.mp hf)
    · next hlevel hformat =>
      cases h
      exact .other hlevel hformat
  · intro h
    cases h with
    | level h => simp [addEntry, Toml.readEntry_eq_ok_iff.mpr h]
    | format h => simp [addEntry, Toml.readEntry_eq_ok_iff.mpr h]
    | other hlevel hformat => simp [addEntry]

theorem addEntry_of_readIn (h : c'.ReadIn es) (he : e ∈ es) : ∃ c₁, addEntry c e = .ok c₁ := by
  have hlevel := h.level.present e he
  have hformat := h.format.present e he
  by_cases hl : e.1.name = "log-level"
  · obtain ⟨l, -, hlevel⟩ := hlevel hl
    obtain ⟨⟨name, span⟩, n⟩ := e
    cases hl
    exact ⟨_, addEntry_eq_ok_iff.mpr (.level hlevel)⟩
  · by_cases hf : e.1.name = "log-format"
    · obtain ⟨f, -, hformat⟩ := hformat hf
      obtain ⟨⟨name, span⟩, n⟩ := e
      cases hf
      exact ⟨_, addEntry_eq_ok_iff.mpr (.format hformat)⟩
    · exact ⟨c, addEntry_eq_ok_iff.mpr (.other hl hf)⟩

theorem readIn_of_foldlM (hn : (names es).Nodup) (h : es.foldlM addEntry {} = .ok c) :
    c.ReadIn es := by
  refine ⟨Toml.gives_of_foldlM Choices.level (fun e he ha hname => ?_) (fun ha hname => ?_) hn h,
    Toml.gives_of_foldlM Choices.format (fun e he ha hname => ?_) (fun ha hname => ?_) hn h⟩
  · cases addEntry_eq_ok_iff.mp ha with
    | level hl => exact ⟨_, rfl, hl⟩
    | format => simp at hname
    | other hlevel => exact absurd hname hlevel
  · cases addEntry_eq_ok_iff.mp ha with
    | level => exact absurd rfl hname
    | format | other => rfl
  · cases addEntry_eq_ok_iff.mp ha with
    | level => simp at hname
    | format hf => exact ⟨_, rfl, hf⟩
    | other _ hformat => exact absurd hname hformat
  · cases addEntry_eq_ok_iff.mp ha with
    | format => exact absurd rfl hname
    | level | other => rfl

theorem foldlM_eq_ok_iff_readIn (hn : (names es).Nodup) :
    es.foldlM addEntry {} = .ok c ↔ c.ReadIn es := by
  constructor
  · exact readIn_of_foldlM hn
  · intro h
    obtain ⟨c', hc'⟩ := Toml.exists_foldlM (fun _ _ he => addEntry_of_readIn h he) {}
    rw [hc', (readIn_of_foldlM hn hc').unique h]

/-- Read and written are the same where the choices are scalars. -/
theorem readIn_iff_writtenIn (hs : ScalarsIn es) : c.ReadIn es ↔ c.WrittenIn es := by
  have hlevel : ∀ e ∈ es, e.1.name = "log-level" →
      (Reads levelOfNode c.level e.2 ↔ e.2.Spells Level.name c.level) := fun e he hname => by
    obtain ⟨v, hv⟩ := hs e he (.inl hname)
    exact exists_congr fun l => and_congr_right fun _ => levelOfNode_eq_ok_iff hv
  have hformat : ∀ e ∈ es, e.1.name = "log-format" →
      (Reads formatOfNode c.format e.2 ↔ e.2.Spells Format.name c.format) := fun e he hname => by
    obtain ⟨v, hv⟩ := hs e he (.inr hname)
    exact exists_congr fun l => and_congr_right fun _ => formatOfNode_eq_ok_iff hv
  constructor
  · rintro ⟨hl, hf⟩
    exact ⟨hl.imp fun e he hn => (hlevel e he hn).mp, hf.imp fun e he hn => (hformat e he hn).mp⟩
  · rintro ⟨hl, hf⟩
    exact ⟨hl.imp fun e he hn => (hlevel e he hn).mpr, hf.imp fun e he hn => (hformat e he hn).mpr⟩

theorem foldlM_eq_ok_iff (hn : (names es).Nodup) (hs : ScalarsIn es) :
    es.foldlM addEntry {} = .ok c ↔ c.WrittenIn es :=
  (foldlM_eq_ok_iff_readIn hn).trans (readIn_iff_writtenIn hs)

/-- A table in which the choices are written. -/
def WrittenAt (c : Choices) (n : Node) : Prop := ∃ t, n.IsTable t ∧ c.WrittenIn t.entries

def ScalarsAt (n : Node) : Prop := ∃ t, n.IsTable t ∧ ScalarsIn t.entries

theorem ofNode_of_isTable {n : Node} {t : Table} (ht : n.IsTable t) :
    ofNode n = t.entries.foldlM addEntry {} := by
  rcases ht with rfl | rfl <;> rfl

theorem ofNode_eq_ok_iff {n : Node} (hn : n.Sound) (hs : ScalarsAt n) :
    ofNode n = .ok c ↔ c.WrittenAt n := by
  obtain ⟨t, ht, hs⟩ := hs
  rw [ofNode_of_isTable ht, foldlM_eq_ok_iff (ht.sound hn).names_nodup hs]
  constructor
  · exact fun h => ⟨t, ht, h⟩
  · rintro ⟨u, hu, h⟩
    rw [ht.unique hu]
    exact h

/-- What a log section can look like: a table of its own, an array of the two choices, or a date,
which stands for an empty map. -/
inductive SaidAt : Choices → Node → Prop where
  | table {c : Choices} {n : Node} {t : Table} (ht : n.IsTable t) (h : c.ReadIn t.entries) :
      SaidAt c n
  | array {l : Level} {f : Format} {a b : Node} {more : List Node} {span : Toml.Span}
      (hl : levelOfNode a = .ok l) (hf : formatOfNode b = .ok f) :
      SaidAt ⟨some l, some f⟩ (.array (a :: b :: more) span)
  | tables {l : Level} {f : Format} {a b : Table} {more : List Table}
      (hl : levelOfNode (.table a) = .ok l) (hf : formatOfNode (.table b) = .ok f) :
      SaidAt ⟨some l, some f⟩ (.tables (a :: b :: more))
  | moment {span : Toml.Span} : SaidAt {} (.leaf .moment span)

theorem ofArray_eq_ok_iff {items : List Node} : ofArray items = .ok c ↔ ∃ l f a b more,
    items = a :: b :: more ∧ levelOfNode a = .ok l ∧ formatOfNode b = .ok f ∧
      c = ⟨some l, some f⟩ := by
  match items with
  | [] => simp [ofArray]
  | [a] =>
    refine iff_of_false (fun h => ?_) (by simp)
    obtain ⟨l, -, h⟩ := bind_eq_ok_iff.mp h
    cases h
  | a :: b :: more =>
    constructor
    · intro h
      obtain ⟨l, hl, h⟩ := bind_eq_ok_iff.mp h
      obtain ⟨f, hf, h⟩ := bind_eq_ok_iff.mp h
      cases h
      exact ⟨l, f, a, b, more, rfl, hl, hf, rfl⟩
    · rintro ⟨l, f, a', b', more', heq, hl, hf, rfl⟩
      cases heq
      exact bind_eq_ok_iff.mpr ⟨l, hl, bind_eq_ok_iff.mpr ⟨f, hf, rfl⟩⟩

theorem ofNode_eq_ok_iff_saidAt {n : Node} (hn : n.Sound) : ofNode n = .ok c ↔ c.SaidAt n := by
  have hread {t : Table} (ht : n.IsTable t) : ofNode n = .ok c ↔ c.ReadIn t.entries := by
    rw [ofNode_of_isTable ht]
    exact foldlM_eq_ok_iff_readIn (ht.sound hn).names_nodup
  constructor
  · intro h
    cases n with
    | table t => exact .table (.inl rfl) ((hread (.inl rfl)).mp h)
    | inlined t => exact .table (.inr rfl) ((hread (.inr rfl)).mp h)
    | array items span =>
      cases hitems : ofArray items with
      | error f => simp [ofNode, hitems] at h
      | ok c' =>
        obtain rfl : c' = c := by simpa [ofNode, hitems] using h
        obtain ⟨l, f, a, b, more, rfl, hl, hf, rfl⟩ := ofArray_eq_ok_iff.mp hitems
        exact .array hl hf
    | tables items =>
      cases hitems : ofArray (items.map .table) with
      | error f => simp [ofNode, hitems] at h
      | ok c' =>
        obtain rfl : c' = c := by simpa [ofNode, hitems] using h
        obtain ⟨l, f, a, b, more, hmap, hl, hf, rfl⟩ := ofArray_eq_ok_iff.mp hitems
        obtain ⟨a, items, rfl, rfl, hrest⟩ := List.map_eq_cons_iff.mp hmap
        obtain ⟨b, items, rfl, rfl, -⟩ := List.map_eq_cons_iff.mp hrest
        exact .tables hl hf
    | leaf v span =>
      cases v with
      | moment =>
        cases h
        exact .moment
      | string | integer | float | boolean => cases h
  · intro h
    cases h with
    | table ht h => exact (hread ht).mpr h
    | array hl hf => simp [ofNode, ofArray_eq_ok_iff.mpr ⟨_, _, _, _, _, rfl, hl, hf, rfl⟩]
    | tables hl hf =>
      simp [ofNode, ofArray_eq_ok_iff.mpr ⟨_, _, _, _, _, rfl, hl, hf, rfl⟩]
    | moment => rfl

namespace Draft

def finish (d : Draft) : Choices := ⟨d.level.join, d.format.join⟩

/-- The field under a name, if it is one, is not yet set. -/
structure Lacks (d : Draft) (name : String) : Prop where
  level : name = "log-level" → d.level = none
  format : name = "log-format" → d.format = none

variable {d d' : Draft} {v : Json.Value}

theorem Lacks.field {name name' : String} (h : d.field name v = .ok d') (hne : name' ≠ name)
    (hd : d.Lacks name') : d'.Lacks name' := by
  unfold Draft.field at h
  split at h
  · obtain ⟨level, -, hd'⟩ := bind_eq_ok_iff.mp h
    cases hd'
    exact ⟨fun hname => absurd hname hne, hd.format⟩
  · obtain ⟨format, -, hd'⟩ := bind_eq_ok_iff.mp h
    cases hd'
    exact ⟨hd.level, fun hname => absurd hname hne⟩
  · obtain ⟨-, -, hd'⟩ := bind_eq_ok_iff.mp h
    cases hd'
    exact hd

theorem toOption_field (hv : e.2.InJson v) (hs : ScalarsIn [e]) (hd : d.Lacks e.1.name) :
    (d.field e.1.name v).toOption.map finish = (addEntry d.finish e).toOption := by
  by_cases hlevel : e.1.name = "log-level"
  · obtain ⟨w, hw⟩ := hs e List.mem_cons_self (.inl hlevel)
    have hread : (v.optional readLevel).toOption = (levelOfNode e.2).toOption.map some := by
      rw [hv.toOption_optional, readLevel, hv.toOption_variant hw, levelOfNode]
    rw [addEntry, hlevel, Draft.field, hd.level hlevel]
    simp only [Json.once, Toml.toOption_bind, Toml.toOption_map, hread, Toml.toOption_readEntry]
    cases (levelOfNode e.2).toOption <;> rfl
  · by_cases hformat : e.1.name = "log-format"
    · obtain ⟨w, hw⟩ := hs e List.mem_cons_self (.inr hformat)
      have hread : (v.optional readFormat).toOption = (formatOfNode e.2).toOption.map some := by
        rw [hv.toOption_optional, readFormat, hv.toOption_variant hw, formatOfNode]
      rw [addEntry, hformat, Draft.field, hd.format hformat]
      simp only [Json.once, Toml.toOption_bind, Toml.toOption_map, hread, Toml.toOption_readEntry]
      cases (formatOfNode e.2).toOption <;> rfl
    · have hfield : d.field e.1.name v = .ok d := by simp [Draft.field, hv.skip]
      have hadd : addEntry d.finish e = .ok d.finish := by simp [addEntry]
      rw [hfield, hadd]
      rfl

end Draft

/-- The order of the members does not matter. -/
theorem toOption_ofValue {n : Node} {v : Json.Value} (h : n.InJson v) (hn : n.Sound)
    (hs : ScalarsAt n) : (ofValue v).toOption = (ofNode n).toOption := by
  obtain ⟨t, ht, hs⟩ := hs
  have hnames := (ht.sound hn).names_nodup
  cases h with
  | @table _ u es ms hu hp h =>
    obtain rfl := ht.unique hu
    have hnames' : (names es).Nodup := (hp.map _).nodup_iff.mp hnames
    have hs' : ScalarsIn es := fun e he => hs e (hp.mem_iff.mpr he)
    calc (ofMembers {} ms).toOption
        = (es.foldlM addEntry (Draft.finish {})).toOption :=
          h.toOption_members ofMembers Draft.Lacks hnames' (fun _ => rfl) (fun _ _ _ _ => rfl)
            (fun e he hv hd => Draft.toOption_field hv
              (List.forall_mem_singleton.mpr (hs' e he)) hd)
            Draft.Lacks.field (fun _ _ => ⟨fun _ => rfl, fun _ => rfl⟩)
      _ = (t.entries.foldlM addEntry {}).toOption :=
          Toml.toOption_foldlM_perm WrittenIn .perm (fun _ => foldlM_eq_ok_iff hnames' hs')
            (fun _ => foldlM_eq_ok_iff hnames hs) hp.symm
      _ = (ofNode n).toOption := by rw [ofNode_of_isTable ht]
  | string | integer | float | boolean | array | tables =>
    rcases ht with ht | ht <;> cases ht

end Choices

end HeapPressure.Log
