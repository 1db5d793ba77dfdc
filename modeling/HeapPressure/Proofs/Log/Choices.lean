import HeapPressure.Log.Choices
import HeapPressure.Proofs.Json.Decoding
import HeapPressure.Proofs.Toml.Documents

/-!
The choices about the log come back from their JSON and TOML forms, those that were not made
included.
-/
namespace HeapPressure.Log.Choices

open Json (Document Value Members)
open Toml (Plain Holds)

theorem optional_readLevel (o : Option Level) :
    (Document.ofOption (fun l => .string l.name) o).value.optional readLevel = .ok o :=
  Value.optional_value (fun _ => by simp [Document.value])
    (fun l => Value.variant_value (Level.ofName?_name l)) o

theorem optional_readFormat (o : Option Format) :
    (Document.ofOption (fun f => .string f.name) o).value.optional readFormat = .ok o :=
  Value.optional_value (fun _ => by simp [Document.value])
    (fun f => Value.variant_value (Format.ofName?_name f)) o

theorem ofMembers_cons {d : Draft} {name : String} {v : Value} {rest : Members} :
    ofMembers d (.cons (some name) v rest) = (d.field name v).bind (ofMembers · rest) := rfl

theorem ofValue_document (c : Choices) : ofValue c.document.value = .ok c := by
  rw [document, Document.value, ofValue]
  simp only [Json.membersOf]
  simp only [ofMembers_cons, Draft.field, optional_readLevel, optional_readFormat]
  rfl

/-- The pairs of the choices made. -/
def pairs (c : Choices) : List (String × Plain) :=
  (c.level.map fun l => ("log-level", Plain.string l.name)).toList
    ++ (c.format.map fun f => ("log-format", Plain.string f.name)).toList

theorem writable_pairs (c : Choices) : Toml.Writable c.pairs := by
  have hlevel : Toml.Bare "log-level" := .of_all (by decide) (by decide)
  have hformat : Toml.Bare "log-format" := .of_all (by decide) (by decide)
  intro p hp
  simp only [pairs, List.mem_append, Option.mem_toList, Option.map_eq_some_iff] at hp
  rcases hp with ⟨l, -, rfl⟩ | ⟨f, -, rfl⟩
  · exact ⟨hlevel, trivial⟩
  · exact ⟨hformat, trivial⟩

theorem nodup_pairs (c : Choices) : (c.pairs.map Prod.fst).Nodup := by
  obtain ⟨level, format⟩ := c
  cases level <;> cases format <;> simp [pairs]

theorem tomlLines_eq (c : Choices) :
    c.tomlLines = String.ofList (c.pairs.flatMap Toml.pairChars) := by
  rw [tomlLines, Toml.optionalLine_eq, Toml.optionalLine_eq, ← String.ofList_append,
    ← List.flatMap_append]
  rfl

theorem addEntry_level {c : Choices} {l : Level} {e : Toml.Key × Toml.Node}
    (h : Holds ("log-level", .string l.name) e) :
    addEntry c e = .ok { c with level := some l } := by
  obtain ⟨hname, span, hnode⟩ := h
  have hl : levelOfNode e.2 = .ok l := by
    rw [hnode]
    simp [levelOfNode, Plain.scalar, Toml.Node.variant, Toml.Node.named, Level.ofName?_name]
  rw [addEntry, hname]
  simp [Toml.readEntry, hl]

theorem addEntry_format {c : Choices} {f : Format} {e : Toml.Key × Toml.Node}
    (h : Holds ("log-format", .string f.name) e) :
    addEntry c e = .ok { c with format := some f } := by
  obtain ⟨hname, span, hnode⟩ := h
  have hf : formatOfNode e.2 = .ok f := by
    rw [hnode]
    simp [formatOfNode, Plain.scalar, Toml.Node.variant, Toml.Node.named, Format.ofName?_name]
  rw [addEntry, hname]
  simp [Toml.readEntry, hf]

theorem foldlM_pairs {c : Choices} {es : List (Toml.Key × Toml.Node)}
    (h : List.Forall₂ Holds c.pairs es) : es.foldlM addEntry {} = .ok c := by
  obtain ⟨level, format⟩ := c
  cases level with
  | none =>
    cases format with
    | none =>
      cases h
      rfl
    | some f =>
      obtain _ | ⟨hf, ⟨⟩⟩ := h
      exact Toml.foldlM_cons_ok (addEntry_format hf)
  | some l =>
    cases format with
    | none =>
      obtain _ | ⟨hl, ⟨⟩⟩ := h
      exact Toml.foldlM_cons_ok (addEntry_level hl)
    | some f =>
      obtain _ | ⟨hl, _ | ⟨hf, ⟨⟩⟩⟩ := h
      rw [Toml.foldlM_cons_ok (addEntry_level hl)]
      exact Toml.foldlM_cons_ok (addEntry_format hf)

end HeapPressure.Log.Choices
