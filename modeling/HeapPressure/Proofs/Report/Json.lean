import HeapPressure.Report.Json
import HeapPressure.Proofs.Json.Decoding

/-!
Reports come back from their JSON texts as they were written, whatever they hold, and the
compact text is a single line.
-/
namespace HeapPressure.Report

open Json (Document Value Members)

theorem readVerdict_value (v : Verdict) :
    readVerdict (Document.string v.name).value = .ok v :=
  Value.variant_value (Verdict.ofName?_name v)

theorem ofMembers_cons {d : Draft} {name : String} {v : Value} {rest : Members} :
    ofMembers d (.cons (some name) v rest) = (d.field name v).bind (ofMembers · rest) := rfl

theorem ofValue_document (r : Report) : ofValue r.document.value = .ok r := by
  -- every field is named once: none is found set, and none is missing at the end
  rw [document, Document.value, ofValue]
  simp only [Json.membersOf]
  simp only [ofMembers_cons, Draft.field, readVerdict_value, Value.optional_signed32,
    Value.unsigned64_value, Value.optional_unsigned64, Value.text_value]
  rfl

theorem ofJson_of_read {text : String} {r : Report}
    (h : Json.read text = ⟨r.document.value, false⟩) : ofJson text = .ok r := by
  simp only [ofJson, h, ofValue_document]
  rfl

theorem json_round_trip (r : Report) :
    ofJson r.document.compact = .ok r ∧ ofJson r.document.pretty = .ok r ∧
      ∀ c ∈ r.document.compact.toList, 0x20 ≤ c.toNat := by
  refine ⟨?_, ?_, ?_⟩
  · exact ofJson_of_read (Json.read_compact r.document)
  · exact ofJson_of_read (Json.read_pretty r.document)
  · exact Json.printable_compact r.document

end HeapPressure.Report
