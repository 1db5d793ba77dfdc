import HeapPressure.Json.Decode
import HeapPressure.Proofs.Toml.Decoding
import HeapPressure.Proofs.Toml.Records

/-!
One document in two forms: the values of JSON that express a value of TOML. What is decoded from
the one is decoded from the other.
-/
namespace HeapPressure.Toml

open Json (Value Items Members Number)

mutual

/-- The members of an object stand in any order. Of a number with a fraction or an exponent only
that counts; dates and times have no JSON. -/
inductive Node.InJson : Node → Value → Prop where
  | string (s : String) (span : Span) : Node.InJson (.leaf (.string s) span) (.string (some s))
  | integer {n : Int} {l : Number} (span : Span) (h : l.integer? = some n) :
      Node.InJson (.leaf (.integer n) span) (.number l)
  | float (x : Float) {l : Number} (span : Span) (h : l.integer? = none) :
      Node.InJson (.leaf (.float x) span) (.number l)
  | boolean (b : Bool) (span : Span) : Node.InJson (.leaf (.boolean b) span) (.boolean b)
  | array {ns : List Node} {vs : Items} (span : Span) (h : ItemsInJson ns vs) :
      Node.InJson (.array ns span) (.array vs)
  | tables {ts : List Table} {vs : Items} (h : ItemsInJson (ts.map .table) vs) :
      Node.InJson (.tables ts) (.array vs)
  | table {n : Node} {t : Table} {es : List (Key × Node)} {ms : Members} (hn : n.IsTable t)
      (hp : t.entries.Perm es) (h : EntriesInJson es ms) : Node.InJson n (.object ms)

inductive ItemsInJson : List Node → Items → Prop where
  | nil : ItemsInJson [] .close
  | cons {n : Node} {ns : List Node} {v : Value} {vs : Items} (hn : Node.InJson n v)
      (h : ItemsInJson ns vs) : ItemsInJson (n :: ns) (.cons v vs)

inductive EntriesInJson : List (Key × Node) → Members → Prop where
  | nil : EntriesInJson [] .close
  | cons {e : Key × Node} {es : List (Key × Node)} {v : Value} {ms : Members}
      (he : Node.InJson e.2 v) (h : EntriesInJson es ms) :
      EntriesInJson (e :: es) (.cons (some e.1.name) v ms)

end

mutual

theorem Node.InJson.isWhole : {v : Value} → {n : Node} → n.InJson v → v.isWhole = true
  | .array vs, _, h => by
    cases h with
    | array _ h => exact h.isWhole
    | tables h => exact h.isWhole
  | .object ms, _, h => by
    cases h with
    | table _ _ h => exact h.isWhole
  | .string _, _, _ => rfl
  | .number _, _, _ => rfl
  | .boolean _, _, _ => rfl

theorem ItemsInJson.isWhole : {vs : Items} → {ns : List Node} → ItemsInJson ns vs →
    vs.isWhole = true
  | .close, _, _ => rfl
  | .cons v vs, _, h => by
    cases h with
    | cons hn h => exact Bool.and_eq_true_iff.mpr ⟨hn.isWhole, h.isWhole⟩

theorem EntriesInJson.isWhole : {ms : Members} → {es : List (Key × Node)} → EntriesInJson es ms →
    ms.isWhole = true
  | .close, _, _ => rfl
  | .cons _ v ms, _, h => by
    cases h with
    | cons he h => exact Bool.and_eq_true_iff.mpr ⟨he.isWhole, h.isWhole⟩

end

@[simp] theorem toOption_refuse {α : Type} (v : Value) (expected : Document.Expected) :
    (v.refuse expected : Except Json.Error α).toOption = none := by
  rw [Value.refuse]
  split <;> rfl

namespace Node

@[simp] theorem toOption_refuse {α : Type} (n : Node) (expected : Document.Expected) :
    (n.refuse expected : Except Fault α).toOption = none := rfl

namespace InJson

variable {n : Node} {v : Value}

theorem skip (h : n.InJson v) : Json.skip v = .ok () := if_pos h.isWhole

theorem toOption_unsigned64 (h : n.InJson v) (hs : n.Sound) :
    v.unsigned64.toOption = n.unsigned64.toOption := by
  rw [Value.unsigned64, toOption_map]
  cases h with
  | @integer i l span hl =>
    have hfits : (Scalar.integer i).Fits := Is.fits ⟨span, rfl⟩ hs
    simp only [Scalar.Fits] at hfits
    simp only [Value.integerWithin, hl]
    cases i with
    | ofNat k =>
      rw [if_pos (by simp only [Int.ofNat_eq_natCast] at *; omega)]
      rfl
    | negSucc k =>
      rw [if_neg (by omega)]
      rfl
  | float x span hl =>
    simp [Value.integerWithin, hl, unsigned64]
  | table hn hp h =>
    obtain rfl | rfl := hn <;> simp [Value.integerWithin, unsigned64]
  | string | boolean | array | tables => simp [Value.integerWithin, unsigned64]

theorem toOption_text (h : n.InJson v) (expected : Document.Expected) :
    (v.text expected).toOption = (n.text expected).toOption := by
  cases h with
  | string s span => rfl
  | table hn hp h =>
    obtain rfl | rfl := hn <;> simp [Value.text, text]
  | integer | float | boolean | array | tables => simp [Value.text, text]

/-- Nothing of TOML is null. -/
theorem toOption_optional {α : Type} (h : n.InJson v) (read : Value → Except Json.Error α) :
    (v.optional read).toOption = (read v).toOption.map some := by
  rw [← toOption_map]
  cases h <;> rfl

/-- Among scalars only a string names a variant, in either form. -/
theorem toOption_variant {α : Type} {w : Scalar} (h : n.InJson v) (hw : n.Is w)
    (ofName? : String → Option α) (known : List String) :
    (v.variant ofName? known).toOption = (n.variant ofName? known).toOption := by
  obtain ⟨span, rfl⟩ := hw
  cases h with
  | string s =>
    rw [Value.variant, Node.variant, Value.named, Node.named]
    cases ofName? s <;> rfl
  | table hn => exact absurd hn (by simp [IsTable])
  | integer | float | boolean => rfl

end InJson

end Node

/-- Members that are decoded one after another give what their entries give in that order, when
each of them does and none is given twice. -/
theorem EntriesInJson.toOption_members {δ σ : Type} (read : δ → Members → Except Json.Error σ)
    {field : δ → String → Value → Except Json.Error δ} {finish : δ → σ}
    {add : σ → Key × Node → Except Fault σ} (lacks : δ → String → Prop)
    {es : List (Key × Node)} {ms : Members} (h : EntriesInJson es ms) (hn : (names es).Nodup)
    (hclose : ∀ d, read d .close = .ok (finish d))
    (hcons : ∀ d name v ms, read d (.cons (some name) v ms) = field d name v >>= (read · ms))
    (hfield : ∀ {d : δ} {v : Value}, ∀ e ∈ es, e.2.InJson v → lacks d e.1.name →
      (field d e.1.name v).toOption.map finish = (add (finish d) e).toOption)
    (hlacks : ∀ {d d' : δ} {v : Value} {name name' : String}, field d name v = .ok d' →
      name' ≠ name → lacks d name' → lacks d' name')
    {d : δ} (hl : ∀ e ∈ es, lacks d e.1.name) :
    (read d ms).toOption = (es.foldlM add (finish d)).toOption := by
  induction es generalizing d ms with
  | nil =>
    cases h
    rw [hclose]
    rfl
  | cons e es ih =>
    obtain ⟨hnew, hn⟩ := List.nodup_cons.mp hn
    cases h with
    | @cons _ _ v ms he h =>
      have hfirst := hfield e List.mem_cons_self he (hl e List.mem_cons_self)
      rw [hcons, List.foldlM_cons, toOption_bind, toOption_bind, ← hfirst]
      cases hd : field d e.1.name v with
      | error f => rfl
      | ok d' =>
        -- the field of `e` is set now, and no entry behind it has that name
        refine ih h hn (fun c hc => hfield c (List.mem_cons_of_mem e hc)) fun c hc => ?_
        have hne : c.1.name ≠ e.1.name := fun heq => hnew (List.mem_map.mpr ⟨c, hc, heq⟩)
        exact hlacks hd hne (hl c (List.mem_cons_of_mem e hc))

end HeapPressure.Toml
