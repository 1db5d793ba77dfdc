import HeapPressure.Proofs.Results
import HeapPressure.Proofs.Toml.Documents
import HeapPressure.Toml.Fault
import Mathlib.Data.List.Nodup

/-!
Records read from the entries of a table, one entry after another. Where no name stands twice,
each field has what the entry under its name says, in whatever order the entries stand.
-/
namespace HeapPressure.Toml

/-- A field that has what the entry under its name says, and without such an entry a default. -/
structure Gives {α : Type} (es : List (Key × Node)) (name : String) (reads : α → Node → Prop)
    (default a : α) : Prop where
  present : ∀ e ∈ es, e.1.name = name → reads a e.2
  absent : (∀ e ∈ es, e.1.name ≠ name) → a = default

/-- A value that `read` makes of a node. -/
def Reads {α : Type} (read : Node → Except Fault α) (o : Option α) (n : Node) : Prop :=
  ∃ a, o = some a ∧ read n = .ok a

theorem Reads.unique {α : Type} {read : Node → Except Fault α} {o o' : Option α} {n : Node}
    (h : Reads read o n) (h' : Reads read o' n) : o = o' := by
  obtain ⟨a, rfl, ha⟩ := h
  obtain ⟨b, rfl, hb⟩ := h'
  rw [Except.ok.inj (ha.symm.trans hb)]

theorem eq_of_name_eq {es : List (Key × Node)} (hn : (names es).Nodup) {d e : Key × Node}
    (hd : d ∈ es) (he : e ∈ es) (h : d.1.name = e.1.name) : d = e :=
  List.inj_on_of_nodup_map hn hd he h

namespace Gives

variable {α : Type} {es es' : List (Key × Node)} {name : String} {reads : α → Node → Prop}
  {default a b : α}

theorem unique (ha : Gives es name reads default a) (hb : Gives es name reads default b)
    (hreads : ∀ {a b : α} {n : Node}, reads a n → reads b n → a = b) : a = b := by
  by_cases h : ∃ e ∈ es, e.1.name = name
  · obtain ⟨e, he, hname⟩ := h
    exact hreads (ha.present e he hname) (hb.present e he hname)
  · have hno : ∀ e ∈ es, e.1.name ≠ name := fun e he hname => h ⟨e, he, hname⟩
    rw [ha.absent hno, hb.absent hno]

theorem perm (hp : es.Perm es') (h : Gives es name reads default a) :
    Gives es' name reads default a where
  present e he := h.present e (hp.mem_iff.mpr he)
  absent hno := h.absent fun e he => hno e (hp.mem_iff.mp he)

theorem imp {reads' : α → Node → Prop} (h : Gives es name reads default a)
    (himp : ∀ e ∈ es, e.1.name = name → reads a e.2 → reads' a e.2) :
    Gives es name reads' default a where
  present e he hname := himp e he hname (h.present e he hname)
  absent := h.absent

theorem getD {read : Node → Except Fault α} {o : Option α} (h : Gives es name (Reads read) none o) :
    Gives es name (fun a n => read n = .ok a) default (o.getD default) where
  present e he hname := by
    obtain ⟨a, rfl, ha⟩ := h.present e he hname
    exact ha
  absent hno := by rw [h.absent hno, Option.getD_none]

theorem exists_option {read : Node → Except Fault α}
    (h : Gives es name (fun a n => read n = .ok a) default a) :
    ∃ o, Gives es name (Reads read) none o ∧ a = o.getD default := by
  by_cases hsome : ∃ e ∈ es, e.1.name = name
  · obtain ⟨e, he, hname⟩ := hsome
    exact ⟨some a, ⟨fun d hd hdname => ⟨a, rfl, h.present d hd hdname⟩,
      fun hno => absurd hname (hno e he)⟩, rfl⟩
  · have hno : ∀ e ∈ es, e.1.name ≠ name := fun e he hname => hsome ⟨e, he, hname⟩
    exact ⟨none, ⟨fun e he hname => absurd hname (hno e he), fun _ => rfl⟩, h.absent hno⟩

theorem exists_of_forall (hn : (names es).Nodup) {p : α → Prop} (hdefault : p default)
    (h : ∀ e ∈ es, e.1.name = name → ∃ a, p a ∧ reads a e.2) :
    ∃ a, p a ∧ Gives es name reads default a := by
  by_cases hsome : ∃ e ∈ es, e.1.name = name
  · obtain ⟨e, he, hname⟩ := hsome
    obtain ⟨a, ha, hreads⟩ := h e he hname
    refine ⟨a, ha, fun d hd hdname => ?_, fun hno => absurd hname (hno e he)⟩
    rw [eq_of_name_eq hn hd he (hdname.trans hname.symm)]
    exact hreads
  · have hno : ∀ e ∈ es, e.1.name ≠ name := fun e he hname => hsome ⟨e, he, hname⟩
    exact ⟨default, hdefault, fun e he hname => absurd hname (hno e he), fun _ => rfl⟩

end Gives

theorem toOption_eq_some_iff {ε α : Type} {e : Except ε α} {a : α} :
    e.toOption = some a ↔ e = .ok a := by
  cases e <;> simp [Except.toOption]

theorem toOption_bind {ε α β : Type} (x : Except ε α) (f : α → Except ε β) :
    (x >>= f).toOption = x.toOption.bind fun a => (f a).toOption := by
  cases x <;> rfl

theorem toOption_map {ε α β : Type} (f : α → β) (x : Except ε α) :
    (x.map f).toOption = x.toOption.map f := by
  cases x <;> rfl

section Fold

variable {σ ε : Type} {add : σ → Key × Node → Except ε σ} {es : List (Key × Node)} {s s' : σ}

theorem foldlM_cons_eq_ok {e : Key × Node} (h : (e :: es).foldlM add s = .ok s') :
    ∃ s₁, add s e = .ok s₁ ∧ es.foldlM add s₁ = .ok s' := by
  rw [List.foldlM_cons] at h
  exact bind_eq_ok_iff.mp h

theorem exists_foldlM (h : ∀ s, ∀ e ∈ es, ∃ s', add s e = .ok s') (s : σ) :
    ∃ s', es.foldlM add s = .ok s' := by
  induction es generalizing s with
  | nil => exact ⟨s, rfl⟩
  | cons e es ih =>
    obtain ⟨s₁, h₁⟩ := h s e List.mem_cons_self
    obtain ⟨s', hs'⟩ := ih (fun s d hd => h s d (List.mem_cons_of_mem e hd)) s₁
    exact ⟨s', (foldlM_cons_ok h₁).trans hs'⟩

theorem forall_of_foldlM {p : Key × Node → Prop}
    (hp : ∀ {s s' : σ} {e : Key × Node}, add s e = .ok s' → p e)
    (h : es.foldlM add s = .ok s') : ∀ e ∈ es, p e := by
  induction es generalizing s with
  | nil => simp
  | cons e es ih =>
    obtain ⟨s₁, h₁, hrest⟩ := foldlM_cons_eq_ok h
    exact List.forall_mem_cons.mpr ⟨hp h₁, ih hrest⟩

/-- An entry sets its field and leaves the others; an entry behind it does not set it again. -/
theorem gives_of_foldlM {α : Type} (get : σ → α) {name : String} {reads : α → Node → Prop}
    (hset : ∀ {s s' : σ}, ∀ e ∈ es, add s e = .ok s' → e.1.name = name → reads (get s') e.2)
    (hkeep : ∀ {s s' : σ} {e : Key × Node}, add s e = .ok s' → e.1.name ≠ name → get s' = get s)
    (hn : (names es).Nodup) (h : es.foldlM add s = .ok s') :
    Gives es name reads (get s) (get s') := by
  induction es generalizing s with
  | nil =>
    cases h
    exact ⟨by simp, fun _ => rfl⟩
  | cons e es ih =>
    obtain ⟨s₁, h₁, hrest⟩ := foldlM_cons_eq_ok h
    obtain ⟨hnew, hn⟩ := List.nodup_cons.mp hn
    have hgives := ih (fun d hd => hset d (List.mem_cons_of_mem e hd)) hn hrest
    refine ⟨fun d hd hname => ?_, fun hno => ?_⟩
    · rcases List.mem_cons.mp hd with rfl | hd
      · have hno : ∀ d' ∈ es, d'.1.name ≠ name := fun d' hd' hname' =>
          hnew (List.mem_map.mpr ⟨d', hd', hname'.trans hname.symm⟩)
        rw [hgives.absent hno]
        exact hset d List.mem_cons_self h₁ hname
      · exact hgives.present d hd hname
    · obtain ⟨he, hno⟩ := List.forall_mem_cons.mp hno
      rw [hgives.absent hno, hkeep h₁ he]

/-- What a fold gives in terms of the entries alone it gives in any order of them. -/
theorem toOption_foldlM_perm {es' : List (Key × Node)} (written : σ → List (Key × Node) → Prop)
    (hwritten : ∀ {es es' : List (Key × Node)} {s' : σ}, es.Perm es' → written s' es →
      written s' es') (h : ∀ s', es.foldlM add s = .ok s' ↔ written s' es)
    (h' : ∀ s', es'.foldlM add s = .ok s' ↔ written s' es') (hp : es.Perm es') :
    (es.foldlM add s).toOption = (es'.foldlM add s).toOption := by
  refine Option.ext fun s' => ?_
  rw [toOption_eq_some_iff, toOption_eq_some_iff, h, h']
  exact ⟨hwritten hp, hwritten hp.symm⟩

end Fold

end HeapPressure.Toml
