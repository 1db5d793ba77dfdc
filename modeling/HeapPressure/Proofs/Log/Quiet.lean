import HeapPressure.Log.Session

/-!
Logs that stay silent. An event is written only if the directive that decides on it reaches down
to its level, so a log whose directives all stop above a level writes no event of that level.
-/
namespace HeapPressure.Log

/-- A fold that keeps at each turn what it has or takes the element it meets. -/
theorem foldl_eq_or_mem {α : Type} {step : Option α → α → Option α}
    (hstep : ∀ best d, step best d = best ∨ step best d = some d) (ds : List α)
    (best : Option α) :
    ds.foldl step best = best ∨ ∃ d ∈ ds, ds.foldl step best = some d := by
  induction ds generalizing best with
  | nil => exact .inl rfl
  | cons d ds ih =>
    rw [List.foldl_cons]
    cases ih (step best d) with
    | inl hkept =>
      cases hstep best d with
      | inl hbest => exact .inl (hkept.trans hbest)
      | inr hd => exact .inr ⟨d, List.mem_cons_self, hkept.trans hd⟩
    | inr hlater =>
      obtain ⟨d', hd', hfold⟩ := hlater
      exact .inr ⟨d', List.mem_cons_of_mem d hd', hfold⟩

namespace Filter

/-- The choice between the directive so far and the next one, on an event. -/
def prefer (target : String) (fields : List String) (best : Option Directive) (d : Directive) :
    Option Directive :=
  if d.covers target fields then
    match best with
    | some b => if d.overrides b then some d else some b
    | none => some d
  else best

theorem deciding?_eq (f : Filter) (target : String) (fields : List String) :
    f.deciding? target fields = f.foldl (prefer target fields) none := rfl

theorem prefer_eq_or (target : String) (fields : List String) (best : Option Directive)
    (d : Directive) :
    prefer target fields best d = best ∨ prefer target fields best d = some d := by
  unfold prefer
  split
  · cases best with
    | none => exact .inr rfl
    | some b =>
      by_cases hover : d.overrides b = true
      · exact .inr (if_pos hover)
      · exact .inl (if_neg hover)
  · exact .inl rfl

/-- What decides on an event is one of the directives. -/
theorem mem_of_deciding? {f : Filter} {target : String} {fields : List String} {d : Directive}
    (h : f.deciding? target fields = some d) : d ∈ f := by
  rw [deciding?_eq] at h
  cases foldl_eq_or_mem (prefer_eq_or target fields) f none with
  | inl hnone => simp [hnone] at h
  | inr hmem =>
    obtain ⟨d', hd', hfold⟩ := hmem
    cases hfold.symm.trans h
    exact hd'

/-- No directive lets anything through that is less severe than `least`. -/
def StopsBelow (f : Filter) (least : Level) : Prop :=
  ∀ d ∈ f, ∀ l, d.level = some l → l.rank ≤ least.rank

theorem StopsBelow.enables {f : Filter} {least level : Level} (h : f.StopsBelow least)
    (hl : least.rank < level.rank) (target : String) (fields : List String) :
    f.enables level target fields = false := by
  unfold Filter.enables
  split
  · next d hd =>
    unfold Directive.lets
    split
    · rfl
    · next l hlevel =>
      have hle := h d (mem_of_deciding? hd) l hlevel
      simp
      omega
  · rfl

end Filter

namespace Session

/-- Set up with a filter that stops below `least`. -/
def StopsBelow (s : Session) (least : Level) : Prop :=
  ∃ u, s.setup = some u ∧ u.filter.StopsBelow least

theorem StopsBelow.emit {s : Session} {least : Level} (h : s.StopsBelow least) {e : Event}
    (he : least.rank < e.level.rank) : s.emit e = s := by
  obtain ⟨u, hu, hf⟩ := h
  simp [Session.emit, hu, hf.enables he]

/-- Events that are all less severe leave the log as it is. -/
theorem StopsBelow.emitAll {s : Session} {least : Level} (h : s.StopsBelow least)
    {es : List Event} (hes : ∀ e ∈ es, least.rank < e.level.rank) : s.emitAll es = s := by
  induction es with
  | nil => rfl
  | cons e es ih =>
    obtain ⟨he, hrest⟩ := List.forall_mem_cons.mp hes
    have hcons : s.emitAll (e :: es) = (s.emit e).emitAll es := rfl
    rw [hcons, h.emit he, ih hrest]

end Session
end HeapPressure.Log
