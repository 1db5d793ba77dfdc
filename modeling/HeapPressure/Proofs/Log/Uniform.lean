import HeapPressure.Proofs.Log.Directives
import HeapPressure.Proofs.Log.Quiet
import HeapPressure.Proofs.Text.Lines

/-!
The filter of a component. Both of its directives ask for one level, and one of them covers every
target, so it lets through what is as severe as that level and nothing else, whatever the component
is called. The filter tells the level and the target it was made from.
-/
namespace HeapPressure.Log

/-- The target of a component's own events. -/
def targetOf (component : String) : String := component.map fun c => if c = '-' then '_' else c

structure IsComponent (component : String) : Prop where
  nonempty : component ≠ ""
  plain : ∀ c ∈ component.toList, c.isAlphanum = true ∨ c = '-' ∨ c = '_'

theorem filterDirective_eq (component : String) (level : Level) :
    filterDirective component level
      = level.label ++ "," ++ targetOf component ++ "=" ++ level.label := rfl

theorem filterDirective_toList (component : String) (level : Level) :
    (filterDirective component level).toList
      = level.label.toList
        ++ ',' :: ((targetOf component).toList ++ '=' :: level.label.toList) := by
  simp [filterDirective_eq]

/-- A comma in the target takes nothing away: the level in front has none. -/
theorem filterDirective_inj {component component' : String} {level level' : Level} :
    filterDirective component level = filterDirective component' level'
      ↔ level = level' ∧ targetOf component = targetOf component' := by
  constructor
  · intro h
    have hlists := congrArg String.toList h
    rw [filterDirective_toList, filterDirective_toList] at hlists
    obtain ⟨hlabel, hrest⟩ :=
      Text.append_cons_inj level.comma_notMem_label level'.comma_notMem_label hlists
    obtain rfl := Level.label_inj (String.toList_inj.mp hlabel)
    exact ⟨rfl, String.toList_inj.mp (List.append_cancel_right hrest)⟩
  · rintro ⟨rfl, htarget⟩
    rw [filterDirective_eq, filterDirective_eq, htarget]

theorem hyphen_notMem_targetOf (component : String) : '-' ∉ (targetOf component).toList := by
  rw [targetOf, String.toList_map, List.mem_map]
  rintro ⟨c, -, hc⟩
  split at hc
  · cases hc
  · next hne => exact hne hc

namespace IsComponent

variable {component : String}

theorem mem_targetOf (h : IsComponent component) {c : Char}
    (hc : c ∈ (targetOf component).toList) : c.isAlphanum = true ∨ c = '_' := by
  rw [targetOf, String.toList_map, List.mem_map] at hc
  obtain ⟨d, hd, rfl⟩ := hc
  split
  · exact .inr rfl
  · next hne =>
    rcases h.plain d hd with halnum | rfl | rfl
    · exact .inl halnum
    · exact absurd rfl hne
    · exact .inr rfl

theorem notMem_targetOf (h : IsComponent component) {c : Char} (halnum : c.isAlphanum = false)
    (hunder : c ≠ '_') : c ∉ (targetOf component).toList := by
  intro hc
  rcases h.mem_targetOf hc with ht | ht
  · simp [halnum] at ht
  · exact hunder ht

theorem isTarget (h : IsComponent component) :
    Directive.IsTarget (targetOf component).toList where
  begins := by
    have hne : (targetOf component).toList ≠ [] := by
      simpa [targetOf] using h.nonempty
    obtain ⟨c, rest, hcons⟩ := List.exists_cons_of_ne_nil hne
    refine ⟨c, by simp [hcons], ?_⟩
    rcases h.mem_targetOf (hcons ▸ List.mem_cons_self) with halnum | rfl
    · exact ⟨by simp [Directive.mayBegin, Text.isLetterOrNumber_of_isAlphanum c halnum],
        Text.isBlank_of_isAlphanum halnum⟩
    · decide
  plain := by
    intro c hc
    constructor
    · rintro rfl
      exact h.notMem_targetOf (by decide) (by decide) hc
    · rintro rfl
      exact h.notMem_targetOf (by decide) (by decide) hc

end IsComponent

namespace Filter

theorem filterMap_of_mapM {α β : Type} {read : α → Option β} {xs : List α} {ys : List β}
    (h : xs.mapM read = some ys) : xs.filterMap read = ys := by
  induction xs generalizing ys with
  | nil => cases h; rfl
  | cons x xs ih =>
    simp only [List.mapM_cons, Option.bind_eq_bind, Option.bind_eq_some_iff] at h
    obtain ⟨y, hy, zs, hzs, hys⟩ := h
    cases hys
    rw [List.filterMap_cons_some hy, ih hzs]

/-- A level for every target, and the same level for one. -/
def uniform (target : String) (level : Level) : Filter :=
  [.ofLevel (some level), ⟨some target, none, none, some level⟩]

variable {component : String}

theorem parts_filterDirective (h : IsComponent component) (level : Level) :
    parts (filterDirective component level)
      = [level.label.toList, (targetOf component).toList ++ '=' :: level.label.toList] := by
  have hcomma : ',' ∉ (targetOf component).toList ++ '=' :: level.label.toList := by
    have hlabel := level.comma_notMem_label
    have htarget := h.notMem_targetOf (c := ',') (by decide) (by decide)
    simp [hlabel, htarget]
  rw [parts, filterDirective_toList,
    List.splitOn_append_cons_self_of_not_mem level.comma_notMem_label,
    List.splitOn_eq_singleton hcomma]
  simp [level.label_ne_nil]

theorem parse?_filterDirective (h : IsComponent component) (level : Level) :
    parse? (filterDirective component level) = some (uniform (targetOf component) level) := by
  have hpair := Directive.parse?_pair h.isTarget level
  rw [String.ofList_toList] at hpair
  simp [parse?, parts_filterDirective h, Directive.parse?_label, hpair, uniform]

/-- What can be read entirely is read the same way where unreadable parts are dropped. -/
theorem parseLossy_of_parse? {text : String} {f : Filter} (h : parse? text = some f)
    (hne : f ≠ []) : parseLossy text = f := by
  have hread : (parts text).filterMap Directive.parse? = f := filterMap_of_mapM h
  simp [parseLossy, hread, hne]

theorem choose_none (h : IsComponent component) (level : Level) :
    choose none component level = uniform (targetOf component) level :=
  parseLossy_of_parse? (parse?_filterDirective h level) (List.cons_ne_nil _ _)

theorem isSome_prefer {target : String} {fields : List String} {best : Option Directive}
    {d : Directive} (h : best.isSome ∨ d.covers target fields) :
    (prefer target fields best d).isSome := by
  unfold prefer
  split
  · cases best with
    | none => rfl
    | some b => dsimp only; split <;> rfl
  · next hcovers => exact h.resolve_right hcovers

theorem isSome_foldl_prefer {target : String} {fields : List String} {f : Filter}
    {best : Option Directive} (h : best.isSome ∨ ∃ d ∈ f, d.covers target fields) :
    (f.foldl (prefer target fields) best).isSome := by
  induction f generalizing best with
  | nil => simpa using h
  | cons d f ih =>
    rw [List.foldl_cons]
    apply ih
    rcases h with hbest | ⟨d', hmem, hcovers⟩
    · exact .inl (isSome_prefer (.inl hbest))
    · cases List.mem_cons.mp hmem with
      | inl heq => exact .inl (isSome_prefer (.inr (heq ▸ hcovers)))
      | inr hlater => exact .inr ⟨d', hlater, hcovers⟩

/-- The level is a threshold: what is as severe gets through, and nothing else. -/
def Threshold (f : Filter) (level : Level) : Prop :=
  ∀ l target fields, f.enables l target fields = true ↔ l.rank ≤ level.rank

/-- Directives of one level, of which some one covers every event, are a threshold, whichever of
them decides. -/
theorem threshold_of_forall {f : Filter} {level : Level} (hlevel : ∀ d ∈ f, d.level = some level)
    (hcovers : ∃ d ∈ f, ∀ target fields, d.covers target fields) : f.Threshold level := by
  intro l target fields
  obtain ⟨d, hd, hall⟩ := hcovers
  have hsome : (f.deciding? target fields).isSome := by
    rw [deciding?_eq]
    exact isSome_foldl_prefer (.inr ⟨d, hd, hall target fields⟩)
  obtain ⟨b, hb⟩ := Option.isSome_iff_exists.mp hsome
  have hblevel := hlevel b (mem_of_deciding? hb)
  simp [enables, hb, Directive.lets, hblevel]

theorem threshold_uniform (target : String) (level : Level) :
    (uniform target level).Threshold level := by
  refine threshold_of_forall ?_ ⟨.ofLevel (some level), List.mem_cons_self, fun _ _ => rfl⟩
  intro d hd
  simp only [uniform, List.mem_cons, List.not_mem_nil, or_false] at hd
  rcases hd with rfl | rfl <;> rfl

end Filter

namespace Session

variable {s : Session} {u : Setup} {level : Level}

theorem setup_emit (s : Session) (e : Event) : (s.emit e).setup = s.setup := by
  unfold emit
  split
  · split <;> rfl
  · rfl

/-- The lines that events leave in a log with a threshold. -/
def linesOf (u : Setup) (level : Level) (es : List Event) : List LogLine :=
  (es.filter fun e => e.level.rank ≤ level.rank).map fun e => ⟨u.format, u.sink, e⟩

theorem lines_emit (hu : s.setup = some u) (hf : u.filter.Threshold level) (e : Event) :
    (s.emit e).lines = s.lines ++ linesOf u level [e] := by
  have henables := hf e.level e.target e.fieldNames
  by_cases he : e.level.rank ≤ level.rank
  · simp [emit, hu, linesOf, he, henables.mpr he]
  · simp [emit, hu, linesOf, he, mt henables.mp he]

theorem lines_emitAll (hu : s.setup = some u) (hf : u.filter.Threshold level) (es : List Event) :
    (s.emitAll es).lines = s.lines ++ linesOf u level es := by
  induction es generalizing s with
  | nil => simp [emitAll, linesOf]
  | cons e es ih =>
    have hcons : s.emitAll (e :: es) = (s.emit e).emitAll es := rfl
    have hlines : linesOf u level (e :: es) = linesOf u level [e] ++ linesOf u level es := by
      simp only [linesOf, ← List.map_append, ← List.filter_append, List.singleton_append]
    rw [hcons, ih ((s.setup_emit e).trans hu), lines_emit hu hf, hlines, List.append_assoc]

/-- A log that is set up where the environment asks for nothing. -/
theorem lines_emitAll_init {component : String} (h : IsComponent component) (sink : Sink)
    (format : Format) (henv : s.environment = none) (hsetup : s.setup = none) :
    ∃ s', s.init sink component level format = .ok s' ∧
      ∀ es, (s'.emitAll es).lines
        = s.lines ++ (es.filter fun e => e.level.rank ≤ level.rank).map fun e =>
            ⟨format, sink, e⟩ := by
  have hfilter : (Filter.choose s.environment component level).Threshold level := by
    rw [henv, Filter.choose_none h]
    exact Filter.threshold_uniform (targetOf component) level
  let u : Setup := ⟨Filter.choose s.environment component level, format, sink⟩
  have hinit : s.init sink component level format = .ok { s with setup := some u } := by
    rw [init, hsetup]
  exact ⟨_, hinit, lines_emitAll (u := u) rfl hfilter⟩

end Session

/-- The filter a component gets by default is one threshold for all targets, and no two levels or
targets share one. -/
theorem filterDirective_uniform :
    (∀ component level, IsComponent component →
      (∃ general own,
        Filter.parse? (filterDirective component level) = some [general, own]
          ∧ Filter.choose none component level = [general, own]
          ∧ general = .ofLevel (some level)
          ∧ own = ⟨some (targetOf component), none, none, some level⟩)
        ∧ '-' ∉ (targetOf component).toList
        ∧ (∀ l target fields,
          (Filter.choose none component level).enables l target fields = true
            ↔ l.rank ≤ level.rank)
        ∧ ∀ (s : Session) sink format, s.environment = none → s.setup = none →
          ∃ s', s.init sink component level format = .ok s' ∧
            ∀ es, (s'.emitAll es).lines
              = s.lines ++ (es.filter fun e => e.level.rank ≤ level.rank).map fun e =>
                  ⟨format, sink, e⟩)
    ∧ ∀ component component' level level',
      filterDirective component level = filterDirective component' level'
        ↔ level = level' ∧ targetOf component = targetOf component' := by
  refine ⟨fun component level h => ⟨?_, hyphen_notMem_targetOf component, ?_, ?_⟩, ?_⟩
  · exact ⟨_, _, Filter.parse?_filterDirective h level, Filter.choose_none h level, rfl, rfl⟩
  · rw [Filter.choose_none h]
    exact Filter.threshold_uniform (targetOf component) level
  · intro s sink format henv hsetup
    exact s.lines_emitAll_init h sink format henv hsetup
  · intro component component' level level'
    exact filterDirective_inj

theorem filterDirective_uniform_alloc_exhaust :
    IsComponent "alloc-exhaust"
      ∧ filterDirective "alloc-exhaust" .warn = "WARN,alloc_exhaust=WARN"
      ∧ (Filter.choose none "alloc-exhaust" .warn).enables .error "alloc_exhaust::plan" [] = true
      ∧ ¬ (Filter.choose none "alloc-exhaust" .warn).enables .info "elsewhere" ["message"] = true
      ∧ (∃ s', Session.init .errorStream "alloc-exhaust" .warn .json {} = .ok s' ∧
        (s'.emitAll [⟨.debug, "alloc_exhaust", "step", [], []⟩,
            ⟨.warn, "alloc_exhaust", "stopped", [], []⟩]).lines
          = [⟨.json, .errorStream, ⟨.warn, "alloc_exhaust", "stopped", [], []⟩⟩])
      ∧ filterDirective "a,b=WARN" .warn ≠ filterDirective "a" .warn := by
  have hall :
      "alloc-exhaust".toList.all (fun c => c.isAlphanum || c == '-' || c == '_') = true := by
    decide
  have h : IsComponent "alloc-exhaust" :=
    ⟨by decide, by simpa only [List.all_eq_true, Bool.or_eq_true, beq_iff_eq, or_assoc] using hall⟩
  obtain ⟨hall, hinj⟩ := filterDirective_uniform
  obtain ⟨-, -, henables, hinit⟩ := hall "alloc-exhaust" .warn h
  obtain ⟨s', hs', hlines⟩ := hinit {} .errorStream .json rfl rfl
  refine ⟨h, by decide +kernel, (henables .error "alloc_exhaust::plan" []).mpr (by decide),
    mt (henables .info "elsewhere" ["message"]).mp (by decide), ⟨s', hs', hlines _⟩, ?_⟩
  exact mt (hinj "a,b=WARN" "a" .warn .warn).mp (by decide +kernel)

end HeapPressure.Log
