import BotHive.Scripts.ConfigCheck

/-!
# What the check of a config guarantees

A config without problems has only filters of known types and only actions with a type, and the
patterns of its regular expression filters and conditions were found safe, as far as they are
texts. The actions are those of the config and those nested in its `if` actions.

## Main results

- `Accepted.filter`: a filter of an accepted config
- `Accepted.step`: an action of an accepted config, at any depth
-/

namespace BotHive.Scripts

/-- The actions that are reached from a value: its items, and the actions in its `if` actions. -/
inductive StepOf : Value → List (String × Value) → Prop where
  | item {items : List Value} {fields : List (String × Value)} (hmem : .obj fields ∈ items) :
      StepOf (.arr items) fields
  | nested {items : List Value} {fields step : List (String × Value)} (hmem : .obj fields ∈ items)
      (hif : (Value.own fields "type").text? = some "if")
      (hstep : StepOf (Value.own fields "actions") step) : StepOf (.arr items) step

/-- The value of a filter or of a condition, the empty text if it is none. -/
def valueText (fields : List (String × Value)) : String :=
  (Value.own fields "value").text?.getD ""

variable {lang : ScriptLanguage}

section Problems

theorem problemOf_eq_nil {part : String} {problem : Option String} :
    problemOf part problem = [] ↔ problem = none := by
  cases problem <;> simp [problemOf]

theorem checkRegex_eq_none {value : String} : checkRegex value = none ↔ isRegexSafe value = true := by
  rw [checkRegex]
  by_cases hsafe : isRegexSafe value = true
  · simp [hsafe]
  · rw [if_neg hsafe]
    refine iff_of_false (fun h => ?_) hsafe
    split_ifs at h

end Problems

section Filters

/-- What the check finds of a filter without problems. -/
structure SoundFilter (fields : List (String × Value)) : Prop where
  known : ∃ type ∈ ["regex", "custom", "keyword", "role"], Value.own fields "type" = .str type
  safe : Value.own fields "type" = .str "regex" → isRegexSafe (valueText fields) = true

theorem soundFilter_of_check {filter : Value} (h : checkFilter lang filter = some []) :
    ∃ fields, filter = .obj fields ∧ SoundFilter fields := by
  unfold checkFilter at h
  split at h
  case h_2 => simp at h
  rename_i fields
  refine ⟨fields, rfl, ?_⟩
  dsimp only at h
  split at h <;> rename_i htype
  · have hnone := problemOf_eq_nil.mp (Option.some.inj h)
    exact ⟨⟨"regex", by simp, htype⟩, fun _ => checkRegex_eq_none.mp hnone⟩
  · exact ⟨⟨"custom", by simp, htype⟩, fun hregex => by simp [htype] at hregex⟩
  · exact ⟨⟨"keyword", by simp, htype⟩, fun hregex => by simp [htype] at hregex⟩
  · exact ⟨⟨"role", by simp, htype⟩, fun hregex => by simp [htype] at hregex⟩
  · cases hunknown : lang.text (Value.own fields "type") <;> simp [hunknown] at h

theorem forall_of_mapM_flatten {α : Type} {f : α → Option (List String)} {items : List α}
    (h : (items.mapM f).map List.flatten = some []) : ∀ item ∈ items, f item = some [] := by
  obtain ⟨results, hresults, hflat⟩ := Option.map_eq_some_iff.mp h
  rw [List.flatten_eq_nil_iff] at hflat
  induction items generalizing results with
  | nil => simp
  | cons item rest ih =>
    rw [List.mapM_cons] at hresults
    obtain ⟨first, hfirst, hothers⟩ := Option.bind_eq_some_iff.mp hresults
    obtain ⟨others, hrest, heq⟩ := Option.bind_eq_some_iff.mp hothers
    obtain rfl : first :: others = results := Option.some.inj heq
    have hmap : (rest.mapM f).map List.flatten = some [] := by
      rw [hrest, Option.map_some, List.flatten_eq_nil_iff.mpr fun l hl => hflat l (.tail _ hl)]
    refine List.forall_mem_cons.mpr ⟨?_, ih hmap others hrest fun l hl => hflat l (.tail _ hl)⟩
    rw [hfirst, hflat first List.mem_cons_self]

theorem soundFilter_of_checkFilters {items : List Value}
    (h : checkFilters lang (.arr items) = some []) :
    ∀ filter ∈ items, ∃ fields, filter = .obj fields ∧ SoundFilter fields := by
  rw [checkFilters] at h
  by_cases hmany : maxFilters < items.length
  · rw [if_pos hmany] at h
    cases Option.some.inj h
  rw [if_neg hmany] at h
  intro filter hmem
  exact soundFilter_of_check (forall_of_mapM_flatten h filter hmem)

end Filters

section Actions

/-- What the check finds of an action without problems. -/
structure SoundStep (fields : List (String × Value)) : Prop where
  typed : ∃ type, Value.own fields "type" = .str type ∧ type ≠ ""
  condition : Value.own fields "condition" = .undefined ∨
    ∃ condition, Value.own fields "condition" = .obj condition ∧
      (Value.own condition "operator" = .str "regex" → isRegexSafe (valueText condition) = true)

theorem soundStep_of_parts {fields : List (String × Value)} {type : String}
    (htype : Value.own fields "type" = .str type) (hne : type ≠ "")
    (h : checkStepParts fields type = []) : SoundStep fields := by
  refine ⟨⟨type, htype, hne⟩, ?_⟩
  obtain ⟨hcondition, -⟩ := List.append_eq_nil_iff.mp h
  split at hcondition
  · exact .inl ‹_›
  · unfold checkCondition at hcondition
    split at hcondition
    · rename_i condition hobj
      refine .inr ⟨condition, hobj, fun hregex => ?_⟩
      rw [hregex] at hcondition
      exact checkRegex_eq_none.mp (problemOf_eq_nil.mp hcondition)
    · cases hcondition

/-- The actions of a list without problems, and what is nested in them. -/
theorem soundStep_of_walkSteps {steps : List Value} {depth n : ℕ}
    (h : (walkSteps lang steps depth n).1 = []) : ∀ step ∈ steps, ∃ fields,
      step = .obj fields ∧ SoundStep fields ∧ ((Value.own fields "type").text? = some "if" →
        ∃ n', (walkActions lang (Value.own fields "actions") (depth + 1) n').1 = []) := by
  induction steps generalizing n with
  | nil => simp
  | cons step rest ih =>
    cases step with
    | obj fields =>
      rw [walkSteps] at h
      by_cases hmany : maxActions < n + 1
      · rw [if_pos hmany] at h
        cases h
      rw [if_neg hmany] at h
      split at h
      case h_2 => cases h
      rename_i type htype
      by_cases hempty : type = ""
      · rw [if_pos hempty] at h
        cases h
      rw [if_neg hempty] at h
      by_cases hif : type = "if"
      · rw [if_pos hif] at h
        obtain ⟨hothers, hrest⟩ := List.append_eq_nil_iff.mp h
        obtain ⟨hown, hnested⟩ := List.append_eq_nil_iff.mp hothers
        obtain ⟨hparts, -⟩ := List.append_eq_nil_iff.mp hown
        refine List.forall_mem_cons.mpr ⟨⟨fields, rfl, ?_, fun _ => ⟨n + 1, hnested⟩⟩, ih hrest⟩
        exact soundStep_of_parts htype hempty hparts
      · rw [if_neg hif] at h
        obtain ⟨hown, hrest⟩ := List.append_eq_nil_iff.mp h
        obtain ⟨hparts, -⟩ := List.append_eq_nil_iff.mp hown
        refine List.forall_mem_cons.mpr ⟨⟨fields, rfl, ?_, fun hname => ?_⟩, ih hrest⟩
        · exact soundStep_of_parts htype hempty hparts
        · rw [htype] at hname
          exact absurd (Option.some.inj hname) hif
    | _ =>
      rw [walkSteps] at h
      · split at h <;> cases h
      · rintro _ ⟨⟩

/-- Every action that is reached has no problems. -/
theorem soundStep_of_walkActions {actions : Value} {fields : List (String × Value)}
    (hstep : StepOf actions fields) {depth n : ℕ} (h : (walkActions lang actions depth n).1 = []) :
    SoundStep fields := by
  induction hstep generalizing depth n with
  | item hmem =>
    rw [walkActions] at h
    obtain ⟨fields', heq, hsound, -⟩ := soundStep_of_walkSteps h _ hmem
    obtain rfl := Value.obj.inj heq
    exact hsound
  | nested hmem hif _ ih =>
    rw [walkActions] at h
    obtain ⟨fields', heq, -, hnested⟩ := soundStep_of_walkSteps h _ hmem
    obtain rfl := Value.obj.inj heq
    obtain ⟨n', hn'⟩ := hnested hif
    exact ih hn'

end Actions

section Configs

variable {config : List (String × Value)}

theorem Accepted.parts (h : Accepted lang (.obj config)) :
    checkFilters lang (Value.own config "filters") = some [] ∧
      (walkActions lang (Value.own config "actions") 0 0).1 = [] := by
  rw [Accepted, validateScriptConfig] at h
  obtain ⟨filters, hfilters, h⟩ := Option.bind_eq_some_iff.mp h
  obtain ⟨cooldown, -, h⟩ := Option.bind_eq_some_iff.mp h
  obtain ⟨interval, -, h⟩ := Option.bind_eq_some_iff.mp h
  obtain ⟨execution, -, h⟩ := Option.bind_eq_some_iff.mp h
  have hnil := Option.some.inj h
  simp only [List.append_eq_nil_iff] at hnil
  obtain ⟨⟨⟨⟨rfl, hactions⟩, -⟩, -⟩, -⟩ := hnil
  exact ⟨hfilters, hactions⟩

/-- A filter of an accepted config. -/
theorem Accepted.filter (h : Accepted lang (.obj config)) {items : List Value}
    (hitems : Value.own config "filters" = .arr items) {filter : Value} (hmem : filter ∈ items) :
    ∃ fields, filter = .obj fields ∧ SoundFilter fields := by
  have hfilters := h.parts.1
  rw [hitems] at hfilters
  exact soundFilter_of_checkFilters hfilters filter hmem

/-- An action of an accepted config, at any depth. -/
theorem Accepted.step (h : Accepted lang (.obj config)) {fields : List (String × Value)}
    (hstep : StepOf (Value.own config "actions") fields) : SoundStep fields :=
  soundStep_of_walkActions hstep h.parts.2

end Configs

end BotHive.Scripts
