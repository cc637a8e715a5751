import BotHive.Scripts.AcceptedConfigs
import BotHive.Scripts.ScriptRun

/-!
# Which regular expressions a script uses

A regular expression is looked up by a filter of its type and by a condition with its operator,
unless the evaluation throws before. What the lookup does depends on the pattern only, whatever is in
the cache, apart from the compilation that an entry of the cache saves.

## Main results

- `mem_matchesFilter`, `mem_evaluateCondition`: what filters and conditions do with patterns
- `does_of_runScript`: what a run does comes from the filters and conditions of its config
-/

namespace BotHive.Scripts

variable {lang : ScriptLanguage} {event : RegexEvent}

section Lookups

variable {moment : Moment} {pattern p : String} {target : Option String}

theorem regex_lookup (moment : Moment) (pattern : String) :
    (cachedRegex lang.compile (regexCacheAfter lang.compile moment.lookups) pattern).regex =
      uncachedRegex lang.compile pattern :=
  regex_cachedRegex (cacheSound_after moment.lookups) pattern

/-- A pattern is tested exactly when it gives a regular expression. -/
theorem tested_testRegex :
    .tested p ∈ (testRegex lang moment pattern target).events ↔
      p = pattern ∧ (uncachedRegex lang.compile pattern).isSome := by
  have hcompiled (compiled : Bool) :
      RegexEvent.tested p ∉ (if compiled then [RegexEvent.compiled pattern] else []) := by
    cases compiled <;> simp
  simp only [testRegex, regex_lookup]
  cases uncachedRegex lang.compile pattern with
  | none => exact iff_of_false (hcompiled _) (by simp)
  | some regex => simp [hcompiled]

/-- Only a pattern that does not look dangerous is compiled. -/
theorem compiled_testRegex (h : .compiled p ∈ (testRegex lang moment pattern target).events) :
    p = pattern ∧ looksDangerous pattern = false := by
  have hfresh : (cachedRegex lang.compile (regexCacheAfter lang.compile moment.lookups)
      pattern).compiled = true ∧ p = pattern := by
    simp only [testRegex] at h
    split at h
    · split at h
      · exact ⟨‹_›, RegexEvent.compiled.inj (List.mem_singleton.mp h)⟩
      · cases h
    · rcases List.mem_append.mp h with hmem | hmem
      · split at hmem
        · exact ⟨‹_›, RegexEvent.compiled.inj (List.mem_singleton.mp hmem)⟩
        · cases hmem
      · cases List.mem_singleton.mp hmem
  refine ⟨hfresh.2, ?_⟩
  by_contra hdangerous
  rw [not_compiled_of_looksDangerous (Bool.of_not_eq_false hdangerous)] at hfresh
  exact Bool.false_ne_true hfresh.1

/-- Before any lookup, a pattern that does not look dangerous is compiled. -/
theorem compiled_testRegex_first (hlookups : moment.lookups = [])
    (hsafe : looksDangerous pattern = false) :
    .compiled pattern ∈ (testRegex lang moment pattern target).events := by
  have hempty : (regexCacheAfter lang.compile []).get pattern = none := rfl
  simp only [testRegex, hlookups, cachedRegex, hempty, hsafe, Bool.false_eq_true, if_false]
  cases lang.compile pattern <;> simp

end Lookups

section Evaluations

variable [CaseMapping] {context : ScriptContext} {moment : Moment}

omit [CaseMapping] in
theorem mem_matchesRegex {value target : Value} :
    event ∈ (matchesRegex lang moment value target).events ↔
      ∃ pattern, value = .str pattern ∧ ¬ maxRegexLength < utf16Length pattern ∧
        event ∈ (testRegex lang moment pattern (lang.text target)).events := by
  cases value with
  | str pattern =>
    by_cases hlong : maxRegexLength < utf16Length pattern
    · simp [matchesRegex, hlong]
    · rw [matchesRegex, if_neg hlong]
      exact ⟨fun h => ⟨pattern, rfl, hlong, h⟩, by rintro ⟨_, ⟨⟩, -, h⟩; exact h⟩
  | arr items =>
    simp only [matchesRegex]
    split <;> simp [throws]
  | obj fields =>
    simp only [matchesRegex]
    split
    · split <;> simp [throws]
    · simp [throws]
  | _ => simp [matchesRegex, throws]

/-- The value that a filter without a field looks at. -/
def eventText (lang : ScriptLanguage) (event : Workers.Event) : Value :=
  ((Workers.eventField lang.runtime event "text").orElse
    (Workers.eventField lang.runtime event "message")).orElse (.str "")

/-- A filter uses a pattern only as its type says. -/
theorem mem_matchesFilter {filter : Value} :
    event ∈ (matchesFilter lang context moment filter).events ↔
      ∃ fields target pattern, filter = .obj fields ∧ Value.own fields "type" = .str "regex" ∧
        filterTarget lang context.event (Value.own fields "field") (eventText lang context.event) =
          some target ∧
        Value.own fields "value" = .str pattern ∧ ¬ maxRegexLength < utf16Length pattern ∧
        event ∈ (testRegex lang moment pattern (lang.text target)).events := by
  constructor
  · intro h
    unfold matchesFilter at h
    split at h
    case h_1 => cases h
    case h_2 => cases h
    case h_4 => cases h
    rename_i fields
    dsimp only at h
    split at h
    · split at h <;> cases h
    · rename_i htype
      split at h
      · cases h
      · rename_i target htarget
        obtain ⟨pattern, hvalue, hlong, hmem⟩ := mem_matchesRegex.mp h
        exact ⟨fields, target, pattern, rfl, htype, htarget, hvalue, hlong, hmem⟩
    · split at h <;> cases h
    · split at h
      · split at h <;> cases h
      · cases h
    · cases h
  · rintro ⟨fields, target, pattern, rfl, htype, htarget, hvalue, hlong, hmem⟩
    have heq : matchesFilter lang context moment (.obj fields) =
        matchesRegex lang moment (Value.own fields "value") target := by
      rw [eventText] at htarget
      simp [matchesFilter, htype, htarget]
    rw [heq]
    exact mem_matchesRegex.mpr ⟨pattern, hvalue, hlong, hmem⟩

omit [CaseMapping] in
/-- A condition uses a pattern only as its operator says. -/
theorem mem_evaluateCondition {condition : Value} :
    event ∈ (evaluateCondition lang context moment condition).events ↔
      ∃ fields field pattern, condition = .obj fields ∧ Value.own fields "field" = .str field ∧
        Value.own fields "operator" = .str "regex" ∧
        lang.text (Value.own fields "value") = some pattern ∧
        ¬ maxRegexLength < utf16Length pattern ∧
        event ∈ (testRegex lang moment pattern
          (lang.text (conditionLeft lang context moment field))).events := by
  constructor
  · intro h
    unfold evaluateCondition at h
    split at h
    case h_2 => cases h
    rename_i fields
    split at h
    case h_2 => cases h
    rename_i field hfield
    dsimp only at h
    split at h
    case h_8 =>
      rename_i hoperator
      split at h
      · cases h
      · rename_i pattern hpattern
        by_cases hlong : maxRegexLength < utf16Length pattern
        · rw [if_pos hlong] at h
          cases h
        · rw [if_neg hlong] at h
          exact ⟨fields, field, pattern, rfl, hfield, hoperator, hpattern, hlong, h⟩
    all_goals cases h
  · rintro ⟨fields, field, pattern, rfl, hfield, hoperator, hpattern, hlong, hmem⟩
    have heq : evaluateCondition lang context moment (.obj fields) =
        testRegex lang moment pattern (lang.text (conditionLeft lang context moment field)) := by
      simp [evaluateCondition, hfield, hoperator, hpattern, hlong]
    rw [heq]
    exact hmem

end Evaluations

section Actions

variable {context : ScriptContext} {moments : ℕ → Moment}

theorem of_stepCondition {moment : Moment} {condition : Value}
    (h : event ∈ (stepCondition lang context moment condition).events) :
    condition.truthy = true ∧ event ∈ (evaluateCondition lang context moment condition).events := by
  unfold stepCondition at h
  split at h
  · exact ⟨‹_›, h⟩
  · cases h

theorem StepOf.cons {first : Value} {rest : List Value} {step : List (String × Value)}
    (h : StepOf (.arr rest) step) : StepOf (.arr (first :: rest)) step := by
  cases h with
  | item hmem => exact .item (List.mem_cons_of_mem _ hmem)
  | nested hmem hif hstep => exact .nested (List.mem_cons_of_mem _ hmem) hif hstep

mutual

/-- What actions do comes from the conditions of the actions that are reached. -/
theorem of_runActions : (actions : Value) → (clock : ℕ) →
    event ∈ (runActions lang context moments actions clock).events →
    ∃ step, StepOf actions step ∧
      ∃ moment, event ∈ (stepCondition lang context moment (Value.own step "condition")).events
  | .arr items, clock, h => by
    rw [runActions] at h
    exact of_runSteps items clock h
  | .undefined, _, h | .null, _, h | .bool _, _, h | .num _, _, h | .str _, _, h | .obj _, _, h
  | .func _, _, h => by
    unfold runActions at h
    cases h
termination_by actions => sizeOf actions

theorem of_runSteps : (steps : List Value) → (clock : ℕ) →
    event ∈ (runSteps lang context moments steps clock).events →
    ∃ step, StepOf (.arr steps) step ∧
      ∃ moment, event ∈ (stepCondition lang context moment (Value.own step "condition")).events
  | [], _, h => by
    rw [runSteps] at h
    cases h
  | .undefined :: _, _, h | .null :: _, _, h => by
    rw [runSteps] at h
    split at h <;> cases h
  | .obj fields :: rest, clock, h => by
    by_cases hexpired : (moments clock).expired = true
    · rw [runSteps, if_pos hexpired] at h
      cases h
    rw [runSteps, if_neg hexpired] at h
    rcases List.mem_append.mp h with hmem | hmem
    · rcases List.mem_append.mp hmem with hcondition | hnested
      · exact ⟨fields, .item List.mem_cons_self, moments clock, hcondition⟩
      · split at hnested
        · rename_i henter
          obtain ⟨step, hstep, hmoment⟩ := of_runActions (Value.own fields "actions") _ hnested
          exact ⟨step, .nested List.mem_cons_self henter.2.1 hstep, hmoment⟩
        · cases hnested
    · obtain ⟨step, hstep, hmoment⟩ := of_runSteps rest _ hmem
      exact ⟨step, hstep.cons, hmoment⟩
  | .bool _ :: rest, clock, h | .num _ :: rest, clock, h | .str _ :: rest, clock, h
  | .arr _ :: rest, clock, h | .func _ :: rest, clock, h => by
    unfold runSteps at h
    by_cases hexpired : (moments clock).expired = true
    · rw [if_pos hexpired] at h
      cases h
    rw [if_neg hexpired] at h
    obtain ⟨step, hstep, hmoment⟩ := of_runSteps rest _ h
    exact ⟨step, hstep.cons, hmoment⟩
termination_by steps => sizeOf steps
decreasing_by
  all_goals first
    | exact Value.sizeOf_own_lt_step _ _ _
    | simp only [List.cons.sizeOf_spec]; omega

end

end Actions

section Configs

/-- A filter of a config. -/
def FilterOf (config : List (String × Value)) (filter : Value) : Prop :=
  ∃ items, Value.own config "filters" = .arr items ∧ filter ∈ items

/-- The condition of an action of a config, at any depth. -/
def ConditionOf (config : List (String × Value)) (condition : Value) : Prop :=
  ∃ step, StepOf (Value.own config "actions") step ∧ Value.own step "condition" = condition ∧
    condition.truthy = true

/-- What the evaluation of some filter or condition of a config does. -/
def Does (lang : ScriptLanguage) [CaseMapping] (config : List (String × Value))
    (event : RegexEvent) : Prop :=
  ∃ context moment,
    (∃ filter, FilterOf config filter ∧ event ∈ (matchesFilter lang context moment filter).events) ∨
    ∃ condition, ConditionOf config condition ∧
      event ∈ (evaluateCondition lang context moment condition).events

variable [CaseMapping] {context : ScriptContext} {moments : ℕ → Moment}

theorem of_matchesEvery {filters : List Value} {clock : ℕ}
    (h : event ∈ (matchesEvery lang context moments filters clock).1.events) :
    ∃ filter ∈ filters, ∃ moment, event ∈ (matchesFilter lang context moment filter).events := by
  induction filters generalizing clock with
  | nil => cases h
  | cons filter rest ih =>
    simp only [matchesEvery] at h
    split at h
    · rcases List.mem_append.mp h with hmem | hmem
      · exact ⟨filter, List.mem_cons_self, moments clock, hmem⟩
      · obtain ⟨filter', hfilter', hmoment⟩ := ih hmem
        exact ⟨filter', List.mem_cons_of_mem _ hfilter', hmoment⟩
    · exact ⟨filter, List.mem_cons_self, moments clock, h⟩

/-- What a run does comes from the filters and conditions of its config. -/
theorem does_of_runScript {config : List (String × Value)} {trigger : Workers.Event}
    (h : event ∈ (runScript lang config trigger moments).events) : Does lang config event := by
  have hfilters : ∀ context filters clock,
      event ∈ (matchesFilters lang context moments filters clock).1.events →
        ∃ items, filters = .arr items ∧ ∃ filter ∈ items, ∃ moment,
          event ∈ (matchesFilter lang context moment filter).events := by
    intro context filters clock hmem
    unfold matchesFilters at hmem
    split at hmem
    · exact ⟨_, rfl, of_matchesEvery hmem⟩
    all_goals cases hmem
  have hfilter : ∀ context clock,
      event ∈ (matchesFilters lang context moments (Value.own config "filters") clock).1.events →
        Does lang config event := by
    intro context clock hmem
    obtain ⟨items, hitems, filter, hfilter, moment, hmoment⟩ := hfilters _ _ _ hmem
    exact ⟨context, moment, .inl ⟨filter, ⟨items, hitems, hfilter⟩, hmoment⟩⟩
  unfold runScript at h
  dsimp only at h
  split at h
  · exact hfilter _ _ h
  · exact hfilter _ _ h
  · rcases List.mem_append.mp h with hmem | hmem
    · exact hfilter _ _ hmem
    · obtain ⟨step, hstep, moment, hmoment⟩ := of_runActions _ _ hmem
      obtain ⟨htruthy, hcondition⟩ := of_stepCondition hmoment
      exact ⟨_, moment, .inr ⟨_, ⟨step, hstep, rfl, htruthy⟩, hcondition⟩⟩

end Configs

end BotHive.Scripts
