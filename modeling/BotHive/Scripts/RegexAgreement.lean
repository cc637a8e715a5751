import BotHive.Scripts.RegexShapes
import BotHive.Scripts.RegexUse

/-!
# The rules for regular expressions at save time and at run time

A pattern that the check of a config accepts need not give a regular expression at run time: the
rules of the engine are other ones, the check does not compile the pattern, and it takes a value
that is no text for the empty pattern.

## Main definitions

- `RulesAgree`: every regular expression of a config is usable at run time, and only accepted
  patterns are tested
- `UsablePatterns`: what the patterns of a config have to be for this

## Main results

- `rulesAgree_iff`: the rules agree on an accepted config exactly when its patterns are usable
- `not_rulesAgree_optionalConfig`: on some accepted config they do not
-/

namespace BotHive.Scripts

section Agreement

variable (lang : ScriptLanguage) [CaseMapping] (config : List (String × Value))

/-- Both rules agree on the regular expressions of a config. -/
structure RulesAgree : Prop where
  /-- Every regular expression filter is compiled to a usable one, whenever it is evaluated. -/
  filters : ∀ fields, FilterOf config (.obj fields) → Value.own fields "type" = .str "regex" →
    ∀ context moment, ∃ pattern,
      .tested pattern ∈ (matchesFilter lang context moment (.obj fields)).events
  /-- So is the regular expression of every condition. -/
  conditions : ∀ fields, ConditionOf config (.obj fields) →
    Value.own fields "operator" = .str "regex" → ∀ context moment, ∃ pattern,
      .tested pattern ∈ (evaluateCondition lang context moment (.obj fields)).events
  /-- No filter or condition tests a pattern that the check does not accept. -/
  evaluations : ∀ pattern, Does lang config (.tested pattern) → isRegexSafe pattern = true
  /-- No run does. -/
  runs : ∀ event moments pattern, .tested pattern ∈ (runScript lang config event moments).events →
    isRegexSafe pattern = true

/-- A pattern that the engine does not refuse and that compiles. -/
structure Usable (pattern : String) : Prop where
  notCaught : ¬ CaughtOnCompile pattern.toList
  compiles : (lang.compile pattern).isSome = true

/-- The values of the regular expression filters and conditions of a config have usable texts, and
    the fields that they name are texts. The value of a filter is a text itself, and the text of
    a condition whose value is none is one that the check accepts. -/
structure UsablePatterns : Prop where
  filter : ∀ fields, FilterOf config (.obj fields) → Value.own fields "type" = .str "regex" →
    ((Value.own fields "field").truthy = false ∨ ∃ path, Value.own fields "field" = .str path) ∧
      ∃ pattern, Value.own fields "value" = .str pattern ∧ Usable lang pattern
  condition : ∀ fields, ConditionOf config (.obj fields) →
    Value.own fields "operator" = .str "regex" →
    (∃ path, Value.own fields "field" = .str path) ∧
      ∃ pattern, lang.text (Value.own fields "value") = some pattern ∧ Usable lang pattern ∧
        ((Value.own fields "value").text? = none → isRegexSafe pattern = true)

end Agreement

section Patterns

variable {lang : ScriptLanguage} {pattern : String}

theorem usable_iff : Usable lang pattern ↔ (uncachedRegex lang.compile pattern).isSome = true := by
  have hcaught : looksDangerous pattern = true ↔ CaughtOnCompile pattern.toList :=
    looksDangerous_iff
  rw [uncachedRegex]
  by_cases hdangerous : looksDangerous pattern = true
  · rw [if_pos hdangerous]
    exact iff_of_false (fun h => h.notCaught (hcaught.mp hdangerous)) (by simp)
  · rw [if_neg hdangerous]
    exact ⟨fun h => h.compiles, fun h => ⟨fun hc => hdangerous (hcaught.mpr hc), h⟩⟩

/-- A text that the check accepted as the value of a filter or of a condition. -/
theorem valueText_of_str {fields : List (String × Value)}
    (h : Value.own fields "value" = .str pattern) : valueText fields = pattern := by
  rw [valueText, h]
  rfl

theorem filterTarget_isSome {event : Workers.Event} {field fallback : Value} :
    (∃ target, filterTarget lang event field fallback = some target) ↔
      field.truthy = false ∨ ∃ path, field = .str path := by
  unfold filterTarget
  cases hfield : field.truthy with
  | false => simp
  | true =>
    cases field with
    | str path => simp
    | _ => simp

end Patterns

section Accepted

variable {lang : ScriptLanguage} {config fields : List (String × Value)}

/-- The patterns of the filters of an accepted config are accepted. -/
theorem Accepted.filter_safe (h : Accepted lang (.obj config))
    (hfilter : FilterOf config (.obj fields)) (htype : Value.own fields "type" = .str "regex") :
    isRegexSafe (valueText fields) = true := by
  obtain ⟨items, hitems, hmem⟩ := hfilter
  obtain ⟨_, ⟨⟩, hsound⟩ := h.filter hitems hmem
  exact hsound.safe htype

/-- So are those of its conditions. -/
theorem Accepted.condition_safe (h : Accepted lang (.obj config))
    (hcondition : ConditionOf config (.obj fields))
    (hoperator : Value.own fields "operator" = .str "regex") :
    isRegexSafe (valueText fields) = true := by
  obtain ⟨step, hstep, hobj, -⟩ := hcondition
  obtain hnone | ⟨condition, hsome, hsafe⟩ := (h.step hstep).condition
  · rw [hobj] at hnone
    cases hnone
  · obtain rfl := Value.obj.inj (hobj.symm.trans hsome)
    exact hsafe hoperator

end Accepted

section Deciding

variable {lang : ScriptLanguage} [CaseMapping] {config : List (String × Value)}

/-- Something that a filter or a condition can be evaluated at. -/
def someContext : ScriptContext :=
  ⟨[], []⟩

def someMoment : Moment where
  lookups := []
  counters _ := .undefined
  expired := false
  sandbox _ := none

omit [CaseMapping] in
/-- The text of a usable condition is accepted. -/
theorem UsablePatterns.condition_safe (h : UsablePatterns lang config)
    (haccepted : Accepted lang (.obj config)) {fields : List (String × Value)} {pattern : String}
    (hcondition : ConditionOf config (.obj fields))
    (hoperator : Value.own fields "operator" = .str "regex")
    (hpattern : lang.text (Value.own fields "value") = some pattern) :
    isRegexSafe pattern = true := by
  obtain ⟨-, p, hp, -, hcoerced⟩ := h.condition fields hcondition hoperator
  obtain rfl : p = pattern := Option.some.inj (hp.symm.trans hpattern)
  cases hvalue : Value.own fields "value" with
  | str text =>
    rw [hvalue] at hpattern
    obtain rfl : text = p := Option.some.inj hpattern
    rw [← valueText_of_str hvalue]
    exact haccepted.condition_safe hcondition hoperator
  | _ => exact hcoerced (by rw [hvalue]; rfl)

theorem UsablePatterns.of_agree (h : RulesAgree lang config) : UsablePatterns lang config where
  filter fields hfilter htype := by
    obtain ⟨pattern, htested⟩ := h.filters fields hfilter htype someContext someMoment
    obtain ⟨_, target, p, ⟨⟩, -, htarget, hvalue, -, hmem⟩ := mem_matchesFilter.mp htested
    obtain ⟨rfl, hsome⟩ := tested_testRegex.mp hmem
    exact ⟨filterTarget_isSome.mp ⟨target, htarget⟩, pattern, hvalue, usable_iff.mpr hsome⟩
  condition fields hcondition hoperator := by
    obtain ⟨pattern, htested⟩ := h.conditions fields hcondition hoperator someContext someMoment
    obtain ⟨_, field, p, ⟨⟩, hfield, -, hvalue, -, hmem⟩ := mem_evaluateCondition.mp htested
    obtain ⟨rfl, hsome⟩ := tested_testRegex.mp hmem
    refine ⟨⟨field, hfield⟩, pattern, hvalue, usable_iff.mpr hsome, fun _ => ?_⟩
    exact h.evaluations pattern ⟨someContext, someMoment, .inr ⟨_, hcondition, htested⟩⟩

/-- With usable patterns, only accepted patterns are tested. -/
theorem UsablePatterns.safe (h : UsablePatterns lang config)
    (haccepted : Accepted lang (.obj config)) {pattern : String}
    (hdoes : Does lang config (.tested pattern)) : isRegexSafe pattern = true := by
  obtain ⟨context, moment, ⟨filter, hfilter, hmem⟩ | ⟨condition, hcondition, hmem⟩⟩ := hdoes
  · obtain ⟨fields, target, p, rfl, htype, -, hvalue, -, htested⟩ := mem_matchesFilter.mp hmem
    obtain ⟨rfl, -⟩ := tested_testRegex.mp htested
    rw [← valueText_of_str hvalue]
    exact haccepted.filter_safe hfilter htype
  · obtain ⟨fields, field, p, rfl, -, hoperator, hvalue, -, htested⟩ :=
      mem_evaluateCondition.mp hmem
    obtain ⟨rfl, -⟩ := tested_testRegex.mp htested
    exact h.condition_safe haccepted hcondition hoperator hvalue

theorem UsablePatterns.agree (h : UsablePatterns lang config)
    (haccepted : Accepted lang (.obj config)) : RulesAgree lang config where
  filters fields hfilter htype context moment := by
    obtain ⟨hfield, pattern, hvalue, husable⟩ := h.filter fields hfilter htype
    obtain ⟨target, htarget⟩ : ∃ target, filterTarget lang context.event (Value.own fields "field")
        (eventText lang context.event) = some target := filterTarget_isSome.mpr hfield
    have hsafe := haccepted.filter_safe hfilter htype
    rw [valueText_of_str hvalue] at hsafe
    refine ⟨pattern, mem_matchesFilter.mpr ⟨fields, target, pattern, rfl, htype, htarget, hvalue,
      length_le_of_isRegexSafe hsafe, ?_⟩⟩
    exact tested_testRegex.mpr ⟨rfl, usable_iff.mp husable⟩
  conditions fields hcondition hoperator context moment := by
    obtain ⟨⟨field, hfield⟩, pattern, hvalue, husable, -⟩ :=
      h.condition fields hcondition hoperator
    have hsafe := h.condition_safe haccepted hcondition hoperator hvalue
    refine ⟨pattern, mem_evaluateCondition.mpr ⟨fields, field, pattern, rfl, hfield, hoperator, hvalue,
      length_le_of_isRegexSafe hsafe, ?_⟩⟩
    exact tested_testRegex.mpr ⟨rfl, usable_iff.mp husable⟩
  evaluations _ hdoes := h.safe haccepted hdoes
  runs _ _ _ hmem := h.safe haccepted (does_of_runScript hmem)

/-- **Agreement**: the rules agree on an accepted config exactly when its patterns are usable. -/
theorem rulesAgree_iff (h : Accepted lang (.obj config)) :
    RulesAgree lang config ↔ UsablePatterns lang config :=
  ⟨UsablePatterns.of_agree, fun husable => husable.agree h⟩

end Deciding

section Examples

/-- A language whose only regular expressions are the words that they match. -/
def literalLanguage : ScriptLanguage where
  compile pattern :=
    if pattern.toList.all Char.isAlpha then
      some fun text => includes (toLowerCase text) (toLowerCase pattern)
    else none
  stringOf _ := none
  numberOf _ := none
  inherited _ _ := .undefined
  parseUrl _ := none
  guard := ⟨none, none⟩

def helloFilter : List (String × Value) :=
  [("type", .str "regex"), ("value", .str "hello")]

def againCondition : List (String × Value) :=
  [("field", .str "text"), ("operator", .str "regex"), ("value", .str "again")]

def againStep : List (String × Value) :=
  [("type", .str "if"), ("condition", .obj againCondition), ("actions", .arr [])]

/-- A config with a regular expression filter and an action whose condition has one. -/
def greetingConfig : List (String × Value) :=
  [("filters", .arr [.obj helloFilter]), ("actions", .arr [.obj againStep])]

theorem accepted_greetingConfig : Accepted literalLanguage (.obj greetingConfig) := by
  have hfilters : checkFilters literalLanguage (Value.own greetingConfig "filters") = some [] := by
    decide
  have hparts : checkStepParts againStep "if" = [] := by decide
  have htype : Value.own againStep "type" = .str "if" := rfl
  have hnested : Value.own againStep "actions" = .arr [] := rfl
  have hsteps : Value.own greetingConfig "actions" = .arr [.obj againStep] := rfl
  have hactions : (walkActions literalLanguage (Value.own greetingConfig "actions") 0 0).1 = [] := by
    simp [hsteps, walkActions, walkSteps, maxActions, maxNesting, htype, hnested, hparts]
  rw [Accepted, validateScriptConfig, hfilters, hactions]
  rfl

theorem usable_literal {pattern : String} (hdangerous : looksDangerous pattern = false)
    (hword : pattern.toList.all Char.isAlpha = true) : Usable literalLanguage pattern := by
  refine ⟨fun hcaught => ?_, ?_⟩
  · rw [looksDangerous_iff.mpr hcaught] at hdangerous
    cases hdangerous
  · simp only [literalLanguage, hword, if_true]
    rfl

/-- The action of the config is its only one. -/
theorem stepOf_greetingConfig {step : List (String × Value)}
    (h : StepOf (Value.own greetingConfig "actions") step) : step = againStep := by
  have hsteps : Value.own greetingConfig "actions" = .arr [.obj againStep] := rfl
  rw [hsteps] at h
  cases h with
  | item hmem => exact Value.obj.inj (List.mem_singleton.mp hmem)
  | nested hmem _ hstep =>
    obtain rfl := Value.obj.inj (List.mem_singleton.mp hmem)
    have hnested : Value.own againStep "actions" = .arr [] := rfl
    rw [hnested] at hstep
    cases hstep with
    | item hmem => cases hmem
    | nested hmem => cases hmem

theorem rulesAgree_greetingConfig : RulesAgree literalLanguage greetingConfig := by
  refine (rulesAgree_iff accepted_greetingConfig).mpr ⟨?_, ?_⟩
  · rintro fields ⟨items, hitems, hmem⟩ -
    obtain rfl : [Value.obj helloFilter] = items := Value.arr.inj hitems
    obtain rfl := Value.obj.inj (List.mem_singleton.mp hmem)
    exact ⟨.inl rfl, "hello", rfl, usable_literal (by decide) (by decide)⟩
  · rintro fields ⟨step, hstep, hcondition, -⟩ -
    rw [stepOf_greetingConfig hstep] at hcondition
    obtain rfl : againCondition = fields := Value.obj.inj hcondition
    exact ⟨⟨"text", rfl⟩, "again", rfl, usable_literal (by decide) (by decide), nofun⟩

/-- A filter with a quantified group that contains an optional character. -/
def optionalFilter : List (String × Value) :=
  [("type", .str "regex"), ("value", .str "(a?)+")]

def optionalConfig : List (String × Value) :=
  [("filters", .arr [.obj optionalFilter]), ("actions", .arr [])]

/-- **The defect**: the config is accepted, and its filter never matches. -/
theorem not_rulesAgree_optionalConfig :
    Accepted literalLanguage (.obj optionalConfig) ∧ ¬ RulesAgree literalLanguage optionalConfig := by
  constructor
  · have hfilters : checkFilters literalLanguage (Value.own optionalConfig "filters") = some [] := by
      decide
    have hsteps : Value.own optionalConfig "actions" = .arr [] := rfl
    rw [Accepted, validateScriptConfig, hfilters, hsteps, walkActions, walkSteps]
    rfl
  · intro h
    obtain ⟨-, pattern, hpattern, husable⟩ :=
      (UsablePatterns.of_agree h).filter optionalFilter ⟨_, rfl, List.mem_singleton_self _⟩ rfl
    obtain rfl : "(a?)+" = pattern := Value.str.inj hpattern
    exact husable.notCaught (looksDangerous_iff.mp (by decide))

end Examples

end BotHive.Scripts
