import BotHive.Scripts.ScriptRun

/-!
# The outcome of a script run

`BotHive.Scripts.ScriptRun` follows the regular expressions of a run. Here the run is followed for
what it executes and reports: which actions, whether one of them failed, and the call of
`onScriptError`. An action is named by its path, its position in its list after those of the `if`
actions above it, and comes to its turn once at most; what its condition finds at its turn, the time
of its turn and whether what it does fails belong to the world of the run.

## Main definitions

- `RunWorld`: the clock and what is found and fails
- `performActions`, `runOutcome`: the run
- `PlacedStep.Executes`, `PlacedStep.Troubled`: which actions should be executed and which fail
- `RunsAsMeant`: what should hold of a run
- `ReadableFilters`, `RunsThrough`: the condition on the filters and the actions
-/

namespace BotHive.Scripts

open Workers (Event)

/-- The position of an action in its list, after the positions of the actions above it. -/
abbrev StepPath := List ℕ

/-- What a run meets. -/
structure RunWorld where
  /-- When the run starts, in milliseconds. -/
  start : ℤ
  /-- When an action comes to its turn. -/
  now : StepPath → ℤ
  /-- When the last action is through. -/
  finish : ℤ
  /-- What the evaluation of a filter finds, by the number of the filter. -/
  filterMoment : ℕ → Moment
  /-- What the evaluation of a condition finds. -/
  stepMoment : StepPath → Moment
  /-- What an action does fails: one of its API calls, or the evaluation of its payload. -/
  fails : StepPath → Bool
  /-- The actions of a list take turns, each with all that is nested in it. -/
  ordered : ∀ path i j below, i ≤ j → now (path ++ [i]) ≤ now (path ++ j :: below)
  ended : ∀ path, now path ≤ finish

/-- The sum of a time and a value: a text is appended. -/
def addTime (lang : ScriptLanguage) (time : ℤ) (value : Value) : Option JsNumber :=
  match value with
  | .num ms => some (.finite (time + ms))
  | .undefined | .null | .bool _ => (lang.number value).bind fun
    | .finite ms => some (.finite (time + ms))
    | number => some number
  | value => (lang.text value).bind fun text => lang.number (.str (toString time ++ text))

/-- When the time of a run is used up. -/
def runDeadline (lang : ScriptLanguage) (config : List (String × Value)) (start : ℤ) :
    Option JsNumber :=
  let limit := Value.own config "maxExecutionMs"
  if limit.truthy && (compareNumbers lang (fun a b => b.lt a) limit (.num 0)).getD false then
    addTime lang start limit
  else none

def reached (deadline : Option JsNumber) (now : ℤ) : Bool :=
  deadline.any fun deadline => deadline.le (.finite now)

/-- What a list of actions did. -/
structure StepsOutcome where
  executed : List StepPath
  scriptFailed : Bool
  rejected : Bool

/-- What a run did, with the number of calls of `onScriptError`. -/
structure RunOutcome where
  executed : List StepPath
  notified : ℕ
  rejected : Bool

section Runs

variable (lang : ScriptLanguage) (context : ScriptContext) (deadline : Option JsNumber)
  (w : RunWorld)

/-- The verdict of the condition of an action at its turn. -/
def stepVerdict (path : StepPath) (fields : List (String × Value)) : Option Bool :=
  (stepCondition lang context (w.stepMoment path) (Value.own fields "condition")).verdict

def isIf (fields : List (String × Value)) : Bool :=
  (Value.own fields "type").text? = some "if"

mutual

/-- `runActions` on the actions under a path. -/
def performActions (actions : Value) (path : StepPath) : StepsOutcome :=
  match actions with
  | .arr items => performSteps items path 0
  -- the characters of a text are no actions
  | .str _ => ⟨[], false, false⟩
  | _ => ⟨[], false, true⟩
termination_by sizeOf actions

/-- The actions of a list from a position on. -/
def performSteps (steps : List Value) (path : StepPath) (i : ℕ) : StepsOutcome :=
  match steps with
  | [] => ⟨[], false, false⟩
  | step :: rest =>
    let here := path ++ [i]
    if reached deadline (w.now here) then ⟨[], false, false⟩
    else
      match step with
      -- the handler of the exception throws as well
      | .undefined | .null => ⟨[], false, true⟩
      | .obj fields =>
        let done : StepsOutcome :=
          match stepVerdict lang context w here fields with
          | none => ⟨[], true, false⟩
          | some false => ⟨[], false, false⟩
          | some true =>
            if isIf fields then
              if (Value.own fields "actions").truthy then
                let nested := performActions (Value.own fields "actions") here
                ⟨here :: nested.executed, nested.scriptFailed || nested.rejected, false⟩
              else ⟨[here], false, false⟩
            else ⟨[here], w.fails here, false⟩
        let others := performSteps rest path (i + 1)
        ⟨done.executed ++ others.executed, done.scriptFailed || others.scriptFailed,
          others.rejected⟩
      | _ => performSteps rest path (i + 1)
termination_by sizeOf steps
decreasing_by
  all_goals first
    | exact Value.sizeOf_own_lt_step _ _ _
    | simp only [List.cons.sizeOf_spec]; omega

end

end Runs

section Meaning

/-- An action of a config with the `if` actions above it. -/
structure PlacedStep where
  path : StepPath
  fields : List (String × Value)
  above : List (StepPath × List (String × Value))

mutual

/-- The actions under a path, each before those that are nested in it. -/
def placedActions (actions : Value) (path : StepPath)
    (above : List (StepPath × List (String × Value))) : List PlacedStep :=
  match actions with
  | .arr items => placedSteps items path 0 above
  | _ => []
termination_by sizeOf actions

def placedSteps (steps : List Value) (path : StepPath) (i : ℕ)
    (above : List (StepPath × List (String × Value))) : List PlacedStep :=
  match steps with
  | [] => []
  | .obj fields :: rest =>
    let here := path ++ [i]
    let nested :=
      if isIf fields then
        placedActions (Value.own fields "actions") here ((here, fields) :: above)
      else []
    ⟨here, fields, above⟩ :: nested ++ placedSteps rest path (i + 1) above
  | _ :: rest => placedSteps rest path (i + 1) above
termination_by sizeOf steps
decreasing_by
  all_goals first
    | exact Value.sizeOf_own_lt_step _ _ _
    | simp only [List.cons.sizeOf_spec]; omega

end

variable (lang : ScriptLanguage) (context : ScriptContext) (deadline : Option JsNumber)
  (w : RunWorld)

/-- The turn of an action comes before the deadline, and its condition holds. -/
def HoldsAt (path : StepPath) (fields : List (String × Value)) : Prop :=
  reached deadline (w.now path) = false ∧ stepVerdict lang context w path fields = some true

instance decidableHoldsAt (path : StepPath) (fields : List (String × Value)) :
    Decidable (HoldsAt lang context deadline w path fields) :=
  inferInstanceAs (Decidable (_ ∧ _))

/-- The condition of an action holds, and those of all actions above it do. -/
def PlacedStep.Executes (s : PlacedStep) : Prop :=
  HoldsAt lang context deadline w s.path s.fields ∧
    ∀ a ∈ s.above, HoldsAt lang context deadline w a.1 a.2

instance decidableExecutes (s : PlacedStep) :
    Decidable (s.Executes lang context deadline w) :=
  inferInstanceAs (Decidable (_ ∧ _))

/-- An action comes to its turn, and its condition throws or what it does fails. -/
def PlacedStep.Troubled (s : PlacedStep) : Prop :=
  reached deadline (w.now s.path) = false ∧
    (∀ a ∈ s.above, HoldsAt lang context deadline w a.1 a.2) ∧
    (stepVerdict lang context w s.path s.fields = none ∨
      stepVerdict lang context w s.path s.fields = some true ∧ isIf s.fields = false ∧
        w.fails s.path = true)

end Meaning

section Scripts

variable (lang : ScriptLanguage) [CaseMapping] (config : List (String × Value)) (event : Event)
  (w : RunWorld)

def runContext : ScriptContext :=
  ⟨event, (Value.own config "variables").entries⟩

/-- Whether the filters of a config match, none when one of them throws. -/
def filtersVerdict : Option Bool :=
  (matchesFilters lang (runContext config event) w.filterMoment (Value.own config "filters")
    0).1.verdict

/-- `runScript` of a script whose cooldown has passed. -/
def runOutcome : RunOutcome :=
  let deadline := runDeadline lang config w.start
  match filtersVerdict lang config event w with
  | none => ⟨[], 0, true⟩
  | some false => ⟨[], 0, false⟩
  | some true =>
    let actions := performActions lang (runContext config event) deadline w
      (Value.own config "actions") []
    if actions.rejected then ⟨actions.executed, 0, true⟩
    else
      let scriptFailed := actions.scriptFailed || reached deadline w.finish
      ⟨actions.executed, if scriptFailed then 1 else 0, false⟩

/-- A filter is evaluated to a truth value; the expression of a custom filter, too. -/
def ReadableFilter (context : ScriptContext) (moment : Moment) (fields : List (String × Value)) :
    Prop :=
  let field := Value.own fields "field"
  let value := Value.own fields "value"
  let text := ((Workers.eventField lang.runtime context.event "text").orElse
    (Workers.eventField lang.runtime context.event "message")).orElse (.str "")
  match Value.own fields "type" with
  | .str "role" =>
    let role := (Workers.eventField lang.runtime context.event "role").orElse (.str "")
    (lang.text value).isSome ∧
      ∃ target, filterTarget lang context.event field role = some target ∧
        (lang.text target).isSome
  | .str "regex" =>
    ∃ target, filterTarget lang context.event field text = some target ∧
      (matchesRegex lang moment value target).verdict.isSome
  | .str "keyword" =>
    ∃ target keyword, filterTarget lang context.event field text = some (.str target) ∧
      value = .str keyword
  | .str "custom" =>
    (∃ expression, value = .str expression ∧ isExpressionAllowed expression = false) ∨
      (moment.sandbox value).isSome
  | _ => True

/-- Every filter up to the first one that does not match is readable. -/
def ReadableFrom (context : ScriptContext) (moments : ℕ → Moment) : List Value → ℕ → Prop
  | [], _ => True
  | .obj fields :: rest, i => ReadableFilter lang context (moments i) fields ∧
      ((matchesFilter lang context (moments i) (.obj fields)).verdict = some true →
        ReadableFrom context moments rest (i + 1))
  | _ :: _, _ => False

/-- There are no filters, or they are a list of readable ones. -/
def ReadableList (context : ScriptContext) (moments : ℕ → Moment) : Value → Prop
  | .arr items => ReadableFrom lang context moments items 0
  | .undefined | .null => True
  | .str text => text = ""
  | .obj fields => strictEquals (Value.own fields "length") (.num 0) = true
  | _ => False

def ReadableFilters : Prop :=
  ReadableList lang (runContext config event) w.filterMoment (Value.own config "filters")

/-- The condition on a run: its filters are readable, and if they match, there are actions. -/
def RunsThrough : Prop :=
  ReadableFilters lang config event w ∧
    (filtersVerdict lang config event w = some true → Value.own config "actions" ≠ .undefined)

/-- What `onScriptError` should be called for: a filter that was reached threw, or its expression
    did; or the filters matched, and there was trouble with an action or the deadline was reached. -/
def Reported : Prop :=
  ¬ ReadableFilters lang config event w ∨ filtersVerdict lang config event w = some true ∧
    ((∃ s ∈ placedActions (Value.own config "actions") [] [],
      s.Troubled lang (runContext config event) (runDeadline lang config w.start) w) ∨
      reached (runDeadline lang config w.start) w.finish = true)

/-- What should hold of a run. -/
structure RunsAsMeant (o : RunOutcome) : Prop where
  settles : o.rejected = false
  executes : filtersVerdict lang config event w = some true →
    o.executed = ((placedActions (Value.own config "actions") [] []).filter fun s =>
      s.Executes lang (runContext config event) (runDeadline lang config w.start) w).map
        PlacedStep.path
  idle : filtersVerdict lang config event w = some false → o.executed = []
  notifies : Reported lang config event w → o.notified = 1
  quiet : ¬ Reported lang config event w → o.notified = 0

end Scripts

end BotHive.Scripts
