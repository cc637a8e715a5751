import BotHive.Scripts.ConfigCheck
import BotHive.Workers.ScriptEngine

/-!
# The run of a script

An event runs a script: its filters are evaluated, and then its actions one after the other, each
one if its condition holds. The config is the JSON value that was stored, so a value of the wrong
type may throw an exception. One that is thrown by an action is caught and the next action runs.

What other runs do in between belongs to the moment of an evaluation: the patterns that were looked
up before, the counters of the bot, whether the time of the run is used up. The effects of
the actions and the sandbox of custom filters are parameters too.

## Main definitions

- `matchesFilter`, `evaluateCondition`: the verdict of a filter and of a condition, and what they do
  with regular expressions
- `runActions`: the run of the actions
- `runScript`: the run of a script whose cooldown has passed
-/

namespace BotHive.Scripts

open Workers (Event ScriptRuntime resolvePath eventField)

inductive RegexEvent where
  /-- A pattern goes to the compiler. -/
  | compiled (pattern : String)
  /-- A compiled pattern is tested on a text. -/
  | tested (pattern : String)
  deriving DecidableEq

/-- The verdict of a filter or a condition, none when it throws, and what it did with regular
    expressions. -/
structure Evaluation where
  verdict : Option Bool
  events : List RegexEvent

/-- What an evaluation finds. -/
structure Moment where
  /-- the patterns that were looked up so far -/
  lookups : List String
  /-- the counters of the bot, `undefined` where there is none -/
  counters : String → Value
  /-- whether the time of the run is used up -/
  expired : Bool
  /-- the verdict of a custom filter with a value, none when it throws -/
  sandbox : Value → Option Bool

/-- The event and the variables of a run. -/
structure ScriptContext where
  event : Event
  vars : List (String × Value)

section Evaluations

/-- What an expression that must be synchronous may not contain. -/
def forbiddenExpressionPatterns : List (ClassPattern Char) :=
  [word "async", word "await",
    ClassPattern.literal "new".toList ++ [.one isWhitespace, .many isWhitespace] ++
      ClassPattern.literal "Promise".toList ++ [.boundary isWordChar],
    ClassPattern.literal ".then".toList ++ [.many isWhitespace, .one (· == '(')],
    ClassPattern.literal ".catch".toList ++ [.many isWhitespace, .one (· == '(')]]

def isExpressionAllowed (expression : String) : Bool :=
  (checkCode expression maxCustomExpression).isNone &&
    !forbiddenExpressionPatterns.any fun pattern => pattern.test expression.toList

variable (lang : ScriptLanguage)

/-- The runtime of the language that paths are resolved in. -/
def ScriptLanguage.runtime : ScriptRuntime where
  cachedRegex := uncachedRegex lang.compile
  isExpressionAllowed := isExpressionAllowed
  stringOf := lang.stringOf
  inherited := lang.inherited

def throws : Evaluation :=
  ⟨none, []⟩

/-- Look a pattern up, and test it on a target if there is a regular expression for it. -/
def testRegex (moment : Moment) (pattern : String) (target : Option String) : Evaluation :=
  let lookup := cachedRegex lang.compile (regexCacheAfter lang.compile moment.lookups) pattern
  let compiled := if lookup.compiled then [RegexEvent.compiled pattern] else []
  match lookup.regex with
  | none => ⟨some false, compiled⟩
  | some regex => ⟨target.map regex, compiled ++ [.tested pattern]⟩

/-- The value that a filter looks at: its field, or a default without a field. -/
def filterTarget (event : Event) (field fallback : Value) : Option Value :=
  if field.truthy then
    match field with
    | .str path => some ((resolvePath lang.runtime event path).orElse (.str ""))
    | _ => none
  else some fallback

/-- The verdict of a regular expression filter with a value on its target. -/
def matchesRegex (moment : Moment) (value target : Value) : Evaluation :=
  match value with
  | .str pattern =>
    if maxRegexLength < utf16Length pattern then ⟨some false, []⟩
    else testRegex lang moment pattern (lang.text target)
  -- only texts have the method that the lookup calls
  | .arr items => if maxRegexLength < items.length then ⟨some false, []⟩ else throws
  | .obj fields =>
    match lang.number (Value.own fields "length") with
    | some length => if (JsNumber.finite maxRegexLength).lt length then ⟨some false, []⟩ else throws
    | none => throws
  | _ => throws

variable [CaseMapping]

def matchesFilter (context : ScriptContext) (moment : Moment) (filter : Value) : Evaluation :=
  match filter with
  | .undefined | .null => throws
  | .obj fields =>
    let field := Value.own fields "field"
    let value := Value.own fields "value"
    let text := ((eventField lang.runtime context.event "text").orElse
      (eventField lang.runtime context.event "message")).orElse (.str "")
    match Value.own fields "type" with
    | .str "role" =>
      let role := (eventField lang.runtime context.event "role").orElse (.str "")
      match filterTarget lang context.event field role with
      | none => throws
      | some target =>
        ⟨do return toLowerCase (← lang.text target) == toLowerCase (← lang.text value), []⟩
    | .str "regex" =>
      match filterTarget lang context.event field text with
      | none => throws
      | some target => matchesRegex lang moment value target
    | .str "keyword" =>
      match filterTarget lang context.event field text, value with
      | some (.str target), .str keyword =>
        ⟨some (includes (toLowerCase target) (toLowerCase keyword)), []⟩
      | _, _ => throws
    | .str "custom" =>
      match value with
      | .str expression =>
        if isExpressionAllowed expression then ⟨some ((moment.sandbox value).getD false), []⟩
        else ⟨some false, []⟩
      | _ => ⟨moment.sandbox value, []⟩
    | _ => ⟨some true, []⟩
  | _ => ⟨some true, []⟩

end Evaluations

section Conditions

variable (lang : ScriptLanguage)

/-- A text without what it starts with. -/
def stripStart? (start text : String) : Option String :=
  if start.toList.isPrefixOf text.toList then
    some (String.ofList (text.toList.drop start.toList.length))
  else none

def ScriptContext.variableOf (context : ScriptContext) (name : String) : Value :=
  Value.own context.vars name

/-- The value that a condition looks at. -/
def conditionLeft (context : ScriptContext) (moment : Moment) (field : String) : Value :=
  match stripStart? "counters." field, stripStart? "variables." field with
  | some name, _ => moment.counters name
  | none, some name => context.variableOf name
  | none, none =>
    match resolvePath lang.runtime context.event field with
    | .undefined =>
      match context.variableOf field with
      | .undefined => moment.counters field
      | left => left
    | left => left

/-- Equality without conversion. Two objects of different documents are never the same. -/
def strictEquals : Value → Value → Bool
  | .undefined, .undefined | .null, .null => true
  | .bool a, .bool b => a == b
  | .num a, .num b => a == b
  | .str a, .str b => a == b
  | _, _ => false

/-- Compare two values as numbers. -/
def compareNumbers (compare : JsNumber → JsNumber → Bool) (left right : Value) : Option Bool := do
  return compare (← lang.number left) (← lang.number right)

def evaluateCondition (context : ScriptContext) (moment : Moment) (condition : Value) :
    Evaluation :=
  match condition with
  | .obj fields =>
    match Value.own fields "field" with
    | .str field =>
      let left := conditionLeft lang context moment field
      let value := Value.own fields "value"
      match Value.own fields "operator" with
      | .str "eq" => ⟨some (strictEquals left value), []⟩
      | .str "ne" => ⟨some (!strictEquals left value), []⟩
      | .str "gt" => ⟨compareNumbers lang (fun a b => b.lt a) left value, []⟩
      | .str "gte" => ⟨compareNumbers lang (fun a b => b.le a) left value, []⟩
      | .str "lt" => ⟨compareNumbers lang (fun a b => a.lt b) left value, []⟩
      | .str "lte" => ⟨compareNumbers lang (fun a b => a.le b) left value, []⟩
      | .str "contains" => ⟨do return includes (← lang.text left) (← lang.text value), []⟩
      | .str "regex" =>
        match lang.text value with
        | none => throws
        | some pattern =>
          if maxRegexLength < utf16Length pattern then ⟨some false, []⟩
          else testRegex lang moment pattern (lang.text left)
      | .str "exists" => ⟨some !left.isNullish, []⟩
      | _ => ⟨some true, []⟩
    | _ => throws
  | _ => throws

end Conditions

section Runs

variable (lang : ScriptLanguage) [CaseMapping] (context : ScriptContext) (moments : ℕ → Moment)

/-- What a part of a run did with regular expressions, the moment that it ended at, and whether it
    threw an exception. -/
structure RunPart where
  events : List RegexEvent
  clock : ℕ
  rejected : Bool

/-- The filters are tried in order, up to the first one that does not match. -/
def matchesEvery : List Value → ℕ → Evaluation × ℕ
  | [], clock => (⟨some true, []⟩, clock)
  | filter :: rest, clock =>
    let evaluation := matchesFilter lang context (moments clock) filter
    match evaluation.verdict with
    | some true =>
      let others := matchesEvery rest (clock + 1)
      (⟨others.1.verdict, evaluation.events ++ others.1.events⟩, others.2)
    | verdict => (⟨verdict, evaluation.events⟩, clock + 1)

def matchesFilters (filters : Value) (clock : ℕ) : Evaluation × ℕ :=
  match filters with
  | .arr items => matchesEvery lang context moments items clock
  | .undefined | .null => (⟨some true, []⟩, clock)
  | .str text => (⟨if text = "" then some true else none, []⟩, clock)
  | .obj fields =>
    (⟨if strictEquals (Value.own fields "length") (.num 0) then some true else none, []⟩, clock)
  | _ => (throws, clock)

omit [CaseMapping] in
/-- The condition of an action. An action without one runs. -/
def stepCondition (moment : Moment) (condition : Value) : Evaluation :=
  if condition.truthy then evaluateCondition lang context moment condition else ⟨some true, []⟩

mutual

def runActions (actions : Value) (clock : ℕ) : RunPart :=
  match actions with
  | .arr items => runSteps items clock
  -- the characters of a text are no actions
  | .str _ => ⟨[], clock, false⟩
  | _ => ⟨[], clock, true⟩
termination_by sizeOf actions

def runSteps (steps : List Value) (clock : ℕ) : RunPart :=
  match steps with
  | [] => ⟨[], clock, false⟩
  | step :: rest =>
    if (moments clock).expired then ⟨[], clock + 1, false⟩
    else
      match step with
      -- the handler of the exception throws as well
      | .undefined | .null => ⟨[], clock + 1, true⟩
      | .obj fields =>
        let condition := stepCondition lang context (moments clock) (Value.own fields "condition")
        let nested : RunPart :=
          if condition.verdict = some true ∧ (Value.own fields "type").text? = some "if" ∧
              (Value.own fields "actions").truthy then
            runActions (Value.own fields "actions") (clock + 1)
          else ⟨[], clock + 1, false⟩
        let others := runSteps rest nested.clock
        ⟨condition.events ++ nested.events ++ others.events, others.clock, others.rejected⟩
      | _ => runSteps rest (clock + 1)
termination_by sizeOf steps
decreasing_by
  all_goals first
    | exact Value.sizeOf_own_lt_step _ _ _
    | simp only [List.cons.sizeOf_spec]; omega

end

end Runs

/-- The run of a script whose cooldown has passed. -/
def runScript (lang : ScriptLanguage) [CaseMapping] (config : List (String × Value)) (event : Event)
    (moments : ℕ → Moment) : RunPart :=
  let context : ScriptContext := ⟨event, (Value.own config "variables").entries⟩
  let filters := matchesFilters lang context moments (Value.own config "filters") 0
  match filters.1.verdict with
  | none => ⟨filters.1.events, filters.2, true⟩
  | some false => ⟨filters.1.events, filters.2, false⟩
  | some true =>
    let actions := runActions lang context moments (Value.own config "actions") filters.2
    ⟨filters.1.events ++ actions.events, actions.clock, actions.rejected⟩

end BotHive.Scripts
