import BotHive.Scripts.Language
import BotHive.Scripts.RegexSafety

/-!
# The check of a script config

A config is checked before it is stored: its filters, its actions with their conditions, also those
nested in `if` actions, and its limits. The check lists the problems that it finds.

## Main definitions

- `checkFilters`, `walkActions`: the problems of the filters and of the actions
- `validateScriptConfig`: the problems of a config, none when a conversion throws
-/

namespace BotHive.Scripts

section Limits

def maxFilters : ℕ := 20

def maxFilterValue : ℕ := 500

def maxCustomExpression : ℕ := 500

def maxCustomCode : ℕ := 4000

def maxActions : ℕ := 200

def maxNesting : ℕ := 5

def maxDelayMs : ℚ := 300000

def maxExecutionMs : ℚ := 600000

def maxPayloadString : ℕ := 10000

end Limits

section Code

def isWordChar (c : Char) : Bool :=
  c.isAlphanum || c == '_'

def isWhitespace (c : Char) : Bool :=
  ['\t', '\n', '\u000b', '\u000c', '\r', ' ', '\u00a0', '\u1680', '\u2028', '\u2029', '\u202f',
    '\u205f', '\u3000', '\ufeff'].elem c || (0x2000 ≤ c.toNat && c.toNat ≤ 0x200a)

/-- A word that stands by itself, before what follows it. -/
def wordThen (word : String) (items : ClassPattern Char) : ClassPattern Char :=
  .boundary isWordChar :: (ClassPattern.literal word.toList ++ items)

def word (text : String) : ClassPattern Char :=
  wordThen text [.boundary isWordChar]

/-- A word before an opening parenthesis. -/
def call (text : String) : ClassPattern Char :=
  wordThen text [.many isWhitespace, .one (· == '(')]

/-- A call with the quoted name of one of some modules. -/
def callWith (text : String) (modules : List String) : List (ClassPattern Char) :=
  (["", "node:"].product modules).map fun name =>
    call text ++ [.many isWhitespace, .one fun c => c == '\u0027' || c == '"'] ++
      ClassPattern.literal (name.1 ++ name.2).toList

def networkModules : List String :=
  ["http", "https", "net", "dns", "fs"]

def forbiddenCodePatterns : List (ClassPattern Char) :=
  [word "process", call "require", word "module", word "exports", word "globalThis", word "global",
    word "Function", call "eval", word "constructor", ClassPattern.literal "__proto__".toList,
    word "prototype", word "import", word "import.meta", word "worker_threads",
    word "child_process", word "fs", word "readFileSync", word "writeFileSync", word "WebAssembly",
    word "XMLHttpRequest"] ++ callWith "import" networkModules ++ callWith "require" networkModules

def checkCode (value : String) (maxLength : ℕ) : Option String :=
  if maxLength < utf16Length value then
    some ("code exceeds " ++ toString maxLength ++ " characters")
  else if forbiddenCodePatterns.any fun pattern => pattern.test value.toList then
    some "code uses forbidden constructs"
  else none

end Code

section Checks

/-- The problem of a part, under the name of the part. -/
def problemOf (part : String) (problem : Option String) : List String :=
  (problem.map fun text => part ++ text).toList

def checkRegex (value : String) : Option String :=
  if isRegexSafe value then none
  else if maxRegexLength < utf16Length value then some "regex exceeds 500 characters"
  else if quantifiedGroupRedos.test value.toList then some "regex uses dangerous nested quantifiers"
  else some "regex does not compile"

variable (lang : ScriptLanguage)

def checkFilter (filter : Value) : Option (List String) :=
  match filter with
  | .obj fields =>
    let value := (Value.own fields "value").text?.getD ""
    match Value.own fields "type" with
    | .str "regex" => some (problemOf "filter regex: " (checkRegex value))
    | .str "custom" => some (problemOf "filter custom: " (checkCode value maxCustomExpression))
    | .str "keyword" | .str "role" =>
      some (if maxFilterValue < utf16Length value then ["filter value too long"] else [])
    | type => (lang.text type).map fun text => ["filter type \"" ++ text ++ "\" is not supported"]
  | _ => some ["filter must be an object"]

def checkFilters (filters : Value) : Option (List String) :=
  match filters with
  | .arr items =>
    if maxFilters < items.length then some ["too many filters"]
    else (items.mapM (checkFilter lang)).map List.flatten
  | _ => some []

def checkCondition (condition : Value) : List String :=
  match condition with
  | .obj fields =>
    match Value.own fields "operator" with
    | .str "regex" =>
      problemOf "condition regex: " (checkRegex ((Value.own fields "value").text?.getD ""))
    | _ => []
  | _ => ["condition must be an object"]

def checkPayloadStrings (payload : Value) (part : String) : List String :=
  match payload with
  | .obj fields => fields.filterMap fun e =>
    match e.2 with
    | .str text =>
      if maxPayloadString < utf16Length text then
        some (part ++ "." ++ e.1 ++ " exceeds " ++ toString maxPayloadString ++ " characters")
      else none
    | _ => none
  | _ => []

/-- A field of the payload of an action. -/
def payloadField (fields : List (String × Value)) (name : String) : Value :=
  match Value.own fields "payload" with
  | .obj payload => Value.own payload name
  | _ => .undefined

/-- The problems that depend on the type of an action. -/
def checkStepType (fields : List (String × Value)) (type : String) : List String :=
  match type with
  | "custom" =>
    match payloadField fields "code" with
    | .str code => problemOf "custom action: " (checkCode code maxCustomCode)
    | _ => ["custom action requires payload.code"]
  | "delay" =>
    match payloadField fields "ms" with
    | .num ms => if maxDelayMs < ms then ["delay exceeds 300000ms"] else []
    | _ => []
  | "webhook" =>
    match payloadField fields "url" with
    | .str url =>
      if url = "" ∨ lang.isWebhookUrlAllowed url = false then
        ["webhook action uses a disallowed URL"]
      else []
    | _ => ["webhook action uses a disallowed URL"]
  | _ => []

/-- The problems of the condition and of the payload of an action. -/
def checkStepParts (fields : List (String × Value)) (type : String) : List String :=
  (match Value.own fields "condition" with
    | .undefined => []
    | condition => checkCondition condition) ++
  checkPayloadStrings (Value.own fields "payload") ("action \"" ++ type ++ "\" payload")

mutual

/-- The problems of a list of actions, and how many actions were visited so far. -/
def walkActions (actions : Value) (depth n : ℕ) : List String × ℕ :=
  match actions with
  | .arr items => walkSteps items depth n
  | .undefined => ([], n)
  | _ => (["actions must be an array"], n)
termination_by sizeOf actions

def walkSteps (steps : List Value) (depth n : ℕ) : List String × ℕ :=
  match steps with
  | [] => ([], n)
  | step :: rest =>
    if maxActions < n + 1 then (["too many actions"], n + 1)
    else
      match step with
      | .obj fields =>
        match Value.own fields "type" with
        | .str type =>
          if type = "" then
            let others := walkSteps rest depth (n + 1)
            ("action requires a type" :: others.1, others.2)
          else if type = "if" then
            let deep := if maxNesting < depth + 1 then ["action nesting is too deep"] else []
            let nested := walkActions (Value.own fields "actions") (depth + 1) (n + 1)
            let others := walkSteps rest depth nested.2
            (checkStepParts fields type ++ deep ++ nested.1 ++ others.1, others.2)
          else
            let others := walkSteps rest depth (n + 1)
            (checkStepParts fields type ++ checkStepType lang fields type ++ others.1, others.2)
        | _ =>
          let others := walkSteps rest depth (n + 1)
          ("action requires a type" :: others.1, others.2)
      | _ =>
        let others := walkSteps rest depth (n + 1)
        ("action must be an object" :: others.1, others.2)
termination_by sizeOf steps
decreasing_by
  all_goals first
    | exact Value.sizeOf_own_lt_step _ _ _
    | simp only [List.cons.sizeOf_spec]; omega

end

/-- A limit of a config, when it is given: a number with a property. -/
def checkLimit (limit : Value) (ok : JsNumber → Bool) (problem : String) : Option (List String) :=
  match limit with
  | .undefined => some []
  | limit => (lang.number limit).map fun number => if ok number then [] else [problem]

def isBetween (low high : ℚ) (number : JsNumber) : Bool :=
  number.isInteger && (JsNumber.finite low).le number && number.le (.finite high)

/-- The problems of a config; none when a conversion throws. -/
def validateScriptConfig (config : Value) : Option (List String) :=
  match config with
  | .obj fields => do
    let filters ← checkFilters lang (Value.own fields "filters")
    let actions := (walkActions lang (Value.own fields "actions") 0 0).1
    let cooldown ← checkLimit lang (Value.own fields "cooldown") (isBetween 0 86400)
      "cooldown must be an integer between 0 and 86400"
    let interval ← checkLimit lang (Value.own fields "interval") (isBetween 1 86400)
      "interval must be an integer between 1 and 86400"
    let execution ← checkLimit lang (Value.own fields "maxExecutionMs") (isBetween 100 maxExecutionMs)
      "maxExecutionMs must be an integer between 100 and 600000"
    return filters ++ actions ++ cooldown ++ interval ++ execution
  | _ => some ["config must be an object"]

/-- A config that may be stored. -/
def Accepted (config : Value) : Prop :=
  validateScriptConfig lang config = some []

end Checks

end BotHive.Scripts
