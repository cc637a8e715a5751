import BotHive.Backup.Import
import BotHive.Library.Numeric
import BotHive.Library.Replace
import BotHive.Library.Separated
import BotHive.Scripts.ConfigCheck

/-!
# Script patterns

A script can be made from a pattern and its parameters. The parameters come from the client and may
be of any type; each pattern reads them with its own defaults, limits the texts and lists, and writes
a config. The route checks the config as it checks one that a client sends.

## Main definitions

- `Patterns.keywordRegex`, `Patterns.keywordBoundaryRegex`: keywords as regular expressions
- `PatternName.generate`: the config of each pattern
- `generateScript`: `POST /scripts/generate`
-/

namespace BotHive.Scripts

abbrev PatternParams := List (String × Value)

structure GeneratedScriptConfig where
  trigger : String
  filters : Option (List Value) := none
  actions : List Value
  cooldown : Option ℚ := none
  interval : Option ℚ := none

def GeneratedScriptConfig.fields (config : GeneratedScriptConfig) : List (String × Value) :=
  [("trigger", .str config.trigger)] ++
    (config.filters.map fun filters => ("filters", Value.arr filters)).toList ++
    [("actions", .arr config.actions)] ++
    (config.cooldown.map fun seconds => ("cooldown", Value.num seconds)).toList ++
    (config.interval.map fun seconds => ("interval", Value.num seconds)).toList

namespace Patterns

section Parameters

variable (lang : ScriptLanguage) (params : PatternParams)

def str (key fallback : String) : String :=
  match Value.own params key with
  | .str text => text
  | _ => fallback

/-- `/^-?\d+(?:\.\d+)?$/` -/
def isPlainDecimal (text : List Char) : Bool :=
  let unsigned := if text.head? = some '-' then text.tail else text
  let whole := unsigned.takeWhile Char.isDigit
  match unsigned.dropWhile Char.isDigit with
  | [] => whole ≠ []
  | point :: decimals => whole ≠ [] && point == '.' && decimals ≠ [] && decimals.all Char.isDigit

/-- A number, also one that is written as a plain decimal. -/
def num (key : String) (fallback : ℚ) : ℚ :=
  match Value.own params key with
  | .num q => q
  | .str text =>
    if isPlainDecimal (trimText text).toList then
      match lang.numberOf (.str (trimText text)) with
      | some (.finite q) => q
      | _ => fallback
    else fallback
  | _ => fallback

def maxListItems : ℕ := 100

def maxItemLength : ℕ := 200

def maxTextLength : ℕ := 4000

def maxVariants : ℕ := 100

/-- The parts of a text that are not blank, trimmed and limited. -/
def trimmedParts (separator : Char) (maxParts maxLength : ℕ) (value : String) : List String :=
  ((((splitText separator value).map trimText).filter (· ≠ "")).take maxParts).map
    (sliceUnits maxLength)

def splitList (value : String) : List String :=
  trimmedParts ',' maxListItems maxItemLength value

def capText (value : String) : String :=
  if maxTextLength < utf16Length value then sliceUnits maxTextLength value else value

/-- `/^[A-Za-z0-9_-]{1,64}$/` -/
def isCounterName (name : String) : Bool :=
  name ≠ "" && name.toList.length ≤ 64 && name.toList.all fun c => isWordChar c || c == '-'

def counterName (fallback : String) : String :=
  let name := str params "counterName" fallback
  if isCounterName name then name else fallback

/-- `text.replaceAll('\x7bcounterName\x7d', name)` -/
def withCounterName (name text : String) : String :=
  String.ofList (replaceList "\x7bcounterName\x7d".toList name.toList text.toList)

end Parameters

section Keywords

/-- The characters that `escapeRegex` escapes. -/
def escapedCharacters : List Char :=
  ['.', '*', '+', '?', '^', '$', '{', '}', '(', ')', '|', '[', ']', '\\']

def escapeRegex (value : String) : String :=
  String.ofList (value.toList.flatMap fun c => if c ∈ escapedCharacters then ['\\', c] else [c])

def maxKeywordRegex : ℕ := 400

/-- What a word takes of the budget, behind other words with a separator. -/
def keywordCost (started : Bool) (word : String) : ℕ :=
  utf16Length (escapeRegex word) + if started then 1 else 0

/-- The first words, as many as the budget has room for, after `length` code units. -/
def fittingWords (started : Bool) (length : ℕ) : List String → List String
  | [] => []
  | word :: rest =>
    if maxKeywordRegex < length + keywordCost started word then []
    else word :: fittingWords true (length + keywordCost started word) rest

def keywordRegex (words : List String) : String :=
  joinText '|' ((fittingWords false 0 words).map escapeRegex)

def keywordBoundaryRegex (words : List String) : String :=
  "(?:^|[^\\w])(" ++ keywordRegex words ++ ")(?:$|[^\\w])"

end Keywords

section Parts

/-- An explicitly empty list of keywords gives way to the keyword of the pattern. -/
def keywordsOr (words : List String) (fallback : String) : List String :=
  if words = [] then [fallback] else words

def regexFilter (value : String) : Value :=
  .obj [("type", .str "regex"), ("value", .str value)]

def action (type : String) (payload : List (String × Value)) : Value :=
  .obj [("type", .str type), ("payload", .obj payload)]

def reply (text : String) : Value :=
  action "reply" [("text", .str text)]

def ifAction (field operator : String) (value : ℚ) (actions : List Value) : Value :=
  .obj [("type", .str "if"),
    ("condition", .obj [("field", .str field), ("operator", .str operator), ("value", .num value)]),
    ("actions", .arr actions)]

def withCooldown (config : GeneratedScriptConfig) (cooldown : ℚ) : GeneratedScriptConfig :=
  if 0 < cooldown then { config with cooldown := some cooldown } else config

end Parts

section Generators

variable (lang : ScriptLanguage) (params : PatternParams)

def welcome : GeneratedScriptConfig :=
  let trigger := str params "trigger" "follow"
  let channel := str params "channel" ""
  let text := capText (str params "message" "")
  if trigger = "follow" ∧ channel ≠ "" then
    { trigger, actions := [action "say" [("channel", .str channel), ("message", .str text)]] }
  else { trigger, actions := [reply text] }

/-- Reply to messages with one of some keywords. -/
def keywordReply (keywordKey fallback textKey : String) (cooldown : ℚ) : GeneratedScriptConfig :=
  let keywords := splitList (str params keywordKey fallback)
  withCooldown
    { trigger := str params "trigger" "message"
      filters := some [regexFilter (keywordBoundaryRegex (keywordsOr keywords fallback))]
      actions := [reply (capText (str params textKey ""))] }
    (num lang params "cooldown" cooldown)

def autoReply : GeneratedScriptConfig :=
  keywordReply lang params "keywords" "hello" "reply" 0

def command : GeneratedScriptConfig where
  trigger := str params "trigger" "message"
  filters := some [regexFilter ("^" ++ escapeRegex (str params "prefix" "/") ++
    escapeRegex (str params "command" "") ++ "\\b")]
  actions := [reply (capText (str params "reply" ""))]

def counter : GeneratedScriptConfig :=
  let name := counterName params "visits"
  { trigger := str params "trigger" "message"
    actions := [action "increment_counter" [("name", .str name)],
      reply (capText (withCounterName name (str params "reply" "")))] }

def moderation : GeneratedScriptConfig :=
  keywordReply lang params "banned" "spam" "warning" 10

def randomResponse : GeneratedScriptConfig :=
  let keywords := splitList (str params "keywords" "!roll")
  let variants := trimmedParts '\n' maxVariants maxTextLength (str params "variants" "")
  { trigger := str params "trigger" "message"
    filters := some [regexFilter ("^(" ++ keywordRegex (keywordsOr keywords "!roll") ++ ")\\b")]
    actions := [action "random_reply" [("variants", .arr (variants.map .str))]] }

def donationThanks : GeneratedScriptConfig where
  trigger := "donation"
  actions := [ifAction "amount" "gt" (num lang params "minAmount" 1)
    [reply (capText (str params "thanks" ""))]]

def linkRegex : String :=
  "(?:https?:\\/\\/|www\\.)\\S+"

def linkGuard : GeneratedScriptConfig :=
  withCooldown
    { trigger := str params "trigger" "message"
      filters := some [regexFilter linkRegex]
      actions := [reply (capText (str params "warning" ""))] }
    (num lang params "cooldown" 30)

def heartbeat : GeneratedScriptConfig :=
  let interval : ℚ := max 10 (min 86400 (roundHalfUp (num lang params "intervalSeconds" 300)))
  let channel := str params "channel" ""
  let message := capText (str params "message" "")
  { trigger := "interval"
    interval := some interval
    cooldown := some interval
    actions :=
      if channel ≠ "" then
        [action "say" [("channel", .str channel), ("message", .str message)]]
      else [action "log" [("level", .str "info"), ("message", .str message)]] }

def raidHostThanks : GeneratedScriptConfig :=
  let text := str params "message" ""
  let minViewers := num lang params "minViewers" 0
  { trigger := str params "trigger" "raid"
    actions := if 0 < minViewers then [ifAction "viewers" "gte" minViewers [reply text]] else [reply text] }

def thresholdAlert : GeneratedScriptConfig :=
  let name := counterName params "visits"
  { trigger := str params "trigger" "message"
    actions := [action "increment_counter" [("name", .str name)],
      ifAction ("counters." ++ name) "gte" (num lang params "threshold" 100)
        [reply (withCounterName name (str params "message" ""))]] }

end Generators

end Patterns

inductive PatternName where
  | welcome
  | autoReply
  | command
  | counter
  | moderation
  | randomResponse
  | donationThanks
  | linkGuard
  | heartbeat
  | raidHostThanks
  | thresholdAlert
  deriving DecidableEq

namespace PatternName

def patterns : List PatternName :=
  [welcome, autoReply, command, counter, moderation, randomResponse, donationThanks, linkGuard,
    heartbeat, raidHostThanks, thresholdAlert]

def id : PatternName → String
  | welcome => "welcome"
  | autoReply => "auto-reply"
  | command => "command"
  | counter => "counter"
  | moderation => "moderation"
  | randomResponse => "random-response"
  | donationThanks => "donation-thanks"
  | linkGuard => "link-guard"
  | heartbeat => "heartbeat"
  | raidHostThanks => "raid-host-thanks"
  | thresholdAlert => "threshold-alert"

def getPattern (id : String) : Option PatternName :=
  patterns.find? fun pattern => pattern.id = id

/-- The parameters that are required. -/
def required : PatternName → List String
  | welcome => ["trigger", "message"]
  | autoReply => ["trigger", "keywords", "reply"]
  | command => ["trigger", "prefix", "command", "reply"]
  | counter => ["trigger", "counterName", "reply"]
  | moderation => ["trigger", "banned", "warning"]
  | randomResponse => ["trigger", "keywords", "variants"]
  | donationThanks => ["minAmount", "thanks"]
  | linkGuard => ["trigger", "warning"]
  | heartbeat => ["intervalSeconds", "message"]
  | raidHostThanks => ["trigger", "message"]
  | thresholdAlert => ["trigger", "counterName", "threshold", "message"]

def generate (lang : ScriptLanguage) (pattern : PatternName) (params : PatternParams) :
    GeneratedScriptConfig :=
  match pattern with
  | welcome => Patterns.welcome params
  | autoReply => Patterns.autoReply lang params
  | command => Patterns.command params
  | counter => Patterns.counter params
  | moderation => Patterns.moderation lang params
  | randomResponse => Patterns.randomResponse params
  | donationThanks => Patterns.donationThanks lang params
  | linkGuard => Patterns.linkGuard lang params
  | heartbeat => Patterns.heartbeat lang params
  | raidHostThanks => Patterns.raidHostThanks lang params
  | thresholdAlert => Patterns.thresholdAlert lang params

end PatternName

section Route

structure Refusal where
  status : ℕ
  code : String
  message : String
  details : List (String × Value) := []

structure GeneratedScript where
  botId : String
  name : String
  trigger : String
  config : GeneratedScriptConfig
  enabled : Value

def invalidInput (field problem : String) : Refusal :=
  ⟨422, "VALIDATION_ERROR", "Invalid input", [(field, .str problem)]⟩

/-- A field of the body that has to be a text. -/
def requiredText (body : List (String × Value)) (field : String) : Except Refusal String :=
  match Value.own body field with
  | .str text => if text = "" then .error (invalidInput field "required") else .ok text
  | _ => .error (invalidInput field "required")

def isMissing (params : PatternParams) (key : String) : Bool :=
  match Value.own params key with
  | .undefined | .null => true
  | .str text => text = ""
  | _ => false

/-- The check of the config of a pattern; none when the check throws. -/
def checkGenerated (lang : ScriptLanguage) (config : GeneratedScriptConfig) :
    Option (Except Refusal Unit) :=
  (validateScriptConfig lang (.obj config.fields)).map fun problems =>
    if problems ≠ [] then
      .error ⟨422, "VALIDATION_ERROR", "Generated config failed safety checks",
        [("config", .arr (problems.map .str))]⟩
    else if config.trigger ∈ Backup.scriptTriggers then .ok ()
    else
      .error ⟨422, "VALIDATION_ERROR", "Generated trigger is not supported",
        [("trigger", .str config.trigger)]⟩

def require (ok : Bool) (refusal : Refusal) : Except Refusal Unit :=
  if ok then .ok () else .error refusal

def patternOf (id : String) : Except Refusal PatternName :=
  match PatternName.getPattern id with
  | some pattern => .ok pattern
  | none => .error ⟨404, "NOT_FOUND", "Pattern \"" ++ id ++ "\" not found", []⟩

def paramsOf (body : List (String × Value)) : PatternParams :=
  match Value.own body "params" with
  | .obj params => params
  | _ => []

/-- The checks of a request from a client who has some bots. -/
def generateRequest (hasBot : String → Bool) (body : List (String × Value)) :
    Except Refusal (String × String × PatternName × PatternParams) := do
  let botId ← requiredText body "botId"
  let name ← requiredText body "name"
  require (utf16Length name ≤ 100) (invalidInput "name" "must be 100 characters or fewer")
  let id ← requiredText body "pattern"
  let pattern ← patternOf id
  require (hasBot botId) ⟨404, "NOT_FOUND", "Bot not found", []⟩
  let params := paramsOf body
  let missing := pattern.required.filter (isMissing params)
  require (missing = []) ⟨422, "VALIDATION_ERROR", "Missing required parameters",
    missing.map fun key => (key, .str "required")⟩
  return (botId, name, pattern, params)

/-- `POST /scripts/generate`; none when the check of the config throws. -/
def generateScript (lang : ScriptLanguage) (hasBot : String → Bool)
    (body : List (String × Value)) : Option (Except Refusal GeneratedScript) :=
  match generateRequest hasBot body with
  | .error refusal => some (.error refusal)
  | .ok (botId, name, pattern, params) =>
    let generated := pattern.generate lang params
    (checkGenerated lang generated).map fun checked => checked.map fun _ =>
      ⟨botId, name, generated.trigger, generated, (Value.own body "enabled").orElse (.bool true)⟩

end Route

end BotHive.Scripts
