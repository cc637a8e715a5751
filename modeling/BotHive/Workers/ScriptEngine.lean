import BotHive.Library.InsertionMap
import BotHive.Library.Text
import BotHive.Library.Value

/-!
# The script engine

Scripts are registered under a bot and a trigger. An event runs the scripts of its
trigger one after the other up to their first asynchronous action: each script
checks its cooldown, then its filters, and then starts its actions.

## Main definitions

- `ScriptConfig`, `ScriptFilter`: a script and its filters
- `matchesFilters`: whether an event passes all filters, or an exception
- `ScriptEngine.runScript`: the synchronous part of one run
- `ScriptEngine.execute`: the delivery of an event

Regular expressions and the expression sandbox are parameters (`ScriptRuntime`,
`Moment.sandbox`).
-/

namespace BotHive.Workers

inductive FilterType where
  | regex
  | keyword
  | role
  | custom
  /-- A type that the engine does not know. -/
  | other
  deriving DecidableEq

structure ScriptFilter where
  type : FilterType
  field : Option String
  value : String
  deriving DecidableEq

structure ScriptConfig (Step : Type) where
  /-- Row id, so that several scripts may share one trigger. -/
  id : Option String
  trigger : String
  filters : List ScriptFilter
  actions : List Step
  /-- Minimum seconds between firings; 0 or absent for no limit. -/
  cooldown : Option ℚ
  /-- Seconds between the periodic runs of a script that has them. -/
  interval : Option ℚ := none

/-- The parts of the language runtime that filters use. -/
structure ScriptRuntime where
  /-- The compiled regular expression, none when it is rejected or malformed. -/
  cachedRegex : String → Option (String → Bool)
  isExpressionAllowed : String → Bool
  /-- The text of a value that is not a string, none when the conversion throws. -/
  stringOf : Value → Option String
  /-- A member that an object does not own. -/
  inherited : Value → String → Value

/-- What a script run reads from its surroundings: the clock in milliseconds and the
    truth value that the sandbox gives to an expression, none when it throws. -/
structure Moment where
  now : ℤ
  sandbox : String → Option Bool

/-- An event is a record of dynamic values. -/
abbrev Event := List (String × Value)

section Filters

variable (rt : ScriptRuntime)

/-- The text of a value, none when the conversion throws. -/
def ScriptRuntime.text : Value → Option String
  | .str s => some s
  | v => rt.stringOf v

def resolvePath (event : Event) (path : String) : Value :=
  (path.splitOn ".").foldl
    (fun acc part =>
      if part = "__proto__" ∨ part = "constructor" ∨ part = "prototype" then .undefined
      else acc.member rt.inherited part)
    (.obj event)

def eventField (event : Event) (name : String) : Value :=
  (Value.obj event).member rt.inherited name

/-- The value that a filter looks at: its field, or a default without a field. -/
def filterTarget (event : Event) (field : Option String) (fallback : Value) : Value :=
  match field with
  | none => fallback
  | some path =>
    if path = "" then fallback else (resolvePath rt event path).orElse (.str "")

variable [CaseMapping]

/-- Whether an event passes a filter; none when the filter throws. -/
def matchesFilter (event : Event) (moment : Moment) (filter : ScriptFilter) : Option Bool :=
  let text := ((eventField rt event "text").orElse (eventField rt event "message")).orElse (.str "")
  match filter.type with
  | .role =>
    let role := (eventField rt event "role").orElse (.str "")
    let target := filterTarget rt event filter.field role
    (rt.text target).map fun text => toLowerCase text == toLowerCase filter.value
  | .regex =>
    let target := filterTarget rt event filter.field text
    if 500 < utf16Length filter.value then some false
    else
      match rt.cachedRegex filter.value with
      | none => some false
      | some compiled => (rt.text target).map compiled
  | .keyword =>
    match filterTarget rt event filter.field text with
    | .str target => some (includes (toLowerCase target) (toLowerCase filter.value))
    | _ => none
  | .custom =>
    if rt.isExpressionAllowed filter.value then some ((moment.sandbox filter.value).getD false)
    else some false
  | .other => some true

/-- Whether an event passes every filter, tried in order; none when one throws first. -/
def matchesFilters (event : Event) (moment : Moment) : List ScriptFilter → Option Bool
  | [] => some true
  | filter :: rest =>
    match matchesFilter rt event moment filter with
    | none => none
    | some false => some false
    | some true => matchesFilters event moment rest

end Filters

/-- How the synchronous part of a script run ends. -/
inductive RunOutcome (Step : Type) where
  /-- Within the cooldown: nothing happens. -/
  | cooling
  /-- A filter did not match. -/
  | filtered
  /-- A filter threw an exception. -/
  | failed
  /-- The actions run. -/
  | ran (actions : List Step)
  deriving DecidableEq

structure ScriptEngine (Step : Type) where
  byTrigger : InsertionMap String (List (ScriptConfig Step))
  cooldowns : InsertionMap String ℤ

section Engine

variable {Step : Type}

def scriptKey (botId : String) (script : ScriptConfig Step) : String :=
  match script.id with
  | none => botId ++ ":" ++ script.trigger
  | some id =>
    if id = "" then botId ++ ":" ++ script.trigger
    else botId ++ ":" ++ script.trigger ++ ":" ++ id

def triggerKey (botId trigger : String) : String :=
  botId ++ ":" ++ trigger

/-- The cooldown of a script in milliseconds, if it has one. -/
def ScriptConfig.cooldownMs (script : ScriptConfig Step) : Option ℚ :=
  match script.cooldown with
  | none => none
  | some c => if 0 < c then some (c * 1000) else none

namespace ScriptEngine

variable (rt : ScriptRuntime) [CaseMapping]

/-- The last time the cooldown of a key started, the epoch when it never did. -/
def lastStamp (engine : ScriptEngine Step) (key : String) : ℤ :=
  (engine.cooldowns.get key).getD 0

/-- The rest of a run once the cooldown has been passed. -/
def runFiltered (script : ScriptConfig Step) (event : Event) (moment : Moment) :
    RunOutcome Step :=
  match matchesFilters rt event moment script.filters with
  | none => .failed
  | some false => .filtered
  | some true => .ran script.actions

def runScript (engine : ScriptEngine Step) (script : ScriptConfig Step) (botId : String)
    (event : Event) (moment : Moment) : RunOutcome Step × ScriptEngine Step :=
  let key := scriptKey botId script
  match script.cooldownMs with
  | none => (runFiltered rt script event moment, engine)
  | some ms =>
    if ((moment.now - engine.lastStamp key : ℤ) : ℚ) < ms then (.cooling, engine)
    else
      -- the stamp is set before the filters are evaluated
      (runFiltered rt script event moment,
        { engine with cooldowns := engine.cooldowns.set key moment.now })

/-- The scripts that an event of a type concerns. -/
def matching (engine : ScriptEngine Step) (botId eventType : String) :
    List (ScriptConfig Step) :=
  (engine.byTrigger.get (triggerKey botId eventType)).getD []

/-- The scripts that an event concerns, numbered; none when its type has no text. -/
def concerned (engine : ScriptEngine Step) (botId : String) (event : Event) :
    List (ScriptConfig Step × ℕ) :=
  match rt.text (eventField rt event "type") with
  | none => []
  | some eventType => (engine.matching botId eventType).zipIdx

/-- Deliver an event: every script of its trigger runs, the `i`-th one at `moments i`. -/
def execute (engine : ScriptEngine Step) (botId : String) (event : Event)
    (moments : ℕ → Moment) : ScriptEngine Step :=
  (engine.concerned rt botId event).foldl
    (fun engine e => (engine.runScript rt e.1 botId event (moments e.2)).2) engine

@[simp] theorem byTrigger_runScript (engine : ScriptEngine Step) (script : ScriptConfig Step)
    (botId : String) (event : Event) (moment : Moment) :
    (engine.runScript rt script botId event moment).2.byTrigger = engine.byTrigger := by
  rw [runScript]
  cases script.cooldownMs with
  | none => rfl
  | some ms =>
    dsimp only
    split_ifs <;> rfl

/-- A script within its cooldown does nothing. -/
theorem runScript_of_cooling {engine : ScriptEngine Step} {script : ScriptConfig Step} {ms : ℚ}
    (hms : script.cooldownMs = some ms) {botId : String} {event : Event} {moment : Moment}
    (h : ((moment.now - engine.lastStamp (scriptKey botId script) : ℤ) : ℚ) < ms) :
    engine.runScript rt script botId event moment = (.cooling, engine) := by
  rw [runScript, hms]
  exact if_pos h

/-- A script outside its cooldown is stamped, whether or not its filters match. -/
theorem runScript_of_rested {engine : ScriptEngine Step} {script : ScriptConfig Step} {ms : ℚ}
    (hms : script.cooldownMs = some ms) {botId : String} {event : Event} {moment : Moment}
    (h : ¬ ((moment.now - engine.lastStamp (scriptKey botId script) : ℤ) : ℚ) < ms) :
    engine.runScript rt script botId event moment =
      (runFiltered rt script event moment,
        { engine with
          cooldowns := engine.cooldowns.set (scriptKey botId script) moment.now }) := by
  rw [runScript, hms]
  exact if_neg h

theorem runScript_of_no_cooldown {engine : ScriptEngine Step} {script : ScriptConfig Step}
    (hms : script.cooldownMs = none) {botId : String} {event : Event} {moment : Moment} :
    engine.runScript rt script botId event moment =
      (runFiltered rt script event moment, engine) := by
  rw [runScript, hms]

end ScriptEngine

end Engine

end BotHive.Workers
