import BotHive.Library.Machine
import BotHive.Workers.ScriptRegistry

/-!
# The maps of the script engine

Next to the scripts and their index, the engine keeps the counters of each bot and the moments at
which cooldowns started. All of them are filled by running and by registering scripts, and
`unregister` takes a bot out of them again. Bot ids are without a colon; triggers and script
ids are any text.

## Main definitions

- `EngineState`: the four maps
- `EngineState.step`: the operations, and what a running script does to a counter
- `EngineState.scriptsOf`, `grouping`: the scripts of a bot, and those under one of its triggers
- `EngineState.intervalBots`: the bots that the interval dispatcher asks for
-/

namespace BotHive.Workers

structure EngineState (Step : Type) extends ScriptRegistry Step where
  counters : InsertionMap String (InsertionMap String ℕ)

/-- An operation on the engine. -/
inductive EngineOp (Step : Type) where
  | register (botId : PlainId) (config : ScriptConfig Step)
  | unregister (botId : PlainId)
  | clear
  /-- An event is delivered; its `i`-th script runs at `moments i`. -/
  | execute (botId : PlainId) (event : Event) (moments : ℕ → Moment)
  /-- A running script increments a counter. -/
  | increment (botId : PlainId) (name : String)

variable {Step : Type}

namespace EngineState

def empty : EngineState Step :=
  ⟨.empty, .empty⟩

/-- The counters of a bot are created. -/
def withCounters (s : EngineState Step) (botId : PlainId) : EngineState Step :=
  if s.counters.has botId.1 then s else { s with counters := s.counters.set botId.1 .empty }

def register (s : EngineState Step) (botId : PlainId) (config : ScriptConfig Step) :
    EngineState Step :=
  { s with toScriptRegistry := s.toScriptRegistry.register botId.1 config }.withCounters botId

def unregister (s : EngineState Step) (botId : PlainId) : EngineState Step where
  toScriptRegistry := s.toScriptRegistry.unregister botId.1
  counters := s.counters.delete botId.1

def clear (_ : EngineState Step) : EngineState Step :=
  empty

def increment (s : EngineState Step) (botId : PlainId) (name : String) : EngineState Step :=
  match s.counters.get botId.1 with
  -- a script that outlives its bot counts in a map that the engine has dropped
  | none => s
  | some counters =>
    let current := (counters.get name).getD 0
    { s with counters := s.counters.set botId.1 (counters.set name (current + 1)) }

variable (rt : ScriptRuntime) [CaseMapping]

/-- The delivery of an event up to the first asynchronous action of its scripts. -/
def execute (s : EngineState Step) (botId : PlainId) (event : Event) (moments : ℕ → Moment) :
    EngineState Step :=
  let s := s.withCounters botId
  { s with toScriptEngine := s.toScriptEngine.execute rt botId.1 event moments }

def step : EngineState Step → EngineOp Step → EngineState Step
  | s, .register botId config => s.register botId config
  | s, .unregister botId => s.unregister botId
  | s, .clear => s.clear
  | s, .execute botId event moments => s.execute rt botId event moments
  | s, .increment botId name => s.increment botId name

end EngineState

/-- Whether a script runs periodically. -/
def ScriptConfig.periodic (script : ScriptConfig Step) : Bool :=
  script.interval.any (0 < ·)

namespace EngineState

/-- The bots with a periodic script, as the keys of their scripts begin. -/
def intervalBots (s : EngineState Step) : List String :=
  ((s.scripts.entries.filter fun e => e.2.periodic).map fun e => firstPart e.1).eraseDups

/-- The index entry of a bot and a trigger. -/
def entry (s : EngineState Step) (botId : PlainId) (trigger : String) : List (ScriptConfig Step) :=
  (s.byTrigger.get (triggerKey botId.1 trigger)).getD []

/-- The scripts that a bot has in the scripts map, in its order. -/
def scriptsOf (s : EngineState Step) (botId : PlainId) : List (ScriptConfig Step) :=
  (s.scripts.entries.filter fun e => e.1 = scriptKey botId.1 e.2).map Prod.snd

/-- The scripts of a bot under one of its triggers. -/
def grouping (s : EngineState Step) (botId : PlainId) (trigger : String) :
    List (ScriptConfig Step) :=
  (s.scriptsOf botId).filter fun script => script.trigger = trigger

/-- The index lists every script of the scripts map once, under its own trigger. -/
def Grouped (s : EngineState Step) : Prop :=
  ∀ botId trigger, (s.entry botId trigger).Perm (s.grouping botId trigger)

/-- `intervalBots` returns the bots with a periodic script. -/
def IntervalsFound (s : EngineState Step) : Prop :=
  s.intervalBots.Nodup ∧ ∀ x, x ∈ s.intervalBots ↔
    ∃ botId : PlainId, botId.1 = x ∧ ∃ script ∈ s.scriptsOf botId, script.periodic = true

open ScriptRegistry (ownedBy)

/-- Nothing of a bot is left. -/
structure Gone (botId : PlainId) (s : EngineState Step) : Prop where
  scripts : ∀ key ∈ s.scripts.keys, ownedBy botId.1 key = false
  index : ∀ key ∈ s.byTrigger.keys, ownedBy botId.1 key = false
  counters : s.counters.get botId.1 = none
  cooldowns : ∀ key ∈ s.cooldowns.keys, ownedBy botId.1 key = false

/-- Everything of a bot is as before. -/
structure Untouched (botId : PlainId) (s s' : EngineState Step) : Prop where
  scripts : s'.scriptsOf botId = s.scriptsOf botId
  index : ∀ trigger, s'.entry botId trigger = s.entry botId trigger
  counters : s'.counters.get botId.1 = s.counters.get botId.1
  cooldowns : ∀ key, ownedBy botId.1 key = true → s'.cooldowns.get key = s.cooldowns.get key

/-- An operation leaves the maps in agreement, and one that takes a bot out takes out all of it
    and nothing else. -/
structure Intact (s : EngineState Step) (op : EngineOp Step) (s' : EngineState Step) : Prop where
  grouped : s'.Grouped
  intervals : s'.IntervalsFound
  unregister : ∀ botId, op = .unregister botId →
    Gone botId s' ∧ ∀ other, other ≠ botId → Untouched other s s'

end EngineState

end BotHive.Workers
