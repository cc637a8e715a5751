import BotHive.Library.Machine
import BotHive.Workers.EngineState

/-!
# The dispatcher of periodic scripts

The process that leads looks up, at every tick, the bots that have a periodic script, and
publishes an event for each of them that is connected. When the event arrives, it runs every
script of the bot that has the trigger of such events, like any other event.

Events may arrive late, in any order or never, and the scripts of an event start one after
another. The counters of a bot take no part in this.

## Main definitions

- `Tick.dispatched`: the bots that one tick publishes an event for
- `IntervalRun.step`: ticks, arrivals of events, and script runs, in any order
-/

namespace BotHive.Workers

variable {Step : Type}

/-- What the dispatcher finds at one tick: whether a worker of the process leads, the rows of the
    bots with their platforms, and the workers with the bots that they have connected. -/
structure Tick where
  leader : Bool
  bots : List (String × String)
  isConnected : String → Option (String → Bool)
  timestamp : Value
  /-- What the pipeline adds to the event of a bot. -/
  stamps : String → Event

/-- The ids of the rows, by platform. -/
def byPlatform (found : List (String × String)) : InsertionMap String (List String) :=
  found.foldl (fun m row => m.set row.2 ((m.get row.2).getD [] ++ [row.1])) .empty

/-- The bots that the tick publishes an event for, after their platforms. -/
def Tick.dispatched (tick : Tick) (engine : EngineState Step) : List (String × String) :=
  if tick.leader then
    let bots := engine.intervalBots
    let found := tick.bots.filter fun row => row.1 ∈ bots
    (byPlatform found).entries.flatMap fun (platform, ids) =>
      match tick.isConnected platform with
      | none => []
      | some isConnected => (ids.filter isConnected).map fun id => (platform, id)
  else []

/-- The event as it arrives, with its empty payload spread into it. -/
def Tick.event (tick : Tick) (platform botId : String) : Event :=
  [("botId", .str botId), ("platform", .str platform), ("type", .str "interval"),
    ("payload", .obj []), ("timestamp", tick.timestamp)] ++ tick.stamps botId

/-- The engine, the events on their way, the scripts about to run, and when the actions of
    each script have started, by bot and key and the newest first. -/
structure IntervalRun (Step : Type) where
  engine : EngineState Step
  /-- in milliseconds -/
  now : ℤ
  events : List (String × Event)
  due : List (String × ScriptConfig Step × Event)
  runs : String × String → List ℚ

inductive IntervalAction where
  | wait (ms : ℕ)
  | tick (t : Tick)
  /-- The `k`-th event arrives. -/
  | deliver (k : ℕ)
  /-- The `k`-th script runs up to its first asynchronous action. -/
  | run (k : ℕ) (sandbox : String → Option Bool)

namespace IntervalRun

def start (engine : EngineState Step) (now : ℤ) : IntervalRun Step :=
  ⟨engine, now, [], [], fun _ => []⟩

/-- The engine with some scripts registered. -/
def registered (scripts : List (PlainId × ScriptConfig Step)) : EngineState Step :=
  scripts.foldl (fun engine e => engine.register e.1 e.2) .empty

/-- Note when the actions of a script have started. -/
def noteStart (runs : String × String → List ℚ) (script : String × String) (now : ℤ) :
    RunOutcome Step → String × String → List ℚ
  | .ran _ => Function.update runs script (now :: runs script)
  | _ => runs

variable (rt : ScriptRuntime) [CaseMapping]

def step (s : IntervalRun Step) : IntervalAction → Option (IntervalRun Step)
  | .wait ms => some { s with now := s.now + ms }
  | .tick t =>
    some { s with
      events := s.events ++
        (t.dispatched s.engine).map fun (platform, botId) => (botId, t.event platform botId) }
  | .deliver k =>
    s.events[k]?.map fun (botId, event) =>
      { s with
        events := s.events.eraseIdx k
        due := s.due ++
          (s.engine.concerned rt botId event).map fun e => (botId, e.1, event) }
  | .run k sandbox =>
    s.due[k]?.map fun (botId, script, event) =>
      let (outcome, engine) := s.engine.runScript rt script botId event ⟨s.now, sandbox⟩
      { s with
        engine := { s.engine with toScriptEngine := engine }
        due := s.due.eraseIdx k
        runs := noteStart s.runs (botId, scriptKey botId script) s.now outcome }

end IntervalRun

end BotHive.Workers
