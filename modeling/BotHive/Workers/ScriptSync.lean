import BotHive.Library.Machine
import BotHive.Workers.ScriptRegistry

/-!
# Script reloads

The registry follows the script table. A change of the table is announced with the bot that it
concerns, and the announcement starts a reload of that bot: the scripts of the bot are dropped, its
rows are read, and what was read is registered. A reload may name several bots, which are taken one
after the other; a reload that names none reads the whole table, clears the registry and
registers what was read. At every query other reloads and changes take their turn.

## Main definitions

- `ScriptRow`: a row of the script table
- `Reload`: a call of `loadScripts` between two of its turns
- `SyncState.step`: a change, an announcement, a call, or one turn of a call
- `SyncState.Converged`: the registry holds exactly the enabled scripts
-/

namespace BotHive.Workers

structure ScriptRow (Step : Type) where
  botId : PlainId
  trigger : String
  enabled : Bool
  filters : List ScriptFilter
  actions : List Step
  cooldown : Option ℚ
  interval : Option ℚ
  /-- Triggers come from a fixed list. -/
  trigger_plain : Plain trigger
  deriving DecidableEq

/-- The scripts by their row ids. -/
abbrev ScriptTable (Step : Type) := InsertionMap String (ScriptRow Step)

/-- The rows that a query asks for: all of them, or those of a bot while the `rest` of the bots of
    the reload wait. -/
inductive Scope where
  | all
  | bot (botId : PlainId) (rest : List PlainId)
  deriving DecidableEq

/-- A call of `loadScripts`. -/
inductive Reload (Step : Type) where
  /-- The query is under way. -/
  | querying (scope : Scope)
  /-- The query has read `rows`. -/
  | answered (scope : Scope) (rows : List (String × ScriptRow Step))
  | finished

structure SyncState (Step : Type) where
  table : ScriptTable Step
  registry : ScriptRegistry Step
  /-- The bots of the changes whose reloads have not started. -/
  announced : List PlainId
  reloads : List (Reload Step)

inductive SyncAction (Step : Type) where
  /-- A script is created or edited, enabled or disabled. -/
  | write (id : String) (row : ScriptRow Step)
  | remove (id : String)
  /-- The announcement of a change arrives. -/
  | notify (botId : PlainId)
  /-- `loadScripts` is called for some bots, or for all when there are none. -/
  | load (botIds : List PlainId)
  /-- The database answers the query of a reload. -/
  | answer (i : ℕ)
  /-- A reload goes on with the answer. -/
  | resume (i : ℕ)

variable {Step : Type}

namespace ScriptRow

/-- What a row is registered as. -/
def config (id : String) (row : ScriptRow Step) : ScriptConfig Step where
  id := some id
  trigger := row.trigger
  filters := row.filters
  actions := row.actions
  cooldown := row.cooldown
  interval := row.interval

end ScriptRow

def registration (e : String × ScriptRow Step) : Registration Step where
  botId := e.2.botId.1
  script := e.2.config e.1
  botId_plain := e.2.botId.2
  trigger_plain := e.2.trigger_plain

def registerScript (registry : ScriptRegistry Step) (e : String × ScriptRow Step) :
    ScriptRegistry Step :=
  registry.register e.2.botId.1 (e.2.config e.1)

namespace Scope

def covers (e : String × ScriptRow Step) : Scope → Bool
  | .all => true
  | .bot botId _ => e.2.botId = botId

def rest : Scope → List PlainId
  | .all => []
  | .bot _ rest => rest

/-- The rows of the enabled scripts that a query asks for. -/
def findMany (table : ScriptTable Step) (scope : Scope) : List (String × ScriptRow Step) :=
  table.entries.filter fun e => e.2.enabled && scope.covers e

end Scope

/-- All enabled scripts. -/
abbrev enabledScripts (table : ScriptTable Step) : List (String × ScriptRow Step) :=
  Scope.all.findMany table

/-- Turn to the next bot of a reload. -/
def nextBot (registry : ScriptRegistry Step) : List PlainId → ScriptRegistry Step × Reload Step
  | [] => (registry, .finished)
  | botId :: rest => (registry.unregister botId.1, .querying (.bot botId rest))

/-- A call of `loadScripts` up to its first query. -/
def loadScripts (registry : ScriptRegistry Step) :
    List PlainId → ScriptRegistry Step × Reload Step
  | [] => (registry, .querying .all)
  | botIds => nextBot registry botIds

/-- A reload from the answer of a query up to the next query. -/
def registerRows (registry : ScriptRegistry Step) (rows : List (String × ScriptRow Step)) :
    Scope → ScriptRegistry Step × Reload Step
  | .all => (rows.foldl registerScript registry.clear, .finished)
  | .bot _ rest => nextBot (rows.foldl registerScript registry) rest

def Reload.isFinished : Reload Step → Bool
  | .finished => true
  | _ => false

namespace SyncState

/-- The calls of `loadScripts` have all returned, and no change is pending. -/
def Settled (s : SyncState Step) : Prop :=
  s.announced = [] ∧ ∀ r ∈ s.reloads, r.isFinished = true

instance (s : SyncState Step) : Decidable s.Settled :=
  inferInstanceAs (Decidable (_ ∧ _))

/-- The registry is exactly the enabled scripts of the table. -/
def Converged (s : SyncState Step) : Prop :=
  Indexed s.registry ((enabledScripts s.table).map registration)

/-- A reload starts. -/
def start (s : SyncState Step) (botIds : List PlainId) : SyncState Step :=
  let begun := loadScripts s.registry botIds
  { s with
    registry := begun.1
    reloads := s.reloads ++ [begun.2] }

def step (s : SyncState Step) : SyncAction Step → Option (SyncState Step)
  | .write id row =>
    -- an edit leaves a script with its bot
    if ∀ old ∈ s.table.get id, old.botId = row.botId then
      some { s with table := s.table.set id row, announced := s.announced ++ [row.botId] }
    else none
  | .remove id =>
    (s.table.get id).map fun row =>
      { s with table := s.table.delete id, announced := s.announced ++ [row.botId] }
  | .notify botId =>
    if botId ∈ s.announced then
      some ({ s with announced := s.announced.erase botId }.start [botId])
    else none
  | .load botIds => some (s.start botIds)
  | .answer i =>
    match s.reloads[i]? with
    | some (.querying scope) =>
      some { s with reloads := s.reloads.set i (.answered scope (scope.findMany s.table)) }
    | _ => none
  | .resume i =>
    match s.reloads[i]? with
    | some (.answered scope rows) =>
      let next := registerRows s.registry rows scope
      some { s with registry := next.1, reloads := s.reloads.set i next.2 }
    | _ => none

end SyncState

end BotHive.Workers
