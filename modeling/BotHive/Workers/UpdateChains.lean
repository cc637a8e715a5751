import Mathlib.Data.List.Basic
import BotHive.Library.Machine
import BotHive.Library.Promises

/-!
# The update chains of the Telegram worker

A webhook update is processed when the promise of the bot's last update is settled. The promises of
the worker are named after the call of `handleUpdate` that makes them. When the promise of the bot's
own `handleUpdate` is settled, and how, is up to the run; so are new calls, connections and which
of the reactions that are ready runs next.

## Main definitions

- `ChainState.handleUpdate`, `ChainState.processUpdate`
- `ChainState.step`: calls, reactions, settled updates and connections in any order
- `InTurn`: the updates of a bot are processed one after the other
- `SameBot`: two states that are the same for a bot
-/

namespace BotHive.Workers

/-- The promises that a call makes. -/
inductive PromiseRole
  /-- `Promise.resolve()`, for the first call of a bot. -/
  | first
  /-- `previous.catch(() => undefined)` -/
  | caught
  /-- What the call returns. -/
  | next
  /-- What `processUpdate` returns. -/
  | processing
  /-- What the `handleUpdate` of the bot returns. -/
  | handling
  deriving DecidableEq

structure PromiseName where
  botId : String
  call : ℕ
  role : PromiseRole
  deriving DecidableEq

/-- What the callback of a call has captured. -/
structure UpdateCall (U : Type*) where
  botId : String
  call : ℕ
  update : U
  deriving DecidableEq

inductive UpdateEvent (U : Type*)
  | started (call : ℕ) (update : U)
  | ended (call : ℕ) (outcome : Settlement String)
  deriving DecidableEq

structure ChainState (U : Type*) where
  /-- The bots that are connected. -/
  instances : String → Bool
  updateChains : String → Option PromiseName
  promises : Promises PromiseName (UpdateCall U) String
  /-- The updates of all calls so far. -/
  calls : String → List U
  /-- What has been done with the updates. -/
  log : List (String × UpdateEvent U)

variable {U : Type*}

namespace ChainState

/-- No call has been made. -/
def start : ChainState U where
  instances _ := false
  updateChains _ := none
  promises _ := none
  calls _ := []
  log := []

def setPromises (s : ChainState U) (promises : Promises PromiseName (UpdateCall U) String) :
    ChainState U :=
  { s with promises }

/-- The promise that the next call of a bot has to wait for. -/
def previous (s : ChainState U) (botId : String) :
    Promises PromiseName (UpdateCall U) String × PromiseName :=
  match s.updateChains botId with
  | some name => (s.promises, name)
  | none =>
    let first := ⟨botId, (s.calls botId).length, .first⟩
    (s.promises.make first (some .fulfilled), first)

def handleUpdate (s : ChainState U) (botId : String) (update : U) : ChainState U :=
  let call := (s.calls botId).length
  let caught := ⟨botId, call, .caught⟩
  let next := ⟨botId, call, .next⟩
  let (promises, previous) := s.previous botId
  { s with
    promises := (promises.catchAll previous caught).andThen caught ⟨botId, call, update⟩ next
    updateChains := Function.update s.updateChains botId (some next)
    calls := Function.update s.calls botId (s.calls botId ++ [update]) }

def notConnected (botId : String) : Settlement String :=
  .rejected s!"Bot {botId} not connected"

def processUpdate (s : ChainState U) (c : UpdateCall U) : ChainState U :=
  let processing := ⟨c.botId, c.call, .processing⟩
  let handling := ⟨c.botId, c.call, .handling⟩
  let log := s.log ++ [(c.botId, .started c.call c.update)]
  if s.instances c.botId then
    { s with
      promises := ((s.promises.make processing none).make handling none).follow handling processing
      log }
  else
    { s with
      promises := s.promises.make processing (some (notConnected c.botId))
      log := log ++ [(c.botId, .ended c.call (notConnected c.botId))] }

/-- Run the reaction of a settled promise. -/
def react (s : ChainState U) (reaction : Reaction PromiseName (UpdateCall U))
    (settlement : Settlement String) : ChainState U :=
  match reaction, settlement with
  | .recover target, _ => s.setPromises (s.promises.settle target .fulfilled)
  | .adopt target, o => s.setPromises (s.promises.settle target o)
  | .andThen _ target, .rejected error => s.setPromises (s.promises.settle target (.rejected error))
  | .andThen c target, .fulfilled =>
    let s := s.processUpdate c
    s.setPromises (s.promises.follow ⟨c.botId, c.call, .processing⟩ target)

inductive Action (U : Type*)
  | connect (botId : String)
  | disconnect (botId : String)
  | handleUpdate (botId : String) (update : U)
  /-- The next reaction of a promise of a call runs. -/
  | react (botId : String) (call : ℕ) (role : PromiseRole)
  /-- The promise of the bot's `handleUpdate` is settled. -/
  | handled (botId : String) (call : ℕ) (outcome : Settlement String)

def Action.botId : Action U → String
  | .connect botId => botId
  | .disconnect botId => botId
  | .handleUpdate botId _ => botId
  | .react botId _ _ => botId
  | .handled botId _ _ => botId

/-- The actions that move the updates of a bot on: no calls and no connections. -/
def Action.Moves (botId : String) : Action U → Prop
  | .react bot _ _ => bot = botId
  | .handled bot _ _ => bot = botId
  | _ => False

def step (s : ChainState U) : Action U → Option (ChainState U)
  | .connect botId => some { s with instances := Function.update s.instances botId true }
  | .disconnect botId => some { s with instances := Function.update s.instances botId false }
  | .handleUpdate botId update => some (s.handleUpdate botId update)
  | .react botId call role => do
    let name : PromiseName := ⟨botId, call, role⟩
    let (reaction, settlement) ← s.promises.ready? name
    return (s.setPromises (s.promises.dequeue name)).react reaction settlement
  | .handled botId call outcome =>
    let name : PromiseName := ⟨botId, call, .handling⟩
    match s.promises name with
    | some ⟨none, _⟩ => some { s with
        promises := s.promises.settle name outcome
        log := s.log ++ [(botId, .ended call outcome)] }
    | _ => none

/-- What has been done with the updates of a bot. -/
def logOf (s : ChainState U) (botId : String) : List (UpdateEvent U) :=
  (s.log.filter (·.1 = botId)).map Prod.snd

/-- How the promise that a call returned is settled. -/
def returned (s : ChainState U) (botId : String) (call : ℕ) : Option (Settlement String) :=
  (s.promises ⟨botId, call, .next⟩).bind (·.settlement)

end ChainState

/-- How far an update is. -/
inductive Progress
  | waiting
  | running
  | ended (outcome : Settlement String)
  deriving DecidableEq

/-- What has been done with an update. -/
def Progress.events (call : ℕ) (update : U) : Progress → List (UpdateEvent U)
  | .waiting => []
  | .running => [.started call update]
  | .ended outcome => [.started call update, .ended call outcome]

/-- The updates of a bot are processed one after the other in the order of their calls; each promise
    is settled as its own update ended, and an update waits for updates of its own bot only. -/
structure InTurn (s : ChainState U) (botId : String) (progress : ℕ → Progress) : Prop where
  log : s.logOf botId =
    (s.calls botId).zipIdx.flatMap fun c => (progress c.2).events c.2 c.1
  turn : ∀ call, progress (call + 1) ≠ .waiting → ∃ outcome, progress call = .ended outcome
  own : ∀ call outcome, s.returned botId call = some outcome → progress call = .ended outcome
  moves : ∀ call < (s.calls botId).length, s.returned botId call = none →
    (∃ earlier ≤ call, progress earlier = .running) ∨
      ∃ earlier ≤ call, ∃ role, (s.promises.ready? ⟨botId, earlier, role⟩).isSome

/-- The promises of a bot. -/
def promisesOf (botId : String) : Set PromiseName :=
  {name | name.botId = botId}

structure SameBot (botId : String) (s t : ChainState U) : Prop where
  instances : s.instances botId = t.instances botId
  updateChains : s.updateChains botId = t.updateChains botId
  promises : Set.EqOn s.promises t.promises (promisesOf botId)
  calls : s.calls botId = t.calls botId
  log : s.logOf botId = t.logOf botId

end BotHive.Workers
