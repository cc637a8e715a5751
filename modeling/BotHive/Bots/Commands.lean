import BotHive.Bots.Routes

/-!
# Commands to bots and scripts

The routes that start, stop, restart, update and delete a bot or hand it an action, for the
owner who calls, and the bulk routes over bots and scripts. The database and the queues are
reached through a few operations only; the single-bot routes look a bot up by id and owner
first, the bulk routes by id alone.

## Main definitions

- `World`: tables and queues, the rows that queries returned, and the effects elsewhere
- `BotCommand.run`: the routes
- `step`: a request of a user, answered
-/

namespace BotHive.Bots

open Backup (ScriptRow)
open Credentials

/-- The id of a job; its text names the kind and the bot. -/
inductive JobId where
  | connect (botId : String)
  | disconnect (botId : String)
  | execute (botId nonce : String)
  | other (botId text : String)
  deriving DecidableEq

def JobId.botId : JobId → String
  | connect botId | disconnect botId | execute botId _ | other botId _ => botId

/-- A job of the queue of a platform. -/
structure Job where
  queue : String
  id : JobId
  data : Value
  delay : ℕ
  attempts : ℕ

structure Store extends Tables where
  jobs : List Job

/-- A row of the tables that belong to tenants. -/
inductive RowId where
  | bot (id : String)
  | script (id : String)
  deriving DecidableEq

/-- The store, the rows that queries have returned so far, the bots whose runtime state was
    cleared, the notices about scripts, and the replies. -/
structure World where
  store : Store
  reads : List RowId
  cleared : List String
  notices : List (List String)
  replies : List Reply

abbrev Api := StateM World

-- ════════════════════════════════════════════════════════════════════════
-- What the routes reach
-- ════════════════════════════════════════════════════════════════════════

def Store.modifyBot (s : Store) (id : String) (f : Bot → Bot) : Store :=
  { s with bots := s.bots.map fun b => if b.id = id then f b else b }

/-- The transaction that deletes a bot with its logs and scripts. -/
def Store.removeBot (s : Store) (id : String) : Store :=
  { s with
    logs := s.logs.filter fun l => l.botId ≠ id
    scripts := s.scripts.filter fun r => r.botId ≠ id
    bots := s.bots.filter fun b => b.id ≠ id }

def Store.findScript (s : Store) (id : String) : Option ScriptRow :=
  s.scripts.find? fun r => r.id = id

def Store.enableScript (s : Store) (id : String) (enabled : Bool) : Store :=
  { s with scripts := s.scripts.map fun r => if r.id = id then { r with enabled } else r }

def Store.removeScript (s : Store) (id : String) : Store :=
  { s with scripts := s.scripts.filter fun r => r.id ≠ id }

/-- A job whose id a queue still has is not added. -/
def Store.addJob (s : Store) (job : Job) : Store :=
  if s.jobs.any fun j => j.queue = job.queue && j.id = job.id then s
  else { s with jobs := s.jobs ++ [job] }

section Operations

/-- A query for one row. -/
def query {ρ : Type} (find : Store → Option ρ) (row : ρ → RowId) : Api (Option ρ) := fun w =>
  match find w.store with
  | none => (none, w)
  | some x => (some x, { w with reads := w.reads ++ [row x] })

def findOwnBot (ownerId id : String) : Api (Option Bot) :=
  query (fun s => s.findOwnBot ownerId id) fun b => .bot b.id

def findBot (id : String) : Api (Option Bot) :=
  query (fun s => s.findBot id) fun b => .bot b.id

def findScript (id : String) : Api (Option ScriptRow) :=
  query (fun s => s.findScript id) fun r => .script r.id

def write (f : Store → Store) : Api Unit := fun w =>
  ((), { w with store := f w.store })

/-- `bot.update({ data: { status } })` -/
def setStatus (id status : String) : Api Unit :=
  write fun s => s.modifyBot id fun b => { b with status }

/-- `queue.add`, which fails when the queues are out of reach. -/
def add (reachable : Bool) (job : Job) : Api Bool := fun w =>
  if reachable then (true, { w with store := w.store.addJob job }) else (false, w)

def deleteBotRuntimeState (id : String) : Api Unit := fun w =>
  ((), { w with cleared := w.cleared ++ [id] })

def notifyScriptsChanged (botIds : List String) : Api Unit := fun w =>
  ((), { w with notices := w.notices ++ [botIds] })

end Operations

def connectJob (b : Bot) (delay : ℕ) : Job where
  queue := b.platform
  id := .connect b.id
  data := .obj []
  delay
  attempts := 1

def disconnectJob (b : Bot) : Job where
  queue := b.platform
  id := .disconnect b.id
  data := .obj []
  delay := 0
  attempts := 3

def actionJob (b : Bot) (nonce type : String) (payload : Value) : Job where
  queue := b.platform
  id := .execute b.id nonce
  data := .obj [("type", .str type), ("payload", payload)]
  delay := 0
  attempts := 1

-- ════════════════════════════════════════════════════════════════════════
-- The routes
-- ════════════════════════════════════════════════════════════════════════

inductive BotCommand where
  | start (id : String)
  | stop (id : String)
  | restart (id : String)
  | update (id : String) (body : Option UpdateBody)
  | delete (id : String)
  | action (id : String) (type payload : Value)
  /-- `POST /bulk/bots`; the ids are missing when they are no list. -/
  | bulkBots (ids : Option (List String)) (action : String)
  /-- `POST /bulk/scripts` -/
  | bulkScripts (ids : Option (List String)) (action : String)

/-- A request: whether the caller is an admin, whether the queues can be reached, and what
    the routes use of the process. -/
structure Request where
  admin : Bool
  reachable : Bool
  nonce : String
  env : BotEnv
  command : BotCommand

section Single

variable (r : Request) (ownerId : String)

def startBot (id : String) : Api Reply := do
  match ← findOwnBot ownerId id with
  | none => return sendNotFound
  | some b =>
    setStatus b.id "connecting"
    if ← add r.reachable (connectJob b 0) then return .message "Bot start queued"
    else return internalError

def stopBot (id : String) : Api Reply := do
  match ← findOwnBot ownerId id with
  | none => return sendNotFound
  | some b =>
    setStatus b.id "idle"
    if ← add r.reachable (disconnectJob b) then return .message "Bot stop queued"
    else return internalError

/-- `RestartBotHandler` -/
def restartHandler (id : String) : Api Reply := do
  match ← findBot id with
  | none => return .error 404 "NOT_FOUND" ("Bot " ++ id ++ " not found")
  | some b =>
    setStatus id "reconnecting"
    if ← add r.reachable (connectJob b 1000) then return .message "Bot restart queued"
    else
      setStatus id "idle"
      return .error 500 "INTERNAL_ERROR" "Failed to enqueue restart: queue unreachable"

def restartBot (id : String) : Api Reply := do
  match ← findOwnBot ownerId id with
  | none => return sendNotFound
  | some b => restartHandler r b.id

/-- `UpdateBotHandler`, over the store. -/
def updateStored (id : String) (body : UpdateBody) : Api Reply := do
  match ← findBot id with
  | none => return .error 404 "NOT_FOUND" ("Bot " ++ id ++ " not found")
  | some b =>
    match updatedBot r.env body b with
    | .error message =>
      return .error 500 "INTERNAL_ERROR" ("Failed to update bot: Error: " ++ message)
    | .ok b' =>
      write fun s => s.modifyBot id fun b => { b with name := b'.name, config := b'.config }
      return .bot b'

def patchBot (id : String) : Option UpdateBody → Api Reply
  | none => return invalidInput
  | some body => do
    match ← findOwnBot ownerId id with
    | none => return sendNotFound
    | some b => updateStored r b.id body

def deleteBot (id : String) : Api Reply := do
  match ← findOwnBot ownerId id with
  | none => return sendNotFound
  | some b =>
    write fun s => s.removeBot b.id
    if ← add r.reachable (disconnectJob b) then
      deleteBotRuntimeState b.id
      notifyScriptsChanged [b.id]
      return .success
    else return internalError

/-- `ExecuteBotActionHandler` -/
def actionHandler (id type : String) (payload : Value) : Api Reply := do
  match ← findBot id with
  | none => return .error 404 "NOT_FOUND" ("Bot " ++ id ++ " not found")
  | some b =>
    if ← add r.reachable (actionJob b r.nonce type payload) then return .message "Action queued"
    else return .error 500 "INTERNAL_ERROR" "Failed to execute action"

def actionBot (id : String) (type payload : Value) : Api Reply := do
  match ← findOwnBot ownerId id with
  | none => return sendNotFound
  | some b =>
    match type, payload with
    | .str type, .undefined =>
      if type = "" then return invalidInput else actionHandler r b.id type (.obj [])
    | .str type, .obj fields =>
      if type = "" then return invalidInput else actionHandler r b.id type (.obj fields)
    | _, _ => return invalidInput

end Single

section Bulk

variable (r : Request)

/-- One line of the results of a bulk route. -/
abbrev BulkResult := String × String × Option String

def bulkError (id : String) : BulkResult :=
  (id, "error", some "operation failed")

/-- A bulk action on a bot that was found; the result, and the bot when its scripts have
    changed. -/
def bulkBotFound (action id : String) (b : Bot) : Api (BulkResult × Option String) := do
  if action = "start" then
    setStatus id "connecting"
    if ← add r.reachable (connectJob b 0) then return ((id, "queued", none), none)
    else return (bulkError id, none)
  else if action = "stop" then
    setStatus id "idle"
    if ← add r.reachable (disconnectJob b) then return ((id, "queued", none), none)
    else return (bulkError id, none)
  else if action = "restart" then
    setStatus id "reconnecting"
    if ← add r.reachable (connectJob b 1000) then return ((id, "queued", none), none)
    else return (bulkError id, none)
  else
    write fun s => s.removeBot id
    -- nobody waits for the job and for the runtime state to go
    discard (add r.reachable (disconnectJob b))
    deleteBotRuntimeState id
    return ((id, "deleted", none), some id)

def bulkBot (action id : String) : Api (BulkResult × Option String) := do
  match ← findBot id with
  | none => return ((id, "error", some "not found"), none)
  | some b => bulkBotFound r action id b

def bulkScriptFound (action id : String) (row : ScriptRow) :
    Api (BulkResult × Option String) := do
  if action = "delete" then
    write fun s => s.removeScript id
    return ((id, "deleted", none), some row.botId)
  else
    write fun s => s.enableScript id (action = "enable")
    return ((id, "updated", none), some row.botId)

def bulkScript (action id : String) : Api (BulkResult × Option String) := do
  match ← findScript id with
  | none => return ((id, "error", some "not found"), none)
  | some row => bulkScriptFound action id row

/-- The answers of the bulk routes to requests that they refuse. -/
def bulkRefusal (noun actionText : String) (actions : List String) (ids : Option (List String))
    (action : String) : Option Reply :=
  match ids with
  | none | some [] => some (.error 400 "BAD_REQUEST" "ids must be a non-empty array")
  | some ids =>
    if 100 < ids.length then
      some (.error 400 "BAD_REQUEST" ("Maximum 100 " ++ noun ++ " per bulk operation"))
    else if action ∈ actions then none
    else some (.error 400 "BAD_REQUEST" ("action must be one of: " ++ actionText))

def bulkBotsRefusal : Option (List String) → String → Option Reply :=
  bulkRefusal "bots" "start, stop, restart, delete" ["start", "stop", "restart", "delete"]

def bulkScriptsRefusal : Option (List String) → String → Option Reply :=
  bulkRefusal "scripts" "enable, disable, delete" ["enable", "disable", "delete"]

/-- The bots whose scripts have changed, each of them once. -/
def changedBots (results : List (BulkResult × Option String)) : List String :=
  (results.filterMap Prod.snd).eraseDups

def bulkBots (ids : Option (List String)) (action : String) : Api Reply := do
  match bulkBotsRefusal ids action with
  | some refusal => return refusal
  | none =>
    let results ← (ids.getD []).mapM (bulkBot r action)
    if changedBots results ≠ [] then notifyScriptsChanged (changedBots results)
    return .results (results.map Prod.fst)

def bulkScripts (ids : Option (List String)) (action : String) : Api Reply := do
  match bulkScriptsRefusal ids action with
  | some refusal => return refusal
  | none =>
    let results ← (ids.getD []).mapM (bulkScript action)
    notifyScriptsChanged (changedBots results)
    return .results (results.map Prod.fst)

end Bulk

/-- The routes. Who is no admin may not write through any of them. -/
def BotCommand.run (r : Request) (ownerId : String) : BotCommand → Api Reply
  | .start id => startBot r ownerId id
  | .stop id => stopBot r ownerId id
  | .restart id => restartBot r ownerId id
  | .update id body => patchBot r ownerId id body
  | .delete id => deleteBot r ownerId id
  | .action id type payload => actionBot r ownerId id type payload
  | .bulkBots ids name => Bots.bulkBots r ids name
  | .bulkScripts ids name => Bots.bulkScripts ids name

def BotCommand.isBulk : BotCommand → Bool
  | .bulkBots _ _ | .bulkScripts _ _ => true
  | _ => false

def Request.answer (r : Request) (ownerId : String) : Api Reply :=
  if r.admin then r.command.run r ownerId
  else if r.command.isBulk then return .error 403 "FORBIDDEN" "Admin role required"
  else return .error 403 "FORBIDDEN" "Insufficient permissions"

/-- A request of a user, with its reply. -/
def step (ownerId : String) (w : World) (r : Request) : World :=
  let answered := (r.answer ownerId).run w
  { answered.2 with replies := answered.2.replies ++ [answered.1] }

/-- Before the first request. -/
def World.start (store : Store) : World where
  store
  reads := []
  cleared := []
  notices := []
  replies := []

end BotHive.Bots
