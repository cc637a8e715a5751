import BotHive.Backup.Export

/-!
# Bots as the API sees them

The tables that the bot routes read and write, and the lookups of these routes: by id, and
by id and owner.

## Main definitions

- `Bot`, `LogRow`, `Tables`: the rows
- `Database`: tables as a database keeps them
- `Tables.findBot`, `Tables.findOwnBot`: the lookups
- `Reply`: what a route answers
-/

namespace BotHive.Bots

open Backup (AccountRow BotRow ScriptRow)

structure Bot extends BotRow where
  status : String

structure LogRow where
  id : String
  botId : String
  level : String
  message : String
  createdAt : ℕ

structure Tables where
  accounts : List AccountRow
  bots : List Bot
  scripts : List ScriptRow
  logs : List LogRow

/-- Ids are unique; configs are JSON values. -/
structure Database extends Tables where
  botIds : (bots.map fun b => b.id).Nodup
  scriptIds : (scripts.map fun s => s.id).Nodup
  botConfigs : ∀ b ∈ bots, ∀ config, b.config = some config → config.jsonCopy = some config

/-- `findUnique({ where: { id } })` -/
def Tables.findBot (t : Tables) (id : String) : Option Bot :=
  t.bots.find? fun b => b.id = id

/-- `findUnique({ where: ownerScopedUnique(ownerId, id) })` -/
def Tables.findOwnBot (t : Tables) (ownerId id : String) : Option Bot :=
  t.bots.find? fun b => b.id = id && b.ownerId = ownerId

/-- The columns of an account that a bot is answered with. -/
structure AccountView where
  id : String
  name : String
  platform : String
  createdAt : ℕ

def Tables.accountView (t : Tables) (id : String) : Option AccountView :=
  (t.accounts.find? fun a => a.id = id).map fun a => ⟨a.id, a.name, a.platform, a.createdAt⟩

inductive Reply where
  | error (status : ℕ) (code message : String)
  | bots (bots : List (Bot × Option AccountView × ℕ))
  | detail (bot : Bot) (account : Option AccountView) (logs : List LogRow)
      (scripts : List ScriptRow)
  | bot (bot : Bot)
  | success
  | message (text : String)
  | results (items : List (String × String × Option String))

def Reply.succeeded : Reply → Bool
  | .error _ _ _ => false
  | _ => true

/-- The rows of bots in a reply. -/
def Reply.botRows : Reply → List Bot
  | .bots rows => rows.map Prod.fst
  | .detail b _ _ _ | .bot b => [b]
  | .error _ _ _ | .success | .message _ | .results _ => []

def sendNotFound : Reply :=
  .error 404 "NOT_FOUND" "Resource not found"

end BotHive.Bots
