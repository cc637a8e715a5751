import BotHive.Bots.WalletConfig

/-!
# The routes that answer with bots

Listing, reading, creating and updating bots, for the owner who calls. The list and the
detail route answer with a bot as it is shown to clients; the other two with the row as the
database returns it.

## Main definitions

- `BotRequest`: the requests, as their schemas leave them
- `respond`: what the routes answer
-/

namespace BotHive.Bots

open Backup (AccountRow byCreation)
open Credentials

structure ListQuery where
  platform : Option String
  status : Option String
  q : Option String
  take : ℕ
  skip : ℕ

structure CreateBody where
  name : String
  platform : String
  accountId : String
  config : Option BotConfig

structure UpdateBody where
  name : Option String
  config : Option BotConfig

/-- A body is missing when its schema refuses it. -/
inductive BotRequest where
  /-- `GET /bots` -/
  | list (query : ListQuery)
  /-- `GET /bots/:id` -/
  | get (id : String)
  /-- `POST /bots` -/
  | create (body : Option CreateBody)
  /-- `PATCH /bots/:id` -/
  | update (id : String) (body : Option UpdateBody)

/-- The platforms of `PlatformSchema`. -/
def platforms : List String :=
  ["telegram", "twitch", "youtube", "twitter", "crypto", "discord", "slack", "bluesky"]

/-- What the routes use of the process and of the database: the cipher with its keys, the
    case-insensitive search, the quota, and what is made up for a new bot. -/
structure BotEnv where
  aes : Aes
  production : Bool
  registry : KeyRegistry
  nonce : Nonce
  nameContains : String → String → Bool
  maxBots : ℕ
  cuid : String
  now : ℕ
  cryptoConfig : CryptoConfig
  wallet : EVMWallet

section Routes

variable (env : BotEnv) (t : Tables) (ownerId : String)

/-- The filters of the list route. -/
def ListQuery.admits (query : ListQuery) (b : Bot) : Bool :=
  b.ownerId = ownerId &&
  (present query.platform).all (fun platform => b.platform = platform) &&
  (present query.status).all (fun status => b.status = status) &&
  (present (query.q.map trimText)).all fun q => env.nameContains b.name q

def listBots (query : ListQuery) : Reply :=
  if (present query.platform).all platforms.contains then
    let rows := (byCreation (fun b => b.createdAt) (fun b => b.id)
      (t.bots.filter (query.admits env ownerId))).reverse
    .bots (((rows.drop query.skip).take query.take).map fun b =>
      (publicBot b, t.accountView b.accountId, t.logs.countP fun l => l.botId = b.id))
  else .error 422 "VALIDATION_ERROR" "Invalid platform"

def getBot (id : String) : Reply :=
  match t.findOwnBot ownerId id with
  | none => sendNotFound
  | some b =>
    let logs := (byCreation LogRow.createdAt LogRow.id (t.logs.filter fun l => l.botId = b.id)).reverse
    .detail (publicBot b) (t.accountView b.accountId) (logs.take 50)
      (t.scripts.filter fun s => s.botId = b.id)

/-- The answer to an exception that a route does not handle. -/
def internalError : Reply :=
  .error 500 "ERROR" "Internal server error"

def invalidInput : Reply :=
  .error 422 "VALIDATION_ERROR" "Invalid input"

def createBot : Option CreateBody → Reply
  | none => invalidInput
  | some body =>
    match t.accounts.find? fun a => a.id = body.accountId && a.ownerId = ownerId with
    | none => invalidInput
    | some account =>
      if account.platform ≠ body.platform then invalidInput
      else if env.maxBots ≤ t.bots.countP fun b => b.ownerId = ownerId then
        .error 429 "QUOTA_EXCEEDED"
          ("Maximum number of bots reached (" ++ toString env.maxBots ++ ").")
      else
        match createConfig env.aes env.production env.registry body.platform env.cryptoConfig
          env.wallet env.nonce (body.config.getD .empty) with
        | .error _ => internalError
        | .ok config => .bot
          { id := env.cuid, ownerId, accountId := body.accountId, name := body.name
            platform := body.platform, createdAt := env.now, config := some config
            status := "idle" }

/-- The row that the update handler stores. -/
def updatedBot (body : UpdateBody) (b : Bot) : Except String Bot :=
  match body.config with
  | none => .ok { b with name := body.name.getD b.name }
  | some config =>
    (preserveWalletKey env.aes env.production env.registry env.nonce b.config config).map
      fun config => { b with name := body.name.getD b.name, config := some config }

/-- `UpdateBotHandler`, and the error that it answers with. -/
def updateHandler (id : String) (body : UpdateBody) : Except Reply Bot :=
  match t.findBot id with
  | none => .error (.error 404 "NOT_FOUND" ("Bot " ++ id ++ " not found"))
  | some b =>
    match updatedBot env body b with
    | .error message =>
      .error (.error 500 "INTERNAL_ERROR" ("Failed to update bot: Error: " ++ message))
    | .ok b => .ok b

def updateBot (id : String) : Option UpdateBody → Reply
  | none => invalidInput
  | some body =>
    match t.findOwnBot ownerId id with
    | none => sendNotFound
    | some _ =>
      match updateHandler env t id body with
      | .error reply => reply
      | .ok b => .bot b

def respond : BotRequest → Reply
  | .list query => listBots env t ownerId query
  | .get id => getBot t ownerId id
  | .create body => createBot env t ownerId body
  | .update id body => updateBot env t ownerId id body

end Routes

end BotHive.Bots
