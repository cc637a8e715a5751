import BotHive.Backup.Import

/-!
# Quotas

An owner may have a limited number of accounts, bots and webhooks. The routes that create an
account or a bot count the rows of the owner, check the counts, and insert a row in a statement
of its own. An import writes the rows it finds and inserts the others, without a count. Between
any two statements those of other requests can run.

Rows have the columns that these statements read. The statements of an import about scripts touch
neither accounts nor bots, and are left out.

## Main definitions

- `checkQuota`: the check of counts that were read before
- `Database`: the rows, and the statements about them
- `QuotaRun.step`: the statements of requests, in any order
-/

namespace BotHive.Tenancy

open Backup (ImportAccount ImportBot)

inductive QuotaResource where
  | accounts
  | bots
  | webhooks
  deriving DecidableEq

def QuotaResource.name : QuotaResource → String
  | .accounts => "accounts"
  | .bots => "bots"
  | .webhooks => "webhooks"

structure QuotaLimits where
  maxAccounts : ℚ
  maxBots : ℚ
  maxWebhooks : ℚ

/-- The limits of a deployment that sets none. -/
def QuotaLimits.defaults : QuotaLimits :=
  ⟨20, 50, 30⟩

def QuotaLimits.limit (limits : QuotaLimits) : QuotaResource → ℚ
  | .accounts => limits.maxAccounts
  | .bots => limits.maxBots
  | .webhooks => limits.maxWebhooks

structure QuotaUsage where
  accounts : ℕ
  bots : ℕ
  webhooks : ℕ

def QuotaUsage.current (usage : QuotaUsage) : QuotaResource → ℕ
  | .accounts => usage.accounts
  | .bots => usage.bots
  | .webhooks => usage.webhooks

structure QuotaError where
  code : String
  message : String
  resource : QuotaResource
  current : ℕ
  limit : ℚ

/-- `text` is the text of a number. -/
def checkQuota (text : ℚ → String) (usage : QuotaUsage) (resource : QuotaResource)
    (limits : QuotaLimits) : Except QuotaError Unit :=
  let limit := limits.limit resource
  let current := usage.current resource
  if current < limit then .ok ()
  else
    .error
      { code := "QUOTA_EXCEEDED"
        message := "Maximum number of " ++ resource.name ++ " reached (" ++ text limit ++ ")."
        resource := resource
        current := current
        limit := limit }

structure AccountRow where
  id : String
  ownerId : String
  name : String
  platform : String

structure BotRow where
  id : String
  ownerId : String
  accountId : String
  name : String
  platform : String

/-- The rows, the owners of the webhooks, and how many ids the database has generated. -/
structure Database where
  accounts : List AccountRow
  bots : List BotRow
  webhooks : List String
  generated : ℕ

/-- What a request inserts for its owner. -/
inductive NewRow where
  | account (name platform : String)
  | bot (name platform accountId : String)

def NewRow.resource : NewRow → QuotaResource
  | .account _ _ => .accounts
  | .bot _ _ _ => .bots

namespace Database

variable (db : Database) (ownerId : String)

def count : QuotaResource → ℕ
  | .accounts => db.accounts.countP fun a => a.ownerId = ownerId
  | .bots => db.bots.countP fun b => b.ownerId = ownerId
  | .webhooks => db.webhooks.count ownerId

def findAccount (id : String) : Option AccountRow :=
  db.accounts.find? fun a => a.id = id && a.ownerId = ownerId

/-- The row that an import takes for the one it brings. -/
def find : NewRow → Option String
  | .account name platform =>
    (db.accounts.find? fun a => a.ownerId = ownerId && a.platform = platform && a.name = name).map
      (·.id)
  | .bot name _ accountId =>
    (db.bots.find? fun b => b.accountId = accountId && b.ownerId = ownerId && b.name = name).map
      (·.id)

/-- Whether there is a row like the new one under an id. -/
def has (id : String) : NewRow → Bool
  | .account _ _ => db.accounts.any fun a => a.id = id
  | .bot _ _ _ => db.bots.any fun b => b.id = id

def insert (id : String) : NewRow → Database
  | .account name platform =>
    { db with
      accounts := db.accounts ++ [⟨id, ownerId, name, platform⟩]
      generated := db.generated + 1 }
  | .bot name platform accountId =>
    { db with
      bots := db.bots ++ [⟨id, ownerId, accountId, name, platform⟩]
      generated := db.generated + 1 }

/-- Take rows back out. -/
def remove (ids : List String) : Database :=
  { db with
    accounts := db.accounts.filter fun a => a.id ∉ ids
    bots := db.bots.filter fun b => b.id ∉ ids }

end Database

/-- An import at work: what is left of the document, the ids of the accounts so far, what the
    query for the next entry found, and the ids of the rows it has inserted. -/
structure ImportRun where
  accounts : List ImportAccount
  bots : List ImportBot
  accountIds : List String
  found : Option (Option String)
  inserted : List String

namespace ImportRun

/-- The next entry, accounts first. A bot without its account throws. -/
def next (run : ImportRun) : Option NewRow :=
  match run.accounts, run.bots with
  | a :: _, _ => some (.account a.name a.platform)
  | [], b :: _ =>
    (Backup.ImportEnv.resolve run.accountIds b.accountRef).map fun accountId =>
      .bot b.name b.platform accountId
  | [], [] => none

/-- Go on after an entry whose row has an id. -/
def advance (run : ImportRun) (id : String) : ImportRun :=
  match run.accounts with
  | _ :: rest =>
    { run with accounts := rest, accountIds := run.accountIds ++ [id], found := none }
  | [] => { run with bots := run.bots.tail, found := none }

end ImportRun

/-- A request that awaits a statement. -/
inductive Pending where
  /-- `POST /bots`, about to read the account of the bot -/
  | readAccount (name platform accountId : String)
  /-- `POST /accounts` or `POST /bots`, with the counts that have come back -/
  | counting (row : NewRow) (counted : QuotaResource → Option ℕ)
  | importing (run : ImportRun)

/-- The database, and the requests with their owners. -/
structure QuotaRun where
  db : Database
  pending : ℕ → Option (String × Pending)

inductive QuotaAction where
  /-- A request arrives whose body is valid. -/
  | createAccount (id : ℕ) (ownerId name platform : String)
  | createBot (id : ℕ) (ownerId name platform accountId : String)
  | importBackup (id : ℕ) (ownerId : String) (accounts : List ImportAccount) (bots : List ImportBot)
  /-- A statement of a request runs. -/
  | readAccount (id : ℕ)
  | count (id : ℕ) (resource : QuotaResource)
  | insert (id : ℕ)
  | find (id : ℕ)
  | write (id : ℕ)
  | commit (id : ℕ)
  /-- A request fails, and an import is rolled back. -/
  | fail (id : ℕ)

namespace QuotaRun

-- `newId` generates the ids of rows
variable (text : ℚ → String) (limits : QuotaLimits) (newId : ℕ → String)

def start (db : Database) : QuotaRun :=
  ⟨db, fun _ => none⟩

def setPending (s : QuotaRun) (id : ℕ) (p : Option (String × Pending)) : QuotaRun :=
  { s with pending := Function.update s.pending id p }

/-- A new request, under an id that no other request has. -/
def arrive (s : QuotaRun) (id : ℕ) (ownerId : String) (p : Pending) : Option QuotaRun :=
  if (s.pending id).isSome then none else some (s.setPending id (some (ownerId, p)))

/-- The counts as the check gets them, when all of them are there. -/
def usage? (counted : QuotaResource → Option ℕ) : Option QuotaUsage := do
  let accounts ← counted .accounts
  let bots ← counted .bots
  let webhooks ← counted .webhooks
  return ⟨accounts, bots, webhooks⟩

def insertRow (s : QuotaRun) (ownerId : String) (row : NewRow) : QuotaRun :=
  { s with db := s.db.insert ownerId (newId s.db.generated) row }

def step (s : QuotaRun) : QuotaAction → Option QuotaRun
  | .createAccount id ownerId name platform =>
    s.arrive id ownerId (.counting (.account name platform) fun _ => none)
  | .createBot id ownerId name platform accountId =>
    s.arrive id ownerId (.readAccount name platform accountId)
  | .importBackup id ownerId accounts bots =>
    s.arrive id ownerId (.importing ⟨accounts, bots, [], none, []⟩)
  | .readAccount id =>
    match s.pending id with
    | some (ownerId, .readAccount name platform accountId) =>
      match s.db.findAccount ownerId accountId with
      | none => some (s.setPending id none)
      | some account =>
        if account.platform ≠ platform then some (s.setPending id none)
        else
          some (s.setPending id
            (some (ownerId, .counting (.bot name platform accountId) fun _ => none)))
    | _ => none
  | .count id resource =>
    match s.pending id with
    | some (ownerId, .counting row counted) =>
      if (counted resource).isSome then none
      else
        some (s.setPending id (some (ownerId, .counting row
          (Function.update counted resource (some (s.db.count ownerId resource))))))
    | _ => none
  | .insert id =>
    match s.pending id with
    | some (ownerId, .counting row counted) =>
      (usage? counted).map fun usage =>
        match checkQuota text usage row.resource limits with
        | .error _ => s.setPending id none
        | .ok () => (s.insertRow newId ownerId row).setPending id none
    | _ => none
  | .find id =>
    match s.pending id with
    | some (ownerId, .importing run) =>
      match run.next, run.found with
      | some row, none =>
        some (s.setPending id
          (some (ownerId, .importing { run with found := some (s.db.find ownerId row) })))
      | _, _ => none
    | _ => none
  | .write id =>
    match s.pending id with
    | some (ownerId, .importing run) =>
      match run.next, run.found with
      | some row, some (some found) =>
        -- an update of a row that is gone throws
        if s.db.has found row then
          some (s.setPending id (some (ownerId, .importing (run.advance found))))
        else none
      | some row, some none =>
        let rowId := newId s.db.generated
        some ((s.insertRow newId ownerId row).setPending id (some (ownerId, .importing
          { run.advance rowId with inserted := rowId :: run.inserted })))
      | _, _ => none
    | _ => none
  | .commit id =>
    match s.pending id with
    | some (_, .importing run) =>
      match run.accounts, run.bots with
      | [], [] => some (s.setPending id none)
      | _, _ => none
    | _ => none
  | .fail id =>
    match s.pending id with
    | some (_, .importing run) =>
      some ({ s with db := s.db.remove run.inserted }.setPending id none)
    | some _ => some (s.setPending id none)
    | none => none

end QuotaRun

end BotHive.Tenancy
