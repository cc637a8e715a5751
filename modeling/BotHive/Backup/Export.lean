import BotHive.Backup.Tables

/-!
# Exports

`GET /export` writes the accounts, bots and scripts of an owner into one document. Rows are
referred to by their index in it. Credentials and wallet keys are left out unless they are
asked for.

## Main definitions

- `Database`: the tables, as a database keeps them
- `exportBackup`: the document
- `wire`: the document as a client receives it and sends it back
-/

namespace BotHive.Backup

/-- Ids are generated and unique; configs are JSON values. -/
structure Database extends Tables where
  accountIds : (accounts.map AccountRow.id).Nodup
  botIds : (bots.map BotRow.id).Nodup
  scriptIds : (scripts.map ScriptRow.id).Nodup
  accountIds_ne : ∀ a ∈ accounts, a.id ≠ ""
  botIds_ne : ∀ b ∈ bots, b.id ≠ ""
  botConfigs : ∀ b ∈ bots, ∀ config, b.config = some config → config.jsonCopy = some config
  scriptConfigs : ∀ s ∈ scripts, s.config.jsonCopy = some s.config

/-- The order of an export: by creation, then by id. -/
def byCreation {R : Type*} (createdAt : R → ℕ) (id : R → String) (rows : List R) : List R :=
  rows.mergeSort fun a b =>
    createdAt a < createdAt b ∨ createdAt a = createdAt b ∧ id a ≤ id b

section Rows

variable (t : Tables) (owner : String)

def exportedAccounts : List AccountRow :=
  byCreation AccountRow.createdAt AccountRow.id (t.accounts.filter (·.ownerId = owner))

def exportedBots : List BotRow :=
  byCreation BotRow.createdAt BotRow.id (t.bots.filter (·.ownerId = owner))

/-- The scripts of the owner's bots. -/
def exportedScripts : List ScriptRow :=
  byCreation ScriptRow.createdAt ScriptRow.id
    (t.scripts.filter fun s => t.bots.any fun b => b.id = s.botId ∧ b.ownerId = owner)

end Rows

def CredentialField.name : CredentialField → String
  | token => "token"
  | clientId => "clientId"
  | secret => "secret"
  | refreshToken => "refreshToken"
  | apiKey => "apiKey"
  | apiSecret => "apiSecret"

/-- A column that may be null. -/
def nullable : Option String → Value
  | none => .null
  | some text => .str text

/-- A field that may be missing. -/
def optional : Option String → Value
  | none => .undefined
  | some text => .str text

def pairValue (pair : KeyPair) : Value :=
  .obj [("apiKey", optional pair.apiKey), ("apiSecret", optional pair.apiSecret)]

def poolValue : Option (List KeyPair) → Value
  | none => .null
  | some pairs => .arr (pairs.map pairValue)

def credentialEntries (a : AccountRow) : List (String × Value) :=
  credentialFields.map (fun field => (field.name, nullable (a.credentials field))) ++
    [("apiKeys", poolValue a.apiKeys)]

def exportAccount (includeCredentials : Bool) (a : AccountRow) : Value :=
  .obj ([("name", .str a.name), ("platform", .str a.platform)] ++
    if includeCredentials then credentialEntries a else [])

/-- Remove a field of an object. -/
def removeField (name : String) : Value → Value
  | .obj fields => .obj (fields.filter fun e => e.1 ≠ name)
  | other => other

/-- Strip the private key of the crypto wallet from a config; a deep copy. -/
def maskWalletPrivateKey (config : Value) : Value :=
  match config.jsonCopy with
  | some (.obj fields) =>
    let copy := .obj fields
    let crypto := objectField "crypto" copy
    let wallet := objectField "wallet" crypto
    setField "crypto" (setField "wallet" (removeField "privateKey" wallet) crypto) copy
  | some copy => copy
  | none => config

/-- The config as a query reads it. -/
def BotRow.configValue (b : BotRow) : Value :=
  b.config.getD .null

/-- The config that an export contains. -/
def exportedConfig (includeCredentials : Bool) (b : BotRow) : Value :=
  if includeCredentials then b.configValue.orElse (.obj [])
  else maskWalletPrivateKey b.configValue

/-- An index, if there is one. -/
def indexValue : Option ℕ → Value
  | none => .undefined
  | some i => .num i

def exportBot (includeCredentials : Bool) (accounts : List AccountRow) (b : BotRow) : Value :=
  .obj [("name", .str b.name), ("platform", .str b.platform),
    ("accountRef", indexValue (accounts.findIdx? (·.id = b.accountId))),
    ("config", exportedConfig includeCredentials b)]

def exportScript (bots : List BotRow) (s : ScriptRow) : Value :=
  .obj [("botRef", indexValue (bots.findIdx? (·.id = s.botId))), ("name", .str s.name),
    ("trigger", .str s.trigger), ("config", s.config.orElse (.obj [])),
    ("enabled", .bool s.enabled)]

def exportBackup (t : Tables) (owner : String) (includeCredentials : Bool)
    (exportedAt : String) : Value :=
  let accounts := exportedAccounts t owner
  let bots := exportedBots t owner
  .obj [("version", .num 1), ("app", .str "bothive"), ("exportedAt", .str exportedAt),
    ("accounts", .arr (accounts.map (exportAccount includeCredentials))),
    ("bots", .arr (bots.map (exportBot includeCredentials accounts))),
    ("scripts", .arr ((exportedScripts t owner).map (exportScript bots)))]

/-- A value that is written as JSON text and read back. -/
def wire (v : Value) : Value :=
  v.jsonCopy.getD .undefined

end BotHive.Backup
