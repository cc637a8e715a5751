import BotHive.Backup.Export
import BotHive.Credentials.Cipher
import BotHive.Library.Text
import BotHive.Library.Upsert

/-!
# Imports

`POST /import` checks a document, and then imports its accounts, bots and scripts one after
another in a transaction. An account is the first one of the owner with its platform and name,
a bot the first one of the account with its name, a script the first one of the bot with its
name; what is not found is created. The schemas of bot configs and the safety check of script
configs are predicates that the check asks.

## Main definitions

- `validateImport`: the check of a document
- `credentialsData`: the credential columns that an account of the document sets
- `ImportEnv.importBackup`: the transaction
-/

namespace BotHive.Backup

open Credentials

def maxAccounts : ℕ := 1000
def maxBots : ℕ := 5000
def maxScripts : ℕ := 5000
def maxNameLength : ℕ := 100

structure ImportAccount where
  name : String
  platform : String
  /-- `undefined` where the document has no such field. -/
  credentials : CredentialField → Value
  /-- Nothing when the field is missing. -/
  apiKeys : Option (Option (List (String × String)))

structure ImportBot where
  name : String
  platform : String
  accountRef : ℚ
  config : Value

structure ImportScript where
  botRef : ℚ
  name : String
  trigger : String
  config : Value
  enabled : Value

structure ImportPayload where
  accounts : List ImportAccount
  bots : List ImportBot
  scripts : List ImportScript

inductive ImportError where
  /-- The answer is "Invalid backup payload" with these details. -/
  | invalid (details : String)
  /-- "Could not resolve account for bot" -/
  | unresolvedAccount (bot : String)
  /-- "Could not resolve bot for script" -/
  | unresolvedBot (script : String)
  | thrown (message : String)

/-- What an import asks of configs, and the text that `String` makes of a value. -/
structure ConfigSchemas where
  stringOf : Value → String
  /-- Whether `BotConfigSchema` accepts a config. -/
  botConfig : Value → Bool
  /-- The problems that `validateScriptConfig` finds in a config. -/
  validateScriptConfig : Value → List String

/-- The triggers that `ScriptTriggerSchema` lists. -/
def scriptTriggers : List String :=
  ["message", "follow", "subscribe", "donation", "comment", "interval", "raid", "host", "price",
    "signal", "trade"]

-- ════════════════════════════════════════════════════════════════════════
-- The check of a document
-- ════════════════════════════════════════════════════════════════════════

def isRecord : Value → Bool
  | .obj _ => true
  | _ => false

def items? : Value → Option (List Value)
  | .arr items => some items
  | _ => none

/-- A name of 1 to 100 characters. -/
def validName (name : String) : Bool :=
  name ≠ "" && decide (utf16Length name ≤ maxNameLength)

def readPair (p : Value) : Option (String × String) :=
  if isRecord p then
    match p.field "apiKey", p.field "apiSecret" with
    | .str apiKey, .str apiSecret => some (apiKey, apiSecret)
    | _, _ => none
  else none

/-- The key pool of an account, which may be missing or null. -/
def readPool : Value → Option (Option (Option (List (String × String))))
  | .undefined => some none
  | .null => some (some none)
  | .arr items => (items.mapM readPair).map fun pairs => some (some pairs)
  | _ => none

def validateAccount (a : Value) : Except String ImportAccount :=
  match isRecord a, a.field "name", a.field "platform" with
  | true, .str name, .str platform =>
    if validName name then
      match readPool (a.field "apiKeys") with
      | none => .error ("account \"" ++ name ++ "\" has an invalid apiKeys pool")
      | some apiKeys => .ok ⟨name, platform, fun field => a.field field.name, apiKeys⟩
    else .error "each account needs a name and platform (name 1-100 chars)"
  | _, _, _ => .error "each account needs a name and platform (name 1-100 chars)"

variable (schemas : ConfigSchemas)

def validateBot (accounts : ℕ) (b : Value) : Except String ImportBot :=
  match isRecord b, b.field "name", b.field "platform", b.field "accountRef" with
  | true, .str name, .str platform, .num accountRef =>
    if validName name ∧ 0 ≤ accountRef ∧ accountRef < accounts then
      match b.field "config" with
      | .undefined => .ok ⟨name, platform, accountRef, .undefined⟩
      | config =>
        if schemas.botConfig config then .ok ⟨name, platform, accountRef, config⟩
        else .error ("bot \"" ++ name ++ "\" has an invalid config")
    else .error "each bot needs a name, platform and valid accountRef"
  | _, _, _, _ => .error "each bot needs a name, platform and valid accountRef"

def validateScript (bots : ℕ) (s : Value) : Except String ImportScript :=
  match isRecord s, s.field "name", s.field "trigger", s.field "botRef" with
  | true, .str name, .str trigger, .num botRef =>
    if validName name ∧ 0 ≤ botRef ∧ botRef < bots then
      if trigger ∈ scriptTriggers then
        match schemas.validateScriptConfig ((s.field "config").orElse (.obj [])) with
        | [] => .ok ⟨botRef, name, trigger, s.field "config", s.field "enabled"⟩
        | problems =>
          .error ("script \"" ++ name ++ "\" has an unsafe config: " ++
            String.intercalate "; " problems)
      else .error ("script \"" ++ name ++ "\" has unsupported trigger \"" ++ trigger ++ "\"")
    else .error "each script needs a name, trigger and valid botRef"
  | _, _, _, _ => .error "each script needs a name, trigger and valid botRef"

/-- The version is missing or 1. -/
def supportedVersion : Value → Bool
  | .undefined => true
  | .num q => decide (q = 1)
  | _ => false

def validateImport (payload : Value) : Except String ImportPayload :=
  match isRecord payload, items? (payload.field "accounts"), items? (payload.field "bots"),
    items? (payload.field "scripts") with
  | true, some accounts, some bots, some scripts =>
    if !supportedVersion (payload.field "version") then
      .error ("unsupported backup version " ++ schemas.stringOf (payload.field "version") ++
        " (expected 1)")
    else if maxAccounts < accounts.length then .error "too many accounts (max 1000)"
    else if maxBots < bots.length then .error "too many bots (max 5000)"
    else if maxScripts < scripts.length then .error "too many scripts (max 5000)"
    else do
      let accountEntries ← accounts.mapM validateAccount
      let botEntries ← bots.mapM (validateBot schemas accounts.length)
      let scriptEntries ← scripts.mapM (validateScript schemas bots.length)
      .ok ⟨accountEntries, botEntries, scriptEntries⟩
  | _, _, _, _ => .error "payload must contain accounts, bots and scripts arrays"

-- ════════════════════════════════════════════════════════════════════════
-- The transaction
-- ════════════════════════════════════════════════════════════════════════

/-- Where an import may draw a nonce; accounts and pairs are counted. -/
inductive ImportPlace where
  | field (account : ℕ) (field : CredentialField)
  | pool (account : ℕ) (index : ℕ) (secret : Bool)

/-- The process that imports: its cipher, the nonces that it draws, its clock, and the ids that
    the database generates, by the number of rows. -/
structure ImportEnv where
  aes : Aes
  production : Bool
  registry : KeyRegistry
  schemas : ConfigSchemas
  nonces : ImportPlace → Nonce
  now : ℕ
  newId : ℕ → String

/-- The credential columns that an update sets. -/
structure CredentialUpdate where
  credentials : CredentialField → Option (Option String)
  apiKeys : Option (Option (List KeyPair))

def CredentialUpdate.apply (u : CredentialUpdate) (a : AccountRow) : AccountRow :=
  { a with
    credentials := fun field => (u.credentials field).getD (a.credentials field)
    apiKeys := u.apiKeys.getD a.apiKeys }

structure ImportCount where
  created : ℕ
  updated : ℕ

structure ImportStats where
  accounts : ImportCount
  bots : ImportCount
  scripts : ImportCount

namespace ImportEnv

variable (env : ImportEnv)

def ensureEncrypted (value : Option String) (place : ImportPlace) :
    Except ImportError (Option String) :=
  match Credentials.ensureEncrypted env.aes env.production env.registry value
    (env.nonces place) with
  | .ok stored => .ok stored
  | .error message => .error (.thrown message)

/-- A field that is missing is left alone. A value that is neither a text nor falsy has no
    `startsWith`. -/
def storeField (place : ImportPlace) : Value → Except ImportError (Option (Option String))
  | .undefined => .ok none
  | .null => (env.ensureEncrypted none place).map some
  | .str text => (env.ensureEncrypted (some text) place).map some
  | .bool false => (env.ensureEncrypted none place).map some
  | .num q =>
    if q = 0 then (env.ensureEncrypted none place).map some
    else .error (.thrown "value.startsWith is not a function")
  | _ => .error (.thrown "value.startsWith is not a function")

def storeFields (account : ℕ) (credentials : CredentialField → Value) :
    List CredentialField → Except ImportError (CredentialField → Option (Option String))
  | [] => .ok fun _ => none
  | field :: rest => do
    let stored ← env.storeField (.field account field) (credentials field)
    let others ← storeFields account credentials rest
    .ok (Function.update others field stored)

def storePairs (account : ℕ) : ℕ → List (String × String) → Except ImportError (List KeyPair)
  | _, [] => .ok []
  | i, (apiKey, apiSecret) :: rest => do
    let key ← env.ensureEncrypted (some apiKey) (.pool account i false)
    let secret ← env.ensureEncrypted (some apiSecret) (.pool account i true)
    let others ← storePairs account (i + 1) rest
    .ok (⟨key, secret⟩ :: others)

/-- Pairs with an empty half are dropped. -/
def storePool (account : ℕ) :
    Option (Option (List (String × String))) → Except ImportError (Option (Option (List KeyPair)))
  | none => .ok none
  | some none => .ok (some none)
  | some (some pairs) =>
    (env.storePairs account 0 (pairs.filter fun p => p.1 ≠ "" ∧ p.2 ≠ "")).map fun stored =>
      some (some stored)

def credentialsData (account : ℕ) (a : ImportAccount) : Except ImportError CredentialUpdate := do
  let credentials ← env.storeFields account a.credentials credentialFields
  let apiKeys ← env.storePool account a.apiKeys
  .ok ⟨credentials, apiKeys⟩

def accountUpsert (owner : String) (entry : ImportAccount × ℕ) :
    Except ImportError (Upsert AccountRow) := do
  let a := entry.1
  let credentials ← env.credentialsData entry.2 a
  .ok
    { fits := fun c => c.ownerId = owner ∧ c.platform = a.platform ∧ c.name = a.name
      write := credentials.apply
      make := fun rows => credentials.apply
        { id := env.newId rows.length
          ownerId := owner
          name := a.name
          platform := a.platform
          createdAt := env.now
          credentials := fun _ => none
          apiKeys := none } }

/-- The id under a reference; an empty one counts as missing. -/
def resolve (ids : List String) (ref : ℚ) : Option String :=
  (((Value.num ref).natural?).bind fun i => ids[i]?).filter (· ≠ "")

def botUpsert (owner : String) (accountIds : List String) (b : ImportBot) :
    Except ImportError (Upsert BotRow) :=
  match resolve accountIds b.accountRef with
  | none => .error (.unresolvedAccount b.name)
  | some accountId =>
    let config := b.config.orElse (.obj [])
    .ok
      { fits := fun c => c.accountId = accountId ∧ c.ownerId = owner ∧ c.name = b.name
        write := fun c => { c with config := some config }
        make := fun rows =>
          { id := env.newId rows.length
            ownerId := owner
            accountId := accountId
            name := b.name
            platform := b.platform
            createdAt := env.now
            config := some config } }

/-- The database takes booleans only. -/
def enabledColumn (v : Value) : Except ImportError Bool :=
  match v.orElse (.bool true) with
  | .bool enabled => .ok enabled
  | _ => .error (.thrown "Argument `enabled`: Invalid value provided")

def scriptUpsert (botIds : List String) (s : ImportScript) :
    Except ImportError (Upsert ScriptRow) :=
  match resolve botIds s.botRef with
  | none => .error (.unresolvedBot s.name)
  | some botId => do
    let config := s.config.orElse (.obj [])
    let enabled ← enabledColumn s.enabled
    .ok
      { fits := fun c => c.botId = botId ∧ c.name = s.name
        write := fun c => { c with trigger := s.trigger, config := config, enabled := enabled }
        make := fun rows =>
          { id := env.newId rows.length
            botId := botId
            name := s.name
            trigger := s.trigger
            createdAt := env.now
            config := config
            enabled := enabled } }

/-- How many rows an import has created and updated. -/
def count (refs : List (String × Bool)) : ImportCount :=
  ⟨refs.countP Prod.snd, refs.countP fun ref => !ref.2⟩

/-- One transaction: when something throws, nothing is written. -/
def importBackup (t : Tables) (owner : String) (body : Value) :
    Except ImportError (Tables × ImportStats) :=
  match validateImport env.schemas body with
  | .error details => .error (.invalid details)
  | .ok payload => do
    let (accounts, accountRefs) ← Upsert.runEach AccountRow.id (env.accountUpsert owner)
      payload.accounts.zipIdx t.accounts
    let (bots, botRefs) ← Upsert.runEach BotRow.id
      (env.botUpsert owner (accountRefs.map Prod.fst)) payload.bots t.bots
    let (scripts, scriptRefs) ← Upsert.runEach ScriptRow.id
      (env.scriptUpsert (botRefs.map Prod.fst)) payload.scripts t.scripts
    .ok ({ t with accounts := accounts, bots := bots, scripts := scripts },
      ⟨count accountRefs, count botRefs, count scriptRefs⟩)

end ImportEnv

end BotHive.Backup
