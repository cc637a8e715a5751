import BotHive.Library.Json

/-!
# The rows that backups and rotations touch

Accounts, bots, scripts, webhooks and proxies as the database holds them, with the columns
that an export, an import or a rotation of the encryption key reads or writes. Rows are
listed in the order in which an unordered query finds them.
-/

namespace BotHive.Backup

/-- The credential columns of an account. -/
inductive CredentialField where
  | token
  | clientId
  | secret
  | refreshToken
  | apiKey
  | apiSecret
  deriving DecidableEq

def credentialFields : List CredentialField :=
  [.token, .clientId, .secret, .refreshToken, .apiKey, .apiSecret]

/-- A pair of the key pool of an account. -/
structure KeyPair where
  apiKey : Option String
  apiSecret : Option String
  deriving DecidableEq

structure AccountRow where
  id : String
  ownerId : String
  name : String
  platform : String
  createdAt : ℕ
  credentials : CredentialField → Option String
  apiKeys : Option (List KeyPair)

/-- The config is a JSON value. -/
structure BotRow where
  id : String
  ownerId : String
  accountId : String
  name : String
  platform : String
  createdAt : ℕ
  config : Option Value

structure ScriptRow where
  id : String
  botId : String
  name : String
  trigger : String
  createdAt : ℕ
  config : Value
  enabled : Bool

/-- A webhook without a bot is one for all bots of its owner. -/
structure WebhookRow where
  id : String
  ownerId : String
  botId : Option String
  secret : Option String

structure ProxyRow where
  id : String
  url : String

structure Tables where
  accounts : List AccountRow
  bots : List BotRow
  scripts : List ScriptRow
  webhooks : List WebhookRow
  proxies : List ProxyRow

theorem mem_credentialFields (f : CredentialField) : f ∈ credentialFields := by
  cases f <;> decide

/-- A field of an object. The names read here are members of no other value. -/
def objectField (name : String) : Value → Value
  | .obj fields => (Value.ownField name fields).getD .undefined
  | _ => .undefined

/-- Write a field that an object has. -/
def setField (name : String) (v : Value) : Value → Value
  | .obj fields => .obj (fields.map fun e => if e.1 = name then (e.1, v) else e)
  | other => other

/-- `config.crypto.wallet.privateKey`, when it is a text. -/
def walletKey? (config : Value) : Option String :=
  (objectField "privateKey" (objectField "wallet" (objectField "crypto" config))).text?

/-- Write `config.crypto.wallet.privateKey`. -/
def setWalletKey (key : String) (config : Value) : Value :=
  let crypto := objectField "crypto" config
  let wallet := setField "privateKey" (.str key) (objectField "wallet" crypto)
  setField "crypto" (setField "wallet" wallet crypto) config

theorem ownField_setField (name : String) (v : Value) (fields : List (String × Value)) :
    Value.ownField name (fields.map fun e => if e.1 = name then (e.1, v) else e) =
      (Value.ownField name fields).map fun _ => v := by
  induction fields with
  | nil => rfl
  | cons e rest ih =>
    rw [List.map_cons, Value.ownField, Value.ownField]
    by_cases he : e.1 = name
    · rw [if_pos he, if_pos he, if_pos he, Option.map_some]
    · rw [if_neg he, if_neg he, if_neg he, ih]

/-- A field that is there reads as what was written. -/
theorem objectField_setField {v : Value} {name : String} (h : objectField name v ≠ .undefined)
    (w : Value) : objectField name (setField name w v) = w := by
  cases v with
  | obj fields =>
    rw [objectField] at h
    rw [setField, objectField, ownField_setField]
    rcases hfield : Value.ownField name fields with _ | x
    · rw [hfield] at h
      exact absurd rfl h
    · rfl
  | undefined | null | bool | num | str | arr | func => exact absurd rfl h

/-- A wallet key that is there reads as what was written. -/
theorem walletKey?_setWalletKey {config : Value} {key : String} (h : walletKey? config = some key)
    (key' : String) : walletKey? (setWalletKey key' config) = some key' := by
  have hkey : objectField "privateKey" (objectField "wallet" (objectField "crypto" config)) ≠
      .undefined := by
    intro hc
    rw [walletKey?, hc] at h
    cases h
  have hwallet : objectField "wallet" (objectField "crypto" config) ≠ .undefined := by
    intro hc
    rw [hc] at hkey
    exact hkey rfl
  have hcrypto : objectField "crypto" config ≠ .undefined := by
    intro hc
    rw [hc] at hwallet
    exact hwallet rfl
  rw [walletKey?, setWalletKey]
  rw [objectField_setField hcrypto, objectField_setField hwallet, objectField_setField hkey]
  rfl

end BotHive.Backup
