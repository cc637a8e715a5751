import BotHive.Bots.Tables
import BotHive.Credentials.Cipher

/-!
# The wallet in the config of a bot

How the API writes the private key of a crypto wallet into `config.crypto.wallet` when a bot
is created or updated, and how it takes the key out of what it answers with.

## Main definitions

- `BotConfig`: a config as the schema leaves it
- `createConfig`, `preserveWalletKey`: the configs that the create route and the update
  handler store
- `publicBot`: a bot without its wallet key
- `Bot.walletKey`: the key that is stored for a bot
-/

namespace BotHive.Bots

open Backup (objectField setField walletKey? setWalletKey removeField maskWalletPrivateKey
  objectField_setField ownField_setField)
open Credentials

/-- `config.crypto` -/
def cryptoOf (config : Value) : Value :=
  objectField "crypto" config

/-- `config.crypto.wallet` -/
def walletOf (config : Value) : Value :=
  objectField "wallet" (cryptoOf config)

/-- A config that `BotConfigSchema` has parsed: the crypto config and its wallet are objects
    if they are there, and the private key of a wallet is a text that is not empty. -/
structure BotConfig where
  value : Value
  record : ∃ fields, value = .obj fields
  crypto : cryptoOf value = .undefined ∨ ∃ fields, cryptoOf value = .obj fields
  wallet : walletOf value = .undefined ∨ ∃ fields, walletOf value = .obj fields
  privateKey : objectField "privateKey" (walletOf value) = .undefined ∨
    ∃ key, key ≠ "" ∧ objectField "privateKey" (walletOf value) = .str key

/-- The config of a request that sends none. -/
def BotConfig.empty : BotConfig where
  value := .obj []
  record := ⟨[], rfl⟩
  crypto := .inl rfl
  wallet := .inl rfl
  privateKey := .inl rfl

/-- Write a field of an object; a field that is not there yet comes last. -/
def putField (name : String) (v : Value) : Value → Value
  | .obj fields =>
    if (Value.ownField name fields).isSome then setField name v (.obj fields)
    else .obj (fields ++ [(name, v)])
  | other => other

/-- `Object.assign` of a list of fields. -/
def assign (fields : List (String × Value)) (target : Value) : Value :=
  fields.foldl (fun v e => putField e.1 e.2 v) target

/-- What `generateCryptoConfig` makes up. -/
structure CryptoConfig where
  symbols : List String
  coinIds : List String
  source : String
  strategy : String
  strategyParams : List (String × Value)
  pollInterval : ℕ
  maxOrderValueUsdt : ℕ

def CryptoConfig.entries (c : CryptoConfig) : List (String × Value) :=
  [("symbols", .arr (c.symbols.map .str)), ("coinIds", .arr (c.coinIds.map .str)),
    ("source", .str c.source), ("strategy", .str c.strategy),
    ("strategyParams", .obj c.strategyParams), ("tradeMode", .str "dry"),
    ("pollInterval", .num c.pollInterval), ("maxOrderValueUsdt", .num c.maxOrderValueUsdt)]

/-- What `generateEVMWallet` makes up. -/
structure EVMWallet where
  address : String
  privateKey : String
  privateKey_ne : privateKey ≠ ""

/-- A text that may be missing, as a field. -/
def nullableText : Option String → Value
  | none => .null
  | some text => .str text

section Cipher

variable (aes : Aes) (production : Bool) (registry : KeyRegistry)

/-- The wallet that a new crypto bot is stored with. -/
def createWallet (generated : EVMWallet) (nonce : Nonce) : Value → Except String Value
  | .undefined =>
    (encryptCredential aes production registry generated.privateKey nonce).map fun key =>
      .obj [("address", .str generated.address), ("privateKey", .str key)]
  | wallet =>
    match (objectField "privateKey" wallet).text? with
    | none => .ok wallet
    | some key =>
      (ensureEncrypted aes production registry (some key) nonce).map fun key =>
        setField "privateKey" (nullableText key) wallet

/-- The crypto config of a request, or an empty one. -/
def cryptoOrEmpty (config : Value) : Value :=
  match cryptoOf config with
  | .obj fields => .obj fields
  | _ => .obj []

/-- The crypto config of a new bot, before its wallet. -/
def newCrypto (generated : CryptoConfig) (config : Value) : Value :=
  match objectField "symbols" (cryptoOrEmpty config) with
  | .undefined => assign generated.entries (cryptoOrEmpty config)
  | _ => cryptoOrEmpty config

/-- The config that a new bot is stored with. -/
def createConfig (platform : String) (generated : CryptoConfig) (wallet : EVMWallet)
    (nonce : Nonce) (config : BotConfig) : Except String Value :=
  if platform = "crypto" then
    let crypto := newCrypto generated config.value
    (createWallet aes production registry wallet nonce (objectField "wallet" crypto)).map
      fun wallet => putField "crypto" (putField "wallet" wallet crypto) config.value
  else .ok config.value

/-- Put a wallet with the given key in the place of the one in a config. -/
def withWalletKey (key : Value) (config : Value) : Value :=
  putField "crypto" (putField "wallet" (putField "privateKey" key (walletOf config))
    (cryptoOf config)) config

/-- The config that an update stores: a key that is sent is encrypted, and one that is
    missing is taken over from the stored config. -/
def preserveWalletKey (nonce : Nonce) (stored : Option Value) (incoming : BotConfig) :
    Except String Value :=
  match walletOf incoming.value with
  | .undefined => .ok incoming.value
  | wallet =>
    match (objectField "privateKey" wallet).text? with
    | some key =>
      match dropPrefix? key "enc:" with
      | some _ => .ok incoming.value
      | none => (encryptCredential aes production registry key nonce).map fun key =>
        withWalletKey (.str key) incoming.value
    | none =>
      match stored.bind walletKey? with
      | none => .ok incoming.value
      | some key => (ensureEncrypted aes production registry (some key) nonce).map fun key =>
        withWalletKey (nullableText key) incoming.value

end Cipher

/-- A bot as the list and the detail route answer with it. -/
def publicBot (b : Bot) : Bot :=
  { b with config := b.config.map maskWalletPrivateKey }

/-- The wallet key that is stored in a config; the empty text is none. -/
def storedKey (config : Value) : Option String :=
  present (walletKey? config)

/-- The wallet key that is stored for a bot. -/
def Bot.walletKey (b : Bot) : Option String :=
  b.config.bind storedKey

-- ════════════════════════════════════════════════════════════════════════
-- Fields
-- ════════════════════════════════════════════════════════════════════════

section Fields

variable {name other : String} {v w config : Value}

theorem setField_setField (name : String) (v w x : Value) :
    setField name v (setField name w x) = setField name v x := by
  cases x with
  | obj fields =>
    rw [setField, setField, setField, List.map_map]
    refine congrArg Value.obj (List.map_congr_left fun e _ => ?_)
    by_cases he : e.1 = name
    · simp [he]
    · simp [he]
  | _ => rfl

/-- What is written to a field that goes does not show. -/
theorem removeField_setField (name : String) (v x : Value) :
    removeField name (setField name v x) = removeField name x := by
  cases x with
  | obj fields =>
    rw [setField, removeField, removeField, List.filter_map]
    refine congrArg Value.obj ?_
    have hnames : ((fun e : String × Value => decide (e.1 ≠ name)) ∘
        fun e => if e.1 = name then (e.1, v) else e) = fun e => decide (e.1 ≠ name) := by
      funext e
      by_cases he : e.1 = name <;> simp [he]
    rw [hnames]
    refine (List.map_congr_left fun e he => ?_).trans (List.map_id _)
    have hne : e.1 ≠ name := by simpa using (List.mem_filter.mp he).2
    rw [if_neg hne]
    rfl
  | _ => rfl

theorem ownField_removed (name : String) (fields : List (String × Value)) :
    Value.ownField name (fields.filter fun e => e.1 ≠ name) = none := by
  induction fields with
  | nil => rfl
  | cons e rest ih =>
    by_cases he : e.1 = name
    · rw [List.filter_cons_of_neg (by simpa using he), ih]
    · rw [List.filter_cons_of_pos (by simpa using he), Value.ownField, if_neg he, ih]

theorem objectField_removeField (name : String) (x : Value) :
    objectField name (removeField name x) = .undefined := by
  cases x with
  | obj fields => rw [removeField, objectField, ownField_removed, Option.getD_none]
  | _ => rfl

theorem ownField_append (name : String) (fields fields' : List (String × Value)) :
    Value.ownField name (fields ++ fields') =
      (Value.ownField name fields).or (Value.ownField name fields') := by
  induction fields with
  | nil => rfl
  | cons e rest ih =>
    rw [List.cons_append, Value.ownField, Value.ownField, ih]
    split_ifs <;> rfl

theorem ownField_map_of_ne (h : other ≠ name) (v : Value) (fields : List (String × Value)) :
    Value.ownField other (fields.map fun e => if e.1 = name then (e.1, v) else e) =
      Value.ownField other fields := by
  induction fields with
  | nil => rfl
  | cons e rest ih =>
    rw [List.map_cons, Value.ownField, Value.ownField, ih]
    by_cases he : e.1 = name
    · rw [if_pos he, he, if_neg (Ne.symm h), if_neg (Ne.symm h)]
    · rw [if_neg he]

/-- The field that is written to an object. -/
theorem objectField_putField (hv : ∃ fields, v = .obj fields) :
    objectField name (putField name w v) = w := by
  obtain ⟨fields, rfl⟩ := hv
  rw [putField]
  cases hown : Value.ownField name fields with
  | some x =>
    rw [Option.isSome_some, if_pos rfl, setField, objectField, ownField_setField, hown]
    rfl
  | none =>
    rw [Option.isSome_none, if_neg Bool.false_ne_true, objectField, ownField_append, hown,
      Option.none_or, Value.ownField, if_pos rfl, Option.getD_some]

theorem objectField_putField_of_ne (h : other ≠ name) (v w : Value) :
    objectField other (putField name w v) = objectField other v := by
  cases v with
  | obj fields =>
    rw [putField]
    split_ifs
    · rw [setField, objectField, objectField, ownField_map_of_ne h]
    · rw [objectField, objectField, ownField_append, Value.ownField, if_neg (Ne.symm h),
        Value.ownField, Option.or_none]
  | _ => rfl

end Fields

end BotHive.Bots
