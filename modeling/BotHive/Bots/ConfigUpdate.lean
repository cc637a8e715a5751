import BotHive.Bots.Commands
import BotHive.Bots.WalletPrivacy
import BotHive.Scripts.Language

/-!
# The update handler on configs of any shape

`UpdateBotHandler` replaces the whole config of a bot. `preserveWalletKey` puts the stored wallet
key into a config that carries a wallet without a key; both configs are untyped. A config without
a crypto or wallet part is stored as it is, and the key goes.

## Main definitions

- `UpdateBotHandler.preserveWalletKey`, `UpdateBotHandler.handle`, `UpdateBotHandler.after`
- `CarriesWallet`: the configs that the stored key is put into
- `eraseKey`: a config apart from its wallet key

## Main results

- `UpdateBotHandler.preserveWalletKey_value`: on parsed configs it is the function of the route
- `keepsWalletKey`
-/

namespace BotHive.Bots

open Backup (objectField setField walletKey? removeField maskWalletPrivateKey objectField_setField)
open Credentials

/-- The own fields of a value; a text has one for each character (each code unit, in the source). -/
def spread : Value → List (String × Value)
  | .obj fields => fields
  | .arr items => items.zipIdx.map fun e => (toString e.2, e.1)
  | .str s => s.toList.zipIdx.map fun e => (toString e.2, .str (String.singleton e.1))
  | .undefined | .null | .bool _ | .num _ | .func _ => []

/-- Write another wallet into a config that has one. -/
def replaceWallet (wallet config : Value) : Value :=
  setField "crypto" (setField "wallet" wallet (cryptoOf config)) config

/-- `{ ...wallet, privateKey }` -/
def withKey (wallet key : Value) : Value :=
  putField "privateKey" key (.obj (spread wallet))

structure UpdateBotCommand where
  botId : String
  name : Option String
  config : Option Value

namespace UpdateBotHandler

section Cipher

variable (aes : Aes) (production : Bool) (registry : KeyRegistry) (nonce : Nonce)

/-- The config that is stored. Reading a field of `null` throws. -/
def preserveWalletKey (storedConfig : Option Value) (incomingConfig : Value) :
    Except String Value :=
  if incomingConfig.isNullish then .error "Cannot read properties of null (reading 'crypto')"
  else
    let incomingWallet := walletOf incomingConfig
    if !(cryptoOf incomingConfig).truthy || !incomingWallet.truthy then .ok incomingConfig
    else
      match (objectField "privateKey" incomingWallet).text? with
      | some privateKey =>
        match dropPrefix? privateKey "enc:" with
        | some _ => .ok incomingConfig
        | none => (encryptCredential aes production registry privateKey nonce).map fun key =>
          replaceWallet (withKey incomingWallet (.str key)) incomingConfig
      | none =>
        match storedConfig.bind walletKey? with
        | none => .ok incomingConfig
        | some privateKey =>
          (ensureEncrypted aes production registry (some privateKey) nonce).map fun key =>
            replaceWallet (withKey incomingWallet (nullableText key)) incomingConfig

/-- The row that the command leaves. -/
def updated (command : UpdateBotCommand) (bot : Bot) : Except String Bot :=
  match command.config with
  | none => .ok { bot with name := command.name.getD bot.name }
  | some config =>
    (preserveWalletKey aes production registry nonce bot.config config).map fun config =>
      { bot with name := command.name.getD bot.name, config := some config }

def handle (s : Store) (command : UpdateBotCommand) : Except Reply (Store × Bot) :=
  match s.findBot command.botId with
  | none => .error (.error 404 "NOT_FOUND" ("Bot " ++ command.botId ++ " not found"))
  | some bot =>
    match updated aes production registry nonce command bot with
    | .error message =>
      .error (.error 500 "INTERNAL_ERROR" ("Failed to update bot: Error: " ++ message))
    | .ok bot => .ok (s.modifyBot command.botId fun _ => bot, bot)

/-- A command that fails leaves the store as it is. -/
def after (s : Store) (command : UpdateBotCommand) : Store :=
  match handle aes production registry nonce s command with
  | .ok (s, _) => s
  | .error _ => s

end Cipher

end UpdateBotHandler

/-- A wallet without a text for a key. -/
def CarriesWallet (config : Value) : Prop :=
  (walletOf config).truthy = true ∧ walletKey? config = none

/-- A config apart from its wallet key. -/
def eraseKey (config : Value) : Value :=
  replaceWallet (removeField "privateKey" (walletOf config)) config

/-- The stored key of the bot reads as the given one. -/
def Store.KeyReads (aes : Aes) (registry : KeyRegistry) (s : Store) (botId key : String) : Prop :=
  ∃ bot, s.findBot botId = some bot ∧
    decryptCredential aes registry (bot.config.bind walletKey?) =
      decryptCredential aes registry (some key)

section Shapes

variable {config wallet wallet' key : Value}

theorem not_undefined_of_truthy {v : Value} (h : v.truthy = true) : v ≠ .undefined := by
  rintro rfl
  cases h

theorem cryptoOf_ne (h : walletOf config ≠ .undefined) : cryptoOf config ≠ .undefined := by
  intro hnone
  rw [walletOf, hnone] at h
  exact h rfl

theorem truthy_obj {v : Value} (h : ∃ fields, v = .obj fields) : v.truthy = true := by
  obtain ⟨fields, rfl⟩ := h
  rfl

theorem cryptoOf_replaceWallet (h : walletOf config ≠ .undefined) (wallet : Value) :
    cryptoOf (replaceWallet wallet config) = setField "wallet" wallet (cryptoOf config) :=
  objectField_setField (cryptoOf_ne h) _

theorem walletOf_replaceWallet (h : walletOf config ≠ .undefined) (wallet : Value) :
    walletOf (replaceWallet wallet config) = wallet := by
  rw [walletOf, cryptoOf_replaceWallet h]
  exact objectField_setField h wallet

theorem replaceWallet_replaceWallet (h : walletOf config ≠ .undefined) (wallet wallet' : Value) :
    replaceWallet wallet (replaceWallet wallet' config) = replaceWallet wallet config := by
  rw [replaceWallet, cryptoOf_replaceWallet h, setField_setField, replaceWallet, replaceWallet,
    setField_setField]

theorem walletKey?_replaceWallet (h : walletOf config ≠ .undefined) (wallet key : Value) :
    walletKey? (replaceWallet (withKey wallet key) config) = key.text? := by
  show (objectField "privateKey" (walletOf _)).text? = _
  rw [walletOf_replaceWallet h, withKey, objectField_putField ⟨_, rfl⟩]

theorem removeField_putField (name : String) (v : Value) (fields : List (String × Value)) :
    removeField name (putField name v (.obj fields)) = removeField name (.obj fields) := by
  rw [putField]
  split_ifs
  · exact removeField_setField name v (.obj fields)
  · simp [removeField]

/-- Writing a field that is there leaves it in its place. -/
theorem putField_of_ne {name : String} {x : Value} (h : objectField name x ≠ .undefined) (v : Value) :
    putField name v x = setField name v x := by
  obtain ⟨fields, rfl⟩ := obj_of_objectField name h
  refine if_pos (Option.isSome_iff_ne_none.mpr fun hnone => h ?_)
  rw [objectField, hnone]
  rfl

theorem withWalletKey_eq {fields : List (String × Value)} (h : walletOf config = .obj fields)
    (key : Value) :
    withWalletKey key config = replaceWallet (withKey (walletOf config) key) config := by
  have hne : walletOf config ≠ .undefined := by
    rw [h]
    exact nofun
  have hcrypto : objectField "crypto" config ≠ .undefined := cryptoOf_ne hne
  rw [withWalletKey, putField_of_ne hcrypto, putField_of_ne hne, replaceWallet, withKey, h]
  rfl

/-- Apart from the key, a config with an object for a wallet stays as it is. -/
theorem eraseKey_replaceWallet {fields : List (String × Value)} (h : walletOf config = .obj fields)
    (key : Value) :
    eraseKey (replaceWallet (withKey (walletOf config) key) config) = eraseKey config := by
  have hne : walletOf config ≠ .undefined := by
    rw [h]
    exact nofun
  rw [eraseKey, walletOf_replaceWallet hne, replaceWallet_replaceWallet hne, eraseKey, h]
  exact congrArg (replaceWallet · config) (removeField_putField "privateKey" key fields)

/-- A config with a wallet key is shown with a wallet and without the key. -/
theorem carriesWallet_mask {stored : Value} {key : String} (hkey : walletKey? stored = some key)
    (hjson : stored.jsonCopy = some stored) : CarriesWallet (maskWalletPrivateKey stored) := by
  have hne : objectField "privateKey" (walletOf stored) ≠ .undefined := by
    intro hnone
    have hkey' : (objectField "privateKey" (walletOf stored)).text? = some key := hkey
    rw [hnone] at hkey'
    cases hkey'
  obtain ⟨fields, hwallet⟩ := obj_of_objectField "privateKey" hne
  have hmask : maskWalletPrivateKey stored = eraseKey stored := mask_eq hjson
  have hread : walletOf (eraseKey stored) = removeField "privateKey" (walletOf stored) :=
    walletOf_replaceWallet (by rw [hwallet]; exact nofun) _
  refine ⟨?_, ?_⟩
  · rw [hmask, hread, hwallet]
    rfl
  · show (objectField "privateKey" (walletOf _)).text? = none
    rw [hmask, hread, objectField_removeField]
    rfl

end Shapes

section Keys

variable {aes : Aes} {production : Bool} {registry : KeyRegistry} {nonce : Nonce}

/-- What `ensureEncrypted` makes of a stored text reads as the text. -/
theorem decryptCredential_ensureEncrypted (haes : aes.Correct) {key : String} {out : Option String}
    (h : ensureEncrypted aes production registry (some key) nonce = .ok out) :
    decryptCredential aes registry out = decryptCredential aes registry (some key) := by
  by_cases hne : key = ""
  · subst hne
    cases h
    rfl
  cases hprefixed : dropPrefix? key "enc:" with
  | some payload =>
    rw [ensureEncrypted_prefixed hprefixed] at h
    cases h
    rfl
  | none =>
    by_cases hkey : registry.key = ""
    · -- without a key the text is stored as it is, in development
      rw [ensureEncrypted, present_some hne] at h
      simp only [hprefixed, encryptCredential, if_pos hkey] at h
      split at h
      · cases h
      · cases h
        rfl
    · rw [ensureEncrypted_plain hkey hne hprefixed] at h
      cases h
      rw [decryptCredential_storedForm haes (keyFor_version hkey),
        decryptCredential_plain hne hprefixed]

theorem text?_nullableText (key : Option String) : (nullableText key).text? = key := by
  cases key <;> rfl

end Keys

namespace UpdateBotHandler

variable {aes : Aes} {production : Bool} {registry : KeyRegistry} {nonce : Nonce}
  {stored? : Option Value} {incoming config : Value} {s s' : Store} {command : UpdateBotCommand}
  {bot bot' : Bot}

/-- What is stored is the submitted config, or that with a key in its wallet. -/
theorem preserveWalletKey_eq_ok
    (h : preserveWalletKey aes production registry nonce stored? incoming = .ok config) :
    config = incoming ∨ (walletOf incoming).truthy = true ∧
      ∃ key, config = replaceWallet (withKey (walletOf incoming) key) incoming := by
  rw [preserveWalletKey] at h
  split at h
  · cases h
  dsimp only at h
  split at h
  next => exact Or.inl (Except.ok.inj h).symm
  next htruthy =>
    have hwallet : (walletOf incoming).truthy = true := by
      simpa using (Bool.or_eq_false_iff.mp (Bool.eq_false_iff.mpr htruthy)).2
    split at h
    · split at h
      · exact Or.inl (Except.ok.inj h).symm
      · obtain ⟨key, -, rfl⟩ := Except.map_eq_ok_iff.mp h
        exact Or.inr ⟨hwallet, _, rfl⟩
    · split at h
      · exact Or.inl (Except.ok.inj h).symm
      · obtain ⟨key, -, rfl⟩ := Except.map_eq_ok_iff.mp h
        exact Or.inr ⟨hwallet, _, rfl⟩

/-- A wallet without a key is given the stored one. -/
theorem preserveWalletKey_of_carriesWallet {stored : Value} {key : String}
    (hcarries : CarriesWallet incoming) (hkey : walletKey? stored = some key) :
    preserveWalletKey aes production registry nonce (some stored) incoming =
      (ensureEncrypted aes production registry (some key) nonce).map fun key =>
        replaceWallet (withKey (walletOf incoming) (nullableText key)) incoming := by
  obtain ⟨hwallet, hnone⟩ := hcarries
  have hne := not_undefined_of_truthy hwallet
  have hcrypto := truthy_obj (obj_of_objectField "wallet" hne)
  obtain ⟨fields, hconfig⟩ := obj_of_objectField "crypto" (cryptoOf_ne hne)
  have hnullish : incoming.isNullish = false := by
    rw [hconfig]
    rfl
  have hnone' : (objectField "privateKey" (walletOf incoming)).text? = none := hnone
  rw [preserveWalletKey, hnullish, if_neg Bool.false_ne_true]
  simp only [hcrypto, hwallet, Bool.not_true, Bool.or_self, Bool.false_eq_true, if_false, hnone',
    Option.bind_some, hkey]

/-- On a config as the schema leaves it this is what the route stores. -/
theorem preserveWalletKey_value (incoming : BotConfig) :
    preserveWalletKey aes production registry nonce stored? incoming.value =
      Bots.preserveWalletKey aes production registry nonce stored? incoming := by
  have hnullish : incoming.value.isNullish = false := by
    obtain ⟨fields, hrecord⟩ := incoming.record
    rw [hrecord]
    rfl
  rw [preserveWalletKey, hnullish, if_neg Bool.false_ne_true, Bots.preserveWalletKey]
  obtain hwallet | ⟨fields, hwallet⟩ := incoming.wallet
  · simp only [hwallet, Value.truthy, Bool.not_false, Bool.or_true, if_true]
  · have htruthy : (walletOf incoming.value).truthy = true := by
      rw [hwallet]
      rfl
    have hcrypto := truthy_obj (obj_of_objectField "wallet" (not_undefined_of_truthy htruthy))
    have hkey := withWalletKey_eq hwallet
    rw [hwallet] at hkey htruthy
    simp only [hcrypto, hwallet, Bool.not_true, Bool.false_or]
    rw [htruthy, Bool.not_true, if_neg Bool.false_ne_true]
    cases hprivate : (objectField "privateKey" (Value.obj fields)).text? with
    | some key =>
      cases hsealed : dropPrefix? key "enc:" <;> simp only [hsealed, hkey]
    | none =>
      cases stored?.bind walletKey? <;> simp only [hkey]

/-- The row of the command takes the place of the one that was found. -/
theorem findBot_modifyBot (hbot : s.findBot command.botId = some bot) (hid : bot'.id = bot.id) :
    (s.modifyBot command.botId fun _ => bot').findBot command.botId = some bot' := by
  have hid' : bot.id = command.botId := by simpa using List.find?_some hbot
  have hpred : (fun b : Bot => decide (b.id = command.botId)) ∘
      (fun b => if b.id = command.botId then bot' else b) =
      fun b : Bot => decide (b.id = command.botId) := by
    funext b
    by_cases hb : b.id = command.botId
    · simp [hb, hid, hid']
    · simp [hb]
  have hfound : s.bots.find? (fun b => b.id = command.botId) = some bot := hbot
  rw [Tables.findBot, Store.modifyBot, List.find?_map, hpred, hfound, Option.map_some, if_pos hid']

/-- A command with a config changes the name and the config of its bot. -/
theorem handle_eq (hbot : s.findBot command.botId = some bot)
    (hincoming : command.config = some incoming) :
    handle aes production registry nonce s command =
      match preserveWalletKey aes production registry nonce bot.config incoming with
      | .error message =>
        .error (.error 500 "INTERNAL_ERROR" ("Failed to update bot: Error: " ++ message))
      | .ok config =>
        let bot' := { bot with name := command.name.getD bot.name, config := some config }
        .ok (s.modifyBot command.botId fun _ => bot', bot') := by
  rw [handle, hbot]
  simp only [updated, hincoming]
  cases preserveWalletKey aes production registry nonce bot.config incoming <;> rfl

/-- A config whose wallet has no key leaves the key of the bot as it reads. -/
theorem keyReads_after (haes : aes.Correct) {stored : Value} {key : String}
    (hbot : s.findBot command.botId = some bot) (hincoming : command.config = some incoming)
    (hstored : bot.config = some stored) (hkey : walletKey? stored = some key)
    (hcarries : CarriesWallet incoming) :
    (after aes production registry nonce s command).KeyReads aes registry command.botId key := by
  rw [after, handle_eq hbot hincoming, hstored, preserveWalletKey_of_carriesWallet hcarries hkey]
  cases hensure : ensureEncrypted aes production registry (some key) nonce with
  | error message => exact ⟨bot, hbot, by rw [hstored, Option.bind_some, hkey]⟩
  | ok out =>
    refine ⟨_, findBot_modifyBot hbot rfl, ?_⟩
    rw [Option.bind_some, walletKey?_replaceWallet (not_undefined_of_truthy hcarries.1),
      text?_nullableText]
    exact decryptCredential_ensureEncrypted haes hensure

/-- What a command leaves is its config, apart from the key of an object for a wallet. -/
theorem of_handle_eq_ok (hbot : s.findBot command.botId = some bot)
    (hincoming : command.config = some incoming)
    (h : handle aes production registry nonce s command = .ok (s', bot')) :
    s'.findBot command.botId = some bot' ∧ ∃ config, bot'.config = some config ∧
      ((walletOf incoming).truthy = false → config = incoming) ∧
      ((∃ fields, walletOf incoming = .obj fields) → eraseKey config = eraseKey incoming) := by
  rw [handle_eq hbot hincoming] at h
  cases hpreserve : preserveWalletKey aes production registry nonce bot.config incoming with
  | error message =>
    rw [hpreserve] at h
    cases h
  | ok config =>
    rw [hpreserve] at h
    cases h
    refine ⟨findBot_modifyBot hbot rfl, config, rfl, ?_⟩
    obtain rfl | ⟨hwallet, key, rfl⟩ := preserveWalletKey_eq_ok hpreserve
    · exact ⟨fun _ => rfl, fun _ => rfl⟩
    · refine ⟨fun hnone => ?_, fun ⟨fields, hfields⟩ => eraseKey_replaceWallet hfields key⟩
      rw [hwallet] at hnone
      cases hnone

end UpdateBotHandler

/-- **Wallet keys**: a config whose wallet has no key is stored with the key of the bot, and the
    config that the bot is shown with is one; a config without a wallet is stored as submitted, and
    one with an object for a wallet is stored as submitted apart from its key. -/
theorem keepsWalletKey (aes : Aes) (haes : aes.Correct) (production : Bool) (registry : KeyRegistry)
    (nonce : Nonce) (s : Store) (command : UpdateBotCommand) (bot : Bot) (incoming : Value)
    (hbot : s.findBot command.botId = some bot) (hincoming : command.config = some incoming) :
    (∀ stored key, bot.config = some stored → walletKey? stored = some key →
      (CarriesWallet incoming →
        (UpdateBotHandler.after aes production registry nonce s command).KeyReads aes registry
          command.botId key) ∧
      (stored.jsonCopy = some stored → CarriesWallet (maskWalletPrivateKey stored))) ∧
    ∀ s' bot', UpdateBotHandler.handle aes production registry nonce s command = .ok (s', bot') →
      s'.findBot command.botId = some bot' ∧ ∃ config, bot'.config = some config ∧
        ((walletOf incoming).truthy = false → config = incoming) ∧
        ((∃ fields, walletOf incoming = .obj fields) → eraseKey config = eraseKey incoming) :=
  ⟨fun _ _ hstored hkey =>
    ⟨UpdateBotHandler.keyReads_after haes hbot hincoming hstored hkey, carriesWallet_mask hkey⟩,
    fun _ _ => UpdateBotHandler.of_handle_eq_ok hbot hincoming⟩

section Sample

/-- `s3cret` as it is stored. -/
def sampleWalletKey : String :=
  "enc:v1:000102030405060708090a0b0c0d0e0f:418d29daa5c8e2162c1a06d0f06ba0af:a5aacce93a0a"

def walletBot : Bot where
  id := "b1"
  ownerId := "u1"
  accountId := "a1"
  name := "trader"
  platform := "crypto"
  createdAt := 0
  config := some (.obj [("crypto", .obj [("wallet", .obj [("privateKey", .str sampleWalletKey)])])])
  status := "idle"

def walletStore : Store where
  accounts := []
  bots := [walletBot]
  scripts := []
  logs := []
  jobs := []

/-- An update with the given crypto part. -/
def sendsCrypto (crypto : List (String × Value)) : UpdateBotCommand :=
  ⟨"b1", none, some (.obj crypto)⟩

/-- An edit of the config that the bot is shown with. -/
def editedCrypto : List (String × Value) :=
  [("crypto", .obj [("wallet", .obj []), ("pollInterval", .num 5000)])]

theorem keepsWalletKey_edited :
    (∀ stored key, walletBot.config = some stored → walletKey? stored = some key →
      (CarriesWallet (.obj editedCrypto) →
        (UpdateBotHandler.after sampleAes true sampleRegistry sampleNonce walletStore
          (sendsCrypto editedCrypto)).KeyReads sampleAes sampleRegistry "b1" key) ∧
      (stored.jsonCopy = some stored → CarriesWallet (maskWalletPrivateKey stored))) ∧
    ∀ s' bot', UpdateBotHandler.handle sampleAes true sampleRegistry sampleNonce walletStore
        (sendsCrypto editedCrypto) = .ok (s', bot') →
      s'.findBot "b1" = some bot' ∧ ∃ config, bot'.config = some config ∧
        ((walletOf (.obj editedCrypto)).truthy = false → config = .obj editedCrypto) ∧
        ((∃ fields, walletOf (.obj editedCrypto) = .obj fields) →
          eraseKey config = eraseKey (.obj editedCrypto)) :=
  keepsWalletKey sampleAes sampleAes_correct true sampleRegistry sampleNonce walletStore
    (sendsCrypto editedCrypto) walletBot (.obj editedCrypto) rfl rfl

/-- A config without a crypto part loses the key, and a text for a wallet does not stay one. -/
theorem not_keepsWalletKey_empty :
    walletStore.findBot "b1" = some walletBot ∧
      walletBot.config.bind walletKey? = some sampleWalletKey ∧ walletKey? (.obj []) = none ∧
      ¬(UpdateBotHandler.after sampleAes true sampleRegistry sampleNonce walletStore
        (sendsCrypto [])).KeyReads sampleAes sampleRegistry "b1" sampleWalletKey ∧
      ∃ s' bot' config, UpdateBotHandler.handle sampleAes true sampleRegistry sampleNonce walletStore
          (sendsCrypto [("crypto", .obj [("wallet", .str "abc")])]) = .ok (s', bot') ∧
        bot'.config = some config ∧
        eraseKey config ≠ eraseKey (.obj [("crypto", .obj [("wallet", .str "abc")])]) := by
  refine ⟨rfl, rfl, rfl, ?_, ?_⟩
  · rintro ⟨bot, hbot, hreads⟩
    have hread : decryptCredential sampleAes sampleRegistry (some sampleWalletKey) =
        some "s3cret" := by decide
    obtain rfl := Option.some.inj hbot
    rw [hread] at hreads
    cases hreads
  · refine ⟨_, _, _, rfl, rfl, fun heq => ?_⟩
    have htext := congrArg (fun config => (walletOf config).text?) heq
    cases htext

end Sample

end BotHive.Bots
