import Mathlib.Data.List.Infix
import BotHive.Bots.Routes
import BotHive.Credentials.RoundTrip
import BotHive.Library.Fallible

/-!
# Whether the wallet key leaves the API

The list and the detail route take the wallet key out of the config that they answer with.
The create route and the update route answer with the row: what they answer with depends on
the stored key, or contains a new one, exactly when the row has a key.

## Main definitions

- `Tables.rekeyed`: other keys in the place of the stored ones
- `KeepsKeysPrivate`: no reply contains a key, and none depends on the stored ones
- `ShowsNoKey`: the requests after which there is no key in the row that is answered with

## Main results

- `publicBot_rekeyed`: a bot as it is shown does not depend on its key
- `keepsKeysPrivate_iff`: a request that succeeds keeps the keys private exactly when it
  shows no key
- `not_keepsKeysPrivate`: renaming a bot answers with its key
-/

namespace BotHive.Bots

open Backup (objectField setField walletKey? setWalletKey removeField maskWalletPrivateKey
  objectField_setField ownField_setField byCreation)
open Credentials

/-- The bot with another key in the place of its own. -/
def Bot.rekeyed (keys : String → String) (b : Bot) : Bot :=
  match b.walletKey with
  | none => b
  | some _ => { b with config := b.config.map (setWalletKey (keys b.id)) }

/-- The tables with other keys in the place of the stored ones. -/
def Tables.rekeyed (keys : String → String) (t : Tables) : Tables :=
  { t with bots := t.bots.map (Bot.rekeyed keys) }

/-- No bot in the reply has a key, and the reply is the same for whatever keys are stored. -/
def KeepsKeysPrivate (env : BotEnv) (db : Database) (ownerId : String) (request : BotRequest) :
    Prop :=
  (∀ b ∈ (respond env db.toTables ownerId request).botRows, b.walletKey = none) ∧
    ∀ (keys : String → String) (db' : Database), db'.toTables = db.rekeyed keys →
      respond env db'.toTables ownerId request = respond env db.toTables ownerId request

/-- There is no key in the row that a request creates or leaves behind: a new crypto bot
    brings a wallet without a key, an update finds no stored key and sends none, or it sends
    a config without a wallet. -/
def ShowsNoKey (t : Tables) : BotRequest → Prop
  | .list _ | .get _ | .create none | .update _ none => True
  | .create (some body) =>
    storedKey (body.config.getD .empty).value = none ∧
      (body.platform = "crypto" → walletOf (body.config.getD .empty).value ≠ .undefined)
  | .update id (some body) => ∀ b, t.findBot id = some b →
    match body.config with
    | none => b.walletKey = none
    | some config => walletOf config.value = .undefined ∨
        storedKey config.value = none ∧ b.walletKey = none

-- ════════════════════════════════════════════════════════════════════════
-- Keys that are written
-- ════════════════════════════════════════════════════════════════════════

section Keys

theorem putField_obj (name : String) (v : Value) {x : Value} (hx : ∃ fields, x = .obj fields) :
    ∃ fields, putField name v x = .obj fields := by
  obtain ⟨fields, rfl⟩ := hx
  rw [putField]
  split_ifs
  · exact ⟨_, rfl⟩
  · exact ⟨_, rfl⟩

theorem assign_obj (entries : List (String × Value)) {x : Value} (hx : ∃ fields, x = .obj fields) :
    ∃ fields, assign entries x = .obj fields := by
  induction entries generalizing x with
  | nil => exact hx
  | cons e rest ih => exact ih (putField_obj e.1 e.2 hx)

theorem objectField_assign {name : String} {entries : List (String × Value)}
    (h : name ∉ entries.map Prod.fst) (x : Value) :
    objectField name (assign entries x) = objectField name x := by
  induction entries generalizing x with
  | nil => rfl
  | cons e rest ih =>
    rw [List.map_cons, List.mem_cons, not_or] at h
    exact (ih h.2 _).trans (objectField_putField_of_ne h.1 x e.2)

/-- The key of a config whose wallet has been written. -/
theorem storedKey_putField {config crypto : Value} (hconfig : ∃ fields, config = .obj fields)
    (hcrypto : ∃ fields, crypto = .obj fields) (wallet : Value) :
    storedKey (putField "crypto" (putField "wallet" wallet crypto) config) =
      present (objectField "privateKey" wallet).text? := by
  rw [storedKey, walletKey?, objectField_putField hconfig, objectField_putField hcrypto]

theorem objectField_of_not_obj {name : String} {x : Value} (hx : ¬ ∃ fields, x = .obj fields) :
    objectField name x = .undefined := by
  cases x with
  | obj fields => exact absurd ⟨fields, rfl⟩ hx
  | _ => rfl

theorem obj_of_objectField (name : String) {x : Value} (h : objectField name x ≠ .undefined) :
    ∃ fields, x = .obj fields := by
  by_contra hx
  exact h (objectField_of_not_obj hx)

/-- The key that a config is given. -/
theorem storedKey_withWalletKey {config : Value} (hwallet : ∃ fields, walletOf config = .obj fields)
    (key : Value) : storedKey (withWalletKey key config) = present key.text? := by
  have hcrypto : ∃ fields, cryptoOf config = .obj fields := by
    refine obj_of_objectField "wallet" fun h => ?_
    obtain ⟨fields, hfields⟩ := hwallet
    rw [walletOf, h] at hfields
    cases hfields
  have hconfig : ∃ fields, config = .obj fields := by
    refine obj_of_objectField "crypto" fun h => ?_
    obtain ⟨fields, hfields⟩ := hcrypto
    rw [cryptoOf, h] at hfields
    cases hfields
  rw [withWalletKey, storedKey_putField hconfig hcrypto, objectField_putField hwallet]

variable {aes : Aes} {production : Bool} {registry : KeyRegistry}

theorem encryptCredential_ne_empty {value s : String} {nonce : Nonce} (hvalue : value ≠ "")
    (h : encryptCredential aes production registry value nonce = .ok s) : s ≠ "" := by
  by_cases hkey : registry.key = ""
  · rw [encryptCredential, if_pos hkey] at h
    split_ifs at h
    cases h
    exact hvalue
  · rw [encryptCredential_eq hkey] at h
    cases h
    exact storedForm_ne_empty value nonce

/-- A key stays a key when it is encrypted. -/
theorem ensureEncrypted_key {value : String} {nonce : Nonce} {r : Option String}
    (hvalue : value ≠ "")
    (h : ensureEncrypted aes production registry (some value) nonce = .ok r) :
    ∃ key, key ≠ "" ∧ r = some key := by
  rw [ensureEncrypted, present_some hvalue] at h
  dsimp only at h
  split at h
  · cases h
    exact ⟨value, hvalue, rfl⟩
  · obtain ⟨s, hs, rfl⟩ := Except.map_eq_ok_iff.mp h
    exact ⟨s, encryptCredential_ne_empty hvalue hs, rfl⟩

/-- What a config without a key lacks. -/
theorem BotConfig.storedKey_eq_none_iff (config : BotConfig) :
    storedKey config.value = none ↔ (objectField "privateKey" (walletOf config.value)).text? = none := by
  have hkey : storedKey config.value =
      present (objectField "privateKey" (walletOf config.value)).text? := rfl
  rw [hkey]
  rcases config.privateKey with h | ⟨key, hne, h⟩
  · rw [h]
    exact iff_of_true rfl rfl
  · rw [h]
    show present (some key) = none ↔ some key = none
    rw [present_some hne]

theorem BotConfig.key_ne (config : BotConfig) {key : String}
    (h : (objectField "privateKey" (walletOf config.value)).text? = some key) : key ≠ "" := by
  rcases config.privateKey with hnone | ⟨key', hne, hkey⟩
  · rw [hnone] at h
    cases h
  · rw [hkey] at h
    cases h
    exact hne

/-- A new wallet has no key exactly when one without a key was sent. -/
theorem key_createWallet {generated : EVMWallet} {nonce : Nonce} {wallet wallet' : Value}
    (hform : wallet = .undefined ∨ ∃ fields, wallet = .obj fields)
    (hkey : ∀ {key}, (objectField "privateKey" wallet).text? = some key → key ≠ "")
    (h : createWallet aes production registry generated nonce wallet = .ok wallet') :
    present (objectField "privateKey" wallet').text? = none ↔
      wallet ≠ .undefined ∧ (objectField "privateKey" wallet).text? = none := by
  rcases hform with rfl | ⟨fields, rfl⟩
  · obtain ⟨key, hencrypt, rfl⟩ := Except.map_eq_ok_iff.mp h
    have hne := encryptCredential_ne_empty generated.privateKey_ne hencrypt
    refine iff_of_false (fun hnone => ?_) fun hundefined => hundefined.1 rfl
    have hsome : present (some key) = none := hnone
    rw [present_some hne] at hsome
    cases hsome
  · simp only [createWallet] at h
    cases hold : (objectField "privateKey" (Value.obj fields)).text? with
    | none =>
      rw [hold] at h
      cases h
      rw [hold]
      exact iff_of_true rfl ⟨nofun, rfl⟩
    | some key =>
      rw [hold] at h
      obtain ⟨r, hr, rfl⟩ := Except.map_eq_ok_iff.mp h
      obtain ⟨key', hne, rfl⟩ := ensureEncrypted_key (hkey hold) hr
      have hfield : objectField "privateKey" (Value.obj fields) ≠ .undefined := by
        intro hundefined
        rw [hundefined] at hold
        cases hold
      rw [objectField_setField hfield]
      refine iff_of_false (fun hnone => ?_) fun hnone => nomatch hnone.2
      have hsome : present (some key') = none := hnone
      rw [present_some hne] at hsome
      cases hsome

theorem newCrypto_obj (generated : CryptoConfig) (config : Value) :
    ∃ fields, newCrypto generated config = .obj fields := by
  have hbase : ∃ fields, cryptoOrEmpty config = .obj fields := by
    rw [cryptoOrEmpty]
    split
    · exact ⟨_, rfl⟩
    · exact ⟨_, rfl⟩
  rw [newCrypto]
  split
  · exact assign_obj generated.entries hbase
  · exact hbase

/-- What is made up for a crypto bot leaves the wallet as it is. -/
theorem objectField_newCrypto (config : BotConfig) {generated : CryptoConfig} :
    objectField "wallet" (newCrypto generated config.value) = walletOf config.value := by
  have hbase : objectField "wallet" (cryptoOrEmpty config.value) = walletOf config.value := by
    rw [cryptoOrEmpty, walletOf]
    rcases config.crypto with h | ⟨fields, h⟩
    · rw [h]
      rfl
    · rw [h]
  have hnames : "wallet" ∉ generated.entries.map Prod.fst := by
    simp [CryptoConfig.entries]
  rw [newCrypto]
  split
  · rw [objectField_assign hnames, hbase]
  · exact hbase

/-- The config of a new bot has no key exactly when the request sends none, and a wallet if
    it is for a crypto bot. -/
theorem storedKey_createConfig {platform : String} {generated : CryptoConfig} {wallet : EVMWallet}
    {nonce : Nonce} {config : BotConfig} {value : Value}
    (h : createConfig aes production registry platform generated wallet nonce config = .ok value) :
    storedKey value = none ↔ storedKey config.value = none ∧
      (platform = "crypto" → walletOf config.value ≠ .undefined) := by
  rw [createConfig] at h
  split_ifs at h with hplatform
  · obtain ⟨wallet', hwallet, rfl⟩ := Except.map_eq_ok_iff.mp h
    rw [objectField_newCrypto config] at hwallet
    rw [storedKey_putField config.record (newCrypto_obj generated config.value),
      key_createWallet config.wallet config.key_ne hwallet, config.storedKey_eq_none_iff]
    exact ⟨fun hnone => ⟨hnone.2, fun _ => hnone.1⟩, fun hnone => ⟨hnone.2 hplatform, hnone.1⟩⟩
  · cases h
    exact ⟨fun hnone => ⟨hnone, fun hcrypto => absurd hcrypto hplatform⟩, And.left⟩

theorem bind_storedKey (stored : Option Value) :
    stored.bind storedKey = present (stored.bind walletKey?) := by
  cases stored <;> rfl

/-- The config of an updated bot has no key exactly when it has no wallet, or none was sent
    and none was stored. -/
theorem storedKey_preserveWalletKey {nonce : Nonce} {stored : Option Value} {incoming : BotConfig}
    {value : Value}
    (h : preserveWalletKey aes production registry nonce stored incoming = .ok value) :
    storedKey value = none ↔ walletOf incoming.value = .undefined ∨
      storedKey incoming.value = none ∧ stored.bind storedKey = none := by
  have hundefined : walletOf incoming.value = .undefined → storedKey incoming.value = none := by
    intro hwallet
    rw [incoming.storedKey_eq_none_iff, hwallet]
    rfl
  rcases incoming.wallet with hwallet | ⟨fields, hwallet⟩
  · simp only [preserveWalletKey, hwallet] at h
    cases h
    exact iff_of_true (hundefined hwallet) (.inl hwallet)
  · have hne : walletOf incoming.value ≠ .undefined := by
      rw [hwallet]
      exact nofun
    have hwritten := storedKey_withWalletKey ⟨fields, hwallet⟩
    have hsent := incoming.storedKey_eq_none_iff
    simp only [preserveWalletKey, hwallet] at h
    rw [hwallet] at hsent
    cases hkey : (objectField "privateKey" (Value.obj fields)).text? with
    | some key =>
      have hkey_ne : key ≠ "" := incoming.key_ne (by rw [hwallet, hkey])
      rw [hkey] at h hsent
      -- a key that is sent is stored
      have hstored : storedKey value ≠ none := by
        dsimp only at h
        split at h
        · cases h
          exact fun hnone => nomatch hsent.mp hnone
        · obtain ⟨s, hs, rfl⟩ := Except.map_eq_ok_iff.mp h
          rw [hwritten]
          show present (some s) ≠ none
          rw [present_some (encryptCredential_ne_empty hkey_ne hs)]
          exact nofun
      refine iff_of_false hstored ?_
      rintro (hundef | ⟨hnone, -⟩)
      · exact hne hundef
      · exact nomatch hsent.mp hnone
    | none =>
      rw [hkey] at h hsent
      have hnone : storedKey incoming.value = none := hsent.mpr rfl
      dsimp only at h
      split at h
      case h_1 hstored =>
        cases h
        rw [bind_storedKey, hstored]
        exact iff_of_true hnone (.inr ⟨hnone, rfl⟩)
      case h_2 key hstored =>
        obtain ⟨r, hr, rfl⟩ := Except.map_eq_ok_iff.mp h
        rw [bind_storedKey, hstored, hwritten]
        by_cases hempty : key = ""
        · subst hempty
          cases hr
          exact iff_of_true rfl (.inr ⟨hnone, rfl⟩)
        · obtain ⟨key', hkey', rfl⟩ := ensureEncrypted_key hempty hr
          show present (some key') = none ↔ _
          rw [present_some hkey', present_some hempty]
          refine iff_of_false nofun ?_
          rintro (hundef | ⟨-, hsome⟩)
          · exact hne hundef
          · cases hsome

end Keys

-- ════════════════════════════════════════════════════════════════════════
-- Bots as they are shown
-- ════════════════════════════════════════════════════════════════════════

section Shown

variable {db db' : Database} {keys : String → String} {b : Bot}

theorem walletKey?_ne_none (h : b.walletKey ≠ none) : ∃ config key,
    b.config = some config ∧ walletKey? config = some key := by
  rw [Bot.walletKey, bind_storedKey] at h
  cases hkey : b.config.bind walletKey? with
  | none =>
    rw [hkey] at h
    exact absurd rfl h
  | some key =>
    obtain ⟨config, hconfig, hkey⟩ := Option.bind_eq_some_iff.mp hkey
    exact ⟨config, key, hconfig, hkey⟩

theorem rekeyed_of_none (h : b.walletKey = none) : b.rekeyed keys = b := by
  rw [Bot.rekeyed, h]

theorem rekeyed_of_some (keys : String → String) {config : Value} {key : String}
    (hconfig : b.config = some config)
    (h : b.walletKey = some key) :
    b.rekeyed keys = { b with config := some (setWalletKey (keys b.id) config) } := by
  rw [Bot.rekeyed, h, hconfig, Option.map_some]

/-- Another key changes the config only. -/
theorem rekeyed_eq (keys : String → String) (b : Bot) :
    b.rekeyed keys = { b with config := (b.rekeyed keys).config } := by
  rw [Bot.rekeyed]
  split <;> rfl

/-- What a config is shown as; it is its own JSON copy. -/
theorem mask_eq {config : Value} (hjson : config.jsonCopy = some config) :
    maskWalletPrivateKey config =
      setField "crypto" (setField "wallet" (removeField "privateKey" (walletOf config))
        (cryptoOf config)) config := by
  rw [maskWalletPrivateKey, hjson]
  cases config <;> rfl

/-- A shown config does not depend on its key. -/
theorem mask_setWalletKey {config : Value} (key : String) (hkey : walletKey? config ≠ none)
    (hjson : config.jsonCopy = some config)
    (hjson' : (setWalletKey key config).jsonCopy = some (setWalletKey key config)) :
    maskWalletPrivateKey (setWalletKey key config) = maskWalletPrivateKey config := by
  have hwallet : walletOf config ≠ .undefined := by
    intro h
    refine hkey ?_
    show (objectField "privateKey" (walletOf config)).text? = none
    rw [h]
    rfl
  have hcrypto : cryptoOf config ≠ .undefined := by
    intro h
    rw [walletOf, h] at hwallet
    exact hwallet rfl
  have hcryptoOf : cryptoOf (setWalletKey key config) =
      setField "wallet" (setField "privateKey" (.str key) (walletOf config)) (cryptoOf config) :=
    objectField_setField hcrypto _
  have hwalletOf : walletOf (setWalletKey key config) =
      setField "privateKey" (.str key) (walletOf config) := by
    rw [walletOf, hcryptoOf]
    exact objectField_setField hwallet _
  rw [mask_eq hjson', mask_eq hjson, hwalletOf, hcryptoOf, removeField_setField, setField_setField]
  rw [setWalletKey]
  exact setField_setField _ _ _ _

/-- A field reads as what was written, if there is such a field. -/
theorem objectField_setField_or (name : String) (v x : Value) :
    objectField name (setField name v x) = v ∨ objectField name (setField name v x) = .undefined := by
  cases x with
  | obj fields =>
    rw [setField, objectField, ownField_setField]
    cases Value.ownField name fields with
    | none => exact .inr rfl
    | some y => exact .inl rfl
  | _ => exact .inr rfl

/-- A shown config has no key. -/
theorem storedKey_mask {config : Value} (hjson : config.jsonCopy = some config) :
    storedKey (maskWalletPrivateKey config) = none := by
  rw [mask_eq hjson, storedKey, walletKey?]
  rcases objectField_setField_or "crypto" (setField "wallet" (removeField "privateKey"
    (walletOf config)) (cryptoOf config)) config with h | h
  · rw [h]
    rcases objectField_setField_or "wallet" (removeField "privateKey" (walletOf config))
      (cryptoOf config) with h | h
    · rw [h, objectField_removeField]
      rfl
    · rw [h]
      rfl
  · rw [h]
    rfl

/-- **Masking**: a bot as it is shown does not depend on its key. -/
theorem publicBot_rekeyed (hb : ∀ config, b.config = some config → config.jsonCopy = some config)
    (hb' : ∀ config, (b.rekeyed keys).config = some config → config.jsonCopy = some config) :
    publicBot (b.rekeyed keys) = publicBot b := by
  by_cases hkey : b.walletKey = none
  · rw [rekeyed_of_none hkey]
  · obtain ⟨config, key, hconfig, hwallet⟩ := walletKey?_ne_none hkey
    obtain ⟨stored, hstored⟩ := Option.ne_none_iff_exists'.mp hkey
    have hrekeyed := rekeyed_of_some keys hconfig hstored
    rw [hrekeyed] at hb' ⊢
    have hmask := mask_setWalletKey (keys b.id) (by rw [hwallet]; exact nofun)
      (hb config hconfig) (hb' _ rfl)
    simp only [publicBot, Option.map_some, hmask, hconfig]

theorem walletKey_publicBot
    (hb : ∀ config, b.config = some config → config.jsonCopy = some config) :
    (publicBot b).walletKey = none := by
  rw [Bot.walletKey, publicBot]
  cases hconfig : b.config with
  | none => rfl
  | some config => exact storedKey_mask (hb config hconfig)

end Shown

-- ════════════════════════════════════════════════════════════════════════
-- The routes
-- ════════════════════════════════════════════════════════════════════════

section Routes

variable {env : BotEnv} {db db' : Database} {ownerId : String} {keys : String → String}

/-- Rows are put in order by columns that a change keeps. -/
theorem byCreation_map {R : Type*} {createdAt : R → ℕ} {id : R → String} {f : R → R}
    (hcreatedAt : ∀ r, createdAt (f r) = createdAt r) (hid : ∀ r, id (f r) = id r) (rows : List R) :
    byCreation createdAt id (rows.map f) = (byCreation createdAt id rows).map f := by
  rw [byCreation, byCreation]
  refine (List.map_mergeSort fun a _ b _ => ?_).symm
  simp only [hcreatedAt, hid]

theorem rekeyed_createdAt (b : Bot) : (b.rekeyed keys).createdAt = b.createdAt := by
  rw [rekeyed_eq]

theorem rekeyed_id (b : Bot) : (b.rekeyed keys).id = b.id := by
  rw [rekeyed_eq]

theorem rekeyed_ownerId (b : Bot) : (b.rekeyed keys).ownerId = b.ownerId := by
  rw [rekeyed_eq]

theorem rekeyed_accountId (b : Bot) : (b.rekeyed keys).accountId = b.accountId := by
  rw [rekeyed_eq]

theorem admits_rekeyed (query : ListQuery) (b : Bot) :
    query.admits env ownerId (b.rekeyed keys) = query.admits env ownerId b := by
  rw [rekeyed_eq]
  rfl

variable (hkeys : db'.toTables = db.rekeyed keys)
include hkeys

theorem publicBot_stored {b : Bot} (hb : b ∈ db.bots) :
    publicBot (b.rekeyed keys) = publicBot b := by
  refine publicBot_rekeyed (db.botConfigs b hb) (db'.botConfigs _ ?_)
  rw [hkeys]
  exact List.mem_map_of_mem hb

theorem listBots_rekeyed (query : ListQuery) :
    listBots env db'.toTables ownerId query = listBots env db.toTables ownerId query := by
  rw [hkeys, listBots, listBots]
  split_ifs
  · have hrows : byCreation (fun b : Bot => b.createdAt) (fun b => b.id)
        ((db.rekeyed keys).bots.filter (query.admits env ownerId)) =
        (byCreation (fun b : Bot => b.createdAt) (fun b => b.id)
          (db.bots.filter (query.admits env ownerId))).map (Bot.rekeyed keys) := by
      rw [← byCreation_map (f := Bot.rekeyed keys) rekeyed_createdAt rekeyed_id]
      refine congrArg _ ?_
      show (db.bots.map (Bot.rekeyed keys)).filter _ = _
      rw [List.filter_map]
      refine congrArg _ (List.filter_congr fun b _ => ?_)
      exact admits_rekeyed query b
    dsimp only
    rw [hrows, ← List.map_reverse, ← List.map_drop, ← List.map_take, List.map_map]
    refine congrArg Reply.bots (List.map_congr_left fun b hb => ?_)
    have hmem : b ∈ db.bots := by
      have hrow := List.mem_reverse.mp (List.mem_of_mem_drop (List.mem_of_mem_take hb))
      exact List.mem_of_mem_filter (List.mem_mergeSort.mp hrow)
    simp only [Function.comp_apply, publicBot_stored hkeys hmem, rekeyed_accountId, rekeyed_id]
    rfl
  · rfl

theorem findOwnBot_rekeyed (id : String) :
    db'.findOwnBot ownerId id = (db.findOwnBot ownerId id).map (Bot.rekeyed keys) := by
  rw [hkeys, Tables.findOwnBot, Tables.findOwnBot]
  show (db.bots.map (Bot.rekeyed keys)).find? _ = _
  rw [List.find?_map]
  refine congrArg (fun p => (db.bots.find? p).map _) (funext fun b => ?_)
  simp only [Function.comp_apply, rekeyed_id, rekeyed_ownerId]

theorem findBot_rekeyed (id : String) :
    db'.findBot id = (db.findBot id).map (Bot.rekeyed keys) := by
  rw [hkeys, Tables.findBot, Tables.findBot]
  show (db.bots.map (Bot.rekeyed keys)).find? _ = _
  rw [List.find?_map]
  refine congrArg (fun p => (db.bots.find? p).map _) (funext fun b => ?_)
  simp only [Function.comp_apply, rekeyed_id]

theorem getBot_rekeyed (id : String) :
    getBot db'.toTables ownerId id = getBot db.toTables ownerId id := by
  rw [getBot, getBot, findOwnBot_rekeyed hkeys]
  cases hfind : db.findOwnBot ownerId id with
  | none => rfl
  | some b =>
    have hb : b ∈ db.bots := List.mem_of_find?_eq_some hfind
    rw [Option.map_some]
    dsimp only
    rw [publicBot_stored hkeys hb, rekeyed_id, rekeyed_accountId, hkeys]
    rfl

theorem createBot_rekeyed (body : Option CreateBody) :
    createBot env db'.toTables ownerId body = createBot env db.toTables ownerId body := by
  have hcount : db'.bots.countP (fun b => b.ownerId = ownerId) =
      db.bots.countP fun b => b.ownerId = ownerId := by
    rw [hkeys]
    show (db.bots.map (Bot.rekeyed keys)).countP _ = _
    rw [List.countP_map]
    refine List.countP_congr fun b _ => ?_
    simp only [Function.comp_apply, rekeyed_ownerId]
  have haccounts : db'.accounts = db.accounts := by
    rw [hkeys]
    rfl
  cases body with
  | none => rfl
  | some body =>
    simp only [createBot, hcount, haccounts]

omit hkeys in
/-- The row that an update stores when no key goes into it. -/
theorem updatedBot_rekeyed {body : UpdateBody} {b : Bot}
    (h : match body.config with
      | none => b.walletKey = none
      | some config => walletOf config.value = .undefined ∨
          storedKey config.value = none ∧ b.walletKey = none) :
    updatedBot env body (b.rekeyed keys) = updatedBot env body b := by
  cases hconfig : body.config with
  | none =>
    rw [hconfig] at h
    rw [rekeyed_of_none h]
  | some config =>
    rw [hconfig] at h
    rcases h with hwallet | ⟨-, hnone⟩
    · rw [updatedBot, updatedBot, hconfig]
      dsimp only
      rw [preserveWalletKey, preserveWalletKey, hwallet]
      dsimp only
      rw [rekeyed_eq]
    · rw [rekeyed_of_none hnone]

theorem updateBot_rekeyed {id : String} {body : Option UpdateBody}
    (h : ShowsNoKey db.toTables (.update id body)) :
    updateBot env db'.toTables ownerId id body = updateBot env db.toTables ownerId id body := by
  cases body with
  | none => rfl
  | some body =>
    rw [updateBot, updateBot, findOwnBot_rekeyed hkeys]
    cases db.findOwnBot ownerId id with
    | none => rfl
    | some own =>
      dsimp only [Option.map_some]
      rw [updateHandler, updateHandler, findBot_rekeyed hkeys]
      cases hfind : db.findBot id with
      | none => rfl
      | some b =>
        dsimp only [Option.map_some]
        rw [updatedBot_rekeyed (h b hfind)]

/-- A request that shows no key does not depend on the stored keys. -/
theorem respond_rekeyed {request : BotRequest} (h : ShowsNoKey db.toTables request) :
    respond env db'.toTables ownerId request = respond env db.toTables ownerId request := by
  cases request with
  | list query => exact listBots_rekeyed hkeys query
  | get id => exact getBot_rekeyed hkeys id
  | create body => exact createBot_rekeyed hkeys body
  | update id body => exact updateBot_rekeyed hkeys h

omit hkeys in
theorem key_createBot_iff {body : Option CreateBody}
    (hok : (createBot env db.toTables ownerId body).succeeded = true) :
    (∀ b ∈ (createBot env db.toTables ownerId body).botRows, b.walletKey = none) ↔
      ShowsNoKey db.toTables (.create body) := by
  cases body with
  | none => cases hok
  | some body =>
    rw [createBot] at hok ⊢
    split at hok
    · cases hok
    case h_2 account hfind =>
      split_ifs at hok ⊢ with hplatform hquota
      · cases hok
      · cases hok
      · split at hok
        · cases hok
        case h_2 config hconfig =>
          show (∀ b ∈ [_], _) ↔ _
          rw [List.forall_mem_singleton]
          exact storedKey_createConfig hconfig

omit hkeys in
theorem key_updatedBot_iff {body : UpdateBody} {b b' : Bot} (h : updatedBot env body b = .ok b') :
    b'.walletKey = none ↔
      match body.config with
      | none => b.walletKey = none
      | some config => walletOf config.value = .undefined ∨
          storedKey config.value = none ∧ b.walletKey = none := by
  cases hconfig : body.config with
  | none =>
    rw [updatedBot, hconfig] at h
    cases h
    rfl
  | some config =>
    rw [updatedBot, hconfig] at h
    obtain ⟨value, hvalue, rfl⟩ := Except.map_eq_ok_iff.mp h
    exact storedKey_preserveWalletKey hvalue

omit hkeys in
theorem key_updateBot_iff {id : String} {body : Option UpdateBody}
    (hok : (updateBot env db.toTables ownerId id body).succeeded = true) :
    (∀ b ∈ (updateBot env db.toTables ownerId id body).botRows, b.walletKey = none) ↔
      ShowsNoKey db.toTables (.update id body) := by
  cases body with
  | none => cases hok
  | some body =>
    rw [updateBot] at hok ⊢
    split at hok
    · cases hok
    case h_2 own hown =>
      rw [updateHandler] at hok ⊢
      cases hfind : db.findBot id with
      | none =>
        rw [hfind] at hok
        cases hok
      | some b =>
        rw [hfind] at hok
        dsimp only at hok ⊢
        cases hupdated : updatedBot env body b with
        | error message =>
          rw [hupdated] at hok
          cases hok
        | ok b' =>
          dsimp only
          show (∀ b ∈ [_], _) ↔ _
          rw [List.forall_mem_singleton, key_updatedBot_iff hupdated]
          constructor
          · intro h found hfound
            rw [hfind] at hfound
            cases hfound
            exact h
          · intro h
            exact h b hfind

omit hkeys in
theorem key_listBots (query : ListQuery) :
    ∀ b ∈ (listBots env db.toTables ownerId query).botRows, b.walletKey = none := by
  rw [listBots]
  split_ifs
  · intro b hb
    show b.walletKey = none
    simp only [Reply.botRows, List.map_map, List.mem_map, Function.comp_apply] at hb
    obtain ⟨row, hrow, rfl⟩ := hb
    have hmem : row ∈ db.bots := by
      have hrow := List.mem_reverse.mp (List.mem_of_mem_drop (List.mem_of_mem_take hrow))
      exact List.mem_of_mem_filter (List.mem_mergeSort.mp hrow)
    exact walletKey_publicBot (db.botConfigs row hmem)
  · exact nofun

omit hkeys in
theorem key_getBot (id : String) :
    ∀ b ∈ (getBot db.toTables ownerId id).botRows, b.walletKey = none := by
  rw [getBot]
  split
  · exact nofun
  case h_2 row hfind =>
    intro b hb
    obtain rfl := List.mem_singleton.mp hb
    exact walletKey_publicBot (db.botConfigs row (List.mem_of_find?_eq_some hfind))

omit hkeys in
/-- **Privacy of wallet keys**: a request to the bot routes that succeeds keeps the keys
    private exactly when the row that it creates or updates has none. -/
theorem keepsKeysPrivate_iff (env : BotEnv) (db : Database) (ownerId : String)
    (request : BotRequest)
    (hok : (respond env db.toTables ownerId request).succeeded = true) :
    KeepsKeysPrivate env db ownerId request ↔ ShowsNoKey db.toTables request := by
  have hrows : (∀ b ∈ (respond env db.toTables ownerId request).botRows, b.walletKey = none) ↔
      ShowsNoKey db.toTables request := by
    cases request with
    | list query => exact iff_of_true (key_listBots query) trivial
    | get id => exact iff_of_true (key_getBot id) trivial
    | create body => exact key_createBot_iff hok
    | update id body => exact key_updateBot_iff hok
  constructor
  · intro h
    exact hrows.mp h.1
  · intro h
    exact ⟨hrows.mpr h, fun keys db' hkeys => respond_rekeyed hkeys h⟩

end Routes

section Renamed

def sampleConfig : Value :=
  .obj [("crypto", .obj [("wallet", .obj [
    ("address", .str "0x00000000000000000000000000000000000000a1"),
    ("privateKey", .str "enc:v1:00:00:00")])])]

theorem jsonCopy_sampleConfig : sampleConfig.jsonCopy = some sampleConfig := by
  refine Value.jsonCopy_obj (by decide) (List.forall_mem_singleton.mpr ?_)
  refine Value.jsonCopy_obj (by decide) (List.forall_mem_singleton.mpr ?_)
  refine Value.jsonCopy_obj (by decide) fun e he => ?_
  simp only [List.mem_cons, List.not_mem_nil, or_false] at he
  obtain rfl | rfl := he <;> rfl

/-- A crypto bot with a wallet. -/
def sampleDatabase : Database where
  accounts := []
  bots := [{
    id := "b1"
    ownerId := "u1"
    accountId := "a1"
    name := "trader"
    platform := "crypto"
    createdAt := 0
    config := some sampleConfig
    status := "idle" }]
  scripts := []
  logs := []
  botIds := by decide
  scriptIds := by decide
  botConfigs := by
    rintro b hb config hconfig
    obtain rfl := List.mem_singleton.mp hb
    obtain rfl := Option.some.inj hconfig
    exact jsonCopy_sampleConfig

def sampleEnv : BotEnv where
  aes := sampleAes
  production := true
  registry := sampleRegistry
  nonce := sampleNonce
  nameContains name q := decide (q.toList <:+: name.toList)
  maxBots := 10
  cuid := "b2"
  now := 1
  cryptoConfig := ⟨["BTCUSDT"], ["bitcoin"], "binance", "alert", [], 15000, 50⟩
  wallet := ⟨"0x00000000000000000000000000000000000000a2", "00", by decide⟩

/-- The detail route keeps the key private. -/
theorem keepsKeysPrivate_get :
    (respond sampleEnv sampleDatabase.toTables "u1" (.get "b1")).succeeded = true ∧
      (KeepsKeysPrivate sampleEnv sampleDatabase "u1" (.get "b1") ↔
        ShowsNoKey sampleDatabase.toTables (.get "b1")) :=
  ⟨rfl, keepsKeysPrivate_iff sampleEnv sampleDatabase "u1" (.get "b1") rfl⟩

/-- Renaming a bot answers with the stored key. -/
theorem not_keepsKeysPrivate_rename :
    (respond sampleEnv sampleDatabase.toTables "u1" (.update "b1" (some ⟨some "new", none⟩))).succeeded
        = true ∧
      ¬ KeepsKeysPrivate sampleEnv sampleDatabase "u1" (.update "b1" (some ⟨some "new", none⟩)) := by
  refine ⟨rfl, fun h => ?_⟩
  have hkey := h.1 _ (List.mem_singleton_self _)
  cases hkey

end Renamed

end BotHive.Bots
