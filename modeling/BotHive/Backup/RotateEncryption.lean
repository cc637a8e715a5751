import BotHive.Backup.Tables
import BotHive.Credentials.RoundTrip

/-!
# Rotation of the encryption key

`POST /rotate-encryption` writes the secrets of an owner anew under the current key, in one
loop for each kind of row. The loop over webhooks reaches those of the owner's bots, and
writes what `reencryptCredential` gives even when that is nothing. A rotation keeps every
secret exactly when the webhooks are such that neither matters.

## Main definitions

- `rotateEncryption`: the rotation
- `RotationKeeps`: every secret survives, and nothing else changes
- `WebhookFits`: the condition on a webhook

## Main results

- `secretKept_or_rotated`: what a rotation leaves in place of a secret keeps it
- `Rotation.rotateEncryption_eq`: what a rotation with a key does
-/

namespace BotHive.Backup

open Credentials

/-- Where a rotation may draw a nonce. -/
inductive Place where
  | account (id : String) (field : CredentialField)
  | pool (id : String) (index : ℕ) (secret : Bool)
  | proxy (id : String)
  | webhook (id : String)
  | wallet (id : String)

structure RotationStats where
  accounts : ℕ
  proxies : ℕ
  webhooks : ℕ
  bots : ℕ

/-- A loop over the rows that a query finds. Ids are unique, so that each update changes the
    row that it was made for; `rotate` gives the row that is written, if one is. -/
def rotateRows {α : Type*} (found : α → Bool) (rotate : α → Except String (Option α)) :
    List α → Except String (List α × ℕ)
  | [] => .ok ([], 0)
  | row :: rest => do
    let written ← if found row then rotate row else .ok none
    let (rows, count) ← rotateRows found rotate rest
    .ok (written.getD row :: rows, count + if written.isSome then 1 else 0)

/-- The cipher of the process, and the nonces that it draws. -/
structure Rotation where
  aes : Aes
  production : Bool
  registry : KeyRegistry
  nonces : Place → Nonce

/-- The webhook belongs to a bot of the owner. -/
def ofBotOf (owner : String) (bots : List BotRow) (w : WebhookRow) : Bool :=
  bots.any fun b => decide (w.botId = some b.id ∧ b.ownerId = owner)

namespace Rotation

variable (r : Rotation)

def reencrypt (value : Option String) (place : Place) : Except String (Option String) :=
  reencryptCredential r.aes r.production r.registry value (r.nonces place)

/-- What is written in place of a value: nothing when it stays or cannot be read. -/
def rotateValue (value : String) (place : Place) : Except String (Option String) := do
  let reencrypted ← r.reencrypt (some value) place
  .ok ((present reencrypted).filter (· ≠ value))

def rotateField (a : AccountRow) (field : CredentialField) : Except String (Option String) :=
  match present (a.credentials field) with
  | none => .ok none
  | some value => r.rotateValue value (.account a.id field)

/-- The updates of the credential columns. -/
def rotateFields (a : AccountRow) :
    List CredentialField → Except String (CredentialField → Option String)
  | [] => .ok fun _ => none
  | field :: rest => do
    let written ← r.rotateField a field
    let updates ← rotateFields a rest
    .ok (Function.update updates field written)

def rotatePairs (id : String) : ℕ → List KeyPair → Except String (List KeyPair)
  | _, [] => .ok []
  | i, pair :: rest => do
    let newApiKey ← r.reencrypt pair.apiKey (.pool id i false)
    let newApiSecret ← r.reencrypt pair.apiSecret (.pool id i true)
    let rotated ← rotatePairs id (i + 1) rest
    .ok (⟨newApiKey.or pair.apiKey, newApiSecret.or pair.apiSecret⟩ :: rotated)

/-- The pool that is written, if one of its keys has changed. -/
def rotatePool (a : AccountRow) : Except String (Option (List KeyPair)) :=
  match a.apiKeys with
  | none => .ok none
  | some apiKeys => do
    let rotated ← r.rotatePairs a.id 0 apiKeys
    .ok (if rotated = apiKeys then none else some rotated)

def rotateAccount (a : AccountRow) : Except String (Option AccountRow) := do
  let updates ← r.rotateFields a credentialFields
  let apiKeys ← r.rotatePool a
  if (∀ field ∈ credentialFields, updates field = none) ∧ apiKeys = none then .ok none
  else
    .ok (some { a with
      credentials := fun field => (updates field).or (a.credentials field)
      apiKeys := apiKeys.or a.apiKeys })

def rotateProxy (p : ProxyRow) : Except String (Option ProxyRow) := do
  let written ← r.rotateValue p.url (.proxy p.id)
  .ok (written.map fun url => { p with url := url })

/-- Unlike the other loops this one also writes that there is no secret any more. -/
def rotateWebhook (w : WebhookRow) : Except String (Option WebhookRow) :=
  match present w.secret with
  | none => .ok none
  | some secret => do
    let reencrypted ← r.reencrypt (some secret) (.webhook w.id)
    .ok (if reencrypted = some secret then none else some { w with secret := reencrypted })

def rotateBot (b : BotRow) : Except String (Option BotRow) :=
  match b.config with
  | none => .ok none
  | some config =>
    match present (walletKey? config) with
    | none => .ok none
    | some privateKey => do
      let written ← r.rotateValue privateKey (.wallet b.id)
      .ok (written.map fun key => { b with config := some (setWalletKey key config) })

/-- One transaction: when encryption throws, nothing is written. -/
def rotateEncryption (owner : String) (t : Tables) : Except String (Tables × RotationStats) := do
  let (accounts, accountsRotated) ← rotateRows (·.ownerId = owner) r.rotateAccount t.accounts
  let (proxies, proxiesRotated) ← rotateRows (fun _ => true) r.rotateProxy t.proxies
  let (webhooks, webhooksRotated) ← rotateRows (ofBotOf owner t.bots) r.rotateWebhook t.webhooks
  let (bots, botsRotated) ← rotateRows (·.ownerId = owner) r.rotateBot t.bots
  .ok (⟨accounts, bots, t.scripts, webhooks, proxies⟩,
    ⟨accountsRotated, proxiesRotated, webhooksRotated, botsRotated⟩)

end Rotation

-- ════════════════════════════════════════════════════════════════════════
-- What it means to keep a secret
-- ════════════════════════════════════════════════════════════════════════

section Kept

variable (aes : Aes) (registry : KeyRegistry)

/-- A secret that can be read stands for the same text, under the current version when it is
    not empty; any other is as it was. -/
def SecretKept (value value' : Option String) : Prop :=
  match decryptCredential aes registry value with
  | none => value' = value
  | some text =>
    decryptCredential aes registry value' = some text ∧ (text ≠ "" → IsCurrent registry value')

/-- A secret that a rotation has nothing to do with. -/
def Settled (value : Option String) : Prop :=
  IsCurrent registry value ∨ present (decryptCredential aes registry value) = none

def PairSettled (pair : KeyPair) : Prop :=
  Settled aes registry pair.apiKey ∧ Settled aes registry pair.apiSecret

structure AccountSettled (a : AccountRow) : Prop where
  credentials : ∀ field, Settled aes registry (a.credentials field)
  apiKeys : ∀ pairs, a.apiKeys = some pairs → ∀ pair ∈ pairs, PairSettled aes registry pair

/-- The loop over webhooks gives up a secret that it cannot read. -/
def WebhookSettled (w : WebhookRow) : Prop :=
  present w.secret = none ∨ IsCurrent registry w.secret

def BotSettled (b : BotRow) : Prop :=
  ∀ key, b.config.bind walletKey? = some key → Settled aes registry (some key)

structure PairKept (pair pair' : KeyPair) : Prop where
  apiKey : SecretKept aes registry pair.apiKey pair'.apiKey
  apiSecret : SecretKept aes registry pair.apiSecret pair'.apiSecret

structure AccountKept (a a' : AccountRow) : Prop where
  rest : a' = { a with credentials := a'.credentials, apiKeys := a'.apiKeys }
  credentials : ∀ field, SecretKept aes registry (a.credentials field) (a'.credentials field)
  apiKeys : Option.Rel (List.Forall₂ (PairKept aes registry)) a.apiKeys a'.apiKeys

structure WebhookKept (w w' : WebhookRow) : Prop where
  rest : w' = { w with secret := w'.secret }
  secret : SecretKept aes registry w.secret w'.secret

structure ProxyKept (p p' : ProxyRow) : Prop where
  rest : p' = { p with url := p'.url }
  url : SecretKept aes registry (some p.url) (some p'.url)

/-- Nothing of a bot changes but its wallet key. -/
structure BotKept (b b' : BotRow) : Prop where
  rest : b' = b ∨ ∃ key, b' = { b with config := b.config.map (setWalletKey key) }
  wallet : SecretKept aes registry (b.config.bind walletKey?) (b'.config.bind walletKey?)

/-- Every secret of the owner is kept, the proxies are those of all owners, and nothing else
    changes. -/
structure RotationKeeps (owner : String) (t t' : Tables) : Prop where
  accounts : List.Forall₂ (fun a a' => if a.ownerId = owner then AccountKept aes registry a a'
    else a' = a) t.accounts t'.accounts
  bots : List.Forall₂ (fun b b' => if b.ownerId = owner then BotKept aes registry b b'
    else b' = b) t.bots t'.bots
  webhooks : List.Forall₂ (fun w w' => if w.ownerId = owner then WebhookKept aes registry w w'
    else w' = w) t.webhooks t'.webhooks
  proxies : List.Forall₂ (ProxyKept aes registry) t.proxies t'.proxies
  scripts : t'.scripts = t.scripts

/-- The condition on a webhook: the loop that reaches it finds a secret that it may write and
    can read, or one that is settled when it does not reach it. -/
def WebhookFits (owner : String) (bots : List BotRow) (w : WebhookRow) : Prop :=
  if ofBotOf owner bots w then
    present w.secret = none ∨ IsCurrent registry w.secret ∨
      (w.ownerId = owner ∧ present (decryptCredential aes registry w.secret) ≠ none)
  else w.ownerId = owner → Settled aes registry w.secret

variable {aes registry} {value : Option String} {nonce : Nonce}

theorem secretKept_self_iff : SecretKept aes registry value value ↔ Settled aes registry value := by
  rw [SecretKept, Settled]
  rcases decryptCredential aes registry value with _ | text
  · exact iff_of_true rfl (.inr rfl)
  · dsimp only
    by_cases htext : text = ""
    · have hnone : present (some text) = none := by
        rw [htext]
        rfl
      exact iff_of_true ⟨rfl, fun hne => absurd htext hne⟩ (.inr hnone)
    · rw [present_some htext]
      constructor
      · exact fun h => .inl (h.2 htext)
      · rintro (h | h)
        · exact ⟨rfl, fun _ => h⟩
        · cases h

theorem rotated_of_settled (h : Settled aes registry value) (nonce : Nonce) :
    rotated aes registry value nonce = value ∨ rotated aes registry value nonce = none := by
  rcases h with hcurrent | hnone
  · exact .inl (rotated_current hcurrent nonce)
  · by_cases hcurrent : IsCurrent registry value
    · exact .inl (rotated_current hcurrent nonce)
    · right
      rw [rotated, if_neg hcurrent, hnone, Option.map_none]

/-- A readable secret that is not settled is written under the current version. -/
theorem rotated_of_not_settled (h : ¬ Settled aes registry value) (nonce : Nonce) :
    ∃ text, text ≠ "" ∧ decryptCredential aes registry value = some text ∧
      rotated aes registry value nonce = some (storedForm aes registry text nonce) := by
  obtain ⟨hcurrent, hread⟩ := not_or.mp h
  obtain ⟨text, htext⟩ := Option.ne_none_iff_exists'.mp hread
  obtain ⟨hdecrypt, hne⟩ := present_eq_some htext
  refine ⟨text, hne, hdecrypt, ?_⟩
  rw [rotated, if_neg hcurrent, htext, Option.map_some]

/-- **One secret**: what a rotation leaves in place of a secret keeps it. -/
theorem secretKept_or_rotated (haes : aes.Correct) (hkey : registry.key ≠ "")
    (value : Option String) (nonce : Nonce) :
    SecretKept aes registry value ((rotated aes registry value nonce).or value) := by
  by_cases hsettled : Settled aes registry value
  · rcases rotated_of_settled hsettled nonce with h | h
    · rw [h, Option.or_self]
      exact secretKept_self_iff.mpr hsettled
    · rw [h, Option.none_or]
      exact secretKept_self_iff.mpr hsettled
  · obtain ⟨text, -, hdecrypt, hrotated⟩ := rotated_of_not_settled hsettled nonce
    rw [hrotated, Option.some_or, SecretKept, hdecrypt]
    exact ⟨decryptCredential_storedForm haes (keyFor_version hkey) text nonce,
      fun _ => isCurrent_storedForm text nonce⟩

theorem settled_or_rotated (value : Option String) (nonce : Nonce) :
    Settled aes registry ((rotated aes registry value nonce).or value) := by
  by_cases hsettled : Settled aes registry value
  · rcases rotated_of_settled hsettled nonce with h | h
    · rwa [h, Option.or_self]
    · rwa [h, Option.none_or]
  · obtain ⟨text, -, -, hrotated⟩ := rotated_of_not_settled hsettled nonce
    rw [hrotated, Option.some_or]
    exact .inl (isCurrent_storedForm text nonce)

theorem or_rotated_of_settled (h : Settled aes registry value) (nonce : Nonce) :
    (rotated aes registry value nonce).or value = value := by
  rcases rotated_of_settled h nonce with h | h
  · rw [h, Option.or_self]
  · rw [h, Option.none_or]

/-- A rotation never writes an empty text. -/
theorem rotated_ne_empty (value : Option String) (nonce : Nonce) :
    rotated aes registry value nonce ≠ some "" := by
  intro h
  by_cases hsettled : Settled aes registry value
  · by_cases hcurrent : IsCurrent registry value
    · rw [rotated_current hcurrent] at h
      rw [h] at hcurrent
      have hempty : (some "").bind versionOf = none := by decide
      rw [IsCurrent, hempty] at hcurrent
      cases hcurrent
    · rw [rotated, if_neg hcurrent, hsettled.resolve_left hcurrent] at h
      cases h
  · obtain ⟨text, -, -, hrotated⟩ := rotated_of_not_settled hsettled nonce
    rw [hrotated] at h
    exact storedForm_ne_empty text nonce (Option.some.inj h)

end Kept

-- ════════════════════════════════════════════════════════════════════════
-- The loops
-- ════════════════════════════════════════════════════════════════════════

/-- New versions in the place of the rows found. -/
def mapFound {α : Type*} (found : α → Bool) (next : α → α) (rows : List α) : List α :=
  rows.map fun row => if found row then next row else row

theorem mapFound_cons {α : Type*} (found : α → Bool) (next : α → α) (row : α) (rest : List α) :
    mapFound found next (row :: rest) =
      (if found row then next row else row) :: mapFound found next rest :=
  rfl

/-- A loop whose rotations do not throw puts its new version in the place of each row found. -/
theorem rotateRows_eq {α : Type*} (found : α → Bool) {rotate : α → Except String (Option α)}
    {next : α → α} (h : ∀ row, ∃ written, rotate row = .ok written ∧ written.getD row = next row)
    (rows : List α) :
    ∃ count, rotateRows found rotate rows = .ok (mapFound found next rows, count) := by
  induction rows with
  | nil => exact ⟨0, rfl⟩
  | cons row rest ih =>
    obtain ⟨count, hrest⟩ := ih
    obtain ⟨written, hwritten, hnext⟩ := h row
    rw [rotateRows, hrest, mapFound_cons]
    cases hfound : found row with
    | true =>
      rw [if_pos rfl, if_pos rfl, hwritten, ← hnext]
      exact ⟨_, rfl⟩
    | false =>
      rw [if_neg Bool.false_ne_true, if_neg Bool.false_ne_true]
      exact ⟨_, rfl⟩

/-- A loop that finds the rows of an earlier one and writes none of them changes nothing. -/
theorem rotateRows_again {α : Type*} {found found' : α → Bool} {next : α → α}
    {rotate : α → Except String (Option α)}
    (hfound : ∀ row, found' (if found row then next row else row) = found row)
    (hnext : ∀ row, rotate (next row) = .ok none) (rows : List α) :
    rotateRows found' rotate (mapFound found next rows) = .ok (mapFound found next rows, 0) := by
  induction rows with
  | nil => rfl
  | cons row rest ih =>
    rw [mapFound_cons, rotateRows, ih, hfound]
    cases hrow : found row with
    | true =>
      rw [if_pos rfl, if_pos rfl, hnext]
      rfl
    | false =>
      rw [if_neg Bool.false_ne_true, if_neg Bool.false_ne_true]
      rfl

namespace Rotation

variable (r : Rotation)

/-- The value that a rotation leaves. -/
def valueAfter (value : Option String) (place : Place) : Option String :=
  (rotated r.aes r.registry value (r.nonces place)).or value

def pairsAfter (id : String) : ℕ → List KeyPair → List KeyPair
  | _, [] => []
  | i, pair :: rest =>
    ⟨r.valueAfter pair.apiKey (.pool id i false), r.valueAfter pair.apiSecret (.pool id i true)⟩ ::
      pairsAfter id (i + 1) rest

def accountAfter (a : AccountRow) : AccountRow :=
  { a with
    credentials := fun field => r.valueAfter (a.credentials field) (.account a.id field)
    apiKeys := a.apiKeys.map (r.pairsAfter a.id 0) }

def proxyAfter (p : ProxyRow) : ProxyRow :=
  { p with url := (r.valueAfter (some p.url) (.proxy p.id)).getD p.url }

def webhookAfter (w : WebhookRow) : WebhookRow :=
  if present w.secret = none then w
  else { w with secret := rotated r.aes r.registry w.secret (r.nonces (.webhook w.id)) }

def botAfter (b : BotRow) : BotRow :=
  match b.config.bind walletKey? with
  | none => b
  | some privateKey =>
    match (rotated r.aes r.registry (some privateKey) (r.nonces (.wallet b.id))).filter
      (· ≠ privateKey) with
    | none => b
    | some key => { b with config := b.config.map (setWalletKey key) }

def tablesAfter (owner : String) (t : Tables) : Tables where
  accounts := mapFound (·.ownerId = owner) r.accountAfter t.accounts
  bots := mapFound (·.ownerId = owner) r.botAfter t.bots
  scripts := t.scripts
  webhooks := mapFound (ofBotOf owner t.bots) r.webhookAfter t.webhooks
  proxies := mapFound (fun _ => true) r.proxyAfter t.proxies

variable {r}

/-- What is written in place of a value, or the value, is what the rotation leaves. -/
theorem filter_or (value : String) (place : Place) :
    ((rotated r.aes r.registry (some value) (r.nonces place)).filter (· ≠ value)).or (some value) =
      r.valueAfter (some value) place := by
  rw [valueAfter]
  rcases rotated r.aes r.registry (some value) (r.nonces place) with _ | out
  · rfl
  · by_cases hout : out = value
    · rw [hout, Option.filter_some_neg (by simp)]
      rfl
    · rw [Option.filter_some_pos (by simpa using hout)]

/-- Nothing is written in place of a settled value. -/
theorem filter_of_settled {value : String} (h : Settled r.aes r.registry (some value))
    (nonce : Nonce) :
    (rotated r.aes r.registry (some value) nonce).filter (· ≠ value) = none := by
  rcases rotated_of_settled h nonce with hout | hout
  · rw [hout, Option.filter_some_neg (by simp)]
  · rw [hout]
    rfl

variable (hkey : r.registry.key ≠ "")

include hkey

theorem reencrypt_eq (value : Option String) (place : Place) :
    r.reencrypt value place = .ok (rotated r.aes r.registry value (r.nonces place)) :=
  reencryptCredential_eq hkey value (r.nonces place)

theorem rotateValue_eq (value : String) (place : Place) :
    r.rotateValue value place =
      .ok ((rotated r.aes r.registry (some value) (r.nonces place)).filter (· ≠ value)) := by
  have hpresent : present (rotated r.aes r.registry (some value) (r.nonces place)) =
      rotated r.aes r.registry (some value) (r.nonces place) := by
    rcases hout : rotated r.aes r.registry (some value) (r.nonces place) with _ | out
    · rfl
    · refine present_some ?_
      rintro rfl
      exact rotated_ne_empty _ _ hout
  rw [← hpresent, rotateValue, reencrypt_eq hkey]
  rfl

theorem rotateField_eq (a : AccountRow) (field : CredentialField) :
    ∃ written, r.rotateField a field = .ok written ∧
      written.or (a.credentials field) =
        r.valueAfter (a.credentials field) (.account a.id field) ∧
      (Settled r.aes r.registry (a.credentials field) → written = none) := by
  rw [rotateField]
  rcases hvalue : present (a.credentials field) with _ | value
  · have hnone : present (decryptCredential r.aes r.registry (a.credentials field)) = none := by
      rw [decryptCredential, hvalue]
      rfl
    refine ⟨none, rfl, ?_, fun _ => rfl⟩
    rw [valueAfter, or_rotated_of_settled (.inr hnone), Option.none_or]
  · obtain ⟨hstored, -⟩ := present_eq_some hvalue
    rw [hstored]
    exact ⟨_, rotateValue_eq hkey value _, filter_or value _, fun h => filter_of_settled h _⟩

theorem rotateFields_eq (a : AccountRow) (fields : List CredentialField) :
    ∃ updates, r.rotateFields a fields = .ok updates ∧
      (∀ field ∈ fields, (updates field).or (a.credentials field) =
        r.valueAfter (a.credentials field) (.account a.id field)) ∧
      ∀ field, Settled r.aes r.registry (a.credentials field) → updates field = none := by
  induction fields with
  | nil => exact ⟨_, rfl, nofun, fun _ _ => rfl⟩
  | cons field rest ih =>
    obtain ⟨updates, hupdates, hafter, hsettled⟩ := ih
    obtain ⟨written, hwritten, hor, hnone⟩ := rotateField_eq hkey a field
    refine ⟨Function.update updates field written, ?_, ?_, ?_⟩
    · rw [rotateFields, hwritten, hupdates]
      rfl
    · intro f hf
      by_cases hfield : f = field
      · rw [hfield, Function.update_self]
        exact hor
      · rw [Function.update_of_ne hfield]
        exact hafter f ((List.mem_cons.mp hf).resolve_left hfield)
    · intro f hf
      by_cases hfield : f = field
      · rw [hfield] at hf ⊢
        rw [Function.update_self]
        exact hnone hf
      · rw [Function.update_of_ne hfield]
        exact hsettled f hf

theorem rotatePairs_eq (id : String) (i : ℕ) (pairs : List KeyPair) :
    r.rotatePairs id i pairs = .ok (r.pairsAfter id i pairs) := by
  induction pairs generalizing i with
  | nil => rfl
  | cons pair rest ih =>
    rw [rotatePairs, reencrypt_eq hkey, reencrypt_eq hkey, ih]
    rfl

theorem rotatePool_eq (a : AccountRow) :
    ∃ written, r.rotatePool a = .ok written ∧
      written.or a.apiKeys = a.apiKeys.map (r.pairsAfter a.id 0) ∧
      (a.apiKeys.map (r.pairsAfter a.id 0) = a.apiKeys → written = none) := by
  rw [rotatePool]
  rcases a.apiKeys with _ | pairs
  · exact ⟨none, rfl, rfl, fun _ => rfl⟩
  · dsimp only
    rw [rotatePairs_eq hkey]
    refine ⟨_, rfl, ?_, ?_⟩
    · by_cases hsame : r.pairsAfter a.id 0 pairs = pairs
      · rw [if_pos hsame, Option.none_or, Option.map_some, hsame]
      · rw [if_neg hsame, Option.some_or, Option.map_some]
    · intro hsame
      exact if_pos (Option.some.inj hsame)

theorem rotateAccount_eq (a : AccountRow) :
    ∃ written, r.rotateAccount a = .ok written ∧ written.getD a = r.accountAfter a := by
  obtain ⟨updates, hupdates, hafter, -⟩ := rotateFields_eq hkey a credentialFields
  obtain ⟨pool, hpool, hpoolAfter, -⟩ := rotatePool_eq hkey a
  have hcredentials : (fun field => (updates field).or (a.credentials field)) =
      fun field => r.valueAfter (a.credentials field) (.account a.id field) :=
    funext fun field => hafter field (mem_credentialFields field)
  rw [rotateAccount, hupdates, hpool]
  by_cases hnone : (∀ field ∈ credentialFields, updates field = none) ∧ pool = none
  · refine ⟨none, if_pos hnone, ?_⟩
    have hsame : (fun field => (updates field).or (a.credentials field)) = a.credentials := by
      funext field
      rw [hnone.1 field (mem_credentialFields field), Option.none_or]
    rw [hnone.2, Option.none_or] at hpoolAfter
    rw [Option.getD_none, accountAfter, ← hpoolAfter, ← hcredentials, hsame]
  · refine ⟨_, if_neg hnone, ?_⟩
    rw [Option.getD_some, hcredentials, hpoolAfter]
    rfl

theorem rotateProxy_eq (p : ProxyRow) :
    ∃ written, r.rotateProxy p = .ok written ∧ written.getD p = r.proxyAfter p := by
  rw [rotateProxy, rotateValue_eq hkey]
  refine ⟨_, rfl, ?_⟩
  rw [proxyAfter, ← filter_or]
  rcases (rotated r.aes r.registry (some p.url) (r.nonces (.proxy p.id))).filter (· ≠ p.url) with
    _ | url
  · rfl
  · rfl

theorem rotateWebhook_eq (w : WebhookRow) :
    ∃ written, r.rotateWebhook w = .ok written ∧ written.getD w = r.webhookAfter w := by
  rw [rotateWebhook, webhookAfter]
  rcases hsecret : present w.secret with _ | secret
  · exact ⟨none, rfl, rfl⟩
  · obtain ⟨hw, -⟩ := present_eq_some hsecret
    dsimp only
    rw [reencrypt_eq hkey, if_neg nofun, hw]
    refine ⟨_, rfl, ?_⟩
    split
    · rename_i hsame
      rw [Option.getD_none, hsame, ← hw]
    · rw [Option.getD_some]

theorem rotateBot_eq (b : BotRow) :
    ∃ written, r.rotateBot b = .ok written ∧ written.getD b = r.botAfter b := by
  rw [rotateBot, botAfter]
  rcases hconfig : b.config with _ | config
  · exact ⟨none, rfl, rfl⟩
  · rw [Option.bind_some]
    dsimp only
    rcases hkeyText : present (walletKey? config) with _ | privateKey
    · refine ⟨none, rfl, ?_⟩
      rcases present_eq_none hkeyText with hnone | hempty
      · rw [hnone]
        rfl
      · have hsettled : Settled r.aes r.registry (some "") := .inr rfl
        rw [hempty]
        dsimp only
        rw [filter_of_settled hsettled]
        rfl
    · obtain ⟨hwallet, -⟩ := present_eq_some hkeyText
      rw [hwallet]
      dsimp only
      rw [rotateValue_eq hkey]
      refine ⟨_, rfl, ?_⟩
      rcases (rotated r.aes r.registry (some privateKey) (r.nonces (.wallet b.id))).filter
        (· ≠ privateKey) with _ | key
      · rfl
      · rfl

/-- **Rotation**: with a key a rotation does not throw, and rotates each row that it reaches. -/
theorem rotateEncryption_eq (owner : String) (t : Tables) :
    ∃ stats, r.rotateEncryption owner t = .ok (r.tablesAfter owner t, stats) := by
  obtain ⟨accounts, haccounts⟩ := rotateRows_eq (·.ownerId = owner)
    (rotateAccount_eq hkey) t.accounts
  obtain ⟨proxies, hproxies⟩ := rotateRows_eq (fun _ => true) (rotateProxy_eq hkey)
    t.proxies
  obtain ⟨webhooks, hwebhooks⟩ := rotateRows_eq (ofBotOf owner t.bots)
    (rotateWebhook_eq hkey) t.webhooks
  obtain ⟨bots, hbots⟩ := rotateRows_eq (·.ownerId = owner) (rotateBot_eq hkey) t.bots
  refine ⟨⟨accounts, proxies, webhooks, bots⟩, ?_⟩
  rw [rotateEncryption, haccounts, hproxies, hwebhooks, hbots]
  rfl

end Rotation

end BotHive.Backup
