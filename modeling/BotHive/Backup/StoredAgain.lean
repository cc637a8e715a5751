import BotHive.Backup.ExportAccepted
import BotHive.Credentials.RoundTrip

/-!
# Credentials that are imported again

An import stores the credentials of a document as `ensureEncrypted` gives them: texts that carry
the prefix stay, other texts are encrypted with a new nonce, empty texts are dropped. So an
account comes out of an import as it was, whatever the nonces, exactly if what is stored has
no need of encryption.

## Main definitions

- `ImportEnv.update`: what an import sets of an exported account
- `ImportEnv.Returns`: the credentials of one account, imported, are those of another

## Main results

- `ImportEnv.credentialsData_eq_ok_iff`
- `ImportEnv.returns_iff`
-/

namespace BotHive.Backup

open Credentials

namespace ImportEnv

variable (env : ImportEnv)

/-- A text that is stored as it is: it carries the prefix, or the process has no key. -/
def Stays (value : Option String) : Prop :=
  ∀ text, value = some text → (dropPrefix? text "enc:").isSome ∨ env.registry.key = ""

/-- A production process without a key refuses to store plain texts. -/
def Storable (value : Option String) : Prop :=
  ∀ text, present value = some text →
    (dropPrefix? text "enc:").isSome ∨ env.registry.key ≠ "" ∨ env.production = false

def stored (value : Option String) (place : ImportPlace) : Option String :=
  (present value).map fun text =>
    if (dropPrefix? text "enc:").isSome ∨ env.registry.key = "" then text
    else storedForm env.aes env.registry text (env.nonces place)

variable {env} {value x : Option String} {place : ImportPlace}

theorem ensureEncrypted_eq_ok_iff :
    env.ensureEncrypted value place = .ok x ↔ env.Storable value ∧ x = env.stored value place := by
  rw [ensureEncrypted, stored]
  cases hvalue : present value with
  | none =>
    have hnone : Credentials.ensureEncrypted env.aes env.production env.registry value
        (env.nonces place) = .ok none := by
      rw [Credentials.ensureEncrypted, hvalue]
    have hstorable : env.Storable value := by
      intro text htext
      rw [hvalue] at htext
      cases htext
    rw [hnone]
    constructor
    · rintro ⟨⟩
      exact ⟨hstorable, rfl⟩
    · rintro ⟨-, rfl⟩
      rfl
  | some text =>
    obtain ⟨rfl, hne⟩ := present_eq_some hvalue
    have hstorable : env.Storable (some text) ↔ (dropPrefix? text "enc:").isSome ∨
        env.registry.key ≠ "" ∨ env.production = false := by
      constructor
      · exact fun h => h text hvalue
      · intro h other hother
        obtain rfl := Option.some.inj (hvalue.symm.trans hother)
        exact h
    rw [hstorable, Option.map_some]
    rcases hprefixed : dropPrefix? text "enc:" with _ | payload
    · by_cases hkey : env.registry.key = ""
      · have hencrypt : Credentials.ensureEncrypted env.aes env.production env.registry (some text)
            (env.nonces place) =
            (encryptCredential env.aes env.production env.registry text (env.nonces place)).map
              some := by
          rw [Credentials.ensureEncrypted, present_some hne]
          simp only [hprefixed]
        rw [hencrypt, encryptCredential, if_pos hkey]
        cases hproduction : env.production with
        | true =>
          rw [if_pos rfl]
          exact iff_of_false (by rintro ⟨⟩) (by simp [hkey])
        | false =>
          rw [if_neg Bool.false_ne_true, if_pos (Or.inr hkey)]
          constructor
          · rintro ⟨⟩
            exact ⟨.inr (.inr rfl), rfl⟩
          · rintro ⟨-, rfl⟩
            rfl
      · rw [ensureEncrypted_plain hkey hne hprefixed, if_neg (by simp [hkey])]
        constructor
        · rintro ⟨⟩
          exact ⟨.inr (.inl hkey), rfl⟩
        · rintro ⟨-, rfl⟩
          rfl
    · rw [ensureEncrypted_prefixed hprefixed, if_pos (.inl rfl)]
      constructor
      · rintro ⟨⟩
        exact ⟨.inl rfl, rfl⟩
      · rintro ⟨-, rfl⟩
        rfl

/-- A stored form shows the nonce that it was written with. -/
theorem iv_of_storedForm {aes : Aes} {registry : KeyRegistry} {text : String} {nonce nonce' : Nonce}
    (h : storedForm aes registry text nonce = storedForm aes registry text nonce') :
    nonce.iv = nonce'.iv := by
  have hdrop := congrArg (dropPrefix? · "enc:") h
  rw [dropPrefix?_storedForm, dropPrefix?_storedForm] at hdrop
  have hparse := congrArg parsePayload (Option.some.inj hdrop)
  rw [parsePayload_stored, parsePayload_stored] at hparse
  have hsplit := congrArg (splitText ':') (Prod.mk.inj (Option.some.inj hparse)).2
  rw [splitText_encrypt, splitText_encrypt] at hsplit
  have hhex := congrArg hexDecode (List.cons.inj hsplit).1
  rwa [hexDecode_hexEncode, hexDecode_hexEncode] at hhex

def nonceOf (b : UInt8) : Nonce :=
  ⟨List.replicate 16 b, List.length_replicate⟩

/-- What is stored does not depend on the nonce exactly if nothing is encrypted. -/
theorem stored_eq_iff (env : ImportEnv) (value x : Option String) (place : ImportPlace) :
    (∀ nonces, stored { env with nonces := nonces } value place = x) ↔
      x = present value ∧ env.Stays x := by
  constructor
  · intro h
    cases hvalue : present value with
    | none =>
      have hx := h env.nonces
      rw [stored, hvalue] at hx
      obtain rfl : none = x := hx
      exact ⟨rfl, nofun⟩
    | some text =>
      by_cases hkept : (dropPrefix? text "enc:").isSome ∨ env.registry.key = ""
      · have hx := h env.nonces
        rw [stored, hvalue, Option.map_some, if_pos hkept] at hx
        obtain rfl : some text = x := hx
        refine ⟨rfl, ?_⟩
        rintro _ ⟨⟩
        exact hkept
      · have hforms : ∀ b, x = some (storedForm env.aes env.registry text (nonceOf b)) := by
          intro b
          have hx := h fun _ => nonceOf b
          rw [stored, hvalue, Option.map_some, if_neg hkept] at hx
          exact hx.symm
        have hiv := iv_of_storedForm (Option.some.inj ((hforms 0).symm.trans (hforms 1)))
        exact absurd hiv (by decide)
  · rintro ⟨rfl, hstays⟩ nonces
    rw [stored]
    cases hvalue : present value with
    | none => rfl
    | some text =>
      rw [Option.map_some, if_pos (hstays text hvalue)]

-- ════════════════════════════════════════════════════════════════════════
-- The columns of an account
-- ════════════════════════════════════════════════════════════════════════

theorem storeField_nullable (value : Option String) (place : ImportPlace) :
    env.storeField place (nullable value) = (env.ensureEncrypted value place).map some := by
  cases value <;> rfl

theorem storeFields_undefined (account : ℕ) (fields : List CredentialField) :
    env.storeFields account (fun _ => .undefined) fields = .ok fun _ => none := by
  induction fields with
  | nil => rfl
  | cons field rest ih =>
    rw [storeFields, ih]
    refine congrArg Except.ok (funext fun f => ?_)
    by_cases hf : f = field
    · rw [hf, Function.update_self]
    · rw [Function.update_of_ne hf]

theorem storeFields_eq_ok_iff {account : ℕ} {values : CredentialField → Option String}
    {fields : List CredentialField} {out : CredentialField → Option (Option String)} :
    env.storeFields account (fun field => nullable (values field)) fields = .ok out ↔
      (∀ field ∈ fields, env.Storable (values field)) ∧
        out = fun field =>
          if field ∈ fields then some (env.stored (values field) (.field account field))
          else none := by
  induction fields generalizing out with
  | nil =>
    constructor
    · rintro ⟨⟩
      exact ⟨nofun, rfl⟩
    · rintro ⟨-, rfl⟩
      rfl
  | cons field rest ih =>
    have hwritten : ∀ others : CredentialField → Option (Option String),
        (others = fun f =>
          if f ∈ rest then some (env.stored (values f) (.field account f)) else none) →
        Function.update others field (some (env.stored (values field) (.field account field))) =
          fun f =>
            if f ∈ field :: rest then some (env.stored (values f) (.field account f))
            else none := by
      rintro others rfl
      funext f
      by_cases hf : f = field
      · rw [hf, Function.update_self, if_pos List.mem_cons_self]
      · have hiff : f ∈ field :: rest ↔ f ∈ rest := by simp [hf]
        simp only [Function.update_of_ne hf, hiff]
    rw [storeFields, Except.bind_eq_ok_iff, storeField_nullable]
    constructor
    · rintro ⟨first, hfirst, hrest⟩
      obtain ⟨others, hothers, hout⟩ := Except.bind_eq_ok_iff.mp hrest
      obtain ⟨value, hvalue, rfl⟩ := Except.map_eq_ok_iff.mp hfirst
      obtain ⟨hstorable, rfl⟩ := ensureEncrypted_eq_ok_iff.mp hvalue
      obtain ⟨hall, hothers⟩ := ih.mp hothers
      refine ⟨List.forall_mem_cons.mpr ⟨hstorable, hall⟩, ?_⟩
      rw [← hwritten others hothers]
      exact (Except.ok.inj hout).symm
    · rintro ⟨hall, rfl⟩
      obtain ⟨hstorable, hall⟩ := List.forall_mem_cons.mp hall
      refine ⟨_, Except.map_eq_ok_iff.mpr
        ⟨_, ensureEncrypted_eq_ok_iff.mpr ⟨hstorable, rfl⟩, rfl⟩, Except.bind_eq_ok_iff.mpr ?_⟩
      exact ⟨_, ih.mpr ⟨hall, rfl⟩, congrArg Except.ok (hwritten _ rfl)⟩

/-- The pairs of a pool that an import stores. -/
def storedPairs (env : ImportEnv) (account : ℕ) : ℕ → List (String × String) → List KeyPair
  | _, [] => []
  | i, (apiKey, apiSecret) :: rest =>
    ⟨env.stored (some apiKey) (.pool account i false),
      env.stored (some apiSecret) (.pool account i true)⟩ :: storedPairs env account (i + 1) rest

theorem storePairs_eq_ok_iff {account i : ℕ} {pairs : List (String × String)}
    {out : List KeyPair} :
    env.storePairs account i pairs = .ok out ↔
      (∀ p ∈ pairs, env.Storable (some p.1) ∧ env.Storable (some p.2)) ∧
        out = env.storedPairs account i pairs := by
  induction pairs generalizing i out with
  | nil =>
    constructor
    · rintro ⟨⟩
      exact ⟨nofun, rfl⟩
    · rintro ⟨-, rfl⟩
      rfl
  | cons p rest ih =>
    obtain ⟨apiKey, apiSecret⟩ := p
    rw [storePairs, Except.bind_eq_ok_iff, storedPairs]
    constructor
    · rintro ⟨key, hkey, hnext⟩
      obtain ⟨secret, hsecret, hrest⟩ := Except.bind_eq_ok_iff.mp hnext
      obtain ⟨others, hothers, hout⟩ := Except.bind_eq_ok_iff.mp hrest
      obtain ⟨hk, rfl⟩ := ensureEncrypted_eq_ok_iff.mp hkey
      obtain ⟨hs, rfl⟩ := ensureEncrypted_eq_ok_iff.mp hsecret
      obtain ⟨hall, rfl⟩ := ih.mp hothers
      exact ⟨List.forall_mem_cons.mpr ⟨⟨hk, hs⟩, hall⟩, (Except.ok.inj hout).symm⟩
    · rintro ⟨hall, rfl⟩
      obtain ⟨⟨hk, hs⟩, hall⟩ := List.forall_mem_cons.mp hall
      refine ⟨_, ensureEncrypted_eq_ok_iff.mpr ⟨hk, rfl⟩, Except.bind_eq_ok_iff.mpr ?_⟩
      refine ⟨_, ensureEncrypted_eq_ok_iff.mpr ⟨hs, rfl⟩, Except.bind_eq_ok_iff.mpr ?_⟩
      exact ⟨_, ih.mpr ⟨hall, rfl⟩, rfl⟩

/-- The pairs that an import reads of a pool: those with two texts that are not empty. -/
def readPairs (pairs : List KeyPair) : List (String × String) :=
  (pairs.filterMap pairTexts).filter fun p => p.1 ≠ "" ∧ p.2 ≠ ""

/-- What an import sets of an exported account. -/
def update (env : ImportEnv) (includeCredentials : Bool) (account : ℕ) (a : AccountRow) :
    CredentialUpdate :=
  if includeCredentials then
    ⟨fun field => some (env.stored (a.credentials field) (.field account field)),
      some (a.apiKeys.map fun pairs => env.storedPairs account 0 (readPairs pairs))⟩
  else ⟨fun _ => none, none⟩

/-- An account whose credentials can be stored. -/
structure AccountStorable (env : ImportEnv) (a : AccountRow) : Prop where
  credentials : ∀ field, env.Storable (a.credentials field)
  apiKeys : ∀ pairs, a.apiKeys = some pairs → ∀ p ∈ readPairs pairs,
    env.Storable (some p.1) ∧ env.Storable (some p.2)

/-- What can be stored does not depend on the nonces. -/
theorem AccountStorable.of_nonces {a : AccountRow} (h : env.AccountStorable a)
    (nonces : ImportPlace → Nonce) :
    AccountStorable { env with nonces := nonces } a :=
  ⟨h.credentials, h.apiKeys⟩

theorem storePool_eq_ok_iff {account : ℕ} {pool : Option (List KeyPair)}
    {out : Option (Option (List KeyPair))} :
    env.storePool account (some (pool.map fun pairs => pairs.filterMap pairTexts)) = .ok out ↔
      (∀ pairs, pool = some pairs → ∀ p ∈ readPairs pairs,
          env.Storable (some p.1) ∧ env.Storable (some p.2)) ∧
        out = some (pool.map fun pairs => env.storedPairs account 0 (readPairs pairs)) := by
  cases pool with
  | none =>
    constructor
    · rintro ⟨⟩
      exact ⟨nofun, rfl⟩
    · rintro ⟨-, rfl⟩
      rfl
  | some pairs =>
    rw [Option.map_some, storePool, Except.map_eq_ok_iff]
    constructor
    · rintro ⟨stored, hstored, rfl⟩
      obtain ⟨hall, rfl⟩ := storePairs_eq_ok_iff.mp hstored
      refine ⟨?_, rfl⟩
      rintro _ ⟨⟩
      exact hall
    · rintro ⟨hall, rfl⟩
      exact ⟨_, storePairs_eq_ok_iff.mpr ⟨hall pairs rfl, rfl⟩, rfl⟩

theorem credentialsData_eq_ok_iff {includeCredentials : Bool} {account : ℕ} {a : AccountRow}
    {out : CredentialUpdate} :
    env.credentialsData account (importAccount includeCredentials a) = .ok out ↔
      (includeCredentials = true → env.AccountStorable a) ∧
        out = env.update includeCredentials account a := by
  cases includeCredentials with
  | false =>
    have hcredentials : (importAccount false a).credentials = fun _ => .undefined := rfl
    rw [credentialsData, hcredentials, storeFields_undefined]
    constructor
    · rintro ⟨⟩
      exact ⟨nofun, rfl⟩
    · rintro ⟨-, rfl⟩
      rfl
  | true =>
    have hcredentials : (importAccount true a).credentials =
        fun field => nullable (a.credentials field) := rfl
    have hfields : (fun field => if field ∈ credentialFields then
        some (env.stored (a.credentials field) (.field account field)) else none) =
        (env.update true account a).credentials :=
      funext fun field => if_pos (mem_credentialFields field)
    rw [credentialsData, hcredentials, Except.bind_eq_ok_iff]
    constructor
    · rintro ⟨credentials, hstored, hrest⟩
      obtain ⟨pool, hpool, hout⟩ := Except.bind_eq_ok_iff.mp hrest
      obtain ⟨hall, rfl⟩ := storeFields_eq_ok_iff.mp hstored
      obtain ⟨hpairs, rfl⟩ := storePool_eq_ok_iff.mp hpool
      refine ⟨fun _ => ⟨fun field => hall field (mem_credentialFields field), hpairs⟩, ?_⟩
      rw [← Except.ok.inj hout, hfields]
      rfl
    · rintro ⟨hstorable, rfl⟩
      have hs := hstorable rfl
      refine ⟨_, storeFields_eq_ok_iff.mpr ⟨fun field _ => hs.credentials field, rfl⟩,
        Except.bind_eq_ok_iff.mpr ?_⟩
      refine ⟨_, storePool_eq_ok_iff.mpr ⟨hs.apiKeys, rfl⟩, ?_⟩
      rw [hfields]
      rfl

-- ════════════════════════════════════════════════════════════════════════
-- Accounts that come out as they were
-- ════════════════════════════════════════════════════════════════════════

/-- The pairs of a pool that have two texts that are not empty. -/
def fullPairs (pairs : List KeyPair) : List KeyPair :=
  (readPairs pairs).map fun p => ⟨some p.1, some p.2⟩

/-- Importing the credentials of `a` into `row` leaves it as it is, whatever the nonces. -/
structure Returns (env : ImportEnv) (a row : AccountRow) : Prop where
  credentials : ∀ field, row.credentials field = present (a.credentials field) ∧
    env.Stays (row.credentials field)
  apiKeys : row.apiKeys = a.apiKeys.map fullPairs
  pairs : ∀ pairs, row.apiKeys = some pairs → ∀ pair ∈ pairs,
    env.Stays pair.apiKey ∧ env.Stays pair.apiSecret

theorem apply_eq_self_iff {u : CredentialUpdate} {row : AccountRow} :
    u.apply row = row ↔
      (∀ field, (u.credentials field).getD (row.credentials field) = row.credentials field) ∧
        u.apiKeys.getD row.apiKeys = row.apiKeys := by
  constructor
  · intro h
    exact ⟨fun field => congrFun (congrArg AccountRow.credentials h) field,
      congrArg AccountRow.apiKeys h⟩
  · rintro ⟨hcredentials, hkeys⟩
    rw [CredentialUpdate.apply, funext hcredentials, hkeys]

theorem storedPairs_eq_iff (env : ImportEnv) (account i : ℕ) {ps : List (String × String)}
    (hps : ∀ p ∈ ps, p.1 ≠ "" ∧ p.2 ≠ "") (qs : List KeyPair) :
    (∀ nonces, storedPairs { env with nonces := nonces } account i ps = qs) ↔
      qs = ps.map (fun p => ⟨some p.1, some p.2⟩) ∧
        ∀ q ∈ qs, env.Stays q.apiKey ∧ env.Stays q.apiSecret := by
  induction ps generalizing i qs with
  | nil =>
    constructor
    · intro h
      obtain rfl : [] = qs := h env.nonces
      exact ⟨rfl, nofun⟩
    · rintro ⟨rfl, -⟩ _
      rfl
  | cons p rest ih =>
    obtain ⟨apiKey, apiSecret⟩ := p
    obtain ⟨⟨hkey, hsecret⟩, hrest⟩ := List.forall_mem_cons.mp hps
    cases qs with
    | nil => exact iff_of_false (fun h => nomatch h env.nonces) fun h => nomatch h.1
    | cons q qs =>
      have hfirst := stored_eq_iff env (some apiKey) q.apiKey (.pool account i false)
      have hsecond := stored_eq_iff env (some apiSecret) q.apiSecret (.pool account i true)
      rw [present_some hkey] at hfirst
      rw [present_some hsecret] at hsecond
      have htail := ih (i + 1) hrest qs
      constructor
      · intro h
        have hcons := fun nonces => List.cons.inj (h nonces)
        obtain ⟨hq, hqstays⟩ := hfirst.mp fun nonces => congrArg KeyPair.apiKey (hcons nonces).1
        obtain ⟨hs, hsstays⟩ :=
          hsecond.mp fun nonces => congrArg KeyPair.apiSecret (hcons nonces).1
        obtain ⟨rfl, hqs⟩ := htail.mp fun nonces => (hcons nonces).2
        refine ⟨?_, List.forall_mem_cons.mpr ⟨⟨hqstays, hsstays⟩, hqs⟩⟩
        rw [List.map_cons, ← hq, ← hs]
      · rintro ⟨heq, hall⟩ nonces
        obtain ⟨rfl, rfl⟩ := List.cons.inj heq
        obtain ⟨⟨hqstays, hsstays⟩, hqs⟩ := List.forall_mem_cons.mp hall
        rw [storedPairs, hfirst.mpr ⟨rfl, hqstays⟩ nonces, hsecond.mpr ⟨rfl, hsstays⟩ nonces,
          htail.mpr ⟨rfl, hqs⟩ nonces]

theorem storedPool_eq_iff (env : ImportEnv) (account : ℕ) (pool x : Option (List KeyPair)) :
    (∀ nonces, (pool.map fun pairs =>
        storedPairs { env with nonces := nonces } account 0 (readPairs pairs)) = x) ↔
      x = pool.map fullPairs ∧ ∀ qs, x = some qs → ∀ q ∈ qs,
        env.Stays q.apiKey ∧ env.Stays q.apiSecret := by
  cases pool with
  | none =>
    constructor
    · intro h
      obtain rfl : none = x := h env.nonces
      exact ⟨rfl, nofun⟩
    · rintro ⟨rfl, -⟩ _
      rfl
  | some pairs =>
    have hfull : ∀ p ∈ readPairs pairs, p.1 ≠ "" ∧ p.2 ≠ "" := fun p hp =>
      of_decide_eq_true (List.mem_filter.mp hp).2
    cases x with
    | none => exact iff_of_false (fun h => nomatch h env.nonces) fun h => nomatch h.1
    | some qs =>
      have hpairs := storedPairs_eq_iff env account 0 hfull qs
      constructor
      · intro h
        obtain ⟨rfl, hstays⟩ := hpairs.mp fun nonces => Option.some.inj (h nonces)
        refine ⟨rfl, ?_⟩
        rintro _ ⟨⟩
        exact hstays
      · rintro ⟨heq, hstays⟩ nonces
        exact congrArg some (hpairs.mpr ⟨Option.some.inj heq, hstays qs rfl⟩ nonces)

theorem returns_iff (env : ImportEnv) (account : ℕ) (a row : AccountRow) :
    (∀ nonces, (update { env with nonces := nonces } true account a).apply row = row) ↔
      env.Returns a row := by
  have hfields : ∀ nonces, (update { env with nonces := nonces } true account a).apply row = row ↔
      (∀ field, stored { env with nonces := nonces } (a.credentials field)
          (.field account field) = row.credentials field) ∧
        (a.apiKeys.map fun pairs =>
          storedPairs { env with nonces := nonces } account 0 (readPairs pairs)) =
            row.apiKeys := fun nonces => apply_eq_self_iff
  simp only [hfields]
  constructor
  · intro h
    obtain ⟨hkeys, hpairs⟩ :=
      (storedPool_eq_iff env account a.apiKeys row.apiKeys).mp fun nonces => (h nonces).2
    exact ⟨fun field => (stored_eq_iff env _ _ _).mp fun nonces => (h nonces).1 field, hkeys, hpairs⟩
  · intro h nonces
    exact ⟨fun field => (stored_eq_iff env _ _ _).mpr (h.credentials field) nonces,
      (storedPool_eq_iff env account a.apiKeys row.apiKeys).mpr ⟨h.apiKeys, h.pairs⟩ nonces⟩

end ImportEnv

end BotHive.Backup
