import BotHive.Backup.Import
import BotHive.Library.Fallible

/-!
# When an import accepts an export

An export that comes back as it was sent is accepted exactly if its rows are within the limits
of an import, its references lead to rows of the document, and the schemas accept the configs
that it contains.

## Main definitions

- `importAccount`, `importBot`, `importScript`: the entries that an import reads of a row
- `Acceptable`: the condition

## Main results

- `validateImport_eq_ok_iff`
-/

namespace BotHive.Backup

-- ════════════════════════════════════════════════════════════════════════
-- Reading what was sent
-- ════════════════════════════════════════════════════════════════════════

section Wire

@[simp] theorem wire_undefined : wire .undefined = .undefined := rfl

@[simp] theorem wire_null : wire .null = .null := rfl

@[simp] theorem wire_str (s : String) : wire (.str s) = .str s := rfl

@[simp] theorem wire_num (q : ℚ) : wire (.num q) = .num q := rfl

@[simp] theorem wire_bool (b : Bool) : wire (.bool b) = .bool b := rfl

variable {fields : List (String × Value)}

theorem mem_copyFields {name : String} (h : name ∈ (Value.copyFields fields).map Prod.fst) :
    name ∈ fields.map Prod.fst := by
  induction fields with
  | nil => exact h
  | cons e rest ih =>
    rw [Value.copyFields] at h
    cases hcopy : e.2.jsonCopy with
    | none =>
      rw [hcopy] at h
      exact List.mem_cons_of_mem _ (ih h)
    | some w =>
      rw [hcopy, List.map_cons, List.mem_cons] at h
      rcases h with rfl | h
      · exact List.mem_cons_self
      · exact List.mem_cons_of_mem _ (ih h)

theorem ownField_eq_none {name : String} (h : name ∉ fields.map Prod.fst) :
    Value.ownField name fields = none := by
  induction fields with
  | nil => rfl
  | cons e rest ih =>
    rw [List.map_cons, List.mem_cons, not_or] at h
    rw [Value.ownField, if_neg (Ne.symm h.1), ih h.2]

/-- A field is read as it was sent; a dropped one is missing. -/
theorem ownField_copyFields (hnodup : (fields.map Prod.fst).Nodup) (name : String) :
    (Value.ownField name (Value.copyFields fields)).getD .undefined =
      wire ((Value.ownField name fields).getD .undefined) := by
  induction fields with
  | nil => rfl
  | cons e rest ih =>
    rw [List.map_cons, List.nodup_cons] at hnodup
    have hrest := ih hnodup.2
    rw [Value.copyFields, Value.ownField, wire]
    by_cases hname : e.1 = name
    · rw [if_pos hname, Option.getD_some]
      cases hcopy : e.2.jsonCopy with
      | none =>
        have habsent : name ∉ (Value.copyFields rest).map Prod.fst := fun hmem =>
          hnodup.1 (hname ▸ mem_copyFields hmem)
        dsimp only
        rw [ownField_eq_none habsent]
      | some w =>
        dsimp only
        rw [Value.ownField, if_pos hname]
    · rw [if_neg hname, ← wire, ← hrest]
      cases hcopy : e.2.jsonCopy with
      | none => rfl
      | some w =>
        dsimp only
        rw [Value.ownField, if_neg hname]

/-- The fields of an object whose names are no array indices. -/
theorem field_wire (hnodup : (fields.map Prod.fst).Nodup)
    (hindex : ∀ name ∈ fields.map Prod.fst, Value.arrayIndex? name = none) (name : String) :
    (wire (.obj fields)).field name = wire (Value.field (.obj fields) name) := by
  have horder : Value.propertyOrder (Value.copyFields fields) = Value.copyFields fields :=
    Value.propertyOrder_of_no_index fun name hname => hindex name (mem_copyFields hname)
  rw [wire, Value.jsonCopy, Option.getD_some, Value.fromEntries, horder]
  exact ownField_copyFields hnodup name

theorem isRecord_wire (fields : List (String × Value)) : isRecord (wire (.obj fields)) = true :=
  by rw [wire, Value.jsonCopy, Option.getD_some, Value.fromEntries, isRecord]

theorem copyItems_map {α : Type*} (f : α → Value) (h : ∀ x, ((f x).jsonCopy).isSome)
    (l : List α) : Value.copyItems (l.map f) = l.map fun x => wire (f x) := by
  induction l with
  | nil => rw [List.map_nil, Value.copyItems, List.map_nil]
  | cons x rest ih =>
    obtain ⟨w, hw⟩ := Option.isSome_iff_exists.mp (h x)
    rw [List.map_cons, Value.copyItems, ih, List.map_cons, wire, hw, Option.getD_some,
      Option.getD_some]

theorem wire_arr {α : Type*} (f : α → Value) (h : ∀ x, ((f x).jsonCopy).isSome) (l : List α) :
    wire (.arr (l.map f)) = .arr (l.map fun x => wire (f x)) := by
  rw [wire, Value.jsonCopy, copyItems_map f h, Option.getD_some]

end Wire

-- ════════════════════════════════════════════════════════════════════════
-- Accounts
-- ════════════════════════════════════════════════════════════════════════

/-- The halves of a pair, if it has both. -/
def pairTexts (pair : KeyPair) : Option (String × String) :=
  match pair.apiKey, pair.apiSecret with
  | some apiKey, some apiSecret => some (apiKey, apiSecret)
  | _, _ => none

/-- Every pair of a pool has both halves. -/
def PoolReadable (pool : Option (List KeyPair)) : Prop :=
  ∀ pairs, pool = some pairs → ∀ pair ∈ pairs, (pairTexts pair).isSome

/-- The entry that an import reads of an account. -/
def importAccount (includeCredentials : Bool) (a : AccountRow) : ImportAccount where
  name := a.name
  platform := a.platform
  credentials := fun field =>
    if includeCredentials then nullable (a.credentials field) else .undefined
  apiKeys :=
    if includeCredentials then some (a.apiKeys.map fun pairs => pairs.filterMap pairTexts)
    else none

section Accounts

variable {includeCredentials : Bool} {a : AccountRow}

theorem field_exportAccount (includeCredentials : Bool) (a : AccountRow) (name : String) :
    (wire (exportAccount includeCredentials a)).field name =
      wire ((exportAccount includeCredentials a).field name) := by
  have hnames : ([("name", Value.str a.name), ("platform", .str a.platform)] ++
      if includeCredentials then credentialEntries a else []).map Prod.fst =
      ["name", "platform"] ++ if includeCredentials then
        ["token", "clientId", "secret", "refreshToken", "apiKey", "apiSecret", "apiKeys"]
      else [] := by
    cases includeCredentials <;> rfl
  rw [exportAccount]
  apply field_wire
  · rw [hnames]
    cases includeCredentials <;> decide
  · rw [hnames]
    cases includeCredentials <;> decide

@[simp] theorem wire_nullable (value : Option String) : wire (nullable value) = nullable value := by
  cases value <;> rfl

theorem readPair_pairValue (pair : KeyPair) : readPair (wire (pairValue pair)) = pairTexts pair := by
  have hnodup : ([("apiKey", optional pair.apiKey),
      ("apiSecret", optional pair.apiSecret)].map Prod.fst).Nodup := by
    show ["apiKey", "apiSecret"].Nodup
    decide
  have hindex : ∀ name ∈ [("apiKey", optional pair.apiKey),
      ("apiSecret", optional pair.apiSecret)].map Prod.fst, Value.arrayIndex? name = none := by
    show ∀ name ∈ ["apiKey", "apiSecret"], Value.arrayIndex? name = none
    decide
  rw [readPair, pairValue, isRecord_wire, if_pos rfl, field_wire hnodup hindex,
    field_wire hnodup hindex, pairTexts]
  cases pair.apiKey <;> cases pair.apiSecret <;> rfl

theorem mapM_pairs (pairs : List KeyPair) :
    (pairs.map fun pair => wire (pairValue pair)).mapM readPair = pairs.mapM pairTexts := by
  rw [List.mapM_map]
  exact congrArg (fun f => pairs.mapM f) (funext readPair_pairValue)

/-- The pairs of a pool are read if all of them can be. -/
theorem mapM_pairTexts (pairs : List KeyPair) :
    pairs.mapM pairTexts =
      if ∀ pair ∈ pairs, (pairTexts pair).isSome then some (pairs.filterMap pairTexts)
      else none := by
  induction pairs with
  | nil => rfl
  | cons pair rest ih =>
    rw [List.mapM_cons, ih]
    cases hpair : pairTexts pair with
    | none =>
      have hnone : ¬ ∀ p ∈ pair :: rest, (pairTexts p).isSome := by
        intro hall
        have hhead := hall pair List.mem_cons_self
        rw [hpair] at hhead
        cases hhead
      rw [if_neg hnone]
      rfl
    | some texts =>
      rw [List.filterMap_cons_some hpair]
      by_cases hrest : ∀ pair ∈ rest, (pairTexts pair).isSome
      · rw [if_pos hrest, if_pos]
        · rfl
        · intro p hp
          rcases List.mem_cons.mp hp with rfl | hp
          · rw [hpair]
            rfl
          · exact hrest p hp
      · rw [if_neg hrest, if_neg]
        · rfl
        · exact fun hall => hrest fun p hp => hall p (List.mem_cons_of_mem pair hp)

theorem readPool_poolValue (pool : Option (List KeyPair)) [Decidable (PoolReadable pool)] :
    readPool (wire (poolValue pool)) =
      if PoolReadable pool then some (some (pool.map fun pairs => pairs.filterMap pairTexts))
      else none := by
  cases pool with
  | none =>
    rw [if_pos]
    · rfl
    · exact nofun
  | some pairs =>
    have hiff : PoolReadable (some pairs) ↔ ∀ pair ∈ pairs, (pairTexts pair).isSome := by
      constructor
      · exact fun h => h pairs rfl
      · rintro h _ ⟨⟩
        exact h
    have hread : readPool (wire (poolValue (some pairs))) =
        (pairs.mapM pairTexts).map fun pairs => some (some pairs) := by
      rw [poolValue, wire_arr pairValue (fun _ => rfl), readPool, mapM_pairs]
    rw [hread, mapM_pairTexts]
    by_cases hall : ∀ pair ∈ pairs, (pairTexts pair).isSome
    · rw [if_pos hall, if_pos (hiff.mpr hall)]
      rfl
    · rw [if_neg hall, if_neg fun h => hall (hiff.mp h)]
      rfl

theorem validateAccount_eq_ok_iff {entry : ImportAccount} :
    validateAccount (wire (exportAccount includeCredentials a)) = .ok entry ↔
      (validName a.name = true ∧ (includeCredentials = true → PoolReadable a.apiKeys)) ∧
        entry = importAccount includeCredentials a := by
  classical
  have hrecord : isRecord (wire (exportAccount includeCredentials a)) = true := isRecord_wire _
  have hname : (wire (exportAccount includeCredentials a)).field "name" = .str a.name := by
    rw [field_exportAccount]
    rfl
  have hplatform : (wire (exportAccount includeCredentials a)).field "platform" =
      .str a.platform := by
    rw [field_exportAccount]
    rfl
  have hcredentials : (fun field : CredentialField =>
      (wire (exportAccount includeCredentials a)).field field.name) =
      (importAccount includeCredentials a).credentials := by
    funext field
    rw [field_exportAccount]
    cases includeCredentials with
    | false => cases field <;> rfl
    | true =>
      have hfield : (exportAccount true a).field field.name = nullable (a.credentials field) := by
        cases field <;> rfl
      rw [hfield, wire_nullable]
      rfl
  have hpool : readPool ((wire (exportAccount includeCredentials a)).field "apiKeys") =
      if includeCredentials = true → PoolReadable a.apiKeys then
        some (importAccount includeCredentials a).apiKeys
      else none := by
    rw [field_exportAccount]
    cases includeCredentials with
    | false =>
      rw [if_pos nofun]
      rfl
    | true =>
      have hfield : (exportAccount true a).field "apiKeys" = poolValue a.apiKeys := rfl
      rw [hfield, readPool_poolValue]
      simp only [forall_const]
      rfl
  rw [validateAccount, hrecord, hname, hplatform]
  dsimp only
  rw [hpool, hcredentials]
  by_cases hvalid : validName a.name = true
  · rw [if_pos hvalid]
    by_cases hreadable : includeCredentials = true → PoolReadable a.apiKeys
    · rw [if_pos hreadable]
      constructor
      · rintro ⟨⟩
        exact ⟨⟨hvalid, hreadable⟩, rfl⟩
      · rintro ⟨-, rfl⟩
        rfl
    · rw [if_neg hreadable]
      exact iff_of_false nofun fun h => hreadable h.1.2
  · rw [if_neg hvalid]
    exact iff_of_false nofun fun h => hvalid h.1.1

end Accounts

-- ════════════════════════════════════════════════════════════════════════
-- Bots and scripts
-- ════════════════════════════════════════════════════════════════════════

@[simp] theorem wire_indexValue (index : Option ℕ) : wire (indexValue index) = indexValue index := by
  cases index <;> rfl

/-- What is read back is a value. -/
theorem jsonCopy_ne_undefined {v w : Value} (h : v.jsonCopy = some w) : w ≠ .undefined := by
  rintro rfl
  cases v <;> rw [Value.jsonCopy] at h <;> cases h

/-- The entry that an import reads of a bot. -/
def importBot (includeCredentials : Bool) (accounts : List AccountRow) (b : BotRow) : ImportBot where
  name := b.name
  platform := b.platform
  accountRef := ((accounts.findIdx? (·.id = b.accountId)).getD 0 : ℕ)
  config := wire (exportedConfig includeCredentials b)

/-- The entry that an import reads of a script. -/
def importScript (bots : List BotRow) (s : ScriptRow) : ImportScript where
  botRef := ((bots.findIdx? (·.id = s.botId)).getD 0 : ℕ)
  name := s.name
  trigger := s.trigger
  config := s.config.orElse (.obj [])
  enabled := .bool s.enabled

/-- An index leads to a row with the id that was looked for. -/
theorem row_of_findIdx? {R : Type*} {id : R → String} {rows : List R} {k : String} {i : ℕ}
    (h : rows.findIdx? (fun r => decide (id r = k)) = some i) :
    i < rows.length ∧ ∃ r, rows[i]? = some r ∧ id r = k := by
  obtain ⟨hi, hid, -⟩ := List.findIdx?_eq_some_iff_getElem.mp h
  exact ⟨hi, rows[i], List.getElem?_eq_getElem hi, of_decide_eq_true hid⟩

theorem not_exists_of_findIdx?_eq_none {R : Type*} {id : R → String} {rows : List R} {k : String}
    (h : rows.findIdx? (fun r => decide (id r = k)) = none) : ¬ ∃ r ∈ rows, id r = k := by
  rintro ⟨r, hr, hid⟩
  exact of_decide_eq_false (List.findIdx?_eq_none_iff.mp h r hr) hid

theorem wire_ne_undefined {v : Value} (h : v.jsonCopy.isSome) : wire v ≠ .undefined := by
  obtain ⟨w, hw⟩ := Option.isSome_iff_exists.mp h
  rw [wire, hw]
  exact jsonCopy_ne_undefined hw

section Bots

variable {schemas : ConfigSchemas} {includeCredentials : Bool} {accounts : List AccountRow}
  {b : BotRow}

theorem field_exportBot (includeCredentials : Bool) (accounts : List AccountRow) (b : BotRow)
    (name : String) :
    (wire (exportBot includeCredentials accounts b)).field name =
      wire ((exportBot includeCredentials accounts b).field name) := by
  rw [exportBot]
  apply field_wire
  · show ["name", "platform", "accountRef", "config"].Nodup
    decide
  · show ∀ name ∈ ["name", "platform", "accountRef", "config"], Value.arrayIndex? name = none
    decide

theorem validateBot_eq_ok_iff (hjson : (exportedConfig includeCredentials b).jsonCopy.isSome)
    {entry : ImportBot} :
    validateBot schemas accounts.length (wire (exportBot includeCredentials accounts b)) =
        .ok entry ↔
      (validName b.name = true ∧ (∃ a ∈ accounts, a.id = b.accountId) ∧
          schemas.botConfig (wire (exportedConfig includeCredentials b)) = true) ∧
        entry = importBot includeCredentials accounts b := by
  have hrecord : isRecord (wire (exportBot includeCredentials accounts b)) = true :=
    isRecord_wire _
  have hname : (wire (exportBot includeCredentials accounts b)).field "name" = .str b.name := by
    rw [field_exportBot]
    rfl
  have hplatform : (wire (exportBot includeCredentials accounts b)).field "platform" =
      .str b.platform := by
    rw [field_exportBot]
    rfl
  have hconfig : (wire (exportBot includeCredentials accounts b)).field "config" =
      wire (exportedConfig includeCredentials b) := by
    rw [field_exportBot]
    rfl
  have href : (wire (exportBot includeCredentials accounts b)).field "accountRef" =
      indexValue (accounts.findIdx? (·.id = b.accountId)) := by
    rw [field_exportBot]
    exact wire_indexValue _
  rw [validateBot, hrecord, hname, hplatform, href]
  cases hindex : accounts.findIdx? (·.id = b.accountId) with
  | none => exact iff_of_false nofun fun h => not_exists_of_findIdx?_eq_none hindex h.1.2.1
  | some i =>
    obtain ⟨hi, a, ha, hid⟩ := row_of_findIdx? hindex
    have howned : ∃ a ∈ accounts, a.id = b.accountId := ⟨a, List.mem_of_getElem? ha, hid⟩
    have hlow : (0 : ℚ) ≤ i := Nat.cast_nonneg i
    have hhigh : (i : ℚ) < accounts.length := Nat.cast_lt.mpr hi
    rw [indexValue]
    dsimp only
    by_cases hvalid : validName b.name = true
    · rw [if_pos ⟨hvalid, hlow, hhigh⟩, hconfig]
      split
      · rename_i hundefined
        exact absurd hundefined (wire_ne_undefined hjson)
      · by_cases hschema : schemas.botConfig (wire (exportedConfig includeCredentials b)) = true
        · rw [if_pos hschema]
          constructor
          · rintro ⟨⟩
            refine ⟨⟨hvalid, howned, hschema⟩, ?_⟩
            rw [importBot, hindex, Option.getD_some]
          · rintro ⟨-, rfl⟩
            rw [importBot, hindex, Option.getD_some]
        · rw [if_neg hschema]
          exact iff_of_false nofun fun h => hschema h.1.2.2
    · rw [if_neg fun h => hvalid h.1]
      exact iff_of_false nofun fun h => hvalid h.1.1

end Bots

section Scripts

variable {schemas : ConfigSchemas} {bots : List BotRow} {s : ScriptRow}

theorem field_exportScript (bots : List BotRow) (s : ScriptRow) (name : String) :
    (wire (exportScript bots s)).field name = wire ((exportScript bots s).field name) := by
  rw [exportScript]
  apply field_wire
  · show ["botRef", "name", "trigger", "config", "enabled"].Nodup
    decide
  · show ∀ name ∈ ["botRef", "name", "trigger", "config", "enabled"],
      Value.arrayIndex? name = none
    decide

/-- A config of a script is read as it was sent. -/
theorem wire_scriptConfig (hjson : s.config.jsonCopy = some s.config) :
    wire (s.config.orElse (.obj [])) = s.config.orElse (.obj []) := by
  have hempty : Value.propertyOrder ([] : List (String × Value)) = [] :=
    Value.propertyOrder_of_no_index fun _ hname => absurd hname List.not_mem_nil
  rw [Value.orElse]
  split
  · rw [wire, Value.jsonCopy, Value.copyFields, Value.fromEntries, hempty, Option.getD_some]
  · rw [wire, hjson, Option.getD_some]

theorem orElse_orElse (v : Value) : (v.orElse (.obj [])).orElse (.obj []) = v.orElse (.obj []) := by
  cases v <;> rfl

theorem validateScript_eq_ok_iff (hjson : s.config.jsonCopy = some s.config)
    {entry : ImportScript} :
    validateScript schemas bots.length (wire (exportScript bots s)) = .ok entry ↔
      (validName s.name = true ∧ (∃ b ∈ bots, b.id = s.botId) ∧ s.trigger ∈ scriptTriggers ∧
          schemas.validateScriptConfig (s.config.orElse (.obj [])) = []) ∧
        entry = importScript bots s := by
  have hrecord : isRecord (wire (exportScript bots s)) = true := isRecord_wire _
  have hname : (wire (exportScript bots s)).field "name" = .str s.name := by
    rw [field_exportScript]
    rfl
  have htrigger : (wire (exportScript bots s)).field "trigger" = .str s.trigger := by
    rw [field_exportScript]
    rfl
  have hconfig : (wire (exportScript bots s)).field "config" = s.config.orElse (.obj []) := by
    rw [field_exportScript]
    exact wire_scriptConfig hjson
  have henabled : (wire (exportScript bots s)).field "enabled" = .bool s.enabled := by
    rw [field_exportScript]
    rfl
  have href : (wire (exportScript bots s)).field "botRef" =
      indexValue (bots.findIdx? (·.id = s.botId)) := by
    rw [field_exportScript]
    exact wire_indexValue _
  rw [validateScript, hrecord, hname, htrigger, href]
  cases hindex : bots.findIdx? (·.id = s.botId) with
  | none => exact iff_of_false nofun fun h => not_exists_of_findIdx?_eq_none hindex h.1.2.1
  | some i =>
    obtain ⟨hi, b, hb, hid⟩ := row_of_findIdx? hindex
    have howned : ∃ b ∈ bots, b.id = s.botId := ⟨b, List.mem_of_getElem? hb, hid⟩
    have hlow : (0 : ℚ) ≤ i := Nat.cast_nonneg i
    have hhigh : (i : ℚ) < bots.length := Nat.cast_lt.mpr hi
    rw [indexValue]
    dsimp only
    by_cases hvalid : validName s.name = true
    · rw [if_pos ⟨hvalid, hlow, hhigh⟩]
      by_cases hlisted : s.trigger ∈ scriptTriggers
      · rw [if_pos hlisted, hconfig, orElse_orElse, henabled]
        cases hproblems : schemas.validateScriptConfig (s.config.orElse (.obj [])) with
        | nil =>
          constructor
          · rintro ⟨⟩
            refine ⟨⟨hvalid, howned, hlisted, rfl⟩, ?_⟩
            rw [importScript, hindex, Option.getD_some]
          · rintro ⟨-, rfl⟩
            rw [importScript, hindex, Option.getD_some]
        | cons problem rest => exact iff_of_false nofun fun h => nomatch h.1.2.2.2
      · rw [if_neg hlisted]
        exact iff_of_false nofun fun h => hlisted h.1.2.2.1
    · rw [if_neg fun h => hvalid h.1]
      exact iff_of_false nofun fun h => hvalid h.1.1

end Scripts

-- ════════════════════════════════════════════════════════════════════════
-- Documents
-- ════════════════════════════════════════════════════════════════════════

/-- An export that an import accepts. -/
structure Acceptable (schemas : ConfigSchemas) (t : Tables) (owner : String)
    (includeCredentials : Bool) : Prop where
  accounts_le : (exportedAccounts t owner).length ≤ maxAccounts
  bots_le : (exportedBots t owner).length ≤ maxBots
  scripts_le : (exportedScripts t owner).length ≤ maxScripts
  accounts : ∀ a ∈ exportedAccounts t owner,
    validName a.name = true ∧ (includeCredentials = true → PoolReadable a.apiKeys)
  /-- Among others, bots use accounts of their owner. -/
  bots : ∀ b ∈ exportedBots t owner, validName b.name = true ∧
    (∃ a ∈ exportedAccounts t owner, a.id = b.accountId) ∧
      schemas.botConfig (wire (exportedConfig includeCredentials b)) = true
  scripts : ∀ s ∈ exportedScripts t owner, validName s.name = true ∧
    s.trigger ∈ scriptTriggers ∧ schemas.validateScriptConfig (s.config.orElse (.obj [])) = []

/-- What an import reads of an export. -/
def importPayload (t : Tables) (owner : String) (includeCredentials : Bool) : ImportPayload where
  accounts := (exportedAccounts t owner).map (importAccount includeCredentials)
  bots := (exportedBots t owner).map
    (importBot includeCredentials (exportedAccounts t owner))
  scripts := (exportedScripts t owner).map (importScript (exportedBots t owner))

section Documents

variable {schemas : ConfigSchemas} {db : Database} {owner : String} {includeCredentials : Bool}
  {exportedAt : String}

theorem mem_byCreation {R : Type*} {createdAt : R → ℕ} {id : R → String} {rows : List R} {r : R} :
    r ∈ byCreation createdAt id rows ↔ r ∈ rows := by
  rw [byCreation, List.mem_mergeSort]

theorem mem_exportedAccounts {t : Tables} {a : AccountRow} :
    a ∈ exportedAccounts t owner ↔ a ∈ t.accounts ∧ a.ownerId = owner := by
  rw [exportedAccounts, mem_byCreation, List.mem_filter, decide_eq_true_eq]

theorem mem_exportedBots {t : Tables} {b : BotRow} :
    b ∈ exportedBots t owner ↔ b ∈ t.bots ∧ b.ownerId = owner := by
  rw [exportedBots, mem_byCreation, List.mem_filter, decide_eq_true_eq]

theorem mem_exportedScripts {t : Tables} {s : ScriptRow} :
    s ∈ exportedScripts t owner ↔ s ∈ t.scripts ∧ ∃ b ∈ exportedBots t owner, b.id = s.botId := by
  rw [exportedScripts, mem_byCreation, List.mem_filter, List.any_eq_true]
  simp only [decide_eq_true_eq, mem_exportedBots]
  constructor
  · rintro ⟨hs, b, hb, hid, howner⟩
    exact ⟨hs, b, ⟨hb, howner⟩, hid⟩
  · rintro ⟨hs, b, ⟨hb, howner⟩, hid⟩
    exact ⟨hs, b, hb, hid, howner⟩

theorem jsonCopy_configValue {b : BotRow} (hb : b ∈ db.bots) :
    b.configValue.jsonCopy = some b.configValue := by
  rw [BotRow.configValue]
  cases hconfig : b.config with
  | none => rfl
  | some config => exact db.botConfigs b hb config hconfig

/-- A config that is exported can be sent. -/
theorem exportedConfig_isSome (includeCredentials : Bool) {b : BotRow} (hb : b ∈ db.bots) :
    (exportedConfig includeCredentials b).jsonCopy.isSome := by
  have hjson := jsonCopy_configValue hb
  cases includeCredentials with
  | false =>
    rw [exportedConfig, if_neg Bool.false_ne_true, maskWalletPrivateKey, hjson]
    split
    · rfl
    · rename_i copy hcopy
      rw [← Option.some.inj hcopy, hjson]
      rfl
    · rename_i hnone
      cases hnone
  | true =>
    rw [exportedConfig, if_pos rfl, Value.orElse]
    split
    · rfl
    · rw [hjson]
      rfl

theorem field_exportBackup (t : Tables) (owner : String) (includeCredentials : Bool)
    (exportedAt name : String) :
    (wire (exportBackup t owner includeCredentials exportedAt)).field name =
      wire ((exportBackup t owner includeCredentials exportedAt).field name) := by
  rw [exportBackup]
  apply field_wire
  · show ["version", "app", "exportedAt", "accounts", "bots", "scripts"].Nodup
    decide
  · show ∀ name ∈ ["version", "app", "exportedAt", "accounts", "bots", "scripts"],
      Value.arrayIndex? name = none
    decide

theorem mapM_validateAccount {entries : List ImportAccount} :
    ((exportedAccounts db.toTables owner).map fun a =>
        wire (exportAccount includeCredentials a)).mapM validateAccount = .ok entries ↔
      (∀ a ∈ exportedAccounts db.toTables owner, validName a.name = true ∧
          (includeCredentials = true → PoolReadable a.apiKeys)) ∧
        entries =
          (exportedAccounts db.toTables owner).map (importAccount includeCredentials) := by
  rw [List.mapM_map]
  exact Except.mapM_eq_ok_iff fun a _ entry => validateAccount_eq_ok_iff

theorem mapM_validateBot {entries : List ImportBot} :
    ((exportedBots db.toTables owner).map fun b =>
        wire (exportBot includeCredentials (exportedAccounts db.toTables owner) b)).mapM
          (validateBot schemas (exportedAccounts db.toTables owner).length) = .ok entries ↔
      (∀ b ∈ exportedBots db.toTables owner, validName b.name = true ∧
          (∃ a ∈ exportedAccounts db.toTables owner, a.id = b.accountId) ∧
            schemas.botConfig (wire (exportedConfig includeCredentials b)) = true) ∧
        entries = (exportedBots db.toTables owner).map
          (importBot includeCredentials (exportedAccounts db.toTables owner)) := by
  rw [List.mapM_map]
  exact Except.mapM_eq_ok_iff fun b hb entry =>
    validateBot_eq_ok_iff (exportedConfig_isSome _ (mem_exportedBots.mp hb).1)

theorem mapM_validateScript {entries : List ImportScript} :
    ((exportedScripts db.toTables owner).map fun s =>
        wire (exportScript (exportedBots db.toTables owner) s)).mapM
          (validateScript schemas (exportedBots db.toTables owner).length) = .ok entries ↔
      (∀ s ∈ exportedScripts db.toTables owner, validName s.name = true ∧
          s.trigger ∈ scriptTriggers ∧
            schemas.validateScriptConfig (s.config.orElse (.obj [])) = []) ∧
        entries = (exportedScripts db.toTables owner).map
          (importScript (exportedBots db.toTables owner)) := by
  rw [List.mapM_map]
  refine Except.mapM_eq_ok_iff fun s hs entry => ?_
  obtain ⟨hs, howned⟩ := mem_exportedScripts.mp hs
  rw [Function.comp_apply, validateScript_eq_ok_iff (db.scriptConfigs s hs)]
  exact ⟨fun h => ⟨⟨h.1.1, h.1.2.2⟩, h.2⟩, fun h => ⟨⟨h.1.1, howned, h.1.2⟩, h.2⟩⟩

theorem validateImport_eq_ok_iff {payload : ImportPayload} :
    validateImport schemas (wire (exportBackup db.toTables owner includeCredentials exportedAt)) =
        .ok payload ↔
      Acceptable schemas db.toTables owner includeCredentials ∧
        payload = importPayload db.toTables owner includeCredentials := by
  have hrecord : isRecord (wire (exportBackup db.toTables owner includeCredentials exportedAt)) =
      true := isRecord_wire _
  have hversion : supportedVersion ((wire (exportBackup db.toTables owner includeCredentials
      exportedAt)).field "version") = true := by
    rw [field_exportBackup]
    show decide ((1 : ℚ) = 1) = true
    decide
  have haccounts : items? ((wire (exportBackup db.toTables owner includeCredentials
      exportedAt)).field "accounts") = some ((exportedAccounts db.toTables owner).map fun a =>
        wire (exportAccount includeCredentials a)) := by
    rw [field_exportBackup]
    exact congrArg items? (wire_arr (exportAccount includeCredentials) (fun _ => rfl) _)
  have hbots : items? ((wire (exportBackup db.toTables owner includeCredentials
      exportedAt)).field "bots") = some ((exportedBots db.toTables owner).map fun b =>
        wire (exportBot includeCredentials (exportedAccounts db.toTables owner) b)) := by
    rw [field_exportBackup]
    exact congrArg items? (wire_arr _ (fun _ => rfl) _)
  have hscripts : items? ((wire (exportBackup db.toTables owner includeCredentials
      exportedAt)).field "scripts") = some ((exportedScripts db.toTables owner).map fun s =>
        wire (exportScript (exportedBots db.toTables owner) s)) := by
    rw [field_exportBackup]
    exact congrArg items? (wire_arr _ (fun _ => rfl) _)
  rw [validateImport, hrecord, haccounts, hbots, hscripts]
  dsimp only
  rw [hversion, Bool.not_true, if_neg Bool.false_ne_true, List.length_map, List.length_map,
    List.length_map]
  by_cases hlimits : (exportedAccounts db.toTables owner).length ≤ maxAccounts ∧
      (exportedBots db.toTables owner).length ≤ maxBots ∧
        (exportedScripts db.toTables owner).length ≤ maxScripts
  · rw [if_neg (not_lt.mpr hlimits.1), if_neg (not_lt.mpr hlimits.2.1),
      if_neg (not_lt.mpr hlimits.2.2), Except.bind_eq_ok_iff]
    constructor
    · rintro ⟨accounts, ha, hrest⟩
      obtain ⟨bots, hb, hrest⟩ := Except.bind_eq_ok_iff.mp hrest
      obtain ⟨scripts, hs, hpayload⟩ := Except.bind_eq_ok_iff.mp hrest
      obtain ⟨haccepted, rfl⟩ := mapM_validateAccount.mp ha
      obtain ⟨hbaccepted, rfl⟩ := mapM_validateBot.mp hb
      obtain ⟨hsaccepted, rfl⟩ := mapM_validateScript.mp hs
      exact ⟨⟨hlimits.1, hlimits.2.1, hlimits.2.2, haccepted, hbaccepted, hsaccepted⟩,
        (Except.ok.inj hpayload).symm⟩
    · rintro ⟨h, rfl⟩
      refine ⟨_, mapM_validateAccount.mpr ⟨h.accounts, rfl⟩, Except.bind_eq_ok_iff.mpr ?_⟩
      refine ⟨_, mapM_validateBot.mpr ⟨h.bots, rfl⟩, Except.bind_eq_ok_iff.mpr ?_⟩
      exact ⟨_, mapM_validateScript.mpr ⟨h.scripts, rfl⟩, rfl⟩
  · refine iff_of_false ?_ fun h => hlimits ⟨h.1.accounts_le, h.1.bots_le, h.1.scripts_le⟩
    intro hok
    split_ifs at hok with ha hb hs
    exact hlimits ⟨not_lt.mp ha, not_lt.mp hb, not_lt.mp hs⟩

end Documents

end BotHive.Backup
