import BotHive.Backup.StoredAgain

/-!
# Importing an export

An export that is imported again, with nothing changed in between, should leave accounts, bots
and scripts as they were. An import finds rows by name, so several rows of one name share one
row, where the last one is written; and it writes what the export contains, which lacks the
wallet keys unless they were asked for. The round trip holds exactly if the export is accepted
and every row is written with what it holds.

## Main definitions

- `accountTarget`, `botTarget`, `scriptTarget`: the row that an import takes an entry to
- `RoundTrips`: importing an export changes nothing
- `SurvivesImport`: the condition

## Main results

- `roundTrips_iff_survivesImport`
-/

namespace BotHive.Backup

open Credentials

section Targets

variable (t : Tables) (owner : String)

/-- The account to which the entry of an account is imported. -/
def accountTarget (a : AccountRow) : Option String :=
  (t.accounts.find? fun c =>
    c.ownerId = owner ∧ c.platform = a.platform ∧ c.name = a.name).map AccountRow.id

/-- The account for which the entry of a bot is imported. -/
def importedAccount (b : BotRow) : Option String :=
  (t.accounts.find? (·.id = b.accountId)).bind (accountTarget t owner)

/-- The bot to which the entry of a bot is imported. -/
def botTarget (b : BotRow) : Option String :=
  (importedAccount t owner b).bind fun accountId =>
    (t.bots.find? fun c =>
      c.accountId = accountId ∧ c.ownerId = owner ∧ c.name = b.name).map BotRow.id

/-- The bot for which the entry of a script is imported. -/
def importedBot (s : ScriptRow) : Option String :=
  (t.bots.find? (·.id = s.botId)).bind (botTarget t owner)

/-- The script to which the entry of a script is imported. -/
def scriptTarget (s : ScriptRow) : Option String :=
  (importedBot t owner s).bind fun botId =>
    (t.scripts.find? fun c => c.botId = botId ∧ c.name = s.name).map ScriptRow.id

end Targets

/-- Importing an export of the owner leaves every table as it is, whatever nonces are drawn. -/
def RoundTrips (env : ImportEnv) (db : Database) (owner : String) (includeCredentials : Bool) :
    Prop :=
  ∀ nonces exportedAt, ∃ stats,
    ImportEnv.importBackup { env with nonces := nonces } db.toTables owner
      (wire (exportBackup db.toTables owner includeCredentials exportedAt)) =
        .ok (db.toTables, stats)

/-- The condition: the export is accepted and can be stored; each bot and script finds a row; and
    the last entry that is imported to a row carries what the row holds. -/
structure SurvivesImport (env : ImportEnv) (t : Tables) (owner : String)
    (includeCredentials : Bool) : Prop where
  acceptable : Acceptable env.schemas t owner includeCredentials
  storable : includeCredentials = true → ∀ a ∈ exportedAccounts t owner, env.AccountStorable a
  accounts : includeCredentials = true → ∀ row ∈ t.accounts, ∀ a,
    Upsert.lastInto (accountTarget t owner) (exportedAccounts t owner) row.id = some a →
      env.Returns a row
  botsFound : ∀ b ∈ exportedBots t owner, (botTarget t owner b).isSome
  bots : ∀ row ∈ t.bots, ∀ b,
    Upsert.lastInto (botTarget t owner) (exportedBots t owner) row.id = some b →
      row.config = some ((wire (exportedConfig includeCredentials b)).orElse (.obj []))
  scriptsFound : ∀ s ∈ exportedScripts t owner, (scriptTarget t owner s).isSome
  scripts : ∀ row ∈ t.scripts, ∀ s,
    Upsert.lastInto (scriptTarget t owner) (exportedScripts t owner) row.id = some s →
      row.trigger = s.trigger ∧ row.config = s.config.orElse (.obj []) ∧ row.enabled = s.enabled

-- ════════════════════════════════════════════════════════════════════════
-- Accounts
-- ════════════════════════════════════════════════════════════════════════

section Accounts

variable {env : ImportEnv} {db : Database} {owner : String} {includeCredentials : Bool}

/-- How the entry of an account is imported. -/
def accountOp (env : ImportEnv) (owner : String) (includeCredentials : Bool)
    (e : AccountRow × ℕ) : Upsert AccountRow where
  fits := fun c => c.ownerId = owner ∧ c.platform = e.1.platform ∧ c.name = e.1.name
  write := (env.update includeCredentials e.2 e.1).apply
  make := fun rows => (env.update includeCredentials e.2 e.1).apply
    { id := env.newId rows.length
      ownerId := owner
      name := e.1.name
      platform := e.1.platform
      createdAt := env.now
      credentials := fun _ => none
      apiKeys := none }

theorem accountUpsert_eq_ok_iff {e : AccountRow × ℕ} {u : Upsert AccountRow} :
    env.accountUpsert owner (Prod.map (importAccount includeCredentials) id e) = .ok u ↔
      (includeCredentials = true → env.AccountStorable e.1) ∧
        u = accountOp env owner includeCredentials e := by
  rw [ImportEnv.accountUpsert, Except.bind_eq_ok_iff]
  constructor
  · rintro ⟨credentials, hcredentials, hu⟩
    obtain ⟨hstorable, rfl⟩ := ImportEnv.credentialsData_eq_ok_iff.mp hcredentials
    exact ⟨hstorable, (Except.ok.inj hu).symm⟩
  · rintro ⟨hstorable, rfl⟩
    exact ⟨_, ImportEnv.credentialsData_eq_ok_iff.mpr ⟨hstorable, rfl⟩, rfl⟩

/-- The entries of the accounts of an export, as they are imported. -/
def accountOps (env : ImportEnv) (t : Tables) (owner : String) (includeCredentials : Bool) :
    List (Upsert AccountRow) :=
  (exportedAccounts t owner).zipIdx.map (accountOp env owner includeCredentials)

theorem lawful_accountOps (env : ImportEnv) (t : Tables) (owner : String)
    (includeCredentials : Bool) :
    Upsert.Lawful AccountRow.id (accountOps env t owner includeCredentials) where
  key_write u hu r := by
    obtain ⟨e, -, rfl⟩ := List.mem_map.mp hu
    rfl
  fits_write u hu v hv r := by
    obtain ⟨e, -, rfl⟩ := List.mem_map.mp hu
    obtain ⟨e', -, rfl⟩ := List.mem_map.mp hv
    rfl
  write_write u hu v hv r := by
    obtain ⟨e, -, rfl⟩ := List.mem_map.mp hu
    obtain ⟨e', -, rfl⟩ := List.mem_map.mp hv
    cases includeCredentials <;> rfl

theorem zipIdx_fst {R : Type*} (l : List R) : l.zipIdx.map Prod.fst = l :=
  List.zipIdx_map_fst 0 l

theorem fst_mem_of_mem_zipIdx {R : Type*} {l : List R} {e : R × ℕ} (h : e ∈ l.zipIdx) :
    e.1 ∈ l := by
  have hmem := List.mem_map_of_mem (f := Prod.fst) h
  rwa [zipIdx_fst] at hmem

theorem runEach_accounts {x : List AccountRow × List (String × Bool)} :
    Upsert.runEach AccountRow.id (env.accountUpsert owner)
        (importPayload db.toTables owner includeCredentials).accounts.zipIdx db.accounts = .ok x ↔
      (includeCredentials = true →
          ∀ a ∈ exportedAccounts db.toTables owner, env.AccountStorable a) ∧
        x = Upsert.runAll AccountRow.id (accountOps env db.toTables owner includeCredentials)
          db.accounts := by
  have hzip : (importPayload db.toTables owner includeCredentials).accounts.zipIdx =
      (exportedAccounts db.toTables owner).zipIdx.map
        (Prod.map (importAccount includeCredentials) id) := List.zipIdx_map
  rw [hzip, Upsert.runEach_map, Upsert.runEach_eq_ok_iff fun e _ u => accountUpsert_eq_ok_iff]
  refine and_congr_left fun _ => ?_
  constructor
  · intro h hinclude a ha
    rw [← zipIdx_fst (exportedAccounts db.toTables owner)] at ha
    obtain ⟨e, he, rfl⟩ := List.mem_map.mp ha
    exact h e he hinclude
  · intro h e he hinclude
    exact h hinclude e.1 (fst_mem_of_mem_zipIdx he)

/-- Every account finds a row: at least itself. -/
theorem accountTarget_isSome {t : Tables} {a : AccountRow} (ha : a ∈ exportedAccounts t owner) :
    (accountTarget t owner a).isSome := by
  obtain ⟨hmem, howner⟩ := mem_exportedAccounts.mp ha
  rw [accountTarget, Option.isSome_map, List.find?_isSome]
  exact ⟨a, hmem, decide_eq_true ⟨howner, rfl, rfl⟩⟩

theorem target_accountOp (e : AccountRow × ℕ) :
    (accountOp env owner includeCredentials e).target AccountRow.id db.accounts =
      accountTarget db.toTables owner e.1 :=
  rfl

theorem runAll_accounts_iff :
    (Upsert.runAll AccountRow.id (accountOps env db.toTables owner includeCredentials)
        db.accounts).1 = db.accounts ↔
      ∀ row ∈ db.accounts, ∀ e, Upsert.lastInto (fun e => accountTarget db.toTables owner e.1)
        (exportedAccounts db.toTables owner).zipIdx row.id = some e →
          (accountOp env owner includeCredentials e).write row = row := by
  rw [accountOps, Upsert.runAll_map_eq_self_iff (lawful_accountOps ..)
    fun e _ => target_accountOp e]
  exact and_iff_right fun e he => accountTarget_isSome (fst_mem_of_mem_zipIdx he)

theorem refs_accounts :
    (Upsert.runAll AccountRow.id (accountOps env db.toTables owner includeCredentials)
        db.accounts).2.map (fun ref => some ref.1) =
      (exportedAccounts db.toTables owner).map (accountTarget db.toTables owner) := by
  rw [accountOps, Upsert.refs_runAll_map (lawful_accountOps ..) (fun e _ => target_accountOp e)
    fun e he => accountTarget_isSome (fst_mem_of_mem_zipIdx he)]
  have hfst := congrArg (List.map (accountTarget db.toTables owner))
    (zipIdx_fst (exportedAccounts db.toTables owner))
  rw [List.map_map] at hfst
  exact hfst

/-- The last account of an export, with its index and without. -/
theorem lastInto_zipIdx (t : Tables) (owner id : String) :
    (Upsert.lastInto (fun e => accountTarget t owner e.1)
        (exportedAccounts t owner).zipIdx id).map Prod.fst =
      Upsert.lastInto (accountTarget t owner) (exportedAccounts t owner) id := by
  have hfilter : (((exportedAccounts t owner).zipIdx.map Prod.fst).filter fun a =>
      decide (accountTarget t owner a = some id)) =
      ((exportedAccounts t owner).zipIdx.filter fun e =>
        decide (accountTarget t owner e.1 = some id)).map Prod.fst := List.filter_map
  rw [zipIdx_fst] at hfilter
  rw [Upsert.lastInto, ← List.getLast?_map, ← hfilter, Upsert.lastInto]

/-- The accounts stay as they are, whatever the nonces, exactly if the last entry of each one
    returns. -/
theorem accounts_kept_iff :
    (∀ nonces, (Upsert.runAll AccountRow.id
        (accountOps { env with nonces := nonces } db.toTables owner includeCredentials)
          db.accounts).1 = db.accounts) ↔
      (includeCredentials = true → ∀ row ∈ db.accounts, ∀ a,
        Upsert.lastInto (accountTarget db.toTables owner) (exportedAccounts db.toTables owner)
          row.id = some a → env.Returns a row) := by
  simp only [runAll_accounts_iff]
  constructor
  · rintro h rfl row hrow a ha
    rw [← lastInto_zipIdx, Option.map_eq_some_iff] at ha
    obtain ⟨⟨_, i⟩, hlast, rfl⟩ := ha
    exact (ImportEnv.returns_iff env i _ row).mp fun nonces => h nonces row hrow _ hlast
  · rintro h nonces row hrow ⟨a, i⟩ hlast
    cases includeCredentials with
    | false => rfl
    | true =>
      have ha := (lastInto_zipIdx db.toTables owner row.id).symm.trans (congrArg _ hlast)
      exact (ImportEnv.returns_iff env i a row).mpr (h rfl row hrow a ha) nonces

end Accounts

-- ════════════════════════════════════════════════════════════════════════
-- References
-- ════════════════════════════════════════════════════════════════════════

section References

/-- A reference leads to the id that the entry of its row has been imported to. -/
theorem resolve_index {R : Type*} {id : R → String} {rows : List R} {target : R → Option String}
    {ids : List String} (hids : ids.map some = rows.map target) {k x : String}
    (hrow : ∃ r ∈ rows, id r = k) (htarget : ∀ r ∈ rows, id r = k → target r = some x)
    (hne : x ≠ "") :
    ImportEnv.resolve ids
      ((((rows.findIdx? fun r => decide (id r = k)).getD 0 : ℕ) : ℚ)) = some x := by
  cases hindex : rows.findIdx? fun r => decide (id r = k) with
  | none => exact absurd hrow (not_exists_of_findIdx?_eq_none hindex)
  | some i =>
    obtain ⟨-, r, hr, hid⟩ := row_of_findIdx? hindex
    have hx := congrArg (fun l => l[i]?) hids
    rw [List.getElem?_map, List.getElem?_map, hr, Option.map_some,
      htarget r (List.mem_of_getElem? hr) hid, Option.map_eq_some_iff] at hx
    obtain ⟨y, hy, heq⟩ := hx
    rw [ImportEnv.resolve, Option.getD_some, Value.natural?_natCast, Option.bind_some, hy,
      Option.some.inj heq]
    exact Option.filter_some_pos (decide_eq_true hne)

end References

-- ════════════════════════════════════════════════════════════════════════
-- Bots
-- ════════════════════════════════════════════════════════════════════════

section Bots

variable {env : ImportEnv} {db : Database} {owner : String} {includeCredentials : Bool}

/-- How the entry of a bot is imported. -/
def botOp (env : ImportEnv) (t : Tables) (owner : String) (includeCredentials : Bool)
    (b : BotRow) : Upsert BotRow :=
  let accountId := (importedAccount t owner b).getD ""
  let config := (wire (exportedConfig includeCredentials b)).orElse (.obj [])
  { fits := fun c => c.accountId = accountId ∧ c.ownerId = owner ∧ c.name = b.name
    write := fun c => { c with config := some config }
    make := fun rows =>
      { id := env.newId rows.length
        ownerId := owner
        accountId := accountId
        name := b.name
        platform := b.platform
        createdAt := env.now
        config := some config } }

theorem accountTarget_ne_empty {a : AccountRow} {accountId : String}
    (h : accountTarget db.toTables owner a = some accountId) : accountId ≠ "" := by
  obtain ⟨c, hc, rfl⟩ := Option.map_eq_some_iff.mp h
  exact db.accountIds_ne c (List.mem_of_find?_eq_some hc)

/-- The account of a bot that uses an account of its owner. -/
theorem importedAccount_eq {a : AccountRow} (ha : a ∈ exportedAccounts db.toTables owner)
    {b : BotRow} (hid : a.id = b.accountId) :
    importedAccount db.toTables owner b = accountTarget db.toTables owner a := by
  rw [importedAccount, ← hid, Upsert.find?_key _ db.accountIds (mem_exportedAccounts.mp ha).1,
    Option.bind_some]

theorem botUpsert_eq_ok_iff {ids : List String}
    (hids : ids.map some =
      (exportedAccounts db.toTables owner).map (accountTarget db.toTables owner))
    {b : BotRow} (howned : ∃ a ∈ exportedAccounts db.toTables owner, a.id = b.accountId)
    {u : Upsert BotRow} :
    env.botUpsert owner ids
        (importBot includeCredentials (exportedAccounts db.toTables owner) b) = .ok u ↔
      True ∧ u = botOp env db.toTables owner includeCredentials b := by
  obtain ⟨a, ha, hid⟩ := howned
  obtain ⟨accountId, htarget⟩ := Option.isSome_iff_exists.mp (accountTarget_isSome ha)
  have himported := (importedAccount_eq ha hid).trans htarget
  have hresolve : ImportEnv.resolve ids
      (importBot includeCredentials (exportedAccounts db.toTables owner) b).accountRef =
        some accountId := by
    refine resolve_index hids ⟨a, ha, hid⟩ ?_ (accountTarget_ne_empty htarget)
    intro a' ha' hid'
    exact (importedAccount_eq ha' hid').symm.trans himported
  rw [ImportEnv.botUpsert, hresolve, true_and, botOp, himported]
  exact ⟨fun h => (Except.ok.inj h).symm, fun h => h ▸ rfl⟩

theorem target_botOp {b : BotRow} (h : (importedAccount db.toTables owner b).isSome) :
    (botOp env db.toTables owner includeCredentials b).target BotRow.id db.bots =
      botTarget db.toTables owner b := by
  obtain ⟨accountId, himported⟩ := Option.isSome_iff_exists.mp h
  rw [botTarget, himported, Option.bind_some, botOp, himported]
  rfl

theorem lawful_botOps (env : ImportEnv) (t : Tables) (owner : String) (includeCredentials : Bool) :
    Upsert.Lawful BotRow.id
      ((exportedBots t owner).map (botOp env t owner includeCredentials)) where
  key_write u hu r := by
    obtain ⟨b, -, rfl⟩ := List.mem_map.mp hu
    rfl
  fits_write u hu v hv r := by
    obtain ⟨b, -, rfl⟩ := List.mem_map.mp hu
    obtain ⟨b', -, rfl⟩ := List.mem_map.mp hv
    rfl
  write_write u hu v hv r := by
    obtain ⟨b, -, rfl⟩ := List.mem_map.mp hu
    obtain ⟨b', -, rfl⟩ := List.mem_map.mp hv
    rfl

theorem runEach_bots {ids : List String}
    (hids : ids.map some =
      (exportedAccounts db.toTables owner).map (accountTarget db.toTables owner))
    (howned : ∀ b ∈ exportedBots db.toTables owner,
      ∃ a ∈ exportedAccounts db.toTables owner, a.id = b.accountId)
    {x : List BotRow × List (String × Bool)} :
    Upsert.runEach BotRow.id (env.botUpsert owner ids)
        (importPayload db.toTables owner includeCredentials).bots db.bots = .ok x ↔
      x = Upsert.runAll BotRow.id
        ((exportedBots db.toTables owner).map (botOp env db.toTables owner includeCredentials))
          db.bots := by
  have hbots : (importPayload db.toTables owner includeCredentials).bots =
      (exportedBots db.toTables owner).map
        (importBot includeCredentials (exportedAccounts db.toTables owner)) := rfl
  rw [hbots, Upsert.runEach_map,
    Upsert.runEach_eq_ok_iff fun b hb u => botUpsert_eq_ok_iff hids (howned b hb)]
  exact and_iff_right fun _ _ => trivial

theorem write_botOp_eq_self_iff {b row : BotRow} :
    (botOp env db.toTables owner includeCredentials b).write row = row ↔
      row.config = some ((wire (exportedConfig includeCredentials b)).orElse (.obj [])) := by
  constructor
  · exact fun h => (congrArg BotRow.config h).symm
  · intro h
    show { row with config := some _ } = row
    rw [← h]

/-- With accounts of its owner, a bot is imported for one of them. -/
theorem importedAccount_isSome {b : BotRow}
    (howned : ∃ a ∈ exportedAccounts db.toTables owner, a.id = b.accountId) :
    (importedAccount db.toTables owner b).isSome := by
  obtain ⟨a, ha, hid⟩ := howned
  rw [importedAccount_eq ha hid]
  exact accountTarget_isSome ha

theorem runAll_bots_iff
    (howned : ∀ b ∈ exportedBots db.toTables owner,
      ∃ a ∈ exportedAccounts db.toTables owner, a.id = b.accountId) :
    (Upsert.runAll BotRow.id
        ((exportedBots db.toTables owner).map (botOp env db.toTables owner includeCredentials))
          db.bots).1 = db.bots ↔
      (∀ b ∈ exportedBots db.toTables owner, (botTarget db.toTables owner b).isSome) ∧
        ∀ row ∈ db.bots, ∀ b, Upsert.lastInto (botTarget db.toTables owner)
          (exportedBots db.toTables owner) row.id = some b →
            row.config = some ((wire (exportedConfig includeCredentials b)).orElse (.obj [])) := by
  rw [Upsert.runAll_map_eq_self_iff (lawful_botOps ..)
    fun b hb => target_botOp (importedAccount_isSome (howned b hb))]
  simp only [write_botOp_eq_self_iff]

theorem refs_bots
    (howned : ∀ b ∈ exportedBots db.toTables owner,
      ∃ a ∈ exportedAccounts db.toTables owner, a.id = b.accountId)
    (hfound : ∀ b ∈ exportedBots db.toTables owner, (botTarget db.toTables owner b).isSome) :
    (Upsert.runAll BotRow.id
        ((exportedBots db.toTables owner).map (botOp env db.toTables owner includeCredentials))
          db.bots).2.map (fun ref => some ref.1) =
      (exportedBots db.toTables owner).map (botTarget db.toTables owner) :=
  Upsert.refs_runAll_map (lawful_botOps ..)
    (fun b hb => target_botOp (importedAccount_isSome (howned b hb))) hfound

end Bots

-- ════════════════════════════════════════════════════════════════════════
-- Scripts
-- ════════════════════════════════════════════════════════════════════════

section Scripts

variable {env : ImportEnv} {db : Database} {owner : String}

/-- How the entry of a script is imported. -/
def scriptOp (env : ImportEnv) (t : Tables) (owner : String) (s : ScriptRow) :
    Upsert ScriptRow :=
  let botId := (importedBot t owner s).getD ""
  let config := s.config.orElse (.obj [])
  { fits := fun c => c.botId = botId ∧ c.name = s.name
    write := fun c => { c with trigger := s.trigger, config := config, enabled := s.enabled }
    make := fun rows =>
      { id := env.newId rows.length
        botId := botId
        name := s.name
        trigger := s.trigger
        createdAt := env.now
        config := config
        enabled := s.enabled } }

theorem botTarget_ne_empty {b : BotRow} {botId : String}
    (h : botTarget db.toTables owner b = some botId) : botId ≠ "" := by
  obtain ⟨accountId, -, hfind⟩ := Option.bind_eq_some_iff.mp h
  obtain ⟨c, hc, rfl⟩ := Option.map_eq_some_iff.mp hfind
  exact db.botIds_ne c (List.mem_of_find?_eq_some hc)

theorem importedBot_eq {b : BotRow} (hb : b ∈ exportedBots db.toTables owner) {s : ScriptRow}
    (hid : b.id = s.botId) :
    importedBot db.toTables owner s = botTarget db.toTables owner b := by
  rw [importedBot, ← hid, Upsert.find?_key _ db.botIds (mem_exportedBots.mp hb).1, Option.bind_some]

theorem importedBot_isSome
    (hfound : ∀ b ∈ exportedBots db.toTables owner, (botTarget db.toTables owner b).isSome)
    {s : ScriptRow} (hs : s ∈ exportedScripts db.toTables owner) :
    (importedBot db.toTables owner s).isSome := by
  obtain ⟨-, b, hb, hid⟩ := mem_exportedScripts.mp hs
  rw [importedBot_eq hb hid]
  exact hfound b hb

theorem scriptUpsert_eq_ok_iff {ids : List String}
    (hids : ids.map some = (exportedBots db.toTables owner).map (botTarget db.toTables owner))
    (hfound : ∀ b ∈ exportedBots db.toTables owner, (botTarget db.toTables owner b).isSome)
    {s : ScriptRow} (hs : s ∈ exportedScripts db.toTables owner) {u : Upsert ScriptRow} :
    env.scriptUpsert ids (importScript (exportedBots db.toTables owner) s) = .ok u ↔
      True ∧ u = scriptOp env db.toTables owner s := by
  obtain ⟨-, b, hb, hid⟩ := mem_exportedScripts.mp hs
  obtain ⟨botId, htarget⟩ := Option.isSome_iff_exists.mp (hfound b hb)
  have himported := (importedBot_eq hb hid).trans htarget
  have hresolve : ImportEnv.resolve ids
      (importScript (exportedBots db.toTables owner) s).botRef = some botId := by
    refine resolve_index hids ⟨b, hb, hid⟩ ?_ (botTarget_ne_empty htarget)
    intro b' hb' hid'
    exact (importedBot_eq hb' hid').symm.trans himported
  have hconfig : (importScript (exportedBots db.toTables owner) s).config.orElse (.obj []) =
      s.config.orElse (.obj []) := orElse_orElse s.config
  rw [ImportEnv.scriptUpsert, hresolve, true_and, scriptOp, himported, hconfig]
  exact ⟨fun h => (Except.ok.inj h).symm, fun h => h ▸ rfl⟩

theorem target_scriptOp {s : ScriptRow} (h : (importedBot db.toTables owner s).isSome) :
    (scriptOp env db.toTables owner s).target ScriptRow.id db.scripts =
      scriptTarget db.toTables owner s := by
  obtain ⟨botId, himported⟩ := Option.isSome_iff_exists.mp h
  rw [scriptTarget, himported, Option.bind_some, scriptOp, himported]
  rfl

theorem lawful_scriptOps (env : ImportEnv) (t : Tables) (owner : String) :
    Upsert.Lawful ScriptRow.id ((exportedScripts t owner).map (scriptOp env t owner)) where
  key_write u hu r := by
    obtain ⟨s, -, rfl⟩ := List.mem_map.mp hu
    rfl
  fits_write u hu v hv r := by
    obtain ⟨s, -, rfl⟩ := List.mem_map.mp hu
    obtain ⟨s', -, rfl⟩ := List.mem_map.mp hv
    rfl
  write_write u hu v hv r := by
    obtain ⟨s, -, rfl⟩ := List.mem_map.mp hu
    obtain ⟨s', -, rfl⟩ := List.mem_map.mp hv
    rfl

theorem runEach_scripts {includeCredentials : Bool} {ids : List String}
    (hids : ids.map some = (exportedBots db.toTables owner).map (botTarget db.toTables owner))
    (hfound : ∀ b ∈ exportedBots db.toTables owner, (botTarget db.toTables owner b).isSome)
    {x : List ScriptRow × List (String × Bool)} :
    Upsert.runEach ScriptRow.id (env.scriptUpsert ids)
        (importPayload db.toTables owner includeCredentials).scripts db.scripts = .ok x ↔
      x = Upsert.runAll ScriptRow.id
        ((exportedScripts db.toTables owner).map (scriptOp env db.toTables owner)) db.scripts := by
  have hscripts : (importPayload db.toTables owner includeCredentials).scripts =
      (exportedScripts db.toTables owner).map (importScript (exportedBots db.toTables owner)) := rfl
  rw [hscripts, Upsert.runEach_map,
    Upsert.runEach_eq_ok_iff fun s hs u => scriptUpsert_eq_ok_iff hids hfound hs]
  exact and_iff_right fun _ _ => trivial

theorem write_scriptOp_eq_self_iff {s row : ScriptRow} :
    (scriptOp env db.toTables owner s).write row = row ↔
      row.trigger = s.trigger ∧ row.config = s.config.orElse (.obj []) ∧
        row.enabled = s.enabled := by
  constructor
  · intro h
    exact ⟨(congrArg ScriptRow.trigger h).symm, (congrArg ScriptRow.config h).symm,
      (congrArg ScriptRow.enabled h).symm⟩
  · rintro ⟨htrigger, hconfig, henabled⟩
    show { row with trigger := s.trigger, config := _, enabled := s.enabled } = row
    rw [← htrigger, ← hconfig, ← henabled]

theorem runAll_scripts_iff
    (hfound : ∀ b ∈ exportedBots db.toTables owner, (botTarget db.toTables owner b).isSome) :
    (Upsert.runAll ScriptRow.id
        ((exportedScripts db.toTables owner).map (scriptOp env db.toTables owner))
          db.scripts).1 = db.scripts ↔
      (∀ s ∈ exportedScripts db.toTables owner, (scriptTarget db.toTables owner s).isSome) ∧
        ∀ row ∈ db.scripts, ∀ s, Upsert.lastInto (scriptTarget db.toTables owner)
          (exportedScripts db.toTables owner) row.id = some s →
            row.trigger = s.trigger ∧ row.config = s.config.orElse (.obj []) ∧
              row.enabled = s.enabled := by
  rw [Upsert.runAll_map_eq_self_iff (lawful_scriptOps ..)
    fun s hs => target_scriptOp (importedBot_isSome hfound hs)]
  simp only [write_scriptOp_eq_self_iff]

end Scripts

-- ════════════════════════════════════════════════════════════════════════
-- The round trip
-- ════════════════════════════════════════════════════════════════════════

section RoundTrip

variable {env : ImportEnv} {db : Database} {owner : String} {includeCredentials : Bool}

/-- One import of an export. -/
theorem importBackup_eq_ok_iff (env : ImportEnv) (db : Database) (owner exportedAt : String)
    (includeCredentials : Bool) :
    (∃ stats, env.importBackup db.toTables owner
        (wire (exportBackup db.toTables owner includeCredentials exportedAt)) =
          .ok (db.toTables, stats)) ↔
      Acceptable env.schemas db.toTables owner includeCredentials ∧
      (includeCredentials = true →
        ∀ a ∈ exportedAccounts db.toTables owner, env.AccountStorable a) ∧
      (Upsert.runAll AccountRow.id (accountOps env db.toTables owner includeCredentials)
        db.accounts).1 = db.accounts ∧
      (Upsert.runAll BotRow.id
        ((exportedBots db.toTables owner).map (botOp env db.toTables owner includeCredentials))
          db.bots).1 = db.bots ∧
      (Upsert.runAll ScriptRow.id
        ((exportedScripts db.toTables owner).map (scriptOp env db.toTables owner))
          db.scripts).1 = db.scripts := by
  have hids : ((Upsert.runAll AccountRow.id
      (accountOps env db.toTables owner includeCredentials) db.accounts).2.map Prod.fst).map some =
        (exportedAccounts db.toTables owner).map (accountTarget db.toTables owner) := by
    rw [List.map_map]
    exact refs_accounts
  constructor
  · rintro ⟨stats, h⟩
    rw [ImportEnv.importBackup] at h
    cases hvalid : validateImport env.schemas
        (wire (exportBackup db.toTables owner includeCredentials exportedAt)) with
    | error details =>
      rw [hvalid] at h
      cases h
    | ok payload =>
      obtain ⟨hacceptable, rfl⟩ := validateImport_eq_ok_iff.mp hvalid
      have howned : ∀ b ∈ exportedBots db.toTables owner,
          ∃ a ∈ exportedAccounts db.toTables owner, a.id = b.accountId :=
        fun b hb => (hacceptable.bots b hb).2.1
      rw [hvalid] at h
      obtain ⟨_, haccounts, h⟩ := Except.bind_eq_ok_iff.mp h
      obtain ⟨hstorable, rfl⟩ := runEach_accounts.mp haccounts
      obtain ⟨_, hbots, h⟩ := Except.bind_eq_ok_iff.mp h
      obtain rfl := (runEach_bots hids howned).mp hbots
      obtain ⟨⟨scripts, refs⟩, hscripts, h⟩ := Except.bind_eq_ok_iff.mp h
      have htables := (Prod.mk.inj (Except.ok.inj h)).1
      have hbotsKept := congrArg Tables.bots htables
      have hfound := ((runAll_bots_iff howned).mp hbotsKept).1
      have hrefs : ((Upsert.runAll BotRow.id ((exportedBots db.toTables owner).map
          (botOp env db.toTables owner includeCredentials)) db.bots).2.map Prod.fst).map some =
          (exportedBots db.toTables owner).map (botTarget db.toTables owner) := by
        rw [List.map_map]
        exact refs_bots howned hfound
      have hrun := (runEach_scripts hrefs hfound).mp hscripts
      refine ⟨hacceptable, hstorable, congrArg Tables.accounts htables, hbotsKept, ?_⟩
      rw [← hrun]
      exact congrArg Tables.scripts htables
  · rintro ⟨hacceptable, hstorable, haccounts, hbots, hscripts⟩
    have howned : ∀ b ∈ exportedBots db.toTables owner,
        ∃ a ∈ exportedAccounts db.toTables owner, a.id = b.accountId :=
      fun b hb => (hacceptable.bots b hb).2.1
    have hfound := ((runAll_bots_iff howned).mp hbots).1
    have hrefs : ((Upsert.runAll BotRow.id ((exportedBots db.toTables owner).map
        (botOp env db.toTables owner includeCredentials)) db.bots).2.map Prod.fst).map some =
        (exportedBots db.toTables owner).map (botTarget db.toTables owner) := by
      rw [List.map_map]
      exact refs_bots howned hfound
    refine ⟨⟨ImportEnv.count (Upsert.runAll AccountRow.id
      (accountOps env db.toTables owner includeCredentials) db.accounts).2,
      ImportEnv.count (Upsert.runAll BotRow.id ((exportedBots db.toTables owner).map
        (botOp env db.toTables owner includeCredentials)) db.bots).2,
      ImportEnv.count (Upsert.runAll ScriptRow.id ((exportedScripts db.toTables owner).map
        (scriptOp env db.toTables owner)) db.scripts).2⟩, ?_⟩
    rw [ImportEnv.importBackup, validateImport_eq_ok_iff.mpr ⟨hacceptable, rfl⟩]
    refine Except.bind_eq_ok_iff.mpr ⟨_, runEach_accounts.mpr ⟨hstorable, rfl⟩, ?_⟩
    refine Except.bind_eq_ok_iff.mpr ⟨_, (runEach_bots hids howned).mpr rfl, ?_⟩
    refine Except.bind_eq_ok_iff.mpr ⟨_, (runEach_scripts hrefs hfound).mpr rfl, ?_⟩
    dsimp only
    rw [haccounts, hbots, hscripts]

/-- **Backup round trip**: importing an export leaves the database as it is exactly if the export
    survives the import. -/
theorem roundTrips_iff_survivesImport (env : ImportEnv) (db : Database) (owner : String)
    (includeCredentials : Bool) :
    RoundTrips env db owner includeCredentials ↔
      SurvivesImport env db.toTables owner includeCredentials := by
  have honce := fun nonces exportedAt =>
    importBackup_eq_ok_iff { env with nonces := nonces } db owner exportedAt includeCredentials
  constructor
  · intro h
    obtain ⟨hacceptable, hstorable, -, hbots, hscripts⟩ :=
      (honce env.nonces "").mp (h env.nonces "")
    have howned : ∀ b ∈ exportedBots db.toTables owner,
        ∃ a ∈ exportedAccounts db.toTables owner, a.id = b.accountId :=
      fun b hb => (hacceptable.bots b hb).2.1
    have haccounts := accounts_kept_iff.mp fun nonces =>
      ((honce nonces "").mp (h nonces "")).2.2.1
    obtain ⟨hbotsFound, hbotsKept⟩ := (runAll_bots_iff howned).mp hbots
    obtain ⟨hscriptsFound, hscriptsKept⟩ := (runAll_scripts_iff hbotsFound).mp hscripts
    exact ⟨hacceptable, hstorable, haccounts, hbotsFound, hbotsKept, hscriptsFound, hscriptsKept⟩
  · intro h nonces exportedAt
    have howned : ∀ b ∈ exportedBots db.toTables owner,
        ∃ a ∈ exportedAccounts db.toTables owner, a.id = b.accountId :=
      fun b hb => (h.acceptable.bots b hb).2.1
    refine (honce nonces exportedAt).mpr ⟨h.acceptable, ?_, ?_, ?_, ?_⟩
    · exact fun hinclude a ha => (h.storable hinclude a ha).of_nonces nonces
    · exact accounts_kept_iff.mpr h.accounts nonces
    · exact (runAll_bots_iff howned).mpr ⟨h.botsFound, h.bots⟩
    · exact (runAll_scripts_iff h.botsFound).mpr ⟨h.scriptsFound, h.scripts⟩

end RoundTrip

/-- The config of a crypto bot with a wallet. -/
def walletConfig (wallet : List (String × Value)) : Value :=
  .obj [("crypto", .obj [("wallet", .obj wallet)])]

def sampleAddress : String × Value :=
  ("address", .str "0x00000000000000000000000000000000000000a1")

def sampleWalletKey : String × Value :=
  ("privateKey", .str
    "enc:v1:000102030405060708090a0b0c0d0e0f:418d29daa5c8e2162c1a06d0f06ba0af:a5aacce93a0a")

theorem jsonCopy_walletConfig {wallet : List (String × Value)}
    (h : (Value.obj wallet).jsonCopy = some (.obj wallet)) :
    (walletConfig wallet).jsonCopy = some (walletConfig wallet) := by
  have hcrypto : Value.arrayIndex? "crypto" = none := by decide
  have hwallet : Value.arrayIndex? "wallet" = none := by decide
  refine Value.jsonCopy_obj (List.forall_mem_singleton.mpr hcrypto) ?_
  refine List.forall_mem_singleton.mpr ?_
  exact Value.jsonCopy_obj (List.forall_mem_singleton.mpr hwallet)
    (List.forall_mem_singleton.mpr h)

theorem jsonCopy_sampleWallet : (Value.obj [sampleAddress, sampleWalletKey]).jsonCopy =
    some (.obj [sampleAddress, sampleWalletKey]) := by
  refine Value.jsonCopy_obj (by decide) ?_
  rintro e he
  simp only [List.mem_cons, List.not_mem_nil, or_false] at he
  obtain rfl | rfl := he <;> rfl

def sampleAccount : AccountRow where
  id := "a1"
  ownerId := "u1"
  name := "trader"
  platform := "crypto"
  createdAt := 0
  credentials _ := none
  apiKeys := none

def sampleBot : BotRow where
  id := "b1"
  ownerId := "u1"
  accountId := "a1"
  name := "trader"
  platform := "crypto"
  createdAt := 0
  config := some (walletConfig [sampleAddress, sampleWalletKey])

/-- A crypto bot with the key of its wallet. -/
def sampleDatabase : Database where
  accounts := [sampleAccount]
  bots := [sampleBot]
  scripts := []
  webhooks := []
  proxies := []
  accountIds := by decide
  botIds := by decide
  scriptIds := by decide
  accountIds_ne := by decide
  botIds_ne := by decide
  botConfigs := by
    rintro b hb config hconfig
    obtain rfl := List.mem_singleton.mp hb
    obtain rfl := Option.some.inj hconfig
    exact jsonCopy_walletConfig jsonCopy_sampleWallet
  scriptConfigs := nofun

def sampleImport : ImportEnv where
  aes := sampleAes
  production := true
  registry := sampleRegistry
  schemas := ⟨fun _ => "", isRecord, fun _ => []⟩
  nonces _ := sampleNonce
  now := 0
  newId n := toString n

theorem exportedBots_sample : exportedBots sampleDatabase.toTables "u1" = [sampleBot] :=
  List.mergeSort_singleton sampleBot

/-- An export without credentials lacks the wallet key, and its import writes the config without
    it over the config with it. -/
theorem roundTrips_fails_on_walletKey : ¬ RoundTrips sampleImport sampleDatabase "u1" false := by
  intro h
  obtain ⟨hacceptable, -, -, hbots, -⟩ :=
    (importBackup_eq_ok_iff sampleImport sampleDatabase "u1" "" false).mp
      (h sampleImport.nonces "")
  have hkept := ((runAll_bots_iff fun b hb => (hacceptable.bots b hb).2.1).mp hbots).2
    sampleBot List.mem_cons_self sampleBot
  rw [exportedBots_sample] at hkept
  have hconfig := hkept rfl
  have hmask : maskWalletPrivateKey sampleBot.configValue = walletConfig [sampleAddress] := by
    have hcopy : sampleBot.configValue.jsonCopy =
        some (walletConfig [sampleAddress, sampleWalletKey]) :=
      jsonCopy_walletConfig jsonCopy_sampleWallet
    rw [maskWalletPrivateKey, hcopy]
    rfl
  have hwire : wire (exportedConfig false sampleBot) = walletConfig [sampleAddress] := by
    rw [exportedConfig, if_neg Bool.false_ne_true, hmask, wire, jsonCopy_walletConfig]
    · rfl
    · exact Value.jsonCopy_obj (by decide) (List.forall_mem_singleton.mpr rfl)
  rw [hwire] at hconfig
  have hkey := congrArg (fun c => c.bind walletKey?) hconfig
  revert hkey
  decide

end BotHive.Backup
