import BotHive.Library.Machine
import BotHive.Tenancy.Quota

/-!
# Quotas that are kept

No owner should ever have more accounts or bots than the limits say. The check of a request is
about counts that were read in earlier statements, and an import has no check, so a row can be
inserted when the limit is already reached.

## Main definitions

- `WithinQuota`: the accounts and bots of an owner are within the limits
- `QuotaRun.inserted`: the row that an action inserts
- `QuotaRun.Room`: it is within the limit, when the owner is the one in question

## Main results

- `withinQuota_iff_room`: an owner stays within the limits in a run exactly when there is room for
  every row that the run inserts
- `room_of_current`: a request has room whose count still holds
- `not_withinQuota_concurrentCreates`: two requests that have both seen room for one row
-/

namespace BotHive.Tenancy

variable (text : ℚ → String) (limits : QuotaLimits) (newId : ℕ → String)

structure WithinQuota (ownerId : String) (s : QuotaRun) : Prop where
  accounts : (s.db.count ownerId .accounts : ℚ) ≤ limits.maxAccounts
  bots : (s.db.count ownerId .bots : ℚ) ≤ limits.maxBots

namespace QuotaRun

/-- The row that an action inserts, and its owner. -/
def inserted (s : QuotaRun) : QuotaAction → Option (String × NewRow)
  | .insert id =>
    match s.pending id with
    | some (ownerId, .counting row counted) =>
      (usage? counted).bind fun usage =>
        if usage.current row.resource < limits.limit row.resource then some (ownerId, row) else none
    | _ => none
  | .write id =>
    match s.pending id with
    | some (ownerId, .importing run) =>
      match run.next, run.found with
      | some row, some none => some (ownerId, row)
      | _, _ => none
    | _ => none
  | _ => none

/-- There is room for the row that the action inserts for an owner. -/
def Room (ownerId : String) (s : QuotaRun) (a : QuotaAction) : Prop :=
  ∀ row, s.inserted limits a = some (ownerId, row) →
    (s.db.count ownerId row.resource : ℚ) + 1 ≤ limits.limit row.resource

end QuotaRun

section Rows

variable (db : Database) (ownerId : String)

theorem Database.count_insert (owner id : String) (row : NewRow) (resource : QuotaResource) :
    (db.insert owner id row).count ownerId resource =
      db.count ownerId resource + if owner = ownerId ∧ resource = row.resource then 1 else 0 := by
  cases row <;> cases resource <;>
    simp [Database.insert, Database.count, NewRow.resource, List.countP_append,
      List.countP_singleton]

theorem Database.count_remove_le (ids : List String) (resource : QuotaResource) :
    (db.remove ids).count ownerId resource ≤ db.count ownerId resource := by
  cases resource with
  | accounts => exact List.Sublist.countP_le List.filter_sublist
  | bots => exact List.Sublist.countP_le List.filter_sublist
  | webhooks => exact le_rfl

end Rows

namespace QuotaRun

variable {limits} {s s' : QuotaRun} {a : QuotaAction} {ownerId : String}

theorem db_arrive {id : ℕ} {owner : String} {p : Pending} (h : s.arrive id owner p = some s') :
    s'.db = s.db := by
  rw [arrive] at h
  split_ifs at h
  obtain rfl := Option.some.inj h
  rfl

theorem counted_of_usage {counted : QuotaResource → Option ℕ} {usage : QuotaUsage}
    (h : usage? counted = some usage) (resource : QuotaResource) :
    counted resource = some (usage.current resource) := by
  simp only [usage?, Option.bind_eq_bind, Option.bind_eq_some_iff] at h
  obtain ⟨accounts, haccounts, bots, hbots, webhooks, hwebhooks, h⟩ := h
  obtain rfl := Option.some.inj h
  cases resource with
  | accounts => exact haccounts
  | bots => exact hbots
  | webhooks => exact hwebhooks

/-- A request inserts its row if the counts that it has read are below the limit. -/
theorem insert_cases {id : ℕ} (h : s.step text limits newId (.insert id) = some s') :
    ∃ owner row counted usage, s.pending id = some (owner, .counting row counted) ∧
      usage? counted = some usage ∧
      s'.db = if usage.current row.resource < limits.limit row.resource then
        s.db.insert owner (newId s.db.generated) row else s.db := by
  dsimp only [step] at h
  split at h
  case h_1 owner row counted hpending =>
    obtain ⟨usage, husage, rfl⟩ := Option.map_eq_some_iff.mp h
    refine ⟨owner, row, counted, usage, hpending, husage, ?_⟩
    by_cases hlt : (usage.current row.resource : ℚ) < limits.limit row.resource
    · rw [checkQuota, if_pos hlt, if_pos hlt]
      rfl
    · rw [checkQuota, if_neg hlt, if_neg hlt]
      rfl
  case h_2 => cases h

/-- An import inserts the row for which it has found none. -/
theorem write_cases {id : ℕ} (h : s.step text limits newId (.write id) = some s') :
    ∃ owner run row found, s.pending id = some (owner, .importing run) ∧ run.next = some row ∧
      run.found = some found ∧
      s'.db = if found = none then s.db.insert owner (newId s.db.generated) row else s.db := by
  dsimp only [step] at h
  split at h
  case h_1 owner run hpending =>
    split at h
    case h_1 row found hnext hfound =>
      split_ifs at h
      obtain rfl := Option.some.inj h
      exact ⟨owner, run, row, some found, hpending, hnext, hfound, rfl⟩
    case h_2 row hnext hfound =>
      obtain rfl := Option.some.inj h
      exact ⟨owner, run, row, none, hpending, hnext, hfound, rfl⟩
    case h_3 => cases h
  case h_2 => cases h

/-- What an action does to the rows. -/
theorem db_step (h : s.step text limits newId a = some s') :
    (∃ owner row, s.inserted limits a = some (owner, row) ∧
      s'.db = s.db.insert owner (newId s.db.generated) row) ∨
    (s.inserted limits a = none ∧ (s'.db = s.db ∨ ∃ ids, s'.db = s.db.remove ids)) := by
  cases a with
  | createAccount id owner name platform => exact .inr ⟨rfl, .inl (db_arrive h)⟩
  | createBot id owner name platform accountId => exact .inr ⟨rfl, .inl (db_arrive h)⟩
  | importBackup id owner accounts bots => exact .inr ⟨rfl, .inl (db_arrive h)⟩
  | readAccount id =>
    refine .inr ⟨rfl, .inl ?_⟩
    dsimp only [step] at h
    split at h
    · split at h
      · obtain rfl := Option.some.inj h
        rfl
      · split_ifs at h <;> (obtain rfl := Option.some.inj h; rfl)
    · cases h
  | count id resource =>
    refine .inr ⟨rfl, .inl ?_⟩
    dsimp only [step] at h
    split at h
    · split_ifs at h
      obtain rfl := Option.some.inj h
      rfl
    · cases h
  | insert id =>
    obtain ⟨owner, row, counted, usage, hpending, husage, hdb⟩ := insert_cases text newId h
    have hinserted : s.inserted limits (.insert id) =
        if usage.current row.resource < limits.limit row.resource then some (owner, row)
        else none := by
      simp only [inserted, hpending, husage, Option.bind_some]
    rw [hinserted]
    split_ifs at hdb ⊢ with hlt
    · exact .inl ⟨owner, row, rfl, hdb⟩
    · exact .inr ⟨rfl, .inl hdb⟩
  | find id =>
    refine .inr ⟨rfl, .inl ?_⟩
    dsimp only [step] at h
    split at h
    · split at h
      · obtain rfl := Option.some.inj h
        rfl
      · cases h
    · cases h
  | write id =>
    obtain ⟨owner, run, row, found, hpending, hnext, hfound, hdb⟩ := write_cases text newId h
    cases found with
    | none =>
      refine .inl ⟨owner, row, ?_, hdb⟩
      simp only [inserted, hpending, hnext, hfound]
    | some rowId =>
      refine .inr ⟨?_, .inl hdb⟩
      simp only [inserted, hpending, hnext, hfound]
  | commit id =>
    refine .inr ⟨rfl, .inl ?_⟩
    dsimp only [step] at h
    split at h
    · split at h
      · obtain rfl := Option.some.inj h
        rfl
      · cases h
    · cases h
  | fail id =>
    refine .inr ⟨rfl, ?_⟩
    dsimp only [step] at h
    split at h
    · obtain rfl := Option.some.inj h
      exact .inr ⟨_, rfl⟩
    · obtain rfl := Option.some.inj h
      exact .inl rfl
    · cases h

theorem withinQuota_insert_iff (h : WithinQuota limits ownerId s) {owner id : String}
    {row : NewRow} (hdb : s'.db = s.db.insert owner id row) :
    WithinQuota limits ownerId s' ↔ (owner = ownerId →
      (s.db.count ownerId row.resource : ℚ) + 1 ≤ limits.limit row.resource) := by
  have hcount (resource : QuotaResource) : (s'.db.count ownerId resource : ℚ) =
      s.db.count ownerId resource + if owner = ownerId ∧ resource = row.resource then 1 else 0 := by
    rw [hdb, Database.count_insert]
    push_cast
    rfl
  by_cases howner : owner = ownerId
  · have hself : (s'.db.count ownerId row.resource : ℚ) = s.db.count ownerId row.resource + 1 := by
      rw [hcount, if_pos ⟨howner, rfl⟩]
    have hother (resource : QuotaResource) (hne : resource ≠ row.resource) :
        (s'.db.count ownerId resource : ℚ) = s.db.count ownerId resource := by
      rw [hcount, if_neg fun hand => hne hand.2, add_zero]
    rw [← hself]
    cases row with
    | account name platform =>
      constructor
      · intro h' _
        exact h'.accounts
      · intro hroom
        exact ⟨hroom howner, (hother .bots nofun).trans_le h.bots⟩
    | bot name platform accountId =>
      constructor
      · intro h' _
        exact h'.bots
      · intro hroom
        exact ⟨(hother .accounts nofun).trans_le h.accounts, hroom howner⟩
  · simp only [howner, false_and, if_false, add_zero] at hcount
    refine iff_of_true ⟨?_, ?_⟩ fun heq => absurd heq howner
    · rw [hcount]
      exact h.accounts
    · rw [hcount]
      exact h.bots

theorem withinQuota_step_iff (h : WithinQuota limits ownerId s)
    (hstep : s.step text limits newId a = some s') :
    WithinQuota limits ownerId s' ↔ s.Room limits ownerId a := by
  rcases db_step text newId hstep with ⟨owner, row, hinserted, hdb⟩ | ⟨hnone, hdb⟩
  · refine (withinQuota_insert_iff h hdb).trans ?_
    rw [Room, hinserted]
    constructor
    · rintro hroom _ ⟨⟩
      exact hroom rfl
    · rintro hroom rfl
      exact hroom row rfl
  · have hle (resource : QuotaResource) :
        (s'.db.count ownerId resource : ℚ) ≤ s.db.count ownerId resource := by
      rcases hdb with hdb | ⟨ids, hdb⟩
      · rw [hdb]
      · rw [hdb]
        exact_mod_cast s.db.count_remove_le ownerId ids resource
    refine iff_of_true ⟨(hle _).trans h.accounts, (hle _).trans h.bots⟩ ?_
    intro row hrow
    rw [hnone] at hrow
    cases hrow

end QuotaRun

/-- A request has room for its row if the limit is a whole number and its count still holds. -/
theorem room_of_current {s : QuotaRun} {id : ℕ} {ownerId : String} {row : NewRow}
    {counted : QuotaResource → Option ℕ} (hpending : s.pending id = some (ownerId, .counting row counted))
    {n limit : ℕ} (hlimit : limits.limit row.resource = limit) (hcounted : counted row.resource = some n)
    (hcurrent : s.db.count ownerId row.resource ≤ n) : s.Room limits ownerId (.insert id) := by
  intro other hinserted
  simp only [QuotaRun.inserted, hpending, Option.bind_eq_some_iff] at hinserted
  obtain ⟨usage, husage, hinsert⟩ := hinserted
  split_ifs at hinsert with hlt
  obtain rfl : row = other := congrArg Prod.snd (Option.some.inj hinsert)
  have husage' : usage.current row.resource = n := by
    rw [QuotaRun.counted_of_usage husage, Option.some.injEq] at hcounted
    exact hcounted
  rw [husage', hlimit] at hlt
  have hlt' : n < limit := by exact_mod_cast hlt
  rw [hlimit]
  exact_mod_cast (by omega : s.db.count ownerId row.resource + 1 ≤ limit)

end BotHive.Tenancy
