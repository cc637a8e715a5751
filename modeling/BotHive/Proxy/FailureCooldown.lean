import BotHive.Library.Machine
import BotHive.Library.Upsert
import BotHive.Proxy.Pool

/-!
# How long a failed proxy is left alone

A worker keeps a proxy out of use for half a minute after a failure, and counts failures and
successes in its health score. Both records live in the pool in memory, and every refresh
replaces the pool by rows of the database that the worker never writes. The records hold in
every run whose refreshes carry them over.

## Main definitions

- `ProxyWorld.step`: refreshes, connections and their outcomes
- `ProxyWorld.RecordsKept`: no failed proxy is handed out in its cooldown, and the health
  scores are those that the reports give
- `ProxyWorld.CarriesOver`: the condition on a refresh

## Main results

- `ProxyWorld.recordsKept_of_carriesOver`
-/

namespace BotHive.Proxy

/-- The rows of enabled proxies; the id is their primary key. -/
structure ProxyRows where
  list : List ProxyInstance
  nodup : (list.map ProxyInstance.id).Nodup

/-- The proxies of a worker. For statements only: the failures reported, with their times, and
    for each proxy in the pool the health score that it was first loaded with, changed by the
    reports since then. -/
structure ProxyWorld where
  now : ℤ
  pool : ProxyPool
  botProxyIds : String → Option String
  failures : List (String × ℤ)
  scores : String → Option ℤ

inductive ProxyAction where
  /-- `refreshProxies` has read the rows. -/
  | refreshProxies (rows : ProxyRows)
  | applyProxy (botId : String)
  | markConnected (botId : String)
  | scheduleReconnect (botId : String)
  /-- The self-healing action `change_proxy`. -/
  | changeProxy (botId : String)
  | tick (ms : ℕ)

namespace ProxyWorld

/-- A worker that has just been constructed. -/
def start (now : ℤ) : ProxyWorld :=
  ⟨now, ⟨[], 0⟩, fun _ => none, [], fun _ => none⟩

/-- The health that a proxy of an id has in the rows. -/
def loadedHealth (rows : ProxyRows) (id : String) : Option ℤ :=
  (rows.list.find? fun p => p.id = id).map ProxyInstance.healthScore

def refreshProxies (s : ProxyWorld) (rows : ProxyRows) : ProxyWorld :=
  { s with
    pool := ProxyPool.setProxies rows.list
    scores := fun id => (loadedHealth rows id).map fun loaded => (s.scores id).getD loaded }

def applyProxy (s : ProxyWorld) (botId : String) : ProxyWorld :=
  match s.pool.selectProxy s.now with
  | (none, pool) =>
    { s with pool := pool, botProxyIds := Function.update s.botProxyIds botId none }
  | (some proxy, pool) =>
    { s with pool := pool, botProxyIds := Function.update s.botProxyIds botId (some proxy.id) }

/-- The proxy of a bot earns a success. -/
def markConnected (s : ProxyWorld) (botId : String) : ProxyWorld :=
  match s.botProxyIds botId with
  | none => s
  | some id =>
    { s with
      pool := s.pool.reportSuccess id
      botProxyIds := Function.update s.botProxyIds botId none
      scores := Function.update s.scores id ((s.scores id).map fun h => min 100 (h + 5)) }

/-- The proxy of a bot is reported as failed. -/
def reportProxy (s : ProxyWorld) (botId : String) : ProxyWorld :=
  match s.botProxyIds botId with
  | none => s
  | some id =>
    { s with
      pool := s.pool.reportFailure id s.now
      botProxyIds := Function.update s.botProxyIds botId none
      failures := (id, s.now) :: s.failures
      scores := Function.update s.scores id ((s.scores id).map fun h => max 0 (h - 25)) }

def step (s : ProxyWorld) : ProxyAction → ProxyWorld
  | .refreshProxies rows => s.refreshProxies rows
  | .applyProxy botId => s.applyProxy botId
  | .markConnected botId => s.markConnected botId
  | .scheduleReconnect botId | .changeProxy botId => s.reportProxy botId
  | .tick ms => { s with now := s.now + ms }

/-- The pool would hand out no proxy that was reported as failed less than the cooldown ago, and
    each proxy of the pool has the health that it was loaded with, changed by the reports. -/
structure RecordsKept (s : ProxyWorld) : Prop where
  cooldown : ∀ proxy pool, s.pool.selectProxy s.now = (some proxy, pool) →
    ∀ t, (proxy.id, t) ∈ s.failures → ¬ (t ≤ s.now ∧ s.now < t + failureCooldownMs)
  health : ∀ p ∈ s.pool.list, s.scores p.id = some p.healthScore

/-- The condition on an action: the rows of a refresh have the health of the proxies in the pool,
    and the failures whose cooldown has not passed. -/
def CarriesOver (s : ProxyWorld) : ProxyAction → Prop
  | .refreshProxies rows => ∀ row ∈ rows.list,
    (∀ p ∈ s.pool.list, p.id = row.id → row.healthScore = p.healthScore) ∧
      ∀ t, (row.id, t) ∈ s.failures → s.now < t + failureCooldownMs →
        ∃ v, row.lastFailedAt = some v ∧ t ≤ v
  | _ => True

/-- What holds in every run whose refreshes carry the records over. -/
structure Sound (s : ProxyWorld) : Prop where
  nodup : (s.pool.list.map ProxyInstance.id).Nodup
  past : ∀ id t, (id, t) ∈ s.failures → t ≤ s.now
  cooling : ∀ p ∈ s.pool.list, ∀ t, (p.id, t) ∈ s.failures → s.now < t + failureCooldownMs →
    ∃ v, p.lastFailedAt = some v ∧ t ≤ v
  health : ∀ p ∈ s.pool.list, s.scores p.id = some p.healthScore
  absent : ∀ id, id ∉ s.pool.list.map ProxyInstance.id → s.scores id = none

variable {s : ProxyWorld}

-- ════════════════════════════════════════════════════════════════════════
-- Selections
-- ════════════════════════════════════════════════════════════════════════

theorem mem_of_mem_topTier {l : List ProxyInstance} {p : ProxyInstance} (h : p ∈ topTier l) :
    p ∈ l := by
  rw [topTier] at h
  split at h
  · cases h
  · exact (List.mem_filter.mp h).1

/-- A proxy that is handed out is in the pool and not in its cooldown. -/
theorem of_selectProxy {pool pool' : ProxyPool} {now : ℤ} {proxy : ProxyInstance}
    (h : pool.selectProxy now = (some proxy, pool')) :
    proxy ∈ pool.list ∧ proxy.inCooldown now = false := by
  rw [ProxyPool.selectProxy] at h
  split at h
  · cases h
  · have hmem := mem_of_mem_topTier (List.mem_of_getElem? (Prod.mk.inj h).1)
    obtain ⟨hlist, hfree⟩ := List.mem_filter.mp hmem
    rw [Bool.and_eq_true, Bool.not_eq_true'] at hfree
    exact ⟨hlist, hfree.2⟩

theorem list_selectProxy (pool : ProxyPool) (now : ℤ) : (pool.selectProxy now).2.list = pool.list := by
  rw [ProxyPool.selectProxy]
  split <;> rfl

/-- The records are kept in a sound state. -/
theorem Sound.recordsKept (h : s.Sound) : s.RecordsKept := by
  refine ⟨fun proxy pool hselect t ht hwithin => ?_, h.health⟩
  obtain ⟨hmem, hfree⟩ := of_selectProxy hselect
  obtain ⟨v, hv, hle⟩ := h.cooling proxy hmem t ht hwithin.2
  rw [ProxyInstance.inCooldown, hv] at hfree
  dsimp only at hfree
  rw [decide_eq_false_iff_not] at hfree
  omega

-- ════════════════════════════════════════════════════════════════════════
-- Steps
-- ════════════════════════════════════════════════════════════════════════

/-- A change of the pool that keeps its proxies. -/
theorem sound_of_same_list {pool : ProxyPool} {ids : String → Option String} (h : s.Sound)
    (hlist : pool.list = s.pool.list) :
    Sound { s with pool := pool, botProxyIds := ids } := by
  refine ⟨?_, h.past, ?_, ?_, ?_⟩
  · rw [hlist]
    exact h.nodup
  · rw [hlist]
    exact h.cooling
  · rw [hlist]
    exact h.health
  · rw [hlist]
    exact h.absent

theorem sound_applyProxy (h : s.Sound) (botId : String) : (s.applyProxy botId).Sound := by
  have hlist := list_selectProxy s.pool s.now
  rw [applyProxy]
  split
  · rename_i pool hselect
    rw [hselect] at hlist
    exact sound_of_same_list h hlist
  · rename_i proxy pool hselect
    rw [hselect] at hlist
    exact sound_of_same_list h hlist

theorem map_id_modify {f : ProxyInstance → ProxyInstance} (hf : ∀ p, (f p).id = p.id)
    (pool : ProxyPool) (id : String) :
    (pool.modify id f).list.map ProxyInstance.id = pool.list.map ProxyInstance.id := by
  refine List.ext_getElem? fun i => ?_
  rw [ProxyPool.modify, List.getElem?_map, List.getElem?_map, List.getElem?_modify,
    Option.map_eq_map, Option.map_map]
  refine Option.map_congr fun p _ => ?_
  rw [Function.comp_apply]
  split
  · exact hf p
  · rfl

theorem map_id_reportSuccess (pool : ProxyPool) (id : String) :
    (pool.reportSuccess id).list.map ProxyInstance.id = pool.list.map ProxyInstance.id := by
  rw [ProxyPool.reportSuccess]
  apply map_id_modify
  intro p
  rfl

theorem map_id_reportFailure (pool : ProxyPool) (id : String) (now : ℤ) :
    (pool.reportFailure id now).list.map ProxyInstance.id = pool.list.map ProxyInstance.id := by
  rw [ProxyPool.reportFailure]
  apply map_id_modify
  intro p
  rfl

/-- The scores of a pool after a report about one of its proxies. -/
theorem scores_modify (h : s.Sound) {f : ProxyInstance → ProxyInstance} {g : ℤ → ℤ}
    (hf : ∀ p, (f p).id = p.id) (hg : ∀ p, (f p).healthScore = g p.healthScore) (id : String) :
    (∀ p ∈ (s.pool.modify id f).list,
        Function.update s.scores id ((s.scores id).map g) p.id = some p.healthScore) ∧
      ∀ other, other ∉ (s.pool.modify id f).list.map ProxyInstance.id →
        Function.update s.scores id ((s.scores id).map g) other = none := by
  constructor
  · intro p' hp'
    rw [ProxyPool.list_modify_of_nodup h.nodup] at hp'
    obtain ⟨p, hp, rfl⟩ := List.mem_map.mp hp'
    have hscore := h.health p hp
    by_cases hid : p.id = id
    · rw [if_pos hid, hf, hid, Function.update_self, ← hid, hscore, Option.map_some, hg]
    · rw [if_neg hid, Function.update_of_ne hid, hscore]
  · intro other hother
    rw [map_id_modify hf] at hother
    have hnone := h.absent other hother
    by_cases hid : other = id
    · rw [hid, Function.update_self, ← hid, hnone, Option.map_none]
    · rw [Function.update_of_ne hid, hnone]

theorem sound_markConnected (h : s.Sound) (botId : String) : (s.markConnected botId).Sound := by
  rw [markConnected]
  split
  · exact h
  · rename_i id _
    obtain ⟨hhealth, habsent⟩ := scores_modify h
      (f := fun p => { p with healthScore := min 100 (p.healthScore + 5) })
      (g := fun x => min 100 (x + 5)) (fun _ => rfl) (fun _ => rfl) id
    refine ⟨?_, h.past, ?_, hhealth, habsent⟩
    · rw [map_id_reportSuccess]
      exact h.nodup
    · intro p' hp'
      rw [ProxyPool.reportSuccess, ProxyPool.list_modify_of_nodup h.nodup] at hp'
      obtain ⟨p, hp, rfl⟩ := List.mem_map.mp hp'
      have hcooling := h.cooling p hp
      split <;> exact hcooling

/-- A reported proxy starts its cooldown now, which is as late as any report. -/
theorem sound_reportProxy (h : s.Sound) (botId : String) : (s.reportProxy botId).Sound := by
  rw [reportProxy]
  split
  · exact h
  · rename_i id _
    obtain ⟨hhealth, habsent⟩ := scores_modify h
      (f := fun p =>
        { p with healthScore := max 0 (p.healthScore - 25), lastFailedAt := some s.now })
      (g := fun x => max 0 (x - 25)) (fun _ => rfl) (fun _ => rfl) id
    have hpast : ∀ x t, (x, t) ∈ (id, s.now) :: s.failures → t ≤ s.now := by
      intro x t hmem
      rcases List.mem_cons.mp hmem with heq | hmem
      · exact le_of_eq (Prod.mk.inj heq).2
      · exact h.past x t hmem
    refine ⟨?_, hpast, ?_, hhealth, habsent⟩
    · rw [map_id_reportFailure]
      exact h.nodup
    · intro p' hp' t ht hwithin
      rw [ProxyPool.reportFailure, ProxyPool.list_modify_of_nodup h.nodup] at hp'
      obtain ⟨p, hp, rfl⟩ := List.mem_map.mp hp'
      by_cases hid : p.id = id
      · rw [if_pos hid]
        exact ⟨s.now, rfl, hpast _ t ht⟩
      · rw [if_neg hid] at ht ⊢
        have hold : (p.id, t) ∈ s.failures := by
          rcases List.mem_cons.mp ht with heq | hmem
          · exact absurd (Prod.mk.inj heq).1 hid
          · exact hmem
        exact h.cooling p hp t hold hwithin

/-- The row of an id is the one that the query has for it. -/
theorem loadedHealth_of_mem {rows : ProxyRows} {row : ProxyInstance} (h : row ∈ rows.list) :
    loadedHealth rows row.id = some row.healthScore := by
  have hfound : rows.list.find? (fun p => p.id = row.id) = some row :=
    Upsert.find?_key ProxyInstance.id rows.nodup h
  rw [loadedHealth, hfound, Option.map_some]

theorem sound_refreshProxies (h : s.Sound) {rows : ProxyRows}
    (hcarries : s.CarriesOver (.refreshProxies rows)) : (s.refreshProxies rows).Sound := by
  refine ⟨rows.nodup, h.past, fun row hrow => (hcarries row hrow).2, ?_, ?_⟩
  · intro row hrow
    rw [refreshProxies]
    dsimp only
    rw [loadedHealth_of_mem hrow, Option.map_some]
    by_cases hmem : row.id ∈ s.pool.list.map ProxyInstance.id
    · obtain ⟨p, hp, hid⟩ := List.mem_map.mp hmem
      rw [← hid, h.health p hp, Option.getD_some, (hcarries row hrow).1 p hp hid]
    · rw [h.absent row.id hmem, Option.getD_none]
  · intro id hid
    rw [refreshProxies]
    dsimp only
    have hnone : loadedHealth rows id = none := by
      rw [loadedHealth, Option.map_eq_none_iff, List.find?_eq_none]
      intro p hp hpid
      exact hid (List.mem_map.mpr ⟨p, hp, of_decide_eq_true hpid⟩)
    rw [hnone, Option.map_none]

/-- **Step**: a step that carries the records over leads from a sound state to a sound state. -/
theorem sound_step (h : s.Sound) {a : ProxyAction} (hcarries : s.CarriesOver a) :
    (s.step a).Sound := by
  cases a with
  | refreshProxies rows => exact sound_refreshProxies h hcarries
  | applyProxy botId => exact sound_applyProxy h botId
  | markConnected botId => exact sound_markConnected h botId
  | scheduleReconnect botId | changeProxy botId => exact sound_reportProxy h botId
  | tick ms =>
    have hlater : s.now ≤ s.now + ms := by omega
    refine ⟨h.nodup, fun id t ht => le_trans (h.past id t ht) hlater, ?_, h.health, h.absent⟩
    intro p hp t ht hwithin
    exact h.cooling p hp t ht (lt_of_le_of_lt hlater hwithin)

/-- **Failed proxies**: in every run whose refreshes carry over the health and the failures of the
    proxies that they load, the pool never hands out a proxy in its cooldown, and health scores
    change by reports only. -/
theorem recordsKept_of_carriesOver (now : ℤ) {actions : List ProxyAction}
    (h : Machine.Along (Machine.total step) CarriesOver (start now) actions) :
    Machine.Everywhere (Machine.total step) RecordsKept (start now) actions := by
  have hstart : (start now).Sound := ⟨List.nodup_nil, nofun, nofun, nofun, fun _ _ => rfl⟩
  refine Machine.everywhere_of_invariant Sound RecordsKept ?_ (fun _ hs => hs.recordsKept)
    hstart h
  rintro s a s' hs hcarries ⟨⟩
  exact sound_step hs hcarries

/-- One enabled proxy. -/
def sampleRows (healthScore : ℤ) (lastFailedAt : Option ℤ) : ProxyRows :=
  ⟨[⟨"p1", 0, true, healthScore, lastFailedAt⟩], List.nodup_singleton _⟩

theorem recordsKept_of_carriesOver_sample :
    Machine.Everywhere (Machine.total step) RecordsKept (start 0)
      [.refreshProxies (sampleRows 100 none), .applyProxy "b1", .scheduleReconnect "b1",
        .refreshProxies (sampleRows 75 (some 0))] := by
  apply recordsKept_of_carriesOver
  simp only [Machine.along_total_cons, Machine.along_total_nil, and_true, true_and, CarriesOver]
  constructor
  · intro row _
    exact ⟨by rintro _ ⟨⟩, by rintro _ ⟨⟩⟩
  · intro row hrow
    obtain rfl := List.mem_singleton.mp hrow
    constructor
    · intro p hp _
      obtain rfl := List.mem_singleton.mp hp
      rfl
    · intro t ht _
      obtain rfl : t = 0 := (Prod.mk.inj (List.mem_singleton.mp ht)).2
      exact ⟨0, rfl, le_refl 0⟩

/-- A refresh right after a failure brings the proxy back as the database has it. -/
theorem recordsKept_fails_on_refresh :
    ¬ ∀ now actions, Machine.Everywhere (Machine.total step) RecordsKept (start now) actions := by
  intro hall
  have hend : ∃ s, Machine.exec (Machine.total step) (start 0)
        [.refreshProxies (sampleRows 100 none), .applyProxy "b1", .scheduleReconnect "b1",
          .refreshProxies (sampleRows 100 none)] = some s ∧
      s.failures = [("p1", 0)] ∧ s.now = 0 ∧
      (s.pool.selectProxy s.now).1 = some ⟨"p1", 0, true, 100, none⟩ := by
    exact ⟨_, rfl, rfl, rfl, by decide⟩
  obtain ⟨s, hexec, hfailures, hnow, hselect⟩ := hend
  have hkept := (hall 0 _).at_end hexec
  refine hkept.cooldown _ (s.pool.selectProxy s.now).2 (Prod.ext hselect rfl) 0 ?_ ?_
  · rw [hfailures]
    exact List.mem_singleton_self _
  · rw [hnow]
    decide

end ProxyWorld

end BotHive.Proxy
