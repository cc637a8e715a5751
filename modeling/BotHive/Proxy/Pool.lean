import Mathlib.Data.Int.Order.Basic
import Mathlib.Tactic.Common

/-!
# The proxy pool

An in-memory list of outbound proxies. A proxy is selected from the tier of
highest priority among those that are enabled, healthy and not in their failure
cooldown, round robin within the tier.
-/

namespace BotHive.Proxy

structure ProxyInstance where
  id : String
  /-- Proxies of higher priority are preferred. -/
  priority : ℤ
  enabled : Bool
  /-- Between 0 and 100; zero excludes the proxy. -/
  healthScore : ℤ
  /-- Time of the last failure in milliseconds since the epoch. -/
  lastFailedAt : Option ℤ
  deriving DecidableEq

structure ProxyPool where
  list : List ProxyInstance
  cursor : ℕ

/-- Milliseconds for which a proxy that just failed is skipped. -/
def failureCooldownMs : ℤ := 30000

def ProxyInstance.healthy (p : ProxyInstance) : Bool :=
  p.enabled && decide (0 < p.healthScore)

def ProxyInstance.inCooldown (p : ProxyInstance) (now : ℤ) : Bool :=
  match p.lastFailedAt with
  | none => false
  | some failedAt => decide (now - failedAt < failureCooldownMs)

/-- The proxies of the highest priority that occurs in the list. -/
def topTier (l : List ProxyInstance) : List ProxyInstance :=
  match (l.map ProxyInstance.priority).max? with
  | none => []
  | some maxPriority => l.filter fun p => p.priority = maxPriority

theorem topTier_ne_nil {l : List ProxyInstance} (h : l ≠ []) : topTier l ≠ [] := by
  rw [topTier]
  cases hm : (l.map ProxyInstance.priority).max? with
  | none =>
    rw [List.max?_eq_none_iff, List.map_eq_nil_iff] at hm
    exact absurd hm h
  | some maxPriority =>
    obtain ⟨p, hp, hpriority⟩ := List.mem_map.mp (List.max?_mem hm)
    exact List.ne_nil_of_mem (List.mem_filter.mpr ⟨hp, decide_eq_true hpriority⟩)

namespace ProxyPool

def getProxies (pool : ProxyPool) : List ProxyInstance :=
  pool.list

def getProxy (pool : ProxyPool) (id : String) : Option ProxyInstance :=
  pool.list.find? fun p => p.id = id

/-- The next proxy of the top tier, and the pool with its cursor advanced. -/
def selectProxy (pool : ProxyPool) (now : ℤ) : Option ProxyInstance × ProxyPool :=
  let candidates := pool.list.filter fun p => p.healthy && !p.inCooldown now
  let tier := topTier candidates
  if candidates = [] then (none, pool)
  else
    (tier[pool.cursor % tier.length]?,
      { pool with cursor := (pool.cursor + 1) % tier.length })

/-- Change the first proxy of an id in its place. -/
def modify (pool : ProxyPool) (id : String) (f : ProxyInstance → ProxyInstance) : ProxyPool :=
  { pool with list := pool.list.modify (pool.list.findIdx fun p => p.id = id) f }

/-- Assign the fields of a record to the proxy of its id, or add it. The time of the last failure is
    optional in a record. -/
def upsert (pool : ProxyPool) (proxy : ProxyInstance) (hasLastFailedAt : Bool) : ProxyPool :=
  match pool.getProxy proxy.id with
  | some _ => pool.modify proxy.id fun existing =>
    if hasLastFailedAt then proxy else { proxy with lastFailedAt := existing.lastFailedAt }
  | none => { pool with list := pool.list ++ [proxy] }

/-- Whether there was a proxy of the id, and the pool without it. -/
def remove (pool : ProxyPool) (id : String) : Bool × ProxyPool :=
  let list := pool.list.filter fun p => p.id ≠ id
  (list.length ≠ pool.list.length, { pool with list })

/-- A proxy earns health when a connection through it succeeds. -/
def reportSuccess (pool : ProxyPool) (id : String) : ProxyPool :=
  pool.modify id fun p => { p with healthScore := min 100 (p.healthScore + 5) }

/-- A failure costs health and starts the cooldown. -/
def reportFailure (pool : ProxyPool) (id : String) (now : ℤ) : ProxyPool :=
  pool.modify id fun p =>
    { p with healthScore := max 0 (p.healthScore - 25), lastFailedAt := some now }

def setProxies (list : List ProxyInstance) : ProxyPool :=
  ⟨list, 0⟩

theorem length_modify (pool : ProxyPool) (id : String) (f : ProxyInstance → ProxyInstance) :
    (pool.modify id f).list.length = pool.list.length :=
  List.length_modify _ _ _

/-- Where ids are unique, no other proxy has the id. -/
theorem list_modify_of_nodup {pool : ProxyPool} (h : (pool.list.map ProxyInstance.id).Nodup)
    (id : String) (f : ProxyInstance → ProxyInstance) :
    (pool.modify id f).list = pool.list.map fun p => if p.id = id then f p else p := by
  rw [modify]
  dsimp only
  generalize pool.list = l at h
  induction l with
  | nil => rfl
  | cons p l ih =>
    rw [List.map_cons, List.nodup_cons] at h
    rw [List.findIdx_cons, List.map_cons]
    by_cases hid : p.id = id
    · have hothers : l.map (fun p => if p.id = id then f p else p) = l := by
        refine (List.map_congr_left fun q hq => if_neg fun hq' => ?_).trans (List.map_id l)
        exact h.1 (List.mem_map.mpr ⟨q, hq, hq'.trans hid.symm⟩)
      rw [if_pos hid, hothers, decide_eq_true hid]
      rfl
    · rw [if_neg hid, decide_eq_false hid, ← ih h.2]
      rfl

end ProxyPool

end BotHive.Proxy
