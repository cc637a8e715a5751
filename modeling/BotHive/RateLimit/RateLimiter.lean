import BotHive.Library.InsertionMap
import BotHive.Library.TimedKey
import Mathlib.Data.Int.Order.Basic
import Mathlib.Logic.Function.Basic

/-!
# Rate limiters

A limiter that counts requests in memory, per key and in a sliding window, and one that
counts them in a Redis key that expires. The second falls back on the first while Redis
does not answer. Both are asked at a time, in milliseconds since the epoch.

## Main definitions

- `RateLimiter.check`: the limiter in memory
- `RedisRateLimiter.check`: the limiter over Redis

## Main results

- `RateLimiter.check_eq`, `RateLimiter.alive_stored_check`: what a check in memory answers and
  which requests it remembers
-/

namespace BotHive.RateLimit

structure RateLimiter where
  maxRequests : ℕ
  windowMs : ℕ
  timestamps : InsertionMap String (List ℕ)

namespace RateLimiter

/-- A limiter that has seen no request. -/
def new (maxRequests windowMs : ℕ) : RateLimiter :=
  ⟨maxRequests, windowMs, .empty⟩

/-- The timestamps that lie in the window that ends now. -/
def alive (l : RateLimiter) (now : ℕ) (timestamps : List ℕ) : List ℕ :=
  timestamps.filter fun (t : ℕ) => (now : ℤ) - l.windowMs < t

def pruneExpired (l : RateLimiter) (now : ℕ) : RateLimiter :=
  { l with
    timestamps := l.timestamps.entries.foldl (fun m e =>
      m.alter e.1 (let alive := l.alive now e.2
        if alive.length = 0 then none else some alive)) l.timestamps }

/-- The timestamps that are remembered for a key. -/
def stored (l : RateLimiter) (key : String) : List ℕ :=
  (l.timestamps.get key).getD []

/-- The limiter with the timestamps of a key that are alive written back. -/
def kept (l : RateLimiter) (now : ℕ) (key : String) : RateLimiter :=
  let timestamps := l.alive now (l.stored key)
  { l with
    timestamps :=
      if timestamps.length = 0 then l.timestamps.delete key
      else l.timestamps.set key timestamps }

/-- The limiter with a request of a key that passes. -/
def pushed (l : RateLimiter) (now : ℕ) (key : String) : RateLimiter :=
  { l with
    timestamps := (l.kept now key).timestamps.set key (l.alive now (l.stored key) ++ [now]) }

/-- Let a request of a key pass if the window has room, and remember it. -/
def check (l : RateLimiter) (now : ℕ) (key : String) : Bool × RateLimiter :=
  if l.maxRequests ≤ (l.alive now (l.stored key)).length then (false, l.kept now key)
  else
    let next := l.pushed now key
    (true, if 1000 < next.timestamps.size then next.pruneExpired now else next)

def getRemaining (l : RateLimiter) (now : ℕ) (key : String) : ℕ :=
  l.maxRequests - (l.alive now (l.stored key)).length

/-- Milliseconds until the next slot in the window frees up, 0 if there is one. -/
def waitDelay (l : RateLimiter) (now : ℕ) (key : String) : ℕ :=
  let timestamps := l.alive now (l.stored key)
  if timestamps.length < l.maxRequests then 0
  else
    match timestamps.head? with
    | none => 0
    | some oldest => max 1 (oldest + l.windowMs - now)

section Check

variable {l : RateLimiter} {now later : ℕ}

@[simp] theorem alive_nil : l.alive now [] = [] :=
  rfl

theorem alive_append (a b : List ℕ) : l.alive now (a ++ b) = l.alive now a ++ l.alive now b :=
  List.filter_append ..

theorem length_alive_singleton (t : ℕ) :
    (l.alive now [t]).length = if now < t + l.windowMs then 1 else 0 := by
  have hiff : (now : ℤ) - l.windowMs < t ↔ now < t + l.windowMs := by omega
  rw [alive, ← List.countP_eq_length_filter, List.countP_singleton]
  simp only [hiff, decide_eq_true_eq]

/-- What is dropped at a time is dropped later as well. -/
theorem alive_alive (h : now ≤ later) (timestamps : List ℕ) :
    l.alive later (l.alive now timestamps) = l.alive later timestamps := by
  rw [alive, alive, alive, List.filter_filter]
  refine List.filter_congr fun t _ => ?_
  rw [← Bool.decide_and]
  refine decide_eq_decide.mpr ⟨And.left, fun ht => ⟨ht, ?_⟩⟩
  omega

/-- Pruning drops what is not alive. -/
theorem stored_pruneExpired (key : String) :
    (l.pruneExpired now).stored key = l.alive now (l.stored key) := by
  have hget := InsertionMap.get_foldl_alter
    (fun ts => if (l.alive now ts).length = 0 then none else some (l.alive now ts))
    l.timestamps.nodup l.timestamps key
  have hlookup : InsertionMap.lookup key l.timestamps.entries = l.timestamps.get key := rfl
  rw [stored, pruneExpired, hget, hlookup, stored]
  cases hkey : l.timestamps.get key with
  | none => rfl
  | some timestamps =>
    by_cases hnil : l.alive now timestamps = []
    · simp [hnil]
    · simp [hnil]

/-- A check of a full window is refused. -/
theorem check_of_full {key : String}
    (h : l.maxRequests ≤ (l.alive now (l.stored key)).length) : (l.check now key).1 = false := by
  rw [check, if_pos h]

/-- A check of a window with room passes. -/
theorem check_of_room {key : String}
    (h : (l.alive now (l.stored key)).length < l.maxRequests) : (l.check now key).1 = true := by
  rw [check, if_neg (not_le.mpr h)]

theorem check_eq (key : String) :
    (l.check now key).1 = decide ((l.alive now (l.stored key)).length < l.maxRequests) := by
  rcases lt_or_ge (l.alive now (l.stored key)).length l.maxRequests with h | h
  · rw [check_of_room h, decide_eq_true h]
  · rw [check_of_full h, decide_eq_false (not_lt.mpr h)]

@[simp] theorem maxRequests_check (key : String) :
    (l.check now key).2.maxRequests = l.maxRequests := by
  rw [check]
  dsimp only
  split_ifs <;> rfl

@[simp] theorem windowMs_check (key : String) : (l.check now key).2.windowMs = l.windowMs := by
  rw [check]
  dsimp only
  split_ifs <;> rfl

theorem alive_congr {l' : RateLimiter} (h : l'.windowMs = l.windowMs) (timestamps : List ℕ) :
    l'.alive now timestamps = l.alive now timestamps := by
  rw [alive, alive, h]

theorem alive_stored_kept (h : now ≤ later) (key k : String) :
    l.alive later ((l.kept now key).stored k) = l.alive later (l.stored k) := by
  rw [kept]
  by_cases hk : k = key
  · subst hk
    by_cases hnil : (l.alive now (l.stored k)).length = 0
    · rw [if_pos hnil, stored, InsertionMap.get_delete_self, ← alive_alive h (l.stored k),
        List.length_eq_zero_iff.mp hnil]
      rfl
    · rw [if_neg hnil, stored, InsertionMap.get_set_self, Option.getD_some, alive_alive h]
  · by_cases hnil : (l.alive now (l.stored key)).length = 0
    · rw [if_pos hnil, stored, InsertionMap.get_delete_of_ne _ hk, ← stored]
    · rw [if_neg hnil, stored, InsertionMap.get_set_of_ne _ _ hk, ← stored]

theorem alive_stored_pushed (h : now ≤ later) (key k : String) :
    l.alive later ((l.pushed now key).stored k) =
      l.alive later (l.stored k ++ if k = key then [now] else []) := by
  by_cases hk : k = key
  · subst hk
    rw [stored, pushed, InsertionMap.get_set_self, Option.getD_some, if_pos rfl, alive_append,
      alive_append, alive_alive h]
  · rw [stored, pushed, InsertionMap.get_set_of_ne _ _ hk, if_neg hk, List.append_nil]
    exact alive_stored_kept h key k

/-- The requests that count at a later time: those that did, and the one that passed. -/
theorem alive_stored_check (h : now ≤ later) (key k : String) :
    (l.check now key).2.alive later ((l.check now key).2.stored k) =
      l.alive later (l.stored k ++ if (l.check now key).1 ∧ k = key then [now] else []) := by
  rw [alive_congr (windowMs_check key)]
  rcases lt_or_ge (l.alive now (l.stored key)).length l.maxRequests with hroom | hfull
  · have hpassed : ((l.check now key).1 = true ∧ k = key) = (k = key) := by
      rw [check_of_room hroom, eq_self, true_and]
    simp only [hpassed]
    rw [← alive_stored_pushed h, check, if_neg (not_le.mpr hroom)]
    dsimp only
    split
    · rw [stored_pruneExpired]
      exact alive_alive h ((l.pushed now key).stored k)
    · rfl
  · rw [check_of_full hfull, if_neg (by simp), List.append_nil, check, if_pos hfull]
    exact alive_stored_kept h key k

end Check

end RateLimiter

/-- The counters in Redis, each with the time at which it expires. -/
abbrev RedisCounters := String → Option (TimedKey ℕ)

/-- The script that increments a counter and lets it expire `windowMs` after its first
    increment; it runs as one step. -/
def evalIncrement (redis : RedisCounters) (now : ℕ) (key : String) (windowMs : ℕ) :
    ℕ × RedisCounters :=
  match (redis key).filter (now < ·.expiresAt) with
  | none => (1, Function.update redis key (some ⟨1, now + windowMs⟩))
  | some counter =>
    let c := counter.value + 1
    let expiresAt := if c = 1 then now + windowMs else counter.expiresAt
    (c, Function.update redis key (some ⟨c, expiresAt⟩))

structure RedisRateLimiter where
  /-- Whether there is a client; it has `incr`, `pexpire` and `eval`. -/
  canUseRedis : Bool
  keyPrefix : String
  maxRequests : ℕ
  windowMs : ℕ
  memory : RateLimiter

namespace RedisRateLimiter

def new (canUseRedis : Bool) (keyPrefix : String) (maxRequests windowMs : ℕ) : RedisRateLimiter :=
  ⟨canUseRedis, keyPrefix, maxRequests, windowMs, .new maxRequests windowMs⟩

def key (l : RedisRateLimiter) (scope : String) : String :=
  l.keyPrefix ++ ":" ++ scope

/-- Ask the limiter in memory. -/
def checkMemory (l : RedisRateLimiter) (now : ℕ) (scope : String) : Bool × RedisRateLimiter :=
  let (allowed, memory) := l.memory.check now scope
  (allowed, { l with memory := memory })

/-- Let a request of a scope pass if its counter has not gone beyond the limit; while Redis
    cannot be reached the limiter in memory decides. -/
def check (l : RedisRateLimiter) (redis : RedisCounters) (reachable : Bool) (now : ℕ)
    (scope : String) : Bool × RedisRateLimiter × RedisCounters :=
  if !l.canUseRedis || !reachable then
    let (allowed, l) := l.checkMemory now scope
    (allowed, l, redis)
  else
    let (count, redis) := evalIncrement redis now (l.key scope) l.windowMs
    (count ≤ l.maxRequests, l, redis)

/-- A check leaves the limits as they are. -/
theorem limits_check (l : RedisRateLimiter) (redis : RedisCounters) (reachable : Bool) (now : ℕ)
    (scope : String) :
    (l.check redis reachable now scope).2.1.maxRequests = l.maxRequests ∧
      (l.check redis reachable now scope).2.1.windowMs = l.windowMs := by
  rw [check]
  split <;> exact ⟨rfl, rfl⟩

end RedisRateLimiter

end BotHive.RateLimit
