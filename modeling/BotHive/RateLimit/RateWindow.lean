import BotHive.Library.Machine
import BotHive.Library.Window
import BotHive.RateLimit.RateLimiter

/-!
# How many requests a limiter lets pass

One process checks requests of any scopes while time passes and Redis answers or not.
The limiter is meant to let at most `maxRequests` of a scope pass in every interval of
length `windowMs`. Each of its two counters knows only the requests that it has counted
itself: a Redis window starts from nothing when the one before it expires, and the
limiter in memory does not see what Redis lets pass. The rate is kept exactly as long
as what the answering counter has missed leaves room.

## Main definitions

- `LimiterWorld`: the limiter, Redis and the requests that passed
- `RateKept`: at most `maxRequests` of a scope pass in every interval of length `windowMs`
- `MissesLeaveRoom`: the condition on a check

## Main results

- `tallied_step`: what the two counters know
- `rateKept_iff_missesLeaveRoom`: when the rate is kept
-/

namespace BotHive.RateLimit

/-- A request that passed. -/
structure Admission where
  time : ℕ
  /-- Whether Redis let it pass, not the limiter in memory. -/
  viaRedis : Bool

/-- The limiter of a process, the counters in Redis and what passed of each scope, latest
    first. -/
structure LimiterWorld where
  now : ℕ
  limiter : RedisRateLimiter
  redis : RedisCounters
  admitted : String → List Admission

/-- A scope is checked, and Redis executes the script or fails; or time passes. -/
inductive LimiterAction where
  | check (scope : String) (reachable : Bool)
  | wait (ms : ℕ)

namespace LimiterWorld

def start (limiter : RedisRateLimiter) : LimiterWorld :=
  ⟨0, limiter, fun _ => none, fun _ => []⟩

def step (w : LimiterWorld) : LimiterAction → LimiterWorld
  | .check scope reachable =>
    let (allowed, limiter, redis) := w.limiter.check w.redis reachable w.now scope
    { w with
      limiter := limiter
      redis := redis
      admitted := fun s =>
        if allowed ∧ s = scope then
          ⟨w.now, w.limiter.canUseRedis && reachable⟩ :: w.admitted s
        else w.admitted s }
  | .wait ms => { w with now := w.now + ms }

/-- Times of the requests of a scope that passed. -/
def times (w : LimiterWorld) (scope : String) : List ℕ :=
  (w.admitted scope).map Admission.time

/-- No interval of length `windowMs` holds more than `maxRequests` requests of a scope. -/
def RateKept (w : LimiterWorld) : Prop :=
  ∀ scope, RateAtMost w.limiter.maxRequests w.limiter.windowMs (w.times scope)

/-- The counter of a scope in Redis, if it has not expired. -/
def counter? (w : LimiterWorld) (scope : String) : Option (TimedKey ℕ) :=
  (w.redis (w.limiter.key scope)).filter (w.now < ·.expiresAt)

/-- When the Redis window in force started; a check without one starts it. -/
def windowStart (w : LimiterWorld) (scope : String) : ℕ :=
  match w.counter? scope with
  | none => w.now
  | some counter => counter.expiresAt - w.limiter.windowMs

/-- The requests that the counter which answers a check has counted. -/
def counted (w : LimiterWorld) (scope : String) (reachable : Bool) : ℕ :=
  if w.limiter.canUseRedis && reachable then
    match w.counter? scope with
    | none => 0
    | some counter => counter.value
  else (w.limiter.memory.alive w.now (w.limiter.memory.stored scope)).length

/-- Whether the counter that answers a check holds a request that passed. -/
def heldBy (w : LimiterWorld) (scope : String) (reachable : Bool) (a : Admission) : Bool :=
  if w.limiter.canUseRedis && reachable then a.viaRedis && decide (w.windowStart scope ≤ a.time)
  else !a.viaRedis

/-- The requests of the last `windowMs` that passed and that the answering counter does not
    hold: those of the Redis window before, and those that the other counter let pass. -/
def missed (w : LimiterWorld) (scope : String) (reachable : Bool) : ℕ :=
  countRecent w.limiter.windowMs w.now
    (((w.admitted scope).filter fun a => !w.heldBy scope reachable a).map Admission.time)

/-- Whenever the counter that answers a check has room, what it has missed leaves room too. -/
def MissesLeaveRoom (w : LimiterWorld) : LimiterAction → Prop
  | .check scope reachable =>
    w.counted scope reachable < w.limiter.maxRequests →
      w.counted scope reachable + w.missed scope reachable < w.limiter.maxRequests
  | .wait _ => True

end LimiterWorld

-- ════════════════════════════════════════════════════════════════════════
-- What the counters of a scope know
-- ════════════════════════════════════════════════════════════════════════

/-- What a counter in Redis has counted of the requests that passed. -/
structure WindowTally (n w now : ℕ) (counter : TimedKey ℕ) (admitted : List Admission) : Prop where
  pos : 0 < counter.value
  started : w ≤ counter.expiresAt
  ends : counter.expiresAt ≤ now + w
  counted : min counter.value n =
    admitted.countP fun a => a.viaRedis && decide (counter.expiresAt - w ≤ a.time)
  before : ∀ a ∈ admitted, a.viaRedis = true → a.time < counter.expiresAt

/-- The two counters of a scope have counted what they let pass: `alive` is how many requests
    the limiter in memory counts at a later time, `counter` the key in Redis. -/
structure Tally (n w now : ℕ) (alive : ℕ → ℕ) (counter : Option (TimedKey ℕ))
    (admitted : List Admission) : Prop where
  past : ∀ a ∈ admitted, a.time ≤ now
  memory : ∀ later, now ≤ later →
    alive later = admitted.countP fun a => !a.viaRedis && decide (later < a.time + w)
  window : ∀ k, counter = some k → WindowTally n w now k admitted
  fresh : counter = none → ∀ a ∈ admitted, a.viaRedis = false

namespace Tally

variable {n w now : ℕ} {alive alive' : ℕ → ℕ} {counter : Option (TimedKey ℕ)}
  {admitted : List Admission}

theorem start (n w : ℕ) : Tally n w 0 (fun _ => 0) none [] where
  past _ h := absurd h List.not_mem_nil
  memory _ _ := rfl
  window _ h := nomatch h
  fresh _ _ h := absurd h List.not_mem_nil

theorem wait (h : Tally n w now alive counter admitted) (ms : ℕ) :
    Tally n w (now + ms) alive counter admitted where
  past a ha := (h.past a ha).trans (Nat.le_add_right now ms)
  memory later hlater := h.memory later ((Nat.le_add_right now ms).trans hlater)
  window k hk :=
    { h.window k hk with
      ends := (h.window k hk).ends.trans (Nat.add_le_add_right (Nat.le_add_right now ms) w) }
  fresh := h.fresh

theorem congr (h : Tally n w now alive counter admitted)
    (halive : ∀ later, now ≤ later → alive' later = alive later) :
    Tally n w now alive' counter admitted where
  past := h.past
  memory later hlater := (halive later hlater).trans (h.memory later hlater)
  window := h.window
  fresh := h.fresh

/-- The limiter in memory lets a request pass. -/
theorem pushMemory (h : Tally n w now alive counter admitted)
    (halive : ∀ later, now ≤ later →
      alive' later = alive later + if later < now + w then 1 else 0) :
    Tally n w now alive' counter (⟨now, false⟩ :: admitted) where
  past := by
    rintro a (_ | ⟨_, ha⟩)
    · exact le_rfl
    · exact h.past a ha
  memory later hlater := by
    rw [halive later hlater, h.memory later hlater, List.countP_cons]
    simp
  window k hk := by
    have hw := h.window k hk
    refine ⟨hw.pos, hw.started, hw.ends, ?_, ?_⟩
    · rw [List.countP_cons_of_neg (by simp)]
      exact hw.counted
    · rintro a (_ | ⟨_, ha⟩) hredis
      · cases hredis
      · exact hw.before a ha hredis
  fresh hnone := by
    rintro a (_ | ⟨_, ha⟩)
    · rfl
    · exact h.fresh hnone a ha

/-- No request that Redis let pass is in a window that starts now. -/
theorem countP_first (h : Tally n w now alive counter admitted)
    (hover : counter.filter (now < ·.expiresAt) = none) :
    admitted.countP (fun a => a.viaRedis && decide (now ≤ a.time)) = 0 := by
  rw [List.countP_eq_zero]
  intro a ha
  cases hc : counter with
  | none => simp [h.fresh hc a ha]
  | some k =>
    have hexpired : k.expiresAt ≤ now := by simpa [hc, Option.filter] using hover
    intro hin
    rw [Bool.and_eq_true, decide_eq_true_eq] at hin
    have hlt := (h.window k hc).before a ha hin.1
    omega

/-- A request starts a Redis window, and passes if the limit allows any. -/
theorem first (hw : 0 < w) (h : Tally n w now alive counter admitted)
    (hover : counter.filter (now < ·.expiresAt) = none) :
    Tally n w now alive (some ⟨1, now + w⟩)
      (if 1 ≤ n then ⟨now, true⟩ :: admitted else admitted) := by
  have hnone := h.countP_first hover
  have hold : ∀ a ∈ admitted, a.time < now + w := fun a ha => by
    have hle := h.past a ha
    omega
  by_cases hn : 1 ≤ n
  · rw [if_pos hn]
    constructor
    · rintro a (_ | ⟨_, ha⟩)
      · exact le_rfl
      · exact h.past a ha
    · intro later hlater
      rw [h.memory later hlater, List.countP_cons_of_neg (by simp)]
    · rintro k ⟨⟩
      refine ⟨Nat.one_pos, Nat.le_add_left w now, le_rfl, ?_, ?_⟩
      · rw [Nat.add_sub_cancel, List.countP_cons_of_pos (by simp), hnone]
        exact min_eq_left hn
      · rintro a (_ | ⟨_, ha⟩) _
        · exact Nat.lt_add_of_pos_right hw
        · exact hold a ha
    · intro hnone
      cases hnone
  · rw [if_neg hn]
    refine ⟨h.past, h.memory, ?_, fun hnone => by cases hnone⟩
    rintro k ⟨⟩
    refine ⟨Nat.one_pos, Nat.le_add_left w now, le_rfl, ?_, fun a ha _ => hold a ha⟩
    rw [Nat.add_sub_cancel, hnone]
    omega

/-- A request is counted in the Redis window in force, and passes if that has room. -/
theorem next (h : Tally n w now alive counter admitted) {k : TimedKey ℕ}
    (hk : counter.filter (now < ·.expiresAt) = some k) :
    Tally n w now alive (some ⟨k.value + 1, k.expiresAt⟩)
      (if k.value + 1 ≤ n then ⟨now, true⟩ :: admitted else admitted) := by
  obtain ⟨hk, hlive⟩ := Option.filter_eq_some_iff.mp hk
  rw [decide_eq_true_eq] at hlive
  have hw := h.window k hk
  have hends := hw.ends
  have hcounted := hw.counted
  by_cases hn : k.value + 1 ≤ n
  · rw [if_pos hn]
    constructor
    · rintro a (_ | ⟨_, ha⟩)
      · exact le_rfl
      · exact h.past a ha
    · intro later hlater
      rw [h.memory later hlater, List.countP_cons_of_neg (by simp)]
    · rintro k' ⟨⟩
      refine ⟨Nat.succ_pos _, hw.started, hw.ends, ?_, ?_⟩
      · have hin : k.expiresAt - w ≤ now := by omega
        dsimp only
        rw [List.countP_cons_of_pos (by simpa using hin), ← hcounted]
        omega
      · rintro a (_ | ⟨_, ha⟩) hredis
        · exact hlive
        · exact hw.before a ha hredis
    · intro hnone
      cases hnone
  · rw [if_neg hn]
    refine ⟨h.past, h.memory, ?_, fun hnone => by cases hnone⟩
    rintro k' ⟨⟩
    refine ⟨Nat.succ_pos _, hw.started, hw.ends, ?_, hw.before⟩
    dsimp only
    rw [← hcounted]
    omega

end Tally

namespace LimiterWorld

/-- The counters of all scopes have counted what they let pass. -/
structure Tallied (w : LimiterWorld) : Prop where
  maxRequests : w.limiter.memory.maxRequests = w.limiter.maxRequests
  windowMs : w.limiter.memory.windowMs = w.limiter.windowMs
  tally : ∀ scope, Tally w.limiter.maxRequests w.limiter.windowMs w.now
    (fun later => (w.limiter.memory.alive later (w.limiter.memory.stored scope)).length)
    (w.redis (w.limiter.key scope)) (w.admitted scope)

theorem tallied_start (canUseRedis : Bool) (keyPrefix : String) (maxRequests windowMs : ℕ) :
    (start (.new canUseRedis keyPrefix maxRequests windowMs)).Tallied :=
  ⟨rfl, rfl, fun _ => Tally.start maxRequests windowMs⟩

theorem key_inj (l : RedisRateLimiter) {a b : String} : l.key a = l.key b ↔ a = b := by
  rw [RedisRateLimiter.key, RedisRateLimiter.key]
  exact String.append_right_inj _

section Step

variable {w : LimiterWorld} {scope : String} {reachable : Bool}

/-- A check that the limiter in memory answers. -/
theorem step_memory (h : (w.limiter.canUseRedis && reachable) = false) :
    w.step (.check scope reachable) =
      { w with
        limiter := { w.limiter with memory := (w.limiter.memory.check w.now scope).2 }
        admitted := fun s =>
          if (w.limiter.memory.check w.now scope).1 ∧ s = scope then
            ⟨w.now, false⟩ :: w.admitted s
          else w.admitted s } := by
  have hmemory : (!w.limiter.canUseRedis || !reachable) = true := by
    rw [← Bool.not_and, h, Bool.not_false]
  simp only [step, RedisRateLimiter.check, if_pos hmemory, RedisRateLimiter.checkMemory, h]

/-- A check that starts a Redis window. -/
theorem step_first (h : (w.limiter.canUseRedis && reachable) = true)
    (hnone : w.counter? scope = none) :
    w.step (.check scope reachable) =
      { w with
        redis := Function.update w.redis (w.limiter.key scope)
          (some ⟨1, w.now + w.limiter.windowMs⟩)
        admitted := fun s =>
          if 1 ≤ w.limiter.maxRequests ∧ s = scope then ⟨w.now, true⟩ :: w.admitted s
          else w.admitted s } := by
  have hredis : ¬ (!w.limiter.canUseRedis || !reachable) = true := by
    rw [← Bool.not_and, h, Bool.not_true]
    exact Bool.false_ne_true
  rw [counter?] at hnone
  simp only [step, RedisRateLimiter.check, if_neg hredis, evalIncrement, hnone, h,
    decide_eq_true_eq]

/-- A check in a Redis window that has counted requests. -/
theorem step_next (h : (w.limiter.canUseRedis && reachable) = true) {counter : TimedKey ℕ}
    (hsome : w.counter? scope = some counter) (hpos : 0 < counter.value) :
    w.step (.check scope reachable) =
      { w with
        redis := Function.update w.redis (w.limiter.key scope)
          (some ⟨counter.value + 1, counter.expiresAt⟩)
        admitted := fun s =>
          if counter.value + 1 ≤ w.limiter.maxRequests ∧ s = scope then
            ⟨w.now, true⟩ :: w.admitted s
          else w.admitted s } := by
  have hredis : ¬ (!w.limiter.canUseRedis || !reachable) = true := by
    rw [← Bool.not_and, h, Bool.not_true]
    exact Bool.false_ne_true
  have hc : counter.value + 1 ≠ 1 := by omega
  rw [counter?] at hsome
  simp only [step, RedisRateLimiter.check, if_neg hredis, evalIncrement, hsome, h,
    if_neg hc, decide_eq_true_eq]

theorem tallied_memory (ht : w.Tallied) (h : (w.limiter.canUseRedis && reachable) = false) :
    (w.step (.check scope reachable)).Tallied := by
  rw [step_memory h]
  refine ⟨?_, ?_, fun k => ?_⟩
  · dsimp only
    rw [RateLimiter.maxRequests_check]
    exact ht.maxRequests
  · dsimp only
    rw [RateLimiter.windowMs_check]
    exact ht.windowMs
  have hk := ht.tally k
  dsimp only
  by_cases hpass : (w.limiter.memory.check w.now scope).1 = true ∧ k = scope
  · rw [if_pos hpass]
    refine hk.pushMemory fun later hlater => ?_
    rw [RateLimiter.alive_stored_check hlater, RateLimiter.alive_append, List.length_append,
      if_pos hpass, RateLimiter.length_alive_singleton, ht.windowMs]
  · rw [if_neg hpass]
    refine hk.congr fun later hlater => ?_
    rw [RateLimiter.alive_stored_check hlater, if_neg hpass, List.append_nil]

theorem tallied_redis (hw : 0 < w.limiter.windowMs) (ht : w.Tallied)
    (h : (w.limiter.canUseRedis && reachable) = true) :
    (w.step (.check scope reachable)).Tallied := by
  have hother : ∀ k v, k ≠ scope →
      Function.update w.redis (w.limiter.key scope) v (w.limiter.key k) =
        w.redis (w.limiter.key k) := fun k v hk =>
    Function.update_of_ne (fun hkey => hk ((key_inj w.limiter).mp hkey)) v w.redis
  cases hcounter : w.counter? scope with
  | none =>
    rw [step_first h hcounter]
    refine ⟨ht.maxRequests, ht.windowMs, fun k => ?_⟩
    dsimp only
    by_cases hk : k = scope
    · subst hk
      simp only [and_true]
      rw [Function.update_self]
      exact (ht.tally k).first hw hcounter
    · rw [hother k _ hk, if_neg fun hc => hk hc.2]
      exact ht.tally k
  | some counter =>
    have hpos : 0 < counter.value :=
      ((ht.tally scope).window counter (Option.filter_eq_some_iff.mp hcounter).1).pos
    rw [step_next h hcounter hpos]
    refine ⟨ht.maxRequests, ht.windowMs, fun k => ?_⟩
    dsimp only
    by_cases hk : k = scope
    · subst hk
      simp only [and_true]
      rw [Function.update_self]
      exact (ht.tally k).next hcounter
    · rw [hother k _ hk, if_neg fun hc => hk hc.2]
      exact ht.tally k

theorem tallied_step (hw : 0 < w.limiter.windowMs) (ht : w.Tallied) (a : LimiterAction) :
    (w.step a).Tallied := by
  cases a with
  | check scope reachable =>
    cases h : w.limiter.canUseRedis && reachable with
    | false => exact tallied_memory ht h
    | true => exact tallied_redis hw ht h
  | wait ms => exact ⟨ht.maxRequests, ht.windowMs, fun k => (ht.tally k).wait ms⟩

/-- What a check answers, and which requests have passed after it. -/
theorem admitted_check (ht : w.Tallied) :
    (w.step (.check scope reachable)).admitted = fun s =>
      if w.counted scope reachable < w.limiter.maxRequests ∧ s = scope then
        ⟨w.now, w.limiter.canUseRedis && reachable⟩ :: w.admitted s
      else w.admitted s := by
  cases h : w.limiter.canUseRedis && reachable with
  | false =>
    rw [step_memory h]
    dsimp only
    rw [RateLimiter.check_eq, counted, h, if_neg Bool.false_ne_true, ht.maxRequests]
    simp only [decide_eq_true_eq]
  | true =>
    cases hcounter : w.counter? scope with
    | none =>
      rw [step_first h hcounter, counted, h, if_pos rfl, hcounter]
      rfl
    | some counter =>
      have hpos : 0 < counter.value :=
        ((ht.tally scope).window counter (Option.filter_eq_some_iff.mp hcounter).1).pos
      rw [step_next h hcounter hpos, counted, h, if_pos rfl, hcounter]
      rfl

/-- A counter with room holds as many of the recent requests as it has counted. -/
theorem countP_heldBy (ht : w.Tallied)
    (hroom : w.counted scope reachable < w.limiter.maxRequests) :
    (w.admitted scope).countP (fun a =>
      decide (w.now < a.time + w.limiter.windowMs) && w.heldBy scope reachable a) =
      w.counted scope reachable := by
  have hk := ht.tally scope
  cases h : w.limiter.canUseRedis && reachable with
  | false =>
    have hcounted := hk.memory w.now le_rfl
    simp only [heldBy, counted, h, Bool.false_eq_true, if_false]
    rw [hcounted]
    exact List.countP_congr fun a _ => by rw [Bool.and_comm]
  | true =>
    cases hcounter : w.counter? scope with
    | none =>
      have hnone := hk.countP_first hcounter
      have hstart : w.windowStart scope = w.now := by rw [windowStart, hcounter]
      have hzero : w.counted scope reachable = 0 := by rw [counted, h, if_pos rfl, hcounter]
      simp only [heldBy, h, if_true, hstart]
      rw [hzero, List.countP_eq_zero]
      rw [List.countP_eq_zero] at hnone
      intro a ha hin
      rw [Bool.and_eq_true] at hin
      exact hnone a ha hin.2
    | some counter =>
      have hstart : w.windowStart scope = counter.expiresAt - w.limiter.windowMs := by
        rw [windowStart, hcounter]
      have hvalue : w.counted scope reachable = counter.value := by
        rw [counted, h, if_pos rfl, hcounter]
      obtain ⟨hsome, hlive⟩ := Option.filter_eq_some_iff.mp hcounter
      rw [decide_eq_true_eq] at hlive
      have hwin := hk.window counter hsome
      have hstarted := hwin.started
      simp only [heldBy, h, if_true, hstart]
      rw [hvalue] at hroom ⊢
      rw [← min_eq_left hroom.le, hwin.counted]
      refine List.countP_congr fun a _ => ?_
      -- what the window in force has counted is recent
      simp only [Bool.and_eq_true, decide_eq_true_eq]
      refine ⟨And.right, fun hin => ⟨?_, hin⟩⟩
      have hle := hin.2
      omega

theorem countRecent_times (ht : w.Tallied)
    (hroom : w.counted scope reachable < w.limiter.maxRequests) :
    countRecent w.limiter.windowMs w.now (w.times scope) =
      w.counted scope reachable + w.missed scope reachable := by
  rw [← countP_heldBy ht hroom, missed, countRecent, countRecent, times, List.countP_map,
    List.countP_map, List.countP_eq_countP_filter_add _ _ (w.heldBy scope reachable),
    List.countP_filter]
  simp only [Function.comp_apply]

theorem limits_step (w : LimiterWorld) (a : LimiterAction) :
    (w.step a).limiter.maxRequests = w.limiter.maxRequests ∧
      (w.step a).limiter.windowMs = w.limiter.windowMs := by
  cases a with
  | check scope reachable => exact w.limiter.limits_check w.redis reachable w.now scope
  | wait ms => exact ⟨rfl, rfl⟩

/-- **Step**: a check keeps the rate exactly when what its counter has missed leaves room. -/
theorem rateKept_step_iff (hw : 0 < w.limiter.windowMs) (ht : w.Tallied) (h : w.RateKept)
    (a : LimiterAction) : (w.step a).RateKept ↔ w.MissesLeaveRoom a := by
  cases a with
  | wait ms => exact iff_of_true h trivial
  | check scope reachable =>
    obtain ⟨hmax, hms⟩ := limits_step w (.check scope reachable)
    rw [RateKept, hmax, hms, MissesLeaveRoom]
    simp only [times, admitted_check ht]
    by_cases hroom : w.counted scope reachable < w.limiter.maxRequests
    · simp only [hroom, true_and, true_imp_iff]
      have hpast : ∀ t ∈ w.times scope, t ≤ w.now := by
        intro t hin
        obtain ⟨a, ha, rfl⟩ := List.mem_map.mp hin
        exact (ht.tally scope).past a ha
      rw [← countRecent_times ht hroom, ← rateAtMost_cons_iff hw hpast (h scope)]
      constructor
      · intro hall
        have hscope := hall scope
        rwa [if_pos rfl, List.map_cons] at hscope
      · intro hnew k
        by_cases hk : k = scope
        · subst hk
          rwa [if_pos rfl, List.map_cons]
        · rw [if_neg hk]
          exact h k
    · simp only [hroom, false_and, if_false, false_imp_iff, iff_true]
      exact h

/-- Nothing passed in the future. -/
def Past (w : LimiterWorld) : Prop :=
  ∀ scope, ∀ a ∈ w.admitted scope, a.time ≤ w.now

theorem past_step (h : w.Past) (a : LimiterAction) : (w.step a).Past := by
  cases a with
  | wait ms => exact fun scope a ha => (h scope a ha).trans (Nat.le_add_right w.now ms)
  | check scope reachable =>
    intro k a ha
    simp only [step] at ha
    split at ha
    · rcases List.mem_cons.mp ha with rfl | ha
      · exact le_rfl
      · exact h k a ha
    · exact h k a ha

/-- An interval without length holds no request, and nothing is recent in it. -/
theorem rateKept_of_no_window (hw : w.limiter.windowMs = 0) : w.RateKept := by
  intro scope a
  rw [countWithin_of_nonpos hw.le]
  exact Nat.zero_le _

theorem missesLeaveRoom_of_no_window (hw : w.limiter.windowMs = 0) (h : w.Past)
    (a : LimiterAction) : w.MissesLeaveRoom a := by
  cases a with
  | wait ms => trivial
  | check scope reachable =>
    have hmissed : w.missed scope reachable = 0 := by
      rw [missed, countRecent, List.countP_eq_zero]
      intro t ht
      obtain ⟨a, ha, rfl⟩ := List.mem_map.mp ht
      have hle := h scope a (List.mem_of_mem_filter ha)
      rw [decide_eq_true_eq]
      omega
    intro hroom
    rw [hmissed]
    exact hroom

end Step

/-- **Rate limiter**: in a run of checks and pauses in which Redis answers or fails in any
    pattern, no interval of length `windowMs` holds more than `maxRequests` requests of a scope
    that passed, exactly if at every check the requests that the answering counter has missed
    leave room. -/
theorem rateKept_iff_missesLeaveRoom (canUseRedis : Bool) (keyPrefix : String)
    (maxRequests windowMs : ℕ) (actions : List LimiterAction) :
    Machine.Everywhere (Machine.total step) RateKept
        (start (.new canUseRedis keyPrefix maxRequests windowMs)) actions ↔
      Machine.Along (Machine.total step) MissesLeaveRoom
        (start (.new canUseRedis keyPrefix maxRequests windowMs)) actions := by
  have hnone : (start (.new canUseRedis keyPrefix maxRequests windowMs)).RateKept :=
    fun _ => rateAtMost_nil maxRequests windowMs
  rcases Nat.eq_zero_or_pos windowMs with rfl | hw
  · refine Machine.everywhere_iff_along_of_invariant
      (fun w => w.Past ∧ w.limiter.windowMs = 0) ?_ ?_ ⟨fun _ _ h => (nomatch h), rfl⟩ hnone
    · rintro w a _ ⟨hpast, hw⟩ ⟨⟩
      exact ⟨past_step hpast a, (limits_step w a).2.trans hw⟩
    · rintro w a _ ⟨hpast, hw⟩ _ ⟨⟩
      exact iff_of_true (rateKept_of_no_window ((limits_step w a).2.trans hw))
        (missesLeaveRoom_of_no_window hw hpast a)
  · refine Machine.everywhere_iff_along_of_invariant
      (fun w => w.Tallied ∧ 0 < w.limiter.windowMs) ?_ ?_ ⟨tallied_start .., hw⟩ hnone
    · rintro w a _ ⟨ht, hpos⟩ ⟨⟩
      exact ⟨tallied_step hpos ht a, (limits_step w a).2 ▸ hpos⟩
    · rintro w a _ ⟨ht, hpos⟩ h ⟨⟩
      exact rateKept_step_iff hpos ht h a

/-- With two requests per 100 ms, one at the end of a Redis window and two at the start of the
    next pass within 2 ms. -/
theorem rateKept_fails_across_windows :
    ¬ Machine.Everywhere (Machine.total step) RateKept (start (.new true "limit" 2 100))
      [.check "a" true, .wait 99, .check "a" true, .wait 1, .check "a" true, .check "a" true] := by
  intro h
  have hlast : RateKept _ := ((((((h.2 _ rfl).2 _ rfl).2 _ rfl).2 _ rfl).2 _ rfl).2 _ rfl)
  have hrate := hlast "a" 99
  exact absurd hrate (by decide)

end LimiterWorld

end BotHive.RateLimit
