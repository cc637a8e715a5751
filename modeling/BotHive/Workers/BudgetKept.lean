import BotHive.Library.Machine
import BotHive.Workers.OutboundBudget

/-!
# When the outbound budget is exact

Within one window of a counter, the actions of a type that a bot executes should be as many as
are requested, up to the budget that its config sets at that time. The count is exact in every
run whose requests are charged once, against a counter that knows what the window has
executed, by a limiter that was created for the budget in the config.

## Main definitions

- `BudgetWorld.step`: requests, rebuilt credentials, reconnects and time
- `BudgetWorld.BudgetKept`: each request is executed exactly if the budget has room
- `BudgetWorld.ChargedAsConfigured`: the condition on a request

## Main results

- `BudgetWorld.budgetKept_of_chargedAsConfigured`
-/

namespace BotHive.Workers

open Queues RateLimit

/-- The requests of an action type of a bot since a counter started. For statements only. -/
structure BudgetWindow where
  source : BudgetSource
  expiresAt : ℕ
  requested : ℕ
  executed : ℕ
  /-- What the config allowed at the last request. -/
  budget : ℕ
  /-- All requests of the window had that budget. -/
  steady : Bool

def BudgetWindow.record (w : BudgetWindow) (budget : ℕ) (allowed : Bool) : BudgetWindow :=
  { w with
    requested := w.requested + 1
    executed := w.executed + allowed.toNat
    budget := budget
    steady := w.steady && w.budget == budget }

theorem BudgetWindow.executed_record (w : BudgetWindow) (budget : ℕ) (allowed : Bool) :
    (w.record budget allowed).executed = w.executed + allowed.toNat :=
  rfl

/-- A request, with what its window had executed before, the budget in the config, and the units
    by which the counters grew. For statements only. -/
structure BudgetRequest where
  botId : BotId
  actionType : String
  executedBefore : ℕ
  budget : ℕ
  executed : Bool
  units : ℕ

/-- The counter of a key, if it has not expired. -/
def liveCounter (redis : RedisCounters) (now : ℕ) (key : String) : Option (TimedKey ℕ) :=
  (redis key).filter (now < ·.expiresAt)

/-- A worker of a platform; `configured` is the config from which the credentials of a bot were
    rebuilt last. -/
structure BudgetWorld where
  now : ℕ
  outbound : OutboundState
  connected : BotId → Bool
  configured : BotId → BudgetSettings
  windows : BotId → String → Option BudgetWindow
  requests : List BudgetRequest

inductive BudgetAction where
  | buildCredentials (botId : BotId) (config : BudgetSettings)
  /-- The auto-start has listed the row with one config and rebuilds from another. -/
  | autoStart (botId : BotId) (listed config : BudgetSettings)
  | connected (botId : BotId)
  | disconnect (botId : BotId)
  | disconnectAll
  | execute (botId : BotId) (actionType : String)
  | tick (ms : ℕ)

/-- The units that a counter of an action type holds. -/
def OutboundState.units (o : OutboundState) (now : ℕ) (botId : BotId) (actionType : String)
    (source : BudgetSource) : ℕ :=
  ((liveCounter o.redis now (counterKey source botId actionType)).map TimedKey.value).getD 0

def OutboundState.used (o : OutboundState) (now : ℕ) (botId : BotId) (actionType : String) : ℕ :=
  o.units now botId actionType .actionBudget + o.units now botId actionType .perMinute +
    o.units now botId actionType .outbound

namespace BudgetWorld

def start (env : OutboundEnv) : BudgetWorld :=
  ⟨0, .start env, fun _ => false, fun _ => {}, fun _ _ => none, []⟩

/-- The window of an action type, if its counter has not expired. -/
def openWindow (s : BudgetWorld) (botId : BotId) (actionType : String) : Option BudgetWindow :=
  (s.windows botId actionType).filter (s.now < ·.expiresAt)

/-- The open window, or one that starts now. -/
def windowFor (env : OutboundEnv) (s : BudgetWorld) (botId : BotId) (actionType : String) :
    BudgetWindow :=
  let (source, budget) := governing env (s.configured botId) actionType
  (s.openWindow botId actionType).getD
    ⟨source, s.now + budget.windowMs, 0, 0, budget.maxRequests, true⟩

def execute (env : OutboundEnv) (s : BudgetWorld) (botId : BotId) (actionType : String) :
    BudgetWorld :=
  let (allowed, outbound) := s.outbound.executeRateLimited env s.now botId actionType
  if isExempt actionType then { s with outbound := outbound }
  else
    let budget := (governing env (s.configured botId) actionType).2.maxRequests
    let window := s.windowFor env botId actionType
    { s with
      outbound := outbound
      windows := Function.update s.windows botId
        (Function.update (s.windows botId) actionType (some (window.record budget allowed)))
      requests :=
        ⟨botId, actionType, window.executed, budget, allowed,
          outbound.used s.now botId actionType - s.outbound.used s.now botId actionType⟩ ::
        s.requests }

/-- A request is enabled for a connected bot only. -/
def step (env : OutboundEnv) (s : BudgetWorld) : BudgetAction → Option BudgetWorld
  | .buildCredentials botId config => some
    { s with
      outbound := s.outbound.buildCredentials botId config
      configured := Function.update s.configured botId config }
  | .autoStart botId listed config => some
    { s with
      outbound := s.outbound.autoStart botId listed config
      configured := Function.update s.configured botId config }
  | .connected botId => some { s with connected := Function.update s.connected botId true }
  | .disconnect botId => some
    { s with
      outbound := s.outbound.disconnect env botId
      connected := Function.update s.connected botId false }
  | .disconnectAll => some
    { s with outbound := s.outbound.disconnectAll env, connected := fun _ => false }
  | .execute botId actionType =>
    if s.connected botId then some (s.execute env botId actionType) else none
  | .tick ms => some { s with now := s.now + ms }

/-- Every request was executed exactly if its window had executed less than the budget, and
    then used one unit; so a window in which the budget has not changed has executed the smaller
    of what was requested and the budget. -/
structure BudgetKept (s : BudgetWorld) : Prop where
  requests : ∀ r ∈ s.requests,
    (r.executed = true ↔ r.executedBefore < r.budget) ∧ (r.executed = true → r.units = 1)
  windows : ∀ botId actionType w, s.windows botId actionType = some w → w.steady = true →
    w.executed = min w.requested w.budget

/-- The condition on a request: the platform does not charge it again; the entry has the budget
    of the config; the limiter was created for that budget; and the window that is open has
    counted on the same counter, and has refused nothing unless the budget is exhausted. -/
def ChargedAsConfigured (env : OutboundEnv) (s : BudgetWorld) : BudgetAction → Prop
  | .execute botId actionType => isExempt actionType = false →
    let (source, budget) := governing env (s.configured botId) actionType
    chargesAgain env.platform = false ∧
      governing env (s.outbound.settings botId) actionType = (source, budget) ∧
      (∀ l, s.outbound.cachedLimiter botId actionType source = some l →
        l.maxRequests = budget.maxRequests ∧ l.windowMs = budget.windowMs) ∧
      ∀ w, s.openWindow botId actionType = some w →
        w.source = source ∧ (w.executed = w.requested ∨ budget.maxRequests ≤ w.executed)
  | _ => True

/-- What holds in every run that meets the condition: the limiters count on their keys, and each
    counter has counted the requests of the open window. -/
structure Counted (s : BudgetWorld) : Prop where
  limiters : ∀ botId actionType source l,
    s.outbound.cachedLimiter botId actionType source = some l →
      l.canUseRedis = true ∧ l.keyPrefix = limiterPrefix botId source
  counters : ∀ botId actionType source,
    liveCounter s.outbound.redis s.now (counterKey source botId actionType) =
      ((s.openWindow botId actionType).filter (·.source = source)).map fun w =>
        ⟨w.requested, w.expiresAt⟩
  windows : ∀ botId actionType w, s.windows botId actionType = some w →
    0 < w.requested ∧ w.executed ≤ w.requested
  kept : s.BudgetKept

end BudgetWorld

-- ════════════════════════════════════════════════════════════════════════
-- One charge
-- ════════════════════════════════════════════════════════════════════════

/-- A counter after a charge; a first charge lets it expire at the given time. -/
def chargedCounter (counter : Option (TimedKey ℕ)) (expiresAt : ℕ) : TimedKey ℕ :=
  match counter with
  | none => ⟨1, expiresAt⟩
  | some c => ⟨c.value + 1, c.expiresAt⟩

theorem evalIncrement_eq {redis : RedisCounters} {now : ℕ} {key : String}
    (hpos : ∀ c, liveCounter redis now key = some c → 0 < c.value) (windowMs : ℕ) :
    evalIncrement redis now key windowMs =
      let charged := chargedCounter (liveCounter redis now key) (now + windowMs)
      (charged.value, Function.update redis key (some charged)) := by
  rw [evalIncrement]
  cases hcounter : liveCounter redis now key with
  | none =>
    rw [liveCounter] at hcounter
    rw [hcounter]
    rfl
  | some c =>
    have hne : c.value + 1 ≠ 1 := by
      have := hpos c hcounter
      omega
    rw [liveCounter] at hcounter
    rw [hcounter]
    dsimp only
    rw [if_neg hne]
    rfl

/-- What a check over Redis does, for a limiter that counts on a key. -/
theorem check_eq_of_redis {l : RedisRateLimiter} {redis : RedisCounters} {now : ℕ}
    {scope key : String} (hredis : l.canUseRedis = true) (hkey : l.key scope = key)
    (hpos : ∀ c, liveCounter redis now key = some c → 0 < c.value) :
    l.check redis true now scope =
      let charged := chargedCounter (liveCounter redis now key) (now + l.windowMs)
      (decide (charged.value ≤ l.maxRequests), l, Function.update redis key (some charged)) := by
  rw [RedisRateLimiter.check, hredis, hkey, evalIncrement_eq hpos]
  rfl

theorem liveCounter_update_self {redis : RedisCounters} {now : ℕ} {key : String}
    {counter : TimedKey ℕ} (h : now < counter.expiresAt) :
    liveCounter (Function.update redis key (some counter)) now key = some counter := by
  rw [liveCounter, Function.update_self]
  exact Option.filter_some_pos (decide_eq_true h)

theorem liveCounter_update_of_ne {redis : RedisCounters} {now : ℕ} {key other : String}
    (h : other ≠ key) (counter : Option (TimedKey ℕ)) :
    liveCounter (Function.update redis key counter) now other = liveCounter redis now other := by
  rw [liveCounter, Function.update_of_ne h, liveCounter]

/-- What is live later is what is live now and does not expire until then. -/
theorem filter_live_later {α : Type*} {f : α → ℕ} {now later : ℕ} (h : now ≤ later)
    (x : Option α) :
    x.filter (fun a => decide (later < f a)) =
      (x.filter fun a => decide (now < f a)).filter fun a => decide (later < f a) := by
  cases x with
  | none => rfl
  | some a =>
    by_cases hlive : now < f a
    · rw [Option.filter_some_pos (p := fun a => decide (now < f a)) (decide_eq_true hlive)]
    · have hlater : ¬ later < f a := by omega
      rw [Option.filter_some_neg (p := fun a => decide (now < f a)) (decide_eq_false hlive),
        Option.filter_some_neg (p := fun a => decide (later < f a)) (decide_eq_false hlater)]
      rfl

namespace BudgetWorld

variable {env : OutboundEnv} {s : BudgetWorld}

/-- The counter of a source under the open window. -/
theorem Counted.pos (h : s.Counted) {botId : BotId} {actionType : String} {source : BudgetSource}
    (c : TimedKey ℕ)
    (hc : liveCounter s.outbound.redis s.now (counterKey source botId actionType) = some c) :
    0 < c.value := by
  rw [h.counters, Option.map_eq_some_iff] at hc
  obtain ⟨w, hw, rfl⟩ := hc
  have hwindow : s.windows botId actionType = some w := by
    rw [openWindow] at hw
    exact Option.eq_some_of_filter_eq_some (Option.eq_some_of_filter_eq_some hw)
  exact (h.windows botId actionType w hwindow).1

/-- The counter that a charge leaves: the window has counted one request more. -/
theorem Counted.chargedCounter_eq (h : s.Counted) {botId : BotId} {actionType : String}
    {source : BudgetSource} {budget : RateLimitBudget}
    (hgoverning : governing env (s.configured botId) actionType = (source, budget))
    (hsource : ∀ w, s.openWindow botId actionType = some w → w.source = source) :
    chargedCounter (liveCounter s.outbound.redis s.now (counterKey source botId actionType))
        (s.now + budget.windowMs) =
      ⟨(s.windowFor env botId actionType).requested + 1,
        (s.windowFor env botId actionType).expiresAt⟩ := by
  rw [h.counters, windowFor, hgoverning]
  cases hwindow : s.openWindow botId actionType with
  | none => rfl
  | some w =>
    have hfilter : (some w).filter (fun w => decide (w.source = source)) = some w :=
      Option.filter_some_pos (decide_eq_true (hsource w hwindow))
    rw [hfilter]
    rfl

/-- The limiter that a charge asks counts on the key of its budget. -/
theorem Counted.limiterFor (h : s.Counted) {botId : BotId} {actionType : String}
    {source : BudgetSource} {budget : RateLimitBudget}
    (hcached : ∀ l, s.outbound.cachedLimiter botId actionType source = some l →
      l.maxRequests = budget.maxRequests ∧ l.windowMs = budget.windowMs) :
    let l := s.outbound.limiterFor botId actionType source budget
    (l.canUseRedis = true ∧ l.keyPrefix = limiterPrefix botId source) ∧
      l.maxRequests = budget.maxRequests ∧ l.windowMs = budget.windowMs := by
  rw [OutboundState.limiterFor]
  cases hlimiter : s.outbound.cachedLimiter botId actionType source with
  | none => exact ⟨⟨rfl, rfl⟩, rfl, rfl⟩
  | some l => exact ⟨h.limiters botId actionType source l hlimiter, hcached l hlimiter⟩

theorem settings_ensureBot (o : OutboundState) (botId : BotId) :
    (o.ensureBot botId).settings botId = o.settings botId := by
  rw [OutboundState.settings]
  show (Function.update o.bots botId (some (o.settings botId)) botId).getD {} = _
  rw [Function.update_self, Option.getD_some]

/-- A request that meets the condition is executed exactly if its window has been asked less
    than the budget, and adds one to the counter. -/
theorem Counted.executeRateLimited_eq (h : s.Counted) {botId : BotId} {actionType : String}
    (hexempt : isExempt actionType = false) {source : BudgetSource} {budget : RateLimitBudget}
    (hgoverning : governing env (s.configured botId) actionType = (source, budget))
    (hcharged : s.ChargedAsConfigured env (.execute botId actionType)) :
    s.outbound.executeRateLimited env s.now botId actionType =
      let w := s.windowFor env botId actionType
      (decide (w.requested + 1 ≤ budget.maxRequests),
        { (s.outbound.ensureBot botId).putLimiter botId actionType
            (s.outbound.limiterFor botId actionType source budget) source with
          redis := Function.update s.outbound.redis (counterKey source botId actionType)
            (some ⟨w.requested + 1, w.expiresAt⟩) }) := by
  have hcond := hcharged hexempt
  rw [hgoverning] at hcond
  obtain ⟨honce, hentry, hcached, hwindow⟩ := hcond
  obtain ⟨⟨hredis, hprefixed⟩, hmax, hms⟩ := h.limiterFor hcached
  have hkey : (s.outbound.limiterFor botId actionType source budget).key
      (limiterScope botId actionType source) = counterKey source botId actionType := by
    rw [RedisRateLimiter.key, hprefixed, counterKey]
  have hcheck := check_eq_of_redis hredis hkey h.pos
  rw [hms, h.chargedCounter_eq hgoverning fun w hw => (hwindow w hw).1, hmax] at hcheck
  have hensured : governing env ((s.outbound.ensureBot botId).settings botId) actionType =
      (source, budget) := by
    rw [settings_ensureBot, hentry]
  have hassert := OutboundState.assertOutboundAllowed_eq (s.outbound.ensureBot botId) env s.now
    botId hexempt hensured
  have hlimiter : (s.outbound.ensureBot botId).limiterFor botId actionType source budget =
      s.outbound.limiterFor botId actionType source budget := by
    cases source <;> rfl
  have hsame : (s.outbound.ensureBot botId).redis = s.outbound.redis := rfl
  rw [hlimiter, hsame, hcheck] at hassert
  rw [OutboundState.executeRateLimited, hassert, honce]
  simp only [Bool.and_false, Bool.false_eq_true, if_false]

-- ════════════════════════════════════════════════════════════════════════
-- Steps
-- ════════════════════════════════════════════════════════════════════════

/-- Settings and connections count nothing; limiters may be dropped. -/
theorem Counted.congr (h : s.Counted) {t : BudgetWorld}
    (hlimiters : ∀ botId actionType source l,
      t.outbound.cachedLimiter botId actionType source = some l →
        s.outbound.cachedLimiter botId actionType source = some l)
    (hredis : t.outbound.redis = s.outbound.redis) (hnow : t.now = s.now)
    (hwindows : t.windows = s.windows) (hrequests : t.requests = s.requests) : t.Counted := by
  refine ⟨?_, ?_, ?_, ?_, ?_⟩
  · intro botId actionType source l hl
    exact h.limiters botId actionType source l (hlimiters botId actionType source l hl)
  · intro botId actionType source
    rw [hredis, hnow, h.counters, openWindow, openWindow, hwindows, hnow]
  · rw [hwindows]
    exact h.windows
  · rw [hrequests]
    exact h.kept.requests
  · rw [hwindows]
    exact h.kept.windows

theorem openWindow_tick (s : BudgetWorld) (ms : ℕ) (botId : BotId) (actionType : String) :
    openWindow { s with now := s.now + ms } botId actionType =
      (s.openWindow botId actionType).filter fun w => decide (s.now + ms < w.expiresAt) :=
  filter_live_later (Nat.le_add_right ..) (s.windows botId actionType)

theorem Counted.tick (h : s.Counted) (ms : ℕ) : Counted { s with now := s.now + ms } := by
  refine ⟨h.limiters, ?_, h.windows, h.kept.requests, h.kept.windows⟩
  intro botId actionType source
  have hcounter := h.counters botId actionType source
  rw [liveCounter] at hcounter
  rw [openWindow_tick, liveCounter, filter_live_later (Nat.le_add_right s.now ms), hcounter]
  cases s.openWindow botId actionType with
  | none => rfl
  | some w =>
    by_cases hsource : w.source = source <;> by_cases hlive : s.now + ms < w.expiresAt <;>
      simp [Option.filter, hsource, hlive]

theorem cachedLimiter_putLimiter {o : OutboundState} {botId : BotId} {actionType : String}
    {source : BudgetSource} {l : RedisRateLimiter} {botId' : BotId} {actionType' : String}
    {source' : BudgetSource} {l' : RedisRateLimiter}
    (h : (o.putLimiter botId actionType l source).cachedLimiter botId' actionType' source' =
      some l') :
    (l' = l ∧ limiterPrefix botId' source' = limiterPrefix botId source) ∨
      o.cachedLimiter botId' actionType' source' = some l' := by
  cases source <;> cases source'
  case actionBudget.actionBudget =>
    by_cases hbot : botId' = botId
    · subst hbot
      by_cases htype : actionType' = actionType
      · subst htype
        have hl : some l = some l' := by
          simpa [OutboundState.putLimiter, OutboundState.cachedLimiter] using h
        exact .inl ⟨(Option.some.inj hl).symm, rfl⟩
      · refine .inr ?_
        simpa [OutboundState.putLimiter, OutboundState.cachedLimiter, htype] using h
    · refine .inr ?_
      simpa [OutboundState.putLimiter, OutboundState.cachedLimiter, hbot] using h
  case perMinute.perMinute =>
    by_cases hbot : botId' = botId
    · subst hbot
      have hl : some l = some l' := by
        simpa [OutboundState.putLimiter, OutboundState.cachedLimiter] using h
      exact .inl ⟨(Option.some.inj hl).symm, rfl⟩
    · refine .inr ?_
      simpa [OutboundState.putLimiter, OutboundState.cachedLimiter, hbot] using h
  case outbound.outbound => exact .inl ⟨(Option.some.inj h).symm, rfl⟩
  all_goals exact .inr h

/-- The window of a request that meets the condition. -/
structure WindowSound (source : BudgetSource) (budget now : ℕ) (w : BudgetWindow) : Prop where
  source : w.source = source
  live : now < w.expiresAt
  executed_le : w.executed ≤ w.requested
  room : w.executed = w.requested ∨ budget ≤ w.executed
  steady : w.steady = true → w.executed = min w.requested w.budget

theorem Counted.windowFor (h : s.Counted) {botId : BotId} {actionType : String}
    {source : BudgetSource} {budget : RateLimitBudget}
    (hgoverning : governing env (s.configured botId) actionType = (source, budget))
    (hwindow : ∀ w, s.openWindow botId actionType = some w →
      w.source = source ∧ (w.executed = w.requested ∨ budget.maxRequests ≤ w.executed)) :
    WindowSound source budget.maxRequests s.now (s.windowFor env botId actionType) := by
  rw [BudgetWorld.windowFor, hgoverning]
  cases hopen : s.openWindow botId actionType with
  | none =>
    have hlive : s.now < s.now + budget.windowMs := Nat.lt_add_of_pos_right budget.windowMs_pos
    exact ⟨rfl, hlive, le_rfl, .inl rfl, fun _ => (Nat.zero_min _).symm⟩
  | some w =>
    obtain ⟨hsource, hroom⟩ := hwindow w hopen
    rw [openWindow, Option.filter_eq_some_iff, decide_eq_true_eq] at hopen
    exact ⟨hsource, hopen.2, (h.windows _ _ w hopen.1).2, hroom, h.kept.windows _ _ w hopen.1⟩

namespace WindowSound

variable {source : BudgetSource} {budget now : ℕ} {w : BudgetWindow}

/-- The counter has room exactly if the budget has. -/
theorem allowed_iff (h : WindowSound source budget now w) :
    w.requested + 1 ≤ budget ↔ w.executed < budget := by
  have hle := h.executed_le
  rcases h.room with hall | hfull <;> omega

theorem steady_record (h : WindowSound source budget now w)
    (hsteady : (w.record budget (decide (w.requested + 1 ≤ budget))).steady = true) :
    (w.record budget (decide (w.requested + 1 ≤ budget))).executed =
      min (w.requested + 1) budget := by
  rw [BudgetWindow.record, Bool.and_eq_true, beq_iff_eq] at hsteady
  have hexecuted := h.steady hsteady.1
  rw [hsteady.2] at hexecuted
  rw [BudgetWindow.executed_record]
  by_cases hroom : w.requested + 1 ≤ budget
  · rw [decide_eq_true hroom, Bool.toNat_true]
    omega
  · rw [decide_eq_false hroom, Bool.toNat_false]
    omega

end WindowSound

section Execute

variable {botId : BotId} {actionType : String} {source : BudgetSource} {budget : RateLimitBudget}

/-- The counters after a charge of one of them. -/
theorem liveCounter_charge {o : OutboundState} {now : ℕ} {redis : RedisCounters} {counter : TimedKey ℕ}
    (hlive : now < counter.expiresAt) (botId' : BotId) (actionType' : String)
    (source' : BudgetSource)
    (hredis : o.redis = Function.update redis (counterKey source botId actionType)
      (some counter)) :
    liveCounter o.redis now (counterKey source' botId' actionType') =
      if source' = source ∧ botId' = botId ∧ actionType' = actionType then some counter
      else liveCounter redis now (counterKey source' botId' actionType') := by
  rw [hredis]
  split
  · rename_i h
    obtain ⟨rfl, rfl, rfl⟩ := h
    exact liveCounter_update_self hlive
  · rename_i h
    exact liveCounter_update_of_ne (fun heq => h (counterKey_inj heq)) _

/-- A charge adds one unit. -/
theorem Counted.units (h : s.Counted)
    (hgoverning : governing env (s.configured botId) actionType = (source, budget))
    (hw : WindowSound source budget.maxRequests s.now (s.windowFor env botId actionType))
    {o : OutboundState}
    (hredis : o.redis = Function.update s.outbound.redis (counterKey source botId actionType)
      (some ⟨(s.windowFor env botId actionType).requested + 1,
        (s.windowFor env botId actionType).expiresAt⟩)) :
    o.used s.now botId actionType - s.outbound.used s.now botId actionType = 1 := by
  have hbefore : s.outbound.units s.now botId actionType source =
      (s.windowFor env botId actionType).requested := by
    rw [OutboundState.units, h.counters, BudgetWorld.windowFor, hgoverning]
    cases hopen : s.openWindow botId actionType with
    | none => rfl
    | some w =>
      have hsource : w.source = source := by
        have := hw.source
        rwa [BudgetWorld.windowFor, hgoverning, hopen] at this
      have hfilter : (some w).filter (fun w => decide (w.source = source)) = some w :=
        Option.filter_some_pos (decide_eq_true hsource)
      rw [hfilter]
      rfl
  have hafter : o.units s.now botId actionType source =
      (s.windowFor env botId actionType).requested + 1 := by
    rw [OutboundState.units, liveCounter_charge hw.live _ _ _ hredis, if_pos ⟨rfl, rfl, rfl⟩]
    rfl
  have hother : ∀ source', source' ≠ source →
      o.units s.now botId actionType source' =
        s.outbound.units s.now botId actionType source' := by
    intro source' hne
    rw [OutboundState.units, liveCounter_charge hw.live _ _ _ hredis, if_neg fun h => hne h.1,
      OutboundState.units]
  rw [OutboundState.used, OutboundState.used]
  cases source with
  | actionBudget =>
    rw [hafter, hbefore, hother .perMinute nofun, hother .outbound nofun]
    omega
  | perMinute =>
    rw [hafter, hbefore, hother .actionBudget nofun, hother .outbound nofun]
    omega
  | outbound =>
    rw [hafter, hbefore, hother .actionBudget nofun, hother .perMinute nofun]
    omega

theorem execute_of_exempt (h : isExempt actionType = true) :
    s.execute env botId actionType = { s with outbound := s.outbound.ensureBot botId } := by
  have hassert : ∀ o : OutboundState,
      o.assertOutboundAllowed env s.now botId actionType = (true, o) := by
    intro o
    rw [OutboundState.assertOutboundAllowed, if_pos h]
  have hrun : s.outbound.executeRateLimited env s.now botId actionType =
      (true, s.outbound.ensureBot botId) := by
    rw [OutboundState.executeRateLimited, hassert]
    dsimp only
    rw [hassert, ite_self]
  rw [BudgetWorld.execute, hrun]
  exact if_pos h

theorem execute_of_charged {allowed : Bool} {outbound : OutboundState}
    (hexempt : isExempt actionType = false)
    (hgoverning : governing env (s.configured botId) actionType = (source, budget))
    (hrun : s.outbound.executeRateLimited env s.now botId actionType = (allowed, outbound)) :
    s.execute env botId actionType =
      { s with
        outbound := outbound
        windows := Function.update s.windows botId
          (Function.update (s.windows botId) actionType
            (some ((s.windowFor env botId actionType).record budget.maxRequests allowed)))
        requests :=
          ⟨botId, actionType, (s.windowFor env botId actionType).executed, budget.maxRequests,
            allowed, outbound.used s.now botId actionType -
              s.outbound.used s.now botId actionType⟩ :: s.requests } := by
  rw [BudgetWorld.execute, hrun, hgoverning]
  exact if_neg (Bool.eq_false_iff.mp hexempt)

theorem update_windows (windows : BotId → String → Option BudgetWindow) (w : BudgetWindow)
    (botId' : BotId) (actionType' : String) :
    Function.update windows botId (Function.update (windows botId) actionType (some w)) botId'
        actionType' =
      if botId' = botId ∧ actionType' = actionType then some w else windows botId' actionType' := by
  by_cases hbot : botId' = botId
  · subst hbot
    by_cases htype : actionType' = actionType
    · subst htype
      rw [Function.update_self, Function.update_self, if_pos ⟨rfl, rfl⟩]
    · rw [Function.update_self, Function.update_of_ne htype, if_neg fun h => htype h.2]
  · rw [Function.update_of_ne hbot, if_neg fun h => hbot h.1]

/-- What a request that meets the condition does. -/
structure Charged (env : OutboundEnv) (s t : BudgetWorld) (botId : BotId) (actionType : String)
    (source : BudgetSource) (budget : ℕ) : Prop where
  now : t.now = s.now
  redis : t.outbound.redis =
    Function.update s.outbound.redis (counterKey source botId actionType)
      (some ⟨(s.windowFor env botId actionType).requested + 1,
        (s.windowFor env botId actionType).expiresAt⟩)
  limiters : ∀ botId' actionType' source' l,
    t.outbound.cachedLimiter botId' actionType' source' = some l →
      (l.canUseRedis = true ∧ l.keyPrefix = limiterPrefix botId' source') ∨
        s.outbound.cachedLimiter botId' actionType' source' = some l
  windows : t.windows = Function.update s.windows botId
    (Function.update (s.windows botId) actionType
      (some ((s.windowFor env botId actionType).record budget
        (decide ((s.windowFor env botId actionType).requested + 1 ≤ budget)))))
  requests : t.requests =
    ⟨botId, actionType, (s.windowFor env botId actionType).executed, budget,
      decide ((s.windowFor env botId actionType).requested + 1 ≤ budget),
      t.outbound.used s.now botId actionType - s.outbound.used s.now botId actionType⟩ ::
        s.requests

theorem Counted.charged_execute (h : s.Counted) (hexempt : isExempt actionType = false)
    (hgoverning : governing env (s.configured botId) actionType = (source, budget))
    (hcharged : s.ChargedAsConfigured env (.execute botId actionType)) :
    Charged env s (s.execute env botId actionType) botId actionType source
      budget.maxRequests := by
  have hcond := hcharged hexempt
  rw [hgoverning] at hcond
  rw [execute_of_charged hexempt hgoverning (h.executeRateLimited_eq hexempt hgoverning hcharged)]
  refine ⟨rfl, rfl, ?_, rfl, rfl⟩
  intro botId' actionType' source' l hl
  rcases cachedLimiter_putLimiter hl with ⟨rfl, hprefixed⟩ | hl
  · rw [hprefixed]
    exact .inl (h.limiterFor hcond.2.2.1).1
  · exact .inr hl

/-- After a charge the counters hold the requests of the open windows again. -/
theorem Counted.counters_charge (h : s.Counted) {t : BudgetWorld}
    (hw : WindowSound source budget.maxRequests s.now (s.windowFor env botId actionType))
    (hopen : ∀ w, s.openWindow botId actionType = some w → w.source = source)
    (hcharge : Charged env s t botId actionType source budget.maxRequests)
    (botId' : BotId) (actionType' : String) (source' : BudgetSource) :
    liveCounter t.outbound.redis t.now (counterKey source' botId' actionType') =
      ((t.openWindow botId' actionType').filter (·.source = source')).map fun w =>
        ⟨w.requested, w.expiresAt⟩ := by
  rw [hcharge.now, liveCounter_charge hw.live botId' actionType' source' hcharge.redis,
    openWindow, hcharge.windows, update_windows, hcharge.now]
  by_cases hsame : botId' = botId ∧ actionType' = actionType
  · rw [if_pos hsame]
    obtain ⟨rfl, rfl⟩ := hsame
    have hlive : ∀ allowed, (some ((s.windowFor env botId' actionType').record
        budget.maxRequests allowed)).filter (fun w => decide (s.now < w.expiresAt)) =
        some ((s.windowFor env botId' actionType').record budget.maxRequests allowed) :=
      fun allowed => Option.filter_some_pos (decide_eq_true hw.live)
    have hrecord : ∀ allowed, ((s.windowFor env botId' actionType').record budget.maxRequests
        allowed).source = source := fun _ => hw.source
    rw [hlive]
    by_cases hsource : source' = source
    · subst hsource
      have hcounts : ∀ w' : BudgetWindow, w'.source = source' →
          (some w').filter (fun w => decide (w.source = source')) = some w' :=
        fun w' heq => Option.filter_some_pos (decide_eq_true heq)
      rw [if_pos ⟨rfl, rfl, rfl⟩, hcounts _ (hrecord _)]
      rfl
    · -- The window counts on one source, and so did the one that was open before.
      have hskips : ∀ w' : BudgetWindow, w'.source = source →
          (some w').filter (fun w => decide (w.source = source')) = none :=
        fun w' heq => Option.filter_some_neg (decide_eq_false fun h => hsource (h.symm.trans heq))
      rw [if_neg fun h => hsource h.1, h.counters, hskips _ (hrecord _)]
      cases hbefore : s.openWindow botId' actionType' with
      | none => rfl
      | some w => rw [hskips w (hopen w hbefore)]
  · rw [if_neg hsame, if_neg fun h => hsame h.2, h.counters, openWindow]

/-- A request that meets the condition is counted. -/
theorem Counted.execute (h : s.Counted)
    (hcharged : s.ChargedAsConfigured env (.execute botId actionType)) :
    (s.execute env botId actionType).Counted := by
  by_cases hexempt : isExempt actionType = true
  · rw [execute_of_exempt hexempt]
    exact h.congr (fun _ _ _ _ => id) rfl rfl rfl rfl
  rw [Bool.not_eq_true] at hexempt
  rcases hgoverning : governing env (s.configured botId) actionType with ⟨source, budget⟩
  have hcond := hcharged hexempt
  rw [hgoverning] at hcond
  have hwindow := hcond.2.2.2
  have hw := h.windowFor hgoverning hwindow
  have hcharge := h.charged_execute hexempt hgoverning hcharged
  generalize s.execute env botId actionType = t at hcharge
  refine ⟨?_, h.counters_charge hw (fun w hopen => (hwindow w hopen).1) hcharge, ?_, ?_, ?_⟩
  · intro botId' actionType' source' l hl
    rcases hcharge.limiters botId' actionType' source' l hl with hgood | hl
    · exact hgood
    · exact h.limiters botId' actionType' source' l hl
  · intro botId' actionType' w hwin
    rw [hcharge.windows, update_windows] at hwin
    split at hwin
    · obtain rfl := Option.some.inj hwin
      refine ⟨Nat.succ_pos _, ?_⟩
      rw [BudgetWindow.executed_record]
      exact Nat.add_le_add hw.executed_le (Bool.toNat_le _)
    · exact h.windows botId' actionType' w hwin
  · intro r hr
    rw [hcharge.requests] at hr
    rcases List.mem_cons.mp hr with rfl | hr
    · refine ⟨?_, fun _ => h.units hgoverning hw hcharge.redis⟩
      rw [decide_eq_true_eq]
      exact hw.allowed_iff
    · exact h.kept.requests r hr
  · intro botId' actionType' w hwin hsteady
    rw [hcharge.windows, update_windows] at hwin
    split at hwin
    · obtain rfl := Option.some.inj hwin
      exact hw.steady_record hsteady
    · exact h.kept.windows botId' actionType' w hwin hsteady

end Execute

/-- **Step**: a step whose request meets the condition keeps the counters right. -/
theorem counted_step {t : BudgetWorld} {a : BudgetAction} (h : s.Counted)
    (hcharged : s.ChargedAsConfigured env a) (hstep : s.step env a = some t) : t.Counted := by
  cases a with
  | buildCredentials botId config | autoStart botId listed config | connected botId =>
    obtain rfl := Option.some.inj hstep
    exact h.congr (fun _ _ _ _ => id) rfl rfl rfl rfl
  | disconnect botId =>
    obtain rfl := Option.some.inj hstep
    refine h.congr ?_ ?_ rfl rfl rfl
    · intro botId' actionType source l hl
      rw [OutboundState.disconnect] at hl
      split at hl <;> exact hl
    · rw [OutboundState.disconnect]
      split <;> rfl
  | disconnectAll =>
    obtain rfl := Option.some.inj hstep
    refine h.congr ?_ rfl rfl rfl rfl
    intro botId actionType source l hl
    cases source with
    | actionBudget => exact hl
    | perMinute => cases hl
    | outbound => exact hl
  | execute botId actionType =>
    rw [step] at hstep
    split at hstep
    · obtain rfl := Option.some.inj hstep
      exact h.execute hcharged
    · cases hstep
  | tick ms =>
    obtain rfl := Option.some.inj hstep
    exact h.tick ms

theorem counted_start (env : OutboundEnv) : (start env).Counted := by
  refine ⟨?_, fun _ _ _ => rfl, nofun, nofun, nofun⟩
  intro botId actionType source l hl
  cases source with
  | actionBudget => cases hl
  | perMinute => cases hl
  | outbound =>
    obtain rfl := Option.some.inj hl
    exact ⟨rfl, rfl⟩

/-- **Outbound budget**: in every run whose requests are charged as the config says, each request
    is executed exactly if its budget has room, and uses one unit. -/
theorem budgetKept_of_chargedAsConfigured (env : OutboundEnv) {actions : List BudgetAction}
    (h : Machine.Along (step env) (ChargedAsConfigured env) (start env) actions) :
    Machine.Everywhere (step env) BudgetKept (start env) actions :=
  Machine.everywhere_of_invariant Counted BudgetKept
    (fun _ _ _ hs hcharged hstep => counted_step hs hcharged hstep) (fun _ hs => hs.kept)
    (counted_start env) h

theorem minute_pos : 0 < 60000 := by decide

def sampleEnv (platform : Platform) : OutboundEnv :=
  ⟨platform, none, ⟨30, 60000, minute_pos⟩⟩

def sampleBot : BotId :=
  ⟨"b1", by decide, by simp⟩

/-- A bot of a budget of one message a minute is asked for two. -/
def sampleActions : List BudgetAction :=
  [.buildCredentials sampleBot { rateLimitPerMinute := some 1 }, .connected sampleBot,
    .execute sampleBot "sendMessage", .tick 1000, .execute sampleBot "sendMessage"]

theorem budgetKept_of_chargedAsConfigured_telegram :
    Machine.Everywhere (step (sampleEnv .telegram)) BudgetKept (start (sampleEnv .telegram))
      sampleActions := by
  apply budgetKept_of_chargedAsConfigured
  rintro _ ⟨⟩
  refine ⟨trivial, ?_⟩
  rintro _ ⟨⟩
  refine ⟨trivial, ?_⟩
  rintro _ ⟨⟩
  refine ⟨fun _ => ⟨rfl, rfl, nofun, nofun⟩, ?_⟩
  rintro _ ⟨⟩
  refine ⟨trivial, ?_⟩
  rintro _ ⟨⟩
  refine ⟨fun _ => ⟨rfl, rfl, ?_, ?_⟩, trivial⟩
  · rintro l ⟨⟩
    exact ⟨rfl, rfl⟩
  · intro w hw
    have hlast := Option.eq_some_of_filter_eq_some hw
    cases hlast
    exact ⟨rfl, .inl rfl⟩

/-- On Discord one message uses two units, so the budget of one is exhausted before the message
    is sent. -/
theorem budgetKept_fails_on_discord :
    ¬ ∀ env actions, Machine.Everywhere (step env) BudgetKept (start env) actions := by
  intro hall
  have hend : ((Machine.exec (step (sampleEnv .discord)) (start (sampleEnv .discord))
        sampleActions).map fun s => s.requests.map fun r => (r.executedBefore, r.budget, r.executed)) =
      some [(0, 1, false), (0, 1, false)] := by
    decide
  obtain ⟨s, hexec, hrequests⟩ := Option.map_eq_some_iff.mp hend
  have hkept := (hall _ _).at_end hexec
  have hmem : (0, 1, false) ∈ s.requests.map fun r => (r.executedBefore, r.budget, r.executed) := by
    rw [hrequests]
    exact List.mem_cons_self
  obtain ⟨r, hr, heq⟩ := List.mem_map.mp hmem
  have hiff := (hkept.requests r hr).1
  obtain ⟨hbefore, hrest⟩ := Prod.mk.inj heq
  obtain ⟨hbudget, hexecuted⟩ := Prod.mk.inj hrest
  rw [hbefore, hbudget, hexecuted] at hiff
  exact absurd (hiff.mpr one_pos) (by decide)

end BudgetWorld

end BotHive.Workers
