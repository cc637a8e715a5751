import BotHive.Behavior.WakeUp
import BotHive.Proxy.Pool
import BotHive.Resilience.AdaptiveBackoff
import BotHive.Resilience.HealthScore
import BotHive.Workers.Connect

/-!
# The delay of a reconnect

`scheduleReconnect` gives up after `maxReconnectAttempts`, waits out an open circuit and a sleep
window, and otherwise arms a timer with the backoff of the attempt. The backoff is capped before it
is spread by a quarter to both sides.

## Main definitions

- `ReconnectState.scheduleReconnect`: the timer that is armed, if any
- `Capped`: the delay is positive and within the cap
- `StaysBelow`: the condition on the attempt, the failure rate and the draws for it

## Main results

- `reconnectDelay_iff`: when delays are capped, and when the backoff is monotone
-/

namespace BotHive.Workers

open Behavior Proxy Resilience
open JsNumber (finite)

section Definitions

/-- What `scheduleReconnect` reads of a bot. -/
structure ReconnectState where
  reconnectAttempts : ℕ
  breaker : CircuitBreaker
  health : HealthScoreTracker
  /-- The proxy that the bot was using. -/
  proxyId : Option String
  proxies : ProxyPool

/-- The clock and the random source during a call, in the order in which they are read. -/
structure ReconnectReadings where
  clock : LocalClock
  breakerAt : ℤ
  healthAt : ℤ
  proxyAt : ℤ
  stateAt : ℤ
  cooldownAt : ℤ
  rateAt : ℤ
  askedAt : ℤ
  transitionAt : ℤ
  transition : Draw
  backoff : Draw
  spread : Draw

/-- The timer of a bot after the call. -/
inductive ReconnectTimer
  | gaveUp (attempts : ℕ)
  | circuitOpen (delay : ℤ)
  | asleep (delay : ℤ)
  | reconnecting (delay : JsNumber)
  deriving DecidableEq

namespace ReconnectState

/-- The failure is reported to the breaker, to the health tracker and to the pool. -/
def recordFailure (s : ReconnectState) (r : ReconnectReadings) : ReconnectState :=
  { s with
    breaker := s.breaker.recordFailure r.breakerAt
    health := s.health.recordFailure r.healthAt
    proxies := match s.proxyId with
      | some proxyId => if proxyId = "" then s.proxies else s.proxies.reportFailure proxyId r.proxyAt
      | none => s.proxies
    proxyId := s.proxyId.filter (· = "") }

/-- The delay of an attempt with a failure rate. -/
def backoffDelay (attempt : ℕ) (failureRate : ℚ) (backoff spread : Draw) : JsNumber :=
  ((calculateBackoff (finite attempt) (finite failureRate) .default backoff).mul
    ((finite (3 / 4)).add ((finite spread.1).mul (finite (1 / 2))))).round

def sleepDelay (behavior : Option HumanBehaviorConfig) (r : ReconnectReadings) : ℤ :=
  match behavior with
  | some behavior =>
    if behavior.enabled then
      sleepWindowReconnectDelay r.clock r.askedAt r.transitionAt r.transition behavior
    else 0
  | none => 0

def scheduleReconnect (s : ReconnectState) (behavior : Option HumanBehaviorConfig)
    (r : ReconnectReadings) : ReconnectState × ReconnectTimer :=
  let s := s.recordFailure r
  let attempt := s.reconnectAttempts
  if attempt ≥ maxReconnectAttempts then
    ({ s with reconnectAttempts := 0, breaker := s.breaker.reset, health := s.health.reset },
      .gaveUp attempt)
  else
    let (state, breaker) := s.breaker.getState r.stateAt
    let s := { s with reconnectAttempts := attempt + 1, breaker }
    if state = .open then
      let (delay, breaker) := s.breaker.remainingCooldownMs r.cooldownAt
      ({ s with breaker }, .circuitOpen delay)
    else
      let (failureRate, health) := s.health.getFailureRate r.rateAt
      let s := { s with health }
      if sleepDelay behavior r > 0 then (s, .asleep (sleepDelay behavior r))
      else (s, .reconnecting (backoffDelay attempt failureRate r.backoff r.spread))

/-- The failure rate that a call finds. -/
def failureRate (s : ReconnectState) (r : ReconnectReadings) : ℚ :=
  ((s.recordFailure r).health.getFailureRate r.rateAt).1

end ReconnectState

/-- A delay is positive and at most the cap. -/
def Capped (delay : JsNumber) : Prop :=
  (finite 0).lt delay = true ∧ delay.le (finite DEFAULT_BACKOFF_MAX_MS) = true

instance (delay : JsNumber) : Decidable (Capped delay) :=
  inferInstanceAs (Decidable (_ ∧ _))

/-- The second draw does not spread the cap above itself, or the delay that is neither capped nor
    rounded is below the cap anyway. -/
def StaysBelow (attempt : ℕ) (failureRate : ℚ) (backoff spread : Draw) : Prop :=
  spread.1 < 1 / 2 + 1 / 300000 ∨
    1000 * 2 ^ attempt * (1 + failureRate + backoff.1 / 10) * (3 / 4 + spread.1 / 2) <
      300000 + 1 / 2

end Definitions

variable {attempt : ℕ} {failureRate : ℚ} {backoff spread : Draw}

theorem not_overflows_default (h : attempt < maxReconnectAttempts) :
    ¬BackoffOptions.default.Overflows attempt := by
  have hbase : BackoffOptions.default.base = 1000 := by
    norm_num [BackoffOptions.base, BackoffOptions.default]
  have hpow : (2 : ℚ) ^ attempt ≤ 2 ^ 9 :=
    pow_le_pow_right₀ one_le_two (Nat.le_of_lt_succ h)
  rw [BackoffOptions.Overflows, hbase, not_or, not_le, not_le]
  constructor <;> exact JsNumber.lt_overflow (by linarith)

theorem uncapped_default (attempt : ℕ) (failureRate : ℚ) (backoff : Draw) :
    BackoffOptions.default.uncapped attempt failureRate backoff =
      1000 * 2 ^ attempt * (1 + failureRate + backoff.1 / 10) := by
  have hbase : BackoffOptions.default.base = 1000 := by
    norm_num [BackoffOptions.base, BackoffOptions.default]
  have hratio : BackoffOptions.default.jitterRatioClamped = 1 / 10 := by
    norm_num [BackoffOptions.jitterRatioClamped, BackoffOptions.default]
  rw [BackoffOptions.uncapped, hbase, hratio]
  ring

theorem cap_default : BackoffOptions.default.cap = DEFAULT_BACKOFF_MAX_MS := by
  norm_num [BackoffOptions.cap, BackoffOptions.default, DEFAULT_BACKOFF_MAX_MS]

theorem rateOf_finite (h0 : 0 ≤ failureRate) (h1 : failureRate ≤ 1) :
    rateOf (finite failureRate) = failureRate := by
  rw [rateOf, min_eq_right h1, max_eq_right h0]

/-- The delay of an attempt in closed form. -/
theorem backoffDelay_eq (hattempt : attempt < maxReconnectAttempts) (h0 : 0 ≤ failureRate)
    (h1 : failureRate ≤ 1) :
    ReconnectState.backoffDelay attempt failureRate backoff spread =
      finite (roundHalfUp (min (1000 * 2 ^ attempt * (1 + failureRate + backoff.1 / 10))
        DEFAULT_BACKOFF_MAX_MS * (3 / 4 + spread.1 / 2))) := by
  obtain ⟨hspread0, hspread1⟩ := spread.2
  obtain ⟨hbackoff0, hbackoff1⟩ := backoff.2
  have hattempts : attemptsOf (finite attempt) = attempt := Nat.floor_natCast attempt
  have hin : ¬BackoffOptions.default.Overflows (attemptsOf (finite attempt)) := by
    rw [hattempts]
    exact not_overflows_default hattempt
  have hhalf : (finite spread.1).mul (finite (1 / 2)) = finite (spread.1 / 2) := by
    rw [JsNumber.mul, JsNumber.ofRat_of_lt (by linarith) (JsNumber.lt_overflow (by linarith))]
    rw [mul_one_div]
  have hfactor : (finite (3 / 4)).add (finite (spread.1 / 2)) = finite (3 / 4 + spread.1 / 2) :=
    JsNumber.ofRat_of_lt (by linarith) (JsNumber.lt_overflow (by linarith))
  rw [ReconnectState.backoffDelay, calculateBackoff_eq_of_not_overflows hin, hattempts,
    rateOf_finite h0 h1, uncapped_default, cap_default, hhalf, hfactor, JsNumber.mul]
  set m := min (1000 * 2 ^ attempt * (1 + failureRate + backoff.1 / 10)) DEFAULT_BACKOFF_MAX_MS
  have hm0 : 0 ≤ m := le_min (by positivity) (by norm_num [DEFAULT_BACKOFF_MAX_MS])
  have hm1 : m ≤ 300000 := min_le_right _ _
  have hproduct : m * (3 / 4 + spread.1 / 2) ≤ 300000 * 2 :=
    mul_le_mul hm1 (by linarith) (by linarith) (by norm_num)
  rw [JsNumber.ofRat_of_lt (mul_nonneg hm0 (by linarith)) (JsNumber.lt_overflow (by linarith))]
  rfl

/-- The spread backoff is capped exactly if the draws keep it below the cap. -/
theorem capped_backoffDelay_iff (hattempt : attempt < maxReconnectAttempts) (h0 : 0 ≤ failureRate)
    (h1 : failureRate ≤ 1) :
    Capped (ReconnectState.backoffDelay attempt failureRate backoff spread) ↔
      StaysBelow attempt failureRate backoff spread := by
  obtain ⟨hspread0, hspread1⟩ := spread.2
  obtain ⟨hbackoff0, hbackoff1⟩ := backoff.2
  rw [backoffDelay_eq hattempt h0 h1, Capped, JsNumber.finite_lt, JsNumber.finite_le]
  set b := 1000 * 2 ^ attempt * (1 + failureRate + backoff.1 / 10)
  have hb : 1000 ≤ b := by
    have hpow : (1 : ℚ) ≤ 2 ^ attempt := one_le_pow₀ one_le_two
    have hrate : 1 ≤ 1 + failureRate + backoff.1 / 10 := by linarith
    calc (1000 : ℚ) = 1000 * 1 * 1 := by norm_num
      _ ≤ b := by
        show (1000 : ℚ) * 1 * 1 ≤ 1000 * 2 ^ attempt * (1 + failureRate + backoff.1 / 10)
        gcongr
  have hm : 1000 ≤ min b DEFAULT_BACKOFF_MAX_MS :=
    le_min hb (by norm_num [DEFAULT_BACKOFF_MAX_MS])
  have hpos : 0 < roundHalfUp (min b DEFAULT_BACKOFF_MAX_MS * (3 / 4 + spread.1 / 2)) := by
    rw [roundHalfUp_pos_iff]
    nlinarith
  have hle : ((roundHalfUp (min b DEFAULT_BACKOFF_MAX_MS * (3 / 4 + spread.1 / 2)) : ℤ) : ℚ) ≤
        DEFAULT_BACKOFF_MAX_MS ↔
      min b DEFAULT_BACKOFF_MAX_MS * (3 / 4 + spread.1 / 2) < 300000 + 1 / 2 := by
    have hround := roundHalfUp_le_iff (min b DEFAULT_BACKOFF_MAX_MS * (3 / 4 + spread.1 / 2)) 300000
    rw [← Int.cast_le (R := ℚ)] at hround
    rwa [DEFAULT_BACKOFF_MAX_MS] at hround ⊢
  rw [and_iff_right (by exact_mod_cast hpos), hle, StaysBelow,
    min_mul_of_nonneg _ _ (by linarith), min_lt_iff, or_comm]
  refine or_congr_left ?_
  rw [DEFAULT_BACKOFF_MAX_MS]
  constructor <;> intro h <;> linarith

namespace ReconnectState

variable {s : ReconnectState} {behavior : Option HumanBehaviorConfig} {r : ReconnectReadings}
  {delay : JsNumber}

/-- A backoff timer is armed for an attempt that is not given up, with the delay of the attempt. -/
theorem reconnecting_of_scheduleReconnect
    (h : (s.scheduleReconnect behavior r).2 = .reconnecting delay) :
    s.reconnectAttempts < maxReconnectAttempts ∧
      delay = backoffDelay s.reconnectAttempts (s.failureRate r) r.backoff r.spread := by
  rw [scheduleReconnect] at h
  dsimp only at h
  split at h
  · cases h
  next hattempt =>
    split at h
    · cases h
    · split at h
      · cases h
      · injection h with h
        exact ⟨Nat.lt_of_not_le hattempt, h.symm⟩

section LastAttempt

/-- A bot that has failed nine times, with a circuit that is closed. -/
def lastAttempt : ReconnectState where
  reconnectAttempts := 9
  breaker := { options := { failureThreshold := 5, successThreshold := 1 } }
  health := {}
  proxyId := none
  proxies := ProxyPool.setProxies []

theorem draw_half : (0 : ℚ) ≤ 1 / 2 ∧ (1 / 2 : ℚ) < 1 := by norm_num

/-- Readings at one instant, with a draw of the spread. -/
def readings (spread : Draw) : ReconnectReadings where
  clock := utcClock
  breakerAt := 0
  healthAt := 0
  proxyAt := 0
  stateAt := 0
  cooldownAt := 0
  rateAt := 0
  askedAt := 0
  transitionAt := 0
  transition := ⟨1 / 2, draw_half⟩
  backoff := ⟨1 / 2, draw_half⟩
  spread := spread

end LastAttempt

end ReconnectState

end BotHive.Workers
