import Mathlib.Tactic.Common
import Mathlib.Algebra.Order.Group.Int

/-!
# Circuit breaker

After `failureThreshold` failures in a row the breaker opens and rejects attempts for
`resetTimeoutMs`; then it lets `successThreshold` probes through, which close it or
open it again. There is no timer: the cooldown is looked at when the breaker is asked.
-/

namespace BotHive.Resilience

inductive CircuitState where
  | closed
  | «open»
  | halfOpen
  deriving DecidableEq

structure CircuitBreakerOptions where
  /-- Consecutive failures that trip the breaker. -/
  failureThreshold : ℕ := 5
  /-- Consecutive half-open successes that close the breaker. -/
  successThreshold : ℕ := 2
  /-- Cooldown before a probe is allowed, in milliseconds. -/
  resetTimeoutMs : ℤ := 60000

structure CircuitBreaker where
  options : CircuitBreakerOptions
  state : CircuitState := .closed
  failures : ℕ := 0
  openedAt : ℤ := 0
  halfOpenSuccesses : ℕ := 0
  probesRemaining : ℕ := 0

namespace CircuitBreaker

def tryHalfOpen (b : CircuitBreaker) (now : ℤ) : CircuitBreaker :=
  if b.state ≠ .open then b
  else if now - b.openedAt < b.options.resetTimeoutMs then b
  else
    { b with
      state := .halfOpen
      halfOpenSuccesses := 0
      probesRemaining := b.options.successThreshold }

def «open» (b : CircuitBreaker) (now : ℤ) : CircuitBreaker :=
  { b with state := .open, openedAt := now, halfOpenSuccesses := 0, probesRemaining := 0 }

def close (b : CircuitBreaker) : CircuitBreaker :=
  { b with state := .closed, failures := 0, halfOpenSuccesses := 0, probesRemaining := 0 }

def reset (b : CircuitBreaker) : CircuitBreaker :=
  { b with state := .closed, failures := 0, halfOpenSuccesses := 0, probesRemaining := 0 }

def getState (b : CircuitBreaker) (now : ℤ) : CircuitState × CircuitBreaker :=
  ((b.tryHalfOpen now).state, b.tryHalfOpen now)

/-- Whether an attempt may be made; in half-open state it takes one probe. -/
def canAttempt (b : CircuitBreaker) (now : ℤ) : Bool × CircuitBreaker :=
  let b := b.tryHalfOpen now
  match b.state with
  | .open => (false, b)
  | .halfOpen =>
    -- probes that were abandoned must not wedge the breaker: open it again
    if b.probesRemaining = 0 then (false, b.open now)
    else (true, { b with probesRemaining := b.probesRemaining - 1 })
  | .closed => (true, b)

def recordSuccess (b : CircuitBreaker) : CircuitBreaker :=
  match b.state with
  | .open => b
  | .halfOpen =>
    let b := { b with halfOpenSuccesses := b.halfOpenSuccesses + 1 }
    if b.options.successThreshold ≤ b.halfOpenSuccesses then b.close else b
  | .closed => { b with failures := 0 }

def recordFailure (b : CircuitBreaker) (now : ℤ) : CircuitBreaker :=
  match b.state with
  | .halfOpen => b.open now
  | .open => b
  | .closed =>
    let b := { b with failures := b.failures + 1 }
    if b.options.failureThreshold ≤ b.failures then b.open now else b

/-- Milliseconds until the next probe is allowed, 0 when the breaker is not open. -/
def remainingCooldownMs (b : CircuitBreaker) (now : ℤ) : ℤ × CircuitBreaker :=
  let b := b.tryHalfOpen now
  (if b.state = .open then max 0 (b.options.resetTimeoutMs - (now - b.openedAt)) else 0, b)

end CircuitBreaker

end BotHive.Resilience
