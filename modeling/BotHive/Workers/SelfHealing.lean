import BotHive.Library.Numeric
import Mathlib.Data.String.Basic

/-!
# Self-healing and account warming

The heuristics that flag a bot as throttled or shadow-banned, the rotation that a flag
leads to, and the limits of an account that is warming up. All of them are functions of
counters and of the clock, in milliseconds since the epoch.

## Main definitions

- `detectAnomaly`, `planRotation`: what the counters of a bot lead to
- `warmingLimits`: what a warming account may do today
-/

namespace BotHive.Workers

structure HealthSnapshot where
  attempted : ℕ
  succeeded : ℕ
  rateLimited : ℕ
  silentDrops : ℕ
  /-- Time of the last successful action. -/
  lastSuccessAt : ℕ

inductive Recommendation where
  | «continue»
  | throttle
  | pause
  | rotate
  deriving DecidableEq

/-- What a flag rests on, with the numbers that its text shows. -/
inductive DetectionReason where
  | insufficientData
  | successRate (rate : ℚ) (attempts : ℕ)
  | rateLimited (rate : ℚ) (attempts : ℕ)
  | silence (minutes : ℤ) (attempts : ℕ)
  | silentDrops (rate : ℚ)
  | normalBehavior

structure DetectionResult where
  flagged : Bool
  reason : DetectionReason
  confidence : ℚ
  recommendation : Recommendation

def detectAnomaly (snapshot : HealthSnapshot) (now : ℕ) : DetectionResult :=
  let attempted := snapshot.attempted
  let successRate : ℚ := snapshot.succeeded / attempted
  let rateLimitRate : ℚ := snapshot.rateLimited / attempted
  let silentDropRate : ℚ := snapshot.silentDrops / attempted
  let minutesSinceLastSuccess : ℚ := ((now : ℚ) - snapshot.lastSuccessAt) / 60000
  if attempted < 5 then ⟨false, .insufficientData, 0, .continue⟩
  else if successRate < 1 / 10 ∧ 20 ≤ attempted then
    ⟨true, .successRate successRate attempted, 9 / 10, .pause⟩
  else if 1 / 2 < rateLimitRate then
    ⟨true, .rateLimited rateLimitRate attempted, 85 / 100, .throttle⟩
  else if 30 < minutesSinceLastSuccess ∧ 10 ≤ attempted then
    ⟨true, .silence (roundHalfUp minutesSinceLastSuccess) attempted, 75 / 100, .rotate⟩
  else if 8 / 10 < silentDropRate ∧ 10 ≤ attempted then
    ⟨true, .silentDrops silentDropRate, 7 / 10, .pause⟩
  else ⟨false, .normalBehavior, 0, .continue⟩

inductive RotationAction where
  | pause (durationMs : ℕ) (reason : DetectionReason)
  | changeProxy
  | alert (reason : DetectionReason)
  | coolDown (durationMs : ℕ) (reason : DetectionReason)

def planRotation (detection : DetectionResult) : List RotationAction :=
  match detection.recommendation with
  | .pause =>
    [.pause (30 * 60000) detection.reason, .changeProxy, .alert detection.reason]
  | .throttle => [.coolDown (10 * 60000) detection.reason, .changeProxy]
  | .rotate => [.changeProxy, .alert detection.reason]
  | .continue => []

/-- The UTC day of a time, the first ten characters of its ISO text. -/
def isoDay (now : ℕ) : ℕ :=
  now / 86400000

structure WarmingConfig where
  durationDays : ℕ
  maxDailyActions : ℕ
  maxDailyPosts : ℕ
  /-- Day, counted from one, on which the first post is allowed. -/
  firstPostDay : ℕ

structure WarmingState where
  startedAt : ℕ
  todayActions : ℕ
  todayPosts : ℕ
  lastActionDate : ℕ

structure WarmingLimits where
  canAct : Bool
  canPost : Bool
  reason : String
  daysRemaining : ℤ

/-- The day of the warming period, counted from one. -/
def dayNumber (startedAt now : ℕ) : ℤ :=
  ((now : ℤ) - startedAt) / 86400000 + 1

def warmingLimits (state : WarmingState) (config : WarmingConfig) (now : ℕ) : WarmingLimits :=
  let day := dayNumber state.startedAt now
  if config.durationDays < day then ⟨true, true, "Warming complete", 0⟩
  else
    let todayActionsRemaining := config.maxDailyActions - state.todayActions
    let todayPostsRemaining := config.maxDailyPosts - state.todayPosts
    let canPost := decide (config.firstPostDay ≤ day ∧ 0 < todayPostsRemaining)
    { canAct := 0 < todayActionsRemaining
      canPost := canPost
      reason :=
        if canPost then s!"Warming day {day}/{config.durationDays}"
        else s!"Warming day {day}/{config.durationDays} — posting not yet allowed"
      daysRemaining := max 0 (config.durationDays - day) }

end BotHive.Workers
