import BotHive.Library.Numeric

/-!
# Health score

The outcomes of connects, reconnects and actions are kept for a window of time. The score is the
percentage of successes among them, the failure rate what is missing to all of them. Outcomes that
are too old are dropped when the tracker is used.
-/

namespace BotHive.Resilience

structure HealthOutcome where
  success : Bool
  «at» : ℤ
  deriving DecidableEq

structure HealthScoreTracker where
  outcomes : List HealthOutcome := []
  windowMs : ℤ := 3600000

namespace HealthScoreTracker

def prune (t : HealthScoreTracker) (now : ℤ) : HealthScoreTracker :=
  { t with outcomes := t.outcomes.dropWhile fun outcome => outcome.at ≤ now - t.windowMs }

def record (t : HealthScoreTracker) (success : Bool) (now : ℤ) : HealthScoreTracker :=
  prune { t with outcomes := t.outcomes ++ [⟨success, now⟩] } now

def recordSuccess (t : HealthScoreTracker) (now : ℤ) : HealthScoreTracker :=
  t.record true now

def recordFailure (t : HealthScoreTracker) (now : ℤ) : HealthScoreTracker :=
  t.record false now

/-- The score of the outcomes that are kept. -/
def score (outcomes : List HealthOutcome) : ℤ :=
  if outcomes = [] then 100
  else roundHalfUp (outcomes.countP (·.success) / outcomes.length * 100)

def getScore (t : HealthScoreTracker) (now : ℤ) : ℤ × HealthScoreTracker :=
  (score (t.prune now).outcomes, t.prune now)

def getFailureRate (t : HealthScoreTracker) (now : ℤ) : ℚ × HealthScoreTracker :=
  (1 - (t.getScore now).1 / 100, t.prune now)

def reset (t : HealthScoreTracker) : HealthScoreTracker :=
  { t with outcomes := [] }

theorem score_bounds (outcomes : List HealthOutcome) : 0 ≤ score outcomes ∧ score outcomes ≤ 100 := by
  rw [score]
  split_ifs with hnil
  · exact ⟨by decide, le_rfl⟩
  · have hpos : (0 : ℚ) < outcomes.length := by
      exact_mod_cast List.length_pos_iff.mpr hnil
    have hle : (outcomes.countP (·.success) : ℚ) ≤ outcomes.length := by
      exact_mod_cast List.countP_le_length
    have hratio : (outcomes.countP (·.success) : ℚ) / outcomes.length ≤ 1 :=
      (div_le_one hpos).mpr hle
    have hratio0 : (0 : ℚ) ≤ (outcomes.countP (·.success) : ℚ) / outcomes.length := by positivity
    refine ⟨Int.floor_nonneg.mpr (by linarith), ?_⟩
    rw [roundHalfUp_le_iff]
    push_cast
    linarith

theorem getFailureRate_bounds (t : HealthScoreTracker) (now : ℤ) :
    0 ≤ (t.getFailureRate now).1 ∧ (t.getFailureRate now).1 ≤ 1 := by
  obtain ⟨h0, h1⟩ := score_bounds (t.prune now).outcomes
  have h0' : (0 : ℚ) ≤ score (t.prune now).outcomes := by exact_mod_cast h0
  have h1' : (score (t.prune now).outcomes : ℚ) ≤ 100 := by exact_mod_cast h1
  rw [getFailureRate, getScore]
  constructor <;> linarith

end HealthScoreTracker

end BotHive.Resilience
