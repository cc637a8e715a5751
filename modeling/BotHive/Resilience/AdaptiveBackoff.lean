import BotHive.Library.JsNumber

/-!
# Adaptive reconnect backoff

The delay before a retry is exponential in the attempts, scaled by the recent failure rate, with a
random jitter on top, and capped. The powers of two leave the range of numbers in the end: the delay
is the cap then, unless the jitter is a product of an infinity and zero.

## Main definitions

- `calculateBackoff`
- `BackoffOptions.Overflows`: the base delay of an attempt is out of range

## Main results

- `calculateBackoff_cases`: the delay in closed form
- `le_calculateBackoff_attempt_iff`, `le_calculateBackoff_rate_iff`: when the delay grows with the
  attempts and with the failure rate
-/

namespace BotHive.Resilience

open JsNumber (finite posInfinity overflow ofRat twoPow)

/-- 5 minutes -/
def DEFAULT_BACKOFF_MAX_MS : ℚ := 300000

theorem default_lt_overflow : DEFAULT_BACKOFF_MAX_MS < overflow :=
  JsNumber.lt_overflow (by norm_num [DEFAULT_BACKOFF_MAX_MS])

structure BackoffOptions where
  baseDelayMs : JsNumber := finite 1000
  jitterRatio : JsNumber := finite (1 / 10)
  maxDelayMs : JsNumber := finite DEFAULT_BACKOFF_MAX_MS
  /-- A finite number is in range. -/
  inRange : ∀ q, maxDelayMs = finite q → q < overflow

/-- The options of a call without options. -/
def BackoffOptions.default : BackoffOptions where
  inRange := by
    rintro q ⟨⟩
    exact default_lt_overflow

section Definitions

def attemptsOf : JsNumber → ℕ
  | .finite attempt => ⌊attempt⌋₊
  | _ => 0

def rateOf : JsNumber → ℚ
  | .finite failureRate => max 0 (min 1 failureRate)
  | _ => 0

namespace BackoffOptions

def base (options : BackoffOptions) : ℚ :=
  match options.baseDelayMs with
  | .finite baseDelayMs => if 0 < baseDelayMs then baseDelayMs else 1000
  | _ => 1000

def jitterRatioClamped (options : BackoffOptions) : ℚ :=
  match options.jitterRatio with
  | .finite jitterRatio => max 0 (min 1 jitterRatio)
  | _ => 1 / 10

def cap (options : BackoffOptions) : ℚ :=
  match options.maxDelayMs with
  | .finite maxDelayMs => if 0 < maxDelayMs then maxDelayMs else DEFAULT_BACKOFF_MAX_MS
  | _ => DEFAULT_BACKOFF_MAX_MS

end BackoffOptions

def calculateBackoff (attempt failureRate : JsNumber) (options : BackoffOptions) (random : Draw) :
    JsNumber :=
  let attempts := attemptsOf attempt
  let rate := rateOf failureRate
  let baseDelay := (finite options.base).mul (twoPow attempts)
  let jitter := ((finite random.1).mul baseDelay).mul (finite options.jitterRatioClamped)
  ((baseDelay.mul ((finite 1).add (finite rate))).add jitter).min (finite options.cap)

/-- The base delay of an attempt is out of range. -/
def BackoffOptions.Overflows (options : BackoffOptions) (attempts : ℕ) : Prop :=
  overflow ≤ 2 ^ attempts ∨ overflow ≤ options.base * 2 ^ attempts

/-- The jitter is a product with zero. -/
def BackoffOptions.NoJitter (options : BackoffOptions) (random : Draw) : Prop :=
  random.1 = 0 ∨ options.jitterRatioClamped = 0

/-- The delay in exact arithmetic, before it is capped. -/
def BackoffOptions.uncapped (options : BackoffOptions) (attempts : ℕ) (rate : ℚ) (random : Draw) : ℚ :=
  options.base * 2 ^ attempts * (1 + rate) +
    random.1 * (options.base * 2 ^ attempts) * options.jitterRatioClamped

end Definitions

variable {options : BackoffOptions} {attempts m n : ℕ} {rate : ℚ} {random : Draw}
  {attempt failureRate : JsNumber}

section Ranges

theorem rateOf_bounds (failureRate : JsNumber) : 0 ≤ rateOf failureRate ∧ rateOf failureRate ≤ 1 := by
  cases failureRate with
  | finite q => exact ⟨le_max_left _ _, max_le zero_le_one (min_le_left _ _)⟩
  | nan | negInfinity | posInfinity => exact ⟨le_rfl, zero_le_one⟩

namespace BackoffOptions

theorem base_pos (options : BackoffOptions) : 0 < options.base := by
  rw [base]
  split
  · split_ifs with hpos
    · exact hpos
    · norm_num
  · norm_num

theorem jitterRatioClamped_bounds (options : BackoffOptions) :
    0 ≤ options.jitterRatioClamped ∧ options.jitterRatioClamped ≤ 1 := by
  rw [jitterRatioClamped]
  split
  · exact ⟨le_max_left _ _, max_le zero_le_one (min_le_left _ _)⟩
  · norm_num

theorem cap_lt_overflow (options : BackoffOptions) : options.cap < overflow := by
  rw [cap]
  split
  next maxDelayMs heq =>
    split_ifs
    · exact options.inRange _ heq
    · exact default_lt_overflow
  next => exact default_lt_overflow

theorem Overflows.mono (h : options.Overflows m) (hmn : m ≤ n) : options.Overflows n := by
  have hpow : (2 : ℚ) ^ m ≤ 2 ^ n := pow_le_pow_right₀ one_le_two hmn
  exact h.imp (fun h => h.trans hpow)
    fun h => h.trans (mul_le_mul_of_nonneg_left hpow options.base_pos.le)

end BackoffOptions

end Ranges

section ClosedForm

theorem baseDelay_of_overflows (h : options.Overflows attempts) :
    (finite options.base).mul (twoPow attempts) = posInfinity := by
  rw [twoPow]
  by_cases hpow : overflow ≤ 2 ^ attempts
  · rw [JsNumber.ofRat_of_le hpow]
    exact if_pos options.base_pos
  · rw [JsNumber.ofRat_of_lt (by positivity) (not_le.mp hpow)]
    exact JsNumber.ofRat_of_le (h.resolve_left hpow)

theorem baseDelay_of_not_overflows (h : ¬options.Overflows attempts) :
    (finite options.base).mul (twoPow attempts) = finite (options.base * 2 ^ attempts) := by
  obtain ⟨hpow, hbase⟩ := not_or.mp h
  have hpos := options.base_pos
  rw [twoPow, JsNumber.ofRat_of_lt (by positivity) (not_le.mp hpow)]
  exact JsNumber.ofRat_of_lt (by positivity) (not_le.mp hbase)

theorem finite_add_one_rate (failureRate : JsNumber) :
    (finite 1).add (finite (rateOf failureRate)) = finite (1 + rateOf failureRate) := by
  obtain ⟨h0, h1⟩ := rateOf_bounds failureRate
  exact JsNumber.ofRat_of_lt (by linarith) (JsNumber.lt_overflow (by linarith))

/-- A sum of exact results that is capped below the range. -/
theorem add_ofRat_min {a b c : ℚ} (ha : 0 ≤ a) (hb : 0 ≤ b) (hc : c < overflow) :
    ((ofRat a).add (finite b)).min (finite c) = finite (min (a + b) c) := by
  by_cases hover : overflow ≤ a
  · rw [JsNumber.ofRat_of_le hover, min_eq_right (by linarith)]
    rfl
  · rw [JsNumber.ofRat_of_lt ha (not_le.mp hover)]
    by_cases hsum : overflow ≤ a + b
    · rw [JsNumber.add, JsNumber.ofRat_of_le hsum, min_eq_right (by linarith)]
      rfl
    · rw [JsNumber.add, JsNumber.ofRat_of_lt (by linarith) (not_le.mp hsum), JsNumber.min_finite]

/-- In range the delay is the one of exact arithmetic. -/
theorem calculateBackoff_eq_of_not_overflows (h : ¬options.Overflows (attemptsOf attempt)) :
    calculateBackoff attempt failureRate options random =
      finite (min (options.uncapped (attemptsOf attempt) (rateOf failureRate) random)
        options.cap) := by
  have hbase := options.base_pos
  obtain ⟨hrate0, hrate1⟩ := rateOf_bounds failureRate
  obtain ⟨hratio0, hratio1⟩ := options.jitterRatioClamped_bounds
  obtain ⟨hrandom0, hrandom1⟩ := random.2
  have hdelay : (0 : ℚ) < options.base * 2 ^ attemptsOf attempt := by positivity
  have hlt : options.base * 2 ^ attemptsOf attempt < overflow := not_le.mp (not_or.mp h).2
  have hdrawn : random.1 * (options.base * 2 ^ attemptsOf attempt) < overflow :=
    (mul_le_of_le_one_left hdelay.le hrandom1.le).trans_lt hlt
  have hjitter : random.1 * (options.base * 2 ^ attemptsOf attempt) * options.jitterRatioClamped <
      overflow := (mul_le_of_le_one_right (by positivity) hratio1).trans_lt hdrawn
  simp only [calculateBackoff, baseDelay_of_not_overflows h, finite_add_one_rate]
  rw [JsNumber.mul, JsNumber.mul, JsNumber.ofRat_of_lt (by positivity) hdrawn, JsNumber.mul,
    JsNumber.ofRat_of_lt (by positivity) hjitter]
  exact add_ofRat_min (by positivity) (by positivity) options.cap_lt_overflow

/-- Out of range the delay is not a number if the jitter is a product with zero. -/
theorem calculateBackoff_eq_nan (hover : options.Overflows (attemptsOf attempt))
    (hzero : options.NoJitter random) :
    calculateBackoff attempt failureRate options random = .nan := by
  simp only [calculateBackoff, baseDelay_of_overflows hover, finite_add_one_rate]
  have hjitter : ((finite random.1).mul posInfinity).mul (finite options.jitterRatioClamped) =
      .nan := by
    by_cases hrandom : random.1 = 0
    · rw [hrandom]
      rfl
    · have hdrawn : (finite random.1).mul posInfinity = posInfinity :=
        if_pos (lt_of_le_of_ne random.2.1 (Ne.symm hrandom))
      rw [hdrawn, hzero.resolve_left hrandom]
      rfl
  have hscaled (n : JsNumber) : n.add .nan = .nan := by cases n <;> rfl
  rw [hjitter, hscaled]
  rfl

/-- Out of range the delay is the cap otherwise. -/
theorem calculateBackoff_eq_cap (hover : options.Overflows (attemptsOf attempt))
    (hjitter : ¬options.NoJitter random) :
    calculateBackoff attempt failureRate options random = finite options.cap := by
  obtain ⟨hrandom, hratio⟩ := not_or.mp hjitter
  have hrate : 0 < 1 + rateOf failureRate := by
    have h0 := (rateOf_bounds failureRate).1
    linarith
  have hscaled : posInfinity.mul (finite (1 + rateOf failureRate)) = posInfinity := if_pos hrate
  have hdrawn : (finite random.1).mul posInfinity = posInfinity :=
    if_pos (lt_of_le_of_ne random.2.1 (Ne.symm hrandom))
  have hscaled' : posInfinity.mul (finite options.jitterRatioClamped) = posInfinity :=
    if_pos (lt_of_le_of_ne options.jitterRatioClamped_bounds.1 (Ne.symm hratio))
  simp only [calculateBackoff, baseDelay_of_overflows hover, finite_add_one_rate, hscaled, hdrawn,
    hscaled']
  rfl

theorem uncapped_mono_attempts (hmn : m ≤ n) (hrate : 0 ≤ rate) :
    options.uncapped m rate random ≤ options.uncapped n rate random := by
  have hpow : (2 : ℚ) ^ m ≤ 2 ^ n := pow_le_pow_right₀ one_le_two hmn
  have hbase := options.base_pos
  have hratio := options.jitterRatioClamped_bounds.1
  have hrandom := random.2.1
  rw [BackoffOptions.uncapped, BackoffOptions.uncapped]
  gcongr

theorem uncapped_mono_rate {rate' : ℚ} (h : rate ≤ rate') :
    options.uncapped attempts rate random ≤ options.uncapped attempts rate' random := by
  have hbase := options.base_pos
  rw [BackoffOptions.uncapped, BackoffOptions.uncapped]
  gcongr

end ClosedForm

section Monotone

/-- The delay is not a number exactly if it is out of range and without jitter. -/
theorem calculateBackoff_cases (attempt failureRate : JsNumber) (options : BackoffOptions)
    (random : Draw) :
    (options.Overflows (attemptsOf attempt) ∧ options.NoJitter random ∧
        calculateBackoff attempt failureRate options random = .nan) ∨
      (options.Overflows (attemptsOf attempt) ∧ ¬options.NoJitter random ∧
        calculateBackoff attempt failureRate options random = finite options.cap) ∨
      (¬options.Overflows (attemptsOf attempt) ∧
        calculateBackoff attempt failureRate options random =
          finite (min (options.uncapped (attemptsOf attempt) (rateOf failureRate) random)
            options.cap)) := by
  by_cases hover : options.Overflows (attemptsOf attempt)
  · by_cases hzero : options.NoJitter random
    · exact .inl ⟨hover, hzero, calculateBackoff_eq_nan hover hzero⟩
    · exact .inr (.inl ⟨hover, hzero, calculateBackoff_eq_cap hover hzero⟩)
  · exact .inr (.inr ⟨hover, calculateBackoff_eq_of_not_overflows hover⟩)

/-- The delay of an attempt is at most that of a later one, unless the latter is not a number. -/
theorem le_calculateBackoff_attempt_iff {a b : ℚ} (hab : a ≤ b) (failureRate : JsNumber)
    (options : BackoffOptions) (random : Draw) :
    (calculateBackoff (finite a) failureRate options random).le
        (calculateBackoff (finite b) failureRate options random) = true ↔
      ¬(options.Overflows ⌊b⌋₊ ∧ options.NoJitter random) := by
  have hfloor : ⌊a⌋₊ ≤ ⌊b⌋₊ := Nat.floor_mono hab
  obtain ⟨hover, hzero, heq⟩ | ⟨hover, hjitter, heq⟩ | ⟨hin, heq⟩ :=
    calculateBackoff_cases (finite b) failureRate options random
  · rw [heq, JsNumber.le_nan]
    exact iff_of_false Bool.false_ne_true fun h => h ⟨hover, hzero⟩
  · rw [heq]
    refine iff_of_true ?_ fun h => hjitter h.2
    obtain ⟨-, hzero, -⟩ | ⟨-, -, heq'⟩ | ⟨-, heq'⟩ :=
      calculateBackoff_cases (finite a) failureRate options random
    · exact absurd hzero hjitter
    · rw [heq', JsNumber.finite_le]
    · rw [heq', JsNumber.finite_le]
      exact min_le_right _ _
  · have hin' : ¬options.Overflows (attemptsOf (finite a)) := fun h => hin (h.mono hfloor)
    rw [heq, calculateBackoff_eq_of_not_overflows hin', JsNumber.finite_le]
    refine iff_of_true (min_le_min_right _ ?_) fun h => hin h.1
    exact uncapped_mono_attempts hfloor (rateOf_bounds failureRate).1

/-- The delay grows with the failure rate, unless it is not a number. -/
theorem le_calculateBackoff_rate_iff {a b : ℚ} (hab : a ≤ b) (attempt : JsNumber)
    (options : BackoffOptions) (random : Draw) :
    (calculateBackoff attempt (finite a) options random).le
        (calculateBackoff attempt (finite b) options random) = true ↔
      ¬(options.Overflows (attemptsOf attempt) ∧ options.NoJitter random) := by
  have hrate : rateOf (finite a) ≤ rateOf (finite b) :=
    max_le_max_left 0 (min_le_min_left 1 hab)
  obtain ⟨hover, hzero, heq⟩ | ⟨hover, hjitter, heq⟩ | ⟨hin, heq⟩ :=
    calculateBackoff_cases attempt (finite b) options random
  · rw [heq, JsNumber.le_nan]
    exact iff_of_false Bool.false_ne_true fun h => h ⟨hover, hzero⟩
  · rw [heq, calculateBackoff_eq_cap hover hjitter, JsNumber.finite_le]
    exact iff_of_true le_rfl fun h => hjitter h.2
  · rw [heq, calculateBackoff_eq_of_not_overflows hin, JsNumber.finite_le]
    exact iff_of_true (min_le_min_right _ (uncapped_mono_rate hrate)) fun h => hin h.1

end Monotone

end BotHive.Resilience
