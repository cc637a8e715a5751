import BotHive.Behavior.Schedule

/-!
# Reconnects inside a sleep window

A bot that is asleep is reconnected when its schedule wakes it up. `nextTransition` walks
through the minutes of the next two days and moves the first transition by a random offset;
`sleepWindowReconnectDelay` waits as long as it says, and the attempt that follows asks no
more.

## Main definitions

- `nextTransition`, `HUMAN_DEFAULT_SCHEDULE`, `sleepWindowReconnectDelay`
- `FirstActive`: the first active minute after an instant
- `WakesAwake`: the delay ends at an active instant, and without jitter at the first one
- `HitsActive`: the condition on the schedule, the instant and the draw for it

## Main results

- `wakesAwake_iff_hitsActive`
-/

namespace BotHive.Behavior

inductive TransitionAction
  | wake
  | sleep
  deriving DecidableEq

structure Transition where
  untilMs : ℤ
  action : TransitionAction
  deriving DecidableEq

/-- The first of the next 48 hours' minutes whose activity is not that of now. -/
def firstTransition (clock : LocalClock) (now : ℤ) (s : LifecycleSchedule) : Option ℕ :=
  (List.range' 1 (48 * 60)).find? fun offset : ℕ =>
    shouldBeActive clock (now + offset * 60000) s != shouldBeActive clock now s

def nextTransition (clock : LocalClock) (now : ℤ) (s : LifecycleSchedule) (random : Draw) :
    Transition :=
  match firstTransition clock now s with
  | some offset =>
    let willBeActive := shouldBeActive clock (now + offset * 60000) s
    let jitterOffset := roundHalfUp ((random.1 - 1 / 2) * 2 * s.jitter / 60000)
    ⟨max 1 (offset + jitterOffset) * 60000, if willBeActive then .wake else .sleep⟩
  | none => ⟨30 * 60 * 1000, if shouldBeActive clock now s then .sleep else .wake⟩

def HUMAN_DEFAULT_SCHEDULE : LifecycleSchedule where
  activeWindows
    | 0 => [⟨10, 0, 1, 0, by decide, by decide⟩]
    | 6 => [⟨10, 0, 24, 0, by decide, by decide⟩]
    | _ => [⟨8, 0, 12, 0, by decide, by decide⟩, ⟨17, 0, 23, 0, by decide, by decide⟩]
  timezone := some "UTC"
  jitterMs := some ((15 * 60 * 1000 : ℕ) : ℚ≥0)

structure HumanBehaviorConfig where
  enabled : Bool
  schedule : Option LifecycleSchedule

def HumanBehaviorConfig.scheduleOrDefault (behavior : HumanBehaviorConfig) : LifecycleSchedule :=
  behavior.schedule.getD HUMAN_DEFAULT_SCHEDULE

/-- The clock is read twice: at `asked`, and at `now` for the transition. -/
def sleepWindowReconnectDelay (clock : LocalClock) (asked now : ℤ) (random : Draw)
    (behavior : HumanBehaviorConfig) : ℤ :=
  if !behavior.enabled then 0
  else if shouldBeActive clock asked behavior.scheduleOrDefault then 0
  else max 60000 (nextTransition clock now behavior.scheduleOrDefault random).untilMs

section WakingUp

variable (clock : LocalClock) (s : LifecycleSchedule) (now : ℤ)

/-- `k` minutes after an instant the schedule is active. -/
def ActiveAfter (k : ℤ) : Prop :=
  shouldBeActive clock (now + k * 60000) s = true

/-- The first active minute after an instant. -/
def FirstActive (k : ℕ) : Prop :=
  0 < k ∧ ActiveAfter clock s now k ∧ ∀ i : ℕ, 0 < i → i < k → ¬ActiveAfter clock s now i

/-- The delay ends at an active instant, without jitter at the first active minute. -/
def WakesAwake (delay : ℤ) : Prop :=
  shouldBeActive clock (now + delay) s = true ∧
    (s.jitter = 0 → ∃ k, FirstActive clock s now k ∧ delay = k * 60000)

/-- The minutes by which a draw moves a transition, before they are rounded. -/
def drawnMinutes (random : Draw) : ℚ :=
  (random.1 - 1 / 2) * 2 * s.jitter / 60000

/-- The first active minute is within two days; a draw of half a minute or more towards the past
    has no room before it, and one of as much towards the future ends in an active minute. -/
def HitsActive (random : Draw) : Prop :=
  ∃ k ≤ 48 * 60, FirstActive clock s now k ∧
    (drawnMinutes s random < -(1 / 2) → k = 1) ∧
    (1 / 2 ≤ drawnMinutes s random → ActiveAfter clock s now (k + roundHalfUp (drawnMinutes s random)))

end WakingUp

variable {clock : LocalClock} {s : LifecycleSchedule} {asked now : ℤ} {random : Draw} {k : ℕ}

/-- From an instant that is asleep the search finds the first active minute of two days. -/
theorem firstTransition_eq_some (hasleep : shouldBeActive clock now s = false) :
    firstTransition clock now s = some k ↔ k ≤ 48 * 60 ∧ FirstActive clock s now k := by
  rw [firstTransition, List.find?_range'_eq_some, hasleep, FirstActive]
  simp only [Bool.bne_false, List.mem_range'_1, ActiveAfter, Bool.not_eq_eq_eq_not, Bool.not_true,
    Bool.not_eq_true, Nat.lt_iff_add_one_le, zero_add]
  constructor
  · rintro ⟨hactive, ⟨hpos, hle⟩, hfirst⟩
    exact ⟨by omega, hpos, hactive, hfirst⟩
  · rintro ⟨hle, hpos, hactive, hfirst⟩
    exact ⟨hactive, ⟨hpos, by omega⟩, hfirst⟩

/-- Without a transition in two days, no minute of them is active. -/
theorem not_active_of_firstTransition_none (hasleep : shouldBeActive clock now s = false)
    (hnone : firstTransition clock now s = none) (hk : 0 < k) (hle : k ≤ 48 * 60) :
    ¬ActiveAfter clock s now k := by
  rw [firstTransition, List.find?_eq_none, hasleep] at hnone
  have hsame := hnone k (List.mem_range'_1.mpr ⟨hk, by omega⟩)
  rwa [Bool.bne_false] at hsame

theorem FirstActive.unique {l : ℕ} (hk : FirstActive clock s now k) (hl : FirstActive clock s now l) :
    k = l := by
  obtain hlt | heq | hgt := lt_trichotomy k l
  · exact absurd hk.2.1 (hl.2.2 k hk.1 hlt)
  · exact heq
  · exact absurd hl.2.1 (hk.2.2 l hl.1 hgt)

theorem nextTransition_of_some (hfirst : firstTransition clock now s = some k) :
    (nextTransition clock now s random).untilMs =
      max 1 (k + roundHalfUp (drawnMinutes s random)) * 60000 := by
  simp only [nextTransition, hfirst, drawnMinutes]

theorem nextTransition_of_none (hnone : firstTransition clock now s = none) :
    (nextTransition clock now s random).untilMs = 30 * 60000 := by
  simp only [nextTransition, hnone]
  rfl

/-- The delay to a transition ends in an active minute exactly if the draw hits one. -/
theorem activeAfter_drawn_iff (hfirst : FirstActive clock s now k) (random : Draw) :
    ActiveAfter clock s now (max 1 (k + roundHalfUp (drawnMinutes s random))) ↔
      (drawnMinutes s random < -(1 / 2) → k = 1) ∧
        (1 / 2 ≤ drawnMinutes s random →
          ActiveAfter clock s now (k + roundHalfUp (drawnMinutes s random))) := by
  obtain ⟨hpos, hactive, hbefore⟩ := hfirst
  have hback := roundHalfUp_le_iff (drawnMinutes s random) (-1)
  have hahead := roundHalfUp_pos_iff (drawnMinutes s random)
  rw [show ((-1 : ℤ) : ℚ) + 1 / 2 = -(1 / 2) by norm_num] at hback
  rw [← hback, ← hahead]
  obtain hneg | hzero | hgt := lt_trichotomy (roundHalfUp (drawnMinutes s random)) 0
  · -- moved towards the past: every minute before `k` is asleep
    have hno : ¬0 < roundHalfUp (drawnMinutes s random) := hneg.not_gt
    simp only [hno, false_imp_iff, and_true, Int.reduceNeg, true_imp_iff,
      show roundHalfUp (drawnMinutes s random) ≤ -1 by omega]
    constructor
    · intro hdrawn
      by_contra hk
      refine hbefore (max 1 (k + roundHalfUp (drawnMinutes s random))).toNat (by omega) (by omega) ?_
      rwa [Int.toNat_of_nonneg (by omega)]
    · rintro rfl
      rwa [show max 1 (((1 : ℕ) : ℤ) + roundHalfUp (drawnMinutes s random)) = ((1 : ℕ) : ℤ) by omega]
  · rw [hzero, add_zero, max_eq_right (by omega : (1 : ℤ) ≤ k)]
    simp [hactive]
  · rw [max_eq_right (by omega : (1 : ℤ) ≤ k + roundHalfUp (drawnMinutes s random))]
    simp only [hgt, true_imp_iff, show ¬roundHalfUp (drawnMinutes s random) ≤ -1 by omega,
      false_imp_iff, true_and]

variable {behavior : HumanBehaviorConfig}

theorem sleepWindowReconnectDelay_eq (henabled : behavior.enabled = true)
    (hasked : shouldBeActive clock asked behavior.scheduleOrDefault = false) :
    sleepWindowReconnectDelay clock asked now random behavior =
      max 60000 (nextTransition clock now behavior.scheduleOrDefault random).untilMs := by
  simp [sleepWindowReconnectDelay, henabled, hasked]

/-- **Waking up**: the delay of a bot that is asleep ends at an active instant, and without
    jitter at the first active minute, exactly if that minute is within two days and the draw
    hits an active minute. -/
theorem wakesAwake_iff_hitsActive (clock : LocalClock) (asked now : ℤ) (random : Draw)
    (behavior : HumanBehaviorConfig) (henabled : behavior.enabled = true)
    (hasked : shouldBeActive clock asked behavior.scheduleOrDefault = false)
    (hasleep : shouldBeActive clock now behavior.scheduleOrDefault = false) :
    WakesAwake clock behavior.scheduleOrDefault now
        (sleepWindowReconnectDelay clock asked now random behavior) ↔
      HitsActive clock behavior.scheduleOrDefault now random := by
  rw [sleepWindowReconnectDelay_eq henabled hasked]
  generalize behavior.scheduleOrDefault = s at *
  cases htransition : firstTransition clock now s with
  | none =>
    rw [nextTransition_of_none htransition]
    refine iff_of_false (fun hwakes => ?_) ?_
    · exact not_active_of_firstTransition_none hasleep htransition (k := 30) (by omega) (by omega)
        hwakes.1
    · rintro ⟨k, hle, hfirst, -⟩
      rw [(firstTransition_eq_some hasleep).mpr ⟨hle, hfirst⟩] at htransition
      exact Option.some_ne_none k htransition
  | some k =>
    obtain ⟨hle, hfirst⟩ := (firstTransition_eq_some hasleep).mp htransition
    have hdelay : max 60000 (nextTransition clock now s random).untilMs =
        max 1 (k + roundHalfUp (drawnMinutes s random)) * 60000 := by
      rw [nextTransition_of_some htransition]
      omega
    have hdrawn := activeAfter_drawn_iff hfirst random
    rw [hdelay]
    constructor
    · rintro ⟨hactive, -⟩
      exact ⟨k, hle, hfirst, hdrawn.mp hactive⟩
    · rintro ⟨l, -, hl, hhits⟩
      obtain rfl := hfirst.unique hl
      refine ⟨hdrawn.mpr hhits, fun hjitter => ⟨k, hfirst, ?_⟩⟩
      have hzero : roundHalfUp (drawnMinutes s random) = 0 := by
        rw [drawnMinutes, hjitter, mul_zero, zero_div]
        exact roundHalfUp_intCast 0
      rw [hzero, add_zero, max_eq_right (by have := hfirst.1; omega)]

/-- Mornings on Mondays, with the default jitter. -/
def mondayMorning : HumanBehaviorConfig :=
  ⟨true, some ⟨fun d => if d.val = 1 then [⟨8, 0, 12, 0, by decide, by decide⟩] else [], none, none⟩⟩

theorem shouldBeActive_mondayMorning (clock : LocalClock) (now : ℤ) :
    shouldBeActive clock now mondayMorning.scheduleOrDefault =
      (mondayMorning.scheduleOrDefault.activeWindows (clock "UTC" now).day).any
        (windowActive 15 (clock "UTC" now).currentMinutes) := by
  rw [shouldBeActive, LifecycleSchedule.jitterMinutes_default rfl]
  rfl

/-- On Monday, 1 January 2024, at 7:40 the bot wakes up in five minutes, unless a draw tells it to
    try after one. -/
theorem hitsActive_mondayMorning :
    WakesAwake utcClock mondayMorning.scheduleOrDefault 1704094800000
        (sleepWindowReconnectDelay utcClock 1704094800000 1704094800000 ⟨1 / 2, by norm_num⟩
          mondayMorning) ↔
      HitsActive utcClock mondayMorning.scheduleOrDefault 1704094800000 ⟨1 / 2, by norm_num⟩ :=
  wakesAwake_iff_hitsActive utcClock 1704094800000 1704094800000 ⟨1 / 2, by norm_num⟩ mondayMorning
    rfl (shouldBeActive_mondayMorning utcClock _) (shouldBeActive_mondayMorning utcClock _)

/-- A draw of a quarter starts the reconnect of 7:30 at 7:38, seven minutes too early. -/
theorem not_wakesAwake_mondayMorning :
    mondayMorning.enabled = true ∧
      shouldBeActive utcClock 1704094200000 mondayMorning.scheduleOrDefault = false ∧
      ¬WakesAwake utcClock mondayMorning.scheduleOrDefault 1704094200000
        (sleepWindowReconnectDelay utcClock 1704094200000 1704094200000 ⟨1 / 4, by norm_num⟩
          mondayMorning) := by
  have hdelay : sleepWindowReconnectDelay utcClock 1704094200000 1704094200000
      ⟨1 / 4, by norm_num⟩ mondayMorning = 480000 := by decide +kernel
  refine ⟨rfl, shouldBeActive_mondayMorning utcClock _, fun hwakes => ?_⟩
  rw [hdelay] at hwakes
  have hasleep : shouldBeActive utcClock (1704094200000 + 480000)
      mondayMorning.scheduleOrDefault = false := shouldBeActive_mondayMorning utcClock _
  exact absurd hwakes.1 (Bool.eq_false_iff.mp hasleep)

end BotHive.Behavior
