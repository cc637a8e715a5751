import BotHive.Workers.SendPath

/-!
# How long a self-healing pause lasts

A pause is imposed for a duration, and the bot is meant to act again when it is over. The
detector reads counters that only actions change, and a paused bot does not act: a sweep
that looks at a paused bot finds the anomaly again and starts the pause anew. The pause
ends when it should exactly as long as no check recommends it a second time.

## Main definitions

- `SendState.PauseEnds`: the pause is not moved beyond its end
- `SendState.NotPausedAgain`: the condition on an action

## Main results

- `SendState.check_spec`: what a self-healing check does
- `SendState.pauseEnds_iff_notPausedAgain`: when the pause ends
-/

namespace BotHive.Workers

/-- Milliseconds of a pause that the rotation plan imposes. -/
def pauseMs : ℕ := 30 * 60000

def RotationAction.isPause : RotationAction → Bool
  | .pause _ _ => true
  | _ => false

/-- Whether a check of the counters imposes a pause. -/
def SendEntry.recommendsPause (entry : SendEntry) (now : ℕ) : Bool :=
  (entry.selfHealingPlan now).any RotationAction.isPause

namespace SendState

/-- Since an action was last attempted the bot is paused no longer than the first pause said,
    and from then on its calls pass the pause. -/
def PauseEnds (s : SendState) : Prop :=
  ∀ u, s.pausedUntil = some u → s.entry.selfHealingPauseUntil ≤ u ∧
    ∀ now type, u ≤ now → s.entry.gate now type = s.entry.warmingGate now type

/-- A check of a bot that has been paused does not recommend a pause that goes on for longer
    than the first one. -/
def PausedOnce (s : SendState) (entry : SendEntry) (elapsed : ℕ) : Prop :=
  ∀ u, s.pausedUntil = some u → entry.recommendsPause s.now = true →
    s.now + elapsed + pauseMs ≤ u

/-- The condition on an action: `PausedOnce` at every check that it makes. -/
def NotPausedAgain (s : SendState) : SendAction → Prop
  | .throws _ message elapsed => s.PausedOnce (s.entry.fail message) elapsed
  | .sweep elapsed => s.entry.status = .running → s.PausedOnce s.entry elapsed
  | _ => True

variable {s t : SendState}

theorem pauseEnds_iff :
    s.PauseEnds ↔ ∀ u, s.pausedUntil = some u → s.entry.selfHealingPauseUntil ≤ u := by
  constructor
  · intro h u hu
    exact (h u hu).1
  · intro h u hu
    have hle := h u hu
    refine ⟨hle, fun now type hnow => ?_⟩
    rw [SendEntry.gate, if_neg (not_lt.mpr (hle.trans hnow))]

/-- A rotation plan starts with a pause or has none. -/
theorem planRotation_cases (detection : DetectionResult) :
    (∃ reason, planRotation detection = [.pause pauseMs reason, .changeProxy, .alert reason]) ∨
      ∀ a ∈ planRotation detection, a.isPause = false := by
  rw [planRotation]
  cases detection.recommendation with
  | pause => exact .inl ⟨_, rfl⟩
  | throttle | rotate => exact .inr (by simp [RotationAction.isPause])
  | «continue» => exact .inr (by simp)

theorem selfHealingPlan_cases (entry : SendEntry) (now : ℕ) :
    (∃ reason, entry.selfHealingPlan now = [.pause pauseMs reason, .changeProxy, .alert reason]) ∨
      ∀ a ∈ entry.selfHealingPlan now, a.isPause = false := by
  rw [SendEntry.selfHealingPlan]
  generalize detectAnomaly _ now = detection
  dsimp only
  by_cases hfew : entry.actionsSuccess + entry.actionsFailed < 5
  · rw [if_pos hfew]
    exact .inr (by simp)
  · rw [if_neg hfew]
    cases detection.flagged with
    | false => exact .inr (by simp)
    | true => exact planRotation_cases detection

/-- Without a pause a rotation changes neither the pause nor its bound. -/
theorem foldl_executeRotationAction (plan : List RotationAction)
    (h : ∀ a ∈ plan, a.isPause = false) (s : SendState) :
    (plan.foldl executeRotationAction s).entry.selfHealingPauseUntil =
        s.entry.selfHealingPauseUntil ∧
      (plan.foldl executeRotationAction s).pausedUntil = s.pausedUntil := by
  induction plan generalizing s with
  | nil => exact ⟨rfl, rfl⟩
  | cons a rest ih =>
    have ha := h a List.mem_cons_self
    obtain ⟨hpause, hbound⟩ := ih (fun b hb => h b (List.mem_cons_of_mem a hb))
      (s.executeRotationAction a)
    rw [List.foldl_cons, hpause, hbound]
    cases a with
    | pause => cases ha
    | changeProxy | alert | coolDown => exact ⟨rfl, rfl⟩

/-- **Check**: a check that recommends a pause imposes it, any other leaves the pause alone. -/
theorem check_spec (s : SendState) (elapsed : ℕ) :
    ((s.runSelfHealingCheck elapsed).entry.selfHealingPauseUntil,
      (s.runSelfHealingCheck elapsed).pausedUntil) =
      if s.entry.recommendsPause s.now then
        (s.now + elapsed + pauseMs, some (s.pausedUntil.getD (s.now + elapsed + pauseMs)))
      else (s.entry.selfHealingPauseUntil, s.pausedUntil) := by
  rcases selfHealingPlan_cases s.entry s.now with ⟨reason, hplan⟩ | hplan
  · have hpause : s.entry.recommendsPause s.now = true := by
      rw [SendEntry.recommendsPause, hplan]
      rfl
    rw [if_pos hpause, runSelfHealingCheck]
    simp only [hplan]
    rfl
  · have hpause : ¬ s.entry.recommendsPause s.now = true := by
      rw [SendEntry.recommendsPause, Bool.not_eq_true, List.any_eq_false]
      intro a ha
      rw [hplan a ha]
      exact Bool.false_ne_true
    obtain ⟨hsame, hbound⟩ := foldl_executeRotationAction _ hplan { s with now := s.now + elapsed }
    rw [if_neg hpause, runSelfHealingCheck, hsame, hbound]

/-- A check keeps the end of the pause exactly when it does not impose it again. -/
theorem pauseEnds_check_iff (h : s.PauseEnds) (elapsed : ℕ) :
    (s.runSelfHealingCheck elapsed).PauseEnds ↔ s.PausedOnce s.entry elapsed := by
  rw [pauseEnds_iff] at h ⊢
  have hspec := check_spec s elapsed
  by_cases hpause : s.entry.recommendsPause s.now = true
  · rw [if_pos hpause, Prod.mk.injEq] at hspec
    rw [hspec.1, hspec.2, PausedOnce]
    cases hbound : s.pausedUntil with
    | none => simp
    | some u => simp [hpause]
  · rw [if_neg hpause, Prod.mk.injEq] at hspec
    rw [hspec.1, hspec.2, PausedOnce]
    exact iff_of_true h fun _ _ hc => absurd hc hpause

/-- Everything else neither moves the pause nor forgets when it should end. -/
theorem pauseEnds_of_same (h : s.PauseEnds)
    (hpause : t.entry.selfHealingPauseUntil = s.entry.selfHealingPauseUntil)
    (hbound : t.pausedUntil = s.pausedUntil) : t.PauseEnds := by
  rw [pauseEnds_iff] at h ⊢
  rw [hpause, hbound]
  exact h

theorem selfHealingPauseUntil_gate (entry : SendEntry) (now : ℕ) (type : String) :
    (entry.gate now type).2.selfHealingPauseUntil = entry.selfHealingPauseUntil := by
  rw [SendEntry.gate]
  split
  · rfl
  · rw [SendEntry.warmingGate]
    split
    · rfl
    · dsimp only
      split <;> rfl

/-- **Step**: an action keeps the end of the pause exactly when none of its checks imposes a
    pause again. -/
theorem pauseEnds_step_iff (h : s.PauseEnds) {a : SendAction} (hstep : s.step a = some t) :
    t.PauseEnds ↔ s.NotPausedAgain a := by
  cases turn_of_step hstep with
  | refused | passed =>
    exact iff_of_true (pauseEnds_of_same h (selfHealingPauseUntil_gate ..) rfl) trivial
  | cooled | charged | throttled | succeeded | setStatus | tick =>
    exact iff_of_true (pauseEnds_of_same h rfl rfl) trivial
  | attempted =>
    -- the bot acts, so that no pause is left whose end could be moved
    exact iff_of_true (fun _ hu => nomatch hu) trivial
  | @failed c type message elapsed htask =>
    have hcounted : ((s.setEntry (s.entry.fail message)).goto c .idle).PauseEnds :=
      pauseEnds_of_same h rfl rfl
    exact pauseEnds_check_iff hcounted elapsed
  | swept hrunning => rw [pauseEnds_check_iff h, NotPausedAgain, forall_prop_of_true hrunning]
  | skipped hrunning =>
    exact iff_of_true (pauseEnds_of_same h rfl rfl) fun hc => absurd hc hrunning

/-- An attempt that the provider refuses. -/
def refusedAttempt : List SendAction :=
  [.call 0 "like", .charged 0 true, .delayed 0, .throws 0 "forbidden" 0]

/-- Twenty refused attempts, and a sweep half a minute later. -/
def pausedTwice : List SendAction :=
  .setStatus .running :: (List.replicate 20 refusedAttempt).flatten ++ [.tick 30000, .sweep 0]

end SendState

end BotHive.Workers
