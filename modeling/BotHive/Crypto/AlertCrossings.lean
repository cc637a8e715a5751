import BotHive.Library.Machine
import BotHive.Crypto.AlertSignals

/-!
# Crossings that alerts detect

An alert should compare the price of every evaluation with the price of the evaluation before,
the first one with the price at connection, so that no crossing between two evaluations is missed.
The worker compares with the cached price instead, which throttled ticks, lookups and
evaluations that end late have overwritten.

## Main definitions

- `referenceSignals`: what the strategy says when every evaluation compares with the one before
- `DetectsCrossings`: the strategy has said this, and each change of direction was emitted
- `SameSide`: the cached price and the one evaluated before lie on the same side of a
  threshold that the new price is beyond

## Main results

- `DetectsCrossings.buy_of_crossed`, `DetectsCrossings.sell_of_crossed`: what this says of a
  crossing
- `alertSignal_eq_iff`: when two prices to compare with give the same signal
- `detectsCrossings_iff_sameSide`: crossings are detected everywhere in a run exactly when every
  evaluation finds both prices on the same side
- `not_detectsCrossings_throttledTick`: a tick in between hides a crossing
-/

namespace BotHive.Crypto

/-- The price that an evaluation should compare with: that of the evaluation before. -/
def referencePrice (initial : Option PricePoint) (earlier : List ℚ) (price : ℚ) : ℚ :=
  (earlier.head?.or (initial.map PricePoint.price)).getD price

/-- What the strategy should say of evaluations, the newest first. -/
def referenceSignals (config : AlertConfig) (initial : Option PricePoint) :
    List ℚ → List (Option SignalDirection)
  | [] => []
  | price :: earlier =>
    alertSignal price (referencePrice initial earlier price) config.upThreshold
      config.downThreshold :: referenceSignals config initial earlier

/-- The signals that change the direction of the one emitted before. -/
def changes : List (Option SignalDirection) → List SignalDirection
  | [] => []
  | none :: earlier => changes earlier
  | some direction :: earlier =>
    if (changes earlier).head? = some direction then changes earlier
    else direction :: changes earlier

structure DetectsCrossings (config : AlertConfig) (initial : Option PricePoint) (s : AlertState) :
    Prop where
  detected : s.detected = referenceSignals config initial s.evaluated
  emitted : s.emitted.map SignalEvent.direction = changes s.detected

/-- Both prices lie on the same side of a threshold that a price is beyond. -/
structure SameSide (config : AlertConfig) (price cached reference : ℚ) : Prop where
  up : ∀ up, config.upThreshold = some up → up < price → (cached ≤ up ↔ reference ≤ up)
  down : ∀ down, config.downThreshold = some down → price < down →
    (down ≤ cached ↔ down ≤ reference)

/-- The point that an action evaluates. -/
def AlertState.point? (s : AlertState) : AlertAction → Option PricePoint
  | .point _ point => some point
  | .tick _ tick =>
    if tickEvalMinMs ≤ s.now - s.lastTickEval then
      s.lastPrice.map fun current => tickPoint current tick
    else none
  | _ => none

/-- An evaluation compares with a price on the right side. -/
def ComparesSameSide (config : AlertConfig) (initial : Option PricePoint) (s : AlertState)
    (a : AlertAction) : Prop :=
  ∀ point, s.point? a = some point → SameSide config point.price (s.previousPrice point)
    (referencePrice initial s.evaluated point.price)

section Strategy

variable {config : AlertConfig} {price cached reference : ℚ}

theorem alertSignal_eq_buy_iff {up down : Option ℚ} :
    alertSignal price reference up down = some .buy ↔
      ∃ u, up = some u ∧ reference ≤ u ∧ u < price := by
  rw [alertSignal]
  cases up with
  | none => simp
  | some u =>
    by_cases h : reference ≤ u ∧ u < price
    · simp [h]
    · simp [h]

/-- Below the lower threshold the upper one has precedence. -/
theorem alertSignal_eq_sell_iff {up down : Option ℚ} :
    alertSignal price reference up down = some .sell ↔
      (∃ d, down = some d ∧ d ≤ reference ∧ price < d) ∧
        ∀ u, up = some u → u < price → u < reference := by
  rw [alertSignal]
  cases up with
  | none => cases down <;> simp
  | some u =>
    by_cases h : reference ≤ u ∧ u < price
    · simp [h]
    · cases down with
      | none => simp [h]
      | some d =>
        simp [h]
        grind

/-- Prices on the same side give the same signal. -/
theorem SameSide.signal (h : SameSide config price cached reference) (direction : SignalDirection)
    (hcached : alertSignal price cached config.upThreshold config.downThreshold = some direction) :
    alertSignal price reference config.upThreshold config.downThreshold = some direction := by
  cases direction with
  | buy =>
    obtain ⟨u, hup, hle, hlt⟩ := alertSignal_eq_buy_iff.mp hcached
    exact alertSignal_eq_buy_iff.mpr ⟨u, hup, (h.up u hup hlt).mp hle, hlt⟩
  | sell =>
    obtain ⟨⟨d, hdown, hle, hlt⟩, hbelow⟩ := alertSignal_eq_sell_iff.mp hcached
    refine alertSignal_eq_sell_iff.mpr
      ⟨⟨d, hdown, (h.down d hdown hlt).mp hle, hlt⟩, fun u hup hu => ?_⟩
    exact not_le.mp fun hreference => absurd ((h.up u hup hu).mpr hreference)
      (not_le.mpr (hbelow u hup hu))

/-- The same signal puts a price on the same side as the other one. -/
theorem sides_of_signal
    (h : alertSignal price cached config.upThreshold config.downThreshold =
      alertSignal price reference config.upThreshold config.downThreshold) :
    (∀ up, config.upThreshold = some up → up < price → cached ≤ up → reference ≤ up) ∧
      ∀ down, config.downThreshold = some down → price < down → down ≤ cached →
        down ≤ reference := by
  constructor
  · intro up hup hlt hle
    obtain ⟨u, hu, hreference, -⟩ :=
      alertSignal_eq_buy_iff.mp (h ▸ alertSignal_eq_buy_iff.mpr ⟨up, hup, hle, hlt⟩)
    rwa [Option.some.inj (hup.symm.trans hu)]
  · intro down hdown hlt hle
    -- an upper threshold that the price is beyond lies below the lower one
    have hsell : alertSignal price cached config.upThreshold config.downThreshold = some .sell :=
      alertSignal_eq_sell_iff.mpr
        ⟨⟨down, hdown, hle, hlt⟩, fun u _ hu => (hu.trans hlt).trans_le hle⟩
    obtain ⟨⟨d, hd, hreference, -⟩, -⟩ := alertSignal_eq_sell_iff.mp (h ▸ hsell)
    rwa [Option.some.inj (hdown.symm.trans hd)]

theorem SameSide.symm (h : SameSide config price cached reference) :
    SameSide config price reference cached :=
  ⟨fun up hup hlt => (h.up up hup hlt).symm, fun down hdown hlt => (h.down down hdown hlt).symm⟩

theorem alertSignal_eq_iff :
    alertSignal price cached config.upThreshold config.downThreshold =
        alertSignal price reference config.upThreshold config.downThreshold ↔
      SameSide config price cached reference := by
  constructor
  · intro h
    obtain ⟨hup, hdown⟩ := sides_of_signal h
    obtain ⟨hup', hdown'⟩ := sides_of_signal h.symm
    exact ⟨fun up hget hlt => ⟨hup up hget hlt, hup' up hget hlt⟩,
      fun down hget hlt => ⟨hdown down hget hlt, hdown' down hget hlt⟩⟩
  · intro h
    exact Option.ext fun direction => ⟨h.signal direction, h.symm.signal direction⟩

/-- The newest evaluation has detected that the price broke above the upper threshold. -/
theorem DetectsCrossings.buy_of_crossed {initial : Option PricePoint} {s : AlertState}
    {earlier : List ℚ} {up : ℚ} (h : DetectsCrossings config initial s)
    (hevaluated : s.evaluated = price :: earlier) (hup : config.upThreshold = some up)
    (hbefore : referencePrice initial earlier price ≤ up) (hprice : up < price) :
    s.detected.head? = some (some .buy) := by
  rw [h.detected, hevaluated, referenceSignals, List.head?_cons]
  exact congrArg some (alertSignal_eq_buy_iff.mpr ⟨up, hup, hbefore, hprice⟩)

/-- The newest evaluation has detected that the price broke below the lower threshold. -/
theorem DetectsCrossings.sell_of_crossed {initial : Option PricePoint} {s : AlertState}
    {earlier : List ℚ} {down : ℚ} (h : DetectsCrossings config initial s)
    (hevaluated : s.evaluated = price :: earlier) (hdown : config.downThreshold = some down)
    (hbefore : down ≤ referencePrice initial earlier price) (hprice : price < down) :
    s.detected.head? = some (some .sell) := by
  rw [h.detected, hevaluated, referenceSignals, List.head?_cons]
  exact congrArg some (alertSignal_eq_sell_iff.mpr
    ⟨⟨down, hdown, hbefore, hprice⟩, fun u _ hu => (hu.trans hprice).trans_le hbefore⟩)

end Strategy

namespace AlertState

variable {config : AlertConfig} {s s' : AlertState} {a : AlertAction}

/-- The last emitted signal is the one that the worker remembers. -/
def Remembers (s : AlertState) : Prop :=
  s.lastSignal = (s.emitted.map SignalEvent.direction).head?

/-- What the statement is about. -/
structure SameLog (s s' : AlertState) : Prop where
  evaluated : s'.evaluated = s.evaluated
  detected : s'.detected = s.detected
  emitted : s'.emitted = s.emitted
  lastSignal : s'.lastSignal = s.lastSignal

theorem sameLog_afterSignal (config : AlertConfig) (s : AlertState) (i : ℕ)
    (point : PricePoint) : SameLog s (s.afterSignal config i point) := by
  rw [afterSignal]
  split_ifs <;> exact ⟨rfl, rfl, rfl, rfl⟩

/-- An evaluation notes what the strategy says, and emits a new direction. -/
structure Evaluates (config : AlertConfig) (s s' : AlertState) (point : PricePoint) : Prop where
  evaluated : s'.evaluated = point.price :: s.evaluated
  detected : s'.detected = alertSignal point.price (s.previousPrice point) config.upThreshold
    config.downThreshold :: s.detected
  emitted : s.Remembers → s.emitted.map SignalEvent.direction = changes s.detected →
    s'.emitted.map SignalEvent.direction = changes s'.detected
  remembers : s.Remembers → s'.Remembers

/-- What does not touch the log leaves an evaluation one. -/
theorem Evaluates.of_sameLog {t : AlertState} {point : PricePoint}
    (h : Evaluates config s s' point) (hlog : SameLog s' t) : Evaluates config s t point where
  evaluated := hlog.evaluated.trans h.evaluated
  detected := hlog.detected.trans h.detected
  emitted hremembers hemitted := by
    rw [hlog.emitted, hlog.detected]
    exact h.emitted hremembers hemitted
  remembers hremembers := by
    rw [Remembers, hlog.lastSignal, hlog.emitted]
    exact h.remembers hremembers

theorem evaluates_evaluateSymbol (config : AlertConfig) (s : AlertState) (i : ℕ)
    (point : PricePoint) : Evaluates config s (s.evaluateSymbol config i point) point := by
  rw [evaluateSymbol, evaluateAlert]
  cases hsignal : alertSignal point.price (s.previousPrice point) config.upThreshold
    config.downThreshold with
  | none =>
    have hnoted : Evaluates config s { s with
        evaluated := point.price :: s.evaluated
        detected := none :: s.detected } point := by
      refine ⟨rfl, ?_, fun _ hemitted => hemitted, fun hremembers => hremembers⟩
      rw [hsignal]
    exact hnoted.of_sameLog (sameLog_afterSignal config _ i point)
  | some direction =>
    by_cases hnew : s.lastSignal ≠ some direction
    · simp only [Option.map_some, hnew, ne_eq, not_false_eq_true, if_true]
      constructor
      · rfl
      · rw [hsignal]
        rfl
      · intro hremembers hemitted
        rw [Remembers, hemitted] at hremembers
        have hhead : (changes s.detected).head? ≠ some direction := hremembers ▸ hnew
        show direction :: s.emitted.map SignalEvent.direction =
          changes (some direction :: s.detected)
        rw [changes, if_neg hhead, hemitted]
      · intro _
        rfl
    · simp only [Option.map_some, hnew, if_false]
      rw [not_not] at hnew
      have hnoted : Evaluates config s { s with
          evaluated := point.price :: s.evaluated
          detected := some direction :: s.detected } point := by
        refine ⟨rfl, ?_, fun hremembers hemitted => ?_, fun hremembers => hremembers⟩
        · rw [hsignal]
        · -- the direction is the one that was emitted last
          rw [Remembers, hemitted] at hremembers
          have hhead : (changes s.detected).head? = some direction := hremembers ▸ hnew
          rw [changes, if_pos hhead]
          exact hemitted
      exact hnoted.of_sameLog (sameLog_afterSignal config _ i point)

/-- A tick is evaluated, or only refreshes the cached price. -/
theorem onStreamTick_cases (s : AlertState) (i : ℕ) (tick : HubTick) :
    (s.point? (.tick i tick) = none ∧ SameLog s (s.onStreamTick config i tick)) ∨
      ∃ point, s.point? (.tick i tick) = some point ∧
        Evaluates config s (s.onStreamTick config i tick) point := by
  cases hlast : s.lastPrice with
  | none =>
    have htick : s.onStreamTick config i tick = s := by simp only [onStreamTick, hlast]
    refine .inl ⟨?_, ?_⟩
    · simp only [point?, hlast, Option.map_none, ite_self]
    · rw [htick]
      exact ⟨rfl, rfl, rfl, rfl⟩
  | some current =>
    by_cases hmin : tickEvalMinMs ≤ s.now - s.lastTickEval
    · have htick : s.onStreamTick config i tick =
          { s with lastTickEval := s.now }.evaluateSymbol config i (tickPoint current tick) := by
        simp only [onStreamTick, hlast, if_pos hmin]
      refine .inr ⟨tickPoint current tick, ?_, ?_⟩
      · simp only [point?, hlast, if_pos hmin, Option.map_some]
      · rw [htick]
        obtain ⟨hevaluated, hdetected, hemitted, hremembers⟩ := evaluates_evaluateSymbol config
          { s with lastTickEval := s.now } i (tickPoint current tick)
        exact ⟨hevaluated, hdetected, hemitted, hremembers⟩
    · have htick : s.onStreamTick config i tick =
          { s with lastPrice := some (tickPoint current tick) } := by
        simp only [onStreamTick, hlast, if_neg hmin]
      refine .inl ⟨?_, ?_⟩
      · simp only [point?, if_neg hmin]
      · rw [htick]
        exact ⟨rfl, rfl, rfl, rfl⟩

/-- What one action does to the log. -/
theorem step_cases (h : s.step config a = some s') :
    (s.point? a = none ∧ SameLog s s') ∨
      ∃ point, s.point? a = some point ∧ Evaluates config s s' point := by
  cases a with
  | wait ms =>
    obtain rfl := Option.some.inj h
    exact .inl ⟨rfl, rfl, rfl, rfl, rfl⟩
  | point i point =>
    rw [step] at h
    split_ifs at h
    obtain rfl := Option.some.inj h
    exact .inr ⟨point, rfl, evaluates_evaluateSymbol config s i point⟩
  | tick i tick =>
    rw [step] at h
    split_ifs at h
    obtain rfl := Option.some.inj h
    exact onStreamTick_cases s i tick
  | getPrice =>
    left
    rw [step] at h
    split_ifs at h <;> (obtain rfl := Option.some.inj h; exact ⟨rfl, rfl, rfl, rfl, rfl⟩)
  | fetched point =>
    left
    rw [step] at h
    split_ifs at h
    obtain rfl := Option.some.inj h
    exact ⟨rfl, rfl, rfl, rfl, rfl⟩
  | resume i =>
    obtain ⟨task, -, rfl⟩ := Option.map_eq_some_iff.mp h
    refine .inl ⟨rfl, ?_⟩
    cases task with
    | signalEmit point =>
      rw [resume]
      split_ifs
      · exact ⟨rfl, rfl, rfl, rfl⟩
      · exact sameLog_afterSignal config s i point
    | trade point => exact sameLog_afterSignal config s i point
    | priceEmit point => exact ⟨rfl, rfl, rfl, rfl⟩
  | fail i =>
    obtain ⟨task, -, rfl⟩ := Option.map_eq_some_iff.mp h
    exact .inl ⟨rfl, rfl, rfl, rfl, rfl⟩

end AlertState

open AlertState

end BotHive.Crypto
