import BotHive.Library.Wilder
import BotHive.Crypto.AlertSignals

/-!
# Strategies

The indicators of the strategies: the cross of two simple moving averages, and the relative
strength index with Wilder's smoothing.

## Main definitions

- `sma`, `smaCross`: the mean of the last closes, and the cross of a fast and a slow one
- `rsi`, `rsiSignal`: the relative strength index and its two bounds

## Main results

- `rsi_laws`: bounds, scale and symmetry of the relative strength index, and when its signals are
  opposite on the mirrored series
-/

namespace BotHive.Crypto

def sma (values : List ℚ) (period : ℤ) : Option ℚ :=
  if period < 1 then none
  else if (values.length : ℤ) < period then none
  else some ((values.drop (values.length - period.toNat)).sum / period)

def smaCross (closes : List ℚ) (fast slow : ℤ) : Option SignalDirection :=
  if fast < 1 ∨ slow ≤ fast then none
  else if (closes.length : ℤ) < slow + 1 then none
  else
    match sma closes.dropLast fast, sma closes.dropLast slow, sma closes fast, sma closes slow with
    | some prevFast, some prevSlow, some curFast, some curSlow =>
      if prevFast ≤ prevSlow ∧ curSlow < curFast then some .buy
      else if prevSlow ≤ prevFast ∧ curFast < curSlow then some .sell
      else none
    | _, _, _, _ => none

def rsi (closes : List ℚ) (period : ℤ) : Option ℚ :=
  if period < 2 then none
  else if (closes.length : ℤ) < period + 1 then none
  else some (Moves.average period.toNat (steps closes)).strength

def rsiSignal (closes : List ℚ) (period : ℤ) (oversold overbought : ℚ) : Option SignalDirection :=
  match rsi closes period with
  | none => none
  | some value =>
    if value ≤ oversold then some .buy else if overbought ≤ value then some .sell else none

def SignalDirection.opposite : SignalDirection → SignalDirection
  | .buy => .sell
  | .sell => .buy

section Rsi

variable {closes : List ℚ} {period : ℤ} {value : ℚ}

theorem rsi_eq (hperiod : 2 ≤ period) (hlength : period + 1 ≤ closes.length) :
    rsi closes period = some (Moves.average period.toNat (steps closes)).strength := by
  rw [rsi, if_neg hperiod.not_gt, if_neg hlength.not_gt]

theorem rsi_map_affine (hperiod : 2 ≤ period) (hlength : period + 1 ≤ closes.length) {a : ℚ}
    (ha : 0 < a) (b : ℚ) : rsi (closes.map fun x => a * x + b) period = rsi closes period := by
  have hmap : period + 1 ≤ (closes.map fun x => a * x + b).length := by rwa [List.length_map]
  rw [rsi_eq hperiod hmap, rsi_eq hperiod hlength, steps_map_affine,
    Moves.average_map_mul ⟨a, ha⟩, Moves.strength_scale]

theorem rsi_map_neg (hperiod : 2 ≤ period) (hlength : period + 1 ≤ closes.length)
    (hvalue : rsi closes period = some value) :
    rsi (closes.map (- ·)) period = some (100 - value) := by
  have hmap : period + 1 ≤ (closes.map (- ·)).length := by rwa [List.length_map]
  rw [rsi_eq hperiod hlength, Option.some.injEq] at hvalue
  rw [rsi_eq hperiod hmap, steps_map_neg, Moves.average_map_neg, Moves.strength_mirror, hvalue]

/-- With bounds at the same distance from both ends, the mirrored series gives the opposite
    signal, unless the value is within both bounds. -/
theorem rsiSignal_map_neg_iff (overbought : ℚ) (hvalue : rsi closes period = some value)
    (hneg : rsi (closes.map (- ·)) period = some (100 - value)) :
    rsiSignal (closes.map (- ·)) period (100 - overbought) overbought =
        (rsiSignal closes period (100 - overbought) overbought).map SignalDirection.opposite ↔
      ¬ (overbought ≤ value ∧ value ≤ 100 - overbought) := by
  have hbuy : 100 - value ≤ 100 - overbought ↔ overbought ≤ value := by
    constructor <;> intro h <;> linarith
  have hsell : overbought ≤ 100 - value ↔ value ≤ 100 - overbought := by
    constructor <;> intro h <;> linarith
  rw [rsiSignal, rsiSignal, hvalue, hneg]
  dsimp only
  by_cases hover : overbought ≤ value <;> by_cases hunder : value ≤ 100 - overbought
  · -- both signals are to buy
    rw [if_pos (hbuy.mpr hover), if_pos hunder]
    exact iff_of_false (by decide) fun h => h ⟨hover, hunder⟩
  · rw [if_pos (hbuy.mpr hover), if_neg hunder, if_pos hover]
    exact iff_of_true rfl fun h => hunder h.2
  · rw [if_neg (mt hbuy.mp hover), if_pos (hsell.mpr hunder), if_pos hunder]
    exact iff_of_true rfl fun h => hover h.1
  · rw [if_neg (mt hbuy.mp hover), if_neg (mt hsell.mp hunder), if_neg hunder, if_neg hover]
    exact iff_of_true rfl fun h => hover h.1

end Rsi

/-- The relative strength index is a number of percent, does not change when the closes are
    scaled and shifted, and is mirrored with them; its signals are then opposite exactly when the
    value is not within both bounds. -/
theorem rsi_laws (period : ℤ) (closes : List ℚ) (hperiod : 2 ≤ period)
    (hlength : period + 1 ≤ closes.length) :
    ∃ value, rsi closes period = some value ∧ 0 ≤ value ∧ value ≤ 100 ∧
      (∀ a b, 0 < a → rsi (closes.map fun x => a * x + b) period = some value) ∧
      rsi (closes.map (- ·)) period = some (100 - value) ∧
      ∀ overbought,
        (rsiSignal (closes.map (- ·)) period (100 - overbought) overbought =
            (rsiSignal closes period (100 - overbought) overbought).map
              SignalDirection.opposite ↔
          ¬ (overbought ≤ value ∧ value ≤ 100 - overbought)) := by
  have hvalue := rsi_eq hperiod hlength
  have hneg := rsi_map_neg hperiod hlength hvalue
  refine ⟨_, hvalue, Moves.strength_nonneg _, Moves.strength_le _, fun a b ha => ?_, hneg,
    fun overbought => rsiSignal_map_neg_iff overbought hvalue hneg⟩
  exact (rsi_map_affine hperiod hlength ha b).trans hvalue

/-- The laws for three closes that rise and fall. -/
theorem rsi_laws_peak : ∃ value, rsi [1, 3, 2] 2 = some value ∧ 0 ≤ value ∧ value ≤ 100 ∧
    (∀ a b, 0 < a → rsi ([1, 3, 2].map fun x => a * x + b) 2 = some value) ∧
    rsi ([1, 3, 2].map (- ·)) 2 = some (100 - value) ∧
    ∀ overbought,
      (rsiSignal ([1, 3, 2].map (- ·)) 2 (100 - overbought) overbought =
          (rsiSignal [1, 3, 2] 2 (100 - overbought) overbought).map SignalDirection.opposite ↔
        ¬ (overbought ≤ value ∧ value ≤ 100 - overbought)) :=
  rsi_laws 2 [1, 3, 2] (by decide) (by decide)

/-- With both bounds at fifty, a flat series and its mirror image both give a signal to buy. -/
theorem not_opposite_flat :
    ¬ ∀ (period : ℤ) (closes : List ℚ) (overbought : ℚ), 2 ≤ period →
      period + 1 ≤ closes.length →
      rsiSignal (closes.map (- ·)) period (100 - overbought) overbought =
        (rsiSignal closes period (100 - overbought) overbought).map
          SignalDirection.opposite := by
  intro h
  exact absurd (h 2 [1, 1, 1] 50 (by decide) (by decide)) (by decide +kernel)

end BotHive.Crypto
