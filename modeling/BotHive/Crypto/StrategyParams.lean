import BotHive.Library.Value
import BotHive.Crypto.Strategies

/-!
# Parameters of the strategies

`validateStrategyParams` checks the parameters that a config gives, `evaluateStrategy` fills in
the others, and the worker fetches a hundred closes. What the check accepts may contradict a
default, or ask for more closes than there are.

A number that is not finite fails every check, like any value that is no number, so the numbers
of the values here are the finite ones.

## Main definitions

- `StrategyParams`, `validateStrategyParams`, `evaluateStrategy`
- `CanTrade`: the parameters are in order, and both signals can occur
- `SuitsDefaults`: what is given goes with the defaults for what is not, and with the closes

## Main results

- `canTrade_iff`: accepted parameters can trade exactly when they suit the defaults
-/

namespace BotHive.Crypto

inductive StrategyKind where
  | sma
  | rsi
  | alert
  deriving DecidableEq

/-- The fields that are checked or evaluated; a missing one is `undefined`. -/
structure StrategyParams where
  fastPeriod : Value := .undefined
  slowPeriod : Value := .undefined
  period : Value := .undefined
  oversold : Value := .undefined
  overbought : Value := .undefined
  upThreshold : Value := .undefined
  downThreshold : Value := .undefined
  stopLossPct : Value := .undefined
  takeProfitPct : Value := .undefined
  trailingStopPct : Value := .undefined

/-- The finite number that a value is. -/
def finite? : Value → Option ℚ
  | .num q => some q
  | _ => none

/-- A value is not given, or is a finite number that passes the check. -/
def Admits (check : ℚ → Bool) : Value → Bool
  | .undefined => true
  | .num q => check q
  | _ => false

/-- The text of a problem unless the check has passed. -/
def problem (passed : Bool) (text : String) : List String :=
  if passed then [] else [text]

/-- `Number.isInteger(q) && q >= least` -/
def integerFrom (least q : ℚ) : Bool :=
  q.isInt && decide (least ≤ q)

def percent (q : ℚ) : Bool :=
  decide (0 < q ∧ q < 100)

/-- Two numbers that are both given are in order. -/
def inOrder (low high : Option ℚ) : Bool :=
  low.all fun l => high.all fun h => decide (l < h)

def StrategyParams.smaProblems (p : StrategyParams) : List String :=
  problem (Admits (integerFrom 1) p.fastPeriod) "sma.fastPeriod must be a positive integer" ++
  problem (Admits (integerFrom 2) p.slowPeriod)
    "sma.slowPeriod must be an integer of at least 2" ++
  problem (inOrder ((finite? p.fastPeriod).filter Rat.isInt)
      ((finite? p.slowPeriod).filter Rat.isInt))
    "sma.slowPeriod must be greater than fastPeriod"

def StrategyParams.rsiProblems (p : StrategyParams) : List String :=
  problem (Admits (integerFrom 2) p.period) "rsi.period must be an integer of at least 2" ++
  problem (Admits percent p.oversold) "rsi.oversold must be between 0 and 100" ++
  problem (Admits percent p.overbought) "rsi.overbought must be between 0 and 100" ++
  problem (inOrder (finite? p.oversold) (finite? p.overbought))
    "rsi.oversold must be lower than overbought"

def StrategyParams.alertProblems (p : StrategyParams) : List String :=
  problem (Admits (0 < ·) p.upThreshold) "alert.upThreshold must be a positive number" ++
  problem (Admits (0 < ·) p.downThreshold) "alert.downThreshold must be a positive number" ++
  problem (inOrder (finite? p.downThreshold) (finite? p.upThreshold))
    "alert.upThreshold must be greater than downThreshold"

/-- The checks of the exits, whatever the strategy. -/
def StrategyParams.exitProblems (p : StrategyParams) : List String :=
  problem (Admits (0 ≤ ·) p.stopLossPct) "stopLossPct must be a non-negative number" ++
  problem (Admits (0 ≤ ·) p.takeProfitPct) "takeProfitPct must be a non-negative number" ++
  problem (Admits (0 ≤ ·) p.trailingStopPct) "trailingStopPct must be a non-negative number"

def validateStrategyParams (kind : StrategyKind) : Option StrategyParams → List String
  | none => []
  | some p =>
    (match kind with
      | .sma => p.smaProblems
      | .rsi => p.rsiProblems
      | .alert => p.alertProblems) ++ p.exitProblems

def numberParam (value : Value) (fallback : ℚ) : ℚ :=
  (finite? value).getD fallback

/-! The parameters that `evaluateStrategy` uses. -/

namespace StrategyParams

variable (p : StrategyParams)

def fast : ℤ := ⌊numberParam p.fastPeriod 9⌋

def slow : ℤ := ⌊numberParam p.slowPeriod 21⌋

def rsiPeriod : ℤ := ⌊numberParam p.period 14⌋

def rsiOversold : ℚ := numberParam p.oversold 30

def rsiOverbought : ℚ := numberParam p.overbought 70

end StrategyParams

/-- The texts of the numbers come from outside. -/
def evaluateStrategy (print toFixed1 : ℚ → String) (kind : StrategyKind)
    (params : Option StrategyParams) (closes : List ℚ) (currentPrice previousPrice : ℚ) :
    Option StrategySignal :=
  let p := params.getD {}
  match kind with
  | .sma => (smaCross closes p.fast p.slow).map fun direction =>
      { direction := direction
        reason := "SMA " ++ print p.fast ++ "/" ++ print p.slow ++ " cross"
        price := currentPrice }
  | .rsi =>
    match rsiSignal closes p.rsiPeriod p.rsiOversold p.rsiOverbought, rsi closes p.rsiPeriod with
    | some direction, some value =>
      some {
        direction := direction
        reason := "RSI " ++ toFixed1 value ++ " crossed " ++
          print (if direction = .buy then p.rsiOversold else p.rsiOverbought)
        price := currentPrice }
    | _, _ => none
  | .alert =>
    (alertSignal currentPrice previousPrice (finite? p.upThreshold) (finite? p.downThreshold)).map
      fun direction =>
        { direction := direction
          reason := "Price " ++ (if direction = .buy then "broke above" else "broke below") ++
            " threshold"
          price := currentPrice }

/-- How many closes `refreshKlines` asks for. -/
def klineLimit : ℕ := 100

/-- A hundred prices. -/
structure Fetched (closes : List ℚ) : Prop where
  length : closes.length = klineLimit
  pos : ∀ c ∈ closes, 0 < c

section CanTrade

variable (print toFixed1 : ℚ → String) (kind : StrategyKind) (params : Option StrategyParams)

/-- Some closes and some pair of prices lead to a signal. -/
def Signals (direction : SignalDirection) : Prop :=
  ∃ closes currentPrice previousPrice, Fetched closes ∧ 0 < currentPrice ∧ 0 < previousPrice ∧
    (evaluateStrategy print toFixed1 kind params closes currentPrice previousPrice).map
      StrategySignal.direction = some direction

/-- The parameters that are used are in order, and each signal can occur. -/
def CanTrade : Prop :=
  match kind with
  | .sma => (params.getD {}).fast < (params.getD {}).slow ∧
      Signals print toFixed1 kind params .buy ∧ Signals print toFixed1 kind params .sell
  | .rsi => (params.getD {}).rsiOversold < (params.getD {}).rsiOverbought ∧
      Signals print toFixed1 kind params .buy ∧ Signals print toFixed1 kind params .sell
  | .alert =>
    (∀ down up, finite? (params.getD {}).downThreshold = some down →
      finite? (params.getD {}).upThreshold = some up → down < up) ∧
    ((finite? (params.getD {}).upThreshold).isSome → Signals print toFixed1 kind params .buy) ∧
    ((finite? (params.getD {}).downThreshold).isSome → Signals print toFixed1 kind params .sell)

end CanTrade

/-- What is given goes with the defaults of what is not, and no period is longer than the closes
    allow. -/
def SuitsDefaults (kind : StrategyKind) (params : Option StrategyParams) : Prop :=
  match kind with
  | .sma =>
    match finite? (params.getD {}).fastPeriod, finite? (params.getD {}).slowPeriod with
    | none, none => True
    | some fast, none => fast < 21
    | none, some slow => 9 < slow ∧ slow ≤ 99
    | some _, some slow => slow ≤ 99
  | .rsi =>
    (finite? (params.getD {}).period).all (fun period => decide (period ≤ 99)) = true ∧
    match finite? (params.getD {}).oversold, finite? (params.getD {}).overbought with
    | some oversold, none => oversold < 70
    | none, some overbought => 30 < overbought
    | _, _ => True
  | .alert => True

section Sma

variable {n : ℕ} {c x : ℚ} {period fast slow : ℤ}

theorem sma_level (hpos : 1 ≤ period) (hle : period ≤ n) :
    sma (List.replicate n c) period = some c := by
  obtain ⟨k, rfl⟩ := Int.eq_ofNat_of_zero_le (zero_le_one.trans hpos)
  have hk : k ≤ n := Int.ofNat_le.mp hle
  have hne : (k : ℚ) ≠ 0 := Nat.cast_ne_zero.mpr (Nat.pos_iff_ne_zero.mp (by omega))
  rw [sma, if_neg hpos.not_gt, if_neg (by rw [List.length_replicate]; exact hle.not_gt),
    List.length_replicate, Int.toNat_natCast, List.drop_replicate, Nat.sub_sub_self hk,
    List.sum_replicate, nsmul_eq_mul, Int.cast_natCast, mul_div_cancel_left₀ c hne]

/-- A level series with another close at its end. -/
def jump (n : ℕ) (c x : ℚ) : List ℚ :=
  List.replicate n c ++ [x]

theorem sma_jump (hpos : 1 ≤ period) (hle : period ≤ n) :
    sma (jump n c x) period = some (c + (x - c) / period) := by
  obtain ⟨k, rfl⟩ := Int.eq_ofNat_of_zero_le (zero_le_one.trans hpos)
  have hk : k ≤ n := Int.ofNat_le.mp hle
  have hk1 : 1 ≤ k := Int.ofNat_le.mp hpos
  have hne : (k : ℚ) ≠ 0 := Nat.cast_ne_zero.mpr (Nat.pos_iff_ne_zero.mp hk1)
  have hlength : (jump n c x).length = n + 1 := by
    rw [jump, List.length_append, List.length_replicate, List.length_singleton]
  have hdrop : (jump n c x).drop (n + 1 - k) = List.replicate (k - 1) c ++ [x] := by
    rw [jump, List.drop_append_of_le_length (by rw [List.length_replicate]; omega),
      List.drop_replicate]
    congr 2
    omega
  have hcast : ((k - 1 : ℕ) : ℚ) = k - 1 := by rw [Nat.cast_sub hk1, Nat.cast_one]
  rw [sma, if_neg hpos.not_gt, hlength, if_neg (by omega), Int.toNat_natCast, hdrop,
    List.sum_append, List.sum_replicate, List.sum_singleton, nsmul_eq_mul, hcast,
    Int.cast_natCast, Option.some.injEq]
  field_simp
  ring

/-- After a level series the last close decides the cross. -/
theorem smaCross_jump (hfast : 1 ≤ fast) (horder : fast < slow) (hslow : slow ≤ n) :
    smaCross (jump n c x) fast slow =
      if c < x then some .buy else if x < c then some .sell else none := by
  have hlength : (jump n c x).length = n + 1 := by
    rw [jump, List.length_append, List.length_replicate, List.length_singleton]
  have hlast : (jump n c x).dropLast = List.replicate n c := List.dropLast_concat
  have hslow1 : 1 ≤ slow := hfast.trans horder.le
  have hfastpos : (0 : ℚ) < fast := Int.cast_pos.mpr hfast
  have hinv : (1 : ℚ) / slow < 1 / fast :=
    one_div_lt_one_div_of_lt hfastpos (Int.cast_lt.mpr horder)
  rw [smaCross, if_neg (by omega), if_neg (by rw [hlength]; omega), hlast,
    sma_level hfast (horder.le.trans hslow), sma_level hslow1 hslow,
    sma_jump hfast (horder.le.trans hslow), sma_jump hslow1 hslow]
  have hbuy : c + (x - c) / slow < c + (x - c) / fast ↔ c < x := by
    rw [add_lt_add_iff_left, div_eq_mul_one_div, div_eq_mul_one_div _ (fast : ℚ)]
    constructor
    · intro h
      nlinarith
    · intro h
      exact mul_lt_mul_of_pos_left hinv (sub_pos.mpr h)
  have hsell : c + (x - c) / fast < c + (x - c) / slow ↔ x < c := by
    rw [add_lt_add_iff_left, div_eq_mul_one_div, div_eq_mul_one_div _ (slow : ℚ)]
    constructor
    · intro h
      nlinarith
    · intro h
      exact mul_lt_mul_of_neg_left hinv (sub_neg.mpr h)
  simp only [le_refl, true_and, hbuy, hsell]

theorem fetched_jump (hc : 0 < c) (hx : 0 < x) : Fetched (jump 99 c x) where
  length := by
    rw [jump, List.length_append, List.length_replicate, List.length_singleton]
    rfl
  pos d hd := by
    rcases List.mem_append.mp hd with hd | hd
    · exact (List.eq_of_mem_replicate hd).symm ▸ hc
    · exact (List.mem_singleton.mp hd).symm ▸ hx

/-- On a hundred closes the averages cross for periods in order of which the longer one leaves a
    close over. -/
theorem exists_smaCross_iff (direction : SignalDirection) :
    (∃ closes, Fetched closes ∧ smaCross closes fast slow = some direction) ↔
      1 ≤ fast ∧ fast < slow ∧ slow ≤ 99 := by
  constructor
  · rintro ⟨closes, hfetched, hcross⟩
    rw [smaCross, hfetched.length] at hcross
    split_ifs at hcross with horder hlength
    rw [not_or] at horder
    refine ⟨not_lt.mp horder.1, not_le.mp horder.2, ?_⟩
    have hle := not_lt.mp hlength
    rw [klineLimit] at hle
    omega
  · rintro ⟨hfast, horder, hslow⟩
    cases direction with
    | buy =>
      refine ⟨jump 99 1 2, fetched_jump (by norm_num) (by norm_num), ?_⟩
      rw [smaCross_jump hfast horder hslow, if_pos (by norm_num)]
    | sell =>
      refine ⟨jump 99 2 1, fetched_jump (by norm_num) (by norm_num), ?_⟩
      rw [smaCross_jump hfast horder hslow, if_neg (by norm_num), if_pos (by norm_num)]

end Sma

section RsiSignals

variable {period : ℤ} {oversold overbought : ℚ}

def fallingCloses : List ℚ :=
  (List.range 100).map fun i => 100 - (i : ℚ)

def risingCloses : List ℚ :=
  (List.range 100).map fun i => (i : ℚ) + 1

theorem bind_cast_range (n : ℕ) :
    (List.range n >>= fun i => pure (i : ℚ)) = (List.range n).map Nat.cast :=
  List.flatMap_pure_eq_map Nat.cast (List.range n)

theorem fallingCloses_eq : fallingCloses = (List.range 100).map fun i : ℕ => 100 - (i : ℚ) := by
  rw [fallingCloses, bind_cast_range, List.map_map]
  rfl

theorem risingCloses_eq : risingCloses = (List.range 100).map fun i : ℕ => (i : ℚ) + 1 := by
  rw [risingCloses, bind_cast_range, List.map_map]
  rfl

theorem fetched_fallingCloses : Fetched fallingCloses where
  length := rfl
  pos := by
    intro close hclose
    rw [fallingCloses_eq] at hclose
    obtain ⟨i, hi, rfl⟩ := List.mem_map.mp hclose
    have hlt : (i : ℚ) < 100 := by exact_mod_cast List.mem_range.mp hi
    linarith

theorem fetched_risingCloses : Fetched risingCloses where
  length := rfl
  pos := by
    intro close hclose
    rw [risingCloses_eq] at hclose
    obtain ⟨i, -, rfl⟩ := List.mem_map.mp hclose
    positivity

theorem pairwise_fallingCloses : fallingCloses.Pairwise (· > ·) := by
  rw [fallingCloses_eq]
  refine List.pairwise_map.mpr (List.pairwise_lt_range.imp fun {i j} hlt => ?_)
  have hcast : (i : ℚ) < j := by exact_mod_cast hlt
  linarith

theorem pairwise_neg_risingCloses : (risingCloses.map (- ·)).Pairwise (· > ·) := by
  rw [risingCloses_eq, List.map_map]
  refine List.pairwise_map.mpr (List.pairwise_lt_range.imp fun {i j} hlt => ?_)
  have hcast : (i : ℚ) < j := by exact_mod_cast hlt
  show -((j : ℚ) + 1) < -((i : ℚ) + 1)
  linarith

theorem rsi_of_falling {closes : List ℚ} (hperiod : 2 ≤ period)
    (hlength : period + 1 ≤ closes.length) (hfalling : ∀ d ∈ steps closes, d < 0) :
    rsi closes period = some 0 := by
  have hsteps : period.toNat ≤ (steps closes).length := by
    rw [length_steps]
    omega
  rw [rsi_eq hperiod hlength,
    (Moves.onlyLoss_average (by omega) hsteps hfalling).strength]

theorem rsi_fallingCloses (hperiod : 2 ≤ period) (hle : period ≤ 99) :
    rsi fallingCloses period = some 0 :=
  rsi_of_falling hperiod (by show period + 1 ≤ 100; omega)
    (steps_neg_of_pairwise pairwise_fallingCloses)

theorem rsi_risingCloses (hperiod : 2 ≤ period) (hle : period ≤ 99) :
    rsi risingCloses period = some 100 := by
  have hlength : period + 1 ≤ risingCloses.length := by
    show period + 1 ≤ 100
    omega
  have hmirror : rsi (risingCloses.map (- ·)) period = some 0 :=
    rsi_of_falling hperiod (by rwa [List.length_map])
      (steps_neg_of_pairwise pairwise_neg_risingCloses)
  obtain ⟨value, hvalue⟩ : ∃ value, rsi risingCloses period = some value :=
    ⟨_, rsi_eq hperiod hlength⟩
  have hzero := hmirror.symm.trans (rsi_map_neg hperiod hlength hvalue)
  rw [Option.some.injEq] at hzero
  rw [hvalue, Option.some.injEq]
  linarith

theorem le_of_rsiSignal {closes : List ℚ} {direction : SignalDirection} (hfetched : Fetched closes)
    (h : rsiSignal closes period oversold overbought = some direction) : period ≤ 99 := by
  rw [rsiSignal, rsi, hfetched.length] at h
  by_contra hlt
  rw [klineLimit] at h
  split_ifs at h
  omega

/-- On a hundred closes both signals occur for a period that leaves a close over. -/
theorem exists_rsiSignal_iff (hperiod : 2 ≤ period) (hoversold : 0 < oversold ∧ oversold < 100)
    (hoverbought : overbought < 100) (direction : SignalDirection) :
    (∃ closes, Fetched closes ∧ rsiSignal closes period oversold overbought = some direction) ↔
      period ≤ 99 := by
  constructor
  · rintro ⟨closes, hfetched, h⟩
    exact le_of_rsiSignal hfetched h
  · intro hle
    cases direction with
    | buy =>
      refine ⟨fallingCloses, fetched_fallingCloses, ?_⟩
      rw [rsiSignal, rsi_fallingCloses hperiod hle]
      exact if_pos hoversold.1.le
    | sell =>
      refine ⟨risingCloses, fetched_risingCloses, ?_⟩
      rw [rsiSignal, rsi_risingCloses hperiod hle]
      dsimp only
      rw [if_neg hoversold.2.not_ge, if_pos hoverbought.le]

end RsiSignals

section Accepted

variable {print toFixed1 : ℚ → String} {p : StrategyParams} {params : Option StrategyParams}
  {direction : SignalDirection}

theorem problem_eq_nil_iff {passed : Bool} {text : String} :
    problem passed text = [] ↔ passed = true := by
  cases passed <;> simp [problem]

/-- An admitted value is not given, or a number that passes. -/
theorem finite?_of_admits {check : ℚ → Bool} {v : Value} (h : Admits check v = true) :
    finite? v = none ∨ ∃ q, finite? v = some q ∧ check q = true := by
  cases v with
  | undefined => exact Or.inl rfl
  | num q => exact Or.inr ⟨q, rfl, h⟩
  | _ => cases h

/-- What the check of the strategy says of parameters that it accepts. -/
theorem accepted_getD {kind : StrategyKind} (h : validateStrategyParams kind params = []) :
    (match kind with
      | .sma => (params.getD {}).smaProblems
      | .rsi => (params.getD {}).rsiProblems
      | .alert => (params.getD {}).alertProblems) = [] := by
  cases params with
  | none => cases kind <;> rfl
  | some p => exact (List.append_eq_nil_iff.mp h).1

/-- A checked integer is its own floor. -/
theorem exists_int_of_integerFrom {least : ℤ} {q : ℚ} (h : integerFrom least q = true) :
    ∃ k : ℤ, q = k ∧ least ≤ k := by
  obtain ⟨hint, hle⟩ := Bool.and_eq_true_iff.mp h
  have hq : ((q.num : ℤ) : ℚ) = q := (Rat.eq_num_of_isInt hint).symm
  refine ⟨q.num, hq.symm, ?_⟩
  have hle := of_decide_eq_true hle
  rw [← hq] at hle
  exact_mod_cast hle

theorem map_direction_smaCross (closes : List ℚ) (currentPrice previousPrice : ℚ) :
    (evaluateStrategy print toFixed1 .sma params closes currentPrice previousPrice).map
      StrategySignal.direction = smaCross closes (params.getD {}).fast (params.getD {}).slow := by
  rw [evaluateStrategy, Option.map_map]
  exact Option.map_id'

theorem map_direction_rsiSignal (closes : List ℚ) (currentPrice previousPrice : ℚ) :
    (evaluateStrategy print toFixed1 .rsi params closes currentPrice previousPrice).map
        StrategySignal.direction =
      rsiSignal closes (params.getD {}).rsiPeriod (params.getD {}).rsiOversold
        (params.getD {}).rsiOverbought := by
  rw [evaluateStrategy]
  cases hsignal : rsiSignal closes (params.getD {}).rsiPeriod (params.getD {}).rsiOversold
      (params.getD {}).rsiOverbought with
  | none => rfl
  | some direction =>
    cases hvalue : rsi closes (params.getD {}).rsiPeriod with
    | none =>
      rw [rsiSignal, hvalue] at hsignal
      cases hsignal
    | some value => rfl

theorem map_direction_alertSignal (closes : List ℚ) (currentPrice previousPrice : ℚ) :
    (evaluateStrategy print toFixed1 .alert params closes currentPrice previousPrice).map
        StrategySignal.direction =
      alertSignal currentPrice previousPrice (finite? (params.getD {}).upThreshold)
        (finite? (params.getD {}).downThreshold) := by
  rw [evaluateStrategy, Option.map_map]
  exact Option.map_id'

/-- The integer that a checked value or its default stands for. -/
theorem floor_numberParam (least fallback : ℤ) {v : Value}
    (h : Admits (integerFrom least) v = true) (hfallback : least ≤ fallback) :
    ∃ k : ℤ, ⌊numberParam v fallback⌋ = k ∧ least ≤ k ∧
      (finite? v = none ∧ k = fallback ∨ finite? v = some (k : ℚ)) := by
  rw [numberParam]
  rcases finite?_of_admits h with hnone | ⟨q, hsome, hcheck⟩
  · refine ⟨fallback, ?_, hfallback, Or.inl ⟨hnone, rfl⟩⟩
    rw [hnone, Option.getD_none, Int.floor_intCast]
  · obtain ⟨k, rfl, hk⟩ := exists_int_of_integerFrom hcheck
    refine ⟨k, ?_, hk, Or.inr hsome⟩
    rw [hsome, Option.getD_some, Int.floor_intCast]

theorem isInt_intCast (k : ℤ) : Rat.isInt (k : ℚ) = true := by
  rw [Rat.isInt, Rat.den_intCast]
  rfl

/-- The periods of accepted parameters, and when they go with the defaults and the closes. -/
theorem sma_of_accepted (h : p.smaProblems = []) :
    1 ≤ p.fast ∧ (SuitsDefaults .sma (some p) ↔ p.fast < p.slow ∧ p.slow ≤ 99) := by
  rw [StrategyParams.smaProblems, List.append_eq_nil_iff, List.append_eq_nil_iff,
    problem_eq_nil_iff, problem_eq_nil_iff, problem_eq_nil_iff] at h
  obtain ⟨⟨hfast, hslow⟩, horder⟩ := h
  obtain ⟨f, hf, hf1, hfgiven⟩ := floor_numberParam 1 9
    (by exact_mod_cast hfast) (by decide)
  obtain ⟨s, hs, hs2, hsgiven⟩ := floor_numberParam 2 21
    (by exact_mod_cast hslow) (by decide)
  have hpf : p.fast = f := by exact_mod_cast hf
  have hps : p.slow = s := by exact_mod_cast hs
  rw [hpf, hps]
  refine ⟨hf1, ?_⟩
  rw [SuitsDefaults, Option.getD_some]
  rcases hfgiven with ⟨hfnone, rfl⟩ | hfsome <;> rcases hsgiven with ⟨hsnone, rfl⟩ | hssome
  · rw [hfnone, hsnone]
    exact iff_of_true trivial (by decide)
  · rw [hfnone, hssome]
    show (9 : ℚ) < s ∧ (s : ℚ) ≤ 99 ↔ 9 < s ∧ s ≤ 99
    norm_cast
  · rw [hfsome, hsnone]
    show (f : ℚ) < 21 ↔ f < 21 ∧ (21 : ℤ) ≤ 99
    rw [and_iff_left (by decide)]
    norm_cast
  · rw [hfsome, hssome]
    rw [hfsome, hssome, Option.filter_some_pos (isInt_intCast f),
      Option.filter_some_pos (isInt_intCast s)] at horder
    have hlt : f < s := by exact_mod_cast of_decide_eq_true horder
    show (s : ℚ) ≤ 99 ↔ f < s ∧ s ≤ 99
    rw [and_iff_right hlt]
    norm_cast

/-- The bound that a checked value or its default stands for. -/
theorem numberParam_percent {fallback : ℚ} {v : Value} (h : Admits percent v = true)
    (hfallback : 0 < fallback ∧ fallback < 100) :
    0 < numberParam v fallback ∧ numberParam v fallback < 100 := by
  rw [numberParam]
  rcases finite?_of_admits h with hnone | ⟨q, hsome, hcheck⟩
  · rwa [hnone]
  · rw [hsome]
    exact of_decide_eq_true hcheck

/-- The period and the bounds of accepted parameters, and when they go with the defaults and the
    closes. -/
theorem rsi_of_accepted (h : p.rsiProblems = []) :
    2 ≤ p.rsiPeriod ∧ (0 < p.rsiOversold ∧ p.rsiOversold < 100) ∧ p.rsiOverbought < 100 ∧
      (SuitsDefaults .rsi (some p) ↔ p.rsiOversold < p.rsiOverbought ∧ p.rsiPeriod ≤ 99) := by
  rw [StrategyParams.rsiProblems, List.append_eq_nil_iff, List.append_eq_nil_iff,
    List.append_eq_nil_iff, problem_eq_nil_iff, problem_eq_nil_iff, problem_eq_nil_iff,
    problem_eq_nil_iff] at h
  obtain ⟨⟨⟨hperiod, hoversold⟩, hoverbought⟩, horder⟩ := h
  obtain ⟨k, hk, hk2, hgiven⟩ := floor_numberParam 2 14
    (by exact_mod_cast hperiod) (by decide)
  have hpk : p.rsiPeriod = k := by exact_mod_cast hk
  refine ⟨hpk ▸ hk2, numberParam_percent hoversold (by norm_num),
    (numberParam_percent hoverbought (by norm_num)).2, ?_⟩
  rw [SuitsDefaults, Option.getD_some, and_comm, hpk, StrategyParams.rsiOversold,
    StrategyParams.rsiOverbought, numberParam, numberParam]
  refine and_congr ?_ ?_
  · rcases finite?_of_admits hoversold with hlow | ⟨low, hlow, -⟩ <;>
      rcases finite?_of_admits hoverbought with hhigh | ⟨high, hhigh, -⟩
    · rw [hlow, hhigh]
      exact iff_of_true trivial (by norm_num)
    · rw [hlow, hhigh]
      exact Iff.rfl
    · rw [hlow, hhigh]
      exact Iff.rfl
    · rw [hlow, hhigh] at horder
      rw [hlow, hhigh]
      exact iff_of_true trivial (of_decide_eq_true horder)
  · rcases hgiven with ⟨hnone, rfl⟩ | hsome
    · rw [hnone]
      exact iff_of_true rfl (by decide)
    · rw [hsome, Option.all_some, decide_eq_true_eq]
      norm_cast

/-- The thresholds of accepted parameters. -/
theorem alert_of_accepted (h : p.alertProblems = []) :
    (∀ up, finite? p.upThreshold = some up → 0 < up) ∧
    (∀ down, finite? p.downThreshold = some down → 0 < down) ∧
    ∀ down up, finite? p.downThreshold = some down → finite? p.upThreshold = some up →
      down < up := by
  rw [StrategyParams.alertProblems, List.append_eq_nil_iff, List.append_eq_nil_iff,
    problem_eq_nil_iff, problem_eq_nil_iff, problem_eq_nil_iff] at h
  obtain ⟨⟨hup, hdown⟩, horder⟩ := h
  have hpos : ∀ (v : Value) (q : ℚ), Admits (0 < ·) v = true → finite? v = some q → 0 < q := by
    intro v q hv hq
    rcases finite?_of_admits hv with hnone | ⟨r, hsome, hr⟩
    · cases hnone.symm.trans hq
    · obtain rfl : r = q := Option.some.inj (hsome.symm.trans hq)
      exact of_decide_eq_true hr
  refine ⟨fun up => hpos _ up hup, fun down => hpos _ down hdown, fun down up hd hu => ?_⟩
  rw [hd, hu] at horder
  exact of_decide_eq_true horder

/-- A signal that the closes decide. -/
theorem signals_iff {kind : StrategyKind} {signal : List ℚ → Option SignalDirection}
    (h : ∀ closes currentPrice previousPrice,
      (evaluateStrategy print toFixed1 kind params closes currentPrice previousPrice).map
        StrategySignal.direction = signal closes) :
    Signals print toFixed1 kind params direction ↔
      ∃ closes, Fetched closes ∧ signal closes = some direction := by
  constructor
  · rintro ⟨closes, currentPrice, previousPrice, hfetched, -, -, hsignal⟩
    exact ⟨closes, hfetched, (h _ _ _).symm.trans hsignal⟩
  · rintro ⟨closes, hfetched, hsignal⟩
    exact ⟨closes, 1, 1, hfetched, one_pos, one_pos, (h _ _ _).trans hsignal⟩

theorem suitsDefaults_getD {kind : StrategyKind} :
    SuitsDefaults kind (some (params.getD {})) ↔ SuitsDefaults kind params :=
  Iff.rfl

theorem canTrade_sma_iff (h : (params.getD {}).smaProblems = []) :
    CanTrade print toFixed1 .sma params ↔ SuitsDefaults .sma params := by
  obtain ⟨hfast, hsuits⟩ := sma_of_accepted h
  rw [← suitsDefaults_getD, hsuits, CanTrade, signals_iff map_direction_smaCross,
    signals_iff map_direction_smaCross, exists_smaCross_iff, exists_smaCross_iff]
  constructor
  · rintro ⟨horder, ⟨-, -, hslow⟩, -⟩
    exact ⟨horder, hslow⟩
  · rintro ⟨horder, hslow⟩
    exact ⟨horder, ⟨hfast, horder, hslow⟩, hfast, horder, hslow⟩

theorem canTrade_rsi_iff (h : (params.getD {}).rsiProblems = []) :
    CanTrade print toFixed1 .rsi params ↔ SuitsDefaults .rsi params := by
  obtain ⟨hperiod, hoversold, hoverbought, hsuits⟩ := rsi_of_accepted h
  rw [← suitsDefaults_getD, hsuits, CanTrade, signals_iff map_direction_rsiSignal,
    signals_iff map_direction_rsiSignal, exists_rsiSignal_iff hperiod hoversold hoverbought,
    exists_rsiSignal_iff hperiod hoversold hoverbought, and_self_iff]

/-- An alert can always be set off. -/
theorem canTrade_alert (h : (params.getD {}).alertProblems = []) :
    CanTrade print toFixed1 .alert params := by
  obtain ⟨hup, hdown, horder⟩ := alert_of_accepted h
  refine ⟨horder, fun hgiven => ?_, fun hgiven => ?_⟩
  · obtain ⟨up, hsome⟩ := Option.isSome_iff_exists.mp hgiven
    refine ⟨risingCloses, up + 1, up, fetched_risingCloses, by linarith [hup up hsome],
      hup up hsome, ?_⟩
    rw [map_direction_alertSignal, hsome, alertSignal, Option.any_some]
    exact if_pos (decide_eq_true ⟨le_rfl, lt_add_one up⟩)
  · obtain ⟨down, hsome⟩ := Option.isSome_iff_exists.mp hgiven
    have hpos := hdown down hsome
    refine ⟨risingCloses, down / 2, down, fetched_risingCloses, half_pos hpos, hpos, ?_⟩
    rw [map_direction_alertSignal, hsome, alertSignal, Option.any_some, if_neg, if_pos]
    · exact decide_eq_true ⟨le_rfl, half_lt_self hpos⟩
    · -- below the lower threshold the price is below the upper one, too
      intro hany
      cases hgivenUp : finite? (params.getD {}).upThreshold with
      | none =>
        rw [hgivenUp] at hany
        cases hany
      | some up =>
        rw [hgivenUp, Option.any_some] at hany
        linarith [horder down up hsome hgivenUp, (of_decide_eq_true hany).2]

end Accepted

/-- Parameters that are accepted can trade exactly when what is given goes with the defaults of
    what is not, and no period is longer than the closes allow. -/
theorem canTrade_iff (print toFixed1 : ℚ → String) (kind : StrategyKind)
    (params : Option StrategyParams) (h : validateStrategyParams kind params = []) :
    CanTrade print toFixed1 kind params ↔ SuitsDefaults kind params := by
  have haccepted := accepted_getD h
  cases kind with
  | sma => exact canTrade_sma_iff haccepted
  | rsi => exact canTrade_rsi_iff haccepted
  | alert => exact iff_of_true (canTrade_alert haccepted) trivial

/-- A fast period that is given alone trades when it is shorter than the default of the slow
    one. -/
theorem canTrade_fastTen : CanTrade (fun _ => "") (fun _ => "") .sma
    (some { fastPeriod := .num 10 }) :=
  (canTrade_iff (fun _ => "") (fun _ => "") .sma (some { fastPeriod := .num 10 })
    (by decide)).mpr (show (10 : ℚ) < 21 by norm_num)

/-- A fast period above the default of the slow one, bounds in contradiction to a default, and
    periods that need more closes than there are, are all accepted. -/
theorem not_canTrade_accepted :
    (validateStrategyParams .sma (some { fastPeriod := .num 30 }) = [] ∧
      ¬ CanTrade (fun _ => "") (fun _ => "") .sma (some { fastPeriod := .num 30 })) ∧
    (validateStrategyParams .rsi (some { oversold := .num 80 }) = [] ∧
      ¬ CanTrade (fun _ => "") (fun _ => "") .rsi (some { oversold := .num 80 })) ∧
    (validateStrategyParams .sma (some { fastPeriod := .num 50, slowPeriod := .num 200 }) = [] ∧
      ¬ CanTrade (fun _ => "") (fun _ => "") .sma
        (some { fastPeriod := .num 50, slowPeriod := .num 200 })) := by
  refine ⟨⟨by decide, fun h => ?_⟩, ⟨by decide, fun h => ?_⟩,
    ⟨by decide, fun h => ?_⟩⟩
  · exact absurd h.1 (by decide)
  · exact absurd h.1 (by decide)
  · have hslow := ((exists_smaCross_iff .buy).mp ((signals_iff map_direction_smaCross).mp h.2.1)).2.2
    exact absurd hslow (by decide)

end BotHive.Crypto
