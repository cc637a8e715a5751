import BotHive.Library.Drawing
import BotHive.Library.Json
import BotHive.Bots.WalletConfig
import BotHive.Crypto.PriceFeed
import BotHive.Crypto.RiskGuard
import BotHive.Crypto.StrategyParams
import BotHive.Scripts.Language

/-!
# Random configs of new bots

A crypto bot that is created without a config gets a random one: some pairs, a strategy with its
parameters, an order size below the limit of the bot. Whatever is drawn has to pass the checks that
a config of a client passes.

The product of a random number and a range is rounded by the source. The result stays below the
range, as the exact one does.

## Main definitions

- `pick`, `pickMany`, `randInt`, `generateCryptoConfig`: the draws
- `ConfigDraw`: what is drawn for a config, within its ranges
- `SoundConfig`: what the checks and the other parts of the program ask of a config

## Main results

- `generateCryptoConfig_sound`: every draw is sound
- `generateCryptoConfig_canTrade_iff`: when the drawn strategy can trade
-/

namespace BotHive.Crypto

open Bots (CryptoConfig)

section Draws

variable {α : Type}

/-- One of some items, of which there is a first. -/
def pick (first : α) (others : List α) : Drawing α := do
  let i ← Drawing.below (others.length + 1)
  return (first :: others)[i]?.getD first

def pickMany (items : List α) (count : ℕ) : Drawing (List α) := do
  let copy ← Drawing.shuffleFrom (items.length - 1) items.toArray
  return copy.toList.take count

def randInt (min max : ℤ) : Drawing ℤ := do
  let x ← Drawing.draw
  return ⌊x.1 * ((max - min + 1 : ℤ) : ℚ)⌋ + min

theorem always_pick (first : α) (others : List α) :
    Drawing.Always (· ∈ first :: others) (pick first others) := by
  refine (Drawing.always_below (Nat.succ_pos others.length)).bind fun i hi => ?_
  refine Drawing.always_pure ?_
  rw [List.getElem?_eq_getElem (by simpa using hi), Option.getD_some]
  exact List.getElem_mem _

theorem always_pickMany (items : List α) (count : ℕ) :
    Drawing.Always (fun picked => picked.Subperm items ∧ picked.length = min count items.length)
      (pickMany items count) := by
  refine (Drawing.always_shuffleFrom _ items.toArray).bind fun copy hcopy => ?_
  have hperm : copy.toList.Perm items := Array.perm_iff_toList_perm.mp hcopy
  refine Drawing.always_pure ⟨?_, ?_⟩
  · exact (List.take_sublist count copy.toList).subperm.trans hperm.subperm
  · rw [List.length_take, hperm.length_eq]

theorem always_randInt {min max : ℤ} (h : min ≤ max) :
    Drawing.Always (fun k => min ≤ k ∧ k ≤ max) (randInt min max) := by
  refine Drawing.always_draw.bind fun x _ => Drawing.always_pure ?_
  have hrange : (0 : ℚ) < ((max - min + 1 : ℤ) : ℚ) := Int.cast_pos.mpr (by omega)
  have hnonneg : 0 ≤ ⌊x.1 * ((max - min + 1 : ℤ) : ℚ)⌋ :=
    Int.floor_nonneg.mpr (mul_nonneg x.2.1 hrange.le)
  have hlt : ⌊x.1 * ((max - min + 1 : ℤ) : ℚ)⌋ < max - min + 1 :=
    Int.floor_lt.mpr (mul_lt_of_lt_one_left hrange x.2.2)
  constructor
  · omega
  · omega

end Draws

section Fields

/-- A field that is set. -/
def isSet (entry : String × Value) : Bool :=
  match entry.2 with
  | .undefined => false
  | _ => true

/-- The fields of the parameters in the order in which a config has them. -/
def StrategyParams.slots (p : StrategyParams) : List (String × Value) :=
  [("fastPeriod", p.fastPeriod), ("slowPeriod", p.slowPeriod), ("period", p.period),
    ("overbought", p.overbought), ("oversold", p.oversold), ("upThreshold", p.upThreshold),
    ("downThreshold", p.downThreshold), ("stopLossPct", p.stopLossPct),
    ("takeProfitPct", p.takeProfitPct), ("trailingStopPct", p.trailingStopPct)]

/-- The fields that are set. -/
def StrategyParams.entries (p : StrategyParams) : List (String × Value) :=
  p.slots.filter isSet

/-- The parameters in the fields of a config. -/
def StrategyParams.ofFields (fields : List (String × Value)) : StrategyParams where
  fastPeriod := Value.own fields "fastPeriod"
  slowPeriod := Value.own fields "slowPeriod"
  period := Value.own fields "period"
  oversold := Value.own fields "oversold"
  overbought := Value.own fields "overbought"
  upThreshold := Value.own fields "upThreshold"
  downThreshold := Value.own fields "downThreshold"
  stopLossPct := Value.own fields "stopLossPct"
  takeProfitPct := Value.own fields "takeProfitPct"
  trailingStopPct := Value.own fields "trailingStopPct"

theorem StrategyParams.map_fst_slots (p : StrategyParams) : p.slots.map Prod.fst =
    ["fastPeriod", "slowPeriod", "period", "overbought", "oversold", "upThreshold",
      "downThreshold", "stopLossPct", "takeProfitPct", "trailingStopPct"] :=
  rfl

theorem own_of_not_mem {fields : List (String × Value)} {name : String}
    (h : name ∉ fields.map Prod.fst) : Value.own fields name = .undefined := by
  rw [Value.own, Value.ownField_eq_lookup, InsertionMap.lookup_eq_none h, Option.getD_none]

theorem own_cons (e : String × Value) (rest : List (String × Value)) (name : String) :
    Value.own (e :: rest) name = if e.1 = name then e.2 else Value.own rest name := by
  rw [Value.own, Value.ownField]
  split
  · rfl
  · rfl

theorem own_append {front back : List (String × Value)} {name : String}
    (h : name ∉ front.map Prod.fst) : Value.own (front ++ back) name = Value.own back name := by
  have hfront : Value.ownField name front = none := by
    rw [Value.ownField_eq_lookup, InsertionMap.lookup_eq_none h]
  rw [Value.own, Bots.ownField_append, hfront, Option.none_or, Value.own]

theorem own_of_mem {fields : List (String × Value)} (hnodup : (fields.map Prod.fst).Nodup)
    {name : String} {v : Value} (h : (name, v) ∈ fields) : Value.own fields name = v := by
  rw [Value.own, Value.ownField_eq_lookup, (InsertionMap.lookup_eq_some_iff hnodup name v).mpr h,
    Option.getD_some]

/-- A field that is left out because it is not set reads the same. -/
theorem own_filter_isSet {fields : List (String × Value)} (h : (fields.map Prod.fst).Nodup)
    (name : String) : Value.own (fields.filter isSet) name = Value.own fields name := by
  induction fields with
  | nil => rfl
  | cons e rest ih =>
    rw [List.map_cons, List.nodup_cons] at h
    have hrest := ih h.2
    by_cases hset : isSet e = true
    · rw [List.filter_cons_of_pos hset, own_cons, own_cons, hrest]
    · rw [List.filter_cons_of_neg hset, hrest, own_cons]
      split
      next hname =>
        have hvalue : e.2 = .undefined := by
          obtain ⟨key, v⟩ := e
          cases v with
          | undefined => rfl
          | _ => exact absurd rfl hset
        rw [hvalue, ← hname, own_of_not_mem h.1]
      next => rfl

/-- The parameters are read back from the fields that are set, behind other fields. -/
theorem ofFields_append {front : List (String × Value)} {p : StrategyParams}
    (h : ∀ e ∈ p.slots, e.1 ∉ front.map Prod.fst) :
    StrategyParams.ofFields (front ++ p.entries) = p := by
  have hnodup : (p.slots.map Prod.fst).Nodup := by
    rw [p.map_fst_slots]
    decide
  have hown (name : String) (v : Value) (hmem : (name, v) ∈ p.slots) :
      Value.own (front ++ p.entries) name = v := by
    rw [own_append (h (name, v) hmem), StrategyParams.entries, own_filter_isSet hnodup]
    exact own_of_mem hnodup hmem
  rw [StrategyParams.ofFields, hown "fastPeriod" p.fastPeriod (by simp [StrategyParams.slots]),
    hown "slowPeriod" p.slowPeriod (by simp [StrategyParams.slots]),
    hown "period" p.period (by simp [StrategyParams.slots]),
    hown "oversold" p.oversold (by simp [StrategyParams.slots]),
    hown "overbought" p.overbought (by simp [StrategyParams.slots]),
    hown "upThreshold" p.upThreshold (by simp [StrategyParams.slots]),
    hown "downThreshold" p.downThreshold (by simp [StrategyParams.slots]),
    hown "stopLossPct" p.stopLossPct (by simp [StrategyParams.slots]),
    hown "takeProfitPct" p.takeProfitPct (by simp [StrategyParams.slots]),
    hown "trailingStopPct" p.trailingStopPct (by simp [StrategyParams.slots])]

end Fields

section Config

def StrategyKind.name : StrategyKind → String
  | .sma => "sma"
  | .rsi => "rsi"
  | .alert => "alert"

def symbolPool : List String :=
  coingeckoIdBySymbol.map fun pair => pair.1 ++ "USDT"

/-- `COINGECKO_ID_BY_SYMBOL[symbol.slice(0, -4)]` -/
def poolId (symbol : String) : Option String :=
  coingeckoIdBySymbol.lookup (String.ofList (symbol.toList.take (symbol.toList.length - 4)))

/-- A number, or nothing, by chance. -/
def optionally (chance : ℚ) (value : Drawing ℤ) : Drawing Value := do
  let x ← Drawing.draw
  if x.1 < chance then return .num (← value) else return .undefined

def drawStrategy : StrategyKind → Drawing StrategyParams
  | .sma => do
    let fastPeriod ← randInt 5 20
    let slowPeriod ← randInt (fastPeriod * 3) (min (fastPeriod * 6) 200)
    return { fastPeriod := .num fastPeriod, slowPeriod := .num slowPeriod }
  | .rsi => do
    let period ← randInt 7 21
    let overbought ← randInt 65 80
    let oversold ← randInt 20 35
    return { period := .num period, overbought := .num overbought, oversold := .num oversold }
  | .alert => do
    let x ← Drawing.draw
    if x.1 < 1 / 2 then
      let upThreshold ← randInt 60000 150000
      let downThreshold ← randInt 10000 40000
      return { upThreshold := .num upThreshold, downThreshold := .num downThreshold }
    else return {}

/-- The exits do nothing as long as automatic trading is off. -/
def drawExits (p : StrategyParams) : Drawing StrategyParams := do
  let stopLossPct ← optionally (1 / 2) (randInt 2 10)
  let takeProfitPct ← optionally (1 / 2) (randInt 5 20)
  let trailingStopPct ← optionally (1 / 4) (randInt 1 5)
  return { p with
    stopLossPct := stopLossPct
    takeProfitPct := takeProfitPct
    trailingStopPct := trailingStopPct }

def drawSource : StrategyKind → Drawing String
  | .alert => pick "binance" ["auto", "coingecko"]
  | _ => pick "binance" ["auto"]

def generateCryptoConfig : Drawing CryptoConfig := do
  let symbols ← pickMany symbolPool (← randInt 1 3).toNat
  let strategy ← pick StrategyKind.sma [.sma, .rsi, .rsi, .alert]
  let source ← drawSource strategy
  let klineInterval ← pick "5m" ["15m", "1h"]
  let pollInterval ← randInt 15000 120000
  let maxOrderValueUsdt ← randInt 50 500
  let autoTradeAmountUsdt ← randInt 10 maxOrderValueUsdt
  let priceEventIntervalMs ← randInt 30000 120000
  let params ← drawStrategy strategy
  let params ← drawExits params
  return {
    symbols := symbols
    coinIds := symbols.map fun symbol => (poolId symbol).getD ""
    source := source
    strategy := strategy.name
    strategyParams := [("klineInterval", .str klineInterval),
      ("priceEventIntervalMs", .num priceEventIntervalMs), ("autoTrade", .bool false),
      ("autoTradeAmountUsdt", .num autoTradeAmountUsdt)] ++ params.entries
    pollInterval := pollInterval.toNat
    maxOrderValueUsdt := maxOrderValueUsdt.toNat }

end Config

section Symbols

/-- Each symbol of the pool has the id that the price feed looks up for it. -/
theorem of_mem_symbolPool {symbol : String} (h : symbol ∈ symbolPool) :
    toUpperCase symbol = symbol ∧ symbol ≠ "" ∧
      ∃ id, poolId symbol = some id ∧ coingeckoIdBySymbol.lookup (baseOf symbol) = some id := by
  have hpool : symbolPool.all (fun symbol => toUpperCase symbol == symbol && symbol != "" &&
      (poolId symbol).isSome && coingeckoIdBySymbol.lookup (baseOf symbol) == poolId symbol) =
        true := by
    decide +kernel
  have hsymbol := List.all_eq_true.mp hpool symbol h
  simp only [Bool.and_eq_true, beq_iff_eq, bne_iff_ne, Option.isSome_iff_exists] at hsymbol
  obtain ⟨⟨⟨hupper, hne⟩, id, hid⟩, hlookup⟩ := hsymbol
  exact ⟨hupper, hne, id, hid, hlookup.trans hid⟩

theorem nodup_symbolPool : symbolPool.Nodup := by
  decide +kernel

variable {symbols : List String}

theorem map_toUpperCase (h : symbols.Subperm symbolPool) : symbols.map toUpperCase = symbols := by
  conv_rhs => rw [← List.map_id symbols]
  exact List.map_congr_left fun symbol hmem => (of_mem_symbolPool (h.subset hmem)).1

theorem ids_of_subperm (h : symbols.Subperm symbolPool) (hnodup : symbols.Nodup) :
    PriceFeed.ids ⟨symbols, none, hnodup⟩ =
      .ok (symbols.map fun symbol => (poolId symbol).getD "") := by
  have hmem := h.subset
  clear h
  rw [PriceFeed.ids]
  dsimp only
  clear hnodup
  induction symbols with
  | nil => rfl
  | cons symbol rest ih =>
    obtain ⟨-, -, id, hid, hlookup⟩ := of_mem_symbolPool (hmem List.mem_cons_self)
    rw [List.mapM_cons, hlookup, ih fun x hx => hmem (List.mem_cons_of_mem _ hx), List.map_cons,
      hid]
    rfl

theorem nodup_of_subperm (h : symbols.Subperm symbolPool) : symbols.Nodup := by
  obtain ⟨l, hperm, hsub⟩ := h
  exact hperm.nodup_iff.mp (hsub.nodup nodup_symbolPool)

theorem ofOptions_of_subperm (h : symbols.Subperm symbolPool) (hne : symbols ≠ [])
    {ids : List String} (hlength : ids.length = symbols.length) :
    PriceFeed.ofOptions ⟨symbols, some ids⟩ = .ok ⟨symbols, some ids, nodup_of_subperm h⟩ := by
  have hsymbols : InsertionMap.distinct (symbols.map toUpperCase) = symbols := by
    rw [map_toUpperCase h, InsertionMap.distinct_of_nodup (nodup_of_subperm h)]
  rw [PriceFeed.ofOptions, if_neg hne, if_neg (by simp [hlength])]
  simp only [hsymbols]

/-- The risk guard takes an amount up to its limit for each of the symbols. -/
theorem planMarketBuy_of_mem (h : symbols.Subperm symbolPool) {symbol : String}
    (hmem : symbol ∈ symbols) {amount limit : ℚ} (hpos : 0 < amount) (hle : amount ≤ limit)
    (hasKeys : Bool) :
    ∃ plan, (RiskGuard.ofConfig ⟨.dry, limit, hasKeys, symbols⟩).planMarketBuy symbol amount =
      .ok plan := by
  obtain ⟨-, hne, -⟩ := of_mem_symbolPool (h.subset hmem)
  have hallowed : (RiskGuard.ofConfig ⟨.dry, limit, hasKeys, symbols⟩).allowed symbol = true := by
    rw [RiskGuard.allowed, Bool.or_eq_true, decide_eq_true_eq]
    right
    exact List.mem_map_of_mem (List.mem_filter.mpr ⟨hmem, by simpa using hne⟩)
  have hlimit : (RiskGuard.ofConfig ⟨.dry, limit, hasKeys, symbols⟩).maxOrderValueUsdt = limit :=
    if_pos (hpos.trans_le hle)
  rw [RiskGuard.planMarketBuy, if_neg (by rw [hallowed]; decide), if_neg hpos.not_ge,
    if_neg (by rw [hlimit]; exact hle.not_gt), if_neg (by rintro ⟨hlive, -⟩; cases hlive)]
  exact ⟨_, rfl⟩

end Symbols

section Strategies

/-- What can be drawn for a strategy. -/
def DrawnFor : StrategyKind → StrategyParams → Prop
  | .sma, p => ∃ fast slow : ℤ, (p.fastPeriod = .num fast ∧ p.slowPeriod = .num slow) ∧
      5 ≤ fast ∧ fast * 3 ≤ slow
  | .rsi, p => ∃ period overbought oversold : ℤ,
      (p.period = .num period ∧ p.overbought = .num overbought ∧ p.oversold = .num oversold) ∧
        (7 ≤ period ∧ period ≤ 21) ∧ (65 ≤ overbought ∧ overbought ≤ 80) ∧
          20 ≤ oversold ∧ oversold ≤ 35
  | .alert, p => (p.upThreshold = .undefined ∧ p.downThreshold = .undefined) ∨
      ∃ up down : ℤ, (p.upThreshold = .num up ∧ p.downThreshold = .num down) ∧ 60000 ≤ up ∧
        10000 ≤ down ∧ down ≤ 40000

theorem always_drawStrategy (kind : StrategyKind) :
    Drawing.Always (DrawnFor kind) (drawStrategy kind) := by
  cases kind with
  | sma =>
    refine (always_randInt (by decide)).bind fun fast hfast => ?_
    have hrange : fast * 3 ≤ min (fast * 6) 200 := by omega
    refine (always_randInt hrange).bind fun slow hslow => ?_
    exact Drawing.always_pure ⟨fast, slow, ⟨rfl, rfl⟩, hfast.1, hslow.1⟩
  | rsi =>
    refine (always_randInt (by decide)).bind fun period hperiod => ?_
    refine (always_randInt (by decide)).bind fun overbought hoverbought => ?_
    refine (always_randInt (by decide)).bind fun oversold hoversold => ?_
    exact Drawing.always_pure
      ⟨period, overbought, oversold, ⟨rfl, rfl, rfl⟩, hperiod, hoverbought, hoversold⟩
  | alert =>
    refine Drawing.always_draw.bind fun x _ => Drawing.always_ite ?_ ?_
    · refine (always_randInt (by decide)).bind fun up hup => ?_
      refine (always_randInt (by decide)).bind fun down hdown => ?_
      exact Drawing.always_pure (Or.inr ⟨up, down, ⟨rfl, rfl⟩, hup.1, hdown⟩)
    · exact Drawing.always_pure (Or.inl ⟨rfl, rfl⟩)

theorem integerFrom_intCast {least k : ℤ} (h : least ≤ k) :
    integerFrom (least : ℚ) (k : ℚ) = true := by
  rw [integerFrom, isInt_intCast, Bool.true_and]
  exact decide_eq_true (by exact_mod_cast h)

theorem percent_intCast {k : ℤ} (h : 0 < k ∧ k < 100) : percent (k : ℚ) = true :=
  decide_eq_true ⟨by exact_mod_cast h.1, by exact_mod_cast h.2⟩

theorem inOrder_intCast {low high : ℤ} (h : low < high) :
    inOrder (some (low : ℚ)) (some (high : ℚ)) = true :=
  decide_eq_true (by exact_mod_cast h)

variable {p : StrategyParams}

theorem smaProblems_of_drawn (h : DrawnFor .sma p) : p.smaProblems = [] := by
  obtain ⟨fast, slow, ⟨hf, hs⟩, hfast, hslow⟩ := h
  have hfast' : integerFrom 1 (fast : ℚ) = true := by
    exact_mod_cast integerFrom_intCast (show 1 ≤ fast by omega)
  have hslow' : integerFrom 2 (slow : ℚ) = true := by
    exact_mod_cast integerFrom_intCast (show 2 ≤ slow by omega)
  rw [StrategyParams.smaProblems, hf, hs, List.append_eq_nil_iff, List.append_eq_nil_iff,
    problem_eq_nil_iff, problem_eq_nil_iff, problem_eq_nil_iff]
  refine ⟨⟨hfast', hslow'⟩, ?_⟩
  show inOrder ((some (fast : ℚ)).filter Rat.isInt) ((some (slow : ℚ)).filter Rat.isInt) = true
  rw [Option.filter_some_pos (isInt_intCast fast), Option.filter_some_pos (isInt_intCast slow)]
  exact inOrder_intCast (by omega)

theorem rsiProblems_of_drawn (h : DrawnFor .rsi p) : p.rsiProblems = [] := by
  obtain ⟨period, overbought, oversold, ⟨hp, hb, hs⟩, hperiod, hoverbought, hoversold⟩ := h
  have hperiod' : integerFrom 2 (period : ℚ) = true := by
    exact_mod_cast integerFrom_intCast (show 2 ≤ period by omega)
  rw [StrategyParams.rsiProblems, hp, hb, hs, List.append_eq_nil_iff, List.append_eq_nil_iff,
    List.append_eq_nil_iff, problem_eq_nil_iff, problem_eq_nil_iff, problem_eq_nil_iff,
    problem_eq_nil_iff]
  exact ⟨⟨⟨hperiod', percent_intCast (by omega)⟩, percent_intCast (by omega)⟩,
    inOrder_intCast (by omega)⟩

theorem alertProblems_of_drawn (h : DrawnFor .alert p) : p.alertProblems = [] := by
  obtain ⟨hu, hd⟩ | ⟨up, down, ⟨hu, hd⟩, hup, hdown⟩ := h
  · rw [StrategyParams.alertProblems, hu, hd]
    rfl
  · have hpos {k : ℤ} (hk : 0 < k) : decide (0 < (k : ℚ)) = true :=
      decide_eq_true (by exact_mod_cast hk)
    rw [StrategyParams.alertProblems, hu, hd, List.append_eq_nil_iff, List.append_eq_nil_iff,
      problem_eq_nil_iff, problem_eq_nil_iff, problem_eq_nil_iff]
    exact ⟨⟨hpos (by omega), hpos (by omega)⟩, inOrder_intCast (by omega)⟩

theorem always_optionally {chance : ℚ} {least most : ℤ} (hle : least ≤ most) (hleast : 0 ≤ least) :
    Drawing.Always (fun v => Admits (0 ≤ ·) v = true)
      (optionally chance (randInt least most)) := by
  refine Drawing.always_draw.bind fun x _ => Drawing.always_ite ?_ (Drawing.always_pure rfl)
  refine (always_randInt hle).bind fun k hk => Drawing.always_pure ?_
  exact decide_eq_true (by exact_mod_cast hleast.trans hk.1)

/-- The exits pass their checks and leave the parameters of the strategy as they are. -/
theorem always_drawExits {kind : StrategyKind} (h : DrawnFor kind p) :
    Drawing.Always (fun q => DrawnFor kind q ∧ q.exitProblems = []) (drawExits p) := by
  refine (always_optionally (by decide) (by decide)).bind fun stopLoss hstop => ?_
  refine (always_optionally (by decide) (by decide)).bind fun takeProfit htake => ?_
  refine (always_optionally (by decide) (by decide)).bind fun trailing htrail => ?_
  refine Drawing.always_pure ⟨?_, ?_⟩
  · cases kind with
    | sma => exact h
    | rsi => exact h
    | alert => exact h
  · rw [StrategyParams.exitProblems, List.append_eq_nil_iff, List.append_eq_nil_iff,
      problem_eq_nil_iff, problem_eq_nil_iff, problem_eq_nil_iff]
    exact ⟨⟨hstop, htake⟩, htrail⟩

theorem accepted_of_drawn {kind : StrategyKind} (h : DrawnFor kind p)
    (hexits : p.exitProblems = []) : validateStrategyParams kind (some p) = [] := by
  cases kind with
  | sma => exact List.append_eq_nil_iff.mpr ⟨smaProblems_of_drawn h, hexits⟩
  | rsi => exact List.append_eq_nil_iff.mpr ⟨rsiProblems_of_drawn h, hexits⟩
  | alert => exact List.append_eq_nil_iff.mpr ⟨alertProblems_of_drawn h, hexits⟩

/-- A drawn strategy can trade unless the closes that are fetched are too few for its slow
    average. -/
theorem canTrade_of_drawn {kind : StrategyKind} (print toFixed1 : ℚ → String)
    (h : DrawnFor kind p) :
    CanTrade print toFixed1 kind (some p) ↔ (kind = .sma → p.slow ≤ 99) := by
  cases kind with
  | sma =>
    have hproblems : ((some p).getD {}).smaProblems = [] := smaProblems_of_drawn h
    have hsuits := (sma_of_accepted (smaProblems_of_drawn h)).2
    obtain ⟨fast, slow, ⟨hf, hs⟩, hfast, hslow⟩ := h
    have hfloor : p.fast = fast := by
      rw [StrategyParams.fast, hf]
      exact Int.floor_intCast fast
    have hfloor' : p.slow = slow := by
      rw [StrategyParams.slow, hs]
      exact Int.floor_intCast slow
    rw [canTrade_sma_iff hproblems, hsuits, hfloor, hfloor']
    constructor
    · exact fun h _ => h.2
    · exact fun h => ⟨by omega, h rfl⟩
  | rsi =>
    have hproblems : ((some p).getD {}).rsiProblems = [] := rsiProblems_of_drawn h
    obtain ⟨period, overbought, oversold, ⟨hp, hb, hs⟩, hperiod, -⟩ := h
    refine iff_of_true ((canTrade_rsi_iff hproblems).mpr ?_) fun hkind => by cases hkind
    rw [SuitsDefaults, Option.getD_some, hp, hb, hs]
    exact ⟨decide_eq_true (by exact_mod_cast hperiod.2.trans (by decide)), trivial⟩
  | alert =>
    have hproblems : ((some p).getD {}).alertProblems = [] := alertProblems_of_drawn h
    exact iff_of_true (canTrade_alert hproblems) fun hkind => by cases hkind

theorem always_drawSource (kind : StrategyKind) :
    Drawing.Always (fun source => source = "coingecko" → kind = .alert) (drawSource kind) := by
  cases kind with
  | alert => exact (always_pick _ _).weaken fun _ _ _ => rfl
  | sma => exact (always_pick _ _).weaken fun _ hmem heq => absurd (heq ▸ hmem) (by decide)
  | rsi => exact (always_pick _ _).weaken fun _ hmem heq => absurd (heq ▸ hmem) (by decide)

end Strategies

section Drawn

/-- The fields of a config that are no parameters of its strategy. -/
def otherFields (klineInterval : String) (priceEvent amount : ℤ) : List (String × Value) :=
  [("klineInterval", .str klineInterval), ("priceEventIntervalMs", .num priceEvent),
    ("autoTrade", .bool false), ("autoTradeAmountUsdt", .num amount)]

theorem ofFields_otherFields (klineInterval : String) (priceEvent amount : ℤ) (p : StrategyParams) :
    StrategyParams.ofFields (otherFields klineInterval priceEvent amount ++ p.entries) = p := by
  have hapart : ∀ name ∈ p.slots.map Prod.fst,
      name ∉ ["klineInterval", "priceEventIntervalMs", "autoTrade", "autoTradeAmountUsdt"] := by
    rw [p.map_fst_slots]
    decide
  refine ofFields_append fun e he => ?_
  exact hapart e.1 (List.mem_map_of_mem he)

/-- What is drawn for a config. -/
structure ConfigDraw where
  symbols : List String
  kind : StrategyKind
  source : String
  klineInterval : String
  pollInterval : ℤ
  maxOrderValueUsdt : ℤ
  autoTradeAmountUsdt : ℤ
  priceEventIntervalMs : ℤ
  params : StrategyParams
  symbols_subperm : symbols.Subperm symbolPool
  one_le : 1 ≤ symbols.length
  le_three : symbols.length ≤ 3
  source_kind : source = "coingecko" → kind = .alert
  poll_range : 15000 ≤ pollInterval ∧ pollInterval ≤ 120000
  max_range : 50 ≤ maxOrderValueUsdt ∧ maxOrderValueUsdt ≤ 500
  amount_range : 10 ≤ autoTradeAmountUsdt ∧ autoTradeAmountUsdt ≤ maxOrderValueUsdt
  drawn : DrawnFor kind params
  exits : params.exitProblems = []

def ConfigDraw.config (d : ConfigDraw) : CryptoConfig where
  symbols := d.symbols
  coinIds := d.symbols.map fun symbol => (poolId symbol).getD ""
  source := d.source
  strategy := d.kind.name
  strategyParams :=
    otherFields d.klineInterval d.priceEventIntervalMs d.autoTradeAmountUsdt ++ d.params.entries
  pollInterval := d.pollInterval.toNat
  maxOrderValueUsdt := d.maxOrderValueUsdt.toNat

theorem always_generateCryptoConfig :
    Drawing.Always (fun config => ∃ d : ConfigDraw, config = d.config) generateCryptoConfig := by
  refine (always_randInt (by decide)).bind fun count hcount => ?_
  refine (always_pickMany symbolPool _).bind fun symbols hsymbols => ?_
  refine (always_pick _ _).bind fun kind _ => ?_
  refine (always_drawSource kind).bind fun source hsource => ?_
  refine (always_pick _ _).bind fun klineInterval _ => ?_
  refine (always_randInt (by decide)).bind fun pollInterval hpoll => ?_
  refine (always_randInt (by decide)).bind fun maxOrder hmax => ?_
  refine (always_randInt (by omega)).bind fun amount hamount => ?_
  refine (always_randInt (by decide)).bind fun priceEvent _ => ?_
  refine (always_drawStrategy kind).bind fun drawn hdrawn => ?_
  refine (always_drawExits hdrawn).bind fun params hparams => ?_
  have hlength : symbols.length = count.toNat := by
    rw [hsymbols.2]
    show min count.toNat 20 = count.toNat
    omega
  refine Drawing.always_pure ⟨{
    symbols := symbols
    kind := kind
    source := source
    klineInterval := klineInterval
    pollInterval := pollInterval
    maxOrderValueUsdt := maxOrder
    autoTradeAmountUsdt := amount
    priceEventIntervalMs := priceEvent
    params := params
    symbols_subperm := hsymbols.1
    one_le := by omega
    le_three := by omega
    source_kind := hsource
    poll_range := hpoll
    max_range := hmax
    amount_range := hamount
    drawn := hparams.1
    exits := hparams.2 }, rfl⟩

end Drawn

section Sound

/-- What the checks and the other parts of the program ask of a config. -/
structure SoundConfig (config : CryptoConfig) : Prop where
  symbols : config.symbols.Subperm symbolPool
  count : 1 ≤ config.symbols.length ∧ config.symbols.length ≤ 3
  /-- The price feed takes the symbols, and would look up the same ids by itself. -/
  feed : ∃ feed, PriceFeed.ofOptions ⟨config.symbols, some config.coinIds⟩ = .ok feed ∧
    feed.symbols = config.symbols ∧
    PriceFeed.ids { feed with coinIds := none } = .ok config.coinIds
  strategy : ∃ kind : StrategyKind, config.strategy = kind.name ∧
    (config.source = "coingecko" → kind = .alert) ∧
    validateStrategyParams kind (some (.ofFields config.strategyParams)) = []
  autoTrade : Value.own config.strategyParams "autoTrade" = .bool false
  /-- The risk guard takes the orders of automatic trading. -/
  amount : ∃ amount : ℤ, Value.own config.strategyParams "autoTradeAmountUsdt" = .num amount ∧
    ∀ symbol ∈ config.symbols, ∀ hasKeys, ∃ plan,
      (RiskGuard.ofConfig ⟨.dry, config.maxOrderValueUsdt, hasKeys, config.symbols⟩).planMarketBuy
        symbol amount = .ok plan
  limits : 50 ≤ config.maxOrderValueUsdt ∧ config.maxOrderValueUsdt ≤ 500 ∧
    15000 ≤ config.pollInterval ∧ config.pollInterval ≤ 120000

theorem ConfigDraw.sound (d : ConfigDraw) : SoundConfig d.config where
  symbols := d.symbols_subperm
  count := ⟨d.one_le, d.le_three⟩
  feed := by
    have hne : d.symbols ≠ [] := List.ne_nil_of_length_pos d.one_le
    exact ⟨_, ofOptions_of_subperm d.symbols_subperm hne (List.length_map _), rfl,
      ids_of_subperm d.symbols_subperm _⟩
  strategy := by
    refine ⟨d.kind, rfl, d.source_kind, ?_⟩
    rw [ConfigDraw.config, ofFields_otherFields]
    exact accepted_of_drawn d.drawn d.exits
  autoTrade := rfl
  amount := by
    refine ⟨d.autoTradeAmountUsdt, rfl, fun symbol hmem hasKeys => ?_⟩
    have hrange := d.amount_range
    have hmax : ((d.maxOrderValueUsdt.toNat : ℕ) : ℤ) = d.maxOrderValueUsdt :=
      Int.toNat_of_nonneg (by omega)
    refine planMarketBuy_of_mem d.symbols_subperm hmem (Int.cast_pos.mpr (by omega)) ?_ hasKeys
    show (d.autoTradeAmountUsdt : ℚ) ≤ ((d.maxOrderValueUsdt.toNat : ℕ) : ℚ)
    have hle : d.autoTradeAmountUsdt ≤ ((d.maxOrderValueUsdt.toNat : ℕ) : ℤ) := by omega
    exact_mod_cast hle
  limits := by
    have hmax := d.max_range
    have hpoll := d.poll_range
    show 50 ≤ d.maxOrderValueUsdt.toNat ∧ d.maxOrderValueUsdt.toNat ≤ 500 ∧
      15000 ≤ d.pollInterval.toNat ∧ d.pollInterval.toNat ≤ 120000
    omega

end Sound

/-- **Every random config is sound**, whatever is drawn. -/
theorem generateCryptoConfig_sound (draws : ℕ → Chance) :
    SoundConfig (generateCryptoConfig.run draws).1 := by
  obtain ⟨d, hd⟩ := always_generateCryptoConfig draws
  rw [hd]
  exact d.sound

-- an average of a hundred and twenty closes is drawn, of which a hundred are fetched
example :
    let config := (generateCryptoConfig.run fun n =>
      if n = 20 then ⟨0, by decide⟩ else ⟨99 / 100, by decide +kernel⟩).1
    config.strategy = "sma" ∧ (StrategyParams.ofFields config.strategyParams).slow = 120 := by
  decide +kernel

end BotHive.Crypto
