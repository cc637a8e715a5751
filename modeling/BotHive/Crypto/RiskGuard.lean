import BotHive.Library.Numeric
import BotHive.Crypto.Ledger

/-!
# The risk guard

Every order of a bot begins as a plan of its risk guard, which refuses symbols
outside the allowed list, amounts that are not positive, and orders above the limit
of the bot. A plan carries the amounts rounded as the exchange takes them.

## Main definitions

- `OrderPlan`: an order to place
- `RiskGuard.planMarketBuy`, `planMarketSell`, `planLimit`: the plans
- `RiskGuard.Plans`: some guard has made the plan
-/

namespace BotHive.Crypto

inductive TradeMode where
  | dry
  | live
  deriving DecidableEq

structure OrderPlan where
  symbol : String
  side : Side
  type : OrderType
  quantity : Option ℚ
  quoteOrderQty : Option ℚ
  price : Option ℚ
  valueUsdt : ℚ
  deriving DecidableEq

/-- Why the guard refuses an order. -/
inductive PlanReason where
  | notAllowed (symbol : String)
  | amount
  | amountAboveMax (amountUsdt max : ℚ)
  | price
  | limitPrice
  | quantity
  | valueAboveMax (value max : ℚ)
  | keys
  deriving DecidableEq

/-- The text of a reason, for the two ways in which the source prints numbers. -/
def PlanReason.text (print toFixed2 : ℚ → String) : PlanReason → String
  | .notAllowed symbol => "Symbol " ++ symbol ++ " is not in the bot's allowed list"
  | .amount => "amountUsdt must be a positive number"
  | .amountAboveMax amountUsdt max =>
    "Order value " ++ print amountUsdt ++ " USDT exceeds max " ++ print max ++ " USDT"
  | .price => "price must be a positive number"
  | .limitPrice => "price must be a positive number below 1,000,000"
  | .quantity => "quantity must be a positive number"
  | .valueAboveMax value max =>
    "Order value " ++ toFixed2 value ++ " USDT exceeds max " ++ print max ++ " USDT"
  | .keys => "Live trading requires Binance API keys (apiKey + secret) on the account"

/-- Eight decimals. -/
def trim8 (value : ℚ) : ℚ :=
  roundHalfUp (value * 10 ^ 8) / 10 ^ 8

/-- Two decimals. -/
def trim2 (value : ℚ) : ℚ :=
  roundHalfUp (value * 100) / 100

/-- Rounding to a number of decimals twice changes nothing. -/
theorem roundHalfUp_div_mul {d : ℚ} (hd : d ≠ 0) (x : ℚ) :
    (roundHalfUp ((roundHalfUp (x * d) : ℚ) / d * d) : ℚ) / d = roundHalfUp (x * d) / d := by
  rw [div_mul_cancel₀ _ hd, roundHalfUp_intCast]

@[simp] theorem trim8_trim8 (x : ℚ) : trim8 (trim8 x) = trim8 x :=
  roundHalfUp_div_mul (by norm_num) x

@[simp] theorem trim2_trim2 (x : ℚ) : trim2 (trim2 x) = trim2 x :=
  roundHalfUp_div_mul (by norm_num) x

structure RiskConfig where
  tradeMode : TradeMode
  maxOrderValueUsdt : ℚ
  hasKeys : Bool
  /-- Symbols that may be traded; any symbol when empty. -/
  allowedSymbols : List String

def defaultMaxOrderUsdt : ℚ := 100

def maxPrice : ℚ := 1000000

/-- A configuration as the constructor stores it. -/
structure RiskGuard where
  tradeMode : TradeMode
  maxOrderValueUsdt : ℚ
  hasKeys : Bool
  allowedSymbols : List String

namespace RiskGuard

variable [CaseMapping]

def ofConfig (config : RiskConfig) : RiskGuard where
  tradeMode := config.tradeMode
  maxOrderValueUsdt :=
    if 0 < config.maxOrderValueUsdt then config.maxOrderValueUsdt else defaultMaxOrderUsdt
  hasKeys := config.hasKeys
  allowedSymbols := (config.allowedSymbols.filter (· ≠ "")).map toUpperCase

def allowed (guard : RiskGuard) (symbol : String) : Bool :=
  guard.allowedSymbols.isEmpty || decide (toUpperCase symbol ∈ guard.allowedSymbols)

def planMarketBuy (guard : RiskGuard) (symbol : String) (amountUsdt : ℚ) :
    Except PlanReason OrderPlan :=
  if guard.allowed symbol = false then .error (.notAllowed symbol)
  else if amountUsdt ≤ 0 then .error .amount
  else if guard.maxOrderValueUsdt < amountUsdt then
    .error (.amountAboveMax amountUsdt guard.maxOrderValueUsdt)
  else if guard.tradeMode = .live ∧ guard.hasKeys = false then .error .keys
  else
    .ok {
      symbol := toUpperCase symbol
      side := .buy
      type := .market
      quantity := none
      quoteOrderQty := some (trim2 amountUsdt)
      price := none
      valueUsdt := amountUsdt }

def planMarketSell (guard : RiskGuard) (symbol : String) (price quantity : ℚ) (isExit : Bool) :
    Except PlanReason OrderPlan :=
  if guard.allowed symbol = false then .error (.notAllowed symbol)
  else if price ≤ 0 then .error .price
  else if quantity ≤ 0 then .error .quantity
  -- closing a position is never blocked by the limit of the bot
  else if isExit = false ∧ guard.maxOrderValueUsdt < quantity * price then
    .error (.valueAboveMax (quantity * price) guard.maxOrderValueUsdt)
  else if guard.tradeMode = .live ∧ guard.hasKeys = false then .error .keys
  else
    .ok {
      symbol := toUpperCase symbol
      side := .sell
      type := .market
      quantity := some (trim8 quantity)
      quoteOrderQty := none
      price := none
      valueUsdt := quantity * price }

def planLimit (guard : RiskGuard) (symbol : String) (side : Side) (price quantity : ℚ) :
    Except PlanReason OrderPlan :=
  if guard.allowed symbol = false then .error (.notAllowed symbol)
  else if price ≤ 0 ∨ maxPrice < price then .error .limitPrice
  else if quantity ≤ 0 then .error .quantity
  else if guard.maxOrderValueUsdt < price * quantity then
    .error (.valueAboveMax (price * quantity) guard.maxOrderValueUsdt)
  else if guard.tradeMode = .live ∧ guard.hasKeys = false then .error .keys
  else
    .ok {
      symbol := toUpperCase symbol
      side := side
      type := .limit
      quantity := some (trim8 quantity)
      quoteOrderQty := none
      price := some (trim8 price)
      valueUsdt := price * quantity }

/-- Some guard has made the plan. -/
inductive Plans : OrderPlan → Prop where
  | marketBuy {guard : RiskGuard} {symbol : String} {amountUsdt : ℚ} {plan : OrderPlan}
      (h : guard.planMarketBuy symbol amountUsdt = .ok plan) : Plans plan
  | marketSell {guard : RiskGuard} {symbol : String} {price quantity : ℚ} {isExit : Bool}
      {plan : OrderPlan} (h : guard.planMarketSell symbol price quantity isExit = .ok plan) :
      Plans plan
  | limit {guard : RiskGuard} {symbol : String} {side : Side} {price quantity : ℚ}
      {plan : OrderPlan} (h : guard.planLimit symbol side price quantity = .ok plan) : Plans plan

end RiskGuard

end BotHive.Crypto
