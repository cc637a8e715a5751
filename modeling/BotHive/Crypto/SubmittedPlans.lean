import BotHive.Library.Separated
import BotHive.Crypto.SpendClaims

/-!
# Plans as they are submitted

The guard checks an amount as it is asked for and plans it rounded; `BinanceClient.order` refuses
amounts that are not positive and rounds once more. Rounding can take an amount to zero, and can
lift the value of an order above the limit that the amount was checked against.

## Main definitions

- `BinanceClient.order`: what the client sends for a request, or why it sends nothing
- `PlanRequest`, `RiskGuard.plan`: the three ways to ask for a plan
- `Executable`: the client sends the plan, with positive amounts and within the limit
- `PlanRequest.Fits`: what is asked for stays within its bounds when it is rounded

## Main results

- `toOption_order_request`: the client sends the amounts of `orderParams`
- `executable_iff`: a plan is executable exactly when what was asked for fits
-/

namespace BotHive.Crypto

/-- `^[a-zA-Z0-9_]{1,36}$` -/
def isClientOrderId (s : String) : Bool :=
  0 < s.toList.length && s.toList.length ≤ 36 && s.toList.all fun c => c.isAlphanum || c == '_'

/-- An id of the kind that `placeOrder` makes up for each order. -/
abbrev ClientOrderId := {s : String // s ≠ "" ∧ isClientOrderId (trimText s) = true}

structure BinanceClient.OrderRequest where
  symbol : String
  side : Side
  type : OrderType
  quantity : Option ℚ
  quoteOrderQty : Option ℚ
  price : Option ℚ
  clientOrderId : Option String

/-- Why the client refuses a request with `INVALID_PARAMS`. -/
inductive OrderError where
  | symbol
  | price
  | quantity
  | amount
  | clientOrderId
  deriving DecidableEq

def OrderError.text : OrderError → String
  | .symbol => "Order requires a symbol"
  | .price => "Limit order requires a positive price"
  | .quantity => "Limit order requires a positive quantity"
  | .amount => "Market order requires quantity or quoteOrderQty"
  | .clientOrderId => "clientOrderId must be 1-36 alphanumeric characters"

/-- What goes to the exchange. -/
structure SentOrder where
  symbol : String
  side : Side
  params : OrderParams
  newClientOrderId : Option String
  deriving DecidableEq

/-- The amounts of a request. -/
def BinanceClient.OrderRequest.params (req : BinanceClient.OrderRequest) :
    Except OrderError OrderParams :=
  match req.type with
  | .limit =>
    if req.price.getD 0 ≤ 0 then .error .price
    else if req.quantity.getD 0 ≤ 0 then .error .quantity
    else .ok (.limit (trim8 (req.price.getD 0)) (trim8 (req.quantity.getD 0)))
  | .market =>
    if 0 < req.quantity.getD 0 then .ok (.market (trim8 (req.quantity.getD 0)))
    else if 0 < req.quoteOrderQty.getD 0 then
      .ok (.marketQuote (trim2 (req.quoteOrderQty.getD 0)))
    else .error .amount

/-- The id of a request, where an empty one is none. -/
def BinanceClient.OrderRequest.newClientOrderId (req : BinanceClient.OrderRequest) :
    Except OrderError (Option String) :=
  match req.clientOrderId with
  | none => .ok none
  | some id =>
    if id = "" then .ok none
    else if isClientOrderId (trimText id) then .ok (some (trimText id))
    else .error .clientOrderId

/-- The request that `placeOrder` makes of a plan. -/
def OrderPlan.request (plan : OrderPlan) (id : ClientOrderId) : BinanceClient.OrderRequest where
  symbol := plan.symbol
  side := plan.side
  type := plan.type
  quantity := plan.quantity
  quoteOrderQty := plan.quoteOrderQty
  price := plan.price
  clientOrderId := some id.1

theorem newClientOrderId_request (plan : OrderPlan) (id : ClientOrderId) :
    (plan.request id).newClientOrderId = .ok (some (trimText id.1)) := by
  show (if id.1 = "" then _ else _) = _
  rw [if_neg id.2.1, if_pos id.2.2]

/-- The amounts that a request for a plan sends. -/
theorem toOption_params_request (plan : OrderPlan) (id : ClientOrderId) :
    (plan.request id).params.toOption = orderParams plan := by
  obtain ⟨symbol, side, type, quantity, quoteOrderQty, price, valueUsdt⟩ := plan
  cases type with
  | limit =>
    show (if price.getD 0 ≤ 0 then .error .price
      else if quantity.getD 0 ≤ 0 then .error .quantity
      else .ok (.limit (trim8 (price.getD 0)) (trim8 (quantity.getD 0))) :
        Except OrderError OrderParams).toOption = _
    cases price with
    | none => rfl
    | some price =>
      cases quantity with
      | none =>
        dsimp only [Option.getD_none]
        rw [if_pos le_rfl]
        split_ifs <;> rfl
      | some quantity =>
        rw [orderParams]
        dsimp only [Option.getD_some]
        by_cases hprice : price ≤ 0
        · rw [if_pos hprice, if_pos (Or.inl hprice)]
          rfl
        · by_cases hquantity : quantity ≤ 0
          · rw [if_neg hprice, if_pos hquantity, if_pos (Or.inr hquantity)]
            rfl
          · rw [if_neg hprice, if_neg hquantity, if_neg (not_or.mpr ⟨hprice, hquantity⟩)]
            rfl
  | market =>
    show (if 0 < quantity.getD 0 then .ok (.market (trim8 (quantity.getD 0)))
      else if 0 < quoteOrderQty.getD 0 then .ok (.marketQuote (trim2 (quoteOrderQty.getD 0)))
      else .error .amount : Except OrderError OrderParams).toOption = _
    rw [orderParams]
    dsimp only
    split_ifs <;> rfl

theorem trim8_pos_iff (x : ℚ) : 0 < trim8 x ↔ 1 / 2 ≤ x * 10 ^ 8 :=
  roundHalfUp_div_pos_iff (by norm_num) x

theorem trim2_pos_iff (x : ℚ) : 0 < trim2 x ↔ 1 / 2 ≤ x * 100 :=
  roundHalfUp_div_pos_iff (by norm_num) x

theorem trim2_le_iff (x m : ℚ) : trim2 x ≤ m ↔ x * 100 < ⌊m * 100⌋ + 1 / 2 := by
  have h := roundHalfUp_div_mul_le_iff (d := 100) (p := 1) (by norm_num) one_pos x m
  rwa [mul_one, div_one] at h

theorem trim8_mul_le_iff {p : ℚ} (hp : 0 < p) (x m : ℚ) :
    trim8 x * p ≤ m ↔ x * 10 ^ 8 < ⌊m * 10 ^ 8 / p⌋ + 1 / 2 :=
  roundHalfUp_div_mul_le_iff (by norm_num) hp x m

section Client

variable [CaseMapping]

/-- `BinanceClient.order` up to the call of the exchange. -/
def BinanceClient.order (req : BinanceClient.OrderRequest) : Except OrderError SentOrder :=
  if req.symbol = "" then .error .symbol
  else do
    let params ← req.params
    let id ← req.newClientOrderId
    return {
      symbol := toUpperCase req.symbol
      side := req.side
      params := params
      newClientOrderId := id }

open BinanceClient (order)

/-- What is asked of the guard. -/
inductive PlanRequest where
  | marketBuy (symbol : String) (price amountUsdt : ℚ)
  | marketSell (symbol : String) (price quantity : ℚ) (isExit : Bool)
  | limit (symbol : String) (side : Side) (price quantity : ℚ)

namespace PlanRequest

def symbol : PlanRequest → String
  | .marketBuy symbol _ _ | .marketSell symbol _ _ _ | .limit symbol _ _ _ => symbol

/-- The price that values a quantity. -/
def price : PlanRequest → ℚ
  | .marketBuy _ price _ | .marketSell _ price _ _ | .limit _ _ price _ => price

def isExit : PlanRequest → Bool
  | .marketSell _ _ _ isExit => isExit
  | .marketBuy .. | .limit .. => false

end PlanRequest

def RiskGuard.plan (guard : RiskGuard) : PlanRequest → Except PlanReason OrderPlan
  | .marketBuy symbol _ amountUsdt => guard.planMarketBuy symbol amountUsdt
  | .marketSell symbol price quantity isExit => guard.planMarketSell symbol price quantity isExit
  | .limit symbol side price quantity => guard.planLimit symbol side price quantity

/-- Every amount is positive. -/
def OrderParams.Positive : OrderParams → Prop
  | .limit price quantity => 0 < price ∧ 0 < quantity
  | .market quantity => 0 < quantity
  | .marketQuote quoteOrderQty => 0 < quoteOrderQty

/-- The client sends the plan as it is, with positive amounts and, if it closes no position,
    with a value within the limit. -/
def Executable (guard : RiskGuard) (req : PlanRequest) (plan : OrderPlan) : Prop :=
  ∀ id : ClientOrderId, ∃ sent, order (plan.request id) = .ok sent ∧ sent.params.Positive ∧
    (req.isExit = false → sent.params.value req.price ≤ guard.maxOrderValueUsdt)

/-- There is a symbol, no amount is below half of its smallest part, and the amount that the
    limit bounds is less than half a part above the whole parts that the limit allows. -/
def PlanRequest.Fits (guard : RiskGuard) (req : PlanRequest) : Prop :=
  toUpperCase req.symbol ≠ "" ∧
    match req with
    | .marketBuy _ _ amountUsdt =>
      1 / 2 ≤ amountUsdt * 100 ∧ amountUsdt * 100 < ⌊guard.maxOrderValueUsdt * 100⌋ + 1 / 2
    | .marketSell _ price quantity isExit =>
      1 / 2 ≤ quantity * 10 ^ 8 ∧
        (isExit = false → quantity * 10 ^ 8 < ⌊guard.maxOrderValueUsdt * 10 ^ 8 / price⌋ + 1 / 2)
    | .limit _ _ price quantity =>
      1 / 2 ≤ price * 10 ^ 8 ∧ 1 / 2 ≤ quantity * 10 ^ 8 ∧
        quantity * 10 ^ 8 <
          ⌊guard.maxOrderValueUsdt * 10 ^ 16 / roundHalfUp (price * 10 ^ 8)⌋ + 1 / 2

variable {guard : RiskGuard} {req : PlanRequest} {plan : OrderPlan}

/-- The client sends the amounts of `orderParams`, or nothing. -/
theorem toOption_order_request (plan : OrderPlan) (id : ClientOrderId) :
    (order (plan.request id)).toOption.map SentOrder.params =
      if plan.symbol = "" then none else orderParams plan := by
  rw [order]
  show Option.map _ (Except.toOption (if plan.symbol = "" then _ else _)) = _
  split_ifs with hsymbol
  · rfl
  · rw [newClientOrderId_request, ← toOption_params_request plan id]
    cases (plan.request id).params with
    | error e => rfl
    | ok params => rfl

/-- An id that a request can carry. -/
def someClientOrderId : ClientOrderId :=
  ⟨"bh", by decide⟩

theorem executable_iff_orderParams : Executable guard req plan ↔
    plan.symbol ≠ "" ∧ ∃ params, orderParams plan = some params ∧ params.Positive ∧
      (req.isExit = false → params.value req.price ≤ guard.maxOrderValueUsdt) := by
  constructor
  · intro h
    obtain ⟨sent, hsent, hpos, hvalue⟩ := h someClientOrderId
    have hparams := toOption_order_request plan someClientOrderId
    rw [hsent] at hparams
    split_ifs at hparams with hsymbol
    · cases hparams
    · exact ⟨hsymbol, sent.params, hparams.symm, hpos, hvalue⟩
  · rintro ⟨hsymbol, params, hparams, hpos, hvalue⟩ id
    have horder := toOption_order_request plan id
    rw [if_neg hsymbol, hparams] at horder
    cases hsent : order (plan.request id) with
    | error e =>
      rw [hsent] at horder
      cases horder
    | ok sent =>
      rw [hsent] at horder
      obtain rfl : sent.params = params := Option.some.inj horder
      exact ⟨sent, rfl, hpos, hvalue⟩

theorem executable_marketBuy_iff {symbol : String} {price amountUsdt : ℚ}
    (h : guard.planMarketBuy symbol amountUsdt = .ok plan) :
    Executable guard (.marketBuy symbol price amountUsdt) plan ↔
      (PlanRequest.marketBuy symbol price amountUsdt).Fits guard := by
  rw [executable_iff_orderParams, PlanRequest.Fits, ← trim2_le_iff, ← trim2_pos_iff]
  rw [RiskGuard.planMarketBuy] at h
  split_ifs at h
  cases h
  refine and_congr Iff.rfl ?_
  rw [orderParams]
  dsimp only [Option.getD_none, Option.getD_some]
  rw [if_neg (lt_irrefl 0), trim2_trim2]
  constructor
  · rintro ⟨params, hparams, hpos, hvalue⟩
    split_ifs at hparams
    cases hparams
    exact ⟨hpos, hvalue rfl⟩
  · rintro ⟨hpos, hvalue⟩
    exact ⟨_, if_pos hpos, hpos, fun _ => hvalue⟩

theorem executable_marketSell_iff {symbol : String} {price quantity : ℚ} {isExit : Bool}
    (h : guard.planMarketSell symbol price quantity isExit = .ok plan) :
    Executable guard (.marketSell symbol price quantity isExit) plan ↔
      (PlanRequest.marketSell symbol price quantity isExit).Fits guard := by
  rw [RiskGuard.planMarketSell] at h
  split_ifs at h with _ hprice
  cases h
  rw [executable_iff_orderParams, PlanRequest.Fits, ← trim8_mul_le_iff (not_le.mp hprice),
    ← trim8_pos_iff]
  refine and_congr Iff.rfl ?_
  rw [orderParams]
  dsimp only [Option.getD_none, Option.getD_some]
  rw [trim8_trim8, if_neg (lt_irrefl 0)]
  constructor
  · rintro ⟨params, hparams, hpos, hvalue⟩
    split_ifs at hparams
    cases hparams
    exact ⟨hpos, hvalue⟩
  · rintro ⟨hpos, hvalue⟩
    exact ⟨_, if_pos hpos, hpos, hvalue⟩

theorem executable_limit_iff {symbol : String} {side : Side} {price quantity : ℚ}
    (h : guard.planLimit symbol side price quantity = .ok plan) :
    Executable guard (.limit symbol side price quantity) plan ↔
      (PlanRequest.limit symbol side price quantity).Fits guard := by
  rw [RiskGuard.planLimit] at h
  split_ifs at h
  cases h
  rw [executable_iff_orderParams, PlanRequest.Fits, ← trim8_pos_iff, ← trim8_pos_iff]
  refine and_congr Iff.rfl ?_
  rw [orderParams]
  dsimp only
  rw [trim8_trim8, trim8_trim8]
  have hparts : guard.maxOrderValueUsdt * 10 ^ 8 / trim8 price =
      guard.maxOrderValueUsdt * 10 ^ 16 / roundHalfUp (price * 10 ^ 8) := by
    rw [trim8, div_div_eq_mul_div, mul_assoc, ← pow_add]
  rw [← hparts]
  constructor
  · rintro ⟨params, hparams, hpos, hvalue⟩
    split_ifs at hparams
    cases hparams
    exact ⟨hpos.1, hpos.2, (trim8_mul_le_iff hpos.1 _ _).mp (hvalue rfl)⟩
  · rintro ⟨hprice, hquantity, hlt⟩
    exact ⟨_, if_neg (not_or.mpr ⟨hprice.not_ge, hquantity.not_ge⟩), ⟨hprice, hquantity⟩,
      fun _ => (trim8_mul_le_iff hprice _ _).mpr hlt⟩

/-- A plan is executable exactly when what was asked for stays within its bounds when it is
    rounded. -/
theorem executable_iff (config : RiskConfig) (req : PlanRequest) (plan : OrderPlan)
    (h : (RiskGuard.ofConfig config).plan req = .ok plan) :
    Executable (RiskGuard.ofConfig config) req plan ↔ req.Fits (RiskGuard.ofConfig config) := by
  cases req with
  | marketBuy symbol price amountUsdt => exact executable_marketBuy_iff h
  | marketSell symbol price quantity isExit => exact executable_marketSell_iff h
  | limit symbol side price quantity => exact executable_limit_iff h

end Client

instance [CaseMapping] (guard : RiskGuard) (req : PlanRequest) : Decidable (req.Fits guard) :=
  match req with
  | .marketBuy .. | .marketSell .. | .limit .. => inferInstanceAs (Decidable (_ ∧ _))

/-- A dry-run bot with this limit. -/
def dryConfig (maxOrderValueUsdt : ℚ) : RiskConfig where
  tradeMode := .dry
  maxOrderValueUsdt := maxOrderValueUsdt
  hasKeys := false
  allowedSymbols := []

/-- A buy for fifty is executable. -/
theorem executable_buyFifty :
    Executable (RiskGuard.ofConfig (dryConfig 100)) (.marketBuy "BTCUSDT" 1 50)
      ⟨"BTCUSDT", .buy, .market, none, some 50, none, 50⟩ :=
  (executable_iff (dryConfig 100) (.marketBuy "BTCUSDT" 1 50) _ (by decide +kernel)).mpr
    (by decide +kernel)

/-- A buy for less than half a cent is planned for nothing, and a buy up to a limit of less than
    whole cents is planned above it. -/
theorem not_executable_rounded :
    ((RiskGuard.ofConfig (dryConfig 100)).plan (.marketBuy "BTCUSDT" 1 (1 / 250)) =
        .ok ⟨"BTCUSDT", .buy, .market, none, some 0, none, 1 / 250⟩ ∧
      ¬ Executable (RiskGuard.ofConfig (dryConfig 100)) (.marketBuy "BTCUSDT" 1 (1 / 250))
        ⟨"BTCUSDT", .buy, .market, none, some 0, none, 1 / 250⟩) ∧
    ((RiskGuard.ofConfig (dryConfig (10006 / 1000))).plan
        (.marketBuy "BTCUSDT" 1 (10006 / 1000)) =
        .ok ⟨"BTCUSDT", .buy, .market, none, some (1001 / 100), none, 10006 / 1000⟩ ∧
      ¬ Executable (RiskGuard.ofConfig (dryConfig (10006 / 1000)))
        (.marketBuy "BTCUSDT" 1 (10006 / 1000))
        ⟨"BTCUSDT", .buy, .market, none, some (1001 / 100), none, 10006 / 1000⟩) := by
  refine ⟨⟨by decide +kernel, fun h => ?_⟩, ⟨by decide +kernel, fun h => ?_⟩⟩
  · obtain ⟨-, params, hparams, -⟩ := executable_iff_orderParams.mp h
    rw [show orderParams _ = none by decide] at hparams
    cases hparams
  · obtain ⟨-, params, hparams, -, hvalue⟩ := executable_iff_orderParams.mp h
    rw [show orderParams _ = some (.marketQuote (1001 / 100)) by decide +kernel] at hparams
    cases hparams
    exact absurd (hvalue rfl) (by decide +kernel)

end BotHive.Crypto
