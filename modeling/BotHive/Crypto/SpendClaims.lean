import BotHive.Crypto.LiveOrders

/-!
# What a claim covers

The value of an order, the part of it that has filled, and the refund of the rest: for
the plans of the risk guard the bot counts them as the exchange does, up to rounding to
cents.

## Main definitions

- `ExchangeOrder.value`, `filledValue`, `exposure`: what an order may still cost
- `BuyParams`: the requests that buy plans of the guard lead to
- `Covered`: the claim of a plan covers its order

## Main results

- `buyParams_of_plans`: the guard makes such plans only
- `unfilledValue_trackedOrder`: the refund of a tracked order is the value that its
  executed quantity leaves over
-/

namespace BotHive.Crypto

open LiveState

/-- The value of what is ordered; `reference` is the price that values a quantity
    without a limit price. -/
def OrderParams.value (reference : ℚ) : OrderParams → ℚ
  | .limit price quantity => quantity * price
  | .market quantity => quantity * reference
  | .marketQuote quoteOrderQty => quoteOrderQty

/-- The value at which the bot counts an executed quantity. -/
def OrderParams.valueAt (reference qty : ℚ) : OrderParams → ℚ
  | .limit price _ => qty * price
  | .market _ | .marketQuote _ => qty * reference

namespace ExchangeOrder

def value (order : ExchangeOrder) : ℚ :=
  order.params.value order.reference

/-- The value of what has been executed. -/
def filledValue (order : ExchangeOrder) : ℚ :=
  match order.params with
  | .limit price _ => order.report.executedQty * price
  | .market _ => order.report.executedQty * order.reference
  | .marketQuote _ => order.report.cummulativeQuoteQty

/-- The value of the part that is known never to fill. -/
def neverFilled (order : ExchangeOrder) : ℚ :=
  if order.report.status.final then order.value - order.filledValue else 0

/-- What the order has cost or may still cost. -/
def exposure (order : ExchangeOrder) : ℚ :=
  order.value - order.neverFilled

end ExchangeOrder

/-- The request of a buy plan of the guard: its amounts are those of the plan. -/
inductive BuyParams (plan : OrderPlan) : OrderParams → Prop
  | limit {price quantity : ℚ} (htype : plan.type = .limit) (hprice : plan.price = some price)
    (hquantity : plan.quantity = some quantity) (hpos : 0 < price) :
    BuyParams plan (.limit price quantity)
  | market {quote : ℚ} (htype : plan.type = .market) (hprice : plan.price = none)
    (hquantity : plan.quantity = none) (hquote : plan.quoteOrderQty = some quote) :
    BuyParams plan (.marketQuote quote)

/-- A market buy of the guard claims what it orders. -/
theorem trim2_le_toCents (x : ℚ) : 100 * trim2 x ≤ toCents x := by
  have hround : 100 * trim2 x = roundHalfUp (x * 100) := by
    rw [trim2]
    ring
  rw [hround, toCents]
  exact_mod_cast le_max_right 1 (roundHalfUp (x * 100))

/-- The buy plans of the guard. -/
theorem buyParams_of_plans [CaseMapping] {plan : OrderPlan} (h : RiskGuard.Plans plan)
    (hbuy : plan.side = .buy) : 0 < plan.valueUsdt ∧
      ∀ params, orderParams plan = some params → BuyParams plan params ∧
        (plan.type = .market → 100 * params.value 0 ≤ toCents plan.valueUsdt) := by
  cases h with
  | @marketBuy guard symbol amountUsdt _ h =>
    rw [RiskGuard.planMarketBuy] at h
    split_ifs at h with h1 hamount
    cases h
    refine ⟨not_le.mp hamount, fun params hparams => ?_⟩
    rw [orderParams] at hparams
    dsimp only [Option.getD_none, Option.getD_some] at hparams
    rw [if_neg (lt_irrefl 0), trim2_trim2] at hparams
    split_ifs at hparams
    cases hparams
    exact ⟨.market rfl rfl rfl rfl, fun _ => trim2_le_toCents amountUsdt⟩
  | marketSell h =>
    rw [RiskGuard.planMarketSell] at h
    split_ifs at h
    cases h
    cases hbuy
  | @limit guard symbol side price quantity _ h =>
    rw [RiskGuard.planLimit] at h
    split_ifs at h with h1 hprice hquantity
    cases h
    have hprice : 0 < price := not_le.mp fun hle => hprice (Or.inl hle)
    refine ⟨mul_pos hprice (not_le.mp hquantity), fun params hparams => ?_⟩
    rw [orderParams] at hparams
    dsimp only at hparams
    rw [trim8_trim8, trim8_trim8] at hparams
    split_ifs at hparams with hpos
    cases hparams
    have htrim : 0 < trim8 price := not_le.mp fun hle => hpos (Or.inl hle)
    exact ⟨.limit rfl rfl rfl htrim, nofun⟩

/-- For a buy, a positive value is claimed, and up to half a cent it covers the order. -/
def Covered (plan : OrderPlan) (price : ℚ) : Prop :=
  plan.side = .buy → 0 < plan.valueUsdt ∧ ∀ params, orderParams plan = some params →
    BuyParams plan params ∧ 100 * params.value price ≤ toCents plan.valueUsdt + 1 / 2

/-- The value of a limit order as it is sent exceeds the claimed value by half a cent at
    most. -/
def LimitCovered (plan : OrderPlan) : Prop :=
  ∀ price quantity, plan.type = .limit → plan.price = some price →
    plan.quantity = some quantity →
      100 * (quantity * price) ≤ toCents plan.valueUsdt + 1 / 2

theorem covered_of_plans [CaseMapping] {plan : OrderPlan} (h : RiskGuard.Plans plan)
    (hlimit : plan.side = .buy → LimitCovered plan) (price : ℚ) : Covered plan price := by
  intro hbuy
  obtain ⟨hvalue, hparams⟩ := buyParams_of_plans h hbuy
  refine ⟨hvalue, fun params horder => ?_⟩
  obtain ⟨hbuyParams, hmarket⟩ := hparams params horder
  refine ⟨hbuyParams, ?_⟩
  cases hbuyParams with
  | limit htype hprice hquantity hpos => exact hlimit hbuy _ _ htype hprice hquantity
  | market htype hprice hquantity hquote =>
    have hcents := hmarket htype
    simp only [OrderParams.value] at hcents ⊢
    linarith

section Refund

variable {plan : OrderPlan} {price : ℚ} {params : OrderParams}

/-- What `refundUnfilled` refunds is what the executed quantity leaves of the value. -/
theorem unfilledValue_trackedOrder (h : BuyParams plan params) {id : String} {orderId now : ℕ}
    {qty value : ℚ}
    (hvalue : unfilledValue (trackedOrder id plan price orderId now) qty = some value) :
    value = params.value price - params.valueAt price qty ∧ 1 ≤ roundHalfUp (value * 100) := by
  rw [unfilledValue] at hvalue
  split_ifs at hvalue with hbuy hrest hcent
  cases hvalue
  refine ⟨?_, not_lt.mp hcent⟩
  have hmax : max 0 ((trackedOrder id plan price orderId now).quantity - qty) =
      (trackedOrder id plan price orderId now).quantity - qty := by
    rcases max_choice 0 ((trackedOrder id plan price orderId now).quantity - qty) with hzero | hself
    · exact absurd hzero.le hrest
    · exact hself
  rw [hmax]
  cases h with
  | limit htype hprice hquantity hpos =>
    simp only [trackedOrder, hprice, hquantity, Option.getD_some, OrderParams.value,
      OrderParams.valueAt]
    ring
  | market htype hprice hquantity hquote =>
    have hne : price ≠ 0 := by
      intro hzero
      exact hbuy (Or.inr (by simp [trackedOrder, hprice, hzero]))
    simp only [trackedOrder, hprice, hquantity, hquote, Option.getD_some, Option.getD_none,
      OrderParams.value, OrderParams.valueAt]
    rw [sub_mul, div_mul_cancel₀ _ hne]

/-- Only a buy is refunded. -/
theorem side_of_unfilledValue {order : TrackedOrder} {qty value : ℚ}
    (h : unfilledValue order qty = some value) : order.side = .buy := by
  rw [unfilledValue] at h
  split_ifs at h with hnone
  exact not_not.mp fun hside => hnone (Or.inl hside)

/-- A market order is tracked at its reference price. -/
theorem price_trackedOrder {plan : OrderPlan} {params : OrderParams} (h : BuyParams plan params)
    (htype : plan.type = .market) (id : String) (price : ℚ) (orderId now : ℕ) :
    (trackedOrder id plan price orderId now).price.getD 0 = price := by
  cases h with
  | limit hlimit hprice hquantity hpos =>
    rw [hlimit] at htype
    cases htype
  | market hmarket hprice hquantity hquote =>
    rw [trackedOrder, hprice, Option.getD_some, Option.getD_none]

/-- An amount of at least a cent rounds up by half a cent at most. -/
theorem toCents_le {x : ℚ} (h : 1 ≤ roundHalfUp (x * 100)) : (toCents x : ℚ) ≤ 100 * x + 1 / 2 := by
  rw [toCents, max_eq_right h]
  have hround := roundHalfUp_le (x * 100)
  linarith

theorem one_le_toCents (x : ℚ) : 1 ≤ toCents x :=
  le_max_left 1 _

end Refund

namespace ExchangeOrder

variable {order : ExchangeOrder} {plan : OrderPlan}

/-- What is executed is worth no more than the order. -/
theorem filledValue_le_value (h : BuyParams plan order.params)
    (hfits : Fits order.params order.report) : order.filledValue ≤ order.value := by
  rw [filledValue, value]
  cases hparams : order.params with
  | limit price quantity =>
    rw [hparams] at h hfits
    cases h with
    | limit htype hprice hquantity hpos => exact mul_le_mul_of_nonneg_right hfits.1 hpos.le
  | market quantity =>
    rw [hparams] at h
    cases h
  | marketQuote quote =>
    rw [hparams] at hfits
    exact hfits

theorem exposure_le_value (h : BuyParams plan order.params)
    (hfits : Fits order.params order.report) : order.exposure ≤ order.value := by
  have hfilled := filledValue_le_value h hfits
  rw [exposure, neverFilled]
  split_ifs <;> linarith

theorem exposure_of_final (h : order.report.status.final = true) :
    order.exposure = order.filledValue := by
  rw [exposure, neverFilled, if_pos h]
  ring

/-- The bot counts no less for what is executed than it has cost, if a market order has
    cost no more than at its reference price. -/
theorem filledValue_le_valueAt (h : BuyParams plan order.params)
    (hmarket : plan.type = .market →
      order.report.cummulativeQuoteQty ≤ order.report.executedQty * order.reference) :
    order.filledValue ≤ order.params.valueAt order.reference order.report.executedQty := by
  rw [filledValue]
  cases hparams : order.params with
  | limit price quantity => exact le_rfl
  | market quantity => exact le_rfl
  | marketQuote quote =>
    rw [hparams] at h
    cases h with
    | market htype hprice hquantity hquote => exact hmarket htype

end ExchangeOrder

end BotHive.Crypto
