import BotHive.Crypto.RiskGuard

/-!
# Orders at the exchange

An order that the exchange has accepted moves between NEW and PARTIALLY_FILLED until
it is FILLED, CANCELED or EXPIRED; what is executed never decreases and never exceeds
what was ordered.

## Main definitions

- `OrderParams`, `orderParams`: what a request asks for
- `OrderReport`: status and executed amounts, as every answer about an order has them
- `ExchangeOrder.Admits`: the next reports of an order
- `Forward`: no order is lost, and a final order stays as it is
-/

namespace BotHive.Crypto

inductive OrderStatus where
  | new
  | partiallyFilled
  | filled
  | canceled
  | expired
  deriving DecidableEq

/-- The order has left the book. -/
def OrderStatus.final : OrderStatus → Bool
  | .new | .partiallyFilled => false
  | .filled | .canceled | .expired => true

/-- The amounts of a request as they are sent. -/
inductive OrderParams where
  | limit (price quantity : ℚ)
  | market (quantity : ℚ)
  | marketQuote (quoteOrderQty : ℚ)
  deriving DecidableEq

/-- The amounts that `order` sends for a plan, none when it refuses to send them. -/
def orderParams (plan : OrderPlan) : Option OrderParams :=
  match plan.type with
  | .limit =>
    match plan.price, plan.quantity with
    | some price, some quantity =>
      if price ≤ 0 ∨ quantity ≤ 0 then none else some (.limit (trim8 price) (trim8 quantity))
    | _, _ => none
  | .market =>
    if 0 < plan.quantity.getD 0 then some (.market (trim8 (plan.quantity.getD 0)))
    else if 0 < plan.quoteOrderQty.getD 0 then
      some (.marketQuote (trim2 (plan.quoteOrderQty.getD 0)))
    else none

structure OrderReport where
  orderId : ℕ
  price : ℚ
  status : OrderStatus
  executedQty : ℚ
  cummulativeQuoteQty : ℚ
  executed_nonneg : 0 ≤ executedQty
  quote_nonneg : 0 ≤ cummulativeQuoteQty
  quote_eq_zero : executedQty = 0 → cummulativeQuoteQty = 0

section OneCoin

/-! The fields of a report of one coin that was traded for a hundred. -/

theorem OrderReport.one_nonneg : (0 : ℚ) ≤ 1 := by decide

theorem OrderReport.hundred_nonneg : (0 : ℚ) ≤ 100 := by decide

theorem OrderReport.hundred_eq_zero : (1 : ℚ) = 0 → (100 : ℚ) = 0 := by decide

end OneCoin

structure ExchangeOrder where
  side : Side
  params : OrderParams
  /-- When the exchange has accepted the order, in milliseconds. -/
  acceptedAt : ℕ
  /-- The price of the symbol for which the bot has placed the order. -/
  reference : ℚ
  report : OrderReport

namespace ExchangeOrder

/-- A report that executes at most the ordered quantity, and all of it when FILLED. -/
def FitsQuantity (quantity : ℚ) (report : OrderReport) : Prop :=
  report.executedQty ≤ quantity ∧ (report.status = .filled → report.executedQty = quantity)

/-- A report that stays within what is ordered. -/
def Fits (params : OrderParams) (report : OrderReport) : Prop :=
  match params with
  | .limit _ quantity | .market quantity => FitsQuantity quantity report
  | .marketQuote quote => report.cummulativeQuoteQty ≤ quote

/-- A report that the exchange may give after the current one. -/
def Admits (order : ExchangeOrder) (report : OrderReport) : Prop :=
  order.report.status.final = false ∧ Fits order.params report ∧
    order.report.executedQty ≤ report.executedQty ∧
    order.report.cummulativeQuoteQty ≤ report.cummulativeQuoteQty

instance (quantity : ℚ) (report : OrderReport) : Decidable (FitsQuantity quantity report) :=
  inferInstanceAs (Decidable (_ ∧ _))

instance (params : OrderParams) (report : OrderReport) : Decidable (Fits params report) :=
  match params with
  | .limit _ quantity | .market quantity =>
    inferInstanceAs (Decidable (FitsQuantity quantity report))
  | .marketQuote quote => inferInstanceAs (Decidable (report.cummulativeQuoteQty ≤ quote))

instance (order : ExchangeOrder) (report : OrderReport) : Decidable (order.Admits report) :=
  inferInstanceAs (Decidable (_ ∧ _))

def isOpen (order : ExchangeOrder) : Bool :=
  !order.report.status.final

/-- The order with a new report. -/
def withReport (order : ExchangeOrder) (report : OrderReport) : ExchangeOrder :=
  { order with report := report }

def cancel (order : ExchangeOrder) : ExchangeOrder :=
  order.withReport { order.report with status := .canceled }

end ExchangeOrder

/-- A canceled order has executed no more than before. -/
theorem fits_cancel {params : OrderParams} {report : OrderReport}
    (h : ExchangeOrder.Fits params report) :
    ExchangeOrder.Fits params { report with status := .canceled } := by
  cases params with
  | limit price quantity => exact ⟨h.1, nofun⟩
  | market quantity => exact ⟨h.1, nofun⟩
  | marketQuote quote => exact h

/-- Orders by client order id: none is lost, an order changes by new reports only, and a
    final order stays as it is. -/
def Forward (before after : String → Option ExchangeOrder) : Prop :=
  ∀ id order, before id = some order → ∃ report,
    after id = some (order.withReport report) ∧
      (order.report.status.final = true → report = order.report)

/-- The exchange accepts an order under a new id. -/
theorem forward_accept {orders : String → Option ExchangeOrder} {id : String}
    (h : orders id = none) (order : ExchangeOrder) :
    Forward orders (Function.update orders id (some order)) := by
  intro j old hold
  have hj : j ≠ id := by
    rintro rfl
    rw [h] at hold
    cases hold
  exact ⟨old.report, by rw [Function.update_of_ne hj, hold]; rfl, fun _ => rfl⟩

/-- An order that is not final gets a new report. -/
theorem forward_report {orders : String → Option ExchangeOrder} {id : String}
    {order : ExchangeOrder} (h : orders id = some order)
    (hopen : order.report.status.final = false) (report : OrderReport) :
    Forward orders (Function.update orders id (some (order.withReport report))) := by
  intro j old hold
  by_cases hj : j = id
  · subst hj
    cases h.symm.trans hold
    refine ⟨report, Function.update_self .., fun hfinal => ?_⟩
    rw [hopen] at hfinal
    cases hfinal
  · exact ⟨old.report, by rw [Function.update_of_ne hj, hold]; rfl, fun _ => rfl⟩

/-- The report is of an order that the exchange knows, and up to date if it is final. -/
def Knows (orders : String → Option ExchangeOrder) (id : String) (report : OrderReport) : Prop :=
  ∃ order, orders id = some order ∧ (report.status.final = true → order.report = report)

/-- What a report says about an order stays true. -/
theorem Knows.forward {before after : String → Option ExchangeOrder} {id : String}
    {report : OrderReport} (h : Knows before id report) (hforward : Forward before after) :
    Knows after id report := by
  obtain ⟨order, horder, hreport⟩ := h
  obtain ⟨report', horder', hsame⟩ := hforward id order horder
  refine ⟨order.withReport report', horder', fun hfinal => ?_⟩
  have hold := hreport hfinal
  rw [← hold] at hfinal ⊢
  exact hsame hfinal

/-- A report just taken. -/
theorem knows_self {orders : String → Option ExchangeOrder} {id : String} {order : ExchangeOrder}
    (h : orders id = some order) : Knows orders id order.report :=
  ⟨order, h, fun _ => rfl⟩

end BotHive.Crypto
