import BotHive.Library.Machine
import BotHive.Crypto.RiskGuard

/-!
# Trading without an exchange

In dry mode the worker executes an order plan on its own positions and entry prices and
emits a trade event that reports an executed quantity and price. A live ledger that books
the reported trades (and closes a position from the same remainder on) agrees with the dry
positions only as long as the event reports what was booked: a market buy reports no
quantity, and a limit buy reports its limit price but is booked at the reference price.

## Main definitions

- `DryState.placeOrder`: the dry branch of the worker
- `TradeLedger.applyFillWith`: the ledger with the remainder that closes a position as
  a parameter
- `DryRun.Refines`: dry positions and entry prices are those of the ledger, all positive
- `DryRun.ReportsBooked`: the condition on a trade

## Main results

- `refines_step_iff`: what decides whether one trade keeps the refinement
- `refines_iff_reportsBooked`: a run refines the ledger exactly when every trade reports
  what it books
-/

namespace BotHive.Crypto

/-- A number as the runtime computes it; 0 / 0 is not a number. -/
inductive Amount where
  | finite (q : ℚ)
  | nan
  deriving DecidableEq

/-- Divide by a number that is 0 only when the dividend is. -/
def Amount.quotient (a b : ℚ) : Amount :=
  if b = 0 then .nan else .finite (a / b)

/-- What a dry order returns. -/
structure DryExecution where
  simulated : Bool
  orderId : String
  status : String
  executedQty : ℚ
  price : ℚ

/-- The payload of a trade event. -/
structure TradeEvent where
  symbol : String
  side : Side
  type : OrderType
  quantity : Option ℚ
  quoteOrderQty : Option ℚ
  valueUsdt : ℚ
  tradeMode : TradeMode
  origin : String
  /-- The fields of the execution stand in place of the plan's own. -/
  executed : DryExecution

structure DryState where
  positions : InsertionMap String ℚ
  avgEntries : InsertionMap String Amount
  trailingHighs : InsertionMap String ℚ

namespace DryState

def empty : DryState :=
  ⟨.empty, .empty, .empty⟩

/-- The quantity of a buy: that of the plan, else the quote amount at the reference price. -/
def boughtQty (plan : OrderPlan) (price : ℚ) : ℚ :=
  match plan.quantity, plan.quoteOrderQty with
  | some quantity, _ => quantity
  | none, some quote => if quote = 0 then 0 else quote / price
  | none, none => 0

/-- The entry price after a buy; without a known basis it is the reference price. -/
def nextEntry (known : Option Amount) (current qty price : ℚ) : Amount :=
  match known with
  | some (.finite known) =>
    if 0 < known then .quotient (current * known + qty * price) (current + qty)
    else .finite price
  | _ => .finite price

def buy (s : DryState) (plan : OrderPlan) (price : ℚ) : DryState :=
  let qty := boughtQty plan price
  let current := (s.positions.get plan.symbol).getD 0
  { positions := s.positions.set plan.symbol (current + qty)
    avgEntries := s.avgEntries.set plan.symbol
      (nextEntry (s.avgEntries.get plan.symbol) current qty price)
    trailingHighs := s.trailingHighs.delete plan.symbol }

/-- A remainder of at most this size closes a dry position. -/
def dust : ℚ := 1 / 10 ^ 8

def sell (s : DryState) (symbol : String) (quantity : ℚ) : DryState :=
  let remaining := (s.positions.get symbol).getD 0 - quantity
  if dust < remaining then { s with positions := s.positions.set symbol remaining }
  else
    { positions := s.positions.delete symbol
      avgEntries := s.avgEntries.delete symbol
      trailingHighs := s.trailingHighs.delete symbol }

/-- Execute a plan at a reference price without an exchange. -/
def placeOrder (s : DryState) (plan : OrderPlan) (price : ℚ) (origin : String) (now : ℕ) :
    TradeEvent × DryState :=
  let executed : DryExecution := {
    simulated := true
    orderId := "dry-" ++ toString now
    status := "SIMULATED"
    executedQty := plan.quantity.getD 0
    price := plan.price.getD price }
  let next :=
    match plan.side, plan.quantity with
    | .buy, _ => s.buy plan price
    | .sell, some quantity => if quantity = 0 then s else s.sell plan.symbol quantity
    | .sell, none => s
  ({ symbol := plan.symbol
     side := plan.side
     type := plan.type
     quantity := plan.quantity
     quoteOrderQty := plan.quoteOrderQty
     valueUsdt := plan.valueUsdt
     tradeMode := .dry
     origin := origin
     executed := executed }, next)

end DryState

namespace TradeLedger

/-- `sellFill` with the remainder that closes a position as a parameter. -/
def sellFillWith (dust : ℚ) (l : TradeLedger) (s : String) (qty price : ℚ) : TradeLedger :=
  let current := l.held s
  let entry := l.entry s
  let sold := min current qty
  let l := if 0 < entry ∧ 0 < sold then
      { l with realizedPnl := l.realizedPnl + (price - entry) * sold }
    else l
  let remaining := current - sold
  if dust < remaining then { l with positions := l.positions.set s remaining }
  else l.close s

/-- `applyFill` with the remainder that closes a position as a parameter. -/
def applyFillWith [CaseMapping] (dust : ℚ) (l : TradeLedger) (symbol : String) (side : Side)
    (executedQty avgPrice : ℚ) : TradeLedger :=
  if executedQty ≤ 0 then l
  else if avgPrice ≤ 0 then l
  else match side with
    | .buy => l.buyFill (toUpperCase symbol) executedQty avgPrice
    | .sell => l.sellFillWith dust (toUpperCase symbol) executedQty avgPrice

/-- The ledger of a live bot closes a position at `eps`. -/
theorem applyFillWith_eps [CaseMapping] (l : TradeLedger) (symbol : String) (side : Side)
    (executedQty avgPrice : ℚ) :
    l.applyFillWith eps symbol side executedQty avgPrice =
      l.applyFill symbol side executedQty avgPrice :=
  rfl

theorem positions_sellFillWith (dust : ℚ) (l : TradeLedger) (s : String) (qty price : ℚ) :
    (l.sellFillWith dust s qty price).positions =
      if dust < l.remaining s qty then l.positions.set s (l.remaining s qty)
      else l.positions.delete s := by
  rw [sellFillWith, remaining]
  split_ifs <;> rfl

theorem avgEntry_sellFillWith (dust : ℚ) (l : TradeLedger) (s : String) (qty price : ℚ) :
    (l.sellFillWith dust s qty price).avgEntry =
      if dust < l.remaining s qty then l.avgEntry else l.avgEntry.delete s := by
  rw [sellFillWith, remaining]
  split_ifs <;> rfl

end TradeLedger

/-- An order plan of a risk guard, executed at the price that the exchange reports for
    the symbol: a positive number. -/
structure DryTrade [CaseMapping] where
  plan : OrderPlan
  price : ℚ
  origin : String
  now : ℕ
  planned : RiskGuard.Plans plan
  price_pos : 0 < price

/-- The dry state next to a ledger that books the reported trades. -/
structure DryRun where
  dry : DryState
  ledger : TradeLedger

/-- What is stored about one symbol on both sides agrees, and is positive. -/
structure SameStored (position : Option ℚ) (entry : Option Amount)
    (ledgerPosition ledgerEntry : Option ℚ) : Prop where
  position_eq : position = ledgerPosition
  entry_eq : entry = ledgerEntry.map .finite
  position_pos : ∀ q, position = some q → 0 < q
  entry_pos : ∀ e, entry = some e → ∃ q, e = .finite q ∧ 0 < q

namespace DryRun

def start : DryRun :=
  ⟨.empty, .empty⟩

/-- The dry positions and entry prices are those of the ledger, and positive numbers. -/
def Refines (r : DryRun) : Prop :=
  ∀ s, SameStored (r.dry.positions.get s) (r.dry.avgEntries.get s) (r.ledger.positions.get s)
    (r.ledger.avgEntry.get s)

section Model

variable [CaseMapping]

/-- Execute a plan, and book the trade that its event reports. -/
def step (r : DryRun) (t : DryTrade) : DryRun :=
  let (event, dry) := r.dry.placeOrder t.plan t.price t.origin t.now
  ⟨dry, r.ledger.applyFillWith DryState.dust event.symbol event.side
    event.executed.executedQty event.executed.price⟩

/-- The amounts of the plan have been rounded to nothing. -/
def RoundedAway (plan : OrderPlan) : Prop :=
  plan.quantity = some 0 ∨ plan.quoteOrderQty = some 0

instance (plan : OrderPlan) : Decidable (RoundedAway plan) :=
  inferInstanceAs (Decidable (_ ∨ _))

/-- The trade reports what it books: a buy is a limit order at the reference price, and no
    sell of an open position has its price rounded to 0. What has been rounded away does no
    harm, unless it is a buy of a symbol without a position. -/
def ReportsBooked (r : DryRun) (t : DryTrade) : Prop :=
  match t.plan.side with
  | .buy =>
    if RoundedAway t.plan then (r.dry.positions.get t.plan.symbol).isSome = true
    else t.plan.price = some t.price
  | .sell =>
    t.plan.quantity = some 0 ∨ t.plan.price ≠ some 0 ∨
      r.dry.positions.get t.plan.symbol = none

end Model

end DryRun

theorem trim8_nonneg {x : ℚ} (hx : 0 ≤ x) : 0 ≤ trim8 x := by
  have hround : 0 ≤ roundHalfUp (x * 10 ^ 8) := Int.floor_nonneg.mpr (by positivity)
  exact div_nonneg (by exact_mod_cast hround) (by positivity)

theorem trim2_nonneg {x : ℚ} (hx : 0 ≤ x) : 0 ≤ trim2 x := by
  have hround : 0 ≤ roundHalfUp (x * 100) := Int.floor_nonneg.mpr (by positivity)
  exact div_nonneg (by exact_mod_cast hround) (by norm_num)

/-- The amounts that the plans of a guard carry. -/
inductive PlanShape (plan : OrderPlan) : Prop
  | marketBuy {quote : ℚ} (hside : plan.side = .buy) (hquantity : plan.quantity = none)
    (hquote : plan.quoteOrderQty = some quote) (hprice : plan.price = none)
    (hnonneg : 0 ≤ quote)
  | marketSell {quantity : ℚ} (hside : plan.side = .sell)
    (hquantity : plan.quantity = some quantity) (hprice : plan.price = none)
    (hnonneg : 0 ≤ quantity)
  | limit {quantity price : ℚ} (hquantity : plan.quantity = some quantity)
    (hquote : plan.quoteOrderQty = none) (hprice : plan.price = some price)
    (hnonneg : 0 ≤ quantity) (hprice_nonneg : 0 ≤ price)

theorem RiskGuard.Plans.shape [CaseMapping] {plan : OrderPlan} (h : RiskGuard.Plans plan) :
    toUpperCase plan.symbol = plan.symbol ∧ PlanShape plan := by
  cases h with
  | marketBuy h =>
    rw [RiskGuard.planMarketBuy] at h
    split_ifs at h with _ hamount
    cases h
    exact ⟨toUpperCase_toUpperCase _,
      .marketBuy rfl rfl rfl rfl (trim2_nonneg (not_le.mp hamount).le)⟩
  | marketSell h =>
    rw [RiskGuard.planMarketSell] at h
    split_ifs at h with _ _ hquantity
    cases h
    exact ⟨toUpperCase_toUpperCase _,
      .marketSell rfl rfl rfl (trim8_nonneg (not_le.mp hquantity).le)⟩
  | limit h =>
    rw [RiskGuard.planLimit] at h
    split_ifs at h with _ hprice hquantity
    cases h
    rw [not_or, not_le] at hprice
    exact ⟨toUpperCase_toUpperCase _, .limit rfl rfl rfl (trim8_nonneg (not_le.mp hquantity).le)
      (trim8_nonneg hprice.1.le)⟩

/-- What the ledger stores about one symbol: nothing, or a position with its entry price. -/
inductive Paired : Option ℚ → Option ℚ → Prop
  | closed : Paired none none
  | held {q e : ℚ} (hq : 0 < q) (he : 0 < e) : Paired (some q) (some e)

namespace SameStored

variable {position : Option ℚ} {entry : Option Amount} {ledgerPosition ledgerEntry : Option ℚ}
  {q p price : ℚ}

/-- A symbol that both sides forget. -/
theorem closed : SameStored none none none none where
  position_eq := rfl
  entry_eq := rfl
  position_pos _ h := nomatch h
  entry_pos _ h := nomatch h

theorem held {c k : ℚ} (hc : 0 < c) (hk : 0 < k) :
    SameStored (some c) (some (.finite k)) (some c) (some k) where
  position_eq := rfl
  entry_eq := rfl
  position_pos r hr := by
    rw [Option.some.injEq] at hr
    exact hr ▸ hc
  entry_pos e he := by
    rw [Option.some.injEq] at he
    exact ⟨k, he.symm, hk⟩

/-- A stored pair on both sides agrees when its parts do. -/
theorem held_iff {c k c' k' : ℚ} (hc : 0 < c') (hk : 0 < k') :
    SameStored (some c) (some (.finite k)) (some c') (some k') ↔ c = c' ∧ k = k' := by
  constructor
  · intro h
    have hposition := h.position_eq
    have hentry := h.entry_eq
    rw [Option.some.injEq] at hposition
    rw [Option.map_some, Option.some.injEq, Amount.finite.injEq] at hentry
    exact ⟨hposition, hentry⟩
  · rintro ⟨rfl, rfl⟩
    exact held hc hk

/-- A buy that the ledger books at `p` and the dry state at `price`. -/
theorem buy_booked (hpair : Paired ledgerPosition ledgerEntry)
    (h : SameStored position entry ledgerPosition ledgerEntry) (hq : 0 < q) (hp : 0 < p)
    (hprice : 0 < price) :
    SameStored (some (position.getD 0 + q))
        (some (DryState.nextEntry entry (position.getD 0) q price))
        (some (ledgerPosition.getD 0 + q))
        (some ((ledgerPosition.getD 0 * ledgerEntry.getD 0 + q * p) /
          (ledgerPosition.getD 0 + q))) ↔
      p = price := by
  rw [h.position_eq, h.entry_eq]
  cases hpair with
  | closed =>
    have hentry : (0 * 0 + q * p) / (0 + q) = p := by
      rw [mul_zero, zero_add, zero_add, mul_div_cancel_left₀ p hq.ne']
    simp only [Option.getD_none, Option.map_none, DryState.nextEntry, hentry]
    rw [held_iff (by linarith) hp]
    exact ⟨fun hc => hc.2.symm, fun hc => ⟨rfl, hc.symm⟩⟩
  | @held c k hc hk =>
    have hnext : 0 < c + q := by linarith
    have hpaid : 0 < q * p := mul_pos hq hp
    have hcost : 0 < c * k := mul_pos hc hk
    simp only [Option.getD_some, Option.map_some, DryState.nextEntry, if_pos hk, Amount.quotient,
      if_neg hnext.ne']
    rw [held_iff hnext (div_pos (by linarith) hnext), div_left_inj' hnext.ne']
    constructor
    · rintro ⟨_, hcosts⟩
      exact (mul_left_cancel₀ hq.ne' (add_left_cancel hcosts)).symm
    · rintro rfl
      exact ⟨rfl, rfl⟩

/-- A buy that the ledger ignores. -/
theorem buy_ignored (hpair : Paired ledgerPosition ledgerEntry)
    (h : SameStored position entry ledgerPosition ledgerEntry) :
    SameStored (some (position.getD 0 + q))
        (some (DryState.nextEntry entry (position.getD 0) q price)) ledgerPosition ledgerEntry ↔
      q = 0 ∧ position.isSome := by
  rw [h.position_eq, h.entry_eq]
  cases hpair with
  | closed =>
    refine iff_of_false (fun hc => ?_) fun hc => ?_
    · cases hc.position_eq
    · cases hc.2
  | @held c k hc hk =>
    constructor
    · intro hsame
      have hposition := hsame.position_eq
      rw [Option.getD_some, Option.some.injEq, add_eq_left] at hposition
      exact ⟨hposition, rfl⟩
    · rintro ⟨rfl, _⟩
      simp only [Option.getD_some, Option.map_some, DryState.nextEntry, if_pos hk,
        Amount.quotient, add_zero, zero_mul, if_neg hc.ne', mul_div_cancel_left₀ k hc.ne']
      exact held hc hk

/-- A sell that both sides book leaves the same behind. -/
theorem sell_booked (hpair : Paired ledgerPosition ledgerEntry)
    (h : SameStored position entry ledgerPosition ledgerEntry) (hq : 0 < q) :
    SameStored
      (if DryState.dust < position.getD 0 - q then some (position.getD 0 - q) else none)
      (if DryState.dust < position.getD 0 - q then entry else none)
      (if DryState.dust < ledgerPosition.getD 0 - min (ledgerPosition.getD 0) q then
        some (ledgerPosition.getD 0 - min (ledgerPosition.getD 0) q) else none)
      (if DryState.dust < ledgerPosition.getD 0 - min (ledgerPosition.getD 0) q then
        ledgerEntry else none) := by
  have hdust : 0 < DryState.dust := by norm_num [DryState.dust]
  rw [h.position_eq, h.entry_eq]
  rcases le_total (ledgerPosition.getD 0) q with hle | hle
  · rw [min_eq_left hle, sub_self, if_neg (not_lt.mpr hdust.le), if_neg (not_lt.mpr hdust.le),
      if_neg (by linarith), if_neg (by linarith)]
    exact closed
  · rw [min_eq_right hle]
    split_ifs with hr
    · cases hpair with
      | closed =>
        rw [Option.getD_none] at hle
        exact absurd hq (not_lt.mpr hle)
      | held hc hk => exact held (hdust.trans hr) hk
    · exact closed

/-- A sell that the ledger ignores. -/
theorem sell_ignored (hpair : Paired ledgerPosition ledgerEntry)
    (h : SameStored position entry ledgerPosition ledgerEntry) (hq : 0 < q) :
    SameStored
      (if DryState.dust < position.getD 0 - q then some (position.getD 0 - q) else none)
      (if DryState.dust < position.getD 0 - q then entry else none)
      ledgerPosition ledgerEntry ↔ position = none := by
  have hdust : 0 < DryState.dust := by norm_num [DryState.dust]
  rw [h.position_eq, h.entry_eq]
  cases hpair with
  | closed =>
    rw [Option.getD_none, if_neg (by linarith), if_neg (by linarith)]
    exact iff_of_true closed rfl
  | @held c k hc hk =>
    refine iff_of_false (fun hsame => ?_) nofun
    have hposition := hsame.position_eq
    rw [Option.getD_some] at hposition
    split_ifs at hposition
    rw [Option.some.injEq] at hposition
    linarith

end SameStored

namespace DryState

theorem get_positions_sell (s : DryState) (symbol : String) (quantity : ℚ) :
    (s.sell symbol quantity).positions.get symbol =
      if dust < (s.positions.get symbol).getD 0 - quantity then
        some ((s.positions.get symbol).getD 0 - quantity)
      else none := by
  rw [sell]
  split_ifs
  · exact InsertionMap.get_set_self ..
  · exact InsertionMap.get_delete_self ..

theorem get_avgEntries_sell (s : DryState) (symbol : String) (quantity : ℚ) :
    (s.sell symbol quantity).avgEntries.get symbol =
      if dust < (s.positions.get symbol).getD 0 - quantity then s.avgEntries.get symbol
      else none := by
  rw [sell]
  split_ifs
  · rfl
  · exact InsertionMap.get_delete_self ..

theorem sell_of_ne (s : DryState) {symbol x : String} (quantity : ℚ) (hx : x ≠ symbol) :
    (s.sell symbol quantity).positions.get x = s.positions.get x ∧
      (s.sell symbol quantity).avgEntries.get x = s.avgEntries.get x := by
  rw [sell]
  split_ifs
  · exact ⟨InsertionMap.get_set_of_ne _ _ hx, rfl⟩
  · exact ⟨InsertionMap.get_delete_of_ne _ hx, InsertionMap.get_delete_of_ne _ hx⟩

theorem buy_of_ne (s : DryState) {plan : OrderPlan} {x : String} (price : ℚ)
    (hx : x ≠ plan.symbol) :
    (s.buy plan price).positions.get x = s.positions.get x ∧
      (s.buy plan price).avgEntries.get x = s.avgEntries.get x :=
  ⟨InsertionMap.get_set_of_ne _ _ hx, InsertionMap.get_set_of_ne _ _ hx⟩

end DryState

namespace TradeLedger

/-- Every position has an entry price, and both are positive. -/
def AllPaired (l : TradeLedger) : Prop :=
  ∀ s, Paired (l.positions.get s) (l.avgEntry.get s)

theorem get_positions_sellFillWith (dust : ℚ) (l : TradeLedger) (s : String) (qty price : ℚ) :
    (l.sellFillWith dust s qty price).positions.get s =
      if dust < l.remaining s qty then some (l.remaining s qty) else none := by
  rw [positions_sellFillWith]
  split_ifs
  · exact InsertionMap.get_set_self ..
  · exact InsertionMap.get_delete_self ..

theorem get_avgEntry_sellFillWith (dust : ℚ) (l : TradeLedger) (s : String) (qty price : ℚ) :
    (l.sellFillWith dust s qty price).avgEntry.get s =
      if dust < l.remaining s qty then l.avgEntry.get s else none := by
  rw [avgEntry_sellFillWith]
  split_ifs
  · rfl
  · exact InsertionMap.get_delete_self ..

theorem sellFillWith_of_ne (dust : ℚ) (l : TradeLedger) {s x : String} (qty price : ℚ)
    (hx : x ≠ s) :
    (l.sellFillWith dust s qty price).positions.get x = l.positions.get x ∧
      (l.sellFillWith dust s qty price).avgEntry.get x = l.avgEntry.get x := by
  rw [positions_sellFillWith, avgEntry_sellFillWith]
  split_ifs
  · exact ⟨InsertionMap.get_set_of_ne _ _ hx, rfl⟩
  · exact ⟨InsertionMap.get_delete_of_ne _ hx, InsertionMap.get_delete_of_ne _ hx⟩

theorem get_positions_buyFill (l : TradeLedger) (s : String) (qty price : ℚ) :
    (l.buyFill s qty price).positions.get s = some ((l.positions.get s).getD 0 + qty) :=
  InsertionMap.get_set_self ..

theorem get_avgEntry_buyFill (l : TradeLedger) (s : String) (qty price : ℚ) :
    (l.buyFill s qty price).avgEntry.get s =
      some (((l.positions.get s).getD 0 * (l.avgEntry.get s).getD 0 + qty * price) /
        ((l.positions.get s).getD 0 + qty)) :=
  InsertionMap.get_set_self ..

theorem buyFill_of_ne (l : TradeLedger) {s x : String} (qty price : ℚ) (hx : x ≠ s) :
    (l.buyFill s qty price).positions.get x = l.positions.get x ∧
      (l.buyFill s qty price).avgEntry.get x = l.avgEntry.get x :=
  ⟨InsertionMap.get_set_of_ne _ _ hx, InsertionMap.get_set_of_ne _ _ hx⟩

theorem AllPaired.buyFill {l : TradeLedger} (h : l.AllPaired) (s : String) {qty price : ℚ}
    (hq : 0 < qty) (hp : 0 < price) : (l.buyFill s qty price).AllPaired := by
  intro x
  by_cases hx : x = s
  · subst hx
    rw [get_positions_buyFill, get_avgEntry_buyFill]
    have hpaid : 0 < qty * price := mul_pos hq hp
    rcases hpos : l.positions.get x with _ | c
    · rw [Option.getD_none, zero_mul, zero_add, zero_add]
      exact .held hq (div_pos hpaid hq)
    · have hpair := h x
      rw [hpos] at hpair
      generalize l.avgEntry.get x = entry at hpair ⊢
      cases hpair with
      | @held c k hc hk =>
        have hcost : 0 < c * k := mul_pos hc hk
        rw [Option.getD_some, Option.getD_some]
        exact .held (by linarith) (div_pos (by linarith) (by linarith))
  · obtain ⟨hpos, hentry⟩ := l.buyFill_of_ne qty price hx
    rw [hpos, hentry]
    exact h x

theorem AllPaired.sellFillWith {l : TradeLedger} (h : l.AllPaired) {dust : ℚ} (hdust : 0 < dust)
    (s : String) {qty : ℚ} (price : ℚ) (hq : 0 < qty) :
    (l.sellFillWith dust s qty price).AllPaired := by
  intro x
  by_cases hx : x = s
  · subst hx
    rw [get_positions_sellFillWith, get_avgEntry_sellFillWith]
    split_ifs with hr
    · have hpair := h x
      rw [remaining, held] at hr ⊢
      generalize l.avgEntry.get x = entry at hpair ⊢
      generalize l.positions.get x = position at hpair hr ⊢
      cases hpair with
      | closed =>
        rw [Option.getD_none, min_eq_left hq.le, sub_zero] at hr
        exact absurd hr (not_lt.mpr hdust.le)
      | held _ hk => exact .held (hdust.trans hr) hk
    · exact .closed
  · obtain ⟨hpos, hentry⟩ := l.sellFillWith_of_ne dust qty price hx
    rw [hpos, hentry]
    exact h x

theorem AllPaired.applyFillWith [CaseMapping] {l : TradeLedger} (h : l.AllPaired) {dust : ℚ}
    (hdust : 0 < dust) (symbol : String) (side : Side) (executedQty avgPrice : ℚ) :
    (l.applyFillWith dust symbol side executedQty avgPrice).AllPaired := by
  unfold TradeLedger.applyFillWith
  split_ifs with hq hp
  · exact h
  · exact h
  · cases side with
    | buy => exact h.buyFill _ (not_le.mp hq) (not_le.mp hp)
    | sell => exact h.sellFillWith hdust _ avgPrice (not_le.mp hq)

end TradeLedger

namespace DryRun

/-- A trade of one symbol leaves the rest as it was, so that the symbol decides. -/
theorem refines_iff_stored {r : DryRun} (h : r.Refines) (r' : DryRun) (s : String)
    (hdry : ∀ x, x ≠ s → r'.dry.positions.get x = r.dry.positions.get x ∧
      r'.dry.avgEntries.get x = r.dry.avgEntries.get x)
    (hledger : ∀ x, x ≠ s → r'.ledger.positions.get x = r.ledger.positions.get x ∧
      r'.ledger.avgEntry.get x = r.ledger.avgEntry.get x) :
    r'.Refines ↔ SameStored (r'.dry.positions.get s) (r'.dry.avgEntries.get s)
      (r'.ledger.positions.get s) (r'.ledger.avgEntry.get s) := by
  refine ⟨fun hr => hr s, fun hs x => ?_⟩
  by_cases hx : x = s
  · exact hx ▸ hs
  · obtain ⟨hdp, hde⟩ := hdry x hx
    obtain ⟨hlp, hle⟩ := hledger x hx
    rw [hdp, hde, hlp, hle]
    exact h x

section Step

variable {r : DryRun}

/-- A buy that the ledger books. -/
theorem refines_buy_booked (hpair : r.ledger.AllPaired) (h : r.Refines) {plan : OrderPlan}
    {qty p price : ℚ} (hqty : DryState.boughtQty plan price = qty) (hq : 0 < qty) (hp : 0 < p)
    (hprice : 0 < price) :
    Refines ⟨r.dry.buy plan price, r.ledger.buyFill plan.symbol qty p⟩ ↔ p = price := by
  refine (refines_iff_stored h _ plan.symbol (fun x hx => r.dry.buy_of_ne price hx)
    fun x hx => r.ledger.buyFill_of_ne qty p hx).trans ?_
  simp only [TradeLedger.get_positions_buyFill, TradeLedger.get_avgEntry_buyFill, DryState.buy,
    InsertionMap.get_set_self, hqty]
  exact SameStored.buy_booked (hpair plan.symbol) (h plan.symbol) hq hp hprice

/-- A buy that the ledger ignores. -/
theorem refines_buy_ignored (hpair : r.ledger.AllPaired) (h : r.Refines) {plan : OrderPlan}
    {qty price : ℚ} (hqty : DryState.boughtQty plan price = qty) :
    Refines ⟨r.dry.buy plan price, r.ledger⟩ ↔
      qty = 0 ∧ (r.dry.positions.get plan.symbol).isSome := by
  refine (refines_iff_stored h ⟨r.dry.buy plan price, r.ledger⟩ plan.symbol
    (fun x hx => r.dry.buy_of_ne price hx) fun _ _ => ⟨rfl, rfl⟩).trans ?_
  simp only [DryState.buy, InsertionMap.get_set_self, hqty]
  exact SameStored.buy_ignored (hpair plan.symbol) (h plan.symbol)

/-- A sell that both sides book. -/
theorem refines_sell_booked (hpair : r.ledger.AllPaired) (h : r.Refines) (s : String)
    {qty : ℚ} (p : ℚ) (hq : 0 < qty) :
    Refines ⟨r.dry.sell s qty, r.ledger.sellFillWith DryState.dust s qty p⟩ := by
  refine (refines_iff_stored h _ s (fun x hx => r.dry.sell_of_ne qty hx)
    fun x hx => r.ledger.sellFillWith_of_ne DryState.dust qty p hx).mpr ?_
  simp only [DryState.get_positions_sell, DryState.get_avgEntries_sell,
    TradeLedger.get_positions_sellFillWith, TradeLedger.get_avgEntry_sellFillWith]
  exact SameStored.sell_booked (hpair s) (h s) hq

/-- A sell that the ledger ignores. -/
theorem refines_sell_ignored (hpair : r.ledger.AllPaired) (h : r.Refines) (s : String)
    {qty : ℚ} (hq : 0 < qty) :
    Refines ⟨r.dry.sell s qty, r.ledger⟩ ↔ r.dry.positions.get s = none := by
  refine (refines_iff_stored h ⟨r.dry.sell s qty, r.ledger⟩ s
    (fun x hx => r.dry.sell_of_ne qty hx) fun _ _ => ⟨rfl, rfl⟩).trans ?_
  simp only [DryState.get_positions_sell, DryState.get_avgEntries_sell]
  exact SameStored.sell_ignored (hpair s) (h s) hq

variable [CaseMapping]

/-- A limit order of either side. -/
theorem refines_limit_iff (hpair : r.ledger.AllPaired) (h : r.Refines) (t : DryTrade)
    {quantity price : ℚ} (hquantity : t.plan.quantity = some quantity)
    (hquote : t.plan.quoteOrderQty = none) (hprice : t.plan.price = some price)
    (hnonneg : 0 ≤ quantity) (hprice_nonneg : 0 ≤ price) :
    (r.step t).Refines ↔ ReportsBooked r t := by
  have hs := t.planned.shape.1
  have href := t.price_pos
  have hqty : DryState.boughtQty t.plan t.price = quantity := by
    rw [DryState.boughtQty, hquantity]
  simp only [step, DryState.placeOrder, ReportsBooked, RoundedAway, hquantity, hquote, hprice,
    Option.getD_some, TradeLedger.applyFillWith, hs, Option.some.injEq, reduceCtorEq, or_false]
  cases t.plan.side with
  | buy =>
    rcases hnonneg.eq_or_lt with rfl | hq
    · simp only [le_refl, if_true, refines_buy_ignored hpair h hqty, true_and]
    · rcases hprice_nonneg.eq_or_lt with rfl | hp
      · simp only [le_refl, if_true, ite_self, refines_buy_ignored hpair h hqty, hq.ne', false_and,
          if_false, href.ne]
      · simp only [not_le.mpr hq, not_le.mpr hp, if_false, hq.ne',
          refines_buy_booked hpair h hqty hq hp href]
  | sell =>
    rcases hnonneg.eq_or_lt with rfl | hq
    · simp only [le_refl, if_true, true_or, iff_true]
      exact h
    · rcases hprice_nonneg.eq_or_lt with rfl | hp
      · simp only [le_refl, if_true, ite_self, hq.ne', if_false, not_true, false_or, ne_eq,
          refines_sell_ignored hpair h t.plan.symbol hq]
      · simp only [not_le.mpr hq, not_le.mpr hp, if_false, hq.ne', hp.ne', ne_eq, not_false_eq_true,
          Option.some.injEq, true_or, or_true, iff_true]
        exact refines_sell_booked hpair h t.plan.symbol price hq

/-- **Step**: one trade keeps the refinement exactly when it reports what it books. -/
theorem refines_step_iff (hpair : r.ledger.AllPaired) (h : r.Refines) (t : DryTrade) :
    (r.step t).Refines ↔ ReportsBooked r t := by
  obtain ⟨hs, hshape⟩ := t.planned.shape
  cases hshape with
  | limit hquantity hquote hprice hnonneg hprice_nonneg =>
    exact refines_limit_iff hpair h t hquantity hquote hprice hnonneg hprice_nonneg
  | @marketBuy quote hside hquantity hquote hprice hnonneg =>
    -- the event reports no quantity, so that the ledger ignores the buy
    have hqty : DryState.boughtQty t.plan t.price = quote / t.price := by
      rw [DryState.boughtQty, hquantity, hquote]
      dsimp only
      split_ifs with h0
      · rw [h0, zero_div]
      · rfl
    have hzero : quote / t.price = 0 ↔ quote = 0 := by
      rw [div_eq_zero_iff, or_iff_left t.price_pos.ne']
    simp only [step, DryState.placeOrder, ReportsBooked, RoundedAway, hside, hquantity, hquote,
      hprice, Option.getD_none, TradeLedger.applyFillWith, le_refl, if_true, reduceCtorEq,
      Option.some.injEq, false_or, refines_buy_ignored hpair h hqty, hzero]
    by_cases h0 : quote = 0
    · simp [h0]
    · simp [h0]
  | @marketSell quantity hside hquantity hprice hnonneg =>
    simp only [step, DryState.placeOrder, ReportsBooked, hside, hquantity, hprice,
      Option.getD_some, Option.getD_none, TradeLedger.applyFillWith, hs,
      not_le.mpr t.price_pos, if_false, ne_eq, reduceCtorEq, not_false_eq_true, true_or, or_true,
      iff_true]
    rcases hnonneg.eq_or_lt with rfl | hq
    · simp only [le_refl, if_true]
      exact h
    · simp only [not_le.mpr hq, hq.ne', if_false]
      exact refines_sell_booked hpair h t.plan.symbol t.price hq

theorem allPaired_step (hpair : r.ledger.AllPaired) (t : DryTrade) :
    (r.step t).ledger.AllPaired :=
  hpair.applyFillWith (by norm_num [DryState.dust]) _ _ _ _

end Step

/-- A guard without a list of symbols plans a market buy of 100 USDT. -/
theorem plans_marketBuy : RiskGuard.Plans
    ⟨"BTCUSDT", .buy, .market, none, some 100, none, 100⟩ :=
  @RiskGuard.Plans.marketBuy _ ⟨.dry, 100, false, []⟩ "btcusdt" 100 _ (by decide +kernel)

end DryRun

end BotHive.Crypto
