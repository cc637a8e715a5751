import BotHive.Crypto.Dashboard
import BotHive.Crypto.Evaluate
import BotHive.Crypto.LedgerReconnect

/-!
# The trailing stop of a position

An exit check raises the high of an open position to the price that it sees and computes
the effective stop from it. The high lives in the memory of the runtime; it reaches the
store when a trade or a reconciliation saves the runtime, and the next runtime starts from
what is stored. The model has both trade modes: dry positions are three maps of the
runtime, live ones belong to the ledger.

## Main definitions

- `exitLevels`: what one exit check computes from an entry price, a high and a price
- `Holdings`: what a runtime keeps about its positions, in either mode
- `Holdings.snapshot`, `Holdings.load`: saving and loading them
- `TrailingState.step`: exit checks, order answers, trades, saves and reconnects

## Main results

- `exitDecision_eq_levels`: the exit rule of an evaluation is the one that is used here
- `Holdings.kept_of_change`: what does not buy the symbol closes its position or keeps its
  entry price and high

The checks since the last buy (`checks`) are kept for the statement only; no step looks
at them.
-/

namespace BotHive.Crypto

/-- What one exit check computes: why the position is closed, the effective stop, and the
    high that is written when it has moved. -/
structure ExitLevels where
  reason : Option ExitReason
  stop : Option ℚ
  raised : Option ℚ

/-- The levels for a position with an entry price and the stored high `trailHigh`. -/
def exitLevels (config : EvalConfig) (trailHigh : Option ℚ) (entry price : ℚ) : ExitLevels :=
  if 0 < config.takeProfitPct ∧ entry * (1 + config.takeProfitPct / 100) ≤ price then
    { reason := some .takeProfit, stop := none, raised := none }
  else
    let trailHigh := if 0 < config.trailingStopPct then trailHigh else none
    let high := max (trailHigh.getD entry) price
    let raised :=
      if 0 < config.trailingStopPct ∧ trailHigh.all (fun old => old < high) = true then some high
      else none
    let trailStop :=
      if 0 < config.trailingStopPct then some (high * (1 - config.trailingStopPct / 100))
      else none
    let fixedStop :=
      if 0 < config.stopLossPct then some (entry * (1 - config.stopLossPct / 100)) else none
    let stop :=
      match fixedStop, trailStop with
      | some a, some b => some (max a b)
      | some a, none => some a
      | none, b => b
    let reason :=
      if stop.any (fun stop => price ≤ stop) = true then
        some (if trailStop.isSome ∧ trailHigh.any (fun old => entry < old) = true then
          ExitReason.trailingStop else .stopLoss)
      else none
    { reason := reason, stop := stop, raised := raised }

/-- The exit rule of an evaluation decides by the same levels. -/
theorem exitDecision_eq_levels [CaseMapping] (config : EvalConfig) (l : TradeLedger)
    (entry price : ℚ) :
    exitDecision config l entry price =
      let levels := exitLevels config (l.trailingHighFor config.symbol) entry price
      (levels.reason, levels.raised.elim l (l.setTrailingHigh config.symbol)) := by
  rw [exitDecision, exitLevels]
  by_cases hprofit : 0 < config.takeProfitPct ∧
    entry * (1 + config.takeProfitPct / 100) ≤ price
  · rw [if_pos hprofit, if_pos hprofit]
    rfl
  · rw [if_neg hprofit, if_neg hprofit]
    by_cases htrailing : 0 < config.trailingStopPct <;>
      by_cases hloss : 0 < config.stopLossPct <;>
      simp only [htrailing, hloss, if_true, if_false, Option.any_some, Option.any_none,
        decide_eq_true_eq, true_and, false_and]
    all_goals split_ifs <;> first | rfl | contradiction

def ExitReason.text : ExitReason → String
  | .stopLoss => "stop_loss"
  | .takeProfit => "take_profit"
  | .trailingStop => "trailing_stop"

/-- Whether `typeof` calls a value an object; `null` is left out. -/
def isObject : Value → Bool
  | .obj _ | .arr _ => true
  | _ => false

namespace DryState

section Load

variable [CaseMapping]

def toPositiveNumberMap (value : Value) : InsertionMap String ℚ :=
  if isObject value then TradeLedger.loadAmounts value.entries else .empty

/-- `loadDryState`: the stored maps, or the quantities alone in the older shape. -/
def load : Option Value → DryState
  | none => empty
  | some parsed =>
    if isObject parsed ∧ isObject (parsed.field "positions") then
      { positions := toPositiveNumberMap (parsed.field "positions")
        avgEntries := (toPositiveNumberMap (parsed.field "avgEntry")).mapValues fun _ => .finite
        trailingHighs := toPositiveNumberMap (parsed.field "trailingHigh") }
    else { empty with positions := toPositiveNumberMap parsed }

end Load

end DryState

/-- What a runtime keeps about its positions: the maps of a dry bot, or the ledger of a
    live one. -/
inductive Holdings where
  | dry (state : DryState)
  | live (ledger : TradeLedger)

/-- What changes the holdings apart from the exit checks of one symbol. -/
inductive HoldingsChange where
  /-- A dry bot executes a plan at a reference price. -/
  | trade (plan : OrderPlan) (price : ℚ) (origin : String) (now : ℕ)
  /-- A fill, a reconciliation or an order reaches the ledger of a live bot. -/
  | ledger (op : LedgerOp)
  /-- An exit check of another symbol writes its high. -/
  | raiseOther (symbol : String) (high : ℚ)

namespace Holdings

section Model

variable [CaseMapping]

/-- The open quantity of a symbol. -/
def quantity (symbol : String) : Holdings → ℚ
  | dry s => (s.positions.get symbol).getD 0
  | live l => l.position symbol

/-- The entry price of a symbol, 0 when it is unknown. -/
def entry (symbol : String) : Holdings → ℚ
  | dry s => ((s.avgEntries.get symbol).bind Amount.toOption).getD 0
  | live l => l.avgEntryFor symbol

def trailHigh (symbol : String) : Holdings → Option ℚ
  | dry s => s.trailingHighs.get symbol
  | live l => l.trailingHighFor symbol

/-- The high that the next check starts from. -/
def effectiveHigh (symbol : String) (h : Holdings) : ℚ :=
  (h.trailHigh symbol).getD (h.entry symbol)

/-- Write a high. -/
def setTrailHigh (symbol : String) (high : ℚ) : Holdings → Holdings
  | dry s => dry { s with trailingHighs := s.trailingHighs.set symbol high }
  | live l => live (l.setTrailingHigh symbol high)

/-- Write a high that has moved. -/
def raise (symbol : String) (h : Holdings) (raised : Option ℚ) : Holdings :=
  raised.elim h fun high => h.setTrailHigh symbol high

/-- The quantity that an exit would sell. That of a live bot is checked against the free
    balance, `none` when it cannot be read. -/
def available (symbol : String) (free : Option ℚ) : Holdings → ℚ
  | dry s => (dry s).quantity symbol
  | live l => free.elim 0 fun free => min ((live l).quantity symbol) free

/-- The stored value. -/
def snapshot (now : ℕ) : Holdings → Value
  | dry s => s.toValue
  | live l => l.snapshot now

/-- What the next runtime of the same mode loads; a failed read counts as nothing stored. -/
def load (text : Option Value) : Holdings → Option Holdings
  | dry _ => some (dry (DryState.load text))
  | live _ => (loadLedger text).map live

/-- A change by the worker; each mode has its own, and no other symbol writes the high of
    this one. -/
def change (symbol : String) : Holdings → HoldingsChange → Option Holdings
  | dry s, .trade plan price origin now => some (dry (s.placeOrder plan price origin now).2)
  | live l, .ledger op => some (live (op.apply l))
  | h, .raiseOther other high =>
    if toUpperCase other = toUpperCase symbol then none else some (h.setTrailHigh other high)
  | _, _ => none

end Model

end Holdings

/-- The change buys the symbol. -/
def HoldingsChange.Buys [CaseMapping] (symbol : String) : HoldingsChange → Prop
  | .trade plan _ _ _ => plan.side = .buy ∧ plan.symbol = symbol
  | .ledger op => op.bought (toUpperCase symbol) ≠ []
  | .raiseOther _ _ => False

/-- A bot with a trailing stop, as its configuration has been read: the symbol is in upper
    case and the percentages are within their bounds. -/
structure TrailingBot [CaseMapping] extends EvalConfig where
  autoTrade : Bool
  symbol_upper : toUpperCase symbol = symbol
  trailing_pos : 0 < trailingStopPct
  trailing_le : trailingStopPct ≤ 90
  stopLoss_le : stopLossPct ≤ 90

/-- An exit check of an open position: the price, and the effective stop if one was
    computed. -/
structure ExitCheck where
  price : ℚ
  stop : Option ℚ
  deriving DecidableEq

/-- The runtime of one bot and what is stored for it. -/
structure TrailingState where
  holdings : Holdings
  stored : Option Value
  /-- Why a live exit order is underway; it keeps other evaluations out. -/
  exiting : Option ExitReason
  /-- The exit checks of the open position since the last buy, latest first. -/
  checks : List ExitCheck

inductive TrailingAction where
  /-- An exit check goes on once it knows the free balance, `none` when that cannot be read. -/
  | evaluate (price : ℚ) (free : Option ℚ) (now : ℕ)
  /-- The exchange answers the exit order of a live bot. -/
  | exitAnswered (answer : OrderAnswer)
  | change (change : HoldingsChange)
  | save (now : ℕ)
  /-- A poll of an earlier runtime goes on with what that runtime holds by now. -/
  | lateEvaluate (holdings : Holdings) (price : ℚ) (free : Option ℚ)
  /-- An earlier runtime saves, or the store loses what it had. -/
  | lateSave (text : Option Value)
  /-- A disconnect or a restart of the worker, and the next connect. -/
  | reconnect (reads : Bool)

namespace TrailingState

/-- A runtime that has made no check yet. -/
def start (holdings : Holdings) (stored : Option Value) : TrailingState :=
  ⟨holdings, stored, none, []⟩

section Model

variable [CaseMapping] (bot : TrailingBot)

/-- A position that is no longer open has no checks. -/
def settle (s : TrailingState) : TrailingState :=
  if s.holdings.quantity bot.symbol ≤ 0 then { s with checks := [] } else s

def note (s : TrailingState) (check : ExitCheck) : TrailingState :=
  { s with checks := check :: s.checks }

/-- The levels of a check, once the balance and the entry price allow one. -/
def levelsOf (h : Holdings) (price : ℚ) (free : Option ℚ) : Option ExitLevels :=
  if h.available bot.symbol free ≤ 0 ∨ h.entry bot.symbol ≤ 0 then none
  else some (exitLevels bot.toEvalConfig (h.trailHigh bot.symbol) (h.entry bot.symbol) price)

/-- Submit the exit order: a dry bot sells at once, a live one waits for the answer. -/
def placeExit (s : TrailingState) (reason : ExitReason) (plan : OrderPlan) (price : ℚ)
    (now : ℕ) : TrailingState :=
  match s.holdings with
  | .dry d => { s with holdings := .dry (d.placeOrder plan price reason.text now).2 }
  | .live _ => { s with exiting := some reason }

/-- `checkExitsInner` for an open position. -/
def checkExits (s : TrailingState) (price : ℚ) (free : Option ℚ) (now : ℕ) : TrailingState :=
  match levelsOf bot s.holdings price free with
  | none => s.note ⟨price, none⟩
  | some levels =>
    let raised := { s with holdings := s.holdings.raise bot.symbol levels.raised }
    let noted := raised.note ⟨price, levels.stop⟩
    match levels.reason, bot.guard.planMarketSell bot.symbol price
      (s.holdings.available bot.symbol free) true with
    | some reason, .ok plan => noted.placeExit reason plan price now
    | _, _ => noted

def evaluate (s : TrailingState) (price : ℚ) (free : Option ℚ) (now : ℕ) : TrailingState :=
  if bot.autoTrade = false ∨ s.exiting.isSome ∨ s.holdings.quantity bot.symbol ≤ 0 then s
  else (s.checkExits bot price free now).settle bot

/-- What the answer to an exit order does to the holdings. An order of which nothing is
    filled is recorded as open, which is a change of its own. -/
def answered (h : Holdings) (answer : OrderAnswer) : Holdings :=
  match h, answer with
  | .live l, .answered status executedQty cummulativeQuoteQty =>
    if 0 < executedQty ∧ (status = .filled ∨ status = .partiallyFilled) then
      .live (l.applyFill bot.symbol .sell executedQty (cummulativeQuoteQty / executedQty))
    else h
  | _, _ => h

/-- An earlier runtime only adds a check: what it holds is no longer in use. -/
def lateEvaluate (s : TrailingState) (h : Holdings) (price : ℚ) (free : Option ℚ) :
    TrailingState :=
  if bot.autoTrade = false ∨ h.quantity bot.symbol ≤ 0 then s
  else (s.note ⟨price, (levelsOf bot h price free).bind ExitLevels.stop⟩).settle bot

instance (symbol : String) (change : HoldingsChange) : Decidable (change.Buys symbol) :=
  match change with
  | .trade plan _ _ _ => inferInstanceAs (Decidable (plan.side = .buy ∧ plan.symbol = symbol))
  | .ledger op => inferInstanceAs (Decidable (op.bought (toUpperCase symbol) ≠ []))
  | .raiseOther _ _ => .isFalse id

def step (s : TrailingState) : TrailingAction → Option TrailingState
  | .evaluate price free now => some (s.evaluate bot price free now)
  | .exitAnswered answer =>
    match s.exiting with
    | none => none
    | some _ =>
      some ({ s with holdings := answered bot s.holdings answer, exiting := none }.settle bot)
  | .change change =>
    (s.holdings.change bot.symbol change).map fun h =>
      { s with
        holdings := h
        checks := if change.Buys bot.symbol then [] else s.checks }.settle bot
  | .save now => some { s with stored := (s.holdings.snapshot now).jsonCopy }
  | .lateEvaluate h price free => some (s.lateEvaluate bot h price free)
  | .lateSave text => some { s with stored := text }
  | .reconnect reads =>
    (s.holdings.load (if reads then s.stored else none)).map fun h =>
      { s with holdings := h, exiting := none }.settle bot

end Model

end TrailingState

namespace TradeLedger

/-- An operation closes the position of an upper-case symbol, or keeps its entry price and
    high. -/
def KeptAt (s : String) (l l' : TradeLedger) : Prop :=
  l'.held s ≤ 0 ∨
    l'.avgEntry.get s = l.avgEntry.get s ∧ l'.trailingHigh.get s = l.trailingHigh.get s

namespace KeptAt

variable {s : String}

theorem refl (l : TradeLedger) : KeptAt s l l :=
  .inr ⟨rfl, rfl⟩

/-- A sell of any symbol closes a position or leaves its entry price and high. -/
theorem sellFill (l : TradeLedger) (symbol : String) (qty price : ℚ) :
    KeptAt s l (l.sellFill symbol qty price) := by
  rw [KeptAt, held, positions_sellFill, avgEntry_sellFill, trailingHigh_sellFill]
  split_ifs
  · exact .inr ⟨rfl, rfl⟩
  · by_cases hs : s = symbol
    · subst hs
      rw [InsertionMap.get_delete_self]
      exact .inl le_rfl
    · exact .inr ⟨InsertionMap.get_delete_of_ne _ hs, InsertionMap.get_delete_of_ne _ hs⟩

/-- So does a buy of another symbol. -/
theorem buyFill (l : TradeLedger) {symbol : String} (hs : s ≠ symbol) (qty price : ℚ) :
    KeptAt s l (l.buyFill symbol qty price) :=
  .inr ⟨InsertionMap.get_set_of_ne _ _ hs, InsertionMap.get_delete_of_ne _ hs⟩

theorem rebaseFill (l : TradeLedger) {symbol : String} (hs : s ≠ symbol) (qty price : ℚ) :
    KeptAt s l (l.rebaseFill symbol qty price) := by
  rw [TradeLedger.rebaseFill]
  dsimp only
  split_ifs
  · exact buyFill l hs qty price
  · exact .inr ⟨InsertionMap.get_set_of_ne _ _ hs, rfl⟩
  · exact refl l
  · exact .inr ⟨InsertionMap.get_set_of_ne _ _ hs, InsertionMap.get_delete_of_ne _ hs⟩

variable [CaseMapping]

/-- The balances close a position or leave its entry price and high. -/
theorem reconcilePositions (l : TradeLedger) (exchange : InsertionMap String ℚ) :
    KeptAt s l (l.reconcilePositions exchange) := by
  rw [KeptAt, held, positions_reconcilePositions, avgEntry_reconcilePositions,
    trailingHigh_reconcilePositions]
  cases lastBalance s exchange.entries with
  | none => exact .inl le_rfl
  | some q => exact .inr ⟨if_neg (by simp), if_neg (by simp)⟩

theorem applyFill (l : TradeLedger) (symbol : String) (side : Side) (qty price : ℚ)
    (hbuy : buyPrice s symbol side qty price = []) :
    KeptAt s l (l.applyFill symbol side qty price) := by
  unfold TradeLedger.applyFill
  split_ifs with hqty hprice
  · exact refl l
  · exact refl l
  · cases side with
    | sell => exact sellFill l _ qty price
    | buy =>
      refine buyFill l (fun hs => ?_) qty price
      rw [buyPrice, if_pos ⟨rfl, hs.symm, not_le.mp hqty, not_le.mp hprice⟩] at hbuy
      cases hbuy

theorem applyReconciledFill (l : TradeLedger) (symbol : String) (side : Side) (qty price : ℚ)
    (hbuy : buyPrice s symbol side qty price = []) :
    KeptAt s l (l.applyReconciledFill symbol side qty price) := by
  unfold TradeLedger.applyReconciledFill
  split_ifs with hqty hprice
  · exact refl l
  · exact refl l
  · cases side with
    | sell => exact sellFill l _ qty price
    | buy =>
      refine rebaseFill l (fun hs => ?_) qty price
      rw [buyPrice, if_pos ⟨rfl, hs.symm, not_le.mp hqty, not_le.mp hprice⟩] at hbuy
      cases hbuy

theorem apply (l : TradeLedger) {op : LedgerOp} (hbuy : op.bought s = []) :
    KeptAt s l (op.apply l) := by
  cases op with
  | applyFill symbol side qty price => exact applyFill l symbol side qty price hbuy
  | applyReconciledFill symbol side qty price =>
    exact applyReconciledFill l symbol side qty price hbuy
  | reconcilePositions exchange => exact reconcilePositions l exchange
  | recordOrder order => exact refl l
  | removeOrder id =>
    rw [LedgerOp.apply, removeOrder]
    cases l.openOrders.get id <;> exact refl l

end KeptAt

end TradeLedger

namespace Holdings

variable [CaseMapping] {symbol : String}

@[simp] theorem quantity_setTrailHigh (h : Holdings) (other : String) (high : ℚ) :
    (h.setTrailHigh other high).quantity symbol = h.quantity symbol := by
  cases h <;> rfl

@[simp] theorem entry_setTrailHigh (h : Holdings) (other : String) (high : ℚ) :
    (h.setTrailHigh other high).entry symbol = h.entry symbol := by
  cases h <;> rfl

@[simp] theorem trailHigh_setTrailHigh_self (h : Holdings) (high : ℚ) :
    (h.setTrailHigh symbol high).trailHigh symbol = some high := by
  cases h with
  | dry s => exact InsertionMap.get_set_self ..
  | live l => exact InsertionMap.get_set_self ..

theorem trailHigh_setTrailHigh_of_ne (h : Holdings) {other : String} (high : ℚ)
    (hne : toUpperCase other ≠ toUpperCase symbol) :
    (h.setTrailHigh other high).trailHigh symbol = h.trailHigh symbol := by
  cases h with
  | dry s => exact InsertionMap.get_set_of_ne _ _ fun hs => hne (hs ▸ rfl)
  | live l => exact InsertionMap.get_set_of_ne _ _ hne.symm

@[simp] theorem quantity_raise (h : Holdings) (raised : Option ℚ) :
    (h.raise symbol raised).quantity symbol = h.quantity symbol := by
  cases raised with
  | none => rfl
  | some high => exact h.quantity_setTrailHigh symbol high

@[simp] theorem entry_raise (h : Holdings) (raised : Option ℚ) :
    (h.raise symbol raised).entry symbol = h.entry symbol := by
  cases raised with
  | none => rfl
  | some high => exact h.entry_setTrailHigh symbol high

@[simp] theorem trailHigh_raise (h : Holdings) (raised : Option ℚ) :
    (h.raise symbol raised).trailHigh symbol = raised.or (h.trailHigh symbol) := by
  cases raised with
  | none => rfl
  | some high => exact h.trailHigh_setTrailHigh_self high

/-- What happened between two holdings closed the position of a symbol, or kept its entry
    price and high. -/
def Kept (symbol : String) (h h' : Holdings) : Prop :=
  h'.quantity symbol ≤ 0 ∨
    h'.entry symbol = h.entry symbol ∧ h'.trailHigh symbol = h.trailHigh symbol

theorem kept_live {l l' : TradeLedger} (h : l.KeptAt (toUpperCase symbol) l') :
    Kept symbol (live l) (live l') := by
  refine h.imp_right ?_
  rintro ⟨hentry, hhigh⟩
  exact ⟨congrArg (fun e => e.getD 0) hentry, hhigh⟩

theorem kept_sell (s : DryState) (sold : String) (quantity : ℚ) :
    Kept symbol (dry s) (dry (s.sell sold quantity)) := by
  rw [DryState.sell]
  split_ifs
  · exact .inr ⟨rfl, rfl⟩
  · by_cases hs : symbol = sold
    · subst hs
      left
      show ((s.positions.delete symbol).get symbol).getD 0 ≤ 0
      rw [InsertionMap.get_delete_self]
      exact le_rfl
    · right
      refine ⟨?_, InsertionMap.get_delete_of_ne _ hs⟩
      exact congrArg (fun e => (e.bind Amount.toOption).getD 0)
        (InsertionMap.get_delete_of_ne s.avgEntries hs)

theorem kept_placeOrder (s : DryState) (plan : OrderPlan) (price : ℚ) (origin : String) (now : ℕ)
    (hbuy : ¬ (plan.side = .buy ∧ plan.symbol = symbol)) :
    Kept symbol (dry s) (dry (s.placeOrder plan price origin now).2) := by
  rw [DryState.placeOrder]
  dsimp only
  split
  next hside =>
    have hs : symbol ≠ plan.symbol := fun hs => hbuy ⟨hside, hs.symm⟩
    right
    refine ⟨?_, InsertionMap.get_delete_of_ne _ hs⟩
    exact congrArg (fun e => (e.bind Amount.toOption).getD 0)
      (InsertionMap.get_set_of_ne s.avgEntries _ hs)
  next quantity _ _ =>
    split_ifs
    · exact .inr ⟨rfl, rfl⟩
    · exact kept_sell s plan.symbol quantity
  next => exact .inr ⟨rfl, rfl⟩

/-- **Kept**: what does not buy the symbol closes its position or keeps its entry price and
    high. -/
theorem kept_of_change {h h' : Holdings} {c : HoldingsChange}
    (hchange : h.change symbol c = some h') (hbuy : ¬ c.Buys symbol) : Kept symbol h h' := by
  cases c with
  | trade plan price origin now =>
    cases h with
    | dry s =>
      cases hchange
      exact kept_placeOrder s plan price origin now hbuy
    | live l => cases hchange
  | ledger op =>
    cases h with
    | dry s => cases hchange
    | live l =>
      cases hchange
      exact kept_live (TradeLedger.KeptAt.apply l (not_not.mp hbuy))
  | raiseOther other high =>
    have hwrites : (if toUpperCase other = toUpperCase symbol then none
        else some (h.setTrailHigh other high)) = some h' := by
      cases h <;> exact hchange
    obtain ⟨hne, heq⟩ := Option.ite_none_left_eq_some.mp hwrites
    cases heq
    exact .inr ⟨h.entry_setTrailHigh other high, h.trailHigh_setTrailHigh_of_ne high hne⟩

end Holdings

end BotHive.Crypto
