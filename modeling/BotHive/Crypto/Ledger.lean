import BotHive.Library.InsertionMap
import BotHive.Library.Text

/-!
# The trade ledger of a live bot

The exchange is the source of truth for positions; the ledger keeps the weighted
average entry prices, the realized profit and the orders that the bot has placed
and not yet seen leave the exchange. Amounts are rational numbers, symbols are
stored in upper case.

## Main definitions

- `TradeLedger`: positions, entry prices, trailing highs, profit, open orders
- `TradeLedger.applyFill`, `applyReconciledFill`, `reconcilePositions`,
  `recordOrder`, `removeOrder`: the operations
- `TradeLedger.buyFill`, `sellFill`: the two branches of a fill on a stored symbol

## Main results

- `positions_sellFill`, `avgEntry_sellFill`, `positions_reconcilePositions`,
  `avgEntry_reconcilePositions`: what an operation does to the position and to the entry
  price of every symbol
-/

namespace BotHive.Crypto

inductive Side where
  | buy
  | sell
  deriving DecidableEq, Repr

inductive OrderType where
  | market
  | limit
  deriving DecidableEq, Repr

structure TrackedOrder where
  clientOrderId : String
  orderId : Option ℕ
  symbol : String
  side : Side
  type : OrderType
  /-- Limit price; none for market orders. -/
  price : Option ℚ
  /-- Order quantity in the base asset (0 when only a quote amount was given). -/
  quantity : ℚ
  /-- Milliseconds since the epoch. -/
  placedAt : ℕ
  deriving DecidableEq

/-- A position of at most this size is closed. -/
def eps : ℚ := 1 / 10 ^ 10

theorem eps_pos : 0 < eps := by
  norm_num [eps]

structure TradeLedger where
  positions : InsertionMap String ℚ
  avgEntry : InsertionMap String ℚ
  trailingHigh : InsertionMap String ℚ
  realizedPnl : ℚ
  openOrders : InsertionMap String TrackedOrder

namespace TradeLedger

/-- The ledger of a bot that has not traded. -/
def empty : TradeLedger where
  positions := .empty
  avgEntry := .empty
  trailingHigh := .empty
  realizedPnl := 0
  openOrders := .empty

/-- The position stored under an upper-case symbol, 0 when there is none. -/
def held (l : TradeLedger) (s : String) : ℚ :=
  (l.positions.get s).getD 0

/-- The entry price stored under an upper-case symbol, 0 when there is none. -/
def entry (l : TradeLedger) (s : String) : ℚ :=
  (l.avgEntry.get s).getD 0

section Accessors

variable [CaseMapping]

def position (l : TradeLedger) (symbol : String) : ℚ :=
  l.held (toUpperCase symbol)

def avgEntryFor (l : TradeLedger) (symbol : String) : ℚ :=
  l.entry (toUpperCase symbol)

def trailingHighFor (l : TradeLedger) (symbol : String) : Option ℚ :=
  l.trailingHigh.get (toUpperCase symbol)

def setTrailingHigh (l : TradeLedger) (symbol : String) (price : ℚ) : TradeLedger :=
  { l with trailingHigh := l.trailingHigh.set (toUpperCase symbol) price }

end Accessors

def pnl (l : TradeLedger) : ℚ :=
  l.realizedPnl

def openCount (l : TradeLedger) : ℕ :=
  l.openOrders.size

def openOrdersList (l : TradeLedger) : List TrackedOrder :=
  l.openOrders.values

def recordOrder (l : TradeLedger) (order : TrackedOrder) : TradeLedger :=
  { l with openOrders := l.openOrders.set order.clientOrderId order }

/-- Forget an open order; the order that was forgotten is returned. -/
def removeOrder (l : TradeLedger) (clientOrderId : String) :
    Option TrackedOrder × TradeLedger :=
  match l.openOrders.get clientOrderId with
  | none => (none, l)
  | some order => (some order, { l with openOrders := l.openOrders.delete clientOrderId })

/-- Drop the position of an upper-case symbol with its entry price and trailing high. -/
def close (l : TradeLedger) (s : String) : TradeLedger :=
  { l with
    positions := l.positions.delete s
    avgEntry := l.avgEntry.delete s
    trailingHigh := l.trailingHigh.delete s }

/-- The buy branch of `applyFill`: the quantity joins the position, and the
    entry price becomes the mean weighted with what the position held before. -/
def buyFill (l : TradeLedger) (s : String) (qty price : ℚ) : TradeLedger :=
  let current := l.held s
  let cost := current * l.entry s
  let next := current + qty
  { l with
    avgEntry := l.avgEntry.set s ((cost + qty * price) / next)
    positions := l.positions.set s next
    trailingHigh := l.trailingHigh.delete s }

/-- The sell branch, the same in `applyFill` and `applyReconciledFill`: the part
    that the position covers is sold; without an entry price no profit is booked. -/
def sellFill (l : TradeLedger) (s : String) (qty price : ℚ) : TradeLedger :=
  let current := l.held s
  let entry := l.entry s
  let sold := min current qty
  let l := if 0 < entry ∧ 0 < sold then
      { l with realizedPnl := l.realizedPnl + (price - entry) * sold }
    else l
  let remaining := current - sold
  if eps < remaining then { l with positions := l.positions.set s remaining }
  else l.close s

/-- The buy branch of `applyReconciledFill`: the position already includes the
    fill, so only the entry price changes. -/
def rebaseFill (l : TradeLedger) (s : String) (qty price : ℚ) : TradeLedger :=
  let current := l.held s
  if current ≤ 0 then l.buyFill s qty price
  else
    let basis := max 0 (current - qty)
    -- an undefined entry price reads as 0, which is no basis either
    let known := l.entry s
    if known ≤ 0 then
      if current - eps ≤ qty then { l with avgEntry := l.avgEntry.set s price } else l
    else
      let cost := basis * known + qty * price
      { l with
        avgEntry := l.avgEntry.set s (cost / current)
        trailingHigh := l.trailingHigh.delete s }

section Operations

variable [CaseMapping]

/-- Apply an executed fill: a market-order result, or a limit order that filled. -/
def applyFill (l : TradeLedger) (symbol : String) (side : Side) (executedQty avgPrice : ℚ) :
    TradeLedger :=
  if executedQty ≤ 0 then l
  else if avgPrice ≤ 0 then l
  else match side with
    | .buy => l.buyFill (toUpperCase symbol) executedQty avgPrice
    | .sell => l.sellFill (toUpperCase symbol) executedQty avgPrice

/-- Apply a fill that the exchange balance already reflects. -/
def applyReconciledFill (l : TradeLedger) (symbol : String) (side : Side)
    (executedQty avgPrice : ℚ) : TradeLedger :=
  if executedQty ≤ 0 then l
  else if avgPrice ≤ 0 then l
  else match side with
    | .sell => l.sellFill (toUpperCase symbol) executedQty avgPrice
    | .buy => l.rebaseFill (toUpperCase symbol) executedQty avgPrice

/-- Write the positive balances into the positions, in the order of the record. -/
def overwritePositions (exchange : InsertionMap String ℚ) (positions : InsertionMap String ℚ) :
    InsertionMap String ℚ :=
  exchange.entries.foldl
    (fun m e => if 0 < e.2 then m.set (toUpperCase e.1) e.2 else m) positions

/-- The symbols with a positive balance, in upper case. -/
def keptSymbols (exchange : InsertionMap String ℚ) : List String :=
  (exchange.entries.filter fun e => 0 < e.2).map fun e => toUpperCase e.1

/-- Replace the positions by the balances of the exchange; entry prices stay for
    the symbols that keep a position. -/
def reconcilePositions (l : TradeLedger) (exchange : InsertionMap String ℚ) : TradeLedger :=
  let kept := keptSymbols exchange
  let l := { l with positions := overwritePositions exchange l.positions }
  (l.positions.keys.filter (· ∉ kept)).foldl close l

end Operations

/-- What is left of a position after selling `qty`. -/
def remaining (l : TradeLedger) (s : String) (qty : ℚ) : ℚ :=
  l.held s - min (l.held s) qty

theorem positions_sellFill (l : TradeLedger) (s : String) (qty price : ℚ) :
    (l.sellFill s qty price).positions =
      if eps < l.remaining s qty then l.positions.set s (l.remaining s qty)
      else l.positions.delete s := by
  rw [sellFill, remaining]
  split_ifs <;> rfl

theorem avgEntry_sellFill (l : TradeLedger) (s : String) (qty price : ℚ) :
    (l.sellFill s qty price).avgEntry =
      if eps < l.remaining s qty then l.avgEntry else l.avgEntry.delete s := by
  rw [sellFill, remaining]
  split_ifs <;> rfl

theorem trailingHigh_sellFill (l : TradeLedger) (s : String) (qty price : ℚ) :
    (l.sellFill s qty price).trailingHigh =
      if eps < l.remaining s qty then l.trailingHigh else l.trailingHigh.delete s := by
  rw [sellFill, remaining]
  split_ifs <;> rfl

theorem realizedPnl_sellFill (l : TradeLedger) (s : String) (qty price : ℚ) :
    (l.sellFill s qty price).realizedPnl =
      if 0 < l.entry s ∧ 0 < min (l.held s) qty then
        l.realizedPnl + (price - l.entry s) * min (l.held s) qty
      else l.realizedPnl := by
  rw [sellFill]
  split_ifs <;> rfl

/-- A reconciled buy changes the positions only when it opens one. -/
theorem positions_rebaseFill (l : TradeLedger) (s : String) (qty price : ℚ) :
    (l.rebaseFill s qty price).positions =
      if l.held s ≤ 0 then l.positions.set s (l.held s + qty) else l.positions := by
  rw [rebaseFill]
  dsimp only
  split_ifs <;> rfl

/-- With a known basis a reconciled buy mixes its price into the entry price. -/
theorem avgEntry_rebaseFill_of_known (l : TradeLedger) {s : String} (qty price : ℚ)
    (hs : 0 < l.held s) (hpos : 0 < l.entry s) :
    (l.rebaseFill s qty price).avgEntry =
      l.avgEntry.set s ((max 0 (l.held s - qty) * l.entry s + qty * price) / l.held s) := by
  rw [rebaseFill, if_neg (not_le.mpr hs)]
  simp only [if_neg (not_le.mpr hpos)]

/-- Without a known basis a reconciled buy sets the entry price only when it
    explains the whole position. -/
theorem avgEntry_rebaseFill_of_unknown (l : TradeLedger) {s : String} (qty price : ℚ)
    (hs : 0 < l.held s) (hk : l.entry s ≤ 0) :
    (l.rebaseFill s qty price).avgEntry =
      if l.held s - eps ≤ qty then l.avgEntry.set s price else l.avgEntry := by
  rw [rebaseFill, if_neg (not_le.mpr hs)]
  simp only [if_pos hk]
  split_ifs <;> rfl

theorem positions_foldl_close (ks : List String) (l : TradeLedger) :
    (ks.foldl close l).positions = ks.foldl (fun m k => m.delete k) l.positions := by
  induction ks generalizing l with
  | nil => rfl
  | cons k rest ih => exact ih (l.close k)

theorem avgEntry_foldl_close (ks : List String) (l : TradeLedger) :
    (ks.foldl close l).avgEntry = ks.foldl (fun m k => m.delete k) l.avgEntry := by
  induction ks generalizing l with
  | nil => rfl
  | cons k rest ih => exact ih (l.close k)

theorem trailingHigh_foldl_close (ks : List String) (l : TradeLedger) :
    (ks.foldl close l).trailingHigh = ks.foldl (fun m k => m.delete k) l.trailingHigh := by
  induction ks generalizing l with
  | nil => rfl
  | cons k rest ih => exact ih (l.close k)

theorem realizedPnl_foldl_close (ks : List String) (l : TradeLedger) :
    (ks.foldl close l).realizedPnl = l.realizedPnl := by
  induction ks generalizing l with
  | nil => rfl
  | cons k rest ih => exact ih (l.close k)

theorem openOrders_foldl_close (ks : List String) (l : TradeLedger) :
    (ks.foldl close l).openOrders = l.openOrders := by
  induction ks generalizing l with
  | nil => rfl
  | cons k rest ih => exact ih (l.close k)

theorem openOrders_sellFill (l : TradeLedger) (s : String) (qty price : ℚ) :
    (l.sellFill s qty price).openOrders = l.openOrders := by
  rw [sellFill]
  split_ifs <;> rfl

theorem openOrders_rebaseFill (l : TradeLedger) (s : String) (qty price : ℚ) :
    (l.rebaseFill s qty price).openOrders = l.openOrders := by
  rw [rebaseFill]
  dsimp only
  split_ifs <;> rfl

theorem get_openOrders_removeOrder (l : TradeLedger) (clientOrderId id : String) :
    (l.removeOrder clientOrderId).2.openOrders.get id =
      if id = clientOrderId then none else l.openOrders.get id := by
  rw [removeOrder]
  cases h : l.openOrders.get clientOrderId with
  | none =>
    split_ifs with hid
    · subst hid
      exact h
    · rfl
  | some order => exact InsertionMap.get_delete l.openOrders clientOrderId id

section OpenOrders

variable [CaseMapping]

@[simp] theorem openOrders_applyFill (l : TradeLedger) (symbol : String) (side : Side)
    (qty price : ℚ) : (l.applyFill symbol side qty price).openOrders = l.openOrders := by
  cases side with
  | buy =>
    rw [applyFill]
    split_ifs <;> rfl
  | sell =>
    rw [applyFill]
    split_ifs
    · rfl
    · rfl
    · exact openOrders_sellFill l _ qty price

@[simp] theorem openOrders_applyReconciledFill (l : TradeLedger) (symbol : String) (side : Side)
    (qty price : ℚ) : (l.applyReconciledFill symbol side qty price).openOrders = l.openOrders := by
  cases side with
  | buy =>
    rw [applyReconciledFill]
    split_ifs
    · rfl
    · rfl
    · exact openOrders_rebaseFill l _ qty price
  | sell =>
    rw [applyReconciledFill]
    split_ifs
    · rfl
    · rfl
    · exact openOrders_sellFill l _ qty price

@[simp] theorem openOrders_reconcilePositions (l : TradeLedger)
    (exchange : InsertionMap String ℚ) :
    (l.reconcilePositions exchange).openOrders = l.openOrders :=
  openOrders_foldl_close _ _

end OpenOrders

section Reconcile

variable [CaseMapping]

/-- The balance that a list of record entries leaves for an upper-case symbol:
    the last positive one that is written under it. -/
def lastBalance (s : String) : List (String × ℚ) → Option ℚ
  | [] => none
  | e :: rest =>
    (lastBalance s rest).or (if 0 < e.2 ∧ toUpperCase e.1 = s then some e.2 else none)

theorem lastBalance_pos {s : String} {entries : List (String × ℚ)} {q : ℚ}
    (h : lastBalance s entries = some q) : 0 < q := by
  induction entries with
  | nil => cases h
  | cons e rest ih =>
    rw [lastBalance, Option.or_eq_some_iff] at h
    rcases h with h | ⟨_, h⟩
    · exact ih h
    · split_ifs at h with hc
      rw [Option.some.injEq] at h
      exact h ▸ hc.1

theorem get_foldl_overwrite (entries : List (String × ℚ)) (m : InsertionMap String ℚ)
    (s : String) :
    (entries.foldl (fun m e => if 0 < e.2 then m.set (toUpperCase e.1) e.2 else m) m).get s =
      (lastBalance s entries).or (m.get s) := by
  induction entries generalizing m with
  | nil => rfl
  | cons e rest ih =>
    rw [List.foldl_cons, ih, lastBalance, Option.or_assoc]
    congr 1
    by_cases hpos : 0 < e.2
    · rw [if_pos hpos, InsertionMap.get_set]
      by_cases hs : s = toUpperCase e.1
      · simp [hs, hpos]
      · have hs' : ¬ toUpperCase e.1 = s := fun h => hs h.symm
        simp [hs, hs']
    · simp [hpos]

theorem mem_keptSymbols_iff (exchange : InsertionMap String ℚ) (s : String) :
    s ∈ keptSymbols exchange ↔ (lastBalance s exchange.entries).isSome := by
  rw [keptSymbols]
  induction exchange.entries with
  | nil => simp [lastBalance]
  | cons e rest ih =>
    by_cases hpos : 0 < e.2
    · rw [List.filter_cons_of_pos (by simpa using hpos), List.map_cons, List.mem_cons, ih,
        lastBalance]
      by_cases hs : toUpperCase e.1 = s
      · simp [hs, hpos]
      · have hs' : ¬ s = toUpperCase e.1 := fun h => hs h.symm
        simp [hs, hs']
    · rw [List.filter_cons_of_neg (by simpa using hpos), ih, lastBalance]
      simp [hpos]

/-- The symbols that lose their position: held before, without a positive balance. -/
theorem mem_keys_overwrite_not_kept (m exchange : InsertionMap String ℚ) (s : String) :
    s ∈ (overwritePositions exchange m).keys.filter (· ∉ keptSymbols exchange) ↔
      lastBalance s exchange.entries = none ∧ (m.get s).isSome := by
  rw [List.mem_filter, InsertionMap.mem_keys_iff, decide_eq_true_eq, mem_keptSymbols_iff,
    overwritePositions, get_foldl_overwrite]
  cases lastBalance s exchange.entries with
  | none => simp [Option.isSome_iff_exists]
  | some q => simp

/-- After reconciling, a symbol has a position exactly when the exchange reports
    a positive balance for it, and that balance is the position. -/
theorem positions_reconcilePositions (l : TradeLedger) (exchange : InsertionMap String ℚ)
    (s : String) :
    (l.reconcilePositions exchange).positions.get s = lastBalance s exchange.entries := by
  rw [reconcilePositions, positions_foldl_close, InsertionMap.get_foldl_delete]
  simp only [mem_keys_overwrite_not_kept]
  rw [overwritePositions, get_foldl_overwrite]
  cases lastBalance s exchange.entries with
  | none => cases l.positions.get s <;> simp
  | some q => simp

/-- Reconciling forgets the entry price of a symbol that loses its position. -/
theorem avgEntry_reconcilePositions (l : TradeLedger) (exchange : InsertionMap String ℚ)
    (s : String) :
    (l.reconcilePositions exchange).avgEntry.get s =
      if lastBalance s exchange.entries = none ∧ (l.positions.get s).isSome then none
      else l.avgEntry.get s := by
  rw [reconcilePositions, avgEntry_foldl_close, InsertionMap.get_foldl_delete]
  simp only [mem_keys_overwrite_not_kept]

/-- So it forgets the trailing high. -/
theorem trailingHigh_reconcilePositions (l : TradeLedger) (exchange : InsertionMap String ℚ)
    (s : String) :
    (l.reconcilePositions exchange).trailingHigh.get s =
      if lastBalance s exchange.entries = none ∧ (l.positions.get s).isSome then none
      else l.trailingHigh.get s := by
  rw [reconcilePositions, trailingHigh_foldl_close, InsertionMap.get_foldl_delete]
  simp only [mem_keys_overwrite_not_kept]

theorem realizedPnl_reconcilePositions (l : TradeLedger) (exchange : InsertionMap String ℚ) :
    (l.reconcilePositions exchange).realizedPnl = l.realizedPnl := by
  rw [reconcilePositions, realizedPnl_foldl_close]

end Reconcile

end TradeLedger

end BotHive.Crypto
