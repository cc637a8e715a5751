import BotHive.Crypto.Ledger
import Mathlib.Tactic.FieldSimp
import Mathlib.Tactic.Linarith

/-!
# The books of the ledger

`Accounts` runs the ledger on a trading history next to the quote currency that
changed hands: what the buys paid, what the sells received, and how much cost the
closed dust can account for. What was spent and not received is the cost of the open
positions less the realized profit; only a sell that closes a position with a
remainder of at most `eps` writes off the cost of that remainder.

## Main definitions

- `TradeFill`: one executed fill
- `TradeLedger.cost`: the cost of the open positions
- `Accounts`: the ledger with the quote currency spent and received

## Main results

- `balanced_step`: what one fill preserves
- `spent_sub_received_accounted`: the books balance after every trading history
-/

namespace BotHive.Crypto

/-- One call of `applyFill`. -/
structure TradeFill where
  symbol : String
  side : Side
  executedQty : ℚ
  avgPrice : ℚ

namespace TradeLedger

/-- Sum over the symbols of position times entry price. -/
def cost (l : TradeLedger) : ℚ :=
  l.positions.total fun s q => q * l.entry s

/-- The cost of all positions but one. -/
def costWithout (l : TradeLedger) (s : String) : ℚ :=
  (l.positions.delete s).total fun t q => q * l.entry t

/-- Every stored position is positive and has a positive entry price. -/
def Costed (l : TradeLedger) : Prop :=
  ∀ s q, l.positions.get s = some q → 0 < q ∧ 0 < l.entry s

theorem cost_eq (l : TradeLedger) (s : String) :
    l.cost = l.costWithout s + l.held s * l.entry s := by
  rw [cost, costWithout, held]
  cases h : l.positions.get s with
  | none =>
    rw [l.positions.delete_of_get_none h]
    simp
  | some q => exact (InsertionMap.total_delete_add _ l.positions h).symm

/-- Storing a position changes the cost of its own symbol only. -/
theorem cost_of_set {l l' : TradeLedger} {s : String} {q : ℚ}
    (hp : l'.positions = l.positions.set s q)
    (he : ∀ t, t ≠ s → l'.avgEntry.get t = l.avgEntry.get t) :
    l'.cost = l.costWithout s + q * l'.entry s := by
  rw [cost, hp, InsertionMap.total_set]
  congr 1
  refine InsertionMap.total_congr fun t r ht => ?_
  have hts : t ≠ s := by
    rintro rfl
    rw [InsertionMap.get_delete_self] at ht
    cases ht
  rw [entry, entry, he t hts]

/-- Closing a position removes the cost of its own symbol. -/
theorem cost_of_delete {l l' : TradeLedger} {s : String}
    (hp : l'.positions = l.positions.delete s)
    (he : ∀ t, t ≠ s → l'.avgEntry.get t = l.avgEntry.get t) :
    l'.cost = l.costWithout s := by
  rw [cost, hp]
  refine InsertionMap.total_congr fun t r ht => ?_
  have hts : t ≠ s := by
    rintro rfl
    rw [InsertionMap.get_delete_self] at ht
    cases ht
  rw [entry, entry, he t hts]

namespace Costed

variable {l l' : TradeLedger} {s : String} {qty price : ℚ}

theorem held_nonneg (h : l.Costed) (s : String) : 0 ≤ l.held s := by
  rw [held]
  cases hq : l.positions.get s with
  | none => exact le_rfl
  | some q => exact (h s q hq).1.le

/-- A position that is held has a known cost. -/
theorem entry_pos (h : l.Costed) (hs : 0 < l.held s) : 0 < l.entry s := by
  rw [held] at hs
  cases hq : l.positions.get s with
  | none =>
    rw [hq] at hs
    exact absurd hs (lt_irrefl 0)
  | some q => exact (h s q hq).2

/-- A stored position stays costed when only another symbol changes. -/
theorem of_ne {t : String} {q : ℚ} (h : l.Costed)
    (hp : l.positions.get t = some q) (he : l'.avgEntry.get t = l.avgEntry.get t) :
    0 < q ∧ 0 < l'.entry t := by
  rw [entry, he]
  exact h t q hp

theorem buyFill (h : l.Costed) (hq : 0 < qty) (hp : 0 < price) :
    (l.buyFill s qty price).Costed := by
  have hheld := h.held_nonneg s
  have hcost : 0 ≤ l.held s * l.entry s := by
    rcases hheld.eq_or_lt with h0 | hpos
    · rw [← h0, zero_mul]
    · exact (mul_pos hpos (h.entry_pos hpos)).le
  intro t r ht
  by_cases hts : t = s
  · subst hts
    have hr : (l.buyFill t qty price).positions.get t = some (l.held t + qty) :=
      InsertionMap.get_set_self ..
    have he : (l.buyFill t qty price).entry t =
        (l.held t * l.entry t + qty * price) / (l.held t + qty) := by
      rw [entry, TradeLedger.buyFill, InsertionMap.get_set_self, Option.getD_some]
    rw [hr, Option.some.injEq] at ht
    rw [he, ← ht]
    have hpaid : 0 < qty * price := mul_pos hq hp
    exact ⟨by linarith, div_pos (by linarith) (by linarith)⟩
  · have hget : l.positions.get t = some r := by
      rw [← ht]
      exact (InsertionMap.get_set_of_ne _ _ hts).symm
    exact h.of_ne hget (InsertionMap.get_set_of_ne _ _ hts)

theorem sellFill (h : l.Costed) (hq : 0 < qty) : (l.sellFill s qty price).Costed := by
  intro t r ht
  rw [positions_sellFill] at ht
  by_cases hr : eps < l.remaining s qty
  · have he : (l.sellFill s qty price).avgEntry = l.avgEntry := by
      rw [avgEntry_sellFill, if_pos hr]
    rw [if_pos hr, InsertionMap.get_set] at ht
    split_ifs at ht with hts
    · -- part of a held position is left, so its entry price was known
      rw [Option.some.injEq] at ht
      have hrem : 0 < l.remaining s qty := eps_pos.trans hr
      have hheld : 0 < l.held s := by
        refine (h.held_nonneg s).lt_of_ne fun h0 => ?_
        rw [TradeLedger.remaining, ← h0, min_eq_left hq.le, sub_zero] at hrem
        exact lt_irrefl 0 hrem
      rw [entry, he, hts]
      exact ⟨ht ▸ hrem, h.entry_pos hheld⟩
    · exact h.of_ne ht (by rw [he])
  · rw [if_neg hr, InsertionMap.get_delete] at ht
    split_ifs at ht with hts
    refine h.of_ne ht ?_
    rw [avgEntry_sellFill, if_neg hr, InsertionMap.get_delete_of_ne _ hts]

end Costed

/-- The cost that a sell writes off: that of a remainder which is too small to keep. -/
def writtenOff (l : TradeLedger) (s : String) (qty : ℚ) : ℚ :=
  if eps < l.remaining s qty then 0 else l.remaining s qty * l.entry s

theorem cost_buyFill (l : TradeLedger) {s : String} {qty : ℚ} (price : ℚ)
    (hnext : l.held s + qty ≠ 0) :
    (l.buyFill s qty price).cost = l.cost + qty * price := by
  have hset : (l.buyFill s qty price).cost =
      l.costWithout s + (l.held s + qty) * (l.buyFill s qty price).entry s :=
    cost_of_set rfl fun t ht => InsertionMap.get_set_of_ne _ _ ht
  have he : (l.buyFill s qty price).entry s =
      (l.held s * l.entry s + qty * price) / (l.held s + qty) := by
    rw [entry, buyFill, InsertionMap.get_set_self, Option.getD_some]
  rw [hset, he, l.cost_eq s, mul_div_cancel₀ _ hnext]
  ring

/-- A sell takes the cost of the sold part out of the positions, and what it writes off. -/
theorem cost_sellFill (l : TradeLedger) (s : String) (qty price : ℚ) :
    (l.sellFill s qty price).cost =
      l.cost - min (l.held s) qty * l.entry s - l.writtenOff s qty := by
  have he := l.avgEntry_sellFill s qty price
  have hp := l.positions_sellFill s qty price
  rw [l.cost_eq s, writtenOff]
  by_cases hr : eps < l.remaining s qty
  · rw [if_pos hr] at he hp
    have hset := cost_of_set hp fun t _ => congrArg (·.get t) he
    have hentry : (l.sellFill s qty price).entry s = l.entry s := by
      rw [entry, entry, he]
    rw [hset, hentry, if_pos hr, remaining]
    ring
  · rw [if_neg hr] at he hp
    have hdelete := cost_of_delete hp fun t ht => by
      rw [he, InsertionMap.get_delete_of_ne _ ht]
    rw [hdelete, if_neg hr, remaining]
    ring

/-- A sell of a costed position books the difference to its cost. -/
theorem Costed.pnl_sellFill {l : TradeLedger} (h : l.Costed) (s : String) {qty : ℚ} (price : ℚ)
    (hq : 0 < qty) :
    (l.sellFill s qty price).pnl =
      l.pnl + (price - l.entry s) * min (l.held s) qty := by
  rw [pnl, realizedPnl_sellFill]
  rcases (h.held_nonneg s).eq_or_lt with h0 | hpos
  · have hsold : min (l.held s) qty = 0 := by
      rw [← h0, min_eq_left hq.le]
    rw [hsold, if_neg fun hc => lt_irrefl 0 hc.2, mul_zero, add_zero, pnl]
  · rw [if_pos ⟨h.entry_pos hpos, lt_min hpos hq⟩, pnl]

/-- Only a remainder that is dust is written off, at its entry price. -/
theorem Costed.writtenOff_mem {l : TradeLedger} (h : l.Costed) (s : String) {qty : ℚ}
    (hq : 0 < qty) :
    0 ≤ l.writtenOff s qty ∧ l.writtenOff s qty ≤
      if 0 < l.remaining s qty ∧ l.remaining s qty ≤ eps then eps * l.entry s else 0 := by
  have hrem : 0 ≤ l.remaining s qty := sub_nonneg.mpr (min_le_left _ _)
  rw [writtenOff]
  by_cases hr : eps < l.remaining s qty
  · rw [if_pos hr, if_neg fun hc => not_lt.mpr hc.2 hr]
    exact ⟨le_rfl, le_rfl⟩
  rw [if_neg hr]
  rcases hrem.eq_or_lt with h0 | hpos
  · rw [← h0, zero_mul, if_neg fun hc => lt_irrefl 0 hc.1]
    exact ⟨le_rfl, le_rfl⟩
  · have hheld : 0 < l.held s := by
      refine (h.held_nonneg s).lt_of_ne fun h0 => ?_
      rw [remaining, ← h0, min_eq_left hq.le, sub_zero] at hpos
      exact lt_irrefl 0 hpos
    have hentry := h.entry_pos hheld
    rw [not_lt] at hr
    rw [if_pos ⟨hpos, hr⟩]
    exact ⟨mul_nonneg hrem hentry.le, mul_le_mul_of_nonneg_right hr hentry.le⟩

end TradeLedger

/-- The ledger with the quote currency spent on buys and received for sells, and the most
    that the sells which closed a position with some dust can have written off. -/
structure Accounts where
  ledger : TradeLedger
  spent : ℚ
  received : ℚ
  dust : ℚ

namespace Accounts

/-- The books before the first fill. -/
def start : Accounts :=
  ⟨.empty, 0, 0, 0⟩

section Model

variable [CaseMapping]

/-- Book one fill. A fill without a positive quantity and price is no fill; of a sell
    only the part that the position covers is sold. -/
def step (a : Accounts) (fill : TradeFill) : Accounts :=
  let ledger := a.ledger.applyFill fill.symbol fill.side fill.executedQty fill.avgPrice
  if fill.executedQty ≤ 0 ∨ fill.avgPrice ≤ 0 then { a with ledger := ledger }
  else match fill.side with
    | .buy =>
      { a with
        ledger := ledger
        spent := a.spent + fill.executedQty * fill.avgPrice }
    | .sell =>
      let sold := min (a.ledger.position fill.symbol) fill.executedQty
      let remainder := a.ledger.position fill.symbol - sold
      { a with
        ledger := ledger
        received := a.received + sold * fill.avgPrice
        dust := a.dust +
          if 0 < remainder ∧ remainder ≤ eps then eps * a.ledger.avgEntryFor fill.symbol
          else 0 }

/-- The books balance: what was spent and not received is the cost of the open positions
    less the realized profit, up to the dust. -/
structure Balanced (a : Accounts) : Prop where
  costed : a.ledger.Costed
  cost_sub_pnl_le : a.ledger.cost - a.ledger.pnl ≤ a.spent - a.received
  le_cost_sub_pnl : a.spent - a.received ≤ a.ledger.cost - a.ledger.pnl + a.dust

omit [CaseMapping] in
theorem balanced_start : start.Balanced where
  costed _ _ hq := nomatch hq
  cost_sub_pnl_le := by simp [start, TradeLedger.cost, TradeLedger.empty, TradeLedger.pnl]
  le_cost_sub_pnl := by simp [start, TradeLedger.cost, TradeLedger.empty, TradeLedger.pnl]

/-- A buy adds what it paid to the cost of the position. -/
theorem Balanced.buy {a : Accounts} (h : a.Balanced) (symbol : String) {qty price : ℚ}
    (hq : 0 < qty) (hp : 0 < price) : (a.step ⟨symbol, .buy, qty, price⟩).Balanced := by
  have hstep : a.step ⟨symbol, .buy, qty, price⟩ =
      { a with
        ledger := a.ledger.buyFill (toUpperCase symbol) qty price
        spent := a.spent + qty * price } := by
    simp only [step, TradeLedger.applyFill, not_le.mpr hq, not_le.mpr hp, or_self, if_false]
  have hnext : a.ledger.held (toUpperCase symbol) + qty ≠ 0 := by
    have := h.costed.held_nonneg (toUpperCase symbol)
    linarith
  have hcost := a.ledger.cost_buyFill price hnext
  have hpnl : (a.ledger.buyFill (toUpperCase symbol) qty price).pnl = a.ledger.pnl := rfl
  have hlow := h.cost_sub_pnl_le
  have hhigh := h.le_cost_sub_pnl
  rw [hstep]
  refine ⟨h.costed.buyFill hq hp, ?_, ?_⟩
  · rw [hcost, hpnl]
    linarith
  · rw [hcost, hpnl]
    linarith

/-- A sell moves the cost of the sold part to the profit, and dust to what is written off. -/
theorem Balanced.sell {a : Accounts} (h : a.Balanced) (symbol : String) {qty price : ℚ}
    (hq : 0 < qty) (hp : 0 < price) : (a.step ⟨symbol, .sell, qty, price⟩).Balanced := by
  let s := toUpperCase symbol
  have hstep : a.step ⟨symbol, .sell, qty, price⟩ =
      { a with
        ledger := a.ledger.sellFill s qty price
        received := a.received + min (a.ledger.held s) qty * price
        dust := a.dust +
          if 0 < a.ledger.remaining s qty ∧ a.ledger.remaining s qty ≤ eps then
            eps * a.ledger.entry s
          else 0 } := by
    simp only [step, TradeLedger.applyFill, not_le.mpr hq, not_le.mpr hp, or_self, if_false]
    rfl
  have hcost := a.ledger.cost_sellFill s qty price
  have hpnl := h.costed.pnl_sellFill s price hq
  obtain ⟨hlow', hhigh'⟩ := h.costed.writtenOff_mem s hq
  have hlow := h.cost_sub_pnl_le
  have hhigh := h.le_cost_sub_pnl
  rw [hstep]
  refine ⟨h.costed.sellFill hq, ?_, ?_⟩
  · rw [hcost, hpnl]
    linarith
  · rw [hcost, hpnl]
    linarith

/-- Every fill keeps the books balanced. -/
theorem balanced_step {a : Accounts} (h : a.Balanced) (fill : TradeFill) :
    (a.step fill).Balanced := by
  obtain ⟨symbol, side, qty, price⟩ := fill
  by_cases hvoid : qty ≤ 0 ∨ price ≤ 0
  · have hstep : a.step ⟨symbol, side, qty, price⟩ = a := by
      rw [step, if_pos hvoid]
      unfold TradeLedger.applyFill
      split_ifs with hq hp
      · rfl
      · rfl
      · exact absurd hvoid (not_or_intro hq hp)
    rw [hstep]
    exact h
  rw [not_or, not_le, not_le] at hvoid
  cases side with
  | buy => exact h.buy symbol hvoid.1 hvoid.2
  | sell => exact h.sell symbol hvoid.1 hvoid.2

theorem balanced_foldl (fills : List TradeFill) {a : Accounts} (h : a.Balanced) :
    (fills.foldl step a).Balanced := by
  induction fills generalizing a with
  | nil => exact h
  | cons fill rest ih => exact ih (balanced_step h fill)

/-- The books follow the ledger. -/
theorem ledger_foldl (fills : List TradeFill) (a : Accounts) :
    (fills.foldl step a).ledger =
      fills.foldl (fun l f => l.applyFill f.symbol f.side f.executedQty f.avgPrice) a.ledger := by
  induction fills generalizing a with
  | nil => rfl
  | cons fill rest ih =>
    have hledger : (a.step fill).ledger =
        a.ledger.applyFill fill.symbol fill.side fill.executedQty fill.avgPrice := by
      rw [step]
      split
      · rfl
      · cases fill.side <;> rfl
    rw [List.foldl_cons, ih, hledger, List.foldl_cons]

/-- **Accounting identity**: after every trading history on an empty ledger the quote
    currency spent and not received is the cost of the positions less the profit, up to
    `eps` times the entry price for each sell that closed a position with some dust. -/
theorem spent_sub_received_accounted (fills : List TradeFill) :
    let a := fills.foldl step start
    a.ledger = fills.foldl (fun l f => l.applyFill f.symbol f.side f.executedQty f.avgPrice)
        .empty ∧
      0 ≤ a.spent - a.received - (a.ledger.cost - a.ledger.pnl) ∧
      a.spent - a.received - (a.ledger.cost - a.ledger.pnl) ≤ a.dust := by
  intro a
  have hbalanced : a.Balanced := balanced_foldl fills balanced_start
  have hlow := hbalanced.cost_sub_pnl_le
  have hhigh := hbalanced.le_cost_sub_pnl
  refine ⟨ledger_foldl fills start, ?_, ?_⟩
  · linarith
  · linarith

end Model

/-- Two buys and two sells that close the position and leave some dust behind. -/
example :
    ([⟨"BTCUSDT", .buy, 1, 100⟩, ⟨"btcusdt", .buy, 1, 200⟩, ⟨"BTCUSDT", .sell, 1, 180⟩,
        ⟨"BTCUSDT", .sell, 1 - 1 / 10 ^ 11, 200⟩].foldl step start).ledger.cost = 0 := by
  decide +kernel

end Accounts

end BotHive.Crypto
