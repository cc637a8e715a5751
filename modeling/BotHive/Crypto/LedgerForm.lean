import BotHive.Library.Machine
import BotHive.Crypto.LedgerBasis

/-!
# The representation of the ledger

The three maps of the ledger are created and erased by different operations. In
every ledger that the operations build from the empty one, a symbol with an entry
price or a trailing high has a position, everything stored is positive, symbols are in
upper case and every open order is stored under its own id.

## Main definitions

- `LedgerCall`: one call of any operation that changes the ledger
- `LedgerCall.Admissible`: what the callers of the operations promise
- `TradeLedger.WellFormed`: the invariant of the representation

## Main results

- `wellFormed_apply`: every admissible call keeps the invariant
-/

namespace BotHive.Crypto

/-- One call of an operation that changes the ledger. -/
inductive LedgerCall where
  | operation (op : LedgerOp)
  | setTrailingHigh (symbol : String) (price : ℚ)

/-- What the ledger stores about one symbol: its position, entry price and trailing high. -/
structure StoredFor (position entry high : Option ℚ) : Prop where
  position_pos : ∀ q, position = some q → 0 < q
  entry_pos : ∀ e, entry = some e → 0 < e
  high_pos : ∀ p, high = some p → 0 < p
  entry_held : entry.isSome → position.isSome
  high_held : high.isSome → position.isSome

namespace StoredFor

variable {position entry high : Option ℚ} {q e p : ℚ}

theorem closed : StoredFor none none none where
  position_pos _ h := nomatch h
  entry_pos _ h := nomatch h
  high_pos _ h := nomatch h
  entry_held h := nomatch h
  high_held h := nomatch h

theorem withPosition (h : StoredFor position entry high) (hq : 0 < q) :
    StoredFor (some q) entry high where
  position_pos r hr := by
    rw [Option.some.injEq] at hr
    exact hr ▸ hq
  entry_pos := h.entry_pos
  high_pos := h.high_pos
  entry_held _ := rfl
  high_held _ := rfl

theorem withEntry (h : StoredFor position entry high) (hheld : position.isSome) (he : 0 < e) :
    StoredFor position (some e) high where
  position_pos := h.position_pos
  entry_pos r hr := by
    rw [Option.some.injEq] at hr
    exact hr ▸ he
  high_pos := h.high_pos
  entry_held _ := hheld
  high_held := h.high_held

theorem withHigh (h : StoredFor position entry high) (hheld : position.isSome) (hp : 0 < p) :
    StoredFor position entry (some p) where
  position_pos := h.position_pos
  entry_pos := h.entry_pos
  high_pos r hr := by
    rw [Option.some.injEq] at hr
    exact hr ▸ hp
  entry_held := h.entry_held
  high_held _ := hheld

theorem withoutHigh (h : StoredFor position entry high) : StoredFor position entry none where
  position_pos := h.position_pos
  entry_pos := h.entry_pos
  high_pos _ hr := nomatch hr
  entry_held := h.entry_held
  high_held hr := nomatch hr

end StoredFor

/-- The fields that the loader of a snapshot checks. -/
structure ValidOrder (order : TrackedOrder) : Prop where
  clientOrderId_ne : order.clientOrderId ≠ ""
  symbol_ne : order.symbol ≠ ""
  quantity_nonneg : 0 ≤ order.quantity

section Model

variable [CaseMapping]

def LedgerCall.apply (l : TradeLedger) : LedgerCall → TradeLedger
  | .operation op => op.apply l
  | .setTrailingHigh symbol price => l.setTrailingHigh symbol price

/-- The order that a call returns. -/
def LedgerCall.returned (l : TradeLedger) : LedgerCall → Option TrackedOrder
  | .operation (.removeOrder clientOrderId) => (l.removeOrder clientOrderId).1
  | _ => none

/-- Orders are recorded with an id, a symbol and a quantity of at least 0; the trailing
    high is set to a positive price for a symbol with a position. -/
def LedgerCall.Admissible (l : TradeLedger) : LedgerCall → Prop
  | .operation (.recordOrder order) => ValidOrder order
  | .setTrailingHigh symbol price => 0 < l.position symbol ∧ 0 < price
  | _ => True

namespace TradeLedger

/-- The invariant of the representation. -/
structure WellFormed (l : TradeLedger) : Prop where
  stored : ∀ s, StoredFor (l.positions.get s) (l.avgEntry.get s) (l.trailingHigh.get s)
  upper : ∀ s, (l.positions.get s).isSome → toUpperCase s = s
  orders : ∀ id order, l.openOrders.get id = some order →
    order.clientOrderId = id ∧ ValidOrder order

namespace WellFormed

variable {l l' : TradeLedger} {s : String} {qty price : ℚ}

theorem held_nonneg (h : l.WellFormed) (s : String) : 0 ≤ l.held s := by
  rw [held]
  cases hq : l.positions.get s with
  | none => exact le_rfl
  | some q => exact ((h.stored s).position_pos q hq).le

theorem entry_nonneg (h : l.WellFormed) (s : String) : 0 ≤ l.entry s := by
  rw [entry]
  cases he : l.avgEntry.get s with
  | none => exact le_rfl
  | some e => exact ((h.stored s).entry_pos e he).le

/-- A symbol with an entry price has a position. -/
theorem held_pos_of_entry (h : l.WellFormed) (hs : 0 < l.entry s) : 0 < l.held s := by
  have hentry : (l.avgEntry.get s).isSome := by
    by_contra hnone
    rw [entry, Option.not_isSome_iff_eq_none.mp hnone] at hs
    exact lt_irrefl 0 hs
  obtain ⟨q, hq⟩ := Option.isSome_iff_exists.mp ((h.stored s).entry_held hentry)
  rw [held, hq]
  exact (h.stored s).position_pos q hq

omit [CaseMapping] in
theorem isSome_of_held_pos (hs : 0 < l.held s) : (l.positions.get s).isSome := by
  rw [held] at hs
  cases hq : l.positions.get s with
  | none =>
    rw [hq] at hs
    exact absurd hs (lt_irrefl 0)
  | some q => rfl

/-- A call that changes what is stored for one upper-case symbol only. -/
theorem of_symbol (h : l.WellFormed) (hs : toUpperCase s = s)
    (horders : l'.openOrders = l.openOrders)
    (hself : StoredFor (l'.positions.get s) (l'.avgEntry.get s) (l'.trailingHigh.get s))
    (hp : ∀ t, t ≠ s → l'.positions.get t = l.positions.get t)
    (he : ∀ t, t ≠ s → l'.avgEntry.get t = l.avgEntry.get t)
    (hh : ∀ t, t ≠ s → l'.trailingHigh.get t = l.trailingHigh.get t) : l'.WellFormed where
  stored t := by
    by_cases hts : t = s
    · subst hts
      exact hself
    · rw [hp t hts, he t hts, hh t hts]
      exact h.stored t
  upper t ht := by
    by_cases hts : t = s
    · rw [hts, hs]
    · rw [hp t hts] at ht
      exact h.upper t ht
  orders id order ho := h.orders id order (horders ▸ ho)

theorem buyFill (h : l.WellFormed) (hs : toUpperCase s = s) (hq : 0 < qty) (hp : 0 < price) :
    (l.buyFill s qty price).WellFormed := by
  have hheld := h.held_nonneg s
  have hcost : 0 ≤ l.held s * l.entry s := mul_nonneg hheld (h.entry_nonneg s)
  have hpaid : 0 < qty * price := mul_pos hq hp
  have hnext : 0 < l.held s + qty := by linarith
  have hentry : 0 < (l.held s * l.entry s + qty * price) / (l.held s + qty) :=
    div_pos (by linarith) hnext
  refine h.of_symbol hs rfl ?_ (fun t ht => InsertionMap.get_set_of_ne _ _ ht)
    (fun t ht => InsertionMap.get_set_of_ne _ _ ht) fun t ht => InsertionMap.get_delete_of_ne _ ht
  simp only [TradeLedger.buyFill, InsertionMap.get_set_self, InsertionMap.get_delete_self]
  exact (StoredFor.closed.withPosition hnext).withEntry rfl hentry

theorem sellFill (h : l.WellFormed) (hs : toUpperCase s = s) :
    (l.sellFill s qty price).WellFormed := by
  have hp := l.positions_sellFill s qty price
  have he := l.avgEntry_sellFill s qty price
  have hh := l.trailingHigh_sellFill s qty price
  have horders := l.openOrders_sellFill s qty price
  by_cases hr : eps < l.remaining s qty
  · rw [if_pos hr] at hp he hh
    refine h.of_symbol hs horders ?_ ?_ ?_ ?_
    · rw [hp, he, hh, InsertionMap.get_set_self]
      exact (h.stored s).withPosition (eps_pos.trans hr)
    · intro t ht
      rw [hp, InsertionMap.get_set_of_ne _ _ ht]
    · intro t _
      rw [he]
    · intro t _
      rw [hh]
  · rw [if_neg hr] at hp he hh
    refine h.of_symbol hs horders ?_ ?_ ?_ ?_
    · rw [hp, he, hh, InsertionMap.get_delete_self, InsertionMap.get_delete_self,
        InsertionMap.get_delete_self]
      exact StoredFor.closed
    · intro t ht
      rw [hp, InsertionMap.get_delete_of_ne _ ht]
    · intro t ht
      rw [he, InsertionMap.get_delete_of_ne _ ht]
    · intro t ht
      rw [hh, InsertionMap.get_delete_of_ne _ ht]

theorem rebaseFill (h : l.WellFormed) (hs : toUpperCase s = s) (hq : 0 < qty) (hp : 0 < price) :
    (l.rebaseFill s qty price).WellFormed := by
  rw [TradeLedger.rebaseFill]
  dsimp only
  split_ifs with hheld hknown hwhole
  · exact h.buyFill hs hq hp
  · -- the fill explains the whole position and sets its entry price
    refine h.of_symbol hs rfl ?_ (fun _ _ => rfl) (fun t ht => InsertionMap.get_set_of_ne _ _ ht)
      fun _ _ => rfl
    rw [InsertionMap.get_set_self]
    exact (h.stored s).withEntry (isSome_of_held_pos (not_le.mp hheld)) hp
  · exact h
  · have hbasis : 0 ≤ max 0 (l.held s - qty) * l.entry s :=
      mul_nonneg (le_max_left _ _) (h.entry_nonneg s)
    have hpaid : 0 < qty * price := mul_pos hq hp
    have hentry : 0 < (max 0 (l.held s - qty) * l.entry s + qty * price) / l.held s :=
      div_pos (by linarith) (not_le.mp hheld)
    refine h.of_symbol hs rfl ?_ (fun _ _ => rfl) (fun t ht => InsertionMap.get_set_of_ne _ _ ht)
      fun t ht => InsertionMap.get_delete_of_ne _ ht
    simp only [InsertionMap.get_set_self, InsertionMap.get_delete_self]
    exact (h.stored s).withoutHigh.withEntry (isSome_of_held_pos (not_le.mp hheld)) hentry

theorem applyFill (h : l.WellFormed) (symbol : String) (side : Side) (executedQty avgPrice : ℚ) :
    (l.applyFill symbol side executedQty avgPrice).WellFormed := by
  have hs : toUpperCase (toUpperCase symbol) = toUpperCase symbol := toUpperCase_toUpperCase symbol
  unfold TradeLedger.applyFill
  split_ifs with hq hp
  · exact h
  · exact h
  · cases side with
    | buy => exact h.buyFill hs (not_le.mp hq) (not_le.mp hp)
    | sell => exact h.sellFill hs

theorem applyReconciledFill (h : l.WellFormed) (symbol : String) (side : Side)
    (executedQty avgPrice : ℚ) :
    (l.applyReconciledFill symbol side executedQty avgPrice).WellFormed := by
  have hs : toUpperCase (toUpperCase symbol) = toUpperCase symbol := toUpperCase_toUpperCase symbol
  unfold TradeLedger.applyReconciledFill
  split_ifs with hq hp
  · exact h
  · exact h
  · cases side with
    | buy => exact h.rebaseFill hs (not_le.mp hq) (not_le.mp hp)
    | sell => exact h.sellFill hs

theorem reconcilePositions (h : l.WellFormed) (exchange : InsertionMap String ℚ) :
    (l.reconcilePositions exchange).WellFormed where
  stored s := by
    rw [l.positions_reconcilePositions, l.avgEntry_reconcilePositions,
      l.trailingHigh_reconcilePositions]
    cases hb : lastBalance s exchange.entries with
    | some q =>
      simp only [reduceCtorEq, false_and, if_false]
      exact (h.stored s).withPosition (lastBalance_pos hb)
    | none =>
      by_cases hheld : (l.positions.get s).isSome
      · simp only [hheld, and_self, if_true]
        exact StoredFor.closed
      · -- without a position nothing else was stored
        have hentry : l.avgEntry.get s = none :=
          Option.not_isSome_iff_eq_none.mp fun he => hheld ((h.stored s).entry_held he)
        have hhigh : l.trailingHigh.get s = none :=
          Option.not_isSome_iff_eq_none.mp fun hh => hheld ((h.stored s).high_held hh)
        rw [hentry, hhigh, ite_self]
        exact StoredFor.closed
  upper s hs := by
    rw [l.positions_reconcilePositions, ← mem_keptSymbols_iff, keptSymbols, List.mem_map] at hs
    obtain ⟨e, _, rfl⟩ := hs
    exact toUpperCase_toUpperCase e.1
  orders id order ho := h.orders id order (l.openOrders_reconcilePositions exchange ▸ ho)

theorem recordOrder (h : l.WellFormed) {order : TrackedOrder} (hvalid : ValidOrder order) :
    (l.recordOrder order).WellFormed where
  stored := h.stored
  upper := h.upper
  orders id o ho := by
    rw [TradeLedger.recordOrder, InsertionMap.get_set] at ho
    split_ifs at ho with hid
    · rw [Option.some.injEq] at ho
      exact ho ▸ ⟨hid.symm, hvalid⟩
    · exact h.orders id o ho

theorem removeOrder (h : l.WellFormed) (clientOrderId : String) :
    (l.removeOrder clientOrderId).2.WellFormed where
  stored := by
    rw [TradeLedger.removeOrder]
    split <;> exact h.stored
  upper := by
    rw [TradeLedger.removeOrder]
    split <;> exact h.upper
  orders id order ho := by
    rw [get_openOrders_removeOrder] at ho
    split_ifs at ho
    exact h.orders id order ho

theorem setTrailingHigh (h : l.WellFormed) {symbol : String} (hheld : 0 < l.position symbol)
    (hp : 0 < price) : (l.setTrailingHigh symbol price).WellFormed := by
  refine h.of_symbol (toUpperCase_toUpperCase symbol) rfl ?_ (fun _ _ => rfl) (fun _ _ => rfl)
    fun t ht => InsertionMap.get_set_of_ne _ _ ht
  simp only [TradeLedger.setTrailingHigh, InsertionMap.get_set_self]
  exact (h.stored _).withHigh (isSome_of_held_pos hheld) hp

end WellFormed

theorem wellFormed_empty : (empty : TradeLedger).WellFormed where
  stored _ := StoredFor.closed
  upper _ h := nomatch h
  orders _ _ h := nomatch h

/-- Every admissible call keeps the ledger well formed. -/
theorem wellFormed_apply {l : TradeLedger} (h : l.WellFormed) {call : LedgerCall}
    (hok : call.Admissible l) : (call.apply l).WellFormed := by
  cases call with
  | setTrailingHigh symbol price => exact h.setTrailingHigh hok.1 hok.2
  | operation op =>
    cases op with
    | applyFill symbol side executedQty avgPrice =>
      exact h.applyFill symbol side executedQty avgPrice
    | applyReconciledFill symbol side executedQty avgPrice =>
      exact h.applyReconciledFill symbol side executedQty avgPrice
    | reconcilePositions exchange => exact h.reconcilePositions exchange
    | recordOrder order => exact h.recordOrder hok
    | removeOrder clientOrderId => exact h.removeOrder clientOrderId

end TradeLedger

end Model

end BotHive.Crypto
