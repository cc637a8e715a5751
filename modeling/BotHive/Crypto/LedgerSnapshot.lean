import BotHive.Library.Json
import BotHive.Crypto.LedgerForm

/-!
# Persisting the ledger

The ledger is stored as the JSON text of a snapshot and rebuilt from it after a
restart. The loader checks every entry again and drops what it does not accept, so
that nothing is lost only because the ledger is well formed. A loaded ledger can list its
symbols and orders in another order, which no operation can tell apart.

## Main definitions

- `TradeLedger.snapshot`, `fromSnapshot`: saving and loading
- `TradeLedger.Same`: ledgers that store the same

## Main results

- `fromSnapshot_jsonCopy`: loading the text of a snapshot gives the same ledger back
- `same_apply`: no call tells two ledgers apart that store the same
- `wellFormed_and_restored`: both for every ledger that admissible calls build
-/

namespace BotHive.Crypto

def Side.toText : Side → String
  | .buy => "buy"
  | .sell => "sell"

def Side.ofText? : String → Option Side
  | "buy" => some .buy
  | "sell" => some .sell
  | _ => none

def OrderType.toText : OrderType → String
  | .market => "market"
  | .limit => "limit"

def OrderType.ofText? : String → Option OrderType
  | "market" => some .market
  | "limit" => some .limit
  | _ => none

namespace TrackedOrder

/-- The order as an object of the snapshot. -/
def toValue (order : TrackedOrder) : Value :=
  .obj
    [("clientOrderId", .str order.clientOrderId),
      ("orderId", order.orderId.elim .null fun i => .num i),
      ("symbol", .str order.symbol),
      ("side", .str order.side.toText),
      ("type", .str order.type.toText),
      ("price", order.price.elim .null .num),
      ("quantity", .num order.quantity),
      ("placedAt", .num order.placedAt)]

/-- The order that an object of the snapshot holds. -/
def ofValue? (v : Value) : Option TrackedOrder := do
  let clientOrderId ← (v.field "clientOrderId").text?
  let orderId ← (v.field "orderId").nullOr Value.natural?
  let symbol ← (v.field "symbol").text?
  let side ← (v.field "side").text? >>= Side.ofText?
  let type ← (v.field "type").text? >>= OrderType.ofText?
  let price ← (v.field "price").nullOr Value.number?
  let quantity ← (v.field "quantity").number?
  let placedAt ← (v.field "placedAt").natural?
  return ⟨clientOrderId, orderId, symbol, side, type, price, quantity, placedAt⟩

end TrackedOrder

namespace TradeLedger

/-- A string that is not empty. -/
def isNonEmptyText (v : Value) : Bool :=
  v.text?.any (· ≠ "")

/-- The checks of an order in a snapshot. What is no object has no `clientOrderId`. -/
def acceptsOrder (order : Value) : Bool :=
  isNonEmptyText (order.field "clientOrderId") &&
  isNonEmptyText (order.field "symbol") &&
  (order.field "quantity").number?.any (fun q => decide (0 ≤ q)) &&
  ((order.field "price").nullOr Value.number?).isSome &&
  (order.field "placedAt").number?.isSome

/-- Load one entry of the open orders. The loader keeps an accepted object as it is, also
    when the fields that it does not check belong to no order: `none`. -/
def loadOrder (m : InsertionMap String TrackedOrder) (e : String × Value) :
    Option (InsertionMap String TrackedOrder) :=
  if acceptsOrder e.2 then (TrackedOrder.ofValue? e.2).map fun order => m.set e.1 order
  else some m

def loadOrders (entries : List (String × Value)) : Option (InsertionMap String TrackedOrder) :=
  entries.foldlM loadOrder .empty

section Model

variable [CaseMapping]

/-- The positive amounts of a record, under upper-case symbols. -/
def loadAmounts (entries : List (String × Value)) : InsertionMap String ℚ :=
  entries.foldl
    (fun m e =>
      match e.2 with
      | .num q => if 0 < q then m.set (toUpperCase e.1) q else m
      | _ => m)
    .empty

/-- A record of the snapshot. -/
def record {α : Type*} (toValue : α → Value) (m : InsertionMap String α) : Value :=
  Value.fromEntries (m.entries.map (Prod.map id toValue))

def snapshot (l : TradeLedger) (now : ℕ) : Value :=
  .obj
    [("positions", record .num l.positions),
      ("avgEntry", record .num l.avgEntry),
      ("realizedPnl", .num l.realizedPnl),
      ("openOrders", record TrackedOrder.toValue l.openOrders),
      ("trailingHigh", record .num l.trailingHigh),
      ("updatedAt", .num now)]

/-- The entries of a record of the snapshot, none when it is missing. -/
def recordEntries (snapshot : Value) (name : String) : List (String × Value) :=
  ((snapshot.field name).orElse (.obj [])).entries

def fromSnapshot (snapshot : Value) : Option TradeLedger :=
  match snapshot with
  | .obj _ | .arr _ => do
    let openOrders ← loadOrders (recordEntries snapshot "openOrders")
    return {
      positions := loadAmounts (recordEntries snapshot "positions")
      avgEntry := loadAmounts (recordEntries snapshot "avgEntry")
      trailingHigh := loadAmounts (recordEntries snapshot "trailingHigh")
      realizedPnl := (snapshot.field "realizedPnl").number?.getD 0
      openOrders := openOrders }
  | _ => some .empty

end Model

/-- Ledgers that store the same, whatever the order of their maps. -/
structure Same (l l' : TradeLedger) : Prop where
  positions : ∀ s, l.positions.get s = l'.positions.get s
  avgEntry : ∀ s, l.avgEntry.get s = l'.avgEntry.get s
  trailingHigh : ∀ s, l.trailingHigh.get s = l'.trailingHigh.get s
  realizedPnl : l.realizedPnl = l'.realizedPnl
  openOrders : ∀ id, l.openOrders.get id = l'.openOrders.get id

end TradeLedger

@[simp] theorem Side.ofText?_toText (side : Side) : Side.ofText? side.toText = some side := by
  cases side <;> rfl

@[simp] theorem OrderType.ofText?_toText (type : OrderType) :
    OrderType.ofText? type.toText = some type := by
  cases type <;> rfl

namespace TrackedOrder

theorem ofValue?_toValue (order : TrackedOrder) : ofValue? order.toValue = some order := by
  obtain ⟨clientOrderId, orderId, symbol, side, type, price, quantity, placedAt⟩ := order
  cases orderId <;> cases price <;>
    simp [ofValue?, toValue, Value.field, Value.member, Value.ownField, Value.text?,
      Value.number?, Value.nullOr]

/-- An order has no `undefined` fields and no field that is an array index. -/
theorem jsonCopy_toValue (order : TrackedOrder) :
    order.toValue.jsonCopy = some order.toValue := by
  obtain ⟨clientOrderId, orderId, symbol, side, type, price, quantity, placedAt⟩ := order
  have hnames : ∀ name ∈ ["clientOrderId", "orderId", "symbol", "side", "type", "price",
      "quantity", "placedAt"], Value.arrayIndex? name = none := by
    decide
  rw [toValue, Value.jsonCopy, Value.copyFields_eq_self, Value.fromEntries,
    Value.propertyOrder_of_no_index (by exact hnames)]
  intro e he
  simp only [List.mem_cons, List.not_mem_nil, or_false] at he
  rcases he with rfl | rfl | rfl | rfl | rfl | rfl | rfl | rfl
  case inr.inl => cases orderId <;> simp [Value.jsonCopy]
  case inr.inr.inr.inr.inr.inl => cases price <;> simp [Value.jsonCopy]
  all_goals simp [Value.jsonCopy]

theorem acceptsOrder_toValue {order : TrackedOrder} (h : ValidOrder order) :
    TradeLedger.acceptsOrder order.toValue = true := by
  obtain ⟨clientOrderId, orderId, symbol, side, type, price, quantity, placedAt⟩ := order
  obtain ⟨hid, hsymbol, hquantity⟩ := h
  have hid' : TradeLedger.isNonEmptyText (.str clientOrderId) = true := decide_eq_true hid
  have hsymbol' : TradeLedger.isNonEmptyText (.str symbol) = true := decide_eq_true hsymbol
  have hquantity' : decide (0 ≤ quantity) = true := decide_eq_true hquantity
  cases price <;>
    simp [TradeLedger.acceptsOrder, toValue, Value.field, Value.member, Value.ownField,
      Value.number?, Value.nullOr, hid', hsymbol', hquantity']

end TrackedOrder

namespace TradeLedger

section Restore

variable [CaseMapping]

omit [CaseMapping] in
/-- The entries of a record that was saved and read back, in some order. -/
theorem recordEntries_copy {α : Type*} (toValue : α → Value) (m : InsertionMap String α)
    (hcopy : ∀ a, (toValue a).jsonCopy = some (toValue a)) :
    ∃ entries : List (String × α), entries.Perm m.entries ∧
      (record toValue m).jsonCopy = some (.obj (entries.map (Prod.map id toValue))) := by
  refine ⟨Value.propertyOrder (Value.propertyOrder m.entries),
    (Value.perm_propertyOrder _).trans (Value.perm_propertyOrder _), ?_⟩
  rw [record, Value.fromEntries, Value.propertyOrder_map, Value.jsonCopy,
    Value.copyFields_eq_self, Value.fromEntries, Value.propertyOrder_map]
  intro e he
  obtain ⟨x, _, rfl⟩ := List.mem_map.mp he
  exact hcopy x.2

/-- Positive amounts under upper-case symbols are all loaded. -/
theorem loadAmounts_map {entries : List (String × ℚ)}
    (h : ∀ e ∈ entries, 0 < e.2 ∧ toUpperCase e.1 = e.1) :
    loadAmounts (entries.map (Prod.map id .num)) = InsertionMap.ofList entries := by
  rw [loadAmounts, InsertionMap.ofList, List.foldl_map]
  refine List.foldl_ext _ _ _ fun m e he => ?_
  obtain ⟨hpos, hupper⟩ := h e he
  show (if 0 < e.2 then m.set (toUpperCase e.1) e.2 else m) = m.set e.1 e.2
  rw [if_pos hpos, hupper]

omit [CaseMapping] in
theorem loadOrder_toValue (m : InsertionMap String TrackedOrder) (id : String)
    {order : TrackedOrder} (h : ValidOrder order) :
    loadOrder m (id, order.toValue) = some (m.set id order) := by
  rw [loadOrder, if_pos (TrackedOrder.acceptsOrder_toValue h), TrackedOrder.ofValue?_toValue]
  rfl

omit [CaseMapping] in
theorem loadOrders_map {entries : List (String × TrackedOrder)}
    (h : ∀ e ∈ entries, ValidOrder e.2) :
    loadOrders (entries.map (Prod.map id TrackedOrder.toValue)) =
      some (InsertionMap.ofList entries) := by
  rw [loadOrders, InsertionMap.ofList]
  generalize InsertionMap.empty = m
  induction entries generalizing m with
  | nil => rfl
  | cons e rest ih =>
    have hload : loadOrder m (Prod.map id TrackedOrder.toValue e) = some (m.set e.1 e.2) :=
      loadOrder_toValue m e.1 (h e List.mem_cons_self)
    rw [List.map_cons, List.foldlM_cons, hload, List.foldl_cons]
    exact ih (fun x hx => h x (List.mem_cons_of_mem e hx)) (m.set e.1 e.2)

/-- A record of positive amounts under upper-case symbols is restored. -/
theorem restore_amounts {m : InsertionMap String ℚ}
    (h : ∀ s q, m.get s = some q → 0 < q ∧ toUpperCase s = s) :
    ∃ fields, (record .num m).jsonCopy = some (.obj fields) ∧
      ∀ s, m.get s = (loadAmounts fields).get s := by
  obtain ⟨entries, hperm, hcopy⟩ := recordEntries_copy .num m Value.jsonCopy_num
  refine ⟨entries.map (Prod.map id .num), hcopy, fun s => ?_⟩
  have hload : loadAmounts (entries.map (Prod.map id .num)) = .ofList entries := by
    refine loadAmounts_map fun e he => ?_
    exact h e.1 e.2 ((m.mem_entries_iff e.1 e.2).mp (hperm.mem_iff.mp he))
  rw [hload, InsertionMap.get_ofList_of_perm hperm]

omit [CaseMapping] in
/-- The record of the open orders is restored. -/
theorem restore_orders {m : InsertionMap String TrackedOrder}
    (h : ∀ id order, m.get id = some order → ValidOrder order) :
    ∃ fields m', (record TrackedOrder.toValue m).jsonCopy = some (.obj fields) ∧
      loadOrders fields = some m' ∧ ∀ id, m.get id = m'.get id := by
  obtain ⟨entries, hperm, hcopy⟩ :=
    recordEntries_copy TrackedOrder.toValue m TrackedOrder.jsonCopy_toValue
  refine ⟨entries.map (Prod.map id TrackedOrder.toValue), .ofList entries, hcopy, ?_, fun id => ?_⟩
  · refine loadOrders_map fun e he => ?_
    exact h e.1 e.2 ((m.mem_entries_iff e.1 e.2).mp (hperm.mem_iff.mp he))
  · rw [InsertionMap.get_ofList_of_perm hperm]

omit [CaseMapping] in
/-- The copy of a snapshot has the copies of its records. -/
theorem jsonCopy_snapshot {l : TradeLedger} {positions avgEntry orders highs : Value}
    (hpositions : (record .num l.positions).jsonCopy = some positions)
    (havgEntry : (record .num l.avgEntry).jsonCopy = some avgEntry)
    (horders : (record TrackedOrder.toValue l.openOrders).jsonCopy = some orders)
    (hhighs : (record .num l.trailingHigh).jsonCopy = some highs) (now : ℕ) :
    (l.snapshot now).jsonCopy = some (.obj
      [("positions", positions), ("avgEntry", avgEntry), ("realizedPnl", .num l.realizedPnl),
        ("openOrders", orders), ("trailingHigh", highs), ("updatedAt", .num now)]) := by
  have hnames : ∀ name ∈ ["positions", "avgEntry", "realizedPnl", "openOrders", "trailingHigh",
      "updatedAt"], Value.arrayIndex? name = none := by
    decide
  simp only [snapshot, Value.jsonCopy, Value.copyFields, hpositions, havgEntry, horders, hhighs,
    Value.fromEntries]
  rw [Value.propertyOrder_of_no_index (by exact hnames)]

/-- **Round trip**: reading back the text of a snapshot of a well-formed ledger gives a
    ledger that stores the same. -/
theorem fromSnapshot_jsonCopy {l : TradeLedger} (h : l.WellFormed) (now : ℕ) :
    ∃ l', ((l.snapshot now).jsonCopy >>= fromSnapshot) = some l' ∧ l.Same l' := by
  -- the checks of the loader hold of every stored entry
  obtain ⟨positions, hpcopy, hpload⟩ := restore_amounts fun s q hq =>
    ⟨(h.stored s).position_pos q hq, h.upper s (hq ▸ rfl)⟩
  obtain ⟨avgEntry, hacopy, haload⟩ := restore_amounts fun s e he =>
    ⟨(h.stored s).entry_pos e he, h.upper s ((h.stored s).entry_held (he ▸ rfl))⟩
  obtain ⟨trailingHigh, htcopy, htload⟩ := restore_amounts fun s p hp =>
    ⟨(h.stored s).high_pos p hp, h.upper s ((h.stored s).high_held (hp ▸ rfl))⟩
  obtain ⟨orders, openOrders, hocopy, hload, hoload⟩ := restore_orders fun id order ho =>
    (h.orders id order ho).2
  refine ⟨⟨loadAmounts positions, loadAmounts avgEntry, loadAmounts trailingHigh, l.realizedPnl,
    openOrders⟩, ?_, ⟨hpload, haload, htload, rfl, hoload⟩⟩
  rw [jsonCopy_snapshot hpcopy hacopy hocopy htcopy now, Option.bind_eq_bind, Option.bind_some]
  simp [fromSnapshot, recordEntries, Value.field, Value.member, Value.ownField, Value.orElse,
    Value.isNullish, Value.entries, Value.number?, hload]

end Restore

namespace Same

variable {l l' : TradeLedger}

theorem symm (h : l.Same l') : l'.Same l where
  positions s := (h.positions s).symm
  avgEntry s := (h.avgEntry s).symm
  trailingHigh s := (h.trailingHigh s).symm
  realizedPnl := h.realizedPnl.symm
  openOrders id := (h.openOrders id).symm

theorem trans {l'' : TradeLedger} (h : l.Same l') (h' : l'.Same l'') : l.Same l'' where
  positions s := (h.positions s).trans (h'.positions s)
  avgEntry s := (h.avgEntry s).trans (h'.avgEntry s)
  trailingHigh s := (h.trailingHigh s).trans (h'.trailingHigh s)
  realizedPnl := h.realizedPnl.trans h'.realizedPnl
  openOrders id := (h.openOrders id).trans (h'.openOrders id)

theorem wellFormed [CaseMapping] (h : l.Same l') (hl : l.WellFormed) : l'.WellFormed where
  stored s := by
    rw [← h.positions s, ← h.avgEntry s, ← h.trailingHigh s]
    exact hl.stored s
  upper s hs := hl.upper s (h.positions s ▸ hs)
  orders id order ho := hl.orders id order ((h.openOrders id).trans ho)

theorem held (h : l.Same l') (s : String) : l.held s = l'.held s := by
  rw [TradeLedger.held, TradeLedger.held, h.positions s]

theorem entry (h : l.Same l') (s : String) : l.entry s = l'.entry s := by
  rw [TradeLedger.entry, TradeLedger.entry, h.avgEntry s]

theorem remaining (h : l.Same l') (s : String) (qty : ℚ) :
    l.remaining s qty = l'.remaining s qty := by
  rw [TradeLedger.remaining, TradeLedger.remaining, h.held s]

theorem openOrdersList (h : l.Same l') : l.openOrdersList.Perm l'.openOrdersList :=
  (InsertionMap.perm_entries_of_get_eq h.openOrders).map Prod.snd

theorem openCount (h : l.Same l') : l.openCount = l'.openCount :=
  (InsertionMap.perm_entries_of_get_eq h.openOrders).length_eq

theorem buyFill (h : l.Same l') (s : String) (qty price : ℚ) :
    (l.buyFill s qty price).Same (l'.buyFill s qty price) where
  positions t := by
    simp only [TradeLedger.buyFill, InsertionMap.get_set, h.positions t, h.held s]
  avgEntry t := by
    simp only [TradeLedger.buyFill, InsertionMap.get_set, h.avgEntry t, h.held s, h.entry s]
  trailingHigh t := by
    simp only [TradeLedger.buyFill, InsertionMap.get_delete, h.trailingHigh t]
  realizedPnl := h.realizedPnl
  openOrders := h.openOrders

theorem sellFill (h : l.Same l') (s : String) (qty price : ℚ) :
    (l.sellFill s qty price).Same (l'.sellFill s qty price) where
  positions t := by
    rw [positions_sellFill, positions_sellFill, ← h.remaining s qty]
    split_ifs
    · rw [InsertionMap.get_set, InsertionMap.get_set, h.positions t]
    · rw [InsertionMap.get_delete, InsertionMap.get_delete, h.positions t]
  avgEntry t := by
    rw [avgEntry_sellFill, avgEntry_sellFill, ← h.remaining s qty]
    split_ifs
    · exact h.avgEntry t
    · rw [InsertionMap.get_delete, InsertionMap.get_delete, h.avgEntry t]
  trailingHigh t := by
    rw [trailingHigh_sellFill, trailingHigh_sellFill, ← h.remaining s qty]
    split_ifs
    · exact h.trailingHigh t
    · rw [InsertionMap.get_delete, InsertionMap.get_delete, h.trailingHigh t]
  realizedPnl := by
    rw [realizedPnl_sellFill, realizedPnl_sellFill, h.entry s, h.held s, h.realizedPnl]
  openOrders id := by
    rw [openOrders_sellFill, openOrders_sellFill, h.openOrders id]

theorem setEntry (h : l.Same l') (s : String) (price : ℚ) :
    ({ l with avgEntry := l.avgEntry.set s price } : TradeLedger).Same
      { l' with avgEntry := l'.avgEntry.set s price } where
  positions := h.positions
  avgEntry t := by
    rw [InsertionMap.get_set, InsertionMap.get_set, h.avgEntry t]
  trailingHigh := h.trailingHigh
  realizedPnl := h.realizedPnl
  openOrders := h.openOrders

theorem dropHigh (h : l.Same l') (s : String) :
    ({ l with trailingHigh := l.trailingHigh.delete s } : TradeLedger).Same
      { l' with trailingHigh := l'.trailingHigh.delete s } where
  positions := h.positions
  avgEntry := h.avgEntry
  trailingHigh t := by
    rw [InsertionMap.get_delete, InsertionMap.get_delete, h.trailingHigh t]
  realizedPnl := h.realizedPnl
  openOrders := h.openOrders

theorem rebaseFill (h : l.Same l') (s : String) (qty price : ℚ) :
    (l.rebaseFill s qty price).Same (l'.rebaseFill s qty price) := by
  rw [TradeLedger.rebaseFill, TradeLedger.rebaseFill]
  simp only [← h.held s, ← h.entry s]
  split_ifs
  · exact h.buyFill s qty price
  · exact h.setEntry s price
  · exact h
  · exact (h.setEntry s _).dropHigh s

theorem recordOrder (h : l.Same l') (order : TrackedOrder) :
    (l.recordOrder order).Same (l'.recordOrder order) where
  positions := h.positions
  avgEntry := h.avgEntry
  trailingHigh := h.trailingHigh
  realizedPnl := h.realizedPnl
  openOrders id := by
    rw [TradeLedger.recordOrder, TradeLedger.recordOrder, InsertionMap.get_set,
      InsertionMap.get_set, h.openOrders id]

theorem removeOrder (h : l.Same l') (clientOrderId : String) :
    (l.removeOrder clientOrderId).1 = (l'.removeOrder clientOrderId).1 ∧
      (l.removeOrder clientOrderId).2.Same (l'.removeOrder clientOrderId).2 := by
  rw [TradeLedger.removeOrder, TradeLedger.removeOrder, ← h.openOrders clientOrderId]
  cases l.openOrders.get clientOrderId with
  | none => exact ⟨rfl, h⟩
  | some order =>
    refine ⟨rfl, h.positions, h.avgEntry, h.trailingHigh, h.realizedPnl, fun id => ?_⟩
    rw [InsertionMap.get_delete, InsertionMap.get_delete, h.openOrders id]

section Calls

variable [CaseMapping]

theorem reconcilePositions (h : l.Same l') (exchange : InsertionMap String ℚ) :
    (l.reconcilePositions exchange).Same (l'.reconcilePositions exchange) where
  positions t := by
    rw [positions_reconcilePositions, positions_reconcilePositions]
  avgEntry t := by
    rw [avgEntry_reconcilePositions, avgEntry_reconcilePositions, h.positions t, h.avgEntry t]
  trailingHigh t := by
    rw [trailingHigh_reconcilePositions, trailingHigh_reconcilePositions, h.positions t,
      h.trailingHigh t]
  realizedPnl := by
    rw [realizedPnl_reconcilePositions, realizedPnl_reconcilePositions, h.realizedPnl]
  openOrders id := by
    rw [openOrders_reconcilePositions, openOrders_reconcilePositions, h.openOrders id]

theorem setTrailingHigh (h : l.Same l') (symbol : String) (price : ℚ) :
    (l.setTrailingHigh symbol price).Same (l'.setTrailingHigh symbol price) where
  positions := h.positions
  avgEntry := h.avgEntry
  trailingHigh t := by
    rw [TradeLedger.setTrailingHigh, TradeLedger.setTrailingHigh, InsertionMap.get_set,
      InsertionMap.get_set, h.trailingHigh t]
  realizedPnl := h.realizedPnl
  openOrders := h.openOrders

theorem applyFill (h : l.Same l') (symbol : String) (side : Side) (executedQty avgPrice : ℚ) :
    (l.applyFill symbol side executedQty avgPrice).Same
      (l'.applyFill symbol side executedQty avgPrice) := by
  unfold TradeLedger.applyFill
  split_ifs
  · exact h
  · exact h
  · cases side with
    | buy => exact h.buyFill _ executedQty avgPrice
    | sell => exact h.sellFill _ executedQty avgPrice

theorem applyReconciledFill (h : l.Same l') (symbol : String) (side : Side)
    (executedQty avgPrice : ℚ) :
    (l.applyReconciledFill symbol side executedQty avgPrice).Same
      (l'.applyReconciledFill symbol side executedQty avgPrice) := by
  unfold TradeLedger.applyReconciledFill
  split_ifs
  · exact h
  · exact h
  · cases side with
    | buy => exact h.rebaseFill _ executedQty avgPrice
    | sell => exact h.sellFill _ executedQty avgPrice

end Calls

end Same

section Restored

variable [CaseMapping]

/-- No call tells two ledgers apart that store the same. -/
theorem same_apply {l l' : TradeLedger} (h : l.Same l') (call : LedgerCall) :
    call.returned l = call.returned l' ∧ (call.apply l).Same (call.apply l') := by
  cases call with
  | setTrailingHigh symbol price => exact ⟨rfl, h.setTrailingHigh symbol price⟩
  | operation op =>
    cases op with
    | applyFill symbol side executedQty avgPrice =>
      exact ⟨rfl, h.applyFill symbol side executedQty avgPrice⟩
    | applyReconciledFill symbol side executedQty avgPrice =>
      exact ⟨rfl, h.applyReconciledFill symbol side executedQty avgPrice⟩
    | reconcilePositions exchange => exact ⟨rfl, h.reconcilePositions exchange⟩
    | recordOrder order => exact ⟨rfl, h.recordOrder order⟩
    | removeOrder clientOrderId => exact h.removeOrder clientOrderId

/-- The orders that a list of calls returns. -/
def answers : TradeLedger → List LedgerCall → List (Option TrackedOrder)
  | _, [] => []
  | l, call :: rest => call.returned l :: answers (call.apply l) rest

/-- Every continuation returns the same orders on both ledgers, and leaves ledgers behind
    that store the same and list the same open orders. -/
def Interchangeable (l l' : TradeLedger) : Prop :=
  ∀ calls : List LedgerCall,
    let a := calls.foldl LedgerCall.apply l
    let b := calls.foldl LedgerCall.apply l'
    answers l calls = answers l' calls ∧ a.Same b ∧ a.openCount = b.openCount ∧
      a.openOrdersList.Perm b.openOrdersList

theorem Same.interchangeable {l l' : TradeLedger} (h : l.Same l') : Interchangeable l l' := by
  intro calls
  induction calls generalizing l l' with
  | nil => exact ⟨rfl, h, h.openCount, h.openOrdersList⟩
  | cons call rest ih =>
    obtain ⟨hreturned, hsame⟩ := same_apply h call
    obtain ⟨hanswers, hrest⟩ := ih hsame
    exact ⟨congrArg₂ List.cons hreturned hanswers, hrest⟩

end Restored

end TradeLedger

end BotHive.Crypto
