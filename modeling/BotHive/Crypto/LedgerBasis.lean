import BotHive.Library.Machine
import BotHive.Library.Numeric
import BotHive.Crypto.Ledger

/-!
# The cost basis of the ledger

Stop-loss and take-profit levels are computed from the entry price of a symbol.
An `Audit` runs the ledger next to the prices of the buy fills that each symbol
received since its position was last empty; the basis is paid when every entry
price lies between two of these prices.

## Main definitions

- `LedgerOp`: one call of a ledger operation
- `Audit`: the ledger with the buy prices of every open position
- `Explained`: the calls that mix a buy into a quantity whose cost is known

## Main results

- `soundAt_apply`: what one explained call preserves
- `basisPaid_of_explained`: along every run of explained calls the basis is paid
-/

namespace BotHive.Crypto

/-- One call of an operation of the ledger. -/
inductive LedgerOp where
  | applyFill (symbol : String) (side : Side) (executedQty avgPrice : ℚ)
  | applyReconciledFill (symbol : String) (side : Side) (executedQty avgPrice : ℚ)
  | reconcilePositions (exchange : InsertionMap String ℚ)
  | recordOrder (order : TrackedOrder)
  | removeOrder (clientOrderId : String)

section Model

variable [CaseMapping]

def LedgerOp.apply (l : TradeLedger) : LedgerOp → TradeLedger
  | .applyFill symbol side executedQty avgPrice => l.applyFill symbol side executedQty avgPrice
  | .applyReconciledFill symbol side executedQty avgPrice =>
    l.applyReconciledFill symbol side executedQty avgPrice
  | .reconcilePositions exchange => l.reconcilePositions exchange
  | .recordOrder order => l.recordOrder order
  | .removeOrder clientOrderId => (l.removeOrder clientOrderId).2

/-- The price of a fill that buys the upper-case symbol `s`; a fill without a
    positive quantity and price is no fill. -/
def buyPrice (s symbol : String) (side : Side) (executedQty avgPrice : ℚ) : List ℚ :=
  if side = .buy ∧ toUpperCase symbol = s ∧ 0 < executedQty ∧ 0 < avgPrice then [avgPrice]
  else []

/-- The price at which a call buys the upper-case symbol `s`, if it does. -/
def LedgerOp.bought (s : String) : LedgerOp → List ℚ
  | .applyFill symbol side executedQty avgPrice => buyPrice s symbol side executedQty avgPrice
  | .applyReconciledFill symbol side executedQty avgPrice =>
    buyPrice s symbol side executedQty avgPrice
  | .reconcilePositions _ | .recordOrder _ | .removeOrder _ => []

/-- A ledger with the prices of the buy fills of each symbol since its position
    was last empty, latest first. -/
structure Audit where
  ledger : TradeLedger
  bought : String → List ℚ

/-- The empty ledger, before the first fill. -/
def Audit.start : Audit :=
  ⟨.empty, fun _ => []⟩

/-- The prices that count once the call has left the ledger `l` behind. -/
def countedPrices (l : TradeLedger) (s : String) (prices : List ℚ) : List ℚ :=
  if l.held s = 0 then [] else prices

def Audit.step (a : Audit) (op : LedgerOp) : Audit :=
  let ledger := op.apply a.ledger
  ⟨ledger, fun s => countedPrices ledger s (op.bought s ++ a.bought s)⟩

/-- Every entry price lies between two prices paid for the open position. -/
def Audit.BasisPaid (a : Audit) : Prop :=
  ∀ s e, a.ledger.avgEntry.get s = some e → Enclosed (a.bought s) e

/-- The call buys on top of a quantity whose cost the ledger knows: a plain buy
    meets an empty position or a known basis, and a reconciled buy on a known
    basis is part of the reconciled position. -/
def Explained (a : Audit) : LedgerOp → Prop
  | .applyFill symbol .buy executedQty avgPrice =>
    0 < executedQty → 0 < avgPrice →
      a.ledger.position symbol = 0 ∨ 0 < a.ledger.avgEntryFor symbol
  | .applyReconciledFill symbol .buy executedQty avgPrice =>
    0 < executedQty → 0 < avgPrice → 0 < a.ledger.avgEntryFor symbol →
      executedQty ≤ a.ledger.position symbol
  | _ => True

end Model

/-- The ledger entries of a symbol fit the prices paid for it: a stored position
    is positive, and a known entry price belongs to a position and is enclosed
    by the prices. -/
structure SoundAt (l : TradeLedger) (s : String) (prices : List ℚ) : Prop where
  held_pos : ∀ q, l.positions.get s = some q → 0 < q
  prices_pos : ∀ p ∈ prices, 0 < p
  entry_held : ∀ e, l.avgEntry.get s = some e → 0 < l.held s
  entry_enclosed : ∀ e, l.avgEntry.get s = some e → Enclosed prices e

namespace SoundAt

variable {l l' : TradeLedger} {s t : String} {prices : List ℚ} {qty price : ℚ}

theorem held_nonneg (h : SoundAt l s prices) : 0 ≤ l.held s := by
  rw [TradeLedger.held]
  cases hq : l.positions.get s with
  | none => exact le_rfl
  | some q => exact (h.held_pos q hq).le

/-- The entry price of a symbol is unknown or positive. -/
theorem entry_pos (h : SoundAt l s prices) {e : ℚ} (he : l.avgEntry.get s = some e) : 0 < e :=
  (h.entry_enclosed e he).pos h.prices_pos

theorem entry_eq_none (h : SoundAt l s prices) (hk : l.entry s ≤ 0) :
    l.avgEntry.get s = none := by
  cases he : l.avgEntry.get s with
  | none => rfl
  | some e =>
    rw [TradeLedger.entry, he] at hk
    exact absurd (h.entry_pos he) (not_lt.mpr hk)

/-- A known basis is stored and enclosed by the prices paid. -/
theorem entry_known (h : SoundAt l s prices) (hk : 0 < l.entry s) :
    0 < l.held s ∧ Enclosed prices (l.entry s) := by
  rw [TradeLedger.entry] at hk ⊢
  cases he : l.avgEntry.get s with
  | none =>
    rw [he] at hk
    exact absurd hk (lt_irrefl 0)
  | some e => exact ⟨h.entry_held e he, h.entry_enclosed e he⟩

/-- A symbol whose two entries a call leaves alone stays sound. -/
theorem congr (h : SoundAt l s prices) (hp : l'.positions.get s = l.positions.get s)
    (he : l'.avgEntry.get s = l.avgEntry.get s) : SoundAt l' s prices where
  held_pos q hq := h.held_pos q (hp ▸ hq)
  prices_pos := h.prices_pos
  entry_held e hk := by
    rw [TradeLedger.held, hp]
    exact h.entry_held e (he ▸ hk)
  entry_enclosed e hk := h.entry_enclosed e (he ▸ hk)

/-- A symbol without entry price is sound when its position is positive or absent. -/
theorem of_unknown (hprices : ∀ p ∈ prices, 0 < p) (hp : ∀ q, l.positions.get s = some q → 0 < q)
    (he : l.avgEntry.get s = none) : SoundAt l s prices where
  held_pos := hp
  prices_pos := hprices
  entry_held e hk := by
    rw [he] at hk
    cases hk
  entry_enclosed e hk := by
    rw [he] at hk
    cases hk

/-- A positive position with an enclosed entry price is sound. -/
theorem of_some {q e : ℚ} (hprices : ∀ p ∈ prices, 0 < p) (hp : l.positions.get s = some q)
    (hq : 0 < q) (he : l.avgEntry.get s = some e) (henc : Enclosed prices e) :
    SoundAt l s prices where
  held_pos r hr := by
    rw [hp, Option.some.injEq] at hr
    exact hr ▸ hq
  prices_pos := hprices
  entry_held _ _ := by
    rw [TradeLedger.held, hp]
    exact hq
  entry_enclosed r hr := by
    rw [he, Option.some.injEq] at hr
    exact hr ▸ henc

theorem cons_pos (h : SoundAt l s prices) (hp : 0 < price) : ∀ p ∈ price :: prices, 0 < p := by
  intro p hmem
  rcases List.mem_cons.mp hmem with rfl | hmem
  · exact hp
  · exact h.prices_pos p hmem

/-- A position that is empty forgets its prices. -/
theorem counted (h : SoundAt l s prices) : SoundAt l s (countedPrices l s prices) := by
  rw [countedPrices]
  by_cases h0 : l.held s = 0
  · rw [if_pos h0]
    refine of_unknown (fun p hp => absurd hp List.not_mem_nil) h.held_pos ?_
    cases he : l.avgEntry.get s with
    | none => rfl
    | some e => exact absurd h0 (h.entry_held e he).ne'
  · rw [if_neg h0]
    exact h

theorem sellFill (h : SoundAt l s prices) (t : String) (qty price : ℚ) :
    SoundAt (l.sellFill t qty price) s prices := by
  by_cases hst : s = t
  · subst hst
    by_cases hr : eps < l.remaining s qty
    · have hp : (l.sellFill s qty price).positions.get s = some (l.remaining s qty) := by
        rw [TradeLedger.positions_sellFill, if_pos hr, InsertionMap.get_set_self]
      have he : (l.sellFill s qty price).avgEntry = l.avgEntry := by
        rw [TradeLedger.avgEntry_sellFill, if_pos hr]
      cases hk : l.avgEntry.get s with
      | none =>
        refine of_unknown h.prices_pos ?_ (by rw [he, hk])
        intro q hq
        rw [hp, Option.some.injEq] at hq
        exact hq ▸ eps_pos.trans hr
      | some e =>
        exact of_some h.prices_pos hp (eps_pos.trans hr) (by rw [he, hk]) (h.entry_enclosed e hk)
    · apply of_unknown h.prices_pos
      · intro q hq
        rw [TradeLedger.positions_sellFill, if_neg hr, InsertionMap.get_delete_self] at hq
        cases hq
      · rw [TradeLedger.avgEntry_sellFill, if_neg hr, InsertionMap.get_delete_self]
  · apply h.congr
    · rw [TradeLedger.positions_sellFill]
      split_ifs
      · exact InsertionMap.get_set_of_ne _ _ hst
      · exact InsertionMap.get_delete_of_ne _ hst
    · rw [TradeLedger.avgEntry_sellFill]
      split_ifs
      · rfl
      · exact InsertionMap.get_delete_of_ne _ hst

/-- A buy on an empty position or on a known basis mixes its price into the entry. -/
theorem buyFill_self (h : SoundAt l s prices) (hq : 0 < qty) (hp : 0 < price)
    (hbasis : l.held s = 0 ∨ 0 < l.entry s) :
    SoundAt (l.buyFill s qty price) s (price :: prices) := by
  have hnext : 0 < l.held s + qty := by
    have := h.held_nonneg
    linarith
  refine of_some (h.cons_pos hp) (InsertionMap.get_set_self ..) hnext
    (InsertionMap.get_set_self ..) ?_
  rcases hbasis with h0 | hk
  · have hentry : (l.held s * l.entry s + qty * price) / (l.held s + qty) = price := by
      rw [h0]
      field_simp
      ring
    rw [hentry]
    exact enclosed_cons_self prices price
  · exact (h.entry_known hk).2.weightedMean_cons h.held_nonneg hq

/-- A reconciled buy that is part of the position mixes its price into the entry. -/
theorem rebaseFill_self (h : SoundAt l s prices) (hq : 0 < qty) (hp : 0 < price)
    (hpart : 0 < l.entry s → qty ≤ l.held s) :
    SoundAt (l.rebaseFill s qty price) s (price :: prices) := by
  by_cases hheld : l.held s ≤ 0
  · -- nothing reconciled yet: a plain buy on an empty position
    have h0 : l.held s = 0 := le_antisymm hheld h.held_nonneg
    have hbuy : l.rebaseFill s qty price = l.buyFill s qty price := by
      rw [TradeLedger.rebaseFill, if_pos hheld]
    rw [hbuy]
    exact h.buyFill_self hq hp (Or.inl h0)
  have hpos : 0 < l.held s := not_le.mp hheld
  have hpositions : (l.rebaseFill s qty price).positions = l.positions := by
    rw [TradeLedger.positions_rebaseFill, if_neg hheld]
  have hget : l.positions.get s = some (l.held s) := by
    rw [TradeLedger.held] at hpos ⊢
    cases hg : l.positions.get s with
    | none =>
      rw [hg] at hpos
      exact absurd hpos (lt_irrefl 0)
    | some q => rfl
  by_cases hk : l.entry s ≤ 0
  · have hnone := h.entry_eq_none hk
    by_cases hwhole : l.held s - eps ≤ qty
    · refine of_some (h.cons_pos hp) (hpositions ▸ hget) hpos ?_ (enclosed_cons_self prices price)
      rw [TradeLedger.avgEntry_rebaseFill_of_unknown l qty price hpos hk, if_pos hwhole,
        InsertionMap.get_set_self]
    · have hentry : (l.rebaseFill s qty price).avgEntry.get s = none := by
        rw [TradeLedger.avgEntry_rebaseFill_of_unknown l qty price hpos hk, if_neg hwhole, hnone]
      exact of_unknown (h.cons_pos hp) (fun q hq' => h.held_pos q (hpositions ▸ hq')) hentry
  · have hk' : 0 < l.entry s := not_le.mp hk
    have hle := hpart hk'
    refine of_some (h.cons_pos hp) (hpositions ▸ hget) hpos
      (by rw [TradeLedger.avgEntry_rebaseFill_of_known l qty price hpos hk',
        InsertionMap.get_set_self]) ?_
    have hmean : (max 0 (l.held s - qty) * l.entry s + qty * price) / l.held s =
        weightedMean (l.held s - qty) (l.entry s) qty price := by
      rw [max_eq_right (by linarith), weightedMean, sub_add_cancel]
    rw [hmean]
    exact (h.entry_known hk').2.weightedMean_cons (by linarith) hq

theorem buyFill_of_ne (h : SoundAt l s prices) (hst : s ≠ t) :
    SoundAt (l.buyFill t qty price) s prices :=
  h.congr (InsertionMap.get_set_of_ne _ _ hst) (InsertionMap.get_set_of_ne _ _ hst)

theorem rebaseFill_of_ne (h : SoundAt l s prices) (hst : s ≠ t) :
    SoundAt (l.rebaseFill t qty price) s prices := by
  rw [TradeLedger.rebaseFill]
  dsimp only
  split_ifs
  · exact h.buyFill_of_ne hst
  · exact h.congr rfl (InsertionMap.get_set_of_ne _ _ hst)
  · exact h
  · exact h.congr rfl (InsertionMap.get_set_of_ne _ _ hst)

/-- Overwriting the positions keeps the entry price only of a symbol with a balance. -/
theorem reconcilePositions [CaseMapping] (h : SoundAt l s prices)
    (exchange : InsertionMap String ℚ) : SoundAt (l.reconcilePositions exchange) s prices := by
  have hp := l.positions_reconcilePositions exchange s
  have he := l.avgEntry_reconcilePositions exchange s
  have hpos : ∀ q, (l.reconcilePositions exchange).positions.get s = some q → 0 < q := by
    intro q hq
    exact TradeLedger.lastBalance_pos (hp ▸ hq)
  cases hk : (l.reconcilePositions exchange).avgEntry.get s with
  | none => exact of_unknown h.prices_pos hpos hk
  | some e =>
    rw [he] at hk
    split_ifs at hk with hlost
    -- the entry price was known before, so the symbol had a position and kept one
    have hheld : (l.positions.get s).isSome := by
      have hheld := h.entry_held e hk
      rw [TradeLedger.held] at hheld
      cases hq : l.positions.get s with
      | none =>
        rw [hq] at hheld
        exact absurd hheld (lt_irrefl 0)
      | some q => rfl
    cases hb : TradeLedger.lastBalance s exchange.entries with
    | none => exact absurd ⟨hb, hheld⟩ hlost
    | some q =>
      have hq := hp.trans hb
      refine of_some h.prices_pos hq (hpos q hq) ?_ (h.entry_enclosed e hk)
      rw [he, if_neg hlost, hk]

end SoundAt

section Runs

variable [CaseMapping]

/-- Both fills ignore a sell without effect and leave the rest to `sellFill`. -/
theorem soundAt_sell {l : TradeLedger} {s : String} {prices : List ℚ} (h : SoundAt l s prices)
    (symbol : String) (executedQty avgPrice : ℚ) :
    SoundAt
      (if executedQty ≤ 0 then l
        else if avgPrice ≤ 0 then l
        else l.sellFill (toUpperCase symbol) executedQty avgPrice)
      s (buyPrice s symbol .sell executedQty avgPrice ++ prices) := by
  have hnone : buyPrice s symbol .sell executedQty avgPrice = [] :=
    if_neg fun hc => Side.noConfusion hc.1
  rw [hnone]
  split_ifs
  · exact h
  · exact h
  · exact h.sellFill (toUpperCase symbol) executedQty avgPrice

/-- Both fills check the quantity and the price first; they differ only in what
    a buy makes of the ledger. -/
theorem soundAt_buy {l b : TradeLedger} {s : String} {prices : List ℚ}
    (h : SoundAt l s prices) (symbol : String) (executedQty avgPrice : ℚ)
    (hself : toUpperCase symbol = s → 0 < executedQty → 0 < avgPrice →
      SoundAt b s (avgPrice :: prices))
    (hother : s ≠ toUpperCase symbol → SoundAt b s prices) :
    SoundAt (if executedQty ≤ 0 then l else if avgPrice ≤ 0 then l else b) s
      (buyPrice s symbol .buy executedQty avgPrice ++ prices) := by
  rw [buyPrice]
  by_cases hq : executedQty ≤ 0
  · rw [if_pos hq, if_neg fun hc => absurd hc.2.2.1 (not_lt.mpr hq)]
    exact h
  by_cases hp : avgPrice ≤ 0
  · rw [if_neg hq, if_pos hp, if_neg fun hc => absurd hc.2.2.2 (not_lt.mpr hp)]
    exact h
  rw [if_neg hq, if_neg hp]
  rw [not_le] at hq hp
  by_cases hs : toUpperCase symbol = s
  · rw [if_pos ⟨rfl, hs, hq, hp⟩]
    exact hself hs hq hp
  · rw [if_neg fun hc => hs hc.2.1]
    exact hother fun hc => hs hc.symm

/-- An explained call leaves every symbol sound for the prices paid so far. -/
theorem soundAt_apply {a : Audit} (h : ∀ s, SoundAt a.ledger s (a.bought s)) {op : LedgerOp}
    (hok : Explained a op) (s : String) :
    SoundAt (op.apply a.ledger) s (op.bought s ++ a.bought s) := by
  cases op with
  | applyFill symbol side executedQty avgPrice =>
    cases side with
    | sell => exact soundAt_sell (h s) symbol executedQty avgPrice
    | buy =>
      refine soundAt_buy (h s) symbol executedQty avgPrice ?_ fun hne => (h s).buyFill_of_ne hne
      rintro rfl hq hp
      exact (h _).buyFill_self hq hp (hok hq hp)
  | applyReconciledFill symbol side executedQty avgPrice =>
    cases side with
    | sell => exact soundAt_sell (h s) symbol executedQty avgPrice
    | buy =>
      refine soundAt_buy (h s) symbol executedQty avgPrice ?_ fun hne => (h s).rebaseFill_of_ne hne
      rintro rfl hq hp
      exact (h _).rebaseFill_self hq hp (hok hq hp)
  | reconcilePositions exchange => exact (h s).reconcilePositions exchange
  | recordOrder order => exact (h s).congr rfl rfl
  | removeOrder clientOrderId =>
    have hledger : (a.ledger.removeOrder clientOrderId).2.positions = a.ledger.positions ∧
        (a.ledger.removeOrder clientOrderId).2.avgEntry = a.ledger.avgEntry := by
      rw [TradeLedger.removeOrder]
      split <;> exact ⟨rfl, rfl⟩
    apply (h s).congr
    · exact congrArg (·.get s) hledger.1
    · exact congrArg (·.get s) hledger.2

/-- **Cost basis**: as long as every buy is explained, each entry price lies
    between the lowest and the highest price paid since the position was empty. -/
theorem basisPaid_of_explained (ops : List LedgerOp)
    (hok : Machine.Along (Machine.total Audit.step) Explained Audit.start ops) :
    Machine.Everywhere (Machine.total Audit.step) Audit.BasisPaid Audit.start ops := by
  refine Machine.everywhere_of_invariant
    (fun a : Audit => ∀ s, SoundAt a.ledger s (a.bought s)) Audit.BasisPaid ?_ ?_ ?_ hok
  · rintro a op _ hinv hop ⟨⟩ s
    exact (soundAt_apply hinv hop s).counted
  · intro a hinv s e he
    exact (hinv s).entry_enclosed e he
  · intro s
    exact SoundAt.of_unknown (fun p hp => absurd hp List.not_mem_nil)
      (fun q hq => nomatch hq) rfl

end Runs

/-- Two explained buys, a partial sale and the last purchase by a tracked order. -/
theorem basisPaid_of_explained_purchases :
    Machine.Everywhere (Machine.total Audit.step) Audit.BasisPaid Audit.start
      [.applyFill "BTCUSDT" .buy 1 100, .applyFill "btcusdt" .buy 1 200,
        .applyFill "BTCUSDT" .sell 1 150, .applyReconciledFill "BTCUSDT" .buy (1 / 2) 120] := by
  apply basisPaid_of_explained
  simp only [Machine.along_total_cons, Machine.along_total_nil, Explained]
  decide +kernel

/-- A balance that the ledger did not buy dilutes the next purchase: one coin held
    before and one bought at 100 give an entry price of 50. -/
theorem basisPaid_fails_on_unknown_basis :
    ¬ Audit.BasisPaid
      ([.reconcilePositions (.ofList [("BTCUSDT", 1)]),
        .applyFill "BTCUSDT" .buy 1 100].foldl Audit.step Audit.start) := by
  intro h
  have henclosed := h "BTCUSDT" 50 (by decide +kernel)
  exact absurd henclosed (by decide +kernel)

end BotHive.Crypto
