import Mathlib.Data.List.Dedup
import BotHive.Crypto.Symbols
import BotHive.Crypto.Ledger

/-!
# Reconciling the ledger with the account

The position step of a reconciliation reads the balances of the account, builds
a record with the free amount of the base asset of every configured symbol, and
overwrites the positions with it. Fills of tracked orders are applied afterwards.

## Main definitions

- `AccountAnswer`: free and locked amounts per asset
- `exchangePositions`: the record that the positions are overwritten with
- `SellCountedOnce`: what a reconciled sell should have done to the ledger
- `Faithful`: what the position step should respect

## Main results

- `sellCountedOnce_iff`: a reconciled sell is counted once only if it closes the
  position at its entry price
- `faithful_iff`: the step is faithful exactly when free amounts are not shared out
  twice and no basis hangs on a locked amount or on an unconfigured symbol
-/

namespace BotHive.Crypto

open TradeLedger

section ReconciledSell

variable [CaseMapping]

/-- The record states the balance `q` for the upper-case symbol `s`. -/
def Reports (exchange : InsertionMap String ℚ) (s : String) (q : ℚ) : Prop :=
  (∃ e ∈ exchange.entries, toUpperCase e.1 = s) ∧
    ∀ e ∈ exchange.entries, toUpperCase e.1 = s → e.2 = q

theorem lastBalance_of_agree {s : String} {q : ℚ} {entries : List (String × ℚ)}
    (h : ∀ e ∈ entries, toUpperCase e.1 = s → e.2 = q) :
    lastBalance s entries = none ∨ lastBalance s entries = some q := by
  induction entries with
  | nil => exact Or.inl rfl
  | cons e rest ih =>
    rw [lastBalance]
    rcases ih fun e' he' => h e' (List.mem_cons_of_mem e he') with hr | hr
    · rw [hr, Option.none_or]
      split_ifs with hc
      · exact Or.inr (congrArg some (h e List.mem_cons_self hc.2))
      · exact Or.inl rfl
    · rw [hr]
      exact Or.inr rfl

theorem lastBalance_eq_none_iff {s : String} {entries : List (String × ℚ)} :
    lastBalance s entries = none ↔ ∀ e ∈ entries, toUpperCase e.1 = s → ¬ 0 < e.2 := by
  induction entries with
  | nil => simp [lastBalance]
  | cons e rest ih =>
    simp only [lastBalance, Option.or_eq_none_iff, ih, List.forall_mem_cons, ite_eq_right_iff,
      reduceCtorEq, imp_false, not_and]
    rw [and_comm]
    exact and_congr_left fun _ => ⟨fun h hs hp => h hp hs, fun h hp hs => h hs hp⟩

theorem lastBalance_of_reports {exchange : InsertionMap String ℚ} {s : String} {q : ℚ}
    (h : Reports exchange s q) :
    lastBalance s exchange.entries = if 0 < q then some q else none := by
  obtain ⟨⟨e, he, hs⟩, hall⟩ := h
  split_ifs with hq
  · rcases lastBalance_of_agree hall with hnone | hsome
    · exact absurd (hall e he hs ▸ hq) (lastBalance_eq_none_iff.mp hnone e he hs)
    · exact hsome
  · rw [lastBalance_eq_none_iff]
    intro e' he' hs'
    rw [hall e' he' hs']
    exact hq

/-- The ledger after a reconciliation that found a tracked sell order filled: the
    balance without the sold quantity first, then the fill. -/
def reconcileSell (l : TradeLedger) (exchange : InsertionMap String ℚ) (symbol : String)
    (q x : ℚ) : TradeLedger :=
  (l.reconcilePositions exchange).applyReconciledFill symbol .sell q x

/-- The sale of `q` at price `x` out of the position `p` with entry price `e` has
    been counted once. -/
structure SellCountedOnce (before after : TradeLedger) (symbol : String) (p e q x : ℚ) :
    Prop where
  position : after.position symbol = p - q
  pnl : after.pnl = before.pnl + (x - e) * q
  entry : after.avgEntry.get (toUpperCase symbol) = if eps < p - q then some e else none

variable {l : TradeLedger} {exchange : InsertionMap String ℚ} {symbol : String} {p e q x : ℚ}

theorem reconcileSell_eq (hq : 0 < q) (hx : 0 < x) :
    reconcileSell l exchange symbol q x =
      (l.reconcilePositions exchange).sellFill (toUpperCase symbol) q x := by
  rw [reconcileSell, applyReconciledFill, if_neg (not_le.mpr hq), if_neg (not_le.mpr hx)]

/-- The reconciliation leaves the balance as the position. -/
theorem held_reconcilePositions (h : Reports exchange (toUpperCase symbol) q) (hq : 0 ≤ q) :
    (l.reconcilePositions exchange).held (toUpperCase symbol) = q := by
  rw [held, positions_reconcilePositions, lastBalance_of_reports h]
  split_ifs with hpos
  · rfl
  · exact le_antisymm hq (not_lt.mp hpos)

/-- A sale that leaves a rest is taken out of the position a second time. -/
theorem position_reconcileSell_lt (hq : 0 < q) (hqp : q < p) (hx : 0 < x)
    (hreport : Reports exchange (toUpperCase symbol) (p - q)) :
    (reconcileSell l exchange symbol q x).position symbol < p - q := by
  have hrest : 0 < p - q := by linarith
  have hheld := held_reconcilePositions (l := l) hreport hrest.le
  rw [reconcileSell_eq hq hx, position, held, positions_sellFill]
  split_ifs
  · have hsold : 0 < min (p - q) q := lt_min hrest hq
    rw [InsertionMap.get_set_self, Option.getD_some, remaining, hheld]
    linarith
  · rw [InsertionMap.get_delete_self]
    exact hrest

/-- A sale of the whole position books no profit: the balance has already erased it. -/
theorem reconcileSell_all (hq : 0 < q) (hx : 0 < x)
    (hreport : Reports exchange (toUpperCase symbol) 0) :
    (reconcileSell l exchange symbol q x).position symbol = 0 ∧
      (reconcileSell l exchange symbol q x).pnl = l.pnl ∧
      (reconcileSell l exchange symbol q x).avgEntry.get (toUpperCase symbol) = none := by
  have hheld := held_reconcilePositions (l := l) hreport le_rfl
  have hrest : ¬ eps < (l.reconcilePositions exchange).remaining (toUpperCase symbol) q := by
    rw [remaining, hheld, min_eq_left hq.le, sub_zero]
    exact not_lt.mpr eps_pos.le
  have hsold : ¬ (0 < (l.reconcilePositions exchange).entry (toUpperCase symbol) ∧
      0 < min ((l.reconcilePositions exchange).held (toUpperCase symbol)) q) := by
    rw [hheld, min_eq_left hq.le]
    exact fun h => lt_irrefl 0 h.2
  rw [reconcileSell_eq hq hx]
  refine ⟨?_, ?_, ?_⟩
  · rw [position, held, positions_sellFill, if_neg hrest, InsertionMap.get_delete_self]
    rfl
  · rw [pnl, realizedPnl_sellFill, if_neg hsold, realizedPnl_reconcilePositions]
    rfl
  · rw [avgEntry_sellFill, if_neg hrest, InsertionMap.get_delete_self]

/-- **Reconciled sells**: a filled sell order is counted once exactly when it
    closes the whole position at its entry price. -/
theorem sellCountedOnce_iff (hp : l.positions.get (toUpperCase symbol) = some p)
    (hpos : 0 < p) (he : l.avgEntry.get (toUpperCase symbol) = some e) (hepos : 0 < e)
    (hq : 0 < q) (hqp : q ≤ p) (hx : 0 < x)
    (hreport : Reports exchange (toUpperCase symbol) (p - q)) :
    SellCountedOnce l (reconcileSell l exchange symbol q x) symbol p e q x ↔ q = p ∧ x = e := by
  rcases hqp.lt_or_eq with hlt | rfl
  · have hless := position_reconcileSell_lt (l := l) hq hlt hx hreport
    constructor
    · intro h
      exact absurd h.position hless.ne
    · rintro ⟨rfl, _⟩
      exact absurd hlt (lt_irrefl q)
  · rw [sub_self] at hreport
    obtain ⟨hposition, hpnl, hentry⟩ := reconcileSell_all (l := l) hq hx hreport
    constructor
    · intro h
      refine ⟨rfl, ?_⟩
      have hprofit : (x - e) * q = 0 := by
        have := h.pnl
        rw [hpnl] at this
        linarith
      rcases mul_eq_zero.mp hprofit with h0 | h0
      · linarith
      · exact absurd h0 hq.ne'
    · rintro ⟨_, rfl⟩
      refine ⟨by rw [hposition, sub_self], by rw [hpnl, sub_self, zero_mul, add_zero], ?_⟩
      rw [hentry, sub_self, if_neg (not_lt.mpr eps_pos.le)]

end ReconciledSell

/-- One coin bought at 100, the other of two coins sold at 110: the sale is taken
    out of the remaining coin once more. -/
theorem sellCountedOnce_fails_on_partial_sale :
    ¬ SellCountedOnce (TradeLedger.empty.applyFill "BTCUSDT" .buy 2 100)
      (reconcileSell (TradeLedger.empty.applyFill "BTCUSDT" .buy 2 100)
        (.ofList [("BTCUSDT", 1)]) "BTCUSDT" 1 110) "BTCUSDT" 2 100 1 110 := by
  intro h
  exact absurd h.position (by decide +kernel)

/-- A break-even sale of the whole position. -/
theorem sellCountedOnce_of_break_even :
    SellCountedOnce (TradeLedger.empty.applyFill "BTCUSDT" .buy 2 100)
      (reconcileSell (TradeLedger.empty.applyFill "BTCUSDT" .buy 2 100)
        (.ofList [("BTCUSDT", 0)]) "BTCUSDT" 2 100) "BTCUSDT" 2 100 2 100 := by
  refine (sellCountedOnce_iff ?_ ?_ ?_ ?_ ?_ ?_ ?_ ⟨?_, ?_⟩).mpr ⟨rfl, rfl⟩ <;> decide +kernel

structure BalanceInfo where
  asset : String
  free : ℚ
  locked : ℚ
  free_nonneg : 0 ≤ free
  locked_nonneg : 0 ≤ locked

/-- The balances that the exchange reports, one for each asset. -/
structure AccountAnswer where
  balances : List BalanceInfo
  nodup : (balances.map BalanceInfo.asset).Nodup

/-- The balances of an account answer that are not all zero. -/
def AccountAnswer.account (answer : AccountAnswer) : List BalanceInfo :=
  answer.balances.filter fun b => 0 < b.free ∨ 0 < b.locked

/-- The first balance of an asset. -/
def findBalance (balances : List BalanceInfo) (asset : String) : Option BalanceInfo :=
  balances.find? fun b => b.asset = asset

/-- The free amount of an asset that the account holds. -/
def AccountAnswer.free (answer : AccountAnswer) (asset : String) : ℚ :=
  ((findBalance answer.balances asset).map BalanceInfo.free).getD 0

/-- The amount of an asset that open orders of the account lock. -/
def AccountAnswer.locked (answer : AccountAnswer) (asset : String) : ℚ :=
  ((findBalance answer.balances asset).map BalanceInfo.locked).getD 0

theorem AccountAnswer.free_nonneg (answer : AccountAnswer) (asset : String) :
    0 ≤ answer.free asset := by
  rw [free]
  cases findBalance answer.balances asset with
  | none => exact le_rfl
  | some b => exact b.free_nonneg

/-- The filter of the account step drops only balances that are zero anyway. -/
theorem AccountAnswer.free_account (answer : AccountAnswer) (asset : String) :
    ((findBalance answer.account asset).map BalanceInfo.free).getD 0 = answer.free asset := by
  obtain ⟨balances, hnodup⟩ := answer
  rw [free, account]
  dsimp only
  induction balances with
  | nil => rfl
  | cons b rest ih =>
    rw [List.map_cons, List.nodup_cons] at hnodup
    have hrest := ih hnodup.2
    by_cases hb : b.asset = asset
    · by_cases hpos : 0 < b.free ∨ 0 < b.locked
      · simp [findBalance, hb, hpos]
      · -- an all-zero balance: no other balance has its asset
        have hzero : b.free = 0 := le_antisymm (not_lt.mp fun h => hpos (Or.inl h)) b.free_nonneg
        have hnone : findBalance (rest.filter fun b => 0 < b.free ∨ 0 < b.locked) asset = none := by
          rw [findBalance, List.find?_eq_none]
          intro c hc hcasset
          have hmem := List.mem_map_of_mem (f := BalanceInfo.asset) (List.mem_of_mem_filter hc)
          rw [of_decide_eq_true hcasset, ← hb] at hmem
          exact hnodup.1 hmem
        rw [List.filter_cons_of_neg (by simpa using hpos), hnone]
        simp [findBalance, hb, hzero]
    · by_cases hpos : 0 < b.free ∨ 0 < b.locked
      · rw [List.filter_cons_of_pos (by simpa using hpos)]
        simpa [findBalance, hb] using hrest
      · rw [List.filter_cons_of_neg (by simpa using hpos)]
        simpa [findBalance, hb] using hrest

section Positions

variable [CaseMapping]

/-- The symbols of a parsed configuration are in upper case. -/
structure ConfiguredSymbols where
  symbols : List String
  upper : ∀ s ∈ symbols, toUpperCase s = s

/-- The free amounts by configured symbol. -/
def exchangePositions (symbols : List String) (balances : List BalanceInfo) :
    InsertionMap String ℚ :=
  symbols.foldl
    (fun positions symbol =>
      match findBalance balances (baseOf symbol) with
      | some found => positions.set symbol found.free
      | none => positions)
    .empty

/-- The position step of a reconciliation. -/
def reconcileBalances (l : TradeLedger) (config : ConfiguredSymbols) (answer : AccountAnswer) :
    TradeLedger :=
  l.reconcilePositions (exchangePositions config.symbols answer.account)

/-- The distinct configured symbols with a base asset. -/
def ConfiguredSymbols.withBase (config : ConfiguredSymbols) (asset : String) : List String :=
  config.symbols.dedup.filter fun s => baseOf s = asset

/-- The positions of the symbols of an asset fit into the account, and a basis is
    only forgotten when the account holds nothing of its asset any more. -/
structure Faithful (before after : TradeLedger) (config : ConfiguredSymbols)
    (answer : AccountAnswer) : Prop where
  covered : ∀ asset,
    ((config.withBase asset).map after.position).sum ≤ answer.free asset + answer.locked asset
  basis_kept : ∀ s e, before.avgEntry.get s = some e →
    0 < answer.free (baseOf s) + answer.locked (baseOf s) → after.avgEntry.get s = some e

/-- No asset is shared out to more symbols than its locked amount makes up for. -/
def SharesCovered (config : ConfiguredSymbols) (answer : AccountAnswer) : Prop :=
  ∀ asset,
    (config.withBase asset).length * answer.free asset ≤ answer.free asset + answer.locked asset

/-- Every position with a basis whose asset the account holds belongs to a
    configured symbol of which some amount is free. -/
def BasesFree (l : TradeLedger) (config : ConfiguredSymbols) (answer : AccountAnswer) : Prop :=
  ∀ s e, l.avgEntry.get s = some e → (l.positions.get s).isSome →
    0 < answer.free (baseOf s) + answer.locked (baseOf s) →
      s ∈ config.symbols ∧ 0 < answer.free (baseOf s)

theorem get_foldl_positions (balances : List BalanceInfo) (symbols : List String)
    (m : InsertionMap String ℚ) (s : String) :
    (symbols.foldl
      (fun positions symbol =>
        match findBalance balances (baseOf symbol) with
        | some found => positions.set symbol found.free
        | none => positions) m).get s =
      (if s ∈ symbols then (findBalance balances (baseOf s)).map BalanceInfo.free
        else none).or (m.get s) := by
  induction symbols generalizing m with
  | nil => rfl
  | cons symbol rest ih =>
    rw [List.foldl_cons, ih]
    by_cases hs : s = symbol
    · subst hs
      cases findBalance balances (baseOf s) with
      | none => simp
      | some found => by_cases hr : s ∈ rest <;> simp [hr]
    · have hget : (match findBalance balances (baseOf symbol) with
          | some found => m.set symbol found.free
          | none => m).get s = m.get s := by
        cases findBalance balances (baseOf symbol) with
        | none => rfl
        | some found => exact InsertionMap.get_set_of_ne m found.free hs
      rw [hget]
      simp [hs]

theorem get_exchangePositions (symbols : List String) (balances : List BalanceInfo) (s : String) :
    (exchangePositions symbols balances).get s =
      if s ∈ symbols then (findBalance balances (baseOf s)).map BalanceInfo.free else none := by
  rw [exchangePositions, get_foldl_positions, InsertionMap.get_empty, Option.or_none]

/-- In a record whose keys are in upper case the last balance of a symbol is its value. -/
theorem lastBalance_of_upper {exchange : InsertionMap String ℚ}
    (hup : ∀ k v, exchange.get k = some v → toUpperCase k = k) (s : String) :
    lastBalance s exchange.entries = (exchange.get s).filter (0 < ·) := by
  have hkey : ∀ e ∈ exchange.entries, toUpperCase e.1 = s → exchange.get s = some e.2 := by
    intro e he hs
    have hget := (exchange.mem_entries_iff e.1 e.2).mp he
    rwa [← hup e.1 e.2 hget, hs] at hget
  cases hg : exchange.get s with
  | none =>
    rw [Option.filter_none, lastBalance_eq_none_iff]
    intro e he hs
    rw [hkey e he hs] at hg
    cases hg
  | some q =>
    have hreport : Reports exchange s q := by
      refine ⟨⟨(s, q), (exchange.mem_entries_iff s q).mpr hg, hup s q hg⟩, ?_⟩
      intro e he hs
      rw [hkey e he hs, Option.some.injEq] at hg
      exact hg
    rw [lastBalance_of_reports hreport]
    simp [Option.filter]

/-- What the position step leaves for a symbol. -/
theorem lastBalance_exchangePositions (config : ConfiguredSymbols) (answer : AccountAnswer)
    (s : String) :
    lastBalance s (exchangePositions config.symbols answer.account).entries =
      if s ∈ config.symbols ∧ 0 < answer.free (baseOf s) then some (answer.free (baseOf s))
      else none := by
  have hup : ∀ k v, (exchangePositions config.symbols answer.account).get k = some v →
      toUpperCase k = k := by
    intro k v hk
    rw [get_exchangePositions] at hk
    split_ifs at hk with hmem
    exact config.upper k hmem
  rw [lastBalance_of_upper hup, get_exchangePositions]
  have hfree := answer.free_account (baseOf s)
  by_cases hs : s ∈ config.symbols
  · rw [if_pos hs]
    cases hf : findBalance answer.account (baseOf s) with
    | none =>
      rw [hf] at hfree
      simp [← hfree]
    | some found =>
      rw [hf] at hfree
      simp [← hfree, hs, Option.filter]
  · simp [hs]

theorem position_reconcileBalances (l : TradeLedger) (config : ConfiguredSymbols)
    (answer : AccountAnswer) {s : String} (hs : s ∈ config.symbols) :
    (reconcileBalances l config answer).position s = answer.free (baseOf s) := by
  rw [position, config.upper s hs, held, reconcileBalances, positions_reconcilePositions,
    lastBalance_exchangePositions]
  split_ifs with h
  · rfl
  · exact le_antisymm (answer.free_nonneg _) (not_lt.mp fun hpos => h ⟨hs, hpos⟩)

/-- Every symbol of an asset gets the whole free amount of the asset. -/
theorem sum_position_reconcileBalances (l : TradeLedger) (config : ConfiguredSymbols)
    (answer : AccountAnswer) (asset : String) :
    ((config.withBase asset).map (reconcileBalances l config answer).position).sum =
      (config.withBase asset).length * answer.free asset := by
  have hall : ∀ s ∈ config.withBase asset,
      (reconcileBalances l config answer).position s = answer.free asset := by
    intro s hs
    obtain ⟨hmem, hbase⟩ := List.mem_filter.mp hs
    rw [position_reconcileBalances l config answer (List.mem_dedup.mp hmem),
      of_decide_eq_true hbase]
  rw [List.map_congr_left hall, List.map_const', List.sum_replicate, nsmul_eq_mul]

/-- **Balance reconciliation**: the step is faithful exactly when no free amount
    is shared out beyond what the account holds and every basis of a held asset
    has a configured symbol with a free amount. -/
theorem faithful_iff (l : TradeLedger) (config : ConfiguredSymbols) (answer : AccountAnswer) :
    Faithful l (reconcileBalances l config answer) config answer ↔
      SharesCovered config answer ∧ BasesFree l config answer := by
  have hkept : ∀ s e, l.avgEntry.get s = some e →
      ((reconcileBalances l config answer).avgEntry.get s = some e ↔
        ((l.positions.get s).isSome → s ∈ config.symbols ∧ 0 < answer.free (baseOf s))) := by
    intro s e he
    rw [reconcileBalances, avgEntry_reconcilePositions, lastBalance_exchangePositions, he]
    by_cases hfree : s ∈ config.symbols ∧ 0 < answer.free (baseOf s)
    · simp [hfree]
    · simp [hfree]
  constructor
  · intro h
    refine ⟨fun asset => ?_, fun s e he hheld hpos => ?_⟩
    · have hcovered := h.covered asset
      rwa [sum_position_reconcileBalances] at hcovered
    · exact (hkept s e he).mp (h.basis_kept s e he hpos) hheld
  · rintro ⟨hshares, hbases⟩
    refine ⟨fun asset => ?_, fun s e he hpos => ?_⟩
    · rw [sum_position_reconcileBalances]
      exact hshares asset
    · exact (hkept s e he).mpr fun hheld => hbases s e he hheld hpos

end Positions

/-- One free bitcoin counts as the position of both symbols that trade it, and a
    bitcoin that an open sell order locks takes the basis of its symbol away. -/
theorem faithful_fails_on_shared_base_and_locked_amount :
    ¬ Faithful .empty
        (reconcileBalances .empty ⟨["BTCUSDT", "BTCUSDC"], by decide⟩
          ⟨[⟨"BTC", 1, 0, by decide, by decide⟩], by decide⟩)
        ⟨["BTCUSDT", "BTCUSDC"], by decide⟩
        ⟨[⟨"BTC", 1, 0, by decide, by decide⟩], by decide⟩ ∧
      ¬ Faithful (TradeLedger.empty.applyFill "BTCUSDT" .buy 1 100)
        (reconcileBalances (TradeLedger.empty.applyFill "BTCUSDT" .buy 1 100)
          ⟨["BTCUSDT"], by decide⟩
          ⟨[⟨"BTC", 0, 1, by decide, by decide⟩], by decide⟩)
        ⟨["BTCUSDT"], by decide⟩
        ⟨[⟨"BTC", 0, 1, by decide, by decide⟩], by decide⟩ := by
  constructor
  · intro h
    exact absurd (h.covered "BTC") (by decide +kernel)
  · intro h
    exact absurd (h.basis_kept "BTCUSDT" 100 (by decide +kernel) (by decide +kernel))
      (by decide)

end BotHive.Crypto
