import BotHive.Crypto.LiveTrading
import BotHive.Library.Json

/-!
# The trading counters of a live bot

The heartbeat of a bot publishes how many orders it has placed, how many fills it has seen
and their volume in USDT. `placeOrder` counts a fill that the answer to an order reports; the
fills that a reconciliation or a cancellation brings into the ledger are not counted. The
exchange sends amounts as decimal texts, and a text is never added to the volume.

## Main definitions

- `TradingCounters`, `recordCryptoOrder`, `recordCryptoFill`, `recordCryptoOrderError`
- `CountedState`: a live bot with its counters and the fills that its ledger has taken in
- `CountersAgree`: the counters are those of the fills
- `ReportsNoFill`: the condition on a step

## Main results

- `ledger_receive_of_not_takenIn`, `ledger_receiveCanceled_of_not_takenIn`,
  `ledger_receiveStatus_of_not_takenIn`: the fills that the ledger does not take in
- `countersAgree_step_iff`: the steps that keep the counters right
- `countersAgree_iff_reportsNoFill`: the counters are right exactly while nothing is filled
-/

namespace BotHive.Crypto

/-- The counters in the entry of a bot. -/
structure TradingCounters where
  cryptoOrders : ℕ
  cryptoFills : ℕ
  cryptoOrderErrors : ℕ
  cryptoVolumeUsdt : ℚ
  deriving DecidableEq

namespace TradingCounters

def zero : TradingCounters where
  cryptoOrders := 0
  cryptoFills := 0
  cryptoOrderErrors := 0
  cryptoVolumeUsdt := 0

def recordCryptoOrder (c : TradingCounters) : TradingCounters :=
  { c with cryptoOrders := c.cryptoOrders + 1 }

/-- Count a fill. The volume is added if it is a positive number at run time, whatever its
    declared type says. -/
def recordCryptoFill (c : TradingCounters) (volumeUsdt : Value) : TradingCounters :=
  { c with
    cryptoFills := c.cryptoFills + 1
    cryptoVolumeUsdt :=
      match volumeUsdt.number? with
      | some volume => if 0 < volume then c.cryptoVolumeUsdt + volume else c.cryptoVolumeUsdt
      | none => c.cryptoVolumeUsdt }

def recordCryptoOrderError (c : TradingCounters) : TradingCounters :=
  { c with cryptoOrderErrors := c.cryptoOrderErrors + 1 }

/-- `cryptoFills` is the number of the fills, `cryptoVolumeUsdt` their volume. -/
structure Agree (c : TradingCounters) (fills : List ℚ) : Prop where
  fills_eq : c.cryptoFills = fills.length
  volume_eq : c.cryptoVolumeUsdt = fills.sum

end TradingCounters

section Fills

/-- The average price of what a report says is executed. -/
def OrderReport.avgPrice (report : OrderReport) : ℚ :=
  report.cummulativeQuoteQty / report.executedQty

/-- The ledger takes in a fill whose quantity and average price are positive. -/
def OrderReport.takenIn (report : OrderReport) : Bool :=
  0 < report.executedQty && 0 < report.avgPrice

/-- The answer to an order reports a fill. -/
def OrderReport.isFill (report : OrderReport) : Bool :=
  0 < report.executedQty && (report.status = .filled || report.status = .partiallyFilled)

variable {report : OrderReport}

theorem OrderReport.takenIn_iff : report.takenIn = true ↔ 0 < report.cummulativeQuoteQty := by
  rw [takenIn, Bool.and_eq_true, decide_eq_true_eq, decide_eq_true_eq]
  constructor
  · rintro ⟨hqty, havg⟩
    exact (div_pos_iff_of_pos_right hqty).mp havg
  · intro hquote
    have hqty : 0 < report.executedQty := by
      refine lt_of_le_of_ne report.executed_nonneg fun hzero => ?_
      rw [report.quote_eq_zero hzero.symm] at hquote
      exact lt_irrefl 0 hquote
    exact ⟨hqty, div_pos hquote hqty⟩

theorem OrderReport.not_takenIn (h : ¬ report.takenIn = true) :
    report.executedQty ≤ 0 ∨ report.avgPrice ≤ 0 := by
  simpa [takenIn, imp_iff_not_or] using h

section Ledger

variable [CaseMapping] (l : TradeLedger) (symbol : String) (side : Side)

/-- `applyFill` returns at once. -/
theorem applyFill_of_not_takenIn (h : ¬ report.takenIn = true) :
    l.applyFill symbol side report.executedQty report.avgPrice = l := by
  unfold TradeLedger.applyFill
  rcases OrderReport.not_takenIn h with hqty | havg
  · rw [if_pos hqty]
  · rw [if_pos havg, ite_self]

theorem applyReconciledFill_of_not_takenIn (h : ¬ report.takenIn = true) :
    l.applyReconciledFill symbol side report.executedQty report.avgPrice = l := by
  unfold TradeLedger.applyReconciledFill
  rcases OrderReport.not_takenIn h with hqty | havg
  · rw [if_pos hqty]
  · rw [if_pos havg, ite_self]

end Ledger

/-- The fill that a report brings into the ledger, by its quote amount. -/
def OrderReport.fill (report : OrderReport) : List ℚ :=
  if report.takenIn then [report.cummulativeQuoteQty] else []

theorem OrderReport.fill_eq_nil : report.fill = [] ↔ ¬ report.takenIn = true := by
  rw [fill]
  split_ifs with h <;> simp [h]

section Live

variable [CaseMapping] (s : LiveState) (h : ¬ report.takenIn = true)
include h

/-- The answer to an order, when it reports a fill without a value. -/
theorem ledger_receive_of_not_takenIn (hfill : report.isFill = true) (id : String)
    (plan : OrderPlan) (price : ℚ) : (s.receive id plan price report).ledger = s.ledger := by
  have hcond : 0 < report.executedQty ∧
      (report.status = .filled ∨ report.status = .partiallyFilled) := by
    simpa [OrderReport.isFill] using hfill
  rw [LiveState.receive, if_pos hcond]
  exact applyFill_of_not_takenIn s.ledger plan.symbol plan.side h

theorem ledger_applyReported_of_not_takenIn (order : TrackedOrder) :
    (s.applyReported order report).ledger = s.ledger := by
  rw [LiveState.applyReported]
  by_cases hqty : 0 < report.executedQty
  · simp only [if_pos hqty]
    exact applyReconciledFill_of_not_takenIn s.ledger order.symbol order.side h
  · unfold TradeLedger.applyReconciledFill
    rw [if_pos (not_lt.mp hqty)]

/-- The answer to a cancellation only ends the order. -/
theorem ledger_receiveCanceled_of_not_takenIn (order : TrackedOrder) :
    (s.receiveCanceled order report).ledger = (s.ledger.removeOrder order.clientOrderId).2 := by
  rw [LiveState.receiveCanceled, LiveState.ledger_refundUnfilled, LiveState.removeOrder]
  split_ifs
  · rw [ledger_applyReported_of_not_takenIn s h order]
  · rfl

/-- The status of an order only ends it. -/
theorem ledger_receiveStatus_of_not_takenIn (order : TrackedOrder) :
    (s.receiveStatus order (.report report)).ledger =
      (s.ledger.removeOrder order.clientOrderId).2 := by
  rw [LiveState.receiveStatus]
  split_ifs
  · rw [LiveState.ledger_refundUnfilled, ledger_applyReported_of_not_takenIn _ h order]
    rfl
  · rw [LiveState.ledger_refundUnfilled]
    rfl
  · rfl

end Live

end Fills

/-- A live bot with its counters and, for statements only, the quote amounts of the fills that
    its ledger has taken in, latest first. -/
structure CountedState where
  live : LiveState
  counters : TradingCounters
  fills : List ℚ

namespace CountedState

def start (ledger : TradeLedger) : CountedState where
  live := .start ledger
  counters := .zero
  fills := []

/-- `placeOrder` counts the answer to an order. The exchange sends the quote amount of an order
    as the text `decimal`. -/
def countAnswer (decimal : ℚ → String) (c : TradingCounters) (report : OrderReport) :
    TradingCounters :=
  if report.isFill then
    c.recordCryptoOrder.recordCryptoFill (.str (decimal report.cummulativeQuoteQty))
  else c.recordCryptoOrder

/-- What a step writes into the counters. -/
def count (decimal : ℚ → String) (s : LiveState) (a : LiveAction) (c : TradingCounters) :
    TradingCounters :=
  match a with
  | .proceed id =>
    match s.placements id with
    | .accepted _ _ report => countAnswer decimal c report
    | .failed _ => c.recordCryptoOrderError
    | _ => c
  | _ => c

/-- The fill that a step brings into the ledger: by the answer to an order, by the answer to
    the cancellation of a stale order, or by the status of an order that is no longer open. -/
def fillsOf (s : LiveState) : LiveAction → List ℚ
  | .proceed id =>
    match s.placements id with
    | .accepted _ _ report => if report.isFill then report.fill else []
    | _ => []
  | .resume call =>
    match s.reconciliations call with
    | .canceled _ _ (some report) => report.fill
    | .asked _ _ (.report report) =>
      if report.status = .filled ∨ report.status = .partiallyFilled then report.fill else []
    | _ => []
  | _ => []

section Steps

variable [CaseMapping] (config : LiveConfig) (decimal : ℚ → String)

/-- A step of the bot; time may pass as it likes. -/
def advance (s : LiveState) : LiveAction → Option LiveState
  | .tick ms => some { s with now := s.now + ms }
  | a => s.step config a

def step (w : CountedState) (a : LiveAction) : Option CountedState :=
  (advance config w.live a).map fun live =>
    { live := live
      counters := count decimal w.live a w.counters
      fills := fillsOf w.live a ++ w.fills }

end Steps

/-- The counters are those of the fills. -/
def CountersAgree (w : CountedState) : Prop :=
  w.counters.Agree w.fills

/-- No fill is reported by what the step hears of the exchange. -/
def ReportsNoFill (w : CountedState) : LiveAction → Prop
  | .proceed id =>
    match w.live.placements id with
    | .accepted _ _ report => ¬ report.isFill = true
    | _ => True
  | .resume call =>
    match w.live.reconciliations call with
    | .canceled _ _ (some report) => ¬ report.takenIn = true
    | .asked _ _ (.report report) =>
      report.status = .filled ∨ report.status = .partiallyFilled → ¬ report.takenIn = true
    | _ => True
  | _ => True

section Agreement

variable {config : LiveConfig} {decimal : ℚ → String} {w w' : CountedState}
  {c : TradingCounters} {fills : List ℚ} {report : OrderReport}

/-- A text is not added to the volume. -/
theorem recordCryptoFill_text (c : TradingCounters) (text : String) :
    c.recordCryptoFill (.str text) = { c with cryptoFills := c.cryptoFills + 1 } :=
  rfl

/-- The volume misses every fill. -/
theorem volume_ne (h : report.takenIn = true) (hvolume : c.cryptoVolumeUsdt = fills.sum) :
    c.cryptoVolumeUsdt ≠ (report.fill ++ fills).sum := by
  have hquote : 0 < report.cummulativeQuoteQty := OrderReport.takenIn_iff.mp h
  rw [OrderReport.fill, if_pos h, List.singleton_append, List.sum_cons, hvolume]
  linarith

/-- The answer to an order keeps the counters right exactly when it reports no fill. -/
theorem agree_countAnswer_iff (h : c.Agree fills) (report : OrderReport) :
    (countAnswer decimal c report).Agree ((if report.isFill then report.fill else []) ++ fills) ↔
      ¬ report.isFill = true := by
  rw [countAnswer]
  by_cases hfill : report.isFill = true
  · refine iff_of_false ?_ (not_not.mpr hfill)
    rw [if_pos hfill, if_pos hfill, recordCryptoFill_text]
    rintro ⟨hfills, hvolume⟩
    by_cases htaken : report.takenIn = true
    · exact volume_ne htaken h.volume_eq hvolume
    · -- a fill without a value is counted, and the ledger does not take it in
      rw [OrderReport.fill_eq_nil.mpr htaken, List.nil_append, ← h.fills_eq] at hfills
      exact Nat.succ_ne_self _ hfills
  · rw [if_neg hfill, if_neg hfill]
    exact iff_of_true ⟨h.fills_eq, h.volume_eq⟩ hfill

/-- What is heard of a tracked order is not counted. -/
theorem agree_fill_iff (h : c.Agree fills) (report : OrderReport) :
    c.Agree (report.fill ++ fills) ↔ ¬ report.takenIn = true := by
  by_cases htaken : report.takenIn = true
  · exact iff_of_false (fun h' => volume_ne htaken h.volume_eq h'.volume_eq) (not_not.mpr htaken)
  · rw [OrderReport.fill_eq_nil.mpr htaken, List.nil_append]
    exact iff_of_true h htaken

theorem agree_proceed_iff (h : w.CountersAgree) (id : String) :
    (count decimal w.live (.proceed id) w.counters).Agree
        (fillsOf w.live (.proceed id) ++ w.fills) ↔ ReportsNoFill w (.proceed id) := by
  rw [count, fillsOf, ReportsNoFill]
  cases w.live.placements id with
  | accepted plan price report => exact agree_countAnswer_iff h report
  | failed plan => exact iff_of_true ⟨h.fills_eq, h.volume_eq⟩ trivial
  | _ => exact iff_of_true h trivial

theorem agree_resume_iff (h : w.CountersAgree) (call : ℕ) :
    w.counters.Agree (fillsOf w.live (.resume call) ++ w.fills) ↔
      ReportsNoFill w (.resume call) := by
  rw [fillsOf, ReportsNoFill]
  cases w.live.reconciliations call with
  | canceled order rest answer =>
    cases answer with
    | none => exact iff_of_true h trivial
    | some report => exact agree_fill_iff h report
  | asked order rest answer =>
    cases answer with
    | report report =>
      dsimp only
      by_cases hstatus : report.status = .filled ∨ report.status = .partiallyFilled
      · rw [if_pos hstatus, agree_fill_iff h report, forall_prop_of_true hstatus]
      · rw [if_neg hstatus]
        exact iff_of_true h fun hfilled => absurd hfilled hstatus
    | _ => exact iff_of_true h trivial
  | _ => exact iff_of_true h trivial

/-- **Step**: out of a state with the right counters, a step keeps them right exactly when it
    hears of no fill. -/
theorem countersAgree_step_iff [CaseMapping] {a : LiveAction} (h : w.CountersAgree)
    (hstep : w.step config decimal a = some w') : w'.CountersAgree ↔ ReportsNoFill w a := by
  obtain ⟨live, -, rfl⟩ := Option.map_eq_some_iff.mp hstep
  cases a with
  | proceed id => exact agree_proceed_iff h id
  | resume call => exact agree_resume_iff h call
  | _ => exact iff_of_true h trivial

end Agreement

/-- **Counters**: whatever the ledger starts from, the counters are right in every state of a
    run exactly when no step of it hears of a fill. -/
theorem countersAgree_iff_reportsNoFill [CaseMapping] (config : LiveConfig)
    (decimal : ℚ → String) (ledger : TradeLedger) (as : List LiveAction) :
    Machine.Everywhere (step config decimal) CountersAgree (.start ledger) as ↔
      Machine.Along (step config decimal) ReportsNoFill (.start ledger) as :=
  Machine.everywhere_iff_along (fun _ _ _ h hstep => countersAgree_step_iff h hstep) ⟨rfl, rfl⟩

section Sample

def buyOne : OrderPlan where
  symbol := "BTCUSDT"
  side := .buy
  type := .market
  quantity := none
  quoteOrderQty := some 100
  price := none
  valueUsdt := 100

/-- The order is filled at once. -/
def filledOne : OrderReport where
  orderId := 1
  price := 0
  status := .filled
  executedQty := 1
  cummulativeQuoteQty := 100
  executed_nonneg := OrderReport.one_nonneg
  quote_nonneg := OrderReport.hundred_nonneg
  quote_eq_zero := OrderReport.hundred_eq_zero

/-- The volume of a market order that is filled at once is not counted. -/
theorem not_countersAgree_filled :
    ¬ Machine.Everywhere (step ⟨["BTCUSDT"], 0, 0⟩ fun _ => "100.00000000") CountersAgree
      (.start .empty)
      [.place "a" buyOne 100, .proceed "a", .accept "a" filledOne, .proceed "a"] := by
  intro h
  have hend : (Machine.exec (step ⟨["BTCUSDT"], 0, 0⟩ fun _ => "100.00000000") (.start .empty)
      [.place "a" buyOne 100, .proceed "a", .accept "a" filledOne, .proceed "a"]).map
        (fun w => (w.counters.cryptoVolumeUsdt, w.fills)) = some (0, [100]) := by
    decide +kernel
  obtain ⟨w, hrun, hcounters⟩ := Option.map_eq_some_iff.mp hend
  obtain ⟨hvolume, hfills⟩ := Prod.mk.inj hcounters
  have hagree := (h.at_end hrun).volume_eq
  rw [hvolume, hfills] at hagree
  norm_num at hagree

end Sample

end CountedState

end BotHive.Crypto
