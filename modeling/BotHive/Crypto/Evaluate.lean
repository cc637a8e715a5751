import BotHive.Library.Machine
import BotHive.Library.Tasks
import BotHive.Crypto.Exchange

/-!
# Evaluating a symbol

The REST poll and the price stream evaluate the same symbol. An evaluation first
checks the protective exits and then follows the strategy; both may sell, and both
wait in between for balances, events and orders. One evaluation is a task whose
program counter names the promise it waits for, and every action lets one task run
up to its next `await`.

## Main definitions

- `exitDecision`: the exit rule of a position
- `EvalTask`, `EvalState`: the tasks and what they share
- `EvalState.step`: one turn of a task, or an answer of the exchange
- `SellsApart`: no sell is computed before the fill of another one is applied
- `TakesTurns`: the turns under which exits and signal sells do not overlap

## Main results

- `apart_step`: what one turn preserves
- `sellsApart_of_takesTurns`: along every run of such turns the sells stay apart

The number of applied fills (`fills`), the orders without an applied fill
(`outstanding`) and the log `sells` are kept for the statement only; no turn looks
at them.
-/

namespace BotHive.Crypto

inductive SignalDirection where
  | buy
  | sell
  deriving DecidableEq

inductive ExitReason where
  | stopLoss
  | takeProfit
  | trailingStop
  deriving DecidableEq

/-- The settings of the bot that an evaluation of one symbol reads. -/
structure EvalConfig where
  symbol : String
  pollIntervalMs : ℤ
  /-- Percent below the entry that closes the position, 0 when disabled. -/
  stopLossPct : ℚ
  /-- Percent above the entry that closes the position, 0 when disabled. -/
  takeProfitPct : ℚ
  /-- Percent below the running high that closes the position, 0 when disabled. -/
  trailingStopPct : ℚ
  guard : RiskGuard

/-- Any protective exit is armed. -/
def EvalConfig.exitEnabled (config : EvalConfig) : Bool :=
  decide (0 < config.stopLossPct ∨ 0 < config.takeProfitPct ∨ 0 < config.trailingStopPct)

/-- Milliseconds for which a cached balance counts as current. -/
def EvalConfig.balanceTtl (config : EvalConfig) : ℤ :=
  max (config.pollIntervalMs * 2) 10000

section Exits

variable [CaseMapping]

/-- Why a position with an entry price should be closed at a price, and the ledger
    with the trailing high ratcheted up. -/
def exitDecision (config : EvalConfig) (l : TradeLedger) (entry price : ℚ) :
    Option ExitReason × TradeLedger :=
  if 0 < config.takeProfitPct ∧ entry * (1 + config.takeProfitPct / 100) ≤ price then
    (some .takeProfit, l)
  else
    let trailHigh :=
      if 0 < config.trailingStopPct then l.trailingHighFor config.symbol else none
    let high := max (trailHigh.getD entry) price
    let raised := trailHigh.all fun old => old < high
    let l' :=
      if 0 < config.trailingStopPct ∧ raised = true then l.setTrailingHigh config.symbol high
      else l
    let trailStop :=
      if 0 < config.trailingStopPct then some (high * (1 - config.trailingStopPct / 100))
      else none
    let fixedStop :=
      if 0 < config.stopLossPct then some (entry * (1 - config.stopLossPct / 100)) else none
    let stop :=
      match fixedStop, trailStop with
      | some a, some b => some (max a b)
      | some a, none => some a
      | none, b => b
    match stop with
    | none => (none, l')
    | some stop =>
      if price ≤ stop then
        (some (if trailStop.isSome ∧ trailHigh.any (entry < ·) = true then .trailingStop
          else .stopLoss), l')
      else (none, l')

end Exits

/-- A balance on its way to an evaluation. `read` is the number of fills that had
    been applied when the exchange was asked. -/
inductive BalanceWait where
  /-- Served from the cache. -/
  | cached (free : ℚ) (read : ℕ)
  /-- Asked for; a stale cached balance stands in when the answer fails. -/
  | fetching (read : ℕ) (fallback : Option (ℚ × ℕ))

inductive ExitResult where
  | closed
  | open
  /-- An exception ended the exit check. -/
  | failed
  deriving DecidableEq

/-- Where an evaluation waits. -/
inductive EvalTask where
  | idle
  /-- An exit check waits for the balance; it has read the position. -/
  | exitBalance (price position : ℚ) (positionRead : ℕ) (wait : BalanceWait)
  /-- An exit check waits for its sell order. -/
  | exitOrder (price : ℚ)
  /-- An exit check stores the ledger and reports the trade. -/
  | exitReport (price : ℚ)
  /-- An exit check has ended and is about to clear its marker. -/
  | exitLeaving (price : ℚ) (result : ExitResult)
  /-- The evaluation is about to go on after its exit check. -/
  | afterExit (price : ℚ) (result : ExitResult)
  /-- The evaluation emits a new signal. -/
  | signalEmit (price : ℚ) (direction : SignalDirection)
  /-- A signal sell waits for the balance. -/
  | signalBalance (price : ℚ) (wait : BalanceWait)
  /-- A signal sell waits for its order. -/
  | signalOrder
  /-- A signal sell stores the ledger and reports the trade. -/
  | signalReport

structure CachedBalance where
  free : ℚ
  at_ : ℤ
  read : ℕ

/-- A placed automatic sell: the fills applied when its position and balance were
    read, and the applied fills and unfinished sells when it was placed. -/
structure SellRecord where
  reads : List ℕ
  fills : ℕ
  outstanding : ℕ
  deriving DecidableEq

structure EvalState where
  ledger : TradeLedger
  balanceCache : Option CachedBalance
  lastSignal : Option SignalDirection
  exitInFlight : Bool
  tasks : ℕ → EvalTask
  fills : ℕ
  outstanding : ℕ
  sells : List SellRecord

/-- A freshly connected bot with the ledger it has loaded. -/
def EvalState.start (ledger : TradeLedger) : EvalState where
  ledger := ledger
  balanceCache := none
  lastSignal := none
  exitInFlight := false
  tasks _ := .idle
  fills := 0
  outstanding := 0
  sells := []

/-- How a market order request ends. -/
inductive OrderAnswer where
  | answered (status : OrderStatus) (executedQty cummulativeQuoteQty : ℚ)
  /-- An error, although the exchange may have accepted the order. -/
  | error (accepted : Bool)
  deriving DecidableEq

inductive EvalAction where
  /-- The poll or a tick evaluates the symbol at a price; `signal` is what the
      strategy says. -/
  | evaluate (task : ℕ) (price : ℚ) (now : ℤ) (signal : Option SignalDirection)
  /-- A task whose promise has resolved goes on. -/
  | resume (task : ℕ) (now : ℤ) (signal : Option SignalDirection)
  /-- The exchange answers a balance request, or the request fails. -/
  | balance (task : ℕ) (free : Option ℚ) (now : ℤ)
  /-- The exchange answers an order. -/
  | order (task : ℕ) (answer : OrderAnswer)
  /-- A reconciliation stores the balance it asked for when `read` fills were applied. -/
  | account (free : ℚ) (read : ℕ) (now : ℤ)
  /-- Buys and reconciliations change the ledger. -/
  | ledger (ledger : TradeLedger)

namespace EvalState

/-- Move one task. -/
def goto (s : EvalState) (i : ℕ) (t : EvalTask) : EvalState :=
  { s with tasks := Function.update s.tasks i t }

section Turns

variable [CaseMapping] (config : EvalConfig)

/-- Ask for the free balance of the base asset. -/
def liveFreeBalance (s : EvalState) (now : ℤ) : BalanceWait :=
  match s.balanceCache with
  | none => .fetching s.fills none
  | some cached =>
    if now - cached.at_ < config.balanceTtl then .cached cached.free cached.read
    else .fetching s.fills (some (cached.free, cached.read))

/-- Submit a sell whose quantity rests on the given reads. -/
def placeSell (s : EvalState) (reads : List ℕ) : EvalState :=
  { s with
    sells := ⟨reads, s.fills, s.outstanding⟩ :: s.sells
    outstanding := s.outstanding + 1 }

/-- The exit check up to its first `await`. -/
def startExit (s : EvalState) (i : ℕ) (price : ℚ) (now : ℤ) : EvalState :=
  let s := { s with exitInFlight := true }
  let position := s.ledger.position config.symbol
  if position ≤ 0 then s.goto i (.exitLeaving price .open)
  else s.goto i (.exitBalance price position s.fills (s.liveFreeBalance config now))

/-- The exit check once it knows the balance. -/
def finishExit (s : EvalState) (i : ℕ) (price position : ℚ) (positionRead : ℕ)
    (free : ℚ) (read : ℕ) : EvalState :=
  let quantity := min position free
  let entry := s.ledger.avgEntryFor config.symbol
  if quantity ≤ 0 ∨ entry ≤ 0 then s.goto i (.exitLeaving price .open)
  else
    let (reason, ledger) := exitDecision config s.ledger entry price
    let s := { s with ledger := ledger }
    match reason, config.guard.planMarketSell config.symbol price quantity true with
    | some _, .ok _ => (s.placeSell [positionRead, read]).goto i (.exitOrder price)
    | _, _ => s.goto i (.exitLeaving price .open)

/-- Follow the strategy: a new direction is emitted. -/
def followStrategy (s : EvalState) (i : ℕ) (price : ℚ) (signal : Option SignalDirection) :
    EvalState :=
  match signal with
  | none => s.goto i .idle
  | some direction =>
    if s.lastSignal = some direction then s.goto i .idle
    else { s with lastSignal := some direction }.goto i (.signalEmit price direction)

/-- A signal sell once it knows the balance. -/
def finishSignal (s : EvalState) (i : ℕ) (price free : ℚ) (read : ℕ) : EvalState :=
  if free ≤ 0 then s.goto i .idle
  else
    match config.guard.planMarketSell config.symbol price free false with
    | .error _ => s.goto i .idle
    | .ok _ => (s.placeSell [read]).goto i .signalOrder

/-- A turn of a task whose promise has resolved. -/
def resume (s : EvalState) (i : ℕ) (now : ℤ) (signal : Option SignalDirection) :
    Option EvalState :=
  match s.tasks i with
  | .exitBalance price position positionRead (.cached free read) =>
    some (s.finishExit config i price position positionRead free read)
  | .exitReport price =>
    some ({ s with lastSignal := some .sell }.goto i (.exitLeaving price .closed))
  | .exitLeaving price result =>
    some ({ s with exitInFlight := false }.goto i (.afterExit price result))
  | .afterExit price .open => some (s.followStrategy i price signal)
  | .afterExit _ _ => some (s.goto i .idle)
  -- what a buy does to the ledger is an action of its own
  | .signalEmit _ .buy => some (s.goto i .idle)
  | .signalEmit price .sell =>
    some (s.goto i (.signalBalance price (s.liveFreeBalance config now)))
  | .signalBalance price (.cached free read) => some (s.finishSignal config i price free read)
  | .signalReport => some (s.goto i .idle)
  | _ => none

/-- The answer to a balance request is cached; a failed one falls back to the stale
    cached balance. -/
def receiveBalance (s : EvalState) (read : ℕ) (fallback : Option (ℚ × ℕ)) (free : Option ℚ)
    (now : ℤ) : EvalState × Option (ℚ × ℕ) :=
  match free with
  | some free => ({ s with balanceCache := some ⟨free, now, read⟩ }, some (free, read))
  | none => (s, fallback)

/-- A turn of a task whose balance request has been answered. -/
def balance (s : EvalState) (i : ℕ) (free : Option ℚ) (now : ℤ) : Option EvalState :=
  match s.tasks i with
  | .exitBalance price position positionRead (.fetching read fallback) =>
    match s.receiveBalance read fallback free now with
    | (s, some (free, read)) =>
      some (s.finishExit config i price position positionRead free read)
    | (s, none) => some (s.goto i (.exitLeaving price .open))
  | .signalBalance price (.fetching read fallback) =>
    match s.receiveBalance read fallback free now with
    | (s, some (free, read)) => some (s.finishSignal config i price free read)
    | (s, none) => some (s.goto i .idle)
  | _ => none

/-- What the answer to an order does to the ledger and the cache: a fill is applied,
    an open order is tracked, an error clears the cache. -/
def receiveOrder (s : EvalState) (answer : OrderAnswer) : EvalState :=
  match answer with
  | .answered status executedQty cummulativeQuoteQty =>
    if 0 < executedQty ∧ (status = .filled ∨ status = .partiallyFilled) then
      { s with
        ledger := s.ledger.applyFill config.symbol .sell executedQty
          (cummulativeQuoteQty / executedQty)
        balanceCache := none
        fills := s.fills + 1
        outstanding := if status = .filled then s.outstanding - 1 else s.outstanding }
    else s
  | .error accepted =>
    { s with
      balanceCache := none
      outstanding := if accepted then s.outstanding else s.outstanding - 1 }

def OrderAnswer.failed : OrderAnswer → Bool
  | .answered .. => false
  | .error _ => true

/-- A turn of a task whose order has been answered. -/
def order (s : EvalState) (i : ℕ) (answer : OrderAnswer) : Option EvalState :=
  match s.tasks i with
  | .exitOrder price =>
    some ((s.receiveOrder config answer).goto i
      (if OrderAnswer.failed answer then .exitLeaving price .failed else .exitReport price))
  | .signalOrder =>
    some ((s.receiveOrder config answer).goto i
      (if OrderAnswer.failed answer then .idle else .signalReport))
  | _ => none

/-- A new evaluation up to its first `await`. -/
def evaluate (s : EvalState) (i : ℕ) (price : ℚ) (now : ℤ) (signal : Option SignalDirection) :
    Option EvalState :=
  match s.tasks i with
  | .idle =>
    if s.exitInFlight then some s
    else if config.exitEnabled then some (s.startExit config i price now)
    else some (s.followStrategy i price signal)
  | _ => none

def step (s : EvalState) : EvalAction → Option EvalState
  | .evaluate i price now signal => s.evaluate config i price now signal
  | .resume i now signal => s.resume config i now signal
  | .balance i free now => s.balance config i free now
  | .order i answer => s.order config i answer
  | .account free read now =>
    if read ≤ s.fills then some { s with balanceCache := some ⟨free, now, read⟩ } else none
  | .ledger ledger => some { s with ledger := ledger }

end Turns

end EvalState

/-- A reading of the balance that rests on `fills` applied fills. -/
def BalanceWait.Fresh (fills : ℕ) : BalanceWait → Prop
  | .cached _ read => read = fills
  | .fetching read fallback => read = fills ∧ ∀ f, fallback = some f → f.2 = fills

namespace EvalTask

/-- Between the first read for a sell and the answer to its order. -/
def Underway : EvalTask → Prop
  | .exitBalance .. | .exitOrder _ | .signalBalance .. | .signalOrder => True
  | _ => False

/-- A signal sell is underway. -/
def Selling : EvalTask → Prop
  | .signalBalance .. | .signalOrder => True
  | _ => False

/-- Inside an exit check, which holds the in-flight marker. -/
def Holding : EvalTask → Prop
  | .exitBalance .. | .exitOrder _ | .exitReport _ | .exitLeaving .. => True
  | _ => False

/-- Waiting for the answer to a sell order. -/
def Ordering : EvalTask → Prop
  | .exitOrder _ | .signalOrder => True
  | _ => False

/-- What a task has read for its sell rests on `fills` applied fills. -/
def Fresh (fills : ℕ) : EvalTask → Prop
  | .exitBalance _ _ positionRead wait => positionRead = fills ∧ wait.Fresh fills
  | .signalBalance _ wait => wait.Fresh fills
  | _ => True

theorem Ordering.underway {t : EvalTask} (h : t.Ordering) : t.Underway := by
  cases t <;> trivial

theorem fresh_of_not_underway {t : EvalTask} (h : ¬ t.Underway) (fills : ℕ) : t.Fresh fills := by
  cases t <;> first | trivial | exact absurd trivial h

/-- Underway but not as a signal sell is inside an exit check. -/
theorem Underway.holding {t : EvalTask} (h : t.Underway) (hs : ¬ t.Selling) : t.Holding := by
  cases t <;> trivial

end EvalTask

/-- The sell was placed while no other one was unfinished, and the position and the
    balance it rests on were read after the fill of every earlier one was applied. -/
def SellRecord.Apart (r : SellRecord) : Prop :=
  r.outstanding = 0 ∧ ∀ read ∈ r.reads, read = r.fills

/-- At most one automatic sell is outstanding, and each was computed after the fills
    of the earlier ones. -/
def SellsApart (s : EvalState) : Prop :=
  s.outstanding ≤ 1 ∧ ∀ r ∈ s.sells, r.Apart

/-- The turn starts no exit check while a signal sell is underway and no signal sell
    while any sell is underway; an order is answered by its complete fill or by a
    rejection; and a stored account balance was asked for after the last fill. -/
def TakesTurns (config : EvalConfig) (s : EvalState) : EvalAction → Prop
  | .evaluate .. =>
    config.exitEnabled = true → s.exitInFlight = false → ∀ j, ¬ (s.tasks j).Selling
  | .resume i _ _ => ∀ price, s.tasks i = .signalEmit price .sell → ∀ j, ¬ (s.tasks j).Underway
  | .order _ (.answered status executedQty _) => status = .filled ∧ 0 < executedQty
  | .order _ (.error accepted) => accepted = false
  | .account _ read _ => read = s.fills
  | .balance .. | .ledger _ => True

/-- The invariant of runs that take turns. -/
structure Apart (s : EvalState) : Prop where
  underway : AtMostOne EvalTask.Underway s.tasks
  holding : AtMostOne EvalTask.Holding s.tasks
  marked : ∀ i, (s.tasks i).Holding → s.exitInFlight = true
  fresh : ∀ i, (s.tasks i).Fresh s.fills
  cache : ∀ c, s.balanceCache = some c → c.read = s.fills
  ordering : ∀ i, (s.tasks i).Ordering → s.outstanding = 1
  settled : (∀ i, ¬ (s.tasks i).Ordering) → s.outstanding = 0
  log : ∀ r ∈ s.sells, r.Apart

theorem tasks_goto_self (s : EvalState) (i : ℕ) (t : EvalTask) : (s.goto i t).tasks i = t :=
  Function.update_self ..

theorem tasks_goto_of_ne (s : EvalState) {i j : ℕ} (h : j ≠ i) (t : EvalTask) :
    (s.goto i t).tasks j = s.tasks j :=
  Function.update_of_ne h ..

namespace Apart

open EvalState

variable {s : EvalState} {i : ℕ} {t : EvalTask}

theorem sellsApart (h : Apart s) : SellsApart s := by
  refine ⟨?_, h.log⟩
  by_cases hnone : ∀ i, ¬ (s.tasks i).Ordering
  · exact (h.settled hnone).le.trans zero_le_one
  · rw [not_forall_not] at hnone
    obtain ⟨i, hi⟩ := hnone
    exact (h.ordering i hi).le

theorem set_ledger (h : Apart s) (ledger : TradeLedger) : Apart { s with ledger := ledger } :=
  ⟨h.underway, h.holding, h.marked, h.fresh, h.cache, h.ordering, h.settled, h.log⟩

theorem set_lastSignal (h : Apart s) (signal : Option SignalDirection) :
    Apart { s with lastSignal := signal } :=
  ⟨h.underway, h.holding, h.marked, h.fresh, h.cache, h.ordering, h.settled, h.log⟩

/-- A balance that was asked for after the last fill may be cached. -/
theorem set_cache (h : Apart s) {c : CachedBalance} (hc : c.read = s.fills) :
    Apart { s with balanceCache := some c } where
  underway := h.underway
  holding := h.holding
  marked := h.marked
  fresh := h.fresh
  cache := by
    rintro _ ⟨⟩
    exact hc
  ordering := h.ordering
  settled := h.settled
  log := h.log

/-- What a task asks for now rests on all fills applied so far. -/
theorem liveFreeBalance_fresh (h : Apart s) (config : EvalConfig) (now : ℤ) :
    (s.liveFreeBalance config now).Fresh s.fills := by
  rw [liveFreeBalance]
  cases hc : s.balanceCache with
  | none => exact ⟨rfl, nofun⟩
  | some cached =>
    have hread := h.cache cached hc
    dsimp only
    split_ifs
    · exact hread
    · refine ⟨rfl, ?_⟩
      rintro _ ⟨⟩
      exact hread

/-- A move that enters no exit check and neither places nor finishes an order. -/
theorem goto (h : Apart s) (hu : AtMostOne EvalTask.Underway (Function.update s.tasks i t))
    (hh : t.Holding → (s.tasks i).Holding) (hf : t.Fresh s.fills)
    (hold : ¬ (s.tasks i).Ordering) (hnew : ¬ t.Ordering) : Apart (s.goto i t) where
  underway := hu
  holding := h.holding.update_of_imp hh
  marked := forall_update (q := fun _ (t : EvalTask) => t.Holding → s.exitInFlight = true)
    (fun ht => h.marked i (hh ht)) fun j _ => h.marked j
  fresh := forall_update (q := fun _ (t : EvalTask) => t.Fresh s.fills) hf fun j _ => h.fresh j
  cache := h.cache
  ordering := forall_update (q := fun _ (t : EvalTask) => t.Ordering → s.outstanding = 1)
    (fun ht => absurd ht hnew) fun j _ => h.ordering j
  settled hnone := by
    apply h.settled
    intro j
    by_cases hj : j = i
    · rw [hj]
      exact hold
    · have hjnone := hnone j
      rwa [tasks_goto_of_ne s hj t] at hjnone
  log := h.log

/-- A move that leaves the regions it was in, or stays in them. -/
theorem goto_quiet (h : Apart s) (hu : t.Underway → (s.tasks i).Underway)
    (hh : t.Holding → (s.tasks i).Holding) (hf : t.Fresh s.fills)
    (hold : ¬ (s.tasks i).Ordering) (hnew : ¬ t.Ordering) : Apart (s.goto i t) :=
  h.goto (h.underway.update_of_imp hu) hh hf hold hnew

/-- The move into an exit check, while no task is inside one and no sell underway. -/
theorem enter (h : Apart s) (hfree : s.exitInFlight = false)
    (halone : ∀ j, ¬ (s.tasks j).Underway) (hf : t.Fresh s.fills) (hnew : ¬ t.Ordering) :
    Apart ({ s with exitInFlight := true }.goto i t) where
  underway := atMostOne_update_of_alone fun j _ => halone j
  holding := atMostOne_update_of_alone fun j _ hj => by
    rw [h.marked j hj] at hfree
    cases hfree
  marked _ _ := rfl
  fresh := forall_update (q := fun _ (t : EvalTask) => t.Fresh s.fills) hf fun j _ => h.fresh j
  cache := h.cache
  ordering := forall_update (q := fun _ (t : EvalTask) => t.Ordering → s.outstanding = 1)
    (fun ht => absurd ht hnew) fun j _ => h.ordering j
  settled _ := h.settled fun j hj => halone j hj.underway
  log := h.log

/-- The move out of an exit check. -/
theorem leave (h : Apart s) (hin : (s.tasks i).Holding) (hold : ¬ (s.tasks i).Ordering)
    (hu : ¬ t.Underway) (hh : ¬ t.Holding) :
    Apart ({ s with exitInFlight := false }.goto i t) where
  underway := h.underway.update_of_outside hu
  holding := h.holding.update_of_outside hh
  marked := forall_update (q := fun _ (t : EvalTask) => t.Holding → false = true)
    (fun ht => absurd ht hh) fun j hne hj => absurd hj (h.holding.alone hin j hne)
  fresh := forall_update (q := fun _ (t : EvalTask) => t.Fresh s.fills)
    (EvalTask.fresh_of_not_underway hu s.fills) fun j _ => h.fresh j
  cache := h.cache
  ordering := forall_update (q := fun _ (t : EvalTask) => t.Ordering → s.outstanding = 1)
    (fun ht => absurd ht.underway hu) fun j _ => h.ordering j
  settled hnone := by
    apply h.settled
    intro j
    by_cases hj : j = i
    · rw [hj]
      exact hold
    · have hjnone := hnone j
      rwa [tasks_goto_of_ne _ hj t] at hjnone
  log := h.log

/-- A sell is placed by the only task that has read for one. -/
theorem place (h : Apart s) (hin : (s.tasks i).Underway) (hold : ¬ (s.tasks i).Ordering)
    {reads : List ℕ} (hreads : ∀ read ∈ reads, read = s.fills) (hnew : t.Ordering)
    (hh : t.Holding → (s.tasks i).Holding) : Apart ((s.placeSell reads).goto i t) := by
  have hzero : s.outstanding = 0 := by
    apply h.settled
    intro j hj
    by_cases hne : j = i
    · exact hold (hne ▸ hj)
    · exact h.underway.alone hin j hne hj.underway
  have hfresh : t.Fresh s.fills := by
    cases t <;> trivial
  refine ⟨h.underway.update_of_inside hin, h.holding.update_of_imp hh, ?_, ?_, h.cache, ?_, ?_, ?_⟩
  · exact forall_update (q := fun _ (t : EvalTask) => t.Holding → s.exitInFlight = true)
      (fun ht => h.marked i (hh ht)) fun j _ => h.marked j
  · exact forall_update (q := fun _ (t : EvalTask) => t.Fresh s.fills) hfresh fun j _ => h.fresh j
  · intro j _
    change s.outstanding + 1 = 1
    rw [hzero]
  · intro hnone
    have hi := hnone i
    rw [tasks_goto_self] at hi
    exact absurd hnew hi
  · intro r hr
    rcases List.mem_cons.mp hr with rfl | hr
    · exact ⟨hzero, hreads⟩
    · exact h.log r hr

/-- The answer to the only order underway settles it. -/
theorem settle (h : Apart s) {s' : EvalState} (hin : (s.tasks i).Ordering)
    (htasks : s'.tasks = s.tasks) (hmarker : s'.exitInFlight = s.exitInFlight)
    (hsells : s'.sells = s.sells) (hcache : s'.balanceCache = none) (hzero : s'.outstanding = 0)
    (hu : ¬ t.Underway) (hh : t.Holding → (s.tasks i).Holding) : Apart (s'.goto i t) := by
  have hothers : ∀ j, ¬ ((s'.goto i t).tasks j).Underway := by
    rw [EvalState.goto, htasks]
    exact forall_update (q := fun _ (t : EvalTask) => ¬ t.Underway) hu
      (h.underway.alone hin.underway)
  refine ⟨fun j k hj => absurd hj (hothers j), ?_, ?_, ?_, ?_, ?_, ?_, ?_⟩
  · rw [EvalState.goto, htasks]
    exact h.holding.update_of_imp hh
  · rw [EvalState.goto, htasks]
    refine forall_update (q := fun _ (t : EvalTask) => t.Holding → s'.exitInFlight = true)
      (fun ht => ?_) fun j _ hj => ?_
    · rw [hmarker]
      exact h.marked i (hh ht)
    · rw [hmarker]
      exact h.marked j hj
  · exact fun j => EvalTask.fresh_of_not_underway (hothers j) s'.fills
  · intro c hc
    rw [EvalState.goto, hcache] at hc
    cases hc
  · exact fun j hj => absurd hj.underway (hothers j)
  · exact fun _ => hzero
  · rw [EvalState.goto, hsells]
    exact h.log

theorem followStrategy (h : Apart s) (hout : ¬ (s.tasks i).Ordering) (price : ℚ)
    (signal : Option SignalDirection) : Apart (s.followStrategy i price signal) := by
  cases signal with
  | none => exact h.goto_quiet nofun nofun trivial hout nofun
  | some direction =>
    rw [EvalState.followStrategy]
    split_ifs
    · exact h.goto_quiet nofun nofun trivial hout nofun
    · exact (h.set_lastSignal _).goto_quiet nofun nofun trivial hout nofun

/-- What a balance request yields rests on all applied fills, and so does the cache. -/
theorem receiveBalance (h : Apart s) {read : ℕ} {fallback : Option (ℚ × ℕ)}
    (hwait : (BalanceWait.fetching read fallback).Fresh s.fills) (free : Option ℚ) (now : ℤ) :
    Apart (s.receiveBalance read fallback free now).1 ∧
      (s.receiveBalance read fallback free now).1.tasks = s.tasks ∧
      (s.receiveBalance read fallback free now).1.fills = s.fills ∧
      ∀ b, (s.receiveBalance read fallback free now).2 = some b → b.2 = s.fills := by
  cases free with
  | none => exact ⟨h, rfl, rfl, hwait.2⟩
  | some free =>
    refine ⟨h.set_cache hwait.1, rfl, rfl, ?_⟩
    rintro _ ⟨⟩
    exact hwait.1

section Turns

variable [CaseMapping] {config : EvalConfig}

/-- A signal sell that knows its balance places its order or gives up. -/
theorem finishSignal (h : Apart s) {price free : ℚ} {read : ℕ}
    {wait : BalanceWait}
    (hi : s.tasks i = .signalBalance price wait) (hr : read = s.fills) :
    Apart (s.finishSignal config i price free read) := by
  have hunder : (s.tasks i).Underway := by rw [hi]; trivial
  have hout : ¬ (s.tasks i).Ordering := by rw [hi]; exact id
  rw [EvalState.finishSignal]
  split_ifs
  · exact h.goto_quiet nofun nofun trivial hout nofun
  · cases config.guard.planMarketSell config.symbol price free false with
    | error reason => exact h.goto_quiet nofun nofun trivial hout nofun
    | ok plan =>
      refine h.place hunder hout ?_ trivial nofun
      intro x hx
      rw [List.mem_singleton.mp hx]
      exact hr

/-- An exit check that knows its balance places its sell or gives up. -/
theorem finishExit (h : Apart s) {price position free : ℚ} {positionRead read : ℕ}
    {wait : BalanceWait} (hi : s.tasks i = .exitBalance price position positionRead wait)
    (hp : positionRead = s.fills) (hr : read = s.fills) :
    Apart (s.finishExit config i price position positionRead free read) := by
  have hunder : (s.tasks i).Underway := by rw [hi]; trivial
  have hhold : (s.tasks i).Holding := by rw [hi]; trivial
  have hout : ¬ (s.tasks i).Ordering := by rw [hi]; exact id
  rw [EvalState.finishExit]
  dsimp only
  split_ifs
  · exact h.goto_quiet nofun (fun _ => hhold) trivial hout nofun
  · have hl := h.set_ledger (exitDecision config s.ledger (s.ledger.avgEntryFor config.symbol)
      price).2
    split
    · refine hl.place hunder hout ?_ trivial fun _ => hhold
      intro x hx
      rcases List.mem_pair.mp hx with rfl | rfl
      · exact hp
      · exact hr
    · exact hl.goto_quiet nofun (fun _ => hhold) trivial hout nofun

theorem evaluate (h : Apart s) {price : ℚ} {now : ℤ} {signal : Option SignalDirection}
    (hok : TakesTurns config s (.evaluate i price now signal)) {s' : EvalState}
    (hstep : s.evaluate config i price now signal = some s') : Apart s' := by
  rw [EvalState.evaluate] at hstep
  cases hi : s.tasks i with
  | idle =>
    rw [hi] at hstep
    dsimp only at hstep
    split_ifs at hstep with hflight henabled
    · cases hstep
      exact h
    · cases hstep
      have hfree : s.exitInFlight = false := Bool.not_eq_true _ ▸ hflight
      -- no exit check holds the marker, and no signal sell is underway
      have halone : ∀ j, ¬ (s.tasks j).Underway := by
        intro j hj
        have hmarked := h.marked j (hj.holding (hok henabled hfree j))
        rw [hfree] at hmarked
        cases hmarked
      rw [startExit]
      dsimp only
      split_ifs
      · exact h.enter hfree halone trivial nofun
      · exact h.enter hfree halone ⟨rfl, h.liveFreeBalance_fresh config now⟩ nofun
    · cases hstep
      exact h.followStrategy (by rw [hi]; exact id) price signal
  | _ =>
    rw [hi] at hstep
    cases hstep

theorem resume (h : Apart s) {now : ℤ} {signal : Option SignalDirection}
    (hok : TakesTurns config s (.resume i now signal)) {s' : EvalState}
    (hstep : s.resume config i now signal = some s') : Apart s' := by
  rw [EvalState.resume] at hstep
  have hfresh := h.fresh i
  cases hi : s.tasks i with
  | exitBalance price position positionRead wait =>
    cases wait with
    | cached free read =>
      rw [hi] at hstep hfresh
      cases hstep
      exact h.finishExit hi hfresh.1 hfresh.2
    | fetching read fallback =>
      rw [hi] at hstep
      cases hstep
  | exitReport price =>
    rw [hi] at hstep
    cases hstep
    exact (h.set_lastSignal _).goto_quiet nofun (fun _ => by rw [hi]; trivial) trivial
      (by rw [hi]; exact id) nofun
  | exitLeaving price result =>
    rw [hi] at hstep
    cases hstep
    exact h.leave (by rw [hi]; trivial) (by rw [hi]; exact id) nofun nofun
  | afterExit price result =>
    have hout : ¬ (s.tasks i).Ordering := by rw [hi]; exact id
    rw [hi] at hstep
    cases result with
    | «open» =>
      cases hstep
      exact h.followStrategy hout price signal
    | closed =>
      cases hstep
      exact h.goto_quiet nofun nofun trivial hout nofun
    | failed =>
      cases hstep
      exact h.goto_quiet nofun nofun trivial hout nofun
  | signalEmit price direction =>
    have hout : ¬ (s.tasks i).Ordering := by rw [hi]; exact id
    rw [hi] at hstep
    cases direction with
    | buy =>
      cases hstep
      exact h.goto_quiet nofun nofun trivial hout nofun
    | sell =>
      cases hstep
      exact h.goto (atMostOne_update_of_alone fun j _ => hok price hi j) nofun
        (h.liveFreeBalance_fresh config now) hout nofun
  | signalBalance price wait =>
    cases wait with
    | cached free read =>
      rw [hi] at hstep hfresh
      cases hstep
      exact h.finishSignal hi hfresh
    | fetching read fallback =>
      rw [hi] at hstep
      cases hstep
  | signalReport =>
    rw [hi] at hstep
    cases hstep
    exact h.goto_quiet nofun nofun trivial (by rw [hi]; exact id) nofun
  | _ =>
    rw [hi] at hstep
    cases hstep

theorem balance (h : Apart s) {free : Option ℚ} {now : ℤ} {s' : EvalState}
    (hstep : s.balance config i free now = some s') : Apart s' := by
  rw [EvalState.balance] at hstep
  have hfresh := h.fresh i
  cases hi : s.tasks i with
  | exitBalance price position positionRead wait =>
    cases wait with
    | cached free read =>
      rw [hi] at hstep
      cases hstep
    | fetching read fallback =>
      rw [hi] at hstep hfresh
      obtain ⟨hr, htasks, hfills, hread⟩ := h.receiveBalance hfresh.2 free now
      have hi' := (congrFun htasks i).trans hi
      dsimp only at hstep
      split at hstep
      · next s₁ free' read' heq =>
        rw [heq] at hr hfills hi' hread
        cases hstep
        exact hr.finishExit hi' (hfresh.1.trans hfills.symm) ((hread _ rfl).trans hfills.symm)
      · next s₁ heq =>
        rw [heq] at hr hi'
        cases hstep
        exact hr.goto_quiet nofun (fun _ => by rw [hi']; trivial) trivial
          (by rw [hi']; exact id) nofun
  | signalBalance price wait =>
    cases wait with
    | cached free read =>
      rw [hi] at hstep
      cases hstep
    | fetching read fallback =>
      rw [hi] at hstep hfresh
      obtain ⟨hr, htasks, hfills, hread⟩ := h.receiveBalance hfresh free now
      have hi' := (congrFun htasks i).trans hi
      dsimp only at hstep
      split at hstep
      · next s₁ free' read' heq =>
        rw [heq] at hr hfills hi' hread
        cases hstep
        exact hr.finishSignal hi' ((hread _ rfl).trans hfills.symm)
      · next s₁ heq =>
        rw [heq] at hr hi'
        cases hstep
        exact hr.goto_quiet nofun nofun trivial (by rw [hi']; exact id) nofun
  | _ =>
    rw [hi] at hstep
    cases hstep

/-- A complete fill or a rejection leaves no sell outstanding and no balance cached. -/
theorem receiveOrder_settles (s : EvalState) {answer : OrderAnswer}
    (hok : TakesTurns config s (.order i answer)) (hone : s.outstanding = 1) :
    (s.receiveOrder config answer).tasks = s.tasks ∧
      (s.receiveOrder config answer).exitInFlight = s.exitInFlight ∧
      (s.receiveOrder config answer).sells = s.sells ∧
      (s.receiveOrder config answer).balanceCache = none ∧
      (s.receiveOrder config answer).outstanding = 0 := by
  cases answer with
  | answered status executedQty cummulativeQuoteQty =>
    obtain ⟨rfl, hqty⟩ := hok
    rw [receiveOrder, if_pos ⟨hqty, Or.inl rfl⟩]
    exact ⟨rfl, rfl, rfl, rfl, by simp [hone]⟩
  | error accepted =>
    have hrejected : accepted = false := hok
    subst hrejected
    exact ⟨rfl, rfl, rfl, rfl, by simp [receiveOrder, hone]⟩

theorem order (h : Apart s) {answer : OrderAnswer}
    (hok : TakesTurns config s (.order i answer)) {s' : EvalState}
    (hstep : s.order config i answer = some s') : Apart s' := by
  rw [EvalState.order] at hstep
  cases hi : s.tasks i with
  | exitOrder price =>
    have hin : (s.tasks i).Ordering := by rw [hi]; trivial
    have hhold : (s.tasks i).Holding := by rw [hi]; trivial
    rw [hi] at hstep
    cases hstep
    obtain ⟨htasks, hmarker, hsells, hcache, hzero⟩ :=
      receiveOrder_settles s hok (h.ordering i hin)
    refine h.settle hin htasks hmarker hsells hcache hzero ?_ fun _ => hhold
    split_ifs <;> exact id
  | signalOrder =>
    have hin : (s.tasks i).Ordering := by rw [hi]; trivial
    rw [hi] at hstep
    cases hstep
    obtain ⟨htasks, hmarker, hsells, hcache, hzero⟩ :=
      receiveOrder_settles s hok (h.ordering i hin)
    refine h.settle hin htasks hmarker hsells hcache hzero ?_ ?_
    · split_ifs <;> exact id
    · split_ifs <;> exact nofun
  | _ =>
    rw [hi] at hstep
    cases hstep

end Turns

end Apart

theorem apart_start (ledger : TradeLedger) : Apart (EvalState.start ledger) where
  underway _ _ hi := hi.elim
  holding _ _ hi := hi.elim
  marked _ hi := hi.elim
  fresh _ := trivial
  cache := nofun
  ordering _ hi := hi.elim
  settled _ := rfl
  log := nofun

section Runs

variable [CaseMapping] {config : EvalConfig}

/-- A turn that does not let sells overlap keeps them apart. -/
theorem apart_step {s s' : EvalState} {a : EvalAction} (h : Apart s)
    (hok : TakesTurns config s a) (hstep : s.step config a = some s') : Apart s' := by
  cases a with
  | evaluate i price now signal => exact h.evaluate hok hstep
  | resume i now signal => exact h.resume hok hstep
  | balance i free now => exact h.balance hstep
  | order i answer => exact h.order hok hstep
  | account free read now =>
    rw [EvalState.step] at hstep
    split_ifs at hstep
    cases hstep
    exact h.set_cache hok
  | ledger ledger =>
    cases hstep
    exact h.set_ledger ledger

/-- **No double sell**: as long as exit checks and signal sells of a symbol take
    turns, at most one automatic sell is outstanding, and each is computed after
    the fills of all earlier ones have been applied. -/
theorem sellsApart_of_takesTurns (config : EvalConfig) (ledger : TradeLedger)
    (as : List EvalAction)
    (hok : Machine.Along (EvalState.step config) (TakesTurns config) (.start ledger) as) :
    Machine.Everywhere (EvalState.step config) SellsApart (.start ledger) as :=
  Machine.everywhere_of_invariant Apart SellsApart
    (fun _ _ _ h hok hstep => apart_step h hok hstep) (fun _ h => h.sellsApart)
    (apart_start ledger) hok

end Runs

/-- A bot that trades bitcoin with a stop-loss of five percent. -/
def stopLossConfig : EvalConfig where
  symbol := "BTCUSDT"
  pollIntervalMs := 15000
  stopLossPct := 5
  takeProfitPct := 0
  trailingStopPct := 0
  guard := .ofConfig ⟨.live, 1000, true, []⟩

/-- The ledger of a bot that bought one bitcoin at 100. -/
def boughtLedger : TradeLedger :=
  TradeLedger.empty.applyFill "BTCUSDT" .buy 1 100

/-- A stop-loss exit whose order fills. -/
theorem sellsApart_of_stop_loss :
    Machine.Everywhere (EvalState.step stopLossConfig) SellsApart (.start boughtLedger)
      [.evaluate 0 90 0 none, .balance 0 (some 1) 1, .order 0 (.answered .filled 1 90)] := by
  apply sellsApart_of_takesTurns
  intro _ _
  refine ⟨fun _ _ j => id, ?_⟩
  intro _ _
  refine ⟨trivial, ?_⟩
  intro _ _
  exact ⟨⟨rfl, by norm_num⟩, trivial⟩

/-- The poll finds no exit at 100 and follows a sell signal; while it waits for its
    cached balance a tick at 90 starts an exit check. Both sell the one bitcoin. -/
theorem sellsApart_fails_for_signal_and_stop_loss :
    ∃ s, Machine.exec (EvalState.step stopLossConfig) (.start boughtLedger)
        [.evaluate 0 100 0 none, .balance 0 (some 1) 1, .resume 0 2 none,
          .resume 0 3 (some .sell), .resume 0 4 none, .evaluate 1 90 5000 none,
          .resume 0 5001 none, .resume 1 5002 none] = some s ∧ ¬ SellsApart s := by
  have htwo : (Machine.exec (EvalState.step stopLossConfig) (.start boughtLedger)
      [.evaluate 0 100 0 none, .balance 0 (some 1) 1, .resume 0 2 none,
        .resume 0 3 (some .sell), .resume 0 4 none, .evaluate 1 90 5000 none,
        .resume 0 5001 none, .resume 1 5002 none]).map EvalState.outstanding = some 2 := by
    decide +kernel
  obtain ⟨s, hs, hout⟩ := Option.map_eq_some_iff.mp htwo
  refine ⟨s, hs, fun hapart => ?_⟩
  have hle := hapart.1
  omega

end BotHive.Crypto
