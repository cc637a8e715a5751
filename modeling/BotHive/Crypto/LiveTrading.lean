import Mathlib.Data.Finset.Insert
import BotHive.Library.Machine
import BotHive.Crypto.Exchange
import BotHive.Crypto.Reconcile

/-!
# Live trading

What a live bot does with its orders. `placeOrder` claims the value of a buy against the
daily spend in Redis, sends the order and either applies its fill or tracks it.
`reconcileLedger` cancels stale orders, fetches balances and open orders, and asks for
the status of tracked orders that are no longer open. Any number of such calls are under
way at a time; each gives way at every `await`. `cancelStaleOrders` alone is a
reconciliation whose fetch fails.

## Main definitions

- `DayCounter`: the amount claimed on a UTC day, as the scripts in Redis keep it
- `Placement`, `Reconciliation`: where a call waits
- `LiveState`, `LiveState.step`: the bot, Redis, the exchange, and what can happen next

A call of `placeOrder` is named by the client order id that it generates. The state
counts, for statements only, what has been applied for each order (`applied`), claimed
for it (`claims`) and refunded for it (`refunded`), in cents.
-/

namespace BotHive.Crypto

def dayMs : ℕ := 86400000

/-- The UTC day of a time. -/
def utcDate (now : ℕ) : ℕ :=
  now / dayMs

def dailySpendTtlMs : ℕ := 48 * 3600 * 1000

/-- An amount in cents, at least one. -/
def toCents (valueUsdt : ℚ) : ℤ :=
  max 1 (roundHalfUp (valueUsdt * 100))

/-- The key of a day in Redis. A key that does not exist reads as 0. -/
structure DayCounter where
  cents : ℤ
  expiresAt : Option ℕ
  deriving DecidableEq

namespace DayCounter

def missing : DayCounter where
  cents := 0
  expiresAt := none

/-- The key as a command at some time finds it. -/
def read (counter : DayCounter) (now : ℕ) : DayCounter :=
  if counter.expiresAt.any (· ≤ now) then missing else counter

/-- The claim script: add the amount, and take it back if that exceeds the cap. -/
def claim (counter : DayCounter) (now : ℕ) (cents capCents : ℤ) : Bool × DayCounter :=
  let found := counter.read now
  if capCents < found.cents + cents then (false, found)
  else (true, { cents := found.cents + cents, expiresAt := some (now + dailySpendTtlMs) })

/-- The refund script: subtract the amount, but not below 0. -/
def refund (counter : DayCounter) (now : ℕ) (cents : ℤ) : DayCounter :=
  let found := counter.read now
  if found.cents - cents < 0 then
    { cents := 0, expiresAt := some (now + dailySpendTtlMs) }
  else { found with cents := found.cents - cents }

end DayCounter

structure LiveConfig where
  symbols : List String
  orderTtlMs : ℕ
  /-- The daily spend cap, 0 when there is none. -/
  maxDailyOrderValueUsdt : ℚ

def LiveConfig.capCents (config : LiveConfig) : ℤ :=
  roundHalfUp (config.maxDailyOrderValueUsdt * 100)

/-- Where a call of `placeOrder` waits. -/
inductive Placement where
  | fresh
  /-- The claim of a buy is on its way to Redis. -/
  | claiming (plan : OrderPlan) (price : ℚ) (day : ℕ)
  | claimed (plan : OrderPlan) (price : ℚ) (granted : Bool)
  /-- The order is on its way to the exchange. -/
  | sent (plan : OrderPlan) (price : ℚ) (params : OrderParams)
  /-- The exchange has accepted the order; its answer is on the way. -/
  | accepted (plan : OrderPlan) (price : ℚ) (report : OrderReport)
  /-- An error instead of an answer. -/
  | failed (plan : OrderPlan)
  | done

/-- What `orderStatus` comes back with. -/
inductive StatusAnswer where
  | report (report : OrderReport)
  /-- Error -2013: the exchange does not know the order. -/
  | notFound
  | error

/-- Where a call of `reconcileLedger` waits. -/
inductive Reconciliation where
  | idle
  /-- The cancellation of a stale order is on its way; `rest` are the other stale orders. -/
  | canceling (order : TrackedOrder) (rest : List TrackedOrder)
  | canceled (order : TrackedOrder) (rest : List TrackedOrder) (answer : Option OrderReport)
  /-- Balances and open orders are fetched at the same time. -/
  | fetching (account : Option AccountAnswer) (openIds : Option (String → Bool))
  /-- The status of an order is asked for; `rest` are the other orders to ask about. -/
  | asking (order : TrackedOrder) (rest : List TrackedOrder)
  | asked (order : TrackedOrder) (rest : List TrackedOrder) (answer : StatusAnswer)

/-- A refund on its way to Redis. -/
structure Refund where
  day : ℕ
  cents : ℤ
  deriving DecidableEq

structure LiveState where
  now : ℕ
  ledger : TradeLedger
  exchange : String → Option ExchangeOrder
  counters : ℕ → DayCounter
  placements : String → Placement
  reconciliations : ℕ → Reconciliation
  refunds : List Refund
  /-- The calls of `placeOrder` so far. -/
  issued : Finset String
  applied : String → ℚ
  claims : String → Option (ℕ × ℤ)
  refunded : String → ℤ

inductive LiveAction where
  /-- A call of `placeOrder` for a plan, at a price of its symbol. -/
  | place (id : String) (plan : OrderPlan) (price : ℚ)
  /-- Redis runs the claim script of a call. -/
  | claim (id : String)
  /-- The claim of a call fails, which lets the call go on. -/
  | claimFails (id : String)
  /-- The exchange accepts an order. -/
  | accept (id : String) (report : OrderReport)
  | refuse (id : String)
  /-- The answer of the exchange is lost. -/
  | lose (id : String)
  /-- A call of `placeOrder` goes on. -/
  | proceed (id : String)
  /-- Redis runs the script of a refund. -/
  | refund (refund : Refund)
  /-- A call of `reconcileLedger`. -/
  | reconcile (call : ℕ)
  /-- The exchange receives a cancellation; its answer may be lost. -/
  | cancel (call : ℕ) (answered : Bool)
  | account (call : ℕ) (answer : AccountAnswer)
  | openOrders (call : ℕ)
  | status (call : ℕ)
  /-- A request of a reconciliation fails. -/
  | fail (call : ℕ)
  /-- A reconciliation goes on. -/
  | resume (call : ℕ)
  /-- The exchange works on an order. -/
  | evolve (id : String) (report : OrderReport)
  | tick (ms : ℕ)

namespace LiveState

def start (ledger : TradeLedger) : LiveState where
  now := 0
  ledger := ledger
  exchange _ := none
  counters _ := .missing
  placements _ := .fresh
  reconciliations _ := .idle
  refunds := []
  issued := ∅
  applied _ := 0
  claims _ := none
  refunded _ := 0

def setPlacement (s : LiveState) (id : String) (placement : Placement) : LiveState :=
  { s with placements := Function.update s.placements id placement }

def goto (s : LiveState) (call : ℕ) (reconciliation : Reconciliation) : LiveState :=
  { s with reconciliations := Function.update s.reconciliations call reconciliation }

def setExchange (s : LiveState) (id : String) (order : ExchangeOrder) : LiveState :=
  { s with exchange := Function.update s.exchange id (some order) }

/-- `refundDailySpend` for an order. -/
def refundDailySpend (s : LiveState) (id : String) (valueUsdt : ℚ) : LiveState :=
  if valueUsdt ≤ 0 then s
  else
    { s with
      refunds := { day := utcDate s.now, cents := toCents valueUsdt } :: s.refunds
      refunded := Function.update s.refunded id (s.refunded id + toCents valueUsdt) }

/-- What `refundUnfilled` refunds for an order, none if nothing. -/
def unfilledValue (order : TrackedOrder) (filledQty : ℚ) : Option ℚ :=
  let price := order.price.getD 0
  let remainder := max 0 (order.quantity - filledQty)
  if order.side ≠ .buy ∨ price = 0 then none
  else if remainder ≤ 0 then none
  -- sub-cent remainders are ignored
  else if roundHalfUp (remainder * price * 100) < 1 then none
  else some (remainder * price)

def refundUnfilled (s : LiveState) (order : TrackedOrder) (filledQty : ℚ) : LiveState :=
  match unfilledValue order filledQty with
  | none => s
  | some value => s.refundDailySpend order.clientOrderId value

/-- Send the order of a plan, or fail at once when `order` refuses it. -/
def submit (s : LiveState) (id : String) (plan : OrderPlan) (price : ℚ) : LiveState :=
  match orderParams plan with
  | some params => s.setPlacement id (.sent plan price params)
  | none => s.setPlacement id (.failed plan)

/-- The order as the ledger tracks it. -/
def trackedOrder (id : String) (plan : OrderPlan) (price : ℚ) (orderId now : ℕ) :
    TrackedOrder where
  clientOrderId := id
  orderId := some orderId
  symbol := plan.symbol
  side := plan.side
  type := plan.type
  price := some (plan.price.getD price)
  quantity := plan.quantity.getD (plan.quoteOrderQty.getD 0 / price)
  placedAt := now

section Operations

variable [CaseMapping]

/-- The answer to an order: a fill is applied, any other order is tracked. -/
def receive (s : LiveState) (id : String) (plan : OrderPlan) (price : ℚ) (report : OrderReport) :
    LiveState :=
  if 0 < report.executedQty ∧ (report.status = .filled ∨ report.status = .partiallyFilled) then
    { s with
      ledger := s.ledger.applyFill plan.symbol plan.side report.executedQty
        (report.cummulativeQuoteQty / report.executedQty)
      applied := Function.update s.applied id (s.applied id + report.executedQty) }
  else
    { s with ledger := s.ledger.recordOrder (trackedOrder id plan price report.orderId s.now) }

/-- `applyReconciledFill` with what a report says about a tracked order. -/
def applyReported (s : LiveState) (order : TrackedOrder) (report : OrderReport) : LiveState :=
  let qty := report.executedQty
  let avg := if 0 < qty then report.cummulativeQuoteQty / qty else report.price
  { s with
    ledger := s.ledger.applyReconciledFill order.symbol order.side qty avg
    applied := Function.update s.applied order.clientOrderId
      (s.applied order.clientOrderId + qty) }

def removeOrder (s : LiveState) (id : String) : LiveState :=
  { s with ledger := (s.ledger.removeOrder id).2 }

/-- The answer to a cancellation. -/
def receiveCanceled (s : LiveState) (order : TrackedOrder) (report : OrderReport) : LiveState :=
  let s := if 0 < report.executedQty then s.applyReported order report else s
  (s.removeOrder order.clientOrderId).refundUnfilled order report.executedQty

/-- The status of an order that is no longer open. -/
def receiveStatus (s : LiveState) (order : TrackedOrder) : StatusAnswer → LiveState
  | .error => s
  | .notFound => (s.removeOrder order.clientOrderId).refundUnfilled order 0
  | .report report =>
    let s := s.removeOrder order.clientOrderId
    if report.status = .filled ∨ report.status = .partiallyFilled then
      (s.applyReported order report).refundUnfilled order report.executedQty
    else if order.side = .buy ∧ order.price.getD 0 ≠ 0 then s.refundUnfilled order 0
    else s

end Operations

/-- The loop over stale orders, and the fetch after it. -/
def cancelLoop (s : LiveState) (call : ℕ) : List TrackedOrder → LiveState
  | [] => s.goto call (.fetching none none)
  | order :: rest => s.goto call (.canceling order rest)

/-- The loop over orders that are no longer open. -/
def statusLoop (s : LiveState) (call : ℕ) : List TrackedOrder → LiveState
  | [] => s.goto call .idle
  | order :: rest => s.goto call (.asking order rest)

section Steps

variable (config : LiveConfig)

/-- `placeOrder` up to its first `await`. -/
def place (s : LiveState) (id : String) (plan : OrderPlan) (price : ℚ) : LiveState :=
  let s := { s with issued := insert id s.issued }
  match plan.side with
  | .sell => s.submit id plan price
  | .buy =>
    -- without a cap, or for no value, nothing is claimed
    if config.maxDailyOrderValueUsdt ≤ 0 ∨ plan.valueUsdt ≤ 0 then
      s.setPlacement id (.claimed plan price true)
    else s.setPlacement id (.claiming plan price (utcDate s.now))

/-- Redis runs the claim script of a call. -/
def claim (s : LiveState) (id : String) : Option LiveState :=
  match s.placements id with
  | .claiming plan price day =>
    let cents := toCents plan.valueUsdt
    let (granted, counter) := (s.counters day).claim s.now cents config.capCents
    let s := { s with counters := Function.update s.counters day counter }
    some ({ s with
      claims := if granted then Function.update s.claims id (some (day, cents)) else s.claims
      }.setPlacement id (.claimed plan price granted))
  | _ => none

/-- No command waits for Redis longer than the day after the day of its key. -/
def redisInTime (s : LiveState) (later : ℕ) : Prop :=
  (∀ id ∈ s.issued, match s.placements id with
    | .claiming _ _ day => later < (day + 2) * dayMs
    | _ => True) ∧
  ∀ refund ∈ s.refunds, later < (refund.day + 2) * dayMs

instance (s : LiveState) (later : ℕ) : Decidable (s.redisInTime later) :=
  have : ∀ id, Decidable (match s.placements id with
      | .claiming _ _ day => later < (day + 2) * dayMs
      | _ => True) := fun id =>
    match s.placements id with
    | .claiming _ _ day => inferInstanceAs (Decidable (later < (day + 2) * dayMs))
    | .fresh | .claimed .. | .sent .. | .accepted .. | .failed _ | .done => isTrue trivial
  inferInstanceAs (Decidable (_ ∧ _))

/-- An order is open at the exchange. -/
def isOpen (s : LiveState) (id : String) : Bool :=
  (s.exchange id).any ExchangeOrder.isOpen

variable [CaseMapping]

/-- A call of `placeOrder` goes on. -/
def proceed (s : LiveState) (id : String) : Option LiveState :=
  match s.placements id with
  | .claimed plan price granted =>
    some (if granted then s.submit id plan price else s.setPlacement id .done)
  | .accepted plan price report => some ((s.receive id plan price report).setPlacement id .done)
  | .failed plan =>
    let s := if plan.side = .buy then s.refundDailySpend id plan.valueUsdt else s
    some (s.setPlacement id .done)
  | _ => none

/-- A reconciliation goes on. -/
def resume (s : LiveState) (call : ℕ) : Option LiveState :=
  match s.reconciliations call with
  | .canceled _ rest none => some (s.cancelLoop call rest)
  | .canceled order rest (some report) =>
    some ((s.receiveCanceled order report).cancelLoop call rest)
  | .fetching (some account) (some openIds) =>
    let s := { s with
      ledger := s.ledger.reconcilePositions (exchangePositions config.symbols account.account) }
    let gone := s.ledger.openOrdersList.filter fun order => !openIds order.clientOrderId
    some (s.statusLoop call gone)
  | .asked order rest answer => some ((s.receiveStatus order answer).statusLoop call rest)
  | _ => none

def step (s : LiveState) : LiveAction → Option LiveState
  | .place id plan price => if id ∈ s.issued then none else some (s.place config id plan price)
  | .claim id => s.claim config id
  | .claimFails id =>
    match s.placements id with
    | .claiming plan price _ => some (s.setPlacement id (.claimed plan price true))
    | _ => none
  | .accept id report =>
    match s.placements id with
    | .sent plan price params =>
      -- the exchange rejects an id that it has seen before
      if s.exchange id = none ∧ ExchangeOrder.Fits params report then
        some ((s.setExchange id {
          side := plan.side
          params := params
          acceptedAt := s.now
          reference := price
          report := report }).setPlacement id (.accepted plan price report))
      else none
    | _ => none
  | .refuse id =>
    match s.placements id with
    | .sent plan _ _ => some (s.setPlacement id (.failed plan))
    | _ => none
  | .lose id =>
    match s.placements id with
    | .accepted plan _ _ => some (s.setPlacement id (.failed plan))
    | _ => none
  | .proceed id => s.proceed id
  | .refund refund =>
    if refund ∈ s.refunds then
      some { s with
        counters := Function.update s.counters refund.day
          ((s.counters refund.day).refund s.now refund.cents)
        refunds := s.refunds.erase refund }
    else none
  | .reconcile call =>
    match s.reconciliations call with
    | .idle =>
      let stale := s.ledger.openOrdersList.filter fun order =>
        decide (config.orderTtlMs < s.now - order.placedAt)
      some (s.cancelLoop call (if config.orderTtlMs = 0 then [] else stale))
    | _ => none
  | .cancel call answered =>
    match s.reconciliations call with
    | .canceling order rest =>
      match s.exchange order.clientOrderId with
      | some found =>
        if found.isOpen then
          some ((s.setExchange order.clientOrderId found.cancel).goto call
            (.canceled order rest (if answered then some found.cancel.report else none)))
        else some (s.goto call (.canceled order rest none))
      | none => some (s.goto call (.canceled order rest none))
    | _ => none
  | .account call answer =>
    match s.reconciliations call with
    | .fetching none openIds => some (s.goto call (.fetching (some answer) openIds))
    | _ => none
  | .openOrders call =>
    match s.reconciliations call with
    | .fetching account none => some (s.goto call (.fetching account (some s.isOpen)))
    | _ => none
  | .status call =>
    match s.reconciliations call with
    | .asking order rest =>
      match s.exchange order.clientOrderId with
      | some found => some (s.goto call (.asked order rest (.report found.report)))
      | none => some (s.goto call (.asked order rest .notFound))
    | _ => none
  | .fail call =>
    match s.reconciliations call with
    | .canceling order rest => some (s.goto call (.canceled order rest none))
    | .fetching _ _ => some (s.goto call .idle)
    | .asking order rest => some (s.goto call (.asked order rest .error))
    | _ => none
  | .resume call => s.resume config call
  | .evolve id report =>
    match s.exchange id with
    | some order =>
      if order.Admits report then some (s.setExchange id (order.withReport report)) else none
    | none => none
  | .tick ms =>
    if s.redisInTime (s.now + ms) then some { s with now := s.now + ms } else none

end Steps

@[simp] theorem placements_setPlacement (s : LiveState) (id : String) (placement : Placement) :
    (s.setPlacement id placement).placements id = placement :=
  Function.update_self ..

@[simp] theorem reconciliations_goto (s : LiveState) (call : ℕ) (r : Reconciliation) :
    (s.goto call r).reconciliations call = r :=
  Function.update_self ..

/-- The exchange accepts a request that fits under a new id. -/
theorem step_accept [CaseMapping] {config : LiveConfig} {s : LiveState} {id : String}
    {plan : OrderPlan} {price : ℚ} {params : OrderParams} {report : OrderReport}
    (hplacement : s.placements id = .sent plan price params) (hnone : s.exchange id = none)
    (hfits : ExchangeOrder.Fits params report) :
    s.step config (.accept id report) = some ((s.setExchange id {
      side := plan.side
      params := params
      acceptedAt := s.now
      reference := price
      report := report }).setPlacement id (.accepted plan price report)) := by
  rw [step, hplacement]
  exact if_pos ⟨hnone, hfits⟩

/-! A refund changes nothing but the refunds. -/

section Refunds

variable (s : LiveState) (id : String) (valueUsdt : ℚ) (order : TrackedOrder) (filledQty : ℚ)

@[simp] theorem ledger_refundDailySpend : (s.refundDailySpend id valueUsdt).ledger = s.ledger := by
  rw [refundDailySpend]
  split_ifs <;> rfl

@[simp] theorem exchange_refundDailySpend :
    (s.refundDailySpend id valueUsdt).exchange = s.exchange := by
  rw [refundDailySpend]
  split_ifs <;> rfl

@[simp] theorem placements_refundDailySpend :
    (s.refundDailySpend id valueUsdt).placements = s.placements := by
  rw [refundDailySpend]
  split_ifs <;> rfl

@[simp] theorem applied_refundDailySpend :
    (s.refundDailySpend id valueUsdt).applied = s.applied := by
  rw [refundDailySpend]
  split_ifs <;> rfl

theorem setPlacement_refundDailySpend (placement : Placement) :
    (s.refundDailySpend id valueUsdt).setPlacement id placement =
      (s.setPlacement id placement).refundDailySpend id valueUsdt := by
  rw [refundDailySpend, refundDailySpend]
  split_ifs <;> rfl

@[simp] theorem ledger_refundUnfilled : (s.refundUnfilled order filledQty).ledger = s.ledger := by
  rw [refundUnfilled]
  cases unfilledValue order filledQty with
  | none => rfl
  | some value => exact ledger_refundDailySpend s _ value

@[simp] theorem exchange_refundUnfilled :
    (s.refundUnfilled order filledQty).exchange = s.exchange := by
  rw [refundUnfilled]
  cases unfilledValue order filledQty with
  | none => rfl
  | some value => exact exchange_refundDailySpend s _ value

@[simp] theorem placements_refundUnfilled :
    (s.refundUnfilled order filledQty).placements = s.placements := by
  rw [refundUnfilled]
  cases unfilledValue order filledQty with
  | none => rfl
  | some value => exact placements_refundDailySpend s _ value

@[simp] theorem applied_refundUnfilled :
    (s.refundUnfilled order filledQty).applied = s.applied := by
  rw [refundUnfilled]
  cases unfilledValue order filledQty with
  | none => rfl
  | some value => exact applied_refundDailySpend s _ value

end Refunds

section Answers

variable [CaseMapping] (s : LiveState) (order : TrackedOrder)

@[simp] theorem exchange_receiveCanceled (report : OrderReport) :
    (s.receiveCanceled order report).exchange = s.exchange := by
  rw [receiveCanceled, exchange_refundUnfilled]
  split_ifs <;> rfl

@[simp] theorem exchange_receiveStatus (answer : StatusAnswer) :
    (s.receiveStatus order answer).exchange = s.exchange := by
  cases answer with
  | error => rfl
  | notFound => exact exchange_refundUnfilled _ order 0
  | report report =>
    rw [receiveStatus]
    split_ifs
    · exact exchange_refundUnfilled _ order _
    · exact exchange_refundUnfilled _ order 0
    · rfl

@[simp] theorem placements_receiveCanceled (report : OrderReport) :
    (s.receiveCanceled order report).placements = s.placements := by
  rw [receiveCanceled, placements_refundUnfilled]
  split_ifs <;> rfl

@[simp] theorem placements_receiveStatus (answer : StatusAnswer) :
    (s.receiveStatus order answer).placements = s.placements := by
  cases answer with
  | error => rfl
  | notFound => exact placements_refundUnfilled _ order 0
  | report report =>
    rw [receiveStatus]
    split_ifs
    · exact placements_refundUnfilled _ order _
    · exact placements_refundUnfilled _ order 0
    · rfl

/-- The executed quantity of a cancellation is applied. -/
theorem applied_receiveCanceled (report : OrderReport) :
    (s.receiveCanceled order report).applied =
      Function.update s.applied order.clientOrderId
        (s.applied order.clientOrderId + report.executedQty) := by
  rw [receiveCanceled, applied_refundUnfilled]
  split_ifs with hpos
  · rfl
  · have hzero : report.executedQty = 0 := le_antisymm (not_lt.mp hpos) report.executed_nonneg
    rw [hzero, add_zero, Function.update_eq_self]
    rfl

/-- The executed quantity of a status is applied if the status says FILLED or
    PARTIALLY_FILLED. -/
theorem applied_receiveStatus (report : OrderReport) :
    (s.receiveStatus order (.report report)).applied =
      if report.status = .filled ∨ report.status = .partiallyFilled then
        Function.update s.applied order.clientOrderId
          (s.applied order.clientOrderId + report.executedQty)
      else s.applied := by
  rw [receiveStatus]
  split_ifs
  · exact applied_refundUnfilled _ order _
  · exact applied_refundUnfilled _ order 0
  · rfl

end Answers

/-- What one step can do. -/
inductive Turn [CaseMapping] (config : LiveConfig) (s : LiveState) : LiveAction → LiveState → Prop
  | place {id plan price} (hid : id ∉ s.issued) :
    Turn config s (.place id plan price) (s.place config id plan price)
  | claim {id plan price day counter granted}
    (hplacement : s.placements id = .claiming plan price day)
    (hcounter : (s.counters day).claim s.now (toCents plan.valueUsdt) config.capCents =
      (granted, counter)) :
    Turn config s (.claim id) ({ s with
      counters := Function.update s.counters day counter
      claims := if granted then Function.update s.claims id (some (day, toCents plan.valueUsdt))
        else s.claims }.setPlacement id (.claimed plan price granted))
  | claimFails {id plan price day} (hplacement : s.placements id = .claiming plan price day) :
    Turn config s (.claimFails id) (s.setPlacement id (.claimed plan price true))
  | accept {id plan price params report}
    (hplacement : s.placements id = .sent plan price params)
    (hnone : s.exchange id = none) (hfits : ExchangeOrder.Fits params report) :
    Turn config s (.accept id report) ((s.setExchange id {
      side := plan.side
      params := params
      acceptedAt := s.now
      reference := price
      report := report }).setPlacement id (.accepted plan price report))
  | refuse {id plan price params} (hplacement : s.placements id = .sent plan price params) :
    Turn config s (.refuse id) (s.setPlacement id (.failed plan))
  | lose {id plan price report} (hplacement : s.placements id = .accepted plan price report) :
    Turn config s (.lose id) (s.setPlacement id (.failed plan))
  | submit {id plan price} (hplacement : s.placements id = .claimed plan price true) :
    Turn config s (.proceed id) (s.submit id plan price)
  | block {id plan price} (hplacement : s.placements id = .claimed plan price false) :
    Turn config s (.proceed id) (s.setPlacement id .done)
  | receive {id plan price report} (hplacement : s.placements id = .accepted plan price report) :
    Turn config s (.proceed id) ((s.receive id plan price report).setPlacement id .done)
  | giveUp {id plan} (hplacement : s.placements id = .failed plan) :
    Turn config s (.proceed id)
      ((if plan.side = .buy then s.refundDailySpend id plan.valueUsdt else s).setPlacement id .done)
  | refund {refund} (hmem : refund ∈ s.refunds) :
    Turn config s (.refund refund) { s with
      counters := Function.update s.counters refund.day
        ((s.counters refund.day).refund s.now refund.cents)
      refunds := s.refunds.erase refund }
  | reconcile {call stale} (hstale : ∀ order ∈ stale, order ∈ s.ledger.openOrdersList) :
    Turn config s (.reconcile call) (s.cancelLoop call stale)
  | cancel {call answered order rest found answer}
    (hcall : s.reconciliations call = .canceling order rest)
    (hfound : s.exchange order.clientOrderId = some found)
    (hopen : found.report.status.final = false)
    (hanswer : ∀ report, answer = some report → report = found.cancel.report) :
    Turn config s (.cancel call answered)
      ((s.setExchange order.clientOrderId found.cancel).goto call (.canceled order rest answer))
  | cancelRejected {call answered order rest}
    (hcall : s.reconciliations call = .canceling order rest) :
    Turn config s (.cancel call answered) (s.goto call (.canceled order rest none))
  | account {call answer openIds} :
    Turn config s (.account call answer) (s.goto call (.fetching (some answer) openIds))
  | openOrders {call account} :
    Turn config s (.openOrders call) (s.goto call (.fetching account (some s.isOpen)))
  | status {call order rest found} (hcall : s.reconciliations call = .asking order rest)
    (hfound : s.exchange order.clientOrderId = some found) :
    Turn config s (.status call) (s.goto call (.asked order rest (.report found.report)))
  | statusNotFound {call order rest} (hcall : s.reconciliations call = .asking order rest)
    (hfound : s.exchange order.clientOrderId = none) :
    Turn config s (.status call) (s.goto call (.asked order rest .notFound))
  | cancelFails {call order rest} (hcall : s.reconciliations call = .canceling order rest) :
    Turn config s (.fail call) (s.goto call (.canceled order rest none))
  | fetchFails {call} : Turn config s (.fail call) (s.goto call .idle)
  | statusFails {call order rest} (hcall : s.reconciliations call = .asking order rest) :
    Turn config s (.fail call) (s.goto call (.asked order rest .error))
  | cancelSkipped {call order rest} (hcall : s.reconciliations call = .canceled order rest none) :
    Turn config s (.resume call) (s.cancelLoop call rest)
  | canceled {call order rest report}
    (hcall : s.reconciliations call = .canceled order rest (some report)) :
    Turn config s (.resume call) ((s.receiveCanceled order report).cancelLoop call rest)
  | fetched {call positions gone} (hgone : ∀ order ∈ gone, order ∈ s.ledger.openOrdersList) :
    Turn config s (.resume call)
      ({ s with ledger := s.ledger.reconcilePositions positions }.statusLoop call gone)
  | asked {call order rest answer} (hcall : s.reconciliations call = .asked order rest answer) :
    Turn config s (.resume call) ((s.receiveStatus order answer).statusLoop call rest)
  | evolve {id order report} (hfound : s.exchange id = some order)
    (hadmits : order.Admits report) :
    Turn config s (.evolve id report) (s.setExchange id (order.withReport report))
  | tick {ms} (hintime : s.redisInTime (s.now + ms)) :
    Turn config s (.tick ms) { s with now := s.now + ms }

section Turns

variable [CaseMapping] {config : LiveConfig} {s s' : LiveState}

theorem turn_of_proceed {id : String} (hstep : s.proceed id = some s') :
    Turn config s (.proceed id) s' := by
  rw [proceed] at hstep
  cases hplacement : s.placements id with
  | claimed plan price granted =>
    rw [hplacement] at hstep
    cases granted <;> cases hstep
    · exact .block hplacement
    · exact .submit hplacement
  | accepted plan price report =>
    rw [hplacement] at hstep
    cases hstep
    exact .receive hplacement
  | failed plan =>
    rw [hplacement] at hstep
    cases hstep
    exact .giveUp hplacement
  | _ =>
    rw [hplacement] at hstep
    cases hstep

theorem turn_of_cancel {call : ℕ} {answered : Bool}
    (hstep : s.step config (.cancel call answered) = some s') :
    Turn config s (.cancel call answered) s' := by
  rw [step] at hstep
  cases hcall : s.reconciliations call with
  | canceling order rest =>
    rw [hcall] at hstep
    dsimp only at hstep
    cases hfound : s.exchange order.clientOrderId with
    | none =>
      rw [hfound] at hstep
      cases hstep
      exact .cancelRejected hcall
    | some found =>
      rw [hfound] at hstep
      dsimp only at hstep
      by_cases hopen : found.isOpen = true
      · rw [if_pos hopen] at hstep
        cases hstep
        apply Turn.cancel hcall hfound
        · simpa [ExchangeOrder.isOpen] using hopen
        · cases answered with
          | true => exact fun _ h => (Option.some.inj h).symm
          | false => exact nofun
      · rw [if_neg hopen] at hstep
        cases hstep
        exact .cancelRejected hcall
  | _ =>
    rw [hcall] at hstep
    cases hstep

theorem turn_of_resume {call : ℕ} (hstep : s.resume config call = some s') :
    Turn config s (.resume call) s' := by
  rw [resume] at hstep
  cases hcall : s.reconciliations call with
  | canceled order rest answer =>
    rw [hcall] at hstep
    cases answer <;> cases hstep
    · exact .cancelSkipped hcall
    · exact .canceled hcall
  | fetching account openIds =>
    rw [hcall] at hstep
    cases account with
    | none => cases hstep
    | some account =>
      cases openIds with
      | none => cases hstep
      | some openIds =>
        cases hstep
        apply Turn.fetched
        intro order horder
        have hmem := List.mem_of_mem_filter horder
        rwa [TradeLedger.openOrdersList, TradeLedger.openOrders_reconcilePositions] at hmem
  | asked order rest answer =>
    rw [hcall] at hstep
    cases hstep
    exact .asked hcall
  | _ =>
    rw [hcall] at hstep
    cases hstep

end Turns

theorem turn_of_step [CaseMapping] {config : LiveConfig} {s s' : LiveState} {a : LiveAction}
    (hstep : s.step config a = some s') : Turn config s a s' := by
  cases a with
  | place id plan price =>
    rw [step] at hstep
    split_ifs at hstep with hid
    cases hstep
    exact .place hid
  | claim id =>
    rw [step, claim] at hstep
    cases hplacement : s.placements id with
    | claiming plan price day =>
      rw [hplacement] at hstep
      cases hstep
      exact .claim hplacement rfl
    | _ =>
      rw [hplacement] at hstep
      cases hstep
  | claimFails id =>
    rw [step] at hstep
    cases hplacement : s.placements id with
    | claiming plan price day =>
      rw [hplacement] at hstep
      cases hstep
      exact .claimFails hplacement
    | _ =>
      rw [hplacement] at hstep
      cases hstep
  | accept id report =>
    rw [step] at hstep
    cases hplacement : s.placements id with
    | sent plan price params =>
      rw [hplacement] at hstep
      dsimp only at hstep
      split_ifs at hstep with hfits
      cases hstep
      exact .accept hplacement hfits.1 hfits.2
    | _ =>
      rw [hplacement] at hstep
      cases hstep
  | refuse id =>
    rw [step] at hstep
    cases hplacement : s.placements id with
    | sent plan price params =>
      rw [hplacement] at hstep
      cases hstep
      exact .refuse hplacement
    | _ =>
      rw [hplacement] at hstep
      cases hstep
  | lose id =>
    rw [step] at hstep
    cases hplacement : s.placements id with
    | accepted plan price report =>
      rw [hplacement] at hstep
      cases hstep
      exact .lose hplacement
    | _ =>
      rw [hplacement] at hstep
      cases hstep
  | proceed id => exact turn_of_proceed hstep
  | refund refund =>
    rw [step] at hstep
    split_ifs at hstep with hmem
    cases hstep
    exact .refund hmem
  | reconcile call =>
    rw [step] at hstep
    cases hcall : s.reconciliations call with
    | idle =>
      rw [hcall] at hstep
      cases hstep
      apply Turn.reconcile
      intro order horder
      split_ifs at horder
      · cases horder
      · exact List.mem_of_mem_filter horder
    | _ =>
      rw [hcall] at hstep
      cases hstep
  | cancel call answered => exact turn_of_cancel hstep
  | account call answer =>
    rw [step] at hstep
    cases hcall : s.reconciliations call with
    | fetching account openIds =>
      rw [hcall] at hstep
      cases account <;> cases hstep
      exact .account
    | _ =>
      rw [hcall] at hstep
      cases hstep
  | openOrders call =>
    rw [step] at hstep
    cases hcall : s.reconciliations call with
    | fetching account openIds =>
      rw [hcall] at hstep
      cases openIds <;> cases hstep
      exact .openOrders
    | _ =>
      rw [hcall] at hstep
      cases hstep
  | status call =>
    rw [step] at hstep
    cases hcall : s.reconciliations call with
    | asking order rest =>
      rw [hcall] at hstep
      dsimp only at hstep
      cases hfound : s.exchange order.clientOrderId with
      | none =>
        rw [hfound] at hstep
        cases hstep
        exact .statusNotFound hcall hfound
      | some found =>
        rw [hfound] at hstep
        cases hstep
        exact .status hcall hfound
    | _ =>
      rw [hcall] at hstep
      cases hstep
  | fail call =>
    rw [step] at hstep
    cases hcall : s.reconciliations call with
    | canceling order rest =>
      rw [hcall] at hstep
      cases hstep
      exact .cancelFails hcall
    | fetching account openIds =>
      rw [hcall] at hstep
      cases hstep
      exact .fetchFails
    | asking order rest =>
      rw [hcall] at hstep
      cases hstep
      exact .statusFails hcall
    | _ =>
      rw [hcall] at hstep
      cases hstep
  | resume call => exact turn_of_resume hstep
  | evolve id report =>
    rw [step] at hstep
    cases hfound : s.exchange id with
    | none =>
      rw [hfound] at hstep
      cases hstep
    | some order =>
      rw [hfound] at hstep
      dsimp only at hstep
      split_ifs at hstep with hadmits
      cases hstep
      exact .evolve hfound hadmits
  | tick ms =>
    rw [step] at hstep
    split_ifs at hstep with hintime
    cases hstep
    exact .tick hintime

end LiveState

end BotHive.Crypto
