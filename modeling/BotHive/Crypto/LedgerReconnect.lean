import BotHive.Library.Tasks
import BotHive.Crypto.LedgerSnapshot
import BotHive.Crypto.LiveTrading

/-!
# The ledger across reconnects

Every `connect()` of a live bot builds a new runtime, with a ledger that it loads from
Redis; a runtime saves its whole ledger after each answer to an order and after each
reconciliation. Calls of `placeOrder` and `reconcileLedger` keep the runtime that they
began with. An answer that arrives while the next runtime loads, or after it has loaded,
reaches a ledger that nobody reads any more, and what the two runtimes save overwrites
each other.

The commands of a Redis connection are carried out in the order in which they are sent: a
save takes effect when it is sent, and a load is answered with what was saved before it.

## Main definitions

- `Book`: a ledger with the calls that built it
- `PersistedBot`, `PersistedBot.step`: the runtimes of a bot, its calls, and Redis
- `LosesNothing`: when no call is underway, what is stored and the current ledger reflect
  every reported fill and hold every open order
- `Orderly`: the condition on a step

## Main results

- `UpToDate.step`: orderly steps keep the stored and the latest ledger up to date
- `losesNothing_of_orderly`: orderly runs lose nothing
-/

namespace BotHive.Crypto

open TradeLedger

/-- A call of a ledger operation, with the order that it is about. -/
structure Booking where
  order : Option String
  call : LedgerCall

/-- A call of `placeOrder`, with what its callers have checked. -/
structure OrderRequest where
  clientOrderId : String
  plan : OrderPlan
  price : ℚ
  id_ne : clientOrderId ≠ ""
  symbol_ne : plan.symbol ≠ ""
  quantity_nonneg : 0 ≤ plan.quantity.getD (plan.quoteOrderQty.getD 0 / price)

/-- A ledger with the calls that built it, since the first ledger of the bot. The last call
    comes first. -/
structure Book where
  ledger : TradeLedger
  history : List Booking

/-- Where a call of `connect` waits. -/
inductive ConnectCall where
  | idle
  /-- For the first prices, with the runtime before it stopped. -/
  | refreshing
  /-- For the ledger; the answer of Redis is on its way. -/
  | loading (text : Option Value) (history : List Booking)
  /-- For the first poll. -/
  | polling

inductive OrderCall where
  | fresh
  /-- Waits for Redis or for the exchange. -/
  | waiting (runtime : ℕ) (request : OrderRequest)
  | done

/-- Where a call of `reconcileLedger` waits. -/
inductive ReconcileCall where
  | idle
  | canceling (runtime : ℕ) (order : TrackedOrder) (rest : List TrackedOrder)
  | fetching (runtime : ℕ)
  | asking (runtime : ℕ) (order : TrackedOrder) (rest : List TrackedOrder)

structure PersistedBot where
  now : ℕ
  /-- The ledgers of the runtimes. -/
  books : ℕ → Book
  /-- How many runtimes there have been. -/
  runtimes : ℕ
  /-- The entry of the bot in `runtimes`. -/
  current : Option ℕ
  /-- The snapshot under the live-state key, as it is parsed, and what it was made of. -/
  stored : Option Value
  storedHistory : List Booking
  connects : ℕ → ConnectCall
  orders : String → OrderCall
  reconciliations : ℕ → ReconcileCall
  /-- The fills that the exchange has reported to calls of `placeOrder`. -/
  fills : List Booking
  /-- The orders that were recorded as open and are not resolved. -/
  opened : String → Option TrackedOrder

inductive PersistAction where
  | connect (call : ℕ)
  | refreshed (call : ℕ)
  | refreshFails (call : ℕ)
  | loaded (call : ℕ)
  /-- The first poll of a `connect` is done; when it fails, the runtime is deleted. -/
  | polled (call : ℕ) (success : Bool)
  | disconnect
  /-- A runtime has failed to poll for too long, and deletes the entry of the bot. -/
  | pollsFail
  /-- A call of `placeOrder` with a runtime. -/
  | place (runtime : ℕ) (request : OrderRequest)
  /-- The answer of the exchange arrives. -/
  | answer (id : String) (report : OrderReport)
  /-- The order is blocked or refused, or its answer is lost. -/
  | orderFails (id : String)
  /-- `checkExits` comes to the trailing stop of a symbol. -/
  | ratchet (runtime : ℕ) (symbol : String) (price : ℚ)
  | reconcile (call runtime : ℕ)
  /-- The answer to a cancellation, none for an error. -/
  | canceled (call : ℕ) (answer : Option OrderReport)
  /-- Balances and open orders arrive. -/
  | fetched (call : ℕ) (account : AccountAnswer) (openIds : String → Bool)
  | fetchFails (call : ℕ)
  /-- The status of an order that is no longer open arrives. -/
  | status (call : ℕ) (answer : StatusAnswer)
  | tick (ms : ℕ)

section Model

variable [CaseMapping]

/-- The ledger that calls build from the empty one. -/
def rebuild (history : List Booking) : TradeLedger :=
  history.foldr (fun booking l => booking.call.apply l) .empty

def Book.perform (b : Book) (booking : Booking) : Book where
  ledger := booking.call.apply b.ledger
  history := booking :: b.history

/-- `loadLedger`: a bot without a snapshot starts with an empty ledger. -/
def loadLedger : Option Value → Option TradeLedger
  | none => some .empty
  | some snapshot => fromSnapshot snapshot

/-- What `placeOrder` does to the ledger when the exchange has answered. -/
def answerCall (request : OrderRequest) (report : OrderReport) (now : ℕ) : LedgerCall :=
  if 0 < report.executedQty ∧ (report.status = .filled ∨ report.status = .partiallyFilled) then
    .operation (.applyFill request.plan.symbol request.plan.side report.executedQty
      (report.cummulativeQuoteQty / report.executedQty))
  else
    .operation (.recordOrder (LiveState.trackedOrder request.clientOrderId request.plan
      request.price report.orderId now))

/-- The fill that a report tells a call of `placeOrder`. -/
def reportedFill (request : OrderRequest) (report : OrderReport) : Option Booking :=
  if 0 < report.executedQty then
    some ⟨some request.clientOrderId, .operation (.applyFill request.plan.symbol
      request.plan.side report.executedQty (report.cummulativeQuoteQty / report.executedQty))⟩
  else none

/-- What a report tells a reconciliation about a tracked order. -/
def reconciledFill (order : TrackedOrder) (report : OrderReport) : LedgerCall :=
  let qty := report.executedQty
  .operation (.applyReconciledFill order.symbol order.side qty
    (if 0 < qty then report.cummulativeQuoteQty / qty else report.price))

namespace PersistedBot

def start : PersistedBot where
  now := 0
  books _ := { ledger := .empty, history := [] }
  runtimes := 0
  current := none
  stored := none
  storedHistory := []
  connects _ := .idle
  orders _ := .fresh
  reconciliations _ := .idle
  fills := []
  opened _ := none

def setConnect (s : PersistedBot) (c : ℕ) (call : ConnectCall) : PersistedBot :=
  { s with connects := Function.update s.connects c call }

def setOrder (s : PersistedBot) (id : String) (call : OrderCall) : PersistedBot :=
  { s with orders := Function.update s.orders id call }

def goto (s : PersistedBot) (r : ℕ) (call : ReconcileCall) : PersistedBot :=
  { s with reconciliations := Function.update s.reconciliations r call }

/-- A call of a ledger operation on the ledger of a runtime. -/
def perform (s : PersistedBot) (n : ℕ) (booking : Booking) : PersistedBot :=
  { s with books := Function.update s.books n ((s.books n).perform booking) }

/-- `saveLedger` for a runtime. -/
def save (s : PersistedBot) (n : ℕ) : PersistedBot :=
  { s with
    stored := ((s.books n).ledger.snapshot s.now).jsonCopy
    storedHistory := (s.books n).history }

/-- An order is open until the exchange says otherwise. -/
def note (s : PersistedBot) (id : String) (order : Option TrackedOrder) : PersistedBot :=
  { s with opened := Function.update s.opened id order }

/-- The answer to an order. -/
def receive (s : PersistedBot) (n : ℕ) (request : OrderRequest) (report : OrderReport) :
    PersistedBot :=
  let call := answerCall request report s.now
  let s := { s with
    fills := (reportedFill request report).toList ++ s.fills
    opened := match call with
      | .operation (.recordOrder order) =>
        Function.update s.opened request.clientOrderId (some order)
      | _ => s.opened }
  s.perform n ⟨some request.clientOrderId, call⟩

def removeOrder (s : PersistedBot) (n : ℕ) (order : TrackedOrder) : PersistedBot :=
  s.perform n ⟨some order.clientOrderId, .operation (.removeOrder order.clientOrderId)⟩

/-- The answer to a cancellation. -/
def receiveCanceled (s : PersistedBot) (n : ℕ) (order : TrackedOrder) (report : OrderReport) :
    PersistedBot :=
  let s := if 0 < report.executedQty then
      s.perform n ⟨some order.clientOrderId, reconciledFill order report⟩
    else s
  (s.removeOrder n order).note order.clientOrderId none

/-- The status of an order that is not among the open orders. Whatever it is, the ledger
    forgets the order. -/
def receiveStatus (s : PersistedBot) (n : ℕ) (order : TrackedOrder) : StatusAnswer → PersistedBot
  | .error => s
  | .notFound => (s.removeOrder n order).note order.clientOrderId none
  | .report report =>
    let s := s.removeOrder n order
    let s := if report.status.final then s.note order.clientOrderId none else s
    if report.status = .filled ∨ report.status = .partiallyFilled then
      s.perform n ⟨some order.clientOrderId, reconciledFill order report⟩
    else s

/-- The loop over stale orders, and the fetch after it. -/
def cancelLoop (s : PersistedBot) (r n : ℕ) : List TrackedOrder → PersistedBot
  | [] => s.goto r (.fetching n)
  | order :: rest => s.goto r (.canceling n order rest)

/-- The loop over orders that are no longer open, and the save after it. -/
def statusLoop (s : PersistedBot) (r n : ℕ) : List TrackedOrder → PersistedBot
  | [] => (s.save n).goto r .idle
  | order :: rest => s.goto r (.asking n order rest)

/-- The orders of a runtime that are not among the open orders. -/
def gone (s : PersistedBot) (n : ℕ) (openIds : String → Bool) : List TrackedOrder :=
  (s.books n).ledger.openOrdersList.filter fun order => !openIds order.clientOrderId

variable (config : ℕ → LiveConfig)

/-- The orders of a runtime that are older than its limit. -/
def stale (s : PersistedBot) (n : ℕ) : List TrackedOrder :=
  if (config n).orderTtlMs = 0 then []
  else (s.books n).ledger.openOrdersList.filter fun order =>
    decide ((config n).orderTtlMs < s.now - order.placedAt)

/-- What can happen next, for runtimes with given configurations. A poll or an order that has
    begun with a runtime may go on when the runtime has been replaced. -/
def step (s : PersistedBot) : PersistAction → Option PersistedBot
  | .connect c =>
    match s.connects c with
    | .idle => some { s.setConnect c .refreshing with current := none }
    | _ => none
  | .refreshed c =>
    match s.connects c with
    | .refreshing => some (s.setConnect c (.loading s.stored s.storedHistory))
    | _ => none
  | .refreshFails c =>
    match s.connects c with
    | .refreshing => some (s.setConnect c .idle)
    | _ => none
  | .loaded c =>
    match s.connects c with
    | .loading text history =>
      (loadLedger text).map fun ledger =>
        { s.setConnect c .polling with
          books := Function.update s.books s.runtimes { ledger := ledger, history := history }
          runtimes := s.runtimes + 1
          current := some s.runtimes }
    | _ => none
  | .polled c success =>
    match s.connects c with
    | .polling => some { s.setConnect c .idle with current := if success then s.current else none }
    | _ => none
  | .disconnect | .pollsFail => some { s with current := none }
  | .place n request =>
    match s.orders request.clientOrderId with
    | .fresh =>
      if n < s.runtimes then some (s.setOrder request.clientOrderId (.waiting n request)) else none
    | _ => none
  | .answer id report =>
    match s.orders id with
    | .waiting n request => some (((s.receive n request report).save n).setOrder id .done)
    | _ => none
  | .orderFails id =>
    match s.orders id with
    | .waiting _ _ => some (s.setOrder id .done)
    | _ => none
  | .ratchet n symbol price =>
    let l := (s.books n).ledger
    -- a high that has not moved is written again, which changes nothing
    let high := max ((l.trailingHighFor symbol).getD (l.avgEntryFor symbol)) price
    if 0 < l.avgEntryFor symbol then some (s.perform n ⟨none, .setTrailingHigh symbol high⟩)
    else none
  | .reconcile r n =>
    match s.reconciliations r with
    | .idle => if n < s.runtimes then some (s.cancelLoop r n (s.stale config n)) else none
    | _ => none
  | .canceled r answer =>
    match s.reconciliations r with
    | .canceling n order rest =>
      match answer with
      | none => some (s.cancelLoop r n rest)
      | some report => some ((s.receiveCanceled n order report).cancelLoop r n rest)
    | _ => none
  | .fetched r account openIds =>
    match s.reconciliations r with
    | .fetching n =>
      some ((s.perform n ⟨none, .operation (.reconcilePositions
        (exchangePositions (config n).symbols account.account))⟩).statusLoop r n (s.gone n openIds))
    | _ => none
  | .fetchFails r =>
    match s.reconciliations r with
    | .fetching _ => some (s.goto r .idle)
    | _ => none
  | .status r answer =>
    match s.reconciliations r with
    | .asking n order rest => some ((s.receiveStatus n order answer).statusLoop r n rest)
    | _ => none
  | .tick ms => some { s with now := s.now + ms }

/-- No call is underway. -/
def Finished (s : PersistedBot) : Prop :=
  (∀ c, s.connects c = .idle) ∧ (∀ id, s.orders id = .fresh ∨ s.orders id = .done) ∧
    ∀ r, s.reconciliations r = .idle

/-- A loaded snapshot. -/
def storedBook (text : Option Value) (history : List Booking) : Option Book :=
  (loadLedger text).map fun ledger => { ledger := ledger, history := history }

end PersistedBot

/-- A ledger is what its calls build; every reported fill is among them, and every open order
    is in the ledger. -/
structure Book.Reflects (b : Book) (s : PersistedBot) : Prop where
  rebuilt : b.ledger.Same (rebuild b.history)
  fills : ∀ fill ∈ s.fills, fill ∈ b.history
  orders : ∀ id order, s.opened id = some order → b.ledger.openOrders.get id = some order

/-- When no call is underway, the stored ledger and that of the current runtime reflect
    all that has happened. -/
def LosesNothing (s : PersistedBot) : Prop :=
  s.Finished →
    (∃ b, PersistedBot.storedBook s.stored s.storedHistory = some b ∧ b.Reflects s) ∧
      ∀ n, s.current = some n → (s.books n).Reflects s

/-- The runtime is the latest. -/
def PersistedBot.Latest (s : PersistedBot) (n : ℕ) : Prop :=
  n + 1 = s.runtimes

/-- An answer to an order reaches the latest runtime while no other is being loaded, and what it
    says is executed it reports as a fill; a reconciliation saves the latest runtime, and an order
    that it forgets is final. -/
def Orderly (s : PersistedBot) : PersistAction → Prop
  | .answer id report => ∀ n request, s.orders id = .waiting n request →
    s.Latest n ∧ (∀ c text history, s.connects c ≠ .loading text history) ∧
      (0 < report.executedQty → report.status = .filled ∨ report.status = .partiallyFilled)
  | .fetched r _ openIds => ∀ n, s.reconciliations r = .fetching n →
    s.gone n openIds = [] → s.Latest n
  | .status r answer => ∀ n order rest, s.reconciliations r = .asking n order rest →
    (rest = [] → s.Latest n) ∧ ∀ report, answer = .report report → report.status.final = true
  | _ => True

/-- The ledger is well formed, and is what its calls build. -/
structure Book.Sound (b : Book) : Prop where
  wellFormed : b.ledger.WellFormed
  rebuilt : b.ledger.Same (rebuild b.history)

/-- Fills are among the calls of a ledger, and open orders are in it. -/
structure Book.Covers (b : Book) (fills : List Booking) (opened : String → Option TrackedOrder) :
    Prop where
  fills : ∀ fill ∈ fills, fill ∈ b.history
  orders : ∀ id order, opened id = some order → b.ledger.openOrders.get id = some order

section Books

variable {b : Book} {fills : List Booking} {opened : String → Option TrackedOrder}
  {booking : Booking}

theorem Book.Sound.perform (h : b.Sound) (hok : booking.call.Admissible b.ledger) :
    (b.perform booking).Sound where
  wellFormed := wellFormed_apply h.wellFormed hok
  rebuilt := (same_apply h.rebuilt booking.call).2

/-- What is saved is loaded as a ledger that stores the same. -/
theorem Book.Sound.restored (h : b.Sound) (now : ℕ) :
    ∃ ledger, loadLedger (b.ledger.snapshot now).jsonCopy = some ledger ∧ b.ledger.Same ledger ∧
      ({ ledger := ledger, history := b.history } : Book).Sound := by
  obtain ⟨ledger, hload, hsame⟩ := fromSnapshot_jsonCopy h.wellFormed now
  obtain ⟨text, htext, hload⟩ := Option.bind_eq_some_iff.mp hload
  refine ⟨ledger, ?_, hsame, hsame.wellFormed h.wellFormed, hsame.symm.trans h.rebuilt⟩
  rw [htext]
  exact hload

namespace Book.Covers

omit [CaseMapping] in
theorem mono (h : b.Covers fills opened) {opened' : String → Option TrackedOrder}
    (hopened : ∀ id order, opened' id = some order → opened id = some order) :
    b.Covers fills opened' where
  fills := h.fills
  orders id order ho := h.orders id order (hopened id order ho)

omit [CaseMapping] in
/-- A ledger that stores the same. -/
theorem same (h : b.Covers fills opened) {ledger : TradeLedger} (hsame : b.ledger.Same ledger) :
    ({ ledger := ledger, history := b.history } : Book).Covers fills opened where
  fills := h.fills
  orders id order ho := hsame.openOrders id ▸ h.orders id order ho

theorem perform_fill (h : b.Covers fills opened)
    (horders : (booking.call.apply b.ledger).openOrders = b.ledger.openOrders) :
    (b.perform booking).Covers fills opened where
  fills fill hfill := List.mem_cons_of_mem booking (h.fills fill hfill)
  orders id order ho := by
    rw [Book.perform, horders]
    exact h.orders id order ho

omit [CaseMapping] in
theorem report (h : b.Covers fills opened) (hbooking : booking ∈ b.history) :
    b.Covers (booking :: fills) opened where
  fills := List.forall_mem_cons.mpr ⟨hbooking, h.fills⟩
  orders := h.orders

theorem recordOrder (h : b.Covers fills opened) (order : TrackedOrder) (source : Option String) :
    (b.perform ⟨source, .operation (.recordOrder order)⟩).Covers fills
      (Function.update opened order.clientOrderId (some order)) where
  fills fill hfill := List.mem_cons_of_mem _ (h.fills fill hfill)
  orders id found ho := by
    show (b.ledger.recordOrder order).openOrders.get id = some found
    rw [TradeLedger.recordOrder, InsertionMap.get_set]
    by_cases hid : id = order.clientOrderId
    · subst hid
      rw [Function.update_self] at ho
      rw [if_pos rfl, ho]
    · rw [Function.update_of_ne hid] at ho
      rw [if_neg hid]
      exact h.orders id found ho

theorem removeOrder (h : b.Covers fills opened) {id : String} (hid : opened id = none)
    (source : Option String) :
    (b.perform ⟨source, .operation (.removeOrder id)⟩).Covers fills opened where
  fills fill hfill := List.mem_cons_of_mem _ (h.fills fill hfill)
  orders other order ho := by
    have hne : other ≠ id := by
      rintro rfl
      rw [hid] at ho
      cases ho
    show (b.ledger.removeOrder id).2.openOrders.get other = some order
    rw [get_openOrders_removeOrder, if_neg hne]
    exact h.orders other order ho

end Book.Covers

end Books

/-- A snapshot is loaded as a ledger that reflects all that has happened. -/
def Restores (s : PersistedBot) (text : Option Value) (history : List Booking) : Prop :=
  ∃ ledger, loadLedger text = some ledger ∧
    ({ ledger := ledger, history := history } : Book).Sound ∧
    ({ ledger := ledger, history := history } : Book).Covers s.fills s.opened

theorem Restores.mono {s s' : PersistedBot} {text : Option Value} {history : List Booking}
    (h : Restores s text history) (hfills : s'.fills = s.fills)
    (hopened : ∀ id order, s'.opened id = some order → s.opened id = some order) :
    Restores s' text history := by
  obtain ⟨ledger, hload, hsound, hcovers⟩ := h
  exact ⟨ledger, hload, hsound, hfills ▸ hcovers.mono hopened⟩

/-- What is stored, every ledger that is being loaded and that of the latest runtime reflect
    all that has happened. -/
structure UpToDate (s : PersistedBot) : Prop where
  sound : ∀ n, (s.books n).Sound
  latest : ∀ n, s.Latest n → (s.books n).Covers s.fills s.opened
  stored : Restores s s.stored s.storedHistory
  loading : ∀ c text history, s.connects c = .loading text history → Restores s text history
  current : ∀ n, s.current = some n → s.Latest n

theorem Book.sound_empty : ({ ledger := .empty, history := [] } : Book).Sound where
  wellFormed := wellFormed_empty
  rebuilt := ⟨fun _ => rfl, fun _ => rfl, fun _ => rfl, rfl, fun _ => rfl⟩

namespace UpToDate

open PersistedBot

theorem start : UpToDate .start where
  sound _ := Book.sound_empty
  latest _ h := nomatch h
  stored := ⟨.empty, rfl, Book.sound_empty, nofun, nofun⟩
  loading := nofun
  current := nofun

variable {s : PersistedBot}

theorem losesNothing (h : UpToDate s) : LosesNothing s := by
  intro _
  obtain ⟨ledger, hload, hsound, hcovers⟩ := h.stored
  constructor
  · refine ⟨{ ledger := ledger, history := s.storedHistory }, ?_,
      hsound.rebuilt, hcovers.fills, hcovers.orders⟩
    rw [storedBook, hload]
    rfl
  · intro n hn
    have hlatest := h.latest n (h.current n hn)
    exact ⟨(h.sound n).rebuilt, hlatest.fills, hlatest.orders⟩

theorem deleted (h : UpToDate s) : UpToDate { s with current := none } :=
  { h with current := nofun }

/-- A `connect` that does not wait for its ledger. -/
theorem setConnect (h : UpToDate s) (c : ℕ) {call : ConnectCall}
    (hcall : ∀ text history, call = .loading text history → Restores s text history) :
    UpToDate (s.setConnect c call) :=
  { h with
    loading := forall_update (q := fun _ call => ∀ text history,
      call = ConnectCall.loading text history → Restores s text history) hcall
      fun d _ => h.loading d }

/-- A call on the ledger of a runtime. -/
theorem perform (h : UpToDate s) {n : ℕ} {booking : Booking}
    (hok : booking.call.Admissible (s.books n).ledger)
    (hcovers : s.Latest n → ((s.books n).perform booking).Covers s.fills s.opened) :
    UpToDate (s.perform n booking) :=
  { h with
    sound := forall_update (q := fun _ b => Book.Sound b) ((h.sound n).perform hok)
      fun d _ => h.sound d
    latest := forall_update (q := fun d b => s.Latest d → Book.Covers b s.fills s.opened) hcovers
      fun d _ => h.latest d }

/-- A call that leaves the open orders alone. -/
theorem perform_fill (h : UpToDate s) {n : ℕ} {booking : Booking}
    (hok : booking.call.Admissible (s.books n).ledger)
    (horders : (booking.call.apply (s.books n).ledger).openOrders =
      (s.books n).ledger.openOrders) : UpToDate (s.perform n booking) :=
  h.perform hok fun hn => (h.latest n hn).perform_fill horders

/-- An order is resolved, and a ledger forgets it. -/
theorem resolve (h : UpToDate s) (n : ℕ) (order : TrackedOrder) :
    UpToDate ((s.removeOrder n order).note order.clientOrderId none) := by
  have hopened : ∀ id found, (s.note order.clientOrderId none).opened id = some found →
      s.opened id = some found := by
    intro id found hfound
    by_cases hid : id = order.clientOrderId
    · subst hid
      cases (Function.update_self ..).symm.trans hfound
    · exact (Function.update_of_ne hid ..).symm.trans hfound
  -- fewer orders have to be there once this one counts as resolved
  have hnote : UpToDate (s.note order.clientOrderId none) := {
    sound := h.sound
    latest n hn := (h.latest n hn).mono hopened
    stored := h.stored.mono rfl hopened
    loading c text history hc := (h.loading c text history hc).mono rfl hopened
    current := h.current }
  refine hnote.perform trivial fun hn => ?_
  exact (hnote.latest n hn).removeOrder (Function.update_self ..) _

/-- The latest runtime saves its ledger. -/
theorem save (h : UpToDate s) {n : ℕ} (hn : s.Latest n) : UpToDate (s.save n) := by
  obtain ⟨ledger, hload, hsame, hsound⟩ := (h.sound n).restored s.now
  exact { h with stored := ⟨ledger, hload, hsound, (h.latest n hn).same hsame⟩ }

theorem applyReported (h : UpToDate s) (n : ℕ) (order : TrackedOrder) (report : OrderReport) :
    UpToDate (s.perform n ⟨some order.clientOrderId, reconciledFill order report⟩) := by
  have hok : (reconciledFill order report).Admissible (s.books n).ledger := trivial
  exact h.perform_fill hok (openOrders_applyReconciledFill _ _ _ _ _)

theorem receiveCanceled (h : UpToDate s) (n : ℕ) (order : TrackedOrder) (report : OrderReport) :
    UpToDate (s.receiveCanceled n order report) := by
  rw [PersistedBot.receiveCanceled]
  split_ifs
  · exact (h.applyReported n order report).resolve n order
  · exact h.resolve n order

theorem receiveStatus (h : UpToDate s) (n : ℕ) (order : TrackedOrder) {answer : StatusAnswer}
    (hfinal : ∀ report, answer = .report report → report.status.final = true) :
    UpToDate (s.receiveStatus n order answer) := by
  cases answer with
  | error => exact h
  | notFound => exact h.resolve n order
  | report report =>
    rw [PersistedBot.receiveStatus, if_pos (hfinal report rfl)]
    split_ifs
    · exact (h.resolve n order).applyReported n order report
    · exact h.resolve n order

theorem runtimes_receiveStatus (n : ℕ) (order : TrackedOrder) (answer : StatusAnswer) :
    (s.receiveStatus n order answer).runtimes = s.runtimes := by
  cases answer with
  | error | notFound => rfl
  | report report =>
    rw [PersistedBot.receiveStatus]
    split_ifs <;> rfl

/-- A fill that the exchange reports is booked. -/
theorem receive_fill (request : OrderRequest) {report : OrderReport} (n : ℕ)
    (hqty : 0 < report.executedQty)
    (hstatus : report.status = .filled ∨ report.status = .partiallyFilled) :
    ∃ fill : Booking, s.receive n request report =
        { s with fills := fill :: s.fills }.perform n fill ∧ ∃ symbol side qty price,
          fill.call = .operation (.applyFill symbol side qty price) := by
  refine ⟨⟨some request.clientOrderId, .operation (.applyFill request.plan.symbol
    request.plan.side report.executedQty (report.cummulativeQuoteQty / report.executedQty))⟩,
    ?_, _, _, _, _, rfl⟩
  rw [receive, answerCall, if_pos ⟨hqty, hstatus⟩, reportedFill, if_pos hqty]
  rfl

/-- An order of which nothing is executed is recorded as open. -/
theorem receive_open (request : OrderRequest) {report : OrderReport} (n : ℕ)
    (hqty : ¬ 0 < report.executedQty) :
    ∃ order : TrackedOrder, ValidOrder order ∧ s.receive n request report =
      (s.note order.clientOrderId (some order)).perform n
        ⟨some order.clientOrderId, .operation (.recordOrder order)⟩ := by
  refine ⟨LiveState.trackedOrder request.clientOrderId request.plan request.price
    report.orderId s.now, ⟨request.id_ne, request.symbol_ne, request.quantity_nonneg⟩, ?_⟩
  rw [receive, answerCall, if_neg fun h => hqty h.1, reportedFill, if_neg hqty]
  rfl

/-- An answer reaches the latest runtime, which saves its ledger. -/
theorem answered (h : UpToDate s) {n : ℕ} (hn : s.Latest n)
    (hload : ∀ c text history, s.connects c ≠ .loading text history) {booking : Booking}
    (hok : booking.call.Admissible (s.books n).ledger) {fills : List Booking}
    {opened : String → Option TrackedOrder}
    (hcovers : ((s.books n).perform booking).Covers fills opened) :
    UpToDate (({ s with fills := fills, opened := opened }.perform n booking).save n) := by
  have hsound := (h.sound n).perform hok
  have hbook : Function.update s.books n ((s.books n).perform booking) n =
      (s.books n).perform booking := Function.update_self ..
  constructor
  case sound => exact forall_update (q := fun _ b => Book.Sound b) hsound fun d _ => h.sound d
  case latest =>
    refine forall_update (q := fun d b => s.Latest d → Book.Covers b fills opened)
      (fun _ => hcovers) fun d hne hd => ?_
    -- there is only one latest runtime
    exact absurd (Nat.succ_injective (hd.trans hn.symm)) hne
  case stored =>
    obtain ⟨ledger, hload, hsame, hsound'⟩ := hsound.restored s.now
    let b := Function.update s.books n ((s.books n).perform booking) n
    show Restores _ (b.ledger.snapshot s.now).jsonCopy b.history
    rw [show b = (s.books n).perform booking from hbook]
    exact ⟨ledger, hload, hsound', hcovers.same hsame⟩
  case loading => exact fun c text history hc => absurd hc (hload c text history)
  case current => exact h.current

theorem answer (h : UpToDate s) {n : ℕ} (hn : s.Latest n)
    (hload : ∀ c text history, s.connects c ≠ .loading text history) (request : OrderRequest)
    {report : OrderReport}
    (hfilled : 0 < report.executedQty →
      report.status = .filled ∨ report.status = .partiallyFilled) :
    UpToDate ((s.receive n request report).save n) := by
  have hlatest := h.latest n hn
  by_cases hqty : 0 < report.executedQty
  · obtain ⟨fill, hreceive, symbol, side, qty, price, hcall⟩ :=
      receive_fill (s := s) request n hqty (hfilled hqty)
    rw [hreceive]
    have hok : fill.call.Admissible (s.books n).ledger := hcall ▸ trivial
    refine h.answered hn hload hok ((hlatest.perform_fill ?_).report List.mem_cons_self)
    rw [hcall]
    exact openOrders_applyFill _ symbol side qty price
  · obtain ⟨order, hvalid, hreceive⟩ := receive_open (s := s) request n hqty
    rw [hreceive]
    have hok : (LedgerCall.operation (.recordOrder order)).Admissible (s.books n).ledger := hvalid
    exact h.answered hn hload hok (hlatest.recordOrder order _)

/-- A runtime is built with the ledger that it has loaded. -/
theorem loaded (h : UpToDate s) {c : ℕ} {text : Option Value} {history : List Booking}
    {ledger : TradeLedger} (hwaits : s.connects c = .loading text history)
    (hload : loadLedger text = some ledger) :
    UpToDate { s.setConnect c .polling with
      books := Function.update s.books s.runtimes { ledger := ledger, history := history }
      runtimes := s.runtimes + 1
      current := some s.runtimes } := by
  obtain ⟨found, hfound, hsound, hcovers⟩ := h.loading c text history hwaits
  cases hload.symm.trans hfound
  have hpolling : UpToDate (s.setConnect c .polling) := h.setConnect c nofun
  constructor
  case sound => exact forall_update (q := fun _ b => Book.Sound b) hsound fun d _ => h.sound d
  case latest =>
    intro d hd
    obtain rfl : d = s.runtimes := Nat.succ_injective hd
    show (Function.update s.books s.runtimes _ s.runtimes).Covers s.fills s.opened
    rw [Function.update_self]
    exact hcovers
  case stored => exact h.stored
  case loading => exact hpolling.loading
  case current => exact fun d hd => congrArg Nat.succ (Option.some.inj hd).symm

/-- A trailing high is set for a symbol with an entry price. -/
theorem ratchet (h : UpToDate s) (n : ℕ) {symbol : String} (price : ℚ)
    (hentry : 0 < (s.books n).ledger.avgEntryFor symbol) :
    UpToDate (s.perform n ⟨none, .setTrailingHigh symbol
      (max (((s.books n).ledger.trailingHighFor symbol).getD
        ((s.books n).ledger.avgEntryFor symbol)) price)⟩) := by
  have hwell := (h.sound n).wellFormed
  have hhigh : 0 < ((s.books n).ledger.trailingHighFor symbol).getD
      ((s.books n).ledger.avgEntryFor symbol) := by
    cases htrailing : (s.books n).ledger.trailingHighFor symbol with
    | none => exact hentry
    | some high => exact (hwell.stored _).high_pos high htrailing
  have hok : (LedgerCall.setTrailingHigh symbol (max
      (((s.books n).ledger.trailingHighFor symbol).getD
        ((s.books n).ledger.avgEntryFor symbol)) price)).Admissible (s.books n).ledger :=
    ⟨hwell.held_pos_of_entry hentry, lt_max_of_lt_left hhigh⟩
  exact h.perform_fill hok rfl

theorem goto (h : UpToDate s) (r : ℕ) (call : ReconcileCall) : UpToDate (s.goto r call) :=
  { h with }

theorem cancelLoop (h : UpToDate s) (r n : ℕ) (orders : List TrackedOrder) :
    UpToDate (s.cancelLoop r n orders) := by
  cases orders with
  | nil => exact h.goto r _
  | cons order rest => exact h.goto r _

theorem statusLoop (h : UpToDate s) (r : ℕ) {n : ℕ} {orders : List TrackedOrder}
    (hn : orders = [] → s.Latest n) : UpToDate (s.statusLoop r n orders) := by
  cases orders with
  | nil => exact (h.save (hn rfl)).goto r _
  | cons order rest => exact h.goto r _

/-- The balances do not touch the open orders. -/
theorem reconcilePositions (h : UpToDate s) (n : ℕ) (exchange : InsertionMap String ℚ) :
    UpToDate (s.perform n ⟨none, .operation (.reconcilePositions exchange)⟩) := by
  have hok : (LedgerCall.operation (.reconcilePositions exchange)).Admissible
    (s.books n).ledger := trivial
  exact h.perform_fill hok (openOrders_reconcilePositions _ exchange)

/-- **Step**: an orderly step keeps the stored and the latest ledger up to date. -/
theorem step {config : ℕ → LiveConfig} {s' : PersistedBot} {a : PersistAction} (h : UpToDate s)
    (hok : Orderly s a) (hstep : s.step config a = some s') : UpToDate s' := by
  cases a with
  | connect c =>
    rw [PersistedBot.step] at hstep
    cases hcall : s.connects c <;> rw [hcall] at hstep <;> cases hstep
    have hrefreshing : UpToDate (s.setConnect c .refreshing) := h.setConnect c nofun
    exact hrefreshing.deleted
  | refreshed c =>
    rw [PersistedBot.step] at hstep
    cases hcall : s.connects c <;> rw [hcall] at hstep <;> cases hstep
    -- Redis will answer with what is stored now
    refine h.setConnect c ?_
    rintro _ _ ⟨⟩
    exact h.stored
  | refreshFails c =>
    rw [PersistedBot.step] at hstep
    cases hcall : s.connects c <;> rw [hcall] at hstep <;> cases hstep
    exact h.setConnect c nofun
  | loaded c =>
    rw [PersistedBot.step] at hstep
    cases hcall : s.connects c with
    | loading text history =>
      rw [hcall] at hstep
      obtain ⟨ledger, hload, rfl⟩ := Option.map_eq_some_iff.mp hstep
      exact h.loaded hcall hload
    | _ =>
      rw [hcall] at hstep
      cases hstep
  | polled c success =>
    rw [PersistedBot.step] at hstep
    cases hcall : s.connects c <;> rw [hcall] at hstep <;> cases hstep
    have hidle : UpToDate (s.setConnect c .idle) := h.setConnect c nofun
    cases success
    · exact hidle.deleted
    · exact hidle
  | disconnect | pollsFail =>
    cases hstep
    exact h.deleted
  | place n request =>
    rw [PersistedBot.step] at hstep
    cases hcall : s.orders request.clientOrderId with
    | fresh =>
      rw [hcall] at hstep
      obtain ⟨-, hstep⟩ := Option.ite_none_right_eq_some.mp hstep
      cases hstep
      exact { h with }
    | _ =>
      rw [hcall] at hstep
      cases hstep
  | answer id report =>
    rw [PersistedBot.step] at hstep
    cases hcall : s.orders id with
    | waiting n request =>
      rw [hcall] at hstep
      cases hstep
      obtain ⟨hn, hload, hfilled⟩ := hok n request hcall
      exact { h.answer hn hload request hfilled with }
    | _ =>
      rw [hcall] at hstep
      cases hstep
  | orderFails id =>
    rw [PersistedBot.step] at hstep
    cases hcall : s.orders id <;> rw [hcall] at hstep <;> cases hstep
    exact { h with }
  | ratchet n symbol price =>
    obtain ⟨hentry, hstep⟩ := Option.ite_none_right_eq_some.mp hstep
    cases hstep
    exact h.ratchet n price hentry
  | reconcile r n =>
    rw [PersistedBot.step] at hstep
    cases hcall : s.reconciliations r with
    | idle =>
      rw [hcall] at hstep
      obtain ⟨-, hstep⟩ := Option.ite_none_right_eq_some.mp hstep
      cases hstep
      exact h.cancelLoop r n _
    | _ =>
      rw [hcall] at hstep
      cases hstep
  | canceled r answer =>
    rw [PersistedBot.step] at hstep
    cases hcall : s.reconciliations r with
    | canceling n order rest =>
      rw [hcall] at hstep
      cases answer <;> cases hstep
      · exact h.cancelLoop r n rest
      · exact (h.receiveCanceled n order _).cancelLoop r n rest
    | _ =>
      rw [hcall] at hstep
      cases hstep
  | fetched r account openIds =>
    rw [PersistedBot.step] at hstep
    cases hcall : s.reconciliations r with
    | fetching n =>
      rw [hcall] at hstep
      cases hstep
      exact (h.reconcilePositions n _).statusLoop r (hok n hcall)
    | _ =>
      rw [hcall] at hstep
      cases hstep
  | fetchFails r =>
    rw [PersistedBot.step] at hstep
    cases hcall : s.reconciliations r <;> rw [hcall] at hstep <;> cases hstep
    exact h.goto r _
  | status r answer =>
    rw [PersistedBot.step] at hstep
    cases hcall : s.reconciliations r with
    | asking n order rest =>
      rw [hcall] at hstep
      cases hstep
      obtain ⟨hn, hfinal⟩ := hok n order rest hcall
      refine (h.receiveStatus n order hfinal).statusLoop r fun hrest => ?_
      rw [Latest, runtimes_receiveStatus]
      exact hn hrest
    | _ =>
      rw [hcall] at hstep
      cases hstep
  | tick ms =>
    cases hstep
    exact { h with }

end UpToDate

/-- **Nothing is lost**: in an orderly run what is stored, and the ledger of the current
    runtime, reflect every reported fill and hold every open order whenever no call is
    underway. -/
theorem losesNothing_of_orderly (config : ℕ → LiveConfig) (as : List PersistAction)
    (hok : Machine.Along (PersistedBot.step config) Orderly .start as) :
    Machine.Everywhere (PersistedBot.step config) LosesNothing .start as :=
  Machine.everywhere_of_invariant UpToDate LosesNothing
    (fun _ _ _ h hok hstep => h.step hok hstep) (fun _ h => h.losesNothing) .start hok

end Model

theorem exists_reportedFill (request : OrderRequest) {report : OrderReport}
    (h : 0 < report.executedQty) :
    ∃ fill ∈ (reportedFill request report).toList, fill.order = some request.clientOrderId := by
  rw [reportedFill, if_pos h]
  exact ⟨_, List.mem_singleton_self _, rfl⟩

/-- A market buy for ten dollars at a price of 100. -/
def tenDollars (id : String) (hid : id ≠ "") : OrderRequest where
  clientOrderId := id
  plan := {
    symbol := "BTCUSDT"
    side := .buy
    type := .market
    quantity := none
    quoteOrderQty := some 10
    price := none
    valueUsdt := 10 }
  price := 100
  id_ne := hid
  symbol_ne := by decide
  quantity_nonneg := by norm_num

/-- Ten dollars have bought 0.1. -/
def tenthBought (orderId : ℕ) : OrderReport where
  orderId := orderId
  price := 0
  status := .filled
  executedQty := 1 / 10
  cummulativeQuoteQty := 10
  executed_nonneg := by norm_num
  quote_nonneg := by norm_num
  quote_eq_zero := by norm_num

/-- A bot buys, is disconnected, connects again and buys once more. -/
theorem losesNothing_of_buy_reconnect_buy :
    Machine.Everywhere (PersistedBot.step fun _ => ⟨["BTCUSDT"], 0, 0⟩) LosesNothing .start
      [.connect 0, .refreshed 0, .loaded 0, .polled 0 true, .place 0 (tenDollars "a" (by decide)),
        .answer "a" (tenthBought 1), .disconnect, .connect 1, .refreshed 1, .loaded 1,
        .polled 1 true, .place 1 (tenDollars "b" (by decide)), .answer "b" (tenthBought 2)] := by
  apply losesNothing_of_orderly
  iterate 5
    rintro _ ⟨⟩
    refine ⟨trivial, ?_⟩
  rintro _ ⟨⟩
  refine ⟨?_, ?_⟩
  · rintro n request ⟨⟩
    refine ⟨rfl, ?_, fun _ => Or.inl rfl⟩
    intro c
    match c with
    | 0 | c + 1 => exact nofun
  iterate 3
    rintro _ ⟨⟩
    refine ⟨trivial, ?_⟩
  intro s hs
  obtain ⟨ledger, -, rfl⟩ := Option.map_eq_some_iff.mp hs
  refine ⟨trivial, ?_⟩
  iterate 2
    rintro _ ⟨⟩
    refine ⟨trivial, ?_⟩
  rintro _ ⟨⟩
  refine ⟨?_, trivial⟩
  rintro n request ⟨⟩
  refine ⟨rfl, ?_, fun _ => Or.inl rfl⟩
  intro c
  match c with
  | 0 | 1 | c + 2 => exact nofun

/-- An order that has been placed and answered. -/
theorem finished_update {orders : String → OrderCall} {id : String} (call : OrderCall)
    (h : ∀ j, orders j = .fresh ∨ orders j = .done) (j : String) :
    Function.update (Function.update orders id call) id .done j = .fresh ∨
      Function.update (Function.update orders id call) id .done j = .done := by
  rw [Function.update_idem]
  exact forall_update (q := fun _ call => call = OrderCall.fresh ∨ call = .done) (Or.inr rfl)
    (fun j _ => h j) j

/-- The bot reconnects while a buy is in flight. The next runtime has asked for its ledger when
    the answer arrives; what it saves after the next buy no longer has the first one. -/
theorem losesNothing_fails_on_answer_while_loading :
    ∃ s, Machine.exec (PersistedBot.step fun _ => ⟨["BTCUSDT"], 0, 0⟩) .start
        [.connect 0, .refreshed 0, .loaded 0, .polled 0 true,
          .place 0 (tenDollars "a" (by decide)), .connect 1, .refreshed 1,
          .answer "a" (tenthBought 1), .loaded 1, .polled 1 true,
          .place 1 (tenDollars "b" (by decide)), .answer "b" (tenthBought 2)] = some s ∧
      ¬ LosesNothing s := by
  refine ⟨_, rfl, fun h => ?_⟩
  obtain ⟨⟨b, hb, hreflects⟩, -⟩ := h ⟨fun c => match c with | 0 | 1 | _ + 2 => rfl,
    finished_update _ (finished_update _ fun _ => Or.inl rfl), fun _ => rfl⟩
  obtain ⟨ledger, -, rfl⟩ := Option.map_eq_some_iff.mp hb
  obtain ⟨fill, hfill, hid⟩ := exists_reportedFill (tenDollars "a" (by decide))
    (show 0 < (tenthBought 1).executedQty by norm_num [tenthBought])
  have hbooked := hreflects.fills fill (List.mem_append_right _ (List.mem_append_left _ hfill))
  rw [List.mem_singleton.mp hbooked] at hid
  exact absurd hid (by decide)

end BotHive.Crypto
