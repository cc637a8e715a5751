import BotHive.Library.Tasks
import BotHive.Crypto.LiveTrading

/-!
# Where the orders of a live bot are

What holds in every run, whatever the exchange answers: an order is unknown to the
exchange until it accepts it, the ledger tracks only orders that the exchange knows, as
they were planned, and every answer on its way is a report that was once true.

## Main definitions

- `OrderLinked`: what the bot, the exchange and a call of `placeOrder` say about one order
- `Informed`: what a reconciliation knows
- `Linked`: both, for all orders and reconciliations

## Main results

- `linked_step`: every step keeps the state linked
-/

namespace BotHive.Crypto

namespace LiveState

/-- The order that the ledger tracks under an id. -/
def tracked (s : LiveState) (id : String) : Option TrackedOrder :=
  s.ledger.openOrders.get id

theorem tracked_removeOrder (s : LiveState) (id j : String) :
    (s.removeOrder id).tracked j = if j = id then none else s.tracked j :=
  TradeLedger.get_openOrders_removeOrder s.ledger id j

section Answers

variable [CaseMapping] (s : LiveState) (order : TrackedOrder) (report : OrderReport) (j : String)

theorem tracked_applyReported : (s.applyReported order report).tracked j = s.tracked j :=
  congrArg (InsertionMap.get · j) (TradeLedger.openOrders_applyReconciledFill ..)

theorem tracked_receiveCanceled : (s.receiveCanceled order report).tracked j =
    if j = order.clientOrderId then none else s.tracked j := by
  rw [receiveCanceled, tracked, ledger_refundUnfilled]
  split_ifs with hpos hj hj
  · exact (tracked_removeOrder _ _ j).trans (if_pos hj)
  · exact ((tracked_removeOrder _ _ j).trans (if_neg hj)).trans (tracked_applyReported ..)
  · exact (tracked_removeOrder _ _ j).trans (if_pos hj)
  · exact (tracked_removeOrder _ _ j).trans (if_neg hj)

theorem tracked_receiveStatus : (s.receiveStatus order (.report report)).tracked j =
    if j = order.clientOrderId then none else s.tracked j := by
  rw [receiveStatus, tracked, ← tracked_removeOrder]
  split_ifs
  · rw [ledger_refundUnfilled]
    exact tracked_applyReported ..
  · rw [ledger_refundUnfilled]
    rfl
  · rfl

end Answers

end LiveState

open LiveState

/-- The order at the exchange is the one that a plan asked for. -/
structure Placed (plan : OrderPlan) (price : ℚ) (found : ExchangeOrder) : Prop where
  params : orderParams plan = some found.params
  side : found.side = plan.side
  reference : found.reference = price

/-- The orders of a reconciliation, with the one it works on. -/
def Reconciliation.orders : Reconciliation → List TrackedOrder
  | .idle | .fetching .. => []
  | .canceling order rest | .canceled order rest _ | .asking order rest | .asked order rest _ =>
    order :: rest

/-- What the answer of a reconciliation says about its order. -/
def Reconciliation.Answered (exchange : String → Option ExchangeOrder) : Reconciliation → Prop
  | .canceled order _ (some report) =>
    report.status = .canceled ∧ Knows exchange order.clientOrderId report
  | .asked order _ (.report report) => Knows exchange order.clientOrderId report
  | .asked _ _ .notFound => False
  | _ => True

/-- The exchange knows all orders of the reconciliation, and what it answered was true. -/
structure Informed (exchange : String → Option ExchangeOrder) (r : Reconciliation) : Prop where
  known : ∀ order ∈ r.orders, ∃ found, exchange order.clientOrderId = some found
  answered : r.Answered exchange

/-- What holds of one order: `P` holds of its plan, nothing is tracked before the exchange
    has accepted it, and it is tracked as it was planned. -/
def OrderLinked (P : OrderPlan → ℚ → Prop) (id : String) (t : Option TrackedOrder)
    (found : Option ExchangeOrder) : Placement → Prop
  | .fresh => t = none ∧ found = none
  | .claiming plan price _ | .claimed plan price _ => t = none ∧ found = none ∧ P plan price
  | .sent plan price params =>
    t = none ∧ found = none ∧ P plan price ∧ orderParams plan = some params
  | .accepted plan price report =>
    t = none ∧ P plan price ∧ ∃ order, found = some order ∧ Placed plan price order ∧
      (report.status.final = true → order.report = report)
  | .failed plan => t = none ∧ ∃ price, P plan price
  | .done =>
    ∀ order, t = some order → ∃ plan price orderId now, P plan price ∧
      order = trackedOrder id plan price orderId now ∧
      ∃ accepted, found = some accepted ∧ Placed plan price accepted

/-- Every order and every reconciliation agrees with the exchange. -/
structure Linked (P : OrderPlan → ℚ → Prop) (s : LiveState) : Prop where
  order : ∀ id, OrderLinked P id (s.tracked id) (s.exchange id) (s.placements id)
  call : ∀ call, Informed s.exchange (s.reconciliations call)
  unissued : ∀ id, id ∉ s.issued → s.placements id = .fresh

section Order

variable {P : OrderPlan → ℚ → Prop} {id : String} {t : Option TrackedOrder}
  {found : Option ExchangeOrder} {placement : Placement}

theorem Placed.withReport {plan : OrderPlan} {price : ℚ} {order : ExchangeOrder}
    (h : Placed plan price order) (report : OrderReport) :
    Placed plan price (order.withReport report) :=
  ⟨h.params, h.side, h.reference⟩

/-- A tracked order belongs to a call that has ended. -/
theorem OrderLinked.done {order : TrackedOrder}
    (h : OrderLinked P id (some order) found placement) :
    placement = .done := by
  cases placement with
  | done => rfl
  | claiming plan price day | claimed plan price granted | sent plan price params
  | accepted plan price report =>
    cases h.1
  | fresh | failed plan => cases h.1

/-- The ledger may forget any order. -/
theorem OrderLinked.forget (h : OrderLinked P id t found placement) :
    OrderLinked P id none found placement := by
  cases placement with
  | done => exact nofun
  | claiming plan price day | claimed plan price granted | sent plan price params
  | accepted plan price report =>
    exact ⟨rfl, h.2⟩
  | fresh | failed plan => exact ⟨rfl, h.2⟩

/-- An order gets a new report, which differs from the old one only if that was not final. -/
theorem OrderLinked.report {order : ExchangeOrder}
    (h : OrderLinked P id t (some order) placement) {report : OrderReport}
    (hreport : order.report.status.final = true → report = order.report) :
    OrderLinked P id t (some (order.withReport report)) placement := by
  cases placement with
  | fresh => cases h.2
  | claiming plan price day | claimed plan price granted | sent plan price params => cases h.2.1
  | accepted plan price answer =>
    obtain ⟨htracked, hplan, accepted, haccepted, hplaced, hanswer⟩ := h
    cases haccepted
    refine ⟨htracked, hplan, _, rfl, hplaced.withReport report, fun hfinal => ?_⟩
    have hold := hanswer hfinal
    rw [← hold] at hfinal ⊢
    exact hreport hfinal
  | failed plan => exact h
  | done =>
    intro tracked htracked
    obtain ⟨plan, price, orderId, now, hplan, horder, accepted, haccepted, hplaced⟩ :=
      h tracked htracked
    cases haccepted
    exact ⟨plan, price, orderId, now, hplan, horder, _, rfl, hplaced.withReport report⟩

end Order

namespace Informed

variable {exchange after : String → Option ExchangeOrder} {r : Reconciliation}

theorem idle : Informed exchange .idle :=
  ⟨nofun, trivial⟩

theorem fetching (account : Option AccountAnswer) (openIds : Option (String → Bool)) :
    Informed exchange (.fetching account openIds) :=
  ⟨nofun, trivial⟩

/-- What a reconciliation knows stays true. -/
theorem forward (h : Informed exchange r) (hforward : Forward exchange after) :
    Informed after r := by
  constructor
  · intro order horder
    obtain ⟨found, hfound⟩ := h.known order horder
    obtain ⟨report, hreport, -⟩ := hforward _ found hfound
    exact ⟨_, hreport⟩
  · have hanswered := h.answered
    cases r with
    | canceled order rest answer =>
      cases answer with
      | none => trivial
      | some report => exact ⟨hanswered.1, hanswered.2.forward hforward⟩
    | asked order rest answer =>
      cases answer with
      | report report => exact Knows.forward hanswered hforward
      | notFound => exact hanswered
      | error => trivial
    | _ => trivial

end Informed

namespace Linked

variable {P : OrderPlan → ℚ → Prop} {s s' : LiveState} {id : String} {call : ℕ}

theorem order_of_placement (h : Linked P s) {placement : Placement}
    (hplacement : s.placements id = placement) :
    OrderLinked P id (s.tracked id) (s.exchange id) placement :=
  hplacement ▸ h.order id

theorem informed_of_call (h : Linked P s) {r : Reconciliation}
    (hcall : s.reconciliations call = r) :
    Informed s.exchange r :=
  hcall ▸ h.call call

/-- A call that is not fresh has been issued. -/
theorem issued (h : Linked P s) {placement : Placement} (hplacement : s.placements id = placement)
    (hfresh : placement ≠ .fresh) : id ∈ s.issued := by
  by_contra hid
  exact hfresh (hplacement.symm.trans (h.unissued id hid))

/-- A tracked order is one that the exchange knows, under its own id. -/
theorem known (h : Linked P s) {order : TrackedOrder} (htracked : s.tracked id = some order) :
    order.clientOrderId = id ∧ ∃ found, s.exchange id = some found := by
  have hlinked := h.order id
  rw [htracked] at hlinked
  rw [hlinked.done] at hlinked
  obtain ⟨plan, price, orderId, now, -, horder, found, hfound, -⟩ := hlinked order rfl
  exact ⟨by rw [horder]; rfl, found, hfound⟩

/-- The exchange knows the orders in the ledger. -/
theorem known_openOrders (h : Linked P s) {order : TrackedOrder}
    (horder : order ∈ s.ledger.openOrdersList) :
    ∃ found, s.exchange order.clientOrderId = some found := by
  obtain ⟨id, hid⟩ := (InsertionMap.mem_values_iff _ _).mp horder
  obtain ⟨hown, found, hfound⟩ := h.known hid
  exact ⟨found, by rw [hown]; exact hfound⟩

theorem setPlacement (h : Linked P s) {placement : Placement}
    (hplacement : OrderLinked P id (s.tracked id) (s.exchange id) placement)
    (hissued : id ∈ s.issued) : Linked P (s.setPlacement id placement) := by
  refine ⟨fun j => ?_, h.call, fun j hj => ?_⟩
  · change OrderLinked P j (s.tracked j) (s.exchange j)
      (Function.update s.placements id placement j)
    by_cases hne : j = id
    · subst hne
      rw [Function.update_self]
      exact hplacement
    · rw [Function.update_of_ne hne]
      exact h.order j
  · have hne : j ≠ id := by
      rintro rfl
      exact hj hissued
    exact (Function.update_of_ne hne _ _).trans (h.unissued j hj)

theorem goto (h : Linked P s) {r : Reconciliation} (hr : Informed s.exchange r) :
    Linked P (s.goto call r) := by
  refine ⟨h.order, ?_, h.unissued⟩
  exact forall_update (q := fun _ (t : Reconciliation) => Informed s.exchange t) hr
    fun d _ => h.call d

/-- The ledger changes, and at most forgets orders. -/
theorem setLedger (h : Linked P s) (horders : s'.placements = s.placements)
    (hexchange : s'.exchange = s.exchange) (hcalls : s'.reconciliations = s.reconciliations)
    (hissued : s'.issued = s.issued)
    (htracked : ∀ j, s'.tracked j = s.tracked j ∨ s'.tracked j = none) : Linked P s' := by
  refine ⟨fun j => ?_, ?_, ?_⟩
  · rw [horders, hexchange]
    rcases htracked j with hsame | hnone
    · rw [hsame]
      exact h.order j
    · rw [hnone]
      exact (h.order j).forget
  · rw [hexchange, hcalls]
    exact h.call
  · rw [horders, hissued]
    exact h.unissued

/-- An order that is not final gets a new report. -/
theorem setReport (h : Linked P s) {order : ExchangeOrder} (horder : s.exchange id = some order)
    (hopen : order.report.status.final = false) (report : OrderReport) :
    Linked P (s.setExchange id (order.withReport report)) := by
  refine ⟨fun j => ?_, fun c => ?_, h.unissued⟩
  · change OrderLinked P j (s.tracked j)
      (Function.update s.exchange id (some (order.withReport report)) j) (s.placements j)
    by_cases hne : j = id
    · subst hne
      rw [Function.update_self]
      have hlinked := h.order j
      rw [horder] at hlinked
      apply hlinked.report
      intro hfinal
      rw [hopen] at hfinal
      cases hfinal
    · rw [Function.update_of_ne hne]
      exact h.order j
  · exact (h.call c).forward (forward_report horder hopen report)

/-- The exchange accepts an order that was sent. -/
theorem accept (h : Linked P s) {plan : OrderPlan} {price : ℚ} {order : ExchangeOrder}
    (hnone : s.exchange id = none) (htracked : s.tracked id = none) (hplan : P plan price)
    (hplaced : Placed plan price order) (hissued : id ∈ s.issued) :
    Linked P ((s.setExchange id order).setPlacement id (.accepted plan price order.report)) := by
  refine ⟨fun j => ?_, fun c => ?_, fun j hj => ?_⟩
  · change OrderLinked P j (s.tracked j) (Function.update s.exchange id (some order) j)
      (Function.update s.placements id (.accepted plan price order.report) j)
    by_cases hne : j = id
    · subst hne
      rw [Function.update_self, Function.update_self]
      exact ⟨htracked, hplan, order, rfl, hplaced, fun _ => rfl⟩
    · rw [Function.update_of_ne hne, Function.update_of_ne hne]
      exact h.order j
  · exact (h.call c).forward (forward_accept hnone order)
  · have hne : j ≠ id := by
      rintro rfl
      exact hj hissued
    exact (Function.update_of_ne hne _ _).trans (h.unissued j hj)

theorem refundDailySpend (h : Linked P s) (id : String) (valueUsdt : ℚ) :
    Linked P (s.refundDailySpend id valueUsdt) := by
  rw [LiveState.refundDailySpend]
  split_ifs
  · exact h
  · exact ⟨h.order, h.call, h.unissued⟩

theorem refundUnfilled (h : Linked P s) (order : TrackedOrder) (filledQty : ℚ) :
    Linked P (s.refundUnfilled order filledQty) := by
  rw [LiveState.refundUnfilled]
  cases unfilledValue order filledQty with
  | none => exact h
  | some value => exact h.refundDailySpend _ value

theorem submit (h : Linked P s) {plan : OrderPlan} {price : ℚ} (htracked : s.tracked id = none)
    (hnone : s.exchange id = none) (hplan : P plan price) (hissued : id ∈ s.issued) :
    Linked P (s.submit id plan price) := by
  rw [LiveState.submit]
  cases hparams : orderParams plan with
  | none => exact h.setPlacement ⟨htracked, price, hplan⟩ hissued
  | some params => exact h.setPlacement ⟨htracked, hnone, hplan, hparams⟩ hissued

theorem place (h : Linked P s) (config : LiveConfig) {plan : OrderPlan} {price : ℚ}
    (hid : id ∉ s.issued) (hplan : P plan price) : Linked P (s.place config id plan price) := by
  obtain ⟨htracked, hnone⟩ := h.order_of_placement (h.unissued id hid)
  have hissued : Linked P { s with issued := insert id s.issued } :=
    ⟨h.order, h.call, fun j hj => h.unissued j fun hmem => hj (Finset.mem_insert_of_mem hmem)⟩
  have hmem : id ∈ insert id s.issued := Finset.mem_insert_self id s.issued
  rw [LiveState.place]
  cases plan.side with
  | sell => exact hissued.submit htracked hnone hplan hmem
  | buy =>
    have hclaimed : OrderLinked P id (s.tracked id) (s.exchange id) (.claimed plan price true) :=
      ⟨htracked, hnone, hplan⟩
    have hclaiming : OrderLinked P id (s.tracked id) (s.exchange id)
        (.claiming plan price (utcDate s.now)) :=
      ⟨htracked, hnone, hplan⟩
    dsimp only
    split_ifs
    · exact hissued.setPlacement hclaimed hmem
    · exact hissued.setPlacement hclaiming hmem

/-- A call moves on without a change of its order. -/
theorem move (h : Linked P s) {placement next : Placement}
    (hplacement : s.placements id = placement)
    (hfresh : placement ≠ .fresh)
    (hnext : OrderLinked P id (s.tracked id) (s.exchange id) placement →
      OrderLinked P id (s.tracked id) (s.exchange id) next) :
    Linked P (s.setPlacement id next) := by
  have hlinked := h.order_of_placement hplacement
  exact h.setPlacement (hnext hlinked) (h.issued hplacement hfresh)

theorem removeOrder (h : Linked P s) (id : String) : Linked P (s.removeOrder id) := by
  refine h.setLedger rfl rfl rfl rfl fun j => ?_
  rw [tracked_removeOrder]
  split_ifs
  · exact Or.inr rfl
  · exact Or.inl rfl

/-- The ledger begins to track an order that the exchange has accepted. -/
theorem recordOrder (h : Linked P s) {plan : OrderPlan} {price : ℚ} {report : OrderReport}
    (hplacement : s.placements id = .accepted plan price report) (orderId now : ℕ) :
    Linked P ({ s with
      ledger := s.ledger.recordOrder (trackedOrder id plan price orderId now)
      }.setPlacement id .done) := by
  have hissued : id ∈ s.issued := h.issued hplacement nofun
  refine ⟨fun j => ?_, h.call, fun j hj => ?_⟩
  · change OrderLinked P j
      ((s.ledger.openOrders.set id (trackedOrder id plan price orderId now)).get j)
      (s.exchange j) (Function.update s.placements id .done j)
    by_cases hne : j = id
    · subst hne
      obtain ⟨-, hplan, found, hfound, hplaced, -⟩ := h.order_of_placement hplacement
      rw [Function.update_self, InsertionMap.get_set_self]
      rintro _ ⟨⟩
      exact ⟨plan, price, orderId, now, hplan, rfl, found, hfound, hplaced⟩
    · rw [Function.update_of_ne hne, InsertionMap.get_set_of_ne _ _ hne]
      exact h.order j
  · have hne : j ≠ id := by
      rintro rfl
      exact hj hissued
    exact (Function.update_of_ne hne _ _).trans (h.unissued j hj)

/-- The call of a failed order refunds its claim and ends. -/
theorem giveUp (h : Linked P s) {plan : OrderPlan} (hplacement : s.placements id = .failed plan) :
    Linked P ((if plan.side = .buy then s.refundDailySpend id plan.valueUsdt else s).setPlacement id
      .done) := by
  have hlinked := h.order_of_placement hplacement
  have hdone : OrderLinked P id (s.tracked id) (s.exchange id) .done := by
    rw [hlinked.1]
    exact nofun
  split_ifs
  · apply (h.refundDailySpend id plan.valueUsdt).move
    · rw [placements_refundDailySpend, hplacement]
    · exact nofun
    · rw [tracked, ledger_refundDailySpend, exchange_refundDailySpend]
      exact fun _ => hdone
  · exact h.move hplacement nofun fun _ => hdone

theorem cancelLoop (h : Linked P s) {orders : List TrackedOrder}
    (hknown : ∀ order ∈ orders, ∃ found, s.exchange order.clientOrderId = some found) :
    Linked P (s.cancelLoop call orders) := by
  cases orders with
  | nil => exact h.goto (Informed.fetching none none)
  | cons order rest => exact h.goto ⟨hknown, trivial⟩

theorem statusLoop (h : Linked P s) {orders : List TrackedOrder}
    (hknown : ∀ order ∈ orders, ∃ found, s.exchange order.clientOrderId = some found) :
    Linked P (s.statusLoop call orders) := by
  cases orders with
  | nil => exact h.goto Informed.idle
  | cons order rest => exact h.goto ⟨hknown, trivial⟩

variable [CaseMapping]

theorem applyReported (h : Linked P s) (order : TrackedOrder) (report : OrderReport) :
    Linked P (s.applyReported order report) := by
  exact h.setLedger rfl rfl rfl rfl fun j => Or.inl (tracked_applyReported s order report j)

theorem receiveCanceled (h : Linked P s) (order : TrackedOrder) (report : OrderReport) :
    Linked P (s.receiveCanceled order report) := by
  rw [LiveState.receiveCanceled]
  split_ifs
  · exact ((h.applyReported order report).removeOrder _).refundUnfilled order _
  · exact (h.removeOrder _).refundUnfilled order _

theorem receiveStatus (h : Linked P s) (order : TrackedOrder) (answer : StatusAnswer) :
    Linked P (s.receiveStatus order answer) := by
  cases answer with
  | error => exact h
  | notFound => exact (h.removeOrder _).refundUnfilled order 0
  | report report =>
    have hremoved := h.removeOrder order.clientOrderId
    rw [LiveState.receiveStatus]
    split_ifs
    · exact (hremoved.applyReported order report).refundUnfilled order _
    · exact hremoved.refundUnfilled order 0
    · exact hremoved

/-- The answer to an order ends the call: its fill is applied, or it is tracked. -/
theorem receive (h : Linked P s) {plan : OrderPlan} {price : ℚ} {report : OrderReport}
    (hplacement : s.placements id = .accepted plan price report) :
    Linked P ((s.receive id plan price report).setPlacement id .done) := by
  rw [LiveState.receive]
  split_ifs
  · have hfill : Linked P { s with
        ledger := s.ledger.applyFill plan.symbol plan.side report.executedQty
          (report.cummulativeQuoteQty / report.executedQty)
        applied := Function.update s.applied id (s.applied id + report.executedQty) } := by
      refine h.setLedger rfl rfl rfl rfl fun j => Or.inl ?_
      exact congrArg (InsertionMap.get · j) (TradeLedger.openOrders_applyFill ..)
    refine hfill.move hplacement nofun fun hlinked order horder => ?_
    have hnone := hlinked.1
    rw [hnone] at horder
    cases horder
  · exact h.recordOrder hplacement report.orderId s.now

end Linked

/-- Every step keeps the orders linked, if the plans that calls bring along satisfy `P`. -/
theorem linked_step [CaseMapping] {P : OrderPlan → ℚ → Prop} {config : LiveConfig}
    {s s' : LiveState} {a : LiveAction} (h : Linked P s)
    (hplan : ∀ id plan price, a = .place id plan price → P plan price)
    (hstep : s.step config a = some s') : Linked P s' := by
  cases turn_of_step hstep with
  | @place id plan price hid => exact h.place config hid (hplan id plan price rfl)
  | @claim id plan price day counter granted hplacement hcounter =>
    have hclaimed : Linked P { s with
        counters := Function.update s.counters day counter
        claims := if granted then Function.update s.claims id (some (day, toCents plan.valueUsdt))
          else s.claims } :=
      ⟨h.order, h.call, h.unissued⟩
    exact hclaimed.move hplacement nofun fun hlinked => hlinked
  | claimFails hplacement => exact h.move hplacement nofun fun hlinked => hlinked
  | @accept id plan price params report hplacement hnone hfits =>
    obtain ⟨htracked, -, hP, hparams⟩ := h.order_of_placement hplacement
    apply h.accept hnone htracked hP ⟨hparams, rfl, rfl⟩
    exact h.issued hplacement nofun
  | refuse hplacement =>
    exact h.move hplacement nofun fun hlinked => ⟨hlinked.1, _, hlinked.2.2.1⟩
  | lose hplacement => exact h.move hplacement nofun fun hlinked => ⟨hlinked.1, _, hlinked.2.1⟩
  | @submit id plan price hplacement =>
    obtain ⟨htracked, hnone, hP⟩ := h.order_of_placement hplacement
    exact h.submit htracked hnone hP (h.issued hplacement nofun)
  | block hplacement =>
    refine h.move hplacement nofun fun hlinked => ?_
    rw [hlinked.1]
    exact nofun
  | receive hplacement => exact h.receive hplacement
  | giveUp hplacement => exact h.giveUp hplacement
  | refund hmem => exact ⟨h.order, h.call, h.unissued⟩
  | reconcile hstale =>
    exact h.cancelLoop fun order horder => h.known_openOrders (hstale order horder)
  | @cancel call answered order rest found answer hcall hfound hopen hanswer =>
    have hinformed := h.informed_of_call hcall
    have hreported : Linked P (s.setExchange order.clientOrderId found.cancel) :=
      h.setReport hfound hopen _
    have hself : (s.setExchange order.clientOrderId found.cancel).exchange order.clientOrderId =
        some found.cancel :=
      Function.update_self ..
    apply hreported.goto
    constructor
    · have hforward := hinformed.forward (forward_report hfound hopen found.cancel.report)
      exact hforward.known
    · cases answer with
      | none => trivial
      | some report =>
        cases hanswer report rfl
        exact ⟨rfl, knows_self hself⟩
  | @cancelRejected call answered order rest hcall =>
    have hinformed := h.informed_of_call hcall
    exact h.goto ⟨hinformed.known, trivial⟩
  | account => exact h.goto (Informed.fetching _ _)
  | openOrders => exact h.goto (Informed.fetching _ _)
  | @status call order rest found hcall hfound =>
    have hinformed := h.informed_of_call hcall
    exact h.goto ⟨hinformed.known, knows_self hfound⟩
  | @statusNotFound call order rest hcall hfound =>
    have hinformed := h.informed_of_call hcall
    obtain ⟨found, hsome⟩ := hinformed.known order List.mem_cons_self
    rw [hfound] at hsome
    cases hsome
  | @cancelFails call order rest hcall =>
    have hinformed := h.informed_of_call hcall
    exact h.goto ⟨hinformed.known, trivial⟩
  | fetchFails => exact h.goto Informed.idle
  | @statusFails call order rest hcall =>
    have hinformed := h.informed_of_call hcall
    exact h.goto ⟨hinformed.known, trivial⟩
  | @cancelSkipped call order rest hcall =>
    have hinformed := h.informed_of_call hcall
    exact h.cancelLoop fun other hother => hinformed.known other (List.mem_cons_of_mem order hother)
  | @canceled call order rest report hcall =>
    have hinformed := h.informed_of_call hcall
    apply (h.receiveCanceled order report).cancelLoop
    rw [exchange_receiveCanceled]
    exact fun other hother => hinformed.known other (List.mem_cons_of_mem order hother)
  | @fetched call positions gone hgone =>
    have hreconciled : Linked P { s with ledger := s.ledger.reconcilePositions positions } := by
      refine h.setLedger rfl rfl rfl rfl fun j => Or.inl ?_
      exact congrArg (InsertionMap.get · j) (TradeLedger.openOrders_reconcilePositions ..)
    apply hreconciled.statusLoop
    exact fun order horder => h.known_openOrders (hgone order horder)
  | @asked call order rest answer hcall =>
    have hinformed := h.informed_of_call hcall
    apply (h.receiveStatus order answer).statusLoop
    rw [exchange_receiveStatus]
    exact fun other hother => hinformed.known other (List.mem_cons_of_mem order hother)
  | evolve hfound hadmits => exact h.setReport hfound hadmits.1 _
  | tick hintime => exact ⟨h.order, h.call, h.unissued⟩

/-- A bot that tracks no order yet. -/
theorem linked_start {P : OrderPlan → ℚ → Prop} {ledger : TradeLedger}
    (h : ∀ id, ledger.openOrders.get id = none) : Linked P (start ledger) :=
  ⟨fun id => ⟨h id, rfl⟩, fun _ => Informed.idle, fun _ _ => rfl⟩

end BotHive.Crypto
