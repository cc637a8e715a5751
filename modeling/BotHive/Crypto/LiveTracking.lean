import BotHive.Crypto.LiveOrders

/-!
# Tracking live orders

Fills reach the ledger by three routes: the answer to the placement, the answer to a
cancellation, and the status of an order that is no longer open. When no call is under
way, the ledger should track every order that is open, and what it has applied for a
final order that it no longer tracks should be what the exchange has executed.

## Main definitions

- `OrdersTracked`: the two properties
- `KeepsTrack`: the steps that lose no order and no fill
- `Counted`: what has been applied for each order

## Main results

- `counted_step`: what one step preserves
- `ordersTracked_of_keepsTrack`: along runs of such steps all orders are tracked
-/

namespace BotHive.Crypto

open LiveState

/-- No call is under way. -/
def LiveState.Quiet (s : LiveState) : Prop :=
  (∀ id, s.placements id = .fresh ∨ s.placements id = .done) ∧
    ∀ call, s.reconciliations call = .idle

/-- What the exchange holds open is tracked, and what is final and no longer tracked has
    been applied. -/
structure OrdersTracked (s : LiveState) : Prop where
  opened : ∀ id order, s.exchange id = some order → order.report.status.final = false →
    (s.tracked id).isSome
  closed : ∀ id order, s.exchange id = some order → order.report.status.final = true →
    s.tracked id = none → s.applied id = order.report.executedQty

/-- Whenever no call is under way, the orders are tracked. -/
def TrackedAtRest (s : LiveState) : Prop :=
  s.Quiet → OrdersTracked s

/-- The report of a tracked order that its `receiveStatus` handles in full. -/
def OrderReport.Resolved (report : OrderReport) : Prop :=
  report.status = .filled ∨ report.status.final = true ∧ report.executedQty = 0

/-- The step loses no answer to an accepted order, receives no partial fill from a
    placement, and acts on an order that left the open list, or on a cancellation, only
    while the order is tracked, and in the first case only if it is resolved. -/
def KeepsTrack (s : LiveState) : LiveAction → Prop
  | .lose _ => False
  | .proceed id => ∀ plan price report, s.placements id = .accepted plan price report →
    report.status = .partiallyFilled → report.executedQty = 0
  | .resume call =>
    match s.reconciliations call with
    | .canceled order _ (some _) => s.tracked order.clientOrderId = some order
    | .asked order _ (.report report) =>
      s.tracked order.clientOrderId = some order ∧ report.Resolved
    | _ => True
  | _ => True

/-- What has been applied for one order. -/
def OrderCounted (t : Option TrackedOrder) (found : Option ExchangeOrder) (applied : ℚ) :
    Placement → Prop
  | .done =>
    match t with
    | some _ => applied = 0
    | none => ∀ order, found = some order → order.report.status.final = true ∧
      applied = order.report.executedQty
  | .failed _ => applied = 0 ∧ found = none
  | _ => applied = 0

def Counted (s : LiveState) : Prop :=
  ∀ id, OrderCounted (s.tracked id) (s.exchange id) (s.applied id) (s.placements id)

/-- A linked and counted bot tracks its orders when it rests. -/
theorem Counted.trackedAtRest {P : OrderPlan → ℚ → Prop} {s : LiveState} (h : Counted s)
    (hlinked : Linked P s) : TrackedAtRest s := by
  rintro ⟨hplacements, -⟩
  have hdone : ∀ id order, s.exchange id = some order → s.placements id = .done := by
    intro id order hfound
    rcases hplacements id with hfresh | hdone
    · have hnone := hlinked.order_of_placement hfresh
      rw [hnone.2] at hfound
      cases hfound
    · exact hdone
  constructor
  · intro id order hfound hopen
    have hcounted := h id
    rw [hdone id order hfound] at hcounted
    cases htracked : s.tracked id with
    | some tracked => rfl
    | none =>
      rw [htracked] at hcounted
      rw [(hcounted order hfound).1] at hopen
      cases hopen
  · intro id order hfound _ htracked
    have hcounted := h id
    rw [hdone id order hfound, htracked] at hcounted
    exact (hcounted order hfound).2

namespace Counted

variable {s s' : LiveState} {id : String}

theorem of_placement (h : Counted s) {placement : Placement}
    (hplacement : s.placements id = placement) :
    OrderCounted (s.tracked id) (s.exchange id) (s.applied id) placement :=
  hplacement ▸ h id

/-- A step about one order. -/
theorem of_order (h : Counted s) (id : String)
    (hself : OrderCounted (s'.tracked id) (s'.exchange id) (s'.applied id) (s'.placements id))
    (hother : ∀ j, j ≠ id → s'.tracked j = s.tracked j ∧ s'.exchange j = s.exchange j ∧
      s'.applied j = s.applied j ∧ s'.placements j = s.placements j) : Counted s' := by
  intro j
  by_cases hne : j = id
  · subst hne
    exact hself
  · obtain ⟨htracked, hexchange, happlied, hplacements⟩ := hother j hne
    rw [htracked, hexchange, happlied, hplacements]
    exact h j

theorem setPlacement (h : Counted s) (id : String) (placement : Placement)
    (hplacement : OrderCounted (s.tracked id) (s.exchange id) (s.applied id) placement) :
    Counted (s.setPlacement id placement) := by
  apply of_order h id
  · change OrderCounted (s.tracked id) (s.exchange id) (s.applied id)
      (Function.update s.placements id placement id)
    rw [Function.update_self]
    exact hplacement
  · exact fun j hne => ⟨rfl, rfl, rfl, Function.update_of_ne hne _ _⟩

theorem submit (h : Counted s) {plan : OrderPlan} {price : ℚ} (hnone : s.exchange id = none)
    (happlied : s.applied id = 0) : Counted (s.submit id plan price) := by
  rw [LiveState.submit]
  cases orderParams plan with
  | none => exact h.setPlacement id _ ⟨happlied, hnone⟩
  | some params => exact h.setPlacement id (.sent plan price params) happlied

theorem place (h : Counted s) (config : LiveConfig) {plan : OrderPlan} {price : ℚ}
    (hnone : s.exchange id = none) (happlied : s.applied id = 0) :
    Counted (s.place config id plan price) := by
  have hissued : Counted { s with issued := insert id s.issued } := h
  rw [LiveState.place]
  cases plan.side with
  | sell => exact hissued.submit hnone happlied
  | buy =>
    dsimp only
    split_ifs
    · exact hissued.setPlacement id (.claimed plan price true) happlied
    · exact hissued.setPlacement id (.claiming plan price _) happlied

theorem cancelLoop (h : Counted s) (call : ℕ) (orders : List TrackedOrder) :
    Counted (s.cancelLoop call orders) := by
  cases orders <;> exact h

theorem statusLoop (h : Counted s) (call : ℕ) (orders : List TrackedOrder) :
    Counted (s.statusLoop call orders) := by
  cases orders <;> exact h

/-- A call without an order at the exchange ends. -/
theorem finish (h : Counted s) (hnone : s.exchange id = none) (htracked : s.tracked id = none) :
    Counted (s.setPlacement id .done) := by
  apply h.setPlacement
  rw [htracked, hnone]
  rintro _ ⟨⟩

/-- An order that is not final gets a new report. -/
theorem setReport (h : Counted s) {order : ExchangeOrder} (horder : s.exchange id = some order)
    (hopen : order.report.status.final = false) (report : OrderReport) :
    Counted (s.setExchange id (order.withReport report)) := by
  have hcounted := h id
  rw [horder] at hcounted
  apply of_order h id
  · change OrderCounted (s.tracked id)
      (Function.update s.exchange id (some (order.withReport report)) id) (s.applied id)
      (s.placements id)
    rw [Function.update_self]
    cases hplacement : s.placements id with
    | done =>
      rw [hplacement] at hcounted
      cases htracked : s.tracked id with
      | some tracked =>
        rw [htracked] at hcounted
        exact hcounted
      | none =>
        -- an order that is done with and not tracked is final
        rw [htracked] at hcounted
        rw [(hcounted order rfl).1] at hopen
        cases hopen
    | failed plan =>
      rw [hplacement] at hcounted
      cases hcounted.2
    | _ =>
      rw [hplacement] at hcounted
      exact hcounted
  · exact fun j hne => ⟨rfl, Function.update_of_ne hne _ _, rfl, rfl⟩

variable {P : OrderPlan → ℚ → Prop}

/-- A tracked order that is final leaves the ledger with its executed quantity applied. -/
theorem settle (h : Counted s) (hlinked : Linked P s) {order : TrackedOrder}
    (htracked : s.tracked order.clientOrderId = some order) {found : ExchangeOrder}
    (hfound : s.exchange order.clientOrderId = some found)
    (hfinal : found.report.status.final = true) (hexchange : s'.exchange = s.exchange)
    (hplacements : s'.placements = s.placements)
    (hforgets : ∀ j, s'.tracked j = if j = order.clientOrderId then none else s.tracked j)
    (happlied : s'.applied = Function.update s.applied order.clientOrderId
      (s.applied order.clientOrderId + found.report.executedQty)) : Counted s' := by
  have hcounted := h order.clientOrderId
  have hlink := hlinked.order order.clientOrderId
  rw [htracked] at hcounted hlink
  rw [hlink.done] at hcounted
  have hzero : s.applied order.clientOrderId = 0 := hcounted
  apply of_order h order.clientOrderId
  · rw [hforgets, if_pos rfl, hexchange, hfound, hplacements, hlink.done, happlied,
      Function.update_self, hzero, zero_add]
    rintro _ ⟨⟩
    exact ⟨hfinal, rfl⟩
  · intro j hne
    rw [hforgets, if_neg hne, hexchange, hplacements, happlied, Function.update_of_ne hne]
    exact ⟨rfl, rfl, rfl, rfl⟩

variable [CaseMapping]

/-- The answer to a placement, with no partial fill, ends its call. -/
theorem receive (h : Counted s) (hlinked : Linked P s) {plan : OrderPlan} {price : ℚ}
    {report : OrderReport} (hplacement : s.placements id = .accepted plan price report)
    (hok : report.status = .partiallyFilled → report.executedQty = 0) :
    Counted ((s.receive id plan price report).setPlacement id .done) := by
  have happlied : s.applied id = 0 := h.of_placement hplacement
  obtain ⟨htracked, -, found, hfound, -, hreport⟩ := hlinked.order_of_placement hplacement
  rw [LiveState.receive]
  split_ifs with hfill
  · -- a fill that is applied at once is the whole order
    have hfilled : report.status = .filled := by
      rcases hfill.2 with hfilled | hpartial
      · exact hfilled
      · exact absurd (hok hpartial) hfill.1.ne'
    have hfinal : report.status.final = true := by rw [hfilled]; rfl
    apply of_order h id
    · change OrderCounted
        ((s.ledger.applyFill plan.symbol plan.side report.executedQty
          (report.cummulativeQuoteQty / report.executedQty)).openOrders.get id)
        (s.exchange id) (Function.update s.applied id (s.applied id + report.executedQty) id)
        (Function.update s.placements id .done id)
      rw [TradeLedger.openOrders_applyFill, ← tracked, htracked, Function.update_self,
        Function.update_self, happlied, zero_add, hfound]
      rintro _ ⟨⟩
      rw [hreport hfinal]
      exact ⟨hfinal, rfl⟩
    · intro j hne
      refine ⟨?_, rfl, Function.update_of_ne hne _ _, Function.update_of_ne hne _ _⟩
      exact congrArg (InsertionMap.get · j) (TradeLedger.openOrders_applyFill ..)
  · apply of_order h id
    · change OrderCounted
        ((s.ledger.openOrders.set id (trackedOrder id plan price report.orderId s.now)).get id)
        (s.exchange id) (s.applied id) (Function.update s.placements id .done id)
      rw [Function.update_self, InsertionMap.get_set_self]
      exact happlied
    · intro j hne
      exact ⟨InsertionMap.get_set_of_ne _ _ hne, rfl, rfl, Function.update_of_ne hne _ _⟩

end Counted

/-- A step that keeps track of the orders keeps them counted. -/
theorem counted_step [CaseMapping] {P : OrderPlan → ℚ → Prop} {config : LiveConfig}
    {s s' : LiveState} {a : LiveAction} (h : Counted s) (hlinked : Linked P s)
    (hok : KeepsTrack s a) (hstep : s.step config a = some s') : Counted s' := by
  cases turn_of_step hstep with
  | @place id plan price hid =>
    have hcounted := h.of_placement (hlinked.unissued id hid)
    have horder := hlinked.order_of_placement (hlinked.unissued id hid)
    exact h.place config horder.2 hcounted
  | @claim id plan price day counter granted hplacement hcounter =>
    have hcounted := h.of_placement hplacement
    have hclaimed : Counted { s with
        counters := Function.update s.counters day counter
        claims := if granted then Function.update s.claims id (some (day, toCents plan.valueUsdt))
          else s.claims } := h
    exact hclaimed.setPlacement id (.claimed plan price granted) hcounted
  | @claimFails id plan price day hplacement =>
    have hcounted := h.of_placement hplacement
    exact h.setPlacement id (.claimed plan price true) hcounted
  | @accept id plan price params report hplacement hnone hfits =>
    have hcounted := h.of_placement hplacement
    apply Counted.of_order h id
    · change OrderCounted (s.tracked id) _ (s.applied id)
        (Function.update s.placements id (.accepted plan price report) id)
      rw [Function.update_self]
      exact hcounted
    · exact fun j hne =>
        ⟨rfl, Function.update_of_ne hne _ _, rfl, Function.update_of_ne hne _ _⟩
  | @refuse id plan price params hplacement =>
    have hcounted := h.of_placement hplacement
    have horder := hlinked.order_of_placement hplacement
    exact h.setPlacement id _ ⟨hcounted, horder.2.1⟩
  | lose hplacement => exact hok.elim
  | @submit id plan price hplacement =>
    have hcounted := h.of_placement hplacement
    have horder := hlinked.order_of_placement hplacement
    exact h.submit horder.2.1 hcounted
  | @block id plan price hplacement =>
    have horder := hlinked.order_of_placement hplacement
    exact h.finish horder.2.1 horder.1
  | @receive id plan price report hplacement =>
    exact h.receive hlinked hplacement (hok plan price report hplacement)
  | @giveUp id plan hplacement =>
    have hcounted := h.of_placement hplacement
    have horder := hlinked.order_of_placement hplacement
    split_ifs
    · rw [refundDailySpend]
      split_ifs
      · exact h.finish hcounted.2 horder.1
      · have hrefunded : Counted { s with
            refunds := { day := utcDate s.now, cents := toCents plan.valueUsdt } :: s.refunds
            refunded := Function.update s.refunded id
              (s.refunded id + toCents plan.valueUsdt) } := h
        exact hrefunded.finish hcounted.2 horder.1
    · exact h.finish hcounted.2 horder.1
  | refund hmem => exact h
  | reconcile hstale => exact h.cancelLoop _ _
  | @cancel call answered order rest found answer hcall hfound hopen hanswer =>
    have hreported : Counted (s.setExchange order.clientOrderId found.cancel) :=
      h.setReport hfound hopen _
    exact hreported
  | cancelRejected hcall => exact h
  | account => exact h
  | openOrders => exact h
  | status hcall hfound => exact h
  | statusNotFound hcall hfound => exact h
  | cancelFails hcall => exact h
  | fetchFails => exact h
  | statusFails hcall => exact h
  | cancelSkipped hcall => exact h.cancelLoop _ _
  | @canceled call order rest report hcall =>
    have hinformed := hlinked.informed_of_call hcall
    obtain ⟨hcanceled, found, hfound, hreport⟩ := hinformed.answered
    have hfinal : report.status.final = true := by rw [hcanceled]; rfl
    have htracked : s.tracked order.clientOrderId = some order := by
      rw [KeepsTrack, hcall] at hok
      exact hok
    have hsettled : Counted (s.receiveCanceled order report) := by
      apply h.settle hlinked htracked hfound
      · rw [hreport hfinal]
        exact hfinal
      · exact exchange_receiveCanceled s order report
      · exact placements_receiveCanceled s order report
      · exact tracked_receiveCanceled s order report
      · rw [hreport hfinal]
        exact applied_receiveCanceled s order report
    exact hsettled.cancelLoop call rest
  | @fetched call positions gone hgone =>
    have hreconciled : Counted { s with ledger := s.ledger.reconcilePositions positions } := by
      intro id
      have hcounted := h id
      rwa [tracked, ← TradeLedger.openOrders_reconcilePositions] at hcounted
    exact hreconciled.statusLoop call gone
  | @asked call order rest answer hcall =>
    have hinformed := hlinked.informed_of_call hcall
    have hsettled : Counted (s.receiveStatus order answer) := by
      cases answer with
      | error => exact h
      | notFound => exact hinformed.answered.elim
      | report report =>
        obtain ⟨found, hfound, hreport⟩ := hinformed.answered
        rw [KeepsTrack, hcall] at hok
        obtain ⟨htracked, hresolved⟩ := hok
        have hfinal : report.status.final = true := by
          rcases hresolved with hfilled | ⟨hfinal, -⟩
          · rw [hfilled]
            rfl
          · exact hfinal
        apply h.settle hlinked htracked hfound
        · rw [hreport hfinal]
          exact hfinal
        · exact exchange_receiveStatus s order _
        · exact placements_receiveStatus s order _
        · exact tracked_receiveStatus s order report
        · rw [hreport hfinal, applied_receiveStatus]
          split_ifs with hfill
          · rfl
          · -- canceled or expired with nothing executed: nothing is applied
            have hzero : report.executedQty = 0 := by
              rcases hresolved with hfilled | ⟨-, hzero⟩
              · exact absurd (Or.inl hfilled) hfill
              · exact hzero
            rw [hzero, add_zero, Function.update_eq_self]
    exact hsettled.statusLoop call rest
  | evolve hfound hadmits => exact h.setReport hfound hadmits.1 _
  | tick hintime => exact h

/-- **Live order tracking**: from a ledger without open orders, along every run whose
    steps keep track of the orders, they are tracked whenever no call is under way. -/
theorem ordersTracked_of_keepsTrack [CaseMapping] (config : LiveConfig) (ledger : TradeLedger)
    (hledger : ∀ id, ledger.openOrders.get id = none) (as : List LiveAction)
    (hok : Machine.Along (LiveState.step config) KeepsTrack (start ledger) as) :
    Machine.Everywhere (LiveState.step config) TrackedAtRest (start ledger) as := by
  have hstart : Linked (fun _ _ => True) (start ledger) ∧ Counted (start ledger) :=
    ⟨linked_start hledger, fun _ => rfl⟩
  refine Machine.everywhere_of_invariant (fun s => Linked (fun _ _ => True) s ∧ Counted s)
    TrackedAtRest (fun s a s' h hok hstep => ?_) (fun s h => h.2.trackedAtRest h.1) hstart hok
  exact ⟨linked_step h.1 (fun _ _ _ _ => trivial) hstep, counted_step h.2 h.1 hok hstep⟩

/-- A bot on one symbol, without a daily cap and without a time limit for orders. -/
def plainConfig : LiveConfig where
  symbols := ["BTCUSDT"]
  orderTtlMs := 0
  maxDailyOrderValueUsdt := 0

/-- A sell of two coins at a limit of 100. -/
def sellTwo : OrderPlan where
  symbol := "BTCUSDT"
  side := .sell
  type := .limit
  quantity := some 2
  quoteOrderQty := none
  price := some 100
  valueUsdt := 200

/-- One of the two coins is sold, and the order is still open. -/
def oneOfTwoSold : OrderReport where
  orderId := 1
  price := 100
  status := .partiallyFilled
  executedQty := 1
  cummulativeQuoteQty := 100
  executed_nonneg := OrderReport.one_nonneg
  quote_nonneg := OrderReport.hundred_nonneg
  quote_eq_zero := OrderReport.hundred_eq_zero

def bothSold : OrderReport where
  orderId := 1
  price := 100
  status := .filled
  executedQty := 2
  cummulativeQuoteQty := 200
  executed_nonneg := by decide
  quote_nonneg := by decide
  quote_eq_zero := by decide

/-- The exchange fills an order at once, and a reconciliation follows a minute later. -/
theorem ordersTracked_of_filled_sell :
    Machine.Everywhere (LiveState.step plainConfig) TrackedAtRest (start .empty)
      [.place "a" sellTwo 100, .accept "a" bothSold, .proceed "a", .tick 60000, .reconcile 0,
        .openOrders 0, .account 0 ⟨[], List.nodup_nil⟩, .resume 0] := by
  apply ordersTracked_of_keepsTrack
  · exact fun _ => rfl
  intro s1 _
  refine ⟨trivial, fun s2 h2 => ⟨trivial, fun s3 _ => ⟨?_, ?_⟩⟩⟩
  · rintro plan price report hplacement hpartial
    cases turn_of_step h2 with
    | accept hsent hnone hfits =>
      rw [placements_setPlacement] at hplacement
      cases hplacement
      cases hpartial
  intro s4 _
  refine ⟨trivial, fun s5 _ => ⟨trivial, fun s6 _ => ⟨trivial, fun s7 h7 => ⟨trivial, ?_⟩⟩⟩⟩
  intro s8 _
  refine ⟨?_, trivial⟩
  cases turn_of_step h7
  rw [KeepsTrack, reconciliations_goto]
  trivial

/-- The exchange fills half of a limit order at once: the half is applied, and nobody
    tracks the order, which is still open. -/
theorem ordersTracked_fails_on_partial_placement :
    ∃ s, Machine.exec (LiveState.step plainConfig) (start .empty)
        [.place "a" sellTwo 100, .accept "a" oneOfTwoSold, .proceed "a"] = some s ∧
      ¬ TrackedAtRest s := by
  have hparams : orderParams sellTwo = some (.limit 100 2) := by decide +kernel
  have hplace : (start .empty).step plainConfig (.place "a" sellTwo 100) =
      some ({ start .empty with issued := {"a"} }.setPlacement "a"
        (.sent sellTwo 100 (.limit 100 2))) := by
    change some (submit { start .empty with issued := {"a"} } "a" sellTwo 100) = _
    rw [submit, hparams]
  have hfits : ExchangeOrder.Fits (.limit 100 2) oneOfTwoSold := by decide
  have hproceed (s : LiveState) :
      (s.setPlacement "a" (.accepted sellTwo 100 oneOfTwoSold)).step plainConfig (.proceed "a") =
        some (((s.setPlacement "a" (.accepted sellTwo 100 oneOfTwoSold)).receive "a" sellTwo 100
          oneOfTwoSold).setPlacement "a" .done) := by
    rw [step, proceed, placements_setPlacement]
  rw [Machine.exec_cons, hplace, Option.bind_some, Machine.exec_cons,
    step_accept (placements_setPlacement ..) rfl hfits, Option.bind_some, Machine.exec_cons,
    hproceed, Option.bind_some, Machine.exec_nil]
  refine ⟨_, rfl, fun h => ?_⟩
  have hfill : 0 < oneOfTwoSold.executedQty ∧
      (oneOfTwoSold.status = .filled ∨ oneOfTwoSold.status = .partiallyFilled) :=
    ⟨by decide, Or.inr rfl⟩
  rw [receive, if_pos hfill] at h
  have htracked := (h ⟨fun id => ?_, fun _ => rfl⟩).opened "a" _ rfl rfl
  · rw [tracked] at htracked
    change ((TradeLedger.applyFill _ _ _ _ _).openOrders.get "a").isSome = true at htracked
    rw [TradeLedger.openOrders_applyFill] at htracked
    cases htracked
  · by_cases hid : id = "a"
    · exact Or.inr (by rw [hid]; rfl)
    · exact Or.inl (by simp [setPlacement, setExchange, start, hid])

end BotHive.Crypto
