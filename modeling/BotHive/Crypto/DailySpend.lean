import BotHive.Crypto.SpendCounters

/-!
# The daily spend cap

Every step that claims what it spends and refunds only what its order never spent keeps
the counters of all days sound, so the cap holds along every run of such steps. A buy
whose answer is lost is refunded although it was filled, and the same amount is spent
again.

## Main results

- `spent_step`: what one step preserves
- `withinDailyCap_of_refundsUnspent`: along runs of such steps the cap holds
-/

namespace BotHive.Crypto

open LiveState

/-- An order that the exchange does not know may be refunded up to its claim. -/
theorem claimed_of_unplaced {day : ℕ} {cents refunded : ℤ} (hone : 1 ≤ cents)
    (hle : refunded ≤ cents) : Claimed none (some (day, cents)) refunded := by
  constructor
  · rintro _ ⟨⟩
  · rintro _ ⟨⟩
  · rintro - _ _ ⟨⟩
    exact hle
  · rintro _ _ ⟨⟩
    exact hone

/-- An open order gets a new report. -/
theorem Claimed.report {order : ExchangeOrder} {claim : Option (ℕ × ℤ)} {refunded : ℤ}
    (h : Claimed (some order) claim refunded) (hopen : order.report.status.final = false)
    {report : OrderReport}
    (hfits : ExchangeOrder.Fits order.params order.report →
      ExchangeOrder.Fits order.params report) :
    Claimed (some (order.withReport report)) claim refunded := by
  constructor
  · rintro _ ⟨⟩ hbuy
    obtain ⟨hparams, hold, cents, hclaim, hcover, hrefund⟩ := h.buy order rfl hbuy
    refine ⟨hparams, hfits hold, cents, hclaim, hcover, fun hne => ?_⟩
    rw [(hrefund hne).1] at hopen
    cases hopen
  · rintro _ ⟨⟩ hsell
    exact h.sell order rfl hsell
  · rintro ⟨⟩
  · exact h.positive

theorem Claimed.refund {order : ExchangeOrder} {claim : Option (ℕ × ℤ)} {refunded refunded' : ℤ}
    (h : Claimed (some order) claim refunded) (hside : order.side = .buy)
    (hbacked : Backed order claim refunded') : Claimed (some order) claim refunded' := by
  constructor
  · rintro _ ⟨⟩ -
    exact hbacked
  · rintro _ ⟨⟩ hsell
    rw [hside] at hsell
    cases hsell
  · rintro ⟨⟩
  · exact h.positive

/-- The rest of a final order is refunded, by what its executed quantity leaves over. -/
theorem Backed.refund {order : ExchangeOrder} {claim : Option (ℕ × ℤ)} {plan : OrderPlan}
    {price : ℚ} {id : String} {orderId now : ℕ} {value : ℚ} (h : Backed order claim 0)
    (hplaced : Placed plan price order) (hparams : BuyParams plan order.params)
    (hfinal : order.report.status.final = true)
    (hmarket : plan.type = .market →
      order.report.cummulativeQuoteQty ≤ order.report.executedQty * order.reference)
    (hvalue : unfilledValue (trackedOrder id plan price orderId now) order.report.executedQty =
      some value) : Backed order claim (toCents value) := by
  obtain ⟨hplan, hfits, cents, hclaim, hcover, -⟩ := h
  refine ⟨hplan, hfits, cents, hclaim, hcover, fun _ => ⟨hfinal, ?_⟩⟩
  obtain ⟨hrest, hcent⟩ := unfilledValue_trackedOrder hparams hvalue
  have hround := toCents_le hcent
  have hfilled := ExchangeOrder.filledValue_le_valueAt hparams hmarket
  rw [ExchangeOrder.value, hplaced.reference] at hcover
  rw [hplaced.reference] at hfilled
  linarith

section Order

variable {t : Option TrackedOrder} {found : Option ExchangeOrder} {claim : Option (ℕ × ℤ)}
  {refunded : ℤ} {placement : Placement}

theorem OrderSpent.report {order : ExchangeOrder}
    (h : OrderSpent t (some order) claim refunded placement) (report : OrderReport) :
    OrderSpent t (some (order.withReport report)) claim refunded placement := by
  cases placement with
  | failed plan =>
    refine ⟨h.1, h.2.1, fun hbuy => ?_⟩
    cases h.2.2 hbuy
  | _ => exact h

theorem OrderSpent.forget (h : OrderSpent t found claim refunded placement) :
    OrderSpent none found claim refunded placement := by
  cases placement with
  | done => exact fun hne => absurd rfl hne
  | _ => exact h

end Order

namespace Spent

variable {config : LiveConfig} {s s' : LiveState} {id : String} {call : ℕ}

theorem order_of_placement (h : Spent config s) {placement : Placement}
    (hplacement : s.placements id = placement) :
    OrderSpent (s.tracked id) (s.exchange id) (s.claims id) (s.refunded id) placement :=
  hplacement ▸ h.order id

/-- A step about one order that neither claims nor refunds. -/
theorem of_order (h : Spent config s) (id : String) (hsame : SameSpend s s')
    (hclaimed : Claimed (s'.exchange id) (s.claims id) (s.refunded id))
    (horder : OrderSpent (s'.tracked id) (s'.exchange id) (s.claims id) (s.refunded id)
      (s'.placements id))
    (hclaiming : ∀ plan price day, s'.placements id = .claiming plan price day →
      DuringDay day s.now)
    (hother : ∀ j, j ≠ id → s'.tracked j = s.tracked j ∧ s'.exchange j = s.exchange j ∧
      s'.placements j = s.placements j) : Spent config s' := by
  refine ⟨fun j => ?_, fun j => ?_, fun day => (h.day day).of_sameSpend hsame, ?_, ?_⟩
  · rw [hsame.claims, hsame.refunded]
    by_cases hne : j = id
    · subst hne
      exact hclaimed
    · rw [(hother j hne).2.1]
      exact h.claimed j
  · rw [hsame.claims, hsame.refunded]
    by_cases hne : j = id
    · subst hne
      exact horder
    · obtain ⟨htracked, hexchange, hplacements⟩ := hother j hne
      rw [htracked, hexchange, hplacements]
      exact h.order j
  · intro j plan price day hj
    rw [hsame.now]
    by_cases hne : j = id
    · subst hne
      exact hclaiming plan price day hj
    · rw [(hother j hne).2.2] at hj
      exact h.claiming j plan price day hj
  · rw [hsame.refunds, hsame.now]
    exact h.refund

/-- A step that changes no order. -/
theorem of_sameOrders (h : Spent config s) (hsame : SameSpend s s')
    (htracked : ∀ j, s'.tracked j = s.tracked j) (hexchange : s'.exchange = s.exchange)
    (hplacements : s'.placements = s.placements) : Spent config s' := by
  apply h.of_order "" hsame
  · rw [hexchange]
    exact h.claimed _
  · rw [htracked, hexchange, hplacements]
    exact h.order _
  · rw [hplacements]
    exact h.claiming _
  · exact fun j _ => ⟨htracked j, congrFun hexchange j, congrFun hplacements j⟩

theorem setPlacement (h : Spent config s) {placement : Placement}
    (horder : OrderSpent (s.tracked id) (s.exchange id) (s.claims id) (s.refunded id) placement)
    (hclaiming : ∀ plan price day, placement = .claiming plan price day → DuringDay day s.now) :
    Spent config (s.setPlacement id placement) := by
  have hsame : SameSpend s (s.setPlacement id placement) := ⟨rfl, rfl, rfl, rfl, rfl, rfl⟩
  apply h.of_order id hsame
  · exact h.claimed id
  · rw [placements_setPlacement]
    exact horder
  · rw [placements_setPlacement]
    exact hclaiming
  · exact fun j hne => ⟨rfl, rfl, Function.update_of_ne hne _ _⟩

theorem goto (h : Spent config s) (r : Reconciliation) : Spent config (s.goto call r) :=
  h.of_sameOrders ⟨rfl, rfl, rfl, rfl, rfl, rfl⟩ (fun _ => rfl) rfl rfl

theorem cancelLoop (h : Spent config s) (orders : List TrackedOrder) :
    Spent config (s.cancelLoop call orders) := by
  cases orders <;> exact h.goto _

theorem statusLoop (h : Spent config s) (orders : List TrackedOrder) :
    Spent config (s.statusLoop call orders) := by
  cases orders <;> exact h.goto _

theorem submit (h : Spent config s) {plan : OrderPlan} {price : ℚ} (hnone : s.exchange id = none)
    (hrefunded : s.refunded id = 0) (hclaim : ClaimOf plan (s.claims id)) :
    Spent config (s.submit id plan price) := by
  rw [LiveState.submit]
  cases orderParams plan with
  | none =>
    refine h.setPlacement ⟨hrefunded, hclaim, fun _ => hnone⟩ ?_
    rintro _ _ _ ⟨⟩
  | some params =>
    refine h.setPlacement ⟨hrefunded, hclaim⟩ ?_
    rintro _ _ _ ⟨⟩

/-- A new call has claimed nothing yet. -/
theorem issue (h : Spent config s) (hid : id ∉ s.issued) (hclaim : s.claims id = none) :
    Spent config { s with issued := insert id s.issued } :=
  ⟨h.claimed, h.order, fun day => (h.day day).insert_issued hid hclaim, h.claiming, h.refund⟩

/-- A refund for an order that has been claimed on the same day and not refunded yet. -/
theorem refundDailySpend (h : Spent config s) {cents : ℤ} {valueUsdt : ℚ} (hissued : id ∈ s.issued)
    (hclaim : s.claims id = some (utcDate s.now, cents)) (hzero : s.refunded id = 0)
    (hclaimed : Claimed (s.exchange id) (s.claims id) (toCents valueUsdt))
    (hplacement : s.placements id = .done) (htracked : s.tracked id = none) :
    Spent config (s.refundDailySpend id valueUsdt) := by
  by_cases hpos : valueUsdt ≤ 0
  · rw [LiveState.refundDailySpend, if_pos hpos]
    exact h
  have hone := one_le_toCents valueUsdt
  have hday (day : ℕ) : DaySound config (s.refundDailySpend id valueUsdt) day :=
    (h.day day).issueRefund (net_le_capCents h day) hpos hissued hclaim
  rw [LiveState.refundDailySpend, if_neg hpos] at hday ⊢
  refine ⟨fun j => ?_, fun j => ?_, hday, h.claiming, fun refund hrefund => ?_⟩
  · change Claimed (s.exchange j) (s.claims j) (Function.update s.refunded id _ j)
    by_cases hne : j = id
    · subst hne
      rw [Function.update_self, hzero, zero_add]
      exact hclaimed
    · rw [Function.update_of_ne hne]
      exact h.claimed j
  · change OrderSpent (s.tracked j) (s.exchange j) (s.claims j) (Function.update s.refunded id _ j)
      (s.placements j)
    by_cases hne : j = id
    · subst hne
      rw [hplacement, htracked]
      exact fun hsome => absurd rfl hsome
    · rw [Function.update_of_ne hne]
      exact h.order j
  · rcases List.mem_cons.mp hrefund with rfl | hmem
    · exact ⟨hone, duringDay_utcDate s.now⟩
    · exact h.refund refund hmem

/-- Redis grants the claim of a call. -/
theorem grant (h : Spent config s) {plan : OrderPlan} {price : ℚ} {day : ℕ}
    (hplacement : s.placements id = .claiming plan price day) (hissued : id ∈ s.issued)
    (hnone : s.exchange id = none)
    (hcap : (s.counters day).cents + toCents plan.valueUsdt ≤ config.capCents) :
    Spent config ({ s with
      counters := Function.update s.counters day {
        cents := (s.counters day).cents + toCents plan.valueUsdt
        expiresAt := some (s.now + dailySpendTtlMs) }
      claims := Function.update s.claims id (some (day, toCents plan.valueUsdt))
      }.setPlacement id (.claimed plan price true)) := by
  have hone := one_le_toCents plan.valueUsdt
  have hduring := h.claiming id plan price day hplacement
  obtain ⟨hzero, hunclaimed, hbuy⟩ := h.order_of_placement hplacement
  refine ⟨fun j => ?_, fun j => ?_, fun d => ?_, fun j plan' price' d hj => ?_, h.refund⟩
  · change Claimed (s.exchange j) (Function.update s.claims id _ j) (s.refunded j)
    by_cases hne : j = id
    · subst hne
      rw [Function.update_self, hnone, hzero]
      exact claimed_of_unplaced hone (by omega)
    · rw [Function.update_of_ne hne]
      exact h.claimed j
  · change OrderSpent (s.tracked j) (s.exchange j) (Function.update s.claims id _ j) (s.refunded j)
      (Function.update s.placements id _ j)
    by_cases hne : j = id
    · subst hne
      rw [Function.update_self, Function.update_self]
      refine ⟨hzero, fun _ => ?_⟩
      rw [ClaimOf, hbuy]
      exact ⟨day, rfl⟩
    · rw [Function.update_of_ne hne, Function.update_of_ne hne]
      exact h.order j
  · exact (h.day d).claim hduring hcap rfl rfl rfl rfl rfl hissued hunclaimed hzero
  · change DuringDay d s.now
    by_cases hne : j = id
    · subst hne
      rw [placements_setPlacement] at hj
      cases hj
    · exact h.claiming j plan' price' d ((Function.update_of_ne hne _ _).symm.trans hj)

/-- Redis runs the claim script of a call. -/
theorem claim (h : Spent config s) {plan : OrderPlan} {price : ℚ} {day : ℕ}
    {counter : DayCounter} {granted : Bool}
    (hplacement : s.placements id = .claiming plan price day)
    (hissued : id ∈ s.issued) (hnone : s.exchange id = none)
    (hcounter : (s.counters day).claim s.now (toCents plan.valueUsdt) config.capCents =
      (granted, counter)) :
    Spent config ({ s with
      counters := Function.update s.counters day counter
      claims := if granted then Function.update s.claims id (some (day, toCents plan.valueUsdt))
        else s.claims }.setPlacement id (.claimed plan price granted)) := by
  have hread := (h.day day).read_counters (h.claiming id plan price day hplacement)
  rw [DayCounter.claim, hread] at hcounter
  split_ifs at hcounter with hcap
  · cases hcounter
    have hdenied : Spent config { s with
        counters := Function.update s.counters day (s.counters day)
        claims := if false = true then
          Function.update s.claims id (some (day, toCents plan.valueUsdt)) else s.claims } := by
      rw [Function.update_eq_self]
      exact h
    have horder := h.order_of_placement hplacement
    refine hdenied.setPlacement ⟨horder.1, nofun⟩ ?_
    rintro _ _ _ ⟨⟩
  · cases hcounter
    exact h.grant hplacement hissued hnone (not_lt.mp hcap)

/-- An open order gets a new report. -/
theorem setReport (h : Spent config s) {order : ExchangeOrder} (horder : s.exchange id = some order)
    (hopen : order.report.status.final = false) {report : OrderReport}
    (hfits : ExchangeOrder.Fits order.params order.report →
      ExchangeOrder.Fits order.params report) :
    Spent config (s.setExchange id (order.withReport report)) := by
  have hsame : SameSpend s (s.setExchange id (order.withReport report)) :=
    ⟨rfl, rfl, rfl, rfl, rfl, rfl⟩
  have hself : (s.setExchange id (order.withReport report)).exchange id =
      some (order.withReport report) :=
    Function.update_self ..
  have hclaimed := h.claimed id
  have hspent := h.order id
  rw [horder] at hclaimed hspent
  apply h.of_order id hsame
  · rw [hself]
    exact hclaimed.report hopen hfits
  · rw [hself]
    exact hspent.report report
  · exact h.claiming id
  · exact fun j hne => ⟨rfl, Function.update_of_ne hne _ _, rfl⟩

/-- The exchange accepts a buy on the day of its claim. -/
theorem accept (h : Spent config s) {plan : OrderPlan} {price : ℚ} {params : OrderParams}
    {report : OrderReport} (hplacement : s.placements id = .sent plan price params)
    (hplan : Covered plan price) (hparams : orderParams plan = some params)
    (hfits : ExchangeOrder.Fits params report)
    (hday : ∀ day cents, s.claims id = some (day, cents) → utcDate s.now = day) :
    Spent config ((s.setExchange id {
      side := plan.side
      params := params
      acceptedAt := s.now
      reference := price
      report := report }).setPlacement id (.accepted plan price report)) := by
  have hclaimed := h.claimed id
  obtain ⟨hzero, hclaim⟩ := h.order_of_placement hplacement
  rw [ClaimOf] at hclaim
  refine of_order h id ⟨rfl, rfl, rfl, rfl, rfl, rfl⟩ ?_ ?_ ?_ ?_
  · change Claimed (Function.update s.exchange id _ id) (s.claims id) (s.refunded id)
    rw [Function.update_self]
    refine ⟨?_, ?_, ?_, hclaimed.positive⟩
    · rintro _ ⟨⟩ hbuy
      dsimp only at hbuy
      rw [hbuy] at hclaim
      obtain ⟨day, hclaim⟩ := hclaim
      obtain ⟨hbuyParams, hcover⟩ := (hplan hbuy).2 params hparams
      cases hday day _ hclaim
      exact ⟨⟨plan, hbuyParams⟩, hfits, _, hclaim, hcover, fun hne => absurd hzero hne⟩
    · rintro _ ⟨⟩ hsell
      dsimp only at hsell
      rw [hsell] at hclaim
      exact hclaim
    · rintro ⟨⟩
  · change OrderSpent _ _ _ _ (Function.update s.placements id _ id)
    rw [Function.update_self]
    exact ⟨hzero, hclaim⟩
  · change ∀ plan' price' day, Function.update s.placements id _ id = .claiming plan' price' day → _
    rw [Function.update_self]
    rintro _ _ _ ⟨⟩
  · exact fun j hne => ⟨rfl, Function.update_of_ne hne _ _, Function.update_of_ne hne _ _⟩

/-- The call of a failed order, which was claimed on the same day, refunds it all. -/
theorem giveUp (h : Spent config s) (hlinked : Linked Covered s) {plan : OrderPlan}
    (hplacement : s.placements id = .failed plan)
    (hday : plan.side = .buy → ∀ day cents, s.claims id = some (day, cents) → utcDate s.now = day) :
    Spent config ((if plan.side = .buy then s.refundDailySpend id plan.valueUsdt else s).setPlacement
      id .done) := by
  have hspent := h.order_of_placement hplacement
  have hlink := hlinked.order_of_placement hplacement
  obtain ⟨hzero, hclaim, hnone⟩ := hspent
  have hdone : Spent config (s.setPlacement id .done) := by
    refine h.setPlacement (fun _ => hzero) ?_
    rintro _ _ _ ⟨⟩
  split_ifs with hbuy
  · rw [ClaimOf, hbuy] at hclaim
    obtain ⟨day, hclaim⟩ := hclaim
    cases hday hbuy day _ hclaim
    rw [setPlacement_refundDailySpend]
    refine hdone.refundDailySpend ?_ hclaim hzero ?_ (placements_setPlacement ..) hlink.1
    · exact hlinked.issued hplacement nofun
    · change Claimed (s.exchange id) (s.claims id) _
      rw [hnone hbuy, hclaim]
      exact claimed_of_unplaced (one_le_toCents _) le_rfl
  · exact hdone

theorem place (h : Spent config s) (hlinked : Linked Covered s) {plan : OrderPlan} {price : ℚ}
    (hid : id ∉ s.issued) (hplan : Covered plan price) (hcap : 0 < config.maxDailyOrderValueUsdt) :
    Spent config (s.place config id plan price) := by
  have hfresh := h.order_of_placement (hlinked.unissued id hid)
  have hlink := hlinked.order_of_placement (hlinked.unissued id hid)
  obtain ⟨hclaim, hzero⟩ := hfresh
  have hissued := h.issue hid hclaim
  rw [LiveState.place]
  cases hside : plan.side with
  | sell =>
    refine hissued.submit hlink.2 hzero ?_
    rw [ClaimOf, hside]
    exact hclaim
  | buy =>
    have hpos : ¬ (config.maxDailyOrderValueUsdt ≤ 0 ∨ plan.valueUsdt ≤ 0) := by
      rw [not_or, not_le, not_le]
      exact ⟨hcap, (hplan hside).1⟩
    have hclaiming : OrderSpent (s.tracked id) (s.exchange id) (s.claims id) (s.refunded id)
        (.claiming plan price (utcDate s.now)) :=
      ⟨hzero, hclaim, hside⟩
    dsimp only
    rw [if_neg hpos]
    refine hissued.setPlacement hclaiming ?_
    rintro _ _ _ ⟨⟩
    exact duringDay_utcDate s.now

/-- The ledger forgets an order. -/
theorem forget (h : Spent config s) (hsame : SameSpend s s') (hexchange : s'.exchange = s.exchange)
    (hplacements : s'.placements = s.placements)
    (hforgets : ∀ j, s'.tracked j = if j = id then none else s.tracked j) : Spent config s' := by
  apply h.of_order id hsame
  · rw [hexchange]
    exact h.claimed id
  · rw [hforgets, if_pos rfl, hexchange, hplacements]
    exact (h.order id).forget
  · rw [hplacements]
    exact h.claiming id
  · intro j hne
    rw [hforgets, if_neg hne, hexchange, hplacements]
    exact ⟨rfl, rfl, rfl⟩

/-- The ledger forgets an order, and the rest of it is refunded if that settles its claim. -/
theorem settle (h : Spent config s) (hlinked : Linked Covered s) {order : TrackedOrder}
    {report : OrderReport} {qty : ℚ} (hknows : Knows s.exchange order.clientOrderId report)
    (hok : SettlesClaim s order report qty) (hsame : SameSpend s s')
    (hexchange : s'.exchange = s.exchange) (hplacements : s'.placements = s.placements)
    (hforgets : ∀ j, s'.tracked j = if j = order.clientOrderId then none else s.tracked j) :
    Spent config (s'.refundUnfilled order qty) := by
  have hforgot : Spent config s' := h.forget hsame hexchange hplacements hforgets
  rw [refundUnfilled]
  cases hvalue : unfilledValue order qty with
  | none => exact hforgot
  | some value =>
    obtain ⟨htracked, hfinal, rfl, hmarket, hday⟩ := hok (by rw [hvalue]; exact Option.some_ne_none value)
    obtain ⟨found, hfound, hreport⟩ := hknows
    cases hreport hfinal
    have hspent := h.order order.clientOrderId
    have hlink := hlinked.order order.clientOrderId
    rw [htracked] at hspent hlink
    have hdone := hlink.done
    rw [hdone] at hspent hlink
    have hzero : s.refunded order.clientOrderId = 0 := hspent (by rintro ⟨⟩)
    obtain ⟨plan, price, orderId, now, hplan, horder, accepted, haccepted, hplaced⟩ :=
      hlink order rfl
    cases hfound.symm.trans haccepted
    have hbuy : plan.side = .buy := by
      have hside := side_of_unfilledValue hvalue
      rw [horder] at hside
      exact hside
    obtain ⟨hparams, -⟩ := (hplan hbuy).2 found.params hplaced.params
    have hclaimed := h.claimed order.clientOrderId
    rw [hfound, hzero] at hclaimed
    have hbacked := hclaimed.buy found rfl (hplaced.side.trans hbuy)
    obtain ⟨cents, hclaim, -⟩ := hbacked.covered
    have hrefunded : Backed found (s.claims order.clientOrderId) (toCents value) := by
      rw [horder] at hvalue hmarket
      apply hbacked.refund hplaced hparams hfinal _ hvalue
      intro htype
      have hprice := price_trackedOrder hparams htype order.clientOrderId price orderId now
      rw [hplaced.reference, ← hprice]
      exact hmarket htype
    apply hforgot.refundDailySpend
    · rw [hsame.issued]
      exact hlinked.issued hdone (by rintro ⟨⟩)
    · rw [hsame.claims, hsame.now, hday _ _ hclaim]
      exact hclaim
    · rw [hsame.refunded]
      exact hzero
    · rw [hexchange, hfound, hsame.claims]
      exact hclaimed.refund (hplaced.side.trans hbuy) hrefunded
    · rw [hplacements]
      exact hdone
    · rw [hforgets, if_pos rfl]

section Answers

variable [CaseMapping]

/-- The answer to an order ends its call. -/
theorem receive (h : Spent config s) {plan : OrderPlan} {price : ℚ} {report : OrderReport}
    (hplacement : s.placements id = .accepted plan price report) :
    Spent config ((s.receive id plan price report).setPlacement id .done) := by
  have hspent := h.order_of_placement hplacement
  have hdone (t : Option TrackedOrder) :
      OrderSpent t (s.exchange id) (s.claims id) (s.refunded id) .done :=
    fun _ => hspent.1
  have hother (j : String) (hne : j ≠ id) :
      Function.update s.placements id .done j = s.placements j :=
    Function.update_of_ne hne _ _
  rw [LiveState.receive]
  split_ifs
  · refine of_order h id ⟨rfl, rfl, rfl, rfl, rfl, rfl⟩ (h.claimed id) ?_ ?_ ?_
    · rw [placements_setPlacement]
      exact hdone _
    · rw [placements_setPlacement]
      rintro _ _ _ ⟨⟩
    · refine fun j hne => ⟨?_, rfl, hother j hne⟩
      exact congrArg (InsertionMap.get · j) (TradeLedger.openOrders_applyFill ..)
  · refine of_order h id ⟨rfl, rfl, rfl, rfl, rfl, rfl⟩ (h.claimed id) ?_ ?_ ?_
    · rw [placements_setPlacement]
      exact hdone _
    · rw [placements_setPlacement]
      rintro _ _ _ ⟨⟩
    · exact fun j hne => ⟨InsertionMap.get_set_of_ne _ _ hne, rfl, hother j hne⟩

theorem receiveCanceled (h : Spent config s) (hlinked : Linked Covered s) {order : TrackedOrder}
    {report : OrderReport} (hknows : Knows s.exchange order.clientOrderId report)
    (hok : SettlesClaim s order report report.executedQty) :
    Spent config (s.receiveCanceled order report) := by
  rw [LiveState.receiveCanceled]
  apply h.settle hlinked hknows hok
  · split_ifs <;> exact ⟨rfl, rfl, rfl, rfl, rfl, rfl⟩
  · split_ifs <;> rfl
  · split_ifs <;> rfl
  · intro j
    rw [tracked_removeOrder]
    split_ifs
    · rfl
    · exact tracked_applyReported s order report j
    · rfl

theorem receiveStatus (h : Spent config s) (hlinked : Linked Covered s) {order : TrackedOrder}
    {report : OrderReport} (hknows : Knows s.exchange order.clientOrderId report)
    (hok : SettlesClaim s order report report.countedQty) :
    Spent config (s.receiveStatus order (.report report)) := by
  have hforgets (j : String) := tracked_removeOrder s order.clientOrderId j
  rw [LiveState.receiveStatus]
  rw [OrderReport.countedQty] at hok
  split_ifs at hok ⊢ with hfill hbuy
  · refine settle h hlinked hknows hok ⟨rfl, rfl, rfl, rfl, rfl, rfl⟩ rfl rfl fun j => ?_
    rw [tracked_applyReported]
    exact hforgets j
  · exact h.settle hlinked hknows hok ⟨rfl, rfl, rfl, rfl, rfl, rfl⟩ rfl rfl hforgets
  · exact h.forget ⟨rfl, rfl, rfl, rfl, rfl, rfl⟩ rfl rfl hforgets

end Answers

/-- Redis runs the script of a refund. -/
theorem runRefund (h : Spent config s) {refund : Refund} (hcap : 0 ≤ config.capCents)
    (hmem : refund ∈ s.refunds) : Spent config { s with
      counters := Function.update s.counters refund.day
        ((s.counters refund.day).refund s.now refund.cents)
      refunds := s.refunds.erase refund } := by
  obtain ⟨hone, hduring⟩ := h.refund refund hmem
  refine ⟨h.claimed, h.order, fun day => ?_, h.claiming, fun other hother => ?_⟩
  · exact (h.day day).refund hcap hmem hone hduring rfl rfl rfl rfl rfl
  · exact h.refund other (List.mem_of_mem_erase hother)

/-- Time passes, but not too much for the commands on their way. -/
theorem tick (h : Spent config s) (hlinked : Linked Covered s) {ms : ℕ}
    (hintime : s.redisInTime (s.now + ms)) : Spent config { s with now := s.now + ms } := by
  refine ⟨h.claimed, h.order, fun day => ?_, fun id plan price day hid => ?_, fun refund hmem => ?_⟩
  · have hday := h.day day
    exact ⟨hday.expiry, hday.capped, hday.counted, hday.spare⟩
  · have hplacement : s.placements id = .claiming plan price day := hid
    have hlater := hintime.1 id (hlinked.issued hplacement nofun)
    rw [hplacement] at hlater
    have hstart := (h.claiming id plan price day hplacement).1
    exact ⟨hstart.trans (Nat.le_add_right _ _), hlater⟩
  · obtain ⟨hone, hstart, -⟩ := h.refund refund hmem
    exact ⟨hone, hstart.trans (Nat.le_add_right _ _), hintime.2 refund hmem⟩

end Spent

theorem capCents_nonneg {config : LiveConfig} (hcap : 0 < config.maxDailyOrderValueUsdt) :
    0 ≤ config.capCents := by
  rw [LiveConfig.capCents, roundHalfUp]
  apply Int.floor_nonneg.mpr
  positivity

/-- A step that refunds only what was never spent keeps the claims sound. -/
theorem spent_step [CaseMapping] {config : LiveConfig} {s s' : LiveState} {a : LiveAction}
    (hcap : 0 < config.maxDailyOrderValueUsdt) (h : Spent config s) (hlinked : Linked Covered s)
    (hok : RefundsUnspent s a) (hstep : s.step config a = some s') : Spent config s' := by
  cases turn_of_step hstep with
  | @place id plan price hid => exact h.place hlinked hid (covered_of_plans hok.1 hok.2 price) hcap
  | @claim id plan price day counter granted hplacement hcounter =>
    have hlink := hlinked.order_of_placement hplacement
    exact h.claim hplacement (hlinked.issued hplacement nofun) hlink.2.1 hcounter
  | claimFails hplacement => exact hok.elim
  | @accept id plan price params report hplacement hnone hfits =>
    have hlink := hlinked.order_of_placement hplacement
    exact h.accept hplacement hlink.2.2.1 hlink.2.2.2 hfits hok
  | @refuse id plan price params hplacement =>
    have hspent := h.order_of_placement hplacement
    have hlink := hlinked.order_of_placement hplacement
    refine h.setPlacement ⟨hspent.1, hspent.2, fun _ => hlink.2.1⟩ ?_
    rintro _ _ _ ⟨⟩
  | @lose id plan price report hplacement =>
    have hspent := h.order_of_placement hplacement
    have hsell := hok plan price report hplacement
    refine h.setPlacement ⟨hspent.1, hspent.2, fun hbuy => ?_⟩ ?_
    · rw [hsell] at hbuy
      cases hbuy
    · rintro _ _ _ ⟨⟩
  | @submit id plan price hplacement =>
    have hspent := h.order_of_placement hplacement
    have hlink := hlinked.order_of_placement hplacement
    exact h.submit hlink.2.1 hspent.1 (hspent.2 rfl)
  | @block id plan price hplacement =>
    have hspent := h.order_of_placement hplacement
    refine h.setPlacement (fun _ => hspent.1) ?_
    rintro _ _ _ ⟨⟩
  | receive hplacement => exact h.receive hplacement
  | @giveUp id plan hplacement => exact h.giveUp hlinked hplacement (hok plan hplacement)
  | refund hmem => exact h.runRefund (capCents_nonneg hcap) hmem
  | reconcile hstale => exact h.cancelLoop _
  | cancel hcall hfound hopen hanswer => exact (h.setReport hfound hopen fits_cancel).goto _
  | cancelRejected hcall => exact h.goto _
  | account => exact h.goto _
  | openOrders => exact h.goto _
  | status hcall hfound => exact h.goto _
  | statusNotFound hcall hfound => exact h.goto _
  | cancelFails hcall => exact h.goto _
  | fetchFails => exact h.goto _
  | statusFails hcall => exact h.goto _
  | cancelSkipped hcall => exact h.cancelLoop _
  | @canceled call order rest report hcall =>
    have hinformed := hlinked.informed_of_call hcall
    rw [RefundsUnspent, hcall] at hok
    exact (h.receiveCanceled hlinked hinformed.answered.2 hok).cancelLoop rest
  | @fetched call positions gone hgone =>
    have hreconciled : Spent config { s with ledger := s.ledger.reconcilePositions positions } := by
      refine h.of_sameOrders ⟨rfl, rfl, rfl, rfl, rfl, rfl⟩ (fun j => ?_) rfl rfl
      exact congrArg (InsertionMap.get · j) (TradeLedger.openOrders_reconcilePositions ..)
    exact hreconciled.statusLoop gone
  | @asked call order rest answer hcall =>
    have hinformed := hlinked.informed_of_call hcall
    rw [RefundsUnspent, hcall] at hok
    have hsettled : Spent config (s.receiveStatus order answer) := by
      cases answer with
      | error => exact h
      | notFound => exact hinformed.answered.elim
      | report report => exact h.receiveStatus hlinked hinformed.answered hok
    exact hsettled.statusLoop rest
  | evolve hfound hadmits => exact h.setReport hfound hadmits.1 fun _ => hadmits.2.1
  | tick hintime => exact h.tick hlinked hintime

theorem spent_start {config : LiveConfig} (hcap : 0 < config.maxDailyOrderValueUsdt)
    (ledger : TradeLedger) : Spent config (start ledger) := by
  refine ⟨fun id => ?_, fun _ => ⟨rfl, rfl⟩, fun day => ?_, ?_, nofun⟩
  · constructor
    · rintro _ ⟨⟩
    · rintro _ ⟨⟩
    · rintro - _ _ ⟨⟩
    · rintro _ _ ⟨⟩
  · exact ⟨nofun, capCents_nonneg hcap, le_rfl, Or.inr (Or.inr le_rfl)⟩
  · rintro _ _ _ _ ⟨⟩

/-- **Daily spend cap**: along every run whose steps refund only what was never spent,
    the orders of each day cost no more than the cap. -/
theorem withinDailyCap_of_refundsUnspent [CaseMapping] (config : LiveConfig)
    (hcap : 0 < config.maxDailyOrderValueUsdt) (ledger : TradeLedger)
    (hledger : ∀ id, ledger.openOrders.get id = none) (as : List LiveAction)
    (hok : Machine.Along (LiveState.step config) RefundsUnspent (start ledger) as) :
    Machine.Everywhere (LiveState.step config) (WithinDailyCap config) (start ledger) as := by
  have hstart : Linked Covered (start ledger) ∧ Spent config (start ledger) :=
    ⟨linked_start hledger, spent_start hcap ledger⟩
  refine Machine.everywhere_of_invariant (fun s => Linked Covered s ∧ Spent config s)
    (WithinDailyCap config) (fun s a s' h hok hstep => ?_)
    (fun s h => withinDailyCap_of_spent h.2 hcap) hstart hok
  refine ⟨linked_step h.1 ?_ hstep, spent_step hcap h.2 h.1 hok hstep⟩
  rintro id plan price rfl
  exact covered_of_plans hok.1 hok.2 price

/-- A bot with a daily cap of 100 USDT. -/
def cappedConfig : LiveConfig where
  symbols := ["BTCUSDT"]
  orderTtlMs := 0
  maxDailyOrderValueUsdt := 100

/-- A market buy for 100 USDT. -/
def buyHundred : OrderPlan where
  symbol := "BTCUSDT"
  side := .buy
  type := .market
  quantity := none
  quoteOrderQty := some 100
  price := none
  valueUsdt := 100

theorem plans_buyHundred : RiskGuard.Plans buyHundred := by
  have hplan : (RiskGuard.ofConfig ⟨.live, 100, true, []⟩).planMarketBuy "BTCUSDT" 100 =
      .ok buyHundred := by
    decide +kernel
  exact .marketBuy hplan

/-- The buy is filled at once. -/
def hundredSpent : OrderReport where
  orderId := 1
  price := 0
  status := .filled
  executedQty := 1
  cummulativeQuoteQty := 100
  executed_nonneg := OrderReport.one_nonneg
  quote_nonneg := OrderReport.hundred_nonneg
  quote_eq_zero := OrderReport.hundred_eq_zero

/-- The buy uses up the cap of its day. -/
theorem withinDailyCap_of_filled_buy :
    Machine.Everywhere (LiveState.step cappedConfig) (WithinDailyCap cappedConfig) (start .empty)
      [.place "a" buyHundred 100, .claim "a", .proceed "a", .accept "a" hundredSpent,
        .proceed "a"] := by
  have hday (as : List LiveAction) (s : LiveState)
      (hclaimed : (Machine.exec (LiveState.step cappedConfig) (start .empty) as).map
        (fun s => (s.claims "a", s.now)) = some (some (0, 10000), 0))
      (hrun : Machine.exec (LiveState.step cappedConfig) (start .empty) as = some s) :
      ∀ day cents, s.claims "a" = some (day, cents) → utcDate s.now = day := by
    rw [hrun, Option.map_some, Option.some.injEq, Prod.mk.injEq] at hclaimed
    intro day cents hclaim
    rw [hclaimed.1] at hclaim
    cases hclaim
    rw [hclaimed.2]
    rfl
  apply withinDailyCap_of_refundsUnspent
  · decide
  · exact fun _ => rfl
  intro s1 h1
  refine ⟨⟨plans_buyHundred, fun _ => nofun⟩, fun s2 h2 => ⟨trivial, fun s3 h3 => ⟨?_, ?_⟩⟩⟩
  · intro _ _ _
    exact hday [.place "a" buyHundred 100, .claim "a"] s2 (by decide +kernel) (by simp [h1, h2])
  refine fun s4 h4 => ⟨?_, fun s5 h5 => ⟨?_, trivial⟩⟩
  · exact hday [.place "a" buyHundred 100, .claim "a", .proceed "a"] s3 (by decide +kernel)
      (by simp [h1, h2, h3])
  · intro _ _ _
    exact hday [.place "a" buyHundred 100, .claim "a", .proceed "a", .accept "a" hundredSpent] s4
      (by decide +kernel) (by simp [h1, h2, h3, h4])

/-- The answer to a buy that is filled is lost: the bot refunds it and buys again. -/
theorem withinDailyCap_fails_on_lost_answer :
    ∃ s, Machine.exec (LiveState.step cappedConfig) (start .empty)
        [.place "a" buyHundred 100, .claim "a", .proceed "a", .accept "a" hundredSpent, .lose "a",
          .proceed "a", .refund ⟨0, 10000⟩, .place "b" buyHundred 100, .claim "b", .proceed "b",
          .accept "b" hundredSpent] = some s ∧
      ¬ WithinDailyCap cappedConfig s := by
  have hspent : (Machine.exec (LiveState.step cappedConfig) (start .empty)
      [.place "a" buyHundred 100, .claim "a", .proceed "a", .accept "a" hundredSpent, .lose "a",
        .proceed "a", .refund ⟨0, 10000⟩, .place "b" buyHundred 100, .claim "b", .proceed "b",
        .accept "b" hundredSpent]).map (fun s => decide
      (100 * ∑ id ∈ s.buysOn 0, s.exposure id ≤
        100 * cappedConfig.maxDailyOrderValueUsdt + (s.buysOn 0).card)) = some false := by
    decide +kernel
  obtain ⟨s, hrun, hfalse⟩ := Option.map_eq_some_iff.mp hspent
  exact ⟨s, hrun, fun h => of_decide_eq_false hfalse (h 0)⟩

end BotHive.Crypto
