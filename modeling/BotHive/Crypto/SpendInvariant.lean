import Mathlib.Algebra.BigOperators.Group.Finset.Basic
import Mathlib.Algebra.BigOperators.Group.List.Basic
import Mathlib.Algebra.Order.BigOperators.Group.Finset
import BotHive.Crypto.SpendClaims

/-!
# Claims, refunds and counters

The buy orders of a UTC day should cost no more than the cap of the bot. Four places
claim and refund: `placeOrder` claims before it sends an order and refunds when that
fails, and the answers to cancellations and status requests refund what never filled.
Here is what must hold of claims, refunds and counters so that the cap holds.

## Main definitions

- `WithinDailyCap`: the cap holds on every day
- `RefundsUnspent`: the steps that claim what they spend and refund only what the order
  of the same day never spent
- `Claimed`, `DaySound`, `Spent`: the claim of an order, the counter of a day, the invariant

## Main results

- `withinDailyCap_of_spent`: the invariant implies the cap
-/

namespace BotHive.Crypto

open LiveState

namespace LiveState

/-- The buy orders that the exchange has accepted on a day. -/
def buysOn (s : LiveState) (day : ℕ) : Finset String :=
  s.issued.filter fun id => (s.exchange id).any fun order =>
    decide (order.side = .buy ∧ utcDate order.acceptedAt = day)

/-- What the order of an id has cost or may still cost. -/
def exposure (s : LiveState) (id : String) : ℚ :=
  ((s.exchange id).map ExchangeOrder.exposure).getD 0

end LiveState

/-- On every day, the orders cost no more than the cap, up to one cent for each order. -/
def WithinDailyCap (config : LiveConfig) (s : LiveState) : Prop :=
  ∀ day, 100 * ∑ id ∈ s.buysOn day, s.exposure id ≤
    100 * config.maxDailyOrderValueUsdt + (s.buysOn day).card

/-- The quantity that `receiveStatus` counts as filled. -/
def OrderReport.countedQty (report : OrderReport) : ℚ :=
  if report.status = .filled ∨ report.status = .partiallyFilled then report.executedQty else 0

/-- If the rest of an order is refunded, then the order is still tracked, it is final with
    the counted quantity executed, at a market price of no more than the reference price,
    and it was claimed on the same day. -/
def SettlesClaim (s : LiveState) (order : TrackedOrder) (report : OrderReport) (qty : ℚ) : Prop :=
  unfilledValue order qty ≠ none →
    s.tracked order.clientOrderId = some order ∧
      report.status.final = true ∧ report.executedQty = qty ∧
      (order.type = .market →
        report.cummulativeQuoteQty ≤ report.executedQty * order.price.getD 0) ∧
      ∀ day cents, s.claims order.clientOrderId = some (day, cents) → utcDate s.now = day

/-- Redis works, and the step claims what it spends and refunds only what the order of the
    same day never spent. -/
def RefundsUnspent [CaseMapping] (s : LiveState) : LiveAction → Prop
  | .place _ plan _ => RiskGuard.Plans plan ∧ (plan.side = .buy → LimitCovered plan)
  | .claimFails _ => False
  | .accept id _ => ∀ day cents, s.claims id = some (day, cents) → utcDate s.now = day
  | .lose id => ∀ plan price report, s.placements id = .accepted plan price report →
    plan.side = .sell
  | .proceed id => ∀ plan, s.placements id = .failed plan → plan.side = .buy →
    ∀ day cents, s.claims id = some (day, cents) → utcDate s.now = day
  | .resume call =>
    match s.reconciliations call with
    | .canceled order _ (some report) => SettlesClaim s order report report.executedQty
    | .asked order _ (.report report) => SettlesClaim s order report report.countedQty
    | _ => True
  | _ => True

/-- What a claim still holds on a day. -/
def netOf (day : ℕ) (claim : Option (ℕ × ℤ)) (refunded : ℤ) : ℤ :=
  match claim with
  | some (claimDay, cents) => if claimDay = day then cents - refunded else 0
  | none => 0

namespace LiveState

/-- What the claims still hold on a day. -/
def net (s : LiveState) (day : ℕ) : ℤ :=
  ∑ id ∈ s.issued, netOf day (s.claims id) (s.refunded id)

/-- The refunds of a day that are on their way. -/
def pending (s : LiveState) (day : ℕ) : ℤ :=
  (s.refunds.map fun refund => if refund.day = day then refund.cents else 0).sum

end LiveState

/-- The claim of a buy order covers it, and what is refunded never filled. -/
structure Backed (order : ExchangeOrder) (claim : Option (ℕ × ℤ)) (refunded : ℤ) : Prop where
  params : ∃ plan, BuyParams plan order.params
  fits : ExchangeOrder.Fits order.params order.report
  covered : ∃ cents, claim = some (utcDate order.acceptedAt, cents) ∧
    100 * order.value ≤ cents + 1 / 2 ∧
      (refunded ≠ 0 → order.report.status.final = true ∧
        100 * order.filledValue ≤ cents - refunded + 1)

/-- What has been claimed and refunded for one order. -/
structure Claimed (found : Option ExchangeOrder) (claim : Option (ℕ × ℤ)) (refunded : ℤ) :
    Prop where
  buy : ∀ order, found = some order → order.side = .buy → Backed order claim refunded
  sell : ∀ order, found = some order → order.side = .sell → claim = none
  unplaced : found = none → ∀ day cents, claim = some (day, cents) → refunded ≤ cents
  positive : ∀ day cents, claim = some (day, cents) → 1 ≤ cents

/-- The claim that a plan leads to. -/
def ClaimOf (plan : OrderPlan) (claim : Option (ℕ × ℤ)) : Prop :=
  match plan.side with
  | .buy => ∃ day, claim = some (day, toCents plan.valueUsdt)
  | .sell => claim = none

/-- What holds of claim and refund of an order while its call is at some point. -/
def OrderSpent (t : Option TrackedOrder) (found : Option ExchangeOrder)
    (claim : Option (ℕ × ℤ)) (refunded : ℤ) : Placement → Prop
  | .fresh => claim = none ∧ refunded = 0
  | .claiming plan _ _ => refunded = 0 ∧ claim = none ∧ plan.side = .buy
  | .claimed plan _ granted => refunded = 0 ∧ (granted = true → ClaimOf plan claim)
  | .sent plan _ _ | .accepted plan _ _ => refunded = 0 ∧ ClaimOf plan claim
  | .failed plan => refunded = 0 ∧ ClaimOf plan claim ∧ (plan.side = .buy → found = none)
  | .done => t ≠ none → refunded = 0

/-- The counter of a day covers what the claims still hold, and if all of them have been
    refunded in part there is a cent to spare. -/
structure DaySound (config : LiveConfig) (s : LiveState) (day : ℕ) : Prop where
  expiry : ∀ t, (s.counters day).expiresAt = some t → (day + 2) * dayMs ≤ t
  capped : (s.counters day).cents ≤ config.capCents
  counted : s.net day + s.pending day ≤ (s.counters day).cents
  spare : (∃ id ∈ s.issued, ∃ cents, s.claims id = some (day, cents) ∧ s.refunded id = 0) ∨
    s.net day + 1 ≤ config.capCents ∨ s.net day ≤ 0

/-- A time at which a command for the key of a day may be on its way. -/
def DuringDay (day now : ℕ) : Prop :=
  day * dayMs ≤ now ∧ now < (day + 2) * dayMs

structure Spent (config : LiveConfig) (s : LiveState) : Prop where
  claimed : ∀ id, Claimed (s.exchange id) (s.claims id) (s.refunded id)
  order : ∀ id, OrderSpent (s.tracked id) (s.exchange id) (s.claims id) (s.refunded id)
    (s.placements id)
  day : ∀ day, DaySound config s day
  claiming : ∀ id plan price day, s.placements id = .claiming plan price day →
    DuringDay day s.now
  refund : ∀ refund ∈ s.refunds, 1 ≤ refund.cents ∧ DuringDay refund.day s.now

section Cap

variable {config : LiveConfig} {s : LiveState} {day : ℕ} {id : String}

theorem mem_buysOn_iff : id ∈ s.buysOn day ↔ id ∈ s.issued ∧
    ∃ order, s.exchange id = some order ∧ order.side = .buy ∧ utcDate order.acceptedAt = day := by
  rw [buysOn, Finset.mem_filter, Option.any_eq_true]
  constructor
  · rintro ⟨hid, order, horder, hbuy⟩
    exact ⟨hid, order, horder, of_decide_eq_true hbuy⟩
  · rintro ⟨hid, order, horder, hbuy⟩
    exact ⟨hid, order, horder, decide_eq_true hbuy⟩

/-- A buy order of the day costs what its claim holds and half a cent, or a whole cent if
    something has been refunded. -/
theorem exposure_le_net (h : Spent config s) (hid : id ∈ s.buysOn day) :
    100 * s.exposure id - 1 ≤ netOf day (s.claims id) (s.refunded id) ∧
      (s.refunded id = 0 →
        100 * s.exposure id - 1 ≤ netOf day (s.claims id) (s.refunded id) - 1 / 2) := by
  obtain ⟨-, order, horder, hbuy, hday⟩ := mem_buysOn_iff.mp hid
  obtain ⟨⟨plan, hparams⟩, hfits, cents, hclaim, hcover, hrefund⟩ :=
    (h.claimed id).buy order horder hbuy
  have hexposure : s.exposure id = order.exposure := by
    rw [LiveState.exposure, horder]
    rfl
  have hnet : netOf day (s.claims id) (s.refunded id) = cents - s.refunded id := by
    rw [hclaim, hday]
    exact if_pos rfl
  have hle := ExchangeOrder.exposure_le_value hparams hfits
  rw [hexposure, hnet]
  push_cast
  by_cases hzero : s.refunded id = 0
  · rw [hzero]
    push_cast
    exact ⟨by linarith, fun _ => by linarith⟩
  · obtain ⟨hfinal, hfilled⟩ := hrefund hzero
    rw [ExchangeOrder.exposure_of_final hfinal]
    exact ⟨by linarith, fun h => absurd h hzero⟩

/-- A claim of the day without a buy order of the day is not refunded beyond itself, and
    it holds something until it is refunded. -/
theorem net_nonneg (h : Spent config s) (hid : id ∈ s.issued) (hbuys : id ∉ s.buysOn day) :
    0 ≤ netOf day (s.claims id) (s.refunded id) ∧ ∀ cents, s.claims id = some (day, cents) →
      s.refunded id = 0 → 1 ≤ netOf day (s.claims id) (s.refunded id) := by
  cases hclaim : s.claims id with
  | none => exact ⟨le_rfl, nofun⟩
  | some claim =>
    obtain ⟨claimDay, cents⟩ := claim
    rw [netOf]
    split_ifs with hday
    · have hle : s.refunded id ≤ cents := by
        cases hfound : s.exchange id with
        | none => exact (h.claimed id).unplaced hfound claimDay cents hclaim
        | some order =>
          exfalso
          cases hside : order.side with
          | buy =>
            obtain ⟨-, -, cents', hclaim', -⟩ := (h.claimed id).buy order hfound hside
            rw [hclaim] at hclaim'
            cases hclaim'
            exact hbuys (mem_buysOn_iff.mpr ⟨hid, order, hfound, hside, hday⟩)
          | sell =>
            rw [(h.claimed id).sell order hfound hside] at hclaim
            cases hclaim
      refine ⟨by omega, fun _ _ hzero => ?_⟩
      have hpos := (h.claimed id).positive claimDay cents hclaim
      omega
    · refine ⟨le_rfl, fun cents' hsame => ?_⟩
      cases hsame
      exact absurd rfl hday

/-- The costs of a day are bounded by any bound of each order on its own. -/
theorem sum_exposure_le {g : String → ℚ}
    (hbuys : ∀ id ∈ s.buysOn day, 100 * s.exposure id - 1 ≤ g id)
    (hrest : ∀ id ∈ s.issued, id ∉ s.buysOn day → 0 ≤ g id) :
    100 * ∑ id ∈ s.buysOn day, s.exposure id - (s.buysOn day).card ≤ ∑ id ∈ s.issued, g id := by
  calc 100 * ∑ id ∈ s.buysOn day, s.exposure id - (s.buysOn day).card
      = ∑ id ∈ s.buysOn day, (100 * s.exposure id - 1) := by
        rw [Finset.sum_sub_distrib, ← Finset.mul_sum, Finset.sum_const, nsmul_eq_mul, mul_one]
    _ ≤ ∑ id ∈ s.buysOn day, g id := Finset.sum_le_sum hbuys
    _ ≤ ∑ id ∈ s.issued, g id :=
        Finset.sum_le_sum_of_subset_of_nonneg (Finset.filter_subset _ _) hrest

/-- While some claim of the day has not been refunded, half a cent is to spare. -/
theorem sum_exposure_le_of_unrefunded (h : Spent config s) (hid : id ∈ s.issued) {cents : ℤ}
    (hclaim : s.claims id = some (day, cents)) (hzero : s.refunded id = 0) :
    100 * ∑ id ∈ s.buysOn day, s.exposure id - (s.buysOn day).card ≤ s.net day - 1 / 2 := by
  have hle : 100 * ∑ id ∈ s.buysOn day, s.exposure id - (s.buysOn day).card ≤
      ∑ j ∈ s.issued, ((netOf day (s.claims j) (s.refunded j) : ℚ) -
        if j = id then 1 / 2 else 0) := by
    apply sum_exposure_le
    · intro j hj
      split_ifs with heq
      · exact (exposure_le_net h hj).2 (heq ▸ hzero)
      · rw [sub_zero]
        exact (exposure_le_net h hj).1
    · intro j hj hbuys
      have hnonneg := net_nonneg h hj hbuys
      split_ifs with heq
      · subst heq
        have hone : (1 : ℚ) ≤ netOf day (s.claims j) (s.refunded j) := by
          exact_mod_cast hnonneg.2 cents hclaim hzero
        linarith
      · rw [sub_zero]
        exact_mod_cast hnonneg.1
  rw [Finset.sum_sub_distrib, Finset.sum_ite_eq', if_pos hid, ← Int.cast_sum] at hle
  exact hle

theorem sum_exposure_le_net (h : Spent config s) (day : ℕ) :
    100 * ∑ id ∈ s.buysOn day, s.exposure id - (s.buysOn day).card ≤ s.net day := by
  rw [net, Int.cast_sum]
  apply sum_exposure_le
  · exact fun id hid => (exposure_le_net h hid).1
  · intro id hid hbuys
    exact_mod_cast (net_nonneg h hid hbuys).1

theorem pending_nonneg (h : Spent config s) (day : ℕ) : 0 ≤ s.pending day := by
  apply List.sum_nonneg
  intro cents hcents
  obtain ⟨refund, hrefund, rfl⟩ := List.mem_map.mp hcents
  have hpos := (h.refund refund hrefund).1
  split_ifs <;> omega

theorem net_le_capCents (h : Spent config s) (day : ℕ) : s.net day ≤ config.capCents := by
  have hday := h.day day
  have hpending := pending_nonneg h day
  have hcounted := hday.counted
  have hcapped := hday.capped
  omega

/-- The counters imply the cap. -/
theorem withinDailyCap_of_spent (h : Spent config s) (hcap : 0 < config.maxDailyOrderValueUsdt) :
    WithinDailyCap config s := by
  intro day
  have hround : (config.capCents : ℚ) ≤ 100 * config.maxDailyOrderValueUsdt + 1 / 2 := by
    have hle := roundHalfUp_le (config.maxDailyOrderValueUsdt * 100)
    rw [LiveConfig.capCents]
    linarith
  rcases (h.day day).spare with ⟨id, hid, cents, hclaim, hzero⟩ | hspare | hnone
  · have hsum := sum_exposure_le_of_unrefunded h hid hclaim hzero
    have hle : (s.net day : ℚ) ≤ config.capCents := by exact_mod_cast net_le_capCents h day
    linarith
  · have hsum := sum_exposure_le_net h day
    have hle : (s.net day : ℚ) + 1 ≤ config.capCents := by exact_mod_cast hspare
    linarith
  · have hsum := sum_exposure_le_net h day
    have hle : (s.net day : ℚ) ≤ 0 := by exact_mod_cast hnone
    linarith

end Cap

end BotHive.Crypto
