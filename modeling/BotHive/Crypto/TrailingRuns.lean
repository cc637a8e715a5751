import BotHive.Crypto.TrailingStop

/-!
# Runs of a bot with a trailing stop

Each computed stop stands at the level of an entry price and of a high. As long as the high
that a check starts from never falls, and reaches the price of every check, the stop only
rises. Three kinds of steps can break this: a check that leaves the high below its price, a
take-profit exit that leaves its position open, and a reconnect that loads less than the
runtime had in memory.

## Main definitions

- `RisesOnly`: the computed stops rise, and stand at least at the level of every price
- `Tracks`: the steps that do not lose the high
- `Trails`: the invariant

## Main results

- `Trails.step`: what one such step preserves
- `risesOnly_of_tracks`: along every run of such steps the stop only rises
-/

namespace BotHive.Crypto

section Model

variable [CaseMapping] (bot : TrailingBot)

namespace TrailingBot

/-- The stop below a high. -/
def trailLevel (high : ℚ) : ℚ :=
  high * (1 - bot.trailingStopPct / 100)

/-- The effective stop of an entry price and a high. -/
def stopLevel (entry high : ℚ) : ℚ :=
  if 0 < bot.stopLossPct then max (entry * (1 - bot.stopLossPct / 100)) (bot.trailLevel high)
  else bot.trailLevel high

/-- The price is at the take-profit of the entry price. -/
def TakesProfit (entry price : ℚ) : Prop :=
  0 < bot.takeProfitPct ∧ entry * (1 + bot.takeProfitPct / 100) ≤ price

instance (entry price : ℚ) : Decidable (bot.TakesProfit entry price) :=
  inferInstanceAs (Decidable (_ ∧ _))

variable {bot} {entry entry' high high' price : ℚ} {trailHigh : Option ℚ}

theorem trailLevel_mono (h : high ≤ high') : bot.trailLevel high ≤ bot.trailLevel high' := by
  have hle := bot.trailing_le
  exact mul_le_mul_of_nonneg_right h (by linarith)

theorem trailLevel_le_stopLevel (entry high : ℚ) :
    bot.trailLevel high ≤ bot.stopLevel entry high := by
  rw [stopLevel]
  split_ifs
  · exact le_max_right _ _
  · exact le_rfl

theorem stopLevel_mono (hentry : entry ≤ entry') (hhigh : high ≤ high') :
    bot.stopLevel entry high ≤ bot.stopLevel entry' high' := by
  have hle := bot.stopLoss_le
  rw [stopLevel, stopLevel]
  split_ifs
  · exact max_le_max (mul_le_mul_of_nonneg_right hentry (by linarith)) (trailLevel_mono hhigh)
  · exact trailLevel_mono hhigh

/-- At the take-profit no stop is computed, and the high is not touched. -/
theorem exitLevels_takesProfit (h : bot.TakesProfit entry price) :
    exitLevels bot.toEvalConfig trailHigh entry price = ⟨some .takeProfit, none, none⟩ :=
  if_pos h

/-- Elsewhere the stop is that of the high raised to the price. -/
theorem stop_exitLevels (h : ¬ bot.TakesProfit entry price) :
    (exitLevels bot.toEvalConfig trailHigh entry price).stop =
      some (bot.stopLevel entry (max (trailHigh.getD entry) price)) := by
  have hpos := bot.trailing_pos
  rw [TakesProfit] at h
  rw [exitLevels, if_neg h, stopLevel]
  simp only [if_pos hpos]
  split_ifs <;> rfl

/-- And that high is what is stored afterwards. -/
theorem high_exitLevels (h : ¬ bot.TakesProfit entry price) :
    ((exitLevels bot.toEvalConfig trailHigh entry price).raised.or trailHigh).getD entry =
      max (trailHigh.getD entry) price := by
  have hpos := bot.trailing_pos
  rw [TakesProfit] at h
  rw [exitLevels, if_neg h]
  simp only [hpos, if_true, true_and]
  split_ifs with hraised
  · rfl
  · cases trailHigh with
    | none => exact absurd rfl hraised
    | some old =>
      rw [Option.all_some, decide_eq_true_eq, not_lt] at hraised
      exact (le_antisymm hraised (le_max_left old price)).symm

end TrailingBot

/-- The computed stops rise, and each stands at least at the level of every price up to its
    own check. -/
def RisesOnly (s : TrailingState) : Prop :=
  (∀ c ∈ s.checks, ∀ stop ∈ c.stop, bot.trailLevel c.price ≤ stop) ∧
    s.checks.Pairwise fun later earlier => ∀ stop ∈ later.stop,
      bot.trailLevel earlier.price ≤ stop ∧ ∀ old ∈ earlier.stop, old ≤ stop

omit [CaseMapping] in
/-- Rounding an amount leaves no more than what closes a dry position. -/
theorem sub_trim8_le (x : ℚ) : x - trim8 x ≤ DryState.dust := by
  have hround : x * 10 ^ 8 + 1 / 2 - 1 < roundHalfUp (x * 10 ^ 8) := Int.sub_one_lt_floor _
  rw [trim8, DryState.dust, sub_le_iff_le_add, ← add_div, le_div_iff₀ (by norm_num)]
  generalize x * 10 ^ 8 = y at hround ⊢
  generalize (roundHalfUp y : ℚ) = r at hround ⊢
  linarith

/-- The plan of an exit sells the whole quantity, rounded. -/
theorem sells_of_planMarketSell {guard : RiskGuard} {symbol : String} {price quantity : ℚ}
    {isExit : Bool} {plan : OrderPlan}
    (hplan : guard.planMarketSell symbol price quantity isExit = .ok plan) :
    plan.side = .sell ∧ plan.symbol = toUpperCase symbol ∧
      plan.quantity = some (trim8 quantity) := by
  rw [RiskGuard.planMarketSell] at hplan
  split_ifs at hplan
  cases hplan
  exact ⟨rfl, rfl, rfl⟩

/-- Selling the rounded position closes it, unless it is rounded to 0. -/
theorem Holdings.quantity_sellAll (d : DryState) {plan : OrderPlan} {symbol : String}
    (hside : plan.side = .sell) (hsymbol : plan.symbol = symbol)
    (hquantity : plan.quantity = some (trim8 ((dry d).quantity symbol)))
    (hne : plan.quantity ≠ some 0) (price : ℚ) (origin : String) (now : ℕ) :
    (dry (d.placeOrder plan price origin now).2).quantity symbol ≤ 0 := by
  have hne' : trim8 ((dry d).quantity symbol) ≠ 0 := fun h0 => hne (hquantity.trans (h0 ▸ rfl))
  have hsold : (d.placeOrder plan price origin now).2 =
      d.sell symbol (trim8 ((dry d).quantity symbol)) := by
    rw [DryState.placeOrder]
    simp only [hside, hsymbol, hquantity]
    exact if_neg hne'
  have hdust : ¬ DryState.dust < (d.positions.get symbol).getD 0 -
      trim8 ((dry d).quantity symbol) := not_lt.mpr (sub_trim8_le _)
  rw [hsold, Holdings.quantity, DryState.get_positions_sell, if_neg hdust]
  exact le_rfl

namespace TrailingState

/-- The high that the next check starts from. -/
def effectiveHigh (s : TrailingState) : ℚ :=
  s.holdings.effectiveHigh bot.symbol

/-- No check since the last buy has seen a higher price. -/
def CaughtUp (s : TrailingState) (high : ℚ) : Prop :=
  ∀ c ∈ s.checks, c.price ≤ high

instance (s : TrailingState) (high : ℚ) : Decidable (s.CaughtUp high) :=
  inferInstanceAs (Decidable (∀ c ∈ s.checks, c.price ≤ high))

omit [CaseMapping] in
theorem placeExit_of_dry {s : TrailingState} {d : DryState} (hdry : s.holdings = .dry d)
    (reason : ExitReason) (plan : OrderPlan) (price : ℚ) (now : ℕ) :
    s.placeExit reason plan price now =
      { s with holdings := .dry (d.placeOrder plan price reason.text now).2 } := by
  rw [placeExit, hdry]

omit [CaseMapping] in
theorem placeExit_of_live {s : TrailingState} {l : TradeLedger} (hlive : s.holdings = .live l)
    (reason : ExitReason) (plan : OrderPlan) (price : ℚ) (now : ℕ) :
    s.placeExit reason plan price now = { s with exiting := some reason } := by
  rw [placeExit, hlive]

variable {bot} in
/-- The stop that a check computes from some holdings. -/
theorem stop_levelsOf {h : Holdings} {price stop : ℚ} {free : Option ℚ}
    (hstop : stop ∈ (levelsOf bot h price free).bind ExitLevels.stop) :
    0 < h.entry bot.symbol ∧
      stop = bot.stopLevel (h.entry bot.symbol) (max (h.effectiveHigh bot.symbol) price) := by
  rw [levelsOf] at hstop
  split_ifs at hstop with hskip
  · cases hstop
  · rw [not_or, not_le, not_le] at hskip
    refine ⟨hskip.2, ?_⟩
    rw [Option.bind_some] at hstop
    by_cases hprofit : bot.TakesProfit (h.entry bot.symbol) price
    · rw [bot.exitLevels_takesProfit hprofit] at hstop
      cases hstop
    · rw [bot.stop_exitLevels hprofit] at hstop
      exact (Option.some.inj hstop).symm

theorem kept_answered (h : Holdings) (answer : OrderAnswer) :
    h.Kept bot.symbol (answered bot h answer) := by
  cases h with
  | dry d => exact .inr ⟨rfl, rfl⟩
  | live l =>
    cases answer with
    | error accepted => exact .inr ⟨rfl, rfl⟩
    | answered status executedQty quote =>
      rw [answered]
      split_ifs
      · refine Holdings.kept_live (TradeLedger.KeptAt.applyFill l _ _ _ _ (if_neg ?_))
        rintro ⟨⟨⟩, -⟩
      · exact .inr ⟨rfl, rfl⟩

/-- The guard lets the exit out, and a dry bot does not round its quantity to 0. -/
def exitGoesOut (h : Holdings) (price : ℚ) (free : Option ℚ) : Bool :=
  match bot.guard.planMarketSell bot.symbol price (h.available bot.symbol free) true, h with
  | .ok plan, .dry _ => decide (plan.quantity ≠ some 0)
  | .ok _, .live _ => true
  | .error _, _ => false

variable {bot} in
theorem exists_plan_of_exitGoesOut {h : Holdings} {price : ℚ} {free : Option ℚ}
    (hout : exitGoesOut bot h price free = true) :
    ∃ plan, bot.guard.planMarketSell bot.symbol price (h.available bot.symbol free) true =
      .ok plan := by
  unfold exitGoesOut at hout
  split at hout
  next plan _ hplan => exact ⟨plan, hplan⟩
  next plan _ hplan => exact ⟨plan, hplan⟩
  next => cases hout

/-- The holdings of an earlier runtime would give the same levels. -/
def SameLevels (s : TrailingState) (h : Holdings) : Prop :=
  h.entry bot.symbol = s.holdings.entry bot.symbol ∧
    h.effectiveHigh bot.symbol = s.effectiveHigh bot

/-- The steps that do not lose the high.

    - A check raises the high to its price, unless the position cannot be sold or has no
      entry price; at the take-profit the exit goes out.
    - The answer to a take-profit exit closes the position, or no price was above the high.
    - An earlier runtime checks with the levels of the current one.
    - A reconnect loads an entry price and a high that are no lower, and no price was above
      the loaded high; or nothing has been checked since the last buy. -/
def Tracks (s : TrailingState) : TrailingAction → Prop
  | .evaluate price free _ =>
    bot.autoTrade = false ∨ s.exiting.isSome ∨ s.holdings.quantity bot.symbol ≤ 0 ∨
      s.holdings.entry bot.symbol ≤ 0 ∨ price ≤ s.effectiveHigh bot ∨
      0 < s.holdings.available bot.symbol free ∧
        (bot.TakesProfit (s.holdings.entry bot.symbol) price →
          exitGoesOut bot s.holdings price free = true)
  | .exitAnswered answer =>
    s.exiting = some .takeProfit →
      (answered bot s.holdings answer).quantity bot.symbol ≤ 0 ∨ s.CaughtUp (s.effectiveHigh bot)
  | .lateEvaluate h price _ =>
    bot.autoTrade = false ∨ h.quantity bot.symbol ≤ 0 ∨ s.holdings.quantity bot.symbol ≤ 0 ∨
      SameLevels bot s h ∧
        (s.holdings.entry bot.symbol ≤ 0 ∨
          price ≤ s.effectiveHigh bot ∧ s.CaughtUp (s.effectiveHigh bot))
  | .reconnect reads =>
    s.checks = [] ∨ ∀ h ∈ s.holdings.load (if reads then s.stored else none),
      h.quantity bot.symbol ≤ 0 ∨
        s.holdings.entry bot.symbol ≤ h.entry bot.symbol ∧
          s.effectiveHigh bot ≤ h.effectiveHigh bot.symbol ∧
          s.CaughtUp (h.effectiveHigh bot.symbol)
  | .change _ | .save _ | .lateSave _ => True

instance (s : TrailingState) (h : Holdings) : Decidable (SameLevels bot s h) :=
  inferInstanceAs (Decidable (_ ∧ _))

instance (s : TrailingState) : (a : TrailingAction) → Decidable (Tracks bot s a)
  | .evaluate .. => inferInstanceAs (Decidable (_ ∨ _))
  | .exitAnswered _ => inferInstanceAs (Decidable (_ → _))
  | .lateEvaluate .. => inferInstanceAs (Decidable (_ ∨ _))
  | .reconnect _ => inferInstanceAs (Decidable (_ ∨ _))
  | .change _ | .save _ | .lateSave _ => .isTrue trivial

/-- The invariant: once a stop has been computed the entry price is known, the computed stops
    are at most that of the next check, and no price is above the high, unless a take-profit
    exit is underway. -/
structure Trails (s : TrailingState) : Prop where
  rises : RisesOnly bot s
  stops : ∀ c ∈ s.checks, ∀ stop ∈ c.stop, 0 < s.holdings.entry bot.symbol ∧
    stop ≤ bot.stopLevel (s.holdings.entry bot.symbol) (s.effectiveHigh bot)
  caught : 0 < s.holdings.entry bot.symbol →
    s.exiting = some .takeProfit ∨ s.CaughtUp (s.effectiveHigh bot)

namespace Trails

variable {bot} {s : TrailingState} {h' : Holdings} {price : ℚ}

theorem of_no_checks (hnone : s.checks = []) : Trails bot s where
  rises := by simp [RisesOnly, hnone]
  stops := by simp [hnone]
  caught _ := .inr (by simp [CaughtUp, hnone])

/-- A position that is closed has no checks. -/
theorem settle (h : s.holdings.quantity bot.symbol ≤ 0 ∨ Trails bot s) :
    Trails bot (s.settle bot) := by
  rw [TrailingState.settle]
  split_ifs with hflat
  · exact of_no_checks rfl
  · exact h.resolve_left hflat

/-- Holdings with an entry price and a high that are no lower, and the high reaches every
    price unless a take-profit exit is underway. -/
theorem move (h : Trails bot s) (exiting : Option ExitReason)
    (hentry : s.holdings.entry bot.symbol ≤ h'.entry bot.symbol)
    (hhigh : s.effectiveHigh bot ≤ h'.effectiveHigh bot.symbol)
    (hcaught : 0 < h'.entry bot.symbol →
      exiting = some .takeProfit ∨ s.CaughtUp (h'.effectiveHigh bot.symbol)) :
    Trails bot { s with holdings := h', exiting := exiting } where
  rises := h.rises
  stops c hc stop hstop := by
    obtain ⟨hpos, hle⟩ := h.stops c hc stop hstop
    exact ⟨hpos.trans_le hentry, hle.trans (bot.stopLevel_mono hentry hhigh)⟩
  caught := hcaught

/-- What keeps the entry price and the high keeps the invariant. -/
theorem kept (h : Trails bot s) (hkept : s.holdings.Kept bot.symbol h') :
    Trails bot ({ s with holdings := h' }.settle bot) := by
  refine settle (hkept.imp_right ?_)
  rintro ⟨hentry, hhigh⟩
  have heffective : h'.effectiveHigh bot.symbol = s.effectiveHigh bot := by
    rw [Holdings.effectiveHigh, hentry, hhigh]
    rfl
  refine h.move s.exiting hentry.ge heffective.ge ?_
  rw [hentry, heffective]
  exact h.caught

/-- A check joins the others when its stop is that of the next check, and at least at the
    level of every price. -/
theorem note (h : Trails bot s) {check : ExitCheck}
    (hstop : ∀ stop ∈ check.stop, 0 < s.holdings.entry bot.symbol ∧
      stop = bot.stopLevel (s.holdings.entry bot.symbol) (s.effectiveHigh bot) ∧
      check.price ≤ s.effectiveHigh bot ∧ s.CaughtUp (s.effectiveHigh bot))
    (hprice : 0 < s.holdings.entry bot.symbol →
      s.exiting = some .takeProfit ∨ check.price ≤ s.effectiveHigh bot) :
    Trails bot (s.note check) where
  rises := by
    refine ⟨List.forall_mem_cons.mpr ⟨fun stop hs => ?_, h.rises.1⟩,
      List.pairwise_cons.mpr ⟨fun earlier hearlier stop hs => ?_, h.rises.2⟩⟩
    · obtain ⟨-, rfl, hle, -⟩ := hstop stop hs
      exact (bot.trailLevel_mono hle).trans (bot.trailLevel_le_stopLevel _ _)
    · obtain ⟨-, rfl, -, hcaught⟩ := hstop stop hs
      constructor
      · exact (bot.trailLevel_mono (hcaught earlier hearlier)).trans
          (bot.trailLevel_le_stopLevel _ _)
      · intro old hold
        exact (h.stops earlier hearlier old hold).2
  stops := by
    refine List.forall_mem_cons.mpr ⟨fun stop hs => ?_, h.stops⟩
    obtain ⟨hentry, heq, -⟩ := hstop stop hs
    exact ⟨hentry, heq.le⟩
  caught hentry := by
    rcases hprice hentry with hexit | hle
    · exact .inl hexit
    · exact (h.caught hentry).imp_right fun hcaught => List.forall_mem_cons.mpr ⟨hle, hcaught⟩

/-- A check that computes no stop. -/
theorem note_none (h : Trails bot s)
    (hprice : 0 < s.holdings.entry bot.symbol →
      s.exiting = some .takeProfit ∨ price ≤ s.effectiveHigh bot) :
    Trails bot (s.note ⟨price, none⟩) :=
  h.note (by simp) hprice

/-- A check below the take-profit raises the high and computes the stop from it. -/
theorem raise (h : Trails bot s) (hcaught : s.CaughtUp (s.effectiveHigh bot))
    (hentry : 0 < s.holdings.entry bot.symbol)
    (hprofit : ¬ bot.TakesProfit (s.holdings.entry bot.symbol) price) {levels : ExitLevels}
    (hlevels : levels = exitLevels bot.toEvalConfig (s.holdings.trailHigh bot.symbol)
      (s.holdings.entry bot.symbol) price) :
    Trails bot (({ s with holdings := s.holdings.raise bot.symbol levels.raised }).note
      ⟨price, levels.stop⟩) := by
  let raised : TrailingState :=
    { s with holdings := s.holdings.raise bot.symbol levels.raised }
  have hentry_eq : raised.holdings.entry bot.symbol = s.holdings.entry bot.symbol :=
    Holdings.entry_raise ..
  have hhigh : raised.effectiveHigh bot = max (s.effectiveHigh bot) price := by
    show (s.holdings.raise bot.symbol levels.raised).effectiveHigh bot.symbol = _
    rw [Holdings.effectiveHigh, Holdings.entry_raise, Holdings.trailHigh_raise, hlevels]
    exact bot.high_exitLevels hprofit
  have hstop : levels.stop = some (bot.stopLevel (raised.holdings.entry bot.symbol)
      (raised.effectiveHigh bot)) := by
    rw [hlevels, hentry_eq, hhigh]
    exact bot.stop_exitLevels hprofit
  have hprice : price ≤ raised.effectiveHigh bot := hhigh ▸ le_max_right _ _
  have hle : s.effectiveHigh bot ≤ raised.effectiveHigh bot := hhigh ▸ le_max_left _ _
  have hcaught' : s.CaughtUp (raised.effectiveHigh bot) := fun c hc => (hcaught c hc).trans hle
  have hmoved : Trails bot raised := h.move s.exiting hentry_eq.ge hle fun _ => .inr hcaught'
  refine hmoved.note ?_ fun _ => .inr hprice
  intro stop hs
  obtain rfl := Option.some.inj (hstop.symm.trans hs)
  exact ⟨hentry_eq ▸ hentry, rfl, hprice, hcaught'⟩

/-- An exit order that goes out: a dry bot sells at once, a live one waits. -/
theorem placeExit (h : Trails bot s) (hcaught : s.CaughtUp (s.effectiveHigh bot))
    {plan : OrderPlan} (hside : plan.side = .sell) (reason : ExitReason) (price : ℚ) (now : ℕ) :
    Trails bot ((s.placeExit reason plan price now).settle bot) := by
  cases hh : s.holdings with
  | dry d =>
    rw [placeExit_of_dry hh]
    refine h.kept (hh ▸ Holdings.kept_placeOrder d plan price reason.text now fun hbuy => ?_)
    rw [hside] at hbuy
    cases hbuy.1
  | live l =>
    rw [placeExit_of_live hh]
    exact settle (.inr (h.move (some reason) le_rfl le_rfl fun _ => .inr hcaught))

/-- A take-profit exit that goes out: its price may be above the high, since the position is
    closed at once or the order keeps other checks out. -/
theorem placeProfit (h : Trails bot s) {plan : OrderPlan} {free : Option ℚ}
    (hplan : bot.guard.planMarketSell bot.symbol price (s.holdings.available bot.symbol free)
      true = .ok plan)
    (hout : exitGoesOut bot s.holdings price free = true) (now : ℕ) :
    Trails bot
      (((s.note ⟨price, none⟩).placeExit .takeProfit plan price now).settle bot) := by
  obtain ⟨hside, hsymbol, hquantity⟩ := sells_of_planMarketSell hplan
  rw [bot.symbol_upper] at hsymbol
  unfold exitGoesOut at hout
  rw [hplan] at hout
  cases hh : s.holdings with
  | dry d =>
    have hnoted : (s.note ⟨price, none⟩).holdings = .dry d := hh
    rw [hh] at hout hquantity
    rw [placeExit_of_dry hnoted]
    exact settle (.inl (Holdings.quantity_sellAll d hside hsymbol hquantity
      (of_decide_eq_true hout) price _ now))
  | live l =>
    have hnoted : (s.note ⟨price, none⟩).holdings = .live l := hh
    rw [placeExit_of_live hnoted]
    have hmoved := h.move (some .takeProfit) le_rfl le_rfl fun _ => .inl rfl
    exact settle (.inr (hmoved.note_none fun _ => .inl rfl))

/-- Without an exit order every price is at most the high. -/
theorem caught_of_idle (h : Trails bot s) (hidle : s.exiting = none)
    (hentry : 0 < s.holdings.entry bot.symbol) : s.CaughtUp (s.effectiveHigh bot) := by
  refine (h.caught hentry).resolve_left ?_
  rw [hidle]
  rintro ⟨⟩

/-- What follows a check: an exit order, if there is a reason and the guard lets it out. -/
theorem tryExit (h : Trails bot s) (hidle : s.exiting = none)
    (hentry : 0 < s.holdings.entry bot.symbol) (reason : Option ExitReason) {quantity : ℚ}
    (price : ℚ) (now : ℕ) :
    Trails bot ((match reason, bot.guard.planMarketSell bot.symbol price quantity true with
      | some reason, .ok plan => s.placeExit reason plan price now
      | _, _ => s : TrailingState).settle bot) := by
  cases reason with
  | none => exact settle (.inr h)
  | some reason =>
    cases hplan : bot.guard.planMarketSell bot.symbol price quantity true with
    | error _ => exact settle (.inr h)
    | ok plan =>
      exact h.placeExit (h.caught_of_idle hidle hentry) (sells_of_planMarketSell hplan).1 reason
        price now

/-- **Check**: an exit check that tracks its price. -/
theorem checkExits (h : Trails bot s) (hidle : s.exiting = none) {free : Option ℚ}
    (hok : s.holdings.entry bot.symbol ≤ 0 ∨ price ≤ s.effectiveHigh bot ∨
      0 < s.holdings.available bot.symbol free ∧
        (bot.TakesProfit (s.holdings.entry bot.symbol) price →
          exitGoesOut bot s.holdings price free = true)) (now : ℕ) :
    Trails bot ((s.checkExits bot price free now).settle bot) := by
  rw [TrailingState.checkExits, levelsOf]
  split_ifs with hskip
  · -- no check is possible; the price is noted without a stop
    refine settle (.inr (h.note_none fun hentry => .inr ?_))
    rcases hok with hunknown | hle | ⟨havailable, -⟩
    · exact absurd hentry (not_lt.mpr hunknown)
    · exact hle
    · exact absurd havailable (not_lt.mpr (hskip.resolve_right (not_le.mpr hentry)))
  · rw [not_or, not_le, not_le] at hskip
    have hcaught := h.caught_of_idle hidle hskip.2
    dsimp only
    by_cases hprofit : bot.TakesProfit (s.holdings.entry bot.symbol) price
    · rw [bot.exitLevels_takesProfit hprofit]
      dsimp only [Holdings.raise, Option.elim_none]
      have hle : exitGoesOut bot s.holdings price free = true ∨ price ≤ s.effectiveHigh bot := by
        rcases hok with hunknown | hle | ⟨-, hout⟩
        · exact absurd hskip.2 (not_lt.mpr hunknown)
        · exact .inr hle
        · exact .inl (hout hprofit)
      rcases hle with hout | hle
      · obtain ⟨plan, hplan⟩ := exists_plan_of_exitGoesOut hout
        rw [hplan]
        exact h.placeProfit hplan hout now
      · have hnoted : Trails bot (s.note ⟨price, none⟩) := h.note_none fun _ => .inr hle
        exact hnoted.tryExit hidle hskip.2 _ price now
    · refine (h.raise hcaught hskip.2 hprofit rfl).tryExit hidle ?_ _ price now
      exact hskip.2.trans_le (Holdings.entry_raise ..).ge

theorem evaluate (h : Trails bot s) {price : ℚ} {free : Option ℚ} {now : ℕ}
    (hok : Tracks bot s (.evaluate price free now)) :
    Trails bot (s.evaluate bot price free now) := by
  rw [TrailingState.evaluate]
  split_ifs with hskip
  · exact h
  · rw [not_or, not_or] at hskip
    obtain ⟨hon, hidle, hopen⟩ := hskip
    refine h.checkExits (Option.not_isSome_iff_eq_none.mp hidle) ?_ now
    exact ((hok.resolve_left hon).resolve_left hidle).resolve_left hopen

/-- The answer to an exit order. -/
theorem answered (h : Trails bot s) (answer : OrderAnswer)
    (hok : s.exiting = some .takeProfit →
      (answered bot s.holdings answer).quantity bot.symbol ≤ 0 ∨
        s.CaughtUp (s.effectiveHigh bot)) :
    Trails bot (({ s with
      holdings := TrailingState.answered bot s.holdings answer
      exiting := none }).settle bot) := by
  have hkept : s.holdings.Kept bot.symbol (TrailingState.answered bot s.holdings answer) :=
    kept_answered bot s.holdings answer
  by_cases hclosed : (TrailingState.answered bot s.holdings answer).quantity bot.symbol ≤ 0
  · exact settle (.inl hclosed)
  · obtain ⟨hentry, hhigh⟩ := hkept.resolve_left hclosed
    have heffective : (TrailingState.answered bot s.holdings answer).effectiveHigh bot.symbol =
        s.effectiveHigh bot := by
      rw [Holdings.effectiveHigh, hentry, hhigh]
      rfl
    refine settle (.inr (h.move none hentry.ge heffective.ge fun hpos => .inr ?_))
    rw [heffective]
    rcases h.caught (hentry ▸ hpos) with hprofit | hcaught
    · exact (hok hprofit).resolve_left hclosed
    · exact hcaught

/-- A check by an earlier runtime. -/
theorem lateEvaluate (h : Trails bot s) {price : ℚ} {free : Option ℚ}
    (hok : Tracks bot s (.lateEvaluate h' price free)) :
    Trails bot (s.lateEvaluate bot h' price free) := by
  rw [TrailingState.lateEvaluate]
  split_ifs with hskip
  · exact h
  · rw [not_or] at hskip
    rcases hok with hoff | hflat | hflat | ⟨⟨hentry, hhigh⟩, hok⟩
    · exact absurd hoff hskip.1
    · exact absurd hflat hskip.2
    · exact settle (.inl hflat)
    · refine settle (.inr (h.note ?_ fun hpos => .inr (hok.resolve_left (not_le.mpr hpos)).1))
      intro stop hstop
      obtain ⟨hpos, heq⟩ := stop_levelsOf hstop
      rw [hentry] at hpos
      obtain ⟨hle, hcaught⟩ := hok.resolve_left (not_le.mpr hpos)
      rw [hentry, hhigh, max_eq_left hle] at heq
      exact ⟨hpos, heq, hle, hcaught⟩

/-- A reconnect that loads no less than was in memory. -/
theorem reconnect (h : Trails bot s)
    (hok : s.checks = [] ∨ h'.quantity bot.symbol ≤ 0 ∨
      s.holdings.entry bot.symbol ≤ h'.entry bot.symbol ∧
        s.effectiveHigh bot ≤ h'.effectiveHigh bot.symbol ∧
        s.CaughtUp (h'.effectiveHigh bot.symbol)) :
    Trails bot (({ s with holdings := h', exiting := none }).settle bot) := by
  rcases hok with hnone | hflat | ⟨hentry, hhigh, hcaught⟩
  · exact settle (.inr (of_no_checks hnone))
  · exact settle (.inl hflat)
  · exact settle (.inr (h.move none hentry hhigh fun _ => .inr hcaught))

/-- **Step**: a step that does not lose the high keeps the invariant. -/
theorem step {s' : TrailingState} {a : TrailingAction} (h : Trails bot s) (hok : Tracks bot s a)
    (hstep : s.step bot a = some s') : Trails bot s' := by
  cases a with
  | evaluate price free now =>
    cases hstep
    exact h.evaluate hok
  | exitAnswered answer =>
    rw [TrailingState.step] at hstep
    cases hexit : s.exiting with
    | none =>
      rw [hexit] at hstep
      cases hstep
    | some reason =>
      rw [hexit] at hstep
      cases hstep
      exact h.answered answer hok
  | change change =>
    obtain ⟨h', hchange, rfl⟩ := Option.map_eq_some_iff.mp hstep
    split_ifs with hbuy
    · exact settle (.inr (of_no_checks rfl))
    · exact h.kept (Holdings.kept_of_change hchange hbuy)
  | save now =>
    cases hstep
    exact { h with }
  | lateEvaluate h' price free =>
    cases hstep
    exact h.lateEvaluate hok
  | lateSave text =>
    cases hstep
    exact { h with }
  | reconnect reads =>
    obtain ⟨h', hload, rfl⟩ := Option.map_eq_some_iff.mp hstep
    exact h.reconnect (hok.imp_right fun hloaded => hloaded h' hload)

end Trails

/-- **Trailing stop**: in a run from any holdings whose steps do not lose the high, the stop
    only rises, and is never below the level of a price that has been checked since the last
    buy. -/
theorem risesOnly_of_tracks (holdings : Holdings) (stored : Option Value)
    (as : List TrailingAction)
    (hok : Machine.Along (step bot) (Tracks bot) (start holdings stored) as) :
    Machine.Everywhere (step bot) (RisesOnly bot) (start holdings stored) as :=
  Machine.everywhere_of_invariant (Trails bot) (RisesOnly bot)
    (fun _ _ _ h hok hstep => h.step hok hstep) (fun _ h => h.rises) (Trails.of_no_checks rfl) hok

end TrailingState

end Model

namespace TrailingState

/-- A dry bot that trails its high by ten percent. -/
def trailingTen : TrailingBot where
  symbol := "BTCUSDT"
  pollIntervalMs := 60000
  stopLossPct := 0
  takeProfitPct := 0
  trailingStopPct := 10
  guard := ⟨.dry, 100, false, []⟩
  autoTrade := true
  symbol_upper := by decide
  trailing_pos := by norm_num
  trailing_le := by norm_num
  stopLoss_le := by norm_num

/-- A market buy for 100 USDT. -/
def buyHundred : OrderPlan :=
  ⟨"BTCUSDT", .buy, .market, none, some 100, none, 100⟩

/-- A market sell of a half. -/
def sellHalf : OrderPlan :=
  ⟨"BTCUSDT", .sell, .market, some (1 / 2), none, none, 75⟩

/-- The high of 150 is saved with a trade; after a reconnect the stop stays at 135, and the
    fall to 130 closes the position. -/
theorem risesOnly_savedHigh :
    Machine.Everywhere (step trailingTen) (RisesOnly trailingTen) (start (.dry .empty) none)
      [.change (.trade buyHundred 100 "auto-signal" 0), .save 0, .evaluate 150 none 1,
        .change (.trade sellHalf 150 "command" 2), .save 2, .reconnect true,
        .evaluate 140 none 3, .evaluate 130 none 4] :=
  risesOnly_of_tracks trailingTen _ _ _ (by decide +kernel)

/-- The high of 150 is in memory only. After a reconnect the price falls to 120, and the stop
    from 135 to 108. -/
theorem not_risesOnly_lostHigh :
    let run : List TrailingAction :=
      [.change (.trade buyHundred 100 "auto-signal" 0), .save 0, .evaluate 150 none 1,
        .reconnect true, .evaluate 120 none 2]
    (Machine.exec (step trailingTen) (start (.dry .empty) none) run).map TrailingState.checks =
        some [⟨120, some 108⟩, ⟨150, some 135⟩] ∧
      ¬ Machine.Everywhere (step trailingTen) (RisesOnly trailingTen) (start (.dry .empty) none)
        run := by
  intro run
  have hchecks : (Machine.exec (step trailingTen) (start (.dry .empty) none) run).map
      TrailingState.checks = some [⟨120, some 108⟩, ⟨150, some 135⟩] := by
    decide +kernel
  refine ⟨hchecks, fun hrises => ?_⟩
  obtain ⟨s, hexec, hs⟩ := Option.map_eq_some_iff.mp hchecks
  have hfalls : RisesOnly trailingTen s := hrises.at_end hexec
  rw [RisesOnly, hs] at hfalls
  have hle : (135 : ℚ) ≤ 108 :=
    ((List.pairwise_cons.mp hfalls.2).1 ⟨150, some 135⟩ (by simp) 108 rfl).2 135 rfl
  norm_num at hle

end TrailingState

end BotHive.Crypto
