import BotHive.Crypto.SpendInvariant

/-!
# The counters of the days

What claims and refunds do to the key of a day in Redis, and to what the claims of the
day still hold.

## Main results

- `DaySound.claim`, `DaySound.issueRefund`, `DaySound.refund`: the keys of all days stay
  sound when Redis grants a claim, when a refund is sent and when Redis runs it
-/

namespace BotHive.Crypto

open LiveState

/-- The step neither claims nor refunds. -/
structure SameSpend (s s' : LiveState) : Prop where
  counters : s'.counters = s.counters
  claims : s'.claims = s.claims
  refunded : s'.refunded = s.refunded
  refunds : s'.refunds = s.refunds
  issued : s'.issued = s.issued
  now : s'.now = s.now

theorem sum_eq_add_of_eq_off {ι : Type*} [DecidableEq ι] {t : Finset ι} {f g : ι → ℤ} {i : ι}
    (hi : i ∈ t) (h : ∀ j, j ≠ i → g j = f j) :
    ∑ j ∈ t, g j = ∑ j ∈ t, f j + (g i - f i) := by
  have hrest : ∑ j ∈ t.erase i, g j = ∑ j ∈ t.erase i, f j :=
    Finset.sum_congr rfl fun j hj => h j (Finset.ne_of_mem_erase hj)
  rw [← Finset.add_sum_erase t g hi, ← Finset.add_sum_erase t f hi, hrest]
  ring

section Days

variable {config : LiveConfig} {s s' : LiveState} {day : ℕ}

theorem net_of_sameSpend (h : SameSpend s s') : s'.net day = s.net day := by
  rw [net, net, h.issued, h.claims, h.refunded]

theorem DaySound.of_sameSpend (h : DaySound config s day) (hsame : SameSpend s s') :
    DaySound config s' day := by
  have hnet : s'.net day = s.net day := net_of_sameSpend hsame
  have hpending : s'.pending day = s.pending day := by rw [pending, pending, hsame.refunds]
  refine ⟨?_, ?_, ?_, ?_⟩
  · rw [hsame.counters]
    exact h.expiry
  · rw [hsame.counters]
    exact h.capped
  · rw [hnet, hpending, hsame.counters]
    exact h.counted
  · rw [hnet, hsame.issued, hsame.claims, hsame.refunded]
    exact h.spare

/-- A command that Redis runs in time finds the key of its day. -/
theorem DaySound.read_counters (h : DaySound config s day) (hday : DuringDay day s.now) :
    (s.counters day).read s.now = s.counters day := by
  rw [DayCounter.read]
  apply if_neg
  rw [Option.any_eq_true]
  rintro ⟨t, ht, hle⟩
  have hexpiry := h.expiry t ht
  have hnow := of_decide_eq_true hle
  have hbefore := hday.2
  omega

theorem duringDay_utcDate (now : ℕ) : DuringDay (utcDate now) now := by
  rw [DuringDay, utcDate]
  have hpos : 0 < dayMs := by decide
  have hlt := Nat.lt_div_mul_add (a := now) hpos
  refine ⟨Nat.div_mul_le_self now dayMs, ?_⟩
  rw [add_mul]
  omega

/-- A key set during the day or the day after outlives its day by one more. -/
theorem DuringDay.expiry {now : ℕ} (h : DuringDay day now) :
    (day + 2) * dayMs ≤ now + dailySpendTtlMs := by
  have hstart := h.1
  have httl : dailySpendTtlMs = 2 * dayMs := by decide
  rw [add_mul, httl]
  omega

/-- A step about the claim of one order. -/
theorem net_eq_add {id : String} (hissued : s'.issued = s.issued) (hid : id ∈ s.issued)
    (hother : ∀ j, j ≠ id → s'.claims j = s.claims j ∧ s'.refunded j = s.refunded j) (day : ℕ) :
    s'.net day = s.net day +
      (netOf day (s'.claims id) (s'.refunded id) - netOf day (s.claims id) (s.refunded id)) := by
  rw [net, net, hissued]
  apply sum_eq_add_of_eq_off (f := fun j => netOf day (s.claims j) (s.refunded j)) hid
  intro j hne
  rw [(hother j hne).1, (hother j hne).2]

theorem netOf_refund (day claimDay : ℕ) (cents refunded x : ℤ) :
    netOf day (some (claimDay, cents)) (refunded + x) =
      netOf day (some (claimDay, cents)) refunded - if claimDay = day then x else 0 := by
  rw [netOf, netOf]
  split_ifs <;> ring

/-- What a claim adds to its day. -/
theorem net_claim {id : String} {cents : ℤ} (hissued : s'.issued = s.issued)
    (hclaims : s'.claims = Function.update s.claims id (some (day, cents)))
    (hrefunded : s'.refunded = s.refunded) (hid : id ∈ s.issued) (hnone : s.claims id = none)
    (hzero : s.refunded id = 0) (d : ℕ) :
    s'.net d = s.net d + if day = d then cents else 0 := by
  rw [net_eq_add hissued hid _ d]
  · rw [hclaims, Function.update_self, hrefunded, hnone, hzero, netOf, netOf, sub_zero, sub_zero]
  · intro j hne
    rw [hclaims, hrefunded]
    exact ⟨Function.update_of_ne hne _ _, rfl⟩

theorem refund_cases {counter : DayCounter} {now : ℕ} (cents : ℤ)
    (hread : counter.read now = counter) :
    (counter.cents < cents ∧ counter.refund now cents = {
      cents := 0
      expiresAt := some (now + dailySpendTtlMs) }) ∨
    (cents ≤ counter.cents ∧
      counter.refund now cents = { counter with cents := counter.cents - cents }) := by
  rw [DayCounter.refund, hread]
  by_cases hlt : counter.cents - cents < 0
  · exact Or.inl ⟨by omega, if_pos hlt⟩
  · exact Or.inr ⟨by omega, if_neg hlt⟩

/-- What the script of a refund does to the keys of all days. -/
theorem DaySound.refund {refund : Refund} {d : ℕ} (h : DaySound config s d)
    (hcap : 0 ≤ config.capCents) (hmem : refund ∈ s.refunds) (hone : 1 ≤ refund.cents)
    (hduring : DuringDay refund.day s.now)
    (hcounters : s'.counters = Function.update s.counters refund.day
      ((s.counters refund.day).refund s.now refund.cents))
    (hrefunds : s'.refunds = s.refunds.erase refund) (hissued : s'.issued = s.issued)
    (hclaims : s'.claims = s.claims) (hrefunded : s'.refunded = s.refunded) :
    DaySound config s' d := by
  have hcounted := h.counted
  have hcapped := h.capped
  have hnet : s'.net d = s.net d := by rw [net, net, hissued, hclaims, hrefunded]
  have hpending : (if refund.day = d then refund.cents else 0) + s'.pending d = s.pending d := by
    rw [pending, pending, hrefunds]
    exact List.sum_map_erase (fun other : Refund => if other.day = d then other.cents else 0) hmem
  have hspare := h.spare
  rw [← hissued, ← hclaims, ← hrefunded, ← hnet] at hspare
  by_cases hsame : d = refund.day
  · subst hsame
    rw [if_pos rfl] at hpending
    obtain ⟨hlt, hrefund⟩ | ⟨hle, hrefund⟩ :=
      refund_cases refund.cents (h.read_counters hduring)
    · have hself : s'.counters refund.day = {
          cents := 0
          expiresAt := some (s.now + dailySpendTtlMs) } := by
        rw [hcounters, Function.update_self, hrefund]
      refine ⟨?_, ?_, ?_, hspare⟩
      · rw [hself]
        rintro _ ⟨⟩
        exact hduring.expiry
      · rw [hself]
        exact hcap
      · rw [hself]
        dsimp only
        omega
    · have hself : s'.counters refund.day = { s.counters refund.day with
          cents := (s.counters refund.day).cents - refund.cents } := by
        rw [hcounters, Function.update_self, hrefund]
      refine ⟨?_, ?_, ?_, hspare⟩
      · rw [hself]
        exact h.expiry
      · rw [hself]
        dsimp only
        omega
      · rw [hself]
        dsimp only
        omega
  · rw [if_neg fun heq => hsame heq.symm, zero_add] at hpending
    have hother : s'.counters d = s.counters d := by
      rw [hcounters, Function.update_of_ne hsame]
    refine ⟨?_, ?_, ?_, hspare⟩
    · rw [hother]
      exact h.expiry
    · rw [hother]
      exact hcapped
    · rw [hother, hnet, hpending]
      exact hcounted

/-- What a claim of a day does to the keys of all days. -/
theorem DaySound.claim {id : String} {cents : ℤ} {d : ℕ} (h : DaySound config s d)
    (hduring : DuringDay day s.now) (hcap : (s.counters day).cents + cents ≤ config.capCents)
    (hcounters : s'.counters = Function.update s.counters day {
      cents := (s.counters day).cents + cents
      expiresAt := some (s.now + dailySpendTtlMs) })
    (hclaims : s'.claims = Function.update s.claims id (some (day, cents)))
    (hrefunded : s'.refunded = s.refunded) (hrefunds : s'.refunds = s.refunds)
    (hissued : s'.issued = s.issued) (hid : id ∈ s.issued) (hnone : s.claims id = none)
    (hzero : s.refunded id = 0) : DaySound config s' d := by
  have hcounted := h.counted
  have hnet := net_claim hissued hclaims hrefunded hid hnone hzero d
  have hpending : s'.pending d = s.pending d := by rw [pending, pending, hrefunds]
  by_cases hsame : d = day
  · subst hsame
    rw [if_pos rfl] at hnet
    have hself : s'.counters d = {
        cents := (s.counters d).cents + cents
        expiresAt := some (s.now + dailySpendTtlMs) } := by
      rw [hcounters, Function.update_self]
    refine ⟨?_, ?_, ?_, Or.inl ⟨id, ?_, cents, ?_, ?_⟩⟩
    · rw [hself]
      rintro _ ⟨⟩
      exact hduring.expiry
    · rw [hself]
      exact hcap
    · rw [hself, hnet, hpending]
      dsimp only
      omega
    · rw [hissued]
      exact hid
    · rw [hclaims, Function.update_self]
    · rw [hrefunded]
      exact hzero
  · rw [if_neg fun heq => hsame heq.symm, add_zero] at hnet
    have hother : s'.counters d = s.counters d := by
      rw [hcounters, Function.update_of_ne hsame]
    refine ⟨?_, ?_, ?_, ?_⟩
    · rw [hother]
      exact h.expiry
    · rw [hother]
      exact h.capped
    · rw [hother, hnet, hpending]
      exact hcounted
    · rw [hnet, hissued, hrefunded]
      rcases h.spare with ⟨j, hj, cents', hclaim, hunrefunded⟩ | hspare
      · have hne : j ≠ id := by
          rintro rfl
          rw [hnone] at hclaim
          cases hclaim
        refine Or.inl ⟨j, hj, cents', ?_, hunrefunded⟩
        rw [hclaims, Function.update_of_ne hne]
        exact hclaim
      · exact Or.inr hspare

section Refund

variable {id : String} {valueUsdt : ℚ}

/-- What a refund takes off the claims of its day. -/
theorem net_refundDailySpend (hpos : ¬ valueUsdt ≤ 0) (hissued : id ∈ s.issued) {cents : ℤ}
    (hclaim : s.claims id = some (utcDate s.now, cents)) (day : ℕ) :
    (s.refundDailySpend id valueUsdt).net day =
      s.net day - if utcDate s.now = day then toCents valueUsdt else 0 := by
  rw [LiveState.refundDailySpend, if_neg hpos, net_eq_add _ hissued _ day]
  · dsimp only
    rw [Function.update_self, hclaim, netOf_refund]
    ring
  · rfl
  · exact fun j hne => ⟨rfl, Function.update_of_ne hne _ _⟩

/-- The refund is on its way to the key of its day. -/
theorem pending_refundDailySpend (s : LiveState) (id : String) (hpos : ¬ valueUsdt ≤ 0)
    (day : ℕ) :
    (s.refundDailySpend id valueUsdt).pending day =
      s.pending day + if utcDate s.now = day then toCents valueUsdt else 0 := by
  rw [LiveState.refundDailySpend, if_neg hpos, pending, pending, List.map_cons, List.sum_cons,
    add_comm]

/-- A refund for an order that was claimed on the same day is sent: from then on there is
    a cent to spare. -/
theorem DaySound.issueRefund (h : DaySound config s day) (hle : s.net day ≤ config.capCents)
    (hpos : ¬ valueUsdt ≤ 0) (hissued : id ∈ s.issued) {cents : ℤ}
    (hclaim : s.claims id = some (utcDate s.now, cents)) :
    DaySound config (s.refundDailySpend id valueUsdt) day := by
  have hone := one_le_toCents valueUsdt
  have hcounted := h.counted
  have hnet := net_refundDailySpend hpos hissued hclaim day
  have hpending := pending_refundDailySpend s id hpos day
  rw [LiveState.refundDailySpend, if_neg hpos] at hnet hpending ⊢
  refine ⟨h.expiry, h.capped, ?_, ?_⟩
  · rw [hnet, hpending]
    change _ ≤ (s.counters day).cents
    omega
  · rw [hnet]
    split_ifs with hsame
    · exact Or.inr (Or.inl (by omega))
    · rw [sub_zero]
      rcases h.spare with ⟨j, hj, cents', hclaim', hzero⟩ | hspare
      · have hne : j ≠ id := by
          rintro rfl
          rw [hclaim] at hclaim'
          cases hclaim'
          exact hsame rfl
        exact Or.inl ⟨j, hj, cents', hclaim', (Function.update_of_ne hne _ _).trans hzero⟩
      · exact Or.inr hspare

end Refund

/-- A new call has claimed nothing yet. -/
theorem DaySound.insert_issued {id : String} (h : DaySound config s day) (hid : id ∉ s.issued)
    (hclaim : s.claims id = none) : DaySound config { s with issued := insert id s.issued } day := by
  have hnet : net { s with issued := insert id s.issued } day = s.net day := by
    change ∑ j ∈ insert id s.issued, netOf day (s.claims j) (s.refunded j) = _
    rw [Finset.sum_insert hid, hclaim, netOf, zero_add, net]
  refine ⟨h.expiry, h.capped, ?_, ?_⟩
  · rw [hnet]
    exact h.counted
  · rw [hnet]
    rcases h.spare with ⟨j, hj, hunrefunded⟩ | hspare
    · exact Or.inl ⟨j, Finset.mem_insert_of_mem hj, hunrefunded⟩
    · exact Or.inr hspare

end Days

end BotHive.Crypto
