import BotHive.Library.Window
import Mathlib.Data.List.Count
import Mathlib.Data.List.Perm.Basic

/-!
# Throttles that count failures

A throttle lets the requests of a key through until a number of them has failed within a window of
time. It learns of a failure after the request was let through, so that failures are in flight in
the meantime, and it may forget a key. The failures of a window stay within the limit if every
request that fails finds room for itself beside those counted and those in flight, and if no key is
forgotten that has failed in its window.

## Main definitions

- `KeyThrottle`: what a throttle knows of one key, beside what really happened
- `KeyThrottle.arrive`, `record`, `forget`, `wait`: what can happen to a key
- `KeyThrottle.Sound`: the invariant

## Main results

- `KeyThrottle.Sound.throttled`: at most so many failures are let through within a window
- `KeyThrottle.Sound.arrive`, `Sound.record`, `Sound.forget`, `Sound.wait`: what keeps the invariant
-/

/-- The failures counted since the start of a window. -/
structure FailureWindow where
  count : ℕ
  windowStart : ℤ
  deriving DecidableEq

def FailureWindow.expired (width now : ℤ) (e : FailureWindow) : Bool :=
  width ≤ now - e.windowStart

/-- One key of a throttle. The throttle has the entry; the other fields say which windows it has
    opened, when the requests arrived that it let through and that fail, and which of these it has
    not learnt of. -/
structure KeyThrottle where
  now : ℤ
  entry : Option FailureWindow
  windows : List ℤ
  reached : List ℤ
  flights : List ℤ

/-- The number of times from a start on. -/
def countSince (start : ℤ) (times : List ℤ) : ℕ :=
  times.countP fun t => start ≤ t

theorem countSince_cons_of_le {start t : ℤ} (h : start ≤ t) (times : List ℤ) :
    countSince start (t :: times) = countSince start times + 1 :=
  List.countP_cons_of_pos (decide_eq_true h)

theorem countSince_le_cons (start t : ℤ) (times : List ℤ) :
    countSince start (t :: times) ≤ countSince start times + 1 := by
  rw [countSince, List.countP_cons]
  refine Nat.add_le_add_left ?_ _
  split
  · exact le_rfl
  · exact Nat.zero_le 1

theorem countSince_eq_zero {start : ℤ} {times : List ℤ} (h : ∀ t ∈ times, ¬start ≤ t) :
    countSince start times = 0 :=
  List.countP_eq_zero.mpr fun t ht => by simpa using h t ht

theorem countWithin_le_countSince {width a b : ℤ} {times : List ℤ}
    (h : ∀ t ∈ times, a ≤ t → b ≤ t) : countWithin width a times ≤ countSince b times :=
  List.countP_mono_left fun t ht hwithin => decide_eq_true (h t ht (of_decide_eq_true hwithin).1)

namespace KeyThrottle

section Definitions

variable (width : ℤ) (limit : ℕ)

/-- The entry, if its window has not ended. -/
def live (s : KeyThrottle) : Option FailureWindow :=
  s.entry.filter fun e => !e.expired width s.now

/-- A new window with a number of failures. -/
def openWindow (s : KeyThrottle) (count : ℕ) : KeyThrottle :=
  { s with entry := some ⟨count, s.now⟩, windows := s.now :: s.windows }

def letThrough (s : KeyThrottle) (fails : Bool) : KeyThrottle :=
  if fails then { s with reached := s.now :: s.reached, flights := s.now :: s.flights } else s

/-- A request arrives, which is going to fail or not. -/
def arrive (s : KeyThrottle) (fails : Bool) : KeyThrottle :=
  match s.live width with
  | none => (s.openWindow 0).letThrough fails
  | some e => if limit ≤ e.count then s else s.letThrough fails

/-- A failure is counted, and others stay in flight. -/
def record (s : KeyThrottle) (flights : List ℤ) : KeyThrottle :=
  match s.live width with
  | none => { s.openWindow 1 with flights }
  | some e => { s with entry := some { e with count := e.count + 1 }, flights }

def forget (s : KeyThrottle) : KeyThrottle :=
  { s with entry := none }

def wait (s : KeyThrottle) (ms : ℕ) : KeyThrottle :=
  { s with now := s.now + ms }

/-- There is room for one more failure beside those counted and those in flight. -/
def HasRoom (s : KeyThrottle) : Prop :=
  ∀ e ∈ s.live width, e.count < limit → e.count + countSince e.windowStart s.flights < limit

/-- The window has ended, or nothing in it has failed. -/
def Forgettable (s : KeyThrottle) : Prop :=
  ∀ e ∈ s.live width, e.count = 0 ∧ countSince e.windowStart s.flights = 0

instance (s : KeyThrottle) : Decidable (s.HasRoom width limit) :=
  inferInstanceAs (Decidable (∀ e ∈ s.live width, _ → _))

instance (s : KeyThrottle) : Decidable (s.Forgettable width) :=
  inferInstanceAs (Decidable (∀ e ∈ s.live width, _ ∧ _))

/-- What holds of a key whose requests find room and which is not forgotten too early. -/
structure Sound (s : KeyThrottle) : Prop where
  opened : ∀ e ∈ s.entry, e.windowStart ∈ s.windows
  latest : ∀ w ∈ s.windows, w ≤ s.now ∧ ∀ e ∈ s.entry, w ≤ e.windowStart
  counted : ∀ e ∈ s.entry,
    countSince e.windowStart s.reached ≤ e.count + countSince e.windowStart s.flights
  bounded : ∀ e ∈ s.entry, countSince e.windowStart s.reached ≤ limit
  arrived : ∀ t ∈ s.reached, t ≤ s.now ∧ ∃ w ∈ s.windows, w ≤ t ∧ t < w + width
  kept : ∀ t ∈ s.reached, ∀ w ∈ s.windows, w ≤ t → s.now < w + width →
    ∃ e ∈ s.entry, e.windowStart ≤ t
  throttled : ∀ w ∈ s.windows, countWithin width w s.reached ≤ limit

end Definitions

variable {width : ℤ} {limit : ℕ} {s : KeyThrottle} {e : FailureWindow}

theorem mem_live : e ∈ s.live width ↔ e ∈ s.entry ∧ s.now < e.windowStart + width := by
  rw [live, Option.mem_def, Option.filter_eq_some_iff, FailureWindow.expired, Option.mem_def]
  refine and_congr_right fun _ => ?_
  rw [Bool.not_eq_true', decide_eq_false_iff_not]
  omega

/-- Without a window that has not ended, nothing was let through in any that has not ended. -/
theorem Sound.not_live_of_none (h : s.Sound width limit) (hlive : s.live width = none) {t w : ℤ}
    (ht : t ∈ s.reached) (hw : w ∈ s.windows) (hle : w ≤ t) : ¬s.now < w + width := by
  intro hnow
  obtain ⟨e, he, -⟩ := h.kept t ht w hw hle hnow
  have hmem : e ∈ s.live width := by
    have hlatest := (h.latest w hw).2 e he
    exact mem_live.mpr ⟨he, by omega⟩
  rw [hlive] at hmem
  exact Option.not_mem_none e hmem

theorem Sound.not_now_le_of_none (h : s.Sound width limit) (hlive : s.live width = none) :
    ∀ t ∈ s.reached, ¬s.now ≤ t := by
  intro t ht hnow
  obtain ⟨-, w, hw, hle, hlt⟩ := h.arrived t ht
  exact h.not_live_of_none hlive ht hw hle (hnow.trans_lt hlt)

/-- A window is opened when there is none that has not ended. -/
theorem Sound.openWindow (h : s.Sound width limit) (hlive : s.live width = none) (count : ℕ)
    (flights : List ℤ) : Sound width limit { s.openWindow count with flights } where
  opened := by
    rintro e ⟨⟩
    exact List.mem_cons_self
  latest := by
    intro w hw
    have hle : w ≤ s.now := by
      obtain rfl | hw := List.mem_cons.mp hw
      · exact le_rfl
      · exact (h.latest w hw).1
    refine ⟨hle, ?_⟩
    rintro e ⟨⟩
    exact hle
  counted := by
    rintro e ⟨⟩
    exact (countSince_eq_zero (h.not_now_le_of_none hlive)).trans_le (Nat.zero_le _)
  bounded := by
    rintro e ⟨⟩
    exact (countSince_eq_zero (h.not_now_le_of_none hlive)).trans_le (Nat.zero_le _)
  arrived := by
    intro t ht
    obtain ⟨hle, w, hw, hwithin⟩ := h.arrived t ht
    exact ⟨hle, w, List.mem_cons_of_mem _ hw, hwithin⟩
  kept := by
    intro t ht w hw hle hnow
    obtain rfl | hw := List.mem_cons.mp hw
    · exact absurd hle (h.not_now_le_of_none hlive t ht)
    · exact absurd hnow (h.not_live_of_none hlive ht hw hle)
  throttled := by
    intro w hw
    obtain rfl | hw := List.mem_cons.mp hw
    · have hnone := countSince_eq_zero (h.not_now_le_of_none hlive)
      exact (countWithin_le_countSince fun _ _ hle => hle).trans (hnone.trans_le (Nat.zero_le _))
    · exact h.throttled w hw

/-- A request that fails is let through when fewer than the limit have been since the start of the
    window. -/
theorem Sound.letThrough (h : s.Sound width limit) (he : e ∈ s.live width)
    (hroom : countSince e.windowStart s.reached < limit) (fails : Bool) :
    Sound width limit (s.letThrough fails) := by
  cases fails with
  | false => exact h
  | true =>
    obtain ⟨hentry, hnow⟩ := mem_live.mp he
    have hstart := (h.latest _ (h.opened e hentry)).1
    have heq {e' : FailureWindow} (he' : e' ∈ s.entry) : e' = e := Option.mem_unique he' hentry
    refine ⟨h.opened, h.latest, ?_, ?_, ?_, ?_, ?_⟩
    · intro e' he'
      obtain rfl := heq he'
      have hcounted := h.counted e' he'
      have hreached := countSince_cons_of_le hstart s.reached
      have hflights := countSince_cons_of_le hstart s.flights
      show countSince _ (s.now :: s.reached) ≤ _ + countSince _ (s.now :: s.flights)
      omega
    · intro e' he'
      obtain rfl := heq he'
      exact (countSince_cons_of_le hstart s.reached).trans_le hroom
    · intro t ht
      obtain rfl | ht := List.mem_cons.mp ht
      · exact ⟨le_rfl, e.windowStart, h.opened e hentry, hstart, hnow⟩
      · exact h.arrived t ht
    · intro t ht w hw hle hlive
      obtain rfl | ht := List.mem_cons.mp ht
      · exact ⟨e, hentry, hstart⟩
      · exact h.kept t ht w hw hle hlive
    · intro w hw
      by_cases hlive : s.now < w + width
      · -- What reached the window at all has reached the window of the entry.
        have hsince : ∀ t ∈ s.now :: s.reached, w ≤ t → e.windowStart ≤ t := by
          intro t ht hle
          obtain rfl | ht := List.mem_cons.mp ht
          · exact hstart
          · obtain ⟨e', he', hle'⟩ := h.kept t ht w hw hle hlive
            exact heq he' ▸ hle'
        exact (countWithin_le_countSince hsince).trans
          ((countSince_cons_of_le hstart s.reached).trans_le hroom)
      · have hout : ¬(w ≤ s.now ∧ s.now < w + width) := fun hwithin => hlive hwithin.2
        have hsame : countWithin width w (s.now :: s.reached) = countWithin width w s.reached :=
          List.countP_cons_of_neg (by simpa using hout)
        exact hsame.trans_le (h.throttled w hw)

/-- A request that finds room keeps the invariant. -/
theorem Sound.arrive (h : s.Sound width limit) (hwidth : 0 < width) (hlimit : 0 < limit)
    {fails : Bool} (hroom : fails = true → s.HasRoom width limit) :
    (s.arrive width limit fails).Sound width limit := by
  rw [KeyThrottle.arrive]
  cases hlive : s.live width with
  | none =>
    have hopened : (s.openWindow 0).Sound width limit := h.openWindow hlive 0 s.flights
    have hnew : ⟨0, s.now⟩ ∈ (s.openWindow 0).live width :=
      mem_live.mpr ⟨rfl, lt_add_of_pos_right _ hwidth⟩
    refine hopened.letThrough hnew ?_ fails
    exact (countSince_eq_zero (h.not_now_le_of_none hlive)).trans_lt hlimit
  | some e =>
    dsimp only
    split_ifs with hcount
    · exact h
    · cases fails with
      | false => exact h
      | true =>
        have hcounted := h.counted e (mem_live.mp hlive).1
        exact h.letThrough hlive (hcounted.trans_lt (hroom rfl e hlive (not_le.mp hcount))) true

/-- A failure that is counted is no longer in flight. -/
theorem Sound.record (h : s.Sound width limit) {t : ℤ} {flights : List ℤ}
    (hperm : s.flights.Perm (t :: flights)) : (s.record width flights).Sound width limit := by
  rw [KeyThrottle.record]
  cases hlive : s.live width with
  | none => exact h.openWindow hlive 1 flights
  | some e =>
    have hentry : e ∈ s.entry := (mem_live.mp hlive).1
    refine ⟨?_, ?_, ?_, ?_, h.arrived, ?_, h.throttled⟩
    · rintro e' ⟨⟩
      exact h.opened e hentry
    · intro w hw
      refine ⟨(h.latest w hw).1, ?_⟩
      rintro e' ⟨⟩
      exact (h.latest w hw).2 e hentry
    · rintro e' ⟨⟩
      have hcounted := h.counted e hentry
      have hflights : countSince e.windowStart s.flights = countSince e.windowStart (t :: flights) :=
        hperm.countP_eq _
      have hcons := countSince_le_cons e.windowStart t flights
      show countSince e.windowStart s.reached ≤ e.count + 1 + countSince e.windowStart flights
      omega
    · rintro e' ⟨⟩
      exact h.bounded e hentry
    · intro t ht w hw hle hnow
      obtain ⟨e', he', hle'⟩ := h.kept t ht w hw hle hnow
      obtain rfl : e' = e := Option.mem_unique he' hentry
      exact ⟨_, rfl, hle'⟩

/-- A key is forgotten in whose window nothing was let through that fails. -/
theorem Sound.forget (h : s.Sound width limit)
    (hnone : ∀ e ∈ s.live width, countSince e.windowStart s.reached = 0) :
    s.forget.Sound width limit := by
  refine ⟨nofun, fun w hw => ⟨(h.latest w hw).1, nofun⟩, nofun, nofun, h.arrived, ?_, h.throttled⟩
  intro t ht w hw hle (hnow : s.now < w + width)
  obtain ⟨e, he, hle'⟩ := h.kept t ht w hw hle hnow
  have hlive : e ∈ s.live width := by
    have hlatest := (h.latest w hw).2 e he
    exact mem_live.mpr ⟨he, by omega⟩
  have hzero := List.countP_eq_zero.mp (hnone e hlive) t ht
  exact absurd (decide_eq_true hle') hzero

theorem Sound.none_reached (h : s.Sound width limit) (hforget : s.Forgettable width) :
    ∀ e ∈ s.live width, countSince e.windowStart s.reached = 0 := by
  intro e he
  obtain ⟨hcount, hflights⟩ := hforget e he
  have hcounted := h.counted e (mem_live.mp he).1
  omega

theorem Sound.wait (h : s.Sound width limit) (ms : ℕ) : (s.wait ms).Sound width limit where
  opened := h.opened
  latest w hw := ⟨(h.latest w hw).1.trans (Int.le_add_of_nonneg_right (Int.natCast_nonneg ms)),
    (h.latest w hw).2⟩
  counted := h.counted
  bounded := h.bounded
  arrived t ht :=
    ⟨(h.arrived t ht).1.trans (Int.le_add_of_nonneg_right (Int.natCast_nonneg ms)),
      (h.arrived t ht).2⟩
  kept t ht w hw hle hnow := h.kept t ht w hw hle
    (lt_of_le_of_lt (Int.le_add_of_nonneg_right (Int.natCast_nonneg ms)) hnow)
  throttled := h.throttled

/-- The order of the failures in flight does not matter. -/
theorem Sound.perm_flights (h : s.Sound width limit) {flights : List ℤ}
    (hperm : s.flights.Perm flights) : Sound width limit { s with flights } where
  opened := h.opened
  latest := h.latest
  counted e he := (h.counted e he).trans (Nat.le_of_eq (congrArg _ (hperm.countP_eq _)))
  bounded := h.bounded
  arrived := h.arrived
  kept := h.kept
  throttled := h.throttled

/-- A key that was never used. -/
theorem sound_unused (now : ℤ) : Sound width limit ⟨now, none, [], [], []⟩ :=
  ⟨nofun, nofun, nofun, nofun, nofun, nofun, nofun⟩

end KeyThrottle
