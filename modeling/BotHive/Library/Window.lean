import Mathlib.Algebra.Order.Monoid.Defs
import Mathlib.Data.List.Basic
import Mathlib.Data.Finset.Max
import Mathlib.Tactic.Common
import Mathlib.Tactic.Linarith

/-!
# Events in sliding windows

A list of event times has a rate of at most `n` per `w` when every half-open interval of
length `w` holds at most `n` of them. A list that grows at its latest end keeps such a
rate exactly as long as every new event finds fewer than `n` events in the last `w`.

## Main definitions

- `countWithin`: the number of events in the interval that starts at a time
- `countRecent`: the number of events whose interval still holds at a time
- `RateAtMost`: the rate of a list of events

## Main results

- `rateAtMost_cons_iff`: when a new event keeps the rate
-/

variable {T : Type*} [AddCommMonoid T] [LinearOrder T]

/-- Number of events in the half-open interval of length `w` that starts at `a`. -/
def countWithin (w a : T) (times : List T) : ℕ :=
  times.countP fun t => a ≤ t ∧ t < a + w

/-- Number of events less than `w` before `now`. -/
def countRecent (w now : T) (times : List T) : ℕ :=
  times.countP fun t => now < t + w

/-- Every half-open interval of length `w` holds at most `n` events. -/
def RateAtMost (n : ℕ) (w : T) (times : List T) : Prop :=
  ∀ a, countWithin w a times ≤ n

theorem rateAtMost_nil (n : ℕ) (w : T) : RateAtMost n w [] := by
  intro a
  exact Nat.zero_le n

variable [IsOrderedCancelAddMonoid T] {n : ℕ} {w now : T} {l : List T}

/-- An interval without length holds nothing. -/
theorem countWithin_of_nonpos (hw : w ≤ 0) (a : T) (l : List T) : countWithin w a l = 0 := by
  rw [countWithin, List.countP_eq_zero]
  intro t _
  have hle : a + w ≤ a := add_le_of_nonpos_right hw
  simp only [decide_eq_true_eq, not_and, not_lt]
  exact fun ha => hle.trans ha

/-- What an interval holds up to `now` is recent when the interval goes beyond `now`. -/
theorem countWithin_le_countRecent {a : T} (ha : now < a + w) (l : List T) :
    countWithin w a l ≤ countRecent w now l := by
  refine List.countP_mono_left fun t _ ht => ?_
  rw [decide_eq_true_eq] at ht ⊢
  exact ha.trans_le (add_le_add_left ht.1 w)

/-- The recent events and one at `now` lie in one interval. -/
theorem exists_countRecent_lt_countWithin (hw : 0 < w) (hpast : ∀ t ∈ l, t ≤ now) :
    ∃ a, countRecent w now l + 1 ≤ countWithin w a (now :: l) := by
  -- it starts at the earliest recent event
  obtain ⟨a, ha, hmin⟩ := Finset.exists_min_image
    (insert now (l.filter fun t => now < t + w).toFinset) id ⟨now, Finset.mem_insert_self _ _⟩
  have hle : a ≤ now := hmin now (Finset.mem_insert_self _ _)
  have hlt : now < a + w := by
    rcases Finset.mem_insert.mp ha with rfl | hmem
    · exact lt_add_of_pos_right a hw
    · rw [List.mem_toFinset, List.mem_filter, decide_eq_true_eq] at hmem
      exact hmem.2
  refine ⟨a, ?_⟩
  have hcount : countRecent w now l ≤ countWithin w a l := by
    refine List.countP_mono_left fun t ht hrecent => ?_
    rw [decide_eq_true_eq] at hrecent ⊢
    refine ⟨hmin t (Finset.mem_insert_of_mem ?_), (hpast t ht).trans_lt hlt⟩
    rw [List.mem_toFinset, List.mem_filter]
    exact ⟨ht, decide_eq_true hrecent⟩
  rw [countWithin, List.countP_cons_of_pos (by simp [hle, hlt])]
  exact Nat.succ_le_succ hcount

/-- **Rate**: a new event keeps the rate exactly when it finds room in the last `w`. -/
theorem rateAtMost_cons_iff (hw : 0 < w) (hpast : ∀ t ∈ l, t ≤ now) (h : RateAtMost n w l) :
    RateAtMost n w (now :: l) ↔ countRecent w now l < n := by
  constructor
  · intro hnew
    obtain ⟨a, ha⟩ := exists_countRecent_lt_countWithin hw hpast
    exact ha.trans (hnew a)
  · intro hroom a
    by_cases hin : a ≤ now ∧ now < a + w
    · have hle := countWithin_le_countRecent hin.2 l
      rw [countWithin, List.countP_cons_of_pos (by simp [hin])]
      exact hle.trans_lt hroom
    · rw [countWithin, List.countP_cons_of_neg (by simpa using hin)]
      exact h a
