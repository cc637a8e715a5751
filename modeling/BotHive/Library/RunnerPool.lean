import Mathlib.Data.List.Range
import Mathlib.Data.List.Perm.Basic
import Mathlib.Tactic.Common

/-!
# A list drained by several runners

Runners take the indices of a list in turn, each one index at a time, and a runner that fails at
its index ends. Whether an index is ever taken depends only on how many indices before it fail,
whatever the order in which the runners get through.

## Main definitions

- `RunnerPool`: the next index, and the indices that the runners are at
- `RunnerPool.settle`: a runner gets through its index, or fails at it
- `RunnerPool.Drains`: what holds of a pool in every order

## Main results

- `Drains.settle`: each runner that settles keeps it
- `Drains.mem_started_iff`: which indices have been taken when all runners have ended
-/

structure RunnerPool where
  next : ℕ
  running : List ℕ
  /-- The indices that have been taken, in order. -/
  started : List ℕ

namespace RunnerPool

/-- As many runners as may run take their first indices out of `n`. -/
def start (n limit : ℕ) : RunnerPool where
  next := min limit n
  running := List.range (min limit n)
  started := List.range (min limit n)

/-- The runner at an index is through with it: it takes the next one if there is one, or ends if
    it has failed. -/
def settle (pool : RunnerPool) (n i : ℕ) (fails : Bool) : RunnerPool :=
  if fails = false ∧ pool.next < n then
    { next := pool.next + 1
      running := pool.next :: pool.running.erase i
      started := pool.started ++ [pool.next] }
  else { pool with running := pool.running.erase i }

/-- What holds of a pool of at most `limit` runners in every order. -/
structure Drains (n limit : ℕ) (fails : ℕ → Bool) (pool : RunnerPool) : Prop where
  started : pool.started = List.range pool.next
  next_le : pool.next ≤ n
  running_lt : ∀ i ∈ pool.running, i < pool.next
  nodup : pool.running.Nodup
  bounded : pool.running.length ≤ limit
  /-- Until the list is empty a runner has ended for each failure. -/
  alive : pool.next < n →
    pool.running.length + (List.range pool.next).countP fails = limit + pool.running.countP fails
  few : ∀ i < pool.next, (List.range i).countP fails < limit

variable {n limit : ℕ} {fails : ℕ → Bool} {pool : RunnerPool} {i : ℕ}

theorem countP_range_le (fails : ℕ → Bool) (i : ℕ) : (List.range i).countP fails ≤ i :=
  List.countP_le_length.trans_eq List.length_range

theorem countP_range_mono (fails : ℕ → Bool) {i j : ℕ} (h : i ≤ j) :
    (List.range i).countP fails ≤ (List.range j).countP fails :=
  (List.range_sublist.mpr h).countP_le

theorem Drains.start (n limit : ℕ) (fails : ℕ → Bool) : (start n limit).Drains n limit fails where
  started := rfl
  next_le := min_le_right _ _
  running_lt _ := List.mem_range.mp
  nodup := List.nodup_range
  bounded := by
    rw [RunnerPool.start, List.length_range]
    exact min_le_left _ _
  alive h := by
    have hlimit : min limit n = limit := min_eq_left (le_of_not_ge fun hle =>
      lt_irrefl n ((min_eq_right hle).symm.trans_lt h))
    simp only [RunnerPool.start, List.length_range, hlimit]
  few i h := ((countP_range_le fails i).trans_lt h).trans_le (min_le_left _ _)

theorem settle_of_takes (pool : RunnerPool) (i : ℕ) (hnext : pool.next < n) :
    pool.settle n i false =
      { next := pool.next + 1
        running := pool.next :: pool.running.erase i
        started := pool.started ++ [pool.next] } :=
  if_pos ⟨rfl, hnext⟩

theorem settle_of_ends {failed : Bool} (h : failed = true ∨ n ≤ pool.next) :
    pool.settle n i failed = { pool with running := pool.running.erase i } :=
  if_neg fun ⟨hfailed, hnext⟩ => h.elim (fun htrue => absurd (hfailed.symm.trans htrue) (by decide))
    fun hle => absurd hnext hle.not_gt

/-- A runner that settles leaves its index, and the failures are with the others or with it. -/
theorem countP_erase_add (fails : ℕ → Bool) (hi : i ∈ pool.running) :
    (pool.running.erase i).countP fails + (if fails i then 1 else 0) = pool.running.countP fails := by
  rw [(List.perm_cons_erase hi).countP_eq, List.countP_cons]

theorem length_erase_add_one (hi : i ∈ pool.running) :
    (pool.running.erase i).length + 1 = pool.running.length := by
  rw [(List.perm_cons_erase hi).length_eq, List.length_cons]

theorem countP_range_succ (fails : ℕ → Bool) (i : ℕ) :
    (List.range (i + 1)).countP fails = (List.range i).countP fails + if fails i then 1 else 0 := by
  rw [List.range_succ, List.countP_append, List.countP_singleton]

/-- Each settled runner takes one more index or ends. -/
theorem length_settle_add (hi : i ∈ pool.running) (failed : Bool) :
    (pool.settle n i failed).running.length + 1 + pool.next =
      pool.running.length + (pool.settle n i failed).next := by
  have hlength := length_erase_add_one hi
  by_cases h : failed = false ∧ pool.next < n
  · obtain ⟨rfl, hnext⟩ := h
    rw [settle_of_takes pool i hnext]
    show (pool.next :: pool.running.erase i).length + 1 + pool.next =
      pool.running.length + (pool.next + 1)
    rw [List.length_cons, hlength, Nat.add_assoc, Nat.add_comm 1]
  · rw [settle, if_neg h]
    show (pool.running.erase i).length + 1 + pool.next = pool.running.length + pool.next
    rw [hlength]

theorem Drains.settle_of_takes (h : pool.Drains n limit fails) (hi : i ∈ pool.running)
    (hfails : fails i = false) (hnext : pool.next < n) :
    (pool.settle n i false).Drains n limit fails := by
  have hlength := length_erase_add_one hi
  have hcount := countP_erase_add fails hi
  have halive := h.alive hnext
  rw [hfails, if_neg Bool.false_ne_true, Nat.add_zero] at hcount
  rw [RunnerPool.settle_of_takes pool i hnext]
  constructor
  case started =>
    show pool.started ++ [pool.next] = List.range (pool.next + 1)
    rw [h.started, List.range_succ]
  case next_le => exact hnext
  case running_lt =>
    intro j hj
    rcases List.mem_cons.mp hj with rfl | hj
    · exact Nat.lt_succ_self _
    · exact Nat.lt_succ_of_lt (h.running_lt j (List.mem_of_mem_erase hj))
  case nodup =>
    refine List.nodup_cons.mpr ⟨fun hmem => ?_, h.nodup.erase i⟩
    exact lt_irrefl _ (h.running_lt _ (List.mem_of_mem_erase hmem))
  case bounded =>
    show (pool.next :: pool.running.erase i).length ≤ limit
    rw [List.length_cons, hlength]
    exact h.bounded
  case alive =>
    intro _
    show (pool.next :: pool.running.erase i).length + (List.range (pool.next + 1)).countP fails =
      limit + (pool.next :: pool.running.erase i).countP fails
    rw [List.length_cons, hlength, countP_range_succ, List.countP_cons, hcount]
    omega
  case few =>
    intro j hj
    rcases Nat.lt_succ_iff_lt_or_eq.mp hj with hj | rfl
    · exact h.few j hj
    · -- the runner itself has not failed, so there are more runners than failures among them
      have hle : (pool.running.erase i).countP fails ≤ (pool.running.erase i).length :=
        List.countP_le_length
      omega

theorem Drains.settle_of_ends (h : pool.Drains n limit fails) (hi : i ∈ pool.running)
    (hends : fails i = true ∨ n ≤ pool.next) :
    (pool.settle n i (fails i)).Drains n limit fails := by
  have hlength := length_erase_add_one hi
  have hcount := countP_erase_add fails hi
  rw [RunnerPool.settle_of_ends hends]
  constructor
  case started => exact h.started
  case next_le => exact h.next_le
  case running_lt => exact fun j hj => h.running_lt j (List.mem_of_mem_erase hj)
  case nodup => exact h.nodup.erase i
  case bounded => exact (Nat.le_of_succ_le hlength.le).trans h.bounded
  case alive =>
    intro hnext
    have halive := h.alive hnext
    rw [if_pos (hends.resolve_right hnext.not_ge)] at hcount
    show (pool.running.erase i).length + (List.range pool.next).countP fails =
      limit + (pool.running.erase i).countP fails
    omega
  case few => exact h.few

theorem Drains.settle (h : pool.Drains n limit fails) (hi : i ∈ pool.running) :
    (pool.settle n i (fails i)).Drains n limit fails := by
  by_cases htakes : fails i = false ∧ pool.next < n
  · rw [htakes.1]
    exact h.settle_of_takes hi htakes.1 htakes.2
  · refine h.settle_of_ends hi ?_
    cases hfails : fails i with
    | false => exact .inr (not_lt.mp fun hnext => htakes ⟨hfails, hnext⟩)
    | true => exact .inl rfl

/-- Where the runners are when one of them has settled. -/
theorem Drains.mem_running_settle (h : pool.Drains n limit fails) (failed : Bool) (j : ℕ) :
    j ∈ (pool.settle n i failed).running ↔
      j ∈ pool.running ∧ j ≠ i ∨ j = pool.next ∧ pool.next < (pool.settle n i failed).next := by
  have herase : j ∈ pool.running.erase i ↔ j ∈ pool.running ∧ j ≠ i := by
    rw [h.nodup.mem_erase_iff, and_comm]
  by_cases htakes : failed = false ∧ pool.next < n
  · obtain ⟨rfl, hnext⟩ := htakes
    rw [RunnerPool.settle_of_takes pool i hnext]
    show j ∈ pool.next :: pool.running.erase i ↔ _ ∨ j = pool.next ∧ pool.next < pool.next + 1
    rw [List.mem_cons, herase, or_comm, and_iff_left (Nat.lt_succ_self _)]
  · rw [RunnerPool.settle, if_neg htakes]
    show j ∈ pool.running.erase i ↔ _ ∨ j = pool.next ∧ pool.next < pool.next
    rw [herase, or_iff_left fun hlt => lt_irrefl _ hlt.2]

theorem next_le_settle (pool : RunnerPool) (n i : ℕ) (failed : Bool) :
    pool.next ≤ (pool.settle n i failed).next ∧ (pool.settle n i failed).next ≤ pool.next + 1 := by
  rw [settle]
  split_ifs
  · exact ⟨Nat.le_succ _, le_rfl⟩
  · exact ⟨le_rfl, Nat.le_succ _⟩

/-- When all runners have ended, the indices that were taken are those before which fewer than
    `limit` fail. -/
theorem Drains.mem_started_iff (h : pool.Drains n limit fails) (hdone : pool.running = [])
    (hi : i < n) : i ∈ pool.started ↔ (List.range i).countP fails < limit := by
  rw [h.started, List.mem_range]
  refine ⟨h.few i, fun hfew => ?_⟩
  by_contra hle
  have hnext : pool.next ≤ i := not_lt.mp hle
  have halive := h.alive (hnext.trans_lt hi)
  rw [hdone, List.length_nil, List.countP_nil] at halive
  have hmono := countP_range_mono fails hnext
  omega

end RunnerPool
