import Mathlib.Data.Int.CardIntervalMod
import Mathlib.Tactic.Common

/-!
# Round robin

Turns around a list, from any place on: the counts of two of its items differ by at most one at any
time.

## Main results

- `RoundRobin.count_turns`: an item is served at the turns that are congruent to its place
- `RoundRobin.count_turns_le`: the fairness of turns
-/

namespace RoundRobin

variable {α : Type*} {l : List α} {a k j : ℕ} {x y : α}

/-- The items that `k` turns serve, from a place on. -/
def turns (l : List α) (a k : ℕ) : List α :=
  (List.range k).filterMap fun i => l[(a + i) % l.length]?

@[simp] theorem turns_zero : turns l a 0 = [] :=
  rfl

theorem turns_succ : turns l a (k + 1) = turns l a k ++ l[(a + k) % l.length]?.toList := by
  rw [turns, List.range_succ, List.filterMap_append]
  rfl

variable [DecidableEq α]

/-- An item is served at the turns that are congruent to its place. -/
theorem count_turns (hnodup : l.Nodup) (hj : l[j]? = some x) :
    (turns l a k).count x = Nat.count (fun i => a + i ≡ j [MOD l.length]) k := by
  have hjlt : j < l.length := (List.getElem?_eq_some_iff.mp hj).1
  induction k with
  | zero => rw [turns_zero, List.count_nil, Nat.count_zero]
  | succ k ih =>
    rw [turns_succ, List.count_append, Nat.count_succ, ih]
    congr 1
    have hlt : (a + k) % l.length < l.length := Nat.mod_lt _ (Nat.zero_lt_of_lt hjlt)
    have hserved : l[(a + k) % l.length]? = some x ↔ a + k ≡ j [MOD l.length] := by
      rw [Nat.ModEq, Nat.mod_eq_of_lt hjlt, ← hj]
      exact List.getElem?_inj hlt hnodup
    rw [List.getElem?_eq_getElem hlt] at hserved ⊢
    rw [Option.toList_some, List.count_singleton]
    rw [Option.some_inj] at hserved
    by_cases heq : l[(a + k) % l.length] = x
    · rw [if_pos (hserved.mp heq), heq, beq_self_eq_true, if_pos rfl]
    · rw [if_neg fun h => heq (hserved.mpr h), if_neg]
      simpa using heq

/-- The number of turns of an item is the number of full rounds, or one more. -/
theorem count_turns_mem (hnodup : l.Nodup) (hx : x ∈ l) :
    k / l.length ≤ (turns l a k).count x ∧ (turns l a k).count x ≤ k / l.length + 1 := by
  obtain ⟨j, hj⟩ := List.getElem?_of_mem hx
  have hpos : 0 < l.length := List.length_pos_of_mem hx
  have hplace : a + (j + (l.length - a % l.length)) ≡ j [MOD l.length] := by
    have hsplit := Nat.mod_add_div a l.length
    have hlt := Nat.mod_lt a hpos
    have hsum : a + (j + (l.length - a % l.length)) = j + l.length * (a / l.length + 1) := by
      rw [Nat.mul_succ]
      omega
    rw [hsum, Nat.ModEq, Nat.add_mul_mod_self_left]
  have hshift (i : ℕ) : a + i ≡ j [MOD l.length] ↔
      i ≡ j + (l.length - a % l.length) [MOD l.length] :=
    ⟨fun h => (h.trans hplace.symm).add_left_cancel' a, fun h => (h.add_left a).trans hplace⟩
  simp only [count_turns hnodup hj, hshift, Nat.count_modEq_card _ hpos]
  split <;> omega

/-- At any time the counts of two items differ by at most one. -/
theorem count_turns_le (hnodup : l.Nodup) (hx : x ∈ l) (hy : y ∈ l) :
    (turns l a k).count x ≤ (turns l a k).count y + 1 :=
  (count_turns_mem hnodup hx).2.trans (Nat.succ_le_succ (count_turns_mem hnodup hy).1)

end RoundRobin
