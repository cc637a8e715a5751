import Mathlib.Algebra.Order.Floor.Ring
import Mathlib.Data.List.Count
import Mathlib.Data.Rat.Floor
import Mathlib.Order.Defs.LinearOrder
import Mathlib.Tactic.Linarith
import Mathlib.Tactic.Positivity

/-!
# Order statistics

`IsKthSmallest k l x` says that `x` is the `k`-th smallest item of `l`, counted from one, without
sorting: fewer than `k` items are below it, and at least `k` are not above it. The nearest rank of a
quantile `q` of `n` items is `⌈q * n⌉`.

## Main results

- `isKthSmallest_getElem`: the `k`-th item of a sorted list
- `IsKthSmallest.le_of_le`: a later item is not smaller
- `nearestRank_le`, `nearestRank_pos`: a nearest rank is in range
-/

section Ranks

variable {α : Type*} [LinearOrder α] {k m : ℕ} {l l' : List α} {x y : α}

/-- `x` is the `k`-th smallest item of a list, counted from one. -/
structure IsKthSmallest (k : ℕ) (l : List α) (x : α) : Prop where
  mem : x ∈ l
  countP_lt : l.countP (· < x) < k
  le_countP : k ≤ l.countP (· ≤ x)

theorem IsKthSmallest.perm (h : IsKthSmallest k l x) (hperm : l.Perm l') : IsKthSmallest k l' x :=
  ⟨hperm.mem_iff.mp h.mem, hperm.countP_eq _ ▸ h.countP_lt, hperm.countP_eq _ ▸ h.le_countP⟩

/-- A later item is not smaller. -/
theorem IsKthSmallest.le_of_le (hx : IsKthSmallest k l x) (hy : IsKthSmallest m l y) (hkm : k ≤ m) :
    x ≤ y := by
  by_contra hlt
  rw [not_le] at hlt
  have hcount : l.countP (· ≤ y) ≤ l.countP (· < x) := by
    refine List.countP_mono_left fun z _ hz => ?_
    exact decide_eq_true ((of_decide_eq_true hz).trans_lt hlt)
  have hrank := hx.countP_lt
  have hrank' := hy.le_countP
  omega

/-- The item of a sorted list at a place. -/
theorem isKthSmallest_getElem (hsorted : l.Pairwise (· ≤ ·)) (hk : k < l.length) :
    IsKthSmallest (k + 1) l l[k] := by
  have hle {i j : ℕ} (hij : i ≤ j) (hj : j < l.length) : l[i] ≤ l[j] := by
    obtain hlt | rfl := hij.lt_or_eq
    · exact List.pairwise_iff_getElem.mp hsorted i j (by omega) hj hlt
    · exact le_rfl
  have hsplit (p : α → Bool) (i : ℕ) : l.countP p = (l.take i).countP p + (l.drop i).countP p := by
    rw [← List.countP_append, List.take_append_drop]
  refine ⟨List.getElem_mem hk, ?_, ?_⟩
  · have habove : (l.drop k).countP (· < l[k]) = 0 := by
      refine List.countP_eq_zero.mpr fun z hz => ?_
      obtain ⟨i, hi, rfl⟩ := List.mem_drop_iff_getElem.mp hz
      have hnot := not_lt.mpr (hle (Nat.le_add_left k i) (by omega))
      simpa [Nat.add_comm] using hnot
    have hbelow : (l.take k).countP (· < l[k]) ≤ (l.take k).length := List.countP_le_length
    rw [List.length_take] at hbelow
    rw [hsplit _ k, habove]
    omega
  · have hbelow : (l.take (k + 1)).countP (· ≤ l[k]) = (l.take (k + 1)).length := by
      refine List.countP_eq_length.mpr fun z hz => ?_
      obtain ⟨i, hi, rfl⟩ := List.mem_take_iff_getElem.mp hz
      exact decide_eq_true (hle (by omega) hk)
    rw [hsplit _ (k + 1), hbelow, List.length_take]
    omega

end Ranks

section NearestRank

variable {q r : ℚ} {n : ℕ}

/-- The rank of a quantile among `n` items. -/
def nearestRank (q : ℚ) (n : ℕ) : ℤ :=
  ⌈q * n⌉

theorem nearestRank_pos (hq : 0 < q) (hn : 0 < n) : 0 < nearestRank q n :=
  Int.ceil_pos.mpr (mul_pos hq (Nat.cast_pos.mpr hn))

theorem nearestRank_le (hq : q ≤ 1) : nearestRank q n ≤ n := by
  rw [nearestRank, Int.ceil_le]
  exact_mod_cast mul_le_of_le_one_left n.cast_nonneg hq

theorem nearestRank_mono (hqr : q ≤ r) : nearestRank q n ≤ nearestRank r n :=
  Int.ceil_le_ceil (mul_le_mul_of_nonneg_right hqr n.cast_nonneg)

end NearestRank
