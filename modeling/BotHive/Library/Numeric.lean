import Mathlib.Algebra.Order.Floor.Ring
import Mathlib.Algebra.Order.Floor.Semiring
import Mathlib.Data.Rat.Floor
import Mathlib.Tactic.Linarith
import Mathlib.Tactic.Ring
import Mathlib.Tactic.FieldSimp
import Mathlib.Tactic.Positivity

/-!
# Rounding and weighted means

`roundHalfUp` rounds a rational to the nearest integer and a half upwards.
`weightedMean` is the mean of two values with non-negative weights. A value is
`Enclosed` by a list when it lies between two of its elements; the mean of an
enclosed value and of a new element is enclosed by the extended list.
-/

/-- The nearest integer; a value halfway between two integers is rounded up. -/
def roundHalfUp (x : ℚ) : ℤ :=
  ⌊x + 1 / 2⌋

theorem roundHalfUp_le (x : ℚ) : (roundHalfUp x : ℚ) ≤ x + 1 / 2 :=
  Int.floor_le _

theorem roundHalfUp_intCast (n : ℤ) : roundHalfUp (n : ℚ) = n := by
  rw [roundHalfUp, Int.floor_eq_iff]
  constructor <;> linarith

theorem roundHalfUp_le_iff (x : ℚ) (n : ℤ) : roundHalfUp x ≤ n ↔ x < n + 1 / 2 := by
  rw [roundHalfUp, ← Int.lt_add_one_iff, Int.floor_lt, Int.cast_add, Int.cast_one]
  constructor <;> intro h <;> linarith

theorem roundHalfUp_pos_iff (x : ℚ) : 0 < roundHalfUp x ↔ 1 / 2 ≤ x := by
  rw [← not_le, roundHalfUp_le_iff, Int.cast_zero, zero_add, not_lt]

/-- A value rounded to parts of one `d`-th is positive from half a part on. -/
theorem roundHalfUp_div_pos_iff {d : ℚ} (hd : 0 < d) (x : ℚ) :
    0 < (roundHalfUp (x * d) : ℚ) / d ↔ 1 / 2 ≤ x * d := by
  rw [div_pos_iff_of_pos_right hd, Int.cast_pos, roundHalfUp_pos_iff]

/-- A rounded value times `p` stays within a bound when the value lies less than half a part
    above the whole parts that the bound allows. -/
theorem roundHalfUp_div_mul_le_iff {d p : ℚ} (hd : 0 < d) (hp : 0 < p) (x m : ℚ) :
    (roundHalfUp (x * d) : ℚ) / d * p ≤ m ↔ x * d < ⌊m * d / p⌋ + 1 / 2 := by
  rw [← roundHalfUp_le_iff, Int.le_floor, le_div_iff₀ hp, ← div_le_iff₀ hd, mul_div_right_comm]

/-- `x` lies between two elements of the list. -/
def Enclosed {K : Type*} [LE K] (xs : List K) (x : K) : Prop :=
  (∃ lo ∈ xs, lo ≤ x) ∧ ∃ hi ∈ xs, x ≤ hi

instance {K : Type*} [LE K] [DecidableLE K] (xs : List K) (x : K) : Decidable (Enclosed xs x) :=
  inferInstanceAs (Decidable (_ ∧ _))

theorem enclosed_cons_self {K : Type*} [Preorder K] (xs : List K) (x : K) :
    Enclosed (x :: xs) x :=
  ⟨⟨x, List.mem_cons_self, le_rfl⟩, ⟨x, List.mem_cons_self, le_rfl⟩⟩

/-- Below an enclosed value stands an element of the list. -/
theorem Enclosed.pos {K : Type*} [Preorder K] [Zero K] {xs : List K} {x : K}
    (h : Enclosed xs x) (hpos : ∀ y ∈ xs, 0 < y) : 0 < x := by
  obtain ⟨⟨lo, hlo, hle⟩, _⟩ := h
  exact (hpos lo hlo).trans_le hle

/-- A random draw: a number of the half-open unit interval. -/
abbrev Draw := {x : ℚ // 0 ≤ x ∧ x < 1}

/-- The index of a list of length `n` that a draw selects. -/
def Draw.index (draw : Draw) (n : ℕ) : ℕ :=
  ⌊draw.1 * n⌋₊

theorem Draw.index_lt (draw : Draw) {n : ℕ} (hn : 0 < n) : draw.index n < n := by
  have hn' : (0 : ℚ) < n := Nat.cast_pos.mpr hn
  rw [Draw.index, Nat.floor_lt (mul_nonneg draw.2.1 hn'.le)]
  exact mul_lt_of_lt_one_left hn' draw.2.2

section WeightedMean

variable {K : Type*} [Field K] [LinearOrder K] [IsStrictOrderedRing K]

/-- The mean of `x` and `y` with weights `a` and `b`. -/
def weightedMean (a x b y : K) : K :=
  (a * x + b * y) / (a + b)

/-- A lower bound of both values is a lower bound of their mean. -/
theorem le_weightedMean {a b x y lo : K} (ha : 0 ≤ a) (hb : 0 < b) (hx : lo ≤ x) (hy : lo ≤ y) :
    lo ≤ weightedMean a x b y := by
  have hab : 0 < a + b := by linarith
  rw [weightedMean, le_div_iff₀ hab]
  have h1 : lo * a ≤ a * x := by
    rw [mul_comm]
    exact mul_le_mul_of_nonneg_left hx ha
  have h2 : lo * b ≤ b * y := by
    rw [mul_comm]
    exact mul_le_mul_of_nonneg_left hy hb.le
  linarith

/-- An upper bound of both values is an upper bound of their mean. -/
theorem weightedMean_le {a b x y hi : K} (ha : 0 ≤ a) (hb : 0 < b) (hx : x ≤ hi) (hy : y ≤ hi) :
    weightedMean a x b y ≤ hi := by
  have hab : 0 < a + b := by linarith
  rw [weightedMean, div_le_iff₀ hab]
  have h1 : a * x ≤ hi * a := by
    rw [mul_comm hi]
    exact mul_le_mul_of_nonneg_left hx ha
  have h2 : b * y ≤ hi * b := by
    rw [mul_comm hi]
    exact mul_le_mul_of_nonneg_left hy hb.le
  linarith

/-- Mixing a new element into an enclosed value leaves it enclosed. -/
theorem Enclosed.weightedMean_cons {xs : List K} {x y a b : K} (h : Enclosed xs x)
    (ha : 0 ≤ a) (hb : 0 < b) : Enclosed (y :: xs) (weightedMean a x b y) := by
  obtain ⟨⟨lo, hlo, hlox⟩, ⟨hi, hhi, hxhi⟩⟩ := h
  constructor
  · rcases le_total lo y with hy | hy
    · exact ⟨lo, List.mem_cons_of_mem y hlo, le_weightedMean ha hb hlox hy⟩
    · exact ⟨y, List.mem_cons_self, le_weightedMean ha hb (hy.trans hlox) le_rfl⟩
  · rcases le_total hi y with hy | hy
    · exact ⟨y, List.mem_cons_self, weightedMean_le ha hb (hxhi.trans hy) le_rfl⟩
    · exact ⟨hi, List.mem_cons_of_mem y hhi, weightedMean_le ha hb hxhi hy⟩

end WeightedMean
