import Mathlib.Algebra.Order.Floor.Semiring
import Mathlib.Algebra.Order.Ring.Unbundled.Rat
import Mathlib.Data.Rat.Floor
import BotHive.Library.Numeric

/-!
# Floating-point numbers

The numbers of scripting languages: rationals, two infinities, and the value that is not a number.
Arithmetic is exact as long as its results are in the range of the format; a result beyond it is
infinite, and what has no value, such as the product of zero and an infinity, is not a number.
Comparisons with it are false.

## Main definitions

- `JsNumber`, `JsNumber.lt`, `JsNumber.le`
- `JsNumber.ofRat`: an exact result, as far as the range goes
- `JsNumber.add`, `JsNumber.sub`, `JsNumber.mul`, `JsNumber.min`, `JsNumber.max`,
  `JsNumber.floor`, `JsNumber.round`
-/

/-- A floating-point number. -/
inductive JsNumber where
  | nan
  | negInfinity
  | finite (q : ℚ)
  | posInfinity
  deriving DecidableEq

namespace JsNumber

def lt : JsNumber → JsNumber → Bool
  | .finite a, .finite b => a < b
  | .negInfinity, .finite _ | .negInfinity, .posInfinity | .finite _, .posInfinity => true
  | _, _ => false

def le : JsNumber → JsNumber → Bool
  | .finite a, .finite b => a ≤ b
  | .negInfinity, .negInfinity | .posInfinity, .posInfinity => true
  | a, b => a.lt b

def isInteger : JsNumber → Bool
  | .finite q => q.isInt
  | _ => false

section Arithmetic

/-- A result from here on is rounded to an infinity. -/
def overflow : ℚ := 2 ^ 1024 - 2 ^ 970

/-- An exact result, if it is in range. -/
def ofRat (q : ℚ) : JsNumber :=
  if overflow ≤ q then posInfinity else if q ≤ -overflow then negInfinity else finite q

def neg : JsNumber → JsNumber
  | .nan => .nan
  | .negInfinity => .posInfinity
  | .finite q => .finite (-q)
  | .posInfinity => .negInfinity

def add : JsNumber → JsNumber → JsNumber
  | .finite a, .finite b => ofRat (a + b)
  | .nan, _ | _, .nan | .posInfinity, .negInfinity | .negInfinity, .posInfinity => .nan
  | .posInfinity, _ | _, .posInfinity => .posInfinity
  | .negInfinity, _ | _, .negInfinity => .negInfinity

def sub (a b : JsNumber) : JsNumber :=
  a.add b.neg

/-- An infinity times a number of a sign. -/
def signed (infinity : JsNumber) (q : ℚ) : JsNumber :=
  if 0 < q then infinity else if q < 0 then infinity.neg else nan

def mul : JsNumber → JsNumber → JsNumber
  | .finite a, .finite b => ofRat (a * b)
  | .nan, _ | _, .nan => .nan
  | .finite a, infinity | infinity, .finite a => infinity.signed a
  | .posInfinity, .posInfinity | .negInfinity, .negInfinity => .posInfinity
  | _, _ => .negInfinity

/-- A power of two. -/
def twoPow (n : ℕ) : JsNumber :=
  ofRat (2 ^ n)

def min (a b : JsNumber) : JsNumber :=
  if a = nan ∨ b = nan then nan else if a.le b then a else b

def max (a b : JsNumber) : JsNumber :=
  if a = nan ∨ b = nan then nan else if a.le b then b else a

def floor : JsNumber → JsNumber
  | .finite q => .finite ⌊q⌋
  | n => n

/-- Round a half upwards. -/
def round : JsNumber → JsNumber
  | .finite q => .finite (roundHalfUp q)
  | n => n

end Arithmetic

variable {q r : ℚ}

theorem overflow_pos : 0 < overflow :=
  sub_pos.mpr (pow_lt_pow_right₀ one_lt_two (by decide))

/-- The exactly representable integers are in range. -/
theorem lt_overflow (h : q ≤ 2 ^ 53) : q < overflow := by
  have hpow : (2 : ℚ) ^ 1024 = 2 * 2 ^ 53 * 2 ^ 970 := by rw [← pow_succ', ← pow_add]
  have hone : (1 : ℚ) ≤ 2 ^ 970 := one_le_pow₀ one_le_two
  have hlarge : (1 : ℚ) < 2 ^ 53 := one_lt_pow₀ one_lt_two (by decide)
  rw [overflow, hpow]
  generalize (2 : ℚ) ^ 970 = unit at hone
  generalize (2 : ℚ) ^ 53 = large at h hlarge
  have hsum : 0 < unit * (large - 1) + large * (unit - 1) :=
    add_pos_of_pos_of_nonneg (mul_pos (by linarith) (by linarith))
      (mul_nonneg (by linarith) (by linarith))
  linarith

theorem ofRat_of_le (h : overflow ≤ q) : ofRat q = posInfinity :=
  if_pos h

theorem ofRat_of_lt (h0 : 0 ≤ q) (h : q < overflow) : ofRat q = finite q := by
  have hneg : ¬q ≤ -overflow := by
    have hpos := overflow_pos
    linarith
  rw [ofRat, if_neg (not_le.mpr h), if_neg hneg]

@[simp] theorem finite_le : (finite q).le (finite r) = true ↔ q ≤ r :=
  decide_eq_true_iff

@[simp] theorem finite_lt : (finite q).lt (finite r) = true ↔ q < r :=
  decide_eq_true_iff

@[simp] theorem nan_le (n : JsNumber) : nan.le n = false := by
  cases n <;> rfl

@[simp] theorem le_nan (n : JsNumber) : n.le nan = false := by
  cases n <;> rfl

theorem min_finite : (finite q).min (finite r) = finite (Min.min q r) := by
  rw [min, if_neg (by simp), min_def]
  by_cases h : q ≤ r
  · rw [if_pos (finite_le.mpr h), if_pos h]
  · rw [if_neg (fun hle => h (finite_le.mp hle)), if_neg h]

@[simp] theorem posInfinity_min : posInfinity.min (finite q) = finite q :=
  rfl

@[simp] theorem nan_min (n : JsNumber) : nan.min n = nan :=
  if_pos (Or.inl rfl)

end JsNumber
