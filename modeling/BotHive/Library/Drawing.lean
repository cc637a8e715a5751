import Mathlib.Algebra.Order.Floor.Semiring
import Mathlib.Data.Rat.Floor
import Mathlib.Tactic.Linarith
import Mathlib.Tactic.Positivity

/-!
# Drawing random numbers

A drawing is a program that takes its random numbers from a stream, one after the other. What holds
of its result whatever the stream brings follows from what holds of its parts.

## Main definitions

- `Chance`: a random number
- `Drawing`, `Drawing.draw`: programs with random numbers
- `Drawing.Always`: a condition that every result meets
- `Drawing.shuffleFrom`: a shuffle by swaps, from the end

## Main results

- `Drawing.Always.bind`: one program after another
- `Drawing.always_shuffleFrom`: a shuffle loses nothing and adds nothing
-/

/-- A random number. -/
abbrev Chance := { q : ℚ // 0 ≤ q ∧ q < 1 }

/-- A program that takes random numbers from a stream. -/
abbrev Drawing (α : Type) := StateM (ℕ → Chance) α

namespace Drawing

variable {α β : Type}

def draw : Drawing Chance :=
  fun draws => (draws 0, fun n => draws (n + 1))

/-- A number below `n`. -/
def below (n : ℕ) : Drawing ℕ := do
  let x ← draw
  return ⌊x.1 * n⌋₊

/-- Each place up to the given one, the last one first, swaps its item with one in front of it or
    keeps it. -/
def shuffleFrom : (place : ℕ) → Array α → Drawing (Array α)
  | 0, items => pure items
  | place + 1, items => do
    let other ← below (place + 2)
    shuffleFrom place (items.swapIfInBounds (place + 1) other)

/-- A condition that every result meets. -/
def Always (P : α → Prop) (x : Drawing α) : Prop :=
  ∀ draws, P (x.run draws).1

section Rules

variable {P P' : α → Prop} {Q : β → Prop} {x : Drawing α}

theorem always_pure {a : α} (h : P a) : Always P (pure a) :=
  fun _ => h

/-- One program after another. -/
theorem Always.bind {f : α → Drawing β} (hx : Always P x) (hf : ∀ a, P a → Always Q (f a)) :
    Always Q (x >>= f) :=
  fun draws => hf _ (hx draws) _

theorem Always.weaken (hx : Always P x) (h : ∀ a, P a → P' a) : Always P' x :=
  fun draws => h _ (hx draws)

theorem always_ite {c : Prop} [Decidable c] {y : Drawing α} (hx : Always P x) (hy : Always P y) :
    Always P (if c then x else y) := by
  by_cases hc : c
  · rwa [if_pos hc]
  · rwa [if_neg hc]

theorem always_draw : Always (fun _ => True) draw :=
  fun _ => trivial

end Rules

theorem always_below {n : ℕ} (hn : 0 < n) : Always (· < n) (below n) := by
  refine always_draw.bind fun x _ => always_pure ?_
  have hpos : (0 : ℚ) < n := Nat.cast_pos.mpr hn
  have hle : 0 ≤ x.1 * n := mul_nonneg x.2.1 hpos.le
  rw [Nat.floor_lt hle]
  exact mul_lt_of_lt_one_left hpos x.2.2

theorem swapIfInBounds_perm (items : Array α) (i j : ℕ) :
    (items.swapIfInBounds i j).Perm items := by
  rw [Array.swapIfInBounds_def]
  split
  · split
    · exact Array.swap_perm _ _
    · exact Array.Perm.refl items
  · exact Array.Perm.refl items

/-- A shuffle loses nothing and adds nothing. -/
theorem always_shuffleFrom (place : ℕ) (items : Array α) :
    Always (fun shuffled => shuffled.Perm items) (shuffleFrom place items) := by
  induction place generalizing items with
  | zero => exact always_pure (Array.Perm.refl items)
  | succ place ih =>
    refine (always_below (Nat.succ_pos (place + 1))).bind fun other _ => ?_
    refine (ih _).weaken fun shuffled h => ?_
    exact h.trans (swapIfInBounds_perm items (place + 1) other)

end Drawing
