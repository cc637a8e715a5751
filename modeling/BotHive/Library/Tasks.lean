import Mathlib.Logic.Function.Basic
import Mathlib.Tactic.Common

/-!
# Tasks that take turns

A family of tasks of which one moves at a time. `AtMostOne p tasks` says that no two
tasks are in a region `p` of their program; it survives every move that does not
enter the region, and a move that enters it while nobody else is inside.
-/

/-- No two tasks are in the region `p`. -/
def AtMostOne {ι T : Type*} (p : T → Prop) (tasks : ι → T) : Prop :=
  ∀ i j, p (tasks i) → p (tasks j) → i = j

section Moves

variable {ι T : Type*} [DecidableEq ι] {p : T → Prop} {tasks : ι → T} {i : ι} {t : T}

/-- A move into the region while no other task is inside. -/
theorem atMostOne_update_of_alone (halone : ∀ j, j ≠ i → ¬ p (tasks j)) :
    AtMostOne p (Function.update tasks i t) := by
  have hother : ∀ j, p (Function.update tasks i t j) → j = i := by
    intro j hj
    by_contra hne
    rw [Function.update_of_ne hne] at hj
    exact halone j hne hj
  intro j k hj hk
  rw [hother j hj, hother k hk]

namespace AtMostOne

omit [DecidableEq ι] in
/-- The others are outside when one task is inside. -/
theorem alone (h : AtMostOne p tasks) (hi : p (tasks i)) : ∀ j, j ≠ i → ¬ p (tasks j) :=
  fun j hne hj => hne (h j i hj hi)

/-- A move within the region. -/
theorem update_of_inside (h : AtMostOne p tasks) (hi : p (tasks i)) :
    AtMostOne p (Function.update tasks i t) :=
  atMostOne_update_of_alone (h.alone hi)

/-- A move that does not enter the region. -/
theorem update_of_outside (h : AtMostOne p tasks) (ht : ¬ p t) :
    AtMostOne p (Function.update tasks i t) := by
  have hother : ∀ j, p (Function.update tasks i t j) → p (tasks j) := by
    intro j hj
    by_cases hne : j = i
    · subst hne
      rw [Function.update_self] at hj
      exact absurd hj ht
    · rwa [Function.update_of_ne hne] at hj
  intro j k hj hk
  exact h j k (hother j hj) (hother k hk)

/-- A move enters the region only from inside it. -/
theorem update_of_imp (h : AtMostOne p tasks) (hi : p t → p (tasks i)) :
    AtMostOne p (Function.update tasks i t) := by
  by_cases ht : p t
  · exact h.update_of_inside (hi ht)
  · exact h.update_of_outside ht

end AtMostOne

/-- What holds of the moved task and of all others holds of every task. -/
theorem forall_update {q : ι → T → Prop} (ht : q i t) (hother : ∀ j, j ≠ i → q j (tasks j)) :
    ∀ j, q j (Function.update tasks i t j) := by
  intro j
  by_cases hne : j = i
  · subst hne
    rw [Function.update_self]
    exact ht
  · rw [Function.update_of_ne hne]
    exact hother j hne

end Moves
