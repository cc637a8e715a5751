import Mathlib.Tactic.Common

/-!
# Steps that may fail

What it means for a sequence of fallible steps to succeed: each of them does. Steps over the
items of a list succeed together when each item meets a condition, and then give what each
item gives.
-/

namespace Except

universe u

variable {ε : Type*} {α β : Type u}

theorem bind_eq_ok_iff {x : Except ε α} {f : α → Except ε β} {b : β} :
    (x >>= f) = .ok b ↔ ∃ a, x = .ok a ∧ f a = .ok b := by
  cases x with
  | error e =>
    constructor
    · exact nofun
    · rintro ⟨_, ⟨⟩, _⟩
  | ok a =>
    constructor
    · exact fun h => ⟨a, rfl, h⟩
    · rintro ⟨_, ⟨⟩, h⟩
      exact h

theorem map_eq_ok_iff {x : Except ε α} {f : α → β} {b : β} :
    x.map f = .ok b ↔ ∃ a, x = .ok a ∧ f a = b := by
  cases x with
  | error e =>
    constructor
    · exact nofun
    · rintro ⟨_, ⟨⟩, _⟩
  | ok a =>
    constructor
    · rintro ⟨⟩
      exact ⟨a, rfl, rfl⟩
    · rintro ⟨_, ⟨⟩, rfl⟩
      rfl

/-- Steps over a list whose outcomes are known item by item. -/
theorem mapM_eq_ok_iff {f : α → Except ε β} {P : α → Prop} {g : α → β} {l : List α}
    (h : ∀ x ∈ l, ∀ y, f x = .ok y ↔ P x ∧ y = g x) {ys : List β} :
    l.mapM f = .ok ys ↔ (∀ x ∈ l, P x) ∧ ys = l.map g := by
  induction l generalizing ys with
  | nil =>
    constructor
    · rintro ⟨⟩
      exact ⟨nofun, rfl⟩
    · rintro ⟨-, rfl⟩
      rfl
  | cons x rest ih =>
    have hrest : ∀ ys, rest.mapM f = .ok ys ↔ (∀ z ∈ rest, P z) ∧ ys = rest.map g :=
      fun _ => ih fun z hz => h z (List.mem_cons_of_mem x hz)
    rw [List.mapM_cons, bind_eq_ok_iff]
    constructor
    · rintro ⟨y, hy, hys⟩
      obtain ⟨zs, hzs, hcons⟩ := bind_eq_ok_iff.mp hys
      obtain ⟨hx, rfl⟩ := (h x List.mem_cons_self y).mp hy
      obtain ⟨hall, rfl⟩ := (hrest zs).mp hzs
      exact ⟨List.forall_mem_cons.mpr ⟨hx, hall⟩, (Except.ok.inj hcons).symm⟩
    · rintro ⟨hall, rfl⟩
      obtain ⟨hx, hall⟩ := List.forall_mem_cons.mp hall
      refine ⟨g x, (h x List.mem_cons_self _).mpr ⟨hx, rfl⟩, bind_eq_ok_iff.mpr ?_⟩
      exact ⟨rest.map g, (hrest _).mpr ⟨hall, rfl⟩, rfl⟩

end Except
