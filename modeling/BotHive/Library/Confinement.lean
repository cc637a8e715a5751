import Mathlib.Tactic.Common

/-!
# Programs that leave a part of the state alone

A boundary hides a part of a state. A program is confined by it when it does the same with
the hidden part as without it, leaves the hidden part as it is and keeps the invariant that
the boundary relies on. What is confined step by step is confined as a whole.

## Main definitions

- `Boundary`: an invariant, what is hidden, and when two states have the same hidden part
- `Boundary.Confined`: a program is confined, and its result meets a condition

## Main results

- `Boundary.Confined.bind`, `Boundary.confined_mapM`: sequences and loops
- `Boundary.mapM_reaches`: a loop reaches what its first item outside the boundary does
-/

universe u

/-- A part of a state that is out of reach: `hide` takes it away, and `Kept s s'` says that
    nothing has happened to it between two states. -/
structure Boundary (σ : Type u) where
  Inv : σ → Prop
  hide : σ → σ
  Kept : σ → σ → Prop
  kept_refl : ∀ s, Kept s s
  kept_trans : ∀ s s' s'', Kept s s' → Kept s' s'' → Kept s s''

namespace Boundary

variable {σ α β : Type u} (B : Boundary σ)

/-- The program keeps the invariant and the hidden part, does the same without it, and its
    result meets `Q`. -/
def Confined (x : StateM σ α) (Q : α → Prop) : Prop :=
  ∀ s, B.Inv s → B.Inv (x.run s).2 ∧ x.run (B.hide s) = ((x.run s).1, B.hide (x.run s).2) ∧
    B.Kept s (x.run s).2 ∧ Q (x.run s).1

variable {B} {x : StateM σ α} {Q : α → Prop}

theorem confined_pure {a : α} (ha : Q a) : B.Confined (pure a) Q :=
  fun s hs => ⟨hs, rfl, B.kept_refl s, ha⟩

/-- One program after another. -/
theorem Confined.bind {f : α → StateM σ β} {R : β → Prop} (hx : B.Confined x Q)
    (hf : ∀ a, Q a → B.Confined (f a) R) : B.Confined (x >>= f) R := by
  intro s hs
  obtain ⟨hinv, hhide, hkept, hQ⟩ := hx s hs
  obtain ⟨hinv', hhide', hkept', hR⟩ := hf _ hQ _ hinv
  refine ⟨hinv', ?_, B.kept_trans _ _ _ hkept hkept', hR⟩
  show (f (x.run (B.hide s)).1).run (x.run (B.hide s)).2 = _
  rw [hhide]
  exact hhide'

theorem Confined.weaken {Q' : α → Prop} (hx : B.Confined x Q) (h : ∀ a, Q a → Q' a) :
    B.Confined x Q' := by
  intro s hs
  obtain ⟨hinv, hhide, hkept, hQ⟩ := hx s hs
  exact ⟨hinv, hhide, hkept, h _ hQ⟩

/-- A loop over items that are each confined. -/
theorem confined_mapM {f : α → StateM σ β} {l : List α}
    (hf : ∀ a ∈ l, B.Confined (f a) fun _ => True) : B.Confined (l.mapM f) fun _ => True := by
  induction l with
  | nil => exact confined_pure trivial
  | cons a rest ih =>
    rw [List.mapM_cons]
    refine (hf a List.mem_cons_self).bind fun b _ => ?_
    refine (ih fun a' ha' => hf a' (List.mem_cons_of_mem a ha')).bind fun bs _ => ?_
    exact confined_pure trivial

/-- A loop whose items keep `J` until one of them establishes `R`, which all of them keep. -/
theorem mapM_reaches {f : α → StateM σ β} {P : α → Prop} {J R : σ → Prop} {l : List α}
    (hin : ∀ a ∈ l, ¬ P a → ∀ s, J s → J ((f a).run s).2)
    (hout : ∀ a ∈ l, P a → ∀ s, J s → R ((f a).run s).2)
    (hkeep : ∀ a ∈ l, ∀ s, R s → R ((f a).run s).2) (h : ∃ a ∈ l, P a) {s : σ} (hs : J s) :
    R ((l.mapM f).run s).2 := by
  have hrest : ∀ (l : List α), (∀ a ∈ l, ∀ s, R s → R ((f a).run s).2) →
      ∀ s, R s → R ((l.mapM f).run s).2 := by
    intro l
    induction l with
    | nil => exact fun _ s hs => hs
    | cons a rest ih =>
      intro hkeep s hs
      rw [List.mapM_cons]
      exact ih (fun a' ha' => hkeep a' (List.mem_cons_of_mem a ha')) _
        (hkeep a List.mem_cons_self s hs)
  induction l generalizing s with
  | nil =>
    obtain ⟨a, ha, _⟩ := h
    cases ha
  | cons a rest ih =>
    have hkeep' : ∀ a ∈ rest, ∀ s, R s → R ((f a).run s).2 :=
      fun a' ha' => hkeep a' (List.mem_cons_of_mem a ha')
    rw [List.mapM_cons]
    by_cases ha : P a
    · exact hrest rest hkeep' _ (hout a List.mem_cons_self ha s hs)
    · obtain ⟨a', ha', hout'⟩ := h
      have hmem : a' ∈ rest := by
        rcases List.mem_cons.mp ha' with rfl | hmem
        · exact absurd hout' ha
        · exact hmem
      exact ih (fun b hb => hin b (List.mem_cons_of_mem a hb))
        (fun b hb => hout b (List.mem_cons_of_mem a hb)) hkeep' ⟨a', hmem, hout'⟩
        (hin a List.mem_cons_self ha s hs)

end Boundary
