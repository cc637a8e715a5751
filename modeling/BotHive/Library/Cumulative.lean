import Mathlib.Algebra.Order.Ring.Defs
import Mathlib.Tactic.Linarith
import Mathlib.Tactic.Ring

/-!
# Counts that start again from zero

A counter counts up from zero, and now and then it starts again. A reader who sees its value at
some moments keeps a total of its own: a value that is at least the last one is taken for the same
count going on, and a smaller one for a count that started again.

The readings come in order, so each is `Before` the later ones. The total of the reader never
exceeds the total of the counter, and it is what the reader has sighted of each count exactly when
it notices that a count started again.

## Main definitions

- `Cumulative`: a count together with what was counted before it started
- `Cumulative.Before`: a later state of the same counter
- `Cumulative.increase`: what a reader adds to its total
- `Sightings`: what a reader has sighted of the counts so far
- `Sightings.Notices`: it can tell that the count has started again

## Main results

- `Cumulative.add_increase_le_total`: the reader's total stays below the counter's
- `Sightings.total_sight_iff`: the reader's total is what it has sighted exactly if it notices
-/

/-- A count, and what the counter counted before it last started again. -/
@[ext] structure Cumulative (R : Type*) where
  earlier : R
  value : R

variable {R : Type*} [CommRing R] [LinearOrder R]

namespace Cumulative

/-- A counter that has counted nothing. -/
def zero : Cumulative R :=
  ⟨0, 0⟩

/-- All that has been counted. -/
def total (c : Cumulative R) : R :=
  c.earlier + c.value

def add (c : Cumulative R) (amount : R) : Cumulative R :=
  ⟨c.earlier, c.value + amount⟩

/-- Start again from zero. -/
def restart (c : Cumulative R) : Cumulative R :=
  ⟨c.total, 0⟩

/-- Whether a state of a counter can come before another one: the same count goes on, or another
    one began after it. -/
def Before (c c' : Cumulative R) : Prop :=
  (c.earlier = c'.earlier ∧ c.value ≤ c'.value) ∨ c.total ≤ c'.earlier

/-- A counter that only counts up. -/
structure Sound (c : Cumulative R) : Prop where
  earlier_nonneg : 0 ≤ c.earlier
  value_nonneg : 0 ≤ c.value

variable {c c' c'' : Cumulative R} {amount exported : R}

theorem sound_zero : (zero : Cumulative R).Sound :=
  ⟨le_refl 0, le_refl 0⟩

theorem Before.refl (c : Cumulative R) : c.Before c :=
  Or.inl ⟨rfl, le_refl c.value⟩

theorem before_restart (c : Cumulative R) : c.Before c.restart :=
  Or.inr (le_refl c.total)

variable [IsStrictOrderedRing R]

theorem Sound.add (h : c.Sound) (hamount : 0 ≤ amount) : (c.add amount).Sound :=
  ⟨h.earlier_nonneg, add_nonneg h.value_nonneg hamount⟩

theorem Sound.restart (h : c.Sound) : c.restart.Sound :=
  ⟨add_nonneg h.earlier_nonneg h.value_nonneg, le_refl 0⟩

theorem Before.trans (h : c.Before c') (h' : c'.Before c'') (hsound : c'.Sound) :
    c.Before c'' := by
  have hvalue : 0 ≤ c'.value := hsound.value_nonneg
  rw [Before, total] at *
  rcases h with ⟨hsame, hle⟩ | hlater
  · rcases h' with ⟨hsame', hle'⟩ | hlater'
    · exact Or.inl ⟨hsame.trans hsame', hle.trans hle'⟩
    · right
      linarith
  · right
    rcases h' with ⟨hsame', _⟩ | hlater'
    · linarith
    · linarith

theorem before_add (c : Cumulative R) (hamount : 0 ≤ amount) : c.Before (c.add amount) :=
  Or.inl ⟨rfl, le_add_of_nonneg_right hamount⟩

/-- Later states have counted more. -/
theorem Before.total_le (h : c.Before c') (hsound : c'.Sound) : c.total ≤ c'.total := by
  have hvalue : 0 ≤ c'.value := hsound.value_nonneg
  rw [Before, total] at *
  rw [total]
  rcases h with ⟨hsame, hle⟩ | hlater <;> linarith

/-- What a reader adds to its total when it sees a value. -/
def increase (last : Option R) (value : R) : R :=
  match last with
  | none => value
  | some last => if last ≤ value then value - last else value

/-- **Safety**: a total that is at most what had been counted at one reading is, after the next,
    at most what has been counted by then. -/
theorem add_increase_le_total (h : c.Before c') (hsound : c.Sound)
    (hexported : exported ≤ c.total) :
    exported + increase (some c.value) c'.value ≤ c'.total := by
  have hvalue : 0 ≤ c.value := hsound.value_nonneg
  rw [Before, total] at h
  rw [total] at hexported
  rw [increase, total]
  split
  · rcases h with ⟨hsame, _⟩ | hlater <;> linarith
  · rename_i hless
    rcases h with ⟨_, hle⟩ | hlater
    · exact absurd hle hless
    · linarith

/-- The first reading. -/
theorem increase_none_le_total (hsound : c.Sound) : increase none c.value ≤ c.total :=
  le_add_of_nonneg_left hsound.earlier_nonneg

end Cumulative

/-- What a reader has sighted: its last reading, and how far the counts before it had come when
    they were last sighted. -/
structure Sightings (R : Type*) where
  finished : R
  reading : Option (Cumulative R)

namespace Sightings

def none : Sightings R :=
  ⟨0, .none⟩

/-- What has been sighted of all counts. -/
def total (s : Sightings R) : R :=
  match s.reading with
  | .none => s.finished
  | some c => s.finished + c.value

/-- Take a reading. -/
def sight (s : Sightings R) (c : Cumulative R) : Sightings R where
  finished :=
    match s.reading with
    | .none => s.finished
    | some r => if r.earlier = c.earlier then s.finished else s.finished + r.value
  reading := some c

/-- A count that started again after the last reading is seen to be smaller, or the reading had
    nothing to lose. -/
def Notices (s : Sightings R) (c : Cumulative R) : Prop :=
  ∀ r, s.reading = some r → r.earlier ≠ c.earlier → c.value < r.value ∨ r.value = 0

/-- **Accuracy**: what a reader adds is what it newly sights, exactly if it notices that a count
    has started again. -/
theorem total_sight_iff [IsStrictOrderedRing R] {s : Sightings R} {c : Cumulative R}
    (hbefore : ∀ r, s.reading = some r → r.Before c) (hsound : c.Sound) :
    s.total + Cumulative.increase (s.reading.map Cumulative.value) c.value = (s.sight c).total ↔
      s.Notices c := by
  cases hreading : s.reading with
  | none =>
    have htrue : s.Notices c := by
      intro r hr
      rw [hreading] at hr
      exact absurd hr (by simp)
    refine iff_of_true ?_ htrue
    rw [total, hreading]
    show s.finished + c.value = _
    rw [total, sight, hreading]
  | some r =>
    have hcases : r.Before c := hbefore r hreading
    have hnotices : s.Notices c ↔ (r.earlier ≠ c.earlier → c.value < r.value ∨ r.value = 0) := by
      rw [Notices, hreading]
      exact ⟨fun h => h r rfl, fun h r' hr' => Option.some.inj hr' ▸ h⟩
    rw [hnotices, total, hreading, Option.map_some, Cumulative.increase, total, sight, hreading]
    show s.finished + r.value + _ = (if r.earlier = c.earlier then _ else _) + c.value ↔ _
    by_cases hsame : r.earlier = c.earlier
    · have hle : r.value ≤ c.value := by
        rcases hcases with ⟨_, hle⟩ | hlater
        · exact hle
        · have hvalue : 0 ≤ c.value := hsound.value_nonneg
          rw [Cumulative.total] at hlater
          linarith
      rw [if_pos hle, if_pos hsame]
      have hsum : s.finished + r.value + (c.value - r.value) = s.finished + c.value := by ring
      exact iff_of_true hsum fun hne => absurd hsame hne
    · rw [if_neg hsame]
      by_cases hle : r.value ≤ c.value
      · rw [if_pos hle]
        constructor
        · intro h _
          right
          linarith
        · intro h
          have hzero : r.value = 0 := (h hsame).resolve_left (not_lt.mpr hle)
          linarith
      · rw [if_neg hle]
        exact iff_of_true rfl fun _ => Or.inl (not_le.mp hle)

end Sightings
