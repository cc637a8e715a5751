import Mathlib.Data.List.Basic
import Mathlib.Tactic.Common

/-!
# All matches in a text

A matcher says how long a match at the front of a text is, and what it captures; whether the front
is the start of the whole text counts. `matchAll` goes through the text from the left and goes on
behind each match.

## Main results

- `of_mem_matchAll`: each match is one at its place
- `pairwise_matchAll`: no match starts inside another
-/

/-- A match, with the length of what is matched. -/
structure ListMatch (α : Type*) where
  index : ℕ
  length : ℕ
  group : List α
  deriving DecidableEq

/-- A match at the front of a text: its length and what it captures. -/
abbrev Matcher (α : Type*) := (atStart : Bool) → List α → Option (ℕ × List α)

/-- The matches of a text that starts at `index`; the first `skip` places belong to a match that
    was found already. -/
def matchAllFrom {α : Type*} (m : Matcher α) : (index skip : ℕ) → List α → List (ListMatch α)
  | _, _, [] => []
  | index, skip + 1, _ :: rest => matchAllFrom m (index + 1) skip rest
  | index, 0, a :: rest =>
    match m (index = 0) (a :: rest) with
    | some (length, group) =>
      ⟨index, length, group⟩ :: matchAllFrom m (index + 1) (length - 1) rest
    | none => matchAllFrom m (index + 1) 0 rest

def matchAll {α : Type*} (m : Matcher α) (text : List α) : List (ListMatch α) :=
  matchAllFrom m 0 0 text

/-- The text from a position on with the matches in it replaced, none when a value is missing. -/
def replaceMatches {α : Type*} (value : List α → Option (List α)) :
    (position : ℕ) → List (ListMatch α) → List α → Option (List α)
  | _, [], rest => some rest
  | position, found :: others, rest => do
    let hit ← value found.group
    let back ← replaceMatches value (found.index + found.length) others
      (rest.drop (found.index + found.length - position))
    return rest.take (found.index - position) ++ hit ++ back

variable {α : Type*} {m : Matcher α} {text : List α} {index skip : ℕ} {found : ListMatch α}

theorem of_mem_matchAllFrom (h : found ∈ matchAllFrom m index skip text) :
    ∃ k, skip ≤ k ∧ found.index = index + k ∧
      m (found.index = 0) (text.drop k) = some (found.length, found.group) := by
  induction text generalizing index skip with
  | nil => cases h
  | cons a rest ih =>
    have htail {skip' : ℕ} (h : found ∈ matchAllFrom m (index + 1) skip' rest) :
        ∃ k, skip' + 1 ≤ k ∧ found.index = index + k ∧
          m (found.index = 0) ((a :: rest).drop k) = some (found.length, found.group) := by
      obtain ⟨k, hk, hindex, hmatch⟩ := ih h
      exact ⟨k + 1, by omega, by omega, hmatch⟩
    match skip with
    | skip + 1 => exact htail h
    | 0 =>
      rw [matchAllFrom] at h
      split at h
      next length group hmatch =>
        obtain rfl | h := List.mem_cons.mp h
        · exact ⟨0, Nat.le_refl 0, rfl, hmatch⟩
        · obtain ⟨k, -, hfound⟩ := htail h
          exact ⟨k, Nat.zero_le k, hfound⟩
      next =>
        obtain ⟨k, -, hfound⟩ := htail h
        exact ⟨k, Nat.zero_le k, hfound⟩

/-- Each match is one at its place. -/
theorem of_mem_matchAll (h : found ∈ matchAll m text) :
    m (found.index = 0) (text.drop found.index) = some (found.length, found.group) := by
  obtain ⟨k, -, hindex, hmatch⟩ := of_mem_matchAllFrom h
  rw [Nat.zero_add] at hindex
  rwa [hindex] at hmatch ⊢

theorem pairwise_matchAllFrom (m : Matcher α) (index skip : ℕ) (text : List α) :
    (matchAllFrom m index skip text).Pairwise fun a b => a.index + a.length ≤ b.index := by
  induction text generalizing index skip with
  | nil => exact List.Pairwise.nil
  | cons a rest ih =>
    match skip with
    | skip + 1 => exact ih (index + 1) skip
    | 0 =>
      rw [matchAllFrom]
      split
      next length group hmatch =>
        refine List.pairwise_cons.mpr ⟨fun b hb => ?_, ih (index + 1) (length - 1)⟩
        obtain ⟨k, hk, hindex, -⟩ := of_mem_matchAllFrom hb
        show index + length ≤ b.index
        omega
      next => exact ih (index + 1) 0

/-- No match starts inside another. -/
theorem pairwise_matchAll (m : Matcher α) (text : List α) :
    (matchAll m text).Pairwise fun a b => a.index + a.length ≤ b.index :=
  pairwise_matchAllFrom m 0 0 text
