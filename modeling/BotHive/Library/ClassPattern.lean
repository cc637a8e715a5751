import Mathlib.Data.List.Basic
import Mathlib.Tactic.Common

/-!
# Patterns of character classes

The simplest regular expressions are sequences: a class matches one character, a repeated class
matches any number of them, and a boundary of a class lies where exactly one of its neighbours is
in the class. A pattern is found in a text by trying each position, and at each position each
length of a repetition.

The part of the text before a position is kept in reverse, so that its nearest character comes
first.

## Main definitions

- `ClassPattern.Item`, `ClassPattern`: the items of a pattern and their sequences
- `ClassPattern.test`: whether a pattern is found in a text
- `ClassPattern.Fits`: what it means that a stretch of a text fits a pattern

## Main results

- `ClassPattern.test_iff`: a pattern is found exactly when some stretch of the text fits it
-/

namespace ClassPattern

/-- One item of a pattern. -/
inductive Item (α : Type*) where
  | one (p : α → Bool)
  | many (p : α → Bool)
  | boundary (p : α → Bool)

end ClassPattern

abbrev ClassPattern (α : Type*) := List (ClassPattern.Item α)

namespace ClassPattern

variable {α : Type*} {p : α → Bool} {items : ClassPattern α} {before rest : List α}

/-- The pattern of a fixed text. -/
def literal [DecidableEq α] (text : List α) : ClassPattern α :=
  text.map fun c => .one fun d => d == c

section Testing

/-- The positions that a repetition of a class can end at. -/
def stretches (p : α → Bool) : List α → List α → List (List α × List α)
  | before, [] => [(before, [])]
  | before, c :: rest =>
    (before, c :: rest) :: if p c then stretches p (c :: before) rest else []

/-- Whether a pattern matches at a position. -/
def matchesAt : ClassPattern α → List α → List α → Bool
  | [], _, _ => true
  | .one _ :: _, _, [] => false
  | .one p :: items, before, c :: rest => p c && matchesAt items (c :: before) rest
  | .many p :: items, before, rest =>
    (stretches p before rest).any fun position => matchesAt items position.1 position.2
  | .boundary p :: items, before, rest =>
    (before.head?.any p != rest.head?.any p) && matchesAt items before rest

/-- Whether a pattern matches at a position or behind it. -/
def testFrom (items : ClassPattern α) : List α → List α → Bool
  | before, [] => matchesAt items before []
  | before, c :: rest => matchesAt items before (c :: rest) || testFrom items (c :: before) rest

/-- Whether a pattern is found in a text. -/
def test (items : ClassPattern α) (text : List α) : Bool :=
  testFrom items [] text

end Testing

section Meaning

/-- A stretch of a text fits a pattern. -/
def Fits : ClassPattern α → List α → List α → List α → Prop
  | [], _, text, _ => text = []
  | .one p :: items, before, text, after =>
    ∃ c rest, text = c :: rest ∧ p c = true ∧ Fits items (c :: before) rest after
  | .many p :: items, before, text, after =>
    ∃ run rest, text = run ++ rest ∧ (∀ c ∈ run, p c = true) ∧
      Fits items (run.reverse ++ before) rest after
  | .boundary p :: items, before, text, after =>
    before.head?.any p ≠ (text ++ after).head?.any p ∧ Fits items before text after

theorem mem_stretches (p : α → Bool) (before rest : List α) (position : List α × List α) :
    position ∈ stretches p before rest ↔
      ∃ run after, rest = run ++ after ∧ (∀ c ∈ run, p c = true) ∧
        position = (run.reverse ++ before, after) := by
  induction rest generalizing before with
  | nil =>
    rw [stretches, List.mem_singleton]
    constructor
    · rintro rfl
      exact ⟨[], [], rfl, by simp, rfl⟩
    · rintro ⟨run, after, hsplit, -, rfl⟩
      obtain ⟨rfl, rfl⟩ := List.append_eq_nil_iff.mp hsplit.symm
      rfl
  | cons c rest ih =>
    rw [stretches, List.mem_cons]
    constructor
    · rintro (rfl | hmem)
      · exact ⟨[], c :: rest, rfl, by simp, rfl⟩
      · by_cases hc : p c = true
        · rw [if_pos hc] at hmem
          obtain ⟨run, after, rfl, hrun, rfl⟩ := (ih (c :: before)).mp hmem
          refine ⟨c :: run, after, rfl, List.forall_mem_cons.mpr ⟨hc, hrun⟩, ?_⟩
          simp
        · rw [if_neg hc] at hmem
          cases hmem
    · rintro ⟨run, after, hsplit, hrun, rfl⟩
      cases run with
      | nil =>
        left
        rw [hsplit]
        rfl
      | cons d run =>
        right
        obtain ⟨rfl, rfl⟩ := List.cons_eq_cons.mp hsplit
        obtain ⟨hc, hrun'⟩ := List.forall_mem_cons.mp hrun
        rw [if_pos hc]
        refine (ih (c :: before)).mpr ⟨run, after, rfl, hrun', ?_⟩
        simp

/-- A pattern matches at a position exactly when some stretch from there fits it. -/
theorem matchesAt_iff (items : ClassPattern α) (before rest : List α) :
    matchesAt items before rest = true ↔
      ∃ text after, rest = text ++ after ∧ Fits items before text after := by
  induction items generalizing before rest with
  | nil => exact iff_of_true rfl ⟨[], rest, rfl, rfl⟩
  | cons item items ih =>
    cases item with
    | one p =>
      cases rest with
      | nil =>
        refine iff_of_false Bool.false_ne_true ?_
        rintro ⟨text, after, hsplit, c, rest, rfl, -⟩
        cases hsplit
      | cons c rest =>
        rw [matchesAt, Bool.and_eq_true, ih]
        constructor
        · rintro ⟨hc, text, after, rfl, hfits⟩
          exact ⟨c :: text, after, rfl, c, text, rfl, hc, hfits⟩
        · rintro ⟨text, after, hsplit, d, text', rfl, hd, hfits⟩
          obtain ⟨rfl, rfl⟩ := List.cons_eq_cons.mp hsplit
          exact ⟨hd, text', after, rfl, hfits⟩
    | many p =>
      rw [matchesAt, List.any_eq_true]
      constructor
      · rintro ⟨position, hmem, hmatch⟩
        obtain ⟨run, rest', rfl, hrun, rfl⟩ := (mem_stretches p before rest position).mp hmem
        obtain ⟨text, after, rfl, hfits⟩ := (ih _ _).mp hmatch
        exact ⟨run ++ text, after, by simp, run, text, rfl, hrun, hfits⟩
      · rintro ⟨text, after, rfl, run, text', rfl, hrun, hfits⟩
        refine ⟨(run.reverse ++ before, text' ++ after), ?_, (ih _ _).mpr ⟨text', after, rfl, hfits⟩⟩
        exact (mem_stretches p before _ _).mpr ⟨run, text' ++ after, by simp, hrun, rfl⟩
    | boundary p =>
      rw [matchesAt, Bool.and_eq_true, bne_iff_ne, ih]
      constructor
      · rintro ⟨hne, text, after, rfl, hfits⟩
        exact ⟨text, after, rfl, hne, hfits⟩
      · rintro ⟨text, after, rfl, hne, hfits⟩
        exact ⟨hne, text, after, rfl, hfits⟩

theorem testFrom_iff (items : ClassPattern α) (before rest : List α) :
    testFrom items before rest = true ↔
      ∃ skipped text after, rest = skipped ++ (text ++ after) ∧
        Fits items (skipped.reverse ++ before) text after := by
  induction rest generalizing before with
  | nil =>
    rw [testFrom, matchesAt_iff]
    constructor
    · rintro ⟨text, after, hsplit, hfits⟩
      exact ⟨[], text, after, hsplit, hfits⟩
    · rintro ⟨skipped, text, after, hsplit, hfits⟩
      obtain ⟨rfl, hrest⟩ := List.append_eq_nil_iff.mp hsplit.symm
      exact ⟨text, after, hrest.symm, hfits⟩
  | cons c rest ih =>
    rw [testFrom, Bool.or_eq_true, matchesAt_iff, ih]
    constructor
    · rintro (⟨text, after, hsplit, hfits⟩ | ⟨skipped, text, after, rfl, hfits⟩)
      · exact ⟨[], text, after, hsplit, hfits⟩
      · exact ⟨c :: skipped, text, after, rfl, by simpa using hfits⟩
    · rintro ⟨skipped, text, after, hsplit, hfits⟩
      cases skipped with
      | nil => exact .inl ⟨text, after, hsplit, hfits⟩
      | cons d skipped =>
        obtain ⟨rfl, rfl⟩ := List.cons_eq_cons.mp hsplit
        exact .inr ⟨skipped, text, after, rfl, by simpa using hfits⟩

/-- **Search**: a pattern is found in a text exactly when some stretch of the text fits it. -/
theorem test_iff (items : ClassPattern α) (text : List α) :
    test items text = true ↔
      ∃ skipped stretch after, text = skipped ++ (stretch ++ after) ∧
        Fits items skipped.reverse stretch after := by
  rw [test, testFrom_iff]
  simp only [List.append_nil]

end Meaning

end ClassPattern
