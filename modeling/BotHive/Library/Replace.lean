import Mathlib.Data.List.Infix
import Mathlib.Tactic.Common

/-!
# Replacing a text inside a text

`splitList` cuts a list at the occurrences of a non-empty list, from the left and without
overlaps; `replaceList` joins the parts again with a mask between them.

## Main definitions

- `splitList`, `replaceList`
- `Apart`: a list that cannot lie across the edge of a mask

## Main results

- `infix_of_infix_replaceList`: a list apart from the mask that occurs after the replacement
  occurred before it
- `not_infix_replaceList`: what was replaced is gone, if it is apart from the mask
-/

section Definitions

variable {α : Type*} [DecidableEq α]

/-- The parts of a list between the occurrences of `sep`; the first `skip` elements belong to an
    occurrence that was found already. -/
def splitList (sep : List α) : (skip : ℕ) → List α → List (List α)
  | _, [] => [[]]
  | skip + 1, _ :: rest => splitList sep skip rest
  | 0, a :: rest =>
    if sep <+: a :: rest then [] :: splitList sep (sep.length - 1) rest
    else (splitList sep 0 rest).modifyHead (a :: ·)

/-- Every occurrence of `sep`, from the left, gives way to the mask. -/
def replaceList (sep mask text : List α) : List α :=
  mask.intercalate (splitList sep 0 text)

end Definitions

/-- Neither end of a list is in the mask, and the mask does not occur in it. -/
structure Apart {α : Type*} (mask w : List α) : Prop where
  head : ∀ a v, w = a :: v → a ∉ mask
  last : ∀ u a, w = u ++ [a] → a ∉ mask
  inner : ¬mask <:+: w

variable {α : Type*} {mask sep text w front back part : List α} {skip : ℕ} {parts : List (List α)}

/-- What occurs in a concatenation occurs on one side or has a part on each. -/
theorem infix_append_cases (h : w <:+: front ++ back) :
    w <:+: front ∨ w <:+: back ∨
      ∃ u v, u ≠ [] ∧ v ≠ [] ∧ w = u ++ v ∧ u <:+ front ∧ v <+: back := by
  obtain ⟨s, t, h⟩ := h
  rw [List.append_assoc, List.append_eq_append_iff] at h
  obtain ⟨c, rfl, h⟩ | ⟨c, rfl, h⟩ := h
  · rw [List.append_eq_append_iff] at h
    obtain ⟨d, rfl, -⟩ | ⟨d, rfl, h⟩ := h
    · exact Or.inl ⟨s, d, List.append_assoc s w d⟩
    · by_cases hc : c = []
      · exact Or.inr (Or.inl ⟨[], t, by rw [h, hc]; rfl⟩)
      · by_cases hd : d = []
        · exact Or.inl ⟨s, [], by rw [hd, List.append_nil, List.append_nil]⟩
        · exact Or.inr (Or.inr ⟨c, d, hc, hd, rfl, ⟨s, rfl⟩, ⟨t, h.symm⟩⟩)
  · exact Or.inr (Or.inl ⟨c, t, by rw [h, List.append_assoc]⟩)

/-- A list apart from the mask does not lie across it. -/
theorem Apart.infix_or_infix (hapart : Apart mask w) (h : w <:+: front ++ (mask ++ back)) :
    w <:+: front ∨ w <:+: back := by
  obtain h | h | ⟨u, v, -, hv, rfl, hu, h⟩ := infix_append_cases h
  · exact Or.inl h
  · -- the occurrence starts behind `front`
    obtain h | h | ⟨u, v, hu, -, rfl, hmask, -⟩ := infix_append_cases h
    · cases w with
      | nil => exact Or.inr List.nil_infix
      | cons a v => exact absurd (h.subset List.mem_cons_self) (hapart.head a v rfl)
    · exact Or.inr h
    · cases u with
      | nil => exact absurd rfl hu
      | cons a u => exact absurd (hmask.subset List.mem_cons_self) (hapart.head a (u ++ v) rfl)
  · -- the occurrence starts in `front` and ends behind it
    obtain h | h := List.prefix_or_prefix_of_prefix h (List.prefix_append mask back)
    · obtain ⟨v, b, rfl⟩ := (List.eq_nil_or_concat' v).resolve_left hv
      refine absurd (h.subset List.mem_concat_self) (hapart.last (u ++ v) b ?_)
      rw [List.append_assoc]
    · exact absurd (List.infix_append_of_infix_right h.isInfix) hapart.inner

/-- A list that shares nothing with the mask is apart from it. -/
theorem Apart.of_forall_not_mem (hne : mask ≠ []) (h : ∀ a ∈ w, a ∉ mask) : Apart mask w where
  head := by
    rintro a v rfl
    exact h a List.mem_cons_self
  last := by
    rintro u a rfl
    exact h a List.mem_concat_self
  inner := by
    obtain ⟨a, ha⟩ := List.exists_mem_of_ne_nil mask hne
    exact fun hin => h a (hin.subset ha) ha

/-- What occurs in parts joined by a mask, apart from it, occurs in a part. -/
theorem Apart.exists_infix (hapart : Apart mask w) (hne : w ≠ [])
    (h : w <:+: mask.intercalate parts) : ∃ part ∈ parts, w <:+: part := by
  induction parts with
  | nil => exact absurd (List.infix_nil.mp h) hne
  | cons part rest ih =>
    cases rest with
    | nil => exact ⟨part, List.mem_cons_self, by simpa [List.intercalate] using h⟩
    | cons next rest =>
      rw [List.intercalate_cons_cons, List.append_assoc] at h
      obtain h | h := hapart.infix_or_infix h
      · exact ⟨part, List.mem_cons_self, h⟩
      · obtain ⟨part, hmem, h⟩ := ih h
        exact ⟨part, List.mem_cons_of_mem _ hmem, h⟩

variable [DecidableEq α]

theorem splitList_ne_nil (sep : List α) (skip : ℕ) (text : List α) : splitList sep skip text ≠ [] := by
  induction text generalizing skip with
  | nil => exact List.cons_ne_nil _ _
  | cons a rest ih =>
    match skip with
    | skip + 1 => exact ih skip
    | 0 =>
      rw [splitList]
      split
      · exact List.cons_ne_nil _ _
      · simpa [List.modifyHead_eq_nil_iff] using ih 0

/-- The first part is the front of the list. -/
theorem prefix_of_head_splitList {first : List α} {others : List (List α)}
    (h : splitList sep 0 text = first :: others) : first <+: text := by
  induction text generalizing first others with
  | nil =>
    rw [splitList, List.cons.injEq] at h
    exact h.1 ▸ List.nil_prefix
  | cons a rest ih =>
    rw [splitList] at h
    split at h
    · rw [List.cons.injEq] at h
      exact h.1 ▸ List.nil_prefix
    · cases hrest : splitList sep 0 rest with
      | nil => exact absurd hrest (splitList_ne_nil sep 0 rest)
      | cons first' others' =>
        rw [hrest, List.modifyHead_cons, List.cons.injEq] at h
        exact h.1 ▸ (List.prefix_cons_inj a).mpr (ih hrest)

/-- Every part occurs in the list, and `sep` does not occur in it. -/
theorem of_mem_splitList (hsep : sep ≠ []) (h : part ∈ splitList sep skip text) :
    part <:+: text ∧ ¬sep <:+: part := by
  induction text generalizing skip part with
  | nil =>
    rw [splitList, List.mem_singleton] at h
    subst h
    exact ⟨List.nil_infix, fun hnil => hsep (List.infix_nil.mp hnil)⟩
  | cons a rest ih =>
    have htail {skip : ℕ} {part : List α} (h : part ∈ splitList sep skip rest) :
        part <:+: a :: rest ∧ ¬sep <:+: part :=
      ⟨(ih h).1.trans (List.suffix_cons a rest).isInfix, (ih h).2⟩
    match skip with
    | skip + 1 => exact htail h
    | 0 =>
      rw [splitList] at h
      split at h
      next =>
        obtain rfl | h := List.mem_cons.mp h
        · exact ⟨List.nil_infix, fun hnil => hsep (List.infix_nil.mp hnil)⟩
        · exact htail h
      next hhere =>
        cases hrest : splitList sep 0 rest with
        | nil => exact absurd hrest (splitList_ne_nil sep 0 rest)
        | cons first others =>
          rw [hrest, List.modifyHead_cons] at h
          obtain rfl | h := List.mem_cons.mp h
          · -- the part that goes on to the left
            have hfirst := prefix_of_head_splitList hrest
            refine ⟨((List.prefix_cons_inj a).mpr hfirst).isInfix, fun hin => ?_⟩
            obtain hpre | hin := List.infix_cons_iff.mp hin
            · exact hhere (hpre.trans ((List.prefix_cons_inj a).mpr hfirst))
            · exact (htail (hrest ▸ List.mem_cons_self)).2 hin
          · exact htail (hrest ▸ List.mem_cons_of_mem first h)

theorem infix_of_infix_replaceList (hsep : sep ≠ []) (hapart : Apart mask w)
    (h : w <:+: replaceList sep mask text) : w <:+: text := by
  by_cases hw : w = []
  · exact hw ▸ List.nil_infix
  · obtain ⟨part, hmem, h⟩ := hapart.exists_infix hw h
    exact h.trans (of_mem_splitList hsep hmem).1

theorem not_infix_replaceList (hsep : sep ≠ []) (hapart : Apart mask sep) (text : List α) :
    ¬sep <:+: replaceList sep mask text := by
  intro h
  obtain ⟨part, hmem, h⟩ := hapart.exists_infix hsep h
  exact (of_mem_splitList hsep hmem).2 h

/-- Without an occurrence there is nothing to replace. -/
theorem replaceList_eq_self (h : ¬sep <:+: text) : replaceList sep mask text = text := by
  have hsplit : splitList sep 0 text = [text] := by
    induction text with
    | nil => rfl
    | cons a rest ih =>
      have hrest : ¬sep <:+: rest := fun hin => h (List.infix_cons hin)
      rw [splitList, if_neg fun hpre => h hpre.isInfix, ih hrest, List.modifyHead_cons]
  rw [replaceList, hsplit, List.intercalate_singleton]
