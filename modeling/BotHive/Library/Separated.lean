import Mathlib.Data.String.Basic
import Mathlib.Tactic.Common

/-!
# Texts with separators

Splitting a text at a character, joining texts with it, and reading a prefix. All of it is
done on the list of the characters.

## Main results

- `splitText_append`: a front without the separator is the first part
- `splitText_joinText`: joining parts without the separator is undone by splitting
- `takeWhile_and_dropWhile_iff`, `append_last_separator_inj`: the split of a list at the end of a
  run and at the last separator
-/

/-- The parts of a text between the occurrences of a character. -/
def splitText (c : Char) (s : String) : List String :=
  (s.toList.splitOn c).map String.ofList

/-- Texts one after the other, with a character between them. -/
def joinText (c : Char) : List String → String
  | [] => ""
  | [s] => s
  | s :: rest => s ++ String.singleton c ++ joinText c rest

/-- White space and line ends. -/
def isSpace (c : Char) : Bool :=
  c ∈ ['\t', '\n', '\u000b', '\u000c', '\r', ' ', '\u00a0', '\u1680', '\u2028', '\u2029', '\u202f',
      '\u205f', '\u3000', '\ufeff'] ∨ (0x2000 ≤ c.toNat ∧ c.toNat ≤ 0x200a)

/-- A text without the white space at its ends. -/
def trimText (s : String) : String :=
  String.ofList (((s.toList.dropWhile isSpace).reverse.dropWhile isSpace).reverse)

/-- What follows a prefix. -/
def dropPrefix? (s front : String) : Option String :=
  if front.toList.isPrefixOf s.toList then some (String.ofList (s.toList.drop front.toList.length))
  else none

variable {c : Char} {a b s front : String}

/-- A text without the separator is its only part. -/
theorem splitText_of_not_mem (h : c ∉ a.toList) : splitText c a = [a] := by
  have hnone : ∀ x ∈ a.toList, (x == c) = false := by
    intro x hx
    rw [beq_eq_false_iff_ne]
    rintro rfl
    exact h hx
  rw [splitText, List.splitOn_eq_splitOnP, List.splitOnP_eq_singleton hnone, List.map_singleton,
    String.ofList_toList]

/-- A front without the separator is the first part. -/
theorem splitText_append (h : c ∉ a.toList) (b : String) :
    splitText c (a ++ String.singleton c ++ b) = a :: splitText c b := by
  have hnone : ∀ x ∈ a.toList, (x == c) = false := by
    intro x hx
    rw [beq_eq_false_iff_ne]
    rintro rfl
    exact h hx
  rw [splitText, String.toList_append, String.toList_append, String.toList_singleton,
    List.append_assoc, List.singleton_append, List.splitOn_eq_splitOnP,
    List.splitOnP_append_cons_of_forall_mem hnone c (beq_self_eq_true c), List.map_cons,
    String.ofList_toList, splitText, List.splitOn_eq_splitOnP]

theorem splitText_joinText {parts : List String} (hne : parts ≠ [])
    (h : ∀ a ∈ parts, c ∉ a.toList) : splitText c (joinText c parts) = parts := by
  induction parts with
  | nil => exact absurd rfl hne
  | cons a rest ih =>
    have ha := h a List.mem_cons_self
    cases rest with
    | nil => exact splitText_of_not_mem ha
    | cons b rest =>
      have hrest := ih (List.cons_ne_nil b rest) fun x hx => h x (List.mem_cons_of_mem a hx)
      rw [joinText, splitText_append ha, hrest]
      exact List.cons_ne_nil b rest

/-- What is in no part and is not the separator is not in the joined text. -/
theorem not_mem_joinText {d : Char} {parts : List String} (hd : d ≠ c)
    (h : ∀ a ∈ parts, d ∉ a.toList) : d ∉ (joinText c parts).toList := by
  induction parts with
  | nil => exact List.not_mem_nil
  | cons a rest ih =>
    have ha : d ∉ a.toList := h a List.mem_cons_self
    cases rest with
    | nil => exact ha
    | cons b rest =>
      have hrest := ih fun x hx => h x (List.mem_cons_of_mem a hx)
      show d ∉ (a ++ String.singleton c ++ joinText c (b :: rest)).toList
      simp only [String.toList_append, String.toList_singleton, List.mem_append,
        List.mem_singleton, not_or]
      exact ⟨⟨ha, hd⟩, hrest⟩

/-- No part has the separator in it. -/
theorem not_mem_of_mem_splitOn {α : Type*} [DecidableEq α] {c : α} {l part : List α}
    (h : part ∈ l.splitOn c) : c ∉ part := by
  rw [List.splitOn_eq_splitOnP] at h
  induction l generalizing part with
  | nil =>
    rw [List.splitOnP_nil, List.mem_singleton] at h
    rw [h]
    exact List.not_mem_nil
  | cons x l ih =>
    rw [List.splitOnP_cons_eq_if_modifyHead] at h
    split at h
    · rcases List.mem_cons.mp h with rfl | hrest
      · exact List.not_mem_nil
      · exact ih hrest
    · rename_i hx
      obtain ⟨first, rest, hsplit⟩ := List.exists_cons_of_ne_nil
        (List.splitOnP_ne_nil (· == c) l)
      rw [hsplit, List.modifyHead_cons] at h
      rcases List.mem_cons.mp h with rfl | hrest
      · rw [List.mem_cons, not_or]
        refine ⟨?_, ih (hsplit ▸ List.mem_cons_self)⟩
        rintro rfl
        exact hx (beq_self_eq_true c)
      · exact ih (hsplit ▸ List.mem_cons_of_mem first hrest)

theorem not_mem_of_mem_splitText (h : a ∈ splitText c s) : c ∉ a.toList := by
  obtain ⟨part, hpart, rfl⟩ := List.mem_map.mp h
  rw [String.toList_ofList]
  exact not_mem_of_mem_splitOn hpart

@[simp] theorem dropPrefix?_append (front b : String) : dropPrefix? (front ++ b) front = some b := by
  have hprefix : front.toList.isPrefixOf (front ++ b).toList = true := by
    rw [String.toList_append, List.isPrefixOf_iff_prefix]
    exact List.prefix_append _ _
  rw [dropPrefix?, if_pos hprefix, String.toList_append, List.drop_left, String.ofList_toList]

/-- A run and what follows it are the only split before an element outside the run. -/
theorem takeWhile_and_dropWhile_iff {α : Type*} {p : α → Bool} {l run rest : List α} {x : α} :
    l.takeWhile p = run ∧ l.dropWhile p = x :: rest ↔
      l = run ++ x :: rest ∧ (∀ a ∈ run, p a = true) ∧ p x = false := by
  constructor
  · rintro ⟨rfl, hdrop⟩
    refine ⟨?_, List.all_eq_true.mp List.all_takeWhile, ?_⟩
    · rw [← hdrop, List.takeWhile_append_dropWhile]
    · have hne : l.dropWhile p ≠ [] := by rw [hdrop]; exact List.cons_ne_nil x rest
      have hhead := List.head_dropWhile_not p hne
      simpa only [hdrop, List.head_cons] using hhead
  · rintro ⟨rfl, hrun, hx⟩
    have hx' : ¬p x = true := by rw [hx]; exact Bool.false_ne_true
    rw [List.takeWhile_append_of_pos hrun, List.dropWhile_append_of_pos hrun,
      List.takeWhile_cons_of_neg hx', List.dropWhile_cons_of_neg hx', List.append_nil]
    exact ⟨rfl, rfl⟩

/-- The last occurrence of a separator splits a list in one way. -/
theorem append_last_separator_inj {α : Type*} {c : α} {l l' r r' : List α} (hr : c ∉ r)
    (hr' : c ∉ r') : l ++ c :: r = l' ++ c :: r' ↔ l = l' ∧ r = r' := by
  constructor
  · intro h
    rw [List.append_eq_append_iff] at h
    obtain ⟨d, rfl, h⟩ | ⟨d, rfl, h⟩ := h
    · cases d with
      | nil => simpa using h
      | cons x d =>
        rw [List.cons_append, List.cons.injEq] at h
        exact absurd (h.2 ▸ List.mem_append_right d List.mem_cons_self) hr
    · cases d with
      | nil => simpa using h.symm
      | cons x d =>
        rw [List.cons_append, List.cons.injEq] at h
        exact absurd (h.2 ▸ List.mem_append_right d List.mem_cons_self) hr'
  · rintro ⟨rfl, rfl⟩
    rfl
