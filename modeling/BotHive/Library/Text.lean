import Mathlib

/-!
# Letter case and suffixes of strings

Case mapping is a parameter: `CaseMapping` holds the two case functions of a
language's string type together with the one law that comparisons of normalised
names rely on. `asciiCaseMapping` is the mapping that changes only the letters
a to z. Suffixes and occurrences are those of the list of characters.
-/

/-- The case functions of a string type. Mapping to upper case a second time
    changes nothing. -/
class CaseMapping where
  toUpperCase : String → String
  toLowerCase : String → String
  toUpperCase_idem : ∀ s, toUpperCase (toUpperCase s) = toUpperCase s

export CaseMapping (toUpperCase toLowerCase)

@[simp] theorem toUpperCase_toUpperCase [CaseMapping] (s : String) :
    toUpperCase (toUpperCase s) = toUpperCase s :=
  CaseMapping.toUpperCase_idem s

/-- Case mapping of the ASCII letters, letter by letter. -/
instance asciiCaseMapping : CaseMapping where
  toUpperCase s := String.ofList (s.toList.map Char.toUpper)
  toLowerCase s := String.ofList (s.toList.map Char.toLower)
  toUpperCase_idem s := by
    have h : Char.toUpper ∘ Char.toUpper = Char.toUpper :=
      funext Char.toUpper_toUpper_eq_toUpper
    rw [String.toList_ofList, List.map_map, h]

/-- Number of UTF-16 code units of a string. -/
def utf16Length (s : String) : ℕ :=
  (s.toList.map fun c => if c.toNat < 0x10000 then 1 else 2).sum

/-- The first `n` code units. What a cut leaves of a surrogate pair is written as the replacement
    character. -/
def takeUnits : ℕ → List Char → List Char
  | 0, _ => []
  | _, [] => []
  | 1, c :: _ => [if c.toNat < 0x10000 then c else '\ufffd']
  | n + 2, c :: rest =>
    if c.toNat < 0x10000 then c :: takeUnits (n + 1) rest else c :: takeUnits n rest

/-- `s.slice(0, n)` -/
def sliceUnits (n : ℕ) (s : String) : String :=
  String.ofList (takeUnits n s.toList)

theorem utf16Length_ofList_cons (c : Char) (l : List Char) :
    utf16Length (String.ofList (c :: l)) =
      (if c.toNat < 0x10000 then 1 else 2) + utf16Length (String.ofList l) := by
  simp only [utf16Length, String.toList_ofList, List.map_cons, List.sum_cons]

theorem utf16Length_sliceUnits_le (n : ℕ) (s : String) : utf16Length (sliceUnits n s) ≤ n := by
  rw [sliceUnits]
  generalize s.toList = l
  fun_induction takeUnits n l with
  | case1 => exact Nat.le_refl 0
  | case2 => exact Nat.zero_le _
  | case3 c =>
    rw [utf16Length_ofList_cons]
    split <;> simp_all [utf16Length]
  | case4 n c rest hc ih =>
    rw [utf16Length_ofList_cons, if_pos hc]
    omega
  | case5 n c rest hc ih =>
    rw [utf16Length_ofList_cons, if_neg hc]
    omega

/-- Whether `part` occurs in `s`. -/
def includes (s part : String) : Bool :=
  decide (part.toList <:+: s.toList)

/-- `s` without its suffix `suffix`, when `s` ends in it and is longer than it. -/
def properlyStripSuffix? (s suffix : String) : Option String :=
  let rest := s.toList.take (s.toList.length - suffix.toList.length)
  if suffix.toList.length < s.toList.length ∧ rest ++ suffix.toList = s.toList then
    some (String.ofList rest)
  else none

section Separator

variable {α : Type*} [DecidableEq α] {c : α} {l : List α}

/-- A front without the separator is read in full. -/
theorem takeWhile_ne_append (hl : c ∉ l) (r : List α) :
    (l ++ r).takeWhile (· ≠ c) = l ++ r.takeWhile (· ≠ c) := by
  refine List.takeWhile_append_of_pos fun a ha => decide_eq_true ?_
  rintro rfl
  exact hl ha

/-- A front without the separator is skipped in full. -/
theorem dropWhile_ne_append (hl : c ∉ l) (r : List α) :
    (l ++ r).dropWhile (· ≠ c) = r.dropWhile (· ≠ c) := by
  refine List.dropWhile_append_of_pos fun a ha => decide_eq_true ?_
  rintro rfl
  exact hl ha

end Separator

/-- A separator that occurs in neither front ends both of them. -/
theorem append_separator_inj {α : Type*} {c : α} {l l' : List α} (hl : c ∉ l) (hl' : c ∉ l')
    (r r' : List α) : l ++ c :: r = l' ++ c :: r' ↔ l = l' ∧ r = r' := by
  induction l generalizing l' with
  | nil =>
    cases l' with
    | nil => simp
    | cons a l' =>
      have hne : c ≠ a := fun h => hl' (h ▸ List.mem_cons_self)
      simp [hne]
  | cons a l ih =>
    have hne : a ≠ c := fun h => hl (h ▸ List.mem_cons_self)
    cases l' with
    | nil => simp [hne]
    | cons a' l' =>
      have hrest := ih (fun h => hl (List.mem_cons_of_mem a h))
        (fun h => hl' (List.mem_cons_of_mem a' h))
      simp [hrest, and_assoc]
