import BotHive.Scripts.RegexSafety

/-!
# What the checks of patterns see

Both checks look for stretches of the text of a pattern. What such a stretch is, is stated here on
the text itself.

## Main definitions

- `FlatlyNested`: between an opening parenthesis and the next closing one there is a quantifier
  sign, and another one directly behind the closing one
- `CaughtOnSave`, `CaughtOnCompile`: what the two checks refuse

## Main results

- `isRegexSafe_eq_false_iff`, `looksDangerous_iff`: the checks refuse exactly that
-/

namespace BotHive.Scripts

/-- The signs that a quantifier starts with. -/
def quantifierSigns : List Char :=
  ['+', '*', '?', '{']

section Shapes

/-- A text with a parenthesis that opens, one of the given signs, the first parenthesis that closes
    since, and a quantifier sign directly behind it. -/
def FlatlyNested (inner text : List Char) : Prop :=
  ∃ front opened sign closed outer back,
    text = front ++ '(' :: (opened ++ sign :: (closed ++ ')' :: outer :: back)) ∧
      ')' ∉ opened ∧ ')' ∉ closed ∧ sign ∈ inner ∧ outer ∈ quantifierSigns

/-- A text with a backslash before one of the digits from 1 to 9. -/
def HasBackreference (text : List Char) : Prop :=
  ∃ front digit back, text = front ++ '\\' :: digit :: back ∧
    digit ∈ ['1', '2', '3', '4', '5', '6', '7', '8', '9']

/-- A text with the beginning of a lookaround or of a named group. -/
def HasLookaround (text : List Char) : Prop :=
  ∃ front sign back, text = front ++ '(' :: '?' :: sign :: back ∧ sign ∈ ['=', '<', '!']

theorem test_quantifiedGroup (inner text : List Char) :
    (quantifiedGroup inner).test text = true ↔ FlatlyNested inner text := by
  have hrun (run : List Char) : (∀ c ∈ run, (c != ')') = true) ↔ ')' ∉ run := by
    simp only [bne_iff_ne, ne_eq]
    exact ⟨fun h hmem => h _ hmem rfl, fun h c hc heq => h (heq ▸ hc)⟩
  rw [ClassPattern.test_iff]
  constructor
  · rintro ⟨front, stretch, back, rfl, first, rest, rfl, hfirst, opened, rest, rfl, hopened, sign, rest,
      rfl, hsign, closed, rest, rfl, hclosed, last, rest, rfl, hlast, outer, rest, rfl, houter, rfl⟩
    obtain rfl := eq_of_beq hfirst
    obtain rfl := eq_of_beq hlast
    refine ⟨front, opened, sign, closed, outer, back, by simp, (hrun _).mp hopened,
      (hrun _).mp hclosed, ?_, ?_⟩
    · simpa using hsign
    · simpa [quantifierSigns] using houter
  · rintro ⟨front, opened, sign, closed, outer, back, rfl, hopened, hclosed, hsign, houter⟩
    refine ⟨front, '(' :: (opened ++ sign :: (closed ++ [')', outer])), back, by simp,
      '(', _, rfl, beq_self_eq_true _, opened, _, rfl, (hrun _).mpr hopened, sign, _, rfl, ?_,
      closed, _, rfl, (hrun _).mpr hclosed, ')', _, rfl, beq_self_eq_true _, outer, [], rfl, ?_, rfl⟩
    · simpa using hsign
    · simpa [quantifierSigns] using houter

theorem test_backreference (text : List Char) :
    backreference.test text = true ↔ HasBackreference text := by
  rw [ClassPattern.test_iff]
  constructor
  · rintro ⟨front, stretch, back, rfl, first, rest, rfl, hfirst, digit, rest, rfl, hdigit, rfl⟩
    obtain rfl := eq_of_beq hfirst
    exact ⟨front, digit, back, by simp, by simpa using hdigit⟩
  · rintro ⟨front, digit, back, rfl, hdigit⟩
    exact ⟨front, ['\\', digit], back, by simp, '\\', _, rfl, beq_self_eq_true _, digit, [], rfl,
      by simpa using hdigit, rfl⟩

theorem test_lookaround (text : List Char) :
    lookaround.test text = true ↔ HasLookaround text := by
  rw [ClassPattern.test_iff]
  constructor
  · rintro ⟨front, stretch, back, rfl, first, rest, rfl, hfirst, mark, rest, rfl, hmark, sign, rest,
      rfl, hsign, rfl⟩
    obtain rfl := eq_of_beq hfirst
    obtain rfl := eq_of_beq hmark
    exact ⟨front, sign, back, by simp, by simpa using hsign⟩
  · rintro ⟨front, sign, back, rfl, hsign⟩
    exact ⟨front, ['(', '?', sign], back, by simp, '(', _, rfl, beq_self_eq_true _, '?', _, rfl,
      beq_self_eq_true _, sign, [], rfl, by simpa using hsign, rfl⟩

/-- A named group begins as a lookbehind does. -/
theorem hasLookaround_of_namedGroup {text : List Char} (h : namedGroup.test text = true) :
    HasLookaround text := by
  obtain ⟨front, stretch, back, rfl, first, rest, rfl, hfirst, mark, rest, rfl, hmark, sign, rest,
    rfl, hsign, rfl⟩ := (ClassPattern.test_iff _ _).mp h
  obtain rfl := eq_of_beq hfirst
  obtain rfl := eq_of_beq hmark
  obtain rfl := eq_of_beq hsign
  exact ⟨front, '<', back, by simp, by simp⟩

end Shapes

section Checks

variable {pattern : String}

/-- What the check of a pattern that is saved refuses. -/
def CaughtOnSave (text : List Char) : Prop :=
  FlatlyNested ['+', '*', '{'] text ∨ HasBackreference text ∨ HasLookaround text ∨
    parensBalanced .outside 0 text = false

/-- What the check of a pattern that is compiled refuses. -/
def CaughtOnCompile (text : List Char) : Prop :=
  FlatlyNested quantifierSigns (stripEscapes text)

theorem looksDangerous_iff : looksDangerous pattern = true ↔ CaughtOnCompile pattern.toList :=
  test_quantifiedGroup _ _

theorem isRegexSafe_eq_false_iff :
    isRegexSafe pattern = false ↔
      maxRegexLength < utf16Length pattern ∨ CaughtOnSave pattern.toList := by
  rw [isRegexSafe, CaughtOnSave, ← test_quantifiedGroup, ← test_backreference, ← test_lookaround]
  by_cases hlong : maxRegexLength < utf16Length pattern
  · simp [hlong]
  have hnamed : lookaround.test pattern.toList = false → namedGroup.test pattern.toList = false := by
    intro hnot
    by_contra hnamed
    have hlook := hasLookaround_of_namedGroup (Bool.of_not_eq_false hnamed)
    rw [← test_lookaround, hnot] at hlook
    cases hlook
  rw [if_neg hlong, quantifiedGroupRedos]
  cases hnested : (quantifiedGroup ['+', '*', '{']).test pattern.toList with
  | true => simp
  | false =>
    cases hback : backreference.test pattern.toList with
    | true => simp
    | false =>
      cases hlook : lookaround.test pattern.toList with
      | true => simp
      | false => simp [hlong, hnamed hlook]

theorem length_le_of_isRegexSafe (h : isRegexSafe pattern = true) :
    ¬ maxRegexLength < utf16Length pattern := by
  intro hlong
  have hfalse := isRegexSafe_eq_false_iff.mpr (.inl hlong)
  rw [h] at hfalse
  cases hfalse

end Checks

end BotHive.Scripts
