import BotHive.Library.RegexMeaning
import BotHive.Scripts.NestedQuantifiers
import BotHive.Scripts.Patterns

/-!
# The regular expressions of script patterns

Keywords become literals of a regular expression. Their characters are escaped, so that the checks
find nothing of a keyword but a backslash before a digit, and the regular expression matches where
one of the keywords stands.

## Main definitions

- `keywordTerm`: some keywords as alternatives
- `StandsIn`, `BeginsWith`: where a keyword stands

## Main results

- `Frame.caughtOnSave_iff`: what the checks find in a regular expression around keywords
- `keywordFilters_meaning`, `prefixFilters_meaning`: the texts that the filters of the patterns pass
-/

namespace BotHive.Scripts

section Neighbours

/-- The characters that a back reference has behind its backslash. -/
def referenceDigits : List Char :=
  ['1', '2', '3', '4', '5', '6', '7', '8', '9']

/-- Two characters of which the first does not refer with the second. -/
def NoReference (c d : Char) : Prop :=
  c = '\\' → d ∉ referenceDigits

/-- Two characters of which the first closes no group that the second repeats. -/
def NoRepeat (c d : Char) : Prop :=
  d ∈ quantifierSigns → c ≠ ')'

instance : DecidableRel NoReference :=
  fun c d => inferInstanceAs (Decidable (c = '\\' → d ∉ referenceDigits))

instance : DecidableRel NoRepeat :=
  fun c d => inferInstanceAs (Decidable (d ∈ quantifierSigns → c ≠ ')'))

variable {text front back : List Char}

theorem hasBackreference_iff : HasBackreference text ↔ ¬text.IsChain NoReference := by
  rw [List.isChain_iff_forall_rel_of_append_cons_cons]
  constructor
  · rintro ⟨front, digit, back, rfl, hdigit⟩ h
    exact h rfl rfl hdigit
  · intro h
    push Not at h
    obtain ⟨c, digit, front, back, rfl, hpair⟩ := h
    rw [NoReference, Classical.not_imp, not_not] at hpair
    obtain ⟨rfl, hdigit⟩ := hpair
    exact ⟨front, digit, back, rfl, hdigit⟩

theorem not_flatlyNested_of_isChain {inner : List Char} (h : text.IsChain NoRepeat) :
    ¬FlatlyNested inner text := by
  rintro ⟨front, opened, sign, closed, outer, back, rfl, -, -, -, houter⟩
  have hsplit : front ++ '(' :: (opened ++ sign :: (closed ++ ')' :: outer :: back)) =
      (front ++ '(' :: (opened ++ sign :: closed)) ++ ')' :: outer :: back := by
    simp
  exact List.isChain_iff_forall_rel_of_append_cons_cons.mp h hsplit houter rfl

/-- A lookaround of a concatenation is in one of the parts, or lies across its middle. -/
theorem not_hasLookaround_append (hfront : ¬HasLookaround front) (hback : ¬HasLookaround back)
    (hlast : ¬['(', '?'] <:+ front) (hhead : back.head? ≠ some '?') :
    ¬HasLookaround (front ++ back) := by
  rintro ⟨before, sign, after, heq, hsign⟩
  rcases List.append_eq_append_iff.mp heq with ⟨c, rfl, hc⟩ | ⟨c, rfl, hc⟩
  · exact hback ⟨c, sign, after, hc, hsign⟩
  · rcases c with _ | ⟨c₁, _ | ⟨c₂, _ | ⟨c₃, c⟩⟩⟩
    · exact hback ⟨[], sign, after, hc.symm, hsign⟩
    · obtain ⟨rfl, rfl⟩ := List.cons.inj hc
      exact hhead rfl
    · simp only [List.cons_append, List.nil_append, List.cons.injEq] at hc
      obtain ⟨rfl, rfl, -⟩ := hc
      exact hlast (List.suffix_append _ _)
    · simp only [List.cons_append, List.cons.injEq] at hc
      obtain ⟨rfl, rfl, rfl, -⟩ := hc
      exact hfront ⟨before, _, c, rfl, hsign⟩

end Neighbours

section Quiet

/-- Two characters of which the second is no sign, or escaped by the first. -/
def Escaping (c d : Char) : Prop :=
  d ∈ quantifierSigns → c = '\\'

/-- A text in which the checks see no syntax: signs and parentheses are escaped. -/
structure Quiet (text : List Char) : Prop where
  signs : text.IsChain Escaping
  head : ∀ c ∈ text.head?, c ∉ quantifierSigns
  balanced : ∀ depth rest,
    parensBalanced .outside depth (text ++ rest) = parensBalanced .outside depth rest
  whole : Whole text
  stripped : ∀ c ∈ stripEscapes text, c ≠ ')' ∧ c ∉ quantifierSigns

variable {text other : List Char}

theorem quiet_nil : Quiet [] :=
  ⟨.nil, nofun, fun _ _ => rfl, fun _ => rfl, nofun⟩

theorem Quiet.append (h : Quiet text) (h' : Quiet other) : Quiet (text ++ other) where
  signs := by
    refine List.isChain_append.mpr ⟨h.signs, h'.signs, fun c _ d hd hsign => ?_⟩
    exact absurd hsign (h'.head d hd)
  head := by
    cases text with
    | nil => exact h'.head
    | cons c rest => exact h.head
  balanced depth rest := by
    rw [List.append_assoc, h.balanced, h'.balanced]
  whole := h.whole.append h'.whole
  stripped := by
    rw [h.whole]
    intro c hc
    rcases List.mem_append.mp hc with hc | hc
    · exact h.stripped c hc
    · exact h'.stripped c hc

/-- A character of the syntax behind a backslash. -/
theorem quiet_escape {c : Char} (hc : c ∈ Regex.syntaxCharacters) : Quiet ['\\', c] := by
  have hline : ∀ c ∈ Regex.syntaxCharacters, isLineTerminator c = false := by
    simp [Regex.syntaxCharacters, isLineTerminator]
  have hstrip : stripEscapes ['\\', c] = ['_', '_'] := by
    simp [stripEscapes, hline c hc]
  refine ⟨List.isChain_pair.mpr fun _ => rfl, ?_, fun _ _ => rfl, whole_escape c, ?_⟩
  · rintro _ ⟨⟩
    decide
  · rw [hstrip]
    simp [quantifierSigns]

/-- The characters that the checks look for. -/
def watchedCharacters : List Char :=
  ['\\', '[', '(', ')'] ++ quantifierSigns

theorem quiet_plain {c : Char} (hc : c ∉ watchedCharacters) : Quiet [c] := by
  have hne : ∀ d ∈ watchedCharacters, c ≠ d := by
    rintro d hd rfl
    exact hc hd
  have hbackslash : c ≠ '\\' := hne _ (by decide)
  have hsigns : c ∉ quantifierSigns := fun h => hc (List.mem_append_right _ h)
  have hstrip : stripEscapes [c] = [c] := by
    rw [stripEscapes_cons hbackslash]
    rfl
  refine ⟨List.isChain_singleton c, ?_, fun depth rest => ?_, ?_, ?_⟩
  · rintro _ ⟨⟩
    exact hsigns
  · show parensBalanced .outside depth (c :: rest) = _
    conv_lhs => rw [parensBalanced.eq_def]
    dsimp only
    rw [if_neg hbackslash, if_neg (hne '[' (by decide)), if_neg (hne '(' (by decide)),
      if_neg (hne ')' (by decide))]
  · exact quiet_nil.whole.cons hbackslash
  · rw [hstrip]
    intro d hd
    obtain rfl := List.mem_singleton.mp hd
    exact ⟨hne ')' (by decide), hsigns⟩

end Quiet

section Terms

open Regex

variable {cs : List Char} {words : List String}

/-- Some keywords as alternatives. -/
def keywordTerm (words : List String) : Regex :=
  alternatives (words.map fun word => literal word.toList)

theorem text_literal_eq (word : String) : (literal word.toList).text = (Patterns.escapeRegex word).toList := by
  rw [text_literal, Patterns.escapeRegex, String.toList_ofList]
  rfl

theorem text_keywordTerm (words : List String) :
    (keywordTerm words).text = (joinText '|' (words.map Patterns.escapeRegex)).toList := by
  induction words with
  | nil => rfl
  | cons word rest ih =>
    cases rest with
    | nil => exact text_literal_eq word
    | cons next others =>
      show (literal word.toList).text ++ '|' :: (keywordTerm (next :: others)).text = _
      rw [ih, text_literal_eq]
      simp [joinText, String.toList_append]

theorem quiet_literal (cs : List Char) : Quiet (literal cs).text := by
  induction cs with
  | nil => exact quiet_nil
  | cons c rest ih =>
    show Quiet ((literalChar c).text ++ (literal rest).text)
    refine Quiet.append ?_ ih
    rw [literalChar]
    split
    next hsyntax => exact quiet_escape hsyntax
    next hplain =>
      have hsub : watchedCharacters ⊆ syntaxCharacters := by decide
      exact quiet_plain fun hc => hplain (hsub hc)

/-- What follows a literal begins with a digit only if the literal does. -/
theorem head_text_literal {cs : List Char} {d : Char} (hdigit : d ∈ referenceDigits) :
    (literal cs).text.head? = some d ↔ cs.head? = some d := by
  cases cs with
  | nil => exact Iff.rfl
  | cons c rest =>
    have hsub : ∀ e ∈ referenceDigits, e ≠ '\\' ∧ e ∉ syntaxCharacters := by
      simp [referenceDigits, syntaxCharacters]
    obtain ⟨hbackslash, hplain⟩ := hsub d hdigit
    rw [text_literal, List.flatMap_cons]
    split
    next hsyntax =>
      refine iff_of_false (fun h => hbackslash (Option.some.inj h).symm) fun h => hplain ?_
      rw [← Option.some.inj h]
      exact hsyntax
    next => exact Iff.rfl

/-- A text refers to nothing exactly when it does so escaped. -/
theorem isChain_literal (cs : List Char) :
    (literal cs).text.IsChain NoReference ↔ cs.IsChain NoReference := by
  induction cs with
  | nil => exact Iff.rfl
  | cons c rest ih =>
    have hblock : (literalChar c).text.IsChain NoReference ∧
        (literalChar c).text.getLast? = some c := by
      rw [literalChar]
      split
      next hsyntax =>
        have hsub : ∀ e ∈ syntaxCharacters, e ∉ referenceDigits := by
          simp [referenceDigits, syntaxCharacters]
        exact ⟨List.isChain_pair.mpr fun _ => hsub c hsyntax, rfl⟩
      next => exact ⟨List.isChain_singleton c, rfl⟩
    have hnext : (∀ d ∈ (literal rest).text.head?, NoReference c d) ↔
        ∀ d ∈ rest.head?, NoReference c d := by
      constructor
      · intro h d hd hc hdigit
        exact h d ((head_text_literal hdigit).mpr hd) hc hdigit
      · intro h d hd hc hdigit
        exact h d ((head_text_literal hdigit).mp hd) hc hdigit
    show ((literalChar c).text ++ (literal rest).text).IsChain NoReference ↔ _
    rw [List.isChain_append, List.isChain_cons, hblock.2]
    constructor
    · rintro ⟨-, hrest, hlast⟩
      exact ⟨hnext.mp (hlast c rfl), ih.mp hrest⟩
    · rintro ⟨hhead, hrest⟩
      refine ⟨hblock.1, ih.mpr hrest, ?_⟩
      rintro _ ⟨⟩
      exact hnext.mpr hhead

theorem quiet_keywordTerm (words : List String) : Quiet (keywordTerm words).text := by
  induction words with
  | nil => exact quiet_nil
  | cons word rest ih =>
    cases rest with
    | nil => exact quiet_literal word.toList
    | cons next others =>
      have hbar : Quiet ['|'] := quiet_plain (by decide)
      exact (quiet_literal word.toList).append (hbar.append ih)

theorem isChain_keywordTerm (words : List String) :
    (keywordTerm words).text.IsChain NoReference ↔
      ∀ word ∈ words, word.toList.IsChain NoReference := by
  induction words with
  | nil => exact iff_of_true .nil nofun
  | cons word rest ih =>
    cases rest with
    | nil =>
      rw [List.forall_mem_singleton]
      exact isChain_literal word.toList
    | cons next others =>
      have hbar (c : Char) : NoReference c '|' := fun _ => by decide
      have hafter (d : Char) : NoReference '|' d := fun h => absurd h (by decide)
      show ((literal word.toList).text ++ '|' :: (keywordTerm (next :: others)).text).IsChain _ ↔ _
      rw [List.isChain_append, List.isChain_cons, isChain_literal, ih]
      constructor
      · rintro ⟨hword, ⟨-, hrest⟩, -⟩
        exact List.forall_mem_cons.mpr ⟨hword, hrest⟩
      · intro h
        obtain ⟨hword, hrest⟩ := List.forall_mem_cons.mp h
        refine ⟨hword, ⟨fun d _ => hafter d, hrest⟩, fun c _ d hd => ?_⟩
        obtain rfl : '|' = d := Option.some.inj hd
        exact hbar c

end Terms

section Frames

/-- What stands around some keywords: a beginning and an end that hide nothing from the checks. -/
structure Frame (front back : List Char) : Prop where
  front_repeat : front.IsChain NoRepeat
  front_reference : front.IsChain NoReference
  front_last : front.getLast? ≠ some '\\'
  front_look : ¬HasLookaround front
  front_open : ¬['(', '?'] <:+ front
  back_repeat : back.IsChain NoRepeat
  back_reference : back.IsChain NoReference
  back_head : ∃ c rest, back = c :: rest ∧ c ∉ quantifierSigns ∧ c ∉ referenceDigits
  back_look : ¬HasLookaround back
  balanced : ∃ depth, (∀ rest, parensBalanced .outside 0 (front ++ rest) =
    parensBalanced .outside depth rest) ∧ parensBalanced .outside depth back = true
  whole : Whole front
  front_stripped : (stripEscapes front).IsChain NoRepeat
  back_stripped : (stripEscapes back).IsChain NoRepeat
  back_stripped_head : ∃ c rest, stripEscapes back = c :: rest ∧ c ∉ quantifierSigns

variable {front body back : List Char}

theorem isChain_framed {r : Char → Char → Prop} (hfront : front.IsChain r) (hbody : body.IsChain r)
    (hback : back.IsChain r) (hfirst : ∀ c ∈ front.getLast?, ∀ d ∈ (body ++ back).head?, r c d)
    (hlast : ∀ c ∈ body.getLast?, ∀ d ∈ back.head?, r c d) : (front ++ (body ++ back)).IsChain r :=
  List.isChain_append.mpr ⟨hfront, List.isChain_append.mpr ⟨hbody, hback, hlast⟩, hfirst⟩

theorem Frame.head_back (h : Frame front back) :
    ∀ d ∈ back.head?, d ∉ quantifierSigns ∧ d ∉ referenceDigits := by
  obtain ⟨c, rest, rfl, hc⟩ := h.back_head
  rintro d ⟨⟩
  exact hc

theorem Frame.head_notSign (h : Frame front back) (hbody : Quiet body) :
    ∀ d ∈ (body ++ back).head?, d ∉ quantifierSigns := by
  cases body with
  | nil => exact fun d hd => (h.head_back d hd).1
  | cons c rest => exact hbody.head

/-- What is checked on saving finds of the keywords only a backslash before a digit. -/
theorem Frame.caughtOnSave_iff (h : Frame front back) (hbody : Quiet body) :
    CaughtOnSave (front ++ (body ++ back)) ↔ ¬body.IsChain NoReference := by
  have hrepeat : (front ++ (body ++ back)).IsChain NoRepeat := by
    refine isChain_framed h.front_repeat (hbody.signs.imp fun c d hcd hsign => ?_) h.back_repeat
      (fun c _ d hd hsign => absurd hsign (h.head_notSign hbody d hd))
      (fun c _ d hd hsign => absurd hsign (h.head_back d hd).1)
    rw [hcd hsign]
    decide
  have hlook : ¬HasLookaround (front ++ (body ++ back)) := by
    have hescaped : ¬['(', '?'] <:+: body := by
      rintro ⟨before, after, heq⟩
      have hsplit : body = before ++ '(' :: '?' :: after := by
        rw [← heq, List.append_assoc]
        rfl
      have hpair := List.isChain_iff_forall_rel_of_append_cons_cons.mp hbody.signs hsplit
      exact absurd (hpair (by decide)) (by decide)
    refine not_hasLookaround_append h.front_look (not_hasLookaround_append ?_ h.back_look
      (fun hsuffix => hescaped hsuffix.isInfix) ?_) h.front_open ?_
    · rintro ⟨before, sign, after, rfl, -⟩
      exact hescaped ⟨before, sign :: after, by simp⟩
    · exact fun hhead => (h.head_back _ hhead).1 (by decide)
    · exact fun hhead => h.head_notSign hbody _ hhead (by decide)
  have hbalanced : parensBalanced .outside 0 (front ++ (body ++ back)) = true := by
    obtain ⟨depth, hopen, hclose⟩ := h.balanced
    rw [hopen, hbody.balanced, hclose]
  have hreference : (front ++ (body ++ back)).IsChain NoReference ↔ body.IsChain NoReference := by
    refine ⟨fun hchain => (List.isChain_append.mp (List.isChain_append.mp hchain).2.1).1,
      fun hchain => isChain_framed h.front_reference hchain h.back_reference
        (fun c hc d _ hslash => absurd (hslash ▸ hc) h.front_last)
        (fun c _ d hd _ => (h.head_back d hd).2)⟩
  rw [CaughtOnSave, hasBackreference_iff, hreference, hbalanced]
  simp [not_flatlyNested_of_isChain hrepeat, hlook]

/-- What is checked on compiling finds nothing. -/
theorem Frame.not_caughtOnCompile (h : Frame front back) (hbody : Quiet body) :
    ¬CaughtOnCompile (front ++ (body ++ back)) := by
  have hhead : ∀ d ∈ (stripEscapes back).head?, d ∉ quantifierSigns := by
    obtain ⟨c, rest, heq, hc⟩ := h.back_stripped_head
    rw [heq]
    rintro d ⟨⟩
    exact hc
  rw [CaughtOnCompile, h.whole, hbody.whole]
  refine not_flatlyNested_of_isChain (isChain_framed h.front_stripped ?_ h.back_stripped ?_ ?_)
  · rw [List.isChain_iff_forall_rel_of_append_cons_cons]
    intro c d before after heq hsign
    exact (hbody.stripped c (by rw [heq]; simp)).1
  · intro c _ d hd hsign
    refine absurd hsign ?_
    cases hstrip : stripEscapes body with
    | nil =>
      rw [hstrip] at hd
      exact hhead d hd
    | cons e rest =>
      rw [hstrip] at hd
      obtain rfl : e = d := Option.some.inj hd
      exact (hbody.stripped e (by rw [hstrip]; exact List.mem_cons_self)).2
  · exact fun c _ d hd hsign => absurd hsign (hhead d hd)

theorem frame_boundary : Frame "(?:^|[^\\w])(".toList ")(?:$|[^\\w])".toList where
  front_repeat := by decide
  front_reference := by decide
  front_last := by decide
  front_look := by rw [← test_lookaround]; decide
  front_open := by decide
  back_repeat := by decide
  back_reference := by decide
  back_head := ⟨')', _, rfl, by decide, by decide⟩
  back_look := by rw [← test_lookaround]; decide
  balanced := ⟨1, fun _ => rfl, by decide⟩
  whole := whole_of_last "(?:^|[^\\w])".toList (by decide)
  front_stripped := by decide
  back_stripped := by decide
  back_stripped_head := ⟨')', _, rfl, by decide⟩

theorem frame_prefixes : Frame "^(".toList ")\\b".toList where
  front_repeat := by decide
  front_reference := by decide
  front_last := by decide
  front_look := by rw [← test_lookaround]; decide
  front_open := by decide
  back_repeat := by decide
  back_reference := by decide
  back_head := ⟨')', _, rfl, by decide, by decide⟩
  back_look := by rw [← test_lookaround]; decide
  balanced := ⟨1, fun _ => rfl, by decide⟩
  whole := whole_of_last "^".toList (by decide)
  front_stripped := by decide
  back_stripped := by decide
  back_stripped_head := ⟨')', _, rfl, by decide⟩

theorem frame_prefix : Frame "^".toList "\\b".toList where
  front_repeat := by decide
  front_reference := by decide
  front_last := by decide
  front_look := by rw [← test_lookaround]; decide
  front_open := by decide
  back_repeat := by decide
  back_reference := by decide
  back_head := ⟨'\\', _, rfl, by decide, by decide⟩
  back_look := by rw [← test_lookaround]; decide
  balanced := ⟨0, fun _ => rfl, by decide⟩
  whole := whole_of_last "".toList (by decide)
  front_stripped := by decide
  back_stripped := by decide
  back_stripped_head := ⟨'_', _, rfl, by decide⟩

end Frames

section Meaning

open Regex

/-- A keyword that stands in a text, between characters of no word or the ends of the text. -/
def StandsIn (f : CharFold) (word text : List Char) : Prop :=
  ∃ front hit back, text = front ++ (hit ++ back) ∧ hit.map f.fold = word.map f.fold ∧
    front.getLast?.any isWord = false ∧ back.head?.any isWord = false

/-- A keyword at the beginning of a text, at whose end a word begins or ends. -/
def BeginsWith (f : CharFold) (word text : List Char) : Prop :=
  ∃ hit rest, text = hit ++ rest ∧ hit.map f.fold = word.map f.fold ∧
    word.getLast?.any isWord ≠ rest.head?.any isWord

theorem plain_caret : '^' ∉ ['\\', '(', ')', '[', '*', '+', '?', '|'] := by
  decide

theorem plain_dollar : '$' ∉ ['\\', '(', ')', '[', '*', '+', '?', '|'] := by
  decide

/-- `^` -/
def textStart : Regex :=
  atom (.char ⟨'^', plain_caret⟩) none

/-- `$` -/
def textEnd : Regex :=
  atom (.char ⟨'$', plain_dollar⟩) none

/-- `\b` -/
def wordBoundary : Regex :=
  atom (.escape 'b') none

/-- An end of the text or a character of no word. -/
def wordEdge (end_ : Regex) : Regex :=
  group (.modified []) (alt end_ (atom (.set true [.escape 'w']) none)) none

/-- One of some keywords between characters of no word. -/
def boundaryTerm (words : List String) : Regex :=
  seq (wordEdge textStart) (seq (group .capturing (keywordTerm words) none) (wordEdge textEnd))

/-- One of some keywords at the beginning. -/
def prefixesTerm (words : List String) : Regex :=
  seq textStart (seq (group .capturing (keywordTerm words) none) wordBoundary)

/-- A text at the beginning. -/
def prefixTerm (word : String) : Regex :=
  seq textStart (seq (literal word.toList) wordBoundary)

section Texts

theorem text_boundaryTerm (words : List String) : (boundaryTerm words).text =
    "(?:^|[^\\w])(".toList ++ ((keywordTerm words).text ++ ")(?:$|[^\\w])".toList) := by
  simp [boundaryTerm, wordEdge, textStart, textEnd, text, GroupKind.text, Atom.text, quantifierText,
    ClassItem.text]

theorem text_prefixesTerm (words : List String) : (prefixesTerm words).text =
    "^(".toList ++ ((keywordTerm words).text ++ ")\\b".toList) := by
  simp [prefixesTerm, textStart, wordBoundary, text, GroupKind.text, Atom.text, quantifierText]

theorem text_prefixTerm (word : String) : (prefixTerm word).text =
    "^".toList ++ ((literal word.toList).text ++ "\\b".toList) := by
  simp [prefixTerm, textStart, wordBoundary, text, Atom.text, quantifierText]

theorem pattern_boundaryTerm (words : List String) :
    (boundaryTerm (Patterns.fittingWords false 0 words)).pattern =
      Patterns.keywordBoundaryRegex words := by
  rw [pattern, text_boundaryTerm, text_keywordTerm, Patterns.keywordBoundaryRegex,
    Patterns.keywordRegex]
  simp [String.ext_iff]

theorem pattern_prefixesTerm (words : List String) :
    (prefixesTerm (Patterns.fittingWords false 0 words)).pattern =
      "^(" ++ Patterns.keywordRegex words ++ ")\\b" := by
  rw [pattern, text_prefixesTerm, text_keywordTerm, Patterns.keywordRegex]
  simp [String.ext_iff]

theorem pattern_prefixTerm (front back : String) :
    (prefixTerm (front ++ back)).pattern =
      "^" ++ Patterns.escapeRegex front ++ Patterns.escapeRegex back ++ "\\b" := by
  rw [pattern, text_prefixTerm, text_literal_eq, Patterns.escapeRegex]
  simp [String.ext_iff, Patterns.escapeRegex]

end Texts

variable {f : CharFold} {before hit after text : List Char} {words : List String}

theorem matches_wordEdge {end_ : Regex} :
    (wordEdge end_).Matches f before hit after ↔
      end_.Matches f before hit after ∨ ∃ c, isWord c = false ∧ hit = [c] := by
  show _ ∨ (∃ c, ((∃ e, listed [.escape 'w'] e ∧ f.fold e = f.fold c) ↔ true = false) ∧ hit = [c]) ↔ _
  refine or_congr_right (exists_congr fun c => and_congr_left fun _ => ?_)
  have hlisted : ∀ e, listed [.escape 'w'] e ↔ isWord e = true := fun e => Iff.rfl
  simp only [hlisted, Bool.true_eq_false, iff_false]
  constructor
  · intro h
    exact Bool.eq_false_iff.mpr fun hc => h ⟨c, hc, rfl⟩
  · rintro hc ⟨e, he, hfold⟩
    rw [f.word e c hfold, hc] at he
    cases he

theorem matches_keywordTerm (hne : words ≠ []) :
    (keywordTerm words).Matches f before hit after ↔
      ∃ word ∈ words, hit.map f.fold = word.toList.map f.fold := by
  rw [keywordTerm, matches_alternatives (by simpa using hne)]
  simp [matches_literal]

/-- The filter around some keywords passes the texts in which one of them stands. -/
theorem test_boundaryTerm (hne : words ≠ []) :
    (boundaryTerm words).Test f text ↔ ∃ word ∈ words, StandsIn f word.toList text := by
  constructor
  · rintro ⟨front, hit, back, rfl, first, rest, rfl, hfirst, mid, last, rfl, hmid, hlast⟩
    obtain ⟨word, hword, hfold⟩ := (matches_keywordTerm hne).mp hmid
    refine ⟨word, hword, front ++ first, mid, last ++ back, by simp, hfold, ?_, ?_⟩
    · rcases matches_wordEdge.mp hfirst with ⟨rfl, hfront⟩ | ⟨c, hc, rfl⟩
      · rw [List.reverse_eq_nil_iff.mp hfront]
        rfl
      · simpa using hc
    · rcases matches_wordEdge.mp hlast with ⟨rfl, rfl⟩ | ⟨c, hc, rfl⟩
      · rfl
      · simpa using hc
  · rintro ⟨word, hword, front, hit, back, rfl, hfold, hfront, hback⟩
    have hmid (before after : List Char) : (keywordTerm words).Matches f before hit after :=
      (matches_keywordTerm hne).mpr ⟨word, hword, hfold⟩
    obtain ⟨front, first, rfl, hfirst⟩ : ∃ front' first, front = front' ++ first ∧
        ∀ after, (wordEdge textStart).Matches f front'.reverse first after := by
      rcases List.eq_nil_or_concat front with rfl | ⟨front, c, rfl⟩
      · exact ⟨[], [], rfl, fun _ => matches_wordEdge.mpr (.inl ⟨rfl, rfl⟩)⟩
      · exact ⟨front, [c], List.concat_eq_append, fun _ =>
          matches_wordEdge.mpr (.inr ⟨c, by simpa using hfront, rfl⟩)⟩
    obtain ⟨last, back, rfl, hlast⟩ : ∃ last back', back = last ++ back' ∧
        ∀ before, (wordEdge textEnd).Matches f before last back' := by
      cases back with
      | nil => exact ⟨[], [], rfl, fun _ => matches_wordEdge.mpr (.inl ⟨rfl, rfl⟩)⟩
      | cons c back =>
        exact ⟨[c], back, rfl, fun _ => matches_wordEdge.mpr (.inr ⟨c, by simpa using hback, rfl⟩)⟩
    exact ⟨front, first ++ (hit ++ last), back, by simp, first, hit ++ last, rfl, hfirst _, hit, last,
      rfl, hmid _ _, hlast _⟩

/-- Texts that are the same end in a word character both or neither. -/
theorem any_getLast?_of_map_eq {word : List Char} (h : hit.map f.fold = word.map f.fold) :
    hit.getLast?.any isWord = word.getLast?.any isWord := by
  have hlast := congrArg List.getLast? h
  rw [List.getLast?_map, List.getLast?_map] at hlast
  cases hhit : hit.getLast? with
  | none =>
    rw [hhit] at hlast
    rw [Option.map_eq_none_iff.mp hlast.symm]
  | some c =>
    rw [hhit] at hlast
    obtain ⟨d, hd, hfold⟩ := Option.map_eq_some_iff.mp hlast.symm
    rw [hd]
    exact f.word c d hfold.symm

/-- A text at the beginning, before a boundary, for what matches the texts of one word. -/
theorem test_prefix {r : Regex} {fits : List Char → Prop}
    (hr : ∀ before hit after, r.Matches f before hit after ↔ fits hit) :
    (seq textStart (seq r wordBoundary)).Test f text ↔
      ∃ hit rest, text = hit ++ rest ∧ fits hit ∧ hit.getLast?.any isWord ≠ rest.head?.any isWord := by
  constructor
  · rintro ⟨front, hit, back, rfl, first, rest, rfl, ⟨rfl, hfront⟩, mid, last, rfl, hmid, rfl, hbound⟩
    rw [List.reverse_eq_nil_iff.mp hfront] at hbound ⊢
    refine ⟨mid, back, by simp, (hr _ _ _).mp hmid, ?_⟩
    simpa [atBoundary] using hbound
  · rintro ⟨hit, rest, rfl, hfits, hbound⟩
    refine ⟨[], hit, rest, rfl, [], hit, rfl, ⟨rfl, rfl⟩, hit, [], by simp, (hr _ _ _).mpr hfits, rfl, ?_⟩
    simpa [atBoundary] using hbound

theorem test_prefixesTerm (hne : words ≠ []) :
    (prefixesTerm words).Test f text ↔ ∃ word ∈ words, BeginsWith f word.toList text := by
  rw [prefixesTerm, test_prefix (r := group .capturing (keywordTerm words) none)
    fun _ _ _ => matches_keywordTerm hne]
  constructor
  · rintro ⟨hit, rest, rfl, ⟨word, hword, hfold⟩, hbound⟩
    exact ⟨word, hword, hit, rest, rfl, hfold, any_getLast?_of_map_eq hfold ▸ hbound⟩
  · rintro ⟨word, hword, hit, rest, rfl, hfold, hbound⟩
    exact ⟨hit, rest, rfl, ⟨word, hword, hfold⟩, (any_getLast?_of_map_eq hfold).symm ▸ hbound⟩

theorem test_prefixTerm {word : String} :
    (prefixTerm word).Test f text ↔ BeginsWith f word.toList text := by
  rw [prefixTerm, test_prefix fun _ _ _ => matches_literal word.toList]
  constructor
  · rintro ⟨hit, rest, rfl, hfold, hbound⟩
    exact ⟨hit, rest, rfl, hfold, any_getLast?_of_map_eq hfold ▸ hbound⟩
  · rintro ⟨hit, rest, rfl, hfold, hbound⟩
    exact ⟨hit, rest, rfl, hfold, (any_getLast?_of_map_eq hfold).symm ▸ hbound⟩

end Meaning

section Keywords

open Patterns

/-- The keywords that the budget leaves of a parameter. -/
def keywordsOf (params : PatternParams) (key fallback : String) : List String :=
  fittingWords false 0 (keywordsOr (splitList (str params key fallback)) fallback)

/-- Escaping doubles a text at most. -/
theorem utf16Length_escapeRegex_le (word : String) :
    utf16Length (escapeRegex word) ≤ 2 * utf16Length word := by
  rw [escapeRegex]
  conv_rhs => rw [← String.ofList_toList (s := word)]
  induction word.toList with
  | nil => exact Nat.le_refl 0
  | cons c rest ih =>
    rw [List.flatMap_cons, utf16Length_ofList_cons]
    split
    · show utf16Length (String.ofList ('\\' :: c :: rest.flatMap _)) ≤ _
      rw [utf16Length_ofList_cons, utf16Length_ofList_cons, if_pos (by decide)]
      split <;> omega
    · show utf16Length (String.ofList (c :: rest.flatMap _)) ≤ _
      rw [utf16Length_ofList_cons]
      split <;> omega

theorem fittingWords_cons (started : Bool) (length : ℕ) (word : String) (rest : List String) :
    fittingWords started length (word :: rest) =
      if maxKeywordRegex < length + keywordCost started word then []
      else word :: fittingWords true (length + keywordCost started word) rest :=
  rfl

theorem fittingWords_ne_nil {words : List String} (hne : words ≠ [])
    (hshort : ∀ word ∈ words, utf16Length word ≤ maxItemLength) : fittingWords false 0 words ≠ [] := by
  cases words with
  | nil => exact absurd rfl hne
  | cons word rest =>
    have hword := hshort word List.mem_cons_self
    have hescaped := utf16Length_escapeRegex_le word
    have hroom : ¬maxKeywordRegex < 0 + keywordCost false word := by
      have hcost : keywordCost false word = utf16Length (escapeRegex word) := rfl
      rw [maxItemLength] at hword
      rw [hcost, maxKeywordRegex]
      omega
    rw [fittingWords_cons, if_neg hroom]
    exact List.cons_ne_nil _ _

theorem mem_of_mem_fittingWords {started : Bool} {length : ℕ} {words : List String} {word : String}
    (h : word ∈ fittingWords started length words) : word ∈ words := by
  induction words generalizing started length with
  | nil => exact h
  | cons first rest ih =>
    rw [fittingWords_cons] at h
    by_cases hroom : maxKeywordRegex < length + keywordCost started first
    · rw [if_pos hroom] at h
      cases h
    · rw [if_neg hroom] at h
      rcases List.mem_cons.mp h with rfl | h
      · exact List.mem_cons_self
      · exact List.mem_cons_of_mem _ (ih h)

theorem sliceUnits_ne_empty {n : ℕ} {s : String} (hn : n ≠ 0) (hs : s ≠ "") : sliceUnits n s ≠ "" := by
  intro h
  have hnil : takeUnits n s.toList = [] := by
    rw [← String.toList_ofList (l := takeUnits n s.toList), ← sliceUnits, h]
    rfl
  have hne : s.toList ≠ [] := fun hnil => hs (String.toList_eq_nil_iff.mp hnil)
  revert hnil hne
  fun_cases takeUnits n s.toList
  all_goals simp_all

/-- A keyword is not empty and within its limit. -/
theorem of_mem_keywordsOr {value fallback word : String} (hfallback : fallback ≠ "")
    (hshort : utf16Length fallback ≤ maxItemLength) (h : word ∈ keywordsOr (splitList value) fallback) :
    word ≠ "" ∧ utf16Length word ≤ maxItemLength := by
  rw [keywordsOr] at h
  split at h
  · rw [List.mem_singleton.mp h]
    exact ⟨hfallback, hshort⟩
  · obtain ⟨part, hpart, rfl⟩ := List.mem_map.mp h
    have hne : part ≠ "" := by
      simpa using (List.mem_filter.mp (List.mem_of_mem_take hpart)).2
    exact ⟨sliceUnits_ne_empty (by decide) hne, utf16Length_sliceUnits_le _ _⟩

/-- There always is a keyword, and none is empty. -/
theorem keywordsOf_proper (params : PatternParams) (key fallback : String)
    (hfallback : fallback ≠ "") (hshort : utf16Length fallback ≤ maxItemLength) :
    keywordsOf params key fallback ≠ [] ∧ ∀ word ∈ keywordsOf params key fallback, word ≠ "" := by
  refine ⟨fittingWords_ne_nil ?_ fun word hword => (of_mem_keywordsOr hfallback hshort hword).2,
    fun word hword => (of_mem_keywordsOr hfallback hshort (mem_of_mem_fittingWords hword)).1⟩
  rw [keywordsOr]
  split
  · exact List.cons_ne_nil _ _
  · assumption

@[simp] theorem filters_withCooldown (config : GeneratedScriptConfig) (cooldown : ℚ) :
    (withCooldown config cooldown).filters = config.filters := by
  rw [withCooldown]
  split <;> rfl

theorem keywordReply_meaning (lang : ScriptLanguage) (f : CharFold) (params : PatternParams)
    (key textKey : String) (cooldown : ℚ) {fallback : String} (hfallback : fallback ≠ "")
    (hshort : utf16Length fallback ≤ maxItemLength) :
    ∃ r : Regex, (keywordReply lang params key fallback textKey cooldown).filters =
        some [regexFilter r.pattern] ∧
      ∀ text, r.Test f text ↔
        ∃ word ∈ keywordsOf params key fallback, word ≠ "" ∧ StandsIn f word.toList text := by
  obtain ⟨hne, hproper⟩ := keywordsOf_proper params key fallback hfallback hshort
  refine ⟨boundaryTerm (keywordsOf params key fallback), ?_, fun text => ?_⟩
  · rw [keywordReply, filters_withCooldown, keywordsOf, pattern_boundaryTerm]
  · rw [test_boundaryTerm hne]
    exact exists_congr fun word => and_congr_right fun hword =>
      (and_iff_right (hproper word hword)).symm

end Keywords

example : StandsIn .exact "!ping".toList "say !ping now".toList :=
  ⟨"say ".toList, "!ping".toList, " now".toList, by decide, rfl, by decide, by decide⟩

end BotHive.Scripts
