import BotHive.Library.RegexSyntax

/-!
# The meaning of regular expressions

Where a regular expression matches: a stretch of the text with what is before it, the last
character first, and what is after it. Which characters a literal stands for is a parameter, so that
a comparison may disregard case. A term has one text, but escapes of more than one character,
references to groups and the flags of a group have no terms and no meaning here.

## Main definitions

- `Regex.Matches`, `Regex.Test`

## Main results

- `Regex.matches_literal`, `Regex.matches_alternatives`
- `Regex.text_literal`: a literal is written with a backslash before the characters of the syntax
-/

/-- The condition that a part of a regular expression puts on a stretch of a text. -/
abbrev Stretch := (before hit after : List Char) → Prop

section Parts

/-- A digit, a letter or the underscore. -/
def Regex.isWord (c : Char) : Bool :=
  c.isAlphanum || c == '_'

/-- Which characters count as the same: a word character and another one never do. -/
structure CharFold where
  fold : Char → Char
  word : ∀ c d, fold c = fold d → Regex.isWord c = Regex.isWord d

def CharFold.exact : CharFold :=
  ⟨id, fun _ _ h => congrArg Regex.isWord h⟩

variable (f : CharFold)

/-- One character of a class. -/
def Stretch.one (p : Char → Prop) : Stretch :=
  fun _ hit _ => ∃ c, p c ∧ hit = [c]

/-- A place with a condition on what is around it. -/
def Stretch.place (p : List Char → List Char → Prop) : Stretch :=
  fun before hit after => hit = [] ∧ p before after

/-- Whether exactly one side of a place is a word character. -/
def Regex.atBoundary (before after : List Char) : Prop :=
  before.head?.any Regex.isWord ≠ after.head?.any Regex.isWord

def Regex.isLineEnd (c : Char) : Bool :=
  ['\n', '\r', '\u2028', '\u2029'].elem c

def Regex.isBlank (c : Char) : Bool :=
  Regex.isLineEnd c || ['\t', '\u000b', '\u000c', ' ', '\u00a0', '\u1680', '\u202f', '\u205f',
    '\u3000', '\ufeff'].elem c || (0x2000 ≤ c.toNat && c.toNat ≤ 0x200a)

/-- The class that an escape stands for. -/
def Regex.escapedClass : Char → Option (Char → Bool)
  | 'd' => some Char.isDigit
  | 'D' => some fun c => !c.isDigit
  | 'w' => some Regex.isWord
  | 'W' => some fun c => !Regex.isWord c
  | 's' => some Regex.isBlank
  | 'S' => some fun c => !Regex.isBlank c
  | _ => none

/-- The character that an escape stands for. -/
def Regex.escapedChar : Char → Char
  | 't' => '\t'
  | 'n' => '\n'
  | 'v' => '\u000b'
  | 'f' => '\u000c'
  | 'r' => '\r'
  | '0' => '\x00'
  | c => c

/-- The character that an item of a class stands for, if it stands for one. -/
def ClassItem.char? : ClassItem → Option Char
  | .char c _ => some c
  | .escape c => if (Regex.escapedClass c).isSome then none else some (Regex.escapedChar c)

/-- The characters that an item of a class lists. -/
def ClassItem.Lists : ClassItem → Char → Prop
  | .char c _, d => c = d
  | .escape c, d =>
    match Regex.escapedClass c with
    | some p => p d = true
    | none => Regex.escapedChar c = d

/-- The characters that a class lists; a hyphen between two characters makes a range. -/
def Regex.listed : List ClassItem → Char → Prop
  | [], _ => False
  | [a], d => a.Lists d
  | [a, b], d => a.Lists d ∨ b.Lists d
  | a :: b :: c :: rest, d =>
    match a.char?, b, c.char? with
    | some low, .char '-' _, some high => low ≤ d ∧ d ≤ high ∨ Regex.listed rest d
    | _, _, _ => a.Lists d ∨ Regex.listed (b :: c :: rest) d

/-- What a character without a backslash means. -/
def Regex.plainChar : Char → Stretch
  | '^' => .place fun before _ => before = []
  | '$' => .place fun _ after => after = []
  | '.' => .one fun d => Regex.isLineEnd d = false
  | c => .one fun d => f.fold c = f.fold d

/-- What a character behind a backslash means. -/
def Regex.escaped : Char → Stretch
  | 'b' => .place Regex.atBoundary
  | 'B' => .place fun before after => ¬Regex.atBoundary before after
  | c => .one fun d => ∃ e, (ClassItem.escape c).Lists e ∧ f.fold e = f.fold d

def Atom.Matches : Atom → Stretch
  | .char c => Regex.plainChar f c.char
  | .escape c => Regex.escaped f c
  | .set negated items => .one fun d => (∃ e, Regex.listed items e ∧ f.fold e = f.fold d) ↔ negated = false

/-- A stretch that consists of some stretches in a row. -/
def Stretch.repeated (m : Stretch) : ℕ → Stretch
  | 0 => fun _ hit _ => hit = []
  | n + 1 => fun before hit after => ∃ first rest, hit = first ++ rest ∧
      m before first (rest ++ after) ∧ m.repeated n (first.reverse ++ before) rest after

def Regex.digitsValue (n : List (Fin 10)) : ℕ :=
  n.foldl (fun value d => 10 * value + d) 0

def Repetition.Allows : Repetition → ℕ → Prop
  | .star, _ => True
  | .plus, n => 1 ≤ n
  | .optional, n => n ≤ 1
  | .exactly k, n => n = Regex.digitsValue k
  | .atLeast k, n => Regex.digitsValue k ≤ n
  | .between k l, n => Regex.digitsValue k ≤ n ∧ n ≤ Regex.digitsValue l

def Stretch.quantified (m : Stretch) : Option Quantifier → Stretch
  | none => m
  | some q => fun before hit after =>
    ∃ n, q.repetition.Allows n ∧ m.repeated n before hit after

def Stretch.grouped (m : Stretch) : GroupKind → Stretch
  | .capturing | .named _ | .modified _ => m
  | .lookahead negative => .place fun before after =>
    (∃ hit rest, after = hit ++ rest ∧ m before hit rest) ↔ negative = false
  | .lookbehind negative => .place fun before after =>
    (∃ hit rest, before = hit.reverse ++ rest ∧ m rest hit after) ↔ negative = false

end Parts

namespace Regex

variable (f : CharFold)

/-- Where a regular expression matches. -/
def Matches : Regex → Stretch
  | empty => .place fun _ _ => True
  | atom a q => (a.Matches f).quantified q
  | group kind body q => (body.Matches.grouped kind).quantified q
  | seq r s => fun before hit after => ∃ first rest, hit = first ++ rest ∧
      r.Matches before first (rest ++ after) ∧ s.Matches (first.reverse ++ before) rest after
  | alt r s => fun before hit after => r.Matches before hit after ∨ s.Matches before hit after

/-- Whether a regular expression matches somewhere in a text. -/
def Test (r : Regex) (text : List Char) : Prop :=
  ∃ front hit back, text = front ++ (hit ++ back) ∧ r.Matches f front.reverse hit back

section Literals

/-- The characters that have a meaning of their own. -/
def syntaxCharacters : List Char :=
  ['.', '*', '+', '?', '^', '$', '{', '}', '(', ')', '|', '[', ']', '\\']

theorem plain_of_not_syntax {c : Char} (h : c ∉ syntaxCharacters) :
    c ∉ ['\\', '(', ')', '[', '*', '+', '?', '|'] :=
  fun hmem => h (List.Subset.trans (by decide : _ ⊆ syntaxCharacters) (List.Subset.refl _) hmem)

/-- A character that stands for itself. -/
def literalChar (c : Char) : Regex :=
  if h : c ∈ syntaxCharacters then atom (.escape c) none
  else atom (.char ⟨c, plain_of_not_syntax h⟩) none

/-- A text that stands for itself. -/
def literal : List Char → Regex
  | [] => empty
  | c :: rest => seq (literalChar c) (literal rest)

/-- One of some regular expressions. -/
def alternatives : List Regex → Regex
  | [] => empty
  | [r] => r
  | r :: rest => alt r (alternatives rest)

/-- An escaped character of the syntax stands for itself. -/
theorem escaped_syntax : ∀ c ∈ syntaxCharacters,
    c ≠ 'b' ∧ c ≠ 'B' ∧ escapedClass c = none ∧ escapedChar c = c := by
  simp [syntaxCharacters, escapedClass, escapedChar]

variable {f} {before hit after : List Char}

theorem matches_literalChar (c : Char) :
    (literalChar c).Matches f before hit after ↔ ∃ d, f.fold c = f.fold d ∧ hit = [d] := by
  rw [literalChar]
  split
  next hsyntax =>
    obtain ⟨hb, hB, hclass, hchar⟩ := escaped_syntax c hsyntax
    show escaped f c before hit after ↔ _
    rw [escaped]
    · simp only [Stretch.one, ClassItem.Lists, hclass, hchar, exists_eq_left']
    · exact hb
    · exact hB
  next hplain =>
    show plainChar f c before hit after ↔ _
    rw [plainChar]
    · rfl
    all_goals
      rintro rfl
      exact hplain (by decide)

/-- A literal matches the texts that are the same as it. -/
theorem matches_literal (text : List Char) :
    (literal text).Matches f before hit after ↔ hit.map f.fold = text.map f.fold := by
  induction text generalizing before hit with
  | nil =>
    show hit = [] ∧ True ↔ _
    simp
  | cons c rest ih =>
    show (∃ first others, _ ∧ (literalChar c).Matches f _ _ _ ∧ (literal rest).Matches f _ _ _) ↔ _
    simp only [matches_literalChar, ih]
    constructor
    · rintro ⟨_, others, rfl, ⟨d, hd, rfl⟩, hrest⟩
      simp [hd, hrest]
    · intro h
      obtain ⟨d, others, rfl, hd, hrest⟩ := List.map_eq_cons_iff.mp h
      exact ⟨[d], others, rfl, ⟨d, hd.symm, rfl⟩, hrest⟩

theorem matches_alternatives {rs : List Regex} (hne : rs ≠ []) :
    (alternatives rs).Matches f before hit after ↔ ∃ r ∈ rs, r.Matches f before hit after := by
  induction rs with
  | nil => exact absurd rfl hne
  | cons r rest ih =>
    cases rest with
    | nil => simp [alternatives]
    | cons s others =>
      show r.Matches f before hit after ∨ (alternatives (s :: others)).Matches f before hit after ↔ _
      rw [ih (List.cons_ne_nil _ _)]
      simp only [List.mem_cons, exists_eq_or_imp]

/-- The text of a literal has a backslash before each character of the syntax. -/
theorem text_literal (text : List Char) :
    (literal text).text =
      text.flatMap fun c => if c ∈ syntaxCharacters then ['\\', c] else [c] := by
  induction text with
  | nil => rfl
  | cons c rest ih =>
    show (literalChar c).text ++ (literal rest).text = _
    rw [ih, List.flatMap_cons, literalChar]
    split
    all_goals rfl

end Literals

end Regex
