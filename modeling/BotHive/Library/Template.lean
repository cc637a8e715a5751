import BotHive.Library.MatchAll
import Mathlib.Data.List.Infix
import Mathlib.Logic.Equiv.Defs

/-!
# Templates

A template is a text with placeholders in it, each a name between two delimiters. Everything else
is plain, a delimiter without its counterpart too. A text is read from the left, one character or
one placeholder after the other.

## Main definitions

- `TemplateSyntax`: the delimiters, and what may stand between them
- `TemplateSyntax.read`, `TemplateSyntax.spell`: from a text to its pieces and back
- `Template`: pieces whose plain characters spell no placeholder
- `fillPieces`: the text that the values of the placeholders give

## Main results

- `Template.equivText`: each text spells exactly one template
- `replaceMatches_eq_fillPieces`: to replace the matches of the placeholder in a text is to fill
  its template
-/

/-- A piece of a template. -/
inductive TemplatePiece (α : Type*) where
  | plain (c : α)
  | hole (name : List α)
  deriving DecidableEq

/-- How a placeholder is written. -/
structure TemplateSyntax (α : Type*) where
  opening : α
  closing : α
  isName : List α → Bool
  opening_ne_closing : opening ≠ closing
  /-- No name has a delimiter in it. -/
  not_delimiter : ∀ name, isName name = true → opening ∉ name ∧ closing ∉ name

namespace TemplateSyntax

variable {α : Type*} (s : TemplateSyntax α) {name text rest : List α} {c : α}
  {pieces : List (TemplatePiece α)}

/-- A placeholder as it is written. -/
def placeholder (name : List α) : List α :=
  s.opening :: (name ++ [s.closing])

def spellPiece : TemplatePiece α → List α
  | .plain c => [c]
  | .hole name => s.placeholder name

def spell (pieces : List (TemplatePiece α)) : List α :=
  pieces.flatMap s.spellPiece

@[simp] theorem spell_nil : s.spell [] = [] :=
  rfl

@[simp] theorem spell_plain_cons : s.spell (.plain c :: pieces) = c :: s.spell pieces :=
  rfl

@[simp] theorem spell_hole_cons :
    s.spell (.hole name :: pieces) = s.placeholder name ++ s.spell pieces :=
  rfl

theorem spell_map_plain (text : List α) : s.spell (text.map .plain) = text := by
  induction text with
  | nil => rfl
  | cons c rest ih => rw [List.map_cons, spell_plain_cons, ih]

theorem spell_append (front back : List (TemplatePiece α)) :
    s.spell (front ++ back) = s.spell front ++ s.spell back :=
  List.flatMap_append

variable [DecidableEq α]

/-- The placeholder at the front of a text: its length, and its name. -/
def matcher : Matcher α := fun _ text =>
  match text with
  | [] => none
  | c :: rest =>
    let name := rest.takeWhile (· ≠ s.closing)
    if c = s.opening ∧ s.isName name = true ∧ s.closing ∈ rest then
      some (name.length + 2, name)
    else none

/-- The pieces of a text; the first `skip` characters belong to a placeholder that was read
    already. -/
def readFrom : (skip : ℕ) → List α → List (TemplatePiece α)
  | _, [] => []
  | skip + 1, _ :: rest => readFrom skip rest
  | 0, c :: rest =>
    match s.matcher false (c :: rest) with
    | some (length, name) => .hole name :: readFrom (length - 1) rest
    | none => .plain c :: readFrom 0 rest

def read (text : List α) : List (TemplatePiece α) :=
  s.readFrom 0 text

section Reading

/-- What ends at the first closing delimiter. -/
theorem takeWhile_closing (h : s.closing ∉ name) (rest : List α) :
    (name ++ s.closing :: rest).takeWhile (· ≠ s.closing) = name := by
  have hname : ∀ c ∈ name, decide (c ≠ s.closing) = true := by
    intro c hc
    exact decide_eq_true fun heq => h (heq ▸ hc)
  rw [List.takeWhile_append_of_pos hname, List.takeWhile_cons_of_neg (by simp), List.append_nil]

theorem matcher_eq_some_iff {atStart : Bool} {length : ℕ} :
    s.matcher atStart text = some (length, name) ↔
      s.isName name = true ∧ length = name.length + 2 ∧ s.placeholder name <+: text := by
  cases text with
  | nil => simp [matcher, placeholder]
  | cons c rest =>
    rw [matcher]
    constructor
    · intro h
      split at h
      next hfront =>
        obtain ⟨rfl, hname, hclosing⟩ := hfront
        obtain ⟨inner, back, hsplit, hinner⟩ := List.eq_append_cons_of_mem hclosing
        rw [hsplit, s.takeWhile_closing hinner] at h hname
        cases h
        refine ⟨hname, rfl, back, ?_⟩
        rw [hsplit, placeholder, List.cons_append, List.append_assoc]
        rfl
      next => cases h
    · rintro ⟨hname, rfl, back, hback⟩
      rw [placeholder, List.cons_append, List.append_assoc, List.singleton_append,
        List.cons.injEq] at hback
      obtain ⟨rfl, rfl⟩ := hback
      have htake := s.takeWhile_closing (s.not_delimiter name hname).2 back
      rw [htake]
      exact if_pos ⟨rfl, hname, by simp⟩

/-- A name with its delimiters is read back. -/
theorem matcher_placeholder (hname : s.isName name = true) (rest : List α) :
    s.matcher false (s.placeholder name ++ rest) = some (name.length + 2, name) :=
  s.matcher_eq_some_iff.mpr ⟨hname, rfl, List.prefix_append _ _⟩

theorem readFrom_eq_read_drop (skip : ℕ) (text : List α) :
    s.readFrom skip text = s.read (text.drop skip) := by
  induction text generalizing skip with
  | nil =>
    rw [List.drop_nil]
    cases skip <;> rfl
  | cons c rest ih =>
    cases skip with
    | zero => rfl
    | succ skip => exact ih skip

theorem read_plain (h : s.matcher false (c :: rest) = none) :
    s.read (c :: rest) = .plain c :: s.read rest := by
  rw [read, readFrom, h]
  rfl

theorem read_placeholder (hname : s.isName name = true) (rest : List α) :
    s.read (s.placeholder name ++ rest) = .hole name :: s.read rest := by
  have hmatch := s.matcher_placeholder hname rest
  rw [placeholder, List.cons_append] at hmatch ⊢
  rw [read, readFrom, hmatch]
  show TemplatePiece.hole name :: s.readFrom (name.length + 1) _ = _
  rw [readFrom_eq_read_drop, List.drop_left' (by simp)]

/-- A text is empty, or starts with a plain character, or with a placeholder. -/
@[elab_as_elim]
theorem textInduction {motive : List α → Prop} (nil : motive [])
    (plain : ∀ c rest, s.matcher false (c :: rest) = none → motive rest → motive (c :: rest))
    (hole : ∀ name rest, s.isName name = true → motive rest →
      motive (s.placeholder name ++ rest)) (text : List α) : motive text := by
  induction hlength : text.length using Nat.strong_induction_on generalizing text with
  | _ n ih =>
    cases text with
    | nil => exact nil
    | cons c rest =>
      cases hmatch : s.matcher false (c :: rest) with
      | none => exact plain c rest hmatch (ih rest.length (by simp [← hlength]) rest rfl)
      | some hit =>
        obtain ⟨length, name⟩ := hit
        obtain ⟨hname, -, back, hback⟩ := s.matcher_eq_some_iff.mp hmatch
        rw [← hback] at hlength ⊢
        refine hole name back hname (ih back.length ?_ back rfl)
        rw [← hlength, List.length_append, placeholder, List.length_cons]
        omega

/-- Reading a text loses nothing of it. -/
theorem spell_read (text : List α) : s.spell (s.read text) = text := by
  induction text using s.textInduction with
  | nil => rfl
  | plain c rest hmatch ih => rw [s.read_plain hmatch, spell_plain_cons, ih]
  | hole name rest hname ih => rw [s.read_placeholder hname, spell_hole_cons, ih]

end Reading

section Spelling

theorem isName_of_mem_read (h : .hole name ∈ s.read text) : s.isName name = true := by
  induction text using s.textInduction with
  | nil => cases h
  | plain c rest hmatch ih =>
    rw [s.read_plain hmatch, List.mem_cons] at h
    obtain h | h := h
    · cases h
    · exact ih h
  | hole name' rest hname ih =>
    rw [s.read_placeholder hname, List.mem_cons] at h
    obtain h | h := h
    · cases h
      exact hname
    · exact ih h

/-- No plain characters that were read spell a placeholder. -/
theorem not_infix_read (hname : s.isName name = true) (text : List α) :
    ¬(s.placeholder name).map .plain <:+: s.read text := by
  induction text using s.textInduction with
  | nil =>
    intro h
    exact absurd (List.infix_nil.mp h) (by simp [placeholder])
  | plain c rest hmatch ih =>
    rw [s.read_plain hmatch, List.infix_cons_iff]
    rintro (⟨back, hback⟩ | h)
    · have hspell := congrArg s.spell hback
      rw [spell_append, spell_map_plain, spell_plain_cons, spell_read] at hspell
      have hhit : s.matcher false (c :: rest) = some (name.length + 2, name) :=
        s.matcher_eq_some_iff.mpr ⟨hname, rfl, s.spell back, hspell⟩
      rw [hmatch] at hhit
      cases hhit
    · exact ih h
  | hole name' rest hname' ih =>
    rw [s.read_placeholder hname', List.infix_cons_iff]
    rintro (⟨back, hback⟩ | h)
    · rw [placeholder, List.map_cons, List.cons_append, List.cons.injEq] at hback
      cases hback.1
    · exact ih h

omit [DecidableEq α] in
/-- What is spelled without the opening delimiter is spelled by plain characters. -/
theorem map_plain_prefix (hopening : s.opening ∉ text) (h : text <+: s.spell pieces) :
    text.map .plain <+: pieces := by
  induction text generalizing pieces with
  | nil => exact List.nil_prefix
  | cons c rest ih =>
    rw [List.mem_cons, not_or] at hopening
    match pieces with
    | [] => exact absurd (List.prefix_nil.mp h) (List.cons_ne_nil c rest)
    | .plain d :: others =>
      rw [spell_plain_cons, List.cons_prefix_cons] at h
      rw [List.map_cons, h.1, List.cons_prefix_cons]
      exact ⟨rfl, ih hopening.2 h.2⟩
    | .hole name :: others =>
      rw [spell_hole_cons, placeholder, List.cons_append, List.cons_prefix_cons] at h
      exact absurd h.1.symm hopening.1

theorem matcher_spell_plain (hplain : ∀ name, s.isName name = true →
      ¬(s.placeholder name).map .plain <:+: .plain c :: pieces) :
    s.matcher false (c :: s.spell pieces) = none := by
  rw [Option.eq_none_iff_forall_ne_some]
  rintro ⟨length, name⟩ hhit
  obtain ⟨hname, -, hprefix⟩ := s.matcher_eq_some_iff.mp hhit
  refine hplain name hname (List.IsPrefix.isInfix ?_)
  rw [placeholder, List.cons_prefix_cons] at hprefix
  rw [placeholder, List.map_cons, hprefix.1, List.cons_prefix_cons]
  refine ⟨rfl, s.map_plain_prefix ?_ hprefix.2⟩
  rw [List.mem_append, List.mem_singleton]
  rintro (h | h)
  · exact (s.not_delimiter name hname).1 h
  · exact s.opening_ne_closing h

/-- Pieces whose plain characters spell no placeholder are read back. -/
theorem read_spell (hnames : ∀ name, .hole name ∈ pieces → s.isName name = true)
    (hplain : ∀ name, s.isName name = true → ¬(s.placeholder name).map .plain <:+: pieces) :
    s.read (s.spell pieces) = pieces := by
  induction pieces with
  | nil => rfl
  | cons piece rest ih =>
    have hrest := ih (fun name h => hnames name (List.mem_cons_of_mem _ h))
      fun name hname h => hplain name hname (List.infix_cons h)
    cases piece with
    | plain c => rw [spell_plain_cons, s.read_plain (s.matcher_spell_plain hplain), hrest]
    | hole name =>
      have hname := hnames name List.mem_cons_self
      rw [spell_hole_cons, s.read_placeholder hname, hrest]

end Spelling

end TemplateSyntax

/-- Pieces whose plain characters spell no placeholder. -/
@[ext] structure Template {α : Type*} (s : TemplateSyntax α) where
  pieces : List (TemplatePiece α)
  isName : ∀ name, .hole name ∈ pieces → s.isName name = true
  plain : ∀ name, s.isName name = true → ¬(s.placeholder name).map .plain <:+: pieces

namespace Template

variable {α : Type*} [DecidableEq α]

/-- Each text spells exactly one template. -/
def equivText (s : TemplateSyntax α) : Template s ≃ List α where
  toFun t := s.spell t.pieces
  invFun text := ⟨s.read text, fun _ => s.isName_of_mem_read, fun _ h => s.not_infix_read h text⟩
  left_inv t := Template.ext (s.read_spell t.isName t.plain)
  right_inv text := s.spell_read text

end Template

section Filling

variable {α : Type*}

/-- The text that the values of the placeholders give, none when a value is missing. -/
def fillPieces (value : List α → Option (List α)) : List (TemplatePiece α) → Option (List α)
  | [] => some []
  | .plain c :: rest => (fillPieces value rest).map (c :: ·)
  | .hole name :: rest => do return (← value name) ++ (← fillPieces value rest)

variable {value : List α → Option (List α)}

theorem replaceMatches_cons {position : ℕ} {found : List (ListMatch α)}
    (h : ∀ m ∈ found, position < m.index) (c : α) (rest : List α) :
    replaceMatches value position found (c :: rest) =
      (replaceMatches value (position + 1) found rest).map (c :: ·) := by
  cases found with
  | nil => rfl
  | cons m others =>
    have hm := h m List.mem_cons_self
    have htake : m.index - position = (m.index - (position + 1)) + 1 := by omega
    have hdrop : m.index + m.length - position = (m.index + m.length - (position + 1)) + 1 := by
      omega
    rw [replaceMatches, replaceMatches, htake, hdrop, List.take_succ_cons, List.drop_succ_cons]
    cases value m.group with
    | none => rfl
    | some hit =>
      cases replaceMatches value (m.index + m.length) others
        (rest.drop (m.index + m.length - (position + 1))) with
      | none => rfl
      | some back => rfl

/-- A match at the position itself. -/
theorem replaceMatches_here (index length : ℕ) (name : List α) (others : List (ListMatch α))
    (c : α) (rest : List α) :
    replaceMatches value index (⟨index, length + 1, name⟩ :: others) (c :: rest) = do
      return (← value name) ++
        (← replaceMatches value (index + 1 + length) others (rest.drop length)) := by
  rw [replaceMatches]
  show (do
    let hit ← value name
    let back ← replaceMatches value (index + (length + 1)) others
      ((c :: rest).drop (index + (length + 1) - index))
    return (c :: rest).take (index - index) ++ hit ++ back) = _
  rw [Nat.add_sub_cancel_left, Nat.sub_self, Nat.add_right_comm index 1 length, List.drop_succ_cons]
  rfl

variable [DecidableEq α]

theorem replaceMatches_matchAllFrom (s : TemplateSyntax α) (index skip : ℕ) (text : List α) :
    replaceMatches value (index + skip) (matchAllFrom s.matcher index skip text)
        (text.drop skip) =
      fillPieces value (s.readFrom skip text) := by
  induction text generalizing index skip with
  | nil =>
    rw [List.drop_nil]
    cases skip <;> rfl
  | cons c rest ih =>
    match skip with
    | skip + 1 =>
      have hrest := ih (index + 1) skip
      rw [show index + 1 + skip = index + (skip + 1) by omega] at hrest
      exact hrest
    | 0 =>
      -- where the text starts is of no importance to a placeholder
      cases hmatch : s.matcher (decide (index = 0)) (c :: rest) with
      | none =>
        have hread : s.readFrom 0 (c :: rest) = .plain c :: s.readFrom 0 rest := s.read_plain hmatch
        rw [hread, fillPieces, ← ih (index + 1) 0, matchAllFrom, hmatch]
        refine replaceMatches_cons (fun m hm => ?_) c rest
        obtain ⟨k, -, hindex, -⟩ := of_mem_matchAllFrom hm
        omega
      | some hit =>
        obtain ⟨length, name⟩ := hit
        obtain ⟨-, rfl, -⟩ := s.matcher_eq_some_iff.mp hmatch
        have hfalse : s.matcher false (c :: rest) = some (name.length + 2, name) := hmatch
        have hread : s.readFrom 0 (c :: rest) =
            .hole name :: s.readFrom (name.length + 1) rest := by
          rw [TemplateSyntax.readFrom, hfalse]
          rfl
        rw [hread, fillPieces, ← ih (index + 1) (name.length + 1), matchAllFrom, hmatch]
        exact replaceMatches_here index (name.length + 1) name _ c rest

/-- To replace the matches of the placeholder in a text is to fill its template. -/
theorem replaceMatches_eq_fillPieces (s : TemplateSyntax α) (text : List α) :
    replaceMatches value 0 (matchAll s.matcher text) text = fillPieces value (s.read text) :=
  replaceMatches_matchAllFrom s 0 0 text

end Filling
