import Mathlib.Data.List.Basic
import Mathlib.Tactic.Common

/-!
# The syntax of regular expressions

Regular expressions as terms, and the texts that they are written as. A term carries its own
quantifier, so that every term has exactly one text. Classes and escapes are atoms: what is
written in them is not syntax.

## Main definitions

- `Regex`: terms, groups, sequences and alternatives
- `Regex.text`: the text of a regular expression
- `Regex.nested`: whether an unbounded quantifier occurs below another one
-/

/-- How often a term is repeated. The bounds are written in decimal digits. -/
inductive Repetition where
  | star
  | plus
  | optional
  | exactly (n : List (Fin 10))
  | atLeast (n : List (Fin 10))
  | between (n m : List (Fin 10))
  deriving DecidableEq

structure Quantifier where
  repetition : Repetition
  lazy : Bool
  deriving DecidableEq

/-- A character that is a term by itself: a literal, the dot or an anchor. -/
structure PlainChar where
  char : Char
  plain : char ∉ ['\\', '(', ')', '[', '*', '+', '?', '|']
  deriving DecidableEq

/-- What a character class lists: characters, the ends of ranges, and escapes. -/
inductive ClassItem where
  | char (c : Char) (plain : c ∉ ['\\', ']'])
  | escape (c : Char)
  deriving DecidableEq

inductive Atom where
  | char (c : PlainChar)
  | escape (c : Char)
  | set (negated : Bool) (items : List ClassItem)
  deriving DecidableEq

inductive GroupKind where
  | capturing
  | named (name : List Char)
  /-- A group that does not capture, with the flags that it changes. -/
  | modified (flags : List Char)
  | lookahead (negative : Bool)
  | lookbehind (negative : Bool)
  deriving DecidableEq

inductive Regex where
  | empty
  | atom (a : Atom) (q : Option Quantifier)
  | group (kind : GroupKind) (body : Regex) (q : Option Quantifier)
  | seq (r s : Regex)
  | alt (r s : Regex)

section Texts

def digitsText (n : List (Fin 10)) : List Char :=
  n.map fun d : Fin 10 => Nat.digitChar d.val

def Repetition.text : Repetition → List Char
  | .star => ['*']
  | .plus => ['+']
  | .optional => ['?']
  | .exactly n => '{' :: (digitsText n ++ ['}'])
  | .atLeast n => '{' :: (digitsText n ++ [',', '}'])
  | .between n m => '{' :: (digitsText n ++ ',' :: (digitsText m ++ ['}']))

def Quantifier.text (q : Quantifier) : List Char :=
  q.repetition.text ++ if q.lazy then ['?'] else []

/-- The text of a quantifier, if there is one. -/
def quantifierText : Option Quantifier → List Char
  | none => []
  | some q => q.text

def ClassItem.text : ClassItem → List Char
  | .char c _ => [c]
  | .escape c => ['\\', c]

def Atom.text : Atom → List Char
  | .char c => [c.char]
  | .escape c => ['\\', c]
  | .set negated items =>
    '[' :: ((if negated then ['^'] else []) ++ (items.flatMap ClassItem.text ++ [']']))

/-- What follows the parenthesis that opens a group. -/
def GroupKind.text : GroupKind → List Char
  | .capturing => []
  | .named name => '?' :: '<' :: (name ++ ['>'])
  | .modified flags => '?' :: (flags ++ [':'])
  | .lookahead negative => ['?', if negative then '!' else '=']
  | .lookbehind negative => ['?', '<', if negative then '!' else '=']

namespace Regex

def text : Regex → List Char
  | empty => []
  | atom a q => a.text ++ quantifierText q
  | group kind body q => '(' :: (kind.text ++ (body.text ++ ')' :: quantifierText q))
  | seq r s => r.text ++ s.text
  | alt r s => r.text ++ '|' :: s.text

/-- A regular expression as a string. -/
def pattern (r : Regex) : String :=
  String.ofList r.text

end Regex

end Texts

section Quantifiers

/-- Whether a term may be repeated without bound. -/
def Repetition.unbounded : Repetition → Bool
  | .star | .plus | .atLeast _ => true
  | .optional | .exactly _ | .between _ _ => false

def isUnbounded (q : Option Quantifier) : Bool :=
  q.any fun q => q.repetition.unbounded

namespace Regex

/-- Whether an unbounded quantifier occurs. -/
def hasUnbounded : Regex → Bool
  | empty => false
  | atom _ q => isUnbounded q
  | group _ body q => isUnbounded q || body.hasUnbounded
  | seq r s => r.hasUnbounded || s.hasUnbounded
  | alt r s => r.hasUnbounded || s.hasUnbounded

/-- Whether an unbounded quantifier occurs inside a group that carries an unbounded one. -/
def nested : Regex → Bool
  | empty => false
  | atom _ _ => false
  | group _ body q => isUnbounded q && body.hasUnbounded || body.nested
  | seq r s => r.nested || s.nested
  | alt r s => r.nested || s.nested

end Regex

/-- A regular expression with an unbounded quantifier below another one. -/
abbrev NestedRegex := {r : Regex // r.nested = true}

end Quantifiers
