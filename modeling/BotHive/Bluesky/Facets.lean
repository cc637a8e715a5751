import Mathlib.Data.List.DropRight
import Mathlib.Data.List.Sort
import BotHive.Library.MatchAll
import BotHive.Library.Utf8Bytes

/-!
# The facets of a post

`detectFacets` finds the links, the mentions and the hashtags of a text and gives each of them the
range of its UTF-8 bytes. The places of the matches are counted in UTF-16 code units. A mention or
a hashtag is matched together with the white space before it, which the start of the text has not.

## Main definitions

- `LINK_RE`, `MENTION_RE`, `HASHTAG_RE`: the expressions, as matchers
- `detectFacets`
- `ExactRanges`: the ranges are those of the tokens, in order and without overlaps
- `CleanTokens`: the condition on the text and on the resolved handles for it
-/

namespace BotHive.Bluesky

open Utf16 (toUtf8 Splits)

section Patterns

/-- `/https?:\/\/[^\s]+/g`; the whole match is captured. -/
def LINK_RE : Matcher UInt16 := fun _ text =>
  let scheme :=
    if Utf16.ofString "https://" <+: text then some 8
    else if Utf16.ofString "http://" <+: text then some 7
    else none
  scheme.bind fun n =>
    let run := (text.drop n).takeWhile fun u => !Utf16.isSpace u
    if run = [] then none else some (n + run.length, text.take n ++ run)

/-- What follows a marker at the front of a text. -/
def marked (marker : UInt16) (body : Utf16 → Option Utf16) : Utf16 → Option Utf16
  | u :: rest => if u = marker then body rest else none
  | [] => none

/-- `/(?:^|\s)…/g`: a marker and what follows it, at the start of the text or after a space. -/
def leading (marker : UInt16) (body : Utf16 → Option Utf16) : Matcher UInt16 := fun atStart text =>
  let here := if atStart then marked marker body text else none
  let afterSpace := match text with
    | u :: rest => if Utf16.isSpace u then marked marker body rest else none
    | [] => none
  (here.map fun group => (group.length + 1, group)).or
    (afterSpace.map fun group => (group.length + 2, group))

def isLetter (u : UInt16) : Bool :=
  (0x41 ≤ u && u ≤ 0x5A) || (0x61 ≤ u && u ≤ 0x7A)

/-- `[\w.-]` -/
def isHandleChar (u : UInt16) : Bool :=
  isLetter u || Utf16.isDigit u || u ∈ [0x5F, 0x2E, 0x2D]

/-- `([\w.-]+\.[A-Za-z]{2,})`: the last dot that works, with all the letters after it. -/
def matchHandle (text : Utf16) : Option Utf16 :=
  let run := text.takeWhile isHandleChar
  (List.range run.length).reverse.findSome? fun k =>
    let letters := (run.drop (k + 1)).takeWhile isLetter
    if 0 < k ∧ run[k]? = some 0x2E ∧ 2 ≤ letters.length then some (run.take (k + 1) ++ letters)
    else none

/-- `([^\s#]{1,64})` -/
def matchTag (text : Utf16) : Option Utf16 :=
  let run := (text.takeWhile fun u => !Utf16.isSpace u && u != 0x23).take 64
  if run = [] then none else some run

/-- `/(?:^|\s)@([\w.-]+\.[A-Za-z]{2,})/g` -/
def MENTION_RE : Matcher UInt16 :=
  leading 0x40 matchHandle

/-- `/(?:^|\s)#([^\s#]{1,64})/g` -/
def HASHTAG_RE : Matcher UInt16 :=
  leading 0x23 matchTag

/-- `[.,;:!?)]` -/
def isTrailingPunctuation (u : UInt16) : Bool :=
  u ∈ [0x2E, 0x2C, 0x3B, 0x3A, 0x21, 0x3F, 0x29]

end Patterns

section Detection

inductive FacetFeature
  | link (uri : Utf16)
  | mention (did : String)
  | tag (tag : Utf16)
  deriving DecidableEq

structure Facet where
  byteStart : ℕ
  byteEnd : ℕ
  feature : FacetFeature
  deriving DecidableEq

def utf8ByteLength (text : Utf16) : ℕ :=
  (toUtf8 text).length

/-- What the server says about a handle; the answer may depend on the number of the call. -/
abbrev Resolver := (call : ℕ) → (handle : Utf16) → Except String (Option String)

/-- A facet of a token that starts at a byte. -/
def facetAt (start : ℕ) (token : Utf16) (feature : FacetFeature) : Facet :=
  ⟨start, start + utf8ByteLength token, feature⟩

def trimLink (raw : Utf16) : Utf16 :=
  raw.rdropWhile isTrailingPunctuation

def linkFacet (text : Utf16) (m : ListMatch UInt16) : Option Facet :=
  let trimmed := trimLink m.group
  if trimmed = [] then none
  else some (facetAt (utf8ByteLength (text.take m.index)) trimmed (.link trimmed))

/-- The match is taken to stand at the space before the `@`. -/
def mentionFacet (text : Utf16) (m : ListMatch UInt16) (did : String) : Facet :=
  facetAt (utf8ByteLength (text.take (m.index + 1))) (0x40 :: m.group) (.mention did)

def tagFacet (text : Utf16) (m : ListMatch UInt16) : Facet :=
  facetAt (utf8ByteLength (text.take (m.index + 1))) (0x23 :: m.group) (.tag m.group)

/-- The loop over the mentions; one that is not resolved has no facet. -/
def resolveMentions (text : Utf16) (resolveHandle : Resolver) :
    (call : ℕ) → List (ListMatch UInt16) → Except String (List Facet)
  | _, [] => .ok []
  | call, m :: rest => do
    let did ← resolveHandle call m.group
    let facets ← resolveMentions text resolveHandle (call + 1) rest
    match did.filter (· ≠ "") with
    | none => return facets
    | some did => return mentionFacet text m did :: facets

def links (text : Utf16) : List (ListMatch UInt16) :=
  matchAll LINK_RE text

def mentions (text : Utf16) : List (ListMatch UInt16) :=
  matchAll MENTION_RE text

def hashtags (text : Utf16) : List (ListMatch UInt16) :=
  matchAll HASHTAG_RE text

def detectFacets (text : Utf16) (resolveHandle : Resolver) : Except String (List Facet) := do
  let mentioned ← resolveMentions text resolveHandle 0 (mentions text)
  return ((links text).filterMap (linkFacet text) ++ mentioned ++
    (hashtags text).map (tagFacet text)).insertionSort (·.byteStart ≤ ·.byteStart)

end Detection

section Ranges

/-- The range of a facet holds exactly the bytes of the token. -/
def Spans (text : Utf16) (facet : Facet) (token : Utf16) : Prop :=
  ∃ front back, toUtf8 text = front ++ toUtf8 token ++ back ∧ front.length = facet.byteStart ∧
    facet.byteEnd = facet.byteStart + (toUtf8 token).length

/-- The `call`-th mention is resolved to `did`. -/
def ResolvesTo (text : Utf16) (resolveHandle : Resolver) (m : ListMatch UInt16) (did : String) :
    Prop :=
  ∃ call, (mentions text)[call]? = some m ∧ resolveHandle call m.group = .ok (some did) ∧ did ≠ ""

/-- The range of a facet is that of its link, of `@` and its handle, or of `#` and its tag. -/
def Facet.Exact (text : Utf16) (resolveHandle : Resolver) (facet : Facet) : Prop :=
  match facet.feature with
  | .link uri => Spans text facet uri
  | .mention did => ∃ m, ResolvesTo text resolveHandle m did ∧ Spans text facet (0x40 :: m.group)
  | .tag tag => Spans text facet (0x23 :: tag)

def Facet.Disjoint (a b : Facet) : Prop :=
  a.byteEnd ≤ b.byteStart ∨ b.byteEnd ≤ a.byteStart

structure ExactRanges (text : Utf16) (resolveHandle : Resolver) (facets : List Facet) : Prop where
  exact : ∀ facet ∈ facets, facet.Exact text resolveHandle
  sorted : facets.Pairwise (·.byteStart ≤ ·.byteStart)
  disjoint : facets.Pairwise Facet.Disjoint

/-- A link that starts inside a match. -/
def StartsInside (l m : ListMatch UInt16) : Prop :=
  m.index < l.index ∧ l.index < m.index + m.length

/-- No mention that is resolved and no hashtag stands at the start of the text, no hashtag is cut
    inside a surrogate pair, and no link starts inside a mention that is resolved or a hashtag. -/
structure CleanTokens (text : Utf16) (resolveHandle : Resolver) : Prop where
  mention_start : ∀ m did, ResolvesTo text resolveHandle m did → m.index = 0 →
    text.head? ≠ some 0x40
  tag_start : ∀ m ∈ hashtags text, m.index = 0 → text.head? ≠ some 0x23
  tag_cut : ∀ m ∈ hashtags text, ¬Splits m.group (text.drop (m.index + m.length))
  link_mention : ∀ l ∈ links text, ∀ m did, ResolvesTo text resolveHandle m did → ¬StartsInside l m
  link_tag : ∀ l ∈ links text, ∀ m ∈ hashtags text, ¬StartsInside l m

end Ranges

/-- The example of the tests: a link, a mention and a hashtag after text of two bytes a letter. -/
example : detectFacets (Utf16.ofString "см. https://a.b/c). @x.yz #тег")
    (fun _ _ => .ok (some "did:plc:x")) =
      .ok [⟨6, 19, .link (Utf16.ofString "https://a.b/c")⟩, ⟨22, 27, .mention "did:plc:x"⟩,
        ⟨28, 35, .tag (Utf16.ofString "тег")⟩] := by
  decide +kernel

end BotHive.Bluesky
