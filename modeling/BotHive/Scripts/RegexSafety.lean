import BotHive.Library.ClassPattern
import BotHive.Library.InsertionMap
import BotHive.Library.Text

/-!
# The regular expressions of scripts

A regular expression is checked when a script is saved, and by other rules when the script engine
compiles it. The engine keeps the result of each pattern in a cache that all scripts share. The
compiler of the language is a parameter.

No class of the patterns below tells the two halves of a surrogate pair apart, so a text is read by
its characters here. Only lengths count code units.

## Main definitions

- `isRegexSafe`: the check of a pattern that is saved
- `looksDangerous`: the check of a pattern that is compiled
- `cachedRegex`: a pattern compiled, or taken from the cache
- `regexCacheAfter`: the cache after a list of lookups, from whichever scripts they came
-/

namespace BotHive.Scripts

section Saving

def maxRegexLength : ℕ := 500

/-- A group that contains a quantifier and is itself quantified, as far as classes can tell. -/
def quantifiedGroup (inner : List Char) : ClassPattern Char :=
  [.one (· == '('), .many (· != ')'), .one fun c => inner.elem c, .many (· != ')'), .one (· == ')'),
    .one fun c => ['+', '*', '?', '{'].elem c]

def quantifiedGroupRedos : ClassPattern Char :=
  quantifiedGroup ['+', '*', '{']

def backreference : ClassPattern Char :=
  [.one (· == '\\'), .one fun c => ['1', '2', '3', '4', '5', '6', '7', '8', '9'].elem c]

def lookaround : ClassPattern Char :=
  [.one (· == '('), .one (· == '?'), .one fun c => ['=', '<', '!'].elem c]

def namedGroup : ClassPattern Char :=
  ClassPattern.literal ['(', '?', '<']

inductive ScanMode where
  | outside
  /-- behind a backslash -/
  | escaped
  /-- in a character class -/
  | inClass
  deriving DecidableEq

/-- Whether the parentheses are balanced. Escaped ones do not count, nor do those between an opening
    bracket and the next closing one. -/
def parensBalanced : ScanMode → ℕ → List Char → Bool
  | _, depth, [] => depth == 0
  | .escaped, depth, _ :: rest => parensBalanced .outside depth rest
  | .inClass, depth, c :: rest => parensBalanced (if c = ']' then .outside else .inClass) depth rest
  | .outside, depth, c :: rest =>
    if c = '\\' then parensBalanced .escaped depth rest
    else if c = '[' then parensBalanced .inClass depth rest
    else if c = '(' then parensBalanced .outside (depth + 1) rest
    else if c = ')' then
      match depth with
      | 0 => false
      | depth + 1 => parensBalanced .outside depth rest
    else parensBalanced .outside depth rest

def isRegexSafe (value : String) : Bool :=
  if maxRegexLength < utf16Length value then false
  else if quantifiedGroupRedos.test value.toList then false
  else if backreference.test value.toList then false
  else if lookaround.test value.toList then false
  else if namedGroup.test value.toList then false
  else parensBalanced .outside 0 value.toList

end Saving

section Compiling

def isLineTerminator (c : Char) : Bool :=
  ['\n', '\r', '\u2028', '\u2029'].elem c

/-- Write two underscores for each escaped character. -/
def stripEscapes : List Char → List Char
  | [] => []
  | '\\' :: c :: rest =>
    -- the dot does not match a line terminator
    if isLineTerminator c then '\\' :: stripEscapes (c :: rest) else '_' :: '_' :: stripEscapes rest
  | c :: rest => c :: stripEscapes rest

def looksDangerous (pattern : String) : Bool :=
  (quantifiedGroup ['+', '*', '?', '{']).test (stripEscapes pattern.toList)

def maxCachedRegexes : ℕ := 512

variable {Compiled : Type}

abbrev RegexCache (Compiled : Type) := InsertionMap String (Option Compiled)

/-- What a lookup gives, and whether the pattern went to the compiler. -/
structure RegexLookup (Compiled : Type) where
  regex : Option Compiled
  compiled : Bool
  cache : RegexCache Compiled

variable (compile : String → Option Compiled)

/-- Make room for one more entry. -/
def evictOldest (cache : RegexCache Compiled) : RegexCache Compiled :=
  if maxCachedRegexes ≤ cache.size then
    match cache.keys.head? with
    | some oldest => cache.delete oldest
    | none => cache
  else cache

def cachedRegex (cache : RegexCache Compiled) (pattern : String) : RegexLookup Compiled :=
  match cache.get pattern with
  | some existing => ⟨existing, false, cache⟩
  | none =>
    if looksDangerous pattern then ⟨none, false, cache.set pattern none⟩
    else
      match compile pattern with
      | none => ⟨none, true, cache.set pattern none⟩
      | some compiled => ⟨some compiled, true, (evictOldest cache).set pattern (some compiled)⟩

/-- The cache after a list of lookups. -/
def regexCacheAfter (lookups : List String) : RegexCache Compiled :=
  lookups.foldl (fun cache pattern => (cachedRegex compile cache pattern).cache) InsertionMap.empty

end Compiling

section Caching

variable {Compiled : Type} (compile : String → Option Compiled) {cache : RegexCache Compiled}

/-- What a pattern gives without a cache. -/
def uncachedRegex (pattern : String) : Option Compiled :=
  if looksDangerous pattern then none else compile pattern

/-- Every entry is what its pattern gives without a cache. -/
def CacheSound (cache : RegexCache Compiled) : Prop :=
  ∀ pattern entry, cache.get pattern = some entry → entry = uncachedRegex compile pattern

variable {compile}

theorem CacheSound.set (h : CacheSound compile cache) {pattern : String} {entry : Option Compiled}
    (hentry : entry = uncachedRegex compile pattern) : CacheSound compile (cache.set pattern entry) := by
  intro other found hfound
  rw [InsertionMap.get_set] at hfound
  by_cases hother : other = pattern
  · rw [if_pos hother] at hfound
    rw [hother, ← hentry]
    exact (Option.some.inj hfound).symm
  · rw [if_neg hother] at hfound
    exact h other found hfound

theorem CacheSound.evictOldest (h : CacheSound compile cache) :
    CacheSound compile (evictOldest cache) := by
  intro pattern entry hentry
  rw [Scripts.evictOldest] at hentry
  split at hentry
  · split at hentry
    · rw [InsertionMap.get_delete] at hentry
      split_ifs at hentry
      exact h pattern entry hentry
    · exact h pattern entry hentry
  · exact h pattern entry hentry

/-- A lookup in a sound cache gives what the pattern gives without a cache. -/
theorem regex_cachedRegex (h : CacheSound compile cache) (pattern : String) :
    (cachedRegex compile cache pattern).regex = uncachedRegex compile pattern := by
  rw [cachedRegex]
  cases hget : cache.get pattern with
  | some existing => exact h pattern existing hget
  | none =>
    by_cases hdangerous : looksDangerous pattern = true
    · simp [uncachedRegex, hdangerous]
    · cases hcompile : compile pattern <;> simp [uncachedRegex, hdangerous, hcompile]

theorem CacheSound.cachedRegex (h : CacheSound compile cache) (pattern : String) :
    CacheSound compile (cachedRegex compile cache pattern).cache := by
  rw [Scripts.cachedRegex]
  cases hget : cache.get pattern with
  | some existing => exact h
  | none =>
    by_cases hdangerous : looksDangerous pattern = true
    · simp only [hdangerous, if_true]
      exact h.set (by rw [uncachedRegex, if_pos hdangerous])
    · have huncached : compile pattern = uncachedRegex compile pattern := by
        rw [uncachedRegex, if_neg hdangerous]
      simp only [hdangerous, Bool.false_eq_true, if_false]
      cases hcompile : compile pattern with
      | none => exact h.set (hcompile.symm.trans huncached)
      | some compiled => exact h.evictOldest.set (hcompile.symm.trans huncached)

/-- Whatever was looked up and evicted before, the cache is sound. -/
theorem cacheSound_after (lookups : List String) :
    CacheSound compile (regexCacheAfter compile lookups) := by
  rw [regexCacheAfter]
  have hrun : ∀ cache : RegexCache Compiled, CacheSound compile cache →
      CacheSound compile
        (lookups.foldl (fun cache pattern => (cachedRegex compile cache pattern).cache) cache) := by
    induction lookups with
    | nil => exact fun _ h => h
    | cons pattern rest ih => exact fun _ h => ih _ (h.cachedRegex pattern)
  exact hrun _ fun _ _ h => nomatch h

/-- A dangerous pattern never goes to the compiler. -/
theorem not_compiled_of_looksDangerous {pattern : String} (h : looksDangerous pattern = true) :
    (cachedRegex compile cache pattern).compiled = false := by
  rw [cachedRegex]
  cases cache.get pattern with
  | some existing => rfl
  | none => rw [if_pos h]

end Caching

end BotHive.Scripts
