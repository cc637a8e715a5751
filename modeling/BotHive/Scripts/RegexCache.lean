import BotHive.Library.Machine
import BotHive.Scripts.RegexShapes

/-!
# The size of the regex cache

The cache is meant to hold at most `maxCachedRegexes` entries. The results of compiled patterns make
room first, those of refused patterns are stored without looking at the size. No lookup makes the
cache smaller. What a lookup gives does not depend on the entries.

## Main definitions

- `lookUp`: the cache after a lookup
- `BoundedCache`: what the cache is meant to be
- `FindsRoom`: the condition on a lookup for it

## Main results

- `regexCache_iff`: the cache stays bounded, and every result is right, exactly if all lookups find
  room
- `size_regexCacheAfter_refused`: refused patterns fill the cache without a bound
-/

namespace BotHive.Scripts

variable {Compiled : Type} (compile : String → Option Compiled) {cache : RegexCache Compiled}
  {pattern : String}

section Definitions

/-- The cache after a lookup. -/
def lookUp (cache : RegexCache Compiled) (pattern : String) : RegexCache Compiled :=
  (cachedRegex compile cache pattern).cache

def BoundedCache (cache : RegexCache Compiled) : Prop :=
  cache.size ≤ maxCachedRegexes

/-- Every lookup of the list gives what its pattern gives without a cache. -/
def RightResults (patterns : List String) : Prop :=
  ∀ before pattern after, patterns = before ++ pattern :: after →
    (cachedRegex compile (regexCacheAfter compile before) pattern).regex =
      uncachedRegex compile pattern

/-- If the pattern is looked up for the first time, or again after its result was evicted, and it is
    refused or does not compile, then the cache is not full. -/
def FindsRoom (cache : RegexCache Compiled) (pattern : String) : Prop :=
  cache.get pattern = none → uncachedRegex compile pattern = none → cache.size < maxCachedRegexes

end Definitions

variable {compile}

section Lookups

theorem lookUp_of_some {existing : Option Compiled} (h : cache.get pattern = some existing) :
    lookUp compile cache pattern = cache := by
  rw [lookUp, cachedRegex, h]

theorem lookUp_of_refused (hget : cache.get pattern = none)
    (hrefused : uncachedRegex compile pattern = none) :
    lookUp compile cache pattern = cache.set pattern none := by
  rw [uncachedRegex] at hrefused
  by_cases hdangerous : looksDangerous pattern = true
  · simp only [lookUp, cachedRegex, hget, hdangerous, if_true]
  · rw [if_neg hdangerous] at hrefused
    simp only [lookUp, cachedRegex, hget, hdangerous, hrefused, Bool.false_eq_true, if_false]

theorem lookUp_of_compiled {compiled : Compiled} (hget : cache.get pattern = none)
    (hcompiled : uncachedRegex compile pattern = some compiled) :
    lookUp compile cache pattern = (evictOldest cache).set pattern (some compiled) := by
  rw [uncachedRegex] at hcompiled
  by_cases hdangerous : looksDangerous pattern = true
  · rw [if_pos hdangerous] at hcompiled
    cases hcompiled
  · rw [if_neg hdangerous] at hcompiled
    simp only [lookUp, cachedRegex, hget, hdangerous, hcompiled, Bool.false_eq_true, if_false]

/-- Eviction leaves room in a cache that is not larger than it is meant to be. -/
theorem size_evictOldest (h : BoundedCache cache) : (evictOldest cache).size < maxCachedRegexes := by
  rw [evictOldest]
  split_ifs with hfull
  · cases hhead : cache.keys.head? with
    | none =>
      have hempty : cache.size = 0 := by
        rw [InsertionMap.size, ← List.length_map, List.length_eq_zero_iff]
        exact List.head?_eq_none_iff.mp hhead
      rw [hempty] at hfull
      cases hfull
    | some oldest =>
      obtain ⟨value, hget⟩ := cache.get_of_head?_keys hhead
      have hsize := cache.size_delete_add_one hget
      rw [BoundedCache] at h
      dsimp only
      omega
  · exact Nat.lt_of_not_le hfull

theorem get_evictOldest_of_none (h : cache.get pattern = none) :
    (evictOldest cache).get pattern = none := by
  rw [evictOldest]
  split_ifs
  · cases cache.keys.head? with
    | none => exact h
    | some oldest =>
      dsimp only
      rw [InsertionMap.get_delete, h, ite_self]
  · exact h

/-- A lookup leaves a bounded cache bounded exactly if it finds room. -/
theorem boundedCache_lookUp_iff (h : BoundedCache cache) :
    BoundedCache (lookUp compile cache pattern) ↔ FindsRoom compile cache pattern := by
  rw [FindsRoom]
  cases hget : cache.get pattern with
  | some existing =>
    rw [lookUp_of_some hget]
    exact iff_of_true h nofun
  | none =>
    cases hcompiled : uncachedRegex compile pattern with
    | none =>
      rw [lookUp_of_refused hget hcompiled, BoundedCache, cache.size_set_of_get_none _ hget]
      exact ⟨fun hsize _ _ => hsize, fun hroom => hroom rfl rfl⟩
    | some compiled =>
      rw [lookUp_of_compiled hget hcompiled, BoundedCache,
        InsertionMap.size_set_of_get_none _ _ (get_evictOldest_of_none hget)]
      exact iff_of_true (size_evictOldest h) nofun

end Lookups

/-- **Regex cache**: the cache stays within its bound, and every lookup gives what its pattern gives
    without a cache, exactly if all lookups find room for what they store. -/
theorem regexCache_iff (compile : String → Option Compiled) (patterns : List String) :
    (Machine.Everywhere (Machine.total (lookUp compile)) BoundedCache .empty patterns ∧
        RightResults compile patterns) ↔
      Machine.Along (Machine.total (lookUp compile)) (FindsRoom compile) .empty patterns := by
  have hright : RightResults compile patterns := fun before pattern _ _ =>
    regex_cachedRegex (cacheSound_after before) pattern
  rw [and_iff_left hright]
  refine Machine.everywhere_iff_along ?_ (Nat.zero_le _)
  rintro cache pattern _ hbounded ⟨⟩
  exact boundedCache_lookUp_iff hbounded

section Growth

/-- Different refused patterns all stay in the cache. -/
theorem size_foldl_refused {patterns : List String} (hnodup : patterns.Nodup)
    (hrefused : ∀ p ∈ patterns, uncachedRegex compile p = none)
    (hnew : ∀ p ∈ patterns, cache.get p = none) :
    (patterns.foldl (lookUp compile) cache).size = cache.size + patterns.length := by
  induction patterns generalizing cache with
  | nil => rfl
  | cons p rest ih =>
    rw [List.nodup_cons] at hnodup
    have hp := hnew p List.mem_cons_self
    have hstored := lookUp_of_refused hp (hrefused p List.mem_cons_self)
    rw [List.foldl_cons, ih hnodup.2 (fun q hq => hrefused q (List.mem_cons_of_mem p hq)), hstored,
      cache.size_set_of_get_none _ hp, List.length_cons]
    · omega
    · intro q hq
      have hne : q ≠ p := fun heq => hnodup.1 (heq ▸ hq)
      rw [hstored, InsertionMap.get_set_of_ne _ _ hne]
      exact hnew q (List.mem_cons_of_mem p hq)

/-- Refused patterns fill the cache without a bound. -/
theorem size_regexCacheAfter_refused {patterns : List String} (hnodup : patterns.Nodup)
    (hrefused : ∀ p ∈ patterns, uncachedRegex compile p = none) :
    (regexCacheAfter compile patterns).size = patterns.length :=
  (size_foldl_refused hnodup hrefused fun _ _ => rfl).trans (Nat.zero_add _)

/-- A quantified group with a quantifier in it, followed by a letter of its own. -/
def dangerousPattern (n : ℕ) : String :=
  String.ofList ['(', 'a', '+', ')', '+', Char.ofNat (0x4E00 + n)]

theorem looksDangerous_dangerousPattern (n : ℕ) : looksDangerous (dangerousPattern n) = true := by
  rw [looksDangerous, dangerousPattern, String.toList_ofList]
  rfl

theorem dangerousPattern_inj {m n : ℕ} (hm : m < 1000) (hn : n < 1000)
    (h : dangerousPattern m = dangerousPattern n) : m = n := by
  have hvalid {k : ℕ} (hk : k < 1000) : (Char.ofNat (0x4E00 + k)).toNat = 0x4E00 + k := by
    have hchar : (0x4E00 + k).isValidChar := Or.inl (by omega)
    rw [Char.ofNat, dif_pos hchar]
    rfl
  have hchars := String.ofList_injective h
  have hlast : Char.ofNat (0x4E00 + m) = Char.ofNat (0x4E00 + n) := by simpa using hchars
  have hcodes := congrArg Char.toNat hlast
  rw [hvalid hm, hvalid hn] at hcodes
  omega

/-- **The defect**: after one dangerous pattern more than the bound, all of them are stored. -/
theorem not_boundedCache_dangerous :
    ¬BoundedCache (regexCacheAfter (fun _ => some ())
      ((List.range 513).map dangerousPattern)) := by
  have hnodup : ((List.range 513).map dangerousPattern).Nodup := by
    refine List.Nodup.map_on (fun m hm n hn => ?_) List.nodup_range
    rw [List.mem_range] at hm hn
    exact dangerousPattern_inj (by omega) (by omega)
  have hrefused : ∀ p ∈ (List.range 513).map dangerousPattern,
      uncachedRegex (fun _ => some ()) p = none := by
    intro p hp
    obtain ⟨n, -, rfl⟩ := List.mem_map.mp hp
    rw [uncachedRegex, if_pos (looksDangerous_dangerousPattern n)]
  rw [BoundedCache, size_regexCacheAfter_refused hnodup hrefused, List.length_map,
    List.length_range]
  decide

end Growth

end BotHive.Scripts
