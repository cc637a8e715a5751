import Mathlib.Data.List.Pairwise
import BotHive.Bluesky.FacetTokens

/-!
# The ranges of the facets

The facets of a text have the ranges of their tokens, in order and without overlaps, just if the
tokens are clean: a mention or a hashtag at the very start of the text is taken to stand one
character further on, a hashtag may be cut inside a surrogate pair, and a link may start inside a
hashtag or a mention.

## Main results

- `mem_detectFacets`: which facets there are
- `detectFacets_exactRanges_iff`: when the ranges are exact
-/

namespace BotHive.Bluesky

open Utf16

variable {text : Utf16} {resolveHandle : Resolver} {facets : List Facet} {facet : Facet}

section Members

/-- The did of a mention, given with the number of its call. -/
def namedBy (resolveHandle : Resolver) (m : ListMatch UInt16 × ℕ) : Option String :=
  match resolveHandle m.2 m.1.group with
  | .ok did => did.filter (· ≠ "")
  | .error _ => none

theorem namedBy_eq_some {m : ListMatch UInt16 × ℕ} {did : String} :
    namedBy resolveHandle m = some did ↔
      resolveHandle m.2 m.1.group = .ok (some did) ∧ did ≠ "" := by
  rw [namedBy]
  split
  next answer hanswer => rw [hanswer, Option.filter_eq_some_iff, decide_eq_true_eq, Except.ok.injEq]
  next hanswer => simp [hanswer]

theorem resolveMentions_eq_ok {call : ℕ} {ms : List (ListMatch UInt16)}
    (h : resolveMentions text resolveHandle call ms = .ok facets) :
    facets = (ms.zipIdx call).filterMap fun m =>
      (namedBy resolveHandle m).map (mentionFacet text m.1) := by
  induction ms generalizing call facets with
  | nil =>
    cases h
    rfl
  | cons m rest ih =>
    rw [resolveMentions] at h
    rw [List.zipIdx_cons, List.filterMap_cons, namedBy]
    cases hanswer : resolveHandle call m.group with
    | error e => rw [hanswer] at h; cases h
    | ok did =>
      rw [hanswer] at h
      cases hrest : resolveMentions text resolveHandle (call + 1) rest with
      | error e => rw [hrest] at h; cases h
      | ok found =>
        rw [hrest] at h
        rw [← ih hrest]
        dsimp only [bind, Except.bind, pure, Except.pure] at h ⊢
        split at h
        next hnone =>
          rw [hnone]
          exact (Except.ok.inj h).symm
        next did' hsome =>
          rw [hsome]
          exact (Except.ok.inj h).symm

/-- The facets of the mentions that are resolved. -/
def mentionFacets (text : Utf16) (resolveHandle : Resolver) : List Facet :=
  (mentions text).zipIdx.filterMap fun m => (namedBy resolveHandle m).map (mentionFacet text m.1)

theorem mem_mentionFacets : facet ∈ mentionFacets text resolveHandle ↔
    ∃ m did, ResolvesTo text resolveHandle m did ∧ facet = mentionFacet text m did := by
  rw [mentionFacets, List.mem_filterMap]
  constructor
  · rintro ⟨⟨m, call⟩, hm, hfacet⟩
    obtain ⟨did, hdid, rfl⟩ := Option.map_eq_some_iff.mp hfacet
    exact ⟨m, did, ⟨call, List.mem_zipIdx_iff_getElem?.mp hm, namedBy_eq_some.mp hdid⟩, rfl⟩
  · rintro ⟨m, did, ⟨call, hm, hdid⟩, rfl⟩
    exact ⟨(m, call), List.mem_zipIdx_iff_getElem?.mpr hm,
      Option.map_eq_some_iff.mpr ⟨did, namedBy_eq_some.mpr hdid, rfl⟩⟩

theorem ResolvesTo.mem {m : ListMatch UInt16} {did : String}
    (h : ResolvesTo text resolveHandle m did) : m ∈ mentions text := by
  obtain ⟨call, hm, -⟩ := h
  exact List.mem_of_getElem? hm

theorem detectFacets_eq_ok (h : detectFacets text resolveHandle = .ok facets) :
    facets = ((links text).filterMap (linkFacet text) ++ mentionFacets text resolveHandle ++
      (hashtags text).map (tagFacet text)).insertionSort (·.byteStart ≤ ·.byteStart) := by
  rw [detectFacets] at h
  cases hmentions : resolveMentions text resolveHandle 0 (mentions text) with
  | error e => rw [hmentions] at h; cases h
  | ok mentioned =>
    rw [hmentions] at h
    rw [mentionFacets, ← resolveMentions_eq_ok hmentions]
    exact (Except.ok.inj h).symm

/-- The facet of a link, which is never trimmed away. -/
theorem linkFacet_of_mem {l : ListMatch UInt16} (h : l ∈ links text) : linkFacet text l =
    some (facetAt (byteOffset text l.index) (trimLink l.group) (.link (trimLink l.group))) := by
  obtain ⟨htoken, -⟩ := of_mem_links h
  exact if_neg htoken.not_nil

theorem mem_detectFacets (h : detectFacets text resolveHandle = .ok facets) : facet ∈ facets ↔
    (∃ l ∈ links text, linkFacet text l = some facet) ∨
    (∃ m did, ResolvesTo text resolveHandle m did ∧ facet = mentionFacet text m did) ∨
    ∃ m ∈ hashtags text, tagFacet text m = facet := by
  rw [detectFacets_eq_ok h, (List.perm_insertionSort _ _).mem_iff, List.mem_append, List.mem_append,
    mem_mentionFacets, or_assoc, List.mem_map, List.mem_filterMap]

end Members

section Covers

/-- The range of a facet is that of a whole token at a place. -/
structure Facet.Covers (text : Utf16) (facet : Facet) (start : ℕ) (token : Utf16) : Prop where
  tokenAt : TokenAt text start token
  whole : Whole text start token
  eq : ∃ feature, facet = facetAt (byteOffset text start) token feature

variable {a b : Facet} {p q : ℕ} {s t : Utf16}

theorem Facet.Covers.spans (h : facet.Covers text p t) : Spans text facet t := by
  obtain ⟨feature, rfl⟩ := h.eq
  exact h.tokenAt.spans h.whole feature

theorem Facet.Disjoint.symm (h : a.Disjoint b) : b.Disjoint a :=
  Or.symm h

theorem Facet.Covers.disjoint_of_le (ha : a.Covers text p s) (hb : b.Covers text q t)
    (hle : p + s.length ≤ q) : a.Disjoint b := by
  obtain ⟨f, rfl⟩ := ha.eq
  obtain ⟨g, rfl⟩ := hb.eq
  exact Or.inl (ha.tokenAt.byteEnd_le ha.whole hle)

/-- Two facets whose tokens overlap have ranges that overlap. -/
theorem not_disjoint_of_inside {f g : FacetFeature} (hs : TokenAt text p s) (ht : TokenAt text q t)
    (hqp : q < p) (hinside : p < q + t.length) :
    ¬(facetAt (byteOffset text p) s f).Disjoint (facetAt (byteOffset text q) t g) := by
  have hstart := ht.byteOffset_lt hqp
  have hend := hs.byteOffset_lt hinside
  rw [ht.byteEnd_eq] at hend
  rintro (hbefore | hbehind)
  · have hle := Nat.le_trans (Nat.le_add_right _ _) hbefore
    exact absurd hstart (Nat.not_lt.mpr hle)
  · exact absurd hend (Nat.not_lt.mpr hbehind)

end Covers

section Marked

variable {m : ListMatch UInt16} {marker : UInt16} {body : Utf16 → Option Utf16}

theorem matchHandle_solid (rest group : Utf16) (h : matchHandle rest = some group) :
    group <+: rest ∧ ∀ u ∈ group, Utf16.isSpace u = false := by
  obtain ⟨hfront, -, hchars⟩ := matchHandle_eq_some h
  exact ⟨hfront, fun u hu => isSpace_of_isHandleChar (hchars u hu)⟩

theorem matchTag_solid (rest group : Utf16) (h : matchTag rest = some group) :
    group <+: rest ∧ ∀ u ∈ group, Utf16.isSpace u = false := by
  obtain ⟨hfront, -, hchars⟩ := matchTag_eq_some h
  exact ⟨hfront, fun u hu => (hchars u hu).1⟩

theorem markedAt_mention (h : m ∈ mentions text) (hstart : m.index = 0 → text.head? ≠ some 0x40) :
    MarkedAt text m.index (0x40 :: m.group) ∧ m.length = m.group.length + 2 :=
  of_mem_leading (by decide) matchHandle_solid h hstart

theorem markedAt_hashtag (h : m ∈ hashtags text) (hstart : m.index = 0 → text.head? ≠ some 0x23) :
    MarkedAt text m.index (0x23 :: m.group) ∧ m.length = m.group.length + 2 :=
  of_mem_leading (by decide) matchTag_solid h hstart

/-- The captured part of a match that follows a marker. -/
theorem of_mem_leading_group (h : m ∈ matchAll (leading marker body) text) :
    ∃ rest, body rest = some m.group := by
  obtain ⟨-, rest, -, hbody⟩ | ⟨-, rest, -, -, hbody, -⟩ := leading_eq_some (of_mem_matchAll h)
  · exact ⟨rest, hbody⟩
  · exact ⟨rest, hbody⟩

/-- A handle ends in a letter, which no surrogate pair starts with. -/
theorem whole_mention (h : m ∈ mentions text) (start : ℕ) : Whole text start (0x40 :: m.group) := by
  obtain ⟨rest, hbody⟩ := of_mem_leading_group h
  obtain ⟨-, hne, hchars⟩ := matchHandle_eq_some hbody
  have hlast := lt_of_isHandleChar (hchars _ (List.getLast_mem hne))
  rw [Whole, ← List.dropLast_append_getLast hne, ← List.cons_append]
  exact not_splits_of_not_isHigh (isHigh_ascii hlast) _ _

theorem whole_hashtag (h : m ∈ hashtags text) (hlength : m.length = m.group.length + 2) :
    Whole text (m.index + 1) (0x23 :: m.group) ↔
      ¬Splits m.group (text.drop (m.index + m.length)) := by
  obtain ⟨rest, hbody⟩ := of_mem_leading_group h
  obtain ⟨-, hne, -⟩ := matchTag_eq_some hbody
  have hend : m.index + 1 + (0x23 :: m.group).length = m.index + m.length := by
    rw [hlength, List.length_cons]
    omega
  rw [Whole, hend, splits_cons_iff hne]

/-- No space stands in a token, so that the next match starts behind it. -/
theorem MarkedAt.end_le {i j : ℕ} {s t : Utf16} (hs : MarkedAt text i s) (ht : MarkedAt text j t)
    (hij : i < j) : i + 1 + s.length ≤ j + 1 := by
  obtain ⟨u, hu, hspace⟩ := ht.space
  exact Nat.le_succ_of_le (hs.token.end_le hu hspace hij)

/-- Tokens with other first characters stand at other places. -/
theorem TokenAt.ne_of_head {p q : ℕ} {u v : UInt16} {s t : Utf16} (hs : TokenAt text p (u :: s))
    (ht : TokenAt text q (v :: t)) (huv : u ≠ v) : p ≠ q := by
  rintro rfl
  have hsame := hs.drop_eq.symm.trans ht.drop_eq
  rw [List.cons_append, List.cons_append, List.cons.injEq] at hsame
  exact huv hsame.1

end Marked

section Clean

variable {m m' l l' : ListMatch UInt16} {did did' : String}

theorem covers_link {facet : Facet} (hl : l ∈ links text) (h : linkFacet text l = some facet) :
    facet.Covers text l.index (trimLink l.group) := by
  rw [linkFacet_of_mem hl, Option.some_inj] at h
  obtain ⟨htoken, hwhole, -⟩ := of_mem_links hl
  exact ⟨htoken, hwhole, _, h.symm⟩

/-- Links follow each other. -/
theorem pairwise_links (text : Utf16) :
    ((links text).filterMap (linkFacet text)).Pairwise Facet.Disjoint := by
  rw [List.pairwise_filterMap]
  refine (pairwise_matchAll LINK_RE text).imp_of_mem fun {l l'} hl hl' hbefore a ha b hb => ?_
  have hlength : (trimLink l.group).length ≤ l.length := (of_mem_links hl).2.2.1
  exact (covers_link hl ha).disjoint_of_le (covers_link hl' hb) (by omega)

variable (hclean : CleanTokens text resolveHandle)
include hclean

theorem CleanTokens.markedAt_mention (hm : ResolvesTo text resolveHandle m did) :
    MarkedAt text m.index (0x40 :: m.group) ∧ m.length = m.group.length + 2 :=
  Bluesky.markedAt_mention hm.mem (hclean.mention_start m did hm)

theorem CleanTokens.covers_mention (hm : ResolvesTo text resolveHandle m did) :
    (mentionFacet text m did).Covers text (m.index + 1) (0x40 :: m.group) :=
  ⟨(hclean.markedAt_mention hm).1.token, whole_mention hm.mem _, _, rfl⟩

theorem CleanTokens.markedAt_hashtag (hm : m ∈ hashtags text) :
    MarkedAt text m.index (0x23 :: m.group) ∧ m.length = m.group.length + 2 :=
  Bluesky.markedAt_hashtag hm (hclean.tag_start m hm)

theorem CleanTokens.covers_hashtag (hm : m ∈ hashtags text) :
    (tagFacet text m).Covers text (m.index + 1) (0x23 :: m.group) := by
  obtain ⟨hmarked, hlength⟩ := hclean.markedAt_hashtag hm
  exact ⟨hmarked.token, (whole_hashtag hm hlength).mpr (hclean.tag_cut m hm), _, rfl⟩

theorem pairwise_mentionFacets : (mentionFacets text resolveHandle).Pairwise Facet.Disjoint := by
  rw [mentionFacets, List.pairwise_filterMap]
  have hbefore : (mentions text).zipIdx.Pairwise fun a b => a.1.index + a.1.length ≤ b.1.index := by
    have hbefore := pairwise_matchAll MENTION_RE text
    rw [← mentions, ← List.zipIdx_map_fst 0 (mentions text)] at hbefore
    exact List.pairwise_map.mp hbefore
  have hresolves {m : ListMatch UInt16 × ℕ} {did : String} (hm : m ∈ (mentions text).zipIdx)
      (hdid : namedBy resolveHandle m = some did) : ResolvesTo text resolveHandle m.1 did :=
    ⟨m.2, List.mem_zipIdx_iff_getElem?.mp hm, namedBy_eq_some.mp hdid⟩
  refine hbefore.imp_of_mem fun {m m'} hm hm' hbefore a ha b hb => ?_
  obtain ⟨did, hdid, rfl⟩ := Option.map_eq_some_iff.mp ha
  obtain ⟨did', hdid', rfl⟩ := Option.map_eq_some_iff.mp hb
  have hlength := (hclean.markedAt_mention (hresolves hm hdid)).2
  refine (hclean.covers_mention (hresolves hm hdid)).disjoint_of_le
    (hclean.covers_mention (hresolves hm' hdid')) ?_
  rw [List.length_cons]
  omega

theorem pairwise_tagFacets : ((hashtags text).map (tagFacet text)).Pairwise Facet.Disjoint := by
  rw [List.pairwise_map]
  refine (pairwise_matchAll HASHTAG_RE text).imp_of_mem fun {m m'} hm hm' hbefore => ?_
  have hlength := (hclean.markedAt_hashtag hm).2
  refine (hclean.covers_hashtag hm).disjoint_of_le (hclean.covers_hashtag hm') ?_
  rw [List.length_cons]
  omega

omit hclean in
/-- A link that does not start inside a match stands before or behind its token. -/
theorem disjoint_link {a b : Facet} {marker : UInt16} {group : Utf16}
    (hm : MarkedAt text m.index (marker :: group) ∧ m.length = group.length + 2)
    (ha : a.Covers text l.index (trimLink l.group)) (hb : b.Covers text (m.index + 1) (marker :: group))
    (hinside : ¬StartsInside l m) : a.Disjoint b := by
  obtain ⟨hmarked, hlength⟩ := hm
  obtain ⟨u, hu, hspace⟩ := hmarked.space
  by_cases hindex : l.index ≤ m.index
  · have hend := ha.tokenAt.end_le hu hspace hindex
    exact ha.disjoint_of_le hb (Nat.le_succ_of_le hend)
  · rw [StartsInside] at hinside
    refine (hb.disjoint_of_le ha ?_).symm
    rw [List.length_cons]
    omega

theorem disjoint_mention_hashtag (hm : ResolvesTo text resolveHandle m did)
    (ht : m' ∈ hashtags text) : (mentionFacet text m did).Disjoint (tagFacet text m') := by
  have hmarked := (hclean.markedAt_mention hm).1
  have htagged := (hclean.markedAt_hashtag ht).1
  have hplaces := hmarked.token.ne_of_head htagged.token (by decide)
  obtain hlt | hgt : m.index < m'.index ∨ m'.index < m.index := by omega
  · exact (hclean.covers_mention hm).disjoint_of_le (hclean.covers_hashtag ht)
      (hmarked.end_le htagged hlt)
  · exact ((hclean.covers_hashtag ht).disjoint_of_le (hclean.covers_mention hm)
      (htagged.end_le hmarked hgt)).symm

theorem pairwise_disjoint (h : detectFacets text resolveHandle = .ok facets) :
    facets.Pairwise Facet.Disjoint := by
  rw [detectFacets_eq_ok h, (List.perm_insertionSort _ _).pairwise_iff Facet.Disjoint.symm,
    List.pairwise_append, List.pairwise_append]
  refine ⟨⟨pairwise_links text, pairwise_mentionFacets hclean, fun a ha b hb => ?_⟩,
    pairwise_tagFacets hclean, fun a ha b hb => ?_⟩
  · obtain ⟨l, hl, ha⟩ := List.mem_filterMap.mp ha
    obtain ⟨m, did, hm, rfl⟩ := mem_mentionFacets.mp hb
    exact disjoint_link (hclean.markedAt_mention hm) (covers_link hl ha) (hclean.covers_mention hm)
      (hclean.link_mention l hl m did hm)
  · obtain ⟨m, hm, rfl⟩ := List.mem_map.mp hb
    obtain ha | ha := List.mem_append.mp ha
    · obtain ⟨l, hl, ha⟩ := List.mem_filterMap.mp ha
      exact disjoint_link (hclean.markedAt_hashtag hm) (covers_link hl ha) (hclean.covers_hashtag hm)
        (hclean.link_tag l hl m hm)
    · obtain ⟨m', did, hm', rfl⟩ := mem_mentionFacets.mp ha
      exact disjoint_mention_hashtag hclean hm' hm

theorem exact_of_clean (h : detectFacets text resolveHandle = .ok facets) (hfacet : facet ∈ facets) :
    facet.Exact text resolveHandle := by
  obtain ⟨l, hl, hlink⟩ | ⟨m, did, hm, rfl⟩ | ⟨m, hm, rfl⟩ := (mem_detectFacets h).mp hfacet
  · have hspans := (covers_link hl hlink).spans
    rw [linkFacet_of_mem hl, Option.some_inj] at hlink
    subst hlink
    exact hspans
  · exact ⟨m, hm, (hclean.covers_mention hm).spans⟩
  · exact (hclean.covers_hashtag hm).spans

end Clean

theorem pairwise_sorted (h : detectFacets text resolveHandle = .ok facets) :
    facets.Pairwise (·.byteStart ≤ ·.byteStart) := by
  rw [detectFacets_eq_ok h]
  have htotal : Std.Total fun a b : Facet => a.byteStart ≤ b.byteStart :=
    ⟨fun a b => Nat.le_total a.byteStart b.byteStart⟩
  have htrans : IsTrans Facet fun a b => a.byteStart ≤ b.byteStart := ⟨fun _ _ _ => Nat.le_trans⟩
  exact List.pairwise_insertionSort _ _

section Exact

variable {m l : ListMatch UInt16} {did : String} {marker : UInt16}

/-- A match at the start of the text has a range that starts behind its marker, where no marker
    stands. -/
theorem not_spans_start {group token other : Utf16} {feature : FacetFeature} (hmarker : marker < 0x80)
    (htext : ∃ rest, text = marker :: rest ∧ group <+: rest) (hgroup : group ≠ [] ∧ marker ∉ group) :
    ¬Spans text (facetAt (byteOffset text 1) token feature) (marker :: other) := by
  obtain ⟨rest, rfl, hstarts⟩ := htext
  rintro ⟨front, back, hbytes, hfront, -⟩
  have hone : front.length = 1 := by
    rw [hfront]
    show (toUtf8 [marker]).length = 1
    rw [toUtf8_ascii hmarker]
    rfl
  obtain ⟨first, rfl⟩ := List.length_eq_one_iff.mp hone
  rw [toUtf8_cons_ascii hmarker, toUtf8_cons_ascii hmarker, List.append_assoc, List.singleton_append,
    List.cons.injEq] at hbytes
  have hhead : (toUtf8 rest).head? = some marker.toNat := by
    rw [hbytes.2]
    rfl
  obtain ⟨u, hu, hsame⟩ := head?_of_head?_toUtf8 hhead (UInt16.lt_iff_toNat_lt.mp hmarker)
  obtain ⟨v, tail, rfl⟩ := List.exists_cons_of_ne_nil hgroup.1
  obtain ⟨back, rfl⟩ := hstarts
  rw [List.cons_append, List.head?_cons, Option.some_inj] at hu
  rw [UInt16.toNat_inj.mp hsame] at hu
  exact hgroup.2 (by rw [hu]; exact List.mem_cons_self)

variable (h : detectFacets text resolveHandle = .ok facets)
include h

theorem mentionFacet_mem (hm : ResolvesTo text resolveHandle m did) :
    mentionFacet text m did ∈ facets :=
  (mem_detectFacets h).mpr (Or.inr (Or.inl ⟨m, did, hm, rfl⟩))

theorem tagFacet_mem (hm : m ∈ hashtags text) : tagFacet text m ∈ facets :=
  (mem_detectFacets h).mpr (Or.inr (Or.inr ⟨m, hm, rfl⟩))

variable (hexact : ExactRanges text resolveHandle facets)
include hexact

theorem tag_spans (hm : m ∈ hashtags text) : Spans text (tagFacet text m) (0x23 :: m.group) :=
  hexact.exact _ (tagFacet_mem h hm)

theorem mention_start_of_exact (hm : ResolvesTo text resolveHandle m did) (hindex : m.index = 0) :
    text.head? ≠ some 0x40 := by
  intro hhead
  have hspans : ∃ m', ResolvesTo text resolveHandle m' did ∧
    Spans text (mentionFacet text m did) (0x40 :: m'.group) := hexact.exact _ (mentionFacet_mem h hm)
  obtain ⟨m', -, hspans⟩ := hspans
  obtain ⟨rest, htext, hbody⟩ := of_mem_leading_start (by decide) hm.mem hindex hhead
  obtain ⟨hfront, hne, hchars⟩ := matchHandle_eq_some hbody
  rw [mentionFacet, hindex] at hspans
  refine not_spans_start (by decide) ⟨rest, htext, hfront⟩ ⟨hne, fun hmarker => ?_⟩ hspans
  exact absurd (hchars _ hmarker) (by decide)

theorem tag_start_of_exact (hm : m ∈ hashtags text) (hindex : m.index = 0) :
    text.head? ≠ some 0x23 := by
  intro hhead
  have hspans := tag_spans h hexact hm
  obtain ⟨rest, htext, hbody⟩ := of_mem_leading_start (by decide) hm hindex hhead
  obtain ⟨hfront, hne, hchars⟩ := matchTag_eq_some hbody
  rw [tagFacet, hindex] at hspans
  refine not_spans_start (by decide) ⟨rest, htext, hfront⟩ ⟨hne, fun hmarker => ?_⟩ hspans
  exact (hchars _ hmarker).2 rfl

theorem tag_cut_of_exact (hm : m ∈ hashtags text) :
    ¬Splits m.group (text.drop (m.index + m.length)) := by
  obtain ⟨hmarked, hlength⟩ := markedAt_hashtag hm (tag_start_of_exact h hexact hm)
  exact (whole_hashtag hm hlength).mp (hmarked.token.whole_of_spans (tag_spans h hexact hm) rfl)

/-- A link inside a match would share bytes with its token. -/
theorem not_startsInside_of_exact {group : Utf16} {feature : FacetFeature} (hl : l ∈ links text)
    (hm : MarkedAt text m.index (marker :: group) ∧ m.length = group.length + 2)
    (hmarker : marker ≠ 0x68) (hfeature : feature ≠ .link (trimLink l.group))
    (hfacet : facetAt (byteOffset text (m.index + 1)) (marker :: group) feature ∈ facets) :
    ¬StartsInside l m := by
  rintro ⟨hstart, hend⟩
  obtain ⟨hmarked, hlength⟩ := hm
  obtain ⟨htoken, -, -, rest, htrim⟩ := of_mem_links hl
  have hplaces : m.index + 1 ≠ l.index := hmarked.token.ne_of_head (htrim ▸ htoken) hmarker
  have hlink : facetAt (byteOffset text l.index) (trimLink l.group) (.link (trimLink l.group)) ∈ facets :=
    (mem_detectFacets h).mpr (Or.inl ⟨l, hl, linkFacet_of_mem hl⟩)
  have hsymm : Std.Symm Facet.Disjoint := ⟨fun _ _ => Facet.Disjoint.symm⟩
  refine not_disjoint_of_inside htoken hmarked.token (by omega) ?_
    (hexact.disjoint.forall hlink hfacet fun hsame => hfeature ?_)
  · rw [List.length_cons]
    omega
  · exact (congrArg Facet.feature hsame).symm

theorem clean_of_exact : CleanTokens text resolveHandle where
  mention_start m did hm hindex := mention_start_of_exact h hexact hm hindex
  tag_start m hm hindex := tag_start_of_exact h hexact hm hindex
  tag_cut m hm := tag_cut_of_exact h hexact hm
  link_mention l hl m did hm := by
    have hmarked := markedAt_mention hm.mem (mention_start_of_exact h hexact hm)
    exact not_startsInside_of_exact h hexact hl hmarked (by decide) FacetFeature.noConfusion
      (mentionFacet_mem h hm)
  link_tag l hl m hm := by
    have hmarked := markedAt_hashtag hm (tag_start_of_exact h hexact hm)
    exact not_startsInside_of_exact h hexact hl hmarked (by decide) FacetFeature.noConfusion
      (tagFacet_mem h hm)

end Exact

/-- **Ranges of the facets**: the facets of a text have the ranges of their tokens, in order and
    without overlaps, just if the tokens are clean. -/
theorem detectFacets_exactRanges_iff (h : detectFacets text resolveHandle = .ok facets) :
    ExactRanges text resolveHandle facets ↔ CleanTokens text resolveHandle := by
  refine ⟨clean_of_exact h, fun hclean => ?_⟩
  exact ⟨fun _ hfacet => exact_of_clean hclean h hfacet, pairwise_sorted h, pairwise_disjoint hclean h⟩

theorem exactRanges_secondWord :
    detectFacets (Utf16.ofString "да @x.yz") (fun _ _ => .ok (some "did:plc:x")) =
      .ok [⟨5, 10, .mention "did:plc:x"⟩] ∧
    (ExactRanges (Utf16.ofString "да @x.yz") (fun _ _ => .ok (some "did:plc:x"))
        [⟨5, 10, .mention "did:plc:x"⟩] ↔
      CleanTokens (Utf16.ofString "да @x.yz") fun _ _ => .ok (some "did:plc:x")) :=
  ⟨by decide, detectFacets_exactRanges_iff (by decide)⟩

/-- The hashtag of `"#tag"` ends behind the last byte of the text. -/
theorem not_exactRanges_firstWord :
    detectFacets (Utf16.ofString "#tag") (fun _ _ => .ok none) =
      .ok [⟨1, 5, .tag (Utf16.ofString "tag")⟩] ∧
    ¬ExactRanges (Utf16.ofString "#tag") (fun _ _ => .ok none)
      [⟨1, 5, .tag (Utf16.ofString "tag")⟩] := by
  refine ⟨by decide, fun hexact => ?_⟩
  have hspans : Spans (Utf16.ofString "#tag") ⟨1, 5, .tag (Utf16.ofString "tag")⟩
    (0x23 :: Utf16.ofString "tag") := hexact.exact _ List.mem_cons_self
  obtain ⟨front, back, hbytes, hfront, -⟩ := hspans
  have htext : (toUtf8 (Utf16.ofString "#tag")).length = 4 := by decide
  have htoken : (toUtf8 (0x23 :: Utf16.ofString "tag")).length = 4 := by decide
  have hstart : front.length = 1 := hfront
  rw [hbytes, List.length_append, List.length_append, htoken, hstart] at htext
  omega

end BotHive.Bluesky
