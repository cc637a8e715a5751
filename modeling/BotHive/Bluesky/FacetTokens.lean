import BotHive.Bluesky.Facets

/-!
# The tokens of a text

Where the matches of the three expressions stand. A token starts with a character of its own and has
no white space, so that its bytes stand where its code units do.

## Main definitions

- `TokenAt`, `MarkedAt`: a token at a place, and one behind a space

## Main results

- `TokenAt.spans`: the range of a token that is not cut
- `TokenAt.byteEnd_le`, `TokenAt.byteOffset_lt`: the order of the bytes is the order of the places
- `TokenAt.end_le`: no space stands inside a token
- `of_mem_links`, `of_mem_leading`: the tokens of the matches
-/

namespace BotHive.Bluesky

open Utf16

variable {text token : Utf16} {start index k : ℕ} {u marker : UInt16}

section Tokens

/-- A token without white space that does not start inside a surrogate pair. -/
structure TokenAt (text : Utf16) (start : ℕ) (token : Utf16) : Prop where
  isPrefix : token <+: text.drop start
  head : ∃ u rest, token = u :: rest ∧ isLow u = false
  solid : ∀ u ∈ token, Utf16.isSpace u = false

/-- A token behind a space. -/
structure MarkedAt (text : Utf16) (index : ℕ) (token : Utf16) : Prop where
  token : TokenAt text (index + 1) token
  space : ∃ u, text[index]? = some u ∧ Utf16.isSpace u = true

def byteOffset (text : Utf16) (start : ℕ) : ℕ :=
  utf8ByteLength (text.take start)

/-- Nothing cuts a pair at the end of a token. -/
def Whole (text : Utf16) (start : ℕ) (token : Utf16) : Prop :=
  ¬Splits token (text.drop (start + token.length))

variable (h : TokenAt text start token)
include h

theorem TokenAt.not_nil : token ≠ [] := by
  obtain ⟨u, rest, rfl, -⟩ := h.head
  exact List.cons_ne_nil u rest

theorem TokenAt.drop_eq : text.drop start = token ++ text.drop (start + token.length) := by
  obtain ⟨back, hback⟩ := h.isPrefix
  rw [← List.drop_drop, ← hback, List.drop_left]

theorem TokenAt.uncut : ¬Splits (text.take start) (text.drop start) := by
  obtain ⟨u, rest, rfl, hu⟩ := h.head
  rw [h.drop_eq]
  exact not_splits_of_not_isLow hu _ _

/-- The bytes up to a place behind the start of a token. -/
theorem TokenAt.toUtf8_take (n : ℕ) : toUtf8 (text.take (start + n)) =
    toUtf8 (text.take start) ++ toUtf8 ((text.drop start).take n) := by
  rw [List.take_add]
  refine toUtf8_append fun hsplits => h.uncut ?_
  have hdrop := hsplits.append_right ((text.drop start).drop n)
  rwa [List.take_append_drop] at hdrop

/-- A place behind the start of a token has its bytes behind it. -/
theorem TokenAt.byteOffset_lt (hk : start < k) : byteOffset text start < byteOffset text k := by
  obtain ⟨n, rfl⟩ := Nat.exists_eq_add_of_lt hk
  have hmiddle : (text.drop start).take (n + 1) ≠ [] := by
    obtain ⟨u, rest, htoken, -⟩ := h.head
    rw [h.drop_eq, htoken]
    exact List.cons_ne_nil u _
  have hpos : 0 < (toUtf8 ((text.drop start).take (n + 1))).length :=
    List.length_pos_of_ne_nil (toUtf8_ne_nil hmiddle)
  rw [byteOffset, byteOffset, utf8ByteLength, utf8ByteLength, Nat.add_assoc, h.toUtf8_take,
    List.length_append]
  exact Nat.lt_add_of_pos_right hpos

theorem TokenAt.byteEnd_eq :
    byteOffset text (start + token.length) = byteOffset text start + utf8ByteLength token := by
  rw [byteOffset, utf8ByteLength, h.toUtf8_take, h.drop_eq, List.take_left, List.length_append]
  rfl

/-- A place behind a whole token has its bytes behind those of the token. -/
theorem TokenAt.byteEnd_le (hwhole : Whole text start token) (hk : start + token.length ≤ k) :
    byteOffset text start + utf8ByteLength token ≤ byteOffset text k := by
  obtain ⟨n, rfl⟩ := Nat.exists_eq_add_of_le hk
  have hmiddle : (text.drop start).take (token.length + n) =
      token ++ (text.drop (start + token.length)).take n := by
    rw [h.drop_eq, List.take_length_add_append]
  have hcut : ¬Splits token ((text.drop (start + token.length)).take n) := by
    intro hsplits
    have hdrop := hsplits.append_right ((text.drop (start + token.length)).drop n)
    rw [List.take_append_drop] at hdrop
    exact hwhole hdrop
  have hbytes := h.toUtf8_take (token.length + n)
  rw [hmiddle, toUtf8_append hcut] at hbytes
  rw [Nat.add_assoc, byteOffset, byteOffset, utf8ByteLength, utf8ByteLength, utf8ByteLength, hbytes,
    List.length_append, List.length_append]
  omega

/-- The text before a token, the token and the text behind it. -/
theorem TokenAt.toUtf8_eq :
    toUtf8 text = toUtf8 (text.take start) ++ toUtf8 (token ++ text.drop (start + token.length)) := by
  calc toUtf8 text = toUtf8 (text.take start ++ text.drop start) := by rw [List.take_append_drop]
    _ = toUtf8 (text.take start) ++ toUtf8 (text.drop start) := toUtf8_append h.uncut
    _ = _ := by rw [← h.drop_eq]

/-- The range of a whole token. -/
theorem TokenAt.spans (hwhole : Whole text start token) (feature : FacetFeature) :
    Spans text (facetAt (byteOffset text start) token feature) token := by
  refine ⟨toUtf8 (text.take start), toUtf8 (text.drop (start + token.length)), ?_, rfl, rfl⟩
  rw [h.toUtf8_eq, toUtf8_append hwhole, List.append_assoc]

/-- A token that is cut has other bytes than those that stand at its place. -/
theorem TokenAt.whole_of_spans {facet : Facet} (hspans : Spans text facet token)
    (hstart : facet.byteStart = byteOffset text start) : Whole text start token := by
  intro hcut
  obtain ⟨front, back, hbytes, hfront, -⟩ := hspans
  obtain ⟨left, byte, right, htoken, hwhole, hbyte⟩ := toUtf8_of_splits hcut
  rw [h.toUtf8_eq, List.append_assoc] at hbytes
  obtain ⟨-, hsame⟩ := List.append_inj hbytes (hfront.trans hstart).symm
  rw [htoken, hwhole, List.append_assoc, List.append_cancel_left_eq, List.cons_append,
    List.cons.injEq] at hsame
  omega

/-- No space stands inside a token. -/
theorem TokenAt.end_le (hu : text[index]? = some u) (hspace : Utf16.isSpace u = true)
    (hindex : start ≤ index) : start + token.length ≤ index := by
  by_contra hinside
  obtain ⟨n, rfl⟩ := Nat.exists_eq_add_of_le hindex
  have hn : n < token.length := by omega
  rw [← List.getElem?_drop, h.drop_eq, List.getElem?_append_left hn] at hu
  rw [h.solid u (List.mem_of_getElem? hu)] at hspace
  cases hspace

end Tokens

section Matches

variable {text group : Utf16} {atStart : Bool} {n : ℕ} {body : Utf16 → Option Utf16}
  {m : ListMatch UInt16}

theorem isLow_eq_false (h : u < 0xDC00 ∨ 0xE000 ≤ u) : isLow u = false := by
  rw [isLow, Bool.and_eq_false_iff, decide_eq_false_iff_not, decide_eq_false_iff_not, UInt16.not_le,
    UInt16.not_lt]
  exact h

theorem isLow_of_isSpace (h : Utf16.isSpace u = true) : isLow u = false := by
  rw [Utf16.isSpace, Bool.or_eq_true, Bool.or_eq_true, Bool.and_eq_true, Bool.and_eq_true] at h
  refine isLow_eq_false ?_
  rcases h with (h | h) | h
  · exact Or.inl (UInt16.lt_of_le_of_lt (of_decide_eq_true h.2) (by decide))
  · exact Or.inl (UInt16.lt_of_le_of_lt (of_decide_eq_true h.2) (by decide))
  · have hlisted : ([0x20, 0xA0, 0x1680, 0x2028, 0x2029, 0x202F, 0x205F, 0x3000, 0xFEFF] :
        List UInt16).all (fun v => v < 0xDC00 || 0xE000 ≤ v) = true := by decide
    have hu := List.all_eq_true.mp hlisted u (of_decide_eq_true h)
    rw [Bool.or_eq_true, decide_eq_true_eq, decide_eq_true_eq] at hu
    exact hu

theorem isLow_of_isTrailingPunctuation (h : isTrailingPunctuation u = true) : isLow u = false := by
  have hlisted : ([0x2E, 0x2C, 0x3B, 0x3A, 0x21, 0x3F, 0x29] : List UInt16).all
      (fun v => !isLow v) = true := by decide
  exact (Bool.not_eq_true' _).mp (List.all_eq_true.mp hlisted u (of_decide_eq_true h))

theorem lt_of_isHandleChar (h : isHandleChar u = true) : u < 0x80 := by
  have hlisted : ([0x5F, 0x2E, 0x2D] : List UInt16).all (fun v => v < 0x80) = true := by decide
  rw [isHandleChar, Bool.or_eq_true, Bool.or_eq_true, isLetter, Bool.or_eq_true, Bool.and_eq_true,
    Bool.and_eq_true, isDigit, Bool.and_eq_true] at h
  rcases h with ((⟨-, h⟩ | ⟨-, h⟩) | ⟨-, h⟩) | h
  · exact UInt16.lt_of_le_of_lt (of_decide_eq_true h) (by decide)
  · exact UInt16.lt_of_le_of_lt (of_decide_eq_true h) (by decide)
  · exact UInt16.lt_of_le_of_lt (of_decide_eq_true h) (by decide)
  · exact of_decide_eq_true (List.all_eq_true.mp hlisted u (of_decide_eq_true h))

theorem isSpace_of_isHandleChar (h : isHandleChar u = true) : Utf16.isSpace u = false := by
  have hchars : ∀ n < 0x80, isHandleChar (UInt16.ofNat n) = true → Utf16.isSpace (UInt16.ofNat n) = false := by
    decide
  have hlt : u.toNat < 0x80 := UInt16.lt_iff_toNat_lt.mp (lt_of_isHandleChar h)
  have hu := hchars u.toNat hlt
  rw [UInt16.ofNat_toNat] at hu
  exact hu h

theorem scheme_eq_some {k : ℕ} (h : (if Utf16.ofString "https://" <+: text then some 8
    else if Utf16.ofString "http://" <+: text then some 7 else none) = some k) :
    ∃ scheme back, text = 0x68 :: scheme ++ back ∧ scheme.length + 1 = k ∧
      ∀ u ∈ (0x68 :: scheme : Utf16), Utf16.isSpace u = false := by
  have hread (s : Utf16) (hs : s <+: text) (hhead : s = 0x68 :: s.tail)
      (hsolid : s.all (fun u => !Utf16.isSpace u) = true) : ∃ scheme back, text = 0x68 :: scheme ++ back ∧
        scheme.length + 1 = s.length ∧ ∀ u ∈ (0x68 :: scheme : Utf16), Utf16.isSpace u = false := by
    obtain ⟨back, hback⟩ := hs
    refine ⟨s.tail, back, by rw [← hhead, hback], by rw [← List.length_cons, ← hhead], ?_⟩
    rw [← hhead]
    exact fun u hu => (Bool.not_eq_true' _).mp (List.all_eq_true.mp hsolid u hu)
  split at h
  next hs =>
    rw [← Option.some_inj.mp h]
    exact hread _ hs (by decide) (by decide)
  split at h
  next hs =>
    rw [← Option.some_inj.mp h]
    exact hread _ hs (by decide) (by decide)
  next => cases h

/-- A link is a run without spaces up to a space or the end of the text. -/
theorem LINK_RE_eq_some (h : LINK_RE atStart text = some (n, group)) :
    group.length = n ∧ (∃ rest, group = 0x68 :: rest) ∧ (∀ u ∈ group, Utf16.isSpace u = false) ∧
      ∃ back, text = group ++ back ∧ ∀ u ∈ back.head?, Utf16.isSpace u = true := by
  obtain ⟨k, hscheme, h⟩ := Option.bind_eq_some_iff.mp h
  obtain ⟨scheme, back, rfl, rfl, hsolid⟩ := scheme_eq_some hscheme
  rw [← List.length_cons, List.drop_left, List.take_left] at h
  dsimp only at h
  split at h
  next => cases h
  next =>
    rw [Option.some_inj, Prod.mk.injEq] at h
    obtain ⟨rfl, rfl⟩ := h
    refine ⟨List.length_append, ⟨_, rfl⟩, fun u hu => ?_, back.dropWhile fun u => !Utf16.isSpace u, ?_, ?_⟩
    · obtain hu | hu := List.mem_append.mp hu
      · exact hsolid u hu
      · have hread := List.mem_takeWhile_imp hu
        exact (Bool.not_eq_true' _).mp hread
    · rw [List.append_assoc, List.takeWhile_append_dropWhile]
    · intro u hu
      have hfirst := List.head?_dropWhile_not (fun u => !Utf16.isSpace u) back
      rw [Option.mem_def.mp hu] at hfirst
      exact (Bool.not_eq_false' _).mp hfirst

theorem marked_eq_some (h : marked marker body text = some group) :
    ∃ rest, text = marker :: rest ∧ body rest = some group := by
  cases text with
  | nil => cases h
  | cons u rest =>
    rw [marked] at h
    split at h
    next hu => exact ⟨rest, by rw [hu], h⟩
    next => cases h

/-- The marker stands at the start of the text or behind a space. -/
theorem leading_eq_some (h : leading marker body atStart text = some (n, group)) :
    (atStart = true ∧ ∃ rest, text = marker :: rest ∧ body rest = some group) ∨
      ∃ u rest, text = u :: marker :: rest ∧ Utf16.isSpace u = true ∧ body rest = some group ∧
        n = group.length + 2 := by
  obtain h | ⟨-, h⟩ := Option.or_eq_some_iff.mp h
  · obtain ⟨found, hfound, h⟩ := Option.map_eq_some_iff.mp h
    rw [Prod.mk.injEq] at h
    obtain ⟨-, rfl⟩ := h
    split at hfound
    next hstart => exact Or.inl ⟨hstart, marked_eq_some hfound⟩
    next => cases hfound
  · obtain ⟨found, hfound, h⟩ := Option.map_eq_some_iff.mp h
    rw [Prod.mk.injEq] at h
    obtain ⟨rfl, rfl⟩ := h
    cases text with
    | nil => cases hfound
    | cons u rest =>
      dsimp only at hfound
      split at hfound
      next hspace =>
        obtain ⟨rest, rfl, hbody⟩ := marked_eq_some hfound
        exact Or.inr ⟨u, rest, rfl, hspace, hbody, rfl⟩
      next => cases hfound

theorem matchHandle_eq_some (h : matchHandle text = some group) :
    group <+: text ∧ group ≠ [] ∧ ∀ u ∈ group, isHandleChar u = true := by
  obtain ⟨k, -, h⟩ := List.exists_of_findSome?_eq_some h
  dsimp only at h
  split at h
  next hdot =>
    obtain ⟨hpos, hk, -⟩ := hdot
    rw [Option.some_inj] at h
    have hrun : group <+: text.takeWhile isHandleChar := by
      rw [← h]
      calc _ <+: (text.takeWhile isHandleChar).take (k + 1) ++ (text.takeWhile isHandleChar).drop (k + 1) :=
            List.prefix_append_right_inj _ |>.mpr (List.takeWhile_prefix _)
        _ = _ := List.take_append_drop _ _
    refine ⟨hrun.trans (List.takeWhile_prefix _), ?_, fun u hu => List.mem_takeWhile_imp (hrun.mem hu)⟩
    rintro rfl
    rw [List.append_eq_nil_iff, List.take_eq_nil_iff] at h
    obtain h | h := h.1
    · cases h
    · rw [h] at hk
      cases hk
  next => cases h

theorem matchTag_eq_some (h : matchTag text = some group) :
    group <+: text ∧ group ≠ [] ∧ ∀ u ∈ group, Utf16.isSpace u = false ∧ u ≠ 0x23 := by
  rw [matchTag] at h
  split at h
  next => cases h
  next hne =>
    rw [Option.some_inj] at h
    subst h
    refine ⟨(List.take_prefix _ _).trans (List.takeWhile_prefix _), hne, fun u hu => ?_⟩
    have hu' := List.mem_takeWhile_imp (List.mem_of_mem_take hu)
    rw [Bool.and_eq_true, Bool.not_eq_true', bne_iff_ne] at hu'
    exact hu'
theorem trimLink_prefix (raw : Utf16) : trimLink raw <+: raw :=
  List.rdropWhile_prefix _ _

theorem trimLink_of_cons (rest : Utf16) : ∃ trimmed, trimLink (0x68 :: rest) = 0x68 :: trimmed := by
  have hne : trimLink (0x68 :: rest) ≠ [] := by
    intro hnil
    have hall := List.rdropWhile_eq_nil_iff.mp hnil
    exact absurd (hall 0x68 List.mem_cons_self) (by decide)
  obtain ⟨u, trimmed, htrim⟩ := List.exists_cons_of_ne_nil hne
  have hfront := trimLink_prefix (0x68 :: rest)
  rw [htrim, List.cons_prefix_cons] at hfront
  exact ⟨trimmed, by rw [htrim, hfront.1]⟩

/-- Behind a link stand punctuation, a space or the end of the text. -/
theorem not_splits_trimLink {raw back : Utf16} (hback : ∀ u ∈ back.head?, Utf16.isSpace u = true) :
    ¬Splits (trimLink raw) (raw.rtakeWhile isTrailingPunctuation ++ back) := by
  rintro ⟨-, -, low, rest, -, hrest, -, hlow⟩
  match hcut : raw.rtakeWhile isTrailingPunctuation with
  | [] =>
    rw [hcut, List.nil_append] at hrest
    rw [isLow_of_isSpace (hback low (by rw [hrest]; rfl))] at hlow
    cases hlow
  | u :: cut =>
    have hu : isTrailingPunctuation u = true :=
      List.mem_rtakeWhile_imp (by rw [hcut]; exact List.mem_cons_self)
    rw [hcut, List.cons_append, List.cons.injEq] at hrest
    rw [← hrest.1, isLow_of_isTrailingPunctuation hu] at hlow
    cases hlow

/-- The token of a link. -/
theorem of_mem_links {l : ListMatch UInt16} (h : l ∈ links text) :
    TokenAt text l.index (trimLink l.group) ∧ Whole text l.index (trimLink l.group) ∧
      (trimLink l.group).length ≤ l.length ∧ ∃ rest, trimLink l.group = 0x68 :: rest := by
  obtain ⟨hlength, ⟨rest, hgroup⟩, hsolid, back, htext, hback⟩ := LINK_RE_eq_some (of_mem_matchAll h)
  obtain ⟨trimmed, htrim⟩ := trimLink_of_cons rest
  rw [← hgroup] at htrim
  have hfront := trimLink_prefix l.group
  have htoken : TokenAt text l.index (trimLink l.group) :=
    { isPrefix := by
        rw [htext]
        exact hfront.trans (List.prefix_append _ _)
      head := ⟨0x68, trimmed, htrim, by decide⟩
      solid := fun u hu => hsolid u (hfront.mem hu) }
  refine ⟨htoken, ?_, hlength ▸ hfront.length_le, trimmed, htrim⟩
  have hbehind : text.drop (l.index + (trimLink l.group).length) =
      l.group.rtakeWhile isTrailingPunctuation ++ back := by
    have hsplit : trimLink l.group ++ l.group.rtakeWhile isTrailingPunctuation = l.group :=
      List.rdropWhile_append_rtakeWhile
    refine (List.append_right_inj (trimLink l.group)).mp ?_
    rw [← htoken.drop_eq, ← List.append_assoc, hsplit, htext]
  rw [Whole, hbehind]
  exact not_splits_trimLink hback

/-- The token of a match behind a space. -/
theorem of_mem_leading (hmarker : Utf16.isSpace marker = false ∧ isLow marker = false)
    (hbody : ∀ rest group, body rest = some group →
      group <+: rest ∧ ∀ u ∈ group, Utf16.isSpace u = false)
    (h : m ∈ matchAll (leading marker body) text)
    (hstart : m.index = 0 → text.head? ≠ some marker) :
    MarkedAt text m.index (marker :: m.group) ∧ m.length = m.group.length + 2 := by
  obtain ⟨hzero, rest, htext, -⟩ | ⟨u, rest, htext, hspace, hgroup, hlength⟩ :=
    leading_eq_some (of_mem_matchAll h)
  · have hindex : m.index = 0 := of_decide_eq_true hzero
    rw [hindex, List.drop_zero] at htext
    exact absurd (by rw [htext]; rfl) (hstart hindex)
  · obtain ⟨hfront, hsolid⟩ := hbody rest m.group hgroup
    have hdrop : text.drop (m.index + 1) = marker :: rest := by
      rw [← List.drop_drop, htext, List.drop_one, List.tail_cons]
    have htoken : TokenAt text (m.index + 1) (marker :: m.group) :=
      { isPrefix := by
          rw [hdrop]
          exact List.cons_prefix_cons.mpr ⟨rfl, hfront⟩
        head := ⟨marker, m.group, rfl, hmarker.2⟩
        solid := List.forall_mem_cons.mpr ⟨hmarker.1, hsolid⟩ }
    have hfirst : text[m.index]? = some u := by
      rw [← Nat.add_zero m.index, ← List.getElem?_drop, htext, List.getElem?_cons_zero]
    exact ⟨⟨htoken, u, hfirst, hspace⟩, hlength⟩

/-- A match at the start of a text that starts with the marker. -/
theorem of_mem_leading_start (hmarker : Utf16.isSpace marker = false)
    (h : m ∈ matchAll (leading marker body) text) (hindex : m.index = 0)
    (hhead : text.head? = some marker) : ∃ rest, text = marker :: rest ∧ body rest = some m.group := by
  have hmatch := of_mem_matchAll h
  rw [hindex, List.drop_zero] at hmatch
  obtain ⟨-, hstart⟩ | ⟨u, rest, htext, hspace, -⟩ := leading_eq_some hmatch
  · exact hstart
  · rw [htext, List.head?_cons, Option.some_inj] at hhead
    rw [hhead, hmarker] at hspace
    cases hspace

end Matches

end BotHive.Bluesky
