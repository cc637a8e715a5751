import Mathlib.Tactic.Common
import BotHive.Library.Utf16

/-!
# The UTF-8 bytes of a text

The bytes of a text of UTF-16 code units; a lone surrogate is written as the replacement
character. Bytes of parts follow each other unless the text is cut inside a surrogate pair.

## Main definitions

- `Utf16.toUtf8`
- `Utf16.Splits`: a cut inside a surrogate pair

## Main results

- `Utf16.toUtf8_append`: the bytes of the parts of a text
- `Utf16.toUtf8_of_splits`: the bytes where a pair is cut
- `Utf16.head?_of_head?_toUtf8`: an ASCII byte at the front is the first character
-/

namespace Utf16

/-- The bytes that an encoder writes for a code point. -/
def pointBytes (cp : ℕ) : List ℕ :=
  utf8 (if isSurrogate cp then 0xFFFD else cp)

def toUtf8 (text : Utf16) : List ℕ :=
  text.codePoints.flatMap pointBytes

/-- A cut inside a surrogate pair. -/
def Splits (a b : Utf16) : Prop :=
  ∃ front high low back, a = front ++ [high] ∧ b = low :: back ∧ isHigh high = true ∧ isLow low = true

variable {a b : Utf16} {u high low : UInt16}

theorem not_splits_of_not_isLow (hu : isLow u = false) (a b : Utf16) : ¬Splits a (u :: b) := by
  rintro ⟨-, -, low, back, -, hb, -, hlow⟩
  rw [List.cons.injEq] at hb
  rw [← hb.1, hu] at hlow
  cases hlow

theorem not_splits_of_not_isHigh (hu : isHigh u = false) (a b : Utf16) : ¬Splits (a ++ [u]) b := by
  rintro ⟨front, high, -, -, ha, -, hhigh, -⟩
  rw [List.append_singleton_inj] at ha
  rw [← ha.2, hu] at hhigh
  cases hhigh

/-- A cut further on stays one of the whole text. -/
theorem Splits.cons (h : Splits a b) (u : UInt16) : Splits (u :: a) b := by
  obtain ⟨front, high, low, back, rfl, rfl, hhigh, hlow⟩ := h
  exact ⟨u :: front, high, low, back, rfl, rfl, hhigh, hlow⟩

/-- A cut behind a part is one behind whatever the part ends. -/
theorem splits_cons_iff (ha : a ≠ []) : Splits (u :: a) b ↔ Splits a b := by
  refine ⟨?_, fun h => h.cons u⟩
  rintro ⟨front, high, low, back, hfront, rfl, hsurrogates⟩
  cases front with
  | nil =>
    rw [List.nil_append, List.cons.injEq] at hfront
    exact absurd hfront.2 ha
  | cons v front =>
    rw [List.cons_append, List.cons.injEq] at hfront
    exact ⟨front, high, low, back, hfront.2, rfl, hsurrogates⟩

/-- What follows a cut does not matter. -/
theorem Splits.append_right (h : Splits a b) (c : Utf16) : Splits a (b ++ c) := by
  obtain ⟨front, high, low, back, rfl, rfl, hhigh, hlow⟩ := h
  exact ⟨front, high, low, back ++ c, rfl, rfl, hhigh, hlow⟩

theorem codePoints_append (h : ¬Splits a b) : (a ++ b).codePoints = a.codePoints ++ b.codePoints := by
  induction a using codePoints.induct with
  | case1 => rfl
  | case2 u =>
    cases b with
    | nil => rfl
    | cons v rest =>
      have hpair : ¬(isHigh u && isLow v) = true := by
        intro hpair
        rw [Bool.and_eq_true] at hpair
        exact h ⟨[], u, v, rest, rfl, rfl, hpair⟩
      rw [List.singleton_append, codePoints.eq_3, if_neg hpair, codePoints.eq_2, List.singleton_append]
  | case3 u v rest hpair ih =>
    rw [List.cons_append, List.cons_append, codePoints, codePoints, if_pos hpair, if_pos hpair,
      ih fun hrest => h ((hrest.cons v).cons u), List.cons_append]
  | case4 u v rest hpair ih =>
    have hrest := ih fun hrest => h (hrest.cons u)
    rw [List.cons_append] at hrest
    rw [List.cons_append, List.cons_append, codePoints, codePoints, if_neg hpair, if_neg hpair,
      hrest, List.cons_append]

/-- **Bytes of parts**: unless a pair is cut, the bytes of the parts follow each other. -/
theorem toUtf8_append (h : ¬Splits a b) : (a ++ b).toUtf8 = a.toUtf8 ++ b.toUtf8 := by
  rw [toUtf8, codePoints_append h, List.flatMap_append, toUtf8, toUtf8]

theorem toUtf8_ne_nil (h : a ≠ []) : a.toUtf8 ≠ [] := by
  obtain ⟨cp, rest, hpoints⟩ := List.exists_cons_of_ne_nil (codePoints_ne_nil h)
  rw [toUtf8, hpoints, List.flatMap_cons]
  exact List.append_ne_nil_of_left_ne_nil (utf8_ne_nil _) _

/-- An ASCII character is its byte. -/
theorem toUtf8_ascii (hu : u < 0x80) : toUtf8 [u] = [u.toNat] := by
  rw [UInt16.lt_iff_toNat_lt] at hu
  have hlt : u.toNat < 0x80 := hu
  have hsurrogate : isSurrogate u.toNat = false := by
    rw [isSurrogate, Bool.and_eq_false_iff]
    exact Or.inl (decide_eq_false (by omega))
  rw [toUtf8, codePoints, List.flatMap_singleton, pointBytes, hsurrogate, utf8]
  simp [hlt]

theorem isHigh_ascii (hu : u < 0x80) : isHigh u = false := by
  rw [UInt16.lt_iff_toNat_lt] at hu
  have hlt : u.toNat < 0x80 := hu
  rw [isHigh, Bool.and_eq_false_iff]
  refine Or.inl (decide_eq_false fun hle => ?_)
  rw [UInt16.le_iff_toNat_le] at hle
  have hle' : 0xD800 ≤ u.toNat := hle
  omega

/-- An ASCII character in front is its byte in front. -/
theorem toUtf8_cons_ascii (hu : u < 0x80) (rest : Utf16) :
    toUtf8 (u :: rest) = u.toNat :: toUtf8 rest := by
  have hcut : ¬Splits [u] rest := not_splits_of_not_isHigh (isHigh_ascii hu) [] rest
  rw [← List.singleton_append, toUtf8_append hcut, toUtf8_ascii hu, List.singleton_append]

/-- Only ASCII characters have ASCII bytes. -/
theorem head?_utf8 (cp : ℕ) : ∃ byte, (utf8 cp).head? = some byte ∧ (byte < 0x80 → cp = byte) := by
  rw [utf8]
  split
  · exact ⟨cp, rfl, fun _ => rfl⟩
  split
  · exact ⟨_, rfl, fun hlt => by omega⟩
  split
  · exact ⟨_, rfl, fun hlt => by omega⟩
  · exact ⟨_, rfl, fun hlt => by omega⟩

theorem le_pairPoint (high low : UInt16) : 0x10000 ≤ pairPoint high low :=
  Nat.le_trans (Nat.le_add_right _ _) (Nat.le_add_right _ _)

/-- An ASCII byte at the front of a text is its first character. -/
theorem head?_of_head?_toUtf8 {text : Utf16} {byte : ℕ} (h : text.toUtf8.head? = some byte)
    (hbyte : byte < 0x80) : ∃ u, text.head? = some u ∧ u.toNat = byte := by
  have hne : text ≠ [] := by
    rintro rfl
    cases h
  obtain ⟨cp, points, hpoints⟩ := List.exists_cons_of_ne_nil (codePoints_ne_nil hne)
  have hpoint : cp = byte := by
    rw [toUtf8, hpoints, List.flatMap_cons, pointBytes] at h
    obtain ⟨first, hfirst, hascii⟩ := head?_utf8 (if isSurrogate cp then 0xFFFD else cp)
    rw [List.head?_append, hfirst, Option.some_or, Option.some.injEq] at h
    subst h
    have hread := hascii hbyte
    split at hread
    · omega
    · exact hread
  match text with
  | [] => exact absurd rfl hne
  | [u] =>
    rw [codePoints, List.cons.injEq] at hpoints
    exact ⟨u, rfl, hpoints.1.trans hpoint⟩
  | u :: v :: rest =>
    rw [codePoints] at hpoints
    split at hpoints
    · rw [List.cons.injEq] at hpoints
      have hpair := le_pairPoint u v
      omega
    · rw [List.cons.injEq] at hpoints
      exact ⟨u, rfl, hpoints.1.trans hpoint⟩

/-- A pair of surrogates has four bytes, the first of which is no other's. -/
theorem toUtf8_pair (hhigh : isHigh high = true) (hlow : isLow low = true) :
    ∃ byte rest, toUtf8 [high, low] = byte :: rest ∧ 0xF0 ≤ byte := by
  have hpair : (isHigh high && isLow low) = true := by rw [hhigh, hlow]; rfl
  have hpoint := le_pairPoint high low
  have hsurrogate : isSurrogate (pairPoint high low) = false := by
    rw [isSurrogate, Bool.and_eq_false_iff]
    exact Or.inr (decide_eq_false (by omega))
  rw [toUtf8, codePoints, if_pos hpair, codePoints, List.flatMap_singleton, pointBytes, hsurrogate,
    if_neg Bool.false_ne_true, utf8, if_neg (by omega), if_neg (by omega), if_neg (by omega)]
  exact ⟨_, _, rfl, by omega⟩

/-- A lone surrogate is written as the replacement character. -/
theorem toUtf8_high (hhigh : isHigh high = true) : toUtf8 [high] = [0xEF, 0xBF, 0xBD] := by
  rw [isHigh, Bool.and_eq_true, decide_eq_true_eq, decide_eq_true_eq, UInt16.le_iff_toNat_le,
    UInt16.lt_iff_toNat_lt] at hhigh
  obtain ⟨hge, hlt⟩ : 0xD800 ≤ high.toNat ∧ high.toNat < 0xDC00 := hhigh
  have hsurrogate : isSurrogate high.toNat = true := by
    rw [isSurrogate, Bool.and_eq_true, decide_eq_true_eq, decide_eq_true_eq]
    omega
  rw [toUtf8, codePoints, List.flatMap_singleton, pointBytes, hsurrogate, if_pos rfl]
  rfl

theorem isLow_of_isHigh (hhigh : isHigh high = true) : isLow high = false := by
  rw [isHigh, Bool.and_eq_true, decide_eq_true_eq, decide_eq_true_eq] at hhigh
  rw [isLow, Bool.and_eq_false_iff]
  exact Or.inl (decide_eq_false (UInt16.not_le.mpr hhigh.2))

theorem isHigh_of_isLow (hlow : isLow low = true) : isHigh low = false := by
  rw [isLow, Bool.and_eq_true, decide_eq_true_eq, decide_eq_true_eq] at hlow
  rw [isHigh, Bool.and_eq_false_iff]
  exact Or.inr (decide_eq_false (UInt16.not_lt.mpr hlow.1))

/-- **Bytes of a cut pair**: the bytes of the whole start with those of the left part up to its
    last unit, and go on with a pair. -/
theorem toUtf8_of_splits (h : Splits a b) : ∃ front byte rest,
    a.toUtf8 = front ++ [0xEF, 0xBF, 0xBD] ∧ (a ++ b).toUtf8 = front ++ byte :: rest ∧
      0xF0 ≤ byte := by
  obtain ⟨front, high, low, back, rfl, rfl, hhigh, hlow⟩ := h
  obtain ⟨byte, rest, hpair, hbyte⟩ := toUtf8_pair hhigh hlow
  have hleft := not_splits_of_not_isLow (isLow_of_isHigh hhigh) front
  refine ⟨toUtf8 front, byte, rest ++ toUtf8 back, ?_, ?_, hbyte⟩
  · rw [toUtf8_append (hleft []), toUtf8_high hhigh]
  · have hright : ¬Splits [high, low] back :=
      not_splits_of_not_isHigh (isHigh_of_isLow hlow) [high] back
    have hfront : toUtf8 (front ++ high :: low :: back) =
        toUtf8 front ++ toUtf8 ([high, low] ++ back) := toUtf8_append (hleft (low :: back))
    rw [List.append_assoc, List.singleton_append, hfront, toUtf8_append hright, hpair,
      List.cons_append]

end Utf16
