import Mathlib.Data.List.Basic
import Mathlib.Data.String.Basic

/-!
# Texts as UTF-16 code units

A text of the language is a list of 16-bit code units. A high surrogate followed by a low one is
one code point; any other unit is a code point by itself, a lone surrogate included.

## Main definitions

- `Utf16.ofString`: the code units of a text
- `Utf16.codePoints`, `Utf16.utf8`: reading a text as code points, and their UTF-8 bytes
- `Utf16.encodeURIComponent`, `Utf16.decodeURIComponent`: the percent encoding, which a lone
  surrogate has not, and its reading
- `Utf16.trim`
- `Utf16.digits`, `Utf16.number`: decimal numbers

## Main results

- `Utf16.number_digits`: a number is read back from its digits
-/

/-- A text of the language. -/
abbrev Utf16 := List UInt16

namespace Utf16

/-- The code units of a code point. -/
def ofCodePoint (cp : ℕ) : Utf16 :=
  if cp < 0x10000 then [UInt16.ofNat cp]
  else [UInt16.ofNat (0xD800 + (cp - 0x10000) / 0x400), UInt16.ofNat (0xDC00 + (cp - 0x10000) % 0x400)]

def ofString (s : String) : Utf16 :=
  s.toList.flatMap fun c => ofCodePoint c.toNat

def isHigh (u : UInt16) : Bool :=
  0xD800 ≤ u && u < 0xDC00

def isLow (u : UInt16) : Bool :=
  0xDC00 ≤ u && u < 0xE000

/-- The code point of a pair of surrogates. -/
def pairPoint (high low : UInt16) : ℕ :=
  0x10000 + (high.toNat - 0xD800) * 0x400 + (low.toNat - 0xDC00)

def codePoints : Utf16 → List ℕ
  | [] => []
  | [u] => [u.toNat]
  | u :: v :: rest =>
    if isHigh u && isLow v then pairPoint u v :: codePoints rest
    else u.toNat :: codePoints (v :: rest)

/-- The UTF-8 bytes of a code point. -/
def utf8 (cp : ℕ) : List ℕ :=
  if cp < 0x80 then [cp]
  else if cp < 0x800 then [0xC0 + cp / 0x40, 0x80 + cp % 0x40]
  else if cp < 0x10000 then [0xE0 + cp / 0x1000, 0x80 + cp / 0x40 % 0x40, 0x80 + cp % 0x40]
  else [0xF0 + cp / 0x40000, 0x80 + cp / 0x1000 % 0x40, 0x80 + cp / 0x40 % 0x40, 0x80 + cp % 0x40]

def isSurrogate (cp : ℕ) : Bool :=
  0xD800 ≤ cp && cp < 0xE000

/-- The characters that are not escaped: letters, digits and `-_.!~*'()`. -/
def isUnescaped (cp : ℕ) : Bool :=
  (0x61 ≤ cp && cp ≤ 0x7A) || (0x41 ≤ cp && cp ≤ 0x5A) || (0x30 ≤ cp && cp ≤ 0x39) ||
    cp ∈ [0x2D, 0x5F, 0x2E, 0x21, 0x7E, 0x2A, 0x27, 0x28, 0x29]

/-- `%` and two upper-case digits. -/
def percentByte (byte : ℕ) : Utf16 :=
  let digit := fun n : ℕ => UInt16.ofNat (if n < 10 then 0x30 + n else 0x37 + n)
  [0x25, digit (byte / 16), digit (byte % 16)]

/-- Nothing, where the language throws at a lone surrogate. -/
def encodePoint (cp : ℕ) : Option Utf16 :=
  if isUnescaped cp then some [UInt16.ofNat cp]
  else if isSurrogate cp then none
  else some ((utf8 cp).flatMap percentByte)

def encodeURIComponent (text : Utf16) : Option Utf16 :=
  (text.codePoints.mapM encodePoint).map List.flatten

/-- The value of a hexadecimal digit. -/
def hexValue? (u : UInt16) : Option ℕ :=
  if 0x30 ≤ u && u ≤ 0x39 then some (u.toNat - 0x30)
  else if 0x41 ≤ u && u ≤ 0x46 then some (u.toNat - 0x37)
  else if 0x61 ≤ u && u ≤ 0x66 then some (u.toNat - 0x57)
  else none

/-- A text as code units and, for each `%` with two digits, a byte. -/
def unescape : Utf16 → Option (List (UInt16 ⊕ ℕ))
  | [] => some []
  | 0x25 :: a :: b :: rest => do
    let high ← hexValue? a
    let low ← hexValue? b
    let items ← unescape rest
    return .inr (16 * high + low) :: items
  | u :: rest => if u = 0x25 then none else (unescape rest).map (.inl u :: ·)

/-- The last six bits of a byte that continues a character. -/
def continuation? : UInt16 ⊕ ℕ → Option ℕ
  | .inr byte => if 0x80 ≤ byte && byte < 0xC0 then some (byte - 0x80) else none
  | .inl _ => none

/-- Bytes are read as well-formed UTF-8. -/
def decodeItems : List (UInt16 ⊕ ℕ) → Option Utf16
  | [] => some []
  | .inl u :: rest => (decodeItems rest).map (u :: ·)
  | .inr byte :: rest =>
    if byte < 0x80 then (decodeItems rest).map (UInt16.ofNat byte :: ·)
    else if 0xC0 ≤ byte && byte < 0xE0 then
      match rest with
      | i :: rest => do
        let cp := (byte - 0xC0) * 0x40 + (← continuation? i)
        if cp < 0x80 then none else return ofCodePoint cp ++ (← decodeItems rest)
      | _ => none
    else if 0xE0 ≤ byte && byte < 0xF0 then
      match rest with
      | i :: j :: rest => do
        let cp := (byte - 0xE0) * 0x1000 + (← continuation? i) * 0x40 + (← continuation? j)
        if cp < 0x800 || isSurrogate cp then none else return ofCodePoint cp ++ (← decodeItems rest)
      | _ => none
    else if 0xF0 ≤ byte && byte < 0xF8 then
      match rest with
      | i :: j :: k :: rest => do
        let cp := (byte - 0xF0) * 0x40000 + (← continuation? i) * 0x1000 +
          (← continuation? j) * 0x40 + (← continuation? k)
        if cp < 0x10000 || 0x110000 ≤ cp then none
        else return ofCodePoint cp ++ (← decodeItems rest)
      | _ => none
    else none

/-- Nothing, where the language throws at a malformed encoding. -/
def decodeURIComponent (text : Utf16) : Option Utf16 :=
  (unescape text).bind decodeItems

/-- White space and line ends. -/
def isSpace (u : UInt16) : Bool :=
  (0x9 ≤ u && u ≤ 0xD) || (0x2000 ≤ u && u ≤ 0x200A) ||
    u ∈ [0x20, 0xA0, 0x1680, 0x2028, 0x2029, 0x202F, 0x205F, 0x3000, 0xFEFF]

/-- A text without the white space at its ends. -/
def trim (text : Utf16) : Utf16 :=
  ((text.dropWhile isSpace).reverse.dropWhile isSpace).reverse

/-- The letters from `A` to `Z` in lower case. -/
def toLowerAscii (text : Utf16) : Utf16 :=
  text.map fun u => if 0x41 ≤ u && u ≤ 0x5A then u + 0x20 else u

def isDigit (u : UInt16) : Bool :=
  0x30 ≤ u && u ≤ 0x39

/-- The decimal digits of a number. -/
def digits (n : ℕ) : Utf16 :=
  (Nat.toDigits 10 n).map fun c => UInt16.ofNat c.toNat

/-- The value of the decimal digits of a text. -/
def number (text : Utf16) : ℕ :=
  text.foldl (fun n u => n * 10 + (u.toNat - 0x30)) 0

theorem toNat_of_isDigit {c : Char} (h : c.isDigit = true) :
    (UInt16.ofNat c.toNat).toNat = c.toNat ∧ 0x30 ≤ c.toNat ∧ c.toNat ≤ 0x39 := by
  rw [Char.isDigit, Bool.and_eq_true, decide_eq_true_eq, decide_eq_true_eq] at h
  have hlow : 0x30 ≤ c.toNat := h.1
  have hhigh : c.toNat ≤ 0x39 := h.2
  refine ⟨?_, hlow, hhigh⟩
  rw [UInt16.toNat_ofNat', Nat.mod_eq_of_lt (by omega)]

theorem isDigit_of_mem_digits {n : ℕ} {u : UInt16} (h : u ∈ digits n) : isDigit u = true := by
  obtain ⟨c, hc, rfl⟩ := List.mem_map.mp h
  obtain ⟨heq, hlow, hhigh⟩ := toNat_of_isDigit (Nat.isDigit_of_mem_toDigits (by decide) (by decide) hc)
  rw [isDigit, Bool.and_eq_true, decide_eq_true_eq, decide_eq_true_eq, UInt16.le_iff_toNat_le,
    UInt16.le_iff_toNat_le, heq]
  exact ⟨hlow, hhigh⟩

theorem isSpace_of_isDigit {u : UInt16} (h : isDigit u = true) : isSpace u = false := by
  rw [isDigit, Bool.and_eq_true, decide_eq_true_eq, decide_eq_true_eq, UInt16.le_iff_toNat_le,
    UInt16.le_iff_toNat_le] at h
  obtain ⟨hlow, hhigh⟩ : 0x30 ≤ u.toNat ∧ u.toNat ≤ 0x39 := h
  have hall : ∀ n < 10, isSpace (UInt16.ofNat (0x30 + n)) = false := by decide
  have hu : UInt16.ofNat (0x30 + (u.toNat - 0x30)) = u := by
    rw [Nat.add_sub_cancel' hlow, UInt16.ofNat_toNat]
  rw [← hu]
  exact hall _ (by omega)

theorem number_map {chars : List Char} (h : ∀ c ∈ chars, c.isDigit = true) (n : ℕ) :
    (chars.map fun c => UInt16.ofNat c.toNat).foldl (fun n u => n * 10 + (u.toNat - 0x30)) n =
      Nat.ofDigitChars 10 chars n := by
  induction chars generalizing n with
  | nil => rfl
  | cons c chars ih =>
    rw [List.map_cons, List.foldl_cons, Nat.ofDigitChars_cons, (toNat_of_isDigit (h c List.mem_cons_self)).1,
      ih fun d hd => h d (List.mem_cons_of_mem c hd), mul_comm n 10]
    rfl

theorem number_digits (n : ℕ) : number (digits n) = n := by
  rw [number, digits, number_map fun c => Nat.isDigit_of_mem_toDigits (by decide) (by decide)]
  exact Nat.ofDigitChars_ten_toDigits

theorem length_digits {n k : ℕ} (hk : 0 < k) : (digits n).length ≤ k ↔ n < 10 ^ k := by
  rw [digits, List.length_map]
  exact Nat.length_toDigits_le_iff (by decide) hk

theorem digits_ne_nil (n : ℕ) : digits n ≠ [] := by
  rw [digits, ne_eq, List.map_eq_nil_iff]
  exact List.ne_nil_of_length_pos Nat.length_toDigits_pos

theorem trim_isInfix (text : Utf16) : text.trim <:+: text := by
  refine List.IsInfix.trans ?_ (List.dropWhile_suffix isSpace).isInfix
  rw [trim, ← List.reverse_infix, List.reverse_reverse]
  exact (List.dropWhile_suffix isSpace).isInfix

/-- Without white space at its ends a text stays as it is. -/
theorem trim_eq_self {u v : UInt16} {text mid front : Utf16} (hfirst : text = u :: mid)
    (hlast : text = front ++ [v]) (hu : isSpace u = false) (hv : isSpace v = false) :
    text.trim = text := by
  have hu' : ¬isSpace u = true := by rw [hu]; exact Bool.false_ne_true
  have hv' : ¬isSpace v = true := by rw [hv]; exact Bool.false_ne_true
  have hdrop : text.dropWhile isSpace = text := by
    rw [hfirst, List.dropWhile_cons_of_neg hu']
  rw [trim, hdrop, hlast, List.reverse_append, List.reverse_singleton, List.singleton_append,
    List.dropWhile_cons_of_neg hv', List.reverse_cons, List.reverse_reverse]

theorem codePoints_ne_nil {text : Utf16} (h : text ≠ []) : text.codePoints ≠ [] := by
  match text with
  | [] => exact absurd rfl h
  | [u] => exact List.cons_ne_nil _ _
  | u :: v :: rest =>
    rw [codePoints]
    split <;> exact List.cons_ne_nil _ _

theorem utf8_ne_nil (cp : ℕ) : utf8 cp ≠ [] := by
  rw [utf8]
  split
  · exact List.cons_ne_nil _ _
  split
  · exact List.cons_ne_nil _ _
  split <;> exact List.cons_ne_nil _ _

theorem encodePoint_ne_nil {cp : ℕ} {part : Utf16} (h : encodePoint cp = some part) : part ≠ [] := by
  rw [encodePoint] at h
  split at h
  · cases h
    exact List.cons_ne_nil _ _
  split at h
  · cases h
  · cases h
    obtain ⟨byte, bytes, hbytes⟩ := List.exists_cons_of_ne_nil (utf8_ne_nil cp)
    rw [hbytes, List.flatMap_cons]
    exact List.append_ne_nil_of_left_ne_nil (List.cons_ne_nil _ _) _

/-- Nothing is encoded to the empty text but the empty text. -/
theorem encodeURIComponent_ne_nil {text encoded : Utf16}
    (h : encodeURIComponent text = some encoded) (hne : text ≠ []) : encoded ≠ [] := by
  obtain ⟨cp, rest, hpoints⟩ := List.exists_cons_of_ne_nil (codePoints_ne_nil hne)
  simp only [encodeURIComponent, hpoints, List.mapM_cons, Option.bind_eq_bind, Option.map_eq_some_iff,
    Option.bind_eq_some_iff, Option.pure_def, Option.some.injEq] at h
  obtain ⟨-, ⟨part, hpart, parts, -, rfl⟩, rfl⟩ := h
  rw [List.flatten_cons]
  exact List.append_ne_nil_of_left_ne_nil (encodePoint_ne_nil hpart) _

/-- The percent encoding of a word with a space, a letter of two bytes and a pair of surrogates. -/
example : encodeURIComponent (ofString "a b/é😀*") = some (ofString "a%20b%2F%C3%A9%F0%9F%98%80*") := by
  decide +kernel

example : decodeURIComponent (ofString "a%20b%2F%C3%A9%F0%9F%98%80*") = some (ofString "a b/é😀*") := by
  decide +kernel

end Utf16
