import BotHive.Library.Hex
import Mathlib.Data.List.Basic
import Mathlib.Tactic.Common

/-!
# Internet addresses and their texts

An address is a number of 32 or of 128 bits, and a subnet holds the numbers that share their
leading bits. The text of an IPv4 address has its four bytes in decimal. The canonical text of
an IPv6 address has its eight pieces in lower-case hexadecimal, with the first of its longest
runs of at least two zero pieces left out.

## Main results

- `splitOn_dottedText`, `Ipv6.splitOn_text`: the texts fall apart into their fields
- `parseHex_toDigits`: a number is read back from its hexadecimal text
- `compressed?_of_five_zeros`: an address that begins with five zero pieces is compressed there
-/

/-- The numbers that share their first `bits` of `width` bits with `net`. -/
def InSubnet (width net bits v : ℕ) : Prop :=
  v / 2 ^ (width - bits) = net / 2 ^ (width - bits)

instance (width net bits v : ℕ) : Decidable (InSubnet width net bits v) := by
  unfold InSubnet
  infer_instance

structure Ipv4 where
  value : ℕ
  value_lt : value < 2 ^ 32

structure Ipv6 where
  value : ℕ
  value_lt : value < 2 ^ 128

/-- The four bytes of a number of 32 bits. -/
def octets (value : ℕ) : List ℕ :=
  [value / 2 ^ 24 % 256, value / 2 ^ 16 % 256, value / 2 ^ 8 % 256, value % 256]

/-- The bytes in decimal, with dots between them. -/
def dottedText (value : ℕ) : List Char :=
  ['.'].intercalate ((octets value).map (Nat.toDigits 10))

/-- The eight pieces of a number of 128 bits. -/
def pieces (value : ℕ) : List ℕ :=
  [value / 2 ^ 112 % 2 ^ 16, value / 2 ^ 96 % 2 ^ 16, value / 2 ^ 80 % 2 ^ 16,
    value / 2 ^ 64 % 2 ^ 16, value / 2 ^ 48 % 2 ^ 16, value / 2 ^ 32 % 2 ^ 16,
    value / 2 ^ 16 % 2 ^ 16, value % 2 ^ 16]

/-- How many zeros a list begins with. -/
def zeroRun (l : List ℕ) : ℕ :=
  (l.takeWhile (· == 0)).length

/-- Where the first of the longest runs of at least two zeros begins. -/
def compressed? (l : List ℕ) : Option ℕ :=
  (List.range l.length).find? fun i =>
    2 ≤ zeroRun (l.drop i) ∧ ∀ j < l.length, zeroRun (l.drop j) ≤ zeroRun (l.drop i)

/-- The fields on one side of the pieces that are left out. -/
def sideFields (l : List ℕ) : List (List Char) :=
  if l = [] then [[]] else l.map (Nat.toDigits 16)

/-- The fields between the colons of a canonical text. -/
def fields (l : List ℕ) : List (List Char) :=
  match compressed? l with
  | none => l.map (Nat.toDigits 16)
  | some i => sideFields (l.take i) ++ [] :: sideFields (l.drop (i + zeroRun (l.drop i)))

/-- The canonical text of an address. -/
def Ipv6.text (a : Ipv6) : List Char :=
  [':'].intercalate (fields (pieces a.value))

def Ipv4.text (a : Ipv4) : List Char :=
  dottedText a.value

inductive Address where
  | v4 (a : Ipv4)
  | v6 (a : Ipv6)

def Address.text : Address → List Char
  | .v4 a => a.text
  | .v6 a => a.text

/-- An address as the host of a URL. -/
def Address.host : Address → List Char
  | .v4 a => a.text
  | .v6 a => '[' :: a.text ++ [']']

/-- The value of the hexadecimal digits of a text. -/
def parseHex (l : List Char) : ℕ :=
  l.foldl (fun n c => n * 16 + (hexValue? c).getD 0) 0

/-- The value of the decimal digits of a text. -/
def parseDecimal (l : List Char) : ℕ :=
  Nat.ofDigitChars 10 l 0

/-- A digit or a lower-case letter up to `f`. -/
def isLowerHex (c : Char) : Bool :=
  c.isDigit || ('a' ≤ c && c ≤ 'f')

section Digits

theorem hexValue?_digitChar {d : ℕ} (h : d < 16) : hexValue? d.digitChar = some d := by
  have hall : ∀ d < 16, hexValue? d.digitChar = some d := by decide
  exact hall d h

theorem isLowerHex_digitChar {d : ℕ} (h : d < 16) : isLowerHex d.digitChar = true := by
  have hall : ∀ d < 16, isLowerHex d.digitChar = true := by decide
  exact hall d h

/-- A number is read back from its hexadecimal text. -/
theorem parseHex_toDigits (n : ℕ) : parseHex (Nat.toDigits 16 n) = n := by
  induction n using Nat.strongRecOn with
  | ind n ih =>
    rw [Nat.toDigits_eq_if (show 1 < 16 by decide)]
    split_ifs with hn
    · simp [parseHex, hexValue?_digitChar hn]
    · have hrest := ih (n / 16) (by omega)
      have hdigit : n % 16 < 16 := Nat.mod_lt n (by decide)
      rw [parseHex] at hrest
      rw [parseHex, List.foldl_append, hrest]
      simp only [List.foldl_cons, List.foldl_nil, hexValue?_digitChar hdigit, Option.getD_some]
      omega

theorem toDigits_sixteen_inj {m n : ℕ} (h : Nat.toDigits 16 m = Nat.toDigits 16 n) : m = n := by
  rw [← parseHex_toDigits m, h, parseHex_toDigits]

theorem isLowerHex_of_mem_toDigits {n : ℕ} {c : Char} (h : c ∈ Nat.toDigits 16 n) :
    isLowerHex c = true := by
  induction n using Nat.strongRecOn with
  | ind n ih =>
    rw [Nat.toDigits_eq_if (show 1 < 16 by decide)] at h
    split_ifs at h with hn
    · rw [List.mem_singleton.mp h]
      exact isLowerHex_digitChar hn
    · rcases List.mem_append.mp h with hrest | hlast
      · exact ih (n / 16) (by omega) hrest
      · rw [List.mem_singleton.mp hlast]
        exact isLowerHex_digitChar (Nat.mod_lt n (by decide))

theorem length_toDigits_sixteen {n : ℕ} (h : n < 2 ^ 16) : (Nat.toDigits 16 n).length ≤ 4 :=
  (Nat.length_toDigits_le_iff (by decide) (by decide)).mpr (by omega)

theorem length_toDigits_ten {n : ℕ} (h : n < 256) : (Nat.toDigits 10 n).length ≤ 3 :=
  (Nat.length_toDigits_le_iff (by decide) (by decide)).mpr (by omega)

theorem parseDecimal_toDigits (n : ℕ) : parseDecimal (Nat.toDigits 10 n) = n :=
  Nat.ofDigitChars_ten_toDigits

theorem isDigit_of_mem_toDigits_ten {n : ℕ} {c : Char} (h : c ∈ Nat.toDigits 10 n) :
    c.isDigit = true :=
  Nat.isDigit_of_mem_toDigits (by decide) (by decide) h

end Digits

section Texts

/-- A character of joined fields is the separator or stands in a field. -/
theorem mem_intercalate {α : Type*} {x c : α} {ls : List (List α)}
    (h : c ∈ [x].intercalate ls) : c = x ∨ ∃ l ∈ ls, c ∈ l := by
  induction ls with
  | nil => cases h
  | cons l rest ih =>
    cases rest with
    | nil =>
      rw [List.intercalate_singleton] at h
      exact .inr ⟨l, List.mem_singleton_self l, h⟩
    | cons l' rest =>
      rw [List.intercalate_cons_cons, List.append_assoc, List.mem_append,
        List.mem_append, List.mem_singleton] at h
      obtain hl | hx | hrest := h
      · exact .inr ⟨l, List.mem_cons_self, hl⟩
      · exact .inl hx
      · obtain hx | ⟨m, hm, hc⟩ := ih hrest
        · exact .inl hx
        · exact .inr ⟨m, List.mem_cons_of_mem l hm, hc⟩

theorem octets_lt {value n : ℕ} (h : n ∈ octets value) : n < 256 := by
  simp only [octets, List.mem_cons, List.not_mem_nil, or_false] at h
  omega

theorem pieces_lt {value n : ℕ} (h : n ∈ pieces value) : n < 2 ^ 16 := by
  simp only [pieces, List.mem_cons, List.not_mem_nil, or_false] at h
  omega

theorem dot_not_mem_toDigits (n : ℕ) : '.' ∉ Nat.toDigits 10 n := by
  intro h
  cases isDigit_of_mem_toDigits_ten h

theorem splitOn_dottedText (value : ℕ) :
    (dottedText value).splitOn '.' = (octets value).map (Nat.toDigits 10) := by
  refine List.splitOn_intercalate '.' (fun l hl => ?_) (by simp [octets])
  obtain ⟨n, -, rfl⟩ := List.mem_map.mp hl
  exact dot_not_mem_toDigits n

theorem mem_dottedText {value : ℕ} {c : Char} (h : c ∈ dottedText value) :
    c = '.' ∨ c.isDigit = true := by
  refine (mem_intercalate h).imp_right fun ⟨l, hl, hc⟩ => ?_
  obtain ⟨n, -, rfl⟩ := List.mem_map.mp hl
  exact isDigit_of_mem_toDigits_ten hc

theorem sideFields_ne_nil (l : List ℕ) : sideFields l ≠ [] := by
  unfold sideFields
  split_ifs with h
  · exact List.cons_ne_nil _ _
  · exact fun hnil => h (List.map_eq_nil_iff.mp hnil)

theorem fields_ne_nil {l : List ℕ} (h : l ≠ []) : fields l ≠ [] := by
  unfold fields
  split
  · exact fun hnil => h (List.map_eq_nil_iff.mp hnil)
  · exact List.append_ne_nil_of_right_ne_nil _ (List.cons_ne_nil _ _)

theorem mem_sideFields {l : List ℕ} {f : List Char} {c : Char} (hf : f ∈ sideFields l)
    (hc : c ∈ f) : isLowerHex c = true := by
  unfold sideFields at hf
  split_ifs at hf with h
  · rw [List.mem_singleton.mp hf] at hc
    cases hc
  · obtain ⟨n, -, rfl⟩ := List.mem_map.mp hf
    exact isLowerHex_of_mem_toDigits hc

theorem mem_fields {l : List ℕ} {f : List Char} {c : Char} (hf : f ∈ fields l) (hc : c ∈ f) :
    isLowerHex c = true := by
  unfold fields at hf
  split at hf
  · obtain ⟨n, -, rfl⟩ := List.mem_map.mp hf
    exact isLowerHex_of_mem_toDigits hc
  · rcases List.mem_append.mp hf with hleft | hright
    · exact mem_sideFields hleft hc
    · rcases List.mem_cons.mp hright with rfl | hside
      · cases hc
      · exact mem_sideFields hside hc

theorem Ipv6.mem_text {a : Ipv6} {c : Char} (h : c ∈ a.text) : c = ':' ∨ isLowerHex c = true :=
  (mem_intercalate h).imp_right fun ⟨_, hl, hc⟩ => mem_fields hl hc

/-- The text of an address falls apart into its fields. -/
theorem Ipv6.splitOn_text (a : Ipv6) : a.text.splitOn ':' = fields (pieces a.value) := by
  refine List.splitOn_intercalate ':' (fun l hl hcolon => ?_) (fields_ne_nil (by simp [pieces]))
  cases mem_fields hl hcolon

end Texts

section Compression

theorem zeroRun_le_length (l : List ℕ) : zeroRun l ≤ l.length :=
  (List.takeWhile_sublist _).length_le

@[simp] theorem zeroRun_nil : zeroRun [] = 0 := rfl

@[simp] theorem zeroRun_zero_cons (l : List ℕ) : zeroRun (0 :: l) = zeroRun l + 1 := by
  simp [zeroRun]

theorem zeroRun_cons_of_ne {n : ℕ} (h : n ≠ 0) (l : List ℕ) : zeroRun (n :: l) = 0 := by
  simp [zeroRun, h]

theorem two_le_zeroRun {l : List ℕ} {i : ℕ} (h : compressed? l = some i) :
    2 ≤ zeroRun (l.drop i) := by
  have hi := List.find?_some h
  simp only [decide_eq_true_eq] at hi
  exact hi.1

/-- A list that does not begin with a zero is not compressed at its beginning. -/
theorem compressed?_ne_zero {n : ℕ} (h : n ≠ 0) (l : List ℕ) : compressed? (n :: l) ≠ some 0 := by
  intro hzero
  have hrun := two_le_zeroRun hzero
  rw [List.drop_zero, zeroRun_cons_of_ne h] at hrun
  cases hrun

/-- An address that begins with five zero pieces is compressed there. -/
theorem compressed?_of_five_zeros (a b c : ℕ) :
    compressed? [0, 0, 0, 0, 0, a, b, c] = some 0 := by
  have hrun : ∀ j < 8, zeroRun (List.drop j [0, 0, 0, 0, 0, a, b, c]) ≤
      zeroRun (List.drop 0 [0, 0, 0, 0, 0, a, b, c]) := by
    intro j hj
    rw [List.drop_zero]
    simp only [zeroRun_zero_cons]
    by_cases hfive : j < 5
    · have hcases : j = 0 ∨ j = 1 ∨ j = 2 ∨ j = 3 ∨ j = 4 := by omega
      rcases hcases with rfl | rfl | rfl | rfl | rfl <;> simp
    · have hlen := zeroRun_le_length (List.drop j [0, 0, 0, 0, 0, a, b, c])
      simp only [List.length_drop, List.length_cons, List.length_nil] at hlen
      omega
  have htwo : 2 ≤ zeroRun (List.drop 0 [0, 0, 0, 0, 0, a, b, c]) := by
    rw [List.drop_zero]
    simp only [zeroRun_zero_cons]
    omega
  have hrange : List.range [0, 0, 0, 0, 0, a, b, c].length = 0 :: [1, 2, 3, 4, 5, 6, 7] := rfl
  rw [compressed?, hrange]
  exact List.find?_cons_of_pos (decide_eq_true ⟨htwo, hrun⟩)

end Compression
