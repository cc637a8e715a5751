import Mathlib.Data.List.Basic
import Mathlib.Data.String.Basic
import Mathlib.Tactic.Common

/-!
# Hexadecimal texts of byte sequences

Bytes are written as two lower-case digits each. Reading takes digits of either letter case
and stops in front of the first pair of characters that is not one.

## Main results

- `hexDecode_hexEncode`: what is written is read back
- `hexDigit_of_mem_hexEncode`: only digits are written
-/

/-- The lower-case digit of a number below sixteen. -/
def hexDigit (n : ℕ) : Char :=
  if n < 10 then Char.ofNat (n + '0'.toNat) else Char.ofNat (n - 10 + 'a'.toNat)

def hexValue? (c : Char) : Option ℕ :=
  if '0' ≤ c ∧ c ≤ '9' then some (c.toNat - '0'.toNat)
  else if 'a' ≤ c ∧ c ≤ 'f' then some (c.toNat - 'a'.toNat + 10)
  else if 'A' ≤ c ∧ c ≤ 'F' then some (c.toNat - 'A'.toNat + 10)
  else none

def hexChars : List UInt8 → List Char
  | [] => []
  | b :: rest => hexDigit (b.toNat / 16) :: hexDigit (b.toNat % 16) :: hexChars rest

/-- The bytes of the pairs of digits in front of the first pair that is none. -/
def hexBytes : List Char → List UInt8
  | a :: b :: rest =>
    match hexValue? a, hexValue? b with
    | some x, some y => UInt8.ofNat (16 * x + y) :: hexBytes rest
    | _, _ => []
  | _ => []

def hexEncode (bytes : List UInt8) : String :=
  String.ofList (hexChars bytes)

def hexDecode (text : String) : List UInt8 :=
  hexBytes text.toList

theorem hexValue?_hexDigit {n : ℕ} (h : n < 16) : hexValue? (hexDigit n) = some n := by
  have hall : ∀ i : Fin 16, hexValue? (hexDigit i) = some i.val := by decide
  exact hall ⟨n, h⟩

theorem hexBytes_hexChars (bytes : List UInt8) : hexBytes (hexChars bytes) = bytes := by
  induction bytes with
  | nil => rfl
  | cons b rest ih =>
    have hlt : b.toNat < 256 := b.toNat_lt
    have hhigh : b.toNat / 16 < 16 := by omega
    have hlow : b.toNat % 16 < 16 := by omega
    rw [hexChars, hexBytes, hexValue?_hexDigit hhigh, hexValue?_hexDigit hlow]
    dsimp only
    rw [ih, Nat.div_add_mod, UInt8.ofNat_toNat]

@[simp] theorem hexDecode_hexEncode (bytes : List UInt8) : hexDecode (hexEncode bytes) = bytes := by
  rw [hexDecode, hexEncode, String.toList_ofList, hexBytes_hexChars]

/-- Everything written is a digit. -/
theorem hexDigit_of_mem_hexEncode {bytes : List UInt8} {c : Char}
    (h : c ∈ (hexEncode bytes).toList) : ∃ n < 16, c = hexDigit n := by
  rw [hexEncode, String.toList_ofList] at h
  induction bytes with
  | nil => cases h
  | cons b rest ih =>
    have hlt : b.toNat < 256 := b.toNat_lt
    rw [hexChars, List.mem_cons, List.mem_cons] at h
    rcases h with rfl | rfl | h
    · exact ⟨_, by omega, rfl⟩
    · exact ⟨_, by omega, rfl⟩
    · exact ih h

theorem colon_not_mem_hexEncode (bytes : List UInt8) : ':' ∉ (hexEncode bytes).toList := by
  intro hmem
  obtain ⟨n, hn, hc⟩ := hexDigit_of_mem_hexEncode hmem
  have hall : ∀ i : Fin 16, ':' ≠ hexDigit i := by decide
  exact hall ⟨n, hn⟩ hc
