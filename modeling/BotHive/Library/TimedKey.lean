import Mathlib.Tactic.Common
import Mathlib.Algebra.Order.Group.Nat

/-!
# A key with a time to live

One key of a store that forgets its value at a set time: the value is visible
until then, a conditional write succeeds only when no value is visible, and the
time can be extended while the value is.
-/

structure TimedKey (α : Type*) where
  value : α
  expiresAt : ℕ

namespace TimedKey

variable {α : Type*} {k : Option (TimedKey α)} {now : ℕ}

/-- The value that is visible at a time. -/
def read (k : Option (TimedKey α)) (now : ℕ) : Option α :=
  match k with
  | none => none
  | some key => if now < key.expiresAt then some key.value else none

/-- Write a value that lives for `ttl` unless one is visible; tell whether it was written. -/
def setNX (k : Option (TimedKey α)) (now ttl : ℕ) (v : α) : Bool × Option (TimedKey α) :=
  match read k now with
  | none => (true, some ⟨v, now + ttl⟩)
  | some _ => (false, k)

/-- Let the visible value live for `ttl` from now on. -/
def pexpire (k : Option (TimedKey α)) (now ttl : ℕ) : Option (TimedKey α) :=
  (read k now).map fun v => ⟨v, now + ttl⟩

theorem setNX_of_free (h : read k now = none) (ttl : ℕ) (v : α) :
    setNX k now ttl v = (true, some ⟨v, now + ttl⟩) := by
  rw [setNX, h]

theorem setNX_of_taken {w : α} (h : read k now = some w) (ttl : ℕ) (v : α) :
    setNX k now ttl v = (false, k) := by
  rw [setNX, h]

/-- A value just written is visible. -/
theorem read_some_of_ttl_pos {ttl : ℕ} (h : 0 < ttl) (v : α) :
    read (some ⟨v, now + ttl⟩) now = some v := by
  have hlt : now < now + ttl := by omega
  exact if_pos hlt

/-- Extending the life of a value does not change what is visible. -/
theorem read_pexpire {ttl : ℕ} (h : 0 < ttl) : read (pexpire k now ttl) now = read k now := by
  rw [pexpire]
  cases read k now with
  | none => rfl
  | some v => exact read_some_of_ttl_pos h v

/-- A visible value stays visible until it expires. -/
theorem read_of_lt_expiresAt {v : α} {later : ℕ} (h : read k now = some v)
    (hlater : ∀ key, k = some key → later < key.expiresAt) : read k later = some v := by
  cases k with
  | none => cases h
  | some key =>
    rw [read] at h ⊢
    split_ifs at h
    rw [if_pos (hlater key rfl)]
    exact h

end TimedKey
