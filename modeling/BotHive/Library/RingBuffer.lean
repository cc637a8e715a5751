import Mathlib.Data.List.DropRight
import Mathlib.Data.List.Nodup
import Mathlib.Data.List.Perm.Subperm
import Mathlib.Data.Nat.ModEq
import Mathlib.Logic.Function.Basic
import Mathlib.Tactic.Common

/-!
# Ring buffers

A buffer of `k` slots that keeps the last items that were pushed. The items stand behind each other
from a head on, modulo the number of the slots; a push into a full buffer overwrites the oldest one.

## Main definitions

- `RingBuffer.push`, `RingBuffer.toList`
- `RingBuffer.Holds`: the buffer holds the last items of a history

## Main results

- `RingBuffer.Holds.push`: a push keeps it
- `RingBuffer.Holds.toList_eq`: the items of a buffer are the last ones of its history
- `RingBuffer.slots_perm_toList`: reading the slots in order gives the same items
-/

structure RingBuffer (α : Type*) where
  slots : ℕ → Option α
  head : ℕ
  count : ℕ

namespace RingBuffer

variable {α : Type*} {k : ℕ} {b : RingBuffer α} {l : List α}

def empty : RingBuffer α where
  slots _ := none
  head := 0
  count := 0

def push (k : ℕ) (b : RingBuffer α) (a : α) : RingBuffer α :=
  let slots := Function.update b.slots ((b.head + b.count) % k) (some a)
  if b.count < k then { b with slots, count := b.count + 1 }
  else { b with slots, head := (b.head + 1) % k }

/-- The items from the oldest to the newest; a slot that was never written has none. -/
def toList (k : ℕ) (b : RingBuffer α) : List α :=
  (List.range b.count).filterMap fun i => b.slots ((b.head + i) % k)

/-- The buffer holds the last items of a history, as many as there are slots. -/
structure Holds (k : ℕ) (b : RingBuffer α) (l : List α) : Prop where
  count_le : b.count ≤ k
  full : b.count < k → b.count = l.length
  enough : b.count ≤ l.length
  slots : ∀ i < b.count, b.slots ((b.head + i) % k) = l[l.length - b.count + i]?

theorem holds_empty (k : ℕ) : Holds k (empty : RingBuffer α) [] :=
  ⟨Nat.zero_le k, fun _ => rfl, Nat.le_refl 0, nofun⟩

/-- Places less than one turn apart have slots of their own. -/
theorem add_mod_ne {head i j : ℕ} (hij : i < j) (hjk : j < i + k) :
    (head + i) % k ≠ (head + j) % k := by
  intro heq
  have hdvd : k ∣ (head + j) - (head + i) := (Nat.modEq_iff_dvd' (by omega)).mp heq
  have hle := Nat.le_of_dvd (by omega) hdvd
  omega

/-- A push keeps the last items. -/
theorem Holds.push (h : Holds k b l) (a : α) : Holds k (b.push k a) (l ++ [a]) := by
  have hlength : (l ++ [a]).length = l.length + 1 := List.length_append
  have hold {i : ℕ} (hi : i < l.length) : (l ++ [a])[i]? = l[i]? := List.getElem?_append_left hi
  have hnew : (l ++ [a])[l.length]? = some a := List.getElem?_concat_length
  by_cases hcount : b.count < k
  · have hfull := h.full hcount
    have hpush : b.push k a = { b with
        slots := Function.update b.slots ((b.head + b.count) % k) (some a)
        count := b.count + 1 } := if_pos hcount
    rw [hpush]
    have hcount' : b.count + 1 = (l ++ [a]).length := by rw [hlength, hfull]
    refine ⟨hcount, fun _ => hcount', Nat.le_of_eq hcount', fun i hi => ?_⟩
    dsimp only at hi ⊢
    rw [hlength, show l.length + 1 - (b.count + 1) + i = i by omega]
    obtain hlt | rfl := Nat.lt_or_eq_of_le (Nat.le_of_lt_succ hi)
    · rw [Function.update_of_ne (add_mod_ne hlt (by omega)), h.slots i hlt, hold (by omega)]
      congr 1
      omega
    · rw [Function.update_self, hfull, hnew]
  · have hcount' : b.count = k := Nat.le_antisymm h.count_le (Nat.not_lt.mp hcount)
    have hpush : b.push k a = { b with
        slots := Function.update b.slots ((b.head + b.count) % k) (some a)
        head := (b.head + 1) % k } := if_neg hcount
    have hlen := h.enough
    rw [hpush]
    have henough : b.count ≤ (l ++ [a]).length := hlength ▸ Nat.le_succ_of_le hlen
    refine ⟨h.count_le, fun hlt => absurd hlt hcount, henough, fun i hi => ?_⟩
    dsimp only at hi ⊢
    rw [hlength, Nat.mod_add_mod, Nat.add_assoc, Nat.add_comm 1 i]
    obtain hlt | hlast := Nat.lt_or_eq_of_le (Nat.succ_le_of_lt hi)
    · rw [Function.update_of_ne (add_mod_ne hlt (by omega)), h.slots (i + 1) hlt, hold (by omega)]
      congr 1
      omega
    · rw [show i + 1 = b.count from hlast, Function.update_self,
        show l.length + 1 - b.count + i = l.length by omega, hnew]

theorem filterMap_getElem? (l : List α) : (List.range l.length).filterMap (l[·]?) = l := by
  have hmap : (List.range l.length).map (l[·]?) = l.map some := by
    refine List.ext_getElem (by rw [List.length_map, List.length_range, List.length_map]) ?_
    intro i hi hi'
    rw [List.getElem_map, List.getElem_map, List.getElem_range]
    exact List.getElem?_eq_getElem _
  calc (List.range l.length).filterMap (l[·]?) = ((List.range l.length).map (l[·]?)).filterMap id := by
        rw [List.filterMap_map]
        rfl
    _ = (l.map some).filterMap id := by rw [hmap]
    _ = l := by rw [List.filterMap_map, Function.id_comp, List.filterMap_some]

/-- The items of a buffer are the last ones of its history. -/
theorem Holds.toList_eq (h : Holds k b l) : b.toList k = l.rtake k := by
  have hcount : l.length - k = l.length - b.count := by
    have hle := h.count_le
    have hfull := h.full
    omega
  have hlength : (l.drop (l.length - b.count)).length = b.count := by
    have hle := h.enough
    rw [List.length_drop]
    omega
  have hslots : b.toList k =
      (List.range b.count).filterMap fun i => (l.drop (l.length - b.count))[i]? := by
    refine List.filterMap_congr fun i hi => ?_
    rw [h.slots i (List.mem_range.mp hi), List.getElem?_drop]
  have hitems := filterMap_getElem? (l.drop (l.length - b.count))
  rw [hlength] at hitems
  rw [hslots, List.rtake, hcount, hitems]

/-- A turn from any head on passes every slot. -/
theorem range_perm_turn (head k : ℕ) :
    (List.range k).Perm ((List.range k).map fun i => (head + i) % k) := by
  refine (List.Subperm.perm_of_length_le ?_ (by rw [List.length_map])).symm
  refine List.subperm_of_subset ?_ fun slot hslot => ?_
  · refine List.nodup_range.map_on fun i hi j hj heq => ?_
    rw [List.mem_range] at hi hj
    obtain hlt | rfl | hlt := lt_trichotomy i j
    · exact absurd heq (add_mod_ne hlt (by omega))
    · rfl
    · exact absurd heq.symm (add_mod_ne hlt (by omega))
  · obtain ⟨i, hi, rfl⟩ := List.mem_map.mp hslot
    exact List.mem_range.mpr (Nat.mod_lt _ (Nat.zero_lt_of_lt (List.mem_range.mp hi)))

/-- A buffer that is full or starts at its first slot has its items in its first slots. -/
theorem slots_perm_toList (hcount : b.count ≤ k) (hhead : b.count < k → b.head = 0) :
    ((List.range b.count).filterMap b.slots).Perm (b.toList k) := by
  obtain hlt | rfl := hcount.lt_or_eq
  · have hslots : b.toList k = (List.range b.count).filterMap b.slots := by
      refine List.filterMap_congr fun i hi => ?_
      rw [List.mem_range] at hi
      rw [hhead hlt, Nat.zero_add, Nat.mod_eq_of_lt (hi.trans hlt)]
    rw [hslots]
  · have hturn := (range_perm_turn b.head b.count).filterMap b.slots
    rwa [List.filterMap_map] at hturn

end RingBuffer
