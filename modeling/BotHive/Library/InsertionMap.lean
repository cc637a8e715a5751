import Mathlib.Data.List.Nodup
import Mathlib.Data.List.Perm.Basic
import Mathlib.Data.List.Basic
import Mathlib.Algebra.BigOperators.Group.List.Basic
import Mathlib.Algebra.Order.BigOperators.Group.List
import Mathlib.Tactic.Common

/-!
# Insertion-ordered maps

A finite map that enumerates its entries in the order in which their keys were
first inserted: writing a key that is present keeps its place, a new key goes to
the end, and a removed key loses its place. This is the map type of scripting
languages. Lookups are characterised by `get_set` and `get_delete`; sums over
the entries by the lemmas about counts and totals at the end.

## Main definitions

- `InsertionMap`: a list of entries with pairwise distinct keys
- `InsertionMap.get`, `set`, `delete`, `keys`, `values`: the map operations
- `InsertionMap.distinct`: the elements of a list, each where it first occurs
- `InsertionMap.accumulate`: fold values into the entries of their keys
- `InsertionMap.count`: how many entries satisfy a predicate
- `InsertionMap.total`: the sum of a measure over the entries
-/

/-- A map that remembers the order in which its keys were inserted. -/
@[ext] structure InsertionMap (κ α : Type*) where
  entries : List (κ × α)
  nodup : (entries.map Prod.fst).Nodup

namespace InsertionMap

variable {κ α : Type*}

/-- The map without entries. -/
def empty : InsertionMap κ α :=
  ⟨[], List.nodup_nil⟩

/-- The keys, in insertion order. -/
def keys (m : InsertionMap κ α) : List κ :=
  m.entries.map Prod.fst

/-- The values, in insertion order of their keys. -/
def values (m : InsertionMap κ α) : List α :=
  m.entries.map Prod.snd

def size (m : InsertionMap κ α) : ℕ :=
  m.entries.length

/-- Number of entries with a property. -/
def count (p : κ → α → Bool) (m : InsertionMap κ α) : ℕ :=
  m.entries.countP fun e => p e.1 e.2

/-- Sum of a measure over the entries. -/
def total {β : Type*} [AddCommMonoid β] (f : κ → α → β) (m : InsertionMap κ α) : β :=
  (m.entries.map fun e => f e.1 e.2).sum

variable [DecidableEq κ]

/-- First value stored under a key in a list of entries. -/
def lookup (k : κ) : List (κ × α) → Option α
  | [] => none
  | e :: rest => if e.1 = k then some e.2 else lookup k rest

/-- Overwrite the value of a key in place, or append a new entry. -/
def write (k : κ) (v : α) : List (κ × α) → List (κ × α)
  | [] => [(k, v)]
  | e :: rest => if e.1 = k then (k, v) :: rest else e :: write k v rest

/-- The entries whose key is not `k`. -/
def without (k : κ) : List (κ × α) → List (κ × α)
  | [] => []
  | e :: rest => if e.1 = k then without k rest else e :: without k rest

theorem without_sublist (k : κ) (l : List (κ × α)) : (without k l).Sublist l := by
  induction l with
  | nil => exact List.Sublist.slnil
  | cons e rest ih =>
    rw [without]
    split
    · exact ih.cons e
    · exact ih.cons_cons e

theorem mem_keys_write (k : κ) (v : α) (l : List (κ × α)) (x : κ) :
    x ∈ (write k v l).map Prod.fst ↔ x = k ∨ x ∈ l.map Prod.fst := by
  induction l with
  | nil => simp [write]
  | cons e rest ih =>
    by_cases h : e.1 = k
    · simp [write, h]
    · simp only [write, h, if_false, List.map_cons, List.mem_cons, ih]
      tauto

theorem write_of_not_mem {k : κ} (v : α) {l : List (κ × α)} (h : k ∉ l.map Prod.fst) :
    write k v l = l ++ [(k, v)] := by
  induction l with
  | nil => rfl
  | cons e rest ih =>
    rw [List.map_cons, List.mem_cons, not_or] at h
    rw [write, if_neg (Ne.symm h.1), ih h.2, List.cons_append]

theorem nodup_write (k : κ) (v : α) {l : List (κ × α)} (hl : (l.map Prod.fst).Nodup) :
    ((write k v l).map Prod.fst).Nodup := by
  induction l with
  | nil => simp [write]
  | cons e rest ih =>
    rw [List.map_cons, List.nodup_cons] at hl
    by_cases h : e.1 = k
    · rw [write, if_pos h, List.map_cons, List.nodup_cons]
      exact ⟨h ▸ hl.1, hl.2⟩
    · rw [write, if_neg h, List.map_cons, List.nodup_cons]
      refine ⟨?_, ih hl.2⟩
      rw [mem_keys_write]
      exact not_or_intro h hl.1

theorem nodup_without (k : κ) {l : List (κ × α)} (hl : (l.map Prod.fst).Nodup) :
    ((without k l).map Prod.fst).Nodup :=
  hl.sublist ((without_sublist k l).map _)

/-- The value stored under a key. -/
def get (m : InsertionMap κ α) (k : κ) : Option α :=
  lookup k m.entries

/-- Store a value under a key. -/
def set (m : InsertionMap κ α) (k : κ) (v : α) : InsertionMap κ α :=
  ⟨write k v m.entries, nodup_write k v m.nodup⟩

/-- Remove a key. -/
def delete (m : InsertionMap κ α) (k : κ) : InsertionMap κ α :=
  ⟨without k m.entries, nodup_without k m.nodup⟩

/-- Whether a key is stored. -/
def has (m : InsertionMap κ α) (k : κ) : Bool :=
  (m.get k).isSome

/-- The map built by storing the given entries one after the other. -/
def ofList (l : List (κ × α)) : InsertionMap κ α :=
  l.foldl (fun m e => m.set e.1 e.2) empty

theorem lookup_write (k : κ) (v : α) (l : List (κ × α)) (x : κ) :
    lookup x (write k v l) = if x = k then some v else lookup x l := by
  induction l with
  | nil => simp [write, lookup, eq_comm]
  | cons e rest ih =>
    by_cases h : e.1 = k
    · by_cases hx : x = k
      · simp [write, lookup, h, hx]
      · have hkx : ¬ k = x := fun hk => hx hk.symm
        simp [write, lookup, h, hx, hkx]
    · by_cases hx : e.1 = x
      · have hxk : ¬ x = k := fun hk => h (hx.trans hk)
        simp [write, lookup, hx, hxk]
      · simp [write, lookup, h, hx, ih]

theorem lookup_without (k : κ) (l : List (κ × α)) (x : κ) :
    lookup x (without k l) = if x = k then none else lookup x l := by
  induction l with
  | nil => simp [without, lookup]
  | cons e rest ih =>
    by_cases h : e.1 = k
    · rw [without, if_pos h, ih]
      by_cases hx : x = k
      · simp [hx]
      · have hex : ¬ e.1 = x := fun he => hx (he.symm.trans h)
        simp [hx, lookup, hex]
    · rw [without, if_neg h]
      by_cases hx : e.1 = x
      · have hxk : ¬ x = k := fun hk => h (hx.trans hk)
        simp [lookup, hx, hxk]
      · simp [lookup, hx, ih]

@[simp] theorem get_empty (k : κ) : (empty : InsertionMap κ α).get k = none :=
  rfl

theorem get_set (m : InsertionMap κ α) (k : κ) (v : α) (x : κ) :
    (m.set k v).get x = if x = k then some v else m.get x :=
  lookup_write k v m.entries x

theorem get_delete (m : InsertionMap κ α) (k x : κ) :
    (m.delete k).get x = if x = k then none else m.get x :=
  lookup_without k m.entries x

@[simp] theorem get_set_self (m : InsertionMap κ α) (k : κ) (v : α) :
    (m.set k v).get k = some v := by
  rw [get_set, if_pos rfl]

theorem get_set_of_ne (m : InsertionMap κ α) {k x : κ} (v : α) (h : x ≠ k) :
    (m.set k v).get x = m.get x := by
  rw [get_set, if_neg h]

@[simp] theorem get_delete_self (m : InsertionMap κ α) (k : κ) :
    (m.delete k).get k = none := by
  rw [get_delete, if_pos rfl]

theorem get_delete_of_ne (m : InsertionMap κ α) {k x : κ} (h : x ≠ k) :
    (m.delete k).get x = m.get x := by
  rw [get_delete, if_neg h]

theorem lookup_eq_some_iff {l : List (κ × α)} (hl : (l.map Prod.fst).Nodup) (k : κ) (v : α) :
    lookup k l = some v ↔ (k, v) ∈ l := by
  induction l with
  | nil => simp [lookup]
  | cons e rest ih =>
    rw [List.map_cons, List.nodup_cons] at hl
    by_cases h : e.1 = k
    · rw [lookup, if_pos h, List.mem_cons, Option.some.injEq]
      constructor
      · intro hv
        exact Or.inl (Prod.ext h.symm hv.symm)
      · rintro (he | hmem)
        · rw [← he]
        · exact absurd (List.mem_map_of_mem (f := Prod.fst) hmem) (h ▸ hl.1)
    · rw [lookup, if_neg h, List.mem_cons, ih hl.2]
      constructor
      · exact Or.inr
      · rintro (he | hmem)
        · exact absurd (congrArg Prod.fst he).symm h
        · exact hmem

theorem lookup_eq_none {k : κ} {l : List (κ × α)} (h : k ∉ l.map Prod.fst) :
    lookup k l = none := by
  induction l with
  | nil => rfl
  | cons e rest ih =>
    rw [List.map_cons, List.mem_cons, not_or] at h
    rw [lookup, if_neg fun he => h.1 he.symm, ih h.2]

/-- An entry of the map is what its lookups return. -/
theorem mem_entries_iff (m : InsertionMap κ α) (k : κ) (v : α) :
    (k, v) ∈ m.entries ↔ m.get k = some v :=
  (lookup_eq_some_iff m.nodup k v).symm

theorem mem_keys_iff (m : InsertionMap κ α) (k : κ) : k ∈ m.keys ↔ ∃ v, m.get k = some v := by
  simp only [keys, List.mem_map, Prod.exists, mem_entries_iff, exists_and_right, exists_eq_right]

theorem mem_values_iff (m : InsertionMap κ α) (v : α) : v ∈ m.values ↔ ∃ k, m.get k = some v := by
  simp only [values, List.mem_map, Prod.exists, mem_entries_iff, exists_eq_right]

/-- Storing entries with distinct keys one after the other stores exactly these. -/
theorem get_foldl_set {l : List (κ × α)} (hl : (l.map Prod.fst).Nodup) (m : InsertionMap κ α)
    (x : κ) :
    (l.foldl (fun m e => m.set e.1 e.2) m).get x = (lookup x l).or (m.get x) := by
  induction l generalizing m with
  | nil => rfl
  | cons e rest ih =>
    rw [List.map_cons, List.nodup_cons] at hl
    rw [List.foldl_cons, ih hl.2, get_set, lookup]
    by_cases hx : x = e.1
    · subst hx
      simp [lookup_eq_none hl.1]
    · have hx' : ¬ e.1 = x := fun h => hx h.symm
      simp [hx, hx']

/-- A map built from entries with distinct keys holds exactly these. -/
theorem get_ofList_iff {l : List (κ × α)} (hl : (l.map Prod.fst).Nodup) (k : κ) (v : α) :
    (ofList l).get k = some v ↔ (k, v) ∈ l := by
  rw [ofList, get_foldl_set hl, get_empty, Option.or_none, lookup_eq_some_iff hl]

/-- A map is rebuilt from its entries in any order. -/
theorem get_ofList_of_perm {l : List (κ × α)} {m : InsertionMap κ α} (h : l.Perm m.entries)
    (x : κ) : (ofList l).get x = m.get x := by
  have hl : (l.map Prod.fst).Nodup := (h.map Prod.fst).nodup_iff.mpr m.nodup
  ext v
  rw [get_ofList_iff hl, h.mem_iff, mem_entries_iff]

theorem mem_keys_foldl_set (l : List (κ × α)) (m : InsertionMap κ α) (x : κ) :
    x ∈ (l.foldl (fun m e => m.set e.1 e.2) m).keys ↔ x ∈ l.map Prod.fst ∨ x ∈ m.keys := by
  induction l generalizing m with
  | nil => exact (or_iff_right List.not_mem_nil).symm
  | cons e rest ih =>
    rw [List.foldl_cons, ih, List.map_cons, List.mem_cons]
    show _ ∨ x ∈ (write e.1 e.2 m.entries).map Prod.fst ↔ _
    rw [mem_keys_write, ← or_assoc, or_comm (a := x ∈ rest.map Prod.fst)]
    rfl

/-- The elements of a list, each where it first occurs. -/
def distinct (xs : List κ) : List κ :=
  (ofList (xs.map fun x => (x, ()))).keys

theorem nodup_distinct (xs : List κ) : (distinct xs).Nodup :=
  (ofList (xs.map fun x => (x, ()))).nodup

@[simp] theorem mem_distinct (xs : List κ) (x : κ) : x ∈ distinct xs ↔ x ∈ xs := by
  rw [distinct, ofList, mem_keys_foldl_set, List.map_map]
  show x ∈ xs.map id ∨ x ∈ [] ↔ x ∈ xs
  rw [List.map_id, or_iff_left List.not_mem_nil]

theorem keys_foldl_set_of_nodup {xs : List κ} (hnodup : xs.Nodup) (m : InsertionMap κ Unit)
    (hnew : ∀ x ∈ xs, x ∉ m.keys) :
    ((xs.map fun x => (x, ())).foldl (fun m e => m.set e.1 e.2) m).keys = m.keys ++ xs := by
  induction xs generalizing m with
  | nil => exact (List.append_nil _).symm
  | cons x rest ih =>
    rw [List.nodup_cons] at hnodup
    rw [List.forall_mem_cons] at hnew
    have hkeys : (m.set x ()).keys = m.keys ++ [x] := by
      show (write x () m.entries).map Prod.fst = _
      rw [write_of_not_mem () hnew.1, List.map_append]
      rfl
    rw [List.map_cons, List.foldl_cons, ih hnodup.2 (m.set x ()) ?_, hkeys, List.append_assoc]
    · rfl
    · intro y hy
      rw [hkeys, List.mem_append, List.mem_singleton]
      rintro (hold | rfl)
      · exact hnew.2 y hy hold
      · exact hnodup.1 hy

/-- A list without repetitions is its own list of distinct elements. -/
theorem distinct_of_nodup {xs : List κ} (h : xs.Nodup) : distinct xs = xs := by
  rw [distinct, ofList, keys_foldl_set_of_nodup h empty fun _ _ => List.not_mem_nil]
  rfl

/-- Fold values into the entries of their keys, one after the other. -/
def accumulate {β : Type*} (f : Option α → β → α) (l : List (κ × β)) (m : InsertionMap κ α) :
    InsertionMap κ α :=
  l.foldl (fun m e => m.set e.1 (f (m.get e.1) e.2)) m

section Accumulate

variable {β : Type*} (f : Option α → β → α)

/-- The entry of a key is what the values of that key make of it. -/
theorem get_accumulate (l : List (κ × β)) (m : InsertionMap κ α) (x : κ) :
    (accumulate f l m).get x =
      ((l.filter fun e => e.1 = x).map Prod.snd).foldl (fun v b => some (f v b)) (m.get x) := by
  induction l generalizing m with
  | nil => rfl
  | cons e rest ih =>
    show (accumulate f rest _).get x = _
    rw [ih, get_set]
    by_cases hx : e.1 = x
    · subst hx
      simp
    · have hx' : ¬ x = e.1 := fun h => hx h.symm
      simp [hx, hx']

theorem write_fst_congr {l : List (κ × α)} {l' : List (κ × β)} (k : κ) (v : α) (w : β)
    (h : l.map Prod.fst = l'.map Prod.fst) :
    (write k v l).map Prod.fst = (write k w l').map Prod.fst := by
  induction l generalizing l' with
  | nil =>
    obtain rfl : l' = [] := by simpa using h.symm
    rfl
  | cons e rest ih =>
    cases l' with
    | nil => simp at h
    | cons e' rest' =>
      obtain ⟨hhead, hrest⟩ := List.cons.inj h
      by_cases hk : e.1 = k
      · rw [write, if_pos hk, write, if_pos (hhead ▸ hk)]
        simp only [List.map_cons, hrest]
      · rw [write, if_neg hk, write, if_neg (hhead ▸ hk)]
        simp only [List.map_cons, hhead, ih hrest]

/-- The keys are in the order in which they are first written, whatever is written. -/
theorem keys_accumulate_congr {l : List (κ × β)} {m : InsertionMap κ α} {u : InsertionMap κ Unit}
    (h : m.keys = u.keys) :
    (accumulate f l m).keys = ((l.map fun e => (e.1, ())).foldl (fun m e => m.set e.1 e.2) u).keys := by
  induction l generalizing m u with
  | nil => exact h
  | cons e rest ih => exact ih (write_fst_congr e.1 _ () h)

theorem keys_accumulate (l : List (κ × β)) :
    (accumulate f l (empty : InsertionMap κ α)).keys = distinct (l.map Prod.fst) := by
  rw [keys_accumulate_congr f (u := empty) rfl, distinct, ofList, List.map_map]
  rfl

/-- The entries are the distinct keys in the order in which they are first written, each with what
    its own values make. -/
theorem entries_accumulate (l : List (κ × β)) (value : κ → α)
    (hvalue : ∀ k ∈ l.map Prod.fst, ((l.filter fun e => e.1 = k).map Prod.snd).foldl
      (fun v b => some (f v b)) none = some (value k)) :
    (accumulate f l (empty : InsertionMap κ α)).entries =
      (distinct (l.map Prod.fst)).map fun k => (k, value k) := by
  rw [← keys_accumulate f l, keys, List.map_map]
  symm
  refine (List.map_congr_left fun e he => ?_).trans (List.map_id _)
  have hget := (mem_entries_iff _ e.1 e.2).mp he
  have hkey : e.1 ∈ l.map Prod.fst := by
    rw [← mem_distinct, ← keys_accumulate f l]
    exact List.mem_map_of_mem he
  rw [get_accumulate, get_empty, hvalue _ hkey] at hget
  exact Prod.ext rfl (Option.some.inj hget)

end Accumulate

/-- Maps with the same lookups have the same entries, up to their order. -/
theorem perm_entries_of_get_eq {m m' : InsertionMap κ α} (h : ∀ k, m.get k = m'.get k) :
    m.entries.Perm m'.entries := by
  refine (List.perm_ext_iff_of_nodup m.nodup.of_map m'.nodup.of_map).mpr ?_
  rintro ⟨k, v⟩
  rw [mem_entries_iff, mem_entries_iff, h k]

/-- Store a value under a key, or remove the key. -/
def alter (m : InsertionMap κ α) (k : κ) : Option α → InsertionMap κ α
  | none => m.delete k
  | some v => m.set k v

theorem get_alter (m : InsertionMap κ α) (k : κ) (v : Option α) (x : κ) :
    (m.alter k v).get x = if x = k then v else m.get x := by
  cases v with
  | none => exact get_delete m k x
  | some v => exact get_set m k v x

/-- Altering the entries of distinct keys one after the other alters exactly these. -/
theorem get_foldl_alter (f : α → Option α) {l : List (κ × α)} (hl : (l.map Prod.fst).Nodup)
    (m : InsertionMap κ α) (x : κ) :
    (l.foldl (fun m e => m.alter e.1 (f e.2)) m).get x =
      match lookup x l with
      | none => m.get x
      | some v => f v := by
  induction l generalizing m with
  | nil => rfl
  | cons e rest ih =>
    rw [List.map_cons, List.nodup_cons] at hl
    rw [List.foldl_cons, ih hl.2, lookup, get_alter]
    by_cases hx : e.1 = x
    · subst hx
      rw [lookup_eq_none hl.1, if_pos rfl, if_pos rfl]
    · rw [if_neg hx, if_neg (Ne.symm hx)]

/-- Removing a list of keys one after the other forgets exactly these keys. -/
theorem get_foldl_delete (ks : List κ) (m : InsertionMap κ α) (x : κ) :
    (ks.foldl (fun m k => m.delete k) m).get x = if x ∈ ks then none else m.get x := by
  induction ks generalizing m with
  | nil => simp
  | cons k rest ih =>
    rw [List.foldl_cons, ih, get_delete]
    by_cases hr : x ∈ rest
    · simp [hr]
    · by_cases hk : x = k <;> simp [hr, hk]

theorem countP_write_of_lookup_none (q : κ × α → Bool) (k : κ) (v : α) {l : List (κ × α)}
    (h : lookup k l = none) :
    (write k v l).countP q = l.countP q + if q (k, v) then 1 else 0 := by
  induction l with
  | nil => simp [write, List.countP_cons]
  | cons e rest ih =>
    by_cases he : e.1 = k
    · simp [lookup, he] at h
    · rw [lookup, if_neg he] at h
      rw [write, if_neg he, List.countP_cons, List.countP_cons, ih h]
      omega

theorem countP_without (q : κ × α → Bool) (k : κ) {l : List (κ × α)}
    (hl : (l.map Prod.fst).Nodup) :
    (without k l).countP q +
      (match lookup k l with
        | none => 0
        | some v => if q (k, v) then 1 else 0) = l.countP q := by
  induction l with
  | nil => simp [without, lookup]
  | cons e rest ih =>
    rw [List.map_cons, List.nodup_cons] at hl
    by_cases h : e.1 = k
    · -- the key occurs here and, by distinctness, nowhere in the rest
      have hnone : lookup k rest = none := lookup_eq_none (h ▸ hl.1)
      have hrest := ih hl.2
      simp only [hnone] at hrest
      have he : (k, e.2) = e := Prod.ext h.symm rfl
      rw [without, if_pos h, lookup, if_pos h, List.countP_cons]
      simp only [he]
      omega
    · rw [without, if_neg h, lookup, if_neg h, List.countP_cons, List.countP_cons, ← ih hl.2]
      omega

/-- A new key adds its own entry to a count. -/
theorem count_set_of_get_none (p : κ → α → Bool) (m : InsertionMap κ α) (k : κ) (v : α)
    (h : m.get k = none) :
    (m.set k v).count p = m.count p + if p k v then 1 else 0 :=
  countP_write_of_lookup_none (fun e => p e.1 e.2) k v h

/-- Removing a key takes its own entry out of a count. -/
theorem count_delete_add (p : κ → α → Bool) (m : InsertionMap κ α) {k : κ} {v : α}
    (h : m.get k = some v) :
    (m.delete k).count p + (if p k v then 1 else 0) = m.count p := by
  have hc := countP_without (fun e : κ × α => p e.1 e.2) k m.nodup
  have hl : lookup k m.entries = some v := h
  rw [hl] at hc
  exact hc

omit [DecidableEq κ] in
theorem count_true (m : InsertionMap κ α) : m.count (fun _ _ => true) = m.size :=
  congrFun List.countP_true m.entries

/-- Storing a value under a new key makes the map larger by one. -/
theorem size_set_of_get_none (m : InsertionMap κ α) {k : κ} (v : α) (h : m.get k = none) :
    (m.set k v).size = m.size + 1 := by
  have hcount := count_set_of_get_none (fun _ _ => true) m k v h
  rwa [count_true, count_true, if_pos rfl] at hcount

/-- Removing a key that is stored makes the map smaller by one. -/
theorem size_delete_add_one (m : InsertionMap κ α) {k : κ} {v : α} (h : m.get k = some v) :
    (m.delete k).size + 1 = m.size := by
  have hcount := count_delete_add (fun _ _ => true) m h
  rwa [count_true, count_true, if_pos rfl] at hcount

theorem keys_write_of_lookup_some {k : κ} {w : α} (v : α) {l : List (κ × α)}
    (h : lookup k l = some w) : (write k v l).map Prod.fst = l.map Prod.fst := by
  induction l with
  | nil => cases h
  | cons e rest ih =>
    by_cases he : e.1 = k
    · rw [write, if_pos he, List.map_cons, List.map_cons, he]
    · rw [lookup, if_neg he] at h
      rw [write, if_neg he, List.map_cons, List.map_cons, ih h]

/-- Overwriting a value keeps the keys in their places. -/
theorem keys_set_of_get_some (m : InsertionMap κ α) {k : κ} {w : α} (v : α)
    (h : m.get k = some w) : (m.set k v).keys = m.keys :=
  keys_write_of_lookup_some v h

/-- Overwriting a value does not change the size. -/
theorem size_set_of_get_some (m : InsertionMap κ α) {k : κ} {w : α} (v : α)
    (h : m.get k = some w) : (m.set k v).size = m.size := by
  have hlength := congrArg List.length (m.keys_set_of_get_some v h)
  rwa [keys, keys, List.length_map, List.length_map] at hlength

/-- The oldest key of a map is one of its keys. -/
theorem get_of_head?_keys (m : InsertionMap κ α) {k : κ} (h : m.keys.head? = some k) :
    ∃ v, m.get k = some v :=
  (m.mem_keys_iff k).mp (List.mem_of_mem_head? h)

theorem without_write (k : κ) (v : α) (l : List (κ × α)) :
    without k (write k v l) = without k l := by
  induction l with
  | nil => simp [write, without]
  | cons e rest ih =>
    by_cases h : e.1 = k
    · simp [write, without, h]
    · simp [write, without, h, ih]

theorem without_eq_self {k : κ} {l : List (κ × α)} (h : k ∉ l.map Prod.fst) :
    without k l = l := by
  induction l with
  | nil => rfl
  | cons e rest ih =>
    rw [List.map_cons, List.mem_cons, not_or] at h
    rw [without, if_neg fun he => h.1 he.symm, ih h.2]

theorem delete_set (m : InsertionMap κ α) (k : κ) (v : α) :
    (m.set k v).delete k = m.delete k := by
  simp only [delete, set, without_write]

theorem delete_of_get_none (m : InsertionMap κ α) {k : κ} (h : m.get k = none) :
    m.delete k = m := by
  have hk : k ∉ m.entries.map Prod.fst := by
    intro hmem
    obtain ⟨v, hv⟩ := (m.mem_keys_iff k).mp hmem
    rw [h] at hv
    cases hv
  simp only [delete, without_eq_self hk]

theorem perm_write (k : κ) (v : α) {l : List (κ × α)} (hl : (l.map Prod.fst).Nodup) :
    (write k v l).Perm ((k, v) :: without k l) := by
  induction l with
  | nil => exact .refl _
  | cons e rest ih =>
    rw [List.map_cons, List.nodup_cons] at hl
    by_cases he : e.1 = k
    · rw [write, if_pos he, without, if_pos he, without_eq_self (he ▸ hl.1)]
    · rw [write, if_neg he, without, if_neg he]
      exact ((ih hl.2).cons e).trans (.swap _ _ _)

/-- Storing a value puts its entry next to those of the other keys. -/
theorem perm_entries_set (m : InsertionMap κ α) (k : κ) (v : α) :
    (m.set k v).entries.Perm ((k, v) :: (m.delete k).entries) :=
  perm_write k v m.nodup

theorem entries_delete (m : InsertionMap κ α) (k : κ) :
    (m.delete k).entries = m.entries.filter (·.1 ≠ k) := by
  show without k m.entries = _
  induction m.entries with
  | nil => rfl
  | cons e rest ih =>
    by_cases he : e.1 = k
    · rw [without, if_pos he, ih, List.filter_cons_of_neg (by simpa using he)]
    · rw [without, if_neg he, ih, List.filter_cons_of_pos (by simpa using he)]

theorem entries_foldl_delete (ks : List κ) (m : InsertionMap κ α) :
    (ks.foldl (fun m k => m.delete k) m).entries = m.entries.filter (·.1 ∉ ks) := by
  induction ks generalizing m with
  | nil => simp
  | cons k rest ih =>
    rw [List.foldl_cons, ih, entries_delete, List.filter_filter]
    refine List.filter_congr fun e _ => ?_
    simp [Bool.and_comm]

/-- Removing the keys with a property keeps the entries without it. -/
theorem entries_foldl_delete_filter (p : κ → Bool) (m : InsertionMap κ α) :
    ((m.keys.filter p).foldl (fun m k => m.delete k) m).entries =
      m.entries.filter fun e => !p e.1 := by
  rw [entries_foldl_delete]
  refine List.filter_congr fun e he => ?_
  have hkey : e.1 ∈ m.keys := List.mem_map_of_mem he
  simp [List.mem_filter, hkey]

section MapValues

variable {β : Type*} (f : κ → α → β)

omit [DecidableEq κ] in
theorem nodup_mapValues (m : InsertionMap κ α) :
    ((m.entries.map fun e => (e.1, f e.1 e.2)).map Prod.fst).Nodup := by
  rw [List.map_map]
  exact m.nodup

/-- The map with every value replaced. -/
def mapValues (m : InsertionMap κ α) : InsertionMap κ β :=
  ⟨m.entries.map fun e => (e.1, f e.1 e.2), m.nodup_mapValues f⟩

theorem lookup_map (k : κ) (l : List (κ × α)) :
    lookup k (l.map fun e => (e.1, f e.1 e.2)) = (lookup k l).map (f k) := by
  induction l with
  | nil => rfl
  | cons e rest ih =>
    by_cases he : e.1 = k
    · rw [List.map_cons, lookup, if_pos he, lookup, if_pos he, he]
      rfl
    · rw [List.map_cons, lookup, if_neg he, lookup, if_neg he, ih]

theorem write_map (k : κ) (v : α) (l : List (κ × α)) :
    write k (f k v) (l.map fun e => (e.1, f e.1 e.2)) =
      (write k v l).map fun e => (e.1, f e.1 e.2) := by
  induction l with
  | nil => rfl
  | cons e rest ih =>
    by_cases he : e.1 = k
    · rw [List.map_cons, write, if_pos he, write, if_pos he, List.map_cons]
    · rw [List.map_cons, write, if_neg he, write, if_neg he, List.map_cons, ih]

theorem get_mapValues (m : InsertionMap κ α) (k : κ) :
    (m.mapValues f).get k = (m.get k).map (f k) :=
  lookup_map f k m.entries

theorem mapValues_set (m : InsertionMap κ α) (k : κ) (v : α) :
    (m.set k v).mapValues f = (m.mapValues f).set k (f k v) :=
  InsertionMap.ext (write_map f k v m.entries).symm

theorem mapValues_delete (m : InsertionMap κ α) (k : κ) :
    (m.delete k).mapValues f = (m.mapValues f).delete k := by
  apply InsertionMap.ext
  rw [entries_delete]
  show (m.delete k).entries.map _ = (m.entries.map _).filter _
  rw [entries_delete, List.filter_map]
  rfl

end MapValues

section Evict

/-- Make room in a map that is full: the key that was inserted first goes. -/
def evict (limit : ℕ) (m : InsertionMap κ α) : InsertionMap κ α :=
  if limit ≤ m.size then (m.keys.head?).elim m m.delete else m

theorem get_evict_of_some {limit : ℕ} {m : InsertionMap κ α} {k : κ} {v : α}
    (h : (m.evict limit).get k = some v) : m.get k = some v := by
  rw [evict] at h
  split_ifs at h
  · cases hhead : m.keys.head? with
    | none => rwa [hhead] at h
    | some oldest =>
      rw [hhead, Option.elim_some, get_delete] at h
      split_ifs at h
      exact h
  · exact h

theorem mapValues_evict {β : Type*} (f : κ → α → β) (limit : ℕ) (m : InsertionMap κ α) :
    (m.evict limit).mapValues f = (m.mapValues f).evict limit := by
  have hsize : (m.mapValues f).size = m.size := List.length_map _
  have hkeys : (m.mapValues f).keys = m.keys := by
    show (m.entries.map _).map _ = m.entries.map _
    rw [List.map_map]
    rfl
  rw [evict, evict, hsize, hkeys]
  split_ifs
  · cases m.keys.head? with
    | none => rfl
    | some oldest => exact mapValues_delete f m oldest
  · rfl

end Evict

section Total

variable {β : Type*} [AddCommMonoid β]

theorem sum_without_add (f : κ → α → β) {k : κ} {v : α} {l : List (κ × α)}
    (hl : (l.map Prod.fst).Nodup) (h : lookup k l = some v) :
    ((without k l).map fun e => f e.1 e.2).sum + f k v = (l.map fun e => f e.1 e.2).sum := by
  induction l with
  | nil => cases h
  | cons e rest ih =>
    rw [List.map_cons, List.nodup_cons] at hl
    by_cases he : e.1 = k
    · rw [lookup, if_pos he, Option.some.injEq] at h
      rw [without, if_pos he, without_eq_self (he ▸ hl.1), List.map_cons, List.sum_cons, he, h,
        add_comm]
    · rw [lookup, if_neg he] at h
      rw [without, if_neg he, List.map_cons, List.sum_cons, List.map_cons, List.sum_cons, add_assoc,
        ih hl.2 h]

omit [DecidableEq κ] in
@[simp] theorem total_empty (f : κ → α → β) : (empty : InsertionMap κ α).total f = 0 :=
  rfl

/-- Removing a key takes its own entry out of a total. -/
theorem total_delete_add (f : κ → α → β) (m : InsertionMap κ α) {k : κ} {v : α}
    (h : m.get k = some v) : (m.delete k).total f + f k v = m.total f :=
  sum_without_add f m.nodup h

/-- Storing a value adds it to what the other keys sum up to. -/
theorem total_set (f : κ → α → β) (m : InsertionMap κ α) (k : κ) (v : α) :
    (m.set k v).total f = (m.delete k).total f + f k v := by
  rw [← total_delete_add f (m.set k v) (m.get_set_self k v), delete_set]

/-- A total reads its measure at the stored entries only. -/
theorem total_congr {f g : κ → α → β} {m : InsertionMap κ α}
    (h : ∀ k v, m.get k = some v → f k v = g k v) : m.total f = m.total g := by
  refine congrArg List.sum (List.map_congr_left fun e he => ?_)
  exact h e.1 e.2 ((m.mem_entries_iff e.1 e.2).mp he)

/-- A total of amounts that are not negative is zero iff all of them are. -/
theorem total_eq_zero_iff [PartialOrder β] [IsOrderedAddMonoid β] {f : κ → α → β}
    {m : InsertionMap κ α} (hf : ∀ k v, 0 ≤ f k v) :
    m.total f = 0 ↔ ∀ k v, m.get k = some v → f k v = 0 := by
  have hnonneg : ∀ x ∈ m.entries.map fun e => f e.1 e.2, 0 ≤ x := by
    intro x hx
    obtain ⟨e, -, rfl⟩ := List.mem_map.mp hx
    exact hf e.1 e.2
  constructor
  · intro hzero k v hget
    have hmem := @List.mem_map_of_mem _ _ _ _ (fun e => f e.1 e.2) ((m.mem_entries_iff k v).mpr hget)
    exact List.all_zero_of_le_zero_le_of_sum_eq_zero hnonneg hzero hmem
  · intro hzero
    refine List.sum_eq_zero fun x hx => ?_
    obtain ⟨e, he, rfl⟩ := List.mem_map.mp hx
    exact hzero e.1 e.2 ((m.mem_entries_iff e.1 e.2).mp he)

end Total

end InsertionMap
