import BotHive.Library.InsertionMap
import BotHive.Library.Value
import Mathlib.Data.List.Basic
import Mathlib.Data.List.Perm.Basic
import Mathlib.Tactic.Common

/-!
# Objects and their JSON copies

An object lists its fields in property order: names that are array indices come
first, in ascending order, all others follow in the order of their creation.
Writing a value as JSON text and reading the text back copies it: fields that
hold `undefined` or a function are dropped, such items of a list become `null`,
and everything else keeps its value.

## Main definitions

- `Value.propertyOrder`: the order in which an object lists its fields
- `Value.fromEntries`, `Value.entries`: objects built from, and read as, lists of entries
- `Value.jsonCopy`: the value read back from the JSON text of a value
-/

namespace Value

variable {α β : Type*}

/-- Read decimal digits behind a number that has been read before. -/
def digits? : ℕ → List Char → Option ℕ
  | n, [] => some n
  | n, c :: rest => if c.isDigit then digits? (10 * n + (c.toNat - '0'.toNat)) rest else none

/-- The array index that a property name spells: a decimal without leading zeros
    below `2 ^ 32 - 1`. -/
def arrayIndex? (name : String) : Option ℕ :=
  match name.toList with
  | [] => none
  | ['0'] => some 0
  | '0' :: _ => none
  | digits => (digits? 0 digits).filter (· < 2 ^ 32 - 1)

/-- The fields of an object in property order. -/
def propertyOrder (fields : List (String × α)) : List (String × α) :=
  (fields.filter fun e => (arrayIndex? e.1).isSome).mergeSort
      (fun a b => (arrayIndex? a.1).getD 0 ≤ (arrayIndex? b.1).getD 0) ++
    fields.filter fun e => !(arrayIndex? e.1).isSome

/-- The object with the given fields; their names are distinct. -/
def fromEntries (fields : List (String × Value)) : Value :=
  .obj (propertyOrder fields)

/-- The enumerable fields of an object and the items of a list. A string lists its
    characters, which are left out here; the other values list nothing. -/
def entries : Value → List (String × Value)
  | .obj fields => fields
  | .arr items => items.zipIdx.map fun e => (toString e.2, e.1)
  | _ => []

/-- A field of an object without inherited ones. -/
def field (v : Value) (name : String) : Value :=
  v.member (fun _ _ => .undefined) name

def text? : Value → Option String
  | .str s => some s
  | _ => none

def number? : Value → Option ℚ
  | .num q => some q
  | _ => none

def natural? : Value → Option ℕ
  | .num q => if q.den = 1 ∧ 0 ≤ q.num then some q.num.toNat else none
  | _ => none

/-- Read `null` or what `read` accepts. -/
def nullOr {α : Type*} (read : Value → Option α) : Value → Option (Option α)
  | .null => some none
  | v => (read v).map some

mutual

/-- The value read back from the JSON text, if the value has one. -/
def jsonCopy : Value → Option Value
  | .undefined => none
  | .func _ => none
  | .arr items => some (.arr (copyItems items))
  | .obj fields => some (fromEntries (copyFields fields))
  | .null => some .null
  | .bool b => some (.bool b)
  | .num q => some (.num q)
  | .str s => some (.str s)

def copyItems : List Value → List Value
  | [] => []
  | v :: rest => (jsonCopy v).getD .null :: copyItems rest

def copyFields : List (String × Value) → List (String × Value)
  | [] => []
  | (name, v) :: rest =>
    match jsonCopy v with
    | none => copyFields rest
    | some w => (name, w) :: copyFields rest

end

@[simp] theorem natural?_natCast (n : ℕ) : natural? (.num n) = some n := by
  simp [natural?]

theorem jsonCopy_num (q : ℚ) : jsonCopy (.num q) = some (.num q) := by
  rw [jsonCopy]

/-- A field is read like the entry of a map. -/
theorem ownField_eq_lookup (name : String) (fields : List (String × Value)) :
    ownField name fields = InsertionMap.lookup name fields := by
  induction fields with
  | nil => rfl
  | cons e rest ih => rw [ownField, InsertionMap.lookup, ih]

theorem perm_propertyOrder (fields : List (String × α)) : (propertyOrder fields).Perm fields := by
  have hsort := List.mergeSort_perm (fields.filter fun e => (arrayIndex? e.1).isSome)
    (fun a b => decide ((arrayIndex? a.1).getD 0 ≤ (arrayIndex? b.1).getD 0))
  exact (hsort.append_right _).trans (List.filter_append_perm _ fields)

/-- Without array indices the fields stay in the order of their creation. -/
theorem propertyOrder_of_no_index {fields : List (String × α)}
    (h : ∀ name ∈ fields.map Prod.fst, arrayIndex? name = none) :
    propertyOrder fields = fields := by
  have hindex : fields.filter (fun e => (arrayIndex? e.1).isSome) = [] := by
    rw [List.filter_eq_nil_iff]
    intro e he
    simp [h e.1 (List.mem_map_of_mem he)]
  have hother : fields.filter (fun e => !(arrayIndex? e.1).isSome) = fields := by
    rw [List.filter_eq_self]
    intro e he
    simp [h e.1 (List.mem_map_of_mem he)]
  rw [propertyOrder, hindex, hother, List.mergeSort_nil, List.nil_append]

/-- The property order looks at the names only. -/
theorem propertyOrder_map (f : α → β) (fields : List (String × α)) :
    propertyOrder (fields.map (Prod.map id f)) = (propertyOrder fields).map (Prod.map id f) := by
  have hsort : ((fields.filter fun e => (arrayIndex? e.1).isSome).mergeSort
      (fun a b => (arrayIndex? a.1).getD 0 ≤ (arrayIndex? b.1).getD 0)).map (Prod.map id f) =
      ((fields.filter fun e => (arrayIndex? e.1).isSome).map (Prod.map id f)).mergeSort
        (fun a b => (arrayIndex? a.1).getD 0 ≤ (arrayIndex? b.1).getD 0) :=
    List.map_mergeSort fun _ _ _ _ => rfl
  rw [propertyOrder, propertyOrder, List.map_append, List.filter_map, List.filter_map, hsort]
  rfl

/-- Fields that are copied unchanged. -/
theorem copyFields_eq_self {fields : List (String × Value)}
    (h : ∀ e ∈ fields, jsonCopy e.2 = some e.2) : copyFields fields = fields := by
  induction fields with
  | nil => rw [copyFields]
  | cons e rest ih =>
    have he : jsonCopy e.2 = some e.2 := h e List.mem_cons_self
    have hrest := ih fun x hx => h x (List.mem_cons_of_mem e hx)
    rw [copyFields, he, hrest]

/-- An object of values that are copied unchanged, without array indices. -/
theorem jsonCopy_obj {fields : List (String × Value)}
    (hnames : ∀ name ∈ fields.map Prod.fst, arrayIndex? name = none)
    (hcopy : ∀ e ∈ fields, jsonCopy e.2 = some e.2) :
    jsonCopy (.obj fields) = some (.obj fields) := by
  rw [jsonCopy, fromEntries, copyFields_eq_self hcopy, propertyOrder_of_no_index hnames]
end Value
