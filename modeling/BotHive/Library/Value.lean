import Mathlib.Data.Rat.Defs

/-!
# Dynamic values

The values of a dynamically typed scripting language that a decoded document can
hold, together with `undefined` and with functions, which are found on the
prototypes of objects. A field of an object is its own field of that name, else
what `inherited` finds.
-/

inductive Value where
  | undefined
  | null
  | bool (b : Bool)
  | num (q : ℚ)
  | str (s : String)
  | arr (items : List Value)
  | obj (fields : List (String × Value))
  | func (name : String)

namespace Value

/-- Whether the value is `undefined` or `null`. -/
def isNullish : Value → Bool
  | .undefined | .null => true
  | _ => false

/-- The value, or a default in place of `undefined` and `null`. -/
def orElse (v fallback : Value) : Value :=
  if v.isNullish then fallback else v

theorem orElse_of_not_nullish {v : Value} (hv : v.isNullish = false) (fallback : Value) :
    v.orElse fallback = v := by
  rw [orElse, hv, if_neg Bool.false_ne_true]

@[simp] theorem undefined_orElse (fallback : Value) : undefined.orElse fallback = fallback :=
  rfl

/-- The first field of a name. -/
def ownField (name : String) : List (String × Value) → Option Value
  | [] => none
  | e :: rest => if e.1 = name then some e.2 else ownField name rest

/-- The item of a list under a decimal index. -/
def ownItem (name : String) (items : List Value) : Option Value :=
  (name.toNat?.filter fun i => toString i = name).bind fun i => items[i]?

/-- The member of an object or list; every other value has none. -/
def member (inherited : Value → String → Value) (v : Value) (name : String) : Value :=
  match v with
  | .obj fields => (ownField name fields).getD (inherited v name)
  | .arr items =>
    if name = "length" then .num items.length
    else (ownItem name items).getD (inherited v name)
  | _ => .undefined

end Value
