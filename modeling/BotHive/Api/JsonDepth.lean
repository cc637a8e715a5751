import Mathlib.Data.List.Basic
import Mathlib.Data.List.Chain
import Mathlib.Data.Nat.Basic
import Mathlib.Order.MinMax
import BotHive.Library.Value

/-!
# The depth of JSON bodies

The parser of request bodies measures how deeply a value is nested and stops at `MAX_JSON_DEPTH`.
Above that depth a scalar adds nothing to the measure; at that depth everything counts as too deep,
so that a value with something inside its twentieth container is refused even if that is a scalar.

## Main definitions

- `jsonDepth`, `parseJsonBody`
- `Nested`, `TooDeep`: paths through nested arrays and objects
- `inside`: what lies inside a number of nested arrays and objects

## Main results

- `lt_jsonDepth_iff`: what the parser refuses
- `depthRejects_iff`: when that is what is nested too deeply
-/

namespace BotHive.Api

def MAX_JSON_DEPTH : ℕ := 20

section Parser

mutual

def jsonDepth (value : Value) (depth : ℕ) : ℕ :=
  if depth ≥ MAX_JSON_DEPTH then depth + 1
  else
    match value with
    | .arr items => depthOfItems items depth (depth + 1)
    | .obj fields => depthOfFields fields depth (depth + 1)
    | _ => depth

/-- The loop over the items of an array. -/
def depthOfItems (items : List Value) (depth deepest : ℕ) : ℕ :=
  match items with
  | [] => deepest
  | item :: rest => depthOfItems rest depth (max deepest (jsonDepth item (depth + 1)))

/-- The loop over the keys of an object. -/
def depthOfFields (fields : List (String × Value)) (depth deepest : ℕ) : ℕ :=
  match fields with
  | [] => deepest
  | (_, value) :: rest => depthOfFields rest depth (max deepest (jsonDepth value (depth + 1)))

end

structure ParserError where
  message : String
  statusCode : ℕ
  deriving DecidableEq

def depthError : ParserError where
  message := s!"Request body JSON exceeds maximum depth of {MAX_JSON_DEPTH}"
  statusCode := 400

/-- The parser of `application/json` bodies, with `JSON.parse` as a parameter. -/
def parseJsonBody (parse : String → Except String Value) (body : String) :
    Except ParserError Value :=
  match parse body with
  | .ok parsed => if jsonDepth parsed 0 > MAX_JSON_DEPTH then .error depthError else .ok parsed
  | .error message => .error ⟨message, 400⟩

end Parser

section Depth

def isContainer : Value → Bool
  | .arr _ | .obj _ => true
  | _ => false

/-- What an array or an object holds. -/
def contents : Value → List Value
  | .arr items => items
  | .obj fields => fields.map Prod.snd
  | _ => []

/-- A path through arrays and objects, from a value inwards. -/
structure Nested (value : Value) (path : List Value) : Prop where
  first : path.head? = some value
  chain : path.IsChain fun outer inner => inner ∈ contents outer
  containers : ∀ v ∈ path, isContainer v = true

/-- Some path passes through more nested arrays and objects than are allowed. -/
def TooDeep (value : Value) : Prop :=
  ∃ path, Nested value path ∧ MAX_JSON_DEPTH < path.length

/-- What lies inside `n` nested arrays and objects. -/
def inside : ℕ → Value → List Value
  | 0, value => [value]
  | n + 1, value => (contents value).flatMap (inside n)

end Depth

variable {value v : Value} {path : List Value} {depth deepest n : ℕ}

theorem lt_depthOfItems (limit : ℕ) (items : List Value) :
    limit < depthOfItems items depth deepest ↔
      limit < deepest ∨ ∃ v ∈ items, limit < jsonDepth v (depth + 1) := by
  induction items generalizing deepest with
  | nil =>
    rw [depthOfItems]
    simp
  | cons item rest ih =>
    rw [depthOfItems, ih, lt_max_iff, or_assoc]
    simp only [List.mem_cons, exists_eq_or_imp]

theorem depthOfFields_eq (fields : List (String × Value)) :
    depthOfFields fields depth deepest = depthOfItems (fields.map Prod.snd) depth deepest := by
  induction fields generalizing deepest with
  | nil => rw [depthOfFields, List.map_nil, depthOfItems]
  | cons field rest ih => rw [depthOfFields, List.map_cons, depthOfItems, ih]

/-- Above the limit a value is as deep as its contents say. -/
theorem lt_jsonDepth_of_lt (h : depth < MAX_JSON_DEPTH) :
    MAX_JSON_DEPTH < jsonDepth value depth ↔
      ∃ v ∈ contents value, MAX_JSON_DEPTH < jsonDepth v (depth + 1) := by
  have hnot : ¬depth ≥ MAX_JSON_DEPTH := Nat.not_le.mpr h
  cases value with
  | arr items =>
    rw [jsonDepth, if_neg hnot, lt_depthOfItems, contents, or_iff_right (Nat.not_lt.mpr h)]
  | obj fields =>
    rw [jsonDepth, if_neg hnot, depthOfFields_eq, lt_depthOfItems, contents,
      or_iff_right (Nat.not_lt.mpr h)]
  | undefined | null | bool | num | str | func =>
    have hscalar : ¬MAX_JSON_DEPTH < depth := Nat.not_lt.mpr h.le
    simp [jsonDepth, hnot, hscalar, contents]

/-- A value is refused exactly if something lies inside as many nested arrays and objects as are
    left. -/
theorem lt_jsonDepth_iff (hn : depth + n = MAX_JSON_DEPTH) :
    MAX_JSON_DEPTH < jsonDepth value depth ↔ inside n value ≠ [] := by
  induction n generalizing value depth with
  | zero =>
    have hlimit : depth ≥ MAX_JSON_DEPTH := Nat.le_of_eq hn.symm
    rw [jsonDepth.eq_def, if_pos hlimit]
    exact iff_of_true (Nat.lt_succ_of_le hlimit) (List.cons_ne_nil _ _)
  | succ n ih =>
    rw [lt_jsonDepth_of_lt (by omega), inside, Ne, List.flatMap_eq_nil_iff, not_forall]
    simp only [ih (show depth + 1 + n = MAX_JSON_DEPTH by omega), Classical.not_imp, Ne]

section Paths

theorem isContainer_of_mem (h : v ∈ contents value) : isContainer value = true := by
  cases value with
  | arr | obj => rfl
  | undefined | null | bool | num | str | func => cases h

theorem Nested.take (h : Nested value path) (n : ℕ) : Nested value (path.take (n + 1)) where
  first := by
    rw [List.head?_take, if_neg (Nat.succ_ne_zero n), h.first]
  chain := h.chain.take _
  containers v hv := h.containers v (List.mem_of_mem_take hv)

theorem Nested.cons (hmem : v ∈ contents value) (h : Nested v path) :
    Nested value (value :: path) where
  first := rfl
  chain := by
    obtain ⟨rest, rfl⟩ := List.head?_eq_some_iff.mp h.first
    exact h.chain.cons_cons hmem
  containers := List.forall_mem_cons.mpr ⟨isContainer_of_mem hmem, h.containers⟩

/-- Paths of a length end in the arrays and objects that lie inside one container less. -/
theorem exists_nested_iff :
    (∃ path, Nested value path ∧ path.length = n + 1) ↔
      ∃ v ∈ inside n value, isContainer v = true := by
  induction n generalizing value with
  | zero =>
    simp only [inside, List.mem_singleton, exists_eq_left]
    constructor
    · rintro ⟨path, hpath, -⟩
      exact hpath.containers value (List.mem_of_mem_head? hpath.first)
    · intro hvalue
      refine ⟨[value], ⟨rfl, List.isChain_singleton _, ?_⟩, rfl⟩
      rintro v hv
      rwa [List.mem_singleton.mp hv]
  | succ n ih =>
    simp only [inside, List.mem_flatMap]
    constructor
    · rintro ⟨path, hpath, hlength⟩
      obtain ⟨rest, rfl⟩ := List.head?_eq_some_iff.mp hpath.first
      obtain - | ⟨v, rest⟩ := rest
      · cases hlength
      · have hchain := List.isChain_cons_cons.mp hpath.chain
        have hinner : Nested v (v :: rest) :=
          ⟨rfl, hchain.2, (List.forall_mem_cons.mp hpath.containers).2⟩
        obtain ⟨w, hw, hcontainer⟩ := ih.mp ⟨v :: rest, hinner, Nat.succ.inj hlength⟩
        exact ⟨w, ⟨v, hchain.1, hw⟩, hcontainer⟩
    · rintro ⟨w, ⟨v, hv, hw⟩, hcontainer⟩
      obtain ⟨path, hpath, hlength⟩ := ih.mpr ⟨w, hw, hcontainer⟩
      exact ⟨value :: path, hpath.cons hv, congrArg (· + 1) hlength⟩

theorem tooDeep_iff :
    TooDeep value ↔ ∃ v ∈ inside MAX_JSON_DEPTH value, isContainer v = true := by
  rw [← exists_nested_iff]
  constructor
  · rintro ⟨path, hpath, hlength⟩
    refine ⟨path.take (MAX_JSON_DEPTH + 1), hpath.take _, ?_⟩
    rw [List.length_take, Nat.min_eq_left hlength]
  · rintro ⟨path, hpath, hlength⟩
    exact ⟨path, hpath, hlength ▸ Nat.lt_succ_self _⟩

end Paths

/-- **Depth of bodies**: the parser rejects for their depth exactly the values with a path that is too
    long, unless something lies inside twenty nested arrays and objects and all that lies there are
    scalars. -/
theorem depthRejects_iff {parse : String → Except String Value} {body : String}
    (hparse : parse body = .ok value) :
    (parseJsonBody parse body = .error depthError ↔ TooDeep value) ↔
      (inside MAX_JSON_DEPTH value = [] ∨
        ∃ v ∈ inside MAX_JSON_DEPTH value, isContainer v = true) := by
  have hrejects : parseJsonBody parse body = .error depthError ↔
      inside MAX_JSON_DEPTH value ≠ [] := by
    rw [← lt_jsonDepth_iff (Nat.zero_add _), parseJsonBody, hparse]
    dsimp only
    split_ifs with hdepth
    · exact iff_of_true rfl hdepth
    · exact iff_of_false nofun hdepth
  rw [hrejects, tooDeep_iff]
  constructor
  · intro h
    by_cases hnil : inside MAX_JSON_DEPTH value = []
    · exact .inl hnil
    · exact .inr (h.mp hnil)
  · rintro (hnil | hcontainer)
    · rw [hnil]
      exact iff_of_false (fun h => h rfl) (by simp)
    · obtain ⟨v, hv, -⟩ := id hcontainer
      exact iff_of_true (List.ne_nil_of_mem hv) hcontainer

section Arrays

/-- A number inside as many arrays. -/
def inArrays : ℕ → Value
  | 0 => .num 1
  | n + 1 => .arr [inArrays n]

theorem depthRejects_inArrays :
    parseJsonBody (fun _ => .ok (inArrays 1)) "[1]" = .error depthError ↔ TooDeep (inArrays 1) :=
  (depthRejects_iff rfl).mpr (.inl rfl)

/-- A number inside twenty arrays is rejected, though no path passes through more than twenty. -/
theorem rejects_inArrays :
    parseJsonBody (fun _ => .ok (inArrays 20)) "[[[[[[[[[[[[[[[[[[[[1]]]]]]]]]]]]]]]]]]]]" =
        .error depthError ∧
      ¬TooDeep (inArrays 20) := by
  refine ⟨rfl, ?_⟩
  rw [tooDeep_iff]
  rintro ⟨v, hv, hcontainer⟩
  obtain rfl : v = .num 1 := List.mem_singleton.mp hv
  cases hcontainer

end Arrays

end BotHive.Api
