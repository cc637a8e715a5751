import Mathlib.Data.Set.Function
import Mathlib.Tactic.Common

/-!
# Promises

Promises without values, each under a name. A promise is pending or settled, and has the reactions
that have not been run yet. A reaction of a settled promise is ready to run: those of one promise run
in their order, and those of several promises in any order, that of a queue of microtasks among them.

## Main definitions

- `Promises.catchAll`, `Promises.andThen`, `Promises.follow`: a promise that is made from another
- `Promises.ready?`: the reaction of a promise that may run

## Main results

- `Promises.eqOn_make`, `Promises.eqOn_modify`: what is done to one promise leaves the others alone
- `Promises.EqOn.make`, `Promises.EqOn.modify`: the same is done to promises that agree
-/

/-- How a promise is settled. -/
inductive Settlement (E : Type*)
  | fulfilled
  | rejected (error : E)
  deriving DecidableEq

/-- What is to be done when a promise is settled. -/
inductive Reaction (I K : Type*)
  /-- `catch(() => undefined)`: the target is fulfilled in any case. -/
  | recover (target : I)
  /-- `then(callback)`: the target follows what the callback returns. -/
  | andThen (callback : K) (target : I)
  /-- The target is settled in the same way. -/
  | adopt (target : I)
  deriving DecidableEq

structure PromiseCell (I K E : Type*) where
  settlement : Option (Settlement E)
  reactions : List (Reaction I K)
  deriving DecidableEq

/-- The promises that have been made. -/
abbrev Promises (I K E : Type*) := I → Option (PromiseCell I K E)

namespace Promises

variable {I K E : Type*} [DecidableEq I]

def make (ps : Promises I K E) (name : I) (settlement : Option (Settlement E)) : Promises I K E :=
  Function.update ps name (some ⟨settlement, []⟩)

def modify (ps : Promises I K E) (name : I) (f : PromiseCell I K E → PromiseCell I K E) :
    Promises I K E :=
  Function.update ps name ((ps name).map f)

/-- A promise that is settled already stays as it is. -/
def settle (ps : Promises I K E) (name : I) (settlement : Settlement E) : Promises I K E :=
  ps.modify name fun cell => { cell with settlement := cell.settlement.or (some settlement) }

def subscribe (ps : Promises I K E) (name : I) (reaction : Reaction I K) : Promises I K E :=
  ps.modify name fun cell => { cell with reactions := cell.reactions ++ [reaction] }

/-- `target = promise.catch(() => undefined)` -/
def catchAll (ps : Promises I K E) (name target : I) : Promises I K E :=
  (ps.make target none).subscribe name (.recover target)

/-- `target = promise.then(callback)` -/
def andThen (ps : Promises I K E) (name : I) (callback : K) (target : I) : Promises I K E :=
  (ps.make target none).subscribe name (.andThen callback target)

/-- `target` is settled as `name` will be. -/
def follow (ps : Promises I K E) (name target : I) : Promises I K E :=
  ps.subscribe name (.adopt target)

/-- The reaction of a settled promise that is run next. -/
def ready? (ps : Promises I K E) (name : I) : Option (Reaction I K × Settlement E) :=
  match ps name with
  | some ⟨some settlement, reaction :: _⟩ => some (reaction, settlement)
  | _ => none

def dequeue (ps : Promises I K E) (name : I) : Promises I K E :=
  ps.modify name fun cell => { cell with reactions := cell.reactions.tail }

variable {ps qs : Promises I K E} {name : I} {names : Set I} {settlement : Option (Settlement E)}
  {f : PromiseCell I K E → PromiseCell I K E}

omit [DecidableEq I] in
theorem ready?_eq_some {reaction : Reaction I K} {o : Settlement E} :
    ps.ready? name = some (reaction, o) ↔ ∃ rest, ps name = some ⟨some o, reaction :: rest⟩ := by
  rw [ready?]
  split
  next o' reaction' rest hcell => simp [hcell, and_comm]
  next hcell =>
    refine iff_of_false nofun ?_
    rintro ⟨rest, hrest⟩
    exact hcell _ _ _ hrest

theorem make_apply (other : I) :
    ps.make name settlement other = if other = name then some ⟨settlement, []⟩ else ps other :=
  Function.update_apply _ _ _ _

theorem modify_apply (other : I) :
    ps.modify name f other = if other = name then (ps name).map f else ps other :=
  Function.update_apply _ _ _ _

theorem eqOn_make (hname : name ∉ names) : Set.EqOn (ps.make name settlement) ps names :=
  fun _ hother => Function.update_of_ne (ne_of_mem_of_not_mem hother hname) _ _

theorem eqOn_modify (hname : name ∉ names) : Set.EqOn (ps.modify name f) ps names :=
  fun _ hother => Function.update_of_ne (ne_of_mem_of_not_mem hother hname) _ _

theorem EqOn.make (h : Set.EqOn ps qs names) :
    Set.EqOn (ps.make name settlement) (qs.make name settlement) names := by
  intro other hother
  rw [make_apply, make_apply, h hother]

theorem EqOn.modify (h : Set.EqOn ps qs names) (hname : name ∈ names) :
    Set.EqOn (ps.modify name f) (qs.modify name f) names := by
  intro other hother
  rw [modify_apply, modify_apply, h hother, h hname]

end Promises
