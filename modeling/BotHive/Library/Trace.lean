import BotHive.Library.Machine
import Mathlib.Data.Int.Order.Basic
import Mathlib.Algebra.Order.Group.Int
import Mathlib.Tactic.Linarith

/-!
# Traces of a state machine

A trace records a run step by step: each event has the state before the step, the
action and the state after it. What happens between two moments of a run is a
statement about the pieces of its trace. Countable things that happen in a piece are
bounded by a potential: a function of the state that every such event moves.

## Main results

- `Machine.Trace.split`: a piece of a trace is a trace
- `Machine.Trace.invariant`: what each event of a trace keeps holds at its end
- `Machine.Trace.count_le`, `Machine.Trace.le_count`: counting by a potential
-/

namespace Machine

variable {S A : Type*}

/-- One step of a run. -/
structure Event (S A : Type*) where
  before : S
  action : A
  after : S

/-- The events of a run from one state to another. -/
inductive Trace (step : S → A → Option S) : S → List (Event S A) → S → Prop
  | nil (s : S) : Trace step s [] s
  | cons {s t u : S} {a : A} {es : List (Event S A)} (hstep : step s a = some t)
      (rest : Trace step t es u) : Trace step s (⟨s, a, t⟩ :: es) u

variable {step : S → A → Option S} {s t : S} {es : List (Event S A)}

/-- The events of a run of a machine whose actions are always enabled. -/
def events (f : S → A → S) : S → List A → List (Event S A)
  | _, [] => []
  | s, a :: rest => ⟨s, a, f s a⟩ :: events f (f s a) rest

theorem trace_events (f : S → A → S) (s : S) (as : List A) :
    Trace (total f) s (events f s as) (as.foldl f s) := by
  induction as generalizing s with
  | nil => exact .nil s
  | cons a rest ih => exact .cons rfl (ih (f s a))

namespace Trace

/-- A trace passes through a state between any two of its events. -/
theorem split {xs ys : List (Event S A)} (h : Trace step s (xs ++ ys) t) :
    ∃ m, Trace step s xs m ∧ Trace step m ys t := by
  induction xs generalizing s with
  | nil => exact ⟨s, .nil s, h⟩
  | cons x xs ih =>
    cases h with
    | cons hstep rest =>
      obtain ⟨m, hxs, hys⟩ := ih rest
      exact ⟨m, .cons hstep hxs, hys⟩

theorem step_of_mem (h : Trace step s es t) {e : Event S A} (he : e ∈ es) :
    step e.before e.action = some e.after := by
  induction h with
  | nil => cases he
  | cons hstep _ ih =>
    rcases List.mem_cons.mp he with rfl | hmem
    · exact hstep
    · exact ih hmem

/-- The first event starts where the trace starts. -/
theorem before_head {e : Event S A} (h : Trace step s (e :: es) t) : e.before = s := by
  cases h
  rfl

/-- The rest of a trace starts where the first event ends. -/
theorem tail {e : Event S A} (h : Trace step s (e :: es) t) : Trace step e.after es t := by
  cases h
  assumption

/-- What every event of a trace keeps holds at the end of the trace. -/
theorem invariant (Inv : S → Prop) (h : Trace step s es t)
    (hkeep : ∀ e ∈ es, step e.before e.action = some e.after → Inv e.before → Inv e.after)
    (h0 : Inv s) : Inv t := by
  induction h with
  | nil => exact h0
  | cons hstep _ ih =>
    have hhead := hkeep _ List.mem_cons_self hstep h0
    exact ih (fun e he => hkeep e (List.mem_cons_of_mem _ he)) hhead

/-- What every event of a trace keeps holds before each of them. -/
theorem invariant_before (Inv : S → Prop) (h : Trace step s es t)
    (hkeep : ∀ e ∈ es, step e.before e.action = some e.after → Inv e.before → Inv e.after)
    (h0 : Inv s) {e : Event S A} (he : e ∈ es) : Inv e.before := by
  obtain ⟨pre, post, rfl⟩ := List.append_of_mem he
  obtain ⟨m, hpre, hpost⟩ := h.split
  rw [hpost.before_head]
  refine hpre.invariant Inv (fun e' he' => hkeep e' ?_) h0
  exact List.mem_append_left _ he'

/-- What holds after every event of a trace holds at its end. -/
theorem end_of_forall (P : S → Prop) (h : Trace step s es t) (hne : es ≠ [])
    (hafter : ∀ e ∈ es, P e.after) : P t := by
  cases h with
  | nil => exact absurd rfl hne
  | cons _ rest =>
    have hhead := hafter _ List.mem_cons_self
    exact rest.invariant P (fun e he _ _ => hafter e (List.mem_cons_of_mem _ he)) hhead

section Potential

/-- Events that each raise a potential happen at most as often as it rose. -/
theorem count_le (φ : S → ℤ) (p : Event S A → Bool) (h : Trace step s es t)
    (hraise : ∀ e ∈ es, φ e.before + (if p e then 1 else 0) ≤ φ e.after) :
    φ s + es.countP p ≤ φ t := by
  induction h with
  | nil => simp
  | cons hstep _ ih =>
    have hhead := hraise _ List.mem_cons_self
    have hrest := ih fun e he => hraise e (List.mem_cons_of_mem _ he)
    rw [List.countP_cons]
    push_cast
    linarith

/-- A potential that only these events raise rose at most as often as they happen. -/
theorem le_count (φ : S → ℤ) (p : Event S A → Bool) (h : Trace step s es t)
    (hraise : ∀ e ∈ es, φ e.after ≤ φ e.before + (if p e then 1 else 0)) :
    φ t ≤ φ s + es.countP p := by
  induction h with
  | nil => simp
  | cons hstep _ ih =>
    have hhead := hraise _ List.mem_cons_self
    have hrest := ih fun e he => hraise e (List.mem_cons_of_mem _ he)
    rw [List.countP_cons]
    push_cast
    linarith

end Potential

end Trace

end Machine
