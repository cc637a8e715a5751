import Mathlib.Tactic.Common

/-!
# Runs of a state machine

A machine is a step function that says, for each state and each action, which
state the action leads to, or that the action is not enabled. Every source of
nondeterminism (the scheduler, the environment, the answer of another party) is
an action, so a run is a list of actions. Invariants of runs are proved once
here, from what one step preserves.

## Main definitions

- `Machine.exec`: the state after a list of actions
- `Machine.Along`: a condition on every step that a run performs
- `Machine.Everywhere`: a property of every state that a run visits

## Main results

- `Machine.everywhere_of_invariant`: what guarded steps preserve holds in every state of
  a guarded run
- `Machine.along_of_invariant`: what holds at a step in every invariant state
  holds at every step of a guarded run
- `Machine.everywhere_iff_along_of_guarded`, `everywhere_iff_along_of_invariant`,
  `everywhere_iff_along`: a condition that decides at each step whether a property survives
  decides whether the property holds everywhere
- `Machine.along_congr_of_invariant`: conditions that agree in the states of an invariant
- `Machine.along_of_trap`: what is never left again was never entered by a run that ends elsewhere
- `Machine.exec_filter`: a run without some of its actions, by a simulation
- `Machine.exec_of_simulation`: a run of another machine that follows a run
- `Machine.exists_exec_of_progress`: states whose steps lower a measure lead to one that is done
-/

namespace Machine

variable {S A : Type*}

/-- Perform a list of actions, or report that one of them is not enabled. -/
def exec (step : S → A → Option S) : S → List A → Option S
  | s, [] => some s
  | s, a :: rest => (step s a).bind fun s' => exec step s' rest

/-- Every step that the run performs satisfies `ok` in the state it starts from. -/
def Along (step : S → A → Option S) (ok : S → A → Prop) : S → List A → Prop
  | _, [] => True
  | s, a :: rest => ∀ s', step s a = some s' → ok s a ∧ Along step ok s' rest

/-- A condition that can be decided at every step can be decided along a run. -/
instance decidableAlong {step : S → A → Option S} {ok : S → A → Prop}
    [∀ s a, Decidable (ok s a)] : (s : S) → (as : List A) → Decidable (Along step ok s as)
  | _, [] => isTrue trivial
  | s, a :: rest =>
    match hstep : step s a with
    | none => isTrue fun _ h => nomatch hstep.symm.trans h
    | some t =>
      haveI : Decidable (Along step ok t rest) := decidableAlong t rest
      decidable_of_iff (ok s a ∧ Along step ok t rest)
        ⟨fun h _ ht => Option.some.inj (hstep.symm.trans ht) ▸ h, fun h => h t hstep⟩

/-- Every state that the run visits satisfies `P`. -/
def Everywhere (step : S → A → Option S) (P : S → Prop) : S → List A → Prop
  | s, [] => P s
  | s, a :: rest => P s ∧ ∀ s', step s a = some s' → Everywhere step P s' rest

/-- A machine whose actions are always enabled. -/
def total (f : S → A → S) : S → A → Option S :=
  fun s a => some (f s a)

variable {step : S → A → Option S} {ok : S → A → Prop}

@[simp] theorem exec_nil (s : S) : exec step s [] = some s :=
  rfl

@[simp] theorem exec_cons (s : S) (a : A) (rest : List A) :
    exec step s (a :: rest) = (step s a).bind fun s' => exec step s' rest :=
  rfl

@[simp] theorem along_total_nil (f : S → A → S) (s : S) : Along (total f) ok s [] :=
  trivial

@[simp] theorem along_total_cons (f : S → A → S) (s : S) (a : A) (rest : List A) :
    Along (total f) ok s (a :: rest) ↔ ok s a ∧ Along (total f) ok (f s a) rest := by
  constructor
  · intro h
    exact h (f s a) rfl
  · rintro h t ⟨⟩
    exact h

theorem exec_append (s : S) (as bs : List A) :
    exec step s (as ++ bs) = (exec step s as).bind fun s' => exec step s' bs := by
  induction as generalizing s with
  | nil => rfl
  | cons a rest ih =>
    rw [List.cons_append, exec_cons, exec_cons, Option.bind_assoc]
    exact Option.bind_congr fun s' _ => ih s'

/-- A run that begins with a given step. -/
theorem along_cons {s t : S} {a : A} {rest : List A} (hstep : step s a = some t) (ha : ok s a)
    (h : Along step ok t rest) : Along step ok s (a :: rest) := by
  intro t' ht'
  obtain rfl : t = t' := Option.some.inj (hstep.symm.trans ht')
  exact ⟨ha, h⟩

/-- A run whose steps are all allowed. -/
theorem along_true (s : S) (as : List A) : Along step (fun _ _ => True) s as := by
  induction as generalizing s with
  | nil => trivial
  | cons a rest ih =>
    intro t _
    exact ⟨trivial, ih t⟩

/-- **Invariant rule**: what an invariant implies holds in every state that a run of
    allowed steps visits. -/
theorem everywhere_of_invariant (Inv P : S → Prop)
    (hstep : ∀ s a s', Inv s → ok s a → step s a = some s' → Inv s')
    (hP : ∀ s, Inv s → P s) {s : S} {as : List A} (h0 : Inv s) (hok : Along step ok s as) :
    Everywhere step P s as := by
  induction as generalizing s with
  | nil => exact hP s h0
  | cons a rest ih =>
    refine ⟨hP s h0, fun t ht => ?_⟩
    obtain ⟨ha, hok'⟩ := hok t ht
    exact ih (hstep s a t h0 ha ht) hok'

/-- What holds at every allowed step out of an invariant state holds at every
    step of a run whose steps are all allowed. -/
theorem along_of_invariant (Inv : S → Prop) {Q : S → A → Prop}
    (hstep : ∀ s a s', Inv s → ok s a → step s a = some s' → Inv s')
    (hQ : ∀ s a s', Inv s → ok s a → step s a = some s' → Q s a)
    {s : S} {as : List A} (h0 : Inv s) (hok : Along step ok s as) :
    Along step Q s as := by
  induction as generalizing s with
  | nil => trivial
  | cons a rest ih =>
    intro t ht
    obtain ⟨ha, hok'⟩ := hok t ht
    exact ⟨hQ s a t h0 ha ht, ih (hstep s a t h0 ha ht) hok'⟩

/-- Two conditions that agree in every state of an invariant which the second one keeps
    hold along the same runs. -/
theorem along_congr_of_invariant (Inv : S → Prop) {ok' : S → A → Prop}
    (hiff : ∀ s a s', Inv s → step s a = some s' → (ok s a ↔ ok' s a))
    (hinv : ∀ s a s', Inv s → ok' s a → step s a = some s' → Inv s')
    {s : S} {as : List A} (hs : Inv s) : Along step ok s as ↔ Along step ok' s as := by
  induction as generalizing s with
  | nil => exact Iff.rfl
  | cons a rest ih =>
    constructor
    · intro h t ht
      obtain ⟨ha, hrest⟩ := h t ht
      have ha' : ok' s a := (hiff s a t hs ht).mp ha
      exact ⟨ha', (ih (hinv s a t hs ha' ht)).mp hrest⟩
    · intro h t ht
      obtain ⟨ha', hrest⟩ := h t ht
      exact ⟨(hiff s a t hs ht).mpr ha', (ih (hinv s a t hs ha' ht)).mpr hrest⟩

/-- What holds everywhere holds where the run ends. -/
theorem Everywhere.at_end {P : S → Prop} {s t : S} {as : List A} (h : Everywhere step P s as)
    (hexec : exec step s as = some t) : P t := by
  induction as generalizing s with
  | nil =>
    obtain rfl : s = t := Option.some.inj hexec
    exact h
  | cons a rest ih =>
    obtain ⟨m, hstep, hrest⟩ := Option.bind_eq_some_iff.mp hexec
    exact ih (h.2 m hstep) hrest

/-- **Traps**: if an allowed step that fails a condition enters a trap, and allowed steps do
    not leave it, then a run of allowed steps that ends outside of it meets the condition. -/
theorem along_of_trap (Inv Trap : S → Prop) {ok' : S → A → Prop}
    (hinv : ∀ s a s', Inv s → ok s a → step s a = some s' → Inv s')
    (henter : ∀ s a s', Inv s → ok s a → ¬ ok' s a → step s a = some s' → Trap s')
    (hstay : ∀ s a s', Trap s → ok s a → step s a = some s' → Trap s')
    {s t : S} {as : List A} (hs : Inv s) (hok : Along step ok s as)
    (hexec : exec step s as = some t) (ht : ¬ Trap t) : Along step ok' s as := by
  induction as generalizing s with
  | nil => trivial
  | cons a rest ih =>
    intro m hm
    obtain ⟨ha, hok'⟩ := hok m hm
    have hrest : exec step m rest = some t := by
      rw [exec_cons, hm] at hexec
      exact hexec
    refine ⟨?_, ih (hinv s a m hs ha hm) hok' hrest⟩
    by_contra hfails
    have htrap : Trap m := henter s a m hs ha hfails hm
    exact ht ((everywhere_of_invariant Trap Trap hstay (fun _ h => h) htrap hok').at_end hrest)

/-- If out of every state with an invariant and the property a guarded step keeps the property
    exactly when it is allowed, then a run of guarded steps has the property everywhere exactly
    when all of its steps are allowed. -/
theorem everywhere_iff_along_of_guarded (Inv : S → Prop) {P : S → Prop} {ok' : S → A → Prop}
    (hinv : ∀ s a s', Inv s → ok s a → step s a = some s' → Inv s')
    (hstep : ∀ s a s', Inv s → P s → ok s a → step s a = some s' → (P s' ↔ ok' s a))
    {s : S} {as : List A} (hs : Inv s) (h0 : P s) (hok : Along step ok s as) :
    Everywhere step P s as ↔ Along step ok' s as := by
  have head : ∀ (s : S) (as : List A), Everywhere step P s as → P s := by
    intro s as h
    cases as with
    | nil => exact h
    | cons a rest => exact h.1
  induction as generalizing s with
  | nil => exact iff_of_true h0 trivial
  | cons a rest ih =>
    constructor
    · rintro ⟨_, hrest⟩ t ht
      obtain ⟨ha, hok'⟩ := hok t ht
      have hPt : P t := head t rest (hrest t ht)
      have hIt : Inv t := hinv s a t hs ha ht
      exact ⟨(hstep s a t hs h0 ha ht).mp hPt, (ih hIt hPt hok').mp (hrest t ht)⟩
    · intro hallowed
      refine ⟨h0, fun t ht => ?_⟩
      obtain ⟨ha, hok'⟩ := hok t ht
      obtain ⟨ha', hallowed'⟩ := hallowed t ht
      exact (ih (hinv s a t hs ha ht) ((hstep s a t hs h0 ha ht).mpr ha') hok').mpr hallowed'

/-- The case in which every step is guarded. -/
theorem everywhere_iff_along_of_invariant (Inv : S → Prop) {P : S → Prop}
    (hinv : ∀ s a s', Inv s → step s a = some s' → Inv s')
    (hstep : ∀ s a s', Inv s → P s → step s a = some s' → (P s' ↔ ok s a))
    {s : S} {as : List A} (hs : Inv s) (h0 : P s) :
    Everywhere step P s as ↔ Along step ok s as :=
  everywhere_iff_along_of_guarded Inv (fun s a s' h _ => hinv s a s' h)
    (fun s a s' h hP _ => hstep s a s' h hP) hs h0 (along_true s as)

/-- The case in which the property itself is all that the steps rely on. -/
theorem everywhere_iff_along {P : S → Prop}
    (hstep : ∀ s a s', P s → step s a = some s' → (P s' ↔ ok s a))
    {s : S} {as : List A} (h0 : P s) :
    Everywhere step P s as ↔ Along step ok s as :=
  everywhere_iff_along_of_invariant (fun _ => True) (fun _ _ _ _ _ => trivial)
    (fun s a s' _ => hstep s a s') trivial h0

/-- What leads on to where a run ends, step by step, holds after each of its steps. -/
theorem along_of_at_end {P : S → Prop} (hback : ∀ s a s', step s a = some s' → P s' → P s)
    {s t : S} {as : List A} (hexec : exec step s as = some t) (ht : P t) :
    P s ∧ Along step (fun s a => ∀ s', step s a = some s' → P s') s as := by
  induction as generalizing s with
  | nil =>
    obtain rfl : s = t := Option.some.inj hexec
    exact ⟨ht, trivial⟩
  | cons a rest ih =>
    obtain ⟨m, hstep, hrest⟩ := Option.bind_eq_some_iff.mp hexec
    obtain ⟨hm, halong⟩ := ih hrest
    refine ⟨hback s a m hstep hm, fun m' hm' => ?_⟩
    obtain rfl : m = m' := Option.some.inj (hstep.symm.trans hm')
    refine ⟨fun n hn => ?_, halong⟩
    obtain rfl : m = n := Option.some.inj (hstep.symm.trans hn)
    exact hm

theorem Along.and {ok' : S → A → Prop} {s : S} {as : List A} (h : Along step ok s as)
    (h' : Along step ok' s as) : Along step (fun s a => ok s a ∧ ok' s a) s as := by
  induction as generalizing s with
  | nil => trivial
  | cons a rest ih =>
    intro t ht
    exact ⟨⟨(h t ht).1, (h' t ht).1⟩, ih (h t ht).2 (h' t ht).2⟩

/-- **Purging**: if every step of a kept action is followed by a related state, and the
    steps of the other actions stay related to where they were, then the run without the
    other actions leads to a related state. -/
theorem exec_filter {R : S → S → Prop} {keep : A → Bool}
    (hkeep : ∀ s a s' t, R s t → ok s a → step s a = some s' → keep a = true →
      ∃ t', step t a = some t' ∧ R s' t')
    (hdrop : ∀ s a s' t, R s t → ok s a → step s a = some s' → keep a = false → R s' t)
    {s t s' : S} {as : List A} (hR : R s t) (hok : Along step ok s as)
    (hexec : exec step s as = some s') :
    ∃ t', exec step t (as.filter keep) = some t' ∧ R s' t' := by
  induction as generalizing s t with
  | nil =>
    obtain rfl : s = s' := Option.some.inj hexec
    exact ⟨t, rfl, hR⟩
  | cons a rest ih =>
    obtain ⟨m, hstep, hrest⟩ := Option.bind_eq_some_iff.mp hexec
    obtain ⟨ha, hok'⟩ := hok m hstep
    cases hk : keep a with
    | true =>
      obtain ⟨n, htstep, hRn⟩ := hkeep s a m t hR ha hstep hk
      obtain ⟨t', ht', hR'⟩ := ih hRn hok' hrest
      refine ⟨t', ?_, hR'⟩
      rw [List.filter_cons_of_pos hk, exec_cons, htstep]
      exact ht'
    | false =>
      rw [List.filter_cons_of_neg (by simp [hk])]
      exact ih (hdrop s a m t hR ha hstep hk) hok' hrest

/-- **Simulation**: if every step is followed by a run of another machine to a related state, then
    every run is. -/
theorem exec_of_simulation {T B : Type*} {step' : T → B → Option T} {R : S → T → Prop}
    (hsim : ∀ s a s' t, R s t → step s a = some s' →
      ∃ bs t', exec step' t bs = some t' ∧ R s' t')
    {s s' : S} {t : T} {as : List A} (hR : R s t) (hexec : exec step s as = some s') :
    ∃ bs t', exec step' t bs = some t' ∧ R s' t' := by
  induction as generalizing s t with
  | nil =>
    obtain rfl : s = s' := Option.some.inj hexec
    exact ⟨[], t, rfl, hR⟩
  | cons a rest ih =>
    obtain ⟨m, hstep, hrest⟩ := Option.bind_eq_some_iff.mp hexec
    obtain ⟨bs, n, hbs, hRn⟩ := hsim s a m t hR hstep
    obtain ⟨cs, t', hcs, hR'⟩ := ih hRn hrest
    refine ⟨bs ++ cs, t', ?_, hR'⟩
    rw [exec_append, hbs]
    exact hcs

/-- **Progress**: if every state that is not done has a step to one of smaller measure, then
    every state has a run to one that is done. -/
theorem exists_exec_of_progress (Inv Done : S → Prop) (measure : S → ℕ)
    (hprogress : ∀ s, Inv s → ¬ Done s →
      ∃ a s', step s a = some s' ∧ Inv s' ∧ measure s' < measure s) {s : S} (hs : Inv s) :
    ∃ as t, exec step s as = some t ∧ Inv t ∧ Done t := by
  induction hn : measure s using Nat.strongRecOn generalizing s with
  | ind n ih =>
    by_cases hdone : Done s
    · exact ⟨[], s, rfl, hs, hdone⟩
    · obtain ⟨a, m, hstep, hm, hlt⟩ := hprogress s hs hdone
      obtain ⟨as, t, hexec, ht⟩ := ih (measure m) (hn ▸ hlt) hm rfl
      refine ⟨a :: as, t, ?_, ht⟩
      rw [exec_cons, hstep]
      exact hexec

end Machine
