import BotHive.Workers.UpdateChains

/-!
# The phases of the updates of a bot

The promises of a bot are known from the phases of its updates. An update is queued, its
predecessor's promise is caught, it runs, and then the promises are settled one after the other.

## Main definitions

- `Phases`, `cellAt`: the phases of the updates of a bot, and the promises they stand for
- `Follows`: a state whose promises are those of the phases

## Main results

- `Follows.handleUpdate`, `Follows.react`, `Follows.handled`: what the actions do to the phases
-/

namespace BotHive.Workers

variable {U : Type*}

inductive Phase
  /-- The promise of the update before is pending or has not been caught. -/
  | queued
  | caught
  | running
  | handled (outcome : Settlement String)
  /-- The promise of `processUpdate` is settled. -/
  | processed (connected : Bool) (outcome : Settlement String)
  | returned (connected : Bool) (outcome : Settlement String)
  deriving DecidableEq

def Phase.progress : Phase → Progress
  | .queued | .caught => .waiting
  | .running => .running
  | .handled outcome | .processed _ outcome | .returned _ outcome => .ended outcome

/-- The updates of a bot and their phases, by the number of the call. -/
abbrev Phases (U : Type*) := ℕ → Option (U × Phase)

def progressOf (σ : Phases U) (call : ℕ) : Progress :=
  match σ call with
  | none => .waiting
  | some (_, phase) => phase.progress

/-- What waits for the promise before a call. -/
def waiters (botId : String) (σ : Phases U) (call : ℕ) : List (Reaction PromiseName (UpdateCall U)) :=
  match σ call with
  | some (_, .queued) => [.recover ⟨botId, call, .caught⟩]
  | _ => []

section Cells

variable (reaction : Reaction PromiseName (UpdateCall U))

def Phase.caughtCell : Phase → PromiseCell PromiseName (UpdateCall U) String
  | .queued => ⟨none, [reaction]⟩
  | .caught => ⟨some .fulfilled, [reaction]⟩
  | _ => ⟨some .fulfilled, []⟩

def Phase.processingCell : Phase → Option (PromiseCell PromiseName (UpdateCall U) String)
  | .queued | .caught => none
  | .running | .handled _ => some ⟨none, [reaction]⟩
  | .processed _ outcome => some ⟨some outcome, [reaction]⟩
  | .returned _ outcome => some ⟨some outcome, []⟩

/-- There is no such promise if the bot was not connected. -/
def Phase.handlingCell : Phase → Option (PromiseCell PromiseName (UpdateCall U) String)
  | .running => some ⟨none, [reaction]⟩
  | .handled outcome => some ⟨some outcome, [reaction]⟩
  | .processed true outcome | .returned true outcome => some ⟨some outcome, []⟩
  | _ => none

end Cells

def Phase.returned? : Phase → Option (Settlement String)
  | .returned _ outcome => some outcome
  | _ => none

/-- The promises of a call. -/
def cellAt (botId : String) (σ : Phases U) (call : ℕ) :
    PromiseRole → Option (PromiseCell PromiseName (UpdateCall U) String)
  | .first =>
    (σ call).bind fun _ => if call = 0 then some ⟨some .fulfilled, waiters botId σ 0⟩ else none
  | .caught =>
    (σ call).map fun c => c.2.caughtCell (.andThen ⟨botId, call, c.1⟩ ⟨botId, call, .next⟩)
  | .next => (σ call).map fun c => ⟨c.2.returned?, waiters botId σ (call + 1)⟩
  | .processing => (σ call).bind fun c => c.2.processingCell (.adopt ⟨botId, call, .next⟩)
  | .handling => (σ call).bind fun c => c.2.handlingCell (.adopt ⟨botId, call, .processing⟩)

/-- The promises of a bot are those of the phases. -/
def Renders (ps : Promises PromiseName (UpdateCall U) String) (botId : String) (σ : Phases U) : Prop :=
  ∀ call role, ps ⟨botId, call, role⟩ = cellAt botId σ call role

/-- The promise that a call waits for. -/
def waitsFor (botId : String) : ℕ → PromiseName
  | 0 => ⟨botId, 0, .first⟩
  | call + 1 => ⟨botId, call, .next⟩

/-- The update before a call has been returned, if there is one. -/
def BeforeReturned (σ : Phases U) (call : ℕ) : Prop :=
  ∀ before, call = before + 1 → ∃ u connected outcome, σ before = some (u, .returned connected outcome)

variable {ps qs : Promises PromiseName (UpdateCall U) String} {botId : String} {σ : Phases U} {i : ℕ}
  {u : U} {o : Settlement String} {role : PromiseRole} {phase phase' : Phase}

open Function (update)

attribute [local simp] Promises.settle Promises.dequeue Promises.subscribe Promises.catchAll
  Promises.andThen Promises.follow Promises.make_apply Promises.modify_apply cellAt waiters
  Phase.caughtCell Phase.returned? Phase.processingCell Phase.handlingCell

theorem waiters_update_of_ne {k : ℕ} {x : Option (U × Phase)} (hi : i ≠ k) :
    waiters botId (update σ k x) i = waiters botId σ i := by
  rw [waiters, waiters, Function.update_of_ne hi]

theorem cellAt_update_of_ne {k : ℕ} {x : Option (U × Phase)} (hi : i ≠ k)
    (hname : ⟨botId, i, role⟩ ≠ waitsFor botId k) :
    cellAt botId (update σ k x) i role = cellAt botId σ i role := by
  have hcell : update σ k x i = σ i := Function.update_of_ne hi _ _
  cases role with
  | first =>
    rw [cellAt, cellAt, hcell]
    by_cases hzero : i = 0
    · rw [waiters_update_of_ne (hzero ▸ hi)]
    · rw [if_neg hzero, if_neg hzero]
  | next =>
    have hnext : i + 1 ≠ k := by
      rintro rfl
      exact hname rfl
    rw [cellAt, cellAt, hcell, waiters_update_of_ne hnext]
  | caught => rw [cellAt, cellAt, hcell]
  | processing => rw [cellAt, cellAt, hcell]
  | handling => rw [cellAt, cellAt, hcell]

/-- A change of one phase shows in the promises of its call and in what waits for the one before. -/
theorem Renders.update {k : ℕ} {x : Option (U × Phase)} (h : Renders ps botId σ)
    (hother : ∀ i role, i ≠ k → ⟨botId, i, role⟩ ≠ waitsFor botId k →
      qs ⟨botId, i, role⟩ = ps ⟨botId, i, role⟩)
    (hself : ∀ role, qs ⟨botId, k, role⟩ = cellAt botId (update σ k x) k role)
    (hbefore : ∀ i, k = i + 1 → qs ⟨botId, i, .next⟩ = cellAt botId (update σ k x) i .next) :
    Renders qs botId (Function.update σ k x) := by
  intro i role
  by_cases hi : i = k
  · rw [hi]
    exact hself role
  by_cases hname : ⟨botId, i, role⟩ = waitsFor botId k
  · cases k with
    | zero =>
      rw [waitsFor, PromiseName.mk.injEq] at hname
      exact absurd hname.2.1 hi
    | succ k =>
      rw [waitsFor, PromiseName.mk.injEq] at hname
      obtain ⟨-, rfl, rfl⟩ := hname
      exact hbefore i rfl
  · rw [hother i role hi hname, h i role, cellAt_update_of_ne hi hname]

/-- A call is queued behind the promise of the one before. -/
theorem Renders.call (h : Renders ps botId σ) (hi : σ i = none) (hafter : σ (i + 1) = none)
    (hbefore : ∀ j, i = j + 1 → ∃ c, σ j = some c) :
    let made := if i = 0 then ps.make ⟨botId, 0, .first⟩ (some .fulfilled) else ps
    Renders ((made.catchAll (waitsFor botId i) ⟨botId, i, .caught⟩).andThen ⟨botId, i, .caught⟩
        ⟨botId, i, u⟩ ⟨botId, i, .next⟩) botId (Function.update σ i (some (u, .queued))) := by
  refine h.update (fun j role hj hname => ?_) (fun role => ?_) (fun j hj => ?_)
  · by_cases hzero : i = 0
    · subst hzero
      simp [hj, hname]
    · simp [hzero, hj, hname]
  · cases i <;> cases role <;> simp [h _ _, hi, hafter, waitsFor]
  · subst hj
    obtain ⟨c, hj⟩ := hbefore j rfl
    simp [h _ _, hi, hj, waitsFor]

/-- The promise of the update before is caught. -/
theorem Renders.recover (h : Renders ps botId σ) (hi : σ i = some (u, .queued))
    (hbefore : BeforeReturned σ i) :
    Renders ((ps.dequeue (waitsFor botId i)).settle ⟨botId, i, .caught⟩ .fulfilled) botId
      (Function.update σ i (some (u, .caught))) := by
  refine h.update (fun j role hj hname => ?_) (fun role => ?_) (fun j hj => ?_)
  · simp [hj, hname]
  · cases i <;> cases role <;> simp [h _ _, hi, waitsFor]
  · subst hj
    obtain ⟨v, c, o, hj⟩ := hbefore j rfl
    simp [h _ _, hi, hj, waitsFor]

/-- Between phases in which it does not wait, a call changes only promises that it has made. -/
theorem Renders.advance (h : Renders ps botId σ) (hi : σ i = some (u, phase)) (hp : phase ≠ .queued)
    (hq : phase' ≠ .queued)
    (hother : ∀ j role, j ≠ i ∨ role = .first → qs ⟨botId, j, role⟩ = ps ⟨botId, j, role⟩)
    (hself : ∀ role ≠ .first, qs ⟨botId, i, role⟩ =
      cellAt botId (Function.update σ i (some (u, phase'))) i role) :
    Renders qs botId (Function.update σ i (some (u, phase'))) := by
  have hnone {τ : Phases U} {p : Phase} (hτ : τ i = some (u, p)) (hp : p ≠ .queued) :
      waiters botId τ i = [] := by
    cases p <;> simp [hτ] at hp ⊢
  have hold := hnone hi hp
  have hnew := hnone (Function.update_self i (some (u, phase')) σ) hq
  refine h.update (fun j role hj _ => hother j role (Or.inl hj)) (fun role => ?_) fun j hj => ?_
  · by_cases hrole : role = .first
    · subst hrole
      rw [hother i .first (Or.inr rfl), h i .first, cellAt, cellAt, Function.update_self, hi]
      by_cases hzero : i = 0
      · subst hzero
        rw [hold, hnew]
        rfl
      · simp [hzero]
    · exact hself role hrole
  · have hne : j ≠ i := by omega
    rw [hother j .next (Or.inl hne), h j .next, cellAt, cellAt, Function.update_of_ne hne, ← hj, hold,
      hnew]

/-- The update is given to its bot. -/
theorem Renders.start (h : Renders ps botId σ) (hi : σ i = some (u, .caught)) :
    Renders ((((((ps.dequeue ⟨botId, i, .caught⟩).make ⟨botId, i, .processing⟩ none).make
        ⟨botId, i, .handling⟩ none).follow ⟨botId, i, .handling⟩ ⟨botId, i, .processing⟩)).follow
        ⟨botId, i, .processing⟩ ⟨botId, i, .next⟩) botId
      (Function.update σ i (some (u, .running))) := by
  refine h.advance hi nofun nofun (fun j role hj => ?_) (fun role hrole => ?_)
  · obtain hj | rfl := hj
    · simp [hj]
    · simp
  · cases role <;> simp [h _ _, hi] at hrole ⊢

/-- The update is refused as its bot is not connected. -/
theorem Renders.refuse (h : Renders ps botId σ) (hi : σ i = some (u, .caught)) :
    Renders (((ps.dequeue ⟨botId, i, .caught⟩).make ⟨botId, i, .processing⟩ (some o)).follow
        ⟨botId, i, .processing⟩ ⟨botId, i, .next⟩) botId
      (Function.update σ i (some (u, .processed false o))) := by
  refine h.advance hi nofun nofun (fun j role hj => ?_) (fun role hrole => ?_)
  · obtain hj | rfl := hj
    · simp [hj]
    · simp
  · cases role <;> simp [h _ _, hi] at hrole ⊢

theorem Renders.handled (h : Renders ps botId σ) (hi : σ i = some (u, .running)) :
    Renders (ps.settle ⟨botId, i, .handling⟩ o) botId
      (Function.update σ i (some (u, .handled o))) := by
  refine h.advance hi nofun nofun (fun j role hj => ?_) (fun role hrole => ?_)
  · obtain hj | rfl := hj
    · simp [hj]
    · simp
  · cases role <;> simp [h _ _, hi] at hrole ⊢

theorem Renders.process (h : Renders ps botId σ) (hi : σ i = some (u, .handled o)) :
    Renders ((ps.dequeue ⟨botId, i, .handling⟩).settle ⟨botId, i, .processing⟩ o) botId
      (Function.update σ i (some (u, .processed true o))) := by
  refine h.advance hi nofun nofun (fun j role hj => ?_) (fun role hrole => ?_)
  · obtain hj | rfl := hj
    · simp [hj]
    · simp
  · cases role <;> simp [h _ _, hi] at hrole ⊢

theorem Renders.return {c : Bool} (h : Renders ps botId σ) (hi : σ i = some (u, .processed c o)) :
    Renders ((ps.dequeue ⟨botId, i, .processing⟩).settle ⟨botId, i, .next⟩ o) botId
      (Function.update σ i (some (u, .returned c o))) := by
  refine h.advance hi nofun nofun (fun j role hj => ?_) (fun role hrole => ?_)
  · obtain hj | rfl := hj
    · simp [hj]
    · simp
  · cases role <;> cases c <;> simp [h _ _, hi] at hrole ⊢

/-- Only of an update that runs the bot's own promise is pending. -/
theorem Renders.running (h : Renders ps botId σ) {reactions : List (Reaction PromiseName (UpdateCall U))}
    (hcell : ps ⟨botId, i, .handling⟩ = some ⟨none, reactions⟩) : ∃ u, σ i = some (u, .running) := by
  rw [h i .handling] at hcell
  cases hi : σ i with
  | none => simp [hi] at hcell
  | some c =>
    obtain ⟨u, phase⟩ := c
    cases phase with
    | running => exact ⟨u, rfl⟩
    | processed c o => cases c <;> simp [hi] at hcell
    | returned c o => cases c <;> simp [hi] at hcell
    | _ => simp [hi] at hcell

/-- Which reactions are ready, and in which phase. -/
inductive ReadyIn (botId : String) (σ : Phases U) : PromiseName →
    Reaction PromiseName (UpdateCall U) → Settlement String → Prop
  | recover {i : ℕ} {u : U} {o : Settlement String} (hi : σ i = some (u, .queued))
      (hbefore : BeforeReturned σ i) :
      ReadyIn botId σ (waitsFor botId i) (.recover ⟨botId, i, .caught⟩) o
  | start {i : ℕ} {u : U} (hi : σ i = some (u, .caught)) :
      ReadyIn botId σ ⟨botId, i, .caught⟩ (.andThen ⟨botId, i, u⟩ ⟨botId, i, .next⟩) .fulfilled
  | process {i : ℕ} {u : U} {o : Settlement String} (hi : σ i = some (u, .handled o)) :
      ReadyIn botId σ ⟨botId, i, .handling⟩ (.adopt ⟨botId, i, .processing⟩) o
  | return {i : ℕ} {u : U} {c : Bool} {o : Settlement String} (hi : σ i = some (u, .processed c o)) :
      ReadyIn botId σ ⟨botId, i, .processing⟩ (.adopt ⟨botId, i, .next⟩) o

theorem readyIn_waiters {rest : List (Reaction PromiseName (UpdateCall U))}
    {reaction : Reaction PromiseName (UpdateCall U)} (h : waiters botId σ i = reaction :: rest)
    (hbefore : BeforeReturned σ i) : ReadyIn botId σ (waitsFor botId i) reaction o := by
  rw [waiters] at h
  split at h
  next hi =>
    rw [List.cons.injEq] at h
    rw [← h.1]
    exact .recover hi hbefore
  next => cases h

theorem Renders.readyIn (h : Renders ps botId σ) {reaction : Reaction PromiseName (UpdateCall U)}
    (hready : ps.ready? ⟨botId, i, role⟩ = some (reaction, o)) :
    ReadyIn botId σ ⟨botId, i, role⟩ reaction o := by
  obtain ⟨rest, hcell⟩ := Promises.ready?_eq_some.mp hready
  rw [h i role] at hcell
  cases hi : σ i with
  | none => cases role <;> simp [hi] at hcell
  | some c =>
    obtain ⟨u, phase⟩ := c
    cases role with
    | first =>
      rw [cellAt, hi, Option.bind_some] at hcell
      split at hcell
      next hzero =>
        rw [Option.some_inj, PromiseCell.mk.injEq] at hcell
        subst hzero
        exact readyIn_waiters hcell.2 nofun
      next => cases hcell
    | next =>
      rw [cellAt, hi, Option.map_some, Option.some_inj, PromiseCell.mk.injEq] at hcell
      refine readyIn_waiters hcell.2 fun before hbefore => ?_
      obtain rfl : i = before := Nat.succ.inj hbefore
      cases phase <;> simp at hcell
      next c o' => exact ⟨u, c, o', hi⟩
    | caught =>
      cases phase <;> simp [hi] at hcell
      obtain ⟨rfl, rfl, -⟩ := hcell
      exact .start hi
    | processing =>
      cases phase <;> simp [hi] at hcell
      obtain ⟨rfl, rfl, -⟩ := hcell
      exact .return hi
    | handling =>
      cases phase with
      | handled o' =>
        simp [hi] at hcell
        obtain ⟨rfl, rfl, -⟩ := hcell
        exact .process hi
      | processed c o' => cases c <;> simp [hi] at hcell
      | returned c o' => cases c <;> simp [hi] at hcell
      | _ => simp [hi] at hcell

end BotHive.Workers
