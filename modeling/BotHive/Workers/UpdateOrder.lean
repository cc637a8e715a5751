import Mathlib.Algebra.Order.BigOperators.Ring.Finset
import BotHive.Workers.UpdateFrames

/-!
# The order of the updates of a bot

Whatever the order of calls, reactions and settled updates, the updates of a bot are processed one
after the other, in the order of their calls and each of them once, and a run goes on for a bot in
the same way without the actions of the others.

## Main results

- `Follows.move`: a reaction or a settled update moves one update of its bot on
- `length_le_movesLeft`: the updates of a bot cannot be moved on forever
- `exec_filter_bot`: a bot without the actions of the others
- `updates_in_turn`: the updates of each bot
-/

namespace BotHive.Workers

open ChainState

variable {U : Type*} {s t s' : ChainState U} {botId : String} {σ : Phases U} {i : ℕ} {u : U}
  {phase phase' : Phase} {events : List (UpdateEvent U)}

/-- An update that is not queued has a predecessor that has been returned. -/
def Turns (σ : Phases U) : Prop :=
  ∀ i u phase, σ i = some (u, phase) → phase ≠ .queued → BeforeReturned σ i

/-- What holds of a bot in every state. -/
structure Follows (s : ChainState U) (botId : String) (σ : Phases U) : Prop where
  promises : Renders s.promises botId σ
  chain : Chained s botId
  calls : ∀ i, (s.calls botId)[i]? = (σ i).map Prod.fst
  turn : Turns σ
  log : s.logOf botId =
    (s.calls botId).zipIdx.flatMap fun c => (progressOf σ c.2).events c.2 c.1

theorem Follows.of_sameBot (h : Follows s botId σ) (hsame : SameBot botId s' s) :
    Follows s' botId σ where
  promises i role := (hsame.promises mem_promisesOf).trans (h.promises i role)
  chain := by
    rw [Chained, hsame.updateChains, hsame.calls]
    exact h.chain
  calls := by
    rw [hsame.calls]
    exact h.calls
  turn := h.turn
  log := by
    rw [hsame.log, hsame.calls]
    exact h.log

section Advance

def Phase.Returned (phase : Phase) : Prop :=
  ∃ connected outcome, phase = .returned connected outcome

theorem progressOf_eq (hi : σ i = some (u, phase)) : progressOf σ i = phase.progress := by
  rw [progressOf, hi]

/-- Behind an update that has not been returned the next one is queued, if there is one. -/
theorem Turns.queued (h : Turns σ) (hi : ∀ v q, σ i = some (v, q) → ¬q.Returned) {v : U} {q : Phase}
    (hnext : σ (i + 1) = some (v, q)) : q = .queued := by
  by_contra hq
  obtain ⟨w, connected, outcome, hreturned⟩ := h (i + 1) v q hnext hq i rfl
  exact hi w _ hreturned ⟨connected, outcome, rfl⟩

/-- Nothing has been done with the updates behind one that has not been returned. -/
theorem Turns.waiting (h : Turns σ) (hi : σ i = some (u, phase)) (hphase : ¬phase.Returned) {j : ℕ}
    (hj : i < j) : progressOf σ j = .waiting := by
  have hqueued : ∀ k v q, σ (i + k + 1) = some (v, q) → q = .queued := by
    intro k
    induction k with
    | zero =>
      refine fun v q => h.queued fun v q hq => ?_
      rw [hi, Option.some_inj, Prod.mk.injEq] at hq
      exact hq.2 ▸ hphase
    | succ k ih =>
      refine fun v q => h.queued fun v q hq => ?_
      rw [ih v q hq]
      rintro ⟨connected, outcome, hreturned⟩
      cases hreturned
  obtain ⟨k, rfl⟩ := Nat.exists_eq_add_of_lt hj
  rw [progressOf]
  split
  next => rfl
  next v q hq =>
    rw [hqueued k v q hq]
    rfl

/-- Two logs of the same calls that differ in what they have last. -/
theorem flatMap_zipIdx_advance {α β : Type*} {l : List α} {i : ℕ} {a : α} {f g : α × ℕ → List β}
    {es : List β} (hi : l[i]? = some a) (hbefore : ∀ c, c.2 < i → g c = f c)
    (hself : g (a, i) = f (a, i) ++ es) (hafter : ∀ c, i < c.2 → f c = [] ∧ g c = []) :
    l.zipIdx.flatMap g = l.zipIdx.flatMap f ++ es := by
  obtain ⟨hlt, rfl⟩ := List.getElem?_eq_some_iff.mp hi
  have hsplit : l = l.take i ++ l[i] :: l.drop (i + 1) := by
    rw [← List.drop_eq_getElem_cons, List.take_append_drop]
  have hlength : (l.take i).length = i := List.length_take_of_le (Nat.le_of_lt hlt)
  have hparts : l.zipIdx = (l.take i).zipIdx ++ (l[i], i) :: (l.drop (i + 1)).zipIdx (i + 1) := by
    conv_lhs => rw [hsplit]
    rw [List.zipIdx_append, hlength, Nat.zero_add, List.zipIdx_cons]
  have hpre : (l.take i).zipIdx.flatMap g = (l.take i).zipIdx.flatMap f := by
    refine List.flatMap_congr fun c hc => hbefore c ?_
    have hlt := List.snd_lt_add_of_mem_zipIdx hc
    rwa [hlength, Nat.zero_add] at hlt
  have hpost : ((l.drop (i + 1)).zipIdx (i + 1)).flatMap f = [] ∧
      ((l.drop (i + 1)).zipIdx (i + 1)).flatMap g = [] :=
    ⟨List.flatMap_eq_nil_iff.mpr fun c hc => (hafter c (List.le_snd_of_mem_zipIdx hc)).1,
      List.flatMap_eq_nil_iff.mpr fun c hc => (hafter c (List.le_snd_of_mem_zipIdx hc)).2⟩
  rw [hparts, List.flatMap_append, List.flatMap_append, List.flatMap_cons, List.flatMap_cons, hpre,
    hpost.1, hpost.2, hself, List.append_nil, List.append_nil, List.append_assoc]

/-- What is logged when an update is moved on. -/
theorem log_advance (hturn : Turns σ) {calls : List U} (hcall : calls[i]? = some u)
    (hi : σ i = some (u, phase)) (hphase : ¬phase.Returned)
    (hevents : phase'.progress.events i u = phase.progress.events i u ++ events) :
    (calls.zipIdx.flatMap fun c =>
      (progressOf (Function.update σ i (some (u, phase'))) c.2).events c.2 c.1) =
    (calls.zipIdx.flatMap fun c => (progressOf σ c.2).events c.2 c.1) ++ events := by
  have hother {j : ℕ} (hj : j ≠ i) :
      progressOf (Function.update σ i (some (u, phase'))) j = progressOf σ j := by
    rw [progressOf, progressOf, Function.update_of_ne hj]
  refine flatMap_zipIdx_advance hcall (fun c hc => ?_) ?_ fun c hc => ?_
  · rw [hother (Nat.ne_of_lt hc)]
  · rw [progressOf_eq (Function.update_self _ _ _), progressOf_eq hi]
    exact hevents
  · rw [hother (Nat.ne_of_gt hc), hturn.waiting hi hphase hc]
    exact ⟨rfl, rfl⟩

theorem Turns.advance (h : Turns σ) (hi : σ i = some (u, phase)) (hphase : ¬phase.Returned)
    (hbefore : BeforeReturned σ i) : Turns (Function.update σ i (some (u, phase'))) := by
  -- the moved update is not a predecessor that has been returned
  have hkeep {j : ℕ} (hj : BeforeReturned σ j) :
      BeforeReturned (Function.update σ i (some (u, phase'))) j := by
    intro before hbefore
    obtain ⟨v, connected, outcome, hreturned⟩ := hj before hbefore
    have hne : before ≠ i := by
      rintro rfl
      rw [hi, Option.some_inj, Prod.mk.injEq] at hreturned
      exact hphase ⟨connected, outcome, hreturned.2⟩
    exact ⟨v, connected, outcome, by rw [Function.update_of_ne hne, hreturned]⟩
  intro j v q hj hq
  by_cases hne : j = i
  · exact hne ▸ hkeep hbefore
  · rw [Function.update_of_ne hne] at hj
    exact hkeep (h j v q hj hq)

/-- An update that is not returned is moved on. -/
theorem Follows.advance (h : Follows s botId σ) (hi : σ i = some (u, phase)) (hphase : ¬phase.Returned)
    (hbefore : BeforeReturned σ i)
    (hevents : phase'.progress.events i u = phase.progress.events i u ++ events)
    (hpromises : Renders s'.promises botId (Function.update σ i (some (u, phase'))))
    (hsame : s'.updateChains botId = s.updateChains botId ∧ s'.calls botId = s.calls botId)
    (hlog : s'.logOf botId = s.logOf botId ++ events) :
    Follows s' botId (Function.update σ i (some (u, phase'))) where
  promises := hpromises
  chain := by
    rw [Chained, hsame.1, hsame.2]
    exact h.chain
  calls j := by
    rw [hsame.2, h.calls j]
    by_cases hj : j = i
    · rw [hj, hi, Function.update_self]
      rfl
    · rw [Function.update_of_ne hj]
  turn := h.turn.advance hi hphase hbefore
  log := by
    have hcall : (s.calls botId)[i]? = some u := by rw [h.calls i, hi]; rfl
    rw [hlog, hsame.2, log_advance h.turn hcall hi hphase hevents, h.log]

/-- A reaction that only settles a promise. -/
theorem Follows.settle (h : Follows s botId σ) (hi : σ i = some (u, phase)) (hphase : ¬phase.Returned)
    (hbefore : BeforeReturned σ i) {ps : Promises PromiseName (UpdateCall U) String}
    (hpromises : Renders ps botId (Function.update σ i (some (u, phase'))))
    (hprogress : phase'.progress = phase.progress) :
    Follows (s.setPromises ps) botId (Function.update σ i (some (u, phase'))) := by
  refine h.advance hi hphase hbefore ?_ hpromises ⟨rfl, rfl⟩ (List.append_nil _).symm
  rw [hprogress, List.append_nil]

end Advance

section Steps

theorem Follows.none_of_le (h : Follows s botId σ) (hi : (s.calls botId).length ≤ i) : σ i = none := by
  have hcall := h.calls i
  rw [List.getElem?_eq_none hi] at hcall
  exact Option.map_eq_none_iff.mp hcall.symm

/-- A new call is queued. -/
theorem Follows.handleUpdate (h : Follows s botId σ) (u : U) :
    ∃ σ', Follows (s.handleUpdate botId u) botId σ' := by
  let n := (s.calls botId).length
  have hnone (j : ℕ) (hj : n ≤ j) : σ j = none := h.none_of_le hj
  have hsome (j : ℕ) (hj : n = j + 1) : ∃ c, σ j = some c := by
    have hcall := h.calls j
    rw [List.getElem?_eq_getElem (show j < n by omega)] at hcall
    obtain ⟨c, hc, -⟩ := Option.map_eq_some_iff.mp hcall.symm
    exact ⟨c, hc⟩
  have hcalls : (s.handleUpdate botId u).calls botId = s.calls botId ++ [u] :=
    Function.update_self _ _ _
  have hother {j : ℕ} (hj : j ≠ n) :
      progressOf (Function.update σ n (some (u, .queued))) j = progressOf σ j := by
    rw [progressOf, progressOf, Function.update_of_ne hj]
  refine ⟨Function.update σ n (some (u, .queued)), ?_, ?_, fun j => ?_, fun j v q hj hq => ?_, ?_⟩
  · have hrenders := h.promises.call (u := u) (hnone n (Nat.le_refl n)) (hnone (n + 1) (Nat.le_succ n))
      hsome
    have hpromises : (s.handleUpdate botId u).promises =
        ((s.previous botId).1.catchAll (s.previous botId).2 ⟨botId, n, .caught⟩).andThen
          ⟨botId, n, .caught⟩ ⟨botId, n, u⟩ ⟨botId, n, .next⟩ := rfl
    rw [hpromises, previous_eq h.chain]
    exact hrenders
  · rw [Chained, hcalls, List.length_append]
    exact Function.update_self _ _ _
  · rw [hcalls]
    by_cases hj : j = n
    · rw [hj, Function.update_self]
      exact List.getElem?_concat_length
    · rw [Function.update_of_ne hj, ← h.calls j]
      obtain hlt | hgt := Nat.lt_or_gt_of_ne hj
      · exact List.getElem?_append_left hlt
      · rw [List.getElem?_eq_none (Nat.le_of_lt hgt), List.getElem?_eq_none]
        rwa [List.length_append]
  · have hne : j ≠ n := by
      rintro rfl
      rw [Function.update_self, Option.some_inj, Prod.mk.injEq] at hj
      exact hq hj.2.symm
    rw [Function.update_of_ne hne] at hj
    intro before hbefore
    obtain ⟨w, connected, outcome, hreturned⟩ := h.turn j v q hj hq before hbefore
    have hne' : before ≠ n := by
      rintro rfl
      rw [hnone n (Nat.le_refl n)] at hreturned
      cases hreturned
    exact ⟨w, connected, outcome, by rw [Function.update_of_ne hne', hreturned]⟩
  · have hsame : (s.calls botId).zipIdx.flatMap (fun c =>
        (progressOf (Function.update σ n (some (u, .queued))) c.2).events c.2 c.1) =
        (s.calls botId).zipIdx.flatMap fun c => (progressOf σ c.2).events c.2 c.1 := by
      refine List.flatMap_congr fun c hc => ?_
      have hlt := List.snd_lt_of_mem_zipIdx hc
      rw [hother (Nat.ne_of_lt hlt)]
    have hlast : progressOf (Function.update σ n (some (u, .queued))) n = .waiting :=
      progressOf_eq (Function.update_self _ _ _)
    rw [hcalls, List.zipIdx_append, List.flatMap_append, hsame, List.zipIdx_singleton, Nat.zero_add,
      List.flatMap_singleton, hlast]
    exact h.log.trans (List.append_nil _).symm

/-- How many moves an update is away from being returned. -/
def Phase.left : Phase → ℕ
  | .queued => 5
  | .caught => 4
  | .running => 3
  | .handled _ => 2
  | .processed _ _ => 1
  | .returned _ _ => 0

theorem Phase.not_returned (h : 0 < phase.left) : ¬phase.Returned := by
  rintro ⟨connected, outcome, rfl⟩
  exact absurd h (Nat.lt_irrefl 0)

theorem Phase.ne_queued (h : phase.left < 5) : phase ≠ .queued := by
  rintro rfl
  exact absurd h (Nat.lt_irrefl 5)

/-- One update has been moved on. -/
def MovedOn (σ σ' : Phases U) : Prop :=
  ∃ i u phase phase', σ i = some (u, phase) ∧ phase'.left < phase.left ∧
    σ' = Function.update σ i (some (u, phase'))

/-- A reaction moves an update on. -/
theorem Follows.react (h : Follows s botId σ) {name : PromiseName}
    {reaction : Reaction PromiseName (UpdateCall U)} {o : Settlement String}
    (hready : ReadyIn botId σ name reaction o) :
    ∃ σ', Follows ((s.setPromises (s.promises.dequeue name)).react reaction o) botId σ' ∧
      MovedOn σ σ' := by
  cases hready with
  | recover hi hbefore =>
    exact ⟨_, h.settle hi (Phase.not_returned (by decide)) hbefore (h.promises.recover hi hbefore) rfl,
      _, _, _, _, hi, by decide, rfl⟩
  | process hi =>
    have hbefore := h.turn _ _ _ hi (Phase.ne_queued (by simp [Phase.left]))
    exact ⟨_, h.settle hi (Phase.not_returned (by simp [Phase.left])) hbefore
      (h.promises.process hi) rfl, _, _, _, _, hi, by simp [Phase.left], rfl⟩
  | «return» hi =>
    have hbefore := h.turn _ _ _ hi (Phase.ne_queued (by simp [Phase.left]))
    exact ⟨_, h.settle hi (Phase.not_returned (by simp [Phase.left])) hbefore
      (h.promises.return hi) rfl, _, _, _, _, hi, by simp [Phase.left], rfl⟩
  | @start i u hi =>
    have hbefore := h.turn _ _ _ hi (Phase.ne_queued (by decide))
    have hphase : ¬Phase.caught.Returned := Phase.not_returned (by decide)
    obtain ⟨-, heq⟩ | ⟨-, heq⟩ := processUpdate_cases
      (s.setPromises (s.promises.dequeue ⟨botId, i, .caught⟩)) ⟨botId, i, u⟩
    · rw [ChainState.react, heq]
      exact ⟨_, h.advance hi hphase hbefore rfl (h.promises.start hi) ⟨rfl, rfl⟩ (logOf_append rfl),
        _, _, _, _, hi, by decide, rfl⟩
    · rw [ChainState.react, heq]
      exact ⟨_, h.advance hi hphase hbefore rfl (h.promises.refuse hi) ⟨rfl, rfl⟩
        (logOf_append rfl), _, _, _, _, hi, by simp [Phase.left], rfl⟩

theorem Follows.handled (h : Follows s botId σ) {o : Settlement String}
    (hstep : s.step (.handled botId i o) = some s') :
    ∃ σ', Follows s' botId σ' ∧ MovedOn σ σ' := by
  obtain ⟨⟨reactions, hcell⟩, rfl⟩ := handled_eq_some hstep
  obtain ⟨u, hi⟩ := h.promises.running hcell
  have hbefore := h.turn _ _ _ hi (Phase.ne_queued (by decide))
  exact ⟨_, h.advance hi (Phase.not_returned (by decide)) hbefore rfl (h.promises.handled hi)
    ⟨rfl, rfl⟩ (logOf_append rfl), _, _, _, _, hi, by simp [Phase.left], rfl⟩

/-- An action that moves the updates of a bot on. -/
theorem Follows.move (h : Follows s botId σ) {a : Action U} (hmove : a.Moves botId)
    (hstep : s.step a = some s') : ∃ σ', Follows s' botId σ' ∧ MovedOn σ σ' := by
  cases a with
  | react bot call role =>
    obtain rfl : bot = botId := hmove
    obtain ⟨⟨reaction, o⟩, hready, hstep⟩ := Option.bind_eq_some_iff.mp hstep
    obtain rfl := Option.some.inj hstep
    exact h.react (h.promises.readyIn hready)
  | handled bot call outcome =>
    obtain rfl : bot = botId := hmove
    exact h.handled hstep
  | _ => exact hmove.elim

/-- What holds of every bot in every state. -/
def AllFollow (s : ChainState U) : Prop :=
  ∀ botId, ∃ σ, Follows s botId σ

theorem allFollow_start : AllFollow (ChainState.start : ChainState U) := by
  refine fun botId => ⟨fun _ => none, fun i role => ?_, rfl, fun i => rfl, nofun, rfl⟩
  cases role <;> rfl

theorem AllFollow.step (h : AllFollow s) {a : Action U} (hstep : s.step a = some s') :
    AllFollow s' := by
  intro botId
  by_cases hbot : a.botId = botId
  · subst hbot
    obtain ⟨σ, hσ⟩ := h a.botId
    cases a with
    | connect bot =>
      obtain rfl := Option.some.inj hstep
      exact ⟨σ, hσ.promises, hσ.chain, hσ.calls, hσ.turn, hσ.log⟩
    | disconnect bot =>
      obtain rfl := Option.some.inj hstep
      exact ⟨σ, hσ.promises, hσ.chain, hσ.calls, hσ.turn, hσ.log⟩
    | handleUpdate bot u =>
      obtain rfl := Option.some.inj hstep
      exact hσ.handleUpdate u
    | react bot call role =>
      obtain ⟨σ', hσ', -⟩ := hσ.move (show (Action.react bot call role : Action U).Moves bot from rfl)
        hstep
      exact ⟨σ', hσ'⟩
    | handled bot call outcome =>
      obtain ⟨σ', hσ', -⟩ := hσ.handled hstep
      exact ⟨σ', hσ'⟩
  · obtain ⟨τ, hτ⟩ := h a.botId
    obtain ⟨σ, hσ⟩ := h botId
    exact ⟨σ, hσ.of_sameBot (step_of_ne hτ.promises hτ.chain hbot hstep)⟩

end Steps

section Turns

theorem Renders.returned_eq (h : Renders s.promises botId σ) :
    s.returned botId i = (σ i).bind fun c => c.2.returned? := by
  rw [returned, h i .next, cellAt]
  cases σ i <;> rfl

theorem Phase.eq_returned {o : Settlement String} (h : phase.returned? = some o) :
    ∃ connected, phase = .returned connected o := by
  cases phase with
  | returned connected outcome =>
    obtain rfl := Option.some.inj h
    exact ⟨connected, rfl⟩
  | _ => cases h

/-- Behind a returned update the next one runs or has a reaction that is ready. -/
theorem Renders.moves (h : Renders s.promises botId σ) (hi : σ i = some (u, phase))
    (hphase : phase.returned? = none) (hbefore : BeforeReturned σ i) :
    phase.progress = .running ∨
      ∃ earlier ≤ i, ∃ role, (s.promises.ready? ⟨botId, earlier, role⟩).isSome := by
  cases phase with
  | queued =>
    refine Or.inr ?_
    cases i with
    | zero =>
      refine ⟨0, Nat.le_refl 0, .first, ?_⟩
      simp [Promises.ready?, h _ _, cellAt, hi, waiters]
    | succ i =>
      obtain ⟨v, connected, outcome, hreturned⟩ := hbefore i rfl
      refine ⟨i, Nat.le_succ i, .next, ?_⟩
      simp [Promises.ready?, h _ _, cellAt, hi, hreturned, waiters, Phase.returned?]
  | caught =>
    refine Or.inr ⟨i, Nat.le_refl i, .caught, ?_⟩
    simp [Promises.ready?, h _ _, cellAt, hi, Phase.caughtCell]
  | running => exact Or.inl rfl
  | handled outcome =>
    refine Or.inr ⟨i, Nat.le_refl i, .handling, ?_⟩
    simp [Promises.ready?, h _ _, cellAt, hi, Phase.handlingCell]
  | processed connected outcome =>
    refine Or.inr ⟨i, Nat.le_refl i, .processing, ?_⟩
    simp [Promises.ready?, h _ _, cellAt, hi, Phase.processingCell]
  | returned connected outcome => cases hphase

theorem Follows.moves (h : Follows s botId σ) (hcall : i < (s.calls botId).length)
    (hreturned : s.returned botId i = none) :
    (∃ earlier ≤ i, progressOf σ earlier = .running) ∨
      ∃ earlier ≤ i, ∃ role, (s.promises.ready? ⟨botId, earlier, role⟩).isSome := by
  -- the first update that has not been returned is the one to look at
  have hfirst {i : ℕ} (hcall : i < (s.calls botId).length) (hreturned : s.returned botId i = none)
      (hbefore : BeforeReturned σ i) : (∃ earlier ≤ i, progressOf σ earlier = .running) ∨
        ∃ earlier ≤ i, ∃ role, (s.promises.ready? ⟨botId, earlier, role⟩).isSome := by
    have hmade := h.calls i
    rw [List.getElem?_eq_getElem hcall] at hmade
    obtain ⟨⟨u, phase⟩, hi, -⟩ := Option.map_eq_some_iff.mp hmade.symm
    rw [h.promises.returned_eq, hi, Option.bind_some] at hreturned
    refine (h.promises.moves hi hreturned hbefore).imp_left fun hrunning => ?_
    exact ⟨i, Nat.le_refl i, (progressOf_eq hi).trans hrunning⟩
  induction i with
  | zero => exact hfirst hcall hreturned nofun
  | succ i ih =>
    have hcall' : i < (s.calls botId).length := Nat.lt_of_succ_lt hcall
    cases hbefore : s.returned botId i with
    | none =>
      obtain ⟨earlier, hle, hrunning⟩ | ⟨earlier, hle, hready⟩ := ih hcall' hbefore
      · exact Or.inl ⟨earlier, Nat.le_succ_of_le hle, hrunning⟩
      · exact Or.inr ⟨earlier, Nat.le_succ_of_le hle, hready⟩
    | some outcome =>
      refine hfirst hcall hreturned fun before heq => ?_
      obtain rfl := Nat.succ.inj heq
      rw [h.promises.returned_eq] at hbefore
      obtain ⟨⟨u, phase⟩, hi, hphase⟩ := Option.bind_eq_some_iff.mp hbefore
      obtain ⟨connected, rfl⟩ := phase.eq_returned hphase
      exact ⟨u, connected, outcome, hi⟩

theorem Follows.inTurn (h : Follows s botId σ) : InTurn s botId (progressOf σ) where
  log := h.log
  turn call hnext := by
    cases hcall : σ (call + 1) with
    | none =>
      rw [progressOf, hcall] at hnext
      exact absurd rfl hnext
    | some c =>
      obtain ⟨u, phase⟩ := c
      have hphase : phase ≠ .queued := by
        rintro rfl
        rw [progressOf_eq hcall] at hnext
        exact hnext rfl
      obtain ⟨v, connected, outcome, hreturned⟩ := h.turn (call + 1) u phase hcall hphase call rfl
      exact ⟨outcome, progressOf_eq hreturned⟩
  own call outcome hreturned := by
    rw [h.promises.returned_eq] at hreturned
    obtain ⟨⟨u, phase⟩, hcall, hreturned⟩ := Option.bind_eq_some_iff.mp hreturned
    obtain ⟨connected, rfl⟩ := phase.eq_returned hreturned
    exact progressOf_eq hcall
  moves call hcall hreturned := h.moves hcall hreturned

end Turns

section Runs

/-- The moves that the updates of a bot are away from being returned. -/
def movesLeft (σ : Phases U) (n : ℕ) : ℕ :=
  ∑ i ∈ Finset.range n, (σ i).elim 0 fun c => c.2.left

theorem movesLeft_lt {σ' : Phases U} {n : ℕ} (h : MovedOn σ σ') (hn : ∀ i, n ≤ i → σ i = none) :
    movesLeft σ' n < movesLeft σ n := by
  obtain ⟨i, u, phase, phase', hi, hlt, rfl⟩ := h
  have hmem : i ∈ Finset.range n := by
    rw [Finset.mem_range]
    by_contra hge
    rw [hn i (Nat.not_lt.mp hge)] at hi
    cases hi
  refine Finset.sum_lt_sum (fun j hj => ?_) ⟨i, hmem, ?_⟩
  · by_cases hne : j = i
    · rw [hne, Function.update_self, hi]
      exact Nat.le_of_lt hlt
    · rw [Function.update_of_ne hne]
  · rw [Function.update_self, hi]
    exact hlt

theorem movesLeft_le (σ : Phases U) (n : ℕ) : movesLeft σ n ≤ 5 * n := by
  have hle : ∀ i ∈ Finset.range n, ((σ i).elim 0 fun c => c.2.left) ≤ 5 := by
    intro i _
    cases σ i with
    | none => exact Nat.zero_le 5
    | some c => cases hphase : c.2 <;> simp [hphase, Phase.left]
  have hsum := Finset.sum_le_card_nsmul _ _ _ hle
  rwa [Finset.card_range, nsmul_eq_mul, Nat.cast_id, Nat.mul_comm] at hsum

theorem MovedOn.calls_eq {σ' : Phases U} (hmoved : MovedOn σ σ') (h : Follows s botId σ)
    (h' : Follows s' botId σ') : s'.calls botId = s.calls botId := by
  obtain ⟨i, u, phase, phase', hi, -, rfl⟩ := hmoved
  refine List.ext_getElem? fun j => ?_
  rw [h.calls, h'.calls]
  by_cases hj : j = i
  · rw [hj, hi, Function.update_self]
    rfl
  · rw [Function.update_of_ne hj]

/-- The updates of a bot cannot be moved on forever. -/
theorem length_le_movesLeft (h : Follows s botId σ) {as : List (Action U)}
    (hmoves : ∀ a ∈ as, a.Moves botId) (hexec : Machine.exec ChainState.step s as = some t) :
    as.length ≤ movesLeft σ (s.calls botId).length := by
  induction as generalizing s σ with
  | nil => exact Nat.zero_le _
  | cons a rest ih =>
    obtain ⟨m, hstep, hrest⟩ := Option.bind_eq_some_iff.mp hexec
    obtain ⟨σ', hσ', hmoved⟩ := h.move (hmoves a List.mem_cons_self) hstep
    have hle := ih hσ' (fun b hb => hmoves b (List.mem_cons_of_mem a hb)) hrest
    have hlt := movesLeft_lt hmoved fun i => h.none_of_le
    rw [hmoved.calls_eq h hσ'] at hle
    rw [List.length_cons]
    omega

theorem AllFollow.exec (h : AllFollow s) {as : List (Action U)}
    (hexec : Machine.exec ChainState.step s as = some t) : AllFollow t :=
  (Machine.everywhere_of_invariant AllFollow AllFollow (fun _ _ _ h _ hstep => h.step hstep)
    (fun _ h => h) h (Machine.along_true s as)).at_end hexec

/-- A run without the actions of other bots leads to the same for a bot. -/
theorem exec_filter_bot (h : AllFollow s) {as : List (Action U)}
    (hexec : Machine.exec ChainState.step s as = some t) (botId : String) :
    ∃ t', Machine.exec ChainState.step s (as.filter (·.botId = botId)) = some t' ∧
      SameBot botId t t' := by
  have hkeep : ∀ m a m' (n : ChainState U), AllFollow m ∧ SameBot botId m n → True →
      m.step a = some m' → decide (a.botId = botId) = true →
      ∃ n', n.step a = some n' ∧ AllFollow m' ∧ SameBot botId m' n' := by
    rintro m a m' n ⟨hm, hsame⟩ - hstep hkeep
    obtain rfl : a.botId = botId := of_decide_eq_true hkeep
    obtain ⟨σ, hσ⟩ := hm a.botId
    obtain ⟨n', hn', hsame'⟩ := step_of_sameBot hσ.promises hσ.chain hsame hstep
    exact ⟨n', hn', hm.step hstep, hsame'⟩
  have hdrop : ∀ m a m' (n : ChainState U), AllFollow m ∧ SameBot botId m n → True →
      m.step a = some m' → decide (a.botId = botId) = false →
      AllFollow m' ∧ SameBot botId m' n := by
    rintro m a m' n ⟨hm, hsame⟩ - hstep hdrop
    obtain ⟨σ, hσ⟩ := hm a.botId
    have hother : SameBot botId m' m :=
      step_of_ne hσ.promises hσ.chain (of_decide_eq_false hdrop) hstep
    exact ⟨hm.step hstep, hother.trans hsame⟩
  obtain ⟨t', ht', -, hsame⟩ := Machine.exec_filter hkeep hdrop ⟨h, SameBot.refl botId s⟩
    (Machine.along_true s as) hexec
  exact ⟨t', ht', hsame⟩

end Runs

/-- **Updates in turn**: in every order of calls, reactions, settled updates and connections, the
    updates of each bot are processed one after the other in the order of their calls, every promise
    is settled as its own update ended, an update waits for those of its own bot only and not
    forever, and the bot gets on as it does without the others. -/
theorem updates_in_turn {as : List (Action U)}
    (h : Machine.exec ChainState.step ChainState.start as = some s) (botId : String) :
    (∃ progress, InTurn s botId progress) ∧
    (∀ moves t, (∀ a ∈ moves, a.Moves botId) → Machine.exec ChainState.step s moves = some t →
      moves.length ≤ 5 * (s.calls botId).length) ∧
    ∃ t, Machine.exec ChainState.step ChainState.start (as.filter (·.botId = botId)) = some t ∧
      SameBot botId s t := by
  obtain ⟨σ, hσ⟩ := allFollow_start.exec h botId
  refine ⟨⟨_, hσ.inTurn⟩, fun moves t hmoves hexec => ?_, exec_filter_bot allFollow_start h botId⟩
  exact (length_le_movesLeft hσ hmoves hexec).trans (movesLeft_le σ _)

/-- Where nothing of a bot runs or is ready, all of its updates have been processed and returned. -/
theorem InTurn.all_returned {progress : ℕ → Progress} (h : InTurn s botId progress)
    (hrunning : ∀ call, progress call ≠ .running)
    (hready : ∀ call role, s.promises.ready? ⟨botId, call, role⟩ = none) {call : ℕ}
    (hcall : call < (s.calls botId).length) :
    ∃ outcome, s.returned botId call = some outcome ∧ progress call = .ended outcome := by
  cases hreturned : s.returned botId call with
  | none =>
    obtain ⟨earlier, -, hmoves⟩ | ⟨earlier, -, role, hmoves⟩ := h.moves call hcall hreturned
    · exact absurd hmoves (hrunning earlier)
    · rw [hready earlier role] at hmoves
      cases hmoves
  | some outcome => exact ⟨outcome, rfl, h.own call outcome hreturned⟩

/-- The second update starts when the first one has failed, whose promise only is rejected. -/
theorem inTurn_failedUpdate : ∃ s : ChainState ℕ,
    Machine.exec ChainState.step ChainState.start
      [.connect "a", .handleUpdate "a" 7, .handleUpdate "a" 8, .react "a" 0 .first,
        .react "a" 0 .caught, .handled "a" 0 (.rejected "timeout"), .react "a" 0 .handling,
        .react "a" 0 .processing, .react "a" 0 .next, .react "a" 1 .caught] = some s ∧
      s.logOf "a" = [.started 0 7, .ended 0 (.rejected "timeout"), .started 1 8] ∧
      s.returned "a" 0 = some (.rejected "timeout") ∧ s.returned "a" 1 = none ∧
      ∃ progress, InTurn s "a" progress := by
  let run : Option (ChainState ℕ) := Machine.exec ChainState.step ChainState.start
    [.connect "a", .handleUpdate "a" 7, .handleUpdate "a" 8, .react "a" 0 .first,
      .react "a" 0 .caught, .handled "a" 0 (.rejected "timeout"), .react "a" 0 .handling,
      .react "a" 0 .processing, .react "a" 0 .next, .react "a" 1 .caught]
  have hrun : run.map (fun s => (s.logOf "a", s.returned "a" 0, s.returned "a" 1)) =
      some ([.started 0 7, .ended 0 (.rejected "timeout"), .started 1 8],
        some (.rejected "timeout"), none) := by
    decide
  obtain ⟨s, hs, heq⟩ := Option.map_eq_some_iff.mp hrun
  rw [Prod.mk.injEq, Prod.mk.injEq] at heq
  exact ⟨s, hs, heq.1, heq.2.1, heq.2.2, (updates_in_turn hs "a").1⟩

end BotHive.Workers
