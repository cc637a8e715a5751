import BotHive.Workers.UpdatePhases

/-!
# What the updates of one bot have to do with other bots

An action of a bot reads and writes the promises of its own bot only: other bots keep what they
have, and states that are the same for the bot stay so.

## Main results

- `step_of_ne`: the actions of other bots leave a bot alone
- `step_of_sameBot`: an action does the same in states that are the same for its bot
-/

namespace BotHive.Workers

open ChainState

variable {U : Type*} {s t s' : ChainState U} {botId other : String} {σ : Phases U}
  {ps qs : Promises PromiseName (UpdateCall U) String} {name target : PromiseName}
  {reaction : Reaction PromiseName (UpdateCall U)} {o : Settlement String} {c : UpdateCall U}

namespace SameBot

theorem refl (botId : String) (s : ChainState U) : SameBot botId s s :=
  ⟨rfl, rfl, Set.eqOn_refl _ _, rfl, rfl⟩

theorem trans {r : ChainState U} (h : SameBot botId r s) (h' : SameBot botId s t) :
    SameBot botId r t :=
  ⟨h.instances.trans h'.instances, h.updateChains.trans h'.updateChains,
    h.promises.trans h'.promises, h.calls.trans h'.calls, h.log.trans h'.log⟩

/-- States that differ in their promises only. -/
theorem setPromises (h : SameBot botId s t) (hps : Set.EqOn ps qs (promisesOf botId)) :
    SameBot botId (s.setPromises ps) (t.setPromises qs) :=
  { h with promises := hps }

end SameBot

theorem mem_promisesOf {call : ℕ} {role : PromiseRole} :
    (⟨botId, call, role⟩ : PromiseName) ∈ promisesOf botId :=
  rfl

theorem waitsFor_mem (botId : String) (call : ℕ) : waitsFor botId call ∈ promisesOf botId := by
  cases call <;> rfl

section Log

variable {log : List (String × UpdateEvent U)} {events : List (UpdateEvent U)}

theorem logOf_append (hlog : s'.log = s.log ++ events.map (Prod.mk botId)) :
    s'.logOf botId = s.logOf botId ++ events := by
  have hall : (events.map (Prod.mk botId)).filter (·.1 = botId) = events.map (Prod.mk botId) := by
    refine List.filter_eq_self.mpr fun e he => ?_
    obtain ⟨event, -, rfl⟩ := List.mem_map.mp he
    exact decide_eq_true rfl
  have hback : (events.map (Prod.mk botId)).map Prod.snd = events := by
    rw [List.map_map]
    exact List.map_id events
  rw [logOf, logOf, hlog, List.filter_append, List.map_append, hall, hback]

theorem logOf_append_of_ne (hne : botId ≠ other)
    (hlog : s'.log = s.log ++ events.map (Prod.mk botId)) : s'.logOf other = s.logOf other := by
  have hnone : (events.map (Prod.mk botId)).filter (·.1 = other) = [] := by
    refine List.filter_eq_nil_iff.mpr fun e he => ?_
    obtain ⟨event, -, rfl⟩ := List.mem_map.mp he
    exact mt of_decide_eq_true hne
  rw [logOf, logOf, hlog, List.filter_append, hnone, List.append_nil]

end Log

/-- A reaction that settles a promise of the bot, or processes an update of it. -/
def OfBot (botId : String) : Reaction PromiseName (UpdateCall U) → Prop
  | .recover target => target ∈ promisesOf botId
  | .adopt target => target ∈ promisesOf botId
  | .andThen c target => c.botId = botId ∧ target ∈ promisesOf botId

theorem ReadyIn.ofBot (h : ReadyIn botId σ name reaction o) : OfBot botId reaction := by
  cases h with
  | recover => exact mem_promisesOf
  | start => exact ⟨rfl, mem_promisesOf⟩
  | process => exact mem_promisesOf
  | «return» => exact mem_promisesOf

/-- What is done with an update when `processUpdate` is called. -/
theorem processUpdate_cases (s : ChainState U) (c : UpdateCall U) :
    (s.instances c.botId = true ∧ s.processUpdate c =
      { s with
        promises := ((s.promises.make ⟨c.botId, c.call, .processing⟩ none).make
          ⟨c.botId, c.call, .handling⟩ none).follow ⟨c.botId, c.call, .handling⟩
            ⟨c.botId, c.call, .processing⟩
        log := s.log ++ [.started c.call c.update].map (Prod.mk c.botId) }) ∨
    (s.instances c.botId = false ∧ s.processUpdate c =
      { s with
        promises := s.promises.make ⟨c.botId, c.call, .processing⟩ (some (notConnected c.botId))
        log := s.log ++ [.started c.call c.update,
          .ended c.call (notConnected c.botId)].map (Prod.mk c.botId) }) := by
  cases hconnected : s.instances c.botId with
  | true => exact Or.inl ⟨rfl, if_pos hconnected⟩
  | false =>
    refine Or.inr ⟨rfl, ?_⟩
    rw [processUpdate, if_neg (by rw [hconnected]; exact Bool.false_ne_true), List.append_assoc]
    rfl

/-- The promise of the last call of a bot. -/
def lastCall (botId : String) : ℕ → Option PromiseName
  | 0 => none
  | call + 1 => some ⟨botId, call, .next⟩

/-- The chain of a bot ends in the promise of its last call. -/
def Chained (s : ChainState U) (botId : String) : Prop :=
  s.updateChains botId = lastCall botId (s.calls botId).length

theorem previous_eq (h : Chained s botId) : s.previous botId =
    (if (s.calls botId).length = 0 then s.promises.make ⟨botId, 0, .first⟩ (some .fulfilled)
      else s.promises, waitsFor botId (s.calls botId).length) := by
  rw [Chained] at h
  rw [previous, h]
  cases (s.calls botId).length <;> rfl

section Frames

variable (hne : botId ≠ other)
include hne

theorem notMem_of_ne (hname : name ∈ promisesOf botId) : name ∉ promisesOf other := by
  intro hother
  exact hne (hname.symm.trans hother)

theorem settle_of_ne (htarget : target ∈ promisesOf botId) :
    SameBot other (s.setPromises (s.promises.settle target o)) s :=
  (SameBot.refl other s).setPromises (Promises.eqOn_modify (notMem_of_ne hne htarget))

theorem processUpdate_of_ne (hc : c.botId = botId) : SameBot other (s.processUpdate c) s := by
  subst hc
  have hprocessing : (⟨c.botId, c.call, .processing⟩ : PromiseName) ∉ promisesOf other :=
    notMem_of_ne hne mem_promisesOf
  have hhandling : (⟨c.botId, c.call, .handling⟩ : PromiseName) ∉ promisesOf other :=
    notMem_of_ne hne mem_promisesOf
  obtain ⟨-, heq⟩ | ⟨-, heq⟩ := processUpdate_cases s c
  · rw [heq]
    refine ⟨rfl, rfl, ?_, rfl, logOf_append_of_ne hne rfl⟩
    exact (Promises.eqOn_modify hhandling).trans
      ((Promises.eqOn_make hhandling).trans (Promises.eqOn_make hprocessing))
  · rw [heq]
    exact ⟨rfl, rfl, Promises.eqOn_make hprocessing, rfl, logOf_append_of_ne hne rfl⟩

theorem react_of_ne (h : OfBot botId reaction) : SameBot other (s.react reaction o) s := by
  cases reaction with
  | recover target => exact settle_of_ne hne h
  | adopt target => exact settle_of_ne hne h
  | andThen c target =>
    obtain ⟨hc, htarget⟩ := h
    cases o with
    | rejected error => exact settle_of_ne hne htarget
    | fulfilled =>
      have hprocess : SameBot other (s.processUpdate c) s := processUpdate_of_ne hne hc
      have hname : (⟨c.botId, c.call, .processing⟩ : PromiseName) ∈ promisesOf botId := hc
      exact ((SameBot.refl other _).setPromises
        (Promises.eqOn_modify (notMem_of_ne hne hname))).trans hprocess

theorem handleUpdate_of_ne {u : U} (hchain : Chained s botId) :
    SameBot other (s.handleUpdate botId u) s := by
  have hprevious : Set.EqOn (s.previous botId).1 s.promises (promisesOf other) := by
    rw [previous_eq hchain]
    dsimp only
    split
    · exact Promises.eqOn_make (notMem_of_ne hne mem_promisesOf)
    · exact Set.eqOn_refl _ _
  have hname : (s.previous botId).2 ∉ promisesOf other := by
    rw [previous_eq hchain]
    exact notMem_of_ne hne (waitsFor_mem botId _)
  have hcaught : (⟨botId, (s.calls botId).length, .caught⟩ : PromiseName) ∉ promisesOf other :=
    notMem_of_ne hne mem_promisesOf
  have hnext : (⟨botId, (s.calls botId).length, .next⟩ : PromiseName) ∉ promisesOf other :=
    notMem_of_ne hne mem_promisesOf
  refine ⟨rfl, Function.update_of_ne hne.symm _ _, ?_, Function.update_of_ne hne.symm _ _, rfl⟩
  exact (Promises.eqOn_modify hcaught).trans ((Promises.eqOn_make hnext).trans
    ((Promises.eqOn_modify hname).trans ((Promises.eqOn_make hcaught).trans hprevious)))

end Frames

theorem handled_eq_some {call : ℕ} (h : s.step (.handled botId call o) = some s') :
    (∃ reactions, s.promises ⟨botId, call, .handling⟩ = some ⟨none, reactions⟩) ∧
      s' = { s with
        promises := s.promises.settle ⟨botId, call, .handling⟩ o
        log := s.log ++ [.ended call o].map (Prod.mk botId) } := by
  rw [step] at h
  split at h
  next reactions hcell => exact ⟨⟨reactions, hcell⟩, (Option.some.inj h).symm⟩
  next => cases h

/-- An action of a bot leaves the other bots alone. -/
theorem step_of_ne {a : Action U} (hrenders : Renders s.promises a.botId σ)
    (hchain : Chained s a.botId) (hne : a.botId ≠ other) (h : s.step a = some s') :
    SameBot other s' s := by
  cases a with
  | connect botId =>
    obtain rfl := Option.some.inj h
    exact { SameBot.refl other s with instances := Function.update_of_ne hne.symm _ _ }
  | disconnect botId =>
    obtain rfl := Option.some.inj h
    exact { SameBot.refl other s with instances := Function.update_of_ne hne.symm _ _ }
  | handleUpdate botId u =>
    obtain rfl := Option.some.inj h
    exact handleUpdate_of_ne hne hchain
  | react botId call role =>
    obtain ⟨⟨reaction, o⟩, hready, h⟩ := Option.bind_eq_some_iff.mp h
    obtain rfl := Option.some.inj h
    have hbot : OfBot botId reaction := (hrenders.readyIn hready).ofBot
    exact (react_of_ne hne hbot).trans
      ((SameBot.refl other s).setPromises (Promises.eqOn_modify (notMem_of_ne hne mem_promisesOf)))
  | handled botId call outcome =>
    obtain ⟨-, rfl⟩ := handled_eq_some h
    exact ⟨rfl, rfl, Promises.eqOn_modify (notMem_of_ne hne mem_promisesOf), rfl,
      logOf_append_of_ne hne rfl⟩

section Same

variable (h : SameBot botId s t)
include h

theorem settle_of_sameBot (htarget : target ∈ promisesOf botId) :
    SameBot botId (s.setPromises (s.promises.settle target o))
      (t.setPromises (t.promises.settle target o)) :=
  h.setPromises (Promises.EqOn.modify h.promises htarget)

/-- The same events are logged. -/
theorem SameBot.logOf_append {s' t' : ChainState U} {events : List (UpdateEvent U)}
    (hs : s'.log = s.log ++ events.map (Prod.mk botId))
    (ht : t'.log = t.log ++ events.map (Prod.mk botId)) : s'.logOf botId = t'.logOf botId := by
  rw [Workers.logOf_append hs, Workers.logOf_append ht, h.log]

theorem processUpdate_of_sameBot (hc : c.botId = botId) :
    SameBot botId (s.processUpdate c) (t.processUpdate c) := by
  subst hc
  obtain ⟨hs, heqs⟩ | ⟨hs, heqs⟩ := processUpdate_cases s c
  · obtain ⟨-, heqt⟩ | ⟨ht, -⟩ := processUpdate_cases t c
    · rw [heqs, heqt]
      exact ⟨h.instances, h.updateChains, Promises.EqOn.modify (Promises.EqOn.make
        (Promises.EqOn.make h.promises)) mem_promisesOf, h.calls, h.logOf_append rfl rfl⟩
    · rw [← h.instances, hs] at ht
      cases ht
  · obtain ⟨ht, -⟩ | ⟨-, heqt⟩ := processUpdate_cases t c
    · rw [← h.instances, hs] at ht
      cases ht
    · rw [heqs, heqt]
      exact ⟨h.instances, h.updateChains, Promises.EqOn.make h.promises, h.calls,
        h.logOf_append rfl rfl⟩

theorem react_of_sameBot (hreaction : OfBot botId reaction) :
    SameBot botId (s.react reaction o) (t.react reaction o) := by
  cases reaction with
  | recover target => exact settle_of_sameBot h hreaction
  | adopt target => exact settle_of_sameBot h hreaction
  | andThen c target =>
    obtain ⟨hc, htarget⟩ := hreaction
    cases o with
    | rejected error => exact settle_of_sameBot h htarget
    | fulfilled =>
      have hprocess : SameBot botId (s.processUpdate c) (t.processUpdate c) :=
        processUpdate_of_sameBot h hc
      have hname : (⟨c.botId, c.call, .processing⟩ : PromiseName) ∈ promisesOf botId := hc
      exact hprocess.setPromises (Promises.EqOn.modify hprocess.promises hname)

theorem handleUpdate_of_sameBot {u : U} (hs : Chained s botId) :
    SameBot botId (s.handleUpdate botId u) (t.handleUpdate botId u) := by
  have ht : Chained t botId := by
    rw [Chained, ← h.updateChains, ← h.calls]
    exact hs
  have hprevious : (s.previous botId).2 = (t.previous botId).2 ∧
      Set.EqOn (s.previous botId).1 (t.previous botId).1 (promisesOf botId) := by
    rw [previous_eq hs, previous_eq ht, h.calls]
    refine ⟨rfl, ?_⟩
    dsimp only
    split
    · exact Promises.EqOn.make h.promises
    · exact h.promises
  have hmem : (s.previous botId).2 ∈ promisesOf botId := by
    rw [previous_eq hs]
    exact waitsFor_mem botId _
  obtain ⟨hname, hpromises⟩ := hprevious
  refine ⟨h.instances, ?_, ?_, ?_, h.log⟩
  · show Function.update s.updateChains botId _ botId = Function.update t.updateChains botId _ botId
    rw [Function.update_self, Function.update_self, h.calls]
  · show Set.EqOn (((s.previous botId).1.catchAll (s.previous botId).2
      ⟨botId, (s.calls botId).length, .caught⟩).andThen _ _ _) (((t.previous botId).1.catchAll
        (t.previous botId).2 ⟨botId, (t.calls botId).length, .caught⟩).andThen _ _ _) _
    rw [← hname, h.calls]
    exact Promises.EqOn.modify (Promises.EqOn.make (Promises.EqOn.modify
      (Promises.EqOn.make hpromises) hmem)) mem_promisesOf
  · show Function.update s.calls botId _ botId = Function.update t.calls botId _ botId
    rw [Function.update_self, Function.update_self, h.calls]

end Same

/-- An action of a bot does the same in states that are the same for the bot. -/
theorem step_of_sameBot {a : Action U} (hrenders : Renders s.promises a.botId σ)
    (hchain : Chained s a.botId) (hsame : SameBot a.botId s t) (h : s.step a = some s') :
    ∃ t', t.step a = some t' ∧ SameBot a.botId s' t' := by
  cases a with
  | connect botId =>
    obtain rfl := Option.some.inj h
    refine ⟨_, rfl, { hsame with instances := ?_ }⟩
    show Function.update s.instances botId true botId = Function.update t.instances botId true botId
    rw [Function.update_self, Function.update_self]
  | disconnect botId =>
    obtain rfl := Option.some.inj h
    refine ⟨_, rfl, { hsame with instances := ?_ }⟩
    show Function.update s.instances botId false botId = Function.update t.instances botId false botId
    rw [Function.update_self, Function.update_self]
  | handleUpdate botId u =>
    obtain rfl := Option.some.inj h
    exact ⟨_, rfl, handleUpdate_of_sameBot hsame hchain⟩
  | react botId call role =>
    obtain ⟨⟨reaction, o⟩, hready, h⟩ := Option.bind_eq_some_iff.mp h
    obtain rfl := Option.some.inj h
    have hbot : OfBot botId reaction := (hrenders.readyIn hready).ofBot
    have hcell : s.promises ⟨botId, call, role⟩ = t.promises ⟨botId, call, role⟩ :=
      hsame.promises mem_promisesOf
    have hready' : t.promises.ready? ⟨botId, call, role⟩ = some (reaction, o) := by
      rw [Promises.ready?_eq_some, ← hcell]
      exact Promises.ready?_eq_some.mp hready
    refine ⟨(t.setPromises (t.promises.dequeue ⟨botId, call, role⟩)).react reaction o, ?_, ?_⟩
    · rw [step, hready']
      rfl
    · exact react_of_sameBot (hsame.setPromises (Promises.EqOn.modify hsame.promises mem_promisesOf))
        hbot
  | handled botId call outcome =>
    obtain ⟨⟨reactions, hcell⟩, rfl⟩ := handled_eq_some h
    have hcell' : t.promises ⟨botId, call, .handling⟩ = some ⟨none, reactions⟩ :=
      (hsame.promises mem_promisesOf).symm.trans hcell
    refine ⟨_, by rw [step, hcell'], ?_⟩
    exact ⟨hsame.instances, hsame.updateChains, Promises.EqOn.modify hsame.promises mem_promisesOf,
      hsame.calls, hsame.logOf_append rfl rfl⟩

end BotHive.Workers
