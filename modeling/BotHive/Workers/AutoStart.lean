import BotHive.Library.RunnerPool
import BotHive.Workers.Connect
import Mathlib.Data.List.Nodup
import Mathlib.Data.List.Perm.Subperm

/-!
# One pass of auto-start

`autoStartBots` goes through the bots that are meant to run with `mapLimit`: at most
`AUTO_START_CONCURRENCY` applications at once, each of which checks the guards of its bot, waits
for its credentials and then calls `connect()`. What `connect()` throws is caught inside the
application. What `buildCredentials` throws is not, and ends the runner that the application is
at.

## Main definitions

- `AutoStartState.step`: the applications, with the answers that they wait for
- `Isolates`: every bot that the pass should connect is attempted, whatever fails

## Main results

- `AutoStartState.Goes.step`: what every step of a pass keeps
- `exists_ended`: every run of a pass can go on to its end
- `isolates_iff`: auto-start is isolated exactly when before each bot that it should connect
  fewer than `AUTO_START_CONCURRENCY` bots have credentials that cannot be built
-/

namespace BotHive.Workers

def autoStartConcurrency : ℕ := 5

/-- A bot that the database lists as meant to run. -/
structure StartableBot where
  /-- The worker's part of the bot when the pass comes to it. -/
  found : ConnectState
  /-- Whether its credentials can be built. -/
  builds : Bool

namespace StartableBot

/-- Not connected, no pending reconnect timer, and admitted by its breaker. -/
def starts (bot : StartableBot) : Bool := bot.found.autoStartProceeds

/-- The application to this bot throws. -/
def throws (bot : StartableBot) : Bool := bot.starts && !bot.builds

end StartableBot

structure AutoStartState where
  pool : RunnerPool
  /-- Where the application at each index waits. -/
  tasks : ℕ → ConnectTask
  /-- The indices at which `connect()` has been called, in order. -/
  connects : List ℕ
  /-- The indices at which `connect()` has thrown. -/
  failures : List ℕ

inductive AutoStartAction where
  /-- An application that its guards have stopped returns. -/
  | returned (i : ℕ)
  | credentialsRead (i : ℕ)
  | credentialsFailed (i : ℕ)
  | connectReturned (i : ℕ)
  | connectFailed (i : ℕ)
  /-- `markDisconnected` and `scheduleReconnect` are done after a failed `connect()`. -/
  | recovered (i : ℕ)

section Pass

variable (bots : List StartableBot)

/-- The application at an index throws. -/
def throwsAt (i : ℕ) : Bool := bots[i]?.any StartableBot.throws

/-- Where the application at an index first gives way. -/
def firstTask (i : ℕ) : ConnectTask :=
  if bots[i]?.any StartableBot.starts then .credentials .autoStart else .idle

namespace AutoStartState

def start : AutoStartState where
  pool := .start bots.length autoStartConcurrency
  tasks := firstTask bots
  connects := []
  failures := []

/-- `connect()` is called at an index. -/
def connect (s : AutoStartState) (i : ℕ) : AutoStartState :=
  { s with
    tasks := Function.update s.tasks i (.connect .autoStart)
    connects := s.connects ++ [i] }

/-- `connect()` throws at an index. -/
def fail (s : AutoStartState) (i : ℕ) : AutoStartState :=
  { s with
    tasks := Function.update s.tasks i .failed
    failures := s.failures ++ [i] }

/-- The application at an index returns or throws. -/
def settle (s : AutoStartState) (i : ℕ) (thrown : Bool) : AutoStartState :=
  { s with pool := s.pool.settle bots.length i thrown }

def step (s : AutoStartState) : AutoStartAction → Option AutoStartState
  | .returned i =>
    if i ∈ s.pool.running ∧ s.tasks i = .idle then some (s.settle bots i false) else none
  | .credentialsRead i =>
    if i ∈ s.pool.running ∧ s.tasks i = .credentials .autoStart ∧ throwsAt bots i = false then
      some (s.connect i)
    else none
  | .credentialsFailed i =>
    if i ∈ s.pool.running ∧ s.tasks i = .credentials .autoStart ∧ throwsAt bots i = true then
      some (s.settle bots i true)
    else none
  | .connectReturned i =>
    if i ∈ s.pool.running ∧ s.tasks i = .connect .autoStart then some (s.settle bots i false)
    else none
  | .connectFailed i =>
    if i ∈ s.pool.running ∧ s.tasks i = .connect .autoStart then some (s.fail i) else none
  | .recovered i =>
    if i ∈ s.pool.running ∧ s.tasks i = .failed then some (s.settle bots i false) else none

/-- The application to a bot has been made, and has called `connect()` if it could. -/
def Attempted (s : AutoStartState) (i : ℕ) : Prop :=
  i ∈ s.pool.started ∧ (throwsAt bots i = false → i ∈ s.connects)

/-- What auto-start promises of a pass. -/
structure Isolated (s : AutoStartState) : Prop where
  inFlight : s.pool.running.length ≤ autoStartConcurrency
  started_nodup : s.pool.started.Nodup
  connects_nodup : s.connects.Nodup
  attempted : s.pool.running = [] →
    ∀ i (h : i < bots.length), bots[i].starts = true → s.Attempted bots i

/-- What an application at an index that waits there has done so far. -/
def Waits (s : AutoStartState) (i : ℕ) : ConnectTask → Prop
  | .idle => bots[i]?.any StartableBot.starts = false
  | .credentials .autoStart => i ∉ s.connects
  | .connect .autoStart => throwsAt bots i = false ∧ i ∈ s.connects ∧ i ∉ s.failures
  | .failed => throwsAt bots i = false ∧ i ∈ s.connects
  | _ => False

/-- What holds throughout a pass. -/
structure Goes (s : AutoStartState) : Prop where
  drains : s.pool.Drains bots.length autoStartConcurrency (throwsAt bots)
  connects_nodup : s.connects.Nodup
  failures_nodup : s.failures.Nodup
  failed : ∀ i ∈ s.failures, i ∈ s.connects
  waits : ∀ i ∈ s.pool.running, s.Waits bots i (s.tasks i)
  ended : ∀ i < s.pool.next, i ∉ s.pool.running → bots[i]?.any StartableBot.starts = true →
    throwsAt bots i = false → i ∈ s.connects
  fresh : ∀ i, s.pool.next ≤ i → s.tasks i = firstTask bots i ∧ i ∉ s.connects

variable {bots} {s s' : AutoStartState} {i j : ℕ} {a : AutoStartAction}

theorem throwsAt_eq_false_of_stopped (h : bots[i]?.any StartableBot.starts = false) :
    throwsAt bots i = false := by
  rw [throwsAt]
  cases hbot : bots[i]? with
  | none => rfl
  | some bot =>
    rw [hbot] at h
    show (bot.starts && !bot.builds) = false
    rw [show bot.starts = false from h, Bool.false_and]

theorem waits_firstTask (h : i ∉ s.connects) : s.Waits bots i (firstTask bots i) := by
  rw [firstTask]
  split_ifs with hstarts
  · exact h
  · exact Bool.eq_false_of_not_eq_true hstarts

/-- The applications at the other indices do not see a call at this one. -/
theorem Waits.of_records {task : ConnectTask} (h : s.Waits bots j task)
    (hconnects : j ∈ s'.connects ↔ j ∈ s.connects)
    (hfailures : j ∈ s'.failures ↔ j ∈ s.failures) : s'.Waits bots j task := by
  cases task with
  | idle => exact h
  | credentials origin =>
    cases origin with
    | autoStart => exact fun hj => h (hconnects.mp hj)
    | _ => exact h
  | connect origin =>
    cases origin with
    | autoStart =>
      exact ⟨h.1, hconnects.mpr h.2.1, fun hj => h.2.2 (hfailures.mp hj)⟩
    | _ => exact h
  | failed => exact ⟨h.1, hconnects.mpr h.2⟩
  | _ => exact h

namespace Goes

theorem start : Goes bots (start bots) where
  drains := RunnerPool.Drains.start _ _ _
  connects_nodup := List.nodup_nil
  failures_nodup := List.nodup_nil
  failed _ h := absurd h List.not_mem_nil
  waits _ _ := waits_firstTask List.not_mem_nil
  ended _ hlt hout := absurd (List.mem_range.mpr hlt) hout
  fresh _ _ := ⟨rfl, List.not_mem_nil⟩

theorem connects_lt (h : Goes bots s) (hi : i ∈ s.connects) : i < s.pool.next :=
  not_le.mp fun hle => (h.fresh i hle).2 hi

/-- An application ends, and its runner goes on to the next index if it has not thrown. -/
theorem settle (h : Goes bots s) (hi : i ∈ s.pool.running)
    (hdone : bots[i]?.any StartableBot.starts = true → throwsAt bots i = false → i ∈ s.connects) :
    Goes bots (s.settle bots i (throwsAt bots i)) := by
  have hnext := RunnerPool.next_le_settle s.pool bots.length i (throwsAt bots i)
  have hrunning := h.drains.mem_running_settle (i := i) (throwsAt bots i)
  constructor
  case drains => exact h.drains.settle hi
  case connects_nodup => exact h.connects_nodup
  case failures_nodup => exact h.failures_nodup
  case failed => exact h.failed
  case waits =>
    intro j hj
    rcases (hrunning j).mp hj with ⟨hj, -⟩ | ⟨rfl, -⟩
    · exact h.waits j hj
    · show s.Waits bots s.pool.next (s.tasks s.pool.next)
      rw [(h.fresh _ le_rfl).1]
      exact waits_firstTask (h.fresh _ le_rfl).2
  case ended =>
    intro j hj hout hstarts hbuilds
    by_cases hji : j = i
    · subst hji
      exact hdone hstarts hbuilds
    · have hlt : j < s.pool.next := by
        refine lt_of_le_of_ne (Nat.lt_succ_iff.mp (hj.trans_le hnext.2)) fun heq => hout ?_
        exact (hrunning j).mpr (Or.inr ⟨heq, heq ▸ hj⟩)
      exact h.ended j hlt (fun hin => hout ((hrunning j).mpr (Or.inl ⟨hin, hji⟩))) hstarts hbuilds
  case fresh => exact fun j hj => h.fresh j (hnext.1.trans hj)

theorem connect (h : Goes bots s) (hi : i ∈ s.pool.running) (hfresh : i ∉ s.connects)
    (hbuilds : throwsAt bots i = false) : Goes bots (s.connect i) := by
  have hconnects : ∀ j, j ∈ (s.connect i).connects ↔ j ∈ s.connects ∨ j = i := by
    intro j
    rw [AutoStartState.connect, List.mem_append, List.mem_singleton]
  constructor
  case drains => exact h.drains
  case connects_nodup =>
    show (s.connects ++ [i]).Nodup
    rw [← List.concat_eq_append]
    exact List.Nodup.concat hfresh h.connects_nodup
  case failures_nodup => exact h.failures_nodup
  case failed => exact fun j hj => (hconnects j).mpr (Or.inl (h.failed j hj))
  case waits =>
    intro j hj
    show (s.connect i).Waits bots j (Function.update s.tasks i (.connect .autoStart) j)
    by_cases hji : j = i
    · subst hji
      rw [Function.update_self]
      exact ⟨hbuilds, (hconnects j).mpr (Or.inr rfl), fun hf => hfresh (h.failed j hf)⟩
    · rw [Function.update_of_ne hji]
      exact (h.waits j hj).of_records ((hconnects j).trans (or_iff_left hji)) Iff.rfl
  case ended =>
    intro j hj hout hstarts hthrows
    exact (hconnects j).mpr (Or.inl (h.ended j hj hout hstarts hthrows))
  case fresh =>
    intro j hj
    have hji : j ≠ i := fun heq => (h.drains.running_lt i hi).not_ge (heq ▸ hj)
    refine ⟨?_, fun hin => (h.fresh j hj).2 (((hconnects j).mp hin).resolve_right hji)⟩
    show Function.update s.tasks i (.connect .autoStart) j = firstTask bots j
    rw [Function.update_of_ne hji]
    exact (h.fresh j hj).1

theorem fail (h : Goes bots s) (hi : i ∈ s.pool.running) (hconnect : i ∈ s.connects)
    (hfresh : i ∉ s.failures) (hbuilds : throwsAt bots i = false) : Goes bots (s.fail i) := by
  have hfailures : ∀ j, j ∈ (s.fail i).failures ↔ j ∈ s.failures ∨ j = i := by
    intro j
    rw [AutoStartState.fail, List.mem_append, List.mem_singleton]
  constructor
  case drains => exact h.drains
  case connects_nodup => exact h.connects_nodup
  case failures_nodup =>
    show (s.failures ++ [i]).Nodup
    rw [← List.concat_eq_append]
    exact List.Nodup.concat hfresh h.failures_nodup
  case failed =>
    intro j hj
    rcases (hfailures j).mp hj with hj | rfl
    · exact h.failed j hj
    · exact hconnect
  case waits =>
    intro j hj
    show (s.fail i).Waits bots j (Function.update s.tasks i .failed j)
    by_cases hji : j = i
    · subst hji
      rw [Function.update_self]
      exact ⟨hbuilds, hconnect⟩
    · rw [Function.update_of_ne hji]
      exact (h.waits j hj).of_records Iff.rfl ((hfailures j).trans (or_iff_left hji))
  case ended => exact h.ended
  case fresh =>
    intro j hj
    have hji : j ≠ i := fun heq => (h.drains.running_lt i hi).not_ge (heq ▸ hj)
    refine ⟨?_, (h.fresh j hj).2⟩
    show Function.update s.tasks i .failed j = firstTask bots j
    rw [Function.update_of_ne hji]
    exact (h.fresh j hj).1

end Goes

/-- All that a step of a pass can do. -/
inductive AutoStartStep (bots : List StartableBot) (s : AutoStartState) : AutoStartState → Prop where
  | settles {i : ℕ} (running : i ∈ s.pool.running)
    (done : bots[i]?.any StartableBot.starts = true → throwsAt bots i = false → i ∈ s.connects) :
    AutoStartStep bots s (s.settle bots i (throwsAt bots i))
  | connects {i : ℕ} (running : i ∈ s.pool.running) (fresh : i ∉ s.connects)
    (builds : throwsAt bots i = false) : AutoStartStep bots s (s.connect i)
  | fails {i : ℕ} (running : i ∈ s.pool.running) (connect : i ∈ s.connects) (fresh : i ∉ s.failures)
    (builds : throwsAt bots i = false) : AutoStartStep bots s (s.fail i)

namespace Goes

/-- An application that does not throw settles when it is done. -/
theorem settles (hi : i ∈ s.pool.running) (hthrows : throwsAt bots i = false)
    (hdone : bots[i]?.any StartableBot.starts = true → i ∈ s.connects) :
    AutoStartStep bots s (s.settle bots i false) := by
  rw [← hthrows]
  exact .settles hi fun hstarts _ => hdone hstarts

theorem step_cases (h : Goes bots s) (hstep : s.step bots a = some s') :
    AutoStartStep bots s s' := by
  cases a with
  | returned i =>
    obtain ⟨⟨hi, htask⟩, hs⟩ := Option.ite_none_right_eq_some.mp hstep
    cases hs
    have hstopped := h.waits i hi
    rw [htask] at hstopped
    refine settles hi (throwsAt_eq_false_of_stopped hstopped) fun hstarts => ?_
    exact absurd (hstarts.symm.trans hstopped) (by decide)
  | credentialsRead i =>
    obtain ⟨⟨hi, htask, hbuilds⟩, hs⟩ := Option.ite_none_right_eq_some.mp hstep
    cases hs
    have hfresh := h.waits i hi
    rw [htask] at hfresh
    exact .connects hi hfresh hbuilds
  | credentialsFailed i =>
    obtain ⟨⟨hi, -, hthrows⟩, hs⟩ := Option.ite_none_right_eq_some.mp hstep
    cases hs
    rw [← hthrows]
    exact .settles hi fun _ hbuilds => absurd (hbuilds.symm.trans hthrows) (by decide)
  | connectReturned i =>
    obtain ⟨⟨hi, htask⟩, hs⟩ := Option.ite_none_right_eq_some.mp hstep
    cases hs
    have hconnect := h.waits i hi
    rw [htask] at hconnect
    exact settles hi hconnect.1 fun _ => hconnect.2.1
  | connectFailed i =>
    obtain ⟨⟨hi, htask⟩, hs⟩ := Option.ite_none_right_eq_some.mp hstep
    cases hs
    have hconnect := h.waits i hi
    rw [htask] at hconnect
    exact .fails hi hconnect.2.1 hconnect.2.2 hconnect.1
  | recovered i =>
    obtain ⟨⟨hi, htask⟩, hs⟩ := Option.ite_none_right_eq_some.mp hstep
    cases hs
    have hfailed := h.waits i hi
    rw [htask] at hfailed
    exact settles hi hfailed.1 fun _ => hfailed.2

theorem step (h : Goes bots s) (hstep : s.step bots a = some s') : Goes bots s' := by
  cases h.step_cases hstep with
  | settles running done => exact h.settle running done
  | connects running fresh builds => exact h.connect running fresh builds
  | fails running connect fresh builds => exact h.fail running connect fresh builds

theorem of_exec {as : List AutoStartAction}
    (hexec : Machine.exec (AutoStartState.step bots) (.start bots) as = some s) : Goes bots s :=
  (Machine.everywhere_of_invariant (Goes bots) (Goes bots) (fun _ _ _ h _ => h.step)
    (fun _ h => h) start (Machine.along_true _ as)).at_end hexec

end Goes

/-- How many steps the applications can still take. -/
def remaining (bots : List StartableBot) (s : AutoStartState) : ℕ :=
  3 * bots.length + s.pool.running.length -
    (s.pool.next + s.connects.length + s.failures.length)

namespace Goes

theorem length_le_of_nodup {l : List ℕ} {n : ℕ} (hnodup : l.Nodup) (hlt : ∀ i ∈ l, i < n) :
    l.length ≤ n := by
  have hsub : l ⊆ List.range n := fun i hi => List.mem_range.mpr (hlt i hi)
  simpa using (List.Nodup.subperm hnodup hsub).length_le

theorem steps_le (h : Goes bots s) :
    s.pool.next + s.connects.length + s.failures.length ≤ 3 * bots.length := by
  have hconnects := length_le_of_nodup h.connects_nodup fun _ hi => h.connects_lt hi
  have hfailures := length_le_of_nodup h.failures_nodup fun _ hi => h.connects_lt (h.failed _ hi)
  have hnext := h.drains.next_le
  omega

theorem remaining_step (h : Goes bots s) (hstep : s.step bots a = some s') :
    remaining bots s' < remaining bots s := by
  have hle := (h.step hstep).steps_le
  rw [remaining, remaining]
  cases h.step_cases hstep with
  | @settles i running done =>
    have hlength := RunnerPool.length_settle_add (n := bots.length) running (throwsAt bots i)
    simp only [AutoStartState.settle] at hle ⊢
    omega
  | connects =>
    simp only [AutoStartState.connect, List.length_append, List.length_singleton] at hle ⊢
    omega
  | fails =>
    simp only [AutoStartState.fail, List.length_append, List.length_singleton] at hle ⊢
    omega

/-- A pass that has not ended has an application that can go on. -/
theorem exists_step (h : Goes bots s) (hrunning : s.pool.running ≠ []) :
    ∃ a s', s.step bots a = some s' := by
  obtain ⟨i, hi⟩ := List.exists_mem_of_ne_nil _ hrunning
  have hwaits := h.waits i hi
  cases htask : s.tasks i with
  | idle => exact ⟨.returned i, _, if_pos ⟨hi, htask⟩⟩
  | credentials origin =>
    cases origin with
    | autoStart =>
      cases hthrows : throwsAt bots i with
      | false => exact ⟨.credentialsRead i, _, if_pos ⟨hi, htask, hthrows⟩⟩
      | true => exact ⟨.credentialsFailed i, _, if_pos ⟨hi, htask, hthrows⟩⟩
    | _ =>
      rw [htask] at hwaits
      exact hwaits.elim
  | connect origin =>
    cases origin with
    | autoStart => exact ⟨.connectReturned i, _, if_pos ⟨hi, htask⟩⟩
    | _ =>
      rw [htask] at hwaits
      exact hwaits.elim
  | failed => exact ⟨.recovered i, _, if_pos ⟨hi, htask⟩⟩
  | _ =>
    rw [htask] at hwaits
    exact hwaits.elim

/-- Every run of a pass can go on to its end. -/
theorem exists_ended (h : Goes bots s) :
    ∃ as t, Machine.exec (AutoStartState.step bots) s as = some t ∧ Goes bots t ∧
      t.pool.running = [] := by
  refine Machine.exists_exec_of_progress (Goes bots) (fun t => t.pool.running = [])
    (remaining bots) (fun t ht hrunning => ?_) h
  obtain ⟨a, t', hstep⟩ := ht.exists_step hrunning
  exact ⟨a, t', hstep, ht.step hstep, ht.remaining_step hstep⟩

end Goes

end AutoStartState

/-- Of the bots before an index, how many have credentials that cannot be built. -/
def failuresBefore (bots : List StartableBot) (i : ℕ) : ℕ :=
  (bots.take i).countP StartableBot.throws

theorem countP_range_throwsAt (bots : List StartableBot) (i : ℕ) :
    (List.range i).countP (throwsAt bots) = failuresBefore bots i := by
  induction i with
  | zero => rfl
  | succ i ih =>
    rw [RunnerPool.countP_range_succ, ih, failuresBefore, failuresBefore, List.take_add_one,
      List.countP_append, throwsAt]
    cases bots[i]? with
    | none => rfl
    | some bot => exact congrArg _ (List.countP_singleton ..).symm

end Pass

open AutoStartState

/-- Whatever fails, and in whatever order the answers come, the pass attempts every bot that it
    should connect, each once and few at a time. -/
def Isolates (bots : List StartableBot) : Prop :=
  ∀ as s, Machine.exec (AutoStartState.step bots) (.start bots) as = some s → s.Isolated bots

/-- Whatever fails, `mapLimit` applies its function to every index. -/
def AppliesToAll (bots : List StartableBot) : Prop :=
  ∀ as s, Machine.exec (AutoStartState.step bots) (.start bots) as = some s →
    s.pool.running = [] → s.pool.started = List.range bots.length

/-- At the end of a pass, a bot has been attempted exactly when too few failed before it to end
    all runners. -/
theorem AutoStartState.Goes.attempted_iff {bots : List StartableBot} {s : AutoStartState} {i : ℕ}
    (h : Goes bots s) (hended : s.pool.running = []) (hi : i < bots.length)
    (hstarts : bots[i].starts = true) :
    s.Attempted bots i ↔ failuresBefore bots i < autoStartConcurrency := by
  rw [← countP_range_throwsAt, ← h.drains.mem_started_iff hended hi]
  refine ⟨fun hattempt => hattempt.1, fun hstarted => ⟨hstarted, fun hthrows => ?_⟩⟩
  rw [h.drains.started, List.mem_range] at hstarted
  refine h.ended i hstarted (by rw [hended]; exact List.not_mem_nil) ?_ hthrows
  rw [List.getElem?_eq_getElem hi]
  exact hstarts

/-- Auto-start is isolated exactly when before each bot that it should connect fewer than
    `AUTO_START_CONCURRENCY` bots have credentials that cannot be built; `mapLimit` applies its
    function everywhere exactly when that holds before each index. -/
theorem isolates_iff (bots : List StartableBot) :
    (Isolates bots ↔ ∀ i (h : i < bots.length), bots[i].starts = true →
      failuresBefore bots i < autoStartConcurrency) ∧
    (AppliesToAll bots ↔ ∀ i < bots.length, failuresBefore bots i < autoStartConcurrency) := by
  have hstart : Goes bots (.start bots) := Goes.start
  obtain ⟨run, s, hexec, hgoes, hended⟩ := hstart.exists_ended
  constructor
  · constructor
    · intro hisolates i hi hstarts
      exact (hgoes.attempted_iff hended hi hstarts).mp
        ((hisolates run s hexec).attempted hended i hi hstarts)
    · intro hfew as t ht
      have hgoes := Goes.of_exec ht
      refine ⟨hgoes.drains.bounded, ?_, hgoes.connects_nodup, fun hended i hi hstarts => ?_⟩
      · rw [hgoes.drains.started]
        exact List.nodup_range
      · exact (hgoes.attempted_iff hended hi hstarts).mpr (hfew i hi hstarts)
  · constructor
    · intro hall i hi
      rw [← countP_range_throwsAt, ← hgoes.drains.mem_started_iff hended hi,
        hall run s hexec hended]
      exact List.mem_range.mpr hi
    · intro hfew as t ht hended
      have hgoes := Goes.of_exec ht
      refine hgoes.drains.started.trans (congrArg _ (hgoes.drains.next_le.antisymm ?_))
      refine not_lt.mp fun hlt => ?_
      have hstarted := (hgoes.drains.mem_started_iff hended hlt).mpr
        ((countP_range_throwsAt _ _).trans_lt (hfew _ hlt))
      rw [hgoes.drains.started] at hstarted
      exact lt_irrefl _ (List.mem_range.mp hstarted)

/-- A bot with these credentials, found with nothing in its way. -/
def freeBot (builds : Bool) : StartableBot where
  found := .start
  builds := builds

/-- Five bots whose credentials cannot be built end all five runners, and the sixth bot is not
    attempted. -/
theorem not_isolates_fiveFailures :
    ¬ Isolates (List.replicate 5 (freeBot false) ++ [freeBot true]) ∧
      ¬ AppliesToAll (List.replicate 5 (freeBot false) ++ [freeBot true]) := by
  constructor
  · intro h
    have hend := h [.credentialsFailed 0, .credentialsFailed 1, .credentialsFailed 2,
      .credentialsFailed 3, .credentialsFailed 4] _ rfl
    exact absurd (hend.attempted rfl 5 (by decide) rfl).1 (by decide)
  · intro h
    have hstarted := h [.credentialsFailed 0, .credentialsFailed 1, .credentialsFailed 2,
      .credentialsFailed 3, .credentialsFailed 4] _ rfl rfl
    exact absurd hstarted (by decide)

end BotHive.Workers
