import BotHive.Library.Machine
import BotHive.Library.Tasks
import BotHive.Resilience.CircuitBreaker

/-!
# Connecting a bot

Three paths of a platform worker call the platform's `connect()` for a bot: connect
jobs from the queue, the reconcile pass of `autoStartBots`, and reconnect timers. Each
checks its guards and then waits for the credentials before it calls. The model is the
part of a worker that belongs to one bot; a task gives way at every `await`.

## Main definitions

- `ConnectTask`: where a task waits
- `ConnectState.step`: the paths, the answers that they wait for, and the platform
- `OneConnect`: no two calls of `connect()` overlap
- `GuardedAlone`: guards are passed only while no other attempt is underway

## Main results

- `connectStep_of_step`: all that a step can do
- `moves_step`: what one step can do to the tasks
- `oneConnect_of_guarded_alone`: attempts that pass their guards alone never overlap
-/

namespace BotHive.Workers

open Resilience

def maxReconnectAttempts : ℕ := 10

inductive BotStatus where
  | idle
  | connecting
  | running
  | reconnecting
  | error
  deriving DecidableEq

/-- A bot with this status in the database is meant to run. -/
def BotStatus.startable : BotStatus → Bool
  | .running | .connecting | .reconnecting => true
  | .idle | .error => false

structure BotEntry where
  status : BotStatus
  reconnectAttempts : ℕ

/-- The path that an attempt comes from. -/
inductive ConnectOrigin where
  | job
  | autoStart
  | reconnect
  deriving DecidableEq

inductive ConnectTask where
  | idle
  /-- A connect job waits for the status of the bot in the database. -/
  | status
  /-- An attempt waits for `buildCredentials`. -/
  | credentials (origin : ConnectOrigin)
  /-- An attempt is inside the `connect()` of the platform. -/
  | connect (origin : ConnectOrigin)
  /-- A failed auto-start waits for `markDisconnected`. -/
  | failed
  /-- `scheduleReconnect` waits for its log line before it arms a timer. -/
  | scheduling (delay : ℤ)
  /-- `markConnected` waits for the database. -/
  | marking
  deriving DecidableEq

/-- Inside the platform's `connect()`. -/
def ConnectTask.InConnect : ConnectTask → Prop
  | .connect _ => True
  | _ => False

/-- Past the last guard and not yet done with `connect()`. -/
def ConnectTask.Underway : ConnectTask → Prop
  | .credentials _ | .connect _ => True
  | _ => False

structure ConnectState where
  now : ℤ
  entry : Option BotEntry
  /-- `hasLiveConnection` of the platform. -/
  live : Bool
  breaker : CircuitBreaker
  /-- The timer in `reconnectTimers`, which stays there after it has fired. -/
  reconnectTimer : Option ℕ
  /-- Timers that will fire, with the time at which they do. -/
  armed : ℕ → Option ℤ
  nextTimer : ℕ
  tasks : ℕ → ConnectTask

namespace ConnectState

/-- A worker that knows nothing of the bot yet. -/
def start : ConnectState where
  now := 0
  entry := none
  live := false
  breaker := { options := { failureThreshold := 5, successThreshold := 1 } }
  reconnectTimer := none
  armed _ := none
  nextTimer := 0
  tasks _ := .idle

def goto (s : ConnectState) (c : ℕ) (task : ConnectTask) : ConnectState :=
  { s with tasks := Function.update s.tasks c task }

def setStatus (s : ConnectState) (status : BotStatus) : ConnectState :=
  { s with entry := s.entry.map fun entry => { entry with status := status } }

def ensureBot (s : ConnectState) : ConnectState :=
  { s with entry := some (s.entry.getD { status := .connecting, reconnectAttempts := 0 }) }

def prepareConnect (s : ConnectState) : ConnectState :=
  s.ensureBot.setStatus .connecting

/-- `clearTimeout` of the timer in `reconnectTimers`; its entry stays. -/
def clearTimeout (s : ConnectState) : ConnectState :=
  match s.reconnectTimer with
  | none => s
  | some timer => { s with armed := Function.update s.armed timer none }

def deleteTimer (s : ConnectState) : ConnectState :=
  { s.clearTimeout with reconnectTimer := none }

/-- `setTimeout` of a reconnect, entered in `reconnectTimers`. -/
def armTimer (s : ConnectState) (delay : ℤ) : ConnectState :=
  { s with
    armed := Function.update s.armed s.nextTimer (some (s.now + delay))
    reconnectTimer := some s.nextTimer
    nextTimer := s.nextTimer + 1 }

/-- `scheduleReconnect` up to its first `await`. The delay of a closed breaker, which
    depends on backoff, jitter and sleep windows, comes from outside. -/
def scheduleReconnect (s : ConnectState) (c : ℕ) (delay : ℤ) : ConnectState :=
  match s.entry with
  | none => s.goto c .idle
  | some entry =>
    let s := { s.clearTimeout with breaker := s.breaker.recordFailure s.now }
    if maxReconnectAttempts ≤ entry.reconnectAttempts then
      -- giving up: `markDisconnected` with an error, after which nothing follows
      { s.deleteTimer with
        breaker := s.breaker.reset
        entry := some { status := .error, reconnectAttempts := 0 } }.goto c .idle
    else
      let s := { s with
        entry := some { entry with reconnectAttempts := entry.reconnectAttempts + 1 } }
      let (state, breaker) := s.breaker.getState s.now
      let cooldown := breaker.remainingCooldownMs s.now
      if state = .open then { s with breaker := cooldown.2 }.goto c (.scheduling cooldown.1)
      else { s with breaker := breaker }.goto c (.scheduling delay)

/-- Whether a connect job goes on after it has read the status in the database. -/
def jobProceeds (s : ConnectState) (dbStatus : Option BotStatus) : Bool :=
  match dbStatus with
  | some .reconnecting => true
  | some status => status.startable && !(s.live || s.reconnectTimer.isSome)
  | none => !(s.live || s.reconnectTimer.isSome)

/-- Whether `autoStartBots` goes on with the bot. -/
def autoStartProceeds (s : ConnectState) : Bool :=
  !s.live && !s.reconnectTimer.isSome && (s.breaker.canAttempt s.now).1

/-- A path asks the breaker, and with its consent goes on to the credentials. -/
def attempt (s : ConnectState) (c : ℕ) (origin : ConnectOrigin) : ConnectState :=
  let (allowed, breaker) := s.breaker.canAttempt s.now
  if allowed then { s with breaker := breaker }.goto c (.credentials origin)
  else { s with breaker := breaker }

/-- How a path goes on after its `buildCredentials` or its `connect()` has thrown. -/
def handleError (s : ConnectState) (c : ℕ) (delay : ℤ) : ConnectTask → Option ConnectState
  -- the throw leaves the loop over the bots
  | .credentials .autoStart => some (s.goto c .idle)
  | .connect .autoStart => some ((s.setStatus .error).goto c .failed)
  | .credentials .job | .connect .job => some (s.ensureBot.scheduleReconnect c delay)
  | .credentials .reconnect | .connect .reconnect => some (s.scheduleReconnect c delay)
  | _ => none

/-- A timer that will not fire any more. -/
def disarm (s : ConnectState) (timer : ℕ) : ConnectState :=
  { s with armed := Function.update s.armed timer none }

/-- `markConnected` up to its write to the database. -/
def markConnected (s : ConnectState) (c : ℕ) : ConnectState :=
  { s with
    entry := some { status := .running, reconnectAttempts := 0 }
    breaker := s.breaker.recordSuccess }.goto c .marking

end ConnectState

inductive ConnectAction where
  /-- The queue hands a connect job to `processJob`. -/
  | job (task : ℕ)
  /-- `autoStartBots` comes to the bot. -/
  | autoStart (task : ℕ)
  /-- A reconnect timer fires. -/
  | fire (timer task : ℕ)
  /-- A job receives the status of the bot, none when there is no such row. -/
  | statusRead (task : ℕ) (dbStatus : Option BotStatus)
  | statusFailed (task : ℕ)
  /-- An attempt receives its credentials and calls `connect()`. -/
  | credentialsRead (task : ℕ)
  /-- An attempt in `connect()` calls `prepareConnect`. -/
  | prepareConnect (task : ℕ)
  /-- The `connect()` of an attempt returns. -/
  | connectReturned (task : ℕ)
  /-- The `buildCredentials` or the `connect()` of an attempt throws. -/
  | throws (task : ℕ) (delay : ℤ)
  /-- The platform calls `markConnected`, from `connect()` or from a handler. -/
  | markConnected (task : ℕ)
  /-- A task goes on after a write to the database or to the log. -/
  | resume (task : ℕ) (delay : ℤ)
  /-- A handler of the platform, after a lost connection, calls `scheduleReconnect`. -/
  | connectionLost (task : ℕ) (delay : ℤ)
  /-- The platform registers or drops its connection. -/
  | setLive (live : Bool)
  /-- A handler calls `markDisconnected` or `markReconnecting`. -/
  | setStatus (status : BotStatus)
  /-- The platform's `disconnect()`, which on most platforms forgets the bot. -/
  | disconnect (forgets : Bool)
  | tick (ms : ℕ)

/-- The task that an action moves. -/
def ConnectAction.task? : ConnectAction → Option ℕ
  | .job c | .autoStart c | .fire _ c | .statusRead c _ | .statusFailed c | .credentialsRead c
  | .prepareConnect c | .connectReturned c | .throws c _ | .markConnected c | .resume c _
  | .connectionLost c _ => some c
  | .setLive _ | .setStatus _ | .disconnect _ | .tick _ => none

namespace ConnectState

def step (s : ConnectState) : ConnectAction → Option ConnectState
  | .job c =>
    if s.tasks c ≠ .idle then none
    -- by its entry another attempt owns the bot
    else if s.entry.map BotEntry.status = some .connecting then some s
    else some (s.goto c .status)
  | .autoStart c =>
    if s.tasks c ≠ .idle then none
    else if s.live || s.reconnectTimer.isSome then some s
    else some (s.attempt c .autoStart)
  | .fire timer c =>
    match s.armed timer with
    | none => none
    | some deadline =>
      if s.tasks c = .idle ∧ deadline ≤ s.now then
        some ({ s with armed := Function.update s.armed timer none }.attempt c .reconnect)
      else none
  | .statusRead c dbStatus =>
    if s.tasks c ≠ .status then none
    else if s.jobProceeds dbStatus then
      -- a restart overrides a pending reconnect
      some ((if dbStatus = some .reconnecting then s.deleteTimer else s).goto c (.credentials .job))
    else some (s.goto c .idle)
  | .statusFailed c => if s.tasks c = .status then some (s.goto c .idle) else none
  | .credentialsRead c =>
    match s.tasks c with
    | .credentials .autoStart =>
      -- only this path marks the entry before its platform does
      some ((s.ensureBot.setStatus .connecting).goto c (.connect .autoStart))
    | .credentials origin => some (s.ensureBot.goto c (.connect origin))
    | _ => none
  | .prepareConnect c =>
    match s.tasks c with
    | .connect _ => some s.prepareConnect
    | _ => none
  | .connectReturned c =>
    match s.tasks c with
    | .connect _ => some (s.goto c .idle)
    | _ => none
  | .throws c delay => s.handleError c delay (s.tasks c)
  | .markConnected c =>
    if s.tasks c ≠ .idle then none
    else
      some ({ s with
        entry := some { status := .running, reconnectAttempts := 0 }
        breaker := s.breaker.recordSuccess }.goto c .marking)
  | .resume c delay =>
    match s.tasks c with
    | .failed => some (s.scheduleReconnect c delay)
    | .scheduling delay => some ((s.armTimer delay).goto c .idle)
    | .marking => some (s.deleteTimer.goto c .idle)
    | _ => none
  | .connectionLost c delay =>
    if s.tasks c = .idle then some (s.scheduleReconnect c delay) else none
  | .setLive live => some { s with live := live }
  | .setStatus status => some (s.setStatus status)
  | .disconnect forgets =>
    if forgets then some { s.deleteTimer with live := false, entry := none }
    else some { s.setStatus .idle with live := false }
  | .tick ms => some { s with now := s.now + ms }

end ConnectState

open ConnectState

/-- All that a step can do, with the guards that it has passed. -/
inductive ConnectStep (s : ConnectState) : ConnectAction → ConnectState → Prop where
  | jobSkipped {c} (idle : s.tasks c = .idle)
    (connecting : s.entry.map BotEntry.status = some .connecting) : ConnectStep s (.job c) s
  | jobTaken {c} (idle : s.tasks c = .idle)
    (free : s.entry.map BotEntry.status ≠ some .connecting) :
    ConnectStep s (.job c) (s.goto c .status)
  | passSkipped {c} (idle : s.tasks c = .idle)
    (taken : s.live = true ∨ s.reconnectTimer.isSome = true) : ConnectStep s (.autoStart c) s
  | passAttempts {c} (idle : s.tasks c = .idle) (away : s.live = false)
    (free : s.reconnectTimer = none) : ConnectStep s (.autoStart c) (s.attempt c .autoStart)
  | fires {timer c deadline} (armed : s.armed timer = some deadline) (due : deadline ≤ s.now)
    (idle : s.tasks c = .idle) :
    ConnectStep s (.fire timer c) ((s.disarm timer).attempt c .reconnect)
  | restarts {c} (waits : s.tasks c = .status) :
    ConnectStep s (.statusRead c (some .reconnecting)) (s.deleteTimer.goto c (.credentials .job))
  | proceeds {c dbStatus} (waits : s.tasks c = .status) (guard : s.jobProceeds dbStatus = true)
    (other : dbStatus ≠ some .reconnecting) :
    ConnectStep s (.statusRead c dbStatus) (s.goto c (.credentials .job))
  | yields {c dbStatus} (waits : s.tasks c = .status) (guard : s.jobProceeds dbStatus = false) :
    ConnectStep s (.statusRead c dbStatus) (s.goto c .idle)
  | statusFails {c} (waits : s.tasks c = .status) :
    ConnectStep s (.statusFailed c) (s.goto c .idle)
  | passConnects {c} (waits : s.tasks c = .credentials .autoStart) :
    ConnectStep s (.credentialsRead c)
      ((s.ensureBot.setStatus .connecting).goto c (.connect .autoStart))
  | connects {c origin} (waits : s.tasks c = .credentials origin) (other : origin ≠ .autoStart) :
    ConnectStep s (.credentialsRead c) (s.ensureBot.goto c (.connect origin))
  | prepares {c origin} (inside : s.tasks c = .connect origin) :
    ConnectStep s (.prepareConnect c) s.prepareConnect
  | returns {c origin} (inside : s.tasks c = .connect origin) :
    ConnectStep s (.connectReturned c) (s.goto c .idle)
  | passAborts {c delay} (waits : s.tasks c = .credentials .autoStart) :
    ConnectStep s (.throws c delay) (s.goto c .idle)
  | passFails {c delay} (inside : s.tasks c = .connect .autoStart) :
    ConnectStep s (.throws c delay) ((s.setStatus .error).goto c .failed)
  | jobFails {c delay} (under : s.tasks c = .credentials .job ∨ s.tasks c = .connect .job) :
    ConnectStep s (.throws c delay) (s.ensureBot.scheduleReconnect c delay)
  | reconnectFails {c delay}
    (under : s.tasks c = .credentials .reconnect ∨ s.tasks c = .connect .reconnect) :
    ConnectStep s (.throws c delay) (s.scheduleReconnect c delay)
  | marks {c} (idle : s.tasks c = .idle) : ConnectStep s (.markConnected c) (s.markConnected c)
  | reschedules {c delay} (waits : s.tasks c = .failed) :
    ConnectStep s (.resume c delay) (s.scheduleReconnect c delay)
  | arms {c delay ms} (waits : s.tasks c = .scheduling ms) :
    ConnectStep s (.resume c delay) ((s.armTimer ms).goto c .idle)
  | marked {c delay} (waits : s.tasks c = .marking) :
    ConnectStep s (.resume c delay) (s.deleteTimer.goto c .idle)
  | loses {c delay} (idle : s.tasks c = .idle) :
    ConnectStep s (.connectionLost c delay) (s.scheduleReconnect c delay)
  | setsLive {live} : ConnectStep s (.setLive live) { s with live := live }
  | setsStatus {status} : ConnectStep s (.setStatus status) (s.setStatus status)
  | forgets :
    ConnectStep s (.disconnect true) { s.deleteTimer with live := false, entry := none }
  | disconnects : ConnectStep s (.disconnect false) { s.setStatus .idle with live := false }
  | ticks {ms} : ConnectStep s (.tick ms) { s with now := s.now + ms }

theorem connectStep_of_step {s s' : ConnectState} {a : ConnectAction}
    (h : s.step a = some s') : ConnectStep s a s' := by
  cases a with
  | job c =>
    rw [step] at h
    split_ifs at h with hidle hconnecting <;> cases h
    · exact .jobSkipped (not_not.mp hidle) hconnecting
    · exact .jobTaken (not_not.mp hidle) hconnecting
  | autoStart c =>
    rw [step] at h
    split_ifs at h with hidle hguard <;> cases h
    · exact .passSkipped (not_not.mp hidle) ((Bool.or_eq_true ..).mp hguard)
    · simp only [Bool.or_eq_true, not_or, Bool.not_eq_true, Option.isSome_eq_false_iff,
        Option.isNone_iff_eq_none] at hguard
      exact .passAttempts (not_not.mp hidle) hguard.1 hguard.2
  | fire timer c =>
    rw [step] at h
    cases harmed : s.armed timer with
    | none =>
      rw [harmed] at h
      cases h
    | some deadline =>
      rw [harmed] at h
      dsimp only at h
      split_ifs at h with hready
      cases h
      exact .fires harmed hready.2 hready.1
  | statusRead c dbStatus =>
    rw [step] at h
    split_ifs at h with hstatus hguard hrestart <;> cases h
    · rw [hrestart]
      exact .restarts (not_not.mp hstatus)
    · exact .proceeds (not_not.mp hstatus) hguard hrestart
    · exact .yields (not_not.mp hstatus) (Bool.eq_false_of_not_eq_true hguard)
  | statusFailed c =>
    rw [step] at h
    split_ifs at h with hstatus
    cases h
    exact .statusFails hstatus
  | credentialsRead c =>
    rw [step] at h
    cases htask : s.tasks c with
    | credentials origin =>
      rw [htask] at h
      cases origin <;> cases h
      · exact .connects htask (by decide)
      · exact .passConnects htask
      · exact .connects htask (by decide)
    | _ =>
      rw [htask] at h
      cases h
  | prepareConnect c =>
    rw [step] at h
    cases htask : s.tasks c with
    | connect origin =>
      rw [htask] at h
      cases h
      exact .prepares htask
    | _ =>
      rw [htask] at h
      cases h
  | connectReturned c =>
    rw [step] at h
    cases htask : s.tasks c with
    | connect origin =>
      rw [htask] at h
      cases h
      exact .returns htask
    | _ =>
      rw [htask] at h
      cases h
  | throws c delay =>
    rw [step] at h
    cases htask : s.tasks c with
    | credentials origin =>
      rw [htask] at h
      cases origin <;> cases h
      · exact .jobFails (Or.inl htask)
      · exact .passAborts htask
      · exact .reconnectFails (Or.inl htask)
    | connect origin =>
      rw [htask] at h
      cases origin <;> cases h
      · exact .jobFails (Or.inr htask)
      · exact .passFails htask
      · exact .reconnectFails (Or.inr htask)
    | _ =>
      rw [htask] at h
      cases h
  | markConnected c =>
    rw [step] at h
    split_ifs at h with hidle
    cases h
    exact .marks (not_not.mp hidle)
  | resume c delay =>
    rw [step] at h
    cases htask : s.tasks c with
    | failed =>
      rw [htask] at h
      cases h
      exact .reschedules htask
    | scheduling ms =>
      rw [htask] at h
      cases h
      exact .arms htask
    | marking =>
      rw [htask] at h
      cases h
      exact .marked htask
    | _ =>
      rw [htask] at h
      cases h
  | connectionLost c delay =>
    rw [step] at h
    split_ifs at h with hidle
    cases h
    exact .loses hidle
  | setLive live =>
    cases h
    exact .setsLive
  | setStatus status =>
    cases h
    exact .setsStatus
  | disconnect forgets =>
    cases forgets <;> cases h
    · exact .disconnects
    · exact .forgets
  | tick ms =>
    cases h
    exact .ticks

/-- No two calls of the platform's `connect()` overlap. -/
def OneConnect (s : ConnectState) : Prop :=
  AtMostOne ConnectTask.InConnect s.tasks

/-- The step takes a task past its last guard. -/
def PassesGuard (s : ConnectState) : ConnectAction → ℕ → Prop
  | .statusRead c dbStatus, d => d = c ∧ s.jobProceeds dbStatus = true
  | .autoStart c, d => d = c ∧ s.autoStartProceeds = true
  | .fire _ c, d => d = c ∧ (s.breaker.canAttempt s.now).1 = true
  | _, _ => False

/-- A task that the step takes past its last guard is the only attempt underway. -/
def GuardedAlone (s : ConnectState) (a : ConnectAction) : Prop :=
  ∀ c, PassesGuard s a c → ∀ d, d ≠ c → ¬ (s.tasks d).Underway

section Tasks

variable (s : ConnectState)

@[simp] theorem tasks_goto (c : ℕ) (task : ConnectTask) :
    (s.goto c task).tasks = Function.update s.tasks c task :=
  rfl

@[simp] theorem tasks_setStatus (status : BotStatus) : (s.setStatus status).tasks = s.tasks :=
  rfl

@[simp] theorem tasks_ensureBot : s.ensureBot.tasks = s.tasks :=
  rfl

@[simp] theorem tasks_clearTimeout : s.clearTimeout.tasks = s.tasks := by
  rw [clearTimeout]
  cases s.reconnectTimer <;> rfl

@[simp] theorem tasks_deleteTimer : s.deleteTimer.tasks = s.tasks :=
  tasks_clearTimeout s

@[simp] theorem tasks_armTimer (delay : ℤ) : (s.armTimer delay).tasks = s.tasks :=
  rfl

/-- `scheduleReconnect` takes its task out of the attempt. -/
theorem tasks_scheduleReconnect (c : ℕ) (delay : ℤ) : ∃ task : ConnectTask, ¬ task.Underway ∧
    (s.scheduleReconnect c delay).tasks = Function.update s.tasks c task := by
  rw [scheduleReconnect]
  cases s.entry with
  | none => exact ⟨.idle, id, rfl⟩
  | some entry =>
    dsimp only
    split_ifs
    · exact ⟨.idle, id, by simp⟩
    · exact ⟨.scheduling _, id, congrArg (Function.update · c _) (tasks_clearTimeout s)⟩
    · exact ⟨.scheduling delay, id, by simp⟩

/-- An attempt begins only with the consent of the breaker. -/
theorem tasks_attempt (c : ℕ) (origin : ConnectOrigin) :
    (s.attempt c origin).tasks = if (s.breaker.canAttempt s.now).1 then
      Function.update s.tasks c (.credentials origin) else s.tasks := by
  rw [attempt]
  dsimp only
  split_ifs <;> rfl

end Tasks

/-- An action moves its own task only. -/
theorem tasks_step_of_ne {s s' : ConnectState} {a : ConnectAction} (hstep : s.step a = some s')
    {c : ℕ} (h : a.task? ≠ some c) : s'.tasks c = s.tasks c := by
  have hattempt (r : ConnectState) {d : ℕ} (hd : c ≠ d) (origin : ConnectOrigin) :
      (r.attempt d origin).tasks c = r.tasks c := by
    rw [tasks_attempt]
    split_ifs
    · exact Function.update_of_ne hd _ _
    · rfl
  have hschedule (r : ConnectState) {d : ℕ} (hd : c ≠ d) (delay : ℤ) :
      (r.scheduleReconnect d delay).tasks c = r.tasks c := by
    obtain ⟨task, -, htasks⟩ := tasks_scheduleReconnect r d delay
    rw [htasks, Function.update_of_ne hd]
  have hne : ∀ d, a.task? = some d → c ≠ d := by
    rintro d hd rfl
    exact h hd
  cases connectStep_of_step hstep with
  | jobSkipped | passSkipped | prepares | setsLive | setsStatus | disconnects | ticks => rfl
  | forgets => exact congrFun (tasks_deleteTimer s) c
  | passAttempts | fires => exact hattempt _ (hne _ rfl) _
  | jobFails | reconnectFails | reschedules | loses => exact hschedule _ (hne _ rfl) _
  | restarts | marked => simp [hne _ rfl]
  | _ => exact Function.update_of_ne (hne _ rfl) _ _

/-- The step leaves the tasks alone, or it moves one of them: out of or along an attempt,
    or past its last guard. -/
def Moves (s : ConnectState) (a : ConnectAction) (s' : ConnectState) : Prop :=
  s'.tasks = s.tasks ∨ ∃ c task, s'.tasks = Function.update s.tasks c task ∧
    (task.Underway → (s.tasks c).Underway ∨ PassesGuard s a c)

namespace Moves

variable {s s' : ConnectState} {a : ConnectAction} {c : ℕ} {t : ConnectTask}

theorem leave (hout : ¬ t.Underway) (htasks : s'.tasks = Function.update s.tasks c t) :
    Moves s a s' :=
  Or.inr ⟨c, t, htasks, fun h => absurd h hout⟩

theorem pass (hpasses : PassesGuard s a c)
    (htasks : s'.tasks = Function.update s.tasks c t) : Moves s a s' :=
  Or.inr ⟨c, t, htasks, fun _ => Or.inr hpasses⟩

theorem scheduleReconnect {r : ConnectState} (hr : r.tasks = s.tasks) (delay : ℤ) :
    Moves s a (r.scheduleReconnect c delay) := by
  obtain ⟨task, hout, htasks⟩ := tasks_scheduleReconnect r c delay
  rw [hr] at htasks
  exact leave hout htasks

/-- An attempt, if the breaker's consent is all that the guard still needs. -/
theorem attempt {r : ConnectState} (hr : r.tasks = s.tasks) {origin : ConnectOrigin}
    (hpasses : (r.breaker.canAttempt r.now).1 = true → PassesGuard s a c) :
    Moves s a (r.attempt c origin) := by
  have htasks := tasks_attempt r c origin
  rw [hr] at htasks
  split_ifs at htasks with hallowed
  · exact pass (hpasses hallowed) htasks
  · exact Or.inl htasks

end Moves

theorem moves_step {s s' : ConnectState} {a : ConnectAction} (hstep : s.step a = some s') :
    Moves s a s' := by
  cases connectStep_of_step hstep with
  | jobTaken => exact Moves.leave (t := .status) id rfl
  | passAttempts _ away free =>
    refine Moves.attempt rfl fun hallowed => ⟨rfl, ?_⟩
    rw [autoStartProceeds, away, free, hallowed]
    rfl
  | fires =>
    refine Moves.attempt (s := s) (r := s.disarm _) rfl fun hallowed => ?_
    exact ⟨rfl, hallowed⟩
  | @restarts c _ =>
    have htasks : (s.deleteTimer.goto c (.credentials .job)).tasks =
        Function.update s.tasks c (.credentials .job) := by simp
    exact Moves.pass ⟨rfl, rfl⟩ htasks
  | proceeds _ guard => exact Moves.pass (t := .credentials .job) ⟨rfl, guard⟩ rfl
  | passConnects waits =>
    -- from the wait for the credentials into `connect()`: underway before and after
    exact Or.inr ⟨_, .connect .autoStart, rfl, fun _ => Or.inl (waits ▸ trivial)⟩
  | @connects _ origin waits =>
    exact Or.inr ⟨_, .connect origin, rfl, fun _ => Or.inl (waits ▸ trivial)⟩
  | passFails => exact Moves.leave (t := .failed) id rfl
  | jobFails => exact Moves.scheduleReconnect (tasks_ensureBot s) _
  | reconnectFails | reschedules | loses => exact Moves.scheduleReconnect rfl _
  | marks => exact Moves.leave (t := .marking) id rfl
  | @marked c =>
    have htasks : (s.deleteTimer.goto c .idle).tasks = Function.update s.tasks c .idle := by simp
    exact Moves.leave id htasks
  | yields | statusFails | returns | passAborts | arms => exact Moves.leave (t := .idle) id rfl
  | forgets => exact Or.inl (tasks_deleteTimer s)
  | jobSkipped | passSkipped | prepares | setsLive | setsStatus | disconnects | ticks =>
    exact Or.inl rfl

/-- While guards are passed alone, at most one attempt is underway. -/
theorem atMostOne_underway_step {s s' : ConnectState} {a : ConnectAction}
    (h : AtMostOne ConnectTask.Underway s.tasks) (hok : GuardedAlone s a)
    (hstep : s.step a = some s') : AtMostOne ConnectTask.Underway s'.tasks := by
  rcases moves_step hstep with hsame | ⟨c, task, htasks, hunderway⟩
  · rwa [hsame]
  · rw [htasks]
    by_cases hpasses : PassesGuard s a c
    · exact atMostOne_update_of_alone (hok c hpasses)
    · exact h.update_of_imp fun ht => (hunderway ht).resolve_right hpasses

theorem ConnectTask.InConnect.underway {task : ConnectTask} (h : task.InConnect) :
    task.Underway := by
  cases task with
  | connect origin => trivial
  | _ => exact h.elim

theorem atMostOne_underway_start :
    AtMostOne ConnectTask.Underway ConnectState.start.tasks := by
  intro i j hi
  exact False.elim hi

/-- **One connect at a time**: as long as no path passes its last guard while another
    attempt is underway, no two calls of `connect()` overlap. -/
theorem oneConnect_of_guarded_alone (as : List ConnectAction)
    (hok : Machine.Along ConnectState.step GuardedAlone .start as) :
    Machine.Everywhere ConnectState.step OneConnect .start as :=
  Machine.everywhere_of_invariant (fun s => AtMostOne ConnectTask.Underway s.tasks) OneConnect
    (fun _ _ _ h hok hstep => atMostOne_underway_step h hok hstep)
    (fun _ h i j hi hj => h i j hi.underway hj.underway)
    atMostOne_underway_start hok

/-- A connect job runs up to the live connection; ten seconds later the connection is
    lost, and the reconnect timer connects the bot again. -/
theorem oneConnect_of_job_and_reconnect :
    Machine.Everywhere ConnectState.step OneConnect .start
      [.job 0, .statusRead 0 (some .running), .credentialsRead 0, .prepareConnect 0,
        .setLive true, .markConnected 1, .resume 1 0, .connectReturned 0, .tick 10000,
        .setLive false, .connectionLost 0 1000, .resume 0 0, .tick 1000, .fire 0 0,
        .credentialsRead 0] := by
  apply oneConnect_of_guarded_alone
  rintro _ ⟨⟩
  refine ⟨nofun, ?_⟩
  rintro _ ⟨⟩
  refine ⟨?_, ?_⟩
  · rintro _ ⟨rfl, _⟩ d hd
    have hidle : (ConnectState.start.goto 0 .status).tasks d = .idle :=
      Function.update_of_ne hd _ _
    exact hidle ▸ id
  iterate 11
    rintro _ ⟨⟩
    refine ⟨nofun, ?_⟩
  rintro _ ⟨⟩
  refine ⟨?_, ?_⟩
  · rintro _ ⟨rfl, _⟩ d hd
    match d, hd with
    | 0, hd => exact absurd rfl hd
    | 1, _ => exact id
    | d + 2, _ => exact id
  rintro _ ⟨⟩
  exact ⟨nofun, trivial⟩

/-- Two connect jobs read the status before either has called `connect()`: each passes
    its guards, and the second call begins while the first one is in flight. -/
theorem oneConnect_fails_on_two_jobs :
    ∃ s, Machine.exec ConnectState.step .start
        [.job 0, .job 1, .statusRead 0 (some .running), .statusRead 1 (some .running),
          .credentialsRead 0, .prepareConnect 0, .credentialsRead 1] = some s ∧
      ¬ OneConnect s := by
  refine ⟨_, rfl, fun h => ?_⟩
  exact absurd (h 0 1 trivial trivial) (by decide)

end BotHive.Workers
