import BotHive.Workers.Connect

/-!
# A worker and the status in the database

The status of a bot in the database is what the user asked for and what the worker has
found at once: the API writes it, and so do the attempts to connect, the handlers of lost
connections, and everything that disconnects the bot. The model is the part of a worker
that belongs to one bot, with every read and write of the status as a step of its own.

The connection itself is the platform's. Its sessions (clients, sockets, polling loops)
begin with a call of `connect()` and last until none of their handlers can run any more;
while one lasts it may report that the bot is connected, or that the connection is lost.

## Main definitions

- `BotWorker`: the attempts of `ConnectState` with their reads and writes, reconcile
  passes, disconnects, and the leadership of the worker
- `BotWorker.step`: an action and what it writes to the database

## Main results

- `act_spec`: what an action on the attempts does to the rest of the worker
- `botStep_of_step`: all that a step can do
-/

namespace BotHive.Workers

/-- What disconnects a bot. A job knows how many requests of users came before it. -/
inductive StopOrigin where
  | job (request : ℕ)
  | sweep
  | loss
  | shutdown
  deriving DecidableEq

inductive StopTask where
  | idle
  /-- A disconnect job waits for the status of the bot. -/
  | status (request : ℕ)
  /-- `disconnectAll` is on its way to the bot. -/
  | looping (origin : StopOrigin)
  /-- The `disconnect()` of the platform has been called. -/
  | closing (origin : StopOrigin)
  /-- `markDisconnected` waits for its write. -/
  | marking (origin : StopOrigin) (status : BotStatus)
  | ending (origin : StopOrigin)
  deriving DecidableEq

/-- What a reconcile pass is going to do to the bot. -/
inductive PassTask where
  | idle
  | start
  | sweep
  deriving DecidableEq

structure BotWorker where
  connect : ConnectState
  isLeader : Bool
  isLosingLeadership : Bool
  /-- Calls of `ensureLeadershipState` that have lost the lease and pause the queue. -/
  pausing : ℕ
  /-- The status that the database has answered to a connect job. -/
  reads : ℕ → Option BotStatus
  /-- The status that a task is writing to the database. -/
  writes : ℕ → Option BotStatus
  /-- Handlers of lost connections. -/
  handlers : ℕ → Bool
  passes : ℕ → PassTask
  stops : ℕ → StopTask
  /-- Sessions of the platform whose handlers may still run. -/
  sessions : ℕ

namespace ConnectState

/-- `scheduleReconnect` gives the bot up. -/
def givesUp (s : ConnectState) : Bool :=
  s.entry.any fun entry => decide (maxReconnectAttempts ≤ entry.reconnectAttempts)

/-- What an action writes to the database. -/
def writeOf (s : ConnectState) : ConnectAction → Option BotStatus
  | .markConnected _ => some .running
  | .throws c _ =>
    match s.tasks c with
    | .connect .autoStart => some .error
    | .credentials .reconnect | .connect .reconnect => if s.givesUp then some .error else none
    | .credentials .job | .connect .job => if s.ensureBot.givesUp then some .error else none
    | _ => none
  | .resume c _ =>
    match s.tasks c with
    | .failed => if s.givesUp then some .error else none
    | _ => none
  | .connectionLost _ _ => if s.givesUp then some .error else none
  | _ => none

end ConnectState

/-- The actions of a worker that neither read the status of the bot nor depend on the
    platform. -/
def ConnectAction.own : ConnectAction → Bool
  | .fire _ _ | .statusFailed _ | .prepareConnect _ | .connectReturned _ | .throws _ _
  | .resume _ _ | .tick _ => true
  | _ => false

inductive BotAction where
  | own (action : ConnectAction)
  /-- The queue hands a connect job to `processJob`. -/
  | job (task : ℕ)
  /-- The database answers a connect job. -/
  | readStatus (task : ℕ)
  /-- The answer arrives. -/
  | statusRead (task : ℕ)
  /-- An attempt receives its credentials and calls `connect()`. -/
  | credentialsRead (task : ℕ)
  /-- A `connect()` registers its connection, or drops the one before it. -/
  | register (task : ℕ) (live : Bool)
  /-- A `connect()` records its failure before it throws. -/
  | markFailed (task : ℕ)
  /-- A session reports that the bot is connected. -/
  | markConnected (task : ℕ)
  /-- A session is lost, and its handler records this; it drops the connection before or
      after the write. -/
  | lost (task : ℕ) (failed drops : Bool)
  /-- The handler of a lost connection goes on, and schedules a reconnect or not. -/
  | handled (task : ℕ) (drops : Bool) (delay : Option ℤ)
  | sessionEnds
  /-- An execute job, a script run or a counter of orders calls `ensureBot`. -/
  | ensureBot
  /-- The database carries out the write of a task, or fails to. -/
  | written (task : ℕ) (success : Bool)
  /-- The database answers the queries of `autoStartBots`. -/
  | queryStart (pass : ℕ)
  | querySweep (pass : ℕ)
  /-- `autoStartBots` comes to the bot. -/
  | passStarts (pass task : ℕ)
  | passSweeps (pass stop : ℕ)
  /-- The queue hands a disconnect job to `processJob`. -/
  | stopJob (stop request : ℕ)
  /-- The database answers a disconnect job. -/
  | readStop (stop : ℕ)
  /-- A `disconnect()` clears the reconnect timer. -/
  | clearTimer (stop : ℕ)
  /-- A `disconnect()` drops the connection, on most platforms with the entry of the bot,
      and calls `markDisconnected`. -/
  | close (stop : ℕ) (forgets : Bool)
  | stopWritten (stop : ℕ) (success : Bool)
  | stopEnds (stop : ℕ)
  /-- `ensureLeadershipState` finds the lease acquired, or lost. -/
  | acquire
  | lose
  /-- The queue is paused, and `disconnectAll` begins. -/
  | tearDown (stop : ℕ)
  /-- `shutdown` clears the timers and calls `disconnectAll`. -/
  | shutdown (stop : ℕ)
  /-- `disconnectAll` comes to the bot. -/
  | reach (stop : ℕ)

namespace BotWorker

/-- A worker that knows nothing of the bot yet. -/
def start : BotWorker where
  connect := .start
  isLeader := false
  isLosingLeadership := false
  pausing := 0
  reads _ := none
  writes _ := none
  handlers _ := false
  passes _ := .idle
  stops _ := .idle
  sessions := 0

/-- A task that does not wait for a write. -/
def Free (w : BotWorker) (c : ℕ) : Prop :=
  w.writes c = none ∧ w.handlers c = false

instance (w : BotWorker) (c : ℕ) : Decidable (w.Free c) :=
  inferInstanceAs (Decidable (_ ∧ _))

/-- An action on the attempts, with the write that it begins. -/
def act (w : BotWorker) (a : ConnectAction) : Option BotWorker :=
  match a.task? with
  | none => (w.connect.step a).map fun connect => { w with connect := connect }
  | some c =>
    if w.Free c then
      (w.connect.step a).map fun connect =>
        { w with
          connect := connect
          writes := Function.update w.writes c (w.connect.writeOf a) }
    else none

def goStop (w : BotWorker) (k : ℕ) (task : StopTask) : BotWorker :=
  { w with stops := Function.update w.stops k task }

def goPass (w : BotWorker) (p : ℕ) (task : PassTask) : BotWorker :=
  { w with passes := Function.update w.passes p task }

def record (w : BotWorker) (c : ℕ) (status : BotStatus) : BotWorker :=
  { w with
    connect := w.connect.setStatus status
    writes := Function.update w.writes c (some status) }

/-- The connection is not registered any more. -/
def drop (w : BotWorker) (drops : Bool) : BotWorker :=
  { w with connect := { w.connect with live := w.connect.live && !drops } }

/-- `disconnectAll` ends with new breakers for all bots. -/
def clearBreakers (w : BotWorker) : BotWorker :=
  { w with connect := { w.connect with breaker := ConnectState.start.breaker } }

/-- What `markDisconnected` records without an error. -/
def failoverStatus (w : BotWorker) : BotStatus :=
  if w.isLosingLeadership then .reconnecting else .idle

/-- An action, and the status that it writes to the database. -/
def step (row : BotStatus) (w : BotWorker) : BotAction → Option (BotWorker × Option BotStatus)
  | .own action => if action.own then (w.act action).map (·, none) else none
  -- a job that was in flight when the leadership changed is thrown back
  | .job c => if w.isLeader then (w.act (.job c)).map (·, none) else none
  | .readStatus c =>
    if w.connect.tasks c = .status ∧ w.reads c = none then
      some ({ w with reads := Function.update w.reads c (some row) }, none)
    else none
  | .statusRead c =>
    match w.reads c with
    | none => none
    | some answer =>
      (w.act (.statusRead c (some answer))).map fun w =>
        ({ w with reads := Function.update w.reads c none }, none)
  | .credentialsRead c =>
    (w.act (.credentialsRead c)).map fun w => ({ w with sessions := w.sessions + 1 }, none)
  | .register c live =>
    match w.connect.tasks c with
    | .connect _ => some ({ w with connect := { w.connect with live := live } }, none)
    | _ => none
  | .markFailed c =>
    match w.connect.tasks c with
    | .connect _ => if w.Free c then some (w.record c .error, none) else none
    | _ => none
  | .markConnected c => if 0 < w.sessions then (w.act (.markConnected c)).map (·, none) else none
  | .lost c failed drops =>
    -- the handler waits for `markReconnecting` or `markDisconnected`
    if 0 < w.sessions ∧ w.connect.tasks c = .idle ∧ w.Free c then
      some
        ({ (w.drop drops).record c (if failed then .error else .reconnecting) with
            handlers := Function.update w.handlers c true }, none)
    else none
  | .handled c drops delay =>
    if w.handlers c = true ∧ w.writes c = none then
      let w := { w.drop drops with handlers := Function.update w.handlers c false }
      match delay with
      | none => some (w, none)
      | some delay => (w.act (.connectionLost c delay)).map (·, none)
    else none
  | .sessionEnds =>
    if 0 < w.sessions then some ({ w with sessions := w.sessions - 1 }, none) else none
  | .ensureBot => some ({ w with connect := w.connect.ensureBot }, none)
  | .written c success =>
    match w.writes c with
    | none => none
    | some status =>
      some ({ w with writes := Function.update w.writes c none },
        if success then some status else none)
  | .queryStart p =>
    if w.isLeader ∧ w.passes p = .idle then
      some (w.goPass p (if row.startable then .start else .idle), none)
    else none
  | .querySweep p =>
    if w.isLeader ∧ w.passes p = .idle then
      some (w.goPass p (if row.startable then .idle else .sweep), none)
    else none
  | .passStarts p c =>
    if w.passes p = .start then ((w.goPass p .idle).act (.autoStart c)).map (·, none) else none
  | .passSweeps p k =>
    if w.passes p = .sweep ∧ w.stops k = .idle then
      some ((w.goPass p .idle).goStop k (if w.connect.live then .closing .sweep else .idle), none)
    else none
  | .stopJob k request =>
    if w.isLeader ∧ w.stops k = .idle then some (w.goStop k (.status request), none) else none
  | .readStop k =>
    match w.stops k with
    | .status request =>
      -- a stale job, from before the bot was started again, is skipped
      some (w.goStop k (if row.startable then .ending (.job request) else .closing (.job request)),
        none)
    | _ => none
  | .clearTimer k =>
    match w.stops k with
    | .closing _ => some ({ w with connect := w.connect.deleteTimer }, none)
    | _ => none
  | .close k forgets =>
    match w.stops k with
    | .closing origin =>
      -- the status of the entry is only set where the entry is still there
      let connect :=
        if forgets then { w.connect with live := false, entry := none }
        else { w.connect.setStatus w.failoverStatus with live := false }
      some ({ w with connect := connect }.goStop k (.marking origin w.failoverStatus), none)
    | _ => none
  | .stopWritten k success =>
    match w.stops k with
    | .marking origin status =>
      some (w.goStop k (.ending origin), if success then some status else none)
    | _ => none
  | .stopEnds k =>
    match w.stops k with
    | .ending .loss =>
      some ({ w.clearBreakers.goStop k .idle with isLosingLeadership := false }, none)
    | .ending .shutdown => some (w.clearBreakers.goStop k .idle, none)
    | .ending _ => some (w.goStop k .idle, none)
    | _ => none
  | .acquire => some ({ w with isLeader := true }, none)
  | .lose =>
    if w.isLeader then some ({ w with isLeader := false, pausing := w.pausing + 1 }, none) else none
  | .tearDown k =>
    if 0 < w.pausing ∧ w.stops k = .idle then
      some ({ w.goStop k (.looping .loss) with
          connect := w.connect.deleteTimer
          isLosingLeadership := true
          pausing := w.pausing - 1 }, none)
    else none
  | .shutdown k =>
    if w.stops k = .idle then
      some ({ w.goStop k (.looping .shutdown) with connect := w.connect.deleteTimer }, none)
    else none
  | .reach k =>
    match w.stops k with
    | .looping origin =>
      some (w.goStop k (if w.connect.entry.isSome then .closing origin else .ending origin), none)
    | _ => none

/-- What an action on the attempts does to the worker. -/
theorem act_spec {w w' : BotWorker} {a : ConnectAction} (h : w.act a = some w') :
    ∃ connect writes, ConnectStep w.connect a connect ∧
      w' = { w with connect := connect, writes := writes } ∧
      ∀ c, writes c = w.writes c ∨ writes c = w.connect.writeOf a ∧ a.task? = some c := by
  rw [act] at h
  cases htask : a.task? with
  | none =>
    rw [htask] at h
    obtain ⟨connect, hstep, rfl⟩ := Option.map_eq_some_iff.mp h
    exact ⟨connect, w.writes, connectStep_of_step hstep, rfl, fun _ => Or.inl rfl⟩
  | some d =>
    rw [htask] at h
    dsimp only at h
    split_ifs at h
    obtain ⟨connect, hstep, rfl⟩ := Option.map_eq_some_iff.mp h
    refine ⟨connect, _, connectStep_of_step hstep, rfl, fun c => ?_⟩
    by_cases hc : c = d
    · subst hc
      exact Or.inr ⟨Function.update_self .., rfl⟩
    · exact Or.inl (Function.update_of_ne hc _ _)

/-- All that a step can do, with what it writes to the database. -/
inductive BotStep (row : BotStatus) (w : BotWorker) :
    BotAction → BotWorker → Option BotStatus → Prop where
  | own {a w'} (own : a.own = true) (act : w.act a = some w') : BotStep row w (.own a) w' none
  | job {c w'} (leader : w.isLeader = true) (act : w.act (.job c) = some w') :
    BotStep row w (.job c) w' none
  | readStatus {c} (waits : w.connect.tasks c = .status) (unread : w.reads c = none) :
    BotStep row w (.readStatus c) { w with reads := Function.update w.reads c (some row) } none
  | statusRead {c answer w'} (read : w.reads c = some answer)
    (act : w.act (.statusRead c (some answer)) = some w') :
    BotStep row w (.statusRead c) { w' with reads := Function.update w'.reads c none } none
  | credentialsRead {c w'} (act : w.act (.credentialsRead c) = some w') :
    BotStep row w (.credentialsRead c) { w' with sessions := w'.sessions + 1 } none
  | register {c origin live} (inside : w.connect.tasks c = .connect origin) :
    BotStep row w (.register c live) { w with connect := { w.connect with live := live } } none
  | markFailed {c origin} (inside : w.connect.tasks c = .connect origin) (free : w.Free c) :
    BotStep row w (.markFailed c) (w.record c .error) none
  | markConnected {c w'} (lasting : 0 < w.sessions) (act : w.act (.markConnected c) = some w') :
    BotStep row w (.markConnected c) w' none
  | lost {c failed drops} (lasting : 0 < w.sessions) (idle : w.connect.tasks c = .idle)
    (free : w.Free c) :
    BotStep row w (.lost c failed drops)
      { (w.drop drops).record c (if failed then .error else .reconnecting) with
        handlers := Function.update w.handlers c true } none
  | handled {c drops} (handler : w.handlers c = true) (unwritten : w.writes c = none) :
    BotStep row w (.handled c drops none)
      { w.drop drops with handlers := Function.update w.handlers c false } none
  | rescheduled {c drops delay w'} (handler : w.handlers c = true) (unwritten : w.writes c = none)
    (act : { w.drop drops with handlers := Function.update w.handlers c false }.act
      (.connectionLost c delay) = some w') :
    BotStep row w (.handled c drops (some delay)) w' none
  | sessionEnds (lasting : 0 < w.sessions) :
    BotStep row w .sessionEnds { w with sessions := w.sessions - 1 } none
  | ensureBot : BotStep row w .ensureBot { w with connect := w.connect.ensureBot } none
  | written {c status} (writes : w.writes c = some status) :
    BotStep row w (.written c true) { w with writes := Function.update w.writes c none }
      (some status)
  | writeFails {c status} (writes : w.writes c = some status) :
    BotStep row w (.written c false) { w with writes := Function.update w.writes c none } none
  | queryStart {p} (leader : w.isLeader = true) (idle : w.passes p = .idle) :
    BotStep row w (.queryStart p) (w.goPass p (if row.startable then .start else .idle)) none
  | querySweep {p} (leader : w.isLeader = true) (idle : w.passes p = .idle) :
    BotStep row w (.querySweep p) (w.goPass p (if row.startable then .idle else .sweep)) none
  | passStarts {p c w'} (found : w.passes p = .start)
    (act : (w.goPass p .idle).act (.autoStart c) = some w') :
    BotStep row w (.passStarts p c) w' none
  | passSweeps {p k} (found : w.passes p = .sweep) (idle : w.stops k = .idle) :
    BotStep row w (.passSweeps p k)
      ((w.goPass p .idle).goStop k (if w.connect.live then .closing .sweep else .idle)) none
  | stopJob {k request} (leader : w.isLeader = true) (idle : w.stops k = .idle) :
    BotStep row w (.stopJob k request) (w.goStop k (.status request)) none
  | readStop {k request} (waits : w.stops k = .status request) :
    BotStep row w (.readStop k)
      (w.goStop k (if row.startable then .ending (.job request) else .closing (.job request))) none
  | clearTimer {k origin} (closing : w.stops k = .closing origin) :
    BotStep row w (.clearTimer k) { w with connect := w.connect.deleteTimer } none
  | forget {k origin} (closing : w.stops k = .closing origin) :
    BotStep row w (.close k true)
      ({ w with connect := { w.connect with live := false, entry := none } }.goStop k
        (.marking origin w.failoverStatus)) none
  | close {k origin} (closing : w.stops k = .closing origin) :
    BotStep row w (.close k false)
      ({ w with connect := { w.connect.setStatus w.failoverStatus with live := false } }.goStop k
        (.marking origin w.failoverStatus)) none
  | stopWritten {k origin status} (marking : w.stops k = .marking origin status) :
    BotStep row w (.stopWritten k true) (w.goStop k (.ending origin)) (some status)
  | stopWriteFails {k origin status} (marking : w.stops k = .marking origin status) :
    BotStep row w (.stopWritten k false) (w.goStop k (.ending origin)) none
  | lossEnds {k} (ending : w.stops k = .ending .loss) :
    BotStep row w (.stopEnds k)
      { w.clearBreakers.goStop k .idle with isLosingLeadership := false } none
  | shutdownEnds {k} (ending : w.stops k = .ending .shutdown) :
    BotStep row w (.stopEnds k) (w.clearBreakers.goStop k .idle) none
  | stopEnds {k origin} (ending : w.stops k = .ending origin) (kept : origin ≠ .loss) :
    BotStep row w (.stopEnds k) (w.goStop k .idle) none
  | acquire : BotStep row w .acquire { w with isLeader := true } none
  | lose (leader : w.isLeader = true) :
    BotStep row w .lose { w with isLeader := false, pausing := w.pausing + 1 } none
  | tearDown {k} (paused : 0 < w.pausing) (idle : w.stops k = .idle) :
    BotStep row w (.tearDown k)
      { w.goStop k (.looping .loss) with
        connect := w.connect.deleteTimer
        isLosingLeadership := true
        pausing := w.pausing - 1 } none
  | shutdown {k} (idle : w.stops k = .idle) :
    BotStep row w (.shutdown k)
      { w.goStop k (.looping .shutdown) with connect := w.connect.deleteTimer } none
  | reach {k origin} (looping : w.stops k = .looping origin) :
    BotStep row w (.reach k)
      (w.goStop k (if w.connect.entry.isSome then .closing origin else .ending origin)) none

theorem botStep_of_step {row : BotStatus} {w w' : BotWorker} {a : BotAction}
    {written : Option BotStatus} (h : w.step row a = some (w', written)) :
    BotStep row w a w' written := by
  have hmap {v : Option BotWorker} {f : BotWorker → BotWorker}
      (hv : v.map (fun w => (f w, (none : Option BotStatus))) = some (w', written)) :
      ∃ u, v = some u ∧ f u = w' ∧ written = none := by
    obtain ⟨u, hu, heq⟩ := Option.map_eq_some_iff.mp hv
    obtain ⟨hw, hwritten⟩ := Prod.mk.inj heq
    exact ⟨u, hu, hw, hwritten.symm⟩
  cases a with
  | own a =>
    rw [step] at h
    split_ifs at h with hown
    obtain ⟨u, hu, rfl, rfl⟩ := hmap (f := id) h
    exact .own hown hu
  | job c =>
    rw [step] at h
    split_ifs at h with hleader
    obtain ⟨u, hu, rfl, rfl⟩ := hmap (f := id) h
    exact .job hleader hu
  | readStatus c =>
    rw [step] at h
    split_ifs at h with hwaits
    cases h
    exact .readStatus hwaits.1 hwaits.2
  | statusRead c =>
    rw [step] at h
    cases hread : w.reads c with
    | none =>
      rw [hread] at h
      cases h
    | some answer =>
      rw [hread] at h
      obtain ⟨u, hu, rfl, rfl⟩ := hmap h
      exact .statusRead hread hu
  | credentialsRead c =>
    rw [step] at h
    obtain ⟨u, hu, rfl, rfl⟩ := hmap h
    exact .credentialsRead hu
  | register c live =>
    rw [step] at h
    cases htask : w.connect.tasks c <;> rw [htask] at h <;> cases h
    exact .register htask
  | markFailed c =>
    rw [step] at h
    cases htask : w.connect.tasks c with
    | connect origin =>
      rw [htask] at h
      dsimp only at h
      split_ifs at h with hfree
      cases h
      exact .markFailed htask hfree
    | _ =>
      rw [htask] at h
      cases h
  | markConnected c =>
    rw [step] at h
    split_ifs at h with hlasting
    obtain ⟨u, hu, rfl, rfl⟩ := hmap (f := id) h
    exact .markConnected hlasting hu
  | lost c failed drops =>
    rw [step] at h
    obtain ⟨hready, h⟩ := Option.ite_none_right_eq_some.mp h
    cases h
    exact .lost hready.1 hready.2.1 hready.2.2
  | handled c drops delay =>
    rw [step] at h
    split_ifs at h with hready
    cases delay with
    | none =>
      cases h
      exact .handled hready.1 hready.2
    | some delay =>
      obtain ⟨u, hu, rfl, rfl⟩ := hmap (f := id) h
      exact .rescheduled hready.1 hready.2 hu
  | sessionEnds =>
    rw [step] at h
    split_ifs at h with hlasting
    cases h
    exact .sessionEnds hlasting
  | ensureBot =>
    cases h
    exact .ensureBot
  | written c success =>
    rw [step] at h
    cases hwrites : w.writes c with
    | none =>
      rw [hwrites] at h
      cases h
    | some status =>
      rw [hwrites] at h
      cases success <;> cases h
      · exact .writeFails hwrites
      · exact .written hwrites
  | queryStart p =>
    rw [step] at h
    obtain ⟨hready, h⟩ := Option.ite_none_right_eq_some.mp h
    cases h
    exact .queryStart hready.1 hready.2
  | querySweep p =>
    rw [step] at h
    obtain ⟨hready, h⟩ := Option.ite_none_right_eq_some.mp h
    cases h
    exact .querySweep hready.1 hready.2
  | passStarts p c =>
    rw [step] at h
    split_ifs at h with hfound
    obtain ⟨u, hu, rfl, rfl⟩ := hmap (f := id) h
    exact .passStarts hfound hu
  | passSweeps p k =>
    rw [step] at h
    obtain ⟨hready, h⟩ := Option.ite_none_right_eq_some.mp h
    cases h
    exact .passSweeps hready.1 hready.2
  | stopJob k request =>
    rw [step] at h
    split_ifs at h with hready
    cases h
    exact .stopJob hready.1 hready.2
  | readStop k =>
    rw [step] at h
    cases hstop : w.stops k <;> rw [hstop] at h <;> cases h
    exact .readStop hstop
  | clearTimer k =>
    rw [step] at h
    cases hstop : w.stops k <;> rw [hstop] at h <;> cases h
    exact .clearTimer hstop
  | close k forgets =>
    rw [step] at h
    cases hstop : w.stops k <;> rw [hstop] at h <;> cases h
    cases forgets
    · exact .close hstop
    · exact .forget hstop
  | stopWritten k success =>
    rw [step] at h
    cases hstop : w.stops k <;> rw [hstop] at h <;> cases h
    cases success
    · exact .stopWriteFails hstop
    · exact .stopWritten hstop
  | stopEnds k =>
    rw [step] at h
    cases hstop : w.stops k with
    | ending origin =>
      rw [hstop] at h
      cases origin <;> cases h
      · exact .stopEnds hstop nofun
      · exact .stopEnds hstop nofun
      · exact .lossEnds hstop
      · exact .shutdownEnds hstop
    | _ =>
      rw [hstop] at h
      cases h
  | acquire =>
    cases h
    exact .acquire
  | lose =>
    rw [step] at h
    split_ifs at h with hleader
    cases h
    exact .lose hleader
  | tearDown k =>
    rw [step] at h
    split_ifs at h with hready
    cases h
    exact .tearDown hready.1 hready.2
  | shutdown k =>
    rw [step] at h
    split_ifs at h with hidle
    cases h
    exact .shutdown hidle
  | reach k =>
    rw [step] at h
    cases hstop : w.stops k <;> rw [hstop] at h <;> cases h
    exact .reach hstop

end BotWorker

end BotHive.Workers
