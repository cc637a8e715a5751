import BotHive.Workers.BotWorker

/-!
# A stop is final

A user stops a bot: the API writes `idle` and queues a disconnect job. When the job has
been processed, the bot should stay down until somebody starts it again. The job closes
the connection that is registered. What else is underway outlives it: a `connect()` in
flight marks the bot as running when it is done, a reconnect timer fires, a reconcile pass
goes on with the status that it has read before.

## Main definitions

- `BotWorld`: a leader, the status in the database, and the requests of the user
- `Final`: a stopped bot is not marked as running, and `connect()` is not called for it
- `Quiet`: nothing of the bot is underway in a worker
- `StopsQuietly`: the condition on a step

## Main results

- `quiet_step`: a quiet worker stays quiet while the bot is meant to be down
- `final_of_stopsQuietly`: a stop after which the worker is quiet is final
-/

namespace BotHive.Workers

structure BotWorld where
  worker : BotWorker
  /-- The status of the bot in the database. -/
  row : BotStatus
  /-- How many requests the user has made. -/
  requests : ℕ
  /-- The last request was a stop. -/
  stopRequested : Bool
  /-- The disconnect job of the last request, a stop, has been processed. -/
  stopped : Bool

inductive WorldAction where
  | worker (action : BotAction)
  /-- The user starts or restarts the bot. -/
  | start (restart : Bool)
  | stop

/-- The action is not one of a worker that loses its lease or shuts down. -/
def BotAction.staysLeader : BotAction → Bool
  | .lose | .tearDown _ | .shutdown _ => false
  | _ => true

namespace BotWorld

/-- A new leader and a bot that has never been started. -/
def init : BotWorld where
  worker := { BotWorker.start with isLeader := true }
  row := .idle
  requests := 0
  stopRequested := false
  stopped := false

/-- The action ends the disconnect job of the last request. -/
def endsStop (s : BotWorld) : BotAction → Bool
  | .stopEnds k => s.stopRequested && decide (s.worker.stops k = .ending (.job s.requests))
  | _ => false

def work (s : BotWorld) (action : BotAction) : Option BotWorld :=
  (s.worker.step s.row action).map fun next =>
    { s with
      worker := next.1
      row := next.2.getD s.row
      stopped := s.stopped || s.endsStop action }

/-- A disconnect job begins after the last request; all other actions are the worker's. -/
def step (s : BotWorld) : WorldAction → Option BotWorld
  | .worker action =>
    match action with
    | .stopJob _ request => if request = s.requests then s.work action else none
    | _ => if action.staysLeader then s.work action else none
  | .start restart =>
    some { s with
      row := if restart then .reconnecting else .connecting
      requests := s.requests + 1
      stopRequested := false
      stopped := false }
  | .stop =>
    some { s with
      row := .idle
      requests := s.requests + 1
      stopRequested := true
      stopped := false }

end BotWorld

/-- Not past the guard of an attempt. -/
def ConnectTask.Unguarded : ConnectTask → Prop
  | .idle | .status | .marking => True
  | _ => False

/-- Nothing of the bot is underway in the worker: there is no session, no attempt, handler or
    timer, and no status to start the bot has been read or is written. -/
structure BotWorker.Quiet (w : BotWorker) : Prop where
  tasks : ∀ c, (w.connect.tasks c).Unguarded
  timers : ∀ timer, w.connect.armed timer = none
  reads : ∀ c status, w.reads c = some status → status.startable = false
  writes : ∀ c status, w.writes c = some status → status.startable = false
  handlers : ∀ c, w.handlers c = false
  passes : ∀ p, w.passes p ≠ .start
  sessions : w.sessions = 0

/-- Once a stop has been processed, the bot is not marked as running and the `connect()` of
    the platform is not called. -/
def Final (s : BotWorld) (a : WorldAction) : Prop :=
  s.stopped = true → ∀ s', s.step a = some s' →
    s'.row ≠ .running ∧
      ∀ c, (s'.worker.connect.tasks c).InConnect → (s.worker.connect.tasks c).InConnect

/-- The disconnect job of a stop ends in a quiet worker, with the stop still recorded. -/
def StopsQuietly (s : BotWorld) : WorldAction → Prop
  | .worker action => s.endsStop action = true → s.worker.Quiet ∧ s.row.startable = false
  | _ => True

open BotWorker

section Quiet

variable {w w' : BotWorker}

/-- A status that has been read, or is written, does not start the bot. -/
def Down (answer : Option BotStatus) : Prop :=
  ∀ status, answer = some status → status.startable = false

/-- An action on the attempts of a bot that is not meant to run. -/
def ConnectAction.Harmless : ConnectAction → Prop
  | .statusRead _ row => ∃ status, row = some status ∧ status.startable = false
  | .autoStart _ | .markConnected _ | .connectionLost _ _ | .setLive _ | .setStatus _
  | .disconnect _ => False
  | _ => True

theorem ConnectAction.harmless_of_own {a : ConnectAction} (h : a.own = true) : a.Harmless := by
  cases a <;> trivial

/-- The same worker with other attempts. -/
theorem BotWorker.Quiet.with_connect (hq : w.Quiet) {connect : ConnectState}
    {writes : ℕ → Option BotStatus} (htasks : ∀ c, (connect.tasks c).Unguarded)
    (htimers : ∀ timer, connect.armed timer = none)
    (hwrites : ∀ c status, writes c = some status → status.startable = false) :
    ({ w with connect := connect, writes := writes } : BotWorker).Quiet where
  tasks := htasks
  timers := htimers
  reads := hq.reads
  writes := hwrites
  handlers := hq.handlers
  passes := hq.passes
  sessions := hq.sessions

theorem BotWorker.Quiet.not_attempt (hq : w.Quiet) {c : ℕ} {task : ConnectTask}
    (h : w.connect.tasks c = task) (hguarded : ¬ task.Unguarded) : False :=
  hguarded (h ▸ hq.tasks c)

theorem ConnectTask.InConnect.not_unguarded {task : ConnectTask} (h : task.InConnect) :
    ¬ task.Unguarded := by
  cases task with
  | connect origin => exact id
  | _ => exact h.elim

theorem BotWorker.Quiet.timers_deleteTimer (hq : w.Quiet) (timer : ℕ) :
    w.connect.deleteTimer.armed timer = none := by
  rw [ConnectState.deleteTimer, ConnectState.clearTimeout]
  cases w.connect.reconnectTimer with
  | none => exact hq.timers timer
  | some pending =>
    exact forall_update (q := fun _ (deadline : Option ℤ) => deadline = none) rfl
      (fun other _ => hq.timers other) timer

/-- `clearTimeout` stops no attempt, and arms no timer. -/
theorem BotWorker.Quiet.deleteTimer (hq : w.Quiet) :
    ({ w with connect := w.connect.deleteTimer } : BotWorker).Quiet :=
  hq.with_connect (by simpa using hq.tasks) hq.timers_deleteTimer hq.writes

theorem BotWorker.Quiet.goPass (hq : w.Quiet) {p : ℕ} {task : PassTask} (h : task ≠ .start) :
    (w.goPass p task).Quiet where
  __ := hq
  passes := forall_update (q := fun _ task => task ≠ PassTask.start) h fun d _ => hq.passes d

/-- No attempt of a quiet worker gets as far as a write. -/
theorem BotWorker.Quiet.writeOf_eq_none (hq : w.Quiet) {a : ConnectAction} (ha : a.Harmless) :
    w.connect.writeOf a = none := by
  cases a with
  | throws c | resume c =>
    -- only failing attempts record an error, and they are past their guard
    have hc := hq.tasks c
    rw [ConnectState.writeOf]
    cases htask : w.connect.tasks c <;> rw [htask] at hc <;> first | rfl | exact hc.elim
  | markConnected | connectionLost => exact ha.elim
  | _ => rfl

/-- In a quiet worker an attempt does not get further than the status of the bot. -/
theorem quiet_act {a : ConnectAction} (h : w.act a = some w') (ha : a.Harmless) (hq : w.Quiet) :
    w'.Quiet := by
  obtain ⟨connect, writes, hstep, rfl, hwrites⟩ := act_spec h
  have hnone := hq.writeOf_eq_none ha
  have hw : ∀ c status, writes c = some status → status.startable = false := by
    intro c status hc
    rcases hwrites c with heq | ⟨heq, -⟩
    · exact hq.writes c status (heq ▸ hc)
    · rw [heq, hnone] at hc
      cases hc
  have hgoto {c : ℕ} {task : ConnectTask} (ht : task.Unguarded) :
      ({ w with connect := w.connect.goto c task, writes := writes } : BotWorker).Quiet :=
    hq.with_connect (forall_update (q := fun _ => ConnectTask.Unguarded) ht fun d _ => hq.tasks d)
      hq.timers hw
  have hsame : ({ w with writes := writes } : BotWorker).Quiet :=
    hq.with_connect hq.tasks hq.timers hw
  cases hstep with
  | jobSkipped => exact hsame
  | jobTaken => exact hgoto trivial
  | passSkipped | passAttempts | marks | loses | setsLive | setsStatus | forgets | disconnects =>
    exact ha.elim
  | fires armed =>
    rw [hq.timers] at armed
    cases armed
  | restarts =>
    -- a job goes on past a live connection only when it reads `reconnecting`
    obtain ⟨status, heq, hdown⟩ := ha
    cases heq
    cases hdown
  | proceeds waits guard =>
    obtain ⟨status, rfl, hdown⟩ := ha
    cases status <;> simp_all [ConnectState.jobProceeds, BotStatus.startable]
  | yields => exact hgoto trivial
  | statusFails => exact hgoto trivial
  | passConnects waits | connects waits | passAborts waits | reschedules waits | arms waits =>
    exact (hq.not_attempt waits id).elim
  | @marked c =>
    have htasks : ∀ d, ((w.connect.deleteTimer.goto c .idle).tasks d).Unguarded := by
      rw [tasks_goto, tasks_deleteTimer]
      exact forall_update (q := fun _ => ConnectTask.Unguarded) trivial fun d _ => hq.tasks d
    exact hq.with_connect htasks hq.timers_deleteTimer hw
  | prepares inside | returns inside | passFails inside =>
    exact (hq.not_attempt inside id).elim
  | jobFails under | reconnectFails under =>
    rcases under with under | under <;> exact (hq.not_attempt under id).elim
  | ticks => exact hq.with_connect hq.tasks hq.timers hw

/-- `markDisconnected` records a stop. -/
def StopTask.MarksIdle : StopTask → Prop
  | .marking _ recorded => recorded = .idle
  | _ => True

/-- The worker keeps its lease, and whatever disconnects the bot records it as stopped. -/
structure BotWorker.Staying (w : BotWorker) : Prop where
  flag : w.isLosingLeadership = false
  marks : ∀ k, (w.stops k).MarksIdle

theorem BotWorker.Staying.of_eq (hs : w.Staying)
    (hflag : w'.isLosingLeadership = w.isLosingLeadership) (hstops : w'.stops = w.stops) :
    w'.Staying where
  flag := hflag.trans hs.flag
  marks := hstops ▸ hs.marks

theorem BotWorker.Staying.goStop (hs : w.Staying) {k : ℕ} {task : StopTask}
    (hstops : w'.stops = Function.update w.stops k task) (hflag : w'.isLosingLeadership = false)
    (ht : task.MarksIdle) : w'.Staying where
  flag := hflag
  marks := by
    rw [hstops]
    exact forall_update (q := fun _ => StopTask.MarksIdle) ht fun d _ => hs.marks d

theorem BotWorker.Staying.failoverStatus (hs : w.Staying) : w.failoverStatus = .idle := by
  rw [BotWorker.failoverStatus, hs.flag, if_neg Bool.false_ne_true]

theorem staying_act {a : ConnectAction} (h : w.act a = some w') (hs : w.Staying) :
    w'.Staying := by
  obtain ⟨connect, writes, -, rfl, -⟩ := act_spec h
  exact hs.of_eq rfl rfl

theorem staying_step {row : BotStatus} {a : BotAction} {written : Option BotStatus}
    (hs : w.Staying) (ha : a.staysLeader = true) (hstep : BotStep row w a w' written) :
    w'.Staying := by
  cases hstep with
  | own _ act | job _ act | markConnected _ act => exact staying_act act hs
  | statusRead _ act | credentialsRead act => exact (staying_act act hs).of_eq rfl rfl
  | rescheduled _ _ act => exact staying_act act (hs.of_eq rfl rfl)
  | passStarts _ act => exact staying_act act (hs.of_eq rfl rfl)
  | passSweeps | readStop | reach =>
    refine hs.goStop rfl hs.flag ?_
    split_ifs <;> trivial
  | forget | close => exact hs.goStop rfl hs.flag hs.failoverStatus
  | stopJob | stopWritten | stopWriteFails | stopEnds | shutdownEnds =>
    exact hs.goStop rfl hs.flag trivial
  | lossEnds => exact hs.goStop rfl rfl trivial
  | lose | tearDown | shutdown => cases ha
  | _ => exact hs.of_eq rfl rfl

/-- **Step**: while the bot is meant to be down, a quiet worker stays quiet, and nothing that
    it writes to the database starts the bot. -/
theorem quiet_step {row : BotStatus} {a : BotAction} {written : Option BotStatus} (hq : w.Quiet)
    (hs : w.Staying) (hrow : row.startable = false) (hstep : BotStep row w a w' written) :
    w'.Quiet ∧ ∀ status, written = some status → status.startable = false := by
  have hsessions : ¬ 0 < w.sessions := by
    rw [hq.sessions]
    exact lt_irrefl 0
  cases hstep with
  | own own act => exact ⟨quiet_act act (ConnectAction.harmless_of_own own) hq, nofun⟩
  | job _ act => exact ⟨quiet_act act trivial hq, nofun⟩
  | readStatus =>
    -- the database answers with a status that does not start the bot
    refine ⟨{ hq with reads := ?_ }, nofun⟩
    refine forall_update (q := fun _ => Down) ?_ fun d _ => hq.reads d
    rintro _ ⟨⟩
    exact hrow
  | @statusRead c answer u read act =>
    have hu := quiet_act act ⟨answer, rfl, hq.reads _ _ read⟩ hq
    refine ⟨{ hu with reads := ?_ }, nofun⟩
    exact forall_update (q := fun _ => Down) nofun fun d _ => hu.reads d
  | credentialsRead act =>
    obtain ⟨_, _, hcredentials, -⟩ := act_spec act
    cases hcredentials with
    | passConnects waits | connects waits => exact (hq.not_attempt waits id).elim
  | register inside | markFailed inside => exact (hq.not_attempt inside id).elim
  | markConnected lasting | lost lasting | sessionEnds lasting => exact absurd lasting hsessions
  | handled handler | rescheduled handler =>
    rw [hq.handlers] at handler
    cases handler
  | ensureBot => exact ⟨{ hq with }, nofun⟩
  | written writes =>
    refine ⟨{ hq with writes := ?_ }, ?_⟩
    · exact forall_update (q := fun _ => Down) nofun fun d _ => hq.writes d
    · rintro _ ⟨⟩
      exact hq.writes _ _ writes
  | writeFails =>
    refine ⟨{ hq with writes := ?_ }, nofun⟩
    exact forall_update (q := fun _ => Down) nofun fun d _ => hq.writes d
  | queryStart =>
    -- the pass does not find the bot among those that are meant to run
    rw [hrow]
    exact ⟨hq.goPass nofun, nofun⟩
  | querySweep =>
    rw [hrow]
    exact ⟨hq.goPass nofun, nofun⟩
  | passStarts found => exact absurd found (hq.passes _)
  | @passSweeps p =>
    have hp : (w.goPass p .idle).Quiet := hq.goPass nofun
    exact ⟨{ hp with }, nofun⟩
  | stopJob | readStop | reach | stopWriteFails | acquire | lose => exact ⟨{ hq with }, nofun⟩
  | clearTimer | tearDown | shutdown => exact ⟨{ hq.deleteTimer with }, nofun⟩
  | forget | close => exact ⟨{ hq with }, nofun⟩
  | @stopWritten k origin status marking =>
    refine ⟨{ hq with }, ?_⟩
    rintro _ ⟨⟩
    have hidle := hs.marks k
    rw [marking] at hidle
    rw [show status = .idle from hidle]
    rfl
  | lossEnds | shutdownEnds | stopEnds => exact ⟨{ hq with }, nofun⟩

end Quiet

namespace BotWorld

variable {s s' : BotWorld} {a : WorldAction}

/-- What a step of the worker does to the world. -/
theorem work_of_step {action : BotAction} (h : s.step (.worker action) = some s') :
    action.staysLeader = true ∧ ∃ worker written, BotStep s.row s.worker action worker written ∧
      s' = { s with
        worker := worker
        row := written.getD s.row
        stopped := s.stopped || s.endsStop action } := by
  have hwork : action.staysLeader = true ∧ s.work action = some s' := by
    cases action with
    | stopJob k request => exact ⟨rfl, (Option.ite_none_right_eq_some.mp h).2⟩
    | _ => exact Option.ite_none_right_eq_some.mp h
  obtain ⟨⟨worker, written⟩, hstep, rfl⟩ := Option.map_eq_some_iff.mp hwork.2
  exact ⟨hwork.1, worker, written, botStep_of_step hstep, rfl⟩

/-- The worker keeps its lease, and after a stop nothing of the bot is underway. -/
structure Settled (s : BotWorld) : Prop where
  staying : s.worker.Staying
  quiet : s.stopped = true → s.worker.Quiet
  down : s.stopped = true → s.row.startable = false

theorem settled_init : init.Settled where
  staying := ⟨rfl, fun _ => trivial⟩
  quiet := nofun
  down := nofun

/-- Nothing that a quiet worker does starts the bot. -/
theorem Settled.work (h : s.Settled) (hstopped : s.stopped = true) {action : BotAction}
    {worker : BotWorker} {written : Option BotStatus}
    (hstep : BotStep s.row s.worker action worker written) :
    worker.Quiet ∧ (written.getD s.row).startable = false := by
  have hquiet := quiet_step (h.quiet hstopped) h.staying (h.down hstopped) hstep
  refine ⟨hquiet.1, ?_⟩
  cases written with
  | none => exact h.down hstopped
  | some status => exact hquiet.2 status rfl

/-- The end of a disconnect job changes nothing but the job. -/
theorem quiet_of_endsStop {action : BotAction} {worker : BotWorker} {written : Option BotStatus}
    (hends : s.endsStop action = true) (hstep : BotStep s.row s.worker action worker written)
    (hquiet : s.worker.Quiet) : worker.Quiet ∧ written = none := by
  cases hstep with
  | lossEnds | shutdownEnds | stopEnds => exact ⟨{ hquiet with }, rfl⟩
  | _ => cases hends

theorem settled_step (h : s.Settled) (hok : StopsQuietly s a) (hstep : s.step a = some s') :
    s'.Settled := by
  cases a with
  | worker action =>
    obtain ⟨hstays, worker, written, hwork, rfl⟩ := work_of_step hstep
    have hafter : (s.stopped || s.endsStop action) = true →
        worker.Quiet ∧ (written.getD s.row).startable = false := by
      intro hstopped
      rcases (Bool.or_eq_true ..).mp hstopped with hbefore | hends
      · exact h.work hbefore hwork
      -- the stop ends with this step: here the run has to be quiet
      · obtain ⟨hquiet, hdown⟩ := hok hends
        obtain ⟨hquiet', rfl⟩ := quiet_of_endsStop hends hwork hquiet
        exact ⟨hquiet', hdown⟩
    exact ⟨staying_step h.staying hstays hwork, fun hs => (hafter hs).1, fun hs => (hafter hs).2⟩
  | start restart =>
    cases hstep
    exact ⟨h.staying, nofun, nofun⟩
  | stop =>
    cases hstep
    exact ⟨h.staying, nofun, nofun⟩

theorem Settled.final (h : s.Settled) : Final s a := by
  intro hstopped s' hstep
  cases a with
  | worker action =>
    obtain ⟨-, worker, written, hwork, rfl⟩ := work_of_step hstep
    obtain ⟨hquiet, hdown⟩ := h.work hstopped hwork
    constructor
    · intro hrunning
      rw [show written.getD s.row = .running from hrunning] at hdown
      cases hdown
    · intro c hc
      exact absurd (hquiet.tasks c) hc.not_unguarded
  | start restart =>
    cases hstep
    cases restart <;> exact ⟨nofun, fun _ => id⟩
  | stop =>
    cases hstep
    exact ⟨nofun, fun _ => id⟩

end BotWorld
/-- **A stop is final**: in a run in which every disconnect job of a last request ends with
    nothing of the bot underway, a stopped bot is not marked as running, and `connect()` is
    not called for it. -/
theorem final_of_stopsQuietly (as : List WorldAction)
    (hok : Machine.Along BotWorld.step StopsQuietly .init as) :
    Machine.Along BotWorld.step Final .init as :=
  Machine.along_of_invariant BotWorld.Settled
    (fun _ _ _ h hok hstep => BotWorld.settled_step h hok hstep)
    (fun _ _ _ h _ _ => h.final) BotWorld.settled_init hok

/-- The user starts a bot and stops it once it runs; the client is gone when the disconnect
    job ends, and the next reconcile pass leaves the bot alone. -/
theorem final_of_running_stopped :
    Machine.Along BotWorld.step Final .init
      [.start false, .worker (.job 0), .worker (.readStatus 0), .worker (.statusRead 0),
        .worker (.credentialsRead 0), .worker (.register 0 true), .worker (.markConnected 1),
        .worker (.written 1 true), .worker (.own (.resume 1 0)),
        .worker (.own (.connectReturned 0)), .stop, .worker (.stopJob 0 2),
        .worker (.readStop 0), .worker (.clearTimer 0), .worker (.close 0 true),
        .worker .sessionEnds, .worker (.stopWritten 0 true), .worker (.stopEnds 0),
        .worker (.queryStart 0)] := by
  apply final_of_stopsQuietly
  iterate 17
    rintro _ ⟨⟩
    refine ⟨by first | exact trivial | exact nofun, ?_⟩
  rintro _ ⟨⟩
  refine ⟨fun _ => ⟨?_, rfl⟩, ?_⟩
  · refine ⟨?_, fun _ => rfl, ?_, ?_, fun _ => rfl, fun _ => nofun, rfl⟩
    · intro c
      match c with
      | 0 | 1 | c + 2 => trivial
    · intro c
      match c with
      | 0 | c + 1 => exact nofun
    · intro c
      match c with
      | 0 | 1 | c + 2 => exact nofun
  rintro _ ⟨⟩
  exact ⟨nofun, trivial⟩

/-- `connect()` is in flight when the user stops the bot. The disconnect job finds nothing to
    close; the connection succeeds after it, and marks the bot as running. -/
theorem final_fails_on_connect_in_flight :
    ¬ Machine.Along BotWorld.step Final .init
        [.start false, .worker (.job 0), .worker (.readStatus 0), .worker (.statusRead 0),
          .worker (.credentialsRead 0), .stop, .worker (.stopJob 0 2), .worker (.readStop 0),
          .worker (.close 0 false), .worker (.stopWritten 0 true), .worker (.stopEnds 0),
          .worker (.register 0 true), .worker (.markConnected 1),
          .worker (.written 1 true)] := by
  intro h
  iterate 13
    obtain ⟨-, h⟩ := h _ rfl
  obtain ⟨hfinal, -⟩ := h _ rfl
  exact (hfinal rfl _ rfl).1 rfl

end BotHive.Workers
