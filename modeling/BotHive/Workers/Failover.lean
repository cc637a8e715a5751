import BotHive.Workers.BotWorker

/-!
# The intent of the user across failover

The status of a bot in the database is all that a new leader knows of what the user wants:
it starts the bots that are running, connecting or reconnecting. Replicas write the status
without coordination. A worker that loses its lease records `reconnecting` for the bots that
it tears down, so that the next leader takes them over; a worker that shuts down tears its
bots down in the same way, but records `idle`. The API's watchdog resets to `idle` what has
been connecting or reconnecting for two minutes, a long backoff included.

## Main definitions

- `Fleet`: the replicas of a worker, the status in the database, and what the user wants
- `IntentKept`: no step stops a bot that is wanted, or revives one that is not
- `Pending`: a status that a worker is about to write
- `IntentRespected`: the condition on a step

## Main results

- `pending_step`, `pending_of_written`: how statuses come to be written
- `intentKept_of_intentRespected`: workers that begin to write a status only while it
  agrees with the database keep the intent
-/

namespace BotHive.Workers

structure Fleet where
  workers : ℕ → BotWorker
  /-- The status of the bot in the database. -/
  row : BotStatus
  updatedAt : ℤ
  now : ℤ
  /-- The last request was a start or a restart, and no worker has given up since. -/
  wanted : Bool

inductive FleetAction where
  | worker (replica : ℕ) (action : BotAction)
  /-- The user starts or restarts the bot. -/
  | start (restart : Bool)
  /-- The user stops the bot, or the API takes a start back that it could not queue. -/
  | stop
  /-- Another update of the row. -/
  | update
  | watchdog
  | tick (ms : ℕ)

/-- After this time in a transitional state the watchdog resets a bot. -/
def staleTransitionMs : ℤ := 120000

/-- The user starts or restarts a bot, or stops it. -/
def FleetAction.isRequest : FleetAction → Bool
  | .start _ | .stop => true
  | _ => false

namespace Fleet

/-- Replicas without a leader, and a bot that has never been started. -/
def init : Fleet where
  workers _ := .start
  row := .idle
  updatedAt := 0
  now := 0
  wanted := false

/-- What the watchdog looks for. -/
def stale (s : Fleet) : Bool :=
  decide (s.row = .connecting ∨ s.row = .reconnecting) &&
    decide (s.updatedAt < s.now - staleTransitionMs)

/-- A write to the status. An error gives the bot up until the next request. -/
def write (s : Fleet) (status : BotStatus) : Fleet :=
  { s with
    row := status
    updatedAt := s.now
    wanted := s.wanted && decide (status ≠ .error) }

def step (s : Fleet) : FleetAction → Option Fleet
  | .worker r action =>
    ((s.workers r).step s.row action).map fun next =>
      let s := { s with workers := Function.update s.workers r next.1 }
      match next.2 with
      | none => s
      | some status => s.write status
  | .start restart =>
    some { s.write (if restart then .reconnecting else .connecting) with wanted := true }
  | .stop => some { s.write .idle with wanted := false }
  | .update => some { s with updatedAt := s.now }
  | .watchdog => some (if s.stale then s.write .idle else s)
  | .tick ms => some { s with now := s.now + ms }

end Fleet

/-- A step that is not a request of the user does not stop a wanted bot, and does not revive a
    bot that is idle or in error. -/
def IntentKept (s : Fleet) (a : FleetAction) : Prop :=
  a.isRequest = false → ∀ s', s.step a = some s' →
    (s.wanted = true → s.row ≠ .idle → s'.row ≠ .idle) ∧
      (s.row = .idle ∨ s.row = .error → s'.row ≠ .reconnecting ∧ s'.row ≠ .running)

namespace BotWorker

/-- The worker is about to write this status. -/
def Pending (w : BotWorker) (status : BotStatus) : Prop :=
  (∃ c, w.writes c = some status) ∨ ∃ k origin, w.stops k = .marking origin status

/-- The status that an action begins to write, unless it is an error. -/
def begins (w : BotWorker) : BotAction → Option BotStatus
  | .markConnected _ => some .running
  | .lost _ false _ => some .reconnecting
  | .close _ _ => some w.failoverStatus
  | _ => none

/-- The status that an action writes to the database. -/
def carriesOut (w : BotWorker) : BotAction → Option BotStatus
  | .written c true => w.writes c
  | .stopWritten k true =>
    match w.stops k with
    | .marking _ status => some status
    | _ => none
  | _ => none

end BotWorker

/-- A write that starts the bot begins only while the bot is meant to run, and a write of `idle`
    only while it is not; a request, or an error, does not cross a write to the contrary; the
    watchdog finds nothing. -/
def IntentRespected (s : Fleet) : FleetAction → Prop
  | .worker r action =>
    (∀ status, (s.workers r).begins action = some status → s.row.startable = status.startable) ∧
      ((s.workers r).carriesOut action = some .error →
        ∀ q status, (s.workers q).Pending status → status.startable = false)
  | .start _ => ∀ r, ¬ (s.workers r).Pending .idle
  | .stop => ∀ r status, (s.workers r).Pending status → status.startable = false
  | .watchdog => s.stale = false
  | .update | .tick _ => True

namespace BotWorker

section Writes

variable {w w' : BotWorker} {row status : BotStatus} {a : BotAction} {written : Option BotStatus}

/-- An attempt records an error, or that the bot is connected. -/
theorem writeOf_eq_some {s : ConnectState} {a : ConnectAction} (h : s.writeOf a = some status) :
    status = .error ∨ (∃ c, a = .markConnected c) ∧ status = .running := by
  have hgives {b : Bool} (hb : (if b then some BotStatus.error else none) = some status) :
      status = .error := (Option.some.inj (Option.ite_none_right_eq_some.mp hb).2).symm
  cases a with
  | markConnected c =>
    cases h
    exact Or.inr ⟨⟨c, rfl⟩, rfl⟩
  | throws c delay =>
    rw [ConnectState.writeOf] at h
    split at h
    · exact Or.inl (Option.some.inj h).symm
    · exact Or.inl (hgives h)
    · exact Or.inl (hgives h)
    · exact Or.inl (hgives h)
    · exact Or.inl (hgives h)
    · cases h
  | resume c delay =>
    rw [ConnectState.writeOf] at h
    split at h
    · exact Or.inl (hgives h)
    · cases h
  | connectionLost c delay => exact Or.inl (hgives h)
  | _ => cases h

/-- An action on the attempts begins no write but that of an error, unless the bot is
    connected. -/
theorem pending_act {a : ConnectAction} (h : w.act a = some w') (hw : w'.Pending status) :
    w.Pending status ∨ status = .error ∨ (∃ c, a = .markConnected c) ∧ status = .running := by
  obtain ⟨connect, writes, -, rfl, hwrites⟩ := act_spec h
  rcases hw with ⟨c, hc⟩ | hstop
  · rcases hwrites c with heq | ⟨heq, -⟩
    · exact Or.inl (Or.inl ⟨c, heq ▸ hc⟩)
    · exact Or.inr (writeOf_eq_some (heq.symm.trans hc))
  · exact Or.inl (Or.inr hstop)

theorem Pending.of_write {c : ℕ} {write : Option BotStatus} (h : w'.Pending status)
    (hwrites : w'.writes = Function.update w.writes c write) (hstops : w'.stops = w.stops) :
    w.Pending status ∨ write = some status := by
  rcases h with ⟨d, hd⟩ | hstop
  · by_cases hne : d = c
    · subst hne
      rw [hwrites, Function.update_self] at hd
      exact Or.inr hd
    · rw [hwrites, Function.update_of_ne hne] at hd
      exact Or.inl (Or.inl ⟨d, hd⟩)
  · exact Or.inl (Or.inr (hstops ▸ hstop))

theorem Pending.of_goStop {k : ℕ} {task : StopTask} (h : w'.Pending status)
    (hwrites : w'.writes = w.writes) (hstops : w'.stops = Function.update w.stops k task) :
    w.Pending status ∨ ∃ origin, task = .marking origin status := by
  rcases h with hwrite | ⟨j, origin, hj⟩
  · exact Or.inl (Or.inl (hwrites ▸ hwrite))
  · by_cases hne : j = k
    · subst hne
      rw [hstops, Function.update_self] at hj
      exact Or.inr ⟨origin, hj⟩
    · rw [hstops, Function.update_of_ne hne] at hj
      exact Or.inl (Or.inr ⟨j, origin, hj⟩)

/-- A status that a worker is about to write was so before the step, or is an error, or is
    what the action begins to write. -/
theorem pending_step (hstep : BotStep row w a w' written) (h : w'.Pending status) :
    w.Pending status ∨ status = .error ∨ w.begins a = some status := by
  have hact {v u : BotWorker} {b : ConnectAction} (hv : v.act b = some u)
      (hsame : v.Pending status → w.Pending status) (hb : ∀ c, b ≠ .markConnected c)
      (hu : u.Pending status) : w.Pending status ∨ status = .error ∨ w.begins a = some status := by
    rcases pending_act hv hu with hpending | herror | ⟨⟨c, hc⟩, -⟩
    · exact Or.inl (hsame hpending)
    · exact Or.inr (Or.inl herror)
    · exact absurd hc (hb c)
  cases hstep with
  | own own act =>
    -- a session is no part of the worker's own code
    refine hact act id ?_ h
    rintro c rfl
    cases own
  | job _ act => exact hact act id nofun h
  | statusRead _ act | credentialsRead act => exact hact act id nofun h
  | rescheduled _ _ act => exact hact act id nofun h
  | passStarts _ act => exact hact act id nofun h
  | markConnected _ act =>
    rcases pending_act act h with hpending | herror | ⟨-, rfl⟩
    · exact Or.inl hpending
    · exact Or.inr (Or.inl herror)
    · exact Or.inr (Or.inr rfl)
  | markFailed =>
    rcases Pending.of_write (w := w) h rfl rfl with hpending | hwrite
    · exact Or.inl hpending
    · exact Or.inr (Or.inl (Option.some.inj hwrite).symm)
  | @lost c failed drops =>
    rcases Pending.of_write (w := w) h rfl rfl with hpending | hwrite
    · exact Or.inl hpending
    · cases failed
      · exact Or.inr (Or.inr hwrite)
      · exact Or.inr (Or.inl (Option.some.inj hwrite).symm)
  | written | writeFails => exact Or.inl ((Pending.of_write (w := w) h rfl rfl).resolve_right nofun)
  | passSweeps | readStop | reach =>
    refine Or.inl ((Pending.of_goStop (w := w) h rfl rfl).resolve_right ?_)
    rintro ⟨_, htask⟩
    split_ifs at htask
  | stopJob | stopWritten | stopWriteFails | lossEnds | shutdownEnds | stopEnds | tearDown
  | shutdown =>
    exact Or.inl ((Pending.of_goStop (w := w) h rfl rfl).resolve_right nofun)
  | forget | close =>
    rcases Pending.of_goStop (w := w) h rfl rfl with hpending | ⟨_, htask⟩
    · exact Or.inl hpending
    · exact Or.inr (Or.inr (congrArg some (StopTask.marking.inj htask).2))
  | readStatus | register | handled | sessionEnds | ensureBot | queryStart | querySweep | clearTimer
  | acquire | lose => exact Or.inl h

/-- What a step writes to the database, the worker was about to write. -/
theorem pending_of_written (hstep : BotStep row w a w' (some status)) : w.Pending status := by
  cases hstep with
  | written writes => exact Or.inl ⟨_, writes⟩
  | stopWritten marking => exact Or.inr ⟨_, _, marking⟩

theorem carriesOut_of_step (hstep : BotStep row w a w' (some status)) :
    w.carriesOut a = some status := by
  cases hstep with
  | written writes => exact writes
  | stopWritten marking =>
    rw [carriesOut, marking]

/-- An action that writes to the database begins no other write. -/
theorem begins_of_carriesOut (h : w.carriesOut a = some status) : w.begins a = none := by
  cases a with
  | written | stopWritten => rfl
  | _ => cases h

end Writes

end BotWorker

namespace Fleet

open BotWorker

/-- The bot is wanted exactly while it is meant to run, and what the replicas are about to
    write agrees with that. -/
structure Intended (s : Fleet) : Prop where
  wanted : s.wanted = s.row.startable
  agrees : ∀ r status, (s.workers r).Pending status → status ≠ .error →
    s.row.startable = status.startable

theorem intended_init : init.Intended where
  wanted := rfl
  agrees := by
    rintro r status (⟨c, hc⟩ | ⟨k, origin, hk⟩)
    · cases hc
    · cases hk

variable {s s' : Fleet} {a : FleetAction}

/-- What a step of a replica does to the fleet. -/
theorem work_of_step {r : ℕ} {action : BotAction} (h : s.step (.worker r action) = some s') :
    ∃ worker written, BotStep s.row (s.workers r) action worker written ∧
      s'.workers = Function.update s.workers r worker ∧
      (written = none ∧ s'.row = s.row ∧ s'.wanted = s.wanted ∨
        ∃ status, written = some status ∧ s'.row = status ∧
          s'.wanted = (s.wanted && decide (status ≠ .error))) := by
  obtain ⟨⟨worker, written⟩, hstep, rfl⟩ := Option.map_eq_some_iff.mp h
  refine ⟨worker, written, botStep_of_step hstep, ?_⟩
  cases written with
  | none => exact ⟨rfl, Or.inl ⟨rfl, rfl, rfl⟩⟩
  | some status => exact ⟨rfl, Or.inr ⟨status, rfl, rfl, rfl⟩⟩

/-- A write other than that of an error agrees with the status before it. -/
theorem Intended.write (h : s.Intended) {r : ℕ} {action : BotAction} {worker : BotWorker}
    {status : BotStatus} (hstep : BotStep s.row (s.workers r) action worker (some status))
    (herror : status ≠ .error) : s.row.startable = status.startable :=
  h.agrees r status (pending_of_written hstep) herror

/-- After a respectful step of a replica, what the replicas are about to write agrees with the
    status before the step. -/
theorem Intended.pending (h : s.Intended) {r : ℕ} {action : BotAction} {worker : BotWorker}
    {written : Option BotStatus} (hok : IntentRespected s (.worker r action))
    (hstep : BotStep s.row (s.workers r) action worker written) {q : ℕ} {status : BotStatus}
    (hpending : (Function.update s.workers r worker q).Pending status) (herror : status ≠ .error) :
    s.row.startable = status.startable := by
  by_cases hne : q = r
  · subst hne
    rw [Function.update_self] at hpending
    -- the worker that moves may begin a write, and all others wait for theirs
    rcases pending_step hstep hpending with hbefore | hgivesUp | hbegins
    · exact h.agrees q status hbefore herror
    · exact absurd hgivesUp herror
    · exact hok.1 status hbegins
  · rw [Function.update_of_ne hne] at hpending
    exact h.agrees q status hpending herror

/-- After the write of an error nobody is about to start the bot. -/
theorem not_startable_of_givesUp {r : ℕ} {action : BotAction} {worker : BotWorker}
    (hok : IntentRespected s (.worker r action))
    (hstep : BotStep s.row (s.workers r) action worker (some .error)) {q : ℕ}
    {status : BotStatus} (hpending : (Function.update s.workers r worker q).Pending status) :
    status.startable = false := by
  have hcarries : (s.workers r).carriesOut action = some .error := carriesOut_of_step hstep
  by_cases hne : q = r
  · subst hne
    rw [Function.update_self] at hpending
    rcases pending_step hstep hpending with hbefore | hgivesUp | hbegins
    · exact hok.2 hcarries q status hbefore
    · rw [hgivesUp]
      rfl
    · rw [begins_of_carriesOut hcarries] at hbegins
      cases hbegins
  · rw [Function.update_of_ne hne] at hpending
    exact hok.2 hcarries q status hpending

theorem intended_step (h : s.Intended) (hok : IntentRespected s a) (hstep : s.step a = some s') :
    s'.Intended := by
  cases a with
  | worker r action =>
    obtain ⟨worker, written, hwork, hworkers, ⟨rfl, hrow, hwanted⟩ |
      ⟨status, rfl, hrow, hwanted⟩⟩ := work_of_step hstep
    · refine ⟨by rw [hwanted, hrow, h.wanted], ?_⟩
      rw [hworkers, hrow]
      exact fun q status hpending herror => h.pending hok hwork hpending herror
    · by_cases herror : status = .error
      -- an error ends the intent, and no write may be left that revives the bot
      · subst herror
        refine ⟨?_, ?_⟩
        · rw [hwanted, hrow]
          exact Bool.and_false _
        · rw [hworkers, hrow]
          exact fun q status hpending _ => (not_startable_of_givesUp hok hwork hpending).symm
      · have hsame := h.write hwork herror
        refine ⟨?_, ?_⟩
        · rw [hwanted, hrow, h.wanted, hsame, decide_eq_true herror, Bool.and_true]
        · rw [hworkers, hrow, ← hsame]
          exact fun q status hpending herror => h.pending hok hwork hpending herror
  | start restart =>
    cases hstep
    have hup : (if restart then BotStatus.reconnecting else .connecting).startable = true := by
      cases restart <;> rfl
    refine ⟨hup.symm, fun r status hpending herror => hup.trans ?_⟩
    cases status with
    | idle => exact absurd hpending (hok r)
    | error => exact absurd rfl herror
    | _ => rfl
  | stop =>
    cases hstep
    exact ⟨rfl, fun r status hpending _ => (hok r status hpending).symm⟩
  | watchdog =>
    rw [step, if_neg (Bool.not_eq_true _ ▸ hok)] at hstep
    cases hstep
    exact h
  | update | tick =>
    cases hstep
    exact ⟨h.wanted, h.agrees⟩

/-- The intent is kept by a write that agrees with the status before it, and by an error. -/
theorem Intended.kept (h : s.Intended) {row : BotStatus}
    (hrow : row = .error ∨ s.row.startable = row.startable) :
    (s.wanted = true → s.row ≠ .idle → row ≠ .idle) ∧
      (s.row = .idle ∨ s.row = .error → row ≠ .reconnecting ∧ row ≠ .running) := by
  rcases hrow with rfl | hsame
  · exact ⟨fun _ _ => nofun, fun _ => ⟨nofun, nofun⟩⟩
  · constructor
    · rintro hwanted - rfl
      rw [h.wanted, hsame] at hwanted
      cases hwanted
    · intro hdown
      have hrow : row.startable = false := by
        rw [← hsame]
        rcases hdown with hdown | hdown <;> rw [hdown] <;> rfl
      constructor <;> rintro rfl <;> cases hrow

theorem Intended.intentKept (h : s.Intended) (hok : IntentRespected s a) : IntentKept s a := by
  intro hrequest s' hstep
  cases a with
  | worker r action =>
    obtain ⟨worker, written, hwork, -, ⟨-, hrow, -⟩ | ⟨status, rfl, hrow, -⟩⟩ :=
      work_of_step hstep
    · rw [hrow]
      exact h.kept (Or.inr rfl)
    · rw [hrow]
      by_cases herror : status = .error
      · exact h.kept (Or.inl herror)
      · exact h.kept (Or.inr (h.write hwork herror))
  | start restart => cases hrequest
  | stop => cases hrequest
  | update | tick =>
    cases hstep
    exact h.kept (Or.inr rfl)
  | watchdog =>
    rw [step, if_neg (Bool.not_eq_true _ ▸ hok)] at hstep
    cases hstep
    exact h.kept (Or.inr rfl)

end Fleet

/-- **Intent across failover**: in a run in which every replica begins to write a status only
    while it agrees with the one in the database, requests and errors cross no write to the
    contrary, and no transition gets stale, the intent of the user is kept. -/
theorem intentKept_of_intentRespected (as : List FleetAction)
    (hok : Machine.Along Fleet.step IntentRespected .init as) :
    Machine.Along Fleet.step IntentKept .init as :=
  Machine.along_of_invariant Fleet.Intended
    (fun _ _ _ h hok hstep => Fleet.intended_step h hok hstep)
    (fun _ _ _ h hok _ => h.intentKept hok) Fleet.intended_init hok

/-- The leader runs a bot and loses its lease; it hands the bot over, and the next leader
    connects it. -/
theorem intentKept_of_takeover :
    Machine.Along Fleet.step IntentKept .init
      [.worker 0 .acquire, .start false, .worker 0 (.job 0), .worker 0 (.readStatus 0),
        .worker 0 (.statusRead 0), .worker 0 (.credentialsRead 0),
        .worker 0 (.register 0 true), .worker 0 (.markConnected 1), .worker 0 (.written 1 true),
        .worker 0 .lose, .worker 0 (.tearDown 0), .worker 0 (.reach 0), .worker 0 (.close 0 false),
        .worker 0 (.stopWritten 0 true), .worker 0 (.stopEnds 0), .worker 1 .acquire,
        .worker 1 (.queryStart 0), .worker 1 (.passStarts 0 0), .worker 1 (.credentialsRead 0),
        .worker 1 (.register 0 true), .worker 1 (.markConnected 1),
        .worker 1 (.written 1 true)] := by
  apply intentKept_of_intentRespected
  rintro _ ⟨⟩
  refine ⟨⟨nofun, nofun⟩, ?_⟩
  rintro _ ⟨⟩
  refine ⟨?_, ?_⟩
  · rintro r (⟨c, hc⟩ | ⟨k, origin, hk⟩)
    · match r, hc with
      | 0, hc => cases hc
      | r + 1, hc => cases hc
    · match r, hk with
      | 0, hk => cases hk
      | r + 1, hk => cases hk
  iterate 20
    rintro _ ⟨⟩
    refine ⟨⟨?_, nofun⟩, ?_⟩
    · rintro _ ⟨⟩
      try rfl
  trivial

/-- The leader shuts down while a bot runs, and records the bot as stopped: the next leader
    leaves it alone. -/
theorem intentKept_fails_on_shutdown :
    ¬ Machine.Along Fleet.step IntentKept .init
        [.worker 0 .acquire, .start false, .worker 0 (.job 0), .worker 0 (.readStatus 0),
          .worker 0 (.statusRead 0), .worker 0 (.credentialsRead 0),
          .worker 0 (.register 0 true), .worker 0 (.markConnected 1),
          .worker 0 (.written 1 true), .worker 0 (.shutdown 0), .worker 0 (.reach 0),
          .worker 0 (.close 0 false), .worker 0 (.stopWritten 0 true)] := by
  intro h
  iterate 12
    obtain ⟨-, h⟩ := h _ rfl
  obtain ⟨hkept, -⟩ := h _ rfl
  exact (hkept rfl _ rfl).1 rfl nofun rfl

end BotHive.Workers
