import BotHive.Workers.Connect

/-!
# Connect requests that nobody answers

A connect job yields to a bot whose tracking entry says `connecting`, and jobs and
reconcile passes yield to a timer in `reconnectTimers`. Both are bookkeeping that outlives
what it stands for: execute jobs and scripts create entries that say `connecting`, and a
timer stays in its map after it has fired. A bot with such leftovers is passed over by
every later request.

## Main definitions

- `WorkerAction`: the actions of `Connect`, and the calls of `ensureBot` from elsewhere
- `Blocked`, `Coming`: what turns requests away, and what brings the bot back
- `Answered`: requests for an unattended bot are taken up
- `Accountable`: the steps that leave no bookkeeping behind

## Main results

- `held_step`: a request that is taken up ends in `connect()` or in an error
- `accounted_step`: accountable steps leave nothing blocked that is not coming back
- `answered_of_accountable`: along such steps every request is answered
-/

namespace BotHive.Workers

inductive WorkerAction where
  | connect (action : ConnectAction)
  /-- An execute job, a script run or a counter of orders calls `ensureBot`. -/
  | ensureBot

/-- Leads to a call of `connect()` or to a reconnect timer, if it does not lead to an
    error that nobody is meant to recover from. -/
def ConnectTask.Pending : ConnectTask → Prop
  | .credentials .job | .credentials .reconnect | .connect _ | .failed | .scheduling _ => True
  | _ => False

namespace ConnectState

/-- One action; `markDisconnected` and `markReconnecting` never record `connecting`. -/
def work (s : ConnectState) : WorkerAction → Option ConnectState
  | .connect (.setStatus .connecting) => none
  | .connect action => s.step action
  | .ensureBot => some s.ensureBot

/-- There is no live connection, no `connect()` in progress, and no reconnect timer that
    is still going to fire. -/
structure Unattended (s : ConnectState) : Prop where
  not_live : s.live = false
  no_connect : ∀ c, ¬ (s.tasks c).InConnect
  no_timer : ∀ timer, s.armed timer = none

/-- The bookkeeping turns some request away. -/
def Blocked (s : ConnectState) : Prop :=
  s.entry.map BotEntry.status = some .connecting ∨ s.reconnectTimer.isSome = true

/-- Without the connection that it has, the bot is coming back. -/
def Returning (s : ConnectState) : Prop :=
  (∃ c, (s.tasks c).Pending) ∨ ∃ timer, s.armed timer ≠ none

def Coming (s : ConnectState) : Prop :=
  s.live = true ∨ s.Returning

/-- Requests are turned away only when the bot is there or coming back. -/
def Accounted (s : ConnectState) : Prop :=
  s.Blocked → s.Coming

/-- `scheduleReconnect` does not find the bot forgotten with a timer left behind. -/
def Tracked (s : ConnectState) : Prop :=
  s.entry.isSome = true ∨ s.reconnectTimer = none

/-- All that is pending is inside `connect()`. -/
def Undecided (s : ConnectState) : Prop :=
  ∀ c, (s.tasks c).Pending → (s.tasks c).InConnect

end ConnectState

open ConnectState

/-- A connect job goes on to read the status, then to its credentials, and a reconcile
    pass with the consent of the breaker to its credentials. -/
def Answered (s : ConnectState) (a : WorkerAction) : Prop :=
  s.Unattended → ∀ s', s.work a = some s' →
    match a with
    | .connect (.job c) => s'.tasks c = .status
    | .connect (.statusRead c (some dbStatus)) =>
      dbStatus.startable = true → s'.tasks c = .credentials .job
    | .connect (.autoStart c) =>
      (s.breaker.canAttempt s.now).1 = true → s'.tasks c = .credentials .autoStart
    | _ => True

/-- A job that waits for the status reads it or fails, and a request that waits for its
    credentials calls `connect()` or throws. -/
def Held (s : ConnectState) (a : WorkerAction) : Prop :=
  ∀ s', s.work a = some s' → ∀ c,
    (s.tasks c = .status → s'.tasks c = .status ∨ (∃ row, a = .connect (.statusRead c row)) ∨
      a = .connect (.statusFailed c)) ∧
    ∀ origin, s.tasks c = .credentials origin → s'.tasks c = .credentials origin ∨
      s'.tasks c = .connect origin ∨ ∃ delay, a = .connect (.throws c delay)

/-- The step leaves no bookkeeping behind, and requests do not come between the guard of
    another path and its `connect()`, or between a failure and its timer. -/
def Accountable (s : ConnectState) : WorkerAction → Prop
  | .ensureBot => s.entry.isSome = true ∨ s.Coming
  | .connect (.job _) | .connect (.statusRead _ _) | .connect (.autoStart _) => s.Undecided
  | .connect (.fire timer _) =>
    (s.breaker.canAttempt s.now).1 = true ∨
      ({ s with armed := Function.update s.armed timer none } : ConnectState).Accounted
  | .connect (.connectReturned _) => s.live = true ∨ ¬ s.Blocked
  | .connect (.throws c _) =>
    match s.tasks c with
    | .credentials .reconnect | .connect .reconnect => s.Tracked
    | _ => True
  | .connect (.resume c _) =>
    match s.tasks c with
    | .failed => s.Tracked
    | .marking => s.entry.map BotEntry.status ≠ some .connecting
    | _ => True
  | .connect (.setLive false) => s.Blocked → s.Returning
  | .connect (.disconnect false) => s.reconnectTimer = none
  | _ => True

section Accounts

variable {s s' : ConnectState} {c : ℕ}

theorem step_of_work {action : ConnectAction} (h : s.work (.connect action) = some s') :
    s.step action = some s' ∧ action ≠ .setStatus .connecting := by
  rw [work.eq_def] at h
  split at h
  · cases h
  · rename_i hne heq
    cases heq
    exact ⟨h, hne⟩
  · rename_i heq
    cases heq

@[simp] theorem entry_deleteTimer (s : ConnectState) : s.deleteTimer.entry = s.entry := by
  rw [deleteTimer, clearTimeout]
  cases s.reconnectTimer <;> rfl

theorem status_setStatus (s : ConnectState) {status : BotStatus} (h : status ≠ .connecting) :
    (s.setStatus status).entry.map BotEntry.status ≠ some .connecting := by
  rw [setStatus]
  cases s.entry with
  | none => exact nofun
  | some entry => exact fun heq => h (Option.some.inj heq)

theorem accounted_of_pending (h : (s.tasks c).Pending) : s.Accounted :=
  fun _ => Or.inr (Or.inl ⟨c, h⟩)

theorem accounted_of_settled (hstatus : s.entry.map BotEntry.status ≠ some .connecting)
    (htimer : s.reconnectTimer = none) : s.Accounted := by
  rintro (h | h)
  · exact absurd h hstatus
  · rw [htimer] at h
    exact absurd h Bool.false_ne_true

theorem ConnectState.Accounted.mono (h : s.Accounted) (hblocked : s'.Blocked → s.Blocked)
    (hcoming : s.Coming → s'.Coming) : s'.Accounted :=
  fun hb => hcoming (h (hblocked hb))

/-- A task that is not pending moves. -/
theorem ConnectState.Coming.move (h : s.Coming) {task : ConnectTask} (hc : ¬ (s.tasks c).Pending)
    (hlive : s'.live = s.live) (harmed : s'.armed = s.armed)
    (htasks : s'.tasks = Function.update s.tasks c task) : s'.Coming := by
  rcases h with h | ⟨d, hd⟩ | ⟨timer, htimer⟩
  · exact Or.inl (hlive.trans h)
  · refine Or.inr (Or.inl ⟨d, ?_⟩)
    have hne : d ≠ c := fun heq => hc (heq ▸ hd)
    rw [htasks, Function.update_of_ne hne]
    exact hd
  · exact Or.inr (Or.inr ⟨timer, harmed ▸ htimer⟩)

/-- The bookkeeping that turns requests away stays as it is. -/
theorem ConnectState.Accounted.move (h : s.Accounted) {task : ConnectTask}
    (hc : ¬ (s.tasks c).Pending) (hentry : s'.entry = s.entry)
    (htimer : s'.reconnectTimer = s.reconnectTimer) (hlive : s'.live = s.live)
    (harmed : s'.armed = s.armed) (htasks : s'.tasks = Function.update s.tasks c task) :
    s'.Accounted := by
  refine h.mono (fun hb => ?_) fun hcoming => hcoming.move hc hlive harmed htasks
  rwa [Blocked, hentry, htimer] at hb

theorem accounted_scheduleReconnect (h : s.Tracked) (c : ℕ) (delay : ℤ) :
    (s.scheduleReconnect c delay).Accounted := by
  rw [scheduleReconnect]
  cases hentry : s.entry with
  | none =>
    have htimer : s.reconnectTimer = none := h.resolve_left (by simp [hentry])
    exact accounted_of_settled (by simp [goto, hentry]) htimer
  | some entry =>
    dsimp only
    split_ifs
    · -- gave up
      exact accounted_of_settled (by simp [goto]) rfl
    · exact accounted_of_pending (c := c) (by simp [ConnectTask.Pending])
    · exact accounted_of_pending (c := c) (by simp [ConnectTask.Pending])

theorem not_pending_of_eq {task : ConnectTask} (h : s.tasks c = task) (ht : ¬ task.Pending) :
    ¬ (s.tasks c).Pending := by
  rwa [h]

/-- **Step**: an accountable step leaves no request turned away for a bot that is not coming. -/
theorem accounted_step {a : WorkerAction} (h : s.Accounted) (hok : Accountable s a)
    (hstep : s.work a = some s') : s'.Accounted := by
  cases a with
  | ensureBot =>
    cases hstep
    rcases hok with hentry | hcoming
    · obtain ⟨entry, hentry⟩ := Option.isSome_iff_exists.mp hentry
      have hsame : s.ensureBot = s := by
        rw [ensureBot, hentry, Option.getD_some, ← hentry]
      rwa [hsame]
    · exact fun _ => hcoming
  | connect action =>
    obtain ⟨hstep, hstatus⟩ := step_of_work hstep
    cases connectStep_of_step hstep with
    | jobSkipped | passSkipped | ticks => exact h
    | jobTaken idle => exact h.move (not_pending_of_eq idle id) rfl rfl rfl rfl rfl
    | passAttempts idle =>
      rw [attempt]
      dsimp only
      split_ifs
      · exact h.move (not_pending_of_eq idle id) rfl rfl rfl rfl rfl
      · exact h
    | @fires timer c =>
      rw [attempt]
      dsimp only
      split_ifs with hallowed
      · exact accounted_of_pending (c := c) (by simp [ConnectTask.Pending])
      · exact hok.resolve_left hallowed
    | @restarts c | @proceeds c | @passConnects c | @connects c | @passFails c =>
      exact accounted_of_pending (c := c) (by simp [ConnectTask.Pending])
    | yields waits | statusFails waits =>
      exact h.move (not_pending_of_eq waits id) rfl rfl rfl rfl rfl
    | @prepares c _ inside =>
      refine accounted_of_pending (c := c) ?_
      rw [ConnectState.prepareConnect, tasks_setStatus, tasks_ensureBot, inside]
      trivial
    | returns =>
      rcases hok with hlive | hblocked
      · exact fun _ => Or.inl hlive
      · exact fun hb => absurd hb hblocked
    | passAborts waits => exact h.move (not_pending_of_eq waits id) rfl rfl rfl rfl rfl
    | jobFails => exact accounted_scheduleReconnect (Or.inl rfl) _ _
    | reconnectFails under =>
      refine accounted_scheduleReconnect ?_ _ _
      rw [Accountable] at hok
      rcases under with under | under <;> rwa [under] at hok
    | marks idle =>
      refine h.mono (fun hb => Or.inr ?_) fun hcoming => ?_
      · exact hb.resolve_left (by simp [ConnectState.markConnected, goto])
      · exact hcoming.move (not_pending_of_eq idle id) rfl rfl rfl
    | reschedules waits =>
      refine accounted_scheduleReconnect ?_ _ _
      rw [Accountable] at hok
      rwa [waits] at hok
    | arms =>
      refine fun _ => Or.inr (Or.inr ⟨s.nextTimer, ?_⟩)
      simp [armTimer, goto]
    | marked waits =>
      refine accounted_of_settled ?_ rfl
      rw [Accountable] at hok
      rw [goto, entry_deleteTimer]
      rwa [waits] at hok
    | @loses c delay idle =>
      cases hentry : s.entry with
      | none =>
        rw [scheduleReconnect, hentry]
        exact h.move (not_pending_of_eq idle id) rfl rfl rfl rfl rfl
      | some entry => exact accounted_scheduleReconnect (Or.inl (by rw [hentry]; rfl)) c delay
    | @setsLive live =>
      cases live with
      | true => exact fun _ => Or.inl rfl
      | false => exact fun hb => Or.inr (hok hb)
    | @setsStatus status =>
      refine h.mono (fun hb => Or.inr ?_) id
      exact hb.resolve_left (status_setStatus s fun heq => hstatus (heq ▸ rfl))
    | forgets => exact accounted_of_settled (by simp) rfl
    | disconnects => exact accounted_of_settled (status_setStatus s (by decide)) hok

/-- In a state that accounts for its bookkeeping, an unattended bot that no path is about
    to attend to turns no request away. -/
theorem ConnectState.Accounted.free (h : s.Accounted) (hun : s.Unattended) (hpend : s.Undecided) :
    s.entry.map BotEntry.status ≠ some .connecting ∧ s.reconnectTimer = none := by
  have hblocked : ¬ s.Blocked := by
    intro hb
    rcases h hb with hlive | ⟨c, hc⟩ | ⟨timer, htimer⟩
    · exact Bool.false_ne_true (hun.not_live.symm.trans hlive)
    · exact hun.no_connect c (hpend c hc)
    · exact htimer (hun.no_timer timer)
  rw [Blocked, not_or, Bool.not_eq_true, Option.isSome_eq_false_iff, Option.isNone_iff_eq_none]
    at hblocked
  exact hblocked

/-- **Requests**: an accountable step answers the request that it brings. -/
theorem answered_of_accounted {a : WorkerAction} (h : s.Accounted) (hok : Accountable s a) :
    Answered s a := by
  intro hun s' hstep
  cases a with
  | ensureBot => trivial
  | connect action =>
    obtain ⟨hstep, -⟩ := step_of_work hstep
    cases connectStep_of_step hstep with
    | jobSkipped _ connecting => exact absurd connecting (h.free hun hok).1
    | jobTaken => exact Function.update_self ..
    | passSkipped _ taken =>
      rcases taken with hlive | htimer
      · exact absurd (hun.not_live.symm.trans hlive) Bool.false_ne_true
      · rw [(h.free hun hok).2] at htimer
        exact absurd htimer Bool.false_ne_true
    | passAttempts =>
      intro hallowed
      rw [tasks_attempt, if_pos hallowed, Function.update_self]
    | restarts =>
      intro _
      rw [tasks_goto, Function.update_self]
    | @proceeds c dbStatus =>
      cases dbStatus with
      | none => trivial
      | some dbStatus => exact fun _ => Function.update_self ..
    | @yields c dbStatus _ guard =>
      cases dbStatus with
      | none => trivial
      | some dbStatus =>
        intro hstartable
        have htimer := (h.free hun hok).2
        cases dbStatus <;> simp_all [jobProceeds, BotStatus.startable, hun.not_live]
    | _ => trivial

/-- **Requests**: a request that was taken up stays until it has called `connect()`, unless
    it finds out that the bot is attended to, or ends in an error. -/
theorem held_step (s : ConnectState) (a : WorkerAction) : Held s a := by
  intro s' hstep c
  cases a with
  | ensureBot =>
    cases hstep
    exact ⟨Or.inl, fun _ => Or.inl⟩
  | connect action =>
    obtain ⟨hstep, -⟩ := step_of_work hstep
    by_cases hc : action.task? = some c
    · have other {task : ConnectTask} (h : s.tasks c = task) (hstatus : task ≠ .status)
          (hcredentials : ∀ origin, task ≠ .credentials origin) (p : Prop)
          (q : ConnectOrigin → Prop) :
          (s.tasks c = .status → p) ∧ ∀ origin, s.tasks c = .credentials origin → q origin :=
        ⟨fun h' => absurd (h.symm.trans h') hstatus,
          fun origin h' => absurd (h.symm.trans h') (hcredentials origin)⟩
      cases connectStep_of_step hstep with
      | jobSkipped h | jobTaken h | passSkipped h | passAttempts h | marks h | loses h =>
        cases hc
        exact other h nofun nofun _ _
      | fires _ _ h =>
        cases hc
        exact other h nofun nofun _ _
      | prepares h | returns h | passFails h | reschedules h | arms h | marked h =>
        cases hc
        exact other h nofun nofun _ _
      | restarts h | proceeds h | yields h =>
        cases hc
        exact ⟨fun _ => Or.inr (Or.inl ⟨_, rfl⟩), fun _ h' => absurd (h.symm.trans h') nofun⟩
      | statusFails h =>
        cases hc
        exact ⟨fun _ => Or.inr (Or.inr rfl), fun _ h' => absurd (h.symm.trans h') nofun⟩
      | passConnects h | connects h =>
        cases hc
        refine ⟨fun h' => absurd (h.symm.trans h') nofun, fun origin h' => Or.inr (Or.inl ?_)⟩
        obtain rfl := ConnectTask.credentials.inj (h.symm.trans h')
        exact Function.update_self ..
      | passAborts h =>
        cases hc
        exact ⟨fun h' => absurd (h.symm.trans h') nofun, fun _ _ => Or.inr (Or.inr ⟨_, rfl⟩)⟩
      | jobFails h | reconnectFails h =>
        cases hc
        refine ⟨fun h' => ?_, fun _ _ => Or.inr (Or.inr ⟨_, rfl⟩)⟩
        rcases h with h | h <;> exact absurd (h.symm.trans h') nofun
      | setsLive | setsStatus | forgets | disconnects | ticks => cases hc
    · rw [tasks_step_of_ne hstep hc]
      exact ⟨Or.inl, fun _ => Or.inl⟩

end Accounts

/-- **Connect requests**: as long as entries are created and timers left behind only for bots
    that are there or coming back, every connect job and every reconcile pass that comes to
    an unattended bot is taken up, and goes on to `connect()` or to an error. -/
theorem answered_of_accountable (as : List WorkerAction)
    (hok : Machine.Along work Accountable .start as) :
    Machine.Along work (fun s a => Answered s a ∧ Held s a) .start as := by
  refine Machine.along_of_invariant Accounted ?_ ?_ ?_ hok
  · intro s a s' h hok hstep
    exact accounted_step h hok hstep
  · intro s a s' h hok _
    exact ⟨answered_of_accounted h hok, held_step s a⟩
  · exact accounted_of_settled nofun rfl

/-- A connect job connects a bot and a script runs meanwhile; ten seconds later the connection
    is lost, and the reconnect timer brings the bot back. -/
theorem answered_of_job_and_reconnect :
    Machine.Along work (fun s a => Answered s a ∧ Held s a) .start
      [.connect (.job 0), .connect (.statusRead 0 (some .running)), .connect (.credentialsRead 0),
        .ensureBot, .connect (.setLive true), .connect (.markConnected 1),
        .connect (.resume 1 0), .connect (.connectReturned 0), .connect (.tick 10000),
        .connect (.setLive false), .connect (.connectionLost 0 1000), .connect (.resume 0 0),
        .connect (.tick 1000), .connect (.fire 0 0), .connect (.credentialsRead 0)] := by
  apply answered_of_accountable
  rintro _ ⟨⟩
  refine ⟨fun c hc => hc.elim, ?_⟩
  rintro _ ⟨⟩
  refine ⟨?_, ?_⟩
  · intro c hc
    match c with
    | 0 => exact hc.elim
    | c + 1 => exact hc.elim
  rintro _ ⟨⟩
  refine ⟨trivial, ?_⟩
  rintro _ ⟨⟩
  refine ⟨Or.inl rfl, ?_⟩
  rintro _ ⟨⟩
  refine ⟨trivial, ?_⟩
  rintro _ ⟨⟩
  refine ⟨trivial, ?_⟩
  rintro _ ⟨⟩
  refine ⟨by rintro ⟨⟩, ?_⟩
  rintro _ ⟨⟩
  refine ⟨Or.inl rfl, ?_⟩
  rintro _ ⟨⟩
  refine ⟨trivial, ?_⟩
  rintro _ ⟨⟩
  refine ⟨?_, ?_⟩
  · rintro (h | h) <;> cases h
  iterate 3
    rintro _ ⟨⟩
    refine ⟨trivial, ?_⟩
  rintro _ ⟨⟩
  refine ⟨Or.inl rfl, ?_⟩
  rintro _ ⟨⟩
  exact ⟨trivial, trivial⟩

/-- An execute job creates the entry of a bot that is not connected; the connect job that
    comes next returns without doing anything. -/
theorem answered_fails_on_execute_job :
    ¬ Machine.Along work (fun s a => Answered s a ∧ Held s a) .start
      [.ensureBot, .connect (.job 0)] := by
  intro h
  obtain ⟨-, hjob⟩ := h _ rfl
  obtain ⟨⟨hanswered, -⟩, -⟩ := hjob _ rfl
  have htask := hanswered ⟨rfl, fun _ => id, fun _ => rfl⟩ _ rfl
  exact absurd htask (by decide)

end BotHive.Workers
