import BotHive.Workers.SendPath

/-!
# The caps of a warming account

A warming account may complete `maxDailyPosts` posts and `maxDailyActions` other gated
actions in a UTC day, and no post before `firstPostDay`. A call checks the caps at its gate,
but it is counted only when it completes, after several waits: calls that overlap pass the
gate on the same count, and a call that completes after midnight is counted on top of the
day before. The caps hold exactly as long as a call that completes finds what its gate
asked for: counters of that day, and room in them.

## Main definitions

- `SendState.CapsKept`: the caps and the meaning of the counters
- `SendState.RoomAtCompletion`: the condition on an action

## Main results

- `SendState.warmingSound_step`: what holds in every run
- `SendState.capsKept_iff_roomAtCompletion`: when the caps are kept
-/

namespace BotHive.Workers

/-- The action of a call that has passed its gate. -/
def SendTask.type? : SendTask → Option String
  | .idle => none
  | .cooling type | .charging type | .delaying type | .executing type => some type

/-- Gated actions other than posts. -/
def isGatedAction (type : String) : Bool :=
  !isPost type && !isExempt type

/-- The account is in its warming period. -/
def inWarming (startedAt : ℕ) (config : WarmingConfig) (now : ℕ) : Bool :=
  dayNumber startedAt now ≤ config.durationDays

namespace SendState

/-- A bot whose account starts to warm up. -/
def startWarming (entry : SendEntry) (now startedAt : ℕ) (config : WarmingConfig) : SendState :=
  { start { entry with warming := some ⟨⟨startedAt, 0, 0, isoDay now⟩, config⟩ } with
    now := now }

/-- How many actions of a kind completed on a day. -/
def countOn (s : SendState) (kind : String → Bool) (day : ℕ) : ℕ :=
  s.completed.countP fun x => kind x.type && decide (isoDay x.time = day)

/-- How many actions of a kind completed on a day while the account warmed up. -/
def warmingCountOn (s : SendState) (startedAt : ℕ) (config : WarmingConfig)
    (kind : String → Bool) (day : ℕ) : ℕ :=
  s.completed.countP fun x =>
    kind x.type && decide (isoDay x.time = day) && inWarming startedAt config x.time

/-- The caps of the warming period, and counters that count what completed on their day and
    nothing else. -/
structure CapsKept (startedAt : ℕ) (config : WarmingConfig) (s : SendState) : Prop where
  posts : ∀ day, s.warmingCountOn startedAt config isPost day ≤ config.maxDailyPosts
  actions : ∀ day, s.warmingCountOn startedAt config isGatedAction day ≤ config.maxDailyActions
  firstPost : ∀ x ∈ s.completed, isPost x.type = true → inWarming startedAt config x.time = true →
    config.firstPostDay ≤ dayNumber startedAt x.time
  counters : ∀ state, s.entry.warming = some ⟨state, config⟩ →
    state.todayActions = s.countOn (fun _ => true) state.lastActionDate ∧
      state.todayPosts = s.countOn isPost state.lastActionDate

/-- A call that completes finds the counters of the day, or empty ones, and room for itself:
    what its gate has asked for. -/
def RoomAtCompletion (startedAt : ℕ) (config : WarmingConfig) (s : SendState) :
    SendAction → Prop
  | .succeeds c => ∀ type state, s.tasks c = .executing type →
      s.entry.warming = some ⟨state, config⟩ →
      (state.todayActions = 0 ∨ state.lastActionDate = isoDay s.now) ∧
        (inWarming startedAt config s.now = true →
          (isPost type = true → state.todayPosts < config.maxDailyPosts) ∧
            (isGatedAction type = true →
              s.countOn isGatedAction (isoDay s.now) < config.maxDailyActions))
  | _ => True

/-- What holds of a warming account in every run. -/
structure WarmingSound (startedAt : ℕ) (config : WarmingConfig) (s : SendState) : Prop where
  warming : ∃ state, s.entry.warming = some ⟨state, config⟩ ∧ state.startedAt = startedAt ∧
    state.lastActionDate ≤ isoDay s.now ∧
    ∀ x ∈ s.completed, isoDay x.time ≤ state.lastActionDate
  past : ∀ x ∈ s.completed, x.time ≤ s.now
  gated : ∀ c type, (s.tasks c).type? = some type → isPost type = true →
    inWarming startedAt config s.now = true → config.firstPostDay ≤ dayNumber startedAt s.now

variable {s t : SendState} {startedAt : ℕ} {config : WarmingConfig}

theorem isoDay_le {a b : ℕ} (h : a ≤ b) : isoDay a ≤ isoDay b :=
  Nat.div_le_div_right h

theorem dayNumber_le {a b : ℕ} (h : a ≤ b) : dayNumber startedAt a ≤ dayNumber startedAt b := by
  rw [dayNumber, dayNumber]
  omega

/-- Before the end of the warming period the account is warming. -/
theorem inWarming_of_le {a b : ℕ} (h : a ≤ b) (hb : inWarming startedAt config b = true) :
    inWarming startedAt config a = true := by
  rw [inWarming, decide_eq_true_eq] at hb ⊢
  exact (dayNumber_le h).trans hb

theorem not_isExempt_of_isPost {type : String} (h : isPost type = true) : isExempt type = false := by
  rw [isPost, List.contains_iff_mem] at h
  simp only [postActions, List.mem_cons, List.not_mem_nil, or_false] at h
  rcases h with rfl | rfl | rfl | rfl <;> decide

-- ════════════════════════════════════════════════════════════════════════
-- What the gate does to the counters
-- ════════════════════════════════════════════════════════════════════════

/-- The gate leaves the counters alone or starts them anew on a new day. -/
theorem warming_gate {entry : SendEntry} {state : WarmingState}
    (h : entry.warming = some ⟨state, config⟩) (now : ℕ) (type : String) :
    (entry.gate now type).2.warming = some ⟨state, config⟩ ∨
      (entry.gate now type).2.warming = some ⟨state.rollOver now, config⟩ := by
  rw [SendEntry.gate]
  split
  · exact .inl h
  · rw [SendEntry.warmingGate, h]
    dsimp only
    split
    · exact .inl h
    · exact .inr rfl

@[simp] theorem startedAt_rollOver (state : WarmingState) (now : ℕ) :
    (state.rollOver now).startedAt = state.startedAt := by
  rw [WarmingState.rollOver]
  split <;> rfl

/-- A post that passes the gate while the account warms up comes on an allowed day. -/
theorem firstPostDay_of_gate {entry : SendEntry} {state : WarmingState}
    (h : entry.warming = some ⟨state, config⟩) {now : ℕ} {type : String}
    (hgate : (entry.gate now type).1 = .ok ()) (hpost : isPost type = true)
    (hwarming : inWarming state.startedAt config now = true) :
    config.firstPostDay ≤ dayNumber state.startedAt now := by
  rw [SendEntry.gate] at hgate
  split at hgate
  · cases hgate
  · rw [SendEntry.warmingGate, h] at hgate
    dsimp only at hgate
    rw [if_neg (by rw [not_isExempt_of_isPost hpost]; exact Bool.false_ne_true)] at hgate
    dsimp only at hgate
    rw [if_pos hpost] at hgate
    rw [inWarming, decide_eq_true_eq] at hwarming
    split at hgate
    · rename_i hcan
      rw [warmingLimits, startedAt_rollOver, if_neg (not_lt.mpr hwarming)] at hcan
      dsimp only at hcan
      rw [decide_eq_true_eq] at hcan
      exact hcan.1
    · cases hgate

-- ════════════════════════════════════════════════════════════════════════
-- Turns that neither gate nor complete an action
-- ════════════════════════════════════════════════════════════════════════

/-- Nothing that the caps rest on has changed, except that time may have gone on and calls may
    have moved on or given up. -/
structure Quiet (s t : SendState) : Prop where
  now : s.now ≤ t.now
  warming : t.entry.warming = s.entry.warming
  completed : t.completed = s.completed
  tasks : ∀ c type, (t.tasks c).type? = some type → (s.tasks c).type? = some type

theorem Quiet.refl (s : SendState) : Quiet s s :=
  ⟨le_rfl, rfl, rfl, fun _ _ h => h⟩

theorem Quiet.trans {u : SendState} (h : Quiet s t) (h' : Quiet t u) : Quiet s u :=
  ⟨h.now.trans h'.now, h'.warming.trans h.warming, h'.completed.trans h.completed,
    fun c type hc => h.tasks c type (h'.tasks c type hc)⟩

theorem tasks_goto (s : SendState) (c : ℕ) (task : SendTask) :
    (s.goto c task).tasks = Function.update s.tasks c task :=
  rfl

/-- A call that moves on keeps its action. -/
theorem quiet_goto {c : ℕ} {task : SendTask}
    (htask : ∀ type, task.type? = some type → (s.tasks c).type? = some type) :
    Quiet s (s.goto c task) := by
  refine ⟨le_rfl, rfl, rfl, fun d type hd => ?_⟩
  rw [tasks_goto] at hd
  by_cases hc : d = c
  · rw [hc] at hd ⊢
    rw [Function.update_self] at hd
    exact htask type hd
  · rwa [Function.update_of_ne hc] at hd

theorem quiet_executeRotationAction (s : SendState) (a : RotationAction) :
    Quiet s (s.executeRotationAction a) := by
  cases a with
  | pause | coolDown => exact ⟨le_rfl, rfl, rfl, fun _ _ h => h⟩
  | changeProxy | alert => exact .refl s

theorem quiet_foldl_executeRotationAction (plan : List RotationAction) (s : SendState) :
    Quiet s (plan.foldl executeRotationAction s) := by
  induction plan generalizing s with
  | nil => exact .refl s
  | cons a rest ih => exact (quiet_executeRotationAction s a).trans (ih _)

theorem quiet_check (s : SendState) (elapsed : ℕ) : Quiet s (s.runSelfHealingCheck elapsed) := by
  have htick : Quiet s { s with now := s.now + elapsed } :=
    ⟨Nat.le_add_right .., rfl, rfl, fun _ _ h => h⟩
  exact htick.trans (quiet_foldl_executeRotationAction _ _)

/-- A turn that neither calls nor completes is quiet. -/
theorem quiet_of_turn {a : SendAction} (h : s.Turn a t) (hcall : ∀ c type, a ≠ .call c type)
    (hsucceeds : ∀ c, a ≠ .succeeds c) : Quiet s t := by
  cases h with
  | refused | passed => exact absurd rfl (hcall _ _)
  | succeeded => exact absurd rfl (hsucceeds _)
  | cooled htask | charged htask =>
    exact quiet_goto fun type htype => by rw [htask]; exact htype
  | throttled => exact quiet_goto fun type htype => nomatch htype
  | attempted htask =>
    have hgoto : Quiet s (s.goto _ (.executing _)) :=
      quiet_goto fun type htype => by rw [htask]; exact htype
    exact hgoto.trans ⟨le_rfl, rfl, rfl, fun _ _ h => h⟩
  | @failed c type message elapsed htask =>
    have hentry : Quiet s (s.setEntry (s.entry.fail message)) :=
      ⟨le_rfl, rfl, rfl, fun _ _ h => h⟩
    have hgoto : Quiet s ((s.setEntry (s.entry.fail message)).goto c .idle) :=
      hentry.trans (quiet_goto fun type htype => nomatch htype)
    exact hgoto.trans (quiet_check _ elapsed)
  | swept => exact quiet_check s _
  | skipped | tick => exact ⟨Nat.le_add_right .., rfl, rfl, fun _ _ h => h⟩
  | setStatus => exact ⟨le_rfl, rfl, rfl, fun _ _ h => h⟩

theorem warmingSound_of_quiet (h : s.WarmingSound startedAt config) (hquiet : Quiet s t) :
    t.WarmingSound startedAt config := by
  obtain ⟨state, hwarming, hstarted, hdate, hlast⟩ := h.warming
  refine ⟨⟨state, ?_, hstarted, ?_, ?_⟩, ?_, fun c type htype hpost hin => ?_⟩
  · rw [hquiet.warming, hwarming]
  · exact hdate.trans (isoDay_le hquiet.now)
  · rw [hquiet.completed]
    exact hlast
  · rw [hquiet.completed]
    exact fun x hx => (h.past x hx).trans hquiet.now
  · have hbefore := h.gated c type (hquiet.tasks c type htype) hpost
      (inWarming_of_le hquiet.now hin)
    exact hbefore.trans (dayNumber_le hquiet.now)

theorem capsKept_of_same (h : s.CapsKept startedAt config)
    (hwarming : t.entry.warming = s.entry.warming) (hcompleted : t.completed = s.completed) :
    t.CapsKept startedAt config := by
  have hcount : t.countOn = s.countOn := by
    funext kind day
    rw [countOn, countOn, hcompleted]
  have hwarm : t.warmingCountOn startedAt config = s.warmingCountOn startedAt config := by
    funext kind day
    rw [warmingCountOn, warmingCountOn, hcompleted]
  refine ⟨?_, ?_, ?_, ?_⟩
  · rw [hwarm]
    exact h.posts
  · rw [hwarm]
    exact h.actions
  · rw [hcompleted]
    exact h.firstPost
  · rw [hcount, hwarming]
    exact h.counters

-- ════════════════════════════════════════════════════════════════════════
-- Calls at the gate
-- ════════════════════════════════════════════════════════════════════════

theorem warmingSound_gate (h : s.WarmingSound startedAt config) (type : String) :
    (s.setEntry (s.entry.gate s.now type).2).WarmingSound startedAt config := by
  obtain ⟨state, hwarming, hstarted, hdate, hlast⟩ := h.warming
  refine ⟨?_, h.past, h.gated⟩
  rcases warming_gate hwarming s.now type with hgate | hgate
  · exact ⟨state, hgate, hstarted, hdate, hlast⟩
  · refine ⟨_, hgate, (startedAt_rollOver ..).trans hstarted, ?_, ?_⟩
    · rw [WarmingState.rollOver]
      split
      · exact le_rfl
      · exact hdate
    · rw [WarmingState.rollOver]
      split
      · exact fun x hx => (hlast x hx).trans hdate
      · exact hlast

/-- Nothing has completed on a day after the last day of the counters. -/
theorem countOn_eq_zero {last day : ℕ} (hlast : ∀ x ∈ s.completed, isoDay x.time ≤ last)
    (h : last < day) (kind : String → Bool) : s.countOn kind day = 0 := by
  rw [countOn, List.countP_eq_zero]
  intro x hx
  have hlt : isoDay x.time < day := (hlast x hx).trans_lt h
  simp [hlt.ne]

/-- The gate starts the counters anew only on a day on which nothing has completed. -/
theorem capsKept_gate (h : s.CapsKept startedAt config) (hsound : s.WarmingSound startedAt config)
    (type : String) :
    (s.setEntry (s.entry.gate s.now type).2).CapsKept startedAt config := by
  obtain ⟨state, hwarming, -, hdate, hlast⟩ := hsound.warming
  refine ⟨h.posts, h.actions, h.firstPost, fun state' hstate' => ?_⟩
  rcases warming_gate hwarming s.now type with hgate | hgate
  · obtain rfl : state = state' := by
      have := hgate.symm.trans hstate'
      simpa using this
    exact h.counters state hwarming
  · obtain rfl : state.rollOver s.now = state' := by
      have := hgate.symm.trans hstate'
      simpa using this
    rw [WarmingState.rollOver]
    split
    · rename_i hnew
      have hlt : state.lastActionDate < isoDay s.now := lt_of_le_of_ne hdate hnew
      exact ⟨(countOn_eq_zero hlast hlt (fun _ => true)).symm,
        (countOn_eq_zero hlast hlt isPost).symm⟩
    · exact h.counters state hwarming

/-- A call that has passed the gate is one more gated call. -/
theorem warmingSound_passed (h : s.WarmingSound startedAt config) {c : ℕ} {task : SendTask}
    (htask : ∀ type, task.type? = some type → isPost type = true →
      inWarming startedAt config s.now = true → config.firstPostDay ≤ dayNumber startedAt s.now) :
    (s.goto c task).WarmingSound startedAt config := by
  refine ⟨h.warming, h.past, fun d type htype => ?_⟩
  rw [tasks_goto] at htype
  by_cases hd : d = c
  · rw [hd, Function.update_self] at htype
    exact htask type htype
  · rw [Function.update_of_ne hd] at htype
    exact h.gated d type htype

-- ════════════════════════════════════════════════════════════════════════
-- Completed actions
-- ════════════════════════════════════════════════════════════════════════

/-- The bot after an action has completed. -/
def afterSuccess (s : SendState) (c : ℕ) (type : String) : SendState :=
  { (s.setEntry (s.entry.succeed s.now type)).goto c .idle with
    completed := ⟨s.now, type⟩ :: s.completed }

theorem warming_afterSuccess {state : WarmingState}
    (h : s.entry.warming = some ⟨state, config⟩) (c : ℕ) (type : String) :
    (s.afterSuccess c type).entry.warming = some ⟨{ state with
      todayActions := state.todayActions + 1
      todayPosts := if isPost type then state.todayPosts + 1 else state.todayPosts
      lastActionDate := isoDay s.now }, config⟩ := by
  change s.entry.warming.map _ = _
  rw [h]
  rfl

theorem countOn_afterSuccess (s : SendState) (c : ℕ) (type : String) (kind : String → Bool)
    (day : ℕ) :
    (s.afterSuccess c type).countOn kind day =
      s.countOn kind day + if kind type && decide (isoDay s.now = day) then 1 else 0 := by
  rw [countOn, afterSuccess, List.countP_cons, countOn]

theorem warmingCountOn_afterSuccess (s : SendState) (c : ℕ) (type : String)
    (kind : String → Bool) (day : ℕ) :
    (s.afterSuccess c type).warmingCountOn startedAt config kind day =
      s.warmingCountOn startedAt config kind day +
        if kind type && decide (isoDay s.now = day) && inWarming startedAt config s.now then 1
        else 0 := by
  rw [warmingCountOn, afterSuccess, List.countP_cons, warmingCountOn]

/-- While the account warms up, all that has completed has completed in the warming period. -/
theorem warmingCountOn_eq_countOn (hpast : ∀ x ∈ s.completed, x.time ≤ s.now)
    (hin : inWarming startedAt config s.now = true) (kind : String → Bool) (day : ℕ) :
    s.warmingCountOn startedAt config kind day = s.countOn kind day := by
  refine List.countP_congr fun x hx => ?_
  rw [inWarming_of_le (hpast x hx) hin, Bool.and_true]

theorem countOn_isPost_le (s : SendState) (day : ℕ) :
    s.countOn isPost day ≤ s.countOn (fun _ => true) day := by
  refine List.countP_mono_left fun x _ hx => ?_
  rw [Bool.and_eq_true] at hx
  rw [Bool.true_and]
  exact hx.2

/-- The counters are empty or of this day exactly when they count this day. -/
theorem counters_today_iff {state : WarmingState}
    (hcounters : state.todayActions = s.countOn (fun _ => true) state.lastActionDate ∧
      state.todayPosts = s.countOn isPost state.lastActionDate)
    (hdate : state.lastActionDate ≤ isoDay s.now)
    (hlast : ∀ x ∈ s.completed, isoDay x.time ≤ state.lastActionDate) :
    (state.todayActions = 0 ∨ state.lastActionDate = isoDay s.now) ↔
      state.todayActions = s.countOn (fun _ => true) (isoDay s.now) ∧
        state.todayPosts = s.countOn isPost (isoDay s.now) := by
  obtain ⟨hactions, hposts⟩ := hcounters
  rcases hdate.eq_or_lt with htoday | hearlier
  · rw [← htoday]
    exact iff_of_true (.inr rfl) ⟨hactions, hposts⟩
  · rw [countOn_eq_zero hlast hearlier, countOn_eq_zero hlast hearlier]
    have hle := countOn_isPost_le s state.lastActionDate
    omega

theorem warmingSound_afterSuccess (h : s.WarmingSound startedAt config) (c : ℕ) (type : String) :
    (s.afterSuccess c type).WarmingSound startedAt config := by
  obtain ⟨state, hwarming, hstarted, hdate, hlast⟩ := h.warming
  refine ⟨⟨_, warming_afterSuccess hwarming c type, hstarted, le_refl (isoDay s.now), ?_⟩, ?_, ?_⟩
  · intro x hx
    rcases List.mem_cons.mp hx with rfl | hx
    · exact le_rfl
    · exact (hlast x hx).trans hdate
  · intro x hx
    rcases List.mem_cons.mp hx with rfl | hx
    · exact le_rfl
    · exact h.past x hx
  · have hidle : Quiet s (s.goto c .idle) := quiet_goto fun _ htype => nomatch htype
    exact (warmingSound_of_quiet h hidle).gated

/-- A cap that is kept survives a completion exactly when the completion finds room. -/
theorem cap_afterSuccess_iff {kind : String → Bool} {cap : ℕ}
    (hcap : ∀ day, s.warmingCountOn startedAt config kind day ≤ cap)
    (hpast : ∀ x ∈ s.completed, x.time ≤ s.now) (c : ℕ) (type : String) :
    (∀ day, (s.afterSuccess c type).warmingCountOn startedAt config kind day ≤ cap) ↔
      (inWarming startedAt config s.now = true → kind type = true →
        s.countOn kind (isoDay s.now) < cap) := by
  constructor
  · intro h hin hkind
    have htoday := h (isoDay s.now)
    rw [warmingCountOn_afterSuccess, hin, hkind, if_pos (by simp)] at htoday
    rwa [warmingCountOn_eq_countOn hpast hin] at htoday
  · intro h day
    rw [warmingCountOn_afterSuccess]
    split
    · rename_i hcounted
      rw [Bool.and_eq_true, Bool.and_eq_true, decide_eq_true_eq] at hcounted
      obtain ⟨⟨hkind, rfl⟩, hin⟩ := hcounted
      rw [warmingCountOn_eq_countOn hpast hin]
      exact h hin hkind
    · exact hcap day

/-- A completion keeps the counters exact exactly when they count its day. -/
theorem counters_afterSuccess_iff {state : WarmingState}
    (hwarming : s.entry.warming = some ⟨state, config⟩) (c : ℕ) (type : String) :
    (∀ state', (s.afterSuccess c type).entry.warming = some ⟨state', config⟩ →
      state'.todayActions = (s.afterSuccess c type).countOn (fun _ => true) state'.lastActionDate ∧
        state'.todayPosts = (s.afterSuccess c type).countOn isPost state'.lastActionDate) ↔
      state.todayActions = s.countOn (fun _ => true) (isoDay s.now) ∧
        state.todayPosts = s.countOn isPost (isoDay s.now) := by
  have hafter := warming_afterSuccess hwarming c type
  constructor
  · intro h
    obtain ⟨hactions, hposts⟩ := h _ hafter
    dsimp only at hactions hposts
    rw [countOn_afterSuccess, if_pos (by simp)] at hactions
    rw [countOn_afterSuccess] at hposts
    refine ⟨Nat.succ_injective hactions, ?_⟩
    cases hpost : isPost type <;> simp only [hpost] at hposts <;> simpa using hposts
  · rintro ⟨hactions, hposts⟩ state' hstate'
    obtain rfl := (Warming.mk.inj (Option.some.inj (hafter.symm.trans hstate'))).1
    dsimp only
    rw [countOn_afterSuccess, countOn_afterSuccess, if_pos (by simp), hactions, hposts]
    refine ⟨rfl, ?_⟩
    cases hpost : isPost type <;> simp

/-- **Completion**: the caps survive a completion exactly when the completion finds room. -/
theorem capsKept_afterSuccess_iff (h : s.CapsKept startedAt config)
    (hsound : s.WarmingSound startedAt config) {c : ℕ} {type : String}
    (htask : s.tasks c = .executing type) :
    (s.afterSuccess c type).CapsKept startedAt config ↔
      s.RoomAtCompletion startedAt config (.succeeds c) := by
  obtain ⟨state, hwarming, -, hdate, hlast⟩ := hsound.warming
  have hcounters := counters_afterSuccess_iff hwarming c type
  rw [← counters_today_iff (h.counters state hwarming) hdate hlast] at hcounters
  have hposts := cap_afterSuccess_iff h.posts hsound.past c type
  have hactions := cap_afterSuccess_iff h.actions hsound.past c type
  constructor
  · intro hkept type' state' htask' hwarming'
    obtain rfl : type = type' := by simpa using htask.symm.trans htask'
    obtain rfl : state = state' := by simpa using hwarming.symm.trans hwarming'
    have hcurrent := hcounters.mp hkept.counters
    refine ⟨hcurrent, fun hin => ⟨fun hpost => ?_, hactions.mp hkept.actions hin⟩⟩
    rw [((counters_today_iff (h.counters state hwarming) hdate hlast).mp hcurrent).2]
    exact hposts.mp hkept.posts hin hpost
  · intro hroom
    obtain ⟨hcurrent, hcaps⟩ := hroom type state htask hwarming
    have htoday := ((counters_today_iff (h.counters state hwarming) hdate hlast).mp hcurrent).2
    refine ⟨hposts.mpr fun hin hpost => ?_, hactions.mpr fun hin => (hcaps hin).2, ?_,
      hcounters.mpr hcurrent⟩
    · rw [← htoday]
      exact (hcaps hin).1 hpost
    · intro x hx hpost hin
      rcases List.mem_cons.mp hx with rfl | hx
      · have htype : (s.tasks c).type? = some type := by rw [htask, SendTask.type?]
        exact hsound.gated c type htype hpost hin
      · exact h.firstPost x hx hpost hin

/-- **Step**: what holds of a warming account survives every turn. -/
theorem warmingSound_step (h : s.WarmingSound startedAt config) {a : SendAction}
    (hstep : s.step a = some t) : t.WarmingSound startedAt config := by
  have hturn := turn_of_step hstep
  cases a with
  | call c type =>
    cases hturn with
    | refused => exact warmingSound_gate h type
    | passed htask hgate hwait =>
      refine warmingSound_passed (warmingSound_gate h type) fun type' htype' hpost hin => ?_
      obtain ⟨state, hwarming, rfl, -, -⟩ := h.warming
      have htype : type = type' := by
        rcases hwait with rfl | rfl <;> exact Option.some.inj htype'
      rw [htype] at hgate
      exact firstPostDay_of_gate hwarming hgate hpost hin
  | succeeds c =>
    cases hturn with
    | succeeded => exact warmingSound_afterSuccess h c _
  | cooled | charged | delayed | throws | sweep | setStatus | tick =>
    have hquiet := quiet_of_turn hturn (fun _ _ hc => nomatch hc) (fun _ hc => nomatch hc)
    exact warmingSound_of_quiet h hquiet

/-- **Step**: a turn keeps the caps exactly when what it completes finds room. -/
theorem capsKept_step_iff (h : s.CapsKept startedAt config)
    (hsound : s.WarmingSound startedAt config) {a : SendAction} (hstep : s.step a = some t) :
    t.CapsKept startedAt config ↔ s.RoomAtCompletion startedAt config a := by
  have hturn := turn_of_step hstep
  cases a with
  | call c type =>
    have hgate := capsKept_gate h hsound type
    cases hturn with
    | refused => exact iff_of_true hgate trivial
    | passed => exact iff_of_true (capsKept_of_same hgate rfl rfl) trivial
  | succeeds c =>
    cases hturn with
    | succeeded htask => exact capsKept_afterSuccess_iff h hsound htask
  | cooled | charged | delayed | throws | sweep | setStatus | tick =>
    have hquiet := quiet_of_turn hturn (fun _ _ hc => nomatch hc) (fun _ hc => nomatch hc)
    exact iff_of_true (capsKept_of_same h hquiet.warming hquiet.completed) trivial

/-- Two posts that overlap: both pass the gate before the first one is counted. -/
def overlappingPosts : List SendAction :=
  [.call 0 "post", .call 1 "post", .charged 0 true, .charged 1 true, .delayed 0, .delayed 1,
    .succeeds 0, .succeeds 1]

end SendState

end BotHive.Workers
