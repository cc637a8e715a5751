import BotHive.Library.Window
import BotHive.Workers.EngineIntegrity
import BotHive.Workers.IntervalDispatch

/-!
# Periodic scripts that keep their interval

The actions of a script with an interval of `n` seconds should start at most once in every period of
`n` seconds, and an event of the dispatcher should start no script without an interval. The
engine never looks at the interval of a script: whether a script waits is decided by the ticks,
its cooldown and its filters, and an event for one script runs all scripts of its trigger.

## Main definitions

- `KeepsIntervals`: each script has started at most once in every period
- `Timely`: a script that starts has an interval, which has passed since it last started

## Main results

- `ran_iff`: when a script run starts the actions
- `keepsIntervals_iff_timely`: the intervals are kept everywhere in a run exactly when
  every script run is timely
- `not_keepsIntervals_slowScript`: a script of a minute that starts at two ticks of 30 seconds
-/

namespace BotHive.Workers

variable {Step : Type}

/-- The interval of a script in milliseconds, if it has one. -/
def ScriptConfig.intervalMs (script : ScriptConfig Step) : Option ℚ :=
  (script.interval.filter (0 < ·)).map (· * 1000)

theorem ScriptConfig.intervalMs_pos {script : ScriptConfig Step} {ms : ℚ}
    (h : script.intervalMs = some ms) : 0 < ms := by
  obtain ⟨n, hn, rfl⟩ := Option.map_eq_some_iff.mp h
  have hpos : 0 < n := of_decide_eq_true (Option.filter_eq_some_iff.mp hn).2
  linarith

/-- A script has started at most once in every period, and never without an interval. -/
def KeepsIntervals (s : IntervalRun Step) : Prop :=
  ∀ botId, ∀ script ∈ s.engine.matching botId "interval",
    match script.intervalMs with
    | some ms => RateAtMost 1 ms (s.runs (botId, scriptKey botId script))
    | none => s.runs (botId, scriptKey botId script) = []

/-- The cooldown of a script has passed. -/
def Rested (engine : ScriptEngine Step) (script : ScriptConfig Step) (botId : String) (now : ℤ) :
    Prop :=
  ∀ ms, script.cooldownMs = some ms →
    ms ≤ ((now - engine.lastStamp (scriptKey botId script) : ℤ) : ℚ)

section Keys

/-- A key is the bot id, followed by what the script contributes. -/
theorem scriptKey_eq_append (botId : String) (script : ScriptConfig Step) :
    scriptKey botId script = botId ++ scriptKey "" script := by
  rw [scriptKey, scriptKey]
  cases script.id with
  | none => simp only [String.append_assoc, String.empty_append]
  | some id =>
    dsimp only
    split_ifs <;> simp only [String.append_assoc, String.empty_append]

theorem scriptKey_inj {botId : String} {script script' : ScriptConfig Step} :
    scriptKey botId script = scriptKey botId script' ↔ scriptKey "" script = scriptKey "" script' := by
  rw [scriptKey_eq_append botId, scriptKey_eq_append botId script', String.append_right_inj]

/-- No entry of the index lists a script twice. -/
def ListedOnce (engine : ScriptEngine Step) : Prop :=
  ∀ key scripts, engine.byTrigger.get key = some scripts → (scripts.map (scriptKey "")).Nodup

theorem ListedOnce.register {engine : EngineState Step} (h : ListedOnce engine.toScriptEngine)
    (botId : PlainId) (config : ScriptConfig Step) :
    ListedOnce (engine.register botId config).toScriptEngine := by
  intro key scripts hget
  rw [EngineState.register, EngineState.toScriptRegistry_withCounters] at hget
  dsimp only [ScriptRegistry.register] at hget
  rw [InsertionMap.get_set] at hget
  split_ifs at hget with hkey
  · obtain rfl := Option.some.inj hget
    have hold : (((engine.byTrigger.get (triggerKey botId.1 config.trigger)).getD []).map
        (scriptKey "")).Nodup := by
      cases hlist : engine.byTrigger.get (triggerKey botId.1 config.trigger) with
      | none => exact List.nodup_nil
      | some list => exact h _ list hlist
    rw [List.map_append, List.nodup_append]
    refine ⟨hold.sublist (List.filter_sublist.map _), List.nodup_singleton _, ?_⟩
    intro x hx y hy
    obtain ⟨old, hmem, rfl⟩ := List.mem_map.mp hx
    obtain rfl := List.mem_singleton.mp hy
    -- the new script replaces the one under its key
    have hne := of_decide_eq_true (List.mem_filter.mp hmem).2
    exact fun heq => hne (scriptKey_inj.mpr heq)
  · exact h key scripts hget

theorem listedOnce_registered (scripts : List (PlainId × ScriptConfig Step)) :
    ListedOnce (IntervalRun.registered scripts).toScriptEngine := by
  have hfold : ∀ engine : EngineState Step, ListedOnce engine.toScriptEngine →
      ListedOnce (scripts.foldl (fun engine e => engine.register e.1 e.2) engine).toScriptEngine := by
    induction scripts with
    | nil => exact fun engine h => h
    | cons e rest ih => exact fun engine h => ih (engine.register e.1 e.2) (h.register e.1 e.2)
  exact hfold .empty nofun

end Keys

section Dispatcher

variable (rt : ScriptRuntime) [CaseMapping]

/-- A script that neither its cooldown nor its filters stop has an interval, and has not
    started for that long. -/
def Timely (s : IntervalRun Step) : IntervalAction → Prop
  | .run k sandbox => ∀ botId script event, s.due[k]? = some (botId, script, event) →
    Rested s.engine.toScriptEngine script botId s.now →
    matchesFilters rt event ⟨s.now, sandbox⟩ script.filters = some true →
    ∃ ms, script.intervalMs = some ms ∧
      ∀ t ∈ s.runs (botId, scriptKey botId script), t + ms ≤ s.now
  | _ => True

section Engine

/-- The actions of a script start when its cooldown has passed and its filters match. -/
theorem ran_iff (engine : ScriptEngine Step) (script : ScriptConfig Step) (botId : String)
    (event : Event) (moment : Moment) :
    (∃ actions, (engine.runScript rt script botId event moment).1 = .ran actions) ↔
      Rested engine script botId moment.now ∧
        matchesFilters rt event moment script.filters = some true := by
  have hfiltered : (∃ actions, ScriptEngine.runFiltered rt script event moment = .ran actions) ↔
      matchesFilters rt event moment script.filters = some true := by
    rw [ScriptEngine.runFiltered]
    cases matchesFilters rt event moment script.filters with
    | none => simp
    | some b => cases b <;> simp
  cases hms : script.cooldownMs with
  | none =>
    rw [ScriptEngine.runScript_of_no_cooldown rt hms, hfiltered, Rested, hms]
    exact (and_iff_right (by rintro _ ⟨⟩)).symm
  | some ms =>
    by_cases hcooling :
        ((moment.now - engine.lastStamp (scriptKey botId script) : ℤ) : ℚ) < ms
    · rw [ScriptEngine.runScript_of_cooling rt hms hcooling]
      refine iff_of_false (by rintro ⟨_, ⟨⟩⟩) fun hrested => ?_
      exact absurd (hrested.1 ms hms) (not_le.mpr hcooling)
    · rw [ScriptEngine.runScript_of_rested rt hms hcooling, hfiltered]
      refine (and_iff_right fun ms' hms' => ?_).symm
      obtain rfl : ms = ms' := Option.some.inj (hms.symm.trans hms')
      exact not_lt.mp hcooling

end Engine

/-- What holds in every run of registered scripts. -/
structure Dispatching (s : IntervalRun Step) : Prop where
  listedOnce : ListedOnce s.engine.toScriptEngine
  events : ∀ e ∈ s.events, rt.text (eventField rt e.2 "type") = some "interval"
  due : ∀ e ∈ s.due, e.2.1 ∈ s.engine.matching e.1 "interval"
  past : ∀ key, ∀ t ∈ s.runs key, t ≤ s.now

section Steps

variable {rt} {s s' : IntervalRun Step} {a : IntervalAction}

omit [CaseMapping] in
theorem mem_noteStart {runs : String × String → List ℚ} {script key : String × String} {now : ℤ}
    {outcome : RunOutcome Step} {t : ℚ}
    (ht : t ∈ IntervalRun.noteStart runs script now outcome key) : t = now ∨ t ∈ runs key := by
  cases outcome with
  | ran actions =>
    rw [IntervalRun.noteStart, Function.update_apply] at ht
    split_ifs at ht with hkey
    · rw [hkey]
      exact List.mem_cons.mp ht
    · exact .inr ht
  | _ => exact .inr ht

omit [CaseMapping] in
/-- A run that does not start the actions leaves no note. -/
theorem noteStart_of_not_ran (runs : String × String → List ℚ) (script : String × String) (now : ℤ)
    {outcome : RunOutcome Step} (h : ¬ ∃ actions, outcome = .ran actions) :
    IntervalRun.noteStart runs script now outcome = runs := by
  cases outcome with
  | ran actions => exact absurd ⟨actions, rfl⟩ h
  | _ => rfl

omit [CaseMapping] in
theorem countRecent_lt_one_iff {w now : ℚ} {times : List ℚ} :
    countRecent w now times < 1 ↔ ∀ t ∈ times, t + w ≤ now := by
  rw [Nat.lt_one_iff, countRecent, List.countP_eq_zero]
  refine forall₂_congr fun t _ => ?_
  rw [decide_eq_true_eq, not_lt]

omit [CaseMapping] in
/-- A bot lists no two scripts under one key. -/
theorem ListedOnce.eq_of_key {engine : ScriptEngine Step} (h : ListedOnce engine) {botId type : String}
    {script script' : ScriptConfig Step} (hscript : script ∈ engine.matching botId type)
    (hscript' : script' ∈ engine.matching botId type)
    (hkey : scriptKey botId script = scriptKey botId script') : script = script' := by
  rw [ScriptEngine.matching] at hscript hscript'
  cases hget : engine.byTrigger.get (triggerKey botId type) with
  | none =>
    rw [hget] at hscript
    cases hscript
  | some scripts =>
    rw [hget] at hscript hscript'
    exact List.inj_on_of_nodup_map (h _ scripts hget) hscript hscript' (scriptKey_inj.mp hkey)

theorem Dispatching.step (h : Dispatching rt s) (hstep : s.step rt a = some s') :
    Dispatching rt s' := by
  cases a with
  | wait ms =>
    obtain rfl := Option.some.inj hstep
    refine { h with past := fun key t ht => (h.past key t ht).trans ?_ }
    exact_mod_cast (by omega : s.now ≤ s.now + ms)
  | tick t =>
    obtain rfl := Option.some.inj hstep
    refine { h with events := fun e he => ?_ }
    rcases List.mem_append.mp he with hold | hnew
    · exact h.events e hold
    · obtain ⟨d, -, rfl⟩ := List.mem_map.mp hnew
      rfl
  | deliver k =>
    obtain ⟨⟨botId, event⟩, hevent, rfl⟩ := Option.map_eq_some_iff.mp hstep
    have htype := h.events _ (List.mem_of_getElem? hevent)
    refine { h with
      events := fun e he => h.events e (List.mem_of_mem_eraseIdx he)
      due := fun e he => ?_ }
    rcases List.mem_append.mp he with hold | hnew
    · exact h.due e hold
    · obtain ⟨d, hd, rfl⟩ := List.mem_map.mp hnew
      rw [ScriptEngine.concerned, htype] at hd
      exact (List.mem_zipIdx hd).2.2 ▸ List.getElem_mem _
  | run k sandbox =>
    obtain ⟨⟨botId, script, event⟩, hdue, rfl⟩ := Option.map_eq_some_iff.mp hstep
    have hindex := ScriptEngine.byTrigger_runScript rt s.engine.toScriptEngine script botId event
      ⟨s.now, sandbox⟩
    constructor
    · intro key scripts hget
      exact h.listedOnce key scripts (hindex ▸ hget)
    · exact h.events
    · intro e he
      have hlisted := h.due e (List.mem_of_mem_eraseIdx he)
      rwa [ScriptEngine.matching, ← hindex] at hlisted
    · intro key t ht
      rcases mem_noteStart ht with rfl | hold
      · exact le_rfl
      · exact h.past key t hold

omit [CaseMapping] in
theorem matching_of_index (hindex : s'.engine.byTrigger = s.engine.byTrigger) (botId type : String) :
    s'.engine.matching botId type = s.engine.matching botId type := by
  rw [ScriptEngine.matching, ScriptEngine.matching, hindex]

omit [CaseMapping] in
/-- A script starts in time iff it has an interval that has passed since it last started. -/
theorem keepsIntervals_start_iff (h : Dispatching rt s) (hkeeps : KeepsIntervals s)
    (hindex : s'.engine.byTrigger = s.engine.byTrigger) {botId : String} {script : ScriptConfig Step}
    (hlisted : script ∈ s.engine.matching botId "interval")
    (hruns : s'.runs = Function.update s.runs (botId, scriptKey botId script)
      (s.now :: s.runs (botId, scriptKey botId script))) :
    KeepsIntervals s' ↔ ∃ ms, script.intervalMs = some ms ∧
      ∀ t ∈ s.runs (botId, scriptKey botId script), t + ms ≤ s.now := by
  have hself : s'.runs (botId, scriptKey botId script) =
      (s.now : ℚ) :: s.runs (botId, scriptKey botId script) := by
    rw [hruns, Function.update_self]
  have hold := hkeeps botId script hlisted
  have hpast := h.past (botId, scriptKey botId script)
  constructor
  · intro h'
    have hnew := h' botId script (matching_of_index hindex botId _ ▸ hlisted)
    rw [hself] at hnew
    cases hms : script.intervalMs with
    | none =>
      rw [hms] at hnew
      cases hnew
    | some ms =>
      rw [hms] at hold hnew
      refine ⟨ms, rfl, countRecent_lt_one_iff.mp ?_⟩
      exact (rateAtMost_cons_iff (script.intervalMs_pos hms) hpast hold).mp hnew
  · rintro ⟨ms, hms, htimely⟩ other script' hscript'
    rw [matching_of_index hindex] at hscript'
    by_cases hsame : (other, scriptKey other script') = (botId, scriptKey botId script)
    · obtain ⟨rfl, hkey⟩ := Prod.mk.inj hsame
      obtain rfl := h.listedOnce.eq_of_key hscript' hlisted hkey
      rw [hms] at hold ⊢
      show RateAtMost 1 ms _
      rw [hself]
      exact (rateAtMost_cons_iff (ScriptConfig.intervalMs_pos hms) hpast hold).mpr
        (countRecent_lt_one_iff.mpr htimely)
    · rw [hruns, Function.update_of_ne hsame]
      exact hkeeps other script' hscript'

theorem keepsIntervals_step_iff (h : Dispatching rt s) (hkeeps : KeepsIntervals s)
    (hstep : s.step rt a = some s') : KeepsIntervals s' ↔ Timely rt s a := by
  cases a with
  | wait ms =>
    obtain rfl := Option.some.inj hstep
    exact iff_of_true hkeeps trivial
  | tick t =>
    obtain rfl := Option.some.inj hstep
    exact iff_of_true hkeeps trivial
  | deliver k =>
    obtain ⟨e, -, rfl⟩ := Option.map_eq_some_iff.mp hstep
    exact iff_of_true hkeeps trivial
  | run k sandbox =>
    obtain ⟨⟨botId, script, event⟩, hdue, rfl⟩ := Option.map_eq_some_iff.mp hstep
    have hlisted := h.due _ (List.mem_of_getElem? hdue)
    have hindex := ScriptEngine.byTrigger_runScript rt s.engine.toScriptEngine script botId event
      ⟨s.now, sandbox⟩
    have hran := ran_iff rt s.engine.toScriptEngine script botId event ⟨s.now, sandbox⟩
    by_cases hstarts : ∃ actions, (s.engine.runScript rt script botId event
      ⟨s.now, sandbox⟩).1 = .ran actions
    · obtain ⟨actions, hactions⟩ := hstarts
      refine (keepsIntervals_start_iff h hkeeps hindex hlisted ?_).trans ?_
      · dsimp only
        rw [hactions]
        rfl
      · constructor
        · intro htimely other script' event' hdue' _ _
          obtain ⟨rfl, hrest⟩ := Prod.mk.inj (Option.some.inj (hdue.symm.trans hdue'))
          obtain ⟨rfl, rfl⟩ := Prod.mk.inj hrest
          exact htimely
        · intro htimely
          obtain ⟨hrested, hmatches⟩ := hran.mp ⟨actions, hactions⟩
          exact htimely botId script event hdue hrested hmatches
    · refine iff_of_true ?_ ?_
      · intro other script' hscript'
        rw [matching_of_index (s := s) hindex] at hscript'
        have hnote := noteStart_of_not_ran s.runs (botId, scriptKey botId script) s.now hstarts
        dsimp only
        rw [hnote]
        exact hkeeps other script' hscript'
      · intro other script' event' hdue' hrested hmatches
        obtain ⟨rfl, hrest⟩ := Prod.mk.inj (Option.some.inj (hdue.symm.trans hdue'))
        obtain ⟨rfl, rfl⟩ := Prod.mk.inj hrest
        exact absurd (hran.mpr ⟨hrested, hmatches⟩) hstarts

end Steps

end Dispatcher

section SlowScript

/-- A runtime that knows no expressions. -/
def plainRuntime : ScriptRuntime where
  cachedRegex := fun _ => none
  isExpressionAllowed := fun _ => false
  stringOf := fun _ => none
  inherited := fun _ _ => .undefined

/-- A script of a minute. -/
def slowScript : ScriptConfig Unit where
  id := some "s1"
  trigger := "interval"
  filters := []
  actions := [()]
  cooldown := none
  interval := some 60

def connectedTick : Tick where
  leader := true
  bots := [("b1", "twitch")]
  isConnected := fun _ => some fun _ => true
  timestamp := .null
  stamps := fun _ => []

end SlowScript

end BotHive.Workers
