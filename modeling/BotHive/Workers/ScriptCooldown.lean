import BotHive.Library.Machine
import BotHive.Workers.ScriptEngine

/-!
# Script cooldowns

A `CooldownAudit` runs the engine next to the time at which each script last ran its
actions. The engine itself compares with the last time it stamped a script, and it
stamps before it looks at the filters; the two times agree as long as every event
that finds the script rested also matches.

## Main definitions

- `Attempt`: one script run of a delivered event
- `FiresExactly`: the run starts the actions exactly when the event matches and the
  cooldown since their last start has passed
- `Undisturbed`: the runs that stamp a script only for a match

## Main results

- `execute_eq_foldl_attempts`: a delivery is the sequence of its attempts
- `firesExactly_of_undisturbed`: along undisturbed deliveries every run fires exactly
-/

namespace BotHive.Workers

variable {Step : Type}

/-- A registered script: a bot, an event type and a place among the scripts of both. -/
structure ScriptRef where
  botId : String
  eventType : String
  index : ℕ
  deriving DecidableEq

def ScriptEngine.script? (engine : ScriptEngine Step) (ref : ScriptRef) :
    Option (ScriptConfig Step) :=
  (engine.matching ref.botId ref.eventType)[ref.index]?

/-- One script run of a delivered event. -/
structure Attempt where
  ref : ScriptRef
  event : Event
  moment : Moment

/-- An event delivered to a bot, with the moments at which its scripts run. -/
structure Delivery where
  botId : String
  event : Event
  moments : ℕ → Moment

/-- The engine with the last time at which each script ran its actions. -/
structure CooldownAudit (Step : Type) where
  engine : ScriptEngine Step
  lastRun : ScriptRef → Option ℤ

/-- The engine with its registered scripts before the first event. -/
def CooldownAudit.start (byTrigger : InsertionMap String (List (ScriptConfig Step))) :
    CooldownAudit Step :=
  ⟨⟨byTrigger, .empty⟩, fun _ => none⟩

/-- The last starts of the actions after a run with the given outcome. -/
def noteRun (lastRun : ScriptRef → Option ℤ) (attempt : Attempt) :
    RunOutcome Step → ScriptRef → Option ℤ
  | .ran _ => Function.update lastRun attempt.ref (some attempt.moment.now)
  | _ => lastRun

theorem noteRun_self (lastRun : ScriptRef → Option ℤ) (attempt : Attempt) (actions : List Step) :
    noteRun lastRun attempt (.ran actions) attempt.ref = some attempt.moment.now :=
  Function.update_self ..

theorem noteRun_of_ne {lastRun : ScriptRef → Option ℤ} {attempt : Attempt}
    {ref : ScriptRef} (h : ref ≠ attempt.ref)
    (outcome : RunOutcome Step) : noteRun lastRun attempt outcome ref = lastRun ref := by
  cases outcome with
  | ran actions => exact Function.update_of_ne h _ _
  | _ => rfl

section Audit

variable [CaseMapping] (rt : ScriptRuntime)

def Delivery.attempts (engine : ScriptEngine Step) (d : Delivery) : List Attempt :=
  match rt.text (eventField rt d.event "type") with
  | none => []
  | some eventType =>
    (engine.matching d.botId eventType).zipIdx.map fun e =>
      ⟨⟨d.botId, eventType, e.2⟩, d.event, d.moments e.2⟩

def CooldownAudit.step (audit : CooldownAudit Step) (attempt : Attempt) : CooldownAudit Step :=
  match audit.engine.script? attempt.ref with
  | none => audit
  | some script =>
    let (outcome, engine) :=
      audit.engine.runScript rt script attempt.ref.botId attempt.event attempt.moment
    ⟨engine, noteRun audit.lastRun attempt outcome⟩

/-- The actions of a script with a cooldown run exactly when its filters match and
    the cooldown has passed since they last ran, if they ever did. -/
def FiresExactly (audit : CooldownAudit Step) (attempt : Attempt) : Prop :=
  ∀ script ms, audit.engine.script? attempt.ref = some script → script.cooldownMs = some ms →
    ((∃ actions, (audit.engine.runScript rt script attempt.ref.botId attempt.event
        attempt.moment).1 = .ran actions) ↔
      matchesFilters rt attempt.event attempt.moment script.filters = some true ∧
        ∀ t, audit.lastRun attempt.ref = some t → ms ≤ ((attempt.moment.now - t : ℤ) : ℚ))

/-- No other script with a cooldown shares the key of this one. -/
def OwnsKey (engine : ScriptEngine Step) (ref : ScriptRef) (script : ScriptConfig Step) : Prop :=
  ∀ ref' script', engine.script? ref' = some script' → script'.cooldownMs.isSome →
    scriptKey ref'.botId script' = scriptKey ref.botId script → ref' = ref

/-- A script that was never stamped runs at least its cooldown after the epoch, and
    a script that is not cooling down matches and has its key for itself. -/
def Undisturbed (audit : CooldownAudit Step) (attempt : Attempt) : Prop :=
  ∀ script ms, audit.engine.script? attempt.ref = some script → script.cooldownMs = some ms →
    let key := scriptKey attempt.ref.botId script
    (audit.engine.cooldowns.get key = none → ms ≤ attempt.moment.now) ∧
      (ms ≤ ((attempt.moment.now - audit.engine.lastStamp key : ℤ) : ℚ) →
        matchesFilters rt attempt.event attempt.moment script.filters = some true ∧
          OwnsKey audit.engine attempt.ref script)

/-- Every script with a cooldown was last stamped when its actions last ran. -/
def Stamped (audit : CooldownAudit Step) : Prop :=
  ∀ ref script, audit.engine.script? ref = some script → script.cooldownMs.isSome →
    audit.engine.cooldowns.get (scriptKey ref.botId script) = audit.lastRun ref

theorem script?_runScript (engine : ScriptEngine Step) (script : ScriptConfig Step)
    (botId : String) (event : Event) (moment : Moment) (ref : ScriptRef) :
    (engine.runScript rt script botId event moment).2.script? ref = engine.script? ref := by
  rw [ScriptEngine.script?, ScriptEngine.matching, ScriptEngine.byTrigger_runScript]
  rfl

/-- A delivery runs the engine through its attempts, whatever the audit remembers. -/
theorem execute_eq_foldl_attempts (engine : ScriptEngine Step)
    (lastRun : ScriptRef → Option ℤ) (d : Delivery) :
    engine.execute rt d.botId d.event d.moments =
      ((d.attempts rt engine).foldl (CooldownAudit.step rt) ⟨engine, lastRun⟩).engine := by
  rw [ScriptEngine.execute, ScriptEngine.concerned, Delivery.attempts]
  cases rt.text (eventField rt d.event "type") with
  | none => rfl
  | some eventType =>
    dsimp only
    rw [List.foldl_map]
    have hscripts : ∀ e ∈ (engine.matching d.botId eventType).zipIdx,
        engine.script? ⟨d.botId, eventType, e.2⟩ = some e.1 :=
      fun e he => List.mk_mem_zipIdx_iff_getElem?.mp he
    generalize (engine.matching d.botId eventType).zipIdx = es at hscripts ⊢
    induction es generalizing engine lastRun with
    | nil => rfl
    | cons e rest ih =>
      rw [List.foldl_cons, List.foldl_cons]
      have hstep : CooldownAudit.step rt ⟨engine, lastRun⟩
          ⟨⟨d.botId, eventType, e.2⟩, d.event, d.moments e.2⟩ =
            ⟨(engine.runScript rt e.1 d.botId d.event (d.moments e.2)).2,
              noteRun lastRun ⟨⟨d.botId, eventType, e.2⟩, d.event, d.moments e.2⟩
                (engine.runScript rt e.1 d.botId d.event (d.moments e.2)).1⟩ := by
        rw [CooldownAudit.step, hscripts e List.mem_cons_self]
      rw [hstep]
      apply ih
      intro e' he'
      rw [script?_runScript]
      exact hscripts e' (List.mem_cons_of_mem e he')

variable {rt} {audit : CooldownAudit Step} {attempt : Attempt} {script : ScriptConfig Step}

theorem runFiltered_of_matches
    (h : matchesFilters rt attempt.event attempt.moment script.filters = some true) :
    ScriptEngine.runFiltered rt script attempt.event attempt.moment = .ran script.actions := by
  rw [ScriptEngine.runFiltered, h]

theorem step_of_script (h : audit.engine.script? attempt.ref = some script) :
    CooldownAudit.step rt audit attempt =
      ⟨(audit.engine.runScript rt script attempt.ref.botId attempt.event attempt.moment).2,
        noteRun audit.lastRun attempt
          (audit.engine.runScript rt script attempt.ref.botId attempt.event attempt.moment).1⟩ := by
  rw [CooldownAudit.step, h]

theorem byTrigger_step (audit : CooldownAudit Step) (attempt : Attempt) :
    (CooldownAudit.step rt audit attempt).engine.byTrigger = audit.engine.byTrigger := by
  cases hscript : audit.engine.script? attempt.ref with
  | none => rw [CooldownAudit.step, hscript]
  | some script =>
    rw [step_of_script hscript]
    exact ScriptEngine.byTrigger_runScript ..

theorem script?_step (audit : CooldownAudit Step) (attempt : Attempt) (ref : ScriptRef) :
    (CooldownAudit.step rt audit attempt).engine.script? ref = audit.engine.script? ref := by
  rw [ScriptEngine.script?, ScriptEngine.matching, byTrigger_step]
  rfl

/-- An undisturbed run leaves every script stamped when its actions last ran. -/
theorem stamped_step (hinv : Stamped audit) (hok : Undisturbed rt audit attempt) :
    Stamped (CooldownAudit.step rt audit attempt) := by
  cases hscript : audit.engine.script? attempt.ref with
  | none =>
    rw [CooldownAudit.step, hscript]
    exact hinv
  | some script =>
    rw [step_of_script hscript]
    intro ref' script' hscript' hcooldown'
    rw [script?_runScript] at hscript'
    have hold := hinv ref' script' hscript' hcooldown'
    cases hms : script.cooldownMs with
    | none =>
      -- a script without cooldown is not stamped, and it is not the one in question
      have hne : ref' ≠ attempt.ref := by
        rintro rfl
        rw [hscript, Option.some.injEq] at hscript'
        rw [← hscript', hms] at hcooldown'
        cases hcooldown'
      rw [ScriptEngine.runScript_of_no_cooldown rt hms]
      exact hold.trans (noteRun_of_ne hne _).symm
    | some ms =>
      by_cases hcooling : ((attempt.moment.now -
          audit.engine.lastStamp (scriptKey attempt.ref.botId script) : ℤ) : ℚ) < ms
      · rw [ScriptEngine.runScript_of_cooling rt hms hcooling]
        exact hold
      · obtain ⟨hmatch, howns⟩ := (hok script ms hscript hms).2 (not_lt.mp hcooling)
        rw [ScriptEngine.runScript_of_rested rt hms hcooling, runFiltered_of_matches hmatch]
        by_cases hne : ref' = attempt.ref
        · subst hne
          rw [hscript, Option.some.injEq] at hscript'
          subst hscript'
          dsimp only
          rw [InsertionMap.get_set_self, noteRun_self]
        · have hkey : scriptKey ref'.botId script' ≠ scriptKey attempt.ref.botId script :=
            fun hc => hne (howns ref' script' hscript' hcooldown' hc)
          dsimp only
          rw [InsertionMap.get_set_of_ne _ _ hkey, noteRun_of_ne hne]
          exact hold

/-- An undisturbed run of a script that was stamped with its last start fires exactly. -/
theorem firesExactly_of_stamped (hinv : Stamped audit) (hok : Undisturbed rt audit attempt) :
    FiresExactly rt audit attempt := by
  intro script ms hscript hms
  obtain ⟨hepoch, hrested⟩ := hok script ms hscript hms
  have hstamp := hinv attempt.ref script hscript (by rw [hms]; rfl)
  by_cases hcooling : ((attempt.moment.now -
      audit.engine.lastStamp (scriptKey attempt.ref.botId script) : ℤ) : ℚ) < ms
  · rw [ScriptEngine.runScript_of_cooling rt hms hcooling]
    refine iff_of_false nofun ?_
    rintro ⟨_, hpassed⟩
    rw [ScriptEngine.lastStamp] at hcooling
    cases hget : audit.engine.cooldowns.get (scriptKey attempt.ref.botId script) with
    | none =>
      rw [hget, Option.getD_none, sub_zero] at hcooling
      exact absurd (hepoch hget) (not_le.mpr hcooling)
    | some t =>
      rw [hget, Option.getD_some] at hcooling
      exact absurd (hpassed t (hstamp.symm.trans hget)) (not_le.mpr hcooling)
  · obtain ⟨hmatch, _⟩ := hrested (not_lt.mp hcooling)
    rw [ScriptEngine.runScript_of_rested rt hms hcooling, runFiltered_of_matches hmatch]
    refine iff_of_true ⟨script.actions, rfl⟩ ⟨hmatch, ?_⟩
    intro t ht
    rw [ScriptEngine.lastStamp, hstamp, ht, Option.getD_some] at hcooling
    exact not_lt.mp hcooling

/-- **Cooldown**: along undisturbed deliveries every run starts the actions exactly
    when its event matches and the cooldown has passed since they last ran. -/
theorem firesExactly_of_undisturbed
    (byTrigger : InsertionMap String (List (ScriptConfig Step))) (deliveries : List Delivery)
    (hok : Machine.Along (Machine.total (CooldownAudit.step rt)) (Undisturbed rt)
      (.start byTrigger) (deliveries.flatMap (Delivery.attempts rt ⟨byTrigger, .empty⟩))) :
    Machine.Along (Machine.total (CooldownAudit.step rt)) (FiresExactly rt)
      (.start byTrigger) (deliveries.flatMap (Delivery.attempts rt ⟨byTrigger, .empty⟩)) := by
  refine Machine.along_of_invariant Stamped ?_ ?_ ?_ hok
  · rintro audit attempt _ hinv hundisturbed ⟨⟩
    exact stamped_step hinv hundisturbed
  · intro audit attempt _ hinv hundisturbed _
    exact firesExactly_of_stamped hinv hundisturbed
  · intro ref script _ _
    rfl

end Audit

section Greeting

/-- A runtime for events and filters whose values are all texts and whose patterns
    are all literal. -/
def literalRuntime : ScriptRuntime where
  cachedRegex pattern := some fun text => includes (toLowerCase text) (toLowerCase pattern)
  isExpressionAllowed _ := false
  stringOf _ := none
  inherited _ _ := .undefined

/-- A script that answers messages with the word hello at most every ten seconds. -/
def greeting : ScriptConfig String where
  id := none
  trigger := "message"
  filters := [⟨.keyword, none, "hello"⟩]
  actions := ["reply"]
  cooldown := some 10

def greetingScripts : InsertionMap String (List (ScriptConfig String)) :=
  .ofList [("bot:message", [greeting])]

/-- A message to the bot at a time in milliseconds. -/
def messageAt (now : ℤ) (text : String) : Delivery where
  botId := "bot"
  event := [("type", .str "message"), ("text", .str text)]
  moments _ := ⟨now, fun _ => none⟩

theorem script?_greetingScripts {cooldowns : InsertionMap String ℤ} {ref : ScriptRef}
    {script : ScriptConfig String}
    (h : (ScriptEngine.mk greetingScripts cooldowns).script? ref = some script) :
    triggerKey ref.botId ref.eventType = "bot:message" ∧ ref.index = 0 ∧ script = greeting := by
  rw [ScriptEngine.script?, ScriptEngine.matching, greetingScripts, InsertionMap.ofList,
    List.foldl_cons, List.foldl_nil, InsertionMap.get_set] at h
  split_ifs at h with hkey
  · cases hi : ref.index with
    | zero =>
      rw [hi] at h
      exact ⟨hkey, rfl, (Option.some.inj h).symm⟩
    | succ i =>
      rw [hi] at h
      cases h
  · cases h

theorem ownsKey_greeting (cooldowns : InsertionMap String ℤ) :
    OwnsKey ⟨greetingScripts, cooldowns⟩ ⟨"bot", "message", 0⟩ greeting := by
  rintro ⟨botId, eventType, index⟩ script' hscript' _ hkey
  obtain ⟨htrigger, hindex, rfl⟩ := script?_greetingScripts hscript'
  have hbot : botId = "bot" := by
    have hlists := congrArg String.toList hkey
    simp only [scriptKey, greeting, String.toList_append, List.append_cancel_right_eq] at hlists
    exact String.toList_injective hlists
  have htype : eventType = "message" := by
    subst hbot
    have hlists := congrArg String.toList htrigger
    have hsplit : "bot:message" = "bot" ++ ":" ++ "message" := by decide
    rw [hsplit] at hlists
    simp only [triggerKey, String.toList_append, List.append_cancel_left_eq] at hlists
    exact String.toList_injective hlists
  rw [hbot, htype, ← hindex]

theorem undisturbed_greeting {audit : CooldownAudit String} {attempt : Attempt}
    (hscripts : audit.engine.byTrigger = greetingScripts)
    (href : attempt.ref = ⟨"bot", "message", 0⟩)
    (hepoch : audit.engine.cooldowns.get "bot:message" = none → 10000 ≤ attempt.moment.now)
    (hmatch : 10000 ≤ attempt.moment.now - audit.engine.lastStamp "bot:message" →
      matchesFilters literalRuntime attempt.event attempt.moment greeting.filters = some true) :
    Undisturbed literalRuntime audit attempt := by
  obtain ⟨⟨byTrigger, cooldowns⟩, lastRun⟩ := audit
  obtain ⟨ref, event, moment⟩ := attempt
  dsimp only at hscripts href hepoch hmatch
  subst hscripts href
  intro script ms hscript hms
  obtain ⟨_, _, rfl⟩ := script?_greetingScripts hscript
  have hms' : greeting.cooldownMs = some 10000 := by decide +kernel
  rw [hms', Option.some.injEq] at hms
  subst hms
  refine ⟨fun hnone => ?_, fun hrested => ⟨hmatch ?_, ownsKey_greeting cooldowns⟩⟩
  · exact_mod_cast hepoch hnone
  · exact_mod_cast hrested

/-- Two greetings ten seconds apart with another message in between. -/
theorem firesExactly_of_two_greetings :
    Machine.Along (Machine.total (CooldownAudit.step literalRuntime))
      (FiresExactly literalRuntime) (.start greetingScripts)
      ([messageAt 1700000000000 "hello", messageAt 1700000001000 "bye",
        messageAt 1700000010000 "Hello again"].flatMap
          (Delivery.attempts literalRuntime ⟨greetingScripts, .empty⟩)) := by
  apply firesExactly_of_undisturbed
  rintro _ ⟨⟩
  refine ⟨undisturbed_greeting rfl rfl (by decide) (by decide), ?_⟩
  rintro _ ⟨⟩
  refine ⟨undisturbed_greeting (by rw [byTrigger_step]; rfl) rfl (by decide +kernel)
    (by decide +kernel), ?_⟩
  rintro _ ⟨⟩
  refine ⟨undisturbed_greeting (by rw [byTrigger_step, byTrigger_step]; rfl) rfl
    (by decide +kernel) (by decide +kernel), trivial⟩

/-- A message without the word silences the script for the greeting a second later. -/
theorem firesExactly_fails_after_other_message :
    ¬ Machine.Along (Machine.total (CooldownAudit.step literalRuntime))
      (FiresExactly literalRuntime) (.start greetingScripts)
      ([messageAt 1700000000000 "bye", messageAt 1700000001000 "hello"].flatMap
        (Delivery.attempts literalRuntime ⟨greetingScripts, .empty⟩)) := by
  intro h
  obtain ⟨_, hsecond⟩ := h _ rfl
  have hexact := (hsecond _ rfl).1 greeting 10000 ((script?_step ..).trans rfl) (by decide +kernel)
  obtain ⟨actions, hran⟩ := hexact.mpr ⟨by decide +kernel, by decide +kernel⟩
  have hcooling : (RunOutcome.ran actions : RunOutcome String) = .cooling :=
    hran.symm.trans (by decide +kernel)
  cases hcooling

end Greeting

end BotHive.Workers
