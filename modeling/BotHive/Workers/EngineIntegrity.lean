import BotHive.Workers.EngineState
import BotHive.Workers.ScriptCooldown

/-!
# The integrity of the engine maps

The scripts map is keyed by bot, trigger and script id, the index by bot and trigger, and the
cooldowns by the keys of the scripts. The keys are texts, and a trigger with a colon in it
makes them ambiguous: two scripts may share a key, and a rebuilt index lists a script under the
front of its trigger. `unregister` removes a cooldown under the bot id itself, which is no key
of a script.

## Main definitions

- `EngineState.Unambiguous`: no operation meets two scripts of one key, an index that a
  rebuild would change, or a cooldown of the bot that it takes out

## Main results

- `EngineState.register_grouped_iff`, `unregister_intact_iff`: when an operation leaves the maps in
  agreement
- `EngineState.intact_iff_unambiguous`: the engine maps are intact along exactly these runs
-/

namespace BotHive.Workers

open ScriptRegistry (ownedBy)

section Keys

theorem toList_scriptKey {Step : Type} (botId : String) (script : ScriptConfig Step) :
    ∃ tail, (scriptKey botId script).toList = botId.toList ++ ':' :: tail := by
  rw [scriptKey]
  cases script.id with
  | none => exact ⟨_, by simp [String.toList_append]; rfl⟩
  | some id =>
    by_cases hid : id = ""
    · exact ⟨_, by simp [hid, String.toList_append]; rfl⟩
    · exact ⟨_, by simp [hid, String.toList_append]; rfl⟩

/-- The first part of a text in which a colon follows a name. -/
theorem firstPart_of_toList {key name : String} (hname : Plain name) {tail : List Char}
    (h : key.toList = name.toList ++ ':' :: tail) : firstPart key = name := by
  rw [firstPart, h, takeWhile_ne_append hname]
  simp

@[simp] theorem firstPart_scriptKey {Step : Type} (botId : PlainId) (script : ScriptConfig Step) :
    firstPart (scriptKey botId.1 script) = botId.1 := by
  obtain ⟨tail, h⟩ := toList_scriptKey botId.1 script
  exact firstPart_of_toList botId.2 h

@[simp] theorem firstPart_triggerKey (botId : PlainId) (trigger : String) :
    firstPart (triggerKey botId.1 trigger) = botId.1 :=
  firstPart_of_toList botId.2 (toList_triggerKey botId.1 trigger)

theorem plain_firstPart (key : String) : Plain (firstPart key) := by
  intro h
  rw [firstPart, String.toList_ofList] at h
  simpa using List.mem_takeWhile_imp h

theorem plain_secondPart (key : String) : Plain (secondPart key) := by
  intro h
  rw [secondPart, String.toList_ofList] at h
  simpa using List.mem_takeWhile_imp h

/-- Between plain bot ids, an index key tells bot and trigger apart, whatever the trigger is. -/
theorem triggerKey_eq_iff (botId botId' : PlainId) (trigger trigger' : String) :
    triggerKey botId.1 trigger = triggerKey botId'.1 trigger' ↔
      botId = botId' ∧ trigger = trigger' := by
  constructor
  · intro h
    have hlist := congrArg String.toList h
    rw [toList_triggerKey, toList_triggerKey, append_separator_inj botId.2 botId'.2] at hlist
    exact ⟨Subtype.ext (String.toList_injective hlist.1), String.toList_injective hlist.2⟩
  · rintro ⟨rfl, rfl⟩
    rfl

/-- A key that begins with a bot id and a colon belongs to that bot only. -/
theorem ownedBy_iff_of_toList {key : String} {owner : PlainId} {tail : List Char}
    (h : key.toList = owner.1.toList ++ ':' :: tail) (botId : PlainId) :
    ownedBy botId.1 key = true ↔ owner = botId := by
  rw [ownedBy, decide_eq_true_eq]
  constructor
  · rintro (hkey | ⟨rest, hrest⟩)
    · have hcolon : ':' ∈ key.toList := by
        rw [h]
        simp
      exact absurd (hkey ▸ hcolon) botId.2
    · have hbot : key.toList = botId.1.toList ++ ':' :: rest := by
        rw [← hrest, String.toList_append]
        simp
      refine Subtype.ext ?_
      rw [← firstPart_of_toList owner.2 h, firstPart_of_toList botId.2 hbot]
  · rintro rfl
    refine Or.inr ⟨tail, ?_⟩
    rw [h, String.toList_append]
    simp

@[simp] theorem ownedBy_scriptKey {Step : Type} (botId owner : PlainId)
    (script : ScriptConfig Step) :
    ownedBy botId.1 (scriptKey owner.1 script) = true ↔ owner = botId := by
  obtain ⟨tail, h⟩ := toList_scriptKey owner.1 script
  exact ownedBy_iff_of_toList h botId

@[simp] theorem ownedBy_triggerKey (botId owner : PlainId) (trigger : String) :
    ownedBy botId.1 (triggerKey owner.1 trigger) = true ↔ owner = botId :=
  ownedBy_iff_of_toList (toList_triggerKey owner.1 trigger) botId

/-- The second part of a key is its trigger, if the trigger has no colon. -/
theorem secondPart_scriptKey {Step : Type} (botId : PlainId) {script : ScriptConfig Step}
    (h : Plain script.trigger) : secondPart (scriptKey botId.1 script) = script.trigger :=
  Registration.secondPart_key ⟨botId.1, script, botId.2, h⟩

end Keys

namespace EngineState

variable {Step : Type} {s : EngineState Step}

/-- The scripts map holds every script under its key. -/
def Keyed (s : EngineState Step) : Prop :=
  ∀ e ∈ s.scripts.entries, ∃ botId : PlainId, e.1 = scriptKey botId.1 e.2

/-- What an operation must not meet: another script of the same key under another trigger; or,
    when a bot is taken out, a cooldown of the bot, a script of another bot whose trigger the key
    does not show, and an index entry of another bot that is not in the order of the scripts map. -/
def Unambiguous (s : EngineState Step) : EngineOp Step → Prop
  | .register botId config =>
    ∀ old ∈ s.scripts.get (scriptKey botId.1 config), old.trigger = config.trigger
  | .unregister botId =>
    (∀ key ∈ s.cooldowns.keys, ownedBy botId.1 key = true → key = botId.1) ∧
      ∀ other, other ≠ botId → (∀ script ∈ s.scriptsOf other, Plain script.trigger) ∧
        ∀ trigger, s.entry other trigger = s.grouping other trigger
  | _ => True

section Scripts

/-- A script key of the map shows whose it is. -/
theorem Keyed.eq_scriptKey_iff (h : s.Keyed) {e : String × ScriptConfig Step}
    (he : e ∈ s.scripts.entries) (botId : PlainId) :
    e.1 = scriptKey botId.1 e.2 ↔ firstPart e.1 = botId.1 := by
  obtain ⟨owner, howner⟩ := h e he
  constructor
  · intro heq
    rw [heq, firstPart_scriptKey]
  · intro hfirst
    rw [howner, firstPart_scriptKey] at hfirst
    rwa [← Subtype.ext hfirst]

theorem mem_scriptsOf {botId : PlainId} {script : ScriptConfig Step} :
    script ∈ s.scriptsOf botId ↔ s.scripts.get (scriptKey botId.1 script) = some script := by
  rw [scriptsOf, List.mem_map]
  constructor
  · rintro ⟨e, he, rfl⟩
    obtain ⟨hmem, hkey⟩ := List.mem_filter.mp he
    rw [decide_eq_true_eq] at hkey
    rw [← hkey]
    exact (s.scripts.mem_entries_iff e.1 e.2).mp hmem
  · intro h
    refine ⟨(scriptKey botId.1 script, script), List.mem_filter.mpr ⟨?_, ?_⟩, rfl⟩
    · exact (s.scripts.mem_entries_iff _ script).mpr h
    · exact decide_eq_true rfl

theorem mem_grouping {botId : PlainId} {trigger : String} {script : ScriptConfig Step} :
    script ∈ s.grouping botId trigger ↔
      s.scripts.get (scriptKey botId.1 script) = some script ∧ script.trigger = trigger := by
  rw [grouping, List.mem_filter, mem_scriptsOf, decide_eq_true_eq]

/-- An entry of the scripts map is a script of a bot under a trigger. -/
def isOf (botId : PlainId) (trigger : String) (e : String × ScriptConfig Step) : Bool :=
  e.1 = scriptKey botId.1 e.2 ∧ e.2.trigger = trigger

theorem isOf_iff {botId : PlainId} {trigger : String} {e : String × ScriptConfig Step} :
    isOf botId trigger e = true ↔ e.1 = scriptKey botId.1 e.2 ∧ e.2.trigger = trigger :=
  decide_eq_true_iff

/-- The scripts of a bot under a trigger, as entries of the scripts map. -/
theorem grouping_eq (s : EngineState Step) (botId : PlainId) (trigger : String) :
    s.grouping botId trigger = (s.scripts.entries.filter (isOf botId trigger)).map Prod.snd := by
  rw [grouping, scriptsOf, List.filter_map, List.filter_filter]
  refine congrArg _ (List.filter_congr fun e _ => ?_)
  rw [Bool.eq_iff_iff, isOf_iff, Bool.and_eq_true, decide_eq_true_eq, and_comm]
  exact and_congr_right' decide_eq_true_iff

theorem nodup_eraseDups {α : Type*} [DecidableEq α] (l : List α) : l.eraseDups.Nodup := by
  induction hn : l.length using Nat.strong_induction_on generalizing l with
  | h n ih =>
    cases l with
    | nil => exact List.nodup_nil
    | cons a rest =>
      rw [List.eraseDups_cons, List.nodup_cons]
      refine ⟨by simp, ih _ ?_ _ rfl⟩
      rw [← hn]
      exact Nat.lt_succ_of_le (List.length_filter_le _ _)

/-- The key of a script begins with its bot, so the bots with a periodic script are found. -/
theorem Keyed.intervalsFound (h : s.Keyed) : s.IntervalsFound := by
  refine ⟨nodup_eraseDups _, fun x => ?_⟩
  rw [intervalBots, List.mem_eraseDups, List.mem_map]
  constructor
  · rintro ⟨e, he, rfl⟩
    obtain ⟨hmem, hperiodic⟩ := List.mem_filter.mp he
    obtain ⟨botId, hkey⟩ := h e hmem
    refine ⟨botId, ?_, e.2, ?_, hperiodic⟩
    · rw [hkey, firstPart_scriptKey]
    · rw [mem_scriptsOf, ← hkey]
      exact (s.scripts.mem_entries_iff e.1 e.2).mp hmem
  · rintro ⟨botId, rfl, script, hscript, hperiodic⟩
    refine ⟨(scriptKey botId.1 script, script), List.mem_filter.mpr ⟨?_, hperiodic⟩,
      firstPart_scriptKey botId script⟩
    exact (s.scripts.mem_entries_iff _ script).mpr (mem_scriptsOf.mp hscript)

end Scripts

section Register

variable {botId : PlainId} {config : ScriptConfig Step}

@[simp] theorem toScriptRegistry_withCounters (s : EngineState Step) (botId : PlainId) :
    (s.withCounters botId).toScriptRegistry = s.toScriptRegistry := by
  rw [withCounters]
  split_ifs <;> rfl

@[simp] theorem scripts_register :
    (s.register botId config).scripts = s.scripts.set (scriptKey botId.1 config) config := by
  rw [register, toScriptRegistry_withCounters, ScriptRegistry.register]

theorem entry_register (other : PlainId) (trigger : String) :
    (s.register botId config).entry other trigger =
      if other = botId ∧ trigger = config.trigger then
        (s.entry botId config.trigger).filter
          (fun script => scriptKey botId.1 script ≠ scriptKey botId.1 config) ++ [config]
      else s.entry other trigger := by
  rw [entry, register, toScriptRegistry_withCounters, ScriptRegistry.register]
  dsimp only
  rw [InsertionMap.get_set]
  simp only [triggerKey_eq_iff]
  split_ifs <;> rfl

theorem Keyed.register (h : s.Keyed) (botId : PlainId) (config : ScriptConfig Step) :
    (s.register botId config).Keyed := by
  intro e he
  rw [scripts_register, InsertionMap.mem_entries_iff, InsertionMap.get_set] at he
  split_ifs at he with hkey
  · rw [← Option.some.inj he]
    exact ⟨botId, hkey⟩
  · exact h e ((s.scripts.mem_entries_iff _ _).mpr he)

/-- The scripts of a bot under a trigger that are not stored under a given key. -/
theorem grouping_register (other : PlainId) (trigger : String) :
    ((s.register botId config).grouping other trigger).Perm
      ((if other = botId ∧ trigger = config.trigger then [config] else []) ++
        (s.grouping other trigger).filter fun script =>
          scriptKey other.1 script ≠ scriptKey botId.1 config) := by
  rw [grouping_eq, grouping_eq, scripts_register]
  refine (((s.scripts.perm_entries_set _ _).filter _).map _).trans (.of_eq ?_)
  have hrest : (s.scripts.entries.filter fun e => e.1 ≠ scriptKey botId.1 config).filter
        (isOf other trigger) =
      (s.scripts.entries.filter (isOf other trigger)).filter
        fun e => scriptKey other.1 e.2 ≠ scriptKey botId.1 config := by
    rw [List.filter_filter, List.filter_filter]
    refine List.filter_congr fun e _ => ?_
    rw [Bool.eq_iff_iff, Bool.and_eq_true, Bool.and_eq_true, isOf_iff, decide_eq_true_eq,
      decide_eq_true_eq, and_comm]
    refine and_congr_left fun hof => ?_
    rw [hof.1]
  have hnew : isOf other trigger (scriptKey botId.1 config, config) = true ↔
      other = botId ∧ trigger = config.trigger := by
    rw [isOf_iff, eq_comm (a := config.trigger)]
    refine and_congr_left' ⟨fun hkey => ?_, ?_⟩
    · rw [← ownedBy_scriptKey botId other config, ← hkey, ownedBy_scriptKey]
    · rintro rfl
      rfl
  rw [InsertionMap.entries_delete, List.filter_map]
  by_cases hsame : other = botId ∧ trigger = config.trigger
  · rw [if_pos hsame, List.filter_cons_of_pos (hnew.mpr hsame), hrest]
    rfl
  · rw [if_neg hsame, List.filter_cons_of_neg fun h => hsame (hnew.mp h), hrest]
    rfl

/-- Registering a script leaves the index in agreement exactly when its key is not that of a script
    with another trigger. -/
theorem register_grouped_iff (hkeyed : s.Keyed) (hgrouped : s.Grouped) (botId : PlainId)
    (config : ScriptConfig Step) :
    (s.register botId config).Grouped ↔ s.Unambiguous (.register botId config) := by
  constructor
  · intro h old hold
    by_contra hne
    have hget : s.scripts.get (scriptKey botId.1 config) = some old := hold
    have hkey : scriptKey botId.1 config = scriptKey botId.1 old := by
      have hmem := (s.scripts.mem_entries_iff (scriptKey botId.1 config) old).mpr hget
      exact (hkeyed.eq_scriptKey_iff hmem botId).mpr (firstPart_scriptKey botId config)
    have hlisted : old ∈ (s.register botId config).entry botId old.trigger := by
      rw [entry_register, if_neg fun hor => hne hor.2]
      exact (hgrouped botId old.trigger).mem_iff.mpr (mem_grouping.mpr ⟨hkey ▸ hget, rfl⟩)
    have hstored := (mem_grouping.mp ((h botId old.trigger).mem_iff.mp hlisted)).1
    rw [scripts_register, ← hkey, InsertionMap.get_set, if_pos rfl] at hstored
    exact hne (congrArg ScriptConfig.trigger (Option.some.inj hstored)).symm
  · intro h other trigger
    refine List.Perm.trans ?_ (grouping_register other trigger).symm
    rw [entry_register]
    split_ifs with hsame
    · obtain ⟨rfl, rfl⟩ := hsame
      refine List.perm_append_comm.trans (List.Perm.append_left _ ?_)
      exact (hgrouped _ _).filter _
    · rw [List.nil_append, List.filter_eq_self.mpr ?_]
      · exact hgrouped other trigger
      · intro script hscript
        obtain ⟨hget, rfl⟩ := mem_grouping.mp hscript
        refine decide_eq_true fun hkey => hsame ⟨?_, ?_⟩
        · have hfirst := congrArg firstPart hkey
          rw [firstPart_scriptKey, firstPart_scriptKey] at hfirst
          exact Subtype.ext hfirst
        · exact h script (hkey ▸ hget)

end Register

section Unregister

variable {botId : PlainId}

theorem entries_unregister (s : EngineState Step) (botId : PlainId) :
    (s.unregister botId).scripts.entries =
      s.scripts.entries.filter fun e => !ownedBy botId.1 e.1 := by
  rw [unregister, ScriptRegistry.unregister, InsertionMap.entries_foldl_delete_filter]

theorem Keyed.unregister (h : s.Keyed) (botId : PlainId) : (s.unregister botId).Keyed := by
  intro e he
  rw [entries_unregister] at he
  exact h e (List.mem_of_mem_filter he)

/-- The index entries that a rebuild makes. -/
theorem entry_unregister (s : EngineState Step) (botId other : PlainId) (trigger : String) :
    (s.unregister botId).entry other trigger =
      ((s.unregister botId).scripts.entries.filter fun e =>
        firstPart e.1 = other.1 ∧ secondPart e.1 = trigger).map Prod.snd := by
  rw [entry, unregister, ScriptRegistry.unregister, ScriptRegistry.rebuildIndex,
    ScriptRegistry.getD_foldl_addToIndex, InsertionMap.get_empty, Option.getD_none,
    List.nil_append]
  refine congrArg _ (List.filter_congr fun e _ => ?_)
  rw [Bool.eq_iff_iff, decide_eq_true_eq, decide_eq_true_eq,
    triggerKey_eq_iff ⟨firstPart e.1, plain_firstPart e.1⟩ other, Subtype.ext_iff]

/-- The keys of a rebuilt index come from the scripts. -/
theorem mem_keys_rebuildIndex {entries : List (String × ScriptConfig Step)}
    {index : InsertionMap String (List (ScriptConfig Step))} {key : String}
    (h : key ∈ (entries.foldl (fun index e => ScriptRegistry.addToIndex index
      (triggerKey (firstPart e.1) (secondPart e.1)) e.2) index).keys) :
    key ∈ index.keys ∨ ∃ e ∈ entries, key = triggerKey (firstPart e.1) (secondPart e.1) := by
  induction entries generalizing index with
  | nil => exact Or.inl h
  | cons e rest ih =>
    rcases ih h with hkey | ⟨e', he', hkey⟩
    · rcases (InsertionMap.mem_keys_write _ _ _ key).mp hkey with hkey | hkey
      · exact Or.inr ⟨e, List.mem_cons_self, hkey⟩
      · exact Or.inl hkey
    · exact Or.inr ⟨e', List.mem_cons_of_mem e he', hkey⟩

/-- A script that stays belongs to another bot. -/
theorem Keyed.mem_unregister (h : s.Keyed) {e : String × ScriptConfig Step} :
    e ∈ (s.unregister botId).scripts.entries ↔
      e ∈ s.scripts.entries ∧ firstPart e.1 ≠ botId.1 := by
  rw [entries_unregister, List.mem_filter]
  refine and_congr_right fun he => ?_
  obtain ⟨owner, hkey⟩ := h e he
  rw [hkey, firstPart_scriptKey, Bool.not_eq_true', ← Bool.not_eq_true, ownedBy_scriptKey,
    Subtype.ext_iff]

/-- `unregister` takes everything of the bot out except for the cooldowns of its scripts. -/
theorem Keyed.gone_iff (h : s.Keyed) :
    Gone botId (s.unregister botId) ↔
      ∀ key ∈ s.cooldowns.keys, ownedBy botId.1 key = true → key = botId.1 := by
  have hcooldowns : ∀ key, key ∈ (s.unregister botId).cooldowns.keys ↔
      key ∈ s.cooldowns.keys ∧ key ≠ botId.1 := by
    intro key
    rw [InsertionMap.mem_keys_iff, InsertionMap.mem_keys_iff, EngineState.unregister,
      ScriptRegistry.unregister]
    dsimp only
    rw [InsertionMap.get_delete]
    split_ifs with hkey <;> simp [hkey]
  constructor
  · intro hgone key hkey howned
    by_contra hne
    have hnot := hgone.cooldowns key ((hcooldowns key).mpr ⟨hkey, hne⟩)
    exact Bool.noConfusion (howned.symm.trans hnot)
  · intro hkeys
    have hentry : ∀ e ∈ (s.unregister botId).scripts.entries, firstPart e.1 ≠ botId.1 :=
      fun e he => (h.mem_unregister.mp he).2
    constructor
    · intro key hkey
      obtain ⟨e, he, rfl⟩ := List.mem_map.mp hkey
      rw [entries_unregister] at he
      simpa using (List.mem_filter.mp he).2
    · intro key hkey
      rcases mem_keys_rebuildIndex hkey with hkey | ⟨e, he, rfl⟩
      · exact absurd hkey List.not_mem_nil
      · rw [← Bool.not_eq_true,
          ownedBy_triggerKey botId ⟨firstPart e.1, plain_firstPart e.1⟩, Subtype.ext_iff]
        exact hentry e he
    · rw [EngineState.unregister]
      dsimp only
      rw [InsertionMap.get_delete, if_pos rfl]
    · intro key hkey
      obtain ⟨hmem, hne⟩ := (hcooldowns key).mp hkey
      rw [← Bool.not_eq_true]
      exact fun howned => hne (hkeys key hmem howned)

/-- The scripts of the other bots stay. -/
theorem scriptsOf_unregister (s : EngineState Step) {other : PlainId} (hne : other ≠ botId) :
    (s.unregister botId).scriptsOf other = s.scriptsOf other := by
  rw [scriptsOf, scriptsOf, entries_unregister, List.filter_filter]
  refine congrArg _ (List.filter_congr fun e _ => ?_)
  rw [Bool.eq_iff_iff, Bool.and_eq_true, decide_eq_true_eq, Bool.not_eq_true', ← Bool.not_eq_true]
  refine and_iff_left_of_imp fun hkey => ?_
  rw [hkey, ownedBy_scriptKey]
  exact hne

/-- A script without a colon in its trigger is found again by a rebuild. -/
theorem Keyed.entry_unregister_of_plain (h : s.Keyed) {other : PlainId} (hne : other ≠ botId)
    (hplain : ∀ script ∈ s.scriptsOf other, Plain script.trigger) (trigger : String) :
    (s.unregister botId).entry other trigger = s.grouping other trigger := by
  rw [entry_unregister, entries_unregister, grouping_eq, List.filter_filter]
  refine congrArg _ (List.filter_congr fun e he => ?_)
  rw [Bool.eq_iff_iff, Bool.and_eq_true, decide_eq_true_eq, isOf_iff,
    h.eq_scriptKey_iff he, and_assoc]
  refine and_congr_right fun hfirst => ?_
  have hkey : e.1 = scriptKey other.1 e.2 := (h.eq_scriptKey_iff he other).mpr hfirst
  have hscript : e.2 ∈ s.scriptsOf other := by
    rw [mem_scriptsOf, ← hkey]
    exact (s.scripts.mem_entries_iff e.1 e.2).mp he
  rw [Bool.not_eq_true', ← Bool.not_eq_true, hkey, ownedBy_scriptKey,
    secondPart_scriptKey other (hplain e.2 hscript)]
  exact and_iff_left hne

/-- An unregistration leaves another bot as it is exactly when a rebuild of its index entries
    changes none of them. -/
theorem Keyed.untouched_iff (h : s.Keyed) (hgrouped : s.Grouped) {other : PlainId}
    (hne : other ≠ botId) :
    Untouched other s (s.unregister botId) ↔
      (∀ script ∈ s.scriptsOf other, Plain script.trigger) ∧
        ∀ trigger, s.entry other trigger = s.grouping other trigger := by
  constructor
  · intro hsame
    have hplain : ∀ script ∈ s.scriptsOf other, Plain script.trigger := by
      intro script hscript
      have hlisted : script ∈ s.entry other script.trigger :=
        (hgrouped other _).mem_iff.mpr (mem_grouping.mpr ⟨mem_scriptsOf.mp hscript, rfl⟩)
      rw [← hsame.index, entry_unregister] at hlisted
      obtain ⟨e, he, -⟩ := List.mem_map.mp hlisted
      have hparts := of_decide_eq_true (List.mem_filter.mp he).2
      rw [← hparts.2]
      exact plain_secondPart e.1
    refine ⟨hplain, fun trigger => ?_⟩
    rw [← hsame.index, h.entry_unregister_of_plain hne hplain]
  · rintro ⟨hplain, horder⟩
    constructor
    · exact scriptsOf_unregister s hne
    · intro trigger
      rw [h.entry_unregister_of_plain hne hplain, horder]
    · rw [EngineState.unregister]
      dsimp only
      rw [InsertionMap.get_delete, if_neg fun heq => hne (Subtype.ext heq)]
    · intro key howned
      rw [EngineState.unregister, ScriptRegistry.unregister]
      dsimp only
      rw [InsertionMap.get_delete]
      refine if_neg ?_
      rintro rfl
      rcases of_decide_eq_true howned with heq | ⟨rest, hrest⟩
      · exact hne (Subtype.ext heq.symm)
      · refine botId.2 ?_
        rw [← hrest, String.toList_append]
        simp

/-- An unregistration leaves the maps intact exactly when it meets nothing ambiguous. -/
theorem unregister_intact_iff (hkeyed : s.Keyed) (hgrouped : s.Grouped) (botId : PlainId) :
    Intact s (.unregister botId) (s.unregister botId) ↔ s.Unambiguous (.unregister botId) := by
  constructor
  · intro h
    obtain ⟨hgone, hothers⟩ := h.unregister botId rfl
    refine ⟨hkeyed.gone_iff.mp hgone, fun other hne => ?_⟩
    exact (hkeyed.untouched_iff hgrouped hne).mp (hothers other hne)
  · rintro ⟨hcooldowns, hothers⟩
    constructor
    · intro other trigger
      by_cases hbot : other = botId
      · subst hbot
        have hnone : ∀ script, script ∉ (s.unregister other).scriptsOf other := by
          intro script hscript
          have hkey := (InsertionMap.mem_entries_iff _ _ _).mpr (mem_scriptsOf.mp hscript)
          exact (hkeyed.mem_unregister.mp hkey).2 (firstPart_scriptKey other script)
        have hentry : (s.unregister other).entry other trigger = [] := by
          rw [entry_unregister, List.map_eq_nil_iff, List.filter_eq_nil_iff]
          intro e he hfirst
          exact (hkeyed.mem_unregister.mp he).2 (of_decide_eq_true hfirst).1
        rw [hentry, grouping, List.eq_nil_iff_forall_not_mem.mpr hnone]
        rfl
      · obtain ⟨hplain, -⟩ := hothers other hbot
        rw [hkeyed.entry_unregister_of_plain hbot hplain, grouping, grouping,
          scriptsOf_unregister s hbot]
    · exact (hkeyed.unregister botId).intervalsFound
    · rintro _ ⟨⟩
      refine ⟨hkeyed.gone_iff.mpr hcooldowns, fun other hne => ?_⟩
      exact (hkeyed.untouched_iff hgrouped hne).mpr (hothers other hne)

end Unregister

section Operations

/-- Operations that leave the scripts and the index alone leave them in agreement. -/
theorem Grouped.of_eq {s' : EngineState Step} (h : s.Grouped) (hscripts : s'.scripts = s.scripts)
    (hindex : s'.byTrigger = s.byTrigger) : s'.Grouped := by
  intro botId trigger
  rw [entry, grouping, scriptsOf, hscripts, hindex]
  exact h botId trigger

theorem Keyed.of_eq {s' : EngineState Step} (h : s.Keyed) (hscripts : s'.scripts = s.scripts) :
    s'.Keyed := by
  rw [Keyed, hscripts]
  exact h

theorem toScriptRegistry_increment (botId : PlainId) (name : String) :
    (s.increment botId name).toScriptRegistry = s.toScriptRegistry := by
  rw [increment]
  split <;> rfl

variable (rt : ScriptRuntime) [CaseMapping]

theorem byTrigger_execute (engine : ScriptEngine Step) (botId : String) (event : Event)
    (moments : ℕ → Moment) :
    (engine.execute rt botId event moments).byTrigger = engine.byTrigger := by
  rw [ScriptEngine.execute]
  generalize engine.concerned rt botId event = scripts
  induction scripts generalizing engine with
  | nil => rfl
  | cons e rest ih => rw [List.foldl_cons, ih, ScriptEngine.byTrigger_runScript]

theorem scripts_execute (botId : PlainId) (event : Event) (moments : ℕ → Moment) :
    (s.execute rt botId event moments).scripts = s.scripts := by
  show (s.withCounters botId).scripts = s.scripts
  rw [toScriptRegistry_withCounters]

theorem index_execute (botId : PlainId) (event : Event) (moments : ℕ → Moment) :
    (s.execute rt botId event moments).byTrigger = s.byTrigger := by
  rw [execute]
  dsimp only
  rw [byTrigger_execute, toScriptRegistry_withCounters]

theorem Keyed.step (h : s.Keyed) (op : EngineOp Step) : (s.step rt op).Keyed := by
  cases op with
  | register botId config => exact h.register botId config
  | unregister botId => exact h.unregister botId
  | clear => exact fun e he => absurd he List.not_mem_nil
  | execute botId event moments => exact h.of_eq (scripts_execute rt botId event moments)
  | increment botId name =>
    exact h.of_eq (congrArg ScriptRegistry.scripts (toScriptRegistry_increment botId name))

/-- An operation other than an unregistration is intact when it leaves the index in agreement. -/
theorem intact_of_grouped (hkeyed : s.Keyed) {op : EngineOp Step}
    (hop : ∀ botId, op ≠ .unregister botId) (h : (s.step rt op).Grouped) :
    Intact s op (s.step rt op) where
  grouped := h
  intervals := (hkeyed.step rt op).intervalsFound
  unregister botId heq := absurd heq (hop botId)

/-- An operation leaves the maps intact exactly when it meets nothing ambiguous. -/
theorem step_intact_iff (hkeyed : s.Keyed) (hgrouped : s.Grouped) (op : EngineOp Step) :
    Intact s op (s.step rt op) ↔ s.Unambiguous op := by
  cases op with
  | register botId config =>
    rw [← register_grouped_iff hkeyed hgrouped]
    constructor
    · intro h
      exact h.grouped
    · intro h
      exact intact_of_grouped rt hkeyed (fun _ => nofun) h
  | unregister botId => exact unregister_intact_iff hkeyed hgrouped botId
  | clear =>
    refine iff_of_true (intact_of_grouped rt hkeyed (fun _ => nofun) fun botId trigger => ?_) trivial
    exact List.Perm.refl []
  | execute botId event moments =>
    refine iff_of_true (intact_of_grouped rt hkeyed (fun _ => nofun) ?_) trivial
    exact hgrouped.of_eq (scripts_execute rt botId event moments)
      (index_execute rt botId event moments)
  | increment botId name =>
    refine iff_of_true (intact_of_grouped rt hkeyed (fun _ => nofun) ?_) trivial
    have hregistry := toScriptRegistry_increment (s := s) botId name
    exact hgrouped.of_eq (congrArg ScriptRegistry.scripts hregistry)
      (congrArg (fun registry : ScriptRegistry Step => registry.byTrigger) hregistry)

/-- **Integrity of the engine maps**: from an empty engine on, every operation of a run leaves the
    maps intact exactly when none of them meets anything ambiguous. -/
theorem intact_iff_unambiguous (ops : List (EngineOp Step)) :
    Machine.Along (Machine.total (step rt)) (fun s op => Intact s op (s.step rt op)) empty ops ↔
      Machine.Along (Machine.total (step rt)) Unambiguous empty ops := by
  refine Machine.along_congr_of_invariant (fun s => s.Keyed ∧ s.Grouped) ?_ ?_ ?_
  · rintro s op s' ⟨hkeyed, hgrouped⟩ -
    exact step_intact_iff rt hkeyed hgrouped op
  · rintro s op _ ⟨hkeyed, hgrouped⟩ hok ⟨⟩
    exact ⟨hkeyed.step rt op, ((step_intact_iff rt hkeyed hgrouped op).mpr hok).grouped⟩
  · exact ⟨fun e he => absurd he List.not_mem_nil, fun _ _ => List.Perm.refl []⟩

end Operations

section Runs

def greetingBot : PlainId :=
  ⟨"bot", by decide⟩

/-- A script with a cooldown runs before its bot is taken out. -/
def takenOutAfterRun : List (EngineOp String) :=
  [.register greetingBot greeting,
    .execute greetingBot (messageAt 1700000000000 "hello").event
      (messageAt 1700000000000 "hello").moments,
    .unregister greetingBot]

/-- The cooldown of the script stays. -/
theorem not_intact_takenOutAfterRun :
    ¬ ∀ ops : List (EngineOp String),
      Machine.Along (Machine.total (step literalRuntime))
        (fun s op => Intact s op (s.step literalRuntime op)) empty ops := by
  intro h
  have hrun := h takenOutAfterRun
  rw [takenOutAfterRun] at hrun
  simp only [Machine.along_total_cons] at hrun
  obtain ⟨-, -, hintact, -⟩ := hrun
  have hgone := (hintact.unregister greetingBot rfl).1
  exact absurd (hgone.cooldowns "bot:message" (by decide +kernel)) (by decide +kernel)

/-- Two scripts of one bot whose trigger and id come to the same text. -/
example : scriptKey "bot" { greeting with trigger := "on:join" } =
    scriptKey "bot" { greeting with id := some "join", trigger := "on" } := by
  rfl

end Runs

end EngineState

end BotHive.Workers
