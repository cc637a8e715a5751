import BotHive.Workers.ScriptEngine

/-!
# The script registry

The engine keeps its scripts under keys made of bot, trigger and row id, next to an index
from bot and trigger to the scripts that an event of that type runs. The index is kept up
by `register` and rebuilt from the keys by `unregister`. Bot ids and triggers contain no
colon: ids are generated, and triggers come from a fixed list.

## Main definitions

- `ScriptRegistry`: the engine with the map behind its index
- `ScriptRegistry.register`, `unregister`, `clear`: the operations
- `Registration`, `RegistryOp.meaning`: what the operations mean

## Main results

- `Indexed.apply`: every operation keeps the index in agreement with the registrations
- `Indexed.matching_perm`: an event's index entry holds exactly the scripts registered for it
-/

namespace BotHive.Workers

variable {Step : Type}

/-- A name without a colon. -/
def Plain (s : String) : Prop :=
  ':' ∉ s.toList

instance (s : String) : Decidable (Plain s) :=
  inferInstanceAs (Decidable (¬ _))

/-- Bot ids are generated, and so without a colon. -/
abbrev PlainId := { s : String // Plain s }

/-- A script of a bot, as the rows of the database have them. -/
structure Registration (Step : Type) where
  botId : String
  script : ScriptConfig Step
  botId_plain : Plain botId
  trigger_plain : Plain script.trigger

namespace Registration

def key (r : Registration Step) : String :=
  scriptKey r.botId r.script

/-- The row id of the script; an empty one counts as none. -/
def rowId (r : Registration Step) : Option String :=
  r.script.id.filter (· ≠ "")

/-- Both register the script of one row under one trigger. -/
def sameScript (r r' : Registration Step) : Bool :=
  r.botId = r'.botId ∧ r.script.trigger = r'.script.trigger ∧ r.rowId = r'.rowId

/-- The script runs on the events of a type. -/
def concerns (botId type : String) (r : Registration Step) : Bool :=
  r.botId = botId ∧ r.script.trigger = type

end Registration

/-- The part of a key before its first colon. -/
def firstPart (key : String) : String :=
  String.ofList (key.toList.takeWhile (· ≠ ':'))

/-- The part of a key between its first two colons. -/
def secondPart (key : String) : String :=
  String.ofList (((key.toList.dropWhile (· ≠ ':')).drop 1).takeWhile (· ≠ ':'))

/-- The engine with all its scripts; `byTrigger` indexes them. -/
structure ScriptRegistry (Step : Type) extends ScriptEngine Step where
  scripts : InsertionMap String (ScriptConfig Step)

namespace ScriptRegistry

def empty : ScriptRegistry Step :=
  ⟨⟨.empty, .empty⟩, .empty⟩

/-- Add a script to the index entry of a key. -/
def addToIndex (index : InsertionMap String (List (ScriptConfig Step))) (tKey : String)
    (config : ScriptConfig Step) : InsertionMap String (List (ScriptConfig Step)) :=
  index.set tKey ((index.get tKey).getD [] ++ [config])

/-- The index of a map of scripts, read off its keys. -/
def rebuildIndex (scripts : InsertionMap String (ScriptConfig Step)) :
    InsertionMap String (List (ScriptConfig Step)) :=
  scripts.entries.foldl
    (fun index e => addToIndex index (triggerKey (firstPart e.1) (secondPart e.1)) e.2) .empty

def register (registry : ScriptRegistry Step) (botId : String) (config : ScriptConfig Step) :
    ScriptRegistry Step :=
  let key := scriptKey botId config
  let tKey := triggerKey botId config.trigger
  let list := (registry.byTrigger.get tKey).getD []
  -- a script that is registered again leaves no second entry in the index
  let deduped := list.filter fun existing => scriptKey botId existing ≠ key
  { registry with
    scripts := registry.scripts.set key config
    byTrigger := registry.byTrigger.set tKey (deduped ++ [config]) }

/-- Whether a key belongs to a bot. -/
def ownedBy (botId key : String) : Bool :=
  key = botId ∨ (botId ++ ":").toList <+: key.toList

def unregister (registry : ScriptRegistry Step) (botId : String) : ScriptRegistry Step :=
  let scripts := (registry.scripts.keys.filter (ownedBy botId)).foldl
    (fun m key => m.delete key) registry.scripts
  { scripts := scripts
    byTrigger := rebuildIndex scripts
    cooldowns := registry.cooldowns.delete botId }

def clear (_ : ScriptRegistry Step) : ScriptRegistry Step :=
  empty

end ScriptRegistry

/-- An operation on the registry. -/
inductive RegistryOp (Step : Type) where
  | register (r : Registration Step)
  | unregister (botId : String) (plain : Plain botId)
  | clear

namespace RegistryOp

def apply (registry : ScriptRegistry Step) : RegistryOp Step → ScriptRegistry Step
  | .register r => registry.register r.botId r.script
  | .unregister botId _ => registry.unregister botId
  | .clear => registry.clear

/-- What an operation means: a registration replaces that of the same script. -/
def meaning (registered : List (Registration Step)) : RegistryOp Step → List (Registration Step)
  | .register r => (registered.filter fun old => !old.sameScript r) ++ [r]
  | .unregister botId _ => registered.filter fun old => old.botId ≠ botId
  | .clear => []

end RegistryOp

/-- The map and its index hold exactly the registrations. -/
structure Indexed (registry : ScriptRegistry Step) (registered : List (Registration Step)) :
    Prop where
  scripts : registry.scripts.entries.Perm (registered.map fun r => (r.key, r.script))
  index : ∀ tKey, ((registry.byTrigger.get tKey).getD []).Perm
    ((registered.filter fun r => triggerKey r.botId r.script.trigger = tKey).map (·.script))

section Keys

theorem toList_triggerKey (botId trigger : String) :
    (triggerKey botId trigger).toList = botId.toList ++ ':' :: trigger.toList := by
  simp [triggerKey, String.toList_append]

/-- An index key tells bot and trigger apart. -/
theorem triggerKey_inj {botId trigger : String} (hb : Plain botId) (ht : Plain trigger)
    (botId' trigger' : String) :
    triggerKey botId trigger = triggerKey botId' trigger' ↔
      botId = botId' ∧ trigger = trigger' := by
  constructor
  · intro h
    have hlist := congrArg String.toList h
    rw [toList_triggerKey, toList_triggerKey, List.append_cons_inj_of_notMem hb ht] at hlist
    exact ⟨String.toList_injective hlist.1, String.toList_injective hlist.2.2⟩
  · rintro ⟨rfl, rfl⟩
    rfl

namespace Registration

variable (r r' : Registration Step)

/-- What follows the trigger in the key of a script. -/
def keyTail : List Char :=
  match r.rowId with
  | none => []
  | some id => ':' :: id.toList

theorem toList_key :
    r.key.toList = r.botId.toList ++ ':' :: (r.script.trigger.toList ++ r.keyTail) := by
  rw [key, scriptKey, keyTail, rowId]
  cases r.script.id with
  | none => simp [String.toList_append]
  | some id =>
    by_cases hid : id = ""
    · simp [hid, String.toList_append, Option.filter]
    · simp [hid, String.toList_append, Option.filter]

theorem firstPart_key : firstPart r.key = r.botId := by
  rw [firstPart, toList_key, takeWhile_ne_append r.botId_plain]
  simp

theorem secondPart_key : secondPart r.key = r.script.trigger := by
  have htail : r.keyTail.takeWhile (· ≠ ':') = [] := by
    rw [keyTail]
    cases r.rowId <;> simp
  rw [secondPart, toList_key, dropWhile_ne_append r.botId_plain]
  simp only [ne_eq, not_true, decide_false, Bool.false_eq_true, not_false_eq_true,
    List.dropWhile_cons_of_neg, List.drop_one, List.tail_cons]
  have hparts := takeWhile_ne_append r.trigger_plain r.keyTail
  rw [htail, List.append_nil] at hparts
  simp only [ne_eq] at hparts
  rw [hparts, String.ofList_toList]

/-- The key of a script stands for its bot, trigger and row. -/
theorem key_eq_iff : r.key = r'.key ↔ r.sameScript r' = true := by
  rw [sameScript, decide_eq_true_eq]
  constructor
  · intro h
    have hbot : r.botId = r'.botId := by
      rw [← firstPart_key, h, firstPart_key]
    have htrigger : r.script.trigger = r'.script.trigger := by
      rw [← secondPart_key, h, secondPart_key]
    have htail : r.keyTail = r'.keyTail := by
      have hlist := congrArg String.toList h
      rw [toList_key, toList_key, hbot, htrigger] at hlist
      simpa using hlist
    refine ⟨hbot, htrigger, ?_⟩
    rw [keyTail, keyTail] at htail
    cases hid : r.rowId with
    | none =>
      cases hid' : r'.rowId with
      | none => rfl
      | some id' => simp [hid, hid'] at htail
    | some id =>
      cases hid' : r'.rowId with
      | none => simp [hid, hid'] at htail
      | some id' =>
        rw [hid, hid'] at htail
        exact congrArg some (String.toList_injective (List.cons.inj htail).2)
  · rintro ⟨hbot, htrigger, hid⟩
    refine String.toList_injective ?_
    rw [toList_key, toList_key, keyTail, keyTail, hbot, htrigger, hid]

/-- `unregister` finds the keys of its bot. -/
theorem ownedBy_key {botId : String} (hb : Plain botId) :
    ScriptRegistry.ownedBy botId r.key = true ↔ r.botId = botId := by
  rw [ScriptRegistry.ownedBy, decide_eq_true_eq]
  constructor
  · rintro (hkey | ⟨rest, hrest⟩)
    · have hcolon : ':' ∈ r.key.toList := by
        rw [toList_key]
        simp
      exact absurd (hkey ▸ hcolon) hb
    · have hparts : firstPart r.key = botId := by
        rw [firstPart, ← hrest, String.toList_append, List.append_assoc, takeWhile_ne_append hb]
        simp
      rw [← firstPart_key, hparts]
  · rintro rfl
    refine Or.inr ⟨r.script.trigger.toList ++ r.keyTail, ?_⟩
    rw [toList_key, String.toList_append]
    simp

end Registration

end Keys

namespace ScriptRegistry

/-- The index entry of a key after a list of scripts has been added. -/
theorem getD_foldl_addToIndex (entries : List (String × ScriptConfig Step))
    (index : InsertionMap String (List (ScriptConfig Step))) (tKey : String) :
    ((entries.foldl (fun index e =>
        addToIndex index (triggerKey (firstPart e.1) (secondPart e.1)) e.2) index).get
          tKey).getD [] =
      (index.get tKey).getD [] ++
        (entries.filter fun e => triggerKey (firstPart e.1) (secondPart e.1) = tKey).map
          Prod.snd := by
  induction entries generalizing index with
  | nil => simp
  | cons e rest ih =>
    rw [List.foldl_cons, ih, addToIndex, InsertionMap.get_set]
    by_cases h : triggerKey (firstPart e.1) (secondPart e.1) = tKey
    · rw [if_pos h.symm, List.filter_cons_of_pos (by simpa using h), h]
      simp
    · rw [if_neg fun hk => h hk.symm, List.filter_cons_of_neg (by simpa using h)]

/-- A rebuilt index agrees with the registrations whose scripts are stored. -/
theorem rebuildIndex_perm {scripts : InsertionMap String (ScriptConfig Step)}
    {registered : List (Registration Step)}
    (h : scripts.entries.Perm (registered.map fun r => (r.key, r.script))) (tKey : String) :
    (((rebuildIndex scripts).get tKey).getD []).Perm
      ((registered.filter fun r => triggerKey r.botId r.script.trigger = tKey).map (·.script)) := by
  rw [rebuildIndex, getD_foldl_addToIndex, InsertionMap.get_empty, Option.getD_none,
    List.nil_append]
  refine ((h.filter _).map _).trans (.of_eq ?_)
  rw [List.filter_map, List.map_map]
  refine congrArg _ (List.filter_congr fun r _ => ?_)
  simp only [Function.comp_apply, Registration.firstPart_key, Registration.secondPart_key]

end ScriptRegistry

namespace Indexed

variable {registry : ScriptRegistry Step} {registered : List (Registration Step)}

theorem start : Indexed (ScriptRegistry.empty : ScriptRegistry Step) [] where
  scripts := .refl _
  index _ := .refl _

/-- The stored scripts whose keys pass a test are those of the registrations that do. -/
theorem scripts_filter (h : Indexed registry registered) {p : String → Bool}
    {q : Registration Step → Bool} (hpq : ∀ r : Registration Step, p r.key = q r) :
    (registry.scripts.entries.filter fun e => p e.1).Perm
      ((registered.filter q).map fun r => (r.key, r.script)) := by
  refine (h.scripts.filter _).trans (.of_eq ?_)
  rw [List.filter_map]
  exact congrArg _ (List.filter_congr fun r _ => hpq r)

/-- Within the index entry of its own bot and trigger a script is told apart by its key. -/
theorem deduped_perm (h : Indexed registry registered) (r : Registration Step) :
    (((registry.byTrigger.get (triggerKey r.botId r.script.trigger)).getD []).filter
        fun existing => scriptKey r.botId existing ≠ r.key).Perm
      ((registered.filter fun old => decide (triggerKey old.botId old.script.trigger =
        triggerKey r.botId r.script.trigger) && !old.sameScript r).map (·.script)) := by
  refine ((h.index _).filter _).trans (.of_eq ?_)
  rw [List.filter_map, List.filter_filter]
  refine congrArg _ (List.filter_congr fun old _ => ?_)
  rw [Bool.eq_iff_iff]
  simp only [Function.comp_apply, Bool.and_eq_true, decide_eq_true_eq, Bool.not_eq_true',
    ← Bool.not_eq_true, ← Registration.key_eq_iff]
  rw [and_comm]
  refine and_congr_right fun htrigger => ?_
  have hbot := ((triggerKey_inj old.botId_plain old.trigger_plain _ _).mp htrigger).1
  rw [Registration.key, Registration.key, hbot]

/-- No script of another index entry is replaced. -/
theorem sameScript_of_other {r old : Registration Step} {tKey : String}
    (htKey : triggerKey r.botId r.script.trigger ≠ tKey)
    (hold : triggerKey old.botId old.script.trigger = tKey) : old.sameScript r = false := by
  rw [← Bool.not_eq_true, Registration.sameScript, decide_eq_true_eq]
  rintro ⟨hbot, htrigger, -⟩
  exact htKey (hbot ▸ htrigger ▸ hold)

theorem register (h : Indexed registry registered) (r : Registration Step) :
    Indexed (registry.register r.botId r.script)
      ((registered.filter fun old => !old.sameScript r) ++ [r]) where
  scripts := by
    have hkept : (registry.scripts.delete r.key).entries.Perm
        ((registered.filter fun old => !old.sameScript r).map fun r => (r.key, r.script)) := by
      rw [InsertionMap.entries_delete]
      refine h.scripts_filter (p := fun key => decide (key ≠ r.key)) fun old => ?_
      rw [Bool.eq_iff_iff]
      simp [Registration.key_eq_iff]
    refine (registry.scripts.perm_entries_set r.key r.script).trans ?_
    rw [List.map_append]
    exact (hkept.cons _).trans (List.perm_append_singleton _ _).symm
  index tKey := by
    rw [ScriptRegistry.register]
    dsimp only
    rw [InsertionMap.get_set, List.filter_append, List.map_append, List.filter_filter]
    by_cases htKey : triggerKey r.botId r.script.trigger = tKey
    · subst htKey
      rw [if_pos rfl, Option.getD_some, List.filter_cons_of_pos (by simp), List.filter_nil]
      exact (h.deduped_perm r).append_right _
    · rw [if_neg fun hk => htKey hk.symm, List.filter_cons_of_neg (by simpa using htKey),
        List.filter_nil, List.map_nil, List.append_nil]
      refine (h.index tKey).trans (.of_eq (congrArg _ (List.filter_congr fun old _ => ?_)))
      rw [Bool.eq_iff_iff, Bool.and_eq_true, Bool.not_eq_true', decide_eq_true_eq]
      exact (and_iff_left_of_imp (sameScript_of_other htKey)).symm

theorem unregister (h : Indexed registry registered) {botId : String} (hb : Plain botId) :
    Indexed (registry.unregister botId) (registered.filter fun old => old.botId ≠ botId) := by
  have hscripts : (registry.unregister botId).scripts.entries.Perm
      ((registered.filter fun old => old.botId ≠ botId).map fun r => (r.key, r.script)) := by
    rw [ScriptRegistry.unregister, InsertionMap.entries_foldl_delete_filter]
    refine h.scripts_filter (p := fun key => !ScriptRegistry.ownedBy botId key) fun old => ?_
    rw [Bool.eq_iff_iff]
    simp [← Bool.not_eq_true, Registration.ownedBy_key _ hb]
  exact ⟨hscripts, fun tKey => ScriptRegistry.rebuildIndex_perm hscripts tKey⟩

/-- Every operation keeps the index in agreement with the registrations. -/
theorem apply (h : Indexed registry registered) (op : RegistryOp Step) :
    Indexed (op.apply registry) (op.meaning registered) := by
  cases op with
  | register r => exact h.register r
  | unregister botId plain => exact h.unregister plain
  | clear => exact start

theorem foldl (h : Indexed registry registered) (ops : List (RegistryOp Step)) :
    Indexed (ops.foldl RegistryOp.apply registry) (ops.foldl RegistryOp.meaning registered) := by
  induction ops generalizing registry registered with
  | nil => exact h
  | cons op rest ih => exact ih (h.apply op)

/-- The index entry of an event type holds exactly the scripts registered for it. -/
theorem matching_perm (h : Indexed registry registered) (botId type : String) :
    (registry.matching botId type).Perm
      ((registered.filter (Registration.concerns botId type)).map (·.script)) := by
  refine (h.index (triggerKey botId type)).trans (.of_eq ?_)
  refine congrArg _ (List.filter_congr fun r _ => ?_)
  rw [Bool.eq_iff_iff, decide_eq_true_eq, triggerKey_inj r.botId_plain r.trigger_plain,
    Registration.concerns, decide_eq_true_eq]

end Indexed

end BotHive.Workers
