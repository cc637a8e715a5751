import BotHive.Memory.RedisStore

/-!
# One memory for workers and API

What the workers store for a bot should be what the API lists, deletes and clears. The keys of the
two differ by the length of the bot id, so the API meets no entry of the bot; what it meets
under its own prefix, and what a bot id with glob characters matches, belongs to other bots.

## Main definitions

- `AgreesFor`: what is asked of the memory of one bot
- `Apart`: the bot has no entry, and neither the keys of the API nor the patterns of the bot
  meet another live key

## Main results

- `agreesFor_iff_apart`: after every history, the first holds exactly when the second does
- `not_agreesFor_storedEntry`: one stored entry is enough for it to fail
-/

namespace BotHive.Memory

variable {α : Type} (glob : String → String → Bool) (collate : String → String → Bool)

/-- A key under which the workers store something for the bot. -/
def OwnedBy (botId key : String) : Prop :=
  ∃ name, key = RedisMemoryStore.key botId name

/-- The API lists the live entries of a bot under the names they were stored with. -/
def Lists (s : Redis α) (botId : String) (maxKeys : ℕ) : Prop :=
  ∀ name (held : Held α),
    (∃ e ∈ getBotMemory glob collate s botId maxKeys, e.key = name ∧ .value e.value = held) ↔
      ∃ e, RedisMemoryStore.get s botId name = some e ∧ e.value = held

/-- Workers and API have the same view of the memory of a bot. -/
structure AgreesFor (s : Redis α) (botId : String) (maxKeys : ℕ) : Prop where
  lists : Lists glob collate s botId maxKeys
  deletes : ∀ name key, (deleteBotMemoryKey s botId name).1.get key =
    if key = RedisMemoryStore.key botId name then none else s.get key
  apiClears : ∀ key, (OwnedBy botId key → (clearBotMemory glob s botId).1.get key = none) ∧
    (¬ OwnedBy botId key → (clearBotMemory glob s botId).1.get key = s.get key)
  clears : ∀ key, (OwnedBy botId key → (RedisMemoryStore.clear glob s botId).get key = none) ∧
    (¬ OwnedBy botId key → (RedisMemoryStore.clear glob s botId).get key = s.get key)
  usable : ∀ e ∈ RedisMemoryStore.getAll glob s botId,
    ∃ e', RedisMemoryStore.get s botId e.key = some e' ∧ e'.value = e.value

/-- Nothing is stored for the bot, and nothing that is stored for others is met through it. -/
structure Apart (s : Redis α) (botId : String) : Prop where
  empty : ∀ name, s.get (RedisMemoryStore.key botId name) = none
  prefixes : ∀ name, s.get (apiKey botId name) = none
  apiScan : ∀ key, glob (scanKeys botId) key = true → s.get key = none
  scan : ∀ key, glob (RedisMemoryStore.scanKeys botId) key = true → s.get key = none

section Keys

/-- The key of the workers is longer than that of the API. -/
theorem key_ne_apiKey (botId name : String) : RedisMemoryStore.key botId name ≠ apiKey botId name := by
  intro h
  have hlength := congrArg (fun s : String => s.toList.length) h
  simp only [RedisMemoryStore.key, apiKey, String.toList_append, List.length_append] at hlength
  have hcolon : ":".toList.length = 1 := rfl
  omega

end Keys

namespace Redis

variable {s : Redis α} {key : String}

theorem get_eq (s : Redis α) (key : String) :
    s.get key = ((s.keys.get key).filter (isLive s.now)).map RedisKey.raw :=
  rfl

/-- Deleted keys are gone, and the others stay. -/
theorem get_del (s : Redis α) (keys : List String) (key : String) :
    (s.del keys).1.get key = if key ∈ keys then none else s.get key := by
  rw [get_eq, get_eq, del]
  dsimp only
  rw [InsertionMap.get_foldl_delete]
  split_ifs <;> rfl

theorem get_del_singleton (s : Redis α) (deleted key : String) :
    (s.del [deleted]).1.get key = if key = deleted then none else s.get key := by
  rw [get_del]
  by_cases h : key = deleted
  · rw [if_pos h, if_pos (List.mem_singleton.mpr h)]
  · rw [if_neg h, if_neg fun hmem => h (List.mem_singleton.mp hmem)]

/-- A loop of `SCAN` finds the live keys that match. -/
theorem mem_scan {pattern : String} :
    key ∈ s.scan glob pattern ↔ (∃ raw, s.get key = some raw) ∧ glob pattern key = true := by
  rw [scan, List.mem_map]
  constructor
  · rintro ⟨e, he, rfl⟩
    obtain ⟨hmem, hboth⟩ := List.mem_filter.mp he
    obtain ⟨hlive, hglob⟩ := Bool.and_eq_true_iff.mp hboth
    have hget := (s.keys.mem_entries_iff e.1 e.2).mp hmem
    refine ⟨⟨e.2.raw, ?_⟩, hglob⟩
    rw [get_eq, hget, Option.filter_some, if_pos hlive]
    rfl
  · rintro ⟨⟨raw, hraw⟩, hglob⟩
    obtain ⟨k, hk, -⟩ := Option.map_eq_some_iff.mp hraw
    obtain ⟨hget, hlive⟩ := Option.filter_eq_some_iff.mp hk
    refine ⟨(key, k), List.mem_filter.mpr ⟨(s.keys.mem_entries_iff key k).mpr hget, ?_⟩, rfl⟩
    rw [hlive, hglob]
    rfl

theorem scan_eq_nil {pattern : String}
    (h : ∀ key, glob pattern key = true → s.get key = none) : s.scan glob pattern = [] := by
  rw [List.eq_nil_iff_forall_not_mem]
  intro key hkey
  obtain ⟨⟨raw, hraw⟩, hglob⟩ := (mem_scan glob).mp hkey
  exact nomatch hraw.symm.trans (h key hglob)

/-- Deleting what a loop of `SCAN` finds leaves the keys that do not match. -/
theorem get_del_scan (s : Redis α) (pattern key : String) :
    (s.del (s.scan glob pattern)).1.get key =
      if glob pattern key = true then none else s.get key := by
  rw [get_del]
  by_cases hglob : glob pattern key = true
  · rw [if_pos hglob]
    cases hget : s.get key with
    | none => rw [ite_self]
    | some raw => rw [if_pos ((mem_scan glob).mpr ⟨⟨raw, hget⟩, hglob⟩)]
  · rw [if_neg hglob, if_neg fun h => hglob ((mem_scan glob).mp h).2]

end Redis

variable {s : Redis α} {botId : String}

/-- What a clearing of the API leaves. -/
theorem get_clearBotMemory (s : Redis α) (botId key : String) :
    (clearBotMemory glob s botId).1.get key =
      if glob (scanKeys botId) key = true then none else s.get key := by
  rw [← s.get_del_scan glob, clearBotMemory]
  split_ifs with hnil
  · rw [hnil]
    rfl
  · rfl

/-- A clearing that takes out exactly the keys of a bot, when there are none. -/
theorem clears_iff {cleared : Redis α} {pattern : String}
    (hempty : ∀ name, s.get (RedisMemoryStore.key botId name) = none)
    (hcleared : ∀ key, cleared.get key = if glob pattern key = true then none else s.get key) :
    (∀ key, (OwnedBy botId key → cleared.get key = none) ∧
      (¬ OwnedBy botId key → cleared.get key = s.get key)) ↔
        ∀ key, glob pattern key = true → s.get key = none := by
  constructor
  · intro h key hglob
    by_cases howned : OwnedBy botId key
    · obtain ⟨name, rfl⟩ := howned
      exact hempty name
    · rw [← (h key).2 howned, hcleared, if_pos hglob]
  · intro h key
    have hkept : cleared.get key = s.get key := by
      rw [hcleared]
      split_ifs with hglob
      · exact (h key hglob).symm
      · rfl
    refine ⟨?_, fun _ => hkept⟩
    rintro ⟨name, rfl⟩
    rw [hkept, hempty]

theorem getBotMemory_of_scan_nil (h : s.scan glob (scanKeys botId) = []) (maxKeys : ℕ) :
    getBotMemory glob collate s botId maxKeys = [] := by
  rw [getBotMemory, h, List.take_nil, Redis.mget, List.map_nil, List.filterMap_nil]
  exact List.mergeSort_nil

/-- The memory of a bot is the same for workers and API exactly when there is none, and nothing
    of others is met. -/
theorem agreesFor_iff (s : Redis α) (botId : String) (maxKeys : ℕ) :
    AgreesFor glob collate s botId maxKeys ↔ Apart glob s botId := by
  constructor
  · intro h
    have hempty : ∀ name, s.get (RedisMemoryStore.key botId name) = none := by
      intro name
      have hdelete := h.deletes name (RedisMemoryStore.key botId name)
      rw [if_pos rfl, deleteBotMemoryKey, Redis.get_del_singleton,
        if_neg (key_ne_apiKey botId name)] at hdelete
      exact hdelete
    constructor
    · exact hempty
    · intro name
      have hdelete := h.deletes name (apiKey botId name)
      rw [if_neg (key_ne_apiKey botId name).symm, deleteBotMemoryKey, Redis.get_del_singleton,
        if_pos rfl] at hdelete
      exact hdelete.symm
    · exact (clears_iff glob hempty (get_clearBotMemory glob s botId)).mp h.apiClears
    · exact (clears_iff glob hempty (s.get_del_scan glob _)).mp h.clears
  · intro h
    have hapi : s.scan glob (scanKeys botId) = [] := Redis.scan_eq_nil glob h.apiScan
    have hscan : s.scan glob (RedisMemoryStore.scanKeys botId) = [] := Redis.scan_eq_nil glob h.scan
    constructor
    · intro name held
      constructor
      · rintro ⟨e, he, -⟩
        rw [getBotMemory_of_scan_nil glob collate hapi] at he
        exact absurd he List.not_mem_nil
      · rintro ⟨e, he, -⟩
        rw [RedisMemoryStore.get, h.empty] at he
        exact nomatch he
    · intro name key
      rw [deleteBotMemoryKey, Redis.get_del_singleton]
      split_ifs with happ hkey hkey
      · rfl
      · rw [happ, h.prefixes]
      · rw [hkey, h.empty]
      · rfl
    · exact (clears_iff glob h.empty (get_clearBotMemory glob s botId)).mpr h.apiScan
    · exact (clears_iff glob h.empty (s.get_del_scan glob _)).mpr h.scan
    · intro e he
      rw [RedisMemoryStore.getAll, hscan] at he
      exact absurd he List.not_mem_nil

/-- **One memory**: after every history of the workers, the memory of a bot is the same for workers
    and API exactly when nothing is stored for it and nothing of others is met. -/
theorem agreesFor_iff_apart (ops : List (MemoryOp α)) (botId : String) (maxKeys : ℕ) :
    AgreesFor glob collate (ops.foldl MemoryOp.apply .start) botId maxKeys ↔
      Apart glob (ops.foldl MemoryOp.apply .start) botId :=
  agreesFor_iff glob collate _ botId maxKeys

section Histories

/-- The glob test for patterns whose only special character is a star at the end. -/
def starGlob (pattern key : String) : Bool :=
  pattern.toList.dropLast.isPrefixOf key.toList

/-- A worker stores one entry: the API lists nothing. -/
theorem not_agreesFor_storedEntry :
    ¬ ∀ (ops : List (MemoryOp String)) (botId : String),
      AgreesFor starGlob (· ≤ ·) (ops.foldl MemoryOp.apply .start) botId 1000 := by
  intro h
  have hlists := (h [.set "b1" "greeting" "hello" none] "b1").lists "greeting" (.value "hello")
  have hstored : ∃ e, RedisMemoryStore.get
      (([.set "b1" "greeting" "hello" none] : List (MemoryOp String)).foldl MemoryOp.apply .start)
        "b1" "greeting" = some e ∧ e.value = .value "hello" :=
    ⟨_, rfl, rfl⟩
  obtain ⟨e, he, -⟩ := hlists.mpr hstored
  have hnone : Redis.scan starGlob (([.set "b1" "greeting" "hello" none] :
      List (MemoryOp String)).foldl MemoryOp.apply .start) (scanKeys "b1") = [] := by
    decide
  rw [getBotMemory_of_scan_nil starGlob _ hnone] at he
  exact absurd he List.not_mem_nil

end Histories

end BotHive.Memory
