import BotHive.Library.InsertionMap
import BotHive.Library.Machine
import BotHive.Library.TimedKey
import Mathlib.Logic.Function.Basic
import Mathlib.Data.List.Pairwise

/-!
# Claiming idempotency keys

A worker claims the key of an event before it hands the event on, so that an event that
is delivered twice runs once. The store is meant to claim keys in the Redis that all
processes share and to fall back on the memory of its process when a command fails. It
takes the `set` method off its client before it calls it, so that the method finds no
client and every claim falls back: each process claims for itself.

## Main definitions

- `MemoryDedupStore.claim`, `RedisDedupStore.claim`: the stores
- `ioredisSet`: a `set` method that needs its receiver
- `DedupWorld`: processes with their memories, the shared Redis and all grants so far
- `Alone`: the condition on a claim

## Main results

- `claim_ioredis`: a claim never reaches Redis
- `remembered_step`, `grantedOnce_step_iff`: what one step preserves
- `grantedOnce_iff_alone`: one process grants a key once, all of them only as long as each
  key is claimed by one process at a time
-/

namespace BotHive.Events

/-- The keys of the Redis that all processes share. -/
abbrev RedisKeys := String → Option (TimedKey String)

/-- What a method is called on; a method that was taken off its object has no receiver. -/
inductive Receiver where
  | client
  | undefined

/-- The reply of a command, or that the command failed, and the keys after it. -/
abbrev RedisReply := Except Unit (Option String) × RedisKeys

/-- A method `set(key, value, 'EX', ttl, 'NX')` at a time, with what the network does. -/
abbrev SetMethod :=
  Receiver → (reachable : Bool) → (now : ℕ) → RedisKeys → (key value : String) →
    (ttlSeconds : ℕ) → RedisReply

/-- The method finds its connection through its receiver; the write is atomic. -/
def ioredisSet : SetMethod := fun receiver reachable now redis key value ttlSeconds =>
  match receiver with
  | .undefined => (.error (), redis)
  | .client =>
    if reachable then
      let (written, stored) := TimedKey.setNX (redis key) now (ttlSeconds * 1000) value
      (.ok (if written then some "OK" else none), Function.update redis key stored)
    else (.error (), redis)

structure DedupSetClient where
  /-- The method, if the client has one. -/
  set : Option SetMethod

/-- The time at which each claimed key expires. -/
structure MemoryDedupStore where
  seen : InsertionMap String ℕ

namespace MemoryDedupStore

def empty : MemoryDedupStore :=
  ⟨.empty⟩

def prune (m : MemoryDedupStore) (now : ℕ) : MemoryDedupStore :=
  ⟨((m.seen.entries.filter (·.2 ≤ now)).map Prod.fst).foldl (fun s k => s.delete k) m.seen⟩

/-- The write of a granted claim; a large store is pruned. -/
def remember (m : MemoryDedupStore) (now : ℕ) (key : String) (ttlSeconds : ℕ) :
    MemoryDedupStore :=
  let next : MemoryDedupStore := ⟨m.seen.set key (now + ttlSeconds * 1000)⟩
  if 100000 < next.seen.size then next.prune now else next

def claim (m : MemoryDedupStore) (now : ℕ) (key : String) (ttlSeconds : ℕ) :
    Bool × MemoryDedupStore :=
  if (m.seen.get key).any (now < ·) then (false, m)
  else (true, m.remember now key ttlSeconds)

/-- Pruning forgets what has expired. -/
theorem get_prune (m : MemoryDedupStore) (now : ℕ) (key : String) :
    (m.prune now).seen.get key = (m.seen.get key).filter (now < ·) := by
  have hmem : key ∈ (m.seen.entries.filter (·.2 ≤ now)).map Prod.fst ↔
      ∃ e, m.seen.get key = some e ∧ e ≤ now := by
    simp only [List.mem_map, List.mem_filter, decide_eq_true_eq, Prod.exists,
      InsertionMap.mem_entries_iff]
    constructor
    · rintro ⟨k, e, ⟨hk, he⟩, rfl⟩
      exact ⟨e, hk, he⟩
    · rintro ⟨e, hk, he⟩
      exact ⟨key, e, ⟨hk, he⟩, rfl⟩
  rw [prune, InsertionMap.get_foldl_delete]
  cases hget : m.seen.get key with
  | none => simp
  | some e =>
    by_cases hle : e ≤ now
    · rw [if_pos (hmem.mpr ⟨e, hget, hle⟩)]
      simp [Option.filter, not_lt.mpr hle]
    · have hnot : key ∉ (m.seen.entries.filter (·.2 ≤ now)).map Prod.fst := by
        rw [hmem]
        rintro ⟨e', he', hle'⟩
        rw [hget, Option.some.injEq] at he'
        exact hle (he' ▸ hle')
      rw [if_neg hnot]
      simp [Option.filter, not_le.mp hle]

/-- What has not expired survives the pruning. -/
theorem get_remember_of_live {m : MemoryDedupStore} {now ttlSeconds e : ℕ} {key k : String}
    (hlive : now < e) :
    (m.remember now key ttlSeconds).seen.get k = some e ↔
      (m.seen.set key (now + ttlSeconds * 1000)).get k = some e := by
  rw [remember]
  dsimp only
  split_ifs
  · rw [get_prune, Option.filter_eq_some_iff, decide_eq_true_eq, and_iff_left hlive]
  · rfl

/-- Nothing is remembered but the claim and what was remembered before. -/
theorem get_remember {m : MemoryDedupStore} {now ttlSeconds e : ℕ} {key k : String}
    (h : (m.remember now key ttlSeconds).seen.get k = some e) :
    k = key ∧ e = now + ttlSeconds * 1000 ∨ m.seen.get k = some e := by
  have hset : (m.seen.set key (now + ttlSeconds * 1000)).get k = some e := by
    rw [remember] at h
    dsimp only at h
    split_ifs at h
    · rw [get_prune, Option.filter_eq_some_iff] at h
      exact h.1
    · exact h
  rw [InsertionMap.get_set] at hset
  split_ifs at hset with hk
  · exact Or.inl ⟨hk, (Option.some.inj hset).symm⟩
  · exact Or.inr hset

/-- A key is refused exactly while it is remembered. -/
theorem any_seen_iff (m : MemoryDedupStore) (now : ℕ) (key : String) :
    (m.seen.get key).any (now < ·) = true ↔ ∃ e, m.seen.get key = some e ∧ now < e := by
  simp [Option.any_eq_true]

end MemoryDedupStore

/-- Claim a key in Redis, or in memory when there is no client or its command fails. -/
def RedisDedupStore.claim (client : Option DedupSetClient) (keyPrefix : String)
    (memory : MemoryDedupStore) (redis : RedisKeys) (reachable : Bool) (now : ℕ) (key : String)
    (ttlSeconds : ℕ) : Bool × MemoryDedupStore × RedisKeys :=
  match client.bind (·.set) with
  | none =>
    let (granted, memory) := memory.claim now key ttlSeconds
    (granted, memory, redis)
  | some set =>
    -- `const set = this.client.set` has left the client behind
    match set .undefined reachable now redis (keyPrefix ++ key) "1" ttlSeconds with
    | (.ok result, redis) => (result.isSome, memory, redis)
    | (.error _, redis) =>
      let (granted, memory) := memory.claim now key ttlSeconds
      (granted, memory, redis)

/-- With a method that needs its receiver a claim never reaches Redis. -/
theorem claim_ioredis (keyPrefix : String) (memory : MemoryDedupStore) (redis : RedisKeys)
    (reachable : Bool) (now : ℕ) (key : String) (ttlSeconds : ℕ) :
    RedisDedupStore.claim (some ⟨some ioredisSet⟩) keyPrefix memory redis reachable now key
        ttlSeconds =
      ((memory.claim now key ttlSeconds).1, (memory.claim now key ttlSeconds).2, redis) :=
  rfl

variable {P : Type*}

/-- A granted claim. -/
structure Grant (P : Type*) where
  process : P
  key : String
  grantedAt : ℕ
  expiresAt : ℕ
  deriving DecidableEq

/-- The processes with their memories, the shared Redis and all grants, latest first. -/
structure DedupWorld (P : Type*) where
  now : ℕ
  redis : RedisKeys
  memory : P → MemoryDedupStore
  grants : List (Grant P)

/-- Nothing is claimed yet. -/
def DedupWorld.start : DedupWorld P :=
  ⟨0, fun _ => none, fun _ => .empty, []⟩

/-- A process claims a key, and Redis can be reached meanwhile or not; or time passes. -/
inductive DedupAction (P : Type*) where
  | claim (process : P) (key : String) (ttlSeconds : ℕ) (reachable : Bool)
  | wait (ms : ℕ)

namespace DedupWorld

/-- The later grant of two grants of a key comes when the earlier one has expired. -/
def Apart (later earlier : Grant P) : Prop :=
  later.key = earlier.key → earlier.expiresAt ≤ later.grantedAt

/-- No process grants a key twice within its time to live. -/
def OncePerProcess (w : DedupWorld P) : Prop :=
  w.grants.Pairwise fun later earlier => later.process = earlier.process → Apart later earlier

/-- No key is granted twice within its time to live, by whichever processes. -/
def GrantedOnce (w : DedupWorld P) : Prop :=
  w.grants.Pairwise Apart

/-- A key is claimed while no other process holds a grant of it that has not expired. -/
def Alone (w : DedupWorld P) : DedupAction P → Prop
  | .claim process key _ _ =>
    ∀ g ∈ w.grants, g.key = key → g.process ≠ process → g.expiresAt ≤ w.now
  | .wait _ => True

section Step

variable [DecidableEq P]

/-- One action, for stores over ioredis clients. A claim is one step: the call throws before
    anything is awaited. -/
def step (keyPrefix : String) (w : DedupWorld P) : DedupAction P → DedupWorld P
  | .claim process key ttlSeconds reachable =>
    let (granted, memory, redis) :=
      RedisDedupStore.claim (some ⟨some ioredisSet⟩) keyPrefix (w.memory process) w.redis
        reachable w.now key ttlSeconds
    { w with
      redis := redis
      memory := Function.update w.memory process memory
      grants :=
        if granted then ⟨process, key, w.now, w.now + ttlSeconds * 1000⟩ :: w.grants
        else w.grants }
  | .wait ms => { w with now := w.now + ms }

end Step

/-- The memory of each process holds its grants that have not expired, and no key that
    it was not granted. -/
structure Remembered (w : DedupWorld P) : Prop where
  live : ∀ g ∈ w.grants, w.now < g.expiresAt →
    (w.memory g.process).seen.get g.key = some g.expiresAt
  known : ∀ p k e, (w.memory p).seen.get k = some e →
    ∃ g ∈ w.grants, g.process = p ∧ g.key = k ∧ g.expiresAt = e
  past : ∀ g ∈ w.grants, g.grantedAt ≤ w.now

theorem remembered_start : (start : DedupWorld P).Remembered where
  live _ h := absurd h List.not_mem_nil
  known _ _ _ h := nomatch h
  past _ h := absurd h List.not_mem_nil

/-- Two grants of a key that have not expired are one grant. -/
theorem GrantedOnce.eq_of_live {w : DedupWorld P} (h : w.GrantedOnce)
    (hpast : ∀ g ∈ w.grants, g.grantedAt ≤ w.now) {g g' : Grant P} (hg : g ∈ w.grants)
    (hg' : g' ∈ w.grants) (hkey : g.key = g'.key) (hlive : w.now < g.expiresAt)
    (hlive' : w.now < g'.expiresAt) : g = g' := by
  by_contra hne
  have hsymm : Std.Symm fun a b : Grant P => Apart a b ∨ Apart b a := ⟨fun _ _ hab => hab.symm⟩
  have hpairs := h.imp fun {a b} (hab : Apart a b) => (Or.inl hab : Apart a b ∨ Apart b a)
  rcases hpairs.forall hg hg' hne with hab | hab
  · exact absurd (hab hkey) (not_le.mpr ((hpast g hg).trans_lt hlive'))
  · exact absurd (hab hkey.symm) (not_le.mpr ((hpast g' hg').trans_lt hlive))

section Steps

variable [DecidableEq P] {keyPrefix : String} {w : DedupWorld P}

/-- A claim of a key that the process remembers changes nothing. -/
theorem step_refused {process : P} {key : String} {ttlSeconds : ℕ} {reachable : Bool}
    (h : ((w.memory process).seen.get key).any (w.now < ·) = true) :
    w.step keyPrefix (.claim process key ttlSeconds reachable) = w := by
  simp only [step, claim_ioredis, MemoryDedupStore.claim, if_pos h, Bool.false_eq_true, if_false,
    Function.update_eq_self]

/-- Any other claim is granted. -/
theorem step_granted {process : P} {key : String} {ttlSeconds : ℕ} {reachable : Bool}
    (h : ¬ ((w.memory process).seen.get key).any (w.now < ·) = true) :
    w.step keyPrefix (.claim process key ttlSeconds reachable) =
      { w with
        memory := Function.update w.memory process
          ((w.memory process).remember w.now key ttlSeconds)
        grants := ⟨process, key, w.now, w.now + ttlSeconds * 1000⟩ :: w.grants } := by
  simp only [step, claim_ioredis, MemoryDedupStore.claim, if_neg h, if_true]

omit [DecidableEq P] in
/-- What a process remembers is not granted to it a second time. -/
theorem Remembered.expired_of_granted (hr : w.Remembered) {process : P} {key : String}
    (h : ¬ ((w.memory process).seen.get key).any (w.now < ·) = true) {g : Grant P}
    (hg : g ∈ w.grants) (hprocess : g.process = process) (hkey : g.key = key) :
    g.expiresAt ≤ w.now := by
  by_contra hlive
  rw [not_le] at hlive
  refine h ((MemoryDedupStore.any_seen_iff ..).mpr ⟨g.expiresAt, ?_, hlive⟩)
  rw [← hprocess, ← hkey]
  exact hr.live g hg hlive

/-- A grant that has not expired stays remembered when a process is granted a key. -/
theorem Remembered.live_remember (hr : w.Remembered) {process : P} {key : String}
    {ttlSeconds : ℕ} (h : ¬ ((w.memory process).seen.get key).any (w.now < ·) = true)
    {g : Grant P} (hg : g ∈ w.grants) (hlive : w.now < g.expiresAt) :
    (Function.update w.memory process ((w.memory process).remember w.now key ttlSeconds)
      g.process).seen.get g.key = some g.expiresAt := by
  by_cases hprocess : g.process = process
  · -- its key is another one, or the process would not have been granted it
    have hkey : g.key ≠ key := fun hkey =>
      absurd (hr.expired_of_granted h hg hprocess hkey) (not_le.mpr hlive)
    rw [hprocess, Function.update_self, MemoryDedupStore.get_remember_of_live hlive,
      InsertionMap.get_set_of_ne _ _ hkey, ← hprocess]
    exact hr.live g hg hlive
  · rw [Function.update_of_ne hprocess]
    exact hr.live g hg hlive

theorem remembered_step (hr : w.Remembered) (a : DedupAction P) :
    (w.step keyPrefix a).Remembered := by
  cases a with
  | wait ms =>
    refine ⟨fun g hg hlive => hr.live g hg ?_, hr.known, fun g hg => ?_⟩
    · exact (Nat.le_add_right w.now ms).trans_lt hlive
    · exact (hr.past g hg).trans (Nat.le_add_right w.now ms)
  | claim process key ttlSeconds reachable =>
    by_cases h : ((w.memory process).seen.get key).any (w.now < ·) = true
    · rw [step_refused h]
      exact hr
    rw [step_granted h]
    refine ⟨fun g hg hlive => ?_, fun p k e hp => ?_, fun g hg => ?_⟩
    · dsimp only at hg hlive ⊢
      rcases List.mem_cons.mp hg with rfl | hg
      · rw [Function.update_self, MemoryDedupStore.get_remember_of_live hlive,
          InsertionMap.get_set_self]
      · exact hr.live_remember h hg hlive
    · dsimp only at hp ⊢
      -- what was remembered before goes back to an older grant
      have hold : (w.memory p).seen.get k = some e →
          ∃ g ∈ (⟨process, key, w.now, w.now + ttlSeconds * 1000⟩ : Grant P) :: w.grants,
            g.process = p ∧ g.key = k ∧ g.expiresAt = e := by
        intro hk
        obtain ⟨g, hg, hfacts⟩ := hr.known p k e hk
        exact ⟨g, List.mem_cons_of_mem _ hg, hfacts⟩
      by_cases hprocess : p = process
      · subst hprocess
        rw [Function.update_self] at hp
        rcases MemoryDedupStore.get_remember hp with ⟨rfl, rfl⟩ | hk
        · exact ⟨_, List.mem_cons_self, rfl, rfl, rfl⟩
        · exact hold hk
      · rw [Function.update_of_ne hprocess] at hp
        exact hold hp
    · rcases List.mem_cons.mp hg with rfl | hg
      · exact le_rfl
      · exact hr.past g hg

/-- One process never grants a key twice. -/
theorem oncePerProcess_step (hr : w.Remembered) (h : w.OncePerProcess) (a : DedupAction P) :
    (w.step keyPrefix a).OncePerProcess := by
  cases a with
  | wait ms => exact h
  | claim process key ttlSeconds reachable =>
    by_cases hseen : ((w.memory process).seen.get key).any (w.now < ·) = true
    · rw [step_refused hseen]
      exact h
    rw [step_granted hseen]
    refine List.pairwise_cons.mpr ⟨fun g hg hprocess hkey => ?_, h⟩
    exact hr.expired_of_granted hseen hg hprocess.symm hkey.symm

/-- **Step**: a claim leaves every key granted once exactly when no other process holds it. -/
theorem grantedOnce_step_iff (hr : w.Remembered) (h : w.GrantedOnce) (a : DedupAction P) :
    (w.step keyPrefix a).GrantedOnce ↔ w.Alone a := by
  cases a with
  | wait ms => exact iff_of_true h trivial
  | claim process key ttlSeconds reachable =>
    by_cases hseen : ((w.memory process).seen.get key).any (w.now < ·) = true
    · rw [step_refused hseen]
      refine iff_of_true h fun g hg hkey hprocess => ?_
      -- the process itself holds the key, so that no other one does
      obtain ⟨e, he, hlive⟩ := (MemoryDedupStore.any_seen_iff ..).mp hseen
      obtain ⟨own, hown, rfl, hownKey, rfl⟩ := hr.known process key e he
      by_contra hlive'
      rw [not_le] at hlive'
      have heq := h.eq_of_live hr.past hg hown (hkey.trans hownKey.symm) hlive' hlive
      exact hprocess (congrArg Grant.process heq)
    rw [step_granted hseen]
    constructor
    · intro hnew g hg hkey _
      exact (List.pairwise_cons.mp hnew).1 g hg hkey.symm
    · intro halone
      refine List.pairwise_cons.mpr ⟨fun g hg hkey => ?_, h⟩
      by_cases hprocess : g.process = process
      · exact hr.expired_of_granted hseen hg hprocess hkey.symm
      · exact halone g hg hkey.symm hprocess

/-- **Dedup claims**: whatever Redis does, no process is granted a key twice within its time
    to live; and no two processes are, exactly as long as every key is claimed while no other
    process holds it. -/
theorem grantedOnce_iff_alone (keyPrefix : String) (actions : List (DedupAction P)) :
    Machine.Everywhere (Machine.total (step keyPrefix)) OncePerProcess start actions ∧
      (Machine.Everywhere (Machine.total (step keyPrefix)) GrantedOnce start actions ↔
        Machine.Along (Machine.total (step keyPrefix)) Alone start actions) := by
  have hall : Machine.Along (Machine.total (step keyPrefix)) (fun _ _ => True)
      (start : DedupWorld P) actions :=
    Machine.along_true start actions
  constructor
  · refine Machine.everywhere_of_invariant (fun w => w.Remembered ∧ w.OncePerProcess) _ ?_ ?_ ?_
      hall
    · rintro w a _ ⟨hr, h⟩ _ ⟨⟩
      exact ⟨remembered_step hr a, oncePerProcess_step hr h a⟩
    · intro w h
      exact h.2
    · exact ⟨remembered_start, .nil⟩
  · refine Machine.everywhere_iff_along_of_invariant Remembered ?_ ?_ remembered_start .nil
    · rintro w a _ hr ⟨⟩
      exact remembered_step hr a
    · rintro w a _ hr h ⟨⟩
      exact grantedOnce_step_iff hr h a

end Steps

/-- Two processes that claim an event at the same time while Redis answers are both
    granted it. -/
theorem grantedOnce_fails_on_two_processes :
    ¬ Machine.Everywhere (Machine.total (step "bothive:event:dedup:")) GrantedOnce
      (start : DedupWorld ℕ) [.claim 0 "e1" 300 true, .claim 1 "e1" 300 true] := by
  intro h
  have hlast : GrantedOnce _ := (h.2 _ rfl).2 _ rfl
  have hapart := (List.pairwise_cons.mp hlast).1 ⟨0, "e1", 0, 300000⟩ (by decide) rfl
  exact absurd hapart (by decide)

end DedupWorld

end BotHive.Events
