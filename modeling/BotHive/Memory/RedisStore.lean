import BotHive.Library.InsertionMap
import BotHive.Library.Text

/-!
# Bot memory in Redis

The workers keep the memory of a bot under keys made of a prefix, the length of the bot id, the
bot id and a name; an entry is stored with its name, a counter as a plain number. The API
reads the same memory under keys of its own.

`SCAN` is given by what it matches: `glob pattern key` is the test of Redis. Keys whose
time to live has passed are gone.

## Main definitions

- `Redis`: the keys with their values and the times at which they expire
- `RedisMemoryStore.get`, `set`, `delete`, `clear`, `getAll`, `increment`: the store of the workers
- `getBotMemory`, `deleteBotMemoryKey`, `clearBotMemory`: the view of the API
-/

namespace BotHive.Memory

structure MemoryEntry (α : Type) where
  key : String
  value : α
  /-- in seconds -/
  ttl : Option ℤ
  createdAt : ℕ
  expiresAt : Option ℕ

/-- What is stored under a key: an entry as JSON, or the number of a counter. -/
inductive Raw (α : Type) where
  | entry (e : MemoryEntry α)
  | counter (n : ℤ)

/-- A value as it is read: one that was set, or the number of a counter. -/
inductive Held (α : Type) where
  | value (v : α)
  | number (n : ℤ)
  deriving DecidableEq

structure RedisKey (α : Type) where
  raw : Raw α
  /-- in milliseconds -/
  expiresAt : Option ℕ

structure Redis (α : Type) where
  now : ℕ
  keys : InsertionMap String (RedisKey α)

variable {α : Type}

namespace Redis

def start : Redis α :=
  ⟨0, .empty⟩

def isLive (now : ℕ) (k : RedisKey α) : Bool :=
  k.expiresAt.all (now < ·)

/-- The key as far as it has not expired. -/
def lookup (s : Redis α) (key : String) : Option (RedisKey α) :=
  (s.keys.get key).filter (isLive s.now)

/-- `GET` -/
def get (s : Redis α) (key : String) : Option (Raw α) :=
  (s.lookup key).map RedisKey.raw

/-- `SET`, or `SETEX` with a time to live in seconds -/
def set (s : Redis α) (key : String) (raw : Raw α) (ttl : Option ℕ) : Redis α :=
  { s with keys := s.keys.set key ⟨raw, ttl.map fun seconds => s.now + 1000 * seconds⟩ }

/-- `DEL` of some keys, with how many of them there were -/
def del (s : Redis α) (keys : List String) : Redis α × ℕ :=
  ({ s with keys := keys.foldl (fun m key => m.delete key) s.keys },
    keys.countP fun key => (s.get key).isSome)

/-- The keys that a loop of `SCAN` finds. -/
def scan (glob : String → String → Bool) (s : Redis α) (pattern : String) : List String :=
  (s.keys.entries.filter fun e => isLive s.now e.2 && glob pattern e.1).map Prod.fst

/-- `MGET` -/
def mget (s : Redis α) (keys : List String) : List (Option (Raw α)) :=
  keys.map s.get

/-- The numbers that `INCRBY` can hold. -/
def fits (n : ℤ) : Bool :=
  -2 ^ 63 ≤ n ∧ n < 2 ^ 63

/-- The script of `increment`: `INCRBY`, and `EXPIRE` when the counter is new. An entry is no
    number, and is left alone. -/
def incrBy (s : Redis α) (key : String) (amount ttl : ℤ) : Redis α :=
  let next (old : ℤ) (expiresAt : Option ℕ) :=
    if fits (old + amount) then
      { s with
        keys := s.keys.set key
          ⟨.counter (old + amount),
            if old + amount = amount ∧ 0 < ttl then some (s.now + 1000 * ttl.toNat) else expiresAt⟩ }
    else s
  match s.lookup key with
  | none => next 0 none
  | some ⟨.counter old, expiresAt⟩ => next old expiresAt
  | some ⟨.entry _, _⟩ => s

end Redis

section Worker

def memPrefix : String := "bothive:mem"

namespace RedisMemoryStore

/-- The length of the bot id keeps ids with colons apart. -/
def key (botId name : String) : String :=
  memPrefix ++ ":" ++ toString (utf16Length botId) ++ ":" ++ botId ++ ":" ++ name

def scanKeys (botId : String) : String :=
  memPrefix ++ ":" ++ toString (utf16Length botId) ++ ":" ++ botId ++ ":*"

/-- An entry as `get` gives it. -/
def read (name : String) (now : ℕ) : Raw α → MemoryEntry (Held α)
  | .entry e =>
    { key := e.key
      value := .value e.value
      ttl := e.ttl
      createdAt := e.createdAt
      expiresAt := e.expiresAt }
  | .counter n =>
    { key := name
      value := .number n
      ttl := none
      createdAt := now
      expiresAt := none }

def get (s : Redis α) (botId name : String) : Option (MemoryEntry (Held α)) :=
  (s.get (key botId name)).map (read name s.now)

def set (s : Redis α) (botId name : String) (value : α) (ttl : Option ℤ) : Redis α :=
  let ttl := ttl.filter (0 < ·)
  let entry : MemoryEntry α :=
    { key := name
      value := value
      ttl := ttl
      createdAt := s.now
      expiresAt := ttl.map fun seconds => s.now + 1000 * seconds.toNat }
  s.set (key botId name) (.entry entry) (ttl.map Int.toNat)

def delete (s : Redis α) (botId name : String) : Redis α :=
  (s.del [key botId name]).1

variable (glob : String → String → Bool)

def clear (s : Redis α) (botId : String) : Redis α :=
  (s.del (s.scan glob (scanKeys botId))).1

def getAll (s : Redis α) (botId : String) : List (MemoryEntry (Held α)) :=
  let keys := s.scan glob (scanKeys botId)
  (keys.zip (s.mget keys)).filterMap fun (key, raw) =>
    raw.map (read (String.ofList (key.toList.drop (memPrefix.length + 1))) s.now)

def increment (s : Redis α) (botId name : String) (amount : ℤ) (ttl : Option ℤ) : Redis α :=
  s.incrBy (key botId name) amount (ttl.getD 0)

end RedisMemoryStore

end Worker

section Api

def apiKey (botId name : String) : String :=
  memPrefix ++ ":" ++ botId ++ ":" ++ name

def scanKeys (botId : String) : String :=
  memPrefix ++ ":" ++ botId ++ ":*"

variable (glob : String → String → Bool) (collate : String → String → Bool)

/-- The entries of a bot as the API lists them. A number has no name, and is left out. -/
def getBotMemory (s : Redis α) (botId : String) (maxKeys : ℕ) : List (MemoryEntry α) :=
  let keysToFetch := (s.scan glob (scanKeys botId)).take maxKeys
  let entries := (s.mget keysToFetch).filterMap fun raw =>
    match raw with
    | some (.entry e) => some e
    | _ => none
  entries.mergeSort fun a b => collate a.key b.key

def deleteBotMemoryKey (s : Redis α) (botId name : String) : Redis α × Bool :=
  let r := s.del [apiKey botId name]
  (r.1, 0 < r.2)

def clearBotMemory (s : Redis α) (botId : String) : Redis α × ℕ :=
  let keys := s.scan glob (scanKeys botId)
  if keys = [] then (s, 0) else s.del keys

end Api

/-- What the workers do to the memory, and the time that passes. -/
inductive MemoryOp (α : Type) where
  | set (botId name : String) (value : α) (ttl : Option ℤ)
  | increment (botId name : String) (amount : ℤ) (ttl : Option ℤ)
  | delete (botId name : String)
  | tick (ms : ℕ)

def MemoryOp.apply (s : Redis α) : MemoryOp α → Redis α
  | .set botId name value ttl => RedisMemoryStore.set s botId name value ttl
  | .increment botId name amount ttl => RedisMemoryStore.increment s botId name amount ttl
  | .delete botId name => RedisMemoryStore.delete s botId name
  | .tick ms => { s with now := s.now + ms }

end BotHive.Memory
