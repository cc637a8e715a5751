import Mathlib.Data.List.DropRight
import BotHive.Memory.RedisStore

/-!
# Conversations and users

A bot keeps the context of each chat and the profile of each user in its memory. Every call reads
the stored value, awaits it, computes a new one and stores that: other calls can store
theirs in between.

The store is any one whose `get` and `set` are atomic (`MemoryStore`), seen at the names of chats
and users; `redisStore` is the one of the workers. Chat and user ids are texts or numbers, of
which the names hold the text. Nothing expires during a run.

## Main definitions

- `ConversationContext`, `UserProfile`: what is stored
- `mergeContext`, `appendMessage`, `mergeProfile`: what each call stores after it has read
- `MemoryRun.step`: calls that read and calls that store, in any order
-/

namespace BotHive.Memory

inductive Role where
  | user
  | bot
  deriving DecidableEq

structure Message where
  role : Role
  message : String
  timestamp : ℕ
  deriving DecidableEq

def maxHistory : ℕ := 50

/-- The messages of a chat, the newest ones last. -/
abbrev History := { messages : List Message // messages.length ≤ maxHistory }

def History.empty : History :=
  ⟨[], Nat.zero_le _⟩

theorem length_rtake_le {α : Type} (n : ℕ) (l : List α) : (l.rtake n).length ≤ n := by
  rw [List.rtake, List.length_drop]
  omega

theorem rtake_of_length_le {α : Type} {n : ℕ} {l : List α} (h : l.length ≤ n) : l.rtake n = l := by
  rw [List.rtake, Nat.sub_eq_zero_of_le h, List.drop_zero]

/-- Append a message, and drop the oldest ones. -/
def History.push (history : History) (message : Message) : History :=
  let pushed := history.1 ++ [message]
  if h : maxHistory < pushed.length then ⟨pushed.rtake maxHistory, length_rtake_le maxHistory pushed⟩
  else ⟨pushed, not_lt.mp h⟩

variable {Id α σ : Type}

structure ConversationContext (Id α : Type) where
  chatId : Id
  userId : Option Id
  state : String
  data : InsertionMap String α
  history : History
  updatedAt : ℕ

/-- A context in which every field is optional. -/
structure PartialContext (Id α : Type) where
  chatId : Option Id
  userId : Option Id
  state : Option String
  data : Option (InsertionMap String α)
  history : Option (List Message)
  updatedAt : Option ℕ

structure UserProfile (Id α : Type) where
  id : Id
  /-- username, firstName, lastName and language, as far as they are given -/
  optional : InsertionMap String (Option String)
  platform : String
  firstSeen : ℕ
  lastSeen : ℕ
  interactionCount : ℤ
  metadata : InsertionMap String α

/-- `{ ...m, ...n }` -/
def spread {β : Type} (m n : InsertionMap String β) : InsertionMap String β :=
  n.entries.foldl (fun m e => m.set e.1 e.2) m

/-- What `setConversationContext` stores: the spread context under fields of its own. -/
def mergeContext (existing : Option (ConversationContext Id α)) (chatId : Id)
    (ctx : PartialContext Id α) (now : ℕ) : ConversationContext Id α where
  userId := ctx.userId
  chatId := chatId
  state := (ctx.state.or (existing.map (·.state))).getD "start"
  data := spread ((existing.map (·.data)).getD .empty) (ctx.data.getD .empty)
  history := (existing.map (·.history)).getD .empty
  updatedAt := now

/-- What `addConversationMessage` stores. -/
def appendMessage (existing : Option (ConversationContext Id α)) (chatId : Id) (role : Role)
    (message : String) (now : ℕ) : ConversationContext Id α :=
  let ctx := existing.getD
    { chatId := chatId
      userId := none
      state := "start"
      data := .empty
      history := .empty
      updatedAt := now }
  { ctx with
    history := ctx.history.push ⟨role, message, now⟩
    updatedAt := now }

/-- What `trackUser` stores. -/
def mergeProfile (existing : Option (UserProfile Id α)) (user : UserProfile Id α) (now : ℕ) :
    UserProfile Id α where
  id := user.id
  optional := spread (existing.getD user).optional user.optional
  platform := user.platform
  firstSeen := (existing.map (·.firstSeen)).getD user.firstSeen
  lastSeen := now
  interactionCount := (existing.map (·.interactionCount)).getD 0 + 1
  metadata := spread ((existing.map (·.metadata)).getD .empty) user.metadata

/-- A store with atomic access to the contexts and profiles of a bot: what was set is what
    is read. The last argument is the time to live in seconds. -/
structure MemoryStore (σ Id α : Type) where
  conversation : σ → String → Option (ConversationContext Id α)
  user : σ → String → Option (UserProfile Id α)
  setConversation : σ → String → ConversationContext Id α → ℕ → σ
  setUser : σ → String → UserProfile Id α → ℕ → σ
  conversation_setConversation : ∀ s chat ctx ttl chat', 0 < ttl →
    conversation (setConversation s chat ctx ttl) chat' =
      if chat' = chat then some ctx else conversation s chat'
  user_setConversation : ∀ s chat ctx ttl id, user (setConversation s chat ctx ttl) id = user s id
  conversation_setUser : ∀ s id profile ttl chat,
    conversation (setUser s id profile ttl) chat = conversation s chat
  user_setUser : ∀ s id profile ttl id', 0 < ttl →
    user (setUser s id profile ttl) id' = if id' = id then some profile else user s id'

inductive MemoryCall (Id α : Type) where
  | setConversationContext (chatId : Id) (ctx : PartialContext Id α)
  | addConversationMessage (chatId : Id) (role : Role) (message : String)
  | trackUser (user : UserProfile Id α)

section Runs

variable (store : MemoryStore σ Id α) (text : Id → String)

/-- Store what a call computes from what it has read. -/
def MemoryCall.finish (call : MemoryCall Id α) (read s : σ) (now : ℕ) : σ :=
  match call with
  | .setConversationContext chatId ctx =>
    store.setConversation s (text chatId)
      (mergeContext (store.conversation read (text chatId)) chatId ctx now) 86400
  | .addConversationMessage chatId role message =>
    store.setConversation s (text chatId)
      (appendMessage (store.conversation read (text chatId)) chatId role message now) 86400
  | .trackUser user =>
    store.setUser s (text user.id) (mergeProfile (store.user read (text user.id)) user now) 604800

/-- A run of calls: the store, what the calls that still await had read, and the calls that have
    stored their value, in this order and with the time. -/
structure MemoryRun (σ Id α : Type) where
  store : σ
  pending : ℕ → Option (MemoryCall Id α × σ)
  done : List (MemoryCall Id α × ℕ)

inductive MemoryAction (Id α : Type) where
  | get (id : ℕ) (call : MemoryCall Id α)
  | set (id now : ℕ)

namespace MemoryRun

def start (s : σ) : MemoryRun σ Id α :=
  ⟨s, fun _ => none, []⟩

def step (s : MemoryRun σ Id α) : MemoryAction Id α → Option (MemoryRun σ Id α)
  | .get id call =>
    if (s.pending id).isSome then none
    else some { s with pending := Function.update s.pending id (some (call, s.store)) }
  | .set id now =>
    (s.pending id).map fun (call, read) =>
      { store := call.finish store text read s.store now
        pending := Function.update s.pending id none
        done := s.done ++ [(call, now)] }

end MemoryRun

end Runs

end BotHive.Memory
