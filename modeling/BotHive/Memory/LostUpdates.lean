import BotHive.Library.Machine
import BotHive.Memory.Conversation

/-!
# Updates of the memory that are kept

When the calls have stored their values, the history of a chat should hold the messages added
to it, its context every field that was given, and the profile of a user the number of calls
that tracked the user. A call that has awaited stores again what it had read: this undoes
what was stored meanwhile. A context given in part also takes out the user id that it does not
mention, and the history that it brings is never stored.

The chat id and the time of a context are set by the call itself.

## Main definitions

- `KeepsChat`, `Keeps`: the updates of the calls that are done are all stored
- `Fresh`: what a call keeps of the value it read is still stored, and what it drops was not there

## Main results

- `keepsChat_mergeContext_iff`, `keepsChat_appendMessage_iff`: what one call keeps
- `keeps_iff_fresh`: the updates are kept in every state of a run exactly when every call
  stores a fresh value
- `not_keeps_concurrentMessages`: of two messages added at once, one is lost
-/

namespace BotHive.Memory

variable {Id α σ : Type}

section Chat

def storedHistory (c : Option (ConversationContext Id α)) : List Message :=
  (c.map (·.history.1)).getD []

def storedState (c : Option (ConversationContext Id α)) : String :=
  (c.map (·.state)).getD "start"

def storedUserId (c : Option (ConversationContext Id α)) : Option Id :=
  c.bind (·.userId)

def storedDatum (c : Option (ConversationContext Id α)) (name : String) : Option α :=
  c.bind (·.data.get name)

def PartialContext.datum (ctx : PartialContext Id α) (name : String) : Option α :=
  ctx.data.bind (·.get name)

/-- The value of a field that was given last. -/
def lastGiven {β : Type} (given : PartialContext Id α → Option β) (initial : β)
    (contexts : List (PartialContext Id α)) : β :=
  contexts.foldl (fun v ctx => (given ctx).getD v) initial

/-- What is stored for a chat, after messages were added to it and contexts given. -/
structure KeepsChat (initial stored : Option (ConversationContext Id α)) (messages : List Message)
    (contexts : List (PartialContext Id α)) : Prop where
  history : storedHistory stored = (storedHistory initial ++ messages).rtake maxHistory
  /-- A history that a context brings is not lost. -/
  given : ∀ ctx ∈ contexts, ∀ history, ctx.history = some history →
    ∀ m ∈ history, m ∈ storedHistory initial ++ messages
  state : storedState stored = lastGiven (·.state) (storedState initial) contexts
  userId : storedUserId stored = lastGiven (·.userId.map some) (storedUserId initial) contexts
  data : ∀ name, storedDatum stored name =
    lastGiven (fun ctx => (ctx.datum name).map some) (storedDatum initial name) contexts

/-- A context that is given can be stored: what it keeps of the value read is what is stored. -/
structure FreshContext (initial read stored : Option (ConversationContext Id α))
    (messages : List Message) (ctx : PartialContext Id α) : Prop where
  history : storedHistory read = storedHistory stored
  given : ∀ history, ctx.history = some history → ∀ m ∈ history, m ∈ storedHistory initial ++ messages
  state : ctx.state = none → storedState read = storedState stored
  userId : ctx.userId = none → storedUserId stored = none
  data : ∀ name, ctx.datum name = none → storedDatum read name = storedDatum stored name

/-- The value read, with its newest messages, is still stored. -/
structure FreshMessage (read stored : Option (ConversationContext Id α)) : Prop where
  history : (storedHistory read).rtake (maxHistory - 1) = (storedHistory stored).rtake (maxHistory - 1)
  state : storedState read = storedState stored
  userId : storedUserId read = storedUserId stored
  data : ∀ name, storedDatum read name = storedDatum stored name

theorem rtake_rtake {β : Type} {m n : ℕ} (l : List β) (h : m ≤ n) :
    (l.rtake n).rtake m = l.rtake m := by
  rw [List.rtake, List.rtake, List.rtake, List.drop_drop, List.length_drop]
  congr 1
  omega

theorem get_spread {β : Type} (m n : InsertionMap String β) (name : String) :
    (spread m n).get name = (n.get name).or (m.get name) :=
  InsertionMap.get_foldl_set n.nodup m name

theorem lastGiven_concat {β : Type} (given : PartialContext Id α → Option β) (initial : β)
    (contexts : List (PartialContext Id α)) (ctx : PartialContext Id α) :
    lastGiven given initial (contexts ++ [ctx]) =
      (given ctx).getD (lastGiven given initial contexts) := by
  rw [lastGiven, List.foldl_append]
  rfl

theorem History.push_eq (history : History) (message : Message) :
    (history.push message).1 = (history.1 ++ [message]).rtake maxHistory := by
  rw [History.push]
  split_ifs with h
  · rfl
  · exact (rtake_of_length_le (not_lt.mp h)).symm

section Merge

variable (read : Option (ConversationContext Id α)) (chatId : Id) (ctx : PartialContext Id α)
  (now : ℕ)

theorem storedHistory_mergeContext :
    storedHistory (some (mergeContext read chatId ctx now)) = storedHistory read := by
  cases read <;> rfl

theorem storedState_mergeContext :
    storedState (some (mergeContext read chatId ctx now)) = ctx.state.getD (storedState read) := by
  show (ctx.state.or (read.map (·.state))).getD "start" = _
  cases ctx.state <;> rfl

theorem storedDatum_mergeContext (name : String) :
    storedDatum (some (mergeContext read chatId ctx now)) name =
      (ctx.datum name).or (storedDatum read name) := by
  show (spread ((read.map (·.data)).getD .empty) (ctx.data.getD .empty)).get name = _
  rw [get_spread, PartialContext.datum]
  cases ctx.data <;> cases read <;> rfl

end Merge

variable {initial read stored : Option (ConversationContext Id α)} {messages : List Message}
  {contexts : List (PartialContext Id α)}

/-- A field keeps the value given last iff a call that does not mention it stores it again. -/
theorem getD_eq_getD_iff {β : Type} {o : Option β} {a b : β} :
    o.getD a = o.getD b ↔ (o = none → a = b) := by
  cases o with
  | none => simp
  | some v => simp

theorem keepsChat_mergeContext_iff (h : KeepsChat initial stored messages contexts) (chatId : Id)
    (ctx : PartialContext Id α) (now : ℕ) :
    KeepsChat initial (some (mergeContext read chatId ctx now)) messages (contexts ++ [ctx]) ↔
      FreshContext initial read stored messages ctx := by
  have hstate : storedState (some (mergeContext read chatId ctx now)) =
      lastGiven (·.state) (storedState initial) (contexts ++ [ctx]) ↔
        (ctx.state = none → storedState read = storedState stored) := by
    rw [storedState_mergeContext, lastGiven_concat, ← h.state, getD_eq_getD_iff]
  have huser : storedUserId (some (mergeContext read chatId ctx now)) =
      lastGiven (·.userId.map some) (storedUserId initial) (contexts ++ [ctx]) ↔
        (ctx.userId = none → storedUserId stored = none) := by
    rw [lastGiven_concat, ← h.userId]
    show ctx.userId = (ctx.userId.map some).getD (storedUserId stored) ↔ _
    cases ctx.userId with
    | none => simp [eq_comm]
    | some user => simp
  have hdata (name : String) : storedDatum (some (mergeContext read chatId ctx now)) name =
      lastGiven (fun ctx => (ctx.datum name).map some) (storedDatum initial name)
        (contexts ++ [ctx]) ↔
        (ctx.datum name = none → storedDatum read name = storedDatum stored name) := by
    rw [storedDatum_mergeContext, lastGiven_concat, ← h.data]
    cases ctx.datum name with
    | none => simp
    | some v => simp
  constructor
  · intro h'
    constructor
    · rw [h.history, ← h'.history, storedHistory_mergeContext]
    · exact h'.given ctx (List.mem_append_right contexts List.mem_cons_self)
    · exact hstate.mp h'.state
    · exact huser.mp h'.userId
    · exact fun name => (hdata name).mp (h'.data name)
  · intro hfresh
    constructor
    · rw [storedHistory_mergeContext, hfresh.history, h.history]
    · intro other hother
      rcases List.mem_append.mp hother with hold | hnew
      · exact h.given other hold
      · rw [List.mem_singleton.mp hnew]
        exact hfresh.given
    · exact hstate.mpr hfresh.state
    · exact huser.mpr hfresh.userId
    · exact fun name => (hdata name).mpr (hfresh.data name)

theorem storedHistory_appendMessage (read : Option (ConversationContext Id α)) (chatId : Id)
    (role : Role) (message : String) (now : ℕ) :
    storedHistory (some (appendMessage read chatId role message now)) =
      (storedHistory read).rtake (maxHistory - 1) ++ [⟨role, message, now⟩] := by
  have hpush (history : History) : (history.push ⟨role, message, now⟩).1 =
      history.1.rtake (maxHistory - 1) ++ [⟨role, message, now⟩] :=
    (history.push_eq _).trans (List.rtake_concat_succ history.1 (maxHistory - 1) _)
  cases read with
  | none => exact hpush .empty
  | some c => exact hpush c.history

theorem keepsChat_appendMessage_iff (h : KeepsChat initial stored messages contexts) (chatId : Id)
    (role : Role) (message : String) (now : ℕ) :
    KeepsChat initial (some (appendMessage read chatId role message now))
      (messages ++ [⟨role, message, now⟩]) contexts ↔ FreshMessage read stored := by
  have hhistory : storedHistory (some (appendMessage read chatId role message now)) =
      (storedHistory initial ++ (messages ++ [(⟨role, message, now⟩ : Message)])).rtake maxHistory ↔
        (storedHistory read).rtake (maxHistory - 1) =
          (storedHistory stored).rtake (maxHistory - 1) := by
    have hconcat := List.rtake_concat_succ (storedHistory initial ++ messages) (maxHistory - 1)
      (⟨role, message, now⟩ : Message)
    rw [h.history, rtake_rtake _ (Nat.sub_le _ _), storedHistory_appendMessage, ← List.append_assoc]
    rw [show maxHistory = maxHistory - 1 + 1 from rfl, hconcat]
    exact List.append_left_inj _
  have hstate : storedState (some (appendMessage read chatId role message now)) =
      storedState read := by
    cases read <;> rfl
  have huser : storedUserId (some (appendMessage read chatId role message now)) =
      storedUserId read := by
    cases read <;> rfl
  have hdata (name : String) : storedDatum (some (appendMessage read chatId role message now)) name =
      storedDatum read name := by
    cases read <;> rfl
  constructor
  · intro h'
    refine ⟨hhistory.mp h'.history, ?_, ?_, fun name => ?_⟩
    · rw [← hstate, h'.state, h.state]
    · rw [← huser, h'.userId, h.userId]
    · rw [← hdata, h'.data, h.data]
  · intro hfresh
    constructor
    · exact hhistory.mpr hfresh.history
    · intro ctx hctx history hgiven m hm
      rw [← List.append_assoc]
      exact List.mem_append_left _ (h.given ctx hctx history hgiven m hm)
    · rw [hstate, hfresh.state, h.state]
    · rw [huser, hfresh.userId, h.userId]
    · exact fun name => (hdata name).trans ((hfresh.data name).trans (h.data name))

end Chat

section User

def storedCount (profile : Option (UserProfile Id α)) : ℤ :=
  (profile.map (·.interactionCount)).getD 0

theorem storedCount_mergeProfile (read : Option (UserProfile Id α)) (user : UserProfile Id α)
    (now : ℕ) : storedCount (some (mergeProfile read user now)) = storedCount read + 1 := by
  cases read <;> rfl

end User

section Runs

variable (store : MemoryStore σ Id α) (text : Id → String)

/-- The message that a call adds to a chat. -/
def messageTo (chat : String) : MemoryCall Id α × ℕ → Option Message
  | (.addConversationMessage chatId role message, now) =>
    if text chatId = chat then some ⟨role, message, now⟩ else none
  | _ => none

/-- The context that a call gives to a chat. -/
def contextOf (chat : String) : MemoryCall Id α × ℕ → Option (PartialContext Id α)
  | (.setConversationContext chatId ctx, _) => if text chatId = chat then some ctx else none
  | _ => none

def tracks (id : String) : MemoryCall Id α × ℕ → Bool
  | (.trackUser user, _) => text user.id = id
  | _ => false

/-- All updates of the calls that are done are stored. -/
structure Keeps (start : σ) (s : MemoryRun σ Id α) : Prop where
  chats : ∀ chat, KeepsChat (store.conversation start chat) (store.conversation s.store chat)
    (s.done.filterMap (messageTo text chat)) (s.done.filterMap (contextOf text chat))
  users : ∀ id, storedCount (store.user s.store id) =
    storedCount (store.user start id) + s.done.countP (tracks text id)

/-- What a call that has read a store can rely on when it stores its value. -/
def MemoryCall.Fresh (start : σ) (s : MemoryRun σ Id α) (read : σ) : MemoryCall Id α → Prop
  | .setConversationContext chatId ctx =>
    FreshContext (store.conversation start (text chatId)) (store.conversation read (text chatId))
      (store.conversation s.store (text chatId)) (s.done.filterMap (messageTo text (text chatId))) ctx
  | .addConversationMessage chatId _ _ =>
    FreshMessage (store.conversation read (text chatId)) (store.conversation s.store (text chatId))
  | .trackUser user =>
    storedCount (store.user read (text user.id)) = storedCount (store.user s.store (text user.id))

/-- A call that stores its value relies on what is still so. -/
def Fresh (start : σ) (s : MemoryRun σ Id α) : MemoryAction Id α → Prop
  | .get _ _ => True
  | .set id _ => ∀ call read, s.pending id = some (call, read) → call.Fresh store text start s read

variable {store text} {start : σ} {s : MemoryRun σ Id α}

theorem keeps_start (start : σ) : Keeps store text start (.start start : MemoryRun σ Id α) where
  chats chat := by
    refine ⟨?_, ?_, rfl, rfl, fun name => rfl⟩
    · have hlength : (storedHistory (store.conversation start chat)).length ≤ maxHistory := by
        cases store.conversation start chat with
        | none => exact Nat.zero_le _
        | some c => exact c.history.2
      exact ((congrArg (List.rtake · maxHistory) (List.append_nil _)).trans
        (rtake_of_length_le hlength)).symm
    · rintro ctx ⟨⟩
  users id := (add_zero _).symm

theorem filterMap_concat {β γ : Type} (f : β → Option γ) (l : List β) (x : β) :
    (l ++ [x]).filterMap f = l.filterMap f ++ (f x).toList := by
  rw [List.filterMap_append]
  cases hx : f x with
  | none => rw [List.filterMap_cons_none hx]; rfl
  | some y => rw [List.filterMap_cons_some hx]; rfl

/-- A chat that no call is about. -/
theorem keepsChat_of_other (h : Keeps store text start s) {chat : String}
    {call : MemoryCall Id α} {now : ℕ} {t : σ}
    (hstored : store.conversation t chat = store.conversation s.store chat)
    (hmessage : messageTo text chat (call, now) = none)
    (hcontext : contextOf text chat (call, now) = none) :
    KeepsChat (store.conversation start chat) (store.conversation t chat)
      ((s.done ++ [(call, now)]).filterMap (messageTo text chat))
      ((s.done ++ [(call, now)]).filterMap (contextOf text chat)) := by
  rw [hstored, filterMap_concat, filterMap_concat, hmessage, hcontext]
  simpa only [Option.toList_none, List.append_nil] using h.chats chat

/-- A user that no call is about. -/
theorem count_of_other (h : Keeps store text start s) {id : String} {call : MemoryCall Id α}
    {now : ℕ} {t : σ} (hstored : store.user t id = store.user s.store id)
    (htracks : tracks text id (call, now) = false) :
    storedCount (store.user t id) = storedCount (store.user start id) +
      ((s.done ++ [(call, now)]).countP (tracks text id) : ℕ) := by
  rw [hstored, h.users id, List.countP_append, List.countP_singleton, htracks]
  rfl

/-- A call about one chat keeps all updates iff it keeps those of the chat. -/
theorem keeps_setConversation_iff (h : Keeps store text start s) {call : MemoryCall Id α}
    {chat : String} {ctx : ConversationContext Id α} {ttl now : ℕ} (httl : 0 < ttl)
    (pending : ℕ → Option (MemoryCall Id α × σ))
    (hmessage : ∀ other, other ≠ chat → messageTo text other (call, now) = none)
    (hcontext : ∀ other, other ≠ chat → contextOf text other (call, now) = none)
    (htracks : ∀ id, tracks text id (call, now) = false) :
    Keeps store text start
        ⟨store.setConversation s.store chat ctx ttl, pending, s.done ++ [(call, now)]⟩ ↔
      KeepsChat (store.conversation start chat) (some ctx)
        (s.done.filterMap (messageTo text chat) ++ (messageTo text chat (call, now)).toList)
        (s.done.filterMap (contextOf text chat) ++ (contextOf text chat (call, now)).toList) := by
  have hstored (other : String) :=
    store.conversation_setConversation s.store chat ctx ttl other httl
  have hself : store.conversation (store.setConversation s.store chat ctx ttl) chat = some ctx :=
    (hstored chat).trans (if_pos rfl)
  rw [← filterMap_concat, ← filterMap_concat, ← hself]
  constructor
  · intro h'
    exact h'.chats chat
  · intro hchat
    refine ⟨fun other => ?_, fun id => ?_⟩
    · by_cases hne : other = chat
      · subst hne
        exact hchat
      · exact keepsChat_of_other h ((hstored other).trans (if_neg hne)) (hmessage other hne)
          (hcontext other hne)
    · exact count_of_other h (store.user_setConversation s.store chat ctx ttl id) (htracks id)

theorem keeps_setUser_iff (h : Keeps store text start s) (user : UserProfile Id α)
    (read : σ) (pending : ℕ → Option (MemoryCall Id α × σ)) (now : ℕ) :
    Keeps store text start ⟨(MemoryCall.trackUser user).finish store text read s.store now, pending,
        s.done ++ [(.trackUser user, now)]⟩ ↔
      (MemoryCall.trackUser user).Fresh store text start s read := by
  have hstored (id : String) := store.user_setUser s.store (text user.id)
    (mergeProfile (store.user read (text user.id)) user now) 604800 id (by norm_num)
  have hcount : storedCount (store.user ((MemoryCall.trackUser user).finish store text read s.store
      now) (text user.id)) = storedCount (store.user read (text user.id)) + 1 := by
    rw [MemoryCall.finish, hstored, if_pos rfl, storedCount_mergeProfile]
  have htracks : tracks text (text user.id) (MemoryCall.trackUser user, now) = true :=
    decide_eq_true rfl
  have hdone : ((s.done ++ [(MemoryCall.trackUser user, now)]).countP
      (tracks text (text user.id)) : ℤ) = s.done.countP (tracks text (text user.id)) + 1 := by
    rw [List.countP_append, List.countP_singleton, htracks]
    rfl
  have hold := h.users (text user.id)
  constructor
  · intro h'
    have hnew := h'.users (text user.id)
    rw [hcount, hdone] at hnew
    show storedCount _ = storedCount _
    omega
  · intro hfresh
    have hread : storedCount (store.user read (text user.id)) =
        storedCount (store.user s.store (text user.id)) := hfresh
    refine ⟨fun chat => ?_, fun id => ?_⟩
    · exact keepsChat_of_other h (store.conversation_setUser s.store (text user.id) _ _ chat) rfl rfl
    · by_cases hne : id = text user.id
      · subst hne
        rw [hcount, hdone]
        omega
      · refine count_of_other h ((hstored id).trans (if_neg hne)) (decide_eq_false ?_)
        exact fun heq => hne heq.symm

theorem keeps_set_iff (h : Keeps store text start s) (call : MemoryCall Id α) (read : σ)
    (pending : ℕ → Option (MemoryCall Id α × σ)) (now : ℕ) :
    Keeps store text start ⟨call.finish store text read s.store now, pending,
      s.done ++ [(call, now)]⟩ ↔ call.Fresh store text start s read := by
  cases call with
  | setConversationContext chatId ctx =>
    have hother (other : String) (hne : other ≠ text chatId) :
        contextOf text other (MemoryCall.setConversationContext chatId ctx, now) = none :=
      if_neg fun heq => hne heq.symm
    refine (keeps_setConversation_iff h (by norm_num) pending (fun _ _ => rfl) hother
      fun _ => rfl).trans ?_
    simp only [messageTo, contextOf, if_true, Option.toList_none, Option.toList_some,
      List.append_nil]
    exact keepsChat_mergeContext_iff (h.chats (text chatId)) chatId ctx now
  | addConversationMessage chatId role message =>
    have hother (other : String) (hne : other ≠ text chatId) : messageTo text other
        ((MemoryCall.addConversationMessage chatId role message : MemoryCall Id α), now) = none :=
      if_neg fun heq => hne heq.symm
    refine (keeps_setConversation_iff h (by norm_num) pending hother (fun _ _ => rfl)
      fun _ => rfl).trans ?_
    simp only [messageTo, contextOf, if_true, Option.toList_none, Option.toList_some,
      List.append_nil]
    exact keepsChat_appendMessage_iff (h.chats (text chatId)) chatId role message now
  | trackUser user => exact keeps_setUser_iff h user read pending now

/-- **The updates are kept in every state of a run exactly when every call stores a fresh
    value.** -/
theorem keeps_iff_fresh (store : MemoryStore σ Id α) (text : Id → String) (start : σ)
    (actions : List (MemoryAction Id α)) :
    Machine.Everywhere (MemoryRun.step store text) (Keeps store text start) (.start start) actions ↔
      Machine.Along (MemoryRun.step store text) (Fresh store text start) (.start start) actions := by
  refine Machine.everywhere_iff_along (fun s action s' h hstep => ?_) (keeps_start start)
  cases action with
  | get id call =>
    rw [MemoryRun.step] at hstep
    split_ifs at hstep
    obtain rfl := Option.some.inj hstep
    exact iff_of_true ⟨h.chats, h.users⟩ trivial
  | set id now =>
    obtain ⟨⟨call, read⟩, hpending, rfl⟩ := Option.map_eq_some_iff.mp hstep
    refine (keeps_set_iff h call read _ now).trans ?_
    constructor
    · intro hfresh other read' hother
      rw [hpending] at hother
      obtain ⟨rfl, rfl⟩ := Prod.mk.inj (Option.some.inj hother)
      exact hfresh
    · exact fun hfresh => hfresh call read hpending

end Runs

section Redis

/-- What the workers store for chats and users. -/
inductive Remembered (Id α : Type) where
  | conversation (ctx : ConversationContext Id α)
  | user (profile : UserProfile Id α)

def Remembered.conversation? : Remembered Id α → Option (ConversationContext Id α)
  | .conversation ctx => some ctx
  | .user _ => none

def Remembered.user? : Remembered Id α → Option (UserProfile Id α)
  | .user profile => some profile
  | .conversation _ => none

/-- The value under a name, as far as it was set and is no counter. -/
def rememberedAs {β : Type} (read : Remembered Id α → Option β) (botId name : String)
    (s : Redis (Remembered Id α)) : Option β :=
  (RedisMemoryStore.get s botId name).bind fun e =>
    match e.value with
    | .value v => read v
    | .number _ => none

/-- A key that is set without a time to live, or with a positive one, is there. -/
theorem Redis.get_set {β : Type} (s : Redis β) (key : String) (raw : Raw β) {ttl : Option ℕ}
    (httl : ∀ seconds, ttl = some seconds → 0 < seconds) (key' : String) :
    (s.set key raw ttl).get key' = if key' = key then some raw else s.get key' := by
  have hlive : isLive s.now ⟨raw, ttl.map fun seconds => s.now + 1000 * seconds⟩ = true := by
    cases ttl with
    | none => rfl
    | some seconds =>
      have hpos := httl seconds rfl
      exact decide_eq_true (show s.now < s.now + 1000 * seconds by omega)
  simp only [Redis.get, Redis.lookup, Redis.set, InsertionMap.get_set]
  split_ifs with hkey
  · rw [Option.filter_some, if_pos hlive]
    rfl
  · rfl

theorem rememberedAs_set {β : Type} (read : Remembered Id α → Option β) (botId : String)
    (s : Redis (Remembered Id α)) (name : String) (v : Remembered Id α) (ttl : ℕ) (name' : String) :
    rememberedAs read botId name' (RedisMemoryStore.set s botId name v (some ttl)) =
      if name' = name then read v else rememberedAs read botId name' s := by
  have hkey : RedisMemoryStore.key botId name' = RedisMemoryStore.key botId name ↔ name' = name :=
    String.append_right_inj _
  rw [rememberedAs, RedisMemoryStore.get, RedisMemoryStore.set, Redis.get_set]
  · by_cases hname : name' = name
    · rw [if_pos (hkey.mpr hname), if_pos hname]
      rfl
    · rw [if_neg fun h => hname (hkey.mp h), if_neg hname]
      rfl
  · intro seconds hseconds
    obtain ⟨given, hgiven, rfl⟩ := Option.map_eq_some_iff.mp hseconds
    have hpos : 0 < given := of_decide_eq_true (Option.filter_eq_some_iff.mp hgiven).2
    omega

theorem user_ne_conv (id chat : String) : "user:" ++ id ≠ "conv:" ++ chat := by
  intro h
  have hchars := congrArg String.toList h
  rw [String.toList_append, String.toList_append] at hchars
  cases hchars

/-- The memory of a bot in Redis. -/
def redisStore (botId : String) : MemoryStore (Redis (Remembered Id α)) Id α where
  conversation s chat := rememberedAs Remembered.conversation? botId ("conv:" ++ chat) s
  user s id := rememberedAs Remembered.user? botId ("user:" ++ id) s
  setConversation s chat ctx ttl :=
    RedisMemoryStore.set s botId ("conv:" ++ chat) (.conversation ctx) (some ttl)
  setUser s id profile ttl :=
    RedisMemoryStore.set s botId ("user:" ++ id) (.user profile) (some ttl)
  conversation_setConversation s chat ctx ttl chat' _ := by
    simp only [rememberedAs_set, String.append_right_inj]
    rfl
  user_setConversation s chat ctx ttl id := by
    rw [rememberedAs_set, if_neg (user_ne_conv id chat)]
  conversation_setUser s id profile ttl chat := by
    rw [rememberedAs_set, if_neg (user_ne_conv id chat).symm]
  user_setUser s id profile ttl id' _ := by
    simp only [rememberedAs_set, String.append_right_inj]
    rfl

/-- Two messages are added to a chat at once: both calls read the chat before either of
    them stores it. -/
theorem not_keeps_concurrentMessages :
    ¬ ∀ (start : Redis (Remembered String Unit)) (actions : List (MemoryAction String Unit))
      (s : MemoryRun (Redis (Remembered String Unit)) String Unit),
      Machine.exec (MemoryRun.step (redisStore "b1") id) (.start start) actions = some s →
      (∀ i, s.pending i = none) → Keeps (redisStore "b1") id start s := by
  intro h
  let hello (i : ℕ) : MemoryAction String Unit := .get i (.addConversationMessage "7" .user "hello")
  have hrun := h .start [hello 0, hello 1, .set 0 5, .set 1 6] _ rfl fun i => by
    match i with
    | 0 => rfl
    | 1 => rfl
    | _ + 2 => rfl
  have hlength := congrArg List.length (hrun.chats "7").history
  exact absurd hlength (by decide)

end Redis

end BotHive.Memory
