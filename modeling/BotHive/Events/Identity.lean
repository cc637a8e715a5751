import BotHive.Events.Adapters
import BotHive.Events.Dedup
import BotHive.Library.Json
import BotHive.Library.Text

/-!
# The identity of events

An event is known by its id: a hash of the platform, the bot, the type and the id that the
platform gave it, if the payload holds one, else a random one. The worker claims the hashes
so that an event that is delivered twice is handled once. The id that is found is not
always the id of the event: two reactions to a message, or the messages of two chats with
the same number, are known by one id, and the events without an id are never recognised.

## Main definitions

- `deriveEventId`, `hasNaturalEventId`, `emit`: the id of an event and its claim
- `SourceId.Clash`, `SourceId.Numbered`: events that are known by one id, or by a lasting one
- `EmitWorld`: a worker that is handed one delivery after the other
- `Faithful`: ids tell events apart, and exactly the redeliveries are dropped
- `Telling`: the condition on a delivery

## Main results

- `eventId_iff_source`: when the ids of two deliveries are right
- `dedup_deliver`: a delivery is a claim of its id
- `faithful_iff_telling`: the ids and the claims are right exactly as long as every
  delivery is told apart from those before it
-/

namespace BotHive.Events

/-- The parts of the runtime that ids are made with: the hash, cut to its first 128 bits,
    the random ids in the order in which they are drawn, and the text of a value. -/
structure KeyRuntime where
  sha256 : String → String
  randomUUID : ℕ → String
  stringOf : Value → String
  sha256_injective : Function.Injective sha256
  randomUUID_injective : Function.Injective randomUUID
  sha256_ne_randomUUID : ∀ text n, sha256 text ≠ randomUUID n
  stringOf_str : ∀ s, stringOf (.str s) = s
  stringOf_natCast : ∀ n : ℕ, stringOf (.num n) = toString n

def DEFAULT_DEDUP_TTL_SECONDS : ℕ :=
  300

/-- The id that the platform gave an event, wherever its payload has it. -/
def naturalId (event : PlatformEventInput) : Value :=
  let payload name := (event.payload.get name).getD .undefined
  (payload "id").orElse <| (payload "messageId").orElse <| (payload "update_id").orElse <|
    (payload "tweetId").orElse <| ((payload "data").field "id").orElse <|
      (event.raw.getD .undefined).field "id"

/-- Neither nullish nor the empty text. -/
def present : Value → Bool
  | .undefined | .null => false
  | .str s => decide (s ≠ "")
  | _ => true

def hasNaturalEventId (event : PlatformEventInput) : Bool :=
  present (naturalId event)

/-- The text that is hashed. -/
def keyText (platform botId type natural : String) : String :=
  platform ++ "\x00" ++ botId ++ "\x00" ++ type ++ "\x00" ++ natural

section Emit

variable (rt : KeyRuntime)

/-- The id of an event; the next random id is given for the case that it is needed. -/
def deriveEventId (draw : ℕ) (event : PlatformEventInput) : String :=
  if present (naturalId event) then
    rt.sha256 (keyText event.platform event.botId event.type (rt.stringOf (naturalId event)))
  else rt.randomUUID draw

/-- Every entry of the table of versions is the default one. -/
def contractVersion (_platform _type : String) : ℕ :=
  1

def enrichPlatformEvent (draw : ℕ) (event : PlatformEventInput) : PlatformEvent :=
  { event with
    v := contractVersion event.platform event.type
    eventId := deriveEventId rt draw event }

/-- Stamp an event that has no id yet, claim its id, and hand it on unless the id is
    taken. A replay is handed on without a claim. -/
def emit (keyPrefix : String) (memory : MemoryDedupStore) (redis : RedisKeys) (reachable : Bool)
    (now draw : ℕ) (event : PlatformEventInput ⊕ PlatformEvent) (replay : Bool) :
    Option PlatformEvent × MemoryDedupStore × RedisKeys :=
  let enriched := event.elim (enrichPlatformEvent rt draw) id
  if !replay && hasNaturalEventId enriched.toPlatformEventInput then
    let (claimed, memory, redis) :=
      RedisDedupStore.claim (some ⟨some ioredisSet⟩) keyPrefix memory redis reachable now
        enriched.eventId DEFAULT_DEDUP_TTL_SECONDS
    (if claimed then some enriched else none, memory, redis)
  else (some enriched, memory, redis)

end Emit

namespace SourceId

/-- The platform's id of the event is in the payload. -/
def Numbered : SourceId → Prop
  | .telegramMembership _ | .discordMemberJoin _ _ _ | .slackItemReaction _ _ _
  | .slackMemberJoin _ | .slackTeamJoin _ => False
  | _ => True

/-- Two events are different but known by one id. -/
def Clash : SourceId → SourceId → Prop
  | .telegramMessage chatId messageId, .telegramMessage chatId' messageId' =>
    messageId = messageId' ∧ chatId ≠ chatId'
  | .telegramMessage _ messageId, .telegramClick id
  | .telegramClick id, .telegramMessage _ messageId => toString messageId = id.val
  | .discordReaction messageId user emoji, .discordReaction messageId' user' emoji' =>
    messageId = messageId' ∧ ¬ (user = user' ∧ emoji = emoji')
  | .slackMessage channel ts, .slackMessage channel' ts' => ts = ts' ∧ channel ≠ channel'
  | .slackReaction channel ts user reaction, .slackReaction channel' ts' user' reaction' =>
    ts = ts' ∧ ¬ (channel = channel' ∧ user = user' ∧ reaction = reaction')
  | _, _ => False

/-- Platform, type and natural id under which an event is known. -/
def knownBy : SourceId → Option (String × String × String)
  | .telegramMessage _ messageId => some ("telegram", "message", toString messageId)
  | .telegramClick id => some ("telegram", "message", id.val)
  | .discordMessage id => some ("discord", "message", id.val)
  | .discordReaction messageId _ _ => some ("discord", "reaction", messageId.val)
  | .slackMessage _ ts => some ("slack", "message", ts.val)
  | .slackReaction _ ts _ _ => some ("slack", "reaction", ts.val)
  | _ => none

/-- Two events are known by one id when they clash or are one event. -/
theorem knownBy_eq_iff (s s' : SourceId) :
    (∃ k, knownBy s = some k ∧ knownBy s' = some k) ↔ s.Clash s' ∨ s = s' ∧ s.Numbered := by
  cases s <;> cases s' <;> simp [knownBy, Clash, Numbered] <;> grind

theorem Clash.ne {s s' : SourceId} (h : s.Clash s') : s ≠ s' := by
  rintro rfl
  cases s <;> simp [Clash] at h

/-- The separator is in no part of a key but the last one. -/
theorem separated_of_knownBy {s : SourceId} {platform type natural : String}
    (h : s.knownBy = some (platform, type, natural)) :
    '\x00' ∉ platform.toList ∧ '\x00' ∉ type.toList := by
  cases s <;> simp only [knownBy, Option.some.injEq, Prod.mk.injEq, reduceCtorEq] at h <;>
    obtain ⟨rfl, rfl, -⟩ := h <;> exact ⟨by decide, by decide⟩

end SourceId

section Keys

theorem toList_keyText (platform botId type natural : String) :
    (keyText platform botId type natural).toList =
      platform.toList ++ '\x00' :: (botId.toList ++ '\x00' ::
        (type.toList ++ '\x00' :: natural.toList)) := by
  simp [keyText, String.toList_append]

/-- The hashed text tells platform, type and natural id apart. -/
theorem keyText_inj {botId platform type platform' type' : String}
    (hp : '\x00' ∉ platform.toList) (hp' : '\x00' ∉ platform'.toList)
    (ht : '\x00' ∉ type.toList) (ht' : '\x00' ∉ type'.toList) (natural natural' : String) :
    keyText platform botId type natural = keyText platform' botId type' natural' ↔
      (platform, type, natural) = (platform', type', natural') := by
  rw [← String.toList_inj, toList_keyText, toList_keyText, append_separator_inj hp hp',
    List.append_cancel_left_eq, List.cons.injEq, append_separator_inj ht ht']
  simp [String.toList_inj]

variable {event : PlatformEventInput} {v : Value}

theorem naturalId_of_id (h : event.payload.get "id" = some v) (hv : v.isNullish = false) :
    naturalId event = v := by
  simp [naturalId, h, Value.orElse_of_not_nullish hv]

theorem naturalId_of_messageId (hid : event.payload.get "id" = none)
    (h : event.payload.get "messageId" = some v) (hv : v.isNullish = false) :
    naturalId event = v := by
  simp [naturalId, hid, h, Value.orElse_of_not_nullish hv]

/-- No field that an id is looked up in has a value. -/
def Anonymous (event : PlatformEventInput) : Prop :=
  event.raw = none ∧ ∀ name ∈ ["id", "messageId", "update_id", "tweetId", "data"],
    (event.payload.get name).getD .undefined = .undefined

theorem naturalId_of_anonymous (h : Anonymous event) : naturalId event = .undefined := by
  obtain ⟨hraw, h⟩ := h
  simp only [List.mem_cons, List.not_mem_nil, or_false, forall_eq_or_imp, forall_eq] at h
  obtain ⟨hid, hmessage, hupdate, htweet, hdata⟩ := h
  simp [naturalId, hid, hmessage, hupdate, htweet, hdata, hraw, Value.field, Value.member]

variable (rt : KeyRuntime) (draw : ℕ)

theorem deriveEventId_of_present {natural : String} (hv : naturalId event = v)
    (hp : present v = true) (hn : rt.stringOf v = natural) :
    hasNaturalEventId event = true ∧ deriveEventId rt draw event =
      rt.sha256 (keyText event.platform event.botId event.type natural) := by
  subst hv hn
  exact ⟨hp, if_pos hp⟩

theorem deriveEventId_of_messageId {i : PlatformId} (hid : event.payload.get "id" = none)
    (h : event.payload.get "messageId" = some i.toValue) :
    hasNaturalEventId event = true ∧ deriveEventId rt draw event =
      rt.sha256 (keyText event.platform event.botId event.type i.val) :=
  deriveEventId_of_present rt draw (naturalId_of_messageId hid h rfl) (decide_eq_true i.property)
    (rt.stringOf_str i.val)

theorem deriveEventId_of_anonymous (h : Anonymous event) :
    hasNaturalEventId event = false ∧ deriveEventId rt draw event = rt.randomUUID draw := by
  have hv := naturalId_of_anonymous h
  constructor
  · rw [hasNaturalEventId, hv, present]
  · rw [deriveEventId, hv, present, if_neg Bool.false_ne_true]

end Keys

section Ids

variable (rt : KeyRuntime)

/-- The id that the deliveries of an event get. -/
def SourceId.eventId (botId : String) (draw : ℕ) (s : SourceId) : String :=
  match s.knownBy with
  | some (platform, type, natural) => rt.sha256 (keyText platform botId type natural)
  | none => rt.randomUUID draw

/-- What a platform event is known by is in the event that is emitted for it. -/
theorem deriveEventId_event {delivery : Delivery} {botId : String} {timestamp : Value}
    {event : PlatformEventInput} (draw : ℕ) (h : delivery.event botId timestamp = some event) :
    hasNaturalEventId event = delivery.source.knownBy.isSome ∧
      deriveEventId rt draw event = delivery.source.eventId rt botId draw := by
  obtain update | update | update := delivery
  · cases update with
    | message text sender chat messageId =>
      obtain ⟨⟩ := h
      exact deriveEventId_of_present rt draw (naturalId_of_messageId rfl rfl rfl) rfl
        (rt.stringOf_natCast messageId)
    | callbackQuery id =>
      obtain ⟨⟩ := h
      exact deriveEventId_of_present rt draw (naturalId_of_id rfl rfl) (decide_eq_true id.property)
        (rt.stringOf_str id.val)
    | myChatMember =>
      obtain ⟨⟩ := h
      exact deriveEventId_of_anonymous rt draw ⟨rfl, fun name hname => by fin_cases hname <;> rfl⟩
  · cases update with
    | messageCreate =>
      obtain ⟨-, ⟨⟩⟩ := Option.ite_none_left_eq_some.mp h
      exact deriveEventId_of_messageId rt draw rfl rfl
    | messageReactionAdd =>
      obtain ⟨-, ⟨⟩⟩ := Option.ite_none_left_eq_some.mp h
      exact deriveEventId_of_messageId rt draw rfl rfl
    | guildMemberAdd =>
      obtain ⟨⟩ := h
      exact deriveEventId_of_anonymous rt draw ⟨rfl, fun name hname => by fin_cases hname <;> rfl⟩
  · cases update with
    | message =>
      obtain ⟨-, ⟨⟩⟩ := Option.ite_none_left_eq_some.mp h
      exact deriveEventId_of_messageId rt draw rfl rfl
    | reactionAdded item =>
      obtain ⟨-, ⟨⟩⟩ := Option.ite_none_left_eq_some.mp h
      cases item with
      | message => exact deriveEventId_of_messageId rt draw rfl rfl
      | other =>
        exact deriveEventId_of_anonymous rt draw
          ⟨rfl, fun name hname => by fin_cases hname <;> rfl⟩
    | memberJoinedChannel =>
      obtain ⟨⟩ := h
      exact deriveEventId_of_anonymous rt draw ⟨rfl, fun name hname => by fin_cases hname <;> rfl⟩
    | teamJoin =>
      obtain ⟨⟩ := h
      exact deriveEventId_of_anonymous rt draw ⟨rfl, fun name hname => by fin_cases hname <;> rfl⟩

variable {rt} {botId : String} {draw draw' : ℕ}

theorem SourceId.eventId_eq_iff (hne : draw ≠ draw') (s s' : SourceId) :
    s.eventId rt botId draw = s'.eventId rt botId draw' ↔ s.Clash s' ∨ s = s' ∧ s.Numbered := by
  rw [← knownBy_eq_iff, eventId, eventId]
  cases hk : s.knownBy with
  | none =>
    cases hk' : s'.knownBy with
    -- events without an id of the platform's get random ids, which never coincide
    | none => simpa using fun h => hne (rt.randomUUID_injective h)
    | some k' => simpa using fun h => rt.sha256_ne_randomUUID _ _ h.symm
  | some k =>
    cases hk' : s'.knownBy with
    | none => simpa using rt.sha256_ne_randomUUID _ _
    | some k' =>
      obtain ⟨platform, type, natural⟩ := k
      obtain ⟨platform', type', natural'⟩ := k'
      obtain ⟨hp, ht⟩ := separated_of_knownBy hk
      obtain ⟨hp', ht'⟩ := separated_of_knownBy hk'
      dsimp only
      rw [rt.sha256_injective.eq_iff, keyText_inj hp hp' ht ht']
      simp [eq_comm]

/-- When the ids of two deliveries tell whether they deliver one event. -/
theorem eventId_iff_source (hne : draw ≠ draw') (s s' : SourceId) :
    (s.eventId rt botId draw = s'.eventId rt botId draw' ↔ s = s') ↔
      ¬ s.Clash s' ∧ (s = s' → s.Numbered) := by
  rw [SourceId.eventId_eq_iff hne]
  have hclash : s.Clash s' → s ≠ s' := SourceId.Clash.ne
  tauto

end Ids

/-- An event that was emitted, and whether it was handed on. -/
structure Emission where
  source : SourceId
  event : PlatformEvent
  emittedAt : ℕ
  handled : Bool

namespace Emission

def expiresAt (e : Emission) : ℕ :=
  e.emittedAt + DEFAULT_DEDUP_TTL_SECONDS * 1000

def natural (e : Emission) : Bool :=
  hasNaturalEventId e.event.toPlatformEventInput

/-- What the event was granted, if its id was claimed. -/
def grant? (e : Emission) : Option (Grant Unit) :=
  if e.handled && e.natural then some ⟨(), e.event.eventId, e.emittedAt, e.expiresAt⟩ else none

theorem grant?_eq_some {e : Emission} {g : Grant Unit} :
    e.grant? = some g ↔
      (e.handled = true ∧ e.natural = true) ∧
        ⟨(), e.event.eventId, e.emittedAt, e.expiresAt⟩ = g := by
  rw [grant?, Option.ite_none_right_eq_some, Bool.and_eq_true, Option.some.injEq]

end Emission

/-- The worker of a bot with its dedup store and all events so far, latest first. -/
structure EmitWorld where
  now : ℕ
  draws : ℕ
  redis : RedisKeys
  memory : MemoryDedupStore
  emitted : List Emission

inductive EmitAction where
  | deliver (delivery : Delivery) (reachable : Bool)
  | wait (ms : ℕ)

namespace EmitWorld

/-- Nothing is emitted yet. -/
def start : EmitWorld :=
  ⟨0, 0, fun _ => none, .empty, []⟩

/-- Every redelivery within the time to live of a handled event is dropped, and no other
    event is. -/
def DropsRedeliveries : List Emission → Prop
  | [] => True
  | e :: earlier =>
    (e.handled = false ↔
      ∃ h ∈ earlier, h.handled = true ∧ h.source = e.source ∧ e.emittedAt < h.expiresAt) ∧
    DropsRedeliveries earlier

/-- Two events have one id exactly when they deliver one platform event, and the claims
    tell them apart as well. -/
structure Faithful (w : EmitWorld) : Prop where
  identified : w.emitted.Pairwise fun later earlier =>
    later.event.eventId = earlier.event.eventId ↔ later.source = earlier.source
  drops : DropsRedeliveries w.emitted

section Step

variable (rt : KeyRuntime) (keyPrefix botId : String)

/-- One action. The claim of an event is one step, as the claims of `DedupWorld`. -/
def step (w : EmitWorld) : EmitAction → EmitWorld
  | .deliver delivery reachable =>
    match delivery.event botId (.num w.now) with
    | none => w
    | some event =>
      let (handed, memory, redis) :=
        emit rt keyPrefix w.memory w.redis reachable w.now w.draws (.inl event) false
      { w with
        draws := w.draws + 1
        redis := redis
        memory := memory
        emitted :=
          ⟨delivery.source, enrichPlatformEvent rt w.draws event, w.now, handed.isSome⟩ ::
            w.emitted }
  | .wait ms => { w with now := w.now + ms }

/-- What is delivered does not clash with an earlier event, and a redelivery has an id. -/
def Telling (w : EmitWorld) : EmitAction → Prop
  | .deliver delivery _ =>
    (delivery.event botId (.num w.now)).isSome → ∀ e ∈ w.emitted,
      ¬ delivery.source.Clash e.source ∧
        (delivery.source = e.source → delivery.source.Numbered)
  | .wait _ => True

end Step

/-- The claims of the worker as a world of its own, with one process. -/
def dedup (w : EmitWorld) : DedupWorld Unit :=
  ⟨w.now, w.redis, fun _ => w.memory, w.emitted.filterMap Emission.grant?⟩

section Steps

variable {rt : KeyRuntime} {keyPrefix botId : String} {w : EmitWorld}

/-- The event of a delivery is claimed when its id is not a random one. -/
theorem emit_inl (memory : MemoryDedupStore) (redis : RedisKeys) (reachable : Bool)
    (now draw : ℕ) (event : PlatformEventInput) :
    emit rt keyPrefix memory redis reachable now draw (.inl event) false =
      if hasNaturalEventId event then
        (if (memory.claim now (deriveEventId rt draw event) DEFAULT_DEDUP_TTL_SECONDS).1 then
            some (enrichPlatformEvent rt draw event) else none,
          (memory.claim now (deriveEventId rt draw event) DEFAULT_DEDUP_TTL_SECONDS).2, redis)
      else (some (enrichPlatformEvent rt draw event), memory, redis) := by
  simp only [emit, claim_ioredis, Sum.elim_inl, Bool.not_false, Bool.true_and]
  rfl

/-- An event that is emitted next. -/
def emission (rt : KeyRuntime) (w : EmitWorld) (delivery : Delivery) (event : PlatformEventInput)
    (handled : Bool) : Emission :=
  ⟨delivery.source, enrichPlatformEvent rt w.draws event, w.now, handled⟩

section Deliver

variable {delivery : Delivery} {reachable : Bool} {event : PlatformEventInput}

theorem step_random (h : delivery.event botId (.num w.now) = some event)
    (hnatural : hasNaturalEventId event = false) :
    w.step rt keyPrefix botId (.deliver delivery reachable) =
      { w with
        draws := w.draws + 1
        emitted := w.emission rt delivery event true :: w.emitted } := by
  simp only [step, h, emit_inl, hnatural, Bool.false_eq_true, if_false]
  rfl

theorem step_dropped (h : delivery.event botId (.num w.now) = some event)
    (hnatural : hasNaturalEventId event = true)
    (hseen : (w.memory.seen.get (deriveEventId rt w.draws event)).any (w.now < ·) = true) :
    w.step rt keyPrefix botId (.deliver delivery reachable) =
      { w with
        draws := w.draws + 1
        emitted := w.emission rt delivery event false :: w.emitted } := by
  simp only [step, h, emit_inl, hnatural, if_true, MemoryDedupStore.claim, if_pos hseen,
    Bool.false_eq_true, if_false]
  rfl

theorem step_claimed (h : delivery.event botId (.num w.now) = some event)
    (hnatural : hasNaturalEventId event = true)
    (hseen : ¬ (w.memory.seen.get (deriveEventId rt w.draws event)).any (w.now < ·) = true) :
    w.step rt keyPrefix botId (.deliver delivery reachable) =
      { w with
        draws := w.draws + 1
        memory := w.memory.remember w.now (deriveEventId rt w.draws event)
          DEFAULT_DEDUP_TTL_SECONDS
        emitted := w.emission rt delivery event true :: w.emitted } := by
  simp only [step, h, emit_inl, hnatural, if_true, MemoryDedupStore.claim, if_neg hseen]
  rfl

/-- A delivery claims the id of its event, if that is not a random one. -/
theorem dedup_deliver (h : delivery.event botId (.num w.now) = some event) :
    (w.step rt keyPrefix botId (.deliver delivery reachable)).dedup =
      if hasNaturalEventId event then
        w.dedup.step keyPrefix
          (.claim () (deriveEventId rt w.draws event) DEFAULT_DEDUP_TTL_SECONDS reachable)
      else w.dedup := by
  cases hnatural : hasNaturalEventId event with
  | false =>
    rw [step_random h hnatural, if_neg Bool.false_ne_true]
    have hgrant : (w.emission rt delivery event true).grant? = none :=
      if_neg fun h => Bool.false_ne_true (hnatural.symm.trans h)
    rw [dedup, List.filterMap_cons_none hgrant, dedup]
  | true =>
    rw [if_pos rfl]
    by_cases hseen : (w.memory.seen.get (deriveEventId rt w.draws event)).any (w.now < ·) = true
    · rw [step_dropped h hnatural hseen, DedupWorld.step_refused]
      · rfl
      · exact hseen
    · have hgrant : (w.emission rt delivery event true).grant? =
          some ⟨(), deriveEventId rt w.draws event, w.now,
            w.now + DEFAULT_DEDUP_TTL_SECONDS * 1000⟩ :=
        if_pos hnatural
      have hmemory (m : MemoryDedupStore) :
          Function.update (fun _ : Unit => w.memory) () m = fun _ => m :=
        funext fun _ => Function.update_self ..
      rw [step_claimed h hnatural hseen, DedupWorld.step_granted]
      · rw [dedup, List.filterMap_cons_some hgrant, dedup]
        dsimp only
        rw [hmemory]
      · exact hseen

variable (rt keyPrefix reachable) in
/-- What a delivery adds to the events, and when its event is dropped. -/
theorem step_deliver (h : delivery.event botId (.num w.now) = some event) :
    ∃ handled, (w.step rt keyPrefix botId (.deliver delivery reachable)).emitted =
        w.emission rt delivery event handled :: w.emitted ∧
      (w.step rt keyPrefix botId (.deliver delivery reachable)).draws = w.draws + 1 ∧
      (handled = false ↔ hasNaturalEventId event = true ∧
        (w.memory.seen.get (deriveEventId rt w.draws event)).any (w.now < ·) = true) := by
  cases hnatural : hasNaturalEventId event with
  | false =>
    rw [step_random h hnatural]
    exact ⟨true, rfl, rfl, by simp⟩
  | true =>
    by_cases hseen : (w.memory.seen.get (deriveEventId rt w.draws event)).any (w.now < ·) = true
    · rw [step_dropped h hnatural hseen]
      exact ⟨false, rfl, rfl, by simp [hseen]⟩
    · rw [step_claimed h hnatural hseen]
      exact ⟨true, rfl, rfl, by simp [hseen]⟩

end Deliver

/-- The events have the ids of what they deliver, and the store holds the claims. -/
structure Stamped (rt : KeyRuntime) (botId : String) (w : EmitWorld) : Prop where
  ids : ∀ e ∈ w.emitted, ∃ draw < w.draws,
    e.event.eventId = e.source.eventId rt botId draw ∧ (e.natural = true ↔ e.source.Numbered)
  remembered : w.dedup.Remembered

theorem numbered_iff (s : SourceId) : s.Numbered ↔ s.knownBy.isSome = true := by
  have h := SourceId.knownBy_eq_iff s s
  simp only [and_self, true_and] at h
  rw [Option.isSome_iff_exists, h]
  exact ⟨Or.inr, fun h => h.resolve_left fun hclash => hclash.ne rfl⟩

theorem stamped_start : start.Stamped rt botId where
  ids _ h := absurd h List.not_mem_nil
  remembered := DedupWorld.remembered_start

theorem stamped_step (hs : w.Stamped rt botId) (a : EmitAction) :
    (w.step rt keyPrefix botId a).Stamped rt botId := by
  cases a with
  | wait ms =>
    have hdedup : (w.dedup.step keyPrefix (.wait ms)).Remembered :=
      DedupWorld.remembered_step hs.remembered _
    exact ⟨hs.ids, hdedup⟩
  | deliver delivery reachable =>
    cases h : delivery.event botId (.num w.now) with
    | none =>
      have hstep : w.step rt keyPrefix botId (.deliver delivery reachable) = w := by
        simp only [step, h]
      rw [hstep]
      exact hs
    | some event =>
      refine ⟨fun e he => ?_, ?_⟩
      · obtain ⟨handled, hemitted, hdraws, -⟩ :=
          step_deliver rt keyPrefix reachable h
        rw [hemitted] at he
        rw [hdraws]
        rcases List.mem_cons.mp he with rfl | he
        · obtain ⟨hnatural, hid⟩ := deriveEventId_event rt w.draws h
          refine ⟨w.draws, Nat.lt_succ_self _, hid, ?_⟩
          exact (Bool.coe_iff_coe.mpr hnatural).trans (numbered_iff delivery.source).symm
        · obtain ⟨draw, hdraw, hfacts⟩ := hs.ids e he
          exact ⟨draw, hdraw.trans (Nat.lt_succ_self _), hfacts⟩
      · rw [dedup_deliver h]
        split_ifs
        · exact DedupWorld.remembered_step hs.remembered _
        · exact hs.remembered

/-- Whether an event is dropped is read off the events before it. -/
theorem any_seen_iff (hs : w.Stamped rt botId) (id : String) :
    (w.memory.seen.get id).any (w.now < ·) = true ↔
      ∃ e ∈ w.emitted, e.handled = true ∧ e.natural = true ∧ e.event.eventId = id ∧
        w.now < e.expiresAt := by
  rw [MemoryDedupStore.any_seen_iff]
  constructor
  · rintro ⟨expiresAt, hid, hlive⟩
    obtain ⟨g, hg, -, rfl, rfl⟩ := hs.remembered.known () id expiresAt hid
    obtain ⟨e, he, hgrant⟩ := List.mem_filterMap.mp hg
    obtain ⟨⟨hhandled, hnatural⟩, rfl⟩ := Emission.grant?_eq_some.mp hgrant
    exact ⟨e, he, hhandled, hnatural, rfl, hlive⟩
  · rintro ⟨e, he, hhandled, hnatural, rfl, hlive⟩
    have hg : (⟨(), e.event.eventId, e.emittedAt, e.expiresAt⟩ : Grant Unit) ∈ w.dedup.grants :=
      List.mem_filterMap.mpr ⟨e, he, Emission.grant?_eq_some.mpr ⟨⟨hhandled, hnatural⟩, rfl⟩⟩
    exact ⟨e.expiresAt, hs.remembered.live _ hg hlive, hlive⟩

/-- The ids of a new event and of one before it tell whether they deliver one platform event
    exactly when the new one is told apart. -/
theorem identified_iff (hs : w.Stamped rt botId) {delivery : Delivery} {event : PlatformEventInput}
    (hevent : delivery.event botId (.num w.now) = some event) (handled : Bool) {e : Emission}
    (he : e ∈ w.emitted) :
    ((w.emission rt delivery event handled).event.eventId = e.event.eventId ↔
        delivery.source = e.source) ↔
      ¬ delivery.source.Clash e.source ∧
        (delivery.source = e.source → delivery.source.Numbered) := by
  obtain ⟨-, hid⟩ := deriveEventId_event rt w.draws hevent
  obtain ⟨draw, hdraw, heid, -⟩ := hs.ids e he
  rw [heid, ← eventId_iff_source hdraw.ne', ← hid]
  rfl

/-- **Step**: a delivery leaves the ids right and drops exactly the redeliveries when it is
    told apart from the events before it. -/
theorem faithful_step_iff (hs : w.Stamped rt botId) (h : w.Faithful) (a : EmitAction) :
    (w.step rt keyPrefix botId a).Faithful ↔ w.Telling botId a := by
  cases a with
  | wait ms => exact iff_of_true ⟨h.identified, h.drops⟩ trivial
  | deliver delivery reachable =>
    cases hevent : delivery.event botId (.num w.now) with
    | none =>
      have hstep : w.step rt keyPrefix botId (.deliver delivery reachable) = w := by
        simp only [step, hevent]
      rw [hstep]
      refine iff_of_true h fun hsome => ?_
      rw [hevent] at hsome
      exact absurd hsome Bool.false_ne_true
    | some event =>
      obtain ⟨handled, hemitted, -, hhandled⟩ := step_deliver rt keyPrefix reachable hevent
      obtain ⟨hnatural, -⟩ := deriveEventId_event rt w.draws hevent
      have hids (e : Emission) (he : e ∈ w.emitted) :=
        identified_iff hs hevent handled he
      constructor
      · intro hnew _ e he
        have hpairs := hnew.identified
        rw [hemitted, List.pairwise_cons] at hpairs
        exact (hids e he).mp (hpairs.1 e he)
      · intro htell
        replace htell := htell (by rw [hevent, Option.isSome_some])
        have htold (e : Emission) (he : e ∈ w.emitted) := (hids e he).mpr (htell e he)
        -- the store knows the handled events by their ids, and these tell the sources
        have hdrops : handled = false ↔ ∃ e ∈ w.emitted,
            e.handled = true ∧ e.source = delivery.source ∧ w.now < e.expiresAt := by
          rw [hhandled, any_seen_iff hs]
          constructor
          · rintro ⟨-, e, he, hdone, -, hsame, hlive⟩
            exact ⟨e, he, hdone, ((htold e he).mp hsame.symm).symm, hlive⟩
          · rintro ⟨e, he, hdone, hsource, hlive⟩
            have hnumbered := (htell e he).2 hsource.symm
            obtain ⟨draw, -, -, hnatural'⟩ := hs.ids e he
            refine ⟨hnatural.trans ((numbered_iff _).mp hnumbered), e, he, hdone, ?_,
              ((htold e he).mpr hsource.symm).symm, hlive⟩
            exact hnatural'.mpr (hsource ▸ hnumbered)
        constructor
        · rw [hemitted]
          exact List.pairwise_cons.mpr ⟨htold, h.identified⟩
        · rw [hemitted]
          exact ⟨hdrops, h.drops⟩

/-- **Event identity**: in every run of deliveries to the worker of a bot two events have one
    id exactly when they deliver one platform event, and exactly the redeliveries within the
    time to live are dropped, as long as no delivery clashes with an earlier event and every
    event that is delivered again has an id of the platform's in its payload. -/
theorem faithful_iff_telling (rt : KeyRuntime) (keyPrefix botId : String)
    (actions : List EmitAction) :
    Machine.Everywhere (Machine.total (step rt keyPrefix botId)) Faithful start actions ↔
      Machine.Along (Machine.total (step rt keyPrefix botId)) (Telling botId) start actions := by
  refine Machine.everywhere_iff_along_of_invariant (Stamped rt botId) ?_ ?_ stamped_start
    ⟨.nil, trivial⟩
  · rintro w a _ hs ⟨⟩
    exact stamped_step hs a
  · rintro w a _ hs h ⟨⟩
    exact faithful_step_iff hs h a

end Steps

/-- A runtime whose hash and random ids are marked texts. -/
def plainKeys : KeyRuntime where
  sha256 text := "h" ++ text
  randomUUID n := "u" ++ toString n
  stringOf v :=
    match v with
    | .str s => s
    | .num q => toString q.num.toNat
    | _ => ""
  sha256_injective _ _ h := (String.append_right_inj "h").mp h
  randomUUID_injective m n h := Nat.repr_inj.mp ((String.append_right_inj "u").mp h)
  sha256_ne_randomUUID text n h := by
    have hlist := congrArg String.toList h
    simp [String.toList_append] at hlist
  stringOf_str _ := rfl
  stringOf_natCast _ := rfl

/-- A reaction to one message by a user. -/
def reactionBy (user : PlatformId) : Delivery :=
  .discord (.messageReactionAdd ⟨"m1", by decide⟩ ⟨"c1", by decide⟩ none ⟨none, some "👍"⟩
    ⟨user, "name", "0", false⟩)

/-- The reactions of two users to one message are known by one id, and the second one is
    dropped. -/
theorem faithful_fails_on_two_reactions :
    ¬ Machine.Everywhere (Machine.total (step plainKeys "bothive:event:dedup:" "b1")) Faithful
      start
      [.deliver (reactionBy ⟨"u1", by decide⟩) true,
        .deliver (reactionBy ⟨"u2", by decide⟩) true] := by
  intro h
  have hlast : Faithful _ := (h.2 _ rfl).2 _ rfl
  have hpair := (List.pairwise_cons.mp hlast.identified).1 _ List.mem_cons_self
  exact absurd (hpair.mp (by decide +kernel)) (by decide +kernel)

end EmitWorld

end BotHive.Events
