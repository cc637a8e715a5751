import BotHive.Webhooks.Dispatch
import BotHive.Library.Machine

/-!
# Who receives the events of a bot

A webhook that names a bot belongs to the owner of the bot, in every state that the routes
lead to. A webhook for all bots matches the events of every tenant, so the deliveries stay
with the owner exactly when no query finds a webhook for all bots of somebody else.

## Main definitions

- `OnlyOwn`: what has been enqueued went to webhooks of the owner of the bot
- `GlobalsAreOwn`: the webhooks for all bots that a query finds are the owner's
- `Sound`: who owns the rows, and where the cached matches come from
- `Effect`: what a step does

## Main results

- `sound_step`: every step keeps the tables and the caches sound
- `onlyOwn_step_iff`: which steps enqueue for webhooks of the owner only
-/

namespace BotHive.Webhooks

/-- Everything enqueued so far went to webhooks of the owner of the bot. -/
def OnlyOwn (s : State) : Prop :=
  ∀ e ∈ s.enqueued, ∃ ownerId, s.botOwners.get e.2.botId = some ownerId ∧
    s.webhookOwners.get e.1.webhookId = some ownerId

/-- The enabled webhooks for all bots that a query finds subscribed to the type of its event
    belong to the owner of the bot. -/
def GlobalsAreOwn (s : State) : Action → Prop
  | .answer i => ∀ worker event, s.queries[i]? = some (worker, event) →
      ∀ w ∈ s.webhooks, w.enabled = true → w.botId = none → event.type ∈ w.events →
        s.botOwners.get event.botId = some w.ownerId
  | _ => True

/-- The rows are on record, and a webhook that names a bot has the owner of the bot. -/
structure SoundTables (s : State) : Prop where
  webhook_owner : ∀ w ∈ s.webhooks, s.webhookOwners.get w.id = some w.ownerId
  webhook_bot : ∀ w ∈ s.webhooks, ∀ id, w.botId = some id →
    s.botOwners.get id = some w.ownerId
  bot_owner : ∀ id ownerId, s.bots.get id = some ownerId → s.botOwners.get id = some ownerId

/-- The dispatchers look up bots that are on record, and what they remember has been
    enqueued for the same bot before. -/
structure SoundDispatch (s : State) : Prop where
  query_bot : ∀ q ∈ s.queries, ∃ ownerId, s.botOwners.get q.2.botId = some ownerId
  cached : ∀ worker key entry, (s.cache worker).get key = some entry →
    ∀ job ∈ entry.webhooks, ∃ e ∈ s.enqueued, e.1.webhookId = job.webhookId ∧ e.2.botId = key.1

structure Sound (s : State) : Prop where
  tables : SoundTables s
  dispatch : SoundDispatch s

section Effects

/-- What a step does. A request that the routes turn down changes nothing. -/
inductive Effect (s : State) : Action → State → Prop
  | turnedDown {a} (request : a.isRequest = true) : Effect s a s
  | create {ownerId cuid body} (new : ¬ s.webhookOwners.has cuid = true)
    (scope : mayScope s ownerId body.botId = true) :
    Effect s (.webhook ownerId (.create cuid body)) { s with
      webhooks := s.webhooks ++ [{
        id := cuid
        ownerId
        name := body.name
        url := body.url
        events := body.events
        botId := body.botId
        secret := body.secret
        enabled := body.enabled.getD true }]
      webhookOwners := s.webhookOwners.set cuid ownerId }
  | update {ownerId id patch} (scope : mayScope s ownerId (patch.botId.getD none) = true) :
    Effect s (.webhook ownerId (.update id patch)) { s with
      webhooks := s.webhooks.map fun w => if w.scoped ownerId id then w.patched patch else w }
  | delete {ownerId id} :
    Effect s (.webhook ownerId (.delete id)) { s with
      webhooks := s.webhooks.filter fun w => !w.scoped ownerId id }
  | createBot {ownerId cuid} (new : ¬ s.botOwners.has cuid = true) :
    Effect s (.createBot ownerId cuid) { s with
      bots := s.bots.set cuid ownerId
      botOwners := s.botOwners.set cuid ownerId }
  | deleteBot {ownerId id} (own : s.bots.get id = some ownerId) :
    Effect s (.deleteBot ownerId id) (deleteBot s ownerId id)
  | bulkDeleteBot {ownerId id} (own : s.bots.get id = some ownerId) :
    Effect s (.bulkDeleteBot id) (deleteBot s ownerId id)
  | dispatch {worker event} (known : s.botOwners.has event.botId = true) :
    Effect s (.dispatch worker event) (dispatchWebhooks s worker event)
  | answer {i worker event} (waits : s.queries[i]? = some (worker, event)) :
    Effect s (.answer i) (answerQuery (takeQuery s i) worker event)
  | tick {ms} : Effect s (.tick ms) { s with now := s.now + ms }

theorem effect_of_write {s s' : State} {ownerId : String} {request : WebhookRequest}
    (h : request.write s ownerId = some s') : Effect s (.webhook ownerId request) s' := by
  cases request with
  | create cuid body =>
    simp only [WebhookRequest.write] at h
    split_ifs at h with hnew hscope <;> cases h
    · exact .create hnew hscope
    · exact .turnedDown rfl
  | update id patch =>
    simp only [WebhookRequest.write] at h
    split_ifs at h with hscope <;> cases h
    · exact .update hscope
    · exact .turnedDown rfl
  | delete id =>
    cases h
    exact .delete

theorem effect_of_step {s s' : State} {a : Action} (h : step s a = some s') : Effect s a s' := by
  cases a with
  | webhook ownerId request => exact effect_of_write h
  | createBot ownerId cuid =>
    simp only [step] at h
    split_ifs at h with hnew
    cases h
    exact .createBot (not_or.mp hnew).2
  | deleteBot ownerId id =>
    simp only [step] at h
    split_ifs at h with hown <;> cases h
    · exact .deleteBot hown
    · exact .turnedDown rfl
  | bulkDeleteBot id =>
    simp only [step] at h
    split at h <;> cases h
    case h_1 ownerId hown => exact .bulkDeleteBot hown
    case h_2 => exact .turnedDown rfl
  | dispatch worker event =>
    simp only [step] at h
    split_ifs at h with hknown
    cases h
    exact .dispatch hknown
  | answer i =>
    obtain ⟨⟨worker, event⟩, hwaits, rfl⟩ := Option.map_eq_some_iff.mp h
    exact .answer hwaits
  | tick ms =>
    cases h
    exact .tick

end Effects

section Frames

/-- The dispatchers have not moved. -/
structure SameDispatch (s s' : State) : Prop where
  now : s'.now = s.now
  cache : s'.cache = s.cache
  queries : s'.queries = s.queries
  enqueued : s'.enqueued = s.enqueued

/-- A request to the API writes tables only. -/
theorem Effect.sameDispatch {s s' : State} {a : Action} (h : Effect s a s')
    (ha : a.isRequest = true) : SameDispatch s s' := by
  cases h with
  | dispatch | answer | tick => cases ha
  | _ => exact ⟨rfl, rfl, rfl, rfl⟩

end Frames

section Records

/-- The records keep what they hold. -/
structure Grows (s s' : State) : Prop where
  webhooks : ∀ id ownerId, s.webhookOwners.get id = some ownerId →
    s'.webhookOwners.get id = some ownerId
  bots : ∀ id ownerId, s.botOwners.get id = some ownerId → s'.botOwners.get id = some ownerId

theorem get_set_of_new {κ α : Type*} [DecidableEq κ] {m : InsertionMap κ α} {k x : κ} {v w : α}
    (hnew : ¬ m.has k = true) (h : m.get x = some w) : (m.set k v).get x = some w := by
  have hne : x ≠ k := by
    rintro rfl
    exact hnew (by rw [InsertionMap.has, h]; rfl)
  rw [m.get_set_of_ne v hne, h]

theorem Effect.grows {s s' : State} {a : Action} (h : Effect s a s') : Grows s s' := by
  cases h with
  | create new => exact ⟨fun id ownerId hid => get_set_of_new new hid, fun _ _ hid => hid⟩
  | createBot new => exact ⟨fun _ _ hid => hid, fun id _ hid => get_set_of_new new hid⟩
  | dispatch =>
    rw [dispatchWebhooks]
    split <;> exact ⟨fun _ _ hid => hid, fun _ _ hid => hid⟩
  | _ => exact ⟨fun _ _ hid => hid, fun _ _ hid => hid⟩

end Records

section TablesKept

variable {s : State}

theorem SoundTables.mayScope (h : SoundTables s) {ownerId id : String}
    (hscope : mayScope s ownerId (some id) = true) : s.botOwners.get id = some ownerId :=
  h.bot_owner id ownerId (by simpa [Webhooks.mayScope] using hscope)

/-- The rows may be rewritten as long as each keeps its id and its owner and names only bots
    that it named before or that are its owner's. -/
theorem SoundTables.rewrite (h : SoundTables s) {f : Webhook → Webhook}
    (hid : ∀ w, (f w).id = w.id) (howner : ∀ w, (f w).ownerId = w.ownerId)
    (hbot : ∀ w id, (f w).botId = some id →
      w.botId = some id ∨ s.botOwners.get id = some w.ownerId) :
    SoundTables { s with webhooks := s.webhooks.map f } where
  webhook_owner := by
    intro w' hw'
    obtain ⟨w, hw, rfl⟩ := List.mem_map.mp hw'
    rw [hid, howner]
    exact h.webhook_owner w hw
  webhook_bot := by
    intro w' hw' id hb
    obtain ⟨w, hw, rfl⟩ := List.mem_map.mp hw'
    rw [howner]
    exact (hbot w id hb).elim (h.webhook_bot w hw id) fun hown => hown
  bot_owner := h.bot_owner

theorem SoundTables.create (h : SoundTables s) {w : Webhook}
    (hnew : ¬ s.webhookOwners.has w.id = true)
    (hscope : Webhooks.mayScope s w.ownerId w.botId = true) :
    SoundTables { s with
      webhooks := s.webhooks ++ [w]
      webhookOwners := s.webhookOwners.set w.id w.ownerId } where
  webhook_owner := by
    intro w' hw'
    rcases List.mem_append.mp hw' with hw' | hw'
    · exact get_set_of_new hnew (h.webhook_owner w' hw')
    · obtain rfl := List.mem_singleton.mp hw'
      exact s.webhookOwners.get_set_self w'.id w'.ownerId
  webhook_bot := by
    intro w' hw' id hb
    rcases List.mem_append.mp hw' with hw' | hw'
    · exact h.webhook_bot w' hw' id hb
    · obtain rfl := List.mem_singleton.mp hw'
      rw [hb] at hscope
      exact h.mayScope hscope
  bot_owner := h.bot_owner

/-- A patch names the bot of before, or one that the owner was checked for. -/
theorem SoundTables.update (h : SoundTables s) {ownerId : String} (id : String)
    {patch : WebhookPatch} (hscope : Webhooks.mayScope s ownerId (patch.botId.getD none) = true) :
    SoundTables { s with
      webhooks := s.webhooks.map fun w => if w.scoped ownerId id then w.patched patch else w } := by
  refine h.rewrite (fun w => ?_) (fun w => ?_) (fun w b hb => ?_)
  · split_ifs <;> rfl
  · split_ifs <;> rfl
  · split_ifs at hb with hw
    · have howner : w.ownerId = ownerId := by
        simp only [Webhook.scoped, Bool.and_eq_true, decide_eq_true_eq] at hw
        exact hw.2
      simp only [Webhook.patched] at hb
      cases hpatch : patch.botId with
      | none =>
        rw [hpatch] at hb
        exact .inl hb
      | some botId =>
        rw [hpatch, Option.getD_some] at hb hscope
        rw [hb] at hscope
        rw [howner]
        exact .inr (h.mayScope hscope)
    · exact .inl hb

theorem SoundTables.delete (h : SoundTables s) (p : Webhook → Bool) :
    SoundTables { s with webhooks := s.webhooks.filter p } :=
  ⟨fun w hw => h.webhook_owner w (List.mem_of_mem_filter hw),
    fun w hw => h.webhook_bot w (List.mem_of_mem_filter hw), h.bot_owner⟩

theorem Webhook.detached_botId {ownerId id b : String} {w : Webhook}
    (h : (w.detached ownerId id).botId = some b) : w.botId = some b := by
  simp only [detached] at h
  split_ifs at h
  exact h

theorem SoundTables.deleteBot (h : SoundTables s) (ownerId id : String) :
    SoundTables (deleteBot s ownerId id) := by
  have hrows : SoundTables { s with webhooks := s.webhooks.map (Webhook.detached ownerId id) } := by
    refine h.rewrite (fun w => ?_) (fun w => ?_) (fun w b hb => .inl (Webhook.detached_botId hb))
    · simp only [Webhook.detached]
      split_ifs <;> rfl
    · simp only [Webhook.detached]
      split_ifs <;> rfl
  refine ⟨hrows.webhook_owner, hrows.webhook_bot, fun b o hb => h.bot_owner b o ?_⟩
  have hget : (s.bots.delete id).get b = some o := hb
  rw [InsertionMap.get_delete] at hget
  split_ifs at hget
  exact hget

theorem SoundTables.createBot (h : SoundTables s) {ownerId cuid : String}
    (hnew : ¬ s.botOwners.has cuid = true) :
    SoundTables { s with
      bots := s.bots.set cuid ownerId, botOwners := s.botOwners.set cuid ownerId } where
  webhook_owner := h.webhook_owner
  webhook_bot := fun w hw id hid => get_set_of_new hnew (h.webhook_bot w hw id hid)
  bot_owner := by
    intro id o hid
    show (s.botOwners.set cuid ownerId).get id = some o
    have hget : (s.bots.set cuid ownerId).get id = some o := hid
    rw [InsertionMap.get_set] at hget ⊢
    split_ifs at hget ⊢ with hcuid
    · exact hget
    · exact h.bot_owner id o hget

end TablesKept

section DispatchKept

variable {s : State}

/-- The dispatchers rely on the records and on what has been enqueued. -/
theorem SoundDispatch.of_same (h : SoundDispatch s) {s' : State} (hgrows : Grows s s')
    (hsame : SameDispatch s s') : SoundDispatch s' where
  query_bot := by
    rw [hsame.queries]
    intro q hq
    obtain ⟨ownerId, howner⟩ := h.query_bot q hq
    exact ⟨ownerId, hgrows.bots _ _ howner⟩
  cached := by
    rw [hsame.cache, hsame.enqueued]
    exact h.cached

theorem mem_enqueue {event : WebhookDispatchEvent} {webhooks : List WebhookJobData}
    {e : WebhookJobData × WebhookDispatchEvent} :
    e ∈ (enqueue s event webhooks).enqueued ↔
      e ∈ s.enqueued ∨ e.1 ∈ webhooks ∧ e.2 = event := by
  obtain ⟨job, event'⟩ := e
  simp only [enqueue, List.mem_append, List.mem_map, Prod.mk.injEq]
  constructor
  · rintro (h | ⟨job', hjob, rfl, rfl⟩)
    · exact .inl h
    · exact .inr ⟨hjob, rfl⟩
  · rintro (h | ⟨hjob, rfl⟩)
    · exact .inl h
    · exact .inr ⟨job, hjob, rfl, rfl⟩

theorem SoundDispatch.enqueue (h : SoundDispatch s) (event : WebhookDispatchEvent)
    (webhooks : List WebhookJobData) : SoundDispatch (enqueue s event webhooks) where
  query_bot := h.query_bot
  cached := by
    intro worker key entry hentry job hjob
    obtain ⟨e, he, hsame⟩ := h.cached worker key entry hentry job hjob
    exact ⟨e, mem_enqueue.mpr (.inl he), hsame⟩

theorem SoundDispatch.dispatchWebhooks (h : SoundDispatch s) (worker : ℕ)
    {event : WebhookDispatchEvent} (hbot : s.botOwners.has event.botId = true) :
    SoundDispatch (dispatchWebhooks s worker event) := by
  rw [Webhooks.dispatchWebhooks]
  split
  · exact h.enqueue event _
  · refine ⟨fun q hq => ?_, h.cached⟩
    rcases List.mem_append.mp hq with hq | hq
    · exact h.query_bot q hq
    · obtain rfl := List.mem_singleton.mp hq
      exact Option.isSome_iff_exists.mp hbot

theorem SoundDispatch.answerQuery (h : SoundDispatch s) (worker : ℕ)
    (event : WebhookDispatchEvent) : SoundDispatch (answerQuery s worker event) where
  query_bot := h.query_bot
  cached := by
    intro worker' key entry hentry job hjob
    simp only [Webhooks.answerQuery] at hentry ⊢
    -- an entry of before, or the one that this answer is remembered as
    have hcases : (s.cache worker').get key = some entry ∨
        key = webhookMatchCacheKey event ∧
          entry.webhooks = matchingWebhooks s.webhooks event := by
      by_cases hworker : worker' = worker
      · subst hworker
        simp only [Webhooks.enqueue, Function.update_self, cacheWebhookMatch,
          InsertionMap.get_set] at hentry
        split_ifs at hentry with hkey
        · cases hentry
          exact .inr ⟨hkey, rfl⟩
        · exact .inl (InsertionMap.get_evict_of_some hentry)
      · simp only [Webhooks.enqueue, Function.update_of_ne hworker] at hentry
        exact .inl hentry
    rcases hcases with hold | ⟨rfl, hwebhooks⟩
    · obtain ⟨e, he, hsame⟩ := h.cached worker' key entry hold job hjob
      exact ⟨e, mem_enqueue.mpr (.inl he), hsame⟩
    · rw [hwebhooks] at hjob
      exact ⟨(job, event), mem_enqueue.mpr (.inr ⟨hjob, rfl⟩), rfl, rfl⟩

end DispatchKept

theorem SoundTables.step {s s' : State} {a : Action} (hs : SoundTables s)
    (h : Effect s a s') : SoundTables s' := by
  cases h with
  | turnedDown => exact hs
  | create new scope => exact hs.create new scope
  | update scope => exact hs.update _ scope
  | delete => exact hs.delete _
  | createBot new => exact hs.createBot new
  | deleteBot | bulkDeleteBot => exact hs.deleteBot _ _
  | dispatch =>
    rw [Webhooks.dispatchWebhooks]
    split <;> exact ⟨hs.webhook_owner, hs.webhook_bot, hs.bot_owner⟩
  | answer | tick => exact ⟨hs.webhook_owner, hs.webhook_bot, hs.bot_owner⟩

theorem SoundDispatch.step {s s' : State} {a : Action} (hs : SoundDispatch s)
    (h : Effect s a s') : SoundDispatch s' := by
  by_cases ha : a.isRequest = true
  · exact hs.of_same h.grows (h.sameDispatch ha)
  · cases h with
    | dispatch known => exact hs.dispatchWebhooks _ known
    | @answer i worker event =>
      have htaken : SoundDispatch (takeQuery s i) :=
        ⟨fun q hq => hs.query_bot q (List.mem_of_mem_eraseIdx hq), hs.cached⟩
      exact htaken.answerQuery worker event
    | tick => exact ⟨hs.query_bot, hs.cached⟩
    | turnedDown request => exact absurd request ha
    | _ => exact absurd rfl ha

/-- **Invariant**: every step keeps the tables and the dispatchers sound. -/
theorem sound_step {s s' : State} {a : Action} (hs : Sound s) (h : step s a = some s') :
    Sound s' :=
  ⟨hs.tables.step (effect_of_step h), hs.dispatch.step (effect_of_step h)⟩

theorem sound_start : Sound start :=
  ⟨⟨nofun, nofun, nofun⟩, ⟨nofun, nofun⟩⟩

section Own

variable {s : State}

/-- What was enqueued before stays with the owner. -/
theorem OnlyOwn.of_same (h : OnlyOwn s) {s' : State} (hgrows : Grows s s')
    (hsame : SameDispatch s s') : OnlyOwn s' := by
  intro e he
  rw [hsame.enqueued] at he
  obtain ⟨ownerId, hbot, hwebhook⟩ := h e he
  exact ⟨ownerId, hgrows.bots _ _ hbot, hgrows.webhooks _ _ hwebhook⟩

theorem onlyOwn_enqueue_iff (h : OnlyOwn s) (event : WebhookDispatchEvent)
    (webhooks : List WebhookJobData) :
    OnlyOwn (enqueue s event webhooks) ↔ ∀ job ∈ webhooks, ∃ ownerId,
      s.botOwners.get event.botId = some ownerId ∧
        s.webhookOwners.get job.webhookId = some ownerId := by
  constructor
  · intro hown job hjob
    exact hown (job, event) (mem_enqueue.mpr (.inr ⟨hjob, rfl⟩))
  · intro hjobs e he
    rcases mem_enqueue.mp he with he | ⟨hjob, rfl⟩
    · exact h e he
    · exact hjobs e.1 hjob

/-- What a worker process remembers went to the owner before. -/
theorem OnlyOwn.dispatchWebhooks (h : OnlyOwn s) (hs : SoundDispatch s) (worker : ℕ)
    (event : WebhookDispatchEvent) : OnlyOwn (dispatchWebhooks s worker event) := by
  rw [Webhooks.dispatchWebhooks]
  split
  case h_1 entry hentry =>
    refine (onlyOwn_enqueue_iff h event entry.webhooks).mpr fun job hjob => ?_
    rw [getCachedWebhookMatch, Option.filter_eq_some_iff] at hentry
    obtain ⟨e, he, hwebhook, hbot⟩ := hs.cached worker _ entry hentry.1 job hjob
    obtain ⟨ownerId, hown⟩ := h e he
    rw [hwebhook, hbot] at hown
    exact ⟨ownerId, hown⟩
  · exact h

theorem mem_matchingWebhooks {webhooks : List Webhook} {event : WebhookDispatchEvent}
    {job : WebhookJobData} : job ∈ matchingWebhooks webhooks event ↔
      ∃ w ∈ webhooks, w.enabled = true ∧ (w.botId = some event.botId ∨ w.botId = none) ∧
        event.type ∈ w.events ∧ w.toJobData event = job := by
  simp only [matchingWebhooks, List.mem_map, List.mem_filter, Webhook.matches, Bool.and_eq_true,
    Bool.or_eq_true, decide_eq_true_eq, List.contains_iff_mem]
  constructor
  · rintro ⟨w, ⟨hw, ⟨henabled, hbot⟩, hevent⟩, hjob⟩
    exact ⟨w, hw, henabled, hbot, hevent, hjob⟩
  · rintro ⟨w, hw, henabled, hbot, hevent, hjob⟩
    exact ⟨w, ⟨hw, ⟨henabled, hbot⟩, hevent⟩, hjob⟩

/-- An answer goes to the owner exactly when the webhooks for all bots in it are the
    owner's. -/
theorem onlyOwn_answerQuery_iff (h : OnlyOwn s) (hs : SoundTables s) (worker : ℕ)
    (event : WebhookDispatchEvent) :
    OnlyOwn (answerQuery s worker event) ↔ ∀ w ∈ s.webhooks, w.enabled = true →
      w.botId = none → event.type ∈ w.events → s.botOwners.get event.botId = some w.ownerId := by
  refine (onlyOwn_enqueue_iff (s := { s with cache := _ }) h event _).trans ?_
  constructor
  · intro hjobs w hw henabled hglobal hevent
    obtain ⟨ownerId, hbot, hwebhook⟩ := hjobs (w.toJobData event)
      (mem_matchingWebhooks.mpr ⟨w, hw, henabled, .inr hglobal, hevent, rfl⟩)
    have hrecord : s.webhookOwners.get w.id = some ownerId := hwebhook
    rw [hs.webhook_owner w hw] at hrecord
    rw [hrecord]
    exact hbot
  · intro hglobals job hjob
    obtain ⟨w, hw, henabled, hbot, hevent, rfl⟩ := mem_matchingWebhooks.mp hjob
    refine ⟨w.ownerId, ?_, hs.webhook_owner w hw⟩
    rcases hbot with hbot | hbot
    · exact hs.webhook_bot w hw event.botId hbot
    · exact hglobals w hw henabled hbot hevent

end Own

/-- **One step**: out of a sound state, a step enqueues for webhooks of the owner only,
    exactly when the webhooks for all bots that it finds are the owner's. -/
theorem onlyOwn_step_iff {s s' : State} {a : Action} (hs : Sound s) (hown : OnlyOwn s)
    (h : step s a = some s') : OnlyOwn s' ↔ GlobalsAreOwn s a := by
  have heffect := effect_of_step h
  cases a with
  | dispatch worker event =>
    refine iff_of_true ?_ trivial
    cases heffect with
    | dispatch => exact hown.dispatchWebhooks hs.dispatch worker event
    | turnedDown request => cases request
  | answer i =>
    cases heffect with
    | @answer _ worker event hi =>
      have hown' : OnlyOwn (takeQuery s i) := hown
      have htables : SoundTables (takeQuery s i) :=
        ⟨hs.tables.webhook_owner, hs.tables.webhook_bot, hs.tables.bot_owner⟩
      refine (onlyOwn_answerQuery_iff hown' htables worker event).trans ?_
      constructor
      · intro hglobals worker' event' hi'
        rw [hi, Option.some.injEq, Prod.mk.injEq] at hi'
        rw [← hi'.2]
        exact hglobals
      · intro hglobals
        exact hglobals worker event hi
    | turnedDown request => cases request
  | tick ms =>
    cases heffect with
    | tick => exact iff_of_true hown trivial
    | turnedDown request => cases request
  | _ => exact iff_of_true (hown.of_same heffect.grows (heffect.sameDispatch rfl)) trivial

end BotHive.Webhooks
