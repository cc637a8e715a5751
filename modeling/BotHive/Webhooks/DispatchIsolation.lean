import BotHive.Webhooks.DispatchOwners

/-!
# Webhooks of other tenants

Whether the webhooks of other owners show in what is enqueued for a bot. A run is compared
with the same run without the webhook requests of everybody but the owner of the bot: the
tables, the caches and the queues of the two agree on what concerns the bot, as long as no
query finds a webhook for all bots of somebody else.

## Main definitions

- `keeps`: the actions that remain when the webhook requests of other owners go
- `Isolated`: a run delivers to the owner of a bot only, and as without the other owners
- `Same`: two states that agree on what concerns a bot and its owner

## Main results

- `isolated_iff`: a run is isolated exactly when its queries find no webhook for all bots of
  another owner
- `not_isolated_after_delete`: a bot of another owner is deleted, and the webhook that it
  leaves behind receives the events of everybody
-/

namespace BotHive.Webhooks

/-- The actions but for the webhook requests of other owners. -/
def keeps (ownerId : String) : Action → Bool
  | .webhook caller _ => caller = ownerId
  | _ => true

/-- What has been enqueued for a bot. -/
def deliveriesOf (s : State) (botId : String) : List (WebhookJobData × WebhookDispatchEvent) :=
  s.enqueued.filter fun e => e.2.botId = botId

/-- Only webhooks of the owner of a bot are enqueued for, and the webhook requests of other
    owners make no difference to what is enqueued for the bot. -/
def Isolated (as : List Action) : Prop :=
  Machine.Everywhere step OnlyOwn start as ∧
    ∀ botId ownerId s, Machine.exec step start as = some s →
      s.botOwners.get botId = some ownerId →
        ∃ t, Machine.exec step start (as.filter (keeps ownerId)) = some t ∧
          deliveriesOf t botId = deliveriesOf s botId

section Agreement

variable (botId ownerId : String)

/-- Nobody else is on record as the owner of the bot. -/
def Mine (s : State) : Prop :=
  ∀ o, s.botOwners.get botId = some o → o = ownerId

/-- What a worker process remembers, as far as it concerns the bot. -/
def cacheView (key : String × String) (entry : CachedWebhookMatch) : ℕ × List WebhookJobData :=
  (entry.expiresAt, if key.1 = botId then entry.webhooks else [])

/-- The second state is the first without the webhooks of other owners, and agrees with it
    on what concerns the bot. -/
structure Same (s t : State) : Prop where
  now : t.now = s.now
  bots : t.bots = s.bots
  botOwners : t.botOwners = s.botOwners
  queries : t.queries = s.queries
  fresh : ∀ id, s.webhookOwners.has id = false → t.webhookOwners.has id = false
  webhooks : t.webhooks = s.webhooks.filter fun w => w.ownerId = ownerId
  cache : ∀ worker,
    (t.cache worker).mapValues (cacheView botId) = (s.cache worker).mapValues (cacheView botId)
  enqueued : deliveriesOf t botId = deliveriesOf s botId

variable {botId ownerId} {s t : State}

theorem Mine.back {s' : State} {a : Action} (h : step s a = some s') (hs' : Mine botId ownerId s') :
    Mine botId ownerId s :=
  fun o ho => hs' o ((effect_of_step h).grows.bots botId o ho)

/-- The rows of an owner among rewritten rows. -/
theorem filter_owner_map {f : Webhook → Webhook} (hf : ∀ w, (f w).ownerId = w.ownerId)
    (webhooks : List Webhook) :
    (webhooks.map f).filter (fun w => w.ownerId = ownerId) =
      (webhooks.filter fun w => w.ownerId = ownerId).map f := by
  rw [List.filter_map]
  refine congrArg (List.map f) (List.filter_congr fun w _ => ?_)
  simp only [Function.comp_apply, hf]

theorem scoped_of_other {w : Webhook} {caller : String} (hne : caller ≠ ownerId)
    (hw : w.ownerId = ownerId) (id : String) : w.scoped caller id = false := by
  have hother : ¬ w.ownerId = caller := fun h => hne (h.symm.trans hw)
  simp [Webhook.scoped, hother]

/-- Another owner's request leaves the rows of the owner alone. -/
theorem Same.write_other (h : Same botId ownerId s t) {s' : State} {caller : String}
    {request : WebhookRequest} (hne : caller ≠ ownerId)
    (hwrite : request.write s caller = some s') : Same botId ownerId s' t := by
  cases effect_of_write hwrite with
  | turnedDown => exact h
  | create new =>
    refine { h with fresh := fun id hid => h.fresh id ?_, webhooks := ?_ }
    · rw [← Bool.not_eq_true] at hid ⊢
      intro hhas
      obtain ⟨o, ho⟩ := Option.isSome_iff_exists.mp hhas
      exact hid (Option.isSome_iff_exists.mpr ⟨o, get_set_of_new new ho⟩)
    · rw [h.webhooks, List.filter_append, List.filter_cons_of_neg (by simpa using hne),
        List.filter_nil, List.append_nil]
  | update =>
    refine { h with webhooks := ?_ }
    rw [filter_owner_map (fun w => by split_ifs <;> rfl), h.webhooks]
    refine ((List.map_congr_left fun w hw => ?_).trans (List.map_id _)).symm
    have hown : w.ownerId = ownerId := by simpa using (List.mem_filter.mp hw).2
    rw [scoped_of_other hne hown _]
    rfl
  | @delete _ id =>
    refine { h with webhooks := ?_ }
    rw [h.webhooks, List.filter_filter]
    refine List.filter_congr fun w _ => ?_
    by_cases hown : w.ownerId = ownerId
    · simp [hown, scoped_of_other hne hown id]
    · simp [hown]

/-- The owner's own request does the same in both states. -/
theorem Same.write_own (h : Same botId ownerId s t) {s' : State} {request : WebhookRequest}
    (hwrite : request.write s ownerId = some s') :
    ∃ t', request.write t ownerId = some t' ∧ Same botId ownerId s' t' := by
  have hscope : ∀ id, mayScope t ownerId id = mayScope s ownerId id := by
    intro id
    simp only [mayScope, h.bots]
  cases request with
  | create cuid body =>
    simp only [WebhookRequest.write] at hwrite ⊢
    split_ifs at hwrite with hnew hmay <;> cases hwrite
    all_goals
      have hfresh : t.webhookOwners.has cuid = false := h.fresh cuid (by simpa using hnew)
      simp only [hfresh, hscope, hmay, Bool.false_eq_true, if_true, if_false]
      refine ⟨_, rfl, ?_⟩
    · refine { h with fresh := fun id hid => ?_, webhooks := ?_ }
      · have hboth : ∀ m : InsertionMap String String, (m.set cuid ownerId).has id = false ↔
            id ≠ cuid ∧ m.has id = false := by
          intro m
          rw [InsertionMap.has, InsertionMap.get_set]
          by_cases hid : id = cuid <;> simp [hid, InsertionMap.has]
        rw [hboth] at hid ⊢
        exact ⟨hid.1, h.fresh id hid.2⟩
      · rw [List.filter_append, List.filter_cons_of_pos (by simp), List.filter_nil, h.webhooks]
    · exact h
  | update id patch =>
    simp only [WebhookRequest.write] at hwrite ⊢
    rw [hscope]
    split_ifs at hwrite with hmay <;> cases hwrite
    · rw [if_pos hmay]
      refine ⟨_, rfl, { h with webhooks := ?_ }⟩
      rw [filter_owner_map (fun w => by split_ifs <;> rfl), h.webhooks]
    · rw [if_neg hmay]
      exact ⟨t, rfl, h⟩
  | delete id =>
    cases hwrite
    refine ⟨_, rfl, { h with webhooks := ?_ }⟩
    show t.webhooks.filter _ = (s.webhooks.filter _).filter _
    rw [h.webhooks, List.filter_filter, List.filter_filter]
    exact List.filter_congr fun w _ => Bool.and_comm _ _

theorem Same.deleteBot (h : Same botId ownerId s t) (caller id : String) :
    Same botId ownerId (deleteBot s caller id) (deleteBot t caller id) := by
  refine { h with bots := ?_, webhooks := ?_ }
  · show t.bots.delete id = s.bots.delete id
    rw [h.bots]
  · show t.webhooks.map _ = (s.webhooks.map _).filter _
    have howner : ∀ w : Webhook, (w.detached caller id).ownerId = w.ownerId := by
      intro w
      simp only [Webhook.detached]
      split_ifs <;> rfl
    rw [filter_owner_map howner, h.webhooks]

/-- Both processes find an entry, or neither does; entries for the bot hold the same. -/
theorem Same.getCached (h : Same botId ownerId s t) (worker : ℕ) (event : WebhookDispatchEvent) :
    (getCachedWebhookMatch (t.cache worker) t.now event).map
        (cacheView botId (webhookMatchCacheKey event)) =
      (getCachedWebhookMatch (s.cache worker) s.now event).map
        (cacheView botId (webhookMatchCacheKey event)) := by
  have hview := congrArg (InsertionMap.get · (webhookMatchCacheKey event)) (h.cache worker)
  simp only [InsertionMap.get_mapValues] at hview
  have hfilter : ∀ (found : Option CachedWebhookMatch) (now : ℕ),
      (found.filter fun entry => now < entry.expiresAt).map
          (cacheView botId (webhookMatchCacheKey event)) =
        (found.map (cacheView botId (webhookMatchCacheKey event))).filter fun v => now < v.1 := by
    intro found now
    rw [Option.filter_map]
    rfl
  rw [getCachedWebhookMatch, getCachedWebhookMatch, hfilter, hfilter, hview, h.now]

/-- Deliveries for the bot that both states enqueue. -/
theorem Same.enqueue (h : Same botId ownerId s t) (event : WebhookDispatchEvent)
    {webhooks webhooks' : List WebhookJobData}
    (heq : event.botId = botId → webhooks' = webhooks) :
    Same botId ownerId (enqueue s event webhooks) (enqueue t event webhooks') := by
  refine { h with enqueued := ?_ }
  show (t.enqueued ++ _).filter _ = (s.enqueued ++ _).filter _
  have hbefore := h.enqueued
  rw [deliveriesOf, deliveriesOf] at hbefore
  rw [List.filter_append, List.filter_append, hbefore]
  refine congrArg _ ?_
  by_cases hbot : event.botId = botId
  · rw [heq hbot]
  · have hnone : ∀ l : List WebhookJobData,
        (l.map fun job => (job, event)).filter (fun e => e.2.botId = botId) = [] := by
      intro l
      rw [List.filter_eq_nil_iff]
      intro e he
      obtain ⟨job, _, rfl⟩ := List.mem_map.mp he
      simpa using hbot
    rw [hnone, hnone]

theorem Same.dispatchWebhooks (h : Same botId ownerId s t) (worker : ℕ)
    (event : WebhookDispatchEvent) :
    Same botId ownerId (dispatchWebhooks s worker event) (dispatchWebhooks t worker event) := by
  have hview := h.getCached worker event
  rw [Webhooks.dispatchWebhooks, Webhooks.dispatchWebhooks]
  cases hs : getCachedWebhookMatch (s.cache worker) s.now event with
  | none =>
    rw [hs, Option.map_none, Option.map_eq_none_iff] at hview
    rw [hview]
    refine { h with queries := ?_ }
    show t.queries ++ _ = s.queries ++ _
    rw [h.queries]
  | some entry =>
    rw [hs, Option.map_some, Option.map_eq_some_iff] at hview
    obtain ⟨entry', ht, hentry⟩ := hview
    rw [ht]
    refine h.enqueue event fun hbot => ?_
    have hwebhooks := congrArg Prod.snd hentry
    simpa only [cacheView, webhookMatchCacheKey, hbot, if_true] using hwebhooks

/-- The query finds for the bot what it finds among the owner's webhooks. -/
theorem matchingWebhooks_own (htables : SoundTables s) (hmine : Mine botId ownerId s)
    {event : WebhookDispatchEvent} (hbot : event.botId = botId)
    (hglobals : ∀ w ∈ s.webhooks, w.enabled = true → w.botId = none → event.type ∈ w.events →
      s.botOwners.get event.botId = some w.ownerId) :
    matchingWebhooks (s.webhooks.filter fun w => w.ownerId = ownerId) event =
      matchingWebhooks s.webhooks event := by
  rw [matchingWebhooks, matchingWebhooks, List.filter_filter]
  refine congrArg _ (List.filter_congr fun w hw => ?_)
  by_cases hmatch : w.matches event = true
  · have hown : w.ownerId = ownerId := by
      simp only [Webhook.matches, Bool.and_eq_true, Bool.or_eq_true, decide_eq_true_eq,
        List.contains_iff_mem] at hmatch
      obtain ⟨⟨henabled, hscope⟩, hevent⟩ := hmatch
      refine hmine w.ownerId ?_
      rw [← hbot]
      rcases hscope with hscope | hscope
      · exact htables.webhook_bot w hw event.botId hscope
      · exact hglobals w hw henabled hscope hevent
    simp [hmatch, hown]
  · simp [hmatch]

/-- Entries of other bots look alike. -/
theorem cacheView_congr {event : WebhookDispatchEvent} {expiresAt : ℕ}
    {webhooks webhooks' : List WebhookJobData}
    (heq : event.botId = botId → webhooks' = webhooks) :
    cacheView botId (webhookMatchCacheKey event) ⟨expiresAt, webhooks'⟩ =
      cacheView botId (webhookMatchCacheKey event) ⟨expiresAt, webhooks⟩ := by
  by_cases hbot : event.botId = botId
  · rw [heq hbot]
  · have hkey : ¬ (webhookMatchCacheKey event).1 = botId := hbot
    rw [cacheView, cacheView, if_neg hkey, if_neg hkey]

theorem Same.answerQuery (h : Same botId ownerId s t) (worker : ℕ)
    (event : WebhookDispatchEvent)
    (heq : event.botId = botId →
      matchingWebhooks t.webhooks event = matchingWebhooks s.webhooks event) :
    Same botId ownerId (answerQuery s worker event) (answerQuery t worker event) := by
  refine Same.enqueue (s := { s with cache := _ }) (t := { t with cache := _ }) ?_ event heq
  refine { h with cache := fun worker' => ?_ }
  by_cases hworker : worker' = worker
  · subst hworker
    simp only [Function.update_self, cacheWebhookMatch, InsertionMap.mapValues_set,
      InsertionMap.mapValues_evict, h.cache worker', h.now]
    exact congrArg _ (cacheView_congr heq)
  · simp only [Function.update_of_ne hworker]
    exact h.cache worker'

/-- A step of a kept action is followed. -/
theorem Same.step_keeps (h : Same botId ownerId s t) (hs : Sound s) (hmine : Mine botId ownerId s)
    {s' : State} {a : Action} (hglobals : GlobalsAreOwn s a) (hstep : step s a = some s')
    (hkeep : keeps ownerId a = true) :
    ∃ t', step t a = some t' ∧ Same botId ownerId s' t' := by
  cases a with
  | webhook caller request =>
    obtain rfl : caller = ownerId := by simpa [keeps] using hkeep
    exact h.write_own hstep
  | createBot caller cuid =>
    simp only [step] at hstep ⊢
    split_ifs at hstep with hnew
    cases hstep
    rw [h.botOwners, if_neg hnew]
    refine ⟨_, rfl, { h with bots := ?_, botOwners := ?_ }⟩
    · show t.bots.set cuid caller = s.bots.set cuid caller
      rw [h.bots]
    · rfl
  | deleteBot caller id =>
    simp only [step] at hstep ⊢
    rw [h.bots]
    split_ifs at hstep with hown <;> cases hstep
    · rw [if_pos hown]
      exact ⟨_, rfl, h.deleteBot caller id⟩
    · rw [if_neg hown]
      exact ⟨t, rfl, h⟩
  | bulkDeleteBot id =>
    simp only [step] at hstep ⊢
    rw [h.bots]
    split at hstep <;> cases hstep
    case h_1 caller hget => exact ⟨_, rfl, h.deleteBot caller id⟩
    case h_2 hget => exact ⟨t, rfl, h⟩
  | dispatch worker event =>
    simp only [step] at hstep ⊢
    split_ifs at hstep with hbot
    cases hstep
    rw [h.botOwners, if_pos hbot]
    exact ⟨_, rfl, h.dispatchWebhooks worker event⟩
  | answer i =>
    obtain ⟨⟨worker, event⟩, hi, rfl⟩ := Option.map_eq_some_iff.mp hstep
    refine ⟨Webhooks.answerQuery (takeQuery t i) worker event, ?_, ?_⟩
    · simp only [step, h.queries, hi, Option.map_some]
    · have htaken : Same botId ownerId (takeQuery s i) (takeQuery t i) := by
        refine { h with queries := ?_ }
        show t.queries.eraseIdx i = s.queries.eraseIdx i
        rw [h.queries]
      refine htaken.answerQuery worker event fun hbot => ?_
      show matchingWebhooks t.webhooks event = matchingWebhooks s.webhooks event
      rw [h.webhooks]
      exact matchingWebhooks_own hs.tables hmine hbot (hglobals worker event hi)
  | tick ms =>
    cases hstep
    refine ⟨_, rfl, { h with now := ?_ }⟩
    show t.now + ms = s.now + ms
    rw [h.now]

/-- A webhook request of another owner shows nowhere. -/
theorem Same.step_drops (h : Same botId ownerId s t) {s' : State} {a : Action}
    (hstep : step s a = some s') (hdrop : keeps ownerId a = false) : Same botId ownerId s' t := by
  cases a with
  | webhook caller request =>
    exact h.write_other (by simpa [keeps] using hdrop) hstep
  | _ => cases hdrop

end Agreement

theorem same_start (botId ownerId : String) : Same botId ownerId start start :=
  ⟨rfl, rfl, rfl, rfl, fun _ h => h, rfl, fun _ => rfl, rfl⟩

/-- **Noninterference**: while the queries find no webhook for all bots of another owner, the
    requests of other owners make no difference to what is enqueued for a bot. -/
theorem deliveriesOf_filter {as : List Action}
    (hglobals : Machine.Along step GlobalsAreOwn start as) {botId ownerId : String} {s : State}
    (hexec : Machine.exec step start as = some s)
    (howner : s.botOwners.get botId = some ownerId) :
    ∃ t, Machine.exec step start (as.filter (keeps ownerId)) = some t ∧
      deliveriesOf t botId = deliveriesOf s botId := by
  have hend : Mine botId ownerId s := by
    intro o ho
    rw [howner, Option.some.injEq] at ho
    exact ho.symm
  obtain ⟨hmine, halong⟩ := Machine.along_of_at_end (fun _ _ _ h => Mine.back h) hexec hend
  -- the pair of states that the two runs are in
  let R (s t : State) : Prop := Sound s ∧ Mine botId ownerId s ∧ Same botId ownerId s t
  have hkeep : ∀ s a s' t, R s t →
      (GlobalsAreOwn s a ∧ ∀ s', step s a = some s' → Mine botId ownerId s') →
      step s a = some s' → keeps ownerId a = true → ∃ t', step t a = some t' ∧ R s' t' := by
    rintro s a s' t ⟨hs, hm, hsame⟩ ⟨hok, hnext⟩ hstep hk
    obtain ⟨t', ht', hsame'⟩ := hsame.step_keeps hs hm hok hstep hk
    exact ⟨t', ht', sound_step hs hstep, hnext s' hstep, hsame'⟩
  have hdrop : ∀ s a s' t, R s t →
      (GlobalsAreOwn s a ∧ ∀ s', step s a = some s' → Mine botId ownerId s') →
      step s a = some s' → keeps ownerId a = false → R s' t := by
    rintro s a s' t ⟨hs, _, hsame⟩ ⟨_, hnext⟩ hstep hk
    exact ⟨sound_step hs hstep, hnext s' hstep, hsame.step_drops hstep hk⟩
  have h0 : R start start := ⟨sound_start, hmine, same_start botId ownerId⟩
  obtain ⟨t, ht, -, -, hsame⟩ := Machine.exec_filter hkeep hdrop h0 (hglobals.and halong) hexec
  exact ⟨t, ht, hsame.enqueued⟩

/-- **Tenancy of webhooks**: a run is isolated exactly when no query of a dispatcher finds an
    enabled webhook for all bots that is subscribed to its event and belongs to somebody else
    than the owner of the bot. -/
theorem isolated_iff (as : List Action) :
    Isolated as ↔ Machine.Along step GlobalsAreOwn start as := by
  have heverywhere : Machine.Everywhere step OnlyOwn start as ↔
      Machine.Along step GlobalsAreOwn start as :=
    Machine.everywhere_iff_along_of_invariant Sound (fun _ _ _ => sound_step)
      (fun _ _ _ => onlyOwn_step_iff) sound_start nofun
  constructor
  · rintro ⟨hown, _⟩
    exact heverywhere.mp hown
  · intro hglobals
    exact ⟨heverywhere.mpr hglobals,
      fun botId ownerId s hexec howner => deliveriesOf_filter hglobals hexec howner⟩

section Foreign

/-- Bob's webhook for his own bot is one for all bots once the bot is gone, and Alice's bot
    receives a message. -/
def foreignAfterDelete : List Action :=
  [.createBot "bob" "b", .createBot "alice" "a",
    .webhook "bob" (.create "w" ⟨"hook", "https://bob.example", ["message"], some "b", none, none⟩),
    .deleteBot "bob" "b", .dispatch 0 ⟨"a", "message", "private"⟩, .answer 0]

theorem not_isolated_after_delete : ¬ Isolated foreignAfterDelete := by
  rintro ⟨hown, _⟩
  have hend : ∃ s, Machine.exec step start foreignAfterDelete = some s ∧
      s.enqueued = [(⟨"w", "https://bob.example", none, "message", "a"⟩,
        ⟨"a", "message", "private"⟩)] ∧
      s.botOwners.get "a" = some "alice" ∧ s.webhookOwners.get "w" = some "bob" := by
    refine ⟨_, rfl, ?_⟩
    decide
  obtain ⟨s, hexec, henqueued, halice, hbob⟩ := hend
  obtain ⟨ownerId, hbot, hwebhook⟩ := hown.at_end hexec _ (henqueued ▸ List.mem_singleton_self _)
  rw [halice] at hbot
  rw [hbob] at hwebhook
  rw [← hbot] at hwebhook
  exact absurd hwebhook (by decide)

end Foreign

end BotHive.Webhooks
