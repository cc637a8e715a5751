import BotHive.Library.InsertionMap

/-!
# Dispatching events to webhooks

The webhook routes and the bot routes of the API write the tables that the workers match
an event against; each worker process keeps what it matched for a few seconds. A request
is one step, taken at its write: what it read before (who owns a row) cannot change while
the row exists. Requests that are refused change nothing.

## Main definitions

- `WebhookRequest.write`: the webhook routes
- `deleteBot`: the delete route of the bots and that of the bulk route
- `matchingWebhooks`, `cacheWebhookMatch`: the query of the dispatcher and its cache
- `step`: requests of any number of owners, events and the passing of time
-/

namespace BotHive.Webhooks

structure Webhook where
  id : String
  ownerId : String
  name : String
  url : String
  events : List String
  /-- `none` stands for all bots. -/
  botId : Option String
  secret : Option String
  enabled : Bool

/-- The body of a create request, as its validation leaves it; the secret as it is stored. -/
structure WebhookBody where
  name : String
  url : String
  events : List String
  botId : Option String
  secret : Option String
  enabled : Option Bool

/-- The body of an update request: what is absent is kept. -/
structure WebhookPatch where
  name : Option String
  url : Option String
  events : Option (List String)
  botId : Option (Option String)
  secret : Option (Option String)
  enabled : Option Bool

/-- A job of the webhook queue, without the event. -/
structure WebhookJobData where
  webhookId : String
  url : String
  secret : Option String
  eventType : String
  botId : String
  deriving DecidableEq

structure WebhookDispatchEvent where
  botId : String
  type : String
  /-- The event as the deliveries carry it. -/
  body : String
  deriving DecidableEq

structure CachedWebhookMatch where
  expiresAt : ℕ
  webhooks : List WebhookJobData

/-- The cache of a worker process, by bot and event type. -/
abbrev WebhookMatchCache := InsertionMap (String × String) CachedWebhookMatch

def webhookMatchCacheTtlMs : ℕ := 5000

def webhookMatchCacheMax : ℕ := 1000

/-- The tables, the worker processes and the jobs that they enqueued. Every id that was
    ever handed out is on record with the owner it was handed out to. -/
structure State where
  now : ℕ
  webhooks : List Webhook
  /-- The bots that exist, with their owners. -/
  bots : InsertionMap String String
  webhookOwners : InsertionMap String String
  botOwners : InsertionMap String String
  cache : ℕ → WebhookMatchCache
  /-- The queries that the worker processes wait for. -/
  queries : List (ℕ × WebhookDispatchEvent)
  enqueued : List (WebhookJobData × WebhookDispatchEvent)

inductive WebhookRequest where
  /-- `POST /webhooks`; `cuid` is the id that the database makes up. -/
  | create (cuid : String) (body : WebhookBody)
  /-- `PATCH /webhooks/:id` -/
  | update (id : String) (patch : WebhookPatch)
  /-- `DELETE /webhooks/:id` -/
  | delete (id : String)

inductive Action where
  | webhook (ownerId : String) (request : WebhookRequest)
  /-- `POST /bots` -/
  | createBot (ownerId cuid : String)
  /-- `DELETE /bots/:id` -/
  | deleteBot (ownerId id : String)
  /-- `POST /bulk/bots` with the action `delete`, for one of its ids -/
  | bulkDeleteBot (id : String)
  | dispatch (worker : ℕ) (event : WebhookDispatchEvent)
  /-- The database answers a query. -/
  | answer (i : ℕ)
  | tick (ms : ℕ)

/-- The requests to the API. -/
def Action.isRequest : Action → Bool
  | webhook _ _ | createBot _ _ | deleteBot _ _ | bulkDeleteBot _ => true
  | dispatch _ _ | answer _ | tick _ => false

/-- A bot that a webhook may be written for: no bot, or one of the owner's. An empty id
    skips the lookup, and no row has it. -/
def mayScope (s : State) (ownerId : String) : Option String → Bool
  | none => true
  | some id => s.bots.get id = some ownerId

def Webhook.patched (w : Webhook) (patch : WebhookPatch) : Webhook :=
  { w with
    name := patch.name.getD w.name
    url := patch.url.getD w.url
    events := patch.events.getD w.events
    botId := patch.botId.getD w.botId
    secret := patch.secret.getD w.secret
    enabled := patch.enabled.getD w.enabled }

/-- The row of the webhook, in the eyes of an owner. -/
def Webhook.scoped (ownerId id : String) (w : Webhook) : Bool :=
  w.id = id && w.ownerId = ownerId

/-- The webhook routes, by the owner who calls them. -/
def WebhookRequest.write (s : State) (ownerId : String) : WebhookRequest → Option State
  | .create cuid body =>
    if s.webhookOwners.has cuid then none
    else if mayScope s ownerId body.botId then
      some { s with
        webhooks := s.webhooks ++ [{
          id := cuid
          ownerId
          name := body.name
          url := body.url
          events := body.events
          botId := body.botId
          secret := body.secret
          enabled := body.enabled.getD true }]
        webhookOwners := s.webhookOwners.set cuid ownerId }
    else some s
  | .update id patch =>
    if mayScope s ownerId (patch.botId.getD none) then
      some { s with
        webhooks := s.webhooks.map fun w => if w.scoped ownerId id then w.patched patch else w }
    else some s
  | .delete id =>
    some { s with webhooks := s.webhooks.filter fun w => !w.scoped ownerId id }

/-- `updateMany` of the owner's webhooks of a bot; then the row of the bot goes, and the
    foreign key sets what still points at it to null. -/
def Webhook.detached (ownerId id : String) (w : Webhook) : Webhook :=
  let w := if w.botId = some id ∧ w.ownerId = ownerId then { w with botId := none } else w
  if w.botId = some id then { w with botId := none } else w

def deleteBot (s : State) (ownerId id : String) : State :=
  { s with
    webhooks := s.webhooks.map (Webhook.detached ownerId id)
    bots := s.bots.delete id }

/-- `WHERE enabled AND (botId = … OR botId IS NULL) AND … = ANY(events)` -/
def Webhook.matches (event : WebhookDispatchEvent) (w : Webhook) : Bool :=
  w.enabled && (w.botId = some event.botId || w.botId = none) && w.events.contains event.type

def Webhook.toJobData (event : WebhookDispatchEvent) (w : Webhook) : WebhookJobData where
  webhookId := w.id
  url := w.url
  secret := w.secret
  eventType := event.type
  botId := event.botId

def matchingWebhooks (webhooks : List Webhook) (event : WebhookDispatchEvent) :
    List WebhookJobData :=
  (webhooks.filter (Webhook.matches event)).map (Webhook.toJobData event)

def webhookMatchCacheKey (event : WebhookDispatchEvent) : String × String :=
  (event.botId, event.type)

def getCachedWebhookMatch (cache : WebhookMatchCache) (now : ℕ) (event : WebhookDispatchEvent) :
    Option CachedWebhookMatch :=
  (cache.get (webhookMatchCacheKey event)).filter fun entry => now < entry.expiresAt

def cacheWebhookMatch (cache : WebhookMatchCache) (now : ℕ) (event : WebhookDispatchEvent)
    (webhooks : List WebhookJobData) : WebhookMatchCache :=
  (cache.evict webhookMatchCacheMax).set (webhookMatchCacheKey event)
    ⟨now + webhookMatchCacheTtlMs, webhooks⟩

/-- A job for every webhook; the queue takes all of them. -/
def enqueue (s : State) (event : WebhookDispatchEvent) (webhooks : List WebhookJobData) : State :=
  { s with enqueued := s.enqueued ++ webhooks.map fun job => (job, event) }

/-- `dispatchWebhooks` up to its query. -/
def dispatchWebhooks (s : State) (worker : ℕ) (event : WebhookDispatchEvent) : State :=
  match getCachedWebhookMatch (s.cache worker) s.now event with
  | some entry => enqueue s event entry.webhooks
  | none => { s with queries := s.queries ++ [(worker, event)] }

/-- `dispatchWebhooks` from the answer of its query. -/
def answerQuery (s : State) (worker : ℕ) (event : WebhookDispatchEvent) : State :=
  let webhooks := matchingWebhooks s.webhooks event
  enqueue { s with
    cache := Function.update s.cache worker
      (cacheWebhookMatch (s.cache worker) s.now event webhooks) } event webhooks

/-- The query is no longer waited for. -/
def takeQuery (s : State) (i : ℕ) : State :=
  { s with queries := s.queries.eraseIdx i }

/-- One step: a request of some owner, an event of a bot, an answer of the database. -/
def step (s : State) : Action → Option State
  | .webhook ownerId request => request.write s ownerId
  | .createBot ownerId cuid =>
    if cuid = "" ∨ s.botOwners.has cuid then none
    else some { s with
      bots := s.bots.set cuid ownerId
      botOwners := s.botOwners.set cuid ownerId }
  | .deleteBot ownerId id =>
    if s.bots.get id = some ownerId then some (deleteBot s ownerId id) else some s
  | .bulkDeleteBot id =>
    match s.bots.get id with
    | some ownerId => some (deleteBot s ownerId id)
    | none => some s
  | .dispatch worker event =>
    if s.botOwners.has event.botId then some (dispatchWebhooks s worker event) else none
  | .answer i => s.queries[i]?.map fun (worker, event) =>
    answerQuery (takeQuery s i) worker event
  | .tick ms => some { s with now := s.now + ms }

/-- No rows, no jobs. -/
def start : State where
  now := 0
  webhooks := []
  bots := .empty
  webhookOwners := .empty
  botOwners := .empty
  cache := fun _ => .empty
  queries := []
  enqueued := []

end BotHive.Webhooks
