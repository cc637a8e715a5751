import BotHive.Credentials.Cipher
import BotHive.Library.FailureThrottle
import BotHive.Library.Json
import BotHive.Library.Machine

/-!
# The webhook receiver of Telegram

A request is authenticated by the slug in its path and by a secret header, for which the receiver
reads the bot from the database. It counts the failures of every IP in memory, and answers an IP with
too many of them without a query. The failure is counted when the query has returned. The count makes
room in the map only when it adds to an entry that is there.

## Main definitions

- `authFlooded`, `recordAuthFailure`, `authenticate`
- `Webhook.step`: requests that arrive, and queries and jobs that return, in any order
- `Webhook.Throttled`, `Webhook.Bounded`: what the throttle is meant to ensure
- `FailuresFit`, `EntriesFit`: the conditions on a step for it
-/

namespace BotHive.Api

open Credentials

section Throttle

def FAILED_AUTH_MAX : ℕ := 20

def FAILED_AUTH_WINDOW_MS : ℤ := 10000

/-- The failures by IP. -/
abbrev FailedAuth := InsertionMap String FailureWindow

/-- The entry of an IP, if its window has not ended. -/
def liveEntry (failedAuth : FailedAuth) (now : ℤ) (ip : String) : Option FailureWindow :=
  (failedAuth.get ip).filter fun entry => !entry.expired FAILED_AUTH_WINDOW_MS now

def authFlooded (failedAuth : FailedAuth) (now : ℤ) (ip : String) : Bool × FailedAuth :=
  match liveEntry failedAuth now ip with
  | none => (false, failedAuth.set ip ⟨0, now⟩)
  | some entry => (FAILED_AUTH_MAX ≤ entry.count, failedAuth)

def recordAuthFailure (failedAuth : FailedAuth) (now : ℤ) (ip : String) : FailedAuth :=
  match liveEntry failedAuth now ip with
  | none => failedAuth.set ip ⟨1, now⟩
  | some entry =>
    let failedAuth := failedAuth.set ip { entry with count := entry.count + 1 }
    if failedAuth.size > 10000 then
      match failedAuth.keys.head? with
      | some oldest => failedAuth.delete oldest
      | none => failedAuth
    else failedAuth

end Throttle

section Requests

inductive HeaderValue where
  | single (value : String)
  | several (values : List String)

structure StoredBot where
  platform : String
  accountToken : String

/-- What the query for a bot returns. -/
inductive FoundBot where
  | rejected
  | missing
  | found (bot : StoredBot)

/-- A request, with the answer that the database will give to it. -/
structure WebhookRequest where
  ip : String
  botId : String
  token : String
  secretHeader : Option HeaderValue
  body : Value
  answer : FoundBot

/-- The cipher and the keys of the process, and the digests. -/
structure WebhookSecrets where
  aes : Aes
  registry : KeyRegistry
  /-- In hexadecimal. -/
  sha256 : String → String

inductive Authentication where
  | thrown
  | unauthenticated
  | invalidPayload
  | accepted
  deriving DecidableEq

/-- Digests are compared. -/
def safeEqual (sha256 : String → String) (a b : String) : Bool :=
  sha256 a = sha256 b

def telegramWebhookSlug (sha256 : String → String) (botId token : String) : String :=
  String.ofList ((sha256 s!"{botId}:{token}").toList.take 24)

def HeaderValue.first : HeaderValue → Option String
  | .single value => some value
  | .several values => values.head?

def isUpdate (body : Value) : Bool :=
  match body with
  | .obj _ => (body.field "update_id").number?.isSome
  | _ => false

/-- The handler between its query and its job. -/
def authenticate (secrets : WebhookSecrets) (request : WebhookRequest) : Authentication :=
  match request.answer with
  | .rejected => .thrown
  | .missing => .unauthenticated
  | .found bot =>
    if bot.platform ≠ "telegram" then .unauthenticated
    else
      match present (decryptCredential secrets.aes secrets.registry (some bot.accountToken)) with
      | none => .unauthenticated
      | some accountToken =>
        let slug := telegramWebhookSlug secrets.sha256 request.botId accountToken
        if !safeEqual secrets.sha256 slug request.token then .unauthenticated
        else
          match present (request.secretHeader.bind HeaderValue.first) with
          | none => .unauthenticated
          | some secret =>
            if !safeEqual secrets.sha256 secret accountToken then .unauthenticated
            else if !isUpdate request.body then .invalidPayload
            else .accepted

def WebhookRequest.fails (secrets : WebhookSecrets) (request : WebhookRequest) : Bool :=
  authenticate secrets request = .unauthenticated

structure Reply where
  status : ℕ
  ok : Bool
  error : Option String

def Reply.notFound : Reply :=
  ⟨404, false, some "Not found"⟩

def Reply.invalidUpdate : Reply :=
  ⟨400, false, some "Invalid update payload"⟩

def Reply.queueUnavailable : Reply :=
  ⟨502, false, some "Queue unavailable"⟩

def Reply.success : Reply :=
  ⟨200, true, none⟩

end Requests

section Receiver

/-- A request that waits for its query. -/
structure BotQuery where
  request : WebhookRequest
  arrivedAt : ℤ

/-- The receiver. For statements only: which requests have reached the database and fail, with their
    IPs and times, and which windows have been opened. -/
structure Webhook where
  now : ℤ
  failedAuth : FailedAuth
  queries : List BotQuery
  jobs : List WebhookRequest
  /-- A handler that throws has no reply of its own. -/
  replies : List (Option Reply)
  reached : List (String × ℤ)
  windows : List (String × ℤ)

inductive WebhookAction where
  | tick (ms : ℕ)
  | request (request : WebhookRequest)
  /-- The query of a request returns. -/
  | answered (i : ℕ)
  /-- The queue has taken a job, or not. -/
  | enqueued (i : ℕ) (taken : Bool)

namespace Webhook

def start (now : ℤ) : Webhook :=
  ⟨now, .empty, [], [], [], [], []⟩

/-- The windows after an entry without a live one was set. -/
def windowsFor (s : Webhook) (ip : String) : List (String × ℤ) :=
  match liveEntry s.failedAuth s.now ip with
  | none => (ip, s.now) :: s.windows
  | some _ => s.windows

variable (secrets : WebhookSecrets)

/-- A request up to its query. -/
def arrive (s : Webhook) (request : WebhookRequest) : Webhook :=
  let (flooded, failedAuth) := authFlooded s.failedAuth s.now request.ip
  let s := { s with failedAuth, windows := s.windowsFor request.ip }
  if flooded then { s with replies := s.replies ++ [some .notFound] }
  else
    { s with
      queries := ⟨request, s.now⟩ :: s.queries
      reached := if request.fails secrets then (request.ip, s.now) :: s.reached else s.reached }

/-- A request after its query. -/
def resume (s : Webhook) (request : WebhookRequest) : Webhook :=
  match authenticate secrets request with
  | .thrown => { s with replies := s.replies ++ [none] }
  | .unauthenticated =>
    { s with
      failedAuth := recordAuthFailure s.failedAuth s.now request.ip
      windows := s.windowsFor request.ip
      replies := s.replies ++ [some .notFound] }
  | .invalidPayload => { s with replies := s.replies ++ [some .invalidUpdate] }
  | .accepted => { s with jobs := request :: s.jobs }

def step (s : Webhook) : WebhookAction → Option Webhook
  | .tick ms => some { s with now := s.now + ms }
  | .request request => some (s.arrive secrets request)
  | .answered i => s.queries[i]?.map fun query =>
    { s with queries := s.queries.eraseIdx i }.resume secrets query.request
  | .enqueued i taken => s.jobs[i]?.map fun _ =>
    { s with
      jobs := s.jobs.eraseIdx i
      replies := s.replies ++ [some (if taken then .success else .queueUnavailable)] }

/-- The times of an IP. -/
def timesOf (ip : String) (l : List (String × ℤ)) : List ℤ :=
  (l.filter fun e => e.1 = ip).map Prod.snd

/-- The arrivals of the requests of an IP whose failures are not counted yet. -/
def flightsOf (ip : String) (queries : List BotQuery) : List ℤ :=
  (queries.filter fun query => query.request.fails secrets && query.request.ip = ip).map
    BotQuery.arrivedAt

/-- An IP on its own. -/
def throttleOf (s : Webhook) (ip : String) : KeyThrottle where
  now := s.now
  entry := s.failedAuth.get ip
  windows := timesOf ip s.windows
  reached := timesOf ip s.reached
  flights := flightsOf secrets ip s.queries

/-- Within every window of an IP at most so many of its requests reach the database and fail. -/
def Throttled (s : Webhook) : Prop :=
  ∀ ip, ∀ w ∈ timesOf ip s.windows,
    countWithin FAILED_AUTH_WINDOW_MS w (timesOf ip s.reached) ≤ FAILED_AUTH_MAX

def Bounded (s : Webhook) : Prop :=
  s.failedAuth.size ≤ 10001

end Webhook

variable (secrets : WebhookSecrets)

/-- A request that fails and is not flooded finds room beside the failures of its IP that are counted
    and in flight, and a failure that is counted makes the map forget no IP with a failure in its
    window. -/
def FailuresFit (s : Webhook) : WebhookAction → Prop
  | .request request => request.fails secrets = true →
    (s.throttleOf secrets request.ip).HasRoom FAILED_AUTH_WINDOW_MS FAILED_AUTH_MAX
  | .answered i => ∀ query ∈ s.queries[i]?, query.request.fails secrets = true →
    (liveEntry s.failedAuth s.now query.request.ip).isSome → s.failedAuth.size > 10000 →
      ∀ oldest ∈ s.failedAuth.keys.head?,
        (s.throttleOf secrets oldest).Forgettable FAILED_AUTH_WINDOW_MS
  | _ => True

instance (s : Webhook) : (action : WebhookAction) → Decidable (FailuresFit secrets s action)
  | .request _ => inferInstanceAs (Decidable (_ → KeyThrottle.HasRoom _ _ _))
  | .answered i => inferInstanceAs (Decidable (∀ query ∈ s.queries[i]?, _ → _ → _ →
      ∀ oldest ∈ s.failedAuth.keys.head?, KeyThrottle.Forgettable _ _))
  | .tick _ | .enqueued _ _ => inferInstanceAs (Decidable True)

/-- No entry is added while there are more than 10,000. -/
def EntriesFit (s : Webhook) : WebhookAction → Prop
  | .request request => s.failedAuth.get request.ip = none → s.failedAuth.size ≤ 10000
  | .answered i => ∀ query ∈ s.queries[i]?, query.request.fails secrets = true →
    s.failedAuth.get query.request.ip = none → s.failedAuth.size ≤ 10000
  | _ => True

end Receiver

end BotHive.Api
