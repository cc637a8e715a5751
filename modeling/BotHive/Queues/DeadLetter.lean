import BotHive.Library.InsertionMap
import BotHive.Library.Json

/-!
# Dead-letter queues

A job that has failed for good is written to the dead-letter queue of its worker; the API
lists these entries and replays them onto the queues that the workers consume. Workers and
API each have their own tables of queues, and the webhook worker its own form of a job.

## Main definitions

- `onFailed`: what a worker does with a failed job
- `getDeadLetterJobs`, `replayDeadLetterJob`: the listing and the replay of the API
- `processJob`, `deliverWebhookJob`: what the workers read out of a job
-/

namespace BotHive.Queues

inductive Platform where
  | telegram
  | twitch
  | youtube
  | twitter
  | crypto
  | discord
  | slack
  | bluesky
  deriving DecidableEq

def Platform.name : Platform → String
  | telegram => "telegram"
  | twitch => "twitch"
  | youtube => "youtube"
  | twitter => "twitter"
  | crypto => "crypto"
  | discord => "discord"
  | slack => "slack"
  | bluesky => "bluesky"

/-- The workers that consume a queue. -/
inductive Consumer where
  | platform (p : Platform)
  | webhook
  deriving DecidableEq

/-- The name under which the API knows the queues of a worker. -/
def Consumer.name : Consumer → String
  | .platform p => p.name
  | .webhook => "webhook"

def Consumer.queue (w : Consumer) : String :=
  w.name ++ "-queue"

def Consumer.dlq (w : Consumer) : String :=
  w.queue ++ "-dlq"

/-- A job as a queue holds it. -/
structure Job where
  id : String
  name : String
  data : Value
  attempts : Option ℕ
  attemptsMade : ℕ
  timestamp : ℕ

/-- The queues in Redis by name, the latest job first. -/
abbrev Redis := String → List Job

/-- A job is not added when the queue has one of that id. -/
def Redis.add (redis : Redis) (queue : String) (job : Job) : Redis :=
  if (redis queue).any (·.id = job.id) then redis
  else Function.update redis queue (job :: redis queue)

def Redis.remove (redis : Redis) (queue id : String) : Redis :=
  Function.update redis queue ((redis queue).filter (·.id ≠ id))

-- ════════════════════════════════════════════════════════════════════════
-- The workers
-- ════════════════════════════════════════════════════════════════════════

/-- The entry that `moveToDlq` writes. -/
def platformEntry (p : Platform) (job : Job) (reason : String) (now : ℕ) : Job where
  id := "dlq-" ++ p.name ++ "-" ++ job.id
  name := "dlq"
  data := .obj
    [("originalQueue", .str (Consumer.platform p).queue),
      ("jobId", .str job.id),
      ("name", .str job.name),
      ("type", (job.data.field "type").orElse .null),
      ("botId", (job.data.field "botId").orElse .null),
      ("payload", (job.data.field "data").orElse .null),
      ("failedReason", .str reason),
      ("attemptsMade", .num job.attemptsMade),
      ("timestamp", .num job.timestamp)]
  attempts := none
  attemptsMade := 0
  timestamp := now

/-- The entry that the webhook worker writes. -/
def webhookEntry (job : Job) (reason : String) (now : ℕ) : Job where
  id := "dlq-webhook-" ++ job.id
  name := "dlq"
  data := .obj
    [("originalQueue", .str "webhook-queue"),
      ("jobId", .str job.id),
      ("name", .str job.name),
      ("type", .str "deliver"),
      ("botId", (job.data.field "botId").orElse .null),
      ("payload", job.data),
      ("failedReason", .str reason),
      ("attemptsMade", .num job.attemptsMade),
      ("timestamp", .num job.timestamp)]
  attempts := none
  attemptsMade := 0
  timestamp := now

/-- Attempts of a webhook delivery. -/
def webhookAttempts : ℕ := 5

def Consumer.entry : Consumer → Job → String → ℕ → Job
  | .platform p => platformEntry p
  | .webhook => webhookEntry

/-- Attempts after which a worker moves a job. -/
def Consumer.budget (w : Consumer) (job : Job) : ℕ :=
  match w with
  | .platform _ => job.attempts.getD 1
  | .webhook => webhookAttempts

/-- A failed job is moved when it has no attempt left. -/
def onFailed (redis : Redis) (w : Consumer) (job : Job) (reason : String) (now : ℕ) : Redis :=
  if w.budget job ≤ job.attemptsMade then redis.add w.dlq (w.entry job reason now) else redis

/-- What a worker is told to do. -/
inductive Work where
  | connect (botId : String)
  | disconnect (botId : Value)
  | execute (botId : String) (type payload : Value)
  | update (botId : String) (update : Value)
  | event (stored : Value)
  | missingBotId
  | unknown (type : Value)
  | deliver (webhookId url secret body eventType botId : Value)

/-- The bot of a job, of the job itself or of its data. -/
def jobBotId (data : Value) : Option String :=
  (((data.field "botId").text?).or ((data.field "data").field "botId").text?).filter (· ≠ "")

/-- What `processJob` reads out of the data of a job. -/
def processJob (data : Value) : Work :=
  let inner := data.field "data"
  match data.field "type" with
  | .str "connect" => ((jobBotId data).map .connect).getD .missingBotId
  | .str "disconnect" => .disconnect (data.field "botId")
  | .str "execute" =>
    ((jobBotId data).map fun botId =>
      .execute botId (inner.field "type") (inner.field "payload")).getD .missingBotId
  | .str "update" => ((jobBotId data).map fun botId => .update botId inner).getD .missingBotId
  | .str "event" => .event (inner.field "event")
  | type => .unknown type

/-- What `deliverWebhookJob` reads out of the data of a job. -/
def deliverWebhookJob (data : Value) : Work :=
  .deliver (data.field "webhookId") (data.field "url") (data.field "secret") (data.field "body")
    ((data.field "eventType").orElse (.str "unknown")) ((data.field "botId").orElse .null)

def Consumer.work : Consumer → Value → Work
  | .platform _ => processJob
  | .webhook => deliverWebhookJob

-- ════════════════════════════════════════════════════════════════════════
-- The API
-- ════════════════════════════════════════════════════════════════════════

/-- The queues of the API by platform. -/
def queues : List (String × String) :=
  [("telegram", "telegram-queue"), ("twitch", "twitch-queue"), ("youtube", "youtube-queue"),
    ("twitter", "twitter-queue"), ("crypto", "crypto-queue")]

def dlqNames : List (String × String) :=
  [("telegram", "telegram-queue-dlq"), ("twitch", "twitch-queue-dlq"),
    ("youtube", "youtube-queue-dlq"), ("twitter", "twitter-queue-dlq"),
    ("crypto", "crypto-queue-dlq"), ("webhook", "webhook-queue-dlq")]

structure DeadLetterJobView where
  id : String
  platform : String
  name : Option String
  type : Option String
  botId : Option String
  failedReason : Option String
  attemptsMade : ℚ
  timestamp : ℕ

def toDlqView (platform : String) (job : Job) : DeadLetterJobView where
  id := job.id
  platform := platform
  name := (job.data.field "name").text?
  type := (job.data.field "type").text?
  botId := (job.data.field "botId").text?
  failedReason := (job.data.field "failedReason").text?
  attemptsMade := ((job.data.field "attemptsMade").number?).getD 0
  timestamp := job.timestamp

/-- The latest entries of each queue; the bound counts from zero and is included. -/
def getDeadLetterJobs (redis : Redis) (limit : ℕ) : List DeadLetterJobView :=
  dlqNames.flatMap fun (platform, queue) =>
    ((redis queue).take (limit + 1)).map (toDlqView platform)

/-- A field of an object, or of a list by its index, written over or added. -/
def withBotId (payload botId : Value) : Value :=
  .obj (InsertionMap.write "botId" botId payload.entries)

/-- The job that a replay puts on the queue. -/
def replayedJob (platform jobId : String) (data : Value) (now : ℕ) : Job :=
  let botId := (data.field "botId").text?
  let botIdValue := (botId.map Value.str).getD .null
  { id := "replay-" ++ platform ++ "-" ++ jobId ++ "-" ++ toString now
    name := (((data.field "name").text?).filter (· ≠ "")).getD "default"
    data := .obj
      [("id", .str (((botId.filter (· ≠ "")).getD "replay") ++ "-" ++ toString now)),
        ("type", .str (((data.field "type").text?).getD "default")),
        ("botId", botIdValue),
        ("data", withBotId (data.field "payload") botIdValue)]
    attempts := some 3
    attemptsMade := 0
    timestamp := now }

def replayDeadLetterJob (redis : Redis) (platform jobId : String) (now : ℕ) :
    Except String Unit × Redis :=
  match InsertionMap.lookup platform dlqNames with
  | none => (.error ("Unknown DLQ platform: " ++ platform), redis)
  | some dlq =>
    match (redis dlq).find? (·.id = jobId) with
    | none => (.error "Dead-letter job not found", redis)
    | some job =>
      match if platform = "webhook" then some "webhook-queue"
        else InsertionMap.lookup platform queues with
      | none => (.error "Target queue not found", redis)
      | some target =>
        (.ok (), (redis.add target (replayedJob platform jobId job.data now)).remove dlq jobId)

end BotHive.Queues
