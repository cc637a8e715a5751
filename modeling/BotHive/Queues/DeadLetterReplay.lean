import BotHive.Queues.DeadLetter

/-!
# What a replay gives back

A job that has failed for good should come back from its dead-letter queue as the work that
it was. The API has no queues for three of the platforms. It puts the payload of an entry
under `data`, where the platform workers look for it and the webhook worker does not, and
writes the bot into it.

## Main definitions

- `FailedJob`: the jobs of the workers
- `Recovered`: an entry is written, listed, and comes back as the work that the job was
- `Recoverable`: when that is so

## Main results

- `recovered_iff_recoverable`
-/

namespace BotHive.Queues

inductive JobType where
  | connect
  | disconnect
  | execute
  | update
  | event

def JobType.name : JobType → String
  | connect => "connect"
  | disconnect => "disconnect"
  | execute => "execute"
  | update => "update"
  | event => "event"

/-- The data of a job of a platform worker. -/
structure QueueJob where
  id : String
  type : JobType
  botId : String
  data : List (String × Value)

def QueueJob.toValue (job : QueueJob) : Value :=
  .obj [("id", .str job.id), ("type", .str job.type.name), ("botId", .str job.botId),
    ("data", .obj job.data)]

def optionValue : Option String → Value
  | none => .null
  | some s => .str s

structure WebhookJobData where
  webhookId : String
  url : String
  secret : Option String
  body : String
  eventType : String
  botId : Option String

def WebhookJobData.toValue (data : WebhookJobData) : Value :=
  .obj [("webhookId", .str data.webhookId), ("url", .str data.url),
    ("secret", optionValue data.secret), ("body", .str data.body),
    ("eventType", .str data.eventType), ("botId", optionValue data.botId)]

/-- The job data of the workers. -/
inductive JobData where
  | platform (p : Platform) (job : QueueJob)
  | webhook (data : WebhookJobData)

def JobData.consumer : JobData → Consumer
  | .platform p _ => .platform p
  | .webhook _ => .webhook

def JobData.toValue : JobData → Value
  | .platform _ job => job.toValue
  | .webhook data => data.toValue

def JobData.type : JobData → String
  | .platform _ job => job.type.name
  | .webhook _ => "deliver"

def JobData.botId : JobData → Option String
  | .platform _ job => some job.botId
  | .webhook data => data.botId

/-- A job that has no attempt left. -/
structure FailedJob where
  id : String
  name : String
  data : JobData
  attempts : Option ℕ
  attemptsMade : ℕ
  timestamp : ℕ
  exhausted : attempts.getD 1 ≤ attemptsMade

def FailedJob.toJob (job : FailedJob) : Job :=
  ⟨job.id, job.name, job.data.toValue, job.attempts, job.attemptsMade, job.timestamp⟩

/-- The same work. An update has every field that it had, and may have more. -/
inductive SameWork : Work → Work → Prop
  | refl (w : Work) : SameWork w w
  | update (botId : String) {fields fields' : List (String × Value)}
      (h : ∀ name v, Value.ownField name fields = some v → Value.ownField name fields' = some v) :
      SameWork (.update botId (.obj fields)) (.update botId (.obj fields'))

/-- The entry of a failed job. -/
def FailedJob.entry (job : FailedJob) (reason : String) (failedAt : ℕ) : Job :=
  job.data.consumer.entry job.toJob reason failedAt

/-- The entry of a failed job is written; then it is listed, and its replay puts a job on the
    queue that the worker takes for the work that the failed one was. -/
structure Recovered (redis : Redis) (job : FailedJob) (reason : String) (failedAt limit now : ℕ) :
    Prop where
  written : (onFailed redis job.data.consumer job.toJob reason failedAt) job.data.consumer.dlq =
    job.entry reason failedAt :: redis job.data.consumer.dlq
  listed : ∃ view ∈ getDeadLetterJobs
      (onFailed redis job.data.consumer job.toJob reason failedAt) limit,
    view.id = (job.entry reason failedAt).id ∧ view.platform = job.data.consumer.name ∧
      view.type = some job.data.type ∧ view.botId = job.data.botId
  replayed : ∃ redis' replay,
    replayDeadLetterJob (onFailed redis job.data.consumer job.toJob reason failedAt)
        job.data.consumer.name (job.entry reason failedAt).id now = (.ok (), redis') ∧
      redis' job.data.consumer.queue = replay :: redis job.data.consumer.queue ∧
      SameWork (job.data.consumer.work job.data.toValue) (job.data.consumer.work replay.data)

/-- The platforms that the API has queues for. -/
def Platform.served (p : Platform) : Bool :=
  (queues.map Prod.fst).contains p.name

/-- The condition on a job: it is one of a platform that the API has queues for; an update for a
    bot has no other value under the name of its bot; and no job has the ids of the entry and of
    its replay. -/
structure Recoverable (redis : Redis) (job : FailedJob) (reason : String) (failedAt now : ℕ) :
    Prop where
  served : ∃ p data, job.data = .platform p data ∧ p.served = true ∧
    (∀ v, data.botId ≠ "" → data.type = .update → Value.ownField "botId" data.data = some v →
      v = .str data.botId)
  entryFresh : ∀ x ∈ redis job.data.consumer.dlq, x.id ≠ (job.entry reason failedAt).id
  replayFresh : ∀ x ∈ redis job.data.consumer.queue,
    x.id ≠ "replay-" ++ job.data.consumer.name ++ "-" ++ (job.entry reason failedAt).id ++ "-" ++
      toString now

-- ════════════════════════════════════════════════════════════════════════
-- Queues
-- ════════════════════════════════════════════════════════════════════════

section Redis

variable {redis : Redis} {queue other : String} {job : Job}

theorem add_of_fresh (h : ∀ x ∈ redis queue, x.id ≠ job.id) :
    redis.add queue job queue = job :: redis queue := by
  have hnone : ¬ (redis queue).any (·.id = job.id) = true := by
    simpa using h
  rw [Redis.add, if_neg hnone, Function.update_self]

/-- A queue that has grown has got the job, and had none of its id. -/
theorem of_add_eq_cons {new : Job} (h : redis.add queue job queue = new :: redis queue) :
    new = job ∧ ∀ x ∈ redis queue, x.id ≠ job.id := by
  rw [Redis.add] at h
  split at h
  · exact absurd (congrArg List.length h) (by simp)
  · rename_i hnone
    rw [Function.update_self] at h
    exact ⟨(List.head_eq_of_cons_eq h).symm, by simpa using hnone⟩

theorem add_of_ne (h : other ≠ queue) : redis.add queue job other = redis other := by
  rw [Redis.add]
  split
  · rfl
  · rw [Function.update_of_ne h]

theorem remove_of_ne {id : String} (h : other ≠ queue) : redis.remove queue id other = redis other := by
  rw [Redis.remove, Function.update_of_ne h]

end Redis

theorem queue_ne_dlq (w w' : Consumer) : w.queue ≠ w'.dlq := by
  cases w with
  | webhook => cases w' with
    | webhook => decide
    | platform p => cases p <;> decide
  | platform q => cases q <;> cases w' with
    | webhook => decide
    | platform p => cases p <;> decide

/-- The API knows the queues of a platform, or neither of them. -/
theorem lookup_of_served {p : Platform} (h : p.served = true) :
    InsertionMap.lookup p.name dlqNames = some (Consumer.platform p).dlq ∧
      InsertionMap.lookup p.name queues = some (Consumer.platform p).queue ∧
      (p.name, (Consumer.platform p).dlq) ∈ dlqNames ∧ p.name ≠ "webhook" := by
  cases p <;> first | exact absurd h (by decide) | decide

theorem not_mem_dlqNames {p : Platform} (h : p.served ≠ true) : p.name ∉ dlqNames.map Prod.fst := by
  cases p <;> first | exact absurd (by decide) h | decide

/-- A failed job of a platform worker is moved. -/
theorem onFailed_platform (redis : Redis) {job : FailedJob} {p : Platform} {data : QueueJob}
    (h : job.data = .platform p data) (reason : String) (failedAt : ℕ) :
    onFailed redis job.data.consumer job.toJob reason failedAt =
      redis.add (Consumer.platform p).dlq (job.entry reason failedAt) := by
  have hbudget := job.exhausted
  rw [FailedJob.entry, h, JobData.consumer, onFailed]
  exact if_pos hbudget

-- ════════════════════════════════════════════════════════════════════════
-- What the workers read
-- ════════════════════════════════════════════════════════════════════════

/-- The work of a job of a platform worker. -/
def QueueJob.work (type : JobType) (botId : String) (inner : Value) : Work :=
  match type with
  | .connect => if botId = "" then .missingBotId else .connect botId
  | .disconnect => .disconnect (.str botId)
  | .execute =>
    if botId = "" then .missingBotId
    else .execute botId (inner.field "type") (inner.field "payload")
  | .update => if botId = "" then .missingBotId else .update botId inner
  | .event => .event (inner.field "event")

theorem processJob_eq (id inner : Value) (type : JobType) (botId : String) :
    processJob (.obj [("id", id), ("type", .str type.name), ("botId", .str botId),
      ("data", inner)]) = QueueJob.work type botId inner := by
  have hbot : jobBotId (.obj [("id", id), ("type", .str type.name), ("botId", .str botId),
      ("data", inner)]) = if botId = "" then none else some botId := by
    rw [jobBotId]
    change Option.filter _ (some botId) = _
    rw [Option.filter_some]
    by_cases hempty : botId = ""
    · rw [if_pos hempty, if_neg (by simpa using hempty)]
    · rw [if_neg hempty, if_pos (by simpa using hempty)]
  rw [processJob, hbot]
  cases type <;> by_cases hempty : botId = "" <;>
    simp [QueueJob.work, Value.field, Value.member, Value.ownField, JobType.name, hempty]

theorem ownField_write (name : String) (v : Value) (fields : List (String × Value))
    (other : String) :
    Value.ownField other (InsertionMap.write name v fields) =
      if other = name then some v else Value.ownField other fields := by
  rw [Value.ownField_eq_lookup, InsertionMap.lookup_write, Value.ownField_eq_lookup]

/-- The bot that a replay writes into a payload leaves its other fields. -/
theorem field_withBotId (data : List (String × Value)) (botId : Value) {name : String}
    (h : name ≠ "botId") :
    (withBotId (.obj data) botId).field name = (Value.obj data).field name := by
  rw [withBotId, Value.field, Value.field, Value.member, Value.member, Value.entries,
    ownField_write, if_neg h]

theorem sameWork_update_iff (botId : String) (fields fields' : List (String × Value)) :
    SameWork (.update botId (.obj fields)) (.update botId (.obj fields')) ↔
      ∀ name v, Value.ownField name fields = some v → Value.ownField name fields' = some v := by
  constructor
  · intro h
    cases h with
    | refl => exact fun _ _ hv => hv
    | update _ h => exact h
  · exact SameWork.update botId

/-- **Same work**: the bot in the payload matters to updates that have a field of that name. -/
theorem sameWork_withBotId_iff (type : JobType) (botId : String) (data : List (String × Value)) :
    SameWork (QueueJob.work type botId (.obj data))
        (QueueJob.work type botId (withBotId (.obj data) (.str botId))) ↔
      ∀ v, botId ≠ "" → type = .update → Value.ownField "botId" data = some v → v = .str botId := by
  cases type with
  | connect | disconnect => exact iff_of_true (.refl _) (fun _ _ h => nomatch h)
  | execute =>
    rw [QueueJob.work, QueueJob.work, field_withBotId data _ (by decide),
      field_withBotId data _ (by decide)]
    exact iff_of_true (.refl _) (fun _ _ h => nomatch h)
  | event =>
    rw [QueueJob.work, QueueJob.work, field_withBotId data _ (by decide)]
    exact iff_of_true (.refl _) (fun _ _ h => nomatch h)
  | update =>
    rw [QueueJob.work, QueueJob.work]
    by_cases hempty : botId = ""
    · rw [if_pos hempty, if_pos hempty]
      exact iff_of_true (.refl _) (fun _ hne => absurd hempty hne)
    · rw [if_neg hempty, if_neg hempty, withBotId, sameWork_update_iff]
      constructor
      · intro h v _ _ hv
        have hkept := h "botId" v hv
        rw [Value.entries, ownField_write, if_pos rfl] at hkept
        exact (Option.some.inj hkept).symm
      · intro h name v hv
        rw [Value.entries, ownField_write]
        split
        · rename_i hname
          rw [hname] at hv
          rw [h v hempty rfl hv]
        · exact hv

/-- The replay of the entry of a platform job. -/
theorem work_replayedJob (p : Platform) {job : Job} {data : QueueJob}
    (h : job.data = data.toValue) (reason : String) (failedAt : ℕ) (platform jobId : String)
    (now : ℕ) :
    processJob (replayedJob platform jobId (platformEntry p job reason failedAt).data now).data =
      QueueJob.work data.type data.botId (withBotId (.obj data.data) (.str data.botId)) := by
  have hentry : (platformEntry p job reason failedAt).data = .obj
      [("originalQueue", .str (Consumer.platform p).queue), ("jobId", .str job.id),
        ("name", .str job.name), ("type", .str data.type.name), ("botId", .str data.botId),
        ("payload", .obj data.data), ("failedReason", .str reason),
        ("attemptsMade", .num job.attemptsMade), ("timestamp", .num job.timestamp)] := by
    rw [platformEntry, h]
    rfl
  rw [hentry]
  exact processJob_eq _ _ data.type data.botId

theorem processJob_toValue (data : QueueJob) :
    processJob data.toValue = QueueJob.work data.type data.botId (.obj data.data) :=
  processJob_eq _ _ data.type data.botId

/-- What a replay puts on the queue of a platform. -/
theorem replay_platform {redis : Redis} {p : Platform} (hserved : p.served = true) {entry : Job}
    {rest : List Job} (hdlq : redis (Consumer.platform p).dlq = entry :: rest) (now : ℕ) :
    ∃ redis', replayDeadLetterJob redis p.name entry.id now = (.ok (), redis') ∧
      redis' (Consumer.platform p).queue =
        redis.add (Consumer.platform p).queue (replayedJob p.name entry.id entry.data now)
          (Consumer.platform p).queue := by
  obtain ⟨hlookup, hqueue, -, hname⟩ := lookup_of_served hserved
  have hfind : (redis (Consumer.platform p).dlq).find? (·.id = entry.id) = some entry := by
    rw [hdlq, List.find?_cons_of_pos (by simp)]
  rw [replayDeadLetterJob, hlookup]
  dsimp only
  rw [hfind]
  dsimp only
  rw [if_neg hname, hqueue]
  refine ⟨_, rfl, ?_⟩
  rw [remove_of_ne (queue_ne_dlq _ _)]

/-- A webhook delivery never comes back: its payload is where the worker does not look. -/
theorem not_sameWork_webhook (data : WebhookJobData) (platform jobId : String) (entry : Value)
    (now : ℕ) :
    ¬ SameWork (deliverWebhookJob data.toValue)
      (deliverWebhookJob (replayedJob platform jobId entry now).data) := by
  intro h
  have hsame : deliverWebhookJob data.toValue =
      deliverWebhookJob (replayedJob platform jobId entry now).data := by
    generalize hw : deliverWebhookJob data.toValue = w at h
    cases h with
    | refl => rfl
  cases hsame

/-- The entry of a platform job is listed when the API knows its queue. -/
theorem listed_platform {redis : Redis} {p : Platform} (hserved : p.served = true) {job : Job}
    {data : QueueJob} (hdata : job.data = data.toValue) {reason : String} {failedAt : ℕ}
    {rest : List Job}
    (hdlq : redis (Consumer.platform p).dlq = platformEntry p job reason failedAt :: rest)
    (limit : ℕ) :
    ∃ view ∈ getDeadLetterJobs redis limit, view.id = (platformEntry p job reason failedAt).id ∧
      view.platform = p.name ∧ view.type = some data.type.name ∧ view.botId = some data.botId := by
  obtain ⟨-, -, hmem, -⟩ := lookup_of_served hserved
  refine ⟨toDlqView p.name (platformEntry p job reason failedAt), ?_, rfl, rfl, ?_, ?_⟩
  · refine List.mem_flatMap.mpr ⟨_, hmem, List.mem_map_of_mem ?_⟩
    rw [hdlq, List.take_succ_cons]
    exact List.mem_cons_self
  · rw [toDlqView, platformEntry, hdata]
    rfl
  · rw [toDlqView, platformEntry, hdata]
    rfl

/-- A platform without queues in the API is not listed. -/
theorem platform_of_listed {redis : Redis} {limit : ℕ} {view : DeadLetterJobView}
    (h : view ∈ getDeadLetterJobs redis limit) : view.platform ∈ dlqNames.map Prod.fst := by
  obtain ⟨e, he, hview⟩ := List.mem_flatMap.mp h
  obtain ⟨job, -, rfl⟩ := List.mem_map.mp hview
  exact List.mem_map_of_mem he

/-- What comes back to the webhook worker is the replay of an entry. -/
theorem replay_webhook {redis redis' : Redis} {jobId : String} {now : ℕ} {replay : Job}
    (h : replayDeadLetterJob redis "webhook" jobId now = (.ok (), redis'))
    (hqueue : redis' "webhook-queue" = replay :: redis "webhook-queue") :
    ∃ entry, replay = replayedJob "webhook" jobId entry now := by
  rw [replayDeadLetterJob] at h
  have hlookup : InsertionMap.lookup "webhook" dlqNames = some "webhook-queue-dlq" := by decide
  rw [hlookup] at h
  dsimp only at h
  split at h
  · cases h
  · rename_i entry _
    rw [if_pos rfl] at h
    dsimp only at h
    obtain rfl := (Prod.mk.inj h).2
    rw [remove_of_ne (by decide)] at hqueue
    exact ⟨entry.data, (of_add_eq_cons hqueue).1⟩

/-- A failed job touches only the dead-letter queue. -/
theorem onFailed_queue (redis : Redis) (w w' : Consumer) (job : Job) (reason : String)
    (failedAt : ℕ) : onFailed redis w job reason failedAt w'.queue = redis w'.queue := by
  rw [onFailed]
  split
  · exact add_of_ne (queue_ne_dlq w' w)
  · rfl

theorem not_recovered_webhook (redis : Redis) {job : FailedJob} {data : WebhookJobData}
    (hdata : job.data = .webhook data) (reason : String) (failedAt limit now : ℕ) :
    ¬ Recovered redis job reason failedAt limit now := by
  intro h
  obtain ⟨redis', replay, hreplay, hqueue, hsame⟩ := h.replayed
  rw [← onFailed_queue redis job.data.consumer job.data.consumer job.toJob reason failedAt]
    at hqueue
  rw [hdata] at hreplay hqueue hsame
  obtain ⟨entry, rfl⟩ := replay_webhook hreplay hqueue
  exact not_sameWork_webhook data _ _ entry now hsame

/-- The iff for the jobs of a platform worker. -/
theorem recovered_platform_iff (redis : Redis) {job : FailedJob} {p : Platform} {data : QueueJob}
    (hdata : job.data = .platform p data) (reason : String) (failedAt limit now : ℕ) :
    Recovered redis job reason failedAt limit now ↔
      Recoverable redis job reason failedAt now := by
  have hconsumer : job.data.consumer = .platform p := by rw [hdata, JobData.consumer]
  have hentry : job.entry reason failedAt = platformEntry p job.toJob reason failedAt := by
    rw [FailedJob.entry, hconsumer, Consumer.entry]
  have hjob : job.toJob.data = data.toValue := by rw [FailedJob.toJob, hdata, JobData.toValue]
  have hmoved := onFailed_platform redis hdata reason failedAt
  have hkept := onFailed_queue redis (.platform p) (.platform p) job.toJob reason failedAt
  rw [← hconsumer, hmoved, hconsumer] at hkept
  have hwork : SameWork (processJob data.toValue) (processJob (replayedJob p.name
      (job.entry reason failedAt).id (job.entry reason failedAt).data now).data) ↔
      ∀ v, data.botId ≠ "" → data.type = .update → Value.ownField "botId" data.data = some v →
        v = .str data.botId := by
    rw [hentry, work_replayedJob p hjob, processJob_toValue, sameWork_withBotId_iff]
  constructor
  · rintro ⟨hwritten, ⟨view, hview, -, hplatform, -⟩, redis', replay, hreplay, hqueue, hsame⟩
    rw [hmoved, hconsumer] at hwritten
    have hserved : p.served = true := by
      by_contra hnot
      have hmem := platform_of_listed hview
      rw [hplatform, hconsumer] at hmem
      exact not_mem_dlqNames hnot hmem
    obtain ⟨redis'', hreplay', hadd⟩ := replay_platform hserved hwritten now
    rw [hmoved, hconsumer] at hreplay
    obtain rfl := (Prod.mk.inj (hreplay.symm.trans hreplay')).2
    rw [hconsumer, hadd, ← hkept] at hqueue
    obtain ⟨rfl, hfresh⟩ := of_add_eq_cons hqueue
    rw [hdata] at hsame
    refine ⟨⟨p, data, hdata, hserved, hwork.mp hsame⟩, ?_, ?_⟩
    · rw [hconsumer]
      exact (of_add_eq_cons hwritten).2
    · rw [hconsumer, ← hkept]
      exact hfresh
  · rintro ⟨⟨p', data', hplatform, hserved, hupdate⟩, hentryFresh, hreplayFresh⟩
    obtain ⟨rfl, rfl⟩ := JobData.platform.inj (hdata.symm.trans hplatform)
    rw [hconsumer] at hentryFresh hreplayFresh
    have hwritten := add_of_fresh hentryFresh
    obtain ⟨redis', hreplay, hadd⟩ := replay_platform hserved hwritten now
    have hlisted := listed_platform hserved hjob (hentry ▸ hwritten) limit
    refine ⟨?_, ?_, redis', replayedJob p.name (job.entry reason failedAt).id
      (job.entry reason failedAt).data now, ?_, ?_, ?_⟩
    · rw [hmoved, hconsumer]
      exact hwritten
    · rw [hmoved, hdata, hentry]
      exact hlisted
    · rw [hmoved, hconsumer]
      exact hreplay
    · rw [hconsumer, hadd]
      rw [← hkept] at hreplayFresh ⊢
      exact add_of_fresh hreplayFresh
    · rw [hdata]
      exact hwork.mpr hupdate

/-- **Dead letters**: a job that has no attempt left comes back from the dead-letter queue as the
    work that it was, exactly if it is recoverable. -/
theorem recovered_iff_recoverable (redis : Redis) (job : FailedJob) (reason : String)
    (failedAt limit now : ℕ) :
    Recovered redis job reason failedAt limit now ↔
      Recoverable redis job reason failedAt now := by
  rcases hdata : job.data with ⟨p, data⟩ | data
  · exact recovered_platform_iff redis hdata reason failedAt limit now
  · refine iff_of_false (not_recovered_webhook redis hdata reason failedAt limit now) fun h => ?_
    obtain ⟨p, data', hplatform, -⟩ := h.served
    rw [hdata] at hplatform
    cases hplatform

/-- A delivery that has failed five times. -/
def failedDelivery : FailedJob where
  id := "webhook-w1"
  name := "deliver"
  data := .webhook ⟨"w1", "https://example.org/hook", none, "{}", "message", some "b1"⟩
  attempts := some 5
  attemptsMade := 5
  timestamp := 0
  exhausted := le_refl 5

/-- The replay of a webhook delivery has no webhook and no url. -/
theorem recovered_fails_on_webhook :
    ¬ Recovered (fun _ => []) failedDelivery "status 500" 31000 20 60000 :=
  not_recovered_webhook _ rfl _ _ _ _

end BotHive.Queues
