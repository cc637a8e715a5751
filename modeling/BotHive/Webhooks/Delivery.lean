import BotHive.Library.Machine
import BotHive.Queues.DeadLetter
import BotHive.Webhooks.Dispatch
import BotHive.Webhooks.FetchGuard

/-!
# Deliveries of a webhook job

An attempt decrypts the secret, sends the request, and writes down what came of it: the status of
the webhook, and a row of the delivery history. The request and the write of a good status
stand in one `try`, so an attempt whose endpoint answered with success throws when that write
fails. The queue runs a job that threw again while it has attempts left, and a job that has used
them up is moved to the dead-letter queue.

## Main definitions

- `deliverWebhookJob`: one attempt
- `DeliveryRun.step`: the attempts of a job
- `DeliveryRun.KeepsSuccess`: after a success nothing is sent and nothing is moved
- `DeliveryRun.Recorded`: the good status of a delivery is written

## Main results

- `DeliveryRun.keepsSuccess_iff_recorded`: the two are the same over the runs of a job
- `DeliveryRun.not_keepsSuccess_lostStatus`: a delivery is repeated when its status is not written
-/

namespace BotHive.Webhooks

/-- The data of a job of the webhook queue. -/
structure DeliveryData extends WebhookJobData where
  body : String

/-- What one call of `fetchWithGuard` does and gives. -/
structure Fetched where
  /-- whether the guard let a request through -/
  sent : Bool
  result : Except FetchError Response
  sent_of_ok : ∀ res, result = .ok res → sent = true

/-- The call of `fetchWithGuard` for a URL. -/
def guardedFetch (parseUrl : String → Option Url) (env : GuardEnv)
    (parseRelative : String → String → Option Url) (net : ℕ → Hop) (url : String) : Fetched where
  sent := (assertWebhookUrlAllowed env parseUrl url (net 0).lookup).isOk
  result := (fetchWithGuard parseUrl env parseRelative net url).2
  sent_of_ok res h := by
    rw [fetchWithGuard, maxRedirects, fetchHops] at h
    split at h
    · exact nomatch h
    · next hallowed => rw [hallowed]; rfl

/-- A failed attempt: the message of the error, and the status if the endpoint answered. -/
structure DeliveryError where
  message : String
  status : Option ℕ
  deriving DecidableEq

/-- A row of the delivery history. -/
structure DeliveryRow where
  webhookId : String
  eventType : String
  botId : String
  status : String
  statusCode : Option ℕ
  attempt : ℕ
  error : Option String
  deriving DecidableEq

inductive WebhookWrite where
  /-- the status `ok` of the webhook, with one more delivery -/
  | statusOk (webhookId : String)
  | statusFailed (webhookId lastError : String)
  | history (row : DeliveryRow)
  /-- the removal of old rows -/
  | prune (webhookId : String)
  deriving DecidableEq

/-- What the surroundings answer to one attempt. -/
structure AttemptAnswers where
  /-- the decrypted secret, or the message of the error -/
  secret : Except String (Option String)
  fetched : Fetched
  /-- the message of the error when a write fails -/
  db : WebhookWrite → Option String
  /-- whether an hour has passed since old rows were removed -/
  pruneDue : Bool
  now : ℕ

/-- What an attempt did. -/
structure Attempt where
  sent : Bool
  /-- the endpoint answered with success -/
  delivered : Bool
  writes : List WebhookWrite

section Attempts

def FetchError.message : FetchError → String
  | .thrown message => message
  | .passedOn code => code

/-- Whether a response counts as a success. -/
def Response.isOk (res : Response) : Bool :=
  200 ≤ res.status ∧ res.status < 300

/-- The judgement of `deliverWebhook` on what it fetched. -/
def deliverWebhook (fetched : Fetched) : Except DeliveryError Unit :=
  match fetched.result with
  | .error err => .error ⟨err.message, none⟩
  | .ok res =>
    if res.isOk then .ok ()
    else .error ⟨"webhook responded with status " ++ toString res.status, some res.status⟩

/-- A write that may fail without consequences. -/
def bestEffort (answers : AttemptAnswers) (write : WebhookWrite) : List WebhookWrite :=
  match answers.db write with
  | none => [write]
  | some _ => []

/-- A row of the history; an error of it, or of the removal of old rows, is swallowed. -/
def recordHistory (answers : AttemptAnswers) (row : DeliveryRow) : List WebhookWrite :=
  match answers.db (.history row) with
  | some _ => []
  | none =>
    .history row :: if answers.pruneDue then bestEffort answers (.prune row.webhookId) else []

/-- The rest of an attempt after an error. -/
def deliveryFailed (data : DeliveryData) (attempt : ℕ) (answers : AttemptAnswers)
    (sent delivered : Bool) (err : DeliveryError) : Attempt × Except DeliveryError Unit :=
  ({ sent := sent
     delivered := delivered
     writes := bestEffort answers (.statusFailed data.webhookId err.message) ++
       recordHistory answers
         { webhookId := data.webhookId
           eventType := data.eventType
           botId := data.botId
           status := "failed"
           statusCode := err.status
           attempt := attempt
           error := some (String.ofList (err.message.toList.take 300)) } },
    .error err)

def deliverWebhookJob (data : DeliveryData) (answers : AttemptAnswers) (attempt : ℕ) :
    Attempt × Except DeliveryError Unit :=
  match answers.secret with
  | .error message => deliveryFailed data attempt answers false false ⟨message, none⟩
  | .ok _ =>
    match deliverWebhook answers.fetched with
    | .error err => deliveryFailed data attempt answers answers.fetched.sent false err
    | .ok () =>
      -- the write of the status is part of the `try` of the delivery
      match answers.db (.statusOk data.webhookId) with
      | some message => deliveryFailed data attempt answers true true ⟨message, none⟩
      | none =>
        ({ sent := true
           delivered := true
           writes := .statusOk data.webhookId ::
             recordHistory answers
               { webhookId := data.webhookId
                 eventType := data.eventType
                 botId := data.botId
                 status := "ok"
                 statusCode := some 200
                 attempt := attempt
                 error := none } },
          .ok ())

end Attempts

inductive DeliveryPhase where
  | waiting
  | completed
  | failed
  deriving DecidableEq

/-- A job with its attempts, and the entries that were added to the dead-letter queue for it. -/
structure DeliveryRun where
  job : Queues.Job
  data : DeliveryData
  phase : DeliveryPhase
  attempts : List Attempt
  deadLetters : List Queues.Job

namespace DeliveryRun

def start (job : Queues.Job) (data : DeliveryData) : DeliveryRun :=
  ⟨job, data, .waiting, [], []⟩

/-- The queue after an attempt that threw. -/
def failedAttempt (s : DeliveryRun) (attempt : Attempt) (err : DeliveryError) (now : ℕ) :
    DeliveryRun :=
  let job := { s.job with attemptsMade := s.job.attemptsMade + 1 }
  { s with
    job := job
    phase := if job.attemptsMade < job.attempts.getD 1 then .waiting else .failed
    attempts := s.attempts ++ [attempt]
    deadLetters :=
      if Queues.Consumer.webhook.budget job ≤ job.attemptsMade then
        s.deadLetters ++ [Queues.webhookEntry job err.message now]
      else s.deadLetters }

/-- The worker takes the job once more. -/
def step (s : DeliveryRun) (answers : AttemptAnswers) : Option DeliveryRun :=
  if s.phase = .waiting then
    match deliverWebhookJob s.data answers (s.job.attemptsMade + 1) with
    | (attempt, .ok ()) =>
      some { s with
        job := { s.job with attemptsMade := s.job.attemptsMade + 1 }
        phase := .completed
        attempts := s.attempts ++ [attempt] }
    | (attempt, .error err) => some (s.failedAttempt attempt err answers.now)
  else none

/-- An attempt of the job was answered with success. -/
def Delivered (s : DeliveryRun) : Prop :=
  ∃ attempt ∈ s.attempts, attempt.delivered = true

/-- After an attempt that was answered with success, no attempt sends the request, and the job
    is not moved to the dead-letter queue. -/
def KeepsSuccess (s : DeliveryRun) (answers : AttemptAnswers) : Prop :=
  (s.Delivered → (deliverWebhookJob s.data answers (s.job.attemptsMade + 1)).1.sent = false) ∧
    ∀ s', s.step answers = some s' → s'.Delivered → s'.deadLetters = s.deadLetters

/-- An attempt that is answered with success can write the status of the webhook. -/
def Recorded (s : DeliveryRun) (answers : AttemptAnswers) : Prop :=
  answers.secret.isOk = true → (∃ res, answers.fetched.result = .ok res ∧ res.isOk = true) →
    answers.db (.statusOk s.data.webhookId) = none

end DeliveryRun

section Attempts

variable {data : DeliveryData} {answers : AttemptAnswers} {attempt : ℕ}

theorem deliverWebhook_eq_ok_iff {fetched : Fetched} :
    deliverWebhook fetched = .ok () ↔ ∃ res, fetched.result = .ok res ∧ res.isOk = true := by
  rw [deliverWebhook]
  cases fetched.result with
  | error err => simp
  | ok res => simp

/-- What an attempt does is one of three things: it fails before a success of the endpoint, it
    loses the status of a success, or it returns. -/
theorem deliverWebhookJob_cases (data : DeliveryData) (answers : AttemptAnswers) (attempt : ℕ) :
    ((deliverWebhookJob data answers attempt).1.delivered = false ∧
      (∃ err, (deliverWebhookJob data answers attempt).2 = .error err) ∧
      ¬ (answers.secret.isOk = true ∧ deliverWebhook answers.fetched = .ok ())) ∨
    ((deliverWebhookJob data answers attempt).1.delivered = true ∧
      (deliverWebhookJob data answers attempt).1.sent = true ∧
      answers.secret.isOk = true ∧ deliverWebhook answers.fetched = .ok () ∧
      ((∃ message, answers.db (.statusOk data.webhookId) = some message ∧
          (deliverWebhookJob data answers attempt).2 = .error ⟨message, none⟩) ∨
        (answers.db (.statusOk data.webhookId) = none ∧
          (deliverWebhookJob data answers attempt).2 = .ok ()))) := by
  rw [deliverWebhookJob]
  cases hsecret : answers.secret with
  | error message => exact Or.inl ⟨rfl, ⟨_, rfl⟩, fun h => Bool.noConfusion h.1⟩
  | ok secret =>
    cases hdeliver : deliverWebhook answers.fetched with
    | error err => exact Or.inl ⟨rfl, ⟨_, rfl⟩, fun h => nomatch h.2⟩
    | ok _ =>
      refine Or.inr ?_
      cases hdb : answers.db (.statusOk data.webhookId) with
      | some message => exact ⟨rfl, rfl, rfl, rfl, Or.inl ⟨message, rfl, rfl⟩⟩
      | none => exact ⟨rfl, rfl, rfl, rfl, Or.inr ⟨rfl, rfl⟩⟩

/-- An attempt that returns was answered with success. -/
theorem delivered_of_ok (h : (deliverWebhookJob data answers attempt).2 = .ok ()) :
    (deliverWebhookJob data answers attempt).1.delivered = true := by
  rcases deliverWebhookJob_cases data answers attempt with ⟨-, ⟨err, herr⟩, -⟩ | ⟨hdelivered, -⟩
  · exact nomatch herr.symm.trans h
  · exact hdelivered

/-- An attempt that was answered with success sent the request. -/
theorem sent_of_delivered (h : (deliverWebhookJob data answers attempt).1.delivered = true) :
    (deliverWebhookJob data answers attempt).1.sent = true := by
  rcases deliverWebhookJob_cases data answers attempt with ⟨hnot, -⟩ | ⟨-, hsent, -⟩
  · exact Bool.noConfusion (hnot.symm.trans h)
  · exact hsent

end Attempts

namespace DeliveryRun

variable {s s' : DeliveryRun} {answers : AttemptAnswers}

/-- The attempt that a worker makes next. -/
abbrev next (s : DeliveryRun) (answers : AttemptAnswers) : Attempt × Except DeliveryError Unit :=
  deliverWebhookJob s.data answers (s.job.attemptsMade + 1)

/-- The status of a success is written exactly when the attempt then returns. -/
theorem recorded_iff :
    s.Recorded answers ↔ ((s.next answers).1.delivered = true → (s.next answers).2 = .ok ()) := by
  rw [Recorded]
  simp only [← deliverWebhook_eq_ok_iff]
  rcases deliverWebhookJob_cases s.data answers (s.job.attemptsMade + 1) with
    ⟨hnot, -, hanswers⟩ | ⟨hdelivered, -, hsecret, hok, ⟨message, hdb, herr⟩ | ⟨hdb, hret⟩⟩
  · refine iff_of_true (fun hsecret hok => absurd ⟨hsecret, hok⟩ hanswers) fun h => ?_
    exact Bool.noConfusion (hnot.symm.trans h)
  · refine iff_of_false (fun h => ?_) fun h => nomatch herr.symm.trans (h hdelivered)
    exact nomatch (h hsecret hok).symm.trans hdb
  · exact iff_of_true (fun _ _ => hdb) fun _ => hret

/-- A step takes a waiting job, and adds one attempt. -/
theorem step_cases (h : s.step answers = some s') :
    s.phase = .waiting ∧
      ((∃ attempt, s.next answers = (attempt, .ok ()) ∧ s'.phase = .completed ∧
          s'.job.attempts = s.job.attempts ∧ s'.deadLetters = s.deadLetters) ∨
        ∃ attempt err, s.next answers = (attempt, .error err) ∧
          s' = s.failedAttempt attempt err answers.now) := by
  rw [step] at h
  split at h
  · next hwaiting =>
    refine ⟨hwaiting, ?_⟩
    split at h
    · next attempt hnext =>
      obtain rfl := Option.some.inj h
      exact Or.inl ⟨attempt, hnext, rfl, rfl, rfl⟩
    · next attempt err hnext =>
      exact Or.inr ⟨attempt, err, hnext, (Option.some.inj h).symm⟩
  · exact nomatch h

theorem delivered_append {attempts : List Attempt} {attempt : Attempt}
    (h : s'.attempts = attempts ++ [attempt]) :
    s'.Delivered ↔ (∃ a ∈ attempts, a.delivered = true) ∨ attempt.delivered = true := by
  rw [Delivered, h]
  simp [or_and_right, exists_or]

/-- A job that waits has not been answered with success. -/
def Open (s : DeliveryRun) : Prop :=
  s.phase = .waiting → ¬ s.Delivered

theorem Open.step (h : s.Open) (hrecorded : s.Recorded answers) (hstep : s.step answers = some s') :
    s'.Open := by
  obtain ⟨hwaiting, ⟨attempt, -, hphase, -⟩ | ⟨attempt, err, hnext, rfl⟩⟩ := step_cases hstep
  · intro hwaiting'
    exact nomatch hphase.symm.trans hwaiting'
  · intro _ hdelivered
    rcases (delivered_append rfl).mp hdelivered with hold | hnew
    · exact h hwaiting hold
    · rw [recorded_iff, hnext] at hrecorded
      exact nomatch hrecorded hnew

/-- A job that is still open keeps its success in an attempt whose status is written. -/
theorem Open.keepsSuccess (h : s.Open) (hrecorded : s.Recorded answers)
    (hstep : s.step answers = some s') : s.KeepsSuccess answers := by
  have hwaiting : s.phase = .waiting := (step_cases hstep).1
  refine ⟨fun hdelivered => absurd hdelivered (h hwaiting), fun t ht hdelivered => ?_⟩
  obtain ⟨-, ⟨attempt, -, -, -, hsame⟩ | ⟨attempt, err, hnext, rfl⟩⟩ := step_cases ht
  · exact hsame
  · rcases (delivered_append rfl).mp hdelivered with hold | hnew
    · exact absurd hold (h hwaiting)
    · rw [recorded_iff, hnext] at hrecorded
      exact nomatch hrecorded hnew

/-- A job that waits although it was answered with success, and is moved when its attempts are
    used up. -/
structure Lost (s : DeliveryRun) : Prop where
  delivered : s.Delivered
  waiting : s.phase = .waiting
  budget : Queues.webhookAttempts ≤ s.job.attempts.getD 1

/-- A failed attempt after a success leaves the job waiting, unless it is moved. -/
theorem lost_failedAttempt {attempt : Attempt} {err : DeliveryError}
    (hbudget : Queues.webhookAttempts ≤ s.job.attempts.getD 1)
    (hdelivered : (s.failedAttempt attempt err answers.now).Delivered)
    (hkept : (s.failedAttempt attempt err answers.now).deadLetters = s.deadLetters) :
    (s.failedAttempt attempt err answers.now).Lost := by
  refine ⟨hdelivered, ?_, hbudget⟩
  by_contra hphase
  have hused : ¬ s.job.attemptsMade + 1 < s.job.attempts.getD 1 :=
    fun hlt => hphase (if_pos hlt)
  have hmoved : Queues.Consumer.webhook.budget s.job ≤ s.job.attemptsMade + 1 :=
    hbudget.trans (Nat.le_of_not_lt hused)
  have hentry : (s.failedAttempt attempt err answers.now).deadLetters = s.deadLetters ++ [_] :=
    if_pos hmoved
  have hlength := congrArg List.length (hentry.symm.trans hkept)
  rw [List.length_append, List.length_singleton] at hlength
  omega

/-- A success whose status is not written is lost. -/
theorem lost_of_not_recorded (hbudget : Queues.webhookAttempts ≤ s.job.attempts.getD 1)
    (hrecorded : ¬ s.Recorded answers) (hkeeps : s.KeepsSuccess answers)
    (hstep : s.step answers = some s') : s'.Lost := by
  rw [recorded_iff, Classical.not_imp] at hrecorded
  obtain ⟨-, ⟨attempt, hnext, -⟩ | ⟨attempt, err, hnext, rfl⟩⟩ := step_cases hstep
  · exact absurd (congrArg Prod.snd hnext) hrecorded.2
  · have hdelivered : attempt.delivered = true := by
      rw [← show (s.next answers).1 = attempt from congrArg Prod.fst hnext]
      exact hrecorded.1
    have hdelivered' : (s.failedAttempt attempt err answers.now).Delivered :=
      (delivered_append rfl).mpr (Or.inr hdelivered)
    exact lost_failedAttempt hbudget hdelivered' (hkeeps.2 _ hstep hdelivered')

/-- A lost success stays lost while nothing is sent and nothing is moved. -/
theorem Lost.step (h : s.Lost) (hkeeps : s.KeepsSuccess answers)
    (hstep : s.step answers = some s') : s'.Lost := by
  have hsent : (s.next answers).1.sent = false := hkeeps.1 h.delivered
  obtain ⟨-, ⟨attempt, hnext, -⟩ | ⟨attempt, err, hnext, rfl⟩⟩ := step_cases hstep
  · have hdelivered := delivered_of_ok (congrArg Prod.snd hnext)
    exact Bool.noConfusion (hsent.symm.trans (sent_of_delivered hdelivered))
  · have hdelivered' : (s.failedAttempt attempt err answers.now).Delivered :=
      (delivered_append rfl).mpr (Or.inl h.delivered)
    exact lost_failedAttempt h.budget hdelivered' (hkeeps.2 _ hstep hdelivered')

theorem budget_step (hbudget : Queues.webhookAttempts ≤ s.job.attempts.getD 1)
    (hstep : s.step answers = some s') : Queues.webhookAttempts ≤ s'.job.attempts.getD 1 := by
  obtain ⟨-, ⟨attempt, -, -, hsame, -⟩ | ⟨attempt, err, -, rfl⟩⟩ := step_cases hstep
  · rw [hsame]
    exact hbudget
  · exact hbudget

/-- In a run to the end of a job, no success was lost if all are kept. -/
theorem recorded_of_keepsSuccess {t : DeliveryRun} {run : List AttemptAnswers}
    (hbudget : Queues.webhookAttempts ≤ s.job.attempts.getD 1)
    (hexec : Machine.exec step s run = some t) (hended : t.phase ≠ .waiting)
    (h : Machine.Along step KeepsSuccess s run) : Machine.Along step Recorded s run := by
  refine Machine.along_of_trap (fun s => Queues.webhookAttempts ≤ s.job.attempts.getD 1) Lost
    (fun s a s' hs _ hstep => ?_) (fun s a s' hs hok hrecorded hstep => ?_)
    (fun s a s' hs hok hstep => ?_) hbudget h hexec ?_
  · exact budget_step hs hstep
  · exact lost_of_not_recorded hs hrecorded hok hstep
  · exact hs.step hok hstep
  · intro hlost
    exact hended hlost.waiting

/-- **Deliveries are not repeated**: over every run of the attempts of a job, nothing is sent and
    nothing is moved after a success if the status of every success is written; and only then,
    when a job of the dispatcher has come to its end. -/
theorem keepsSuccess_iff_recorded (job : Queues.Job) (data : DeliveryData)
    (run : List AttemptAnswers) :
    (Machine.Along step Recorded (start job data) run →
      Machine.Along step KeepsSuccess (start job data) run) ∧
    ∀ t, Machine.exec step (start job data) run = some t → t.phase ≠ .waiting →
      Queues.webhookAttempts ≤ job.attempts.getD 1 →
      Machine.Along step KeepsSuccess (start job data) run →
      Machine.Along step Recorded (start job data) run := by
  constructor
  · have hopen : (start job data).Open := by
      rintro - ⟨attempt, hattempt, -⟩
      exact List.not_mem_nil hattempt
    exact Machine.along_of_invariant Open (fun _ _ _ hs hok hstep => hs.step hok hstep)
      (fun _ _ _ hs hok hstep => hs.keepsSuccess hok hstep) hopen
  · intro t hexec hended hbudget
    exact recorded_of_keepsSuccess hbudget hexec hended

section Runs

def sampleData : DeliveryData where
  webhookId := "w1"
  url := "https://example.org/hook"
  secret := none
  eventType := "message"
  botId := "b1"
  body := "event"

def sampleJob : Queues.Job where
  id := "webhook-w1-b1"
  name := "deliver"
  data := .null
  attempts := some 5
  attemptsMade := 0
  timestamp := 0

/-- The endpoint answers with success, and some of the writes fail. -/
def okAnswers (db : WebhookWrite → Option String) : AttemptAnswers where
  secret := .ok none
  fetched := ⟨true, .ok ⟨200, none⟩, fun _ _ => rfl⟩
  db := db
  pruneDue := false
  now := 0

/-- A refused attempt, and a delivery of which only the history is not written. -/
def writtenStatus : List AttemptAnswers :=
  [{ okAnswers (fun _ => none) with fetched := ⟨true, .ok ⟨500, none⟩, fun _ _ => rfl⟩ },
    okAnswers fun
      | .history _ => some "Can't reach database server"
      | _ => none]

theorem keepsSuccess_writtenStatus :
    Machine.Along step KeepsSuccess (start sampleJob sampleData) writtenStatus := by
  apply (keepsSuccess_iff_recorded sampleJob sampleData writtenStatus).1
  rintro _ ⟨⟩
  refine ⟨fun _ _ => rfl, ?_⟩
  rintro _ ⟨⟩
  exact ⟨fun _ _ => rfl, trivial⟩

/-- The status of the first delivery is not written. -/
def lostStatus : List AttemptAnswers :=
  [okAnswers fun _ => some "Can't reach database server", okAnswers fun _ => none]

/-- The second attempt sends the request again. -/
theorem not_keepsSuccess_lostStatus :
    ¬ ∀ run : List AttemptAnswers, Machine.Along step KeepsSuccess (start sampleJob sampleData)
      run := by
  intro h
  obtain ⟨_, hsecond⟩ := h lostStatus _ rfl
  obtain ⟨⟨hsent, _⟩, _⟩ := hsecond _ rfl
  exact Bool.noConfusion (hsent ⟨_, List.mem_append_right _ (List.mem_singleton_self _), rfl⟩)

end Runs

end DeliveryRun

end BotHive.Webhooks
