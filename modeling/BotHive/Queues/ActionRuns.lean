import Mathlib.Algebra.Ring.Nat
import BotHive.Library.Machine
import BotHive.Queues.DeadLetter

/-!
# Trade actions from the request to the exchange

A trade action that is requested becomes a job of the crypto queue. A worker that takes the job
checks that it is the leader and sends one order; the exchange accepts or rejects it, now or
after the answer has been given up. A job that throws is run again until its attempts are used
up, is then moved to the dead-letter queue, and can be replayed from there.

Jobs and orders are never removed from the lists of the model, so that they can be counted; what
Redis forgets is marked.

## Main definitions

- `ActionJob.step`: what can happen to a job
- `World.step`: requests, leadership, jobs and replays in any order
- `AtMostOncePerRequest`: what is asked of every state of a run
-/

namespace BotHive.Queues

section Jobs

/-- The actions that place an order. -/
def tradeTypes : List String := ["marketBuy", "marketSell", "limitBuy", "limitSell"]

def Work.isTrade : Work → Bool
  | .execute _ (.str type) _ => type ∈ tradeTypes
  | _ => false

/-- The job of a requested action. It has one attempt, as an action may be an order. -/
def enqueueAction (botId type : String) (payload : Value) (now : ℕ) (random : String) : Job where
  id := "execute-" ++ botId ++ "-" ++ toString now ++ "-" ++ random
  name := "execute"
  data := .obj
    [("id", .str (botId ++ "-" ++ toString now)),
      ("type", .str "execute"),
      ("botId", .str botId),
      ("data", .obj [("type", .str type), ("payload", payload)])]
  attempts := some 1
  attemptsMade := 0
  timestamp := now

/-- What the exchange does with an order. -/
inductive OrderStatus where
  | pending
  | accepted
  | rejected
  deriving DecidableEq

inductive Phase where
  | waiting
  /-- handed to a worker that has not checked yet whether it is the leader -/
  | taken (worker : ℕ)
  | executing
  /-- the request of the latest order is under way -/
  | sent
  | completed
  | failed
  | removed
  deriving DecidableEq

/-- A job with the request that it goes back to and the orders that its attempts sent. -/
structure ActionJob where
  job : Job
  request : ℕ
  phase : Phase
  orders : List OrderStatus

def ActionJob.attempts (j : ActionJob) : ℕ :=
  (Consumer.platform .crypto).budget j.job

def ActionJob.accepted (j : ActionJob) : ℕ :=
  j.orders.count .accepted

/-- A new job on the queue. -/
def waitingJob (job : Job) (request : ℕ) : ActionJob where
  job := job
  request := request
  phase := .waiting
  orders := []

/-- An attempt throws; the job is run again while it has attempts left. -/
def ActionJob.throws (j : ActionJob) : ActionJob :=
  { j with
    job := { j.job with attemptsMade := j.job.attemptsMade + 1 }
    phase := if j.job.attemptsMade + 1 < j.attempts then .waiting else .failed }

inductive JobEvent where
  | take (worker : ℕ)
  /-- the check of the leadership in `processJob` -/
  | check
  /-- the action throws before an order is sent -/
  | refuse
  /-- the action returns without a live order -/
  | finish
  | send
  /-- the exchange accepts the order with a number -/
  | accept (order : ℕ)
  | reject (order : ℕ)
  /-- the answer to the latest order arrives -/
  | answer
  /-- the answer to the latest order is given up -/
  | lose
  | forget
  deriving DecidableEq

def ActionJob.step (leaders : List ℕ) (j : ActionJob) : JobEvent → Option ActionJob
  | .take worker => if j.phase = .waiting then some { j with phase := .taken worker } else none
  | .check =>
    match j.phase with
    | .taken worker => some (if worker ∈ leaders then { j with phase := .executing } else j.throws)
    | _ => none
  | .refuse => if j.phase = .executing then some j.throws else none
  | .finish => if j.phase = .executing then some { j with phase := .completed } else none
  | .send =>
    if j.phase = .executing ∧ (processJob j.job.data).isTrade then
      some { j with phase := .sent, orders := j.orders ++ [.pending] }
    else none
  | .accept order =>
    if j.orders[order]? = some .pending then
      some { j with orders := j.orders.set order .accepted }
    else none
  | .reject order =>
    if j.orders[order]? = some .pending then
      some { j with orders := j.orders.set order .rejected }
    else none
  | .answer =>
    if j.phase = .sent then
      match j.orders.getLast? with
      | some .accepted => some { j with phase := .completed }
      | some .rejected => some j.throws
      | _ => none
    else none
  | .lose => if j.phase = .sent then some j.throws else none
  | .forget =>
    if j.phase = .completed ∨ j.phase = .failed then some { j with phase := .removed } else none

end Jobs

section Worlds

/-- The jobs, the entries of the dead-letter queue with the requests that they go back to, the
    workers that are leaders, the number of requests, and the requests that were replayed. -/
structure World where
  jobs : List ActionJob
  dlq : List (ℕ × Job)
  leaders : List ℕ
  requests : ℕ
  replays : List ℕ

def World.empty : World where
  jobs := []
  dlq := []
  leaders := []
  requests := 0
  replays := []

/-- A job is not added when the queue has one of that id. -/
def addJob (jobs : List ActionJob) (new : ActionJob) : List ActionJob :=
  if jobs.any fun j => j.phase ≠ .removed ∧ j.job.id = new.job.id then jobs else jobs ++ [new]

/-- The failed handler: a job without an attempt left is moved, unless the move fails. -/
def moveToDlq (dlq : List (ℕ × Job)) (j j' : ActionJob) (reason : String) (now : ℕ)
    (moved : Bool) : List (ℕ × Job) :=
  let entry := platformEntry .crypto j'.job reason now
  if j.job.attemptsMade < j'.job.attemptsMade ∧ j'.attempts ≤ j'.job.attemptsMade ∧ moved ∧
      ¬ (dlq.any fun e => e.2.id = entry.id) then
    (j'.request, entry) :: dlq
  else dlq

inductive ActionEvent where
  | enqueue (botId type : String) (payload : Value) (now : ℕ) (random : String)
  | elect (worker : ℕ)
  | depose (worker : ℕ)
  | job (i : ℕ) (event : JobEvent) (reason : String) (now : ℕ) (moved : Bool)
  /-- an operator replays an entry of the dead-letter queue -/
  | replay (k now : ℕ) (removed : Bool)

def World.step (s : World) : ActionEvent → Option World
  | .enqueue botId type payload now random =>
    some { s with
      jobs := addJob s.jobs (waitingJob (enqueueAction botId type payload now random) s.requests)
      requests := s.requests + 1 }
  | .elect worker => some { s with leaders := worker :: s.leaders }
  | .depose worker => some { s with leaders := s.leaders.filter (· ≠ worker) }
  | .job i event reason now moved =>
    match s.jobs[i]? with
    | none => none
    | some j => (j.step s.leaders event).map fun j' =>
      { s with jobs := s.jobs.set i j', dlq := moveToDlq s.dlq j j' reason now moved }
  | .replay k now removed =>
    match s.dlq[k]? with
    | none => none
    | some (request, entry) =>
      some { s with
        jobs := addJob s.jobs (waitingJob (replayedJob "crypto" entry.id entry.data now) request)
        dlq := if removed then s.dlq.eraseIdx k else s.dlq
        replays := request :: s.replays }

/-- The orders of a request that the exchange accepted. -/
def World.accepted (s : World) (request : ℕ) : ℕ :=
  (s.jobs.map fun j => if j.request = request then j.accepted else 0).sum

/-- Each request leads to one order at most, and to one more for each of its replays. -/
def AtMostOncePerRequest (s : World) : Prop :=
  ∀ request, s.accepted request ≤ 1 + s.replays.count request

/-- An order is sent only by a job whose earlier orders were all rejected. -/
def SendsAfterRejections (s : World) : ActionEvent → Prop
  | .job i .send _ _ _ => ∀ j, s.jobs[i]? = some j → ∀ o ∈ j.orders, o = .rejected
  | _ => True

end Worlds

end BotHive.Queues
