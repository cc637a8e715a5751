import BotHive.Queues.ActionRuns
import Mathlib.Algebra.Order.BigOperators.Group.List
import Mathlib.Algebra.Order.Group.Nat

/-!
# How often a trade action is executed

Every job carries an allowance of orders. What the jobs of a request are allowed together grows
with the request and with each of its replays only, as events of a job change neither the
request that it goes back to nor its allowance.

The attempts of a job are such an allowance: one for a requested job and three for a replayed
one. The second and third attempt of a replay are the defect: they send new orders although an
earlier one may have reached the exchange. Where a job sends an order only after its earlier ones were
rejected, one order for each job is an allowance as well.

## Main results

- `accepted_le_attempts`: in every run a request leads to one order, and three for each replay
- `atMostOncePerRequest_of_sendsAfterRejections`: without orders after orders that were not
  rejected, it is one for each replay
-/

namespace BotHive.Queues

section Jobs

variable {leaders : List ℕ} {j j' : ActionJob} {e : JobEvent}

/-- What a job goes back to and how often it may be run never changes; of its orders an event
    sends a new one or settles a pending one. -/
theorem ActionJob.step_cases (h : j.step leaders e = some j') :
    j'.request = j.request ∧ j'.attempts = j.attempts ∧
      (j'.orders = j.orders ∨ (e = .send ∧ j'.orders = j.orders ++ [.pending]) ∨
        ∃ order status, j.orders[order]? = some .pending ∧
          j'.orders = j.orders.set order status) := by
  cases e with
  | check =>
    simp only [ActionJob.step] at h
    split at h
    · cases h
      split_ifs <;> exact ⟨rfl, rfl, .inl rfl⟩
    · cases h
  | send =>
    simp only [ActionJob.step] at h
    split_ifs at h
    cases h
    exact ⟨rfl, rfl, .inr (.inl ⟨rfl, rfl⟩)⟩
  | accept order =>
    simp only [ActionJob.step] at h
    split_ifs at h with hpending
    cases h
    exact ⟨rfl, rfl, .inr (.inr ⟨order, .accepted, hpending, rfl⟩)⟩
  | reject order =>
    simp only [ActionJob.step] at h
    split_ifs at h with hpending
    cases h
    exact ⟨rfl, rfl, .inr (.inr ⟨order, .rejected, hpending, rfl⟩)⟩
  | answer =>
    simp only [ActionJob.step] at h
    split_ifs at h
    split at h <;> cases h <;> exact ⟨rfl, rfl, .inl rfl⟩
  | _ =>
    simp only [ActionJob.step] at h
    split_ifs at h
    cases h
    exact ⟨rfl, rfl, .inl rfl⟩

/-- Attempts that were made, or are under way, bound the orders that were sent. -/
def ActionJob.WithinAttempts (j : ActionJob) : Prop :=
  match j.phase with
  | .waiting | .taken _ | .executing =>
    j.orders.length ≤ j.job.attemptsMade ∧ j.job.attemptsMade < j.attempts
  | .sent => j.orders.length ≤ j.job.attemptsMade + 1 ∧ j.job.attemptsMade < j.attempts
  | .completed | .failed | .removed => j.orders.length ≤ j.attempts

theorem ActionJob.WithinAttempts.length_le (h : j.WithinAttempts) :
    j.orders.length ≤ j.attempts := by
  unfold WithinAttempts at h
  split at h <;> omega

theorem ActionJob.withinAttempts_throws (hlen : j.orders.length ≤ j.job.attemptsMade + 1)
    (hmade : j.job.attemptsMade < j.attempts) : j.throws.WithinAttempts := by
  by_cases hleft : j.job.attemptsMade + 1 < j.attempts
  · have hphase : j.throws.phase = .waiting := if_pos hleft
    rw [WithinAttempts, hphase]
    exact ⟨hlen, hleft⟩
  · have hphase : j.throws.phase = .failed := if_neg hleft
    rw [WithinAttempts, hphase]
    show j.orders.length ≤ j.attempts
    omega

/-- Another status of an order changes no count of orders. -/
theorem ActionJob.withinAttempts_set (h : j.WithinAttempts) (order : ℕ) (status : OrderStatus) :
    ({ j with orders := j.orders.set order status } : ActionJob).WithinAttempts := by
  simp only [WithinAttempts, List.length_set]
  exact h

theorem ActionJob.WithinAttempts.step (hj : j.WithinAttempts) (h : j.step leaders e = some j') :
    j'.WithinAttempts := by
  cases e with
  | take worker =>
    simp only [ActionJob.step] at h
    split_ifs at h with hphase
    cases h
    simp only [WithinAttempts, hphase] at hj ⊢
    exact hj
  | check =>
    simp only [ActionJob.step] at h
    split at h
    · rename_i hphase
      cases h
      simp only [WithinAttempts, hphase] at hj
      split_ifs
      · exact hj
      · exact withinAttempts_throws (by omega) hj.2
    · cases h
  | refuse =>
    simp only [ActionJob.step] at h
    split_ifs at h with hphase
    cases h
    simp only [WithinAttempts, hphase] at hj
    exact withinAttempts_throws (by omega) hj.2
  | finish =>
    simp only [ActionJob.step] at h
    split_ifs at h with hphase
    cases h
    simp only [WithinAttempts, hphase] at hj
    show j.orders.length ≤ j.attempts
    omega
  | send =>
    simp only [ActionJob.step] at h
    split_ifs at h with hphase
    cases h
    simp only [WithinAttempts, hphase.1] at hj
    refine ⟨?_, hj.2⟩
    rw [List.length_append, List.length_singleton]
    exact Nat.succ_le_succ hj.1
  | accept order =>
    simp only [ActionJob.step] at h
    split_ifs at h
    cases h
    exact withinAttempts_set hj order .accepted
  | reject order =>
    simp only [ActionJob.step] at h
    split_ifs at h
    cases h
    exact withinAttempts_set hj order .rejected
  | answer =>
    simp only [ActionJob.step] at h
    split_ifs at h with hphase
    simp only [WithinAttempts, hphase] at hj
    split at h
    · cases h
      show j.orders.length ≤ j.attempts
      omega
    · cases h
      exact withinAttempts_throws hj.1 hj.2
    · cases h
  | lose =>
    simp only [ActionJob.step] at h
    split_ifs at h with hphase
    cases h
    simp only [WithinAttempts, hphase] at hj
    exact withinAttempts_throws hj.1 hj.2
  | forget =>
    simp only [ActionJob.step] at h
    split_ifs at h with hphase
    cases h
    exact hj.length_le

/-- An order that the exchange has not rejected. -/
def OrderStatus.stands : OrderStatus → Bool
  | .rejected => false
  | .pending | .accepted => true

/-- One order at most is pending or accepted. -/
def ActionJob.OneOrder (j : ActionJob) : Prop :=
  j.orders.countP OrderStatus.stands ≤ 1

theorem ActionJob.OneOrder.accepted_le (h : j.OneOrder) : j.accepted ≤ 1 := by
  refine le_trans ?_ h
  rw [ActionJob.accepted, List.count]
  refine List.countP_mono_left fun o _ ho => ?_
  rw [beq_iff_eq.mp ho]
  rfl

theorem ActionJob.OneOrder.step (hj : j.OneOrder)
    (hsend : e = .send → ∀ o ∈ j.orders, o = .rejected) (h : j.step leaders e = some j') :
    j'.OneOrder := by
  rw [OneOrder] at hj ⊢
  obtain ⟨-, -, hsame | ⟨rfl, hsent⟩ | ⟨order, status, hpending, hset⟩⟩ := step_cases h
  · rw [hsame]
    exact hj
  · have hnone : j.orders.countP OrderStatus.stands = 0 := by
      rw [List.countP_eq_zero]
      intro o ho
      rw [hsend rfl o ho]
      exact Bool.false_ne_true
    rw [hsent, List.countP_append, hnone]
    exact Nat.le_refl 1
  · -- the pending order stood, so whatever it becomes takes its place in the count
    obtain ⟨hlt, hget⟩ := List.getElem?_eq_some_iff.mp hpending
    have hpos : 0 < j.orders.countP OrderStatus.stands :=
      List.countP_pos_iff.mpr ⟨.pending, hget ▸ List.getElem_mem hlt, rfl⟩
    have hone : (if status.stands = true then 1 else 0) ≤ 1 := by split_ifs <;> omega
    rw [hset, List.countP_set hlt, hget, if_pos (show OrderStatus.pending.stands = true from rfl)]
    omega

end Jobs

section Worlds

/-- What the jobs of a request are allowed together. -/
def World.allowance (s : World) (allowed : ActionJob → ℕ) (request : ℕ) : ℕ :=
  (s.jobs.map fun j => if j.request = request then allowed j else 0).sum

/-- What a request and its replays account for, with `perReplay` for each replay. -/
def World.due (s : World) (perReplay request : ℕ) : ℕ :=
  (if request < s.requests then 1 else 0) + perReplay * s.replays.count request

/-- An allowance of orders: it does not change while a job is run, and it is one for a requested
    job and `perReplay` for a replayed one. -/
structure Allowance (allowed : ActionJob → ℕ) (perReplay : ℕ) : Prop where
  step : ∀ leaders j e j', ActionJob.step leaders j e = some j' → allowed j' = allowed j
  enqueued : ∀ botId type payload now random request,
    allowed (waitingJob (enqueueAction botId type payload now random) request) ≤ 1
  replayed : ∀ jobId data now request,
    allowed (waitingJob (replayedJob "crypto" jobId data now) request) ≤ perReplay

/-- The jobs satisfy `P`, and the jobs of each request are allowed what is due. -/
structure Accounted (P : ActionJob → Prop) (allowed : ActionJob → ℕ) (perReplay : ℕ)
    (s : World) : Prop where
  jobs : ∀ j ∈ s.jobs, P j
  due : ∀ request, s.allowance allowed request ≤ s.due perReplay request

variable {P : ActionJob → Prop} {allowed : ActionJob → ℕ} {perReplay : ℕ} {s s' : World}

theorem mem_addJob {jobs : List ActionJob} {new j : ActionJob} (h : j ∈ addJob jobs new) :
    j ∈ jobs ∨ j = new := by
  unfold addJob at h
  split_ifs at h
  · exact .inl h
  · exact (List.mem_append.mp h).imp_right List.mem_singleton.mp

theorem sum_addJob_le (jobs : List ActionJob) (new : ActionJob) (f : ActionJob → ℕ) :
    ((addJob jobs new).map f).sum ≤ (jobs.map f).sum + f new := by
  unfold addJob
  split_ifs
  · exact Nat.le_add_right _ _
  · rw [List.map_append, List.sum_append]
    exact Nat.le_refl _

/-- A job that keeps its request and its allowance does not change the sums. -/
theorem sum_set_eq {jobs : List ActionJob} {i : ℕ} {j j' : ActionJob} (hj : jobs[i]? = some j)
    {f : ActionJob → ℕ} (hf : f j' = f j) : ((jobs.set i j').map f).sum = (jobs.map f).sum := by
  obtain ⟨hlt, hget⟩ := List.getElem?_eq_some_iff.mp hj
  have hlt' : i < (jobs.map f).length := by rwa [List.length_map]
  have hsame : (jobs.map f).set i (f j') = jobs.map f := by
    have hmap : (jobs.map f)[i] = f j' := by rw [List.getElem_map, hget, hf]
    rw [← hmap, List.set_getElem_self]
  rw [List.map_set, hsame]

/-- A job is added with its allowance. -/
theorem Accounted.addJob (hs : Accounted P allowed perReplay s) {new : ActionJob}
    (hjobs : s'.jobs = addJob s.jobs new) (hP : P new)
    (hdue : ∀ request, s.due perReplay request +
      (if new.request = request then allowed new else 0) ≤ s'.due perReplay request) :
    Accounted P allowed perReplay s' := by
  refine ⟨fun j hj => ?_, fun request => ?_⟩
  · rw [hjobs] at hj
    rcases mem_addJob hj with hmem | rfl
    · exact hs.jobs j hmem
    · exact hP
  · have hle := sum_addJob_le s.jobs new fun j => if j.request = request then allowed j else 0
    have hold := Nat.add_le_add_right (hs.due request)
      (if new.request = request then allowed new else 0)
    rw [World.allowance, hjobs]
    exact hle.trans (hold.trans (hdue request))

/-- A job is run by one event. -/
theorem Accounted.runJob (hs : Accounted P allowed perReplay s) (ha : Allowance allowed perReplay)
    {i : ℕ} {j j' : ActionJob} {event : JobEvent} (hj : s.jobs[i]? = some j)
    (hstep : j.step s.leaders event = some j') (hP : P j') (dlq : List (ℕ × Job)) :
    Accounted P allowed perReplay { s with jobs := s.jobs.set i j', dlq := dlq } := by
  obtain ⟨hrequest, -, -⟩ := ActionJob.step_cases hstep
  have hallowed := ha.step s.leaders j event j' hstep
  refine ⟨fun k hk => ?_, fun request => ?_⟩
  · rcases List.mem_or_eq_of_mem_set hk with hmem | rfl
    · exact hs.jobs k hmem
    · exact hP
  · have hsum : ((s.jobs.set i j').map fun j => if j.request = request then allowed j else 0).sum =
        (s.jobs.map fun j => if j.request = request then allowed j else 0).sum :=
      sum_set_eq hj (by simp only [hrequest, hallowed])
    show ((s.jobs.set i j').map _).sum ≤ _
    rw [hsum]
    exact hs.due request

theorem Accounted.step (hs : Accounted P allowed perReplay s) (ha : Allowance allowed perReplay)
    (hnew : ∀ job request, job.attemptsMade = 0 → 0 < job.attempts.getD 1 →
      P (waitingJob job request)) {e : ActionEvent}
    (hP : ∀ i event reason now moved, e = .job i event reason now moved → ∀ j j',
      s.jobs[i]? = some j → P j → j.step s.leaders event = some j' → P j')
    (h : s.step e = some s') : Accounted P allowed perReplay s' := by
  cases e with
  | enqueue botId type payload now random =>
    cases h
    refine hs.addJob rfl (hnew _ _ rfl (Nat.lt_add_one 0)) fun request => ?_
    have hone := ha.enqueued botId type payload now random s.requests
    simp only [World.due]
    -- the request is new, so nothing was due for it
    by_cases hrequest : s.requests = request
    · rw [if_pos (show (waitingJob _ s.requests).request = request from hrequest),
        if_neg (by omega), if_pos (by omega)]
      omega
    · rw [if_neg (show ¬ (waitingJob _ s.requests).request = request from hrequest)]
      split_ifs <;> omega
  | elect worker =>
    cases h
    exact ⟨hs.jobs, hs.due⟩
  | depose worker =>
    cases h
    exact ⟨hs.jobs, hs.due⟩
  | job i event reason now moved =>
    simp only [World.step] at h
    cases hj : s.jobs[i]? with
    | none =>
      rw [hj] at h
      cases h
    | some j =>
      rw [hj] at h
      obtain ⟨j', hstep, rfl⟩ := Option.map_eq_some_iff.mp h
      have hkept : P j' := hP i event reason now moved rfl j j' hj
        (hs.jobs j (List.mem_of_getElem? hj)) hstep
      exact hs.runJob ha hj hstep hkept _
  | replay k now removed =>
    simp only [World.step] at h
    cases hk : s.dlq[k]? with
    | none =>
      rw [hk] at h
      cases h
    | some entry =>
      obtain ⟨origin, entry⟩ := entry
      rw [hk] at h
      cases h
      refine hs.addJob rfl (hnew _ _ rfl (Nat.succ_pos 2)) fun request => ?_
      have hper := ha.replayed entry.id entry.data now origin
      simp only [World.due]
      by_cases horigin : origin = request
      · subst horigin
        rw [if_pos (show (waitingJob _ origin).request = origin from rfl), List.count_cons_self,
          Nat.mul_add, Nat.mul_one]
        omega
      · rw [if_neg (show ¬ (waitingJob _ origin).request = request from horigin),
          List.count_cons_of_ne horigin]
        exact Nat.le_refl _

theorem accounted_empty : Accounted P allowed perReplay .empty :=
  ⟨fun _ hj => absurd hj List.not_mem_nil, fun _ => Nat.zero_le _⟩

/-- Jobs that have no more accepted orders than they are allowed account for all of them. -/
theorem Accounted.accepted_le (hs : Accounted P allowed perReplay s)
    (hP : ∀ j, P j → j.accepted ≤ allowed j) (request : ℕ) :
    s.accepted request ≤ 1 + perReplay * s.replays.count request := by
  have hsum : s.accepted request ≤ s.allowance allowed request := by
    refine List.sum_le_sum fun j hj => ?_
    split_ifs
    · exact hP j (hs.jobs j hj)
    · exact Nat.le_refl 0
  have hdue := hs.due request
  have hone : (if request < s.requests then 1 else 0) ≤ 1 := by
    split_ifs <;> omega
  simp only [World.due] at hdue
  omega

/-- The attempts of a job are an allowance. -/
theorem allowance_attempts : Allowance ActionJob.attempts 3 where
  step _ _ _ _ h := (ActionJob.step_cases h).2.1
  enqueued _ _ _ _ _ _ := Nat.le_refl 1
  replayed _ _ _ _ := Nat.le_refl 3

theorem allowance_one : Allowance (fun _ => 1) 1 where
  step _ _ _ _ _ := rfl
  enqueued _ _ _ _ _ _ := Nat.le_refl 1
  replayed _ _ _ _ := Nat.le_refl 1

/-- In every run a request leads to one order, and to three more for each of its replays. -/
theorem accepted_le_attempts (es : List ActionEvent) :
    Machine.Everywhere World.step
      (fun s => ∀ request, s.accepted request ≤ 1 + 3 * s.replays.count request) .empty es := by
  refine Machine.everywhere_of_invariant
    (Accounted ActionJob.WithinAttempts ActionJob.attempts 3) _ ?_ ?_ accounted_empty
    (Machine.along_true World.empty es)
  · intro s e s' hs _ h
    refine hs.step allowance_attempts (fun job request hmade hleft => ?_) ?_ h
    · exact ⟨Nat.zero_le _, hmade.symm ▸ hleft⟩
    · exact fun i event reason now moved _ j j' _ hj hstep => hj.step hstep
  · intro s hs request
    exact hs.accepted_le (fun j hj => List.count_le_length.trans hj.length_le) request

/-- **At most once**: in every run in which orders are sent only after rejections, each request
    leads to one order at most, and to one more for each of its replays. -/
theorem atMostOncePerRequest_of_sendsAfterRejections (es : List ActionEvent)
    (h : Machine.Along World.step SendsAfterRejections .empty es) :
    Machine.Everywhere World.step AtMostOncePerRequest .empty es := by
  refine Machine.everywhere_of_invariant (Accounted ActionJob.OneOrder (fun _ => 1) 1) _ ?_ ?_
    accounted_empty h
  · intro s e s' hs hsends hstep
    refine hs.step allowance_one (fun job request _ _ => Nat.zero_le 1) ?_ hstep
    rintro i event reason now moved rfl j j' hj hone hjob
    refine hone.step (fun hsend => ?_) hjob
    subst hsend
    exact hsends j hj
  · intro s hs request
    have hle := hs.accepted_le (fun j hj => hj.accepted_le) request
    rwa [Nat.one_mul] at hle

/-- An event of the first job of a run. -/
def first (event : JobEvent) : ActionEvent :=
  .job 0 event "Binance request timed out" 20 true

/-- A market order is requested and accepted by the exchange, and the answer is lost. -/
def lostAnswer : List ActionEvent :=
  [.elect 1, .enqueue "b" "marketBuy" (.obj [("symbol", .str "BTCUSDT")]) 10 "r4nd0m",
    first (.take 1), first .check, first .send, first (.accept 0), first .lose]

theorem atMostOncePerRequest_lostAnswer :
    Machine.Everywhere World.step AtMostOncePerRequest .empty lostAnswer := by
  refine atMostOncePerRequest_of_sendsAfterRejections lostAnswer ?_
  rintro _ ⟨⟩
  refine ⟨trivial, ?_⟩
  rintro _ ⟨⟩
  refine ⟨trivial, ?_⟩
  rintro _ ⟨⟩
  refine ⟨trivial, ?_⟩
  rintro _ ⟨⟩
  refine ⟨trivial, ?_⟩
  rintro _ ⟨⟩
  refine ⟨fun j hj => ?_, ?_⟩
  · cases hj
    exact fun o ho => absurd ho List.not_mem_nil
  rintro _ ⟨⟩
  refine ⟨trivial, ?_⟩
  rintro _ ⟨⟩
  exact ⟨trivial, trivial⟩

def second (event : JobEvent) : ActionEvent :=
  .job 1 event "Binance request timed out" 40 true

/-- The job is replayed once. The answer to the order of its first attempt is lost as well, and
    the second attempt sends another order. -/
def replayedOnce : List ActionEvent :=
  lostAnswer ++ [.replay 0 30 true, second (.take 1), second .check, second .send,
    second (.accept 0), second .lose, second (.take 1), second .check, second .send,
    second (.accept 1), second .answer]

/-- **The defect**: one request and one replay lead to three orders. -/
theorem not_atMostOncePerRequest_replayedOnce :
    ¬ Machine.Everywhere World.step AtMostOncePerRequest .empty replayedOnce := by
  intro h
  have hend : ((Machine.exec World.step .empty replayedOnce).map fun s =>
      (s.accepted 0, s.replays)) = some (3, [0]) := by decide
  obtain ⟨s, hexec, hs⟩ := Option.map_eq_some_iff.mp hend
  obtain ⟨haccepted, hreplays⟩ := Prod.mk.inj hs
  have hle := h.at_end hexec 0
  rw [haccepted, hreplays] at hle
  exact absurd hle (by decide)

end Worlds

end BotHive.Queues
