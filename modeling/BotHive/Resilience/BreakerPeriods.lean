import BotHive.Library.Trace
import BotHive.Resilience.CircuitBreaker

/-!
# What the circuit breaker lets through

The breaker as a state machine whose actions are the calls it receives, each with the
time that the clock shows. `Move` says once what a call can do; from it come the four
guarantees of a run: an open breaker rejects until its cooldown is over, a half-open
period lets at most `successThreshold` probes through and ends closed only after as
many successes, a closed breaker has seen fewer failures than trip it, and whatever
happened before, an attempt is allowed again after one cooldown.

## Main results

- `CircuitBreaker.move_perform`: what a call does
- `CircuitBreaker.guards_every_run`: the guarantees, for every run
-/

namespace BotHive.Resilience

open Machine (Event Trace)

inductive Method where
  | canAttempt
  | getState
  | recordSuccess
  | recordFailure
  | remainingCooldownMs
  deriving DecidableEq

structure Call where
  method : Method
  /-- What the clock shows during the call. -/
  now : ℤ

namespace CircuitBreaker

/-- Whether a call lets an attempt through, and the breaker after the call. -/
def perform (b : CircuitBreaker) (c : Call) : Bool × CircuitBreaker :=
  match c.method with
  | .canAttempt => b.canAttempt c.now
  | .getState => (false, (b.getState c.now).2)
  | .recordSuccess => (false, b.recordSuccess)
  | .recordFailure => (false, b.recordFailure c.now)
  | .remainingCooldownMs => (false, (b.remainingCooldownMs c.now).2)

/-- The breaker after a call. -/
def after (b : CircuitBreaker) (c : Call) : CircuitBreaker :=
  (b.perform c).2

def step : CircuitBreaker → Call → Option CircuitBreaker :=
  Machine.total after

/-- The breaker after its cooldown, with `probes` probes left. -/
def probing (b : CircuitBreaker) (probes : ℕ) : CircuitBreaker :=
  { b with state := .halfOpen, halfOpenSuccesses := 0, probesRemaining := probes }

-- ════════════════════════════════════════════════════════════════════════
-- What a call does
-- ════════════════════════════════════════════════════════════════════════

/-- What a call can do: the call, whether it lets an attempt through, and the breaker
    after it. -/
inductive Move (b : CircuitBreaker) : Call → Bool → CircuitBreaker → Prop
  | pass {now} (hclosed : b.state = .closed) : Move b ⟨.canAttempt, now⟩ true b
  | reject {c : Call} (hopen : b.state = .open)
      (hcooling : c.now - b.openedAt < b.options.resetTimeoutMs) : Move b c false b
  | ask {c : Call} (hopen : b.state ≠ .open)
      (hm : c.method = .getState ∨ c.method = .remainingCooldownMs) : Move b c false b
  | calm {now} (hclosed : b.state = .closed) :
      Move b ⟨.recordSuccess, now⟩ false { b with failures := 0 }
  | strike {now} (hclosed : b.state = .closed)
      (hfew : b.failures + 1 < b.options.failureThreshold) :
      Move b ⟨.recordFailure, now⟩ false { b with failures := b.failures + 1 }
  | trip {now} (hclosed : b.state = .closed)
      (hmany : b.options.failureThreshold ≤ b.failures + 1) :
      Move b ⟨.recordFailure, now⟩ false
        (CircuitBreaker.open { b with failures := b.failures + 1 } now)
  | late {c : Call} (hopen : b.state = .open)
      (hm : c.method = .recordSuccess ∨ c.method = .recordFailure) : Move b c false b
  | wake {c : Call} (hopen : b.state = .open)
      (hover : b.options.resetTimeoutMs ≤ c.now - b.openedAt)
      (hm : c.method = .getState ∨ c.method = .remainingCooldownMs) :
      Move b c false (b.probing b.options.successThreshold)
  | wakeProbe {now} (hopen : b.state = .open)
      (hover : b.options.resetTimeoutMs ≤ now - b.openedAt) :
      Move b ⟨.canAttempt, now⟩ true (b.probing (b.options.successThreshold - 1))
  | probe {now} (hhalf : b.state = .halfOpen) (hleft : 0 < b.probesRemaining) :
      Move b ⟨.canAttempt, now⟩ true { b with probesRemaining := b.probesRemaining - 1 }
  | exhausted {now} (hhalf : b.state = .halfOpen) (hnone : b.probesRemaining = 0) :
      Move b ⟨.canAttempt, now⟩ false (b.open now)
  | heal {now} (hhalf : b.state = .halfOpen)
      (hfew : b.halfOpenSuccesses + 1 < b.options.successThreshold) :
      Move b ⟨.recordSuccess, now⟩ false { b with halfOpenSuccesses := b.halfOpenSuccesses + 1 }
  | recover {now} (hhalf : b.state = .halfOpen)
      (hmany : b.options.successThreshold ≤ b.halfOpenSuccesses + 1) :
      Move b ⟨.recordSuccess, now⟩ false
        (close { b with halfOpenSuccesses := b.halfOpenSuccesses + 1 })
  | relapse {now} (hhalf : b.state = .halfOpen) : Move b ⟨.recordFailure, now⟩ false (b.open now)

variable {b : CircuitBreaker} {now : ℤ}

theorem tryHalfOpen_of_ne (h : b.state ≠ .open) : b.tryHalfOpen now = b :=
  if_pos h

theorem tryHalfOpen_of_cooling (h : now - b.openedAt < b.options.resetTimeoutMs) :
    b.tryHalfOpen now = b := by
  rw [tryHalfOpen, if_pos h, ite_self]

theorem tryHalfOpen_of_over (hopen : b.state = .open)
    (h : b.options.resetTimeoutMs ≤ now - b.openedAt) :
    b.tryHalfOpen now = b.probing b.options.successThreshold := by
  rw [tryHalfOpen, if_neg (not_not_intro hopen), if_neg (not_lt.mpr h), probing]

theorem move_canAttempt (hs : 1 ≤ b.options.successThreshold) :
    Move b ⟨.canAttempt, now⟩ (b.canAttempt now).1 (b.canAttempt now).2 := by
  by_cases hopen : b.state = .open
  · rcases lt_or_ge (now - b.openedAt) b.options.resetTimeoutMs with hcool | hover
    · have hstay : b.canAttempt now = (false, b) := by
        simp only [canAttempt, tryHalfOpen_of_cooling hcool, hopen]
      rw [hstay]
      exact .reject hopen hcool
    · have hprobes : b.options.successThreshold ≠ 0 := Nat.one_le_iff_ne_zero.mp hs
      have hwake : b.canAttempt now = (true, b.probing (b.options.successThreshold - 1)) := by
        simp only [canAttempt, tryHalfOpen_of_over hopen hover, probing, if_neg hprobes]
      rw [hwake]
      exact .wakeProbe hopen hover
  · unfold canAttempt
    rw [tryHalfOpen_of_ne hopen]
    dsimp only
    split
    · exact absurd ‹_› hopen
    · split
      · exact .exhausted ‹_› ‹_›
      · exact .probe ‹_› (Nat.pos_of_ne_zero ‹_›)
    · exact .pass ‹_›

theorem move_tryHalfOpen {c : Call}
    (hm : c.method = .getState ∨ c.method = .remainingCooldownMs) :
    Move b c false (b.tryHalfOpen c.now) := by
  by_cases hopen : b.state = .open
  · rcases lt_or_ge (c.now - b.openedAt) b.options.resetTimeoutMs with hcool | hover
    · rw [tryHalfOpen_of_cooling hcool]
      exact .reject hopen hcool
    · rw [tryHalfOpen_of_over hopen hover]
      exact .wake hopen hover hm
  · rw [tryHalfOpen_of_ne hopen]
    exact .ask hopen hm

theorem move_recordSuccess : Move b ⟨.recordSuccess, now⟩ false b.recordSuccess := by
  unfold recordSuccess
  split
  · exact .late ‹_› (.inl rfl)
  · dsimp only
    split
    · exact .recover ‹_› ‹_›
    · exact .heal ‹_› (not_le.mp ‹_›)
  · exact .calm ‹_›

theorem move_recordFailure : Move b ⟨.recordFailure, now⟩ false (b.recordFailure now) := by
  unfold recordFailure
  split
  · exact .relapse ‹_›
  · exact .late ‹_› (.inr rfl)
  · dsimp only
    split
    · exact .trip ‹_› ‹_›
    · exact .strike ‹_› (not_le.mp ‹_›)

/-- A call does one of the moves. -/
theorem move_perform (hs : 1 ≤ b.options.successThreshold) (c : Call) :
    Move b c (b.perform c).1 (b.perform c).2 := by
  obtain ⟨method, now⟩ := c
  cases method with
  | canAttempt => exact move_canAttempt hs
  | getState => exact move_tryHalfOpen (.inl rfl)
  | recordSuccess => exact move_recordSuccess
  | recordFailure => exact move_recordFailure
  | remainingCooldownMs => exact move_tryHalfOpen (.inr rfl)

-- ════════════════════════════════════════════════════════════════════════
-- What holds in every run
-- ════════════════════════════════════════════════════════════════════════

/-- The breaker as it is constructed. -/
def start (o : CircuitBreakerOptions) : CircuitBreaker :=
  { options := o }

/-- Whether the call of an event lets an attempt through. -/
def allows (e : Event CircuitBreaker Call) : Bool :=
  (e.before.perform e.action).1

def isSuccess (e : Event CircuitBreaker Call) : Bool :=
  e.action.method = .recordSuccess

def isFailure (e : Event CircuitBreaker Call) : Bool :=
  e.action.method = .recordFailure

/-- After the breaker opens, no attempt is allowed until the cooldown is over. -/
def RejectsWhileOpen (o : CircuitBreakerOptions) (es : List (Event CircuitBreaker Call)) : Prop :=
  ∀ pre e mid c post, es = pre ++ e :: (mid ++ c :: post) →
    e.before.state ≠ .open → e.after.state = .open →
    c.action.method = .canAttempt → c.action.now < e.action.now + o.resetTimeoutMs →
    allows c = false

/-- The events from the one that makes an open breaker half-open on, as long as it stays so. -/
structure HalfOpenPeriod (es : List (Event CircuitBreaker Call)) : Prop where
  starts : es.head?.map (·.before.state) = some .open
  stays : ∀ e ∈ es, e.after.state = .halfOpen

/-- A half-open period lets at most `successThreshold` probes through. -/
def ProbesLimited (o : CircuitBreakerOptions) (es : List (Event CircuitBreaker Call)) : Prop :=
  ∀ pre period post, es = pre ++ (period ++ post) → HalfOpenPeriod period →
    period.countP allows ≤ o.successThreshold

/-- A half-open period that ends closed has seen `successThreshold` successes, the last of
    them as its end, and no failure. -/
def ClosesOnSuccesses (o : CircuitBreakerOptions) (es : List (Event CircuitBreaker Call)) : Prop :=
  ∀ pre period e post, es = pre ++ (period ++ e :: post) → HalfOpenPeriod period →
    e.after.state = .closed →
    o.successThreshold ≤ (period ++ [e]).countP isSuccess ∧
      ∀ c ∈ period ++ [e], isFailure c = false

/-- While the breaker stays closed and no success is recorded, fewer failures than
    `failureThreshold` are. -/
def FewFailures (o : CircuitBreakerOptions) (es : List (Event CircuitBreaker Call)) : Prop :=
  ∀ pre calls post, es = pre ++ (calls ++ post) →
    (∀ e ∈ calls, e.after.state = .closed ∧ isSuccess e = false) →
    calls.countP isFailure < o.failureThreshold

/-- One of two attempts that are a cooldown apart is allowed. -/
def NeverWedged (o : CircuitBreakerOptions) (es : List (Event CircuitBreaker Call))
    (b : CircuitBreaker) : Prop :=
  ∀ t t' : ℤ, (∀ e ∈ es, e.action.now ≤ t) → t ≤ t' → t + o.resetTimeoutMs ≤ t' →
    (b.canAttempt t).1 = true ∨ ((b.canAttempt t).2.canAttempt t').1 = true

section Runs

variable {o : CircuitBreakerOptions} {es : List (Event CircuitBreaker Call)} {b' : CircuitBreaker}
  {c : Call} {ok : Bool}

theorem Move.options (h : Move b c ok b') : b'.options = b.options := by
  cases h <;> rfl

theorem move_of_step (hs : 1 ≤ b.options.successThreshold) (h : step b c = some b') :
    Move b c (b.perform c).1 b' := by
  have hafter : (b.perform c).2 = b' := Option.some.inj h
  rw [← hafter]
  exact move_perform hs c

/-- Every event of a trace is a move of a breaker with the options of the first one. -/
theorem move_of_mem (hs : 1 ≤ o.successThreshold) (h : Trace step b es b') (hb : b.options = o)
    {e : Event CircuitBreaker Call} (he : e ∈ es) :
    Move e.before e.action (allows e) e.after ∧ e.before.options = o := by
  have hoptions : e.before.options = o := by
    refine h.invariant_before (fun b => b.options = o) ?_ hb he
    intro e' _ hstep hbefore
    rw [(move_of_step (hbefore ▸ hs) hstep).options, hbefore]
  exact ⟨move_of_step (hoptions ▸ hs) (h.step_of_mem he), hoptions⟩

-- ── An open breaker ──────────────────────────────────────────────────────

theorem Move.openedAt (h : Move b c ok b') (hne : b.state ≠ .open) (hopen : b'.state = .open) :
    b'.openedAt = c.now := by
  cases h <;> simp_all [CircuitBreaker.open, close]

/-- An open breaker in its cooldown stays as it is and allows nothing. -/
theorem Move.cooling (h : Move b c ok b') (hopen : b.state = .open)
    (hcool : c.now < b.openedAt + b.options.resetTimeoutMs) : b' = b ∧ ok = false := by
  have hcool' : ¬ b.options.resetTimeoutMs ≤ c.now - b.openedAt := by omega
  cases h <;> simp_all

theorem rejectsWhileOpen (hs : 1 ≤ o.successThreshold) (h : Trace step b es b')
    (hb : b.options = o) (hclock : (es.map (·.action.now)).Pairwise (· ≤ ·)) :
    RejectsWhileOpen o es := by
  rintro pre e mid c post rfl hne hopen - hcool
  have hmove := fun {x} => move_of_mem hs h hb (e := x)
  obtain ⟨he, hoptions⟩ := hmove (x := e) (by simp)
  have hopened : e.after.openedAt = e.action.now := he.openedAt hne hopen
  have hafter : e.after.options = o := by rw [he.options, hoptions]
  have hmid : ∀ x ∈ mid, x.action.now ≤ c.action.now := by
    intro x hx
    simp only [List.map_append, List.map_cons, List.pairwise_append, List.pairwise_cons] at hclock
    exact hclock.2.1.2.2.2 _ (List.mem_map_of_mem hx) _ List.mem_cons_self
  obtain ⟨_, _, hrest⟩ := h.split
  obtain ⟨m, hpiece, hc⟩ := hrest.tail.split
  -- up to `c` the breaker stays as it opened
  have hm : m = e.after := by
    refine hpiece.invariant (fun b => b = e.after) ?_ rfl
    intro x hx _ hbefore
    have hx' := (hmove (x := x) (by simp [hx])).1
    rw [hbefore] at hx'
    refine (hx'.cooling hopen ?_).1
    rw [hopened, hafter]
    exact (hmid x hx).trans_lt hcool
  have hc' := (hmove (x := c) (by simp)).1
  rw [hc.before_head, hm] at hc'
  refine (hc'.cooling hopen ?_).2
  rw [hopened, hafter]
  exact hcool

-- ── A half-open period ───────────────────────────────────────────────────

/-- How many probes may still be let through before the breaker opens or closes. -/
def probesLeft (b : CircuitBreaker) : ℤ :=
  match b.state with
  | .closed => 0
  | .open => b.options.successThreshold
  | .halfOpen => b.probesRemaining

/-- The successes of the half-open period that the breaker is in. -/
def probesPassed (b : CircuitBreaker) : ℤ :=
  match b.state with
  | .halfOpen => b.halfOpenSuccesses
  | _ => 0

theorem Move.probesLeft (h : Move b c ok b') (hs : 1 ≤ b.options.successThreshold)
    (hhalf : b'.state = .halfOpen) : b'.probesLeft + (if ok then 1 else 0) ≤ b.probesLeft := by
  cases h <;> simp_all [CircuitBreaker.probesLeft, probing, CircuitBreaker.open, close]

theorem Move.probesPassed (h : Move b c ok b') (hhalf : b'.state = .halfOpen) :
    b'.probesPassed ≤ b.probesPassed + (if c.method = .recordSuccess then 1 else 0) := by
  cases h with
  | ask _ hm | wake _ _ hm =>
    rcases hm with hm | hm <;> simp_all [CircuitBreaker.probesPassed, probing]
  | _ => simp_all [CircuitBreaker.probesPassed, probing, CircuitBreaker.open, close]

theorem Move.not_failure (h : Move b c ok b') (hhalf : b'.state = .halfOpen) :
    c.method ≠ .recordFailure := by
  cases h with
  | ask _ hm | wake _ _ hm => rcases hm with hm | hm <;> simp_all
  | _ => simp_all [CircuitBreaker.open, close]

/-- A half-open breaker closes on the success that makes up `successThreshold`. -/
theorem Move.recovered (h : Move b c ok b') (hhalf : b.state = .halfOpen)
    (hclosed : b'.state = .closed) :
    c.method = .recordSuccess ∧ (b.options.successThreshold : ℤ) ≤ b.probesPassed + 1 := by
  cases h <;> simp_all [CircuitBreaker.probesPassed, CircuitBreaker.open, close]
  omega

theorem probesLimited (hs : 1 ≤ o.successThreshold) (h : Trace step b es b')
    (hb : b.options = o) : ProbesLimited o es := by
  rintro pre period post rfl ⟨hstarts, hstays⟩
  have hmove := fun {x} => move_of_mem hs h hb (e := x)
  obtain ⟨_, _, hrest⟩ := h.split
  obtain ⟨m, hperiod, _⟩ := hrest.split
  cases period with
  | nil => cases hstarts
  | cons e period =>
    have hopen : e.before.state = .open := Option.some.inj hstarts
    have hcount := hperiod.count_le (fun b => -b.probesLeft) allows fun x hx => by
      obtain ⟨hx', hoptions⟩ := hmove (x := x) (by simp [or_assoc.symm, List.mem_cons.mp hx])
      have hle := hx'.probesLeft (hoptions ▸ hs) (hstays x hx)
      linarith
    have hleft : 0 ≤ m.probesLeft := by
      rw [CircuitBreaker.probesLeft]
      split <;> omega
    have hall : e.before.probesLeft = o.successThreshold := by
      rw [CircuitBreaker.probesLeft, hopen, (hmove (x := e) (by simp)).2]
    rw [← hperiod.before_head, hall] at hcount
    omega

/-- A half-open period starts without successes. -/
theorem HalfOpenPeriod.starts_none {m : CircuitBreaker} (hp : HalfOpenPeriod es)
    (h : Trace step b es m) : b.probesPassed = 0 := by
  cases es with
  | nil => cases hp.starts
  | cons x rest =>
    have hopen : x.before.state = .open := Option.some.inj hp.starts
    rw [← h.before_head, probesPassed, hopen]

theorem HalfOpenPeriod.ne_nil (hp : HalfOpenPeriod es) : es ≠ [] := by
  rintro rfl
  cases hp.starts

theorem closesOnSuccesses (hs : 1 ≤ o.successThreshold) (h : Trace step b es b')
    (hb : b.options = o) : ClosesOnSuccesses o es := by
  rintro pre period e post rfl hp hclosed
  have hmove := fun {x} => move_of_mem hs h hb (e := x)
  obtain ⟨_, _, hrest⟩ := h.split
  obtain ⟨m, hperiod, hpost⟩ := hrest.split
  have hbefore : e.before = m := hpost.before_head
  have hhalf : e.before.state = .halfOpen := by
    rw [hbefore]
    exact hperiod.end_of_forall (fun b => b.state = .halfOpen) hp.ne_nil hp.stays
  obtain ⟨he, hoptions⟩ := hmove (x := e) (by simp)
  obtain ⟨hsuccess, hpassed⟩ := he.recovered hhalf hclosed
  -- each success of the period has raised `halfOpenSuccesses` from 0
  have hcount := hperiod.le_count probesPassed isSuccess fun x hx => by
    have hle := (hmove (x := x) (by simp [hx])).1.probesPassed (hp.stays x hx)
    simpa [isSuccess] using hle
  have hnone : probesPassed _ = 0 := hp.starts_none hperiod
  constructor
  · rw [List.countP_append, List.countP_singleton]
    simp only [isSuccess, hsuccess, decide_true, if_true]
    rw [hoptions, hbefore] at hpassed
    omega
  · intro c hc
    rw [List.mem_append, List.mem_singleton] at hc
    rcases hc with hmem | rfl
    · have hne := (hmove (x := c) (by simp [hmem])).1.not_failure (hp.stays c hmem)
      simpa [isFailure] using hne
    · simp [isFailure, hsuccess]

-- ── A closed breaker ─────────────────────────────────────────────────────

theorem Move.failures_le (h : Move b c ok b') (hclosed : b'.state = .closed)
    (hsuccess : c.method ≠ .recordSuccess) :
    b.failures + (if c.method = .recordFailure then 1 else 0) ≤ b'.failures := by
  cases h with
  | ask _ hm => rcases hm with hm | hm <;> simp_all
  | _ => simp_all [CircuitBreaker.open, probing]

theorem Move.failures_lt (h : Move b c ok b') (hf : 1 ≤ b.options.failureThreshold)
    (hb : b.state = .closed → b.failures < b.options.failureThreshold)
    (hclosed : b'.state = .closed) : b'.failures < b.options.failureThreshold := by
  have hpos : 0 < b.options.failureThreshold := hf
  cases h <;> simp_all [CircuitBreaker.open, close, probing]

theorem fewFailures (hf : 1 ≤ o.failureThreshold) (hs : 1 ≤ o.successThreshold)
    (h : Trace step (start o) es b') : FewFailures o es := by
  rintro pre calls post rfl hcalls
  have hmove := fun {x} => move_of_mem hs h rfl (e := x)
  rw [← List.append_assoc] at h
  obtain ⟨m, hfront, _⟩ := h.split
  have hfew : m.options = o ∧ (m.state = .closed → m.failures < o.failureThreshold) := by
    refine hfront.invariant
      (fun b => b.options = o ∧ (b.state = .closed → b.failures < o.failureThreshold)) ?_ ?_
    · rintro e - hstep ⟨hoptions, hbefore⟩
      subst hoptions
      have hm := move_of_step hs hstep
      exact ⟨hm.options, hm.failures_lt hf hbefore⟩
    · exact ⟨rfl, fun _ => hf⟩
  obtain ⟨m', _, hpiece⟩ := hfront.split
  rcases eq_or_ne calls [] with rfl | hne
  · exact hf
  · have hclosed : m.state = .closed := 
      hpiece.end_of_forall (fun b => b.state = .closed) hne fun e he => (hcalls e he).1
    have hcount := hpiece.count_le (fun b => b.failures) isFailure fun e he => by
      obtain ⟨hafter, hsuccess⟩ := hcalls e he
      have hle := (hmove (x := e) (by simp [he])).1.failures_le hafter
        (by simpa [isSuccess] using hsuccess)
      simp only [isFailure, decide_eq_true_eq]
      exact_mod_cast hle
    have hlt := hfew.2 hclosed
    omega

-- ── Recovery ─────────────────────────────────────────────────────────────

/-- An open breaker whose cooldown is over lets an attempt through. -/
theorem canAttempt_of_over (hs : 1 ≤ b.options.successThreshold) (hopen : b.state = .open)
    (hover : b.options.resetTimeoutMs ≤ now - b.openedAt) : (b.canAttempt now).1 = true := by
  have hprobes : b.options.successThreshold ≠ 0 := Nat.one_le_iff_ne_zero.mp hs
  simp only [canAttempt, tryHalfOpen_of_over hopen hover, probing, if_neg hprobes]

theorem Move.openedAt_le {t : ℤ} (h : Move b c ok b') (hc : c.now ≤ t)
    (hb : b.state = .open → b.openedAt ≤ t) (hopen : b'.state = .open) : b'.openedAt ≤ t := by
  by_cases hbefore : b.state = .open
  · cases h <;> simp_all [probing]
  · rw [h.openedAt hbefore hopen]
    exact hc

theorem neverWedged (hs : 1 ≤ o.successThreshold) (h : Trace step (start o) es b') :
    NeverWedged o es b' := by
  intro t t' hlast htt' hreset
  have hend : b'.options = o ∧ (b'.state = .open → b'.openedAt ≤ t) := by
    refine h.invariant (fun b => b.options = o ∧ (b.state = .open → b.openedAt ≤ t)) ?_ ?_
    · rintro e he hstep ⟨hoptions, hbefore⟩
      have hm := move_of_step (hoptions ▸ hs) hstep
      exact ⟨hm.options.trans hoptions, hm.openedAt_le (hlast e he) hbefore⟩
    · exact ⟨rfl, fun hopen => by cases hopen⟩
  obtain ⟨hoptions, hopened⟩ := hend
  have hs' : 1 ≤ b'.options.successThreshold := hoptions ▸ hs
  have hfirst : Move b' ⟨.canAttempt, t⟩ _ _ := move_canAttempt hs'
  generalize b'.canAttempt t = answer at hfirst ⊢
  obtain ⟨ok, after⟩ := answer
  dsimp only at hfirst ⊢
  cases hfirst with
  | pass | wakeProbe | probe => exact .inl rfl
  | reject hopen =>
    have hover : b'.options.resetTimeoutMs ≤ t' - b'.openedAt := by
      rw [hoptions]
      linarith [hopened hopen]
    exact .inr (canAttempt_of_over hs' hopen hover)
  | exhausted =>
    have hover : b'.options.resetTimeoutMs ≤ t' - t := by
      rw [hoptions]
      linarith
    exact .inr (canAttempt_of_over (b := b'.open t) hs' rfl hover)
  | ask _ hm => rcases hm with hm | hm <;> cases hm
  | late _ hm => rcases hm with hm | hm <;> cases hm
  | wake _ _ hm => rcases hm with hm | hm <;> cases hm

/-- **Circuit breaker**: in every run of calls at times that do not decrease, an open
    breaker rejects for its cooldown, a half-open period lets at most `successThreshold`
    probes through and closes only on as many successes and no failure, a closed breaker has
    counted fewer than `failureThreshold` failures, and no reachable breaker is wedged. -/
theorem guards_every_run {o : CircuitBreakerOptions} (hf : 1 ≤ o.failureThreshold)
    (hs : 1 ≤ o.successThreshold) {es : List (Event CircuitBreaker Call)} {b : CircuitBreaker}
    (hrun : Trace step (start o) es b)
    (hclock : (es.map (·.action.now)).Pairwise (· ≤ ·)) :
    RejectsWhileOpen o es ∧ ProbesLimited o es ∧ ClosesOnSuccesses o es ∧ FewFailures o es ∧
      NeverWedged o es b :=
  ⟨rejectsWhileOpen hs hrun rfl hclock, probesLimited hs hrun rfl, closesOnSuccesses hs hrun rfl,
    fewFailures hf hs hrun, neverWedged hs hrun⟩

end Runs

/-- A breaker that trips on its first failure and closes on its first probe. -/
def eager : CircuitBreakerOptions :=
  { failureThreshold := 1, successThreshold := 1, resetTimeoutMs := 10 }

/-- A failure, an attempt within the cooldown, one after it, and its success. -/
def recovery : List Call :=
  [⟨.recordFailure, 0⟩, ⟨.canAttempt, 5⟩, ⟨.canAttempt, 10⟩, ⟨.recordSuccess, 11⟩]

theorem guards_recovery :
    let es := Machine.events after (start eager) recovery
    es.map allows = [false, false, true, false] ∧ RejectsWhileOpen eager es ∧
      ProbesLimited eager es ∧ ClosesOnSuccesses eager es ∧ FewFailures eager es ∧
      NeverWedged eager es (recovery.foldl after (start eager)) :=
  ⟨by decide, guards_every_run le_rfl le_rfl (Machine.trace_events after (start eager) recovery)
    (by decide)⟩

end CircuitBreaker

end BotHive.Resilience
