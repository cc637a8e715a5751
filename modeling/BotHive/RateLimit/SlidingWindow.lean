import BotHive.Library.Machine
import BotHive.RateLimit.RateLimiter

/-!
# The limiter in memory as a sliding window

Any calls of `check`, `getRemaining` and `waitIfNeeded` on any keys, while time passes. The
limiter forgets timestamps at different moments: a check drops those of its key, and once in a
while all keys are pruned. None of it shows: every answer is that of the window that ends at
the moment of the call, over all requests that ever passed.

## Main definitions

- `WindowRun`: a limiter, the requests that passed, and the calls that sleep
- `WindowRun.inWindow`: the requests of a key that passed within the window
- `SlidesExactly`: the answers are those of the window

## Main results

- `reflects_step`: at any later time the limiter remembers of a key what counts
- `slidesExactly_everywhere`: the answers are those of the window, in every run
-/

namespace BotHive.RateLimit

/-- A call of `waitIfNeeded` that sleeps. -/
structure Sleep where
  key : String
  since : ℕ
  wakesAt : ℕ

/-- A limiter and, for statements only, the times of the requests that passed of each key,
    latest first. -/
structure WindowRun where
  now : ℕ
  limiter : RateLimiter
  sleeps : List Sleep
  passed : String → List ℕ

inductive WindowAction where
  | check (key : String)
  | getRemaining (key : String)
  | waitIfNeeded (key : String)
  /-- The timer of a call that sleeps fires. -/
  | wake (i : ℕ)
  | wait (ms : ℕ)

namespace WindowRun

/-- A new limiter, at some time. -/
def start (maxRequests windowMs now : ℕ) : WindowRun where
  now := now
  limiter := .new maxRequests windowMs
  sleeps := []
  passed _ := []

def check (w : WindowRun) (key : String) : WindowRun :=
  let (allowed, limiter) := w.limiter.check w.now key
  { w with
    limiter := limiter
    passed := fun k => if allowed ∧ k = key then w.now :: w.passed k else w.passed k }

/-- The loop of `waitIfNeeded`: it ends when a slot is free, else it sleeps. -/
def loop (w : WindowRun) (key : String) : WindowRun :=
  let delay := w.limiter.waitDelay w.now key
  if delay = 0 then w
  else { w with sleeps := w.sleeps ++ [⟨key, w.now, w.now + delay⟩] }

/-- Timers are exact: no time passes beyond the moment at which one fires. -/
def step (w : WindowRun) : WindowAction → Option WindowRun
  | .check key => some (w.check key)
  | .getRemaining _ => some w
  | .waitIfNeeded key =>
    -- a limit or a window of 0 is refused with an error
    if w.limiter.maxRequests = 0 ∨ w.limiter.windowMs = 0 then some w else some (w.loop key)
  | .wake i =>
    match w.sleeps[i]? with
    | some sleep =>
      if sleep.wakesAt = w.now then some ({ w with sleeps := w.sleeps.eraseIdx i }.loop sleep.key)
      else none
    | none => none
  | .wait ms =>
    if ∀ sleep ∈ w.sleeps, w.now + ms ≤ sleep.wakesAt then some { w with now := w.now + ms }
    else none

/-- The requests of a key that passed after `now - windowMs`, and not after `now`. -/
def inWindow (w : WindowRun) (windowMs now : ℕ) (key : String) : List ℕ :=
  (w.passed key).filter fun t => (now : ℤ) - windowMs < t ∧ t ≤ now

/-- The answers at this moment are those of the window that ends now, whatever is pruned; and
    a sleep that ends now has seen a request leave the window. -/
structure SlidesExactly (maxRequests windowMs : ℕ) (w : WindowRun) : Prop where
  check_iff : ∀ key, (w.limiter.check w.now key).1 = true ↔
    (w.inWindow windowMs w.now key).length < maxRequests
  remaining_iff : ∀ key, 0 < w.limiter.getRemaining w.now key ↔
    (w.limiter.check w.now key).1 = true
  wakes : ∀ sleep ∈ w.sleeps, sleep.wakesAt = w.now →
    ∃ t ∈ w.inWindow windowMs sleep.since sleep.key, t ∉ w.inWindow windowMs w.now sleep.key
  pruned : ∀ key later, w.now ≤ later →
    ((w.limiter.pruneExpired w.now).check later key).1 = (w.limiter.check later key).1 ∧
      (w.limiter.pruneExpired w.now).getRemaining later key = w.limiter.getRemaining later key ∧
      (w.limiter.pruneExpired w.now).waitDelay later key = w.limiter.waitDelay later key

/-- At every later time the limiter counts of a key what has passed of it. A call that sleeps
    wakes up when a request that was in the window at its start leaves it. -/
structure Reflects (maxRequests windowMs : ℕ) (w : WindowRun) : Prop where
  maxRequests_eq : w.limiter.maxRequests = maxRequests
  windowMs_eq : w.limiter.windowMs = windowMs
  past : ∀ key, ∀ t ∈ w.passed key, t ≤ w.now
  alive : ∀ key later, w.now ≤ later →
    w.limiter.alive later (w.limiter.stored key) = w.limiter.alive later (w.passed key).reverse
  sleeping : ∀ sleep ∈ w.sleeps, ∃ t ∈ w.passed sleep.key,
    t ≤ sleep.since ∧ sleep.since < t + windowMs ∧ sleep.wakesAt = t + windowMs

variable {maxRequests windowMs : ℕ} {w w' : WindowRun} {key : String} {later : ℕ}

theorem mem_alive {l : RateLimiter} {now t : ℕ} {timestamps : List ℕ} :
    t ∈ l.alive now timestamps ↔ t ∈ timestamps ∧ now < t + l.windowMs := by
  rw [RateLimiter.alive, List.mem_filter, decide_eq_true_eq]
  refine and_congr_right fun _ => ?_
  omega

theorem mem_inWindow {now t : ℕ} :
    t ∈ w.inWindow windowMs now key ↔ t ∈ w.passed key ∧ now < t + windowMs ∧ t ≤ now := by
  rw [inWindow, List.mem_filter, decide_eq_true_eq]
  refine and_congr_right fun _ => ?_
  omega

namespace Reflects

/-- The requests that the limiter counts are those in the window. -/
theorem length_alive (h : Reflects maxRequests windowMs w) (key : String) :
    (w.limiter.alive w.now (w.limiter.stored key)).length =
      (w.inWindow windowMs w.now key).length := by
  rw [h.alive key w.now le_rfl, RateLimiter.alive, List.filter_reverse, List.length_reverse,
    inWindow, h.windowMs_eq]
  refine congrArg List.length (List.filter_congr fun t ht => ?_)
  simp [h.past key t ht]

/-- A call that finds no slot sleeps until the oldest request in the window leaves it. -/
theorem oldest (h : Reflects maxRequests windowMs w)
    (hdelay : w.limiter.waitDelay w.now key ≠ 0) :
    ∃ t ∈ w.passed key, t ≤ w.now ∧ w.now < t + windowMs ∧
      w.now + w.limiter.waitDelay w.now key = t + windowMs := by
  have hmem {t : ℕ} (ht : t ∈ (w.limiter.alive w.now (w.limiter.stored key)).head?) :
      t ∈ w.passed key ∧ w.now < t + windowMs := by
    have halive := List.mem_of_mem_head? ht
    rw [h.alive key w.now le_rfl, mem_alive, List.mem_reverse, h.windowMs_eq] at halive
    exact halive
  rw [RateLimiter.waitDelay] at hdelay ⊢
  split_ifs at hdelay ⊢ with hroom
  · exact absurd rfl hdelay
  · cases hhead : (w.limiter.alive w.now (w.limiter.stored key)).head? with
    | none =>
      rw [hhead] at hdelay
      exact absurd rfl hdelay
    | some t =>
      obtain ⟨hpassed, hin⟩ := hmem hhead
      have hpast := h.past key t hpassed
      refine ⟨t, hpassed, hpast, hin, ?_⟩
      rw [h.windowMs_eq]
      dsimp only
      omega

theorem check (h : Reflects maxRequests windowMs w) (key : String) :
    Reflects maxRequests windowMs (w.check key) where
  maxRequests_eq := (RateLimiter.maxRequests_check key).trans h.maxRequests_eq
  windowMs_eq := (RateLimiter.windowMs_check key).trans h.windowMs_eq
  past := by
    intro k t ht
    simp only [WindowRun.check] at ht ⊢
    split_ifs at ht
    · rcases List.mem_cons.mp ht with rfl | hold
      · exact le_rfl
      · exact h.past k t hold
    · exact h.past k t ht
  alive := by
    intro k later hlater
    simp only [WindowRun.check] at hlater ⊢
    rw [RateLimiter.alive_stored_check hlater, RateLimiter.alive_append,
      RateLimiter.alive_congr (RateLimiter.windowMs_check key), h.alive k later hlater]
    split_ifs
    · rw [List.reverse_cons, RateLimiter.alive_append]
    · rw [RateLimiter.alive_nil, List.append_nil]
  sleeping := by
    intro sleep hsleep
    obtain ⟨t, ht, hends⟩ := h.sleeping sleep hsleep
    refine ⟨t, ?_, hends⟩
    simp only [WindowRun.check]
    split_ifs
    · exact List.mem_cons_of_mem _ ht
    · exact ht

theorem loop (h : Reflects maxRequests windowMs w) (key : String) :
    Reflects maxRequests windowMs (w.loop key) := by
  rw [WindowRun.loop]
  by_cases hdelay : w.limiter.waitDelay w.now key = 0
  · rw [if_pos hdelay]
    exact h
  · rw [if_neg hdelay]
    refine { h with sleeping := fun sleep hsleep => ?_ }
    rcases List.mem_append.mp hsleep with hold | hnew
    · exact h.sleeping sleep hold
    · obtain rfl := List.mem_singleton.mp hnew
      exact h.oldest hdelay

end Reflects

/-- **Step**: every call keeps what the limiter remembers. -/
theorem reflects_step {a : WindowAction} (h : Reflects maxRequests windowMs w)
    (hstep : w.step a = some w') : Reflects maxRequests windowMs w' := by
  cases a with
  | check key =>
    cases hstep
    exact h.check key
  | getRemaining key =>
    cases hstep
    exact h
  | waitIfNeeded key =>
    rw [step] at hstep
    split_ifs at hstep <;> cases hstep
    · exact h
    · exact h.loop key
  | wake i =>
    rw [step] at hstep
    cases hsleep : w.sleeps[i]? with
    | none =>
      rw [hsleep] at hstep
      cases hstep
    | some sleep =>
      rw [hsleep] at hstep
      dsimp only at hstep
      split_ifs at hstep
      cases hstep
      have hothers : Reflects maxRequests windowMs { w with sleeps := w.sleeps.eraseIdx i } :=
        { h with sleeping := fun s hs => h.sleeping s (List.mem_of_mem_eraseIdx hs) }
      exact hothers.loop sleep.key
  | wait ms =>
    rw [step] at hstep
    split_ifs at hstep
    cases hstep
    exact { h with
      past := fun key t ht => (h.past key t ht).trans (Nat.le_add_right _ ms)
      alive := fun key later hlater => h.alive key later ((Nat.le_add_right _ ms).trans hlater) }

/-- Pruning changes no answer, now or later. -/
theorem answers_pruneExpired (l : RateLimiter) {now : ℕ} (hlater : now ≤ later) (key : String) :
    ((l.pruneExpired now).check later key).1 = (l.check later key).1 ∧
      (l.pruneExpired now).getRemaining later key = l.getRemaining later key ∧
      (l.pruneExpired now).waitDelay later key = l.waitDelay later key := by
  have halive : (l.pruneExpired now).alive later ((l.pruneExpired now).stored key) =
      l.alive later (l.stored key) := by
    rw [RateLimiter.stored_pruneExpired]
    exact RateLimiter.alive_alive hlater (l.stored key)
  refine ⟨?_, ?_, ?_⟩
  · rw [RateLimiter.check_eq, RateLimiter.check_eq, halive]
    rfl
  · rw [RateLimiter.getRemaining, RateLimiter.getRemaining, halive]
    rfl
  · rw [RateLimiter.waitDelay, RateLimiter.waitDelay, halive]
    rfl

/-- What the limiter remembers gives the answers of the window. -/
theorem slidesExactly_of_reflects (h : Reflects maxRequests windowMs w) :
    SlidesExactly maxRequests windowMs w where
  check_iff := by
    intro key
    rw [RateLimiter.check_eq, decide_eq_true_eq, h.length_alive, h.maxRequests_eq]
  remaining_iff := by
    intro key
    rw [RateLimiter.check_eq, decide_eq_true_eq, RateLimiter.getRemaining, Nat.sub_pos_iff_lt]
  wakes := by
    intro sleep hsleep hnow
    obtain ⟨t, hpassed, hsince, hin, hends⟩ := h.sleeping sleep hsleep
    refine ⟨t, mem_inWindow.mpr ⟨hpassed, hin, hsince⟩, fun hmem => ?_⟩
    have hlive := (mem_inWindow.mp hmem).2.1
    omega
  pruned := fun key _ hlater => answers_pruneExpired w.limiter hlater key

theorem reflects_start (maxRequests windowMs now : ℕ) :
    Reflects maxRequests windowMs (start maxRequests windowMs now) where
  maxRequests_eq := rfl
  windowMs_eq := rfl
  past := nofun
  alive _ _ _ := rfl
  sleeping := nofun

/-- **Sliding window**: in every run of calls on any keys the answers are those of the window
    that ends at the moment of the call. -/
theorem slidesExactly_everywhere (maxRequests windowMs now : ℕ) (as : List WindowAction) :
    Machine.Everywhere step (SlidesExactly maxRequests windowMs)
      (start maxRequests windowMs now) as :=
  Machine.everywhere_of_invariant (Reflects maxRequests windowMs) _
    (fun _ _ _ h _ hstep => reflects_step h hstep) (fun _ => slidesExactly_of_reflects)
    (reflects_start maxRequests windowMs now) (Machine.along_true _ as)

end WindowRun

end BotHive.RateLimit
