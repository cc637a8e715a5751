import BotHive.Library.Json
import BotHive.Library.Machine
import BotHive.Library.Rpc
import BotHive.Library.Text

/-!
# Custom actions in threads

A custom action of a script runs in a thread of its own, which reaches the API of the host by
messages only. The host ends the thread when the action is done, when the thread fails or when the
time is up, and listens no more; calls that it works on go on. The number of threads that have not
exited is counted, and no thread is started at the limit.

## Main definitions

- `SandboxSession.step`: a call or the end of the action in the thread, a message that arrives, a
  call that returns, the timer, the end of the thread
- `SandboxPool.step`: an action that is run, or a step of one that is running

## Main results

- `sandboxCalls_everywhere`: each call is worked on at most once and gets its own answer
- `sandboxWorkers_everywhere`: the threads stay within the limit, and an action that has settled
  calls the host no more
-/

namespace BotHive.Scripts

section Answers

mutual

/-- A value as it is sent to a thread. -/
def toCloneable : Value → Value
  | .func _ => .undefined
  | .arr items => .arr (cloneItems items)
  | .obj fields => .obj (cloneFields fields)
  | .undefined => .undefined
  | .null => .null
  | .bool b => .bool b
  | .num q => .num q
  | .str s => .str s

def cloneItems : List Value → List Value
  | [] => []
  | v :: rest => toCloneable v :: cloneItems rest

/-- Assigning to `__proto__` makes no field. -/
def cloneFields : List (String × Value) → List (String × Value)
  | [] => []
  | (name, v) :: rest =>
    if name = "__proto__" then cloneFields rest else (name, toCloneable v) :: cloneFields rest

end

structure FetchResponse where
  ok : Bool
  status : ℕ
  statusText : String
  headers : List (String × String)
  /-- None when the body cannot be read. -/
  text : Option String

def maxResponseBodyBytes : ℕ := 1048576

def fetchResponseToPlain (res : FetchResponse) : Value :=
  .obj [("ok", .bool res.ok), ("status", .num res.status), ("statusText", .str res.statusText),
    ("headers", .fromEntries ((res.headers.filter fun e => e.1 ≠ "__proto__").map fun e =>
      (e.1, .str e.2))),
    ("text", .str (sliceUnits maxResponseBodyBytes (res.text.getD "")))]

/-- How a method of the API ends. -/
inductive ApiOutcome where
  | value (v : Value)
  | response (res : FetchResponse)
  | thrown (message : String)

/-- What the thread is told of the end of a call. -/
def postResult : ApiOutcome → Except String Value
  | .value v => .ok (toCloneable v)
  | .response res => .ok (toCloneable (fetchResponseToPlain res))
  | .thrown message => .error message

end Answers

section Sessions

structure ApiCall where
  method : String
  args : List Value

structure SandboxSession where
  methodNames : List String
  /-- The notices report the end of the action, with its error if there is one. -/
  rpc : Rpc ApiCall (Option String) ApiOutcome (Except String Value)
  /-- What the thread has reported, if it has. -/
  done : Option (Option String)
  /-- How the promise of the action has settled, if it has; until then the host listens. -/
  settled : Option (Except String Unit)
  exited : Bool

inductive SandboxAction where
  /-- The script calls a method of the API; arguments that cannot be sent make the call fail. -/
  | call (c : ApiCall) (cloneable : Bool)
  | done (error : Option String)
  /-- The next message from the thread arrives. -/
  | receive
  /-- A method that the host has called ends. -/
  | returned (id : ℕ) (outcome : ApiOutcome)
  /-- The next result arrives in the thread. -/
  | answer
  | timeout
  | error (message : String)
  | exit (code : ℤ)

def timedOut : String :=
  "Script action timed out (possible infinite loop)"

/-- How the action settles when the thread reports its end. -/
def reported : Option String → Except String Unit
  | none => .ok ()
  | some raw => .error (if includes raw "Script execution timed out" then timedOut else raw)

def exitMessage (code : ℤ) : String :=
  if code = 0 then "Script action exited unexpectedly"
  else "Script worker exited with code " ++ toString code

namespace SandboxSession

def start (methodNames : List String) : SandboxSession :=
  ⟨methodNames, .idle, none, none, false⟩

/-- Settle the promise, if it is pending. -/
def finish (s : SandboxSession) (result : Except String Unit) : SandboxSession :=
  if s.settled.isSome then s else { s with settled := some result }

/-- The end of a call; the API may have no such method. -/
def handleCall (s : SandboxSession) (c : ApiCall) (outcome : ApiOutcome) : ApiOutcome :=
  if c.method ∈ s.methodNames then outcome
  else .thrown ("Unknown script api method: " ++ c.method)

def step (s : SandboxSession) : SandboxAction → Option SandboxSession
  | .call c cloneable =>
    -- the script reaches the methods of the API and no others
    if s.exited || decide (c.method ∉ s.methodNames) then none
    else some { s with rpc := s.rpc.call c cloneable }
  | .done error =>
    if s.exited || s.done.isSome then none
    else some { s with done := some error, rpc := s.rpc.notify error }
  | .receive =>
    match s.rpc.toServer with
    | [] => none
    | .call id c :: rest =>
      if s.settled.isSome || c.method == "" then some { s with rpc := s.rpc.skip }
      else some { s with rpc := s.rpc.accept id c rest }
    | .notice error :: _ => some ({ s with rpc := s.rpc.skip }.finish (reported error))
  | .returned id outcome =>
    match s.rpc.running.find? (·.1 = id) with
    | none => none
    | some (_, c) =>
      -- a result for a thread that has exited is lost
      some { s with rpc := s.rpc.finish postResult id c (s.handleCall c outcome) (!s.exited) }
  | .answer =>
    if s.exited then none
    else
      match s.rpc.toClient with
      | [] => none
      | (id, a) :: rest => some { s with rpc := s.rpc.deliver id a rest }
  | .timeout => if s.settled.isSome then none else some (s.finish (.error timedOut))
  | .error message => if s.exited then none else some (s.finish (.error message))
  | .exit code =>
    if s.exited then none
    else some ({ s with exited := true }.finish (.error (exitMessage code)))

/-- What holds of an action in every state. -/
structure Sound (s : SandboxSession) : Prop where
  rpc : s.rpc.Sound postResult
  notices : ∀ error, .notice error ∈ s.rpc.toServer → s.done = some error
  resolved : s.settled = some (.ok ()) → s.done = some none

end SandboxSession

end Sessions

section Pool

def maxSandboxWorkers : ℕ := 10

structure SandboxPool where
  activeSandboxWorkers : ℕ
  sessions : List SandboxSession

inductive PoolAction where
  /-- A custom action is run, or skipped at the limit. -/
  | run (methodNames : List String)
  | session (i : ℕ) (a : SandboxAction)

namespace SandboxPool

def empty : SandboxPool :=
  ⟨0, []⟩

def step (p : SandboxPool) : PoolAction → Option SandboxPool
  | .run methodNames =>
    if maxSandboxWorkers ≤ p.activeSandboxWorkers then some p
    else some ⟨p.activeSandboxWorkers + 1, p.sessions ++ [.start methodNames]⟩
  | .session i a =>
    (p.sessions[i]?).bind fun s => (s.step a).map fun s' =>
      ⟨match a with
        | .exit _ => p.activeSandboxWorkers - 1
        | _ => p.activeSandboxWorkers,
        p.sessions.set i s'⟩

/-- The threads that have not exited. -/
def live (p : SandboxPool) : ℕ :=
  p.sessions.countP fun s => !s.exited

/-- What holds of the actions and of their number in every state. -/
structure Sound (p : SandboxPool) : Prop where
  sessions : ∀ s ∈ p.sessions, s.Sound
  counted : p.activeSandboxWorkers = p.live
  bounded : p.activeSandboxWorkers ≤ maxSandboxWorkers

/-- An action that has settled stays as it has settled and makes the host work on no other call. -/
def Keeps (p q : SandboxPool) : Prop :=
  ∀ (i : ℕ) (s : SandboxSession) result, p.sessions[i]? = some s → s.settled = some result →
    ∃ t, q.sessions[i]? = some t ∧ t.settled = some result ∧ t.rpc.started = s.rpc.started

end SandboxPool

end Pool

namespace SandboxSession

variable {s s' : SandboxSession} {a : SandboxAction} {result : Except String Unit}

section Finishing

theorem finish_of_settled (h : s.settled.isSome) : s.finish result = s :=
  if_pos h

theorem finish_of_pending (h : s.settled = none) :
    s.finish result = { s with settled := some result } := by
  rw [finish, if_neg (by rw [h]; exact Bool.false_ne_true)]

@[simp] theorem finish_rpc : (s.finish result).rpc = s.rpc := by
  rw [finish]
  split <;> rfl

@[simp] theorem finish_done : (s.finish result).done = s.done := by
  rw [finish]
  split <;> rfl

@[simp] theorem finish_exited : (s.finish result).exited = s.exited := by
  rw [finish]
  split <;> rfl

theorem finish_settled_cases (s : SandboxSession) (result : Except String Unit) :
    (s.finish result).settled = s.settled ∨
      s.settled = none ∧ (s.finish result).settled = some result := by
  cases h : s.settled with
  | none => exact .inr ⟨rfl, by rw [finish_of_pending h]⟩
  | some other =>
    left
    rw [finish_of_settled (by rw [h]; rfl), h]

theorem Sound.finish (h : s.Sound) (hresolved : result = .ok () → s.done = some none) :
    (s.finish result).Sound where
  rpc := by
    rw [finish_rpc]
    exact h.rpc
  notices := by
    rw [finish_rpc, finish_done]
    exact h.notices
  resolved := by
    rw [finish_done]
    intro hok
    rcases s.finish_settled_cases result with hsame | ⟨-, hnew⟩
    · exact h.resolved (hsame ▸ hok)
    · rw [hnew, Option.some.injEq] at hok
      exact hresolved hok

end Finishing

theorem Sound.start (methodNames : List String) : (start methodNames).Sound where
  rpc := Rpc.sound_idle postResult
  notices _ h := absurd h List.not_mem_nil
  resolved h := nomatch h

/-- What an action can do to the calls: nothing, or one of the steps of a sound exchange. -/
theorem Sound.step (h : s.Sound) (hstep : s.step a = some s') : s'.Sound := by
  cases a with
  | call c cloneable =>
    obtain ⟨-, rfl⟩ : _ ∧ _ := by simpa [SandboxSession.step] using hstep
    refine ⟨h.rpc.call c cloneable, fun error hmem => h.notices error ?_, h.resolved⟩
    cases cloneable with
    | false => exact hmem
    | true => simpa [Rpc.call] using hmem
  | done error =>
    obtain ⟨hopen, rfl⟩ : (s.exited = false ∧ s.done = none) ∧ _ := by
      simpa [SandboxSession.step] using hstep
    refine ⟨h.rpc.notify error, fun other hmem => ?_, fun hok => ?_⟩
    · rcases List.mem_append.mp hmem with hold | hnew
      · exact absurd (h.notices other hold) (by simp [hopen.2])
      · obtain ⟨rfl⟩ := Rpc.Message.notice.inj (List.mem_singleton.mp hnew)
        rfl
    · exact absurd (h.resolved hok) (by simp [hopen.2])
  | receive =>
    rw [SandboxSession.step] at hstep
    split at hstep
    next => cases hstep
    next id c rest hfront =>
      split at hstep
      all_goals
        obtain rfl := Option.some.inj hstep
      · refine ⟨h.rpc.skip, fun error hmem => h.notices error ?_, h.resolved⟩
        exact List.mem_of_mem_tail hmem
      · refine ⟨h.rpc.accept hfront, fun error hmem => h.notices error ?_, h.resolved⟩
        rw [hfront]
        exact List.mem_cons_of_mem _ hmem
    next error rest hfront =>
      obtain rfl := Option.some.inj hstep
      have hdone : s.done = some error := h.notices error (hfront ▸ List.mem_cons_self)
      have hskip : Sound { s with rpc := s.rpc.skip } :=
        ⟨h.rpc.skip, fun other hmem => h.notices other (List.mem_of_mem_tail hmem), h.resolved⟩
      refine hskip.finish fun hok => ?_
      cases error with
      | none => exact hdone
      | some raw => cases hok
  | returned id outcome =>
    rw [SandboxSession.step] at hstep
    split at hstep
    next => cases hstep
    next found c hfind =>
      obtain rfl := Option.some.inj hstep
      have hid : found = id := by simpa using List.find?_some hfind
      subst hid
      exact ⟨h.rpc.finish (List.mem_of_find?_eq_some hfind) _ _, h.notices, h.resolved⟩
  | answer =>
    rw [SandboxSession.step] at hstep
    split at hstep
    next => cases hstep
    next =>
      split at hstep
      next => cases hstep
      next id a rest hfront =>
        obtain rfl := Option.some.inj hstep
        refine ⟨h.rpc.deliver hfront, ?_, h.resolved⟩
        show ∀ error, _ ∈ (s.rpc.deliver id a rest).toServer → _
        rw [Rpc.deliver]
        split <;> exact h.notices
  | timeout =>
    obtain ⟨-, rfl⟩ : _ ∧ _ := by simpa [SandboxSession.step] using hstep
    exact h.finish fun hok => by cases hok
  | error message =>
    obtain ⟨-, rfl⟩ : _ ∧ _ := by simpa [SandboxSession.step] using hstep
    exact h.finish fun hok => by cases hok
  | exit code =>
    obtain ⟨-, rfl⟩ : _ ∧ _ := by simpa [SandboxSession.step] using hstep
    exact Sound.finish ⟨h.rpc, h.notices, h.resolved⟩ fun hok => by cases hok

/-- A step of an action that has settled: nobody listens to the thread. -/
theorem step_of_settled (hstep : s.step a = some s') (hsettled : s.settled = some result) :
    s'.settled = some result ∧ s'.rpc.started = s.rpc.started := by
  have hsome : s.settled.isSome := by
    rw [hsettled]
    rfl
  have hfinish : ∀ (t : SandboxSession) other, t.settled = s.settled →
      t.finish other = t := fun t other ht => finish_of_settled (ht ▸ hsome)
  cases a with
  | call c cloneable =>
    obtain ⟨-, rfl⟩ : _ ∧ _ := by simpa [SandboxSession.step] using hstep
    exact ⟨hsettled, rfl⟩
  | done error =>
    obtain ⟨-, rfl⟩ : _ ∧ _ := by simpa [SandboxSession.step] using hstep
    exact ⟨hsettled, rfl⟩
  | receive =>
    rw [SandboxSession.step] at hstep
    split at hstep
    next => cases hstep
    next =>
      rw [hsome, Bool.true_or, if_pos rfl] at hstep
      obtain rfl := Option.some.inj hstep
      exact ⟨hsettled, rfl⟩
    next =>
      obtain rfl := Option.some.inj hstep
      rw [hfinish { s with rpc := s.rpc.skip } _ rfl]
      exact ⟨hsettled, rfl⟩
  | returned id outcome =>
    rw [SandboxSession.step] at hstep
    split at hstep
    next => cases hstep
    next =>
      obtain rfl := Option.some.inj hstep
      exact ⟨hsettled, rfl⟩
  | answer =>
    rw [SandboxSession.step] at hstep
    split at hstep
    next => cases hstep
    next =>
      split at hstep
      next => cases hstep
      next id a rest _ =>
        obtain rfl := Option.some.inj hstep
        refine ⟨hsettled, ?_⟩
        show (s.rpc.deliver id a rest).started = _
        rw [Rpc.deliver]
        split <;> rfl
  | timeout =>
    rw [SandboxSession.step, if_pos hsome] at hstep
    cases hstep
  | error message =>
    obtain ⟨-, rfl⟩ : _ ∧ _ := by simpa [SandboxSession.step] using hstep
    rw [hfinish s _ rfl]
    exact ⟨hsettled, rfl⟩
  | exit code =>
    obtain ⟨-, rfl⟩ : _ ∧ _ := by simpa [SandboxSession.step] using hstep
    rw [hfinish { s with exited := true } _ rfl]
    exact ⟨hsettled, rfl⟩

/-- Only the end of the thread makes it exit, and it happens once. -/
theorem exited_of_step (hstep : s.step a = some s') :
    (∃ code, a = .exit code ∧ s.exited = false ∧ s'.exited = true) ∨
      (∀ code, a ≠ .exit code) ∧ s'.exited = s.exited := by
  cases a with
  | call | done =>
    obtain ⟨-, rfl⟩ : _ ∧ _ := by simpa [SandboxSession.step] using hstep
    exact .inr ⟨nofun, rfl⟩
  | receive =>
    rw [SandboxSession.step] at hstep
    split at hstep
    next => cases hstep
    next =>
      split at hstep
      all_goals
        obtain rfl := Option.some.inj hstep
        exact .inr ⟨nofun, rfl⟩
    next =>
      obtain rfl := Option.some.inj hstep
      exact .inr ⟨nofun, finish_exited⟩
  | returned =>
    rw [SandboxSession.step] at hstep
    split at hstep
    next => cases hstep
    next =>
      obtain rfl := Option.some.inj hstep
      exact .inr ⟨nofun, rfl⟩
  | answer =>
    rw [SandboxSession.step] at hstep
    split at hstep
    next => cases hstep
    next =>
      split at hstep
      next => cases hstep
      next =>
        obtain rfl := Option.some.inj hstep
        exact .inr ⟨nofun, rfl⟩
  | timeout | error =>
    obtain ⟨-, rfl⟩ : _ ∧ _ := by simpa [SandboxSession.step] using hstep
    exact .inr ⟨nofun, finish_exited⟩
  | exit code =>
    obtain ⟨hlive, rfl⟩ : s.exited = false ∧ _ := by simpa [SandboxSession.step] using hstep
    exact .inl ⟨code, rfl, hlive, finish_exited⟩

end SandboxSession

namespace SandboxPool

variable {p q : SandboxPool}

theorem Sound.run (h : p.Sound) (methodNames : List String)
    (hstep : p.step (.run methodNames) = some q) : q.Sound := by
  rw [SandboxPool.step] at hstep
  split at hstep
  next =>
    obtain rfl := Option.some.inj hstep
    exact h
  next hroom =>
    obtain rfl := Option.some.inj hstep
    refine ⟨?_, ?_, Nat.lt_of_not_le hroom⟩
    · intro s hs
      rcases List.mem_append.mp hs with hold | hnew
      · exact h.sessions s hold
      · obtain rfl := List.mem_singleton.mp hnew
        exact .start methodNames
    · show p.activeSandboxWorkers + 1 = List.countP _ _
      rw [List.countP_append, h.counted]
      rfl

/-- A step of one action, with the number of threads that it leaves. -/
theorem session_cases {i : ℕ} {a : SandboxAction} (hstep : p.step (.session i a) = some q) :
    ∃ (s s' : SandboxSession) (hi : i < p.sessions.length), p.sessions[i] = s ∧
      s.step a = some s' ∧ q.sessions = p.sessions.set i s' ∧
      ((s.exited = false ∧ s'.exited = true ∧
          q.activeSandboxWorkers = p.activeSandboxWorkers - 1) ∨
        s'.exited = s.exited ∧ q.activeSandboxWorkers = p.activeSandboxWorkers) := by
  obtain ⟨s, hs, hrest⟩ := Option.bind_eq_some_iff.mp hstep
  obtain ⟨s', hs', rfl⟩ := Option.map_eq_some_iff.mp hrest
  obtain ⟨hi, hget⟩ := List.getElem?_eq_some_iff.mp hs
  refine ⟨s, s', hi, hget, hs', rfl, ?_⟩
  rcases SandboxSession.exited_of_step hs' with ⟨code, rfl, hlive, hexited⟩ | ⟨hother, hsame⟩
  · exact .inl ⟨hlive, hexited, rfl⟩
  · refine .inr ⟨hsame, ?_⟩
    cases a with
    | exit code => exact absurd rfl (hother code)
    | _ => rfl

theorem Sound.session (h : p.Sound) {i : ℕ} {a : SandboxAction}
    (hstep : p.step (.session i a) = some q) : q.Sound := by
  obtain ⟨s, s', hi, hget, hs', hsessions, hcount⟩ := session_cases hstep
  have hmem : s ∈ p.sessions := hget ▸ List.getElem_mem hi
  have hlive : q.live = p.live - (if !s.exited then 1 else 0) + (if !s'.exited then 1 else 0) := by
    rw [live, hsessions, List.countP_set hi, hget]
    rfl
  have hpos : s.exited = false → 0 < p.live := fun hexited =>
    List.countP_pos_iff.mpr ⟨s, hmem, by rw [hexited]; rfl⟩
  refine ⟨?_, ?_, ?_⟩
  · intro t ht
    rw [hsessions] at ht
    rcases List.mem_or_eq_of_mem_set ht with hold | rfl
    · exact h.sessions t hold
    · exact (h.sessions s hmem).step hs'
  · rcases hcount with ⟨hs, hs', hq⟩ | ⟨hsame, hq⟩
    · rw [hq, hlive, h.counted, hs, hs']
      rfl
    · rw [hq, hlive, h.counted, hsame]
      cases hexited : s.exited with
      | false => exact (Nat.sub_add_cancel (hpos hexited)).symm
      | true => rfl
  · have hbound := h.bounded
    rcases hcount with ⟨-, -, hq⟩ | ⟨-, hq⟩ <;> omega

theorem Sound.step (h : p.Sound) {a : PoolAction} (hstep : p.step a = some q) : q.Sound :=
  match a with
  | .run methodNames => h.run methodNames hstep
  | .session _ _ => h.session hstep

theorem sound_empty : empty.Sound :=
  ⟨nofun, rfl, Nat.zero_le _⟩

section Settled

theorem Keeps.refl (p : SandboxPool) : p.Keeps p :=
  fun _ s _ hs hsettled => ⟨s, hs, hsettled, rfl⟩

theorem Keeps.trans {r : SandboxPool} (hpq : p.Keeps q) (hqr : q.Keeps r) : p.Keeps r := by
  intro i s result hs hsettled
  obtain ⟨t, ht, htsettled, htstarted⟩ := hpq i s result hs hsettled
  obtain ⟨u, hu, husettled, hustarted⟩ := hqr i t result ht htsettled
  exact ⟨u, hu, husettled, hustarted.trans htstarted⟩

theorem keeps_of_step {a : PoolAction} (hstep : p.step a = some q) : p.Keeps q := by
  intro i s result hs hsettled
  cases a with
  | run methodNames =>
    rw [SandboxPool.step] at hstep
    split at hstep
    all_goals
      obtain rfl := Option.some.inj hstep
    · exact ⟨s, hs, hsettled, rfl⟩
    · exact ⟨s, List.getElem?_append_left (List.getElem?_eq_some_iff.mp hs).1 ▸ hs, hsettled, rfl⟩
  | session j a =>
    obtain ⟨t, t', hj, hget, ht', hsessions, -⟩ := session_cases hstep
    rw [hsessions]
    rcases eq_or_ne j i with rfl | hne
    · obtain rfl : t = s := by
        rw [List.getElem?_eq_getElem hj, Option.some.injEq] at hs
        exact hget.symm.trans hs
      obtain ⟨hsettled', hstarted⟩ := SandboxSession.step_of_settled ht' hsettled
      exact ⟨t', List.getElem?_set_self hj, hsettled', hstarted⟩
    · rw [List.getElem?_set_ne hne]
      exact ⟨s, hs, hsettled, rfl⟩

theorem keeps_of_exec {as : List PoolAction} (hexec : Machine.exec step p as = some q) :
    p.Keeps q := by
  induction as generalizing p with
  | nil =>
    obtain rfl : p = q := Option.some.inj hexec
    exact .refl p
  | cons a rest ih =>
    obtain ⟨m, hstep, hrest⟩ := Option.bind_eq_some_iff.mp hexec
    exact (keeps_of_step hstep).trans (ih hrest)

end Settled

end SandboxPool

/-- In any order of the messages, the host works on the calls of a thread in their order and on
    each at most once, the thread gets for a call at most one answer, which is the one to this
    call, and an action succeeds only when its script has come to its end. -/
theorem sandboxCalls_everywhere (as : List PoolAction) :
    Machine.Everywhere SandboxPool.step
      (fun p => ∀ s ∈ p.sessions,
        s.rpc.Faithful postResult ∧ (s.settled = some (.ok ()) → s.done = some none))
      .empty as :=
  Machine.everywhere_of_invariant SandboxPool.Sound _
    (fun _ _ _ h _ hstep => h.step hstep)
    (fun _ h s hs => ⟨(h.sessions s hs).rpc.faithful, (h.sessions s hs).resolved⟩)
    SandboxPool.sound_empty (Machine.along_true _ as)

/-- The count is that of the threads that have not exited and stays within the limit, and an action
    that has settled stays settled and makes the host work on no other call. -/
theorem sandboxWorkers_everywhere (as : List PoolAction) :
    Machine.Everywhere SandboxPool.step
      (fun p => p.activeSandboxWorkers = p.live ∧ p.live ≤ maxSandboxWorkers ∧
        ∀ (later : List PoolAction) (q : SandboxPool),
          Machine.exec SandboxPool.step p later = some q → p.Keeps q)
      .empty as :=
  Machine.everywhere_of_invariant SandboxPool.Sound _
    (fun _ _ _ h _ hstep => h.step hstep)
    (fun _ h => ⟨h.counted, h.counted ▸ h.bounded, fun _ _ => SandboxPool.keeps_of_exec⟩)
    SandboxPool.sound_empty (Machine.along_true _ as)

end BotHive.Scripts
