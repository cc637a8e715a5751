import BotHive.Library.Machine
import BotHive.Library.Text
import BotHive.Workers.Connect
import BotHive.Workers.SelfHealing

/-!
# The send path of a bot

Queue jobs and scripts send through `executeRateLimited`. A call passes its gates (the
self-healing pause and the warming limits), and then waits for a cool-down, for the
outbound limiter, for a human-like delay and for the provider before it is counted. The
model is the part of a worker that belongs to one bot; a call gives way at every `await`.
The answers of the limiter and of the provider and the lengths of the waits come from
outside.

## Main definitions

- `SendEntry`: the part of `BotEntry` that the send path reads and writes
- `SendTask`: where a call waits
- `SendState.step`: the calls, the self-healing sweep, and what they wait for
-/

namespace BotHive.Workers

/-- Read-like actions, which are neither throttled nor gated. -/
def outboundExemptActions : List String :=
  ["deleteMessage", "listComments"]

/-- The actions that count as posts while an account warms up. -/
def postActions : List String :=
  ["sendMessage", "sendPhoto", "tweet", "post"]

def isPost (type : String) : Bool :=
  postActions.contains type

def isExempt (type : String) : Bool :=
  outboundExemptActions.contains type

structure Warming where
  state : WarmingState
  config : WarmingConfig

/-- The part of `BotEntry` that the send path reads and writes. -/
structure SendEntry where
  status : BotStatus := .connecting
  actionsSuccess : ℕ := 0
  actionsFailed : ℕ := 0
  rateLimited : ℕ := 0
  silentDrops : ℕ := 0
  lastSuccessAt : ℕ := 0
  warming : Option Warming := none
  selfHealingPauseUntil : ℕ := 0
  selfHealingCooldownUntil : ℕ := 0

inductive SendTask where
  | idle
  /-- A call waits out a cool-down. -/
  | cooling (type : String)
  /-- A call waits for the outbound limiter. -/
  | charging (type : String)
  /-- A call waits for its human-like delay. -/
  | delaying (type : String)
  /-- A call is inside the `executeAction` of the platform. -/
  | executing (type : String)
  deriving DecidableEq

/-- An action that completed successfully. -/
structure Completion where
  time : ℕ
  type : String

/-- The bot as its calls see it. For statements only, `completed` lists the actions that
    completed, latest first, and `pausedUntil` is the end of the first pause that was imposed
    since an action was last attempted. -/
structure SendState where
  now : ℕ
  entry : SendEntry
  tasks : ℕ → SendTask
  completed : List Completion
  pausedUntil : Option ℕ

namespace SendState

/-- A bot without calls. -/
def start (entry : SendEntry) : SendState :=
  ⟨0, entry, fun _ => .idle, [], none⟩

def goto (s : SendState) (c : ℕ) (task : SendTask) : SendState :=
  { s with tasks := Function.update s.tasks c task }

def setEntry (s : SendState) (entry : SendEntry) : SendState :=
  { s with entry := entry }

end SendState

/-- The warming gate starts the counters anew on a new day. -/
def WarmingState.rollOver (state : WarmingState) (now : ℕ) : WarmingState :=
  if state.lastActionDate ≠ isoDay now then
    { state with todayActions := 0, todayPosts := 0, lastActionDate := isoDay now }
  else state

/-- The entry after the warming gate, and whether the gate lets the action pass. -/
def SendEntry.warmingGate (entry : SendEntry) (now : ℕ) (type : String) :
    Except String Unit × SendEntry :=
  match entry.warming with
  | none => (.ok (), entry)
  | some ⟨state, config⟩ =>
    if isExempt type then (.ok (), entry)
    else
      let state := state.rollOver now
      let limits := warmingLimits state config now
      let allowed := if isPost type then limits.canPost else limits.canAct
      (if allowed then .ok () else .error s!"Bot warming active: {limits.reason}",
        { entry with warming := some ⟨state, config⟩ })

/-- What a call checks before it first gives way. -/
def SendEntry.gate (entry : SendEntry) (now : ℕ) (type : String) :
    Except String Unit × SendEntry :=
  if now < entry.selfHealingPauseUntil then
    let minutes := roundHalfUp (((entry.selfHealingPauseUntil - now : ℕ) : ℚ) / 60000)
    (.error s!"Bot paused by self-healing ({minutes}min remaining)", entry)
  else entry.warmingGate now type

/-- A completed action is counted. -/
def SendEntry.succeed (entry : SendEntry) (now : ℕ) (type : String) : SendEntry :=
  { entry with
    actionsSuccess := entry.actionsSuccess + 1
    lastSuccessAt := now
    warming := entry.warming.map fun ⟨state, config⟩ =>
      ⟨{ state with
          todayActions := state.todayActions + 1
          todayPosts := if isPost type then state.todayPosts + 1 else state.todayPosts
          lastActionDate := isoDay now }, config⟩ }

/-- The texts that a provider's error for too many requests contains, in any letter case:
    `rate limit` with at most one character between the words, `429`, or `throttl`. -/
def isRateLimitMessage (message : String) : Bool :=
  let text := (message.toList.map Char.toLower)
  let «at» (part : List Char) (rest : List Char) := part.isPrefixOf rest
  text.tails.any fun rest =>
    «at» "429".toList rest || «at» "throttl".toList rest || «at» "ratelimit".toList rest ||
      («at» "rate".toList rest && rest[4]?.any (· ≠ '\n') && «at» "limit".toList (rest.drop 5))

def SendEntry.fail (entry : SendEntry) (message : String) : SendEntry :=
  { entry with
    actionsFailed := entry.actionsFailed + 1
    rateLimited :=
      if isRateLimitMessage message then entry.rateLimited + 1 else entry.rateLimited }

/-- What `runSelfHealingCheck` finds and plans. -/
def SendEntry.selfHealingPlan (entry : SendEntry) (now : ℕ) : List RotationAction :=
  let attempted := entry.actionsSuccess + entry.actionsFailed
  if attempted < 5 then []
  else
    let detection := detectAnomaly
      { attempted := attempted
        succeeded := entry.actionsSuccess
        rateLimited := entry.rateLimited
        silentDrops := entry.silentDrops
        lastSuccessAt := if entry.lastSuccessAt = 0 then now else entry.lastSuccessAt } now
    if detection.flagged then planRotation detection else []

namespace SendState

/-- One rotation action. The proxy that it reports and the logs and webhooks that it writes
    are not part of this state. -/
def executeRotationAction (s : SendState) : RotationAction → SendState
  | .pause durationMs _ =>
    { s with
      entry := { s.entry with selfHealingPauseUntil := s.now + durationMs }
      pausedUntil := some (s.pausedUntil.getD (s.now + durationMs)) }
  | .coolDown durationMs _ =>
    { s with entry := { s.entry with selfHealingCooldownUntil := s.now + durationMs } }
  | .changeProxy | .alert _ => s

/-- `runSelfHealingCheck`. The log lines that it awaits are written before the event loop
    turns, so that no call runs meanwhile; the clock may go on by `elapsed`. -/
def runSelfHealingCheck (s : SendState) (elapsed : ℕ) : SendState :=
  let plan := s.entry.selfHealingPlan s.now
  plan.foldl executeRotationAction { s with now := s.now + elapsed }

end SendState

inductive SendAction where
  /-- `executeRateLimited` is called. -/
  | call (c : ℕ) (type : String)
  /-- The cool-down of a call is over. -/
  | cooled (c : ℕ)
  /-- The outbound limiter answers a call. -/
  | charged (c : ℕ) (allowed : Bool)
  /-- The human-like delay of a call is over, and the action is attempted. -/
  | delayed (c : ℕ)
  | succeeds (c : ℕ)
  | throws (c : ℕ) (message : String) (elapsed : ℕ)
  | sweep (elapsed : ℕ)
  /-- The connection of the bot changes its status. -/
  | setStatus (status : BotStatus)
  | tick (ms : ℕ)

/-- One turn of the event loop. -/
def SendState.step (s : SendState) : SendAction → Option SendState
  | .call c type =>
    match s.tasks c with
    | .idle =>
      match s.entry.gate s.now type with
      | (.error _, entry) => some (s.setEntry entry)
      | (.ok _, entry) =>
        if s.now < entry.selfHealingCooldownUntil then
          some ((s.setEntry entry).goto c (.cooling type))
        else some ((s.setEntry entry).goto c (.charging type))
    | _ => none
  | .cooled c =>
    match s.tasks c with
    | .cooling type => some (s.goto c (.charging type))
    | _ => none
  | .charged c allowed =>
    match s.tasks c with
    | .charging type => some (s.goto c (if allowed then .delaying type else .idle))
    | _ => none
  | .delayed c =>
    match s.tasks c with
    | .delaying type => some { s.goto c (.executing type) with pausedUntil := none }
    | _ => none
  | .succeeds c =>
    match s.tasks c with
    | .executing type =>
      some { (s.setEntry (s.entry.succeed s.now type)).goto c .idle with
        completed := ⟨s.now, type⟩ :: s.completed }
    | _ => none
  | .throws c message elapsed =>
    match s.tasks c with
    | .executing _ =>
      some (((s.setEntry (s.entry.fail message)).goto c .idle).runSelfHealingCheck elapsed)
    | _ => none
  | .sweep elapsed =>
    if s.entry.status = .running then some (s.runSelfHealingCheck elapsed)
    else some { s with now := s.now + elapsed }
  | .setStatus status => some (s.setEntry { s.entry with status := status })
  | .tick ms => some { s with now := s.now + ms }

namespace SendState

variable {s t : SendState}

/-- All that a turn can do. -/
inductive Turn (s : SendState) : SendAction → SendState → Prop
  | refused {c type message} (htask : s.tasks c = .idle)
      (hgate : (s.entry.gate s.now type).1 = .error message) :
      Turn s (.call c type) (s.setEntry (s.entry.gate s.now type).2)
  | passed {c type task} (htask : s.tasks c = .idle)
      (hgate : (s.entry.gate s.now type).1 = .ok ())
      (hwait : task = .cooling type ∨ task = .charging type) :
      Turn s (.call c type) ((s.setEntry (s.entry.gate s.now type).2).goto c task)
  | cooled {c type} (htask : s.tasks c = .cooling type) :
      Turn s (.cooled c) (s.goto c (.charging type))
  | charged {c type} (htask : s.tasks c = .charging type) :
      Turn s (.charged c true) (s.goto c (.delaying type))
  | throttled {c type} (htask : s.tasks c = .charging type) :
      Turn s (.charged c false) (s.goto c .idle)
  | attempted {c type} (htask : s.tasks c = .delaying type) :
      Turn s (.delayed c) { s.goto c (.executing type) with pausedUntil := none }
  | succeeded {c type} (htask : s.tasks c = .executing type) :
      Turn s (.succeeds c)
        { (s.setEntry (s.entry.succeed s.now type)).goto c .idle with
          completed := ⟨s.now, type⟩ :: s.completed }
  | failed {c type message elapsed} (htask : s.tasks c = .executing type) :
      Turn s (.throws c message elapsed)
        (((s.setEntry (s.entry.fail message)).goto c .idle).runSelfHealingCheck elapsed)
  | swept {elapsed} (hrunning : s.entry.status = .running) :
      Turn s (.sweep elapsed) (s.runSelfHealingCheck elapsed)
  | skipped {elapsed} (hrunning : s.entry.status ≠ .running) :
      Turn s (.sweep elapsed) { s with now := s.now + elapsed }
  | setStatus {status} : Turn s (.setStatus status) (s.setEntry { s.entry with status := status })
  | tick {ms} : Turn s (.tick ms) { s with now := s.now + ms }

theorem turn_of_call {c : ℕ} {type : String} (h : s.step (.call c type) = some t) :
    s.Turn (.call c type) t := by
  rw [step] at h
  split at h
  · have htask : s.tasks c = .idle := ‹_›
    split at h
    · rename_i message entry hgate
      obtain rfl := Option.some.inj h
      have hfirst : (s.entry.gate s.now type).1 = .error message := by rw [hgate]
      have hentry : entry = (s.entry.gate s.now type).2 := by rw [hgate]
      rw [hentry]
      exact .refused htask hfirst
    · rename_i entry hgate
      have hfirst : (s.entry.gate s.now type).1 = .ok () := by rw [hgate]
      have hentry : entry = (s.entry.gate s.now type).2 := by rw [hgate]
      rw [hentry] at h
      split at h <;> obtain rfl := Option.some.inj h
      · exact .passed htask hfirst (.inl rfl)
      · exact .passed htask hfirst (.inr rfl)
  · cases h

theorem turn_of_step {a : SendAction} (h : s.step a = some t) : s.Turn a t := by
  cases a with
  | call c type => exact turn_of_call h
  | cooled c =>
    rw [step] at h
    split at h <;> cases h
    exact .cooled ‹_›
  | charged c allowed =>
    rw [step] at h
    split at h <;> cases h
    cases allowed with
    | true => exact .charged ‹_›
    | false => exact .throttled ‹_›
  | delayed c =>
    rw [step] at h
    split at h <;> cases h
    exact .attempted ‹_›
  | succeeds c =>
    rw [step] at h
    split at h <;> cases h
    exact .succeeded ‹_›
  | throws c message elapsed =>
    rw [step] at h
    split at h <;> cases h
    exact .failed ‹_›
  | sweep elapsed =>
    rw [step] at h
    split at h <;> cases h
    · exact .swept ‹_›
    · exact .skipped ‹_›
  | setStatus status =>
    cases h
    exact .setStatus
  | tick ms =>
    cases h
    exact .tick

end SendState

end BotHive.Workers
