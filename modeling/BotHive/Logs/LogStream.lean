import BotHive.Library.Json
import BotHive.Library.Machine
import BotHive.Library.RingBuffer
import BotHive.Scripts.Language

/-!
# The log stream hub

Log entries go to all sockets that listen, each of which has a filter for its tenant. A new socket
is given the last entries first. A socket whose buffer overflows is closed, and one whose `send`
fails is dropped; how full the buffers are and which sockets fail is up to each call.

## Main definitions

- `LogStreamHub.add`, `LogStreamHub.remove`, `LogStreamHub.push`, `LogStreamHub.broadcast`
- `HubRun.step`: calls in any order, with a record of what each call sent
- `HubRun.Right`: every call has sent what it should
- `PassesFilter`: the condition on a call for it
-/

namespace BotHive.Logs

def MAX_BUFFERED_BYTES : ℕ := 2 * 1024 * 1024

def MAX_SOCKETS : ℕ := 200

def MAX_BACKLOG : ℕ := 200

/-- The filter of a socket of a user: the bots that the user owned when connecting. -/
def tenantFilter (ownedBotIds : List String) (entry : Value) : Bool :=
  ownedBotIds.contains (match entry.field "botId" with
    | .str botId => botId
    | _ => "\x00")

inductive HubMessage
  | log (data : Value)
  | status (listeners : ℕ)
  | error (message : String)

variable {S : Type*} [DecidableEq S]

/-- The sockets during a call. -/
structure SocketStates (S : Type*) where
  bufferedAmount : S → ℕ
  sendFails : S → Bool

structure LogStreamHub (S : Type*) where
  /-- In the order in which they were added. -/
  sockets : List S
  backlog : RingBuffer Value

namespace LogStreamHub

def empty : LogStreamHub S where
  sockets := []
  backlog := RingBuffer.empty

variable (filter : S → Value → Bool) (states : SocketStates S)

/-- A log entry is skipped only if it is truthy and the filter rejects it. -/
def skips (message : HubMessage) (socket : S) : Bool :=
  match message with
  | .log entry => entry.truthy && !filter socket entry
  | _ => false

/-- The loop of `broadcast`: the sockets that are kept, and what is given to `send`. -/
def broadcast (message : HubMessage) : List S → List S × List (S × HubMessage)
  | [] => ([], [])
  | socket :: rest =>
    let (kept, sent) := broadcast message rest
    if skips filter message socket then (socket :: kept, sent)
    else if states.bufferedAmount socket > MAX_BUFFERED_BYTES then (kept, sent)
    else if states.sendFails socket then (kept, (socket, message) :: sent)
    else (socket :: kept, (socket, message) :: sent)

def status (hub : LogStreamHub S) : HubMessage :=
  .status hub.sockets.length

/-- Send a message to all sockets. -/
def toAll (hub : LogStreamHub S) (message : HubMessage) : LogStreamHub S × List (S × HubMessage) :=
  let (kept, sent) := broadcast filter states message hub.sockets
  ({ hub with sockets := kept }, sent)

/-- Whether the socket is accepted, and what is given to `send`. -/
def add (hub : LogStreamHub S) (socket : S) : Bool × LogStreamHub S × List (S × HubMessage) :=
  if hub.sockets.length ≥ MAX_SOCKETS then
    (false, hub, [(socket, .error "Too many log connections")])
  else
    let hub := { hub with sockets :=
      if socket ∈ hub.sockets then hub.sockets else hub.sockets ++ [socket] }
    let replay := (hub.backlog.toList MAX_BACKLOG).filterMap fun entry =>
      if filter socket entry then some (socket, HubMessage.log entry) else none
    let (hub, sent) := hub.toAll filter states hub.status
    (true, hub, replay ++ sent)

def remove (hub : LogStreamHub S) (socket : S) : LogStreamHub S × List (S × HubMessage) :=
  let hub := { hub with sockets := hub.sockets.erase socket }
  hub.toAll filter states hub.status

def push (hub : LogStreamHub S) (entry : Value) : LogStreamHub S × List (S × HubMessage) :=
  let hub := { hub with backlog := hub.backlog.push MAX_BACKLOG entry }
  hub.toAll filter states (.log entry)

end LogStreamHub

inductive HubCall (S : Type*)
  | add (socket : S)
  | remove (socket : S)
  | push (entry : Value)

/-- What a call has sent. -/
structure HubRecord (S : Type*) where
  call : HubCall S
  /-- The entries pushed before the call. -/
  pushed : List Value
  accepted : Bool
  sent : List (S × HubMessage)

structure HubRun (S : Type*) where
  hub : LogStreamHub S
  pushed : List Value
  records : List (HubRecord S)

/-- The log entries given to the `send` of a socket. -/
def logsTo (socket : S) (sent : List (S × HubMessage)) : List Value :=
  sent.filterMap fun e => match e.2 with
    | .log entry => if e.1 = socket then some entry else none
    | _ => none

namespace HubRun

def start : HubRun S where
  hub := LogStreamHub.empty
  pushed := []
  records := []

variable (filter : S → Value → Bool)

def step (run : HubRun S) (c : HubCall S × SocketStates S) : HubRun S :=
  match c.1 with
  | .add socket =>
    let (accepted, hub, sent) := run.hub.add filter c.2 socket
    { run with hub, records := run.records ++ [⟨.add socket, run.pushed, accepted, sent⟩] }
  | .remove socket =>
    let (hub, sent) := run.hub.remove filter c.2 socket
    { run with hub, records := run.records ++ [⟨.remove socket, run.pushed, true, sent⟩] }
  | .push entry =>
    let (hub, sent) := run.hub.push filter c.2 entry
    { hub
      pushed := run.pushed ++ [entry]
      records := run.records ++ [⟨.push entry, run.pushed, true, sent⟩] }

end HubRun

section Property

variable (filter : S → Value → Bool)

/-- A new socket is given the last entries that its filter accepts, in order; a socket is given
    only entries that its filter accepts, and by one push at most the entry, once. -/
structure HubRecord.Right (r : HubRecord S) : Prop where
  replay : ∀ socket, r.call = .add socket → r.accepted = true →
    logsTo socket r.sent = (r.pushed.rtake 200).filter (filter socket)
  passes : ∀ socket, ∀ entry ∈ logsTo socket r.sent, filter socket entry = true
  once : ∀ entry, r.call = .push entry →
    ∀ socket, logsTo socket r.sent = [] ∨ logsTo socket r.sent = [entry]

structure HubRun.Right (run : HubRun S) : Prop where
  records : ∀ r ∈ run.records, r.Right filter
  sockets : run.hub.sockets.length ≤ 200

/-- An entry that is falsy is accepted by the filter of every socket that does not overflow. -/
def PassesFilter (run : HubRun S) (c : HubCall S × SocketStates S) : Prop :=
  ∀ entry, c.1 = .push entry → entry.truthy = false → ∀ socket ∈ run.hub.sockets,
    c.2.bufferedAmount socket ≤ MAX_BUFFERED_BYTES → filter socket entry = true

end Property

end BotHive.Logs
