import BotHive.Library.Json
import BotHive.Library.Text
import Mathlib.Logic.Function.Basic
import Mathlib.Tactic.Common

/-!
# The stream hub

One socket for each watched symbol, shared by its listeners. An entry of the hub counts the
listeners of a symbol, and holds its current socket or the timer that opens the next one. The
entry is an object that handlers and timers keep after the hub has dropped it, and a socket is
one that the hub has created, up to its end: a socket that is closing may still have messages.

## Main definitions

- `SymbolSocket`, `Wire`: an entry of the hub, and a socket
- `SymbolStreamHub`: the hub with all entries and sockets there have been
- `SymbolStreamHub.step`: calls, events of sockets and timers, in any order

The listeners that have subscribed (`subscribers`) and the ticks that came in (`delivered`)
are kept for the statement only. Listeners do not throw.
-/

namespace BotHive.Crypto

/-- An entry of the hub. -/
structure SymbolSocket where
  symbol : String
  ws : Option ℕ
  refs : List ℕ
  /-- When the reconnect timer is due, in milliseconds. -/
  reconnectTimer : Option ℤ
  heartbeatTimer : Bool
  reconnectAttempts : ℕ
  lastMessageAt : ℤ

/-- A WebSocket with the entry that its handlers belong to. -/
structure Wire where
  entry : ℕ
  closeListener : Bool
  closed : Bool

/-- A tick; a number is none when it is not a number. -/
structure StreamTick where
  symbol : String
  price : Option ℚ
  change24h : Option (Option ℚ)
  timestamp : Value

/-- A tick that came in, with the listeners that were called. -/
structure Delivery where
  symbol : String
  tick : StreamTick
  receivers : List ℕ
  /-- Who had subscribed to the symbol. -/
  subscribers : List ℕ
  /-- The hub still has the entry of the socket. -/
  current : Bool

structure SymbolStreamHub where
  now : ℤ
  sockets : String → Option ℕ
  entries : ℕ → SymbolSocket
  created : ℕ
  wires : ℕ → Wire
  opened : ℕ
  subscribers : String → List ℕ
  delivered : List Delivery

inductive HubAction where
  | wait (ms : ℕ)
  /-- `constructed` says whether the constructor of a socket succeeds, if it is called. -/
  | subscribe (symbol : String) (onTick : ℕ) (constructed : Bool)
  /-- What `subscribe` has returned is called, perhaps again. -/
  | unsubscribe (key : String) (onTick : ℕ)
  | opened (ws : ℕ)
  /-- A frame with its JSON value, none if it is malformed. -/
  | message (ws : ℕ) (frame : Option Value)
  | error (ws : ℕ)
  | close (ws : ℕ)
  | reconnect (entry : ℕ) (constructed : Bool)
  | heartbeat (entry : ℕ)

def maxReconnectMs : ℕ := 30000

def staleSocketMs : ℤ := 90000

def reconnectDelay (reconnectAttempts : ℕ) : ℕ :=
  min maxReconnectMs (1000 * 2 ^ min reconnectAttempts 5)

def SymbolSocket.new (symbol : String) : SymbolSocket where
  symbol := symbol
  ws := none
  refs := []
  reconnectTimer := none
  heartbeatTimer := false
  reconnectAttempts := 0
  lastMessageAt := 0

/-- A listener is in a set at most once. -/
def addRef (refs : List ℕ) (onTick : ℕ) : List ℕ :=
  if onTick ∈ refs then refs else refs ++ [onTick]

def removeRef (refs : List ℕ) (onTick : ℕ) : List ℕ :=
  refs.filter fun other => other ≠ onTick

namespace SymbolStreamHub

def start : SymbolStreamHub where
  now := 0
  sockets _ := none
  entries _ := .new ""
  created := 0
  wires _ := ⟨0, false, true⟩
  opened := 0
  subscribers _ := []
  delivered := []

def modify (s : SymbolStreamHub) (e : ℕ) (f : SymbolSocket → SymbolSocket) : SymbolStreamHub :=
  { s with entries := Function.update s.entries e (f (s.entries e)) }

def setWire (s : SymbolStreamHub) (w : ℕ) (wire : Wire) : SymbolStreamHub :=
  { s with wires := Function.update s.wires w wire }

def scheduleReconnect (s : SymbolStreamHub) (e : ℕ) : SymbolStreamHub :=
  if (s.entries e).refs = [] ∨ (s.entries e).reconnectTimer.isSome then s
  else s.modify e fun entry => { entry with
    reconnectTimer := some (s.now + reconnectDelay entry.reconnectAttempts)
    reconnectAttempts := entry.reconnectAttempts + 1 }

/-- Open a socket for an entry, unless the constructor throws. -/
def «open» (s : SymbolStreamHub) (e : ℕ) (constructed : Bool) : SymbolStreamHub :=
  if constructed then
    { s.setWire s.opened ⟨e, true, false⟩ with opened := s.opened + 1 }.modify e fun entry =>
      { entry with ws := some s.opened, lastMessageAt := s.now }
  else s.scheduleReconnect e

/-- Create an entry; the hub does not have it yet, and it has no listeners. -/
def createSocket (s : SymbolStreamHub) (symbol : String) (constructed : Bool) : SymbolStreamHub :=
  let s' := { s with
    entries := Function.update s.entries s.created (.new symbol)
    created := s.created + 1 }
  (s'.open s.created constructed).modify s.created fun entry =>
    { entry with heartbeatTimer := true }

/-- Give up a socket without its close handler. -/
def detach (s : SymbolStreamHub) (e w : ℕ) : SymbolStreamHub :=
  (s.setWire w { s.wires w with closeListener := false }).modify e fun entry =>
    { entry with ws := none }

def closeSocket (s : SymbolStreamHub) (key : String) (e : ℕ) : SymbolStreamHub :=
  let s' := { s with sockets := Function.update s.sockets key none }.modify e fun entry =>
    { entry with reconnectTimer := none, heartbeatTimer := false }
  match (s.entries e).ws with
  | none => s'
  | some w => s'.detach e w

section Calls

variable [CaseMapping]

/-- `note` what the callers know. -/
def note (s : SymbolStreamHub) (key : String) (listeners : List ℕ) : SymbolStreamHub :=
  { s with subscribers := Function.update s.subscribers key listeners }

def subscribe (s : SymbolStreamHub) (symbol : String) (onTick : ℕ) (constructed : Bool) :
    SymbolStreamHub :=
  let key := toUpperCase symbol
  let add (entry : SymbolSocket) : SymbolSocket := { entry with refs := addRef entry.refs onTick }
  let s' := s.note key (addRef (s.subscribers key) onTick)
  match s.sockets key with
  | some e => s'.modify e add
  | none =>
    let created := s'.createSocket key constructed
    { created with sockets := Function.update created.sockets key (some s.created) }.modify
      s.created add

def unsubscribe (s : SymbolStreamHub) (key : String) (onTick : ℕ) : SymbolStreamHub :=
  let s' := s.note key (removeRef (s.subscribers key) onTick)
  match s.sockets key with
  | none => s'
  | some e =>
    let removed := s'.modify e fun entry => { entry with refs := removeRef entry.refs onTick }
    if (removed.entries e).refs = [] then removed.closeSocket key e else removed

end Calls

section Messages

variable [CaseMapping] (number : Value → Option ℚ)

/-- The tick of a frame, unless it is malformed or for another symbol. -/
def parseTick (symbol : String) (now : ℤ) : Option Value → Option StreamTick
  | none | some .null => none
  | some frame =>
    let d := (frame.field "data").orElse frame
    match d.field "s" with
    | .str s =>
      match d.field "c" with
      | .undefined => none
      | c =>
        if s = "" ∨ toUpperCase s ≠ symbol then none
        else some {
          symbol := s
          price := number c
          change24h :=
            match d.field "P" with
            | .undefined => none
            | p => some (number p)
          timestamp := (d.field "E").orElse (.num now) }
    -- what is not a text has no upper case, and the exception is caught
    | _ => none

/-- `handleMessage` with the listeners of an entry. -/
def handleMessage (s : SymbolStreamHub) (e : ℕ) (frame : Option Value) : SymbolStreamHub :=
  let entry := s.entries e
  match parseTick number entry.symbol s.now frame with
  | none => s
  | some tick =>
    { s with delivered :=
        { symbol := entry.symbol
          tick := tick
          receivers := entry.refs
          subscribers := s.subscribers entry.symbol
          current := s.sockets entry.symbol = some e } :: s.delivered }

def heartbeat (s : SymbolStreamHub) (e : ℕ) : SymbolStreamHub :=
  match (s.entries e).ws with
  | none => s
  | some w =>
    if staleSocketMs < s.now - (s.entries e).lastMessageAt then
      (s.detach e w).scheduleReconnect e
    -- a ping that fails is followed by the close of the socket
    else s

/-- The close handler of a socket. -/
def onClose (s : SymbolStreamHub) (w : ℕ) : SymbolStreamHub :=
  let e := (s.wires w).entry
  let s' := if (s.entries e).ws = some w then s.modify e fun entry => { entry with ws := none }
    else s
  s'.scheduleReconnect e

def step (s : SymbolStreamHub) : HubAction → Option SymbolStreamHub
  | .wait ms => some { s with now := s.now + ms }
  | .subscribe symbol onTick constructed => some (s.subscribe symbol onTick constructed)
  | .unsubscribe key onTick => some (s.unsubscribe key onTick)
  | .opened w =>
    if (s.wires w).closed then none
    else some (s.modify (s.wires w).entry fun entry =>
      { entry with reconnectAttempts := 0, lastMessageAt := s.now })
  | .message w frame =>
    if (s.wires w).closed then none
    else some ((s.modify (s.wires w).entry fun entry =>
      { entry with lastMessageAt := s.now }).handleMessage number (s.wires w).entry frame)
  | .error w => if (s.wires w).closed then none else some s
  | .close w =>
    if (s.wires w).closed then none
    else
      let s' := s.setWire w { s.wires w with closed := true }
      some (if (s.wires w).closeListener then s'.onClose w else s')
  | .reconnect e constructed =>
    match (s.entries e).reconnectTimer with
    | none => none
    | some due =>
      if due ≤ s.now then
        some ((s.modify e fun entry => { entry with reconnectTimer := none }).open e constructed)
      else none
  | .heartbeat e => if (s.entries e).heartbeatTimer then some (s.heartbeat e) else none

end Messages

end SymbolStreamHub

end BotHive.Crypto
